import LeanLibp2p.Gossipsub.Codec.Encoding
import LeanLibp2p.Gossipsub.Tx.Invariant
import Mathlib.Algebra.BigOperators.Group.List.Basic

/-!
# Enqueueing a frame

`gossipsub_enqueue_rpc_with_lifetime` in its steps: making room in the buffer, reserving an
item, writing the frame, and linking the item. Every step keeps the invariant and the items
that wait already.
-/

namespace LeanLibp2p.Gossipsub

open LeanLibp2p.Lib

variable {config : Config} {tx : Tx} {q : Nat → List Nat}

/-! ## Making room -/

theorem Tx.Compacts.sameLists {tx tx' : Tx} (h : Tx.Compacts tx tx') : Tx.SameLists tx tx' := by
  have hitem : ∀ {α : Type} (f : TxItem → α), (∀ item n, f { item with offset := n } = f item) →
      ∀ i, f (tx'.queue i) = f (tx.queue i) := by
    intro α f hf i
    rcases h.items i with ⟨n, hn⟩
    rw [hn, hf]
  refine ⟨?_, hitem TxItem.used fun _ _ => rfl, hitem TxItem.priority fun _ _ => rfl,
    hitem TxItem.peerIndex fun _ _ => rfl, ?_, h.queueLen⟩
  · intro p
    exact ⟨_, _, _, by rw [h.peer]⟩
  · funext i
    exact hitem TxItem.next (fun _ _ => rfl) i

/-- The bytes of the frames that wait. -/
def Tx.liveBytes (config : Config) (tx : Tx) : Nat := ((tx.usedSlots config).map tx.len).sum

/-- Compaction moves the items together and keeps their bytes. -/
theorem txCompactBuffer_spec (h : TxInv config tx q none) (hfits : config.capacity.txBufferBytes ≤ ptrdiffMax) :
    BufferInv config (txCompactBuffer config tx) ∧
      Tx.SameLists tx (txCompactBuffer config tx) ∧
      (∀ i, tx.Used config i → Tx.Keeps tx (txCompactBuffer config tx) i) ∧
      (tx.queueLen ≠ 0 → (txCompactBuffer config tx).bufferUsed = tx.liveBytes config) := by
  unfold txCompactBuffer
  split
  · obtain ⟨order, hperm, hsorted⟩ : ∃ order, order.Perm (tx.usedSlots config) ∧
        Arena.Sorted tx.len tx.arena 0 order :=
      Arena.exists_sorted tx.arena (tx.usedSlots_nodup config)
        (fun i hi j hj => h.buffer.apart i j (Tx.mem_usedSlots.mp hi) (Tx.mem_usedSlots.mp hj))
        (fun i hi => (h.buffer.range i (Tx.mem_usedSlots.mp hi)).1)
    have hnd : order.Nodup := hperm.nodup_iff.mpr (tx.usedSlots_nodup config)
    have hmem : ∀ i, i ∈ order ↔ tx.Used config i := by
      intro i
      rw [hperm.mem_iff, Tx.mem_usedSlots]
    have hcandidate : ∀ i, tx.Candidate config 0 i ↔ i ∈ order := by
      intro i
      rw [hmem]
      unfold Tx.Candidate Tx.Used
      simp
    have hmax : ∀ i ∈ order, (tx.queue i).offset + tx.len i ≤ sizeMax := by
      intro i hi
      have hrange := h.buffer.range i ((hmem i).mp hi)
      have := h.buffer.used_le
      unfold ptrdiffMax at hfits
      unfold sizeMax
      omega
    have hloop := txCompactLoop_eq hsorted hnd (Nat.le_refl 0) hcandidate
      (fun i hi => (h.buffer.range i ((hmem i).mp hi)).1) hmax
    rw [hperm.length_eq, ← h.count] at hloop
    rcases hloop with ⟨harena, hcursor, hcompacts⟩
    rcases Arena.slideAll_spec hsorted hnd with ⟨hall, hpairs, hend⟩
    generalize txCompactLoop config tx.queueLen 0 0 tx = res at harena hcursor hcompacts
    rcases res with ⟨tx', cursor⟩
    dsimp only at harena hcursor hcompacts ⊢
    rw [← harena, ← hcursor] at hall
    rw [← harena] at hpairs
    rw [← hcursor] at hend
    let final : Tx := { tx' with bufferUsed := cursor }
    have hsame : Tx.SameLists tx final :=
      ⟨hcompacts.sameLists.peers, hcompacts.sameLists.used, hcompacts.sameLists.priority,
        hcompacts.sameLists.peerIndex, hcompacts.sameLists.next, hcompacts.sameLists.queueLen⟩
    have hlen : ∀ i, final.len i = tx.len i := by
      intro i
      rcases hcompacts.items i with ⟨n, hn⟩
      change (tx'.queue i).len = _
      rw [hn]
      rfl
    refine ⟨⟨?_, ?_, ?_, ?_⟩, hsame, ?_, fun _ => ?_⟩
    · intro i hi
      have hi' := (hsame.used_iff config i).mp hi
      rw [hlen]
      exact ⟨(h.buffer.range i hi').1, (hall i ((hmem i).mpr hi')).2.2⟩
    · intro i hi
      have hi' := (hsame.used_iff config i).mp hi
      rcases hcompacts.items i with ⟨n, hn⟩
      have hpos := h.buffer.pos_le i hi'
      rw [hlen]
      change (tx'.queue i).pos ≤ _
      rw [hn]
      exact hpos
    · intro i j hi hj hij
      have hi' := (hmem i).mpr ((hsame.used_iff config i).mp hi)
      have hj' := (hmem j).mpr ((hsame.used_iff config j).mp hj)
      have hapart := Arena.apart_of_pairwise hpairs hi' hj' hij
      unfold Arena.Apart at hapart ⊢
      rw [hlen, hlen]
      exact hapart
    · change cursor ≤ _
      have hsum : 0 + (order.map tx.len).sum ≤ tx.bufferUsed :=
        hsorted.sum_le (Nat.zero_le _) fun i hi => (h.buffer.range i ((hmem i).mp hi)).2
      have := h.buffer.used_le
      omega
    · intro i hi
      rcases hcompacts.items i with ⟨n, hn⟩
      refine ⟨?_, ?_⟩
      · change (tx'.queue i).core = _
        rw [hn]
        rfl
      · have hcontent := (hall i ((hmem i).mpr hi)).1
        change tx'.buffer.slice (tx'.queue i).offset (final.len i) = _
        rw [hlen]
        exact hcontent
    · rw [Nat.zero_add] at hend
      exact hend.trans (hperm.map tx.len).sum_eq
  · rename_i hempty
    exact ⟨h.buffer, ⟨fun _ => ⟨_, _, _, rfl⟩, fun _ => rfl, fun _ => rfl, fun _ => rfl, rfl, rfl⟩,
      fun i _ => Tx.Keeps.refl tx i, fun hne => absurd hne hempty⟩

theorem txMakeRoom_spec (h : TxInv config tx q none) (hfits : config.capacity.txBufferBytes ≤ ptrdiffMax)
    (frameLen : Nat) :
    TxInv config (txMakeRoom config frameLen tx) q none ∧
      ∀ i, tx.Used config i → Tx.Keeps tx (txMakeRoom config frameLen tx) i := by
  unfold txMakeRoom
  -- the buffer restarts when no item is left
  obtain ⟨tx₁, htx₁, hinv₁, hkeeps₁⟩ : ∃ tx₁,
      (if config.capacity.txBufferBytes - tx.bufferUsed < frameLen ∧ tx.queueLen = 0 then
        { tx with bufferUsed := 0 } else tx) = tx₁ ∧ TxInv config tx₁ q none ∧
      ∀ i, Tx.Keeps tx tx₁ i := by
    refine ⟨_, rfl, ?_⟩
    split
    · rename_i hempty
      have hnone : ∀ i, ¬ tx.Used config i := by
        intro i hi
        have hmem := Tx.mem_usedSlots.mpr hi
        have hcount := h.count
        rw [hempty.2] at hcount
        rw [List.eq_nil_of_length_eq_zero hcount.symm] at hmem
        cases hmem
      refine ⟨h.sameLists ⟨fun _ => ⟨_, _, _, rfl⟩, fun _ => rfl, fun _ => rfl, fun _ => rfl, rfl, rfl⟩
        ?_, fun i => ⟨rfl, rfl⟩⟩
      exact ⟨fun i hi => absurd hi (hnone i), fun i hi => absurd hi (hnone i),
        fun i _ hi => absurd hi (hnone i), Nat.zero_le _⟩
    · exact ⟨h, Tx.Keeps.refl tx⟩
  simp only [htx₁]
  have hused : ∀ i, tx.Used config i → tx₁.Used config i := by
    intro i hi
    refine ⟨hi.1, ?_⟩
    rw [(hkeeps₁ i).field_eq TxItem.used fun _ => rfl]
    exact hi.2
  split
  · rcases txCompactBuffer_spec hinv₁ hfits with ⟨hbuffer, hsame, hkeeps, -⟩
    exact ⟨hinv₁.sameLists hsame hbuffer, fun i hi => (hkeeps₁ i).trans (hkeeps i (hused i hi))⟩
  · exact ⟨hinv₁, fun i _ => hkeeps₁ i⟩

/-- There is room already, or the buffer restarts, or it is compacted. -/
theorem txMakeRoom_cases (config : Config) (frameLen : Nat) (tx : Tx) :
    (frameLen ≤ config.capacity.txBufferBytes - tx.bufferUsed ∧
      txMakeRoom config frameLen tx = tx) ∨
    (tx.queueLen = 0 ∧ txMakeRoom config frameLen tx = { tx with bufferUsed := 0 }) ∨
    (tx.queueLen ≠ 0 ∧ txMakeRoom config frameLen tx = txCompactBuffer config tx) := by
  by_cases hspace : config.capacity.txBufferBytes - tx.bufferUsed < frameLen
  · by_cases hempty : tx.queueLen = 0
    · exact .inr (.inl ⟨hempty, by simp [txMakeRoom, hspace, hempty]⟩)
    · exact .inr (.inr ⟨hempty, by simp [txMakeRoom, hspace, hempty]⟩)
  · exact .inl ⟨Nat.le_of_not_lt hspace, by simp [txMakeRoom, hspace]⟩

/-- Room is missing afterwards only when the frame does not fit beside those that wait. -/
theorem txMakeRoom_full (h : TxInv config tx q none) (hfits : config.capacity.txBufferBytes ≤ ptrdiffMax)
    {frameLen : Nat}
    (hfull : config.capacity.txBufferBytes - (txMakeRoom config frameLen tx).bufferUsed < frameLen) :
    config.capacity.txBufferBytes < tx.liveBytes config + frameLen := by
  rcases txMakeRoom_cases config frameLen tx with ⟨hspace, hroom⟩ | ⟨-, hroom⟩ | ⟨hne, hroom⟩
  · rw [hroom] at hfull
    omega
  · rw [hroom] at hfull
    dsimp only at hfull
    omega
  · rw [hroom, (txCompactBuffer_spec h hfits).2.2.2 hne] at hfull
    omega

theorem txMakeRoom_queueLen (h : TxInv config tx q none) (hfits : config.capacity.txBufferBytes ≤ ptrdiffMax)
    (frameLen : Nat) : (txMakeRoom config frameLen tx).queueLen = tx.queueLen := by
  rcases txMakeRoom_cases config frameLen tx with ⟨-, hroom⟩ | ⟨-, hroom⟩ | ⟨-, hroom⟩
  · rw [hroom]
  · rw [hroom]
  · rw [hroom]
    exact (txCompactBuffer_spec h hfits).2.1.queueLen

/-! ## Reserving an item -/

/-- Counting the used slots with one more. -/
theorem Tx.usedSlots_insert {tx tx' : Tx} {i : Nat}
    (hi : i < config.capacity.maxTxRpcQueue) (hfree : (tx.queue i).used = false)
    (hused : (tx'.queue i).used = true)
    (hothers : ∀ j, j ≠ i → (tx'.queue j).used = (tx.queue j).used) :
    (tx'.usedSlots config).length = (tx.usedSlots config).length + 1 := by
  have herase : (tx.usedSlots config).length = (tx'.usedSlots config).length - 1 :=
    Tx.usedSlots_erase ⟨hi, hused⟩ hfree fun j hj => (hothers j hj).symm
  have hmem : i ∈ tx'.usedSlots config := Tx.mem_usedSlots.mpr ⟨hi, hused⟩
  have := List.length_pos_of_mem hmem
  omega

/-- What a reservation does: item `i` gets a range of `frameLen` bytes at the end of the
    buffer, and the items that wait stay as they are. -/
structure Tx.Reserves (config : Config) (tx tx' : Tx) (p frameLen i : Nat) : Prop where
  free : ¬ tx.Used config i
  pos : (tx'.queue i).pos = 0
  len : tx'.len i = frameLen
  peerIndex : (tx'.queue i).peerIndex = p
  keeps : ∀ j, tx.Used config j → Tx.Keeps tx tx' j

/-- A fresh item for a free slot, with a range at the end of the buffer. -/
structure TxItem.Reservable (config : Config) (tx : Tx) (item : TxItem) : Prop where
  used : item.used = true
  peerIndex : item.peerIndex < config.capacity.maxPeers
  next : item.next = none
  pos : item.pos = 0
  offset : item.offset = tx.bufferUsed
  len : 0 < item.len
  space : item.len ≤ config.capacity.txBufferBytes - tx.bufferUsed

/-- The item goes into slot `i` and is counted. -/
def Tx.occupy (tx : Tx) (i : Nat) (item : TxItem) : Tx :=
  { tx.setItem i item with
    bufferUsed := tx.bufferUsed + item.len
    queueLen := tx.queueLen + 1 }

namespace Tx

variable {tx : Tx} {i j : Nat} {item : TxItem}

theorem occupy_self : (tx.occupy i item).queue i = item := setItem_self ..

theorem occupy_of_ne (hj : j ≠ i) : (tx.occupy i item).queue j = tx.queue j :=
  setItem_of_ne tx item hj

theorem occupy_len (hj : j ≠ i) : (tx.occupy i item).len j = tx.len j := by
  rw [len, occupy_of_ne hj]
  rfl

theorem occupy_keeps (hj : j ≠ i) : Keeps tx (tx.occupy i item) j := by
  unfold Keeps content
  rw [occupy_of_ne hj]
  exact ⟨rfl, rfl⟩

theorem Used.of_occupy (hj : (tx.occupy i item).Used config j) (hji : j ≠ i) :
    tx.Used config j := by
  refine ⟨hj.1, ?_⟩
  rw [← occupy_of_ne hji]
  exact hj.2

end Tx

/-- The new range starts where all others end. -/
theorem TxInv.buffer_occupy (h : TxInv config tx q none) {i : Nat} {item : TxItem}
    (hitem : item.Reservable config tx) : BufferInv config (tx.occupy i item) := by
  have hlen : (tx.occupy i item).len i = item.len := by rw [Tx.len, Tx.occupy_self]
  have hspace := hitem.space
  have hend : ∀ j, (tx.occupy i item).Used config j → j ≠ i →
      (tx.occupy i item).arena.offset j + (tx.occupy i item).len j ≤
        (tx.occupy i item).arena.offset i := by
    intro j hj hji
    have hrange := (h.buffer.range j (hj.of_occupy hji)).2
    simp only [Tx.arena, Tx.occupy_self, Tx.occupy_of_ne hji, hitem.offset]
    rw [Tx.occupy_len hji]
    exact hrange
  refine { range := ?range, pos_le := ?pos_le, apart := ?apart, used_le := ?used_le }
  case range =>
    intro j hj
    change _ ∧ _ ≤ tx.bufferUsed + item.len
    by_cases hji : j = i
    · subst hji
      rw [hlen, Tx.occupy_self, hitem.offset]
      exact ⟨hitem.len, Nat.le_refl _⟩
    · rw [Tx.occupy_len hji, Tx.occupy_of_ne hji]
      have hrange := h.buffer.range j (hj.of_occupy hji)
      omega
  case pos_le =>
    intro j hj
    by_cases hji : j = i
    · subst hji
      rw [Tx.occupy_self, hitem.pos]
      exact Nat.zero_le _
    · rw [Tx.occupy_len hji, Tx.occupy_of_ne hji]
      exact h.buffer.pos_le j (hj.of_occupy hji)
  case apart =>
    intro j k hj hk hjk
    by_cases hji : j = i
    · subst hji
      exact .inr (hend k hk hjk.symm)
    · by_cases hki : k = i
      · subst hki
        exact .inl (hend j hj hji)
      · have hapart := h.buffer.apart j k (hj.of_occupy hji) (hk.of_occupy hki) hjk
        unfold Arena.Apart at hapart ⊢
        simpa only [Tx.arena, Tx.occupy_of_ne hji, Tx.occupy_of_ne hki, Tx.occupy_len hji,
          Tx.occupy_len hki] using hapart
  case used_le =>
    have hle := h.buffer.used_le
    change tx.bufferUsed + item.len ≤ _
    omega

/-- Filling a free slot with a fresh item at the end of the buffer. -/
theorem TxInv.reserveItem (h : TxInv config tx q none) {i : Nat} {item : TxItem}
    (hi : i < config.capacity.maxTxRpcQueue) (hfree : (tx.queue i).used = false)
    (hitem : item.Reservable config tx) : TxInv config (tx.occupy i item) q (some i) := by
  have hqueued : ∀ p < config.capacity.maxPeers, ∀ j ∈ q p, j ≠ i := by
    rintro p hp j hj rfl
    have hused := (h.queued p hp j hj).1.2
    rw [hfree] at hused
    cases hused
  refine {
    queue := ?queue
    owner := ?owner
    queued := ?queued
    fresh := ?fresh
    count := ?count
    buffer := h.buffer_occupy hitem }
  case queue =>
    intro p hp
    apply (h.queue p hp).congr
    case hnext =>
      intro j hj
      rw [Tx.next, Tx.occupy_of_ne (hqueued p hp j hj)]
      rfl
    case hprio =>
      intro j hj
      rw [Tx.occupy_of_ne (hqueued p hp j hj)]
    all_goals rfl
  case owner =>
    intro j hj
    by_cases hji : j = i
    · subst hji
      rw [Tx.occupy_self]
      exact ⟨hitem.peerIndex, fun hne => absurd rfl hne⟩
    · rw [Tx.occupy_of_ne hji]
      have howner := h.owner j (hj.of_occupy hji)
      exact ⟨howner.1, fun _ => howner.2 (by simp)⟩
  case queued =>
    intro p hp j hj
    have hji := hqueued p hp j hj
    rcases h.queued p hp j hj with ⟨hju, hjp, -⟩
    unfold Tx.Used
    rw [Tx.occupy_of_ne hji]
    refine ⟨hju, hjp, ?_⟩
    intro heq
    exact hji (Option.some.inj heq).symm
  case fresh =>
    intro j hj
    cases hj
    unfold Tx.Used Tx.next
    rw [Tx.occupy_self]
    exact ⟨⟨hi, hitem.used⟩, hitem.next⟩
  case count =>
    change tx.queueLen + 1 = _
    rw [h.count]
    refine (Tx.usedSlots_insert hi hfree ?_ fun j hj => by rw [Tx.occupy_of_ne hj]).symm
    rw [Tx.occupy_self]
    exact hitem.used

theorem txReserve_spec {tx tx' : Tx} {q : Nat → List Nat}
    (h : TxInv config tx q none) (hfits : config.capacity.txBufferBytes ≤ ptrdiffMax)
    {p frameLen lifetimeUs nowUs : Nat} (hpos : 0 < frameLen)
    {result : Except GossipsubErr Nat}
    (hres : txReserve config p frameLen lifetimeUs nowUs tx = (result, tx')) :
    (∀ e, result = .error e → TxInv config tx' q none ∧
      ∀ j, tx.Used config j → Tx.Keeps tx tx' j) ∧
    (∀ i, result = .ok i → TxInv config tx' q (some i) ∧
      Tx.Reserves config tx tx' p frameLen i) := by
  have hstay : TxInv config tx q none ∧ ∀ j, tx.Used config j → Tx.Keeps tx tx j :=
    ⟨h, fun j _ => Tx.Keeps.refl tx j⟩
  unfold txReserve at hres
  split at hres
  · cases hres
    exact ⟨fun _ _ => hstay, fun _ hi => by cases hi⟩
  rename_i hp
  split at hres
  · cases hres
    exact ⟨fun _ _ => hstay, fun _ hi => by cases hi⟩
  split at hres
  · cases hres
    exact ⟨fun _ _ => hstay, fun _ hi => by cases hi⟩
  rcases txMakeRoom_spec h hfits frameLen with ⟨hinv, hkeeps⟩
  generalize txMakeRoom config frameLen tx = room at hres hinv hkeeps
  dsimp only at hres
  split at hres
  · cases hres
    exact ⟨fun _ _ => ⟨hinv, hkeeps⟩, fun _ hi => by cases hi⟩
  rename_i hspace
  split at hres
  · cases hres
    exact ⟨fun _ _ => ⟨hinv, hkeeps⟩, fun _ hi => by cases hi⟩
  rename_i i hfind
  rcases findSlot_some hfind with ⟨hi, hunused⟩
  have hfree : (room.queue i).used = false := by simpa using hunused
  cases hres
  refine ⟨by rintro _ ⟨⟩, ?_⟩
  intro _ heq
  cases heq
  let item : TxItem := { TxItem.free with
    used := true
    peerIndex := p
    offset := room.bufferUsed
    len := frameLen
    deadlineUs := txDeadline nowUs lifetimeUs }
  have hitem : item.Reservable config room := {
    used := rfl
    peerIndex := by change p < _; omega
    next := rfl
    pos := rfl
    offset := rfl
    len := hpos
    space := by change frameLen ≤ _; omega }
  have hnot : ¬ tx.Used config i := by
    intro hused
    have hsame := (hkeeps i hused).field_eq TxItem.used fun _ => rfl
    rw [hfree, hused.2] at hsame
    cases hsame
  have hself : (room.occupy i item).queue i = item := Tx.occupy_self
  refine ⟨hinv.reserveItem hi hfree hitem, {
    free := hnot
    pos := congrArg TxItem.pos hself
    len := congrArg TxItem.len hself
    peerIndex := congrArg TxItem.peerIndex hself
    keeps := fun j hj => (hkeeps j hj).trans (Tx.occupy_keeps ?_) }⟩
  rintro rfl
  exact hnot hj

/-- There is a free slot as long as the items do not fill the table. -/
theorem TxInv.exists_free {reserved : Option Nat}
    (h : TxInv config tx q reserved) (hlen : tx.queueLen < config.capacity.maxTxRpcQueue) :
    txFindFree config tx ≠ none := by
  intro hnone
  have hall := findSlot_none.mp hnone
  have hcount := h.count
  unfold Tx.usedSlots at hcount
  rw [List.filter_eq_self.mpr, List.length_range] at hcount
  · omega
  · intro i hi
    simpa using hall i (List.mem_range.mp hi)

/-- A reservation for a peer fails only when a queue is full, or when the frame does not fit
    beside those that wait. -/
theorem txReserve_error {tx tx' : Tx} {q : Nat → List Nat}
    (h : TxInv config tx q none) (hfits : config.capacity.txBufferBytes ≤ ptrdiffMax)
    {p frameLen lifetimeUs nowUs : Nat} {e : GossipsubErr}
    (hrun : txReserve config p frameLen lifetimeUs nowUs tx = (.error e, tx')) :
    config.capacity.maxPeers ≤ p ∨ config.capacity.maxPeerTxQueue ≤ (tx.peer p).queueDepth ∨
      config.capacity.maxTxRpcQueue ≤ tx.queueLen ∨
      config.capacity.txBufferBytes < tx.liveBytes config + frameLen := by
  unfold txReserve at hrun
  split at hrun
  · rename_i hp
    exact .inl hp
  split at hrun
  · rename_i hdepth
    exact .inr (.inl hdepth)
  split at hrun
  · rename_i hcount
    exact .inr (.inr (.inl hcount))
  rename_i hcount
  have hfull := @txMakeRoom_full config tx q h hfits frameLen
  have hfree := (txMakeRoom_spec h hfits frameLen).1.exists_free
  rw [txMakeRoom_queueLen h hfits frameLen] at hfree
  generalize txMakeRoom config frameLen tx = room at hrun hfull hfree
  dsimp only at hrun
  split at hrun
  · rename_i hspace
    exact .inr (.inr (.inr (hfull hspace)))
  split at hrun
  · rename_i hnone
    exact absurd hnone (hfree (Nat.lt_of_not_le hcount))
  · cases hrun

/-! ## Linking the item -/

theorem Tx.insertItem_congr {tx tx' : Tx} {l : List Nat} {i : Nat}
    (h : ∀ j ∈ l, (tx'.queue j).priority = (tx.queue j).priority) (priority : Bool) :
    tx'.insertItem l i priority = tx.insertItem l i priority := by
  unfold Tx.insertItem
  rw [Tx.priorityItems_congr h, Tx.normalItems_congr h]

/-- Linking an item and counting it gives the queue with the item. -/
theorem PeerQueue.append {p i : Nat} {l : List Nat} {priority : Bool}
    (h : PeerQueue tx p l) (hi : i ∉ l) (hnext : tx.next i = none)
    (hprio : (tx.queue i).priority = priority) :
    let tx' := txLinkPeerItem tx p i priority
    let tx'' := tx'.setPeer p { tx'.peer p with
      queueDepth := (tx'.peer p).queueDepth + 1
      priorityDepth := if priority then (tx'.peer p).priorityDepth + 1
        else (tx'.peer p).priorityDepth }
    PeerQueue tx'' p (tx.insertItem l i priority) ∧ Tx.Relinks tx tx'' p (i :: l) := by
  intro tx' tx''
  have hlink := h.link hi hnext hprio
  have hperm := tx.insertItem_perm h.sorted i priority
  have hclasses := tx.insertItem_classes l hprio
  have hrelinks : Tx.Relinks tx tx'' p (i :: l) := hlink.relinks.trans (Tx.Relinks.setPeer ..)
  have hpriority : ∀ j ∈ tx.insertItem l i priority,
      (tx''.queue j).priority = (tx.queue j).priority := fun j _ => hrelinks.priority j
  refine ⟨⟨?_, ?_, ?_, ?_, ?_, ?_, ?_⟩, hrelinks⟩
  · rw [Tx.setPeer_self]
    exact hlink.linked
  · exact hperm.nodup_iff.mpr (List.nodup_cons.mpr ⟨hi, h.nodup⟩)
  · rw [Tx.setPeer_self]
    exact hlink.tail_eq
  · rw [Tx.setPeer_self, Tx.priorityItems_congr hpriority]
    exact hlink.priorityTail_eq
  · rw [Tx.setPeer_self, hperm.length_eq, List.length_cons, ← h.depth_eq, ← hlink.depth_eq]
  · rw [Tx.setPeer_self, Tx.priorityItems_congr hpriority, hclasses.1]
    dsimp only
    rw [show (tx'.peer p).priorityDepth = _ from hlink.priorityDepth_eq, h.priorityDepth_eq]
    cases priority <;> simp
  · rw [Tx.priorityItems_congr hpriority, Tx.normalItems_congr hpriority, hclasses.1, hclasses.2]
    unfold Tx.insertItem
    cases priority with
    | true => simp
    | false =>
      simp only [Bool.false_eq_true, if_false, ← List.append_assoc]
      rw [← h.sorted]

/-- The reserved item gets its priority. -/
def Tx.prioritize (tx : Tx) (i : Nat) (priority : Bool) : Tx :=
  tx.setItem i { tx.queue i with priority := priority }

section Append

variable {i j p r : Nat} {priority : Bool}

theorem Tx.prioritize_self :
    (tx.prioritize i priority).queue i = { tx.queue i with priority := priority } :=
  Tx.setItem_self ..

theorem Tx.prioritize_of_ne (hj : j ≠ i) : (tx.prioritize i priority).queue j = tx.queue j :=
  Tx.setItem_of_ne _ _ hj

theorem Tx.prioritize_next : (tx.prioritize i priority).next = tx.next := by
  funext j
  by_cases hj : j = i
  · rw [Tx.next, hj, Tx.prioritize_self]
    rfl
  · rw [Tx.next, Tx.prioritize_of_ne hj]
    rfl

theorem Tx.prioritize_insertItem {l : List Nat} (hi : i ∉ l) :
    (tx.prioritize i priority).insertItem l i priority = tx.insertItem l i priority := by
  apply Tx.insertItem_congr
  intro j hj
  rw [Tx.prioritize_of_ne]
  rintro rfl
  exact hi hj

variable (h : TxInv config tx q (some i))

include h

/-- The reserved item is in no queue. -/
theorem TxInv.notMem (hr : r < config.capacity.maxPeers) :
    i ∉ q r := fun hir => (h.queued r hr i hir).2.2 rfl

theorem TxInv.queue_prioritize (hr : r < config.capacity.maxPeers) :
    PeerQueue (tx.prioritize i priority) r (q r) := by
  apply (h.queue r hr).congr
  case hnext => simp [Tx.prioritize_next]
  case hprio =>
    intro j hj
    rw [Tx.prioritize_of_ne]
    rintro rfl
    exact h.notMem hr hj
  all_goals rfl

/-- `gossipsub_tx_append_peer_item` links the item, and marks its peer. -/
theorem TxInv.txAppendPeerItem_spec (peers : Nat → Peer) (hp : p < config.capacity.maxPeers)
    (priority : Bool) :
    ∃ tx', PeerQueue tx' p (tx.insertItem (q p) i priority) ∧
      Tx.Relinks (tx.prioritize i priority) tx' p (i :: q p) ∧
      Tx.Schedules tx' (txAppendPeerItem config peers tx p i priority) := by
  have hnext : (tx.prioritize i priority).next i = none := by
    rw [Tx.prioritize_next]
    exact (h.fresh i rfl).2
  rcases (h.queue_prioritize hp).append (h.notMem hp) hnext
    (show ((tx.prioritize i priority).queue i).priority = priority by
      rw [Tx.prioritize_self]) with ⟨hqueue, hrelinks⟩
  rw [Tx.prioritize_insertItem (h.notMem hp)] at hqueue
  dsimp only at hqueue hrelinks
  let linked := txLinkPeerItem (tx.prioritize i priority) p i priority
  generalize htx' : linked.setPeer p { linked.peer p with
    queueDepth := (linked.peer p).queueDepth + 1
    priorityDepth := if priority then (linked.peer p).priorityDepth + 1
      else (linked.peer p).priorityDepth } = tx' at hqueue hrelinks
  refine ⟨tx', hqueue, hrelinks, ?_⟩
  unfold txAppendPeerItem
  simp only [linked, Tx.prioritize] at htx'
  simp only [htx']
  split
  · exact txSetPeerReady_schedules ..
  · exact Tx.Schedules.refl _

omit h in
/-- What `core` and the priority are no part of stays. -/
theorem Tx.Relinks.field_eq {tx' : Tx} {on : List Nat} {α : Type}
    (h : Tx.Relinks (tx.prioritize i priority) tx' p on) (f : TxItem → α)
    (hf : ∀ item n b, f { item with next := n, priority := b } = f item) (j : Nat) :
    f (tx'.queue j) = f (tx.queue j) := by
  rcases h.items j with ⟨n, hn⟩
  rw [hn]
  by_cases hj : j = i
  · rw [hj, Tx.prioritize_self]
    exact hf (tx.queue i) n priority
  · rw [Tx.prioritize_of_ne hj]
    exact hf _ n (tx.queue j).priority

/-- The invariant with the reserved item in the queue of its peer. -/
theorem TxInv.relinked (hpeer : (tx.queue i).peerIndex = p) {tx' : Tx}
    (hqueue : PeerQueue tx' p (tx.insertItem (q p) i priority))
    (hrelinks : Tx.Relinks (tx.prioritize i priority) tx' p (i :: q p)) :
    TxInv config tx' (Function.update q p (tx.insertItem (q p) i priority)) none := by
  have hused := (h.fresh i rfl).1
  have hp : p < config.capacity.maxPeers := hpeer ▸ (h.owner i hused).1
  have hperm := tx.insertItem_perm (h.queue p hp).sorted i priority
  have hsome : ∀ j, j ≠ i → some i ≠ some j := fun j hj heq => hj (Option.some.inj heq).symm
  have hpeerIndex := hrelinks.field_eq TxItem.peerIndex fun _ _ _ => rfl
  have hused' : ∀ j, tx'.Used config j ↔ tx.Used config j := by
    intro j
    unfold Tx.Used
    rw [hrelinks.field_eq TxItem.used fun _ _ _ => rfl]
  refine {
    queue := ?queue
    owner := ?owner
    queued := ?queued
    fresh := ?fresh
    count := ?count
    buffer := ?buffer }
  case queue =>
    intro r hr
    by_cases hrp : r = p
    · subst hrp
      rw [Function.update_self]
      exact hqueue
    · rw [Function.update_of_ne hrp]
      refine hrelinks.peerQueue hrp ?_ (h.queue_prioritize hr)
      intro j hj hmem
      rcases List.mem_cons.mp hmem with rfl | hmem
      · exact h.notMem hr hj
      · exact h.disjoint hp hr hrp hj hmem
  case owner =>
    intro j hj
    have hju := (hused' j).mp hj
    rw [hpeerIndex]
    refine ⟨(h.owner j hju).1, fun _ => ?_⟩
    by_cases hjp : (tx.queue j).peerIndex = p
    · rw [hjp, Function.update_self, hperm.mem_iff]
      by_cases hji : j = i
      · simp [hji]
      · rw [← hjp]
        exact List.mem_cons_of_mem _ ((h.owner j hju).2 (hsome j hji))
    · rw [Function.update_of_ne hjp]
      refine (h.owner j hju).2 (hsome j ?_)
      rintro rfl
      exact hjp hpeer
  case queued =>
    intro r hr j hj
    rw [hused', hpeerIndex]
    by_cases hrp : r = p
    · subst hrp
      rw [Function.update_self, hperm.mem_iff] at hj
      rcases List.mem_cons.mp hj with rfl | hj
      · exact ⟨hused, hpeer, by simp⟩
      · exact ⟨(h.queued r hr j hj).1, (h.queued r hr j hj).2.1, by simp⟩
    · rw [Function.update_of_ne hrp] at hj
      exact ⟨(h.queued r hr j hj).1, (h.queued r hr j hj).2.1, by simp⟩
  case fresh =>
    intro j hj
    cases hj
  case count =>
    have hslots : tx'.usedSlots config = tx.usedSlots config := by
      unfold Tx.usedSlots
      simp only [hrelinks.field_eq TxItem.used fun _ _ _ => rfl]
    rw [hslots, ← h.count]
    exact hrelinks.queueLen
  case buffer =>
    refine h.buffer.congr (fun j => (hused' j).mp) ?_ ?_ ?_ hrelinks.bufferUsed
    · exact fun j _ => hrelinks.field_eq TxItem.len (fun _ _ _ => rfl) j
    · exact fun j _ => hrelinks.field_eq TxItem.offset (fun _ _ _ => rfl) j
    · exact fun j _ => hrelinks.field_eq TxItem.pos (fun _ _ _ => rfl) j

/-- Linking the reserved item keeps the invariant: the item is in the queue of its peer. -/
theorem TxInv.append (peers : Nat → Peer) (hpeer : (tx.queue i).peerIndex = p) (priority : Bool) :
    TxInv config (txAppendPeerItem config peers tx p i priority)
        (Function.update q p (tx.insertItem (q p) i priority)) none ∧
      (∀ j, j ≠ i → Tx.Keeps tx (txAppendPeerItem config peers tx p i priority) j) ∧
      ((txAppendPeerItem config peers tx p i priority).queue i).core =
        { (tx.queue i).core with priority := priority } ∧
      (txAppendPeerItem config peers tx p i priority).content i = tx.content i := by
  have hp : p < config.capacity.maxPeers := hpeer ▸ (h.owner i (h.fresh i rfl).1).1
  rcases h.txAppendPeerItem_spec peers hp priority with ⟨tx', hqueue, hrelinks, hsched⟩
  have hself := hrelinks.keeps i
  unfold Tx.Keeps Tx.content at hself
  rw [Tx.prioritize_self] at hself
  refine ⟨hsched.inv (h.relinked hpeer hqueue hrelinks), ?_, (hsched.keeps i).1.trans hself.1,
    (hsched.keeps i).2.trans hself.2⟩
  intro j hj
  have hkeep := hrelinks.keeps j
  unfold Tx.Keeps Tx.content at hkeep
  rw [Tx.prioritize_of_ne hj] at hkeep
  exact Tx.Keeps.trans hkeep (hsched.keeps j)

end Append

/-! ## The whole operation -/

theorem TxInv.congr_queues {q q' : Nat → List Nat}
    {reserved : Option Nat} (h : TxInv config tx q reserved)
    (hq : ∀ p < config.capacity.maxPeers, q' p = q p) : TxInv config tx q' reserved where
  queue p hp := by
    rw [hq p hp]
    exact h.queue p hp
  owner i hi := by
    rcases h.owner i hi with ⟨hp, howner⟩
    refine ⟨hp, ?_⟩
    rw [hq _ hp]
    exact howner
  queued p hp i hi := by
    rw [hq p hp] at hi
    exact h.queued p hp i hi
  fresh := h.fresh
  count := h.count
  buffer := h.buffer

/-- Taking back a reserved item restores the queues. -/
theorem TxInv.removeReserved {i : Nat} (h : TxInv config tx q (some i)) (peers : Nat → Peer) :
    TxInv config (txRemove config peers tx i) q none ∧
      ∀ j, j ≠ i → Tx.Keeps tx (txRemove config peers tx i) j := by
  rcases h.remove peers (h.fresh i rfl).1 (.inr rfl) with ⟨hinv, -, hkeeps⟩
  refine ⟨hinv.congr_queues ?_, hkeeps⟩
  intro p hp
  rw [List.erase_of_not_mem]
  intro hi
  exact (h.queued p hp i hi).2.2 rfl

/-- Writing the frame of the reserved item. -/
theorem TxInv.store {i : Nat}
    (h : TxInv config tx q (some i)) {frame : Bytes} (hlen : frame.length = tx.len i) :
    let tx' := { tx with buffer := tx.buffer.store (tx.queue i).offset frame }
    TxInv config tx' q (some i) ∧ tx'.content i = frame ∧
      ∀ j, tx.Used config j → j ≠ i → Tx.Keeps tx tx' j := by
  intro tx'
  have hsame : Tx.SameLists tx tx' :=
    ⟨fun _ => ⟨_, _, _, rfl⟩, fun _ => rfl, fun _ => rfl, fun _ => rfl, rfl, rfl⟩
  refine ⟨h.sameLists hsame (h.buffer.congr (fun _ hi => hi) (fun _ _ => rfl) (fun _ _ => rfl)
    (fun _ _ => rfl) rfl), ?_, ?_⟩
  · change (tx.buffer.store (tx.queue i).offset frame).slice (tx.queue i).offset (tx.len i) = frame
    rw [← hlen, Memory.slice_store]
  · intro j hj hji
    refine ⟨rfl, Memory.slice_store_of_disjoint _ ?_⟩
    rw [hlen]
    exact h.buffer.apart j i hj (h.fresh i rfl).1 hji

/-- What a successful enqueue does. -/
structure Tx.Enqueues (config : Config) (peers : Nat → Peer) (tx tx' : Tx) (p : Nat) (rpc : Rpc)
    (priority : Bool) (i : Nat) : Prop where
  peer_lt : p < config.capacity.maxPeers
  writer : (peers p).stream ≠ none
  free : ¬ tx.Used config i
  keeps : ∀ j, tx.Used config j → Tx.Keeps tx tx' j
  pos : (tx'.queue i).pos = 0
  priority : (tx'.queue i).priority = priority
  encoded : ∃ cap, rpcFrameEncode (peers p).version config.limits rpc cap = .ok (tx'.content i)

/-- An enqueue either fails, and the queues stay as they are, or adds one item with the encoded
    frame to the queue of the peer. -/
theorem enqueueRpcWithLifetime_spec {peers : Nat → Peer} {tx tx' : Tx}
    {q : Nat → List Nat} (h : TxInv config tx q none)
    (hfits : config.capacity.txBufferBytes ≤ ptrdiffMax) {p lifetimeUs nowUs : Nat} {rpc : Rpc}
    {priority : Bool} {result : Except GossipsubErr Nat}
    (hres : enqueueRpcWithLifetime config peers p rpc lifetimeUs priority nowUs tx = (result, tx')) :
    (∀ e, result = .error e → TxInv config tx' q none ∧
      ∀ j, tx.Used config j → Tx.Keeps tx tx' j) ∧
    (∀ i, result = .ok i →
      TxInv config tx' (Function.update q p (tx.insertItem (q p) i priority)) none ∧
        Tx.Enqueues config peers tx tx' p rpc priority i) := by
  have hstay : TxInv config tx q none ∧ ∀ j, tx.Used config j → Tx.Keeps tx tx j :=
    ⟨h, fun j _ => Tx.Keeps.refl tx j⟩
  unfold enqueueRpcWithLifetime at hres
  split at hres
  · cases hres
    exact ⟨fun _ _ => hstay, (fun _ hi => nomatch hi)⟩
  rename_i hp
  split at hres
  · cases hres
    exact ⟨fun _ _ => hstay, (fun _ hi => nomatch hi)⟩
  rename_i hwriter
  split at hres
  · cases hres
    exact ⟨fun _ _ => hstay, (fun _ hi => nomatch hi)⟩
  rename_i frameLen hsize
  have hpos := rpcFrameSize_pos hsize
  rcases hreserve : txReserve config p frameLen lifetimeUs nowUs tx with ⟨_ | i, tx₁⟩
  · rw [hreserve] at hres
    cases hres
    exact ⟨fun _ _ => (txReserve_spec h hfits hpos hreserve).1 _ rfl, (fun _ hi => nomatch hi)⟩
  rw [hreserve] at hres
  rcases (txReserve_spec h hfits hpos hreserve).2 i rfl with ⟨hinv₁, hreserves⟩
  dsimp only at hres
  -- a frame that cannot be written is taken back
  have hback : ∀ tx₂, TxInv config tx₂ q (some i) →
      (∀ j, tx.Used config j → Tx.Keeps tx tx₂ j) →
      TxInv config (txRemove config peers tx₂ i) q none ∧
        ∀ j, tx.Used config j → Tx.Keeps tx (txRemove config peers tx₂ i) j := by
    intro tx₂ hinv₂ hkeeps₂
    rcases hinv₂.removeReserved peers with ⟨hinv, hkeeps⟩
    refine ⟨hinv, fun j hj => (hkeeps₂ j hj).trans (hkeeps j ?_)⟩
    rintro rfl
    exact hreserves.free hj
  split at hres
  · cases hres
    exact ⟨fun _ _ => hback tx₁ hinv₁ hreserves.keeps, (fun _ hi => nomatch hi)⟩
  rename_i frame hencode
  split at hres
  · cases hres
    exact ⟨fun _ _ => hback tx₁ hinv₁ hreserves.keeps, (fun _ hi => nomatch hi)⟩
  rename_i hlen
  have hlen' : frame.length = tx₁.len i := by
    rw [hreserves.len]
    by_contra hne
    exact hlen hne
  rcases hinv₁.store hlen' with ⟨hinv₂, hcontent₂, hkeeps₂⟩
  generalize htx₂ : ({ tx₁ with
    buffer := tx₁.buffer.store (tx₁.queue i).offset frame } : Tx) = tx₂ at hinv₂ hcontent₂ hkeeps₂
  have hqueue₂ : tx₂.queue = tx₁.queue := by rw [← htx₂]
  have hcommit : txCommitReserved config peers p i priority tx₂ =
      (.ok (), txAppendPeerItem config peers tx₂ p i priority) := by
    have hused := (hinv₂.fresh i rfl).1
    unfold txCommitReserved
    rw [if_neg, if_neg]
    · rw [hqueue₂, hreserves.pos, hreserves.peerIndex, ← hqueue₂, hused.2]
      simp
    · have := hused.1
      omega
  simp only [htx₂, hcommit] at hres
  cases hres
  refine ⟨by rintro _ ⟨⟩, ?_⟩
  intro _ heq
  cases heq
  have hpeer₂ : (tx₂.queue i).peerIndex = p := by
    rw [hqueue₂]
    exact hreserves.peerIndex
  rcases hinv₂.append peers hpeer₂ priority with ⟨hinv, hkeeps, hcore, hcontent⟩
  have hold : ∀ j, tx.Used config j → j ≠ i := by
    rintro j hj rfl
    exact hreserves.free hj
  have hkeepsAll : ∀ j, tx.Used config j →
      Tx.Keeps tx (txAppendPeerItem config peers tx₂ p i priority) j := by
    intro j hj
    have hused₁ : tx₁.Used config j := by
      refine ⟨hj.1, ?_⟩
      rw [(hreserves.keeps j hj).field_eq TxItem.used fun _ => rfl]
      exact hj.2
    exact ((hreserves.keeps j hj).trans (hkeeps₂ j hused₁ (hold j hj))).trans (hkeeps j (hold j hj))
  have hinsert : tx₂.insertItem (q p) i priority = tx.insertItem (q p) i priority := by
    apply Tx.insertItem_congr
    intro j hj
    have hused := (h.queued p (by omega) j hj).1
    rw [hqueue₂]
    exact (hreserves.keeps j hused).priority_eq
  rw [hinsert] at hinv
  refine ⟨hinv, by omega, ?_, hreserves.free, hkeepsAll, ?_, ?_, ?_⟩
  · intro hnone
    exact hwriter (.inr hnone)
  · have hpos := congrArg TxItem.pos hcore
    rw [hqueue₂] at hpos
    exact hpos.trans hreserves.pos
  · exact congrArg TxItem.priority hcore
  · rw [hcontent, hcontent₂]
    exact ⟨frameLen, hencode⟩

end LeanLibp2p.Gossipsub
