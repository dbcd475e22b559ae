import LeanLibp2p.Gossipsub.Tx.Compact
import LeanLibp2p.Gossipsub.Tx.Lists

/-!
# The invariant of the transmit state

`TxInv` says what the item table, the queues and the buffer are to each other: every used item
is in the queue of its peer and has a range of the buffer for itself. Each operation keeps it,
and its lemma says what became of the queues and which items it left alone.
-/

namespace LeanLibp2p.Gossipsub

open LeanLibp2p.Lib

variable {config : Config} {tx : Tx} {q : Nat → List Nat} {reserved : Option Nat}
variable {tx tx' : Tx}

/-- Slot `i` exists and holds an item. -/
def Tx.Used (config : Config) (tx : Tx) (i : Nat) : Prop :=
  i < config.capacity.maxTxRpcQueue ∧ (tx.queue i).used = true

/-- The slots that hold an item. -/
def Tx.usedSlots (config : Config) (tx : Tx) : List Nat :=
  (List.range config.capacity.maxTxRpcQueue).filter fun i => (tx.queue i).used

@[simp] theorem Tx.mem_usedSlots {i : Nat} : i ∈ tx.usedSlots config ↔ tx.Used config i := by
  simp [Tx.usedSlots, Tx.Used]

theorem Tx.usedSlots_nodup (config : Config) (tx : Tx) : (tx.usedSlots config).Nodup :=
  List.nodup_range.filter _

/-- The items lie in the used part of the buffer without overlap. -/
structure BufferInv (config : Config) (tx : Tx) : Prop where
  range : ∀ i, tx.Used config i → 0 < tx.len i ∧ (tx.queue i).offset + tx.len i ≤ tx.bufferUsed
  pos_le : ∀ i, tx.Used config i → (tx.queue i).pos ≤ tx.len i
  apart : ∀ i j, tx.Used config i → tx.Used config j → i ≠ j → Arena.Apart tx.len tx.arena i j
  used_le : tx.bufferUsed ≤ config.capacity.txBufferBytes

/-- The transmit state holds the queues `q`; `reserved` is an item that is in none yet. -/
structure TxInv (config : Config) (tx : Tx) (q : Nat → List Nat) (reserved : Option Nat) :
    Prop where
  queue : ∀ p < config.capacity.maxPeers, PeerQueue tx p (q p)
  owner : ∀ i, tx.Used config i → (tx.queue i).peerIndex < config.capacity.maxPeers ∧
    (reserved ≠ some i → i ∈ q (tx.queue i).peerIndex)
  queued : ∀ p < config.capacity.maxPeers, ∀ i ∈ q p,
    tx.Used config i ∧ (tx.queue i).peerIndex = p ∧ reserved ≠ some i
  fresh : ∀ i, reserved = some i → tx.Used config i ∧ tx.next i = none
  count : tx.queueLen = (tx.usedSlots config).length
  buffer : BufferInv config tx

/-- Item `i` is the same in both states, up to its link and its place in the buffer. -/
def Tx.Keeps (tx tx' : Tx) (i : Nat) : Prop :=
  (tx'.queue i).core = (tx.queue i).core ∧ tx'.content i = tx.content i

namespace Tx.Keeps

variable {tx tx' tx'' : Tx} {i : Nat}

theorem refl (tx : Tx) (i : Nat) : Tx.Keeps tx tx i := ⟨rfl, rfl⟩

theorem trans (h : Tx.Keeps tx tx' i) (h' : Tx.Keeps tx' tx'' i) : Tx.Keeps tx tx'' i :=
  ⟨h'.1.trans h.1, h'.2.trans h.2⟩

/-- A field that `core` keeps is the same. -/
theorem field_eq {α : Type} (h : Tx.Keeps tx tx' i) (f : TxItem → α)
    (hf : ∀ item, f item.core = f item) : f (tx'.queue i) = f (tx.queue i) := by
  rw [← hf, h.1, hf]

theorem priority_eq (h : Tx.Keeps tx tx' i) : (tx'.queue i).priority = (tx.queue i).priority :=
  h.field_eq TxItem.priority fun _ => rfl

theorem pos_eq (h : Tx.Keeps tx tx' i) : (tx'.queue i).pos = (tx.queue i).pos :=
  h.field_eq TxItem.pos fun _ => rfl

theorem len_eq (h : Tx.Keeps tx tx' i) : tx'.len i = tx.len i :=
  h.field_eq TxItem.len fun _ => rfl

end Tx.Keeps

/-- From `tx` to `tx'` the queues stayed as they are. -/
structure Tx.SameLists (tx tx' : Tx) : Prop where
  peers : ∀ p, ∃ reported ready busy, tx'.peer p =
    { tx.peer p with queueLimitReported := reported, ready := ready, transportBusy := busy }
  used : ∀ i, (tx'.queue i).used = (tx.queue i).used
  priority : ∀ i, (tx'.queue i).priority = (tx.queue i).priority
  peerIndex : ∀ i, (tx'.queue i).peerIndex = (tx.queue i).peerIndex
  next : tx'.next = tx.next
  queueLen : tx'.queueLen = tx.queueLen

theorem Tx.SameLists.trans {tx tx' tx'' : Tx} (h : Tx.SameLists tx tx')
    (h' : Tx.SameLists tx' tx'') : Tx.SameLists tx tx'' where
  peers p := by
    rcases h.peers p with ⟨_, _, _, hp⟩
    rcases h'.peers p with ⟨reported, ready, busy, hp'⟩
    exact ⟨reported, ready, busy, by rw [hp', hp]⟩
  used i := (h'.used i).trans (h.used i)
  priority i := (h'.priority i).trans (h.priority i)
  peerIndex i := (h'.peerIndex i).trans (h.peerIndex i)
  next := h'.next.trans h.next
  queueLen := h'.queueLen.trans h.queueLen

theorem Tx.SameLists.peerQueue (h : Tx.SameLists tx tx') {p : Nat} {l : List Nat}
    (hq : PeerQueue tx p l) : PeerQueue tx' p l := by
  rcases h.peers p with ⟨_, _, _, hp⟩
  apply hq.congr <;> simp [hp, h.next, h.priority]

theorem Tx.SameLists.used_iff (h : Tx.SameLists tx tx') (config : Config) (i : Nat) :
    tx'.Used config i ↔ tx.Used config i := by
  unfold Tx.Used
  rw [h.used]

/-- The part of the invariant about the buffer does not depend on the bytes. -/
theorem BufferInv.congr (h : BufferInv config tx)
    (hused : ∀ i, tx'.Used config i → tx.Used config i)
    (hlen : ∀ i, tx'.Used config i → tx'.len i = tx.len i)
    (hoff : ∀ i, tx'.Used config i → (tx'.queue i).offset = (tx.queue i).offset)
    (hpos : ∀ i, tx'.Used config i → (tx'.queue i).pos = (tx.queue i).pos)
    (hbuf : tx'.bufferUsed = tx.bufferUsed) : BufferInv config tx' where
  range i hi := by
    rw [hlen i hi, hoff i hi, hbuf]
    exact h.range i (hused i hi)
  pos_le i hi := by
    rw [hlen i hi, hpos i hi]
    exact h.pos_le i (hused i hi)
  apart i j hi hj hij := by
    have hapart := h.apart i j (hused i hi) (hused j hj) hij
    unfold Arena.Apart at hapart ⊢
    simpa only [Tx.arena, hlen i hi, hlen j hj, hoff i hi, hoff j hj] using hapart
  used_le := by
    rw [hbuf]
    exact h.used_le

/-- The invariant is about the queues and the buffer, each on its own. -/
theorem TxInv.sameLists {q : Nat → List Nat}
    {reserved : Option Nat} (h : TxInv config tx q reserved) (hs : Tx.SameLists tx tx')
    (hb : BufferInv config tx') : TxInv config tx' q reserved where
  queue p hp := hs.peerQueue (h.queue p hp)
  owner i hi := by
    rw [hs.peerIndex]
    exact h.owner i ((hs.used_iff config i).mp hi)
  queued p hp i hi := by
    rw [hs.used_iff, hs.peerIndex]
    exact h.queued p hp i hi
  fresh i hi := by
    rw [hs.used_iff, hs.next]
    exact h.fresh i hi
  count := by
    unfold Tx.usedSlots
    simp only [hs.queueLen, h.count, hs.used]
    rfl
  buffer := hb


/-! ## Readiness -/

/-- From `tx` to `tx'` at most the scheduling fields of the peers changed. -/
structure Tx.Schedules (tx tx' : Tx) : Prop where
  queue : tx'.queue = tx.queue
  buffer : tx'.buffer = tx.buffer
  bufferUsed : tx'.bufferUsed = tx.bufferUsed
  queueLen : tx'.queueLen = tx.queueLen
  peers : ∀ p, ∃ reported ready busy, tx'.peer p =
    { tx.peer p with queueLimitReported := reported, ready := ready, transportBusy := busy }

namespace Tx.Schedules

variable {tx tx' tx'' : Tx}

theorem refl (tx : Tx) : Tx.Schedules tx tx := ⟨rfl, rfl, rfl, rfl, fun _ => ⟨_, _, _, rfl⟩⟩

theorem sameLists (h : Tx.Schedules tx tx') : Tx.SameLists tx tx' := by
  refine ⟨h.peers, ?_, ?_, ?_, ?_, h.queueLen⟩
  · simp [h.queue]
  · simp [h.queue]
  · simp [h.queue]
  · funext i
    simp only [Tx.next, h.queue]

theorem trans (h : Tx.Schedules tx tx') (h' : Tx.Schedules tx' tx'') : Tx.Schedules tx tx'' :=
  ⟨h'.queue.trans h.queue, h'.buffer.trans h.buffer, h'.bufferUsed.trans h.bufferUsed,
    h'.queueLen.trans h.queueLen, (h.sameLists.trans h'.sameLists).peers⟩

theorem setPeer (tx : Tx) (p : Nat) (reported ready busy : Bool) :
    Tx.Schedules tx (tx.setPeer p { tx.peer p with
      queueLimitReported := reported, ready := ready, transportBusy := busy }) := by
  refine ⟨rfl, rfl, rfl, rfl, ?_⟩
  intro q
  by_cases hq : q = p
  · subst hq
    exact ⟨_, _, _, by rw [Tx.setPeer_self]⟩
  · exact ⟨_, _, _, by rw [Tx.setPeer_of_ne _ _ hq]⟩

theorem keeps (h : Tx.Schedules tx tx') (i : Nat) : Tx.Keeps tx tx' i := by
  unfold Tx.Keeps Tx.content
  rw [h.queue, h.buffer]
  exact ⟨rfl, rfl⟩

/-- The scheduling fields do not matter to the invariant. -/
theorem inv (h : Tx.Schedules tx tx') {config : Config} {q : Nat → List Nat}
    {reserved : Option Nat} (hi : TxInv config tx q reserved) : TxInv config tx' q reserved := by
  refine hi.sameLists h.sameLists (hi.buffer.congr ?_ ?_ ?_ ?_ h.bufferUsed)
  · exact fun i hi => (h.sameLists.used_iff config i).mp hi
  · simp [Tx.len, h.queue]
  · simp [h.queue]
  · simp [h.queue]

end Tx.Schedules

theorem txSetPeerReady_schedules (config : Config) (peers : Nat → Peer) (tx : Tx) (p : Nat)
    (ready : Bool) : Tx.Schedules tx (txSetPeerReady config peers tx p ready) := by
  have hset : ∀ b, Tx.Schedules tx (tx.setPeer p { tx.peer p with ready := b }) := fun b =>
    Tx.Schedules.setPeer tx p (tx.peer p).queueLimitReported b (tx.peer p).transportBusy
  unfold txSetPeerReady
  split
  · dsimp only
    split
    · exact ⟨rfl, rfl, rfl, rfl, (hset true).peers⟩
    · split
      · exact ⟨rfl, rfl, rfl, rfl, (hset false).peers⟩
      · exact hset _
  · exact Tx.Schedules.refl tx

theorem txSetPeerReady_others (config : Config) (peers : Nat → Peer) (tx : Tx) {p r : Nat}
    (ready : Bool) (hr : r ≠ p) : (txSetPeerReady config peers tx p ready).peer r = tx.peer r := by
  unfold txSetPeerReady
  split
  · dsimp only
    split
    · exact Tx.setPeer_of_ne _ _ hr
    · split
      · exact Tx.setPeer_of_ne _ _ hr
      · exact Tx.setPeer_of_ne _ _ hr
  · rfl

theorem txMarkPeerReady_schedules (config : Config) (peers : Nat → Peer) (tx : Tx) (p : Nat) :
    Tx.Schedules tx (txMarkPeerReady config peers tx p) := by
  unfold txMarkPeerReady
  split
  · exact (Tx.Schedules.setPeer tx p (tx.peer p).queueLimitReported (tx.peer p).ready false).trans
      (txSetPeerReady_schedules ..)
  · exact Tx.Schedules.refl tx

/-! ## Changing an item in place -/

/-- An item may change its position, its deadline and its message id. -/
theorem TxInv.setItem (h : TxInv config tx q reserved) {i : Nat} (item : TxItem)
    (hused : item.used = (tx.queue i).used) (hprio : item.priority = (tx.queue i).priority)
    (hpeer : item.peerIndex = (tx.queue i).peerIndex) (hnext : item.next = (tx.queue i).next)
    (hoff : item.offset = (tx.queue i).offset) (hlen : item.len = (tx.queue i).len)
    (hpos : tx.Used config i → item.pos ≤ item.len) :
    TxInv config (tx.setItem i item) q reserved := by
  have hfield : ∀ {α : Type} (f : TxItem → α), f item = f (tx.queue i) →
      ∀ j, f ((tx.setItem i item).queue j) = f (tx.queue j) := by
    intro α f hf j
    by_cases hj : j = i
    · rw [hj, Tx.setItem_self, hf]
    · rw [Tx.setItem_of_ne _ _ hj]
  have hsame : Tx.SameLists tx (tx.setItem i item) := by
    refine ⟨fun _ => ⟨_, _, _, rfl⟩, hfield TxItem.used hused, hfield TxItem.priority hprio,
      hfield TxItem.peerIndex hpeer, ?_, rfl⟩
    funext j
    exact hfield TxItem.next hnext j
  have hlens := hfield TxItem.len hlen
  have hoffs := hfield TxItem.offset hoff
  refine h.sameLists hsame ⟨?_, ?_, ?_, h.buffer.used_le⟩
  · intro j hj
    have hrange := h.buffer.range j ((hsame.used_iff config j).mp hj)
    unfold Tx.len at hrange ⊢
    rw [hlens, hoffs]
    exact hrange
  · intro j hj
    have hj' := (hsame.used_iff config j).mp hj
    by_cases hji : j = i
    · subst hji
      unfold Tx.len
      rw [Tx.setItem_self]
      exact hpos hj'
    · unfold Tx.len
      rw [Tx.setItem_of_ne _ _ hji]
      exact h.buffer.pos_le j hj'
  · intro j k hj hk hjk
    have hapart := h.buffer.apart j k ((hsame.used_iff config j).mp hj)
      ((hsame.used_iff config k).mp hk) hjk
    unfold Arena.Apart Tx.len at hapart ⊢
    simpa only [Tx.arena, hoffs, hlens] using hapart

/-! ## Removing an item -/

/-- Relinking items of one peer leaves the lists of the others alone. -/
theorem Tx.Relinks.peerQueue {p r : Nat} {on l : List Nat}
    (h : Tx.Relinks tx tx' p on) (hr : r ≠ p) (hl : ∀ i ∈ l, i ∉ on) (hq : PeerQueue tx r l) :
    PeerQueue tx' r l := by
  have hnext : ∀ i ∈ l, tx'.next i = tx.next i := by
    intro i hi
    rw [Tx.next, h.others i (hl i hi)]
    rfl
  apply hq.congr
  case hnext => exact hnext
  case hprio => exact fun i _ => h.priority i
  all_goals rw [h.peers r hr]

theorem Tx.Relinks.keeps {p : Nat} {on : List Nat} (h : Tx.Relinks tx tx' p on)
    (i : Nat) : Tx.Keeps tx tx' i := by
  rcases h.items i with ⟨n, hn⟩
  unfold Tx.Keeps Tx.content
  rw [hn, h.buffer]
  exact ⟨rfl, rfl⟩

/-- The queues of different peers share no item. -/
theorem TxInv.disjoint (h : TxInv config tx q reserved) {p r i : Nat} (hp : p < config.capacity.maxPeers)
    (hr : r < config.capacity.maxPeers) (hne : r ≠ p) (hi : i ∈ q r) : i ∉ q p := by
  intro hip
  exact hne ((h.queued r hr i hi).2.1.symm.trans (h.queued p hp i hip).2.1)

theorem TxInv.live (h : TxInv config tx q reserved) {p : Nat} (hp : p < config.capacity.maxPeers) :
    tx.Live config (q p) := fun i hi => (h.queued p hp i hi).1

/-- After the unlinking of `gossipsub_tx_remove` the item is in no list. -/
theorem TxInv.unlink (h : TxInv config tx q reserved) {p : Nat} (hp : p < config.capacity.maxPeers) (i : Nat) :
    PeerQueue (txUnlink config tx p i) p ((q p).erase i) ∧
      Tx.Relinks tx (txUnlink config tx p i) p ((q p).erase i) := by
  by_cases hi : i ∈ q p
  · rcases List.append_of_mem hi with ⟨xs, ys, hq⟩
    have hqueue := h.queue p hp
    have hix : i ∉ xs := by
      have hnd := hqueue.nodup
      rw [hq] at hnd
      intro hx
      exact (List.nodup_append.mp hnd).2.2 i hx i (by simp) rfl
    have herase : (q p).erase i = xs ++ ys := by
      rw [hq, List.erase_append_right _ hix, List.erase_cons_head]
    have hlive := h.live hp
    rw [hq] at hqueue hlive
    rw [herase]
    exact txUnlink_spec hp hqueue hlive
  · have hnone : txFindPrevious tx i config.capacity.maxTxRpcQueue none (tx.peer p).head = none :=
      txFindPrevious_none config.capacity.maxTxRpcQueue (h.queue p hp).linked hi
    have heq : txUnlink config tx p i = tx := by
      unfold txUnlink
      rw [hnone]
    rw [heq, List.erase_of_not_mem hi]
    exact ⟨h.queue p hp, Tx.Relinks.refl ..⟩

/-- The settling of an emptied queue in `gossipsub_tx_remove`. -/
theorem txRemove_settle (peers : Nat → Peer) {tx : Tx} {p : Nat} {l : List Nat}
    (h : PeerQueue tx p l) :
    let tx' := if (tx.peer p).queueDepth = 0 then
        txSetPeerReady config peers (tx.setPeer p { tx.peer p with
          head := none
          tail := none
          priorityTail := none
          priorityDepth := 0 }) p false
      else tx
    PeerQueue tx' p l ∧ Tx.Relinks tx tx' p [] := by
  dsimp only
  split
  · rename_i hdepth
    have hl := h.eq_nil_of_depth hdepth
    subst hl
    let empty := tx.setPeer p { tx.peer p with
      head := none
      tail := none
      priorityTail := none
      priorityDepth := 0 }
    have hempty : PeerQueue empty p [] := by
      apply PeerQueue.of_empty <;> simp only [empty, Tx.setPeer_self]
      exact hdepth
    have hsched := txSetPeerReady_schedules config peers empty p false
    refine ⟨hsched.sameLists.peerQueue hempty, ?_⟩
    have hrelinks : Tx.Relinks tx empty p [] := Tx.Relinks.setPeer ..
    have hothers : ∀ r, r ≠ p → (txSetPeerReady config peers empty p false).peer r = tx.peer r := by
      intro r hr
      rw [txSetPeerReady_others config peers empty false hr]
      exact Tx.setPeer_of_ne _ _ hr
    refine ⟨hothers, ?_, ?_, ?_, ?_, ?_⟩
    · intro j
      exact ⟨_, by rw [hsched.queue]; rfl⟩
    · intro j _
      rw [hsched.queue]
      rfl
    · exact hsched.buffer
    · exact hsched.bufferUsed
    · exact hsched.queueLen
  · exact ⟨h, Tx.Relinks.refl ..⟩

/-- Counting the used slots without one of them. -/
theorem Tx.usedSlots_erase {i : Nat} (hi : tx.Used config i) (hfree : (tx'.queue i).used = false)
    (hothers : ∀ j, j ≠ i → (tx'.queue j).used = (tx.queue j).used) :
    (tx'.usedSlots config).length = (tx.usedSlots config).length - 1 := by
  have hperm : (tx'.usedSlots config).Perm ((tx.usedSlots config).erase i) := by
    rw [List.perm_ext_iff_of_nodup (tx'.usedSlots_nodup config)
      ((tx.usedSlots_nodup config).erase i)]
    intro j
    rw [(tx.usedSlots_nodup config).mem_erase_iff, Tx.mem_usedSlots, Tx.mem_usedSlots]
    by_cases hj : j = i
    · subst hj
      simp [Tx.Used, hfree]
    · simp [Tx.Used, hothers j hj, hj]
  rw [hperm.length_eq, List.length_erase_of_mem (Tx.mem_usedSlots.mpr hi)]

section Remove

variable {i p : Nat}

/-- `tx'` has the items of `tx` but for item `i`, which is free. -/
structure Tx.Loses (tx tx' : Tx) (i : Nat) : Prop where
  free : tx'.queue i = .free
  keeps : ∀ j, j ≠ i → Tx.Keeps tx tx' j

namespace Tx.Loses

variable {j : Nat}

theorem ne (h : Tx.Loses tx tx' i) (hj : tx'.Used config j) : j ≠ i := by
  rintro rfl
  have hused := hj.2
  rw [h.free] at hused
  cases hused

theorem used_iff (h : Tx.Loses tx tx' i) : tx'.Used config j ↔ tx.Used config j ∧ j ≠ i := by
  constructor
  · intro hj
    have hne := h.ne hj
    refine ⟨⟨hj.1, ?_⟩, hne⟩
    rw [← (h.keeps j hne).field_eq TxItem.used fun _ => rfl]
    exact hj.2
  · intro hj
    refine ⟨hj.1.1, ?_⟩
    rw [(h.keeps j hj.2).field_eq TxItem.used fun _ => rfl]
    exact hj.1.2

theorem peerIndex_eq (h : Tx.Loses tx tx' i) (hj : j ≠ i) :
    (tx'.queue j).peerIndex = (tx.queue j).peerIndex :=
  (h.keeps j hj).field_eq TxItem.peerIndex fun _ => rfl

theorem usedSlots_length (h : Tx.Loses tx tx' i) (hi : tx.Used config i) :
    (tx'.usedSlots config).length = (tx.usedSlots config).length - 1 := by
  refine Tx.usedSlots_erase hi ?_ fun j hj => (h.keeps j hj).field_eq TxItem.used fun _ => rfl
  rw [h.free]
  rfl

end Tx.Loses

/-- The item `i` of `tx` is free and counted out. -/
def Tx.release (tx : Tx) (i : Nat) : Tx :=
  { tx.setItem i .free with
    queueLen := tx.queueLen - 1
    bufferUsed := if tx.queueLen - 1 = 0 then 0 else tx.bufferUsed }

variable (h : TxInv config tx q reserved)

include h

/-- `gossipsub_tx_remove` relinks the queue of the peer and releases the item. -/
theorem TxInv.txRemove_spec (peers : Nat → Peer) (hi : tx.Used config i)
    (hpeer : (tx.queue i).peerIndex = p) :
    ∃ tx', PeerQueue tx' p ((q p).erase i) ∧ Tx.Relinks tx tx' p ((q p).erase i) ∧
      txRemove config peers tx i = tx'.release i := by
  have hp : p < config.capacity.maxPeers := hpeer ▸ (h.owner i hi).1
  rcases h.unlink hp i with ⟨hqueue₁, hrelinks₁⟩
  rcases txRemove_settle peers hqueue₁ with ⟨hqueue₂, hrelinks₂⟩
  dsimp only at hqueue₂ hrelinks₂
  generalize htx₂ : (if ((txUnlink config tx p i).peer p).queueDepth = 0 then
      txSetPeerReady config peers ((txUnlink config tx p i).setPeer p
        { (txUnlink config tx p i).peer p with
          head := none
          tail := none
          priorityTail := none
          priorityDepth := 0 }) p false
    else txUnlink config tx p i) = tx₂ at hqueue₂ hrelinks₂
  refine ⟨tx₂, hqueue₂, hrelinks₁.trans (hrelinks₂.mono fun j hj => by cases hj), ?_⟩
  have hcount : (if (tx₂.setItem i .free).queueLen ≠ 0 then (tx₂.setItem i .free).queueLen - 1
      else 0) = tx₂.queueLen - 1 := by
    rw [Tx.setItem_queueLen]
    split <;> omega
  unfold txRemove
  rw [if_pos ⟨hi.1, hi.2⟩, hpeer]
  simp only [if_pos hp, htx₂, hcount]
  rfl

omit h in
theorem Tx.Relinks.loses {on : List Nat} (h : Tx.Relinks tx tx' p on) (i : Nat) :
    Tx.Loses tx (tx'.release i) i := by
  refine ⟨Tx.setItem_self .., fun j hj => ?_⟩
  have hsame : (tx'.release i).queue j = tx'.queue j := Tx.setItem_of_ne _ _ hj
  have hkeeps := h.keeps j
  unfold Tx.Keeps Tx.content at hkeeps ⊢
  rw [hsame]
  exact hkeeps

/-- The queues after item `i` is released. -/
theorem TxInv.queue_release (hpeer : (tx.queue i).peerIndex = p) (hp : p < config.capacity.maxPeers)
    (hqueue : PeerQueue tx' p ((q p).erase i)) (hrelinks : Tx.Relinks tx tx' p ((q p).erase i))
    {r : Nat} (hr : r < config.capacity.maxPeers) :
    PeerQueue (tx'.release i) r ((q r).erase i) := by
  have hlist : PeerQueue tx' r ((q r).erase i) := by
    by_cases hrp : r = p
    · rw [hrp]
      exact hqueue
    · have hir : i ∉ q r := by
        intro hir
        exact hrp ((h.queued r hr i hir).2.1.symm.trans hpeer)
      rw [List.erase_of_not_mem hir]
      refine hrelinks.peerQueue hrp ?_ (h.queue r hr)
      intro j hj hjp
      exact h.disjoint hp hr hrp hj (List.mem_of_mem_erase hjp)
  have hsame : ∀ j ∈ (q r).erase i, (tx'.release i).queue j = tx'.queue j := by
    intro j hj
    apply Tx.setItem_of_ne
    rintro rfl
    exact (h.queue r hr).nodup.not_mem_erase hj
  apply hlist.congr
  case hnext =>
    intro j hj
    rw [Tx.next, hsame j hj]
    rfl
  case hprio =>
    intro j hj
    rw [hsame j hj]
  all_goals rfl

/-- The ranges in the buffer after item `i` is released. -/
theorem TxInv.buffer_release (hi : tx.Used config i) {on : List Nat}
    (hrelinks : Tx.Relinks tx tx' p on) : BufferInv config (tx'.release i) := by
  have hlose := hrelinks.loses i
  have hused : ∀ j, (tx'.release i).Used config j → tx.Used config j ∧ j ≠ i :=
    fun j hj => hlose.used_iff.mp hj
  have hoff : ∀ j, (tx'.release i).Used config j →
      ((tx'.release i).queue j).offset = (tx.queue j).offset := by
    intro j hj
    have hsame : (tx'.release i).queue j = tx'.queue j := Tx.setItem_of_ne _ _ (hused j hj).2
    rcases hrelinks.items j with ⟨n, hn⟩
    rw [hsame, hn]
  -- an item in use is counted
  have hbufferUsed : ∀ j, (tx'.release i).Used config j →
      (tx'.release i).bufferUsed = tx.bufferUsed := by
    intro j hj
    refine (if_neg fun hzero => ?_).trans hrelinks.bufferUsed
    have hlength := hlose.usedSlots_length hi
    rw [← h.count, ← hrelinks.queueLen, hzero] at hlength
    have hmem : j ∈ (tx'.release i).usedSlots config := Tx.mem_usedSlots.mpr hj
    rw [List.eq_nil_of_length_eq_zero hlength] at hmem
    cases hmem
  refine { range := ?range, pos_le := ?pos_le, apart := ?apart, used_le := ?used_le }
  case range =>
    intro j hj
    rw [(hlose.keeps j (hused j hj).2).len_eq, hoff j hj, hbufferUsed j hj]
    exact h.buffer.range j (hused j hj).1
  case pos_le =>
    intro j hj
    rw [(hlose.keeps j (hused j hj).2).len_eq, (hlose.keeps j (hused j hj).2).pos_eq]
    exact h.buffer.pos_le j (hused j hj).1
  case apart =>
    intro j k hj hk hjk
    have hapart := h.buffer.apart j k (hused j hj).1 (hused k hk).1 hjk
    unfold Arena.Apart at hapart ⊢
    rw [(hlose.keeps j (hused j hj).2).len_eq, (hlose.keeps k (hused k hk).2).len_eq]
    simpa only [Tx.arena, hoff j hj, hoff k hk] using hapart
  case used_le =>
    have hle := h.buffer.used_le
    unfold Tx.release
    dsimp only
    rw [hrelinks.bufferUsed]
    split <;> omega

/-- Removing an item takes it out of its queue and leaves every other item alone. -/
theorem TxInv.remove (peers : Nat → Peer) (hi : tx.Used config i)
    (hres : reserved = none ∨ reserved = some i) :
    TxInv config (txRemove config peers tx i) (fun p => (q p).erase i) none ∧
      Tx.Loses tx (txRemove config peers tx i) i := by
  rcases h.txRemove_spec peers hi rfl with ⟨tx', hqueue, hrelinks, hrun⟩
  have hlose := hrelinks.loses i
  have hnodup : ∀ r < config.capacity.maxPeers, (q r).Nodup := fun r hr => (h.queue r hr).nodup
  rw [hrun]
  refine ⟨{
    queue := fun r hr => h.queue_release rfl (h.owner i hi).1 hqueue hrelinks hr
    owner := ?owner
    queued := ?queued
    fresh := ?fresh
    count := ?count
    buffer := h.buffer_release hi hrelinks }, hlose⟩
  case owner =>
    intro j hj
    rcases hlose.used_iff.mp hj with ⟨hju, hji⟩
    rcases h.owner j hju with ⟨hjp, hjq⟩
    rw [hlose.peerIndex_eq hji]
    refine ⟨hjp, fun _ => ?_⟩
    rw [(hnodup _ hjp).mem_erase_iff]
    refine ⟨hji, hjq ?_⟩
    rcases hres with hres | hres
    · simp [hres]
    · rw [hres]
      intro heq
      exact hji (Option.some.inj heq).symm
  case queued =>
    intro r hr j hj
    rw [(hnodup r hr).mem_erase_iff] at hj
    rcases h.queued r hr j hj.2 with ⟨hju, hjp, -⟩
    exact ⟨hlose.used_iff.mpr ⟨hju, hj.1⟩, (hlose.peerIndex_eq hj.1).trans hjp, by simp⟩
  case fresh =>
    intro j hj
    cases hj
  case count =>
    rw [hlose.usedSlots_length hi, ← h.count, ← hrelinks.queueLen]
    rfl

end Remove

end LeanLibp2p.Gossipsub
