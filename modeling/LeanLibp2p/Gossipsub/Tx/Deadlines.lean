import LeanLibp2p.Gossipsub.Tx.Queues

/-!
# Deadlines of queued frames

`gossipsub_tx_next_deadline` (`gossipsub_tx.c:806-841`), and what dropping stale frames, enqueueing
and flushing do to frames with a deadline: a frame that is past its deadline never starts, and one
that has started is only taken out when its last byte is.
-/

namespace LeanLibp2p.Gossipsub

open LeanLibp2p.Lib

variable (peers : Nat → Peer) (answers : WriteAnswers)
variable {config : Config} {tx : Tx}

/-! ## The next deadline -/

/-- The loop of `gossipsub_tx_next_deadline` over the items of one peer. -/
def txNextDeadlineLoop (config : Config) (tx : Tx) : Nat → Option Nat → Nat → Nat
  | 0, _, result => result
  | _ + 1, none, result => result
  | fuel + 1, some i, result =>
    if config.capacity.maxTxRpcQueue ≤ i then result
    else
      let item := tx.queue i
      txNextDeadlineLoop config tx fuel item.next
        (if item.used ∧ item.pos = 0 ∧ item.deadlineUs ≠ 0 ∧ item.deadlineUs < result then
          item.deadlineUs
        else result)

/-- `gossipsub_tx_next_deadline` (`gossipsub_tx.c:806-841`). -/
def txNextDeadline (config : Config) (tx : Tx) (currentDeadline : Nat) : Nat :=
  (List.range config.capacity.maxPeers).foldl (fun result p =>
    txNextDeadlineLoop config tx config.capacity.maxTxRpcQueue (tx.peer p).head result)
    currentDeadline

/-- The item has a deadline to start by. -/
def TxItem.Expires (item : TxItem) : Prop := item.pos = 0 ∧ item.deadlineUs ≠ 0

/-- The earliest of `current` and the deadlines of some items. -/
structure Tx.Earliest (tx : Tx) (items : List Nat) (current result : Nat) : Prop where
  le_current : result ≤ current
  le_deadline : ∀ i ∈ items, (tx.queue i).Expires → result ≤ (tx.queue i).deadlineUs
  attained : result = current ∨ ∃ i ∈ items, (tx.queue i).Expires ∧ result = (tx.queue i).deadlineUs

theorem Tx.Earliest.nil (tx : Tx) (current : Nat) : tx.Earliest [] current current :=
  ⟨Nat.le_refl _, by simp, .inl rfl⟩

theorem Tx.Earliest.append {items items' : List Nat} {current middle result : Nat}
    (h : tx.Earliest items current middle) (h' : tx.Earliest items' middle result) :
    tx.Earliest (items ++ items') current result := by
  refine ⟨Nat.le_trans h'.le_current h.le_current, ?_, ?_⟩
  · intro i hi hexpires
    rcases List.mem_append.mp hi with hleft | hright
    · exact Nat.le_trans h'.le_current (h.le_deadline i hleft hexpires)
    · exact h'.le_deadline i hright hexpires
  · rcases h'.attained with rfl | ⟨i, hi, hexpires⟩
    · rcases h.attained with hsame | ⟨i, hi, hexpires⟩
      · exact .inl hsame
      · exact .inr ⟨i, List.mem_append_left _ hi, hexpires⟩
    · exact .inr ⟨i, List.mem_append_right _ hi, hexpires⟩

/-- One item of the loop. -/
theorem Tx.Earliest.single {i : Nat} (hi : tx.Used config i) (current : Nat) :
    tx.Earliest [i] current
      (if (tx.queue i).used ∧ (tx.queue i).pos = 0 ∧ (tx.queue i).deadlineUs ≠ 0 ∧
          (tx.queue i).deadlineUs < current then (tx.queue i).deadlineUs
      else current) := by
  split
  · rename_i hearlier
    obtain ⟨-, hpos, hdeadline, hlt⟩ := hearlier
    refine ⟨Nat.le_of_lt hlt, ?_, .inr ⟨i, by simp, ⟨hpos, hdeadline⟩, rfl⟩⟩
    intro j hj _
    rw [List.mem_singleton.mp hj]
  · rename_i hlater
    refine ⟨Nat.le_refl _, ?_, .inl rfl⟩
    intro j hj hexpires
    rw [List.mem_singleton.mp hj] at hexpires ⊢
    by_contra hlt
    exact hlater ⟨hi.2, hexpires.1, hexpires.2, Nat.lt_of_not_le hlt⟩

theorem txNextDeadlineLoop_earliest {l : List Nat}
    {start : Option Nat} {fuel current : Nat} (h : Segment tx.next start l none)
    (hlive : ∀ i ∈ l, tx.Used config i) (hfuel : l.length ≤ fuel) :
    tx.Earliest l current (txNextDeadlineLoop config tx fuel start current) := by
  induction l generalizing start fuel current with
  | nil =>
    rw [Segment.nil_iff] at h
    subst h
    cases fuel with
    | zero => exact .nil tx current
    | succ fuel => exact .nil tx current
  | cons i l ih =>
    obtain ⟨rfl, hrest⟩ := h
    cases fuel with
    | zero => exact absurd hfuel (Nat.not_succ_le_zero _)
    | succ fuel =>
      have hi := hlive i List.mem_cons_self
      rw [txNextDeadlineLoop, if_neg (Nat.not_le_of_lt hi.1)]
      refine (Tx.Earliest.single hi current).append (ih hrest ?_ (Nat.le_of_succ_le_succ hfuel))
      exact fun j hj => hlive j (List.mem_cons_of_mem i hj)

/-- The scan of all peers finds the earliest deadline of the items in the lists. -/
theorem txNextDeadline_earliest {q : Nat → List Nat} (h : TxInv config tx q none) (current : Nat) :
    tx.Earliest ((List.range config.capacity.maxPeers).flatMap q) current
      (txNextDeadline config tx current) := by
  have hscan : ∀ (ps : List Nat) (current : Nat), (∀ p ∈ ps, p < config.capacity.maxPeers) →
      tx.Earliest (ps.flatMap q) current (ps.foldl (fun result p =>
        txNextDeadlineLoop config tx config.capacity.maxTxRpcQueue (tx.peer p).head result)
        current) := by
    intro ps
    induction ps with
    | nil => exact fun current _ => .nil tx current
    | cons p ps ih =>
      intro current hps
      have hp := hps p List.mem_cons_self
      rw [List.flatMap_cons, List.foldl_cons]
      refine Tx.Earliest.append ?_ (ih _ fun r hr => hps r (List.mem_cons_of_mem p hr))
      exact txNextDeadlineLoop_earliest (h.queue p hp).linked
        (fun i hi => (h.queued p hp i hi).1) ((h.live hp).length_le (h.queue p hp).nodup)
  exact hscan _ current fun p hp => List.mem_range.mp hp

/-- Every item is in a list. -/
theorem TxInv.mem_flatMap {q : Nat → List Nat}
    (h : TxInv config tx q none) {i : Nat} (hi : tx.Used config i) :
    i ∈ (List.range config.capacity.maxPeers).flatMap q := by
  rw [List.mem_flatMap]
  exact ⟨_, List.mem_range.mpr (h.owner i hi).1, (h.owner i hi).2 (by simp)⟩

/-! ## Stale frames -/

/-- No frame is past the deadline to start by. -/
def Tx.Timely (config : Config) (nowUs : Nat) (tx : Tx) : Prop :=
  ∀ i, tx.Used config i → txItemStale (tx.queue i) nowUs = false

/-- A frame that has started is not stale. -/
theorem txItemStale_of_started {item : TxItem} (h : item.pos ≠ 0) (nowUs : Nat) :
    txItemStale item nowUs = false := by simp [txItemStale, h]

/-- A frame without a lifetime has no deadline. -/
theorem txDeadline_eq_zero_iff (nowUs lifetimeUs : Nat) :
    txDeadline nowUs lifetimeUs = 0 ↔ lifetimeUs = 0 := by
  unfold txDeadline uint64Max
  split
  · split <;> omega
  · omega

/-- A frame that is enqueued later is not stale. -/
theorem txItemStale_of_deadline {item : TxItem} {nowUs laterUs lifetimeUs : Nat}
    (h : item.deadlineUs = txDeadline laterUs lifetimeUs) (hlater : nowUs ≤ laterUs)
    (hmax : nowUs < uint64Max) : txItemStale item nowUs = false := by
  unfold txDeadline at h
  have hlate : item.deadlineUs = 0 ∨ nowUs < item.deadlineUs := by
    split at h
    · split at h <;> omega
    · omega
  simp only [txItemStale, Bool.and_eq_false_iff, decide_eq_false_iff_not]
  omega

theorem Tx.Keeps.stale_eq {tx tx' : Tx} {i : Nat} (h : Tx.Keeps tx tx' i) (nowUs : Nat) :
    txItemStale (tx'.queue i) nowUs = txItemStale (tx.queue i) nowUs :=
  h.field_eq (fun item => txItemStale item nowUs) fun _ => rfl

namespace TxReachable

variable {config : RouterConfig} {s : TxSide}

/-- What `gossipsub_tx_drop_stale` leaves keeps its data. -/
theorem dropStale_kept (h : TxReachable config.toConfig s) (hfree : s.reserved = none) (nowUs : Nat)
    {i : Nat} (hi : (txDropStale config.toConfig s.peers nowUs s.tx).Used config.toConfig i) :
    Tx.Keeps s.tx (txDropStale config.toConfig s.peers nowUs s.tx) i := by
  unfold txDropStale at hi ⊢
  have hrange : ∀ p ∈ List.range config.capacity.maxPeers, p < config.capacity.maxPeers :=
    fun p hp => List.mem_range.mp hp
  generalize List.range config.capacity.maxPeers = ps at hi hrange ⊢
  induction ps generalizing s with
  | nil => exact .refl s.tx i
  | cons p ps ih =>
    rw [List.foldl_cons] at hi ⊢
    have hdrops := h.walks_queue (dropStaleLoop_walks s.peers nowUs) hfree
      (hrange p List.mem_cons_self)
    have hreached := h.dropStaleLoop hfree nowUs config.capacity.maxTxRpcQueue (s.tx.peer p).head
    have hrest := ih hreached hfree hi fun r hr => hrange r (List.mem_cons_of_mem p hr)
    exact (hdrops.kept i (hrest.used_of_used hi)).trans hrest

/-- After `gossipsub_tx_drop_stale` no frame is stale. -/
theorem dropStale_timely (h : TxReachable config.toConfig s) (hfree : s.reserved = none)
    (nowUs : Nat) :
    (txDropStale config.toConfig s.peers nowUs s.tx).Timely config.toConfig nowUs := by
  intro i hi
  have hkept := h.dropStale_kept hfree nowUs hi
  have hqueues := (h.dropStale hfree nowUs).transmitInv.queues
  obtain ⟨hp, howner⟩ := hqueues.owner i hi
  have hmem := howner (by simp [hfree])
  rw [h.dropStale_queues hfree nowUs _ hp] at hmem
  rw [hkept.stale_eq]
  simpa using (List.mem_filter.mp hmem).2

/-- `gossipsub_tx_drop_stale` leaves every frame that is not stale. -/
theorem dropStale_used (h : TxReachable config.toConfig s) (hfree : s.reserved = none)
    (nowUs : Nat) {i : Nat} (hi : s.tx.Used config.toConfig i)
    (hstale : txItemStale (s.tx.queue i) nowUs = false) :
    (txDropStale config.toConfig s.peers nowUs s.tx).Used config.toConfig i := by
  obtain ⟨hp, howner⟩ := h.transmitInv.queues.owner i hi
  have hqueues := (h.dropStale hfree nowUs).transmitInv.queues
  apply (hqueues.queued _ hp i ?_).1
  rw [h.dropStale_queues hfree nowUs _ hp]
  exact List.mem_filter.mpr ⟨howner (by simp [hfree]), by simp [hstale]⟩

end TxReachable

/-! ## Flushing -/

/-- The bytes of an item that the host has not taken. -/
def Tx.rest (tx : Tx) (i : Nat) : Bytes :=
  if (tx.queue i).used then (tx.content i).drop (tx.queue i).pos else []

/-- The bytes of an item that the host took in a flush. -/
def FlushState.taken (f : FlushState) (i : Nat) : Bytes :=
  (f.writes.filter fun w => w.item = i).flatMap HostWrite.bytes

/-- A flush that started from `tx`: it offered only frames that were not past their deadline, and a
    frame that was not is waiting or has been taken whole. -/
structure Flushed (config : Config) (nowUs : Nat) (tx : Tx) (f : FlushState) : Prop where
  inv : ∃ q, TxInv config f.tx q none
  used : ∀ i, f.tx.Used config i → tx.Used config i ∧
    (f.tx.queue i).deadlineUs = (tx.queue i).deadlineUs ∧
    (tx.queue i).pos ≤ (f.tx.queue i).pos ∧
    ((f.tx.queue i).pos ≠ (tx.queue i).pos → txItemStale (tx.queue i) nowUs = false)
  offered : ∀ w ∈ f.writes, tx.Used config w.item ∧ txItemStale (tx.queue w.item) nowUs = false
  whole : ∀ i, tx.Used config i → txItemStale (tx.queue i) nowUs = false →
    f.taken i ++ f.tx.rest i = tx.rest i

theorem Tx.Keeps.rest_eq {tx tx' : Tx} {i : Nat} (h : Tx.Keeps tx tx' i) :
    tx'.rest i = tx.rest i := by
  unfold Tx.rest
  rw [h.field_eq TxItem.used fun _ => rfl, h.pos_eq, h.2]

/-- Nothing is left of an item that was taken out. -/
theorem Tx.rest_of_free {i : Nat} (h : tx.queue i = .free) : tx.rest i = [] := by
  unfold Tx.rest
  rw [h]
  rfl

/-- Nothing is left of an item that was taken to the end. -/
theorem Tx.rest_of_sent {i : Nat} (h : (tx.queue i).pos = (tx.queue i).len) : tx.rest i = [] := by
  unfold Tx.rest
  split
  · apply List.drop_of_length_le
    unfold Tx.content
    rw [Memory.slice_length, h]
  · rfl

namespace Flushed

variable {config : Config} {nowUs : Nat} {tx : Tx} {f f' : FlushState} {i : Nat}

theorem start {q : Nat → List Nat} (h : TxInv config tx q none) (hf : f.tx = tx)
    (hwrites : f.writes = []) : Flushed config nowUs tx f := by
  subst hf
  refine ⟨⟨q, h⟩, fun i hi => ⟨hi, rfl, Nat.le_refl _, fun hne => absurd rfl hne⟩, ?_, ?_⟩
  · simp [hwrites]
  · intro i _ _
    simp [FlushState.taken, hwrites]

/-- A frame that is not stale now was not stale when the flush began. -/
theorem fresh (h : Flushed config nowUs tx f) (hi : f.tx.Used config i)
    (hstale : txItemStale (f.tx.queue i) nowUs = false) :
    txItemStale (tx.queue i) nowUs = false := by
  obtain ⟨-, hdeadline, -, hstarted⟩ := h.used i hi
  by_cases hpos : (f.tx.queue i).pos = (tx.queue i).pos
  · unfold txItemStale at hstale ⊢
    rwa [← hdeadline, ← hpos]
  · exact hstarted hpos

/-- A frame that is stale now was stale when the flush began. -/
theorem stale (h : Flushed config nowUs tx f) (hi : f.tx.Used config i)
    (hstale : txItemStale (f.tx.queue i) nowUs = true) : txItemStale (tx.queue i) nowUs = true := by
  obtain ⟨-, hdeadline, hle, -⟩ := h.used i hi
  simp only [txItemStale, Bool.and_eq_true, decide_eq_true_eq, hdeadline] at hstale ⊢
  omega

/-- What changes no item and writes nothing. -/
theorem schedules (h : Flushed config nowUs tx f) (hs : Tx.Schedules f.tx f'.tx)
    (hwrites : f'.writes = f.writes) : Flushed config nowUs tx f' := by
  obtain ⟨q, hq⟩ := h.inv
  have htaken : f'.taken = f.taken := by
    funext i
    unfold FlushState.taken
    rw [hwrites]
  refine ⟨⟨q, hs.inv hq⟩, ?_, hwrites ▸ h.offered, ?_⟩
  · intro i hi
    rw [hs.queue]
    exact h.used i ((hs.sameLists.used_iff config i).mp hi)
  · intro i hi hstale
    rw [htaken, (hs.keeps i).rest_eq]
    exact h.whole i hi hstale

/-- An item that is stale, or of which nothing is left, may be taken out. -/
theorem remove (h : Flushed config nowUs tx f) (peers : Nat → Peer) (hi : f.tx.Used config i)
    (hdone : txItemStale (f.tx.queue i) nowUs = true ∨ f.tx.rest i = [])
    (htx : f'.tx = txRemove config peers f.tx i) (hwrites : f'.writes = f.writes) :
    Flushed config nowUs tx f' := by
  obtain ⟨q, hq⟩ := h.inv
  obtain ⟨hinv, hfree, hkeeps⟩ := hq.remove peers hi (.inl rfl)
  rw [← htx] at hinv hfree hkeeps
  have htaken : f'.taken = f.taken := by
    funext j
    unfold FlushState.taken
    rw [hwrites]
  refine ⟨⟨_, hinv⟩, ?_, hwrites ▸ h.offered, ?_⟩
  · intro j hj
    have hji : j ≠ i := by
      rintro rfl
      rw [Tx.Used, hfree] at hj
      exact absurd hj.2 (by decide)
    have hkept := hkeeps j hji
    rw [hkept.field_eq TxItem.deadlineUs fun _ => rfl, hkept.pos_eq]
    exact h.used j (hkept.used_of_used hj)
  · intro j hj hstale
    rw [htaken]
    by_cases hji : j = i
    · subst hji
      rw [Tx.rest_of_free hfree]
      rcases hdone with hold | hempty
      · rw [h.stale hi hold] at hstale
        cases hstale
      · rw [← hempty]
        exact h.whole j hj hstale
    · rw [(hkeeps j hji).rest_eq]
      exact h.whole j hj hstale

/-- The host takes the next bytes of a frame that is not stale. -/
theorem accept (h : Flushed config nowUs tx f) (stream : Nat) {n : Nat} (hi : f.tx.Used config i)
    (hstale : txItemStale (f.tx.queue i) nowUs = false)
    (hn : n ≤ (f.tx.queue i).len - (f.tx.queue i).pos) :
    Flushed config nowUs tx (f.accept stream i n) := by
  unfold FlushState.accept
  split
  · obtain ⟨q, hq⟩ := h.inv
    have hfresh := h.fresh hi hstale
    have hpos : (f.tx.queue i).pos ≤ (f.tx.queue i).len := hq.buffer.pos_le i hi
    have hothers : ∀ j, j ≠ i → (f.tx.setItem i { f.tx.queue i with
        pos := (f.tx.queue i).pos + n }).queue j = f.tx.queue j :=
      fun j hj => Tx.setItem_of_ne _ _ hj
    have hself : (f.tx.setItem i { f.tx.queue i with pos := (f.tx.queue i).pos + n }).queue i =
        { f.tx.queue i with pos := (f.tx.queue i).pos + n } := Tx.setItem_self ..
    refine ⟨⟨q, hq.setItem _ rfl rfl rfl rfl rfl rfl ?_⟩, ?_, ?_, ?_⟩
    · intro _
      dsimp only
      omega
    · intro j hj
      dsimp only at hj ⊢
      by_cases hji : j = i
      · subst hji
        obtain ⟨hused, hdeadline, hle, -⟩ := h.used j hi
        rw [hself]
        exact ⟨hused, hdeadline, Nat.le_add_right_of_le hle, fun _ => hfresh⟩
      · unfold Tx.Used at hj
        rw [hothers j hji] at hj ⊢
        exact h.used j hj
    · intro w hw
      rcases List.mem_append.mp hw with hold | hnew
      · exact h.offered w hold
      · rw [List.mem_singleton.mp hnew]
        exact ⟨(h.used i hi).1, hfresh⟩
    · intro j hj hjstale
      rw [← h.whole j hj hjstale]
      unfold FlushState.taken Tx.rest Tx.content
      by_cases hji : j = i
      · subst hji
        have hmove : f.tx.buffer.slice ((f.tx.queue j).offset + (f.tx.queue j).pos) n ++
            (f.tx.buffer.slice (f.tx.queue j).offset (f.tx.queue j).len).drop
              ((f.tx.queue j).pos + n) =
            (f.tx.buffer.slice (f.tx.queue j).offset (f.tx.queue j).len).drop
              (f.tx.queue j).pos := by
          rw [Memory.slice_drop _ _ hpos, Memory.slice_drop _ _ (by omega), ← Nat.add_assoc,
            ← Memory.slice_append]
          congr 1
          omega
        dsimp only
        simp [hi.2, hmove]
      · have hij : ¬ i = j := fun heq => hji heq.symm
        dsimp only
        simp [hothers j hji, hij]
  · exact h

theorem flushItem (h : Flushed config nowUs tx f) {peers : Nat → Peer} {answers : WriteAnswers}
    {p stream : Nat} (hi : f.tx.Used config i)
    (hstale : txItemStale (f.tx.queue i) nowUs = false) :
    Flushed config nowUs tx (Gossipsub.flushItem config peers answers p stream i f).2 := by
  have hcalled : Flushed config nowUs tx { f with calls := f.calls + 1 } :=
    h.schedules (.refl _) rfl
  unfold Gossipsub.flushItem
  dsimp only
  split
  · split
    · exact hcalled.schedules (FlushState.block_schedules config peers p _) rfl
    · exact hcalled
  · rename_i n _
    have haccept := hcalled.accept stream hi hstale
      (Nat.min_le_right n ((f.tx.queue i).len - (f.tx.queue i).pos))
    have hqueue := FlushState.accept_queue { f with calls := f.calls + 1 } stream i
      (min n ((f.tx.queue i).len - (f.tx.queue i).pos))
    dsimp only at haccept hqueue
    generalize FlushState.accept stream i (min n ((f.tx.queue i).len - (f.tx.queue i).pos))
      { f with calls := f.calls + 1 } = f₁ at haccept hqueue ⊢
    split
    · rename_i hsent
      exact haccept.remove peers ⟨hi.1, hqueue.1.trans hi.2⟩ (.inr (Tx.rest_of_sent hsent)) rfl rfl
    · split
      · exact haccept.schedules (FlushState.block_schedules config peers p _) rfl
      · exact haccept

/-- One round of the loop of `gossipsub_flush_peer`. -/
theorem flushStep (p stream : Nat) :
    Comp.Keeps (Flushed config nowUs tx) (flushStep config peers answers p stream nowUs) := by
  intro f h
  unfold Gossipsub.flushStep
  split
  · exact h
  split
  · exact h.schedules (txSetPeerReady_schedules ..) rfl
  · rename_i i _
    split
    · exact h.schedules (txSetPeerReady_schedules ..) rfl
    · rename_i hlive
      have hi : f.tx.Used config i := by
        unfold Tx.Used
        cases hused : (f.tx.queue i).used with
        | true => exact ⟨by omega, rfl⟩
        | false => exact absurd (.inr hused) hlive
      split
      · rename_i hstale
        exact h.remove peers hi (.inl hstale) rfl rfl
      · rename_i hstale
        exact h.flushItem hi (Bool.eq_false_iff.mpr hstale)

theorem flushPeer (p : Nat) :
    Comp.Keeps (Flushed config nowUs tx) (flushPeer config peers answers p nowUs) := by
  have hloop : ∀ stream fuel, Comp.Keeps (Flushed config nowUs tx)
      (flushLoop config peers answers p stream nowUs fuel) := by
    intro stream fuel
    induction fuel with
    | zero => exact .pure ()
    | succ fuel ih =>
      refine .bind (flushStep peers answers p stream) fun keepWriting => ?_
      exact .ite (fun _ => ih) fun _ => .pure ()
  intro f h
  unfold Gossipsub.flushPeer
  split
  · exact h
  split
  · exact h.schedules (txSetPeerReady_schedules ..) rfl
  · rename_i stream _
    have hstart : Flushed config nowUs tx { f with bytesWritten := 0, peerBlocked := false } :=
      h.schedules (.refl _) rfl
    have hwritten := hloop stream (f.tx.queueLen + f.tx.bufferUsed + 1) _ hstart
    dsimp only
    generalize (flushLoop config peers answers p stream nowUs _ _).2 = f' at hwritten
    unfold flushSettle
    split
    · exact hwritten.schedules (txSetPeerReady_schedules ..) rfl
    · exact hwritten

/-- `gossipsub_flush_ready_peers`. -/
theorem flushReadyPeers :
    Comp.Keeps (Flushed config nowUs tx) (flushReadyPeers config peers answers nowUs) := by
  unfold Gossipsub.flushReadyPeers
  generalize config.capacity.maxPeers = fuel
  induction fuel with
  | zero => exact .pure ()
  | succ fuel ih =>
    intro f h
    have hnext : Flushed config nowUs tx { f with tx := { f.tx with
        nextPeer := (f.tx.nextPeer + 1) % config.capacity.maxPeers } } :=
      h.schedules ⟨rfl, rfl, rfl, rfl, fun _ => ⟨_, _, _, rfl⟩⟩ rfl
    rw [flushReadyLoop]
    dsimp only
    split
    · exact h
    split
    · exact Comp.Keeps.bind (flushPeer peers answers _) (fun _ => ih) _ hnext
    · exact ih _ hnext

end Flushed

/-! ## Enqueueing -/

/-- Linking an item changes no deadline. -/
theorem txAppendPeerItem_deadline (config : Config) (peers : Nat → Peer) (tx : Tx) (p i : Nat)
    (priority : Bool) (j : Nat) :
    ((txAppendPeerItem config peers tx p i priority).queue j).deadlineUs =
      (tx.queue j).deadlineUs := by
  have hset : ∀ (tx : Tx) (k : Nat) (item : TxItem),
      item.deadlineUs = (tx.queue k).deadlineUs →
      ((tx.setItem k item).queue j).deadlineUs = (tx.queue j).deadlineUs := by
    intro tx k item hitem
    by_cases hj : j = k
    · rw [hj, Tx.setItem_self, hitem]
    · rw [Tx.setItem_of_ne _ _ hj]
  have hlink : ∀ tx : Tx,
      ((txLinkPeerItem tx p i priority).queue j).deadlineUs = (tx.queue j).deadlineUs := by
    intro tx
    unfold txLinkPeerItem
    dsimp only
    split
    · rfl
    split
    · split
      · rfl
      · exact hset tx _ _ rfl
    · split
      · exact hset tx _ _ rfl
      · rw [Tx.setPeer_queue, hset _ _ _ (by rfl), hset tx _ _ (by rfl)]
  unfold txAppendPeerItem
  dsimp only
  split
  · rw [(txSetPeerReady_schedules ..).queue]
    exact (hlink _).trans (hset tx i _ rfl)
  · exact (hlink _).trans (hset tx i _ rfl)

theorem txReserve_deadline {tx tx' : Tx} {p frameLen lifetimeUs nowUs i : Nat}
    (hrun : txReserve config p frameLen lifetimeUs nowUs tx = (.ok i, tx')) :
    (tx'.queue i).deadlineUs = txDeadline nowUs lifetimeUs := by
  unfold txReserve at hrun
  dsimp only at hrun
  split at hrun
  · cases hrun
  split at hrun
  · cases hrun
  split at hrun
  · cases hrun
  split at hrun
  · cases hrun
  split at hrun
  · cases hrun
  · cases hrun
    dsimp only
    rw [Tx.setItem_self]

/-- A frame that is enqueued has the deadline of its lifetime. -/
theorem enqueueRpcWithLifetime_deadline {peers : Nat → Peer} {tx tx' : Tx}
    {p lifetimeUs nowUs i : Nat} {rpc : Rpc} {priority : Bool}
    (hrun : enqueueRpcWithLifetime config peers p rpc lifetimeUs priority nowUs tx = (.ok i, tx')) :
    (tx'.queue i).deadlineUs = txDeadline nowUs lifetimeUs := by
  unfold enqueueRpcWithLifetime at hrun
  split at hrun
  · cases hrun
  split at hrun
  · cases hrun
  split at hrun
  · cases hrun
  rename_i frameLen _
  rcases hreserve : txReserve config p frameLen lifetimeUs nowUs tx with ⟨e | k, tx₁⟩
  · rw [hreserve] at hrun
    cases hrun
  rw [hreserve] at hrun
  dsimp only at hrun
  split at hrun
  · cases hrun
  split at hrun
  · cases hrun
  unfold txCommitReserved at hrun
  split at hrun
  · rename_i tx₂ hcommit
    cases hrun
    split at hcommit
    · cases hcommit
    split at hcommit
    · cases hcommit
    · cases hcommit
      rw [txAppendPeerItem_deadline]
      change (tx₁.queue i).deadlineUs = _
      exact txReserve_deadline hreserve
  · cases hrun

/-- After an enqueue an item is one that was there, or the new one. -/
theorem enqueueRpcWithLifetime_items {peers : Nat → Peer} {tx tx' : Tx}
    {q : Nat → List Nat} (h : TxInv config tx q none)
    (hfits : config.capacity.txBufferBytes ≤ ptrdiffMax) {p lifetimeUs nowUs : Nat} {rpc : Rpc}
    {priority : Bool} {result : Except GossipsubErr Nat}
    (hrun : enqueueRpcWithLifetime config peers p rpc lifetimeUs priority nowUs tx = (result, tx'))
    {j : Nat} (hj : tx'.Used config j) :
    (tx.Used config j ∧ Tx.Keeps tx tx' j) ∨ result = .ok j := by
  obtain ⟨herror, hok⟩ := enqueueRpcWithLifetime_spec h hfits hrun
  cases result with
  | error e =>
    obtain ⟨hinv, hkeeps⟩ := herror e rfl
    obtain ⟨hp, howner⟩ := hinv.owner j hj
    have hused := (h.queued _ hp j (howner (by simp))).1
    exact .inl ⟨hused, hkeeps j hused⟩
  | ok i =>
    obtain ⟨hinv, henqueued⟩ := hok i rfl
    obtain ⟨hr, howner⟩ := hinv.owner j hj
    have hmem := howner (by simp)
    by_cases hji : j = i
    · exact .inr (by rw [hji])
    · have hold : j ∈ q (tx'.queue j).peerIndex := by
        by_cases hrp : (tx'.queue j).peerIndex = p
        · rw [hrp, Function.update_self] at hmem
          have hperm := tx.insertItem_perm (h.queue p henqueued.peer_lt).sorted i priority
          rw [hrp]
          simpa [hji] using hperm.mem_iff.mp hmem
        · rwa [Function.update_of_ne hrp] at hmem
      have hused := (h.queued _ hr j hold).1
      exact .inl ⟨hused, henqueued.keeps j hused⟩

end LeanLibp2p.Gossipsub
