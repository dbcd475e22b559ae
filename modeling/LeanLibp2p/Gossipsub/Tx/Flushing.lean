import LeanLibp2p.Gossipsub.Tx.Reach
import Mathlib.Algebra.Order.BigOperators.Group.List
import Mathlib.Algebra.Order.Group.Nat

/-!
# What a flush leaves

`gossipsub_flush_peer` writes until the queue of the peer is empty or the host takes no more
bytes: every round that goes on takes an item or a byte out of what is unsent. So when
`gossipsub_flush_ready_peers` succeeds, every queue is empty or waits for its transport.
-/

namespace LeanLibp2p.Gossipsub

open LeanLibp2p.Lib

variable {config : Config}

/-- What an item adds to the work of a flush: its bytes that are not sent, and its removal. -/
def TxItem.unsent (item : TxItem) : Nat := if item.used then 1 + (item.len - item.pos) else 0

/-- The work that is left for a flush. -/
def Tx.unsent (config : Config) (tx : Tx) : Nat :=
  ((List.range config.capacity.maxTxRpcQueue).map fun i => (tx.queue i).unsent).sum

theorem Tx.unsent_lt {tx tx' : Tx} {i : Nat}
    (hi : i < config.capacity.maxTxRpcQueue) (hlt : (tx'.queue i).unsent < (tx.queue i).unsent)
    (hothers : ∀ j, j ≠ i → (tx'.queue j).unsent = (tx.queue j).unsent) :
    tx'.unsent config < tx.unsent config := by
  unfold Tx.unsent
  apply List.sum_lt_sum
  · intro j _
    by_cases hji : j = i
    · rw [hji]
      exact Nat.le_of_lt hlt
    · exact Nat.le_of_eq (hothers j hji)
  · exact ⟨i, List.mem_range.mpr hi, hlt⟩

/-- The items fill no more than the used part of the buffer. -/
theorem TxInv.sum_len_le {tx : Tx} {q : Nat → List Nat} {reserved : Option Nat}
    (h : TxInv config tx q reserved) : ((tx.usedSlots config).map tx.len).sum ≤ tx.bufferUsed := by
  obtain ⟨order, hperm, hsorted⟩ : ∃ order, order.Perm (tx.usedSlots config) ∧
      Arena.Sorted tx.len tx.arena 0 order :=
    Arena.exists_sorted tx.arena (tx.usedSlots_nodup config)
      (fun i hi j hj => h.buffer.apart i j (Tx.mem_usedSlots.mp hi) (Tx.mem_usedSlots.mp hj))
      (fun i hi => (h.buffer.range i (Tx.mem_usedSlots.mp hi)).1)
  rw [← (hperm.map tx.len).sum_eq]
  have hsum := hsorted.sum_le (Nat.zero_le tx.bufferUsed) fun i hi =>
    (h.buffer.range i (Tx.mem_usedSlots.mp (hperm.mem_iff.mp hi))).2
  omega

/-- The bound of the loop of `gossipsub_flush_peer` is enough. -/
theorem TxInv.unsent_le {tx : Tx} {q : Nat → List Nat} {reserved : Option Nat}
    (h : TxInv config tx q reserved) : tx.unsent config ≤ tx.queueLen + tx.bufferUsed := by
  have hsplit : ∀ xs : List Nat, (xs.map fun i => (tx.queue i).unsent).sum ≤
      (xs.filter fun i => (tx.queue i).used).length +
        ((xs.filter fun i => (tx.queue i).used).map tx.len).sum := by
    intro xs
    induction xs with
    | nil => exact Nat.le_refl 0
    | cons i xs ih =>
      rw [List.map_cons, List.sum_cons, List.filter_cons]
      cases hused : (tx.queue i).used with
      | true =>
        have hitem : (tx.queue i).unsent ≤ 1 + tx.len i := by
          unfold TxItem.unsent Tx.len
          rw [if_pos hused]
          omega
        rw [if_pos rfl, List.length_cons, List.map_cons, List.sum_cons]
        omega
      | false =>
        have hitem : (tx.queue i).unsent = 0 := by
          unfold TxItem.unsent
          rw [hused]
          rfl
        rw [if_neg (by simp)]
        omega
  have hrange := hsplit (List.range config.capacity.maxTxRpcQueue)
  have hsum := h.sum_len_le
  have hcount := h.count
  unfold Tx.usedSlots at hsum hcount
  unfold Tx.unsent
  omega

/-- The queue of the peer is empty, or it waits for its transport. -/
def Tx.Settled (tx : Tx) (p : Nat) : Prop :=
  (tx.peer p).queueDepth = 0 ∨ (tx.peer p).transportBusy = true

/-- A peer that is not ready is settled. -/
theorem TransmitInv.settled {s : TxSide} (h : TransmitInv config s) {p : Nat}
    (hp : p < config.capacity.maxPeers) (hready : (s.tx.peer p).ready = false) :
    s.tx.Settled p := by
  by_cases hdepth : (s.tx.peer p).queueDepth = 0
  · exact .inl hdepth
  · have hwriter : (s.peers p).stream.isSome = true := by
      rw [Option.isSome_iff_ne_none]
      exact fun hnone => hdepth (h.depth_eq_zero hp hnone)
    have hused : (s.peers p).used = true := by
      cases hused : (s.peers p).used with
      | true => rfl
      | false =>
        rw [h.unused p hused] at hwriter
        cases hwriter
    rcases (h.schedule.peer p hp).awake ⟨hused, hwriter, hdepth⟩ with htrue | hbusy
    · rw [hready] at htrue
      cases htrue
    · exact .inr hbusy

/-! ## Flushing one peer -/

/-- While the frames of peer `p` are written. -/
structure Flushing (config : Config) (s : TxSide) (p : Nat) (f : FlushState) : Prop where
  reachable : TxReachable config { s with tx := f.tx }
  blocked : f.peerBlocked = true → (f.tx.peer p).transportBusy = true

/-- What one round of the loop of `gossipsub_flush_peer` does. -/
structure FlushRound (config : Config) (s : TxSide) (p : Nat) (f : FlushState)
    (result : Except GossipsubErr Bool) (f' : FlushState) : Prop where
  flushing : Flushing config s p f'
  others : ∀ r, r ≠ p → f'.tx.peer r = f.tx.peer r
  nextPeer : f'.tx.nextPeer = f.tx.nextPeer
  suffix : ∀ r < config.capacity.maxPeers, f'.tx.items config r <:+ f.tx.items config r
  progress : result = .ok true → f'.tx.unsent config < f.tx.unsent config
  settled : result = .ok false → f'.tx.Settled p

variable {config : RouterConfig} {s : TxSide} {p : Nat} {f f' : FlushState}

variable (h : Flushing config.toConfig s p f)

include h

theorem Flushing.block (hp : p < config.capacity.maxPeers) :
    FlushRound config.toConfig s p f (.ok false) (f.block config.toConfig s.peers p) := by
  have hbusy : ((f.block config.toConfig s.peers p).tx.peer p).transportBusy = true := by
    unfold FlushState.block
    rw [txSetPeerReady_busy, Tx.setPeer_self]
  have hsame := Tx.Schedules.setPeer f.tx p (f.tx.peer p).queueLimitReported (f.tx.peer p).ready true
  refine ⟨⟨h.reachable.step (.block hp), fun _ => hbusy⟩, ?_, txSetPeerReady_nextPeer .., ?_,
    by rintro ⟨⟩, fun _ => .inr hbusy⟩
  · intro r hr
    unfold FlushState.block
    rw [txSetPeerReady_others _ _ _ _ hr, Tx.setPeer_of_ne _ _ hr]
  · intro r _
    have hitems := (hsame.trans (txSetPeerReady_schedules config.toConfig s.peers _ p false)).items_eq
      config.toConfig r
    exact hitems ▸ List.suffix_refl _

/-- Removing an item of the peer. -/
theorem Flushing.remove (hfree : s.reserved = none) {i : Nat} {l : List Nat}
    (hp : p < config.capacity.maxPeers) (hi : f.tx.Used config.toConfig i)
    (hitems : f.tx.items config.toConfig p = i :: l)
    (htx : f'.tx = txRemove config.toConfig s.peers f.tx i)
    (hblocked : f'.peerBlocked = f.peerBlocked) :
    FlushRound config.toConfig s p f (.ok true) f' := by
  have hq := h.reachable.transmitInv.queues
  have hpeer : (f.tx.queue i).peerIndex = p :=
    (hq.queued p hp i (by rw [hitems]; exact List.mem_cons_self)).2.1
  refine ⟨⟨?_, ?_⟩, ?_, by rw [htx, txRemove_nextPeer], ?_, ?_, by rintro ⟨⟩⟩
  · rw [htx]
    exact h.reachable.remove hfree i
  · rw [hblocked, htx, txRemove_busy]
    exact h.blocked
  · intro r hr
    rw [htx]
    exact txRemove_others s.peers hq hi (by rwa [hpeer])
  · intro r hr
    rw [htx, h.reachable.items_remove hfree hi hr]
    by_cases hrp : r = p
    · rw [hrp, hitems, List.erase_cons_head]
      exact List.suffix_cons i l
    · have hir : i ∉ f.tx.items config.toConfig r := by
        intro hir
        exact hrp ((hq.queued r hr i hir).2.1.symm.trans hpeer)
      simp only [List.erase_of_not_mem hir, List.suffix_refl]
  · intro _
    rcases hq.remove s.peers hi (.inl hfree) with ⟨-, hcleared, hkeeps⟩
    rw [htx]
    apply Tx.unsent_lt hi.1
    · rw [hcleared]
      have hitem : (f.tx.queue i).unsent = 1 + ((f.tx.queue i).len - (f.tx.queue i).pos) :=
        if_pos hi.2
      change 0 < (f.tx.queue i).unsent
      omega
    · intro j hj
      exact (hkeeps j hj).field_eq TxItem.unsent fun _ => rfl

/-- The host takes bytes of an item. -/
theorem Flushing.accept {i n : Nat} (stream : Nat) (hi : f.tx.Used config.toConfig i)
    (hn : n ≤ (f.tx.queue i).len - (f.tx.queue i).pos) :
    Flushing config.toConfig s p (f.accept stream i n) ∧
      Tx.SamePeers f.tx (f.accept stream i n).tx ∧
      (f.accept stream i n).tx.items config.toConfig = f.tx.items config.toConfig ∧
      (f.accept stream i n).tx.unsent config.toConfig ≤ f.tx.unsent config.toConfig ∧
      (n ≠ 0 → (f.accept stream i n).tx.unsent config.toConfig < f.tx.unsent config.toConfig) := by
  unfold FlushState.accept
  split
  · rename_i hne
    have hpos : (f.tx.queue i).pos ≤ (f.tx.queue i).len :=
      h.reachable.transmitInv.queues.buffer.pos_le i hi
    have hsum : (f.tx.queue i).pos + n ≤ (f.tx.queue i).len := by omega
    have hless : (f.tx.setItem i { f.tx.queue i with pos := (f.tx.queue i).pos + n }).unsent
        config.toConfig < f.tx.unsent config.toConfig := by
      apply Tx.unsent_lt hi.1
      · rw [Tx.setItem_self]
        unfold TxItem.unsent
        rw [if_pos hi.2, if_pos hi.2]
        dsimp only
        omega
      · intro j hj
        rw [Tx.setItem_of_ne _ _ hj]
    have hnext : (f.tx.setItem i { f.tx.queue i with pos := (f.tx.queue i).pos + n }).next =
        f.tx.next := by
      rw [Tx.next_setItem]
      exact Function.update_eq_self i f.tx.next
    exact ⟨⟨h.reachable.step (.accept hsum), h.blocked⟩, ⟨rfl, rfl, rfl⟩,
      funext fun _ => Tx.items_congr rfl hnext, Nat.le_of_lt hless, fun _ => hless⟩
  · rename_i hzero
    exact ⟨h, .refl f.tx, rfl, Nat.le_refl _, fun hne => absurd hne hzero⟩

omit h in
/-- The item is still there after the host took bytes of it. -/
theorem FlushState.accept_queue (f : FlushState) (stream i n : Nat) :
    ((f.accept stream i n).tx.queue i).used = (f.tx.queue i).used ∧
      ((f.accept stream i n).tx.queue i).peerIndex = (f.tx.queue i).peerIndex := by
  unfold FlushState.accept
  split
  · rw [Tx.setItem_self]
    exact ⟨rfl, rfl⟩
  · exact ⟨rfl, rfl⟩

omit h in
/-- A round that does something else than writing first. -/
theorem FlushRound.after {f₁ : FlushState} {result : Except GossipsubErr Bool}
    (h : FlushRound config.toConfig s p f₁ result f') (hsame : Tx.SamePeers f.tx f₁.tx)
    (hitems : f₁.tx.items config.toConfig = f.tx.items config.toConfig)
    (hless : f₁.tx.unsent config.toConfig ≤ f.tx.unsent config.toConfig) :
    FlushRound config.toConfig s p f result f' where
  flushing := h.flushing
  others r hr := (h.others r hr).trans (congrFun hsame.peer r)
  nextPeer := h.nextPeer.trans hsame.nextPeer
  suffix r hr := hitems ▸ h.suffix r hr
  progress hres := Nat.lt_of_lt_of_le (h.progress hres) hless
  settled := h.settled

theorem flushItem_round (hfree : s.reserved = none) (hp : p < config.capacity.maxPeers)
    (answers : WriteAnswers) (stream : Nat) {i : Nat} (hi : f.tx.Used config.toConfig i)
    {l : List Nat} (hitems : f.tx.items config.toConfig p = i :: l)
    {result : Except GossipsubErr Bool}
    (hrun : flushItem config.toConfig s.peers answers p stream i f = (result, f')) :
    FlushRound config.toConfig s p f result f' := by
  unfold flushItem at hrun
  dsimp only at hrun
  have hcalled : Flushing config.toConfig s p { f with calls := f.calls + 1 } :=
    ⟨h.reachable, h.blocked⟩
  split at hrun
  · rename_i e _
    split at hrun
    · cases hrun
      exact (hcalled.block hp).after (.refl f.tx) rfl (Nat.le_refl _)
    · cases hrun
      exact ⟨hcalled, fun _ _ => rfl, rfl, fun _ _ => List.suffix_refl _, by rintro ⟨⟩, by rintro ⟨⟩⟩
  · rename_i n _
    rcases hcalled.accept stream hi (Nat.min_le_right n ((f.tx.queue i).len - (f.tx.queue i).pos))
      with ⟨haccepted, hsame, hkept, hle, hlt⟩
    have hqueue := FlushState.accept_queue { f with calls := f.calls + 1 } stream i
      (min n ((f.tx.queue i).len - (f.tx.queue i).pos))
    generalize FlushState.accept stream i (min n ((f.tx.queue i).len - (f.tx.queue i).pos))
      { f with calls := f.calls + 1 } = f₁ at hrun haccepted hsame hkept hle hlt hqueue
    split at hrun
    · cases hrun
      have hused : f₁.tx.Used config.toConfig i := ⟨hi.1, hqueue.1.trans hi.2⟩
      have hround : FlushRound config.toConfig s p f₁ (.ok true)
          { f₁ with
            tx := txRemove config.toConfig s.peers f₁.tx i
            rpcsSent := f₁.rpcsSent + 1 } :=
        haccepted.remove hfree hp hused ((congrFun hkept p).trans hitems) rfl rfl
      exact hround.after hsame hkept hle
    · split at hrun
      · cases hrun
        exact (haccepted.block hp).after hsame hkept hle
      · rename_i hpart
        cases hrun
        exact ⟨haccepted, fun r _ => congrFun hsame.peer r, hsame.nextPeer,
          fun r _ => hkept ▸ List.suffix_refl _, fun _ => hlt hpart, by rintro ⟨⟩⟩

theorem flushStep_round (hfree : s.reserved = none) (hp : p < config.capacity.maxPeers)
    (answers : WriteAnswers) (stream nowUs : Nat) {result : Except GossipsubErr Bool}
    (hrun : flushStep config.toConfig s.peers answers p stream nowUs f = (result, f')) :
    FlushRound config.toConfig s p f result f' := by
  unfold flushStep at hrun
  split at hrun
  · rename_i hempty
    cases hrun
    exact ⟨h, fun _ _ => rfl, rfl, fun _ _ => List.suffix_refl _, by rintro ⟨⟩,
      fun _ => .inl hempty⟩
  rename_i hdepth
  rcases h.reachable.head hp hdepth with ⟨i, l, hitems, hhead, hused⟩
  dsimp only at hitems hhead hused
  rw [hhead] at hrun
  dsimp only at hrun
  rw [if_neg (by rintro (hle | hunused)
                 · have := hused.1
                   omega
                 · rw [hused.2] at hunused
                   cases hunused)] at hrun
  split at hrun
  · cases hrun
    exact h.remove hfree hp hused hitems rfl rfl
  · exact flushItem_round h hfree hp answers stream hused hitems hrun

/-- What a flush of peer `p` does. -/
structure FlushPeer (config : Config) (s : TxSide) (p : Nat) (f : FlushState)
    (result : Except GossipsubErr Unit) (f' : FlushState) : Prop where
  flushing : Flushing config s p f'
  others : ∀ r, r ≠ p → f'.tx.peer r = f.tx.peer r
  nextPeer : f'.tx.nextPeer = f.tx.nextPeer
  suffix : ∀ r < config.capacity.maxPeers, f'.tx.items config r <:+ f.tx.items config r
  settled : result = .ok () → f'.tx.Settled p

/-- The loop ends when there is nothing to write, or nothing can be written. -/
theorem flushLoop_flushes (hfree : s.reserved = none) (hp : p < config.capacity.maxPeers)
    (answers : WriteAnswers) (stream nowUs : Nat) {fuel : Nat}
    (hfuel : f.tx.unsent config.toConfig < fuel) {result : Except GossipsubErr Unit}
    (hrun : flushLoop config.toConfig s.peers answers p stream nowUs fuel f = (result, f')) :
    FlushPeer config.toConfig s p f result f' := by
  induction fuel generalizing f with
  | zero => exact absurd hfuel (Nat.not_lt_zero _)
  | succ fuel ih =>
    rw [flushLoop] at hrun
    rcases hstep : flushStep config.toConfig s.peers answers p stream nowUs f with ⟨e | goesOn, f₁⟩
    · have hround := flushStep_round h hfree hp answers stream nowUs hstep
      rw [Comp.bind_of_error hstep] at hrun
      cases hrun
      exact ⟨hround.flushing, hround.others, hround.nextPeer, hround.suffix,
        by rintro ⟨⟩⟩
    · have hround := flushStep_round h hfree hp answers stream nowUs hstep
      rw [Comp.bind_of_ok hstep] at hrun
      cases goesOn with
      | true =>
        have hless := hround.progress rfl
        have hrest := ih hround.flushing (by omega) hrun
        exact ⟨hrest.flushing, fun r hr => (hrest.others r hr).trans (hround.others r hr),
          hrest.nextPeer.trans hround.nextPeer,
          fun r hr => (hrest.suffix r hr).trans (hround.suffix r hr), hrest.settled⟩
      | false =>
        cases hrun
        exact ⟨hround.flushing, hround.others, hround.nextPeer, hround.suffix,
          fun _ => hround.settled rfl⟩

theorem FlushState.settle_flushes (hp : p < config.capacity.maxPeers) :
    Flushing config.toConfig s p (flushSettle config.toConfig s.peers p f) ∧
      (∀ r, r ≠ p → (flushSettle config.toConfig s.peers p f).tx.peer r = f.tx.peer r) ∧
      (flushSettle config.toConfig s.peers p f).tx.nextPeer = f.tx.nextPeer ∧
      (∀ r, (flushSettle config.toConfig s.peers p f).tx.items config.toConfig r =
        f.tx.items config.toConfig r) ∧
      (f.tx.Settled p → (flushSettle config.toConfig s.peers p f).tx.Settled p) := by
  unfold flushSettle
  split
  · have hmark : ∀ ready : Bool,
        (TxSide.CanWrite { s with tx := f.tx } p →
          ready = true ∨ (f.tx.peer p).transportBusy = true) →
        Flushing config.toConfig s p
          { f with tx := txSetPeerReady config.toConfig s.peers f.tx p ready } := by
      intro ready hawake
      refine ⟨h.reachable.step (.mark hp hawake), ?_⟩
      dsimp only
      rw [txSetPeerReady_busy]
      exact h.blocked
    refine ⟨hmark _ ?_, ?_, txSetPeerReady_nextPeer ..,
      (txSetPeerReady_schedules ..).items_eq config.toConfig, ?_⟩
    · intro hcan
      split
      · rename_i hblocked
        exact .inr (h.blocked hblocked)
      · split
        · exact .inl rfl
        · exact (h.reachable.transmitInv.schedule.peer p hp).awake hcan
    · intro r hr
      exact txSetPeerReady_others _ _ _ _ hr
    · rintro (hempty | hbusy)
      · left
        dsimp only
        rw [txSetPeerReady_self s.peers f.tx _ hp]
        exact hempty
      · right
        dsimp only
        rw [txSetPeerReady_busy]
        exact hbusy
  · exact ⟨h, fun _ _ => rfl, rfl, fun _ => rfl, id⟩

omit h

theorem flushPeer_flushes (hfree : s.reserved = none)
    (h : TxReachable config.toConfig { s with tx := f.tx }) (hp : p < config.capacity.maxPeers)
    (answers : WriteAnswers) (nowUs : Nat) {result : Except GossipsubErr Unit}
    (hrun : flushPeer config.toConfig s.peers answers p nowUs f = (result, f')) :
    TxReachable config.toConfig { s with tx := f'.tx } ∧
      (∀ r, r ≠ p → f'.tx.peer r = f.tx.peer r) ∧ f'.tx.nextPeer = f.tx.nextPeer ∧
      (∀ r < config.capacity.maxPeers,
        f'.tx.items config.toConfig r <:+ f.tx.items config.toConfig r) ∧
      (result = .ok () → f'.tx.Settled p) := by
  unfold flushPeer at hrun
  rw [if_neg (Nat.not_le_of_lt hp)] at hrun
  cases hstream : (s.peers p).stream with
  | none =>
    rw [hstream] at hrun
    cases hrun
    have hempty := h.transmitInv.depth_eq_zero hp hstream
    refine ⟨h.step (.mark hp fun hcan => absurd hempty hcan.waiting), ?_,
      txSetPeerReady_nextPeer .., ?_, ?_⟩
    · exact fun r hr => txSetPeerReady_others _ _ _ _ hr
    · intro r _
      have hsame := txSetPeerReady_schedules config.toConfig s.peers f.tx p false
      exact hsame.items_eq config.toConfig r ▸ List.suffix_refl _
    · intro _
      left
      rw [txSetPeerReady_self s.peers f.tx false hp]
      exact hempty
  | some stream =>
    rw [hstream] at hrun
    have hstart : Flushing config.toConfig s p { f with bytesWritten := 0, peerBlocked := false } :=
      ⟨h, (fun hblocked => nomatch hblocked)⟩
    have hbound := h.transmitInv.queues.unsent_le
    rcases hloop : flushLoop config.toConfig s.peers answers p stream nowUs
      (f.tx.queueLen + f.tx.bufferUsed + 1) { f with bytesWritten := 0, peerBlocked := false }
      with ⟨res, f₁⟩
    dsimp only at hrun
    rw [hloop] at hrun
    cases hrun
    have hflushed := flushLoop_flushes hstart hfree hp answers stream nowUs
      (Nat.lt_succ_of_le hbound) hloop
    rcases FlushState.settle_flushes hflushed.flushing hp with
      ⟨hsettle, hothers, hnext, hitems, hsettled⟩
    exact ⟨hsettle.reachable, fun r hr => (hothers r hr).trans (hflushed.others r hr),
      hnext.trans hflushed.nextPeer, fun r hr => (hitems r).symm ▸ hflushed.suffix r hr,
      fun hres => hsettled (hflushed.settled hres)⟩

/-! ## Flushing all peers -/

/-- The peers whose turn comes in `n` rounds. -/
def FlushTurn (config : Config) (start n r : Nat) : Prop :=
  ∃ k < n, r = (start + k) % config.capacity.maxPeers

/-- What a flush of the peers whose turn comes in `n` rounds does. -/
structure FlushPeers (config : Config) (s : TxSide) (n : Nat) (f : FlushState)
    (result : Except GossipsubErr Unit) (f' : FlushState) : Prop where
  reachable : TxReachable config { s with tx := f'.tx }
  suffix : ∀ r < config.capacity.maxPeers, f'.tx.items config r <:+ f.tx.items config r
  still : result = .ok () → ∀ r < config.capacity.maxPeers, f.tx.Settled r → f'.tx.Settled r
  settled : result = .ok () → ∀ r < config.capacity.maxPeers,
    FlushTurn config f.tx.nextPeer n r → f'.tx.Settled r

/-- After the turn of one peer the turns of the others are one round nearer. -/
theorem FlushTurn.next {config : Config} {start n r : Nat} (h : FlushTurn config start (n + 1) r)
    (hstart : start < config.capacity.maxPeers) :
    r = start ∨ FlushTurn config ((start + 1) % config.capacity.maxPeers) n r := by
  rcases h with ⟨k, hk, rfl⟩
  cases k with
  | zero => exact .inl (Nat.mod_eq_of_lt hstart)
  | succ k =>
    refine .inr ⟨k, Nat.lt_of_succ_lt_succ hk, ?_⟩
    rw [Nat.mod_add_mod]
    congr 1
    omega

/-- In as many rounds as there are peers the turn of each comes. -/
theorem flushTurn_of_lt {config : Config} {start r : Nat} (hr : r < config.capacity.maxPeers)
    (hstart : start < config.capacity.maxPeers) :
    FlushTurn config start config.capacity.maxPeers r := by
  by_cases hle : start ≤ r
  · exact ⟨r - start, by omega, by rw [Nat.add_sub_of_le hle, Nat.mod_eq_of_lt hr]⟩
  · refine ⟨r + config.capacity.maxPeers - start, by omega, ?_⟩
    rw [Nat.add_sub_of_le (by omega), Nat.add_mod_right, Nat.mod_eq_of_lt hr]

/-- Without ready peers all are settled. -/
theorem TransmitInv.settled_of_none {config : Config} {s : TxSide} (h : TransmitInv config s)
    (hnone : s.tx.readyCount = 0) {r : Nat} (hr : r < config.capacity.maxPeers) :
    s.tx.Settled r := by
  apply h.settled hr
  have hcount := h.schedule.count
  unfold Tx.Counted at hcount
  rw [hnone] at hcount
  simpa using List.countP_eq_zero.mp hcount.symm r (List.mem_range.mpr hr)

theorem flushReadyLoop_flushes (hfree : s.reserved = none) (answers : WriteAnswers) (nowUs : Nat)
    {n : Nat} (h : TxReachable config.toConfig { s with tx := f.tx })
    {result : Except GossipsubErr Unit}
    (hrun : flushReadyLoop config.toConfig s.peers answers nowUs n f = (result, f')) :
    FlushPeers config.toConfig s n f result f' := by
  induction n generalizing f with
  | zero =>
    cases hrun
    refine ⟨h, fun _ _ => List.suffix_refl _, fun _ _ _ hr => hr, fun _ r _ hturn => ?_⟩
    rcases hturn with ⟨k, hk, -⟩
    exact absurd hk (Nat.not_lt_zero k)
  | succ n ih =>
    rw [flushReadyLoop] at hrun
    dsimp only at hrun
    split at hrun
    · rename_i hnone
      cases hrun
      exact ⟨h, fun _ _ => List.suffix_refl _, fun _ _ _ hr => hr,
        fun _ r hr _ => h.transmitInv.settled_of_none hnone hr⟩
    have hp : f.tx.nextPeer < config.capacity.maxPeers := by
      rcases h.transmitInv.schedule.next with hzero | hlt
      · exact absurd hzero (Nat.ne_of_gt config.capacity_pos.1)
      · exact hlt
    have hnext : TxReachable config.toConfig { s with tx := { f.tx with
        nextPeer := (f.tx.nextPeer + 1) % config.capacity.maxPeers } } := h.step .advance
    have hsame : ∀ r, ({ f.tx with
        nextPeer := (f.tx.nextPeer + 1) % config.capacity.maxPeers } : Tx).items config.toConfig r =
        f.tx.items config.toConfig r := fun r => Tx.items_congr rfl rfl
    split at hrun
    · rcases hflush : flushPeer config.toConfig s.peers answers f.tx.nextPeer nowUs { f with
        tx := { f.tx with nextPeer := (f.tx.nextPeer + 1) % config.capacity.maxPeers } }
        with ⟨e | _, f₁⟩
      · rcases flushPeer_flushes hfree hnext hp answers nowUs hflush with
          ⟨hreached, -, -, hsuffix, -⟩
        rw [Comp.bind_of_error hflush] at hrun
        cases hrun
        exact ⟨hreached, fun r hr => hsame r ▸ hsuffix r hr, by rintro ⟨⟩, by rintro ⟨⟩⟩
      · rcases flushPeer_flushes hfree hnext hp answers nowUs hflush with
          ⟨hreached, hothers, hturn, hsuffix, hsettled⟩
        rw [Comp.bind_of_ok hflush] at hrun
        have hrest := ih hreached hrun
        have hstill : ∀ r, f.tx.Settled r → f₁.tx.Settled r := by
          intro r hr
          by_cases hrp : r = f.tx.nextPeer
          · rw [hrp]
            exact hsettled rfl
          · unfold Tx.Settled
            rw [hothers r hrp]
            exact hr
        refine ⟨hrest.reachable,
          fun r hr => (hrest.suffix r hr).trans (hsame r ▸ hsuffix r hr),
          fun hres r hr hbefore => hrest.still hres r hr (hstill r hbefore),
          fun hres r hr hround => ?_⟩
        rcases hround.next hp with rfl | hlater
        · exact hrest.still hres _ hr (hsettled rfl)
        · apply hrest.settled hres r hr
          rw [hturn]
          exact hlater
    · rename_i hskip
      have hrest := ih hnext hrun
      refine ⟨hrest.reachable, fun r hr => hsame r ▸ hrest.suffix r hr, hrest.still,
        fun hres r hr hround => ?_⟩
      rcases hround.next hp with rfl | hlater
      · apply hrest.still hres _ hr
        by_cases hempty : (f.tx.peer f.tx.nextPeer).queueDepth = 0
        · exact .inl hempty
        · apply TransmitInv.settled hnext.transmitInv hr
          cases hready : (f.tx.peer f.tx.nextPeer).ready with
          | false => rfl
          | true => exact absurd ⟨hready, hempty⟩ hskip
      · exact hrest.settled hres r hr hlater

/-- After a flush of all peers that succeeds, every queue is empty or waits for its transport. -/
theorem flushReadyPeers_flushes (hfree : s.reserved = none) (answers : WriteAnswers) (nowUs : Nat)
    (h : TxReachable config.toConfig { s with tx := f.tx }) {result : Except GossipsubErr Unit}
    (hrun : flushReadyPeers config.toConfig s.peers answers nowUs f = (result, f')) :
    TxReachable config.toConfig { s with tx := f'.tx } ∧
      (∀ r < config.capacity.maxPeers,
        f'.tx.items config.toConfig r <:+ f.tx.items config.toConfig r) ∧
      (result = .ok () → ∀ r < config.capacity.maxPeers, f'.tx.Settled r) := by
  have hflush := flushReadyLoop_flushes hfree answers nowUs h hrun
  refine ⟨hflush.reachable, hflush.suffix, fun hres r hr => hflush.settled hres r hr ?_⟩
  rcases h.transmitInv.schedule.next with hzero | hlt
  · exact absurd hzero (Nat.ne_of_gt config.capacity_pos.1)
  · exact flushTurn_of_lt hr hlt

/-! ## Runs of the transmit queue -/

/-- The machine `TxStep` of a system between two actions. -/
def TxSystem.side (s : TxSystem) (written : Nat → Bytes) : TxSide := ⟨s.peers, s.tx, none, written⟩

/-- The transmit side of a system is a state of the machine. -/
def TxSystem.Transmits (config : Config) (s : TxSystem) : Prop :=
  ∃ written, TxReachable config (s.side written)

namespace TxSystem.Transmits

variable {config : RouterConfig} {s : TxSystem}

theorem enqueued {result : Except GossipsubErr Nat × Tx}
    (h : ∃ written, TxReachable config.toConfig ⟨s.peers, result.2, none, written⟩) :
    (s.enqueued result).Transmits config.toConfig := by
  rcases result with ⟨e | i, tx⟩
  · exact h
  · exact h

/-- A step of a system is some steps of the machine. -/
theorem step (h : s.Transmits config.toConfig) (action : TxAction) :
    (s.step config.toConfig action).Transmits config.toConfig := by
  obtain ⟨written, h⟩ := h
  cases action with
  | enqueue p rpc lifetimeUs priority nowUs =>
    exact enqueued (h.enqueue rfl p rpc lifetimeUs priority nowUs)
  | enqueuePublish p rpc messageId lifetimeUs priority nowUs =>
    exact enqueued (h.enqueuePublish rfl p rpc messageId lifetimeUs priority nowUs)
  | dropPublish p messageId => exact ⟨written, h.dropQueuedPublish rfl p messageId⟩
  | dropStale nowUs => exact ⟨written, h.dropStale rfl nowUs⟩
  | flushPeer p nowUs answers =>
    refine ⟨written, ?_⟩
    rcases Nat.lt_or_ge p config.capacity.maxPeers with hp | hp
    · exact (flushPeer_flushes (s := s.side written) (f := s.flushState) rfl h hp answers nowUs
        rfl).1
    · have hstays : (flushPeer config.toConfig s.peers answers p nowUs s.flushState).2 =
          s.flushState := by
        unfold flushPeer
        rw [if_pos hp]
      change TxReachable _ ⟨s.peers, (flushPeer config.toConfig s.peers answers p nowUs
        s.flushState).2.tx, none, written⟩
      rw [hstays]
      exact h
  | flushReadyPeers nowUs answers =>
    exact ⟨written, (flushReadyPeers_flushes (s := s.side written) (f := s.flushState) rfl answers
      nowUs h rfl).1⟩
  | markReady p => exact ⟨written, h.step (.wake p)⟩
  | openWriter p stream version =>
    dsimp only [TxSystem.step]
    split
    · rename_i hopen
      obtain ⟨hp, hnone, -⟩ := hopen
      have hidle := h.step (.idle fun _ => h.transmitInv.depth_eq_zero hp hnone)
      exact ⟨written, hidle.step (.openWriter hnone rfl)⟩
    · exact ⟨written, h⟩
  | closeWriter p =>
    dsimp only [TxSystem.step]
    split
    · obtain ⟨hdropped, hempty⟩ := h.dropQueuedPeer rfl p
      exact ⟨written, hdropped.step (.closeWriter hempty rfl rfl)⟩
    · exact ⟨written, h⟩

/-- Every run of a system is a run of the machine that a router's transmit side goes through. -/
theorem run (config : RouterConfig) (actions : List TxAction) :
    (TxSystem.init.run config.toConfig actions).Transmits config.toConfig :=
  run_keeps (runMeets_of_forall (P := fun _ _ => True) fun _ _ => trivial) ⟨fun _ => [], .refl⟩
    fun _ action _ h => h.step action

end TxSystem.Transmits

end LeanLibp2p.Gossipsub
