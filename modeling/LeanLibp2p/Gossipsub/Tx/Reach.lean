import LeanLibp2p.Gossipsub.Tx.Transmit

/-!
# The operations of the queue as steps

Each function of `gossipsub_tx.c` that changes the transmit state is a sequence of steps of the
machine, so that a state of the machine stays one.
-/

namespace LeanLibp2p.Gossipsub

open LeanLibp2p.Lib

namespace TxReachable

variable {config : RouterConfig} {s : TxSide}

theorem transmitInv (h : TxReachable config.toConfig s) : TransmitInv config.toConfig s :=
  h.inv config.capacity_pos.1 config.txBufferBytes_le

variable (h : TxReachable config.toConfig s) (hfree : s.reserved = none)

include h hfree

/-! ## Enqueueing -/

/-- `gossipsub_enqueue_rpc_with_lifetime` reserves an item, and then links or removes it. -/
theorem enqueue (p : Nat) (rpc : Rpc) (lifetimeUs : Nat) (priority : Bool) (nowUs : Nat) :
    ∃ written, TxReachable config.toConfig { s with
      tx := (enqueueRpcWithLifetime config.toConfig s.peers p rpc lifetimeUs priority nowUs s.tx).2
      written := written } := by
  unfold enqueueRpcWithLifetime
  split
  · exact ⟨s.written, h⟩
  rename_i hp
  split
  · exact ⟨s.written, h⟩
  rename_i hwriter
  split
  · exact ⟨s.written, h⟩
  rename_i frameLen hsize
  have hlen := rpcFrameSize_pos hsize
  rcases hreserve : txReserve config.toConfig p frameLen lifetimeUs nowUs s.tx with ⟨e | i, tx⟩
  · exact ⟨s.written, h.step (.refuse hfree hlen hreserve)⟩
  dsimp only
  have hreserved := h.step (.reserve hfree hlen hreserve)
  have hqueues := h.transmitInv.queues
  rw [hfree] at hqueues
  rcases (txReserve_spec hqueues config.txBufferBytes_le hlen hreserve).2 i rfl with ⟨-, hitem⟩
  -- a frame that cannot be written is taken back
  have hback : TxReachable config.toConfig
      { s with tx := txRemove config.toConfig s.peers tx i } := by
    have hremoved := hreserved.step (.remove (.inr rfl))
    rwa [show ({ s with tx := txRemove config.toConfig s.peers tx i } : TxSide) =
      { s with tx := txRemove config.toConfig s.peers tx i, reserved := none } by rw [← hfree]]
  split
  · exact ⟨s.written, hback⟩
  rename_i frame hframe
  split
  · exact ⟨s.written, hback⟩
  rename_i hsame
  have hsame' : frame.length = tx.len i := by
    rw [hitem.len]
    by_contra hne
    exact hsame hne
  have hcommit : txCommitReserved config.toConfig s.peers p i priority
      { tx with buffer := tx.buffer.store (tx.queue i).offset frame } =
      (.ok (), txAppendPeerItem config.toConfig s.peers
        { tx with buffer := tx.buffer.store (tx.queue i).offset frame } p i priority) := by
    have hused := (hreserved.transmitInv.queues.fresh i rfl).1
    unfold txCommitReserved
    rw [if_neg (by have := hused.1; omega), if_neg]
    rintro (hunused | hpeer | hpos)
    · exact absurd (hused.2.symm.trans hunused) (by simp)
    · exact hpeer hitem.peerIndex
    · exact hpos hitem.pos
  simp only [hcommit]
  refine ⟨Function.update s.written i frame, ?_⟩
  have hwriter' : (s.peers p).stream ≠ none := fun hnone => hwriter (.inr hnone)
  have hframe' : rpcFrameEncode (s.peers p).version config.limits rpc (tx.len i) = .ok frame := by
    rw [hitem.len]
    exact hframe
  have hlinked := hreserved.step (.commit rfl hwriter' hframe' hsame' hcommit)
  rwa [← hfree] at hlinked

theorem enqueuePublish (p : Nat) (rpc : Rpc) (messageId : Bytes) (lifetimeUs : Nat)
    (priority : Bool) (nowUs : Nat) :
    ∃ written, TxReachable config.toConfig { s with
      tx := (enqueuePublishWithLifetime config.toConfig s.peers p rpc messageId lifetimeUs priority
        nowUs s.tx).2
      written := written } := by
  rcases h.enqueue hfree p rpc lifetimeUs priority nowUs with ⟨written, henqueued⟩
  unfold enqueuePublishWithLifetime
  rcases hrun : enqueueRpcWithLifetime config.toConfig s.peers p rpc lifetimeUs priority nowUs s.tx
    with ⟨e | i, tx⟩
  · rw [hrun] at henqueued
    exact ⟨written, henqueued⟩
  · rw [hrun] at henqueued
    exact ⟨written, henqueued.step (.label i messageId)⟩

/-! ## Dropping -/

theorem remove (i : Nat) :
    TxReachable config.toConfig { s with tx := txRemove config.toConfig s.peers s.tx i } := by
  have hremoved := h.step (.remove (i := i) (.inl hfree))
  rwa [show ({ s with tx := txRemove config.toConfig s.peers s.tx i } : TxSide) =
    { s with tx := txRemove config.toConfig s.peers s.tx i, reserved := none } by rw [← hfree]]

theorem dropStaleLoop (nowUs : Nat) (fuel : Nat) (start : Option Nat) :
    TxReachable config.toConfig { s with
      tx := txDropStaleLoop config.toConfig s.peers nowUs fuel start s.tx } := by
  induction fuel generalizing start s with
  | zero => exact h
  | succ fuel ih =>
    cases start with
    | none => exact h
    | some i =>
      rw [txDropStaleLoop]
      split
      · exact h
      · split
        · exact ih (h.remove hfree i) hfree _
        · exact ih h hfree _

theorem dropStale (nowUs : Nat) :
    TxReachable config.toConfig { s with tx := txDropStale config.toConfig s.peers nowUs s.tx } := by
  unfold txDropStale
  generalize List.range config.capacity.maxPeers = ps
  induction ps generalizing s with
  | nil => exact h
  | cons p ps ih => exact ih (h.dropStaleLoop hfree nowUs _ _) hfree

theorem dropQueuedPublishLoop (messageId : Bytes) (fuel : Nat) (start : Option Nat) :
    TxReachable config.toConfig { s with
      tx := Gossipsub.dropQueuedPublishLoop config.toConfig s.peers messageId fuel start s.tx } := by
  induction fuel generalizing start s with
  | zero => exact h
  | succ fuel ih =>
    cases start with
    | none => exact h
    | some i =>
      rw [Gossipsub.dropQueuedPublishLoop]
      split
      · exact ih (h.remove hfree i) hfree _
      · exact ih h hfree _

theorem dropQueuedPublish (p : Nat) (messageId : Span) :
    TxReachable config.toConfig { s with
      tx := Gossipsub.dropQueuedPublish config.toConfig s.peers p messageId s.tx } := by
  unfold Gossipsub.dropQueuedPublish
  split
  · exact h.dropQueuedPublishLoop hfree ..
  · exact h

omit hfree in
/-- The head of a queue that is not empty. -/
theorem head {p : Nat} (hp : p < config.capacity.maxPeers)
    (hdepth : (s.tx.peer p).queueDepth ≠ 0) :
    ∃ i l, s.tx.items config.toConfig p = i :: l ∧ (s.tx.peer p).head = some i ∧
      s.tx.Used config.toConfig i := by
  have hqueue := h.transmitInv.queues.queue p hp
  cases hitems : s.tx.items config.toConfig p with
  | nil =>
    rw [hitems] at hqueue
    exact absurd hqueue.depth_eq hdepth
  | cons i l =>
    refine ⟨i, l, rfl, ?_, ?_⟩
    · rw [hqueue.head_eq, hitems]
      rfl
    · exact (h.transmitInv.queues.queued p hp i (by rw [hitems]; exact List.mem_cons_self)).1

/-- What is left of the queues when an item is removed. -/
theorem items_remove {i : Nat} (hi : s.tx.Used config.toConfig i) {p : Nat} (hp : p < config.capacity.maxPeers) :
    (txRemove config.toConfig s.peers s.tx i).items config.toConfig p =
      (s.tx.items config.toConfig p).erase i := by
  have hq := (h.transmitInv.queues.remove s.peers hi (.inl hfree)).1
  exact hq.items_eq hp

/-- `gossipsub_drop_queued_peer` removes the items of the peer from the front. -/
theorem dropQueuedPeerLoop {p fuel : Nat} (hp : p < config.capacity.maxPeers)
    (hfuel : (s.tx.items config.toConfig p).length ≤ fuel) :
    TxReachable config.toConfig { s with
      tx := Gossipsub.dropQueuedPeerLoop config.toConfig s.peers p fuel s.tx } ∧
    ((Gossipsub.dropQueuedPeerLoop config.toConfig s.peers p fuel s.tx).peer p).queueDepth = 0 := by
  induction fuel generalizing s with
  | zero =>
    refine ⟨h, ?_⟩
    rw [Gossipsub.dropQueuedPeerLoop, (h.transmitInv.queues.queue p hp).depth_eq]
    omega
  | succ fuel ih =>
    rw [Gossipsub.dropQueuedPeerLoop]
    by_cases hdepth : (s.tx.peer p).queueDepth = 0
    · have hhead : (s.tx.peer p).head = none := by
        have hqueue := h.transmitInv.queues.queue p hp
        rw [hqueue.head_eq, h.transmitInv.items_eq_nil hp hdepth]
        rfl
      rw [hhead]
      exact ⟨h, hdepth⟩
    · rcases h.head hp hdepth with ⟨i, l, hitems, hhead, hused⟩
      rw [hhead]
      refine ih (h.remove hfree i) hfree ?_
      dsimp only
      rw [h.items_remove hfree hused hp, hitems, List.erase_cons_head]
      rw [hitems] at hfuel
      exact Nat.le_of_succ_le_succ hfuel

theorem dropQueuedPeer (p : Nat) :
    TxReachable config.toConfig { s with
      tx := Gossipsub.dropQueuedPeer config.toConfig s.peers p s.tx } ∧
    (p < config.capacity.maxPeers →
      ((Gossipsub.dropQueuedPeer config.toConfig s.peers p s.tx).peer p).queueDepth = 0) := by
  unfold Gossipsub.dropQueuedPeer
  split
  · rename_i hp
    have hqueues := h.transmitInv.queues
    rcases h.dropQueuedPeerLoop hfree hp
      ((hqueues.live hp).length_le (hqueues.queue p hp).nodup) with ⟨hloop, hempty⟩
    dsimp only
    generalize Gossipsub.dropQueuedPeerLoop config.toConfig s.peers p config.capacity.maxTxRpcQueue
      s.tx = tx at hloop hempty
    have hmarked : TxReachable config.toConfig
        { s with tx := txSetPeerReady config.toConfig s.peers tx p false } :=
      hloop.step (.mark hp fun hcan => absurd hempty hcan.waiting)
    have hdepth : ((txSetPeerReady config.toConfig s.peers tx p false).peer p).queueDepth = 0 := by
      rw [txSetPeerReady_self s.peers tx false hp]
      exact hempty
    refine ⟨hmarked.step (.idle fun _ => hdepth), fun _ => ?_⟩
    rw [Tx.setPeer_self]
    exact hdepth
  · rename_i hp
    exact ⟨h, fun hlt => absurd hlt hp⟩

end TxReachable

end LeanLibp2p.Gossipsub
