import LeanLibp2p.Gossipsub.Tx.Flushing

/-!
# What the operations do to the queues

In every state of the transmit side the list that the links make for a peer holds its committed
items. Each operation inserts one item into one of these lists or takes items out of them, and
leaves the order of the others as it is.
-/

namespace LeanLibp2p.Gossipsub

open LeanLibp2p.Lib

/-- What `gossipsub_tx.c` promises about the lists of queued items. -/
structure QueuesSound (config : Config) (tx : Tx) (reserved : Option Nat) : Prop where
  queue : ∀ p < config.capacity.maxPeers, PeerQueue tx p (tx.items config p)
  member : ∀ p < config.capacity.maxPeers, ∀ i, i ∈ tx.items config p ↔
    tx.Used config i ∧ (tx.queue i).peerIndex = p ∧ reserved ≠ some i
  disjoint : ∀ p < config.capacity.maxPeers, ∀ r < config.capacity.maxPeers, r ≠ p →
    (tx.items config p).Disjoint (tx.items config r)
  count : tx.queueLen = (tx.usedSlots config).length

theorem TransmitInv.queuesSound {config : Config} {s : TxSide} (h : TransmitInv config s) :
    QueuesSound config s.tx s.reserved where
  queue := h.queues.queue
  member p hp i := by
    constructor
    · exact h.queues.queued p hp i
    · rintro ⟨hused, rfl, hcommitted⟩
      exact (h.queues.owner i hused).2 hcommitted
  disjoint p hp r hr hne i hip hir := h.queues.disjoint hp hr hne hir hip
  count := h.queues.count

/-- The items of every peer stay as they are. -/
def Tx.SameQueues (config : Config) (tx tx' : Tx) : Prop :=
  ∀ r < config.capacity.maxPeers, tx'.items config r = tx.items config r

/-- The items of peer `p` become the list `l`, and those of the others stay as they are. -/
structure Tx.QueueBecomes (config : Config) (tx tx' : Tx) (p : Nat) (l : List Nat) : Prop where
  self : tx'.items config p = l
  others : ∀ r < config.capacity.maxPeers, r ≠ p → tx'.items config r = tx.items config r

/-- Items of peer `p` are dropped so that the list `l` is left; what is left keeps its data. -/
structure Tx.Drops (config : Config) (tx tx' : Tx) (p : Nat) (l : List Nat) : Prop
    extends Tx.QueueBecomes config tx tx' p l where
  kept : ∀ i, tx'.Used config i → Tx.Keeps tx tx' i

theorem Tx.Keeps.used_of_used {config : Config} {tx tx' : Tx} {i : Nat} (h : Tx.Keeps tx tx' i)
    (hi : tx'.Used config i) : tx.Used config i := by
  refine ⟨hi.1, ?_⟩
  rw [← h.field_eq TxItem.used fun _ => rfl]
  exact hi.2

namespace Tx.Drops

variable {config : Config} {tx tx' tx'' : Tx} {p : Nat} {l l' : List Nat}

theorem refl (hitems : tx.items config p = l) : Tx.Drops config tx tx p l :=
  ⟨⟨hitems, fun _ _ _ => rfl⟩, fun i _ => Tx.Keeps.refl tx i⟩

theorem trans (h : Tx.Drops config tx tx' p l) (h' : Tx.Drops config tx' tx'' p l') :
    Tx.Drops config tx tx'' p l' where
  self := h'.self
  others r hr hne := (h'.others r hr hne).trans (h.others r hr hne)
  kept i hi := by
    have hlater := h'.kept i hi
    exact (h.kept i (hlater.used_of_used hi)).trans hlater

/-- A peer that only gets scheduled afterwards. -/
theorem schedules (h : Tx.Drops config tx tx' p l) (hs : Tx.Schedules tx' tx'') :
    Tx.Drops config tx tx'' p l where
  self := (hs.items_eq config p).trans h.self
  others r hr hne := (hs.items_eq config r).trans (h.others r hr hne)
  kept i hi := (h.kept i ((hs.sameLists.used_iff config i).mp hi)).trans (hs.keeps i)

end Tx.Drops

namespace TxReachable

variable {config : RouterConfig} {s : TxSide} {p : Nat}

/-! ## Inserting -/

theorem sameQueues_of_inv {tx : Tx} {reserved : Option Nat}
    (h : TxInv config.toConfig tx (s.tx.items config.toConfig) reserved) :
    Tx.SameQueues config.toConfig s.tx tx := fun _ hr => h.items_eq hr

theorem becomes_of_inv {tx : Tx} {l : List Nat} (hp : p < config.capacity.maxPeers)
    (h : TxInv config.toConfig tx (Function.update (s.tx.items config.toConfig) p l) none) :
    Tx.QueueBecomes config.toConfig s.tx tx p l where
  self := (h.items_eq hp).trans (Function.update_self ..)
  others _ hr hne := (h.items_eq hr).trans (Function.update_of_ne hne ..)

variable (h : TxReachable config.toConfig s)

include h

/-- A reservation changes no list, whether it succeeds or not. -/
theorem reserve_queues (hfree : s.reserved = none) {frameLen lifetimeUs nowUs : Nat}
    (hlen : 0 < frameLen) {result : Except GossipsubErr Nat} {tx : Tx}
    (hrun : txReserve config.toConfig p frameLen lifetimeUs nowUs s.tx = (result, tx)) :
    Tx.SameQueues config.toConfig s.tx tx := by
  have hqueues := h.transmitInv.queues
  rw [hfree] at hqueues
  have hspec := txReserve_spec hqueues config.txBufferBytes_le hlen hrun
  cases result with
  | error e => exact sameQueues_of_inv (hspec.1 e rfl).1
  | ok i => exact sameQueues_of_inv (hspec.2 i rfl).1

/-- `gossipsub_tx_commit_reserved` inserts the reserved item behind those that go before it. -/
theorem commit_queues {i : Nat} (hreserved : s.reserved = some i) {priority : Bool} {tx : Tx}
    (hrun : txCommitReserved config.toConfig s.peers p i priority s.tx = (.ok (), tx)) :
    Tx.QueueBecomes config.toConfig s.tx tx p
      (s.tx.insertItem (s.tx.items config.toConfig p) i priority) := by
  have hqueues := h.transmitInv.queues
  rw [hreserved] at hqueues
  unfold txCommitReserved at hrun
  split at hrun
  · cases hrun
  rename_i hbounds
  split at hrun
  · cases hrun
  rename_i hitem
  cases hrun
  have hpeer : (s.tx.queue i).peerIndex = p := by
    by_contra hne
    exact hitem (.inr (.inl hne))
  apply becomes_of_inv
  · exact Nat.lt_of_not_le fun hle => hbounds (.inl hle)
  · exact (hqueues.append s.peers hpeer priority).1

/-- What an enqueue does: it inserts an item that was free, or changes no list. -/
def Enqueued (config : Config) (s : TxSide) (p : Nat) (priority : Bool)
    (result : Except GossipsubErr Nat) (tx : Tx) : Prop :=
  match result with
  | .error _ => Tx.SameQueues config s.tx tx
  | .ok i => p < config.capacity.maxPeers ∧ ¬ s.tx.Used config i ∧
      Tx.QueueBecomes config s.tx tx p (s.tx.insertItem (s.tx.items config p) i priority)

theorem enqueue_queues (hfree : s.reserved = none) {rpc : Rpc} {lifetimeUs : Nat} {priority : Bool}
    {nowUs : Nat} {result : Except GossipsubErr Nat} {tx : Tx}
    (hrun : enqueueRpcWithLifetime config.toConfig s.peers p rpc lifetimeUs priority nowUs s.tx =
      (result, tx)) : Enqueued config.toConfig s p priority result tx := by
  have hqueues := h.transmitInv.queues
  rw [hfree] at hqueues
  have hspec := enqueueRpcWithLifetime_spec hqueues config.txBufferBytes_le hrun
  cases result with
  | error e => exact sameQueues_of_inv (hspec.1 e rfl).1
  | ok i =>
    rcases hspec.2 i rfl with ⟨hinv, henqueued⟩
    exact ⟨henqueued.peer_lt, henqueued.free, becomes_of_inv henqueued.peer_lt hinv⟩

theorem enqueuePublish_queues (hfree : s.reserved = none) {rpc : Rpc} {messageId : Bytes}
    {lifetimeUs : Nat} {priority : Bool} {nowUs : Nat} {result : Except GossipsubErr Nat} {tx : Tx}
    (hrun : enqueuePublishWithLifetime config.toConfig s.peers p rpc messageId lifetimeUs priority
      nowUs s.tx = (result, tx)) : Enqueued config.toConfig s p priority result tx := by
  unfold enqueuePublishWithLifetime at hrun
  rcases henqueue : enqueueRpcWithLifetime config.toConfig s.peers p rpc lifetimeUs priority nowUs
    s.tx with ⟨e | i, tx₁⟩
  · rw [henqueue] at hrun
    cases hrun
    exact h.enqueue_queues hfree henqueue
  · rw [henqueue] at hrun
    cases hrun
    rcases h.enqueue_queues hfree henqueue with ⟨hp, hunused, hself, hothers⟩
    -- the id of the message changes no link
    have hnext : (tx₁.setItem i { tx₁.queue i with publish := true, messageId := messageId }).next =
        tx₁.next := by
      rw [Tx.next_setItem]
      exact Function.update_eq_self i tx₁.next
    have hsame : ∀ r, (tx₁.setItem i { tx₁.queue i with
        publish := true, messageId := messageId }).items config.toConfig r =
        tx₁.items config.toConfig r := fun _ => Tx.items_congr rfl hnext
    refine ⟨hp, hunused, ?_, fun r hr hne => ?_⟩
    · exact (hsame p).trans hself
    · exact (hsame r).trans (hothers r hr hne)

/-! ## Removing -/

/-- `gossipsub_tx_remove` deletes the item from its list. -/
theorem remove_queues (hfree : s.reserved = none) (i r : Nat) (hr : r < config.capacity.maxPeers) :
    (txRemove config.toConfig s.peers s.tx i).items config.toConfig r =
      (s.tx.items config.toConfig r).erase i := by
  by_cases hi : s.tx.Used config.toConfig i
  · exact h.items_remove hfree hi hr
  · rw [txRemove_of_unused s.peers hi, List.erase_of_not_mem]
    exact fun hmem => hi (h.transmitInv.queues.queued r hr i hmem).1

/-- Removing an item in the middle of a list. -/
theorem remove_drops (hfree : s.reserved = none) (hp : p < config.capacity.maxPeers)
    {xs rest : List Nat} {i : Nat} (hitems : s.tx.items config.toConfig p = xs ++ i :: rest) :
    Tx.Drops config.toConfig s.tx (txRemove config.toConfig s.peers s.tx i) p (xs ++ rest) := by
  have hqueues := h.transmitInv.queues
  have hmem : i ∈ s.tx.items config.toConfig p := by simp [hitems]
  rcases hqueues.queued p hp i hmem with ⟨hused, hpeer, -⟩
  have hnotin : i ∉ xs := by
    have hnd := (hqueues.queue p hp).nodup
    rw [hitems] at hnd
    exact fun hx => (List.nodup_append.mp hnd).2.2 i hx i (by simp) rfl
  rcases hqueues.remove s.peers hused (.inl hfree) with ⟨-, hcleared, hkeeps⟩
  refine ⟨⟨?_, ?_⟩, ?_⟩
  · rw [h.items_remove hfree hused hp, hitems, List.erase_append_right _ hnotin,
      List.erase_cons_head]
  · intro r hr hne
    rw [h.items_remove hfree hused hr, List.erase_of_not_mem]
    exact fun hir => hne ((hqueues.queued r hr i hir).2.1.symm.trans hpeer)
  · intro j hj
    apply hkeeps
    rintro rfl
    have hunused := hj.2
    rw [hcleared] at hunused
    cases hunused

omit h

/-- A loop that walks the list of a peer and removes the items that `gone` selects. -/
structure Walks (config : Config) (peers : Nat → Peer) (gone : TxItem → Bool)
    (loop : Nat → Option Nat → Tx → Tx) : Prop where
  zero : ∀ start tx, loop 0 start tx = tx
  none : ∀ fuel tx, loop fuel none tx = tx
  some : ∀ fuel i tx, tx.Used config i → loop (fuel + 1) (some i) tx =
    loop fuel (tx.next i) (if gone (tx.queue i) then txRemove config peers tx i else tx)
  core : ∀ item : TxItem, gone item.core = gone item

/-- Such a loop leaves the items that are not selected, in their order. -/
theorem walks_drops {gone : TxItem → Bool} {loop : Nat → Option Nat → Tx → Tx}
    (hloop : Walks config.toConfig s.peers gone loop) (h : TxReachable config.toConfig s)
    (hfree : s.reserved = none) (hp : p < config.capacity.maxPeers) {xs rest : List Nat}
    {start : Option Nat} {fuel : Nat} (hitems : s.tx.items config.toConfig p = xs ++ rest)
    (hstart : start = rest.head?) (hfuel : rest.length ≤ fuel) :
    Tx.Drops config.toConfig s.tx (loop fuel start s.tx) p
      (xs ++ rest.filter fun i => !gone (s.tx.queue i)) := by
  induction rest generalizing s xs start fuel with
  | nil =>
    subst hstart
    rw [List.head?_nil, hloop.none]
    exact .refl hitems
  | cons i rest ih =>
    subst hstart
    obtain ⟨fuel, rfl⟩ : ∃ n, fuel = n + 1 := ⟨fuel - 1, by simp at hfuel; omega⟩
    have hqueue := h.transmitInv.queues.queue p hp
    have hmem : i ∈ s.tx.items config.toConfig p := by simp [hitems]
    have hused := (h.transmitInv.queues.queued p hp i hmem).1
    have hnext : s.tx.next i = rest.head? := by
      have hlinked := hqueue.linked
      rw [hitems] at hlinked
      exact Segment.next_of_append hlinked
    have hlength : rest.length ≤ fuel := Nat.le_of_succ_le_succ hfuel
    rw [List.head?_cons, hloop.some fuel i s.tx hused]
    cases hgone : gone (s.tx.queue i) with
    | true =>
      have hdrops := h.remove_drops hfree hp hitems
      have hreached := h.remove hfree i
      have hrest := @ih { s with tx := txRemove config.toConfig s.peers s.tx i } hloop
        hreached hfree xs _ fuel hdrops.self hnext hlength
      have hsame : rest.filter (fun j => !gone ((txRemove config.toConfig s.peers s.tx i).queue j)) =
          rest.filter fun j => !gone (s.tx.queue j) := by
        apply List.filter_congr
        intro j hj
        have hleft : (txRemove config.toConfig s.peers s.tx i).Used config.toConfig j := by
          apply (hreached.transmitInv.queues.queued p hp j _).1
          dsimp only
          rw [hdrops.self]
          exact List.mem_append_right xs hj
        rw [(hdrops.kept j hleft).field_eq gone hloop.core]
      dsimp only at hrest
      rw [hsame] at hrest
      rw [if_pos rfl, List.filter_cons_of_neg (by simp [hgone])]
      exact hdrops.trans hrest
    | false =>
      have hkept : s.tx.items config.toConfig p = (xs ++ [i]) ++ rest := by simp [hitems]
      have hrest := ih hloop h hfree hkept hnext hlength
      rw [if_neg (by simp), List.filter_cons_of_pos (by simp [hgone])]
      rwa [List.append_assoc] at hrest

/-- Such a loop from the head of the list. -/
theorem walks_queue {gone : TxItem → Bool} {loop : Nat → Option Nat → Tx → Tx}
    (hloop : Walks config.toConfig s.peers gone loop) (h : TxReachable config.toConfig s)
    (hfree : s.reserved = none) (hp : p < config.capacity.maxPeers) :
    Tx.Drops config.toConfig s.tx
      (loop config.capacity.maxTxRpcQueue (s.tx.peer p).head s.tx) p
      ((s.tx.items config.toConfig p).filter fun i => !gone (s.tx.queue i)) := by
  have hqueues := h.transmitInv.queues
  have hitems : s.tx.items config.toConfig p = [] ++ s.tx.items config.toConfig p := rfl
  exact walks_drops hloop h hfree hp hitems (hqueues.queue p hp).head_eq
    ((hqueues.live hp).length_le (hqueues.queue p hp).nodup)

theorem dropStaleLoop_walks (peers : Nat → Peer) (nowUs : Nat) :
    Walks config.toConfig peers (fun item => txItemStale item nowUs)
      (txDropStaleLoop config.toConfig peers nowUs) where
  zero _ _ := rfl
  none fuel _ := by cases fuel <;> rfl
  some fuel i tx hi := by
    rw [txDropStaleLoop, if_neg]
    · rfl
    · rintro (hle | hunused)
      · exact absurd hi.1 (Nat.not_lt_of_le hle)
      · rw [hi.2] at hunused
        cases hunused
  core _ := rfl

theorem dropQueuedPublishLoop_walks (peers : Nat → Peer) (messageId : Bytes) :
    Walks config.toConfig peers
      (fun item => item.publish && item.pos = 0 && item.messageId = messageId)
      (Gossipsub.dropQueuedPublishLoop config.toConfig peers messageId) where
  zero _ _ := rfl
  none fuel _ := by cases fuel <;> rfl
  some fuel i tx _ := by
    rw [Gossipsub.dropQueuedPublishLoop]
    simp only [Bool.and_eq_true, decide_eq_true_eq, and_assoc]
    rfl
  core _ := rfl

variable (h : TxReachable config.toConfig s) (hfree : s.reserved = none)

include h hfree

/-- `gossipsub_drop_queued_publish` deletes the unsent copies of the message. -/
theorem dropQueuedPublish_queues (hp : p < config.capacity.maxPeers) (messageId : Span)
    (hgiven : messageId.isNull = false) :
    Tx.QueueBecomes config.toConfig s.tx
      (Gossipsub.dropQueuedPublish config.toConfig s.peers p messageId s.tx) p
      ((s.tx.items config.toConfig p).filter fun i => !((s.tx.queue i).publish &&
        (s.tx.queue i).pos = 0 && (s.tx.queue i).messageId = messageId.bytes)) := by
  unfold Gossipsub.dropQueuedPublish
  rw [if_pos ⟨hgiven, hp⟩]
  exact (h.walks_queue (dropQueuedPublishLoop_walks s.peers messageId.bytes) hfree hp).toQueueBecomes

/-- `gossipsub_tx_drop_stale` deletes the stale items. -/
theorem dropStale_queues (nowUs r : Nat) (hr : r < config.capacity.maxPeers) :
    (txDropStale config.toConfig s.peers nowUs s.tx).items config.toConfig r =
      (s.tx.items config.toConfig r).filter fun i => !txItemStale (s.tx.queue i) nowUs := by
  have hloop : ∀ (ps : List Nat) (s : TxSide), TxReachable config.toConfig s →
      s.reserved = none → ps.Nodup → (∀ p ∈ ps, p < config.capacity.maxPeers) →
      (ps.foldl (fun tx p => txDropStaleLoop config.toConfig s.peers nowUs
        config.capacity.maxTxRpcQueue (tx.peer p).head tx) s.tx).items config.toConfig r =
      if r ∈ ps then
        (s.tx.items config.toConfig r).filter fun i => !txItemStale (s.tx.queue i) nowUs
      else s.tx.items config.toConfig r := by
    intro ps
    induction ps with
    | nil => exact fun _ _ _ _ _ => rfl
    | cons p ps ih =>
      intro s h hfree hnd hlt
      rcases List.nodup_cons.mp hnd with ⟨hnotin, hnd'⟩
      have hp := hlt p List.mem_cons_self
      have hdrops := h.walks_queue (dropStaleLoop_walks s.peers nowUs) hfree hp
      have hreached := h.dropStaleLoop hfree nowUs config.capacity.maxTxRpcQueue (s.tx.peer p).head
      have hrest := ih _ hreached hfree hnd' fun q hq => hlt q (List.mem_cons_of_mem p hq)
      rw [List.foldl_cons]
      refine hrest.trans ?_
      dsimp only
      by_cases hrp : r = p
      · subst hrp
        rw [if_neg hnotin, if_pos List.mem_cons_self]
        exact hdrops.self
      · rw [hdrops.others r hr hrp]
        have hmem : r ∈ p :: ps ↔ r ∈ ps := by simp [hrp]
        simp only [hmem]
        split
        · apply List.filter_congr
          intro i hi
          have hleft : (txDropStaleLoop config.toConfig s.peers nowUs
              config.capacity.maxTxRpcQueue (s.tx.peer p).head s.tx).Used config.toConfig i := by
            apply (hreached.transmitInv.queues.queued r hr i _).1
            dsimp only
            rwa [hdrops.others r hr hrp]
          rw [(hdrops.kept i hleft).field_eq (fun item => txItemStale item nowUs) fun _ => rfl]
        · rfl
  have hall := hloop (List.range config.capacity.maxPeers) s h hfree List.nodup_range
    fun p hp => List.mem_range.mp hp
  rwa [if_pos (List.mem_range.mpr hr)] at hall

theorem dropQueuedPeerLoop_drops (hp : p < config.capacity.maxPeers) {l : List Nat} {fuel : Nat}
    (hitems : s.tx.items config.toConfig p = l) (hfuel : l.length ≤ fuel) :
    Tx.Drops config.toConfig s.tx (Gossipsub.dropQueuedPeerLoop config.toConfig s.peers p fuel s.tx)
      p [] := by
  induction l generalizing s fuel with
  | nil =>
    have hhead : (s.tx.peer p).head = none := by
      rw [(h.transmitInv.queues.queue p hp).head_eq, hitems]
      rfl
    cases fuel with
    | zero => exact .refl hitems
    | succ fuel =>
      rw [Gossipsub.dropQueuedPeerLoop, hhead]
      exact .refl hitems
  | cons i l ih =>
    obtain ⟨fuel, rfl⟩ : ∃ n, fuel = n + 1 := ⟨fuel - 1, by simp at hfuel; omega⟩
    have hhead : (s.tx.peer p).head = some i := by
      rw [(h.transmitInv.queues.queue p hp).head_eq, hitems]
      rfl
    have hdrops : Tx.Drops config.toConfig s.tx
        (txRemove config.toConfig s.peers s.tx i) p ([] ++ l) :=
      h.remove_drops hfree hp hitems
    rw [Gossipsub.dropQueuedPeerLoop, hhead]
    exact hdrops.trans (ih (h.remove hfree i) hfree hdrops.self (Nat.le_of_succ_le_succ hfuel))

/-- `gossipsub_drop_queued_peer` empties the queue of the peer. -/
theorem dropQueuedPeer_queues (hp : p < config.capacity.maxPeers) :
    Tx.QueueBecomes config.toConfig s.tx
      (Gossipsub.dropQueuedPeer config.toConfig s.peers p s.tx) p [] := by
  have hqueues := h.transmitInv.queues
  have hdrops := h.dropQueuedPeerLoop_drops hfree hp rfl
    ((hqueues.live hp).length_le (hqueues.queue p hp).nodup)
  unfold Gossipsub.dropQueuedPeer
  rw [if_pos hp]
  dsimp only
  refine (Tx.Drops.schedules hdrops ?_).toQueueBecomes
  exact (txSetPeerReady_schedules ..).trans (Tx.Schedules.setPeer ..)

/-- `gossipsub_flush_ready_peers` takes items from the front of the lists. -/
theorem flushReadyPeers_queues (answers : WriteAnswers) (nowUs : Nat) {f f' : FlushState} (hf : f.tx = s.tx)
    {result : Except GossipsubErr Unit}
    (hrun : flushReadyPeers config.toConfig s.peers answers nowUs f = (result, f')) (r : Nat)
    (hr : r < config.capacity.maxPeers) :
    f'.tx.items config.toConfig r <:+ s.tx.items config.toConfig r := by
  have hstart : TxReachable config.toConfig { s with tx := f.tx } := hf ▸ h
  exact hf ▸ (flushReadyPeers_flushes hfree answers nowUs hstart hrun).2.1 r hr

end TxReachable

end LeanLibp2p.Gossipsub
