import LeanLibp2p.Gossipsub.Router.Transmit
import LeanLibp2p.Gossipsub.Tx.Queues

/-!
# The transmit side is sound

What every run of a router keeps of its queues, of its buffer and of the scheduling of its
writers. The states within a call, between a reservation and its commit, are states of the machine
of `TxStep`, and the results are about all of these.
-/

namespace LeanLibp2p.Gossipsub

open LeanLibp2p.Lib

/-- What each operation of `gossipsub_tx.c` does to the lists of queued items. -/
structure QueueChanges (config : Config) (s : TxSide) : Prop where
  commit : ∀ p i priority tx, s.reserved = some i →
    txCommitReserved config s.peers p i priority s.tx = (.ok (), tx) →
    Tx.QueueBecomes config s.tx tx p (s.tx.insertItem (s.tx.items config p) i priority)
  reserve : ∀ p frameLen lifetimeUs nowUs result tx, s.reserved = none → 0 < frameLen →
    txReserve config p frameLen lifetimeUs nowUs s.tx = (result, tx) →
    Tx.SameQueues config s.tx tx
  enqueue : ∀ p rpc lifetimeUs priority nowUs result tx, s.reserved = none →
    enqueueRpcWithLifetime config s.peers p rpc lifetimeUs priority nowUs s.tx = (result, tx) →
    TxReachable.Enqueued config s p priority result tx
  publish : ∀ p rpc messageId lifetimeUs priority nowUs result tx, s.reserved = none →
    enqueuePublishWithLifetime config s.peers p rpc messageId lifetimeUs priority nowUs s.tx =
      (result, tx) → TxReachable.Enqueued config s p priority result tx
  remove : ∀ i, s.reserved = none → ∀ r < config.capacity.maxPeers,
    (txRemove config s.peers s.tx i).items config r = (s.tx.items config r).erase i
  dropStale : ∀ nowUs, s.reserved = none → ∀ r < config.capacity.maxPeers,
    (txDropStale config s.peers nowUs s.tx).items config r =
      (s.tx.items config r).filter fun i => !txItemStale (s.tx.queue i) nowUs
  dropPublish : ∀ p < config.capacity.maxPeers, ∀ messageId : Span, s.reserved = none →
    messageId.isNull = false →
    Tx.QueueBecomes config s.tx (dropQueuedPublish config s.peers p messageId s.tx) p
      ((s.tx.items config p).filter fun i => !((s.tx.queue i).publish &&
        (s.tx.queue i).pos = 0 && (s.tx.queue i).messageId = messageId.bytes))
  dropPeer : ∀ p < config.capacity.maxPeers, s.reserved = none →
    Tx.QueueBecomes config s.tx (dropQueuedPeer config s.peers p s.tx) p []
  flush : ∀ answers nowUs f f' result, s.reserved = none → f.tx = s.tx →
    flushReadyPeers config s.peers answers nowUs f = (result, f') →
    ∀ r < config.capacity.maxPeers, f'.tx.items config r <:+ s.tx.items config r

theorem TxReachable.queueChanges {config : RouterConfig} {s : TxSide}
    (h : TxReachable config.toConfig s) : QueueChanges config.toConfig s where
  commit _ _ _ _ hreserved hrun := h.commit_queues hreserved hrun
  reserve _ _ _ _ _ _ hfree hlen hrun := h.reserve_queues hfree hlen hrun
  enqueue _ _ _ _ _ _ _ hfree hrun := h.enqueue_queues hfree hrun
  publish _ _ _ _ _ _ _ _ hfree hrun := h.enqueuePublish_queues hfree hrun
  remove i hfree r hr := h.remove_queues hfree i r hr
  dropStale nowUs hfree r hr := h.dropStale_queues hfree nowUs r hr
  dropPublish _ hp messageId hfree hgiven := h.dropQueuedPublish_queues hfree hp messageId hgiven
  dropPeer _ hp hfree := h.dropQueuedPeer_queues hfree hp
  flush answers nowUs _ _ _ hfree hf hrun r hr :=
    h.flushReadyPeers_queues hfree answers nowUs hf hrun r hr

/-- In every state that a router comes through, the links of each peer make the list of its
    committed items, priority items first, and each operation inserts one item into one list or
    deletes items from it. -/
theorem tx_queues_sound (config : RouterConfig) :
    (∀ actions : List Action, ∃ written,
      TxReachable config.toConfig ((Node.init.run config.toConfig actions).router.side written)) ∧
    ∀ s : TxSide, TxReachable config.toConfig s →
      QueuesSound config.toConfig s.tx s.reserved ∧ QueueChanges config.toConfig s :=
  ⟨Transmits.run config, fun _ h => ⟨h.transmitInv.queuesSound, h.queueChanges⟩⟩

/-- In every state that a router comes through, the items have ranges of the used part of the buffer
    for themselves and hold there what the encoder wrote, and a reservation for a peer whose queue
    has room fails only when the frame does not fit beside the bytes that wait. -/
theorem tx_buffer_sound (config : RouterConfig) :
    (∀ actions : List Action, ∃ written,
      TxReachable config.toConfig ((Node.init.run config.toConfig actions).router.side written)) ∧
    ∀ s : TxSide, TxReachable config.toConfig s →
      (∀ i, s.tx.Used config.toConfig i →
        (s.tx.queue i).offset + (s.tx.queue i).len ≤ s.tx.bufferUsed) ∧
      (∀ i j, s.tx.Used config.toConfig i → s.tx.Used config.toConfig j → i ≠ j →
        (s.tx.queue i).offset + (s.tx.queue i).len ≤ (s.tx.queue j).offset ∨
        (s.tx.queue j).offset + (s.tx.queue j).len ≤ (s.tx.queue i).offset) ∧
      s.tx.bufferUsed ≤ config.capacity.txBufferBytes ∧
      (∀ i, s.tx.Used config.toConfig i → s.reserved ≠ some i → s.tx.content i = s.written i) ∧
      (s.reserved = none → ∀ p frameLen lifetimeUs nowUs tx,
        txReserve config.toConfig p frameLen lifetimeUs nowUs s.tx = (.error .limit, tx) →
        config.capacity.maxPeerTxQueue ≤ (s.tx.peer p).queueDepth ∨
          config.capacity.maxTxRpcQueue ≤ s.tx.queueLen ∨
          config.capacity.txBufferBytes < s.tx.liveBytes config.toConfig + frameLen) := by
  refine ⟨Transmits.run config, fun s h => ?_⟩
  have hinv := h.transmitInv
  refine ⟨fun i hi => (hinv.queues.buffer.range i hi).2, fun i j hi hj hne => ?_,
    hinv.queues.buffer.used_le, hinv.written, ?_⟩
  · exact hinv.queues.buffer.apart i j hi hj hne
  · intro hfree p frameLen lifetimeUs nowUs tx hrun
    have hqueues := hinv.queues
    rw [hfree] at hqueues
    rcases txReserve_error hqueues config.txBufferBytes_le hrun with hp | hfull
    · unfold txReserve at hrun
      rw [if_pos hp] at hrun
      cases hrun
    · exact hfull

/-- In every state that a router comes through, the ready peers are counted, they have a writer and
    frames, and a peer that has both is ready or waits for its transport; when
    `gossipsub_flush_ready_peers` or `libp2p_gossipsub_drive` succeeds, every queue is empty or
    waits for its transport. -/
theorem tx_schedule_sound (config : RouterConfig) :
    (∀ actions : List Action, ∃ written,
      TxReachable config.toConfig ((Node.init.run config.toConfig actions).router.side written)) ∧
    (∀ s : TxSide, TxReachable config.toConfig s →
      s.tx.readyCount =
        (List.range config.capacity.maxPeers).countP (fun p => (s.tx.peer p).ready) ∧
      (∀ p < config.capacity.maxPeers, (s.tx.peer p).ready = true →
        (s.peers p).stream.isSome = true ∧ (s.tx.peer p).queueDepth ≠ 0) ∧
      (∀ p < config.capacity.maxPeers, (s.peers p).stream.isSome = true →
        (s.tx.peer p).queueDepth ≠ 0 →
        (s.tx.peer p).ready = true ∨ (s.tx.peer p).transportBusy = true)) ∧
    ∀ (actions : List Action) (nowUs : Nat) (answers : WriteAnswers) (r' : Router),
      flushReady config.toConfig nowUs answers (Node.init.run config.toConfig actions).router =
          (.ok (), r') ∨
        drive config.toConfig nowUs answers (Node.init.run config.toConfig actions).router =
          (.ok (), r') →
      ∀ p < config.capacity.maxPeers,
        (r'.tx.peer p).queueDepth = 0 ∨ (r'.tx.peer p).transportBusy = true := by
  refine ⟨Transmits.run config, fun s h => ?_, ?_⟩
  · have hinv := h.transmitInv
    refine ⟨hinv.schedule.count, ?_, ?_⟩
    · intro p hp hready
      have hcan := (hinv.schedule.peer p hp).can_write hready
      exact ⟨hcan.writer, hcan.waiting⟩
    · intro p hp hwriter hwaiting
      refine (hinv.schedule.peer p hp).awake ⟨?_, hwriter, hwaiting⟩
      cases hused : (s.peers p).used with
      | true => rfl
      | false =>
        rw [hinv.unused p hused] at hwriter
        cases hwriter
  · intro actions nowUs answers r' hrun
    have h : Transmits config.toConfig _ := Transmits.run config actions
    rcases hrun with hflush | hdrive
    · exact (h.flushReady_settled nowUs answers hflush).2 rfl
    · exact h.drive_settled nowUs answers hdrive rfl

end LeanLibp2p.Gossipsub
