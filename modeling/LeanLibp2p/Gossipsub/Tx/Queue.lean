import LeanLibp2p.Gossipsub.Config
import LeanLibp2p.Gossipsub.Codec.Rpc
import LeanLibp2p.Host.Types
import LeanLibp2p.Lib.Arena

/-!
# Transmit queue

`gossipsub_tx.c`: frames that wait for the writer stream of a peer. All peers share one table
of items and one byte buffer; the items of a peer are linked from its `tx_head`. The functions
here read the peers of the router and change only the transmit state.
-/

namespace LeanLibp2p.Gossipsub

open LeanLibp2p.Lib

/-- `gossipsub_peer_state_t`, less its transmit fields and what only the application reads.
    Connections and streams are named by their handles. -/
structure Peer where
  used : Bool
  explicitPeer : Bool
  conn : Option Nat
  stream : Option Nat
  direction : Host.Direction
  version : ProtocolVersion
  peerId : Bytes
  idontwantSentThisHeartbeat : Nat
  deriving DecidableEq, Repr

variable (config : Config) (peers : Nat → Peer)

/-- A zeroed peer slot. -/
def Peer.free : Peer := ⟨false, false, none, none, .inbound, .none, [], 0⟩

/-- `gossipsub_tx_item_t`, less `enqueued_us`; `next` is `none` for `GOSSIPSUB_TX_NO_ITEM`. -/
structure TxItem where
  used : Bool
  priority : Bool
  publish : Bool
  peerIndex : Nat
  offset : Nat
  len : Nat
  pos : Nat
  next : Option Nat
  deadlineUs : Nat
  messageId : Bytes
  deriving DecidableEq, Repr

/-- `gossipsub_tx_clear_item` (`gossipsub_tx.c:279-286`). -/
def TxItem.free : TxItem := ⟨false, false, false, 0, 0, 0, 0, none, 0, []⟩

/-- The transmit fields of `gossipsub_peer_state_t`, less the counters of
    `libp2p_gossipsub_tx_peer_stats`. -/
structure PeerTx where
  head : Option Nat
  tail : Option Nat
  priorityTail : Option Nat
  queueDepth : Nat
  priorityDepth : Nat
  queueLimitReported : Bool
  ready : Bool
  transportBusy : Bool
  deriving DecidableEq, Repr

/-- The transmit fields of a fresh peer. -/
def PeerTx.fresh : PeerTx := ⟨none, none, none, 0, 0, false, false, false⟩

/-- The transmit fields of `libp2p_gossipsub_t`. -/
structure Tx where
  peer : Nat → PeerTx
  queue : Nat → TxItem
  buffer : Memory
  bufferUsed : Nat
  queueLen : Nat
  readyCount : Nat
  nextPeer : Nat

variable (tx : Tx) (i p : Nat) (item : TxItem) (peer : PeerTx)

/-- The transmit fields that `libp2p_gossipsub_init` leaves. -/
def Tx.init : Tx := ⟨fun _ => .fresh, fun _ => .free, fun _ => 0, 0, 0, 0, 0⟩

namespace Tx

/-- Replace the transmit fields of one peer. -/
def setPeer (tx : Tx) (p : Nat) (peer : PeerTx) : Tx :=
  { tx with peer := Function.update tx.peer p peer }

/-- Replace one item. -/
def setItem (tx : Tx) (i : Nat) (item : TxItem) : Tx :=
  { tx with queue := Function.update tx.queue i item }

@[simp] theorem setPeer_self :
    (tx.setPeer p peer).peer p = peer := Function.update_self ..

@[simp] theorem setPeer_of_ne {p q : Nat} (peer : PeerTx) (h : q ≠ p) :
    (tx.setPeer p peer).peer q = tx.peer q := Function.update_of_ne h ..

@[simp] theorem setPeer_queue :
    (tx.setPeer p peer).queue = tx.queue := rfl

@[simp] theorem setPeer_buffer :
    (tx.setPeer p peer).buffer = tx.buffer := rfl

@[simp] theorem setPeer_bufferUsed :
    (tx.setPeer p peer).bufferUsed = tx.bufferUsed := rfl

@[simp] theorem setPeer_queueLen :
    (tx.setPeer p peer).queueLen = tx.queueLen := rfl

@[simp] theorem setItem_self :
    (tx.setItem i item).queue i = item := Function.update_self ..

@[simp] theorem setItem_of_ne {i j : Nat} (item : TxItem) (h : j ≠ i) :
    (tx.setItem i item).queue j = tx.queue j := Function.update_of_ne h ..

@[simp] theorem setItem_peer :
    (tx.setItem i item).peer = tx.peer := rfl

@[simp] theorem setItem_buffer :
    (tx.setItem i item).buffer = tx.buffer := rfl

@[simp] theorem setItem_bufferUsed :
    (tx.setItem i item).bufferUsed = tx.bufferUsed := rfl

@[simp] theorem setItem_queueLen :
    (tx.setItem i item).queueLen = tx.queueLen := rfl

end Tx

/-- `GOSSIPSUB_TX_LOCAL_PUBLISH_LIFETIME_US`. -/
def txLocalPublishLifetimeUs : Nat := 5000000

/-- `GOSSIPSUB_TX_FORWARD_LIFETIME_US`. -/
def txForwardLifetimeUs : Nat := 1000000

/-- `gossipsub_tx_deadline` (`gossipsub_tx.c:176-190`). -/
def txDeadline (nowUs lifetimeUs : Nat) : Nat :=
  if lifetimeUs ≠ 0 then
    if nowUs ≤ uint64Max - lifetimeUs then nowUs + lifetimeUs else uint64Max
  else 0

/-- `gossipsub_tx_set_peer_ready` (`gossipsub_tx.c:233-265`). -/
def txSetPeerReady (tx : Tx) (p : Nat) (ready : Bool) : Tx :=
  if p < config.capacity.maxPeers then
    let peer := tx.peer p
    let canWrite := (peers p).used && (peers p).stream.isSome && peer.queueDepth ≠ 0
    let nextReady := ready && canWrite
    if nextReady && !peer.ready then
      { tx.setPeer p { peer with ready := true } with readyCount := tx.readyCount + 1 }
    else if !nextReady && peer.ready then
      { tx.setPeer p { peer with ready := false } with
        readyCount := if tx.readyCount ≠ 0 then tx.readyCount - 1 else tx.readyCount }
    else tx.setPeer p { peer with ready := nextReady }
  else tx

/-- `gossipsub_tx_mark_peer_ready` (`gossipsub_tx.c:267-277`). -/
def txMarkPeerReady (tx : Tx) (p : Nat) : Tx :=
  if p < config.capacity.maxPeers then
    txSetPeerReady config peers (tx.setPeer p { tx.peer p with transportBusy := false }) p true
  else tx

/-- `gossipsub_tx_item_stale` (`gossipsub_tx.c:288-299`). -/
def txItemStale (item : TxItem) (nowUs : Nat) : Bool :=
  item.deadlineUs ≠ 0 && item.pos = 0 && item.deadlineUs ≤ nowUs

/-- `gossipsub_tx_find_free` (`gossipsub_tx.c:301-319`). -/
def txFindFree (tx : Tx) : Option Nat :=
  findSlot config.capacity.maxTxRpcQueue fun i => !(tx.queue i).used

/-- What the loop of `gossipsub_tx_recount_peer_queue` has counted so far. -/
structure Recount where
  depth : Nat
  priorityDepth : Nat
  tail : Option Nat
  priorityTail : Option Nat

/-- The loop of `gossipsub_tx_recount_peer_queue`; `fuel` is the table size less the depth
    counted. -/
def txRecountLoop (config : Config) (tx : Tx) : Nat → Option Nat → Recount → Recount
  | 0, _, r => r
  | _ + 1, none, r => r
  | fuel + 1, some current, r =>
    if config.capacity.maxTxRpcQueue ≤ current ∨ (tx.queue current).used = false then r
    else
      txRecountLoop config tx fuel (tx.queue current).next
        { depth := r.depth + 1
          priorityDepth := if (tx.queue current).priority then r.priorityDepth + 1
            else r.priorityDepth
          tail := some current
          priorityTail := if (tx.queue current).priority then some current else r.priorityTail }

/-- `gossipsub_tx_recount_peer_queue` (`gossipsub_tx.c:321-357`). -/
def txRecountPeerQueue (tx : Tx) (p : Nat) : Tx :=
  if p < config.capacity.maxPeers then
    let r := txRecountLoop config tx config.capacity.maxTxRpcQueue (tx.peer p).head
      ⟨0, 0, none, none⟩
    tx.setPeer p { tx.peer p with
      tail := r.tail
      priorityTail := r.priorityTail
      queueDepth := r.depth
      priorityDepth := r.priorityDepth }
  else tx

/-- The list part of `gossipsub_tx_append_peer_item`: a normal item goes to the end, a priority
    item after the last priority item, or to the front when there is none. -/
def txLinkPeerItem (tx : Tx) (p i : Nat) (priority : Bool) : Tx :=
  let peer := tx.peer p
  if peer.queueDepth = 0 then
    tx.setPeer p { peer with
      head := some i
      tail := some i
      priorityTail := if priority then some i else none }
  else if priority = false then
    match peer.tail with
    | none => tx
    | some tail =>
      (tx.setItem tail { tx.queue tail with next := some i }).setPeer p { peer with tail := some i }
  else
    match peer.priorityTail with
    | none =>
      (tx.setItem i { tx.queue i with next := peer.head }).setPeer p { peer with
        head := some i
        priorityTail := some i }
    | some last =>
      let tx := tx.setItem i { tx.queue i with next := (tx.queue last).next }
      let tx := tx.setItem last { tx.queue last with next := some i }
      tx.setPeer p { peer with
        tail := if peer.tail = some last then some i else peer.tail
        priorityTail := some i }

/-- `gossipsub_tx_append_peer_item` (`gossipsub_tx.c:359-408`). -/
def txAppendPeerItem (tx : Tx) (p i : Nat) (priority : Bool) : Tx :=
  let wasEmpty := (tx.peer p).queueDepth = 0
  let tx := tx.setItem i { tx.queue i with priority := priority }
  let tx := txLinkPeerItem tx p i priority
  let peer := tx.peer p
  let tx := tx.setPeer p { peer with
    queueDepth := peer.queueDepth + 1
    priorityDepth := if priority then peer.priorityDepth + 1 else peer.priorityDepth }
  if wasEmpty ∧ peer.transportBusy = false then txSetPeerReady config peers tx p true else tx

/-- `gossipsub_tx_commit_reserved` (`gossipsub_tx.c:410-438`). -/
def txCommitReserved (p i : Nat) (priority : Bool) :
    Comp Tx GossipsubErr Unit := fun tx =>
  if config.capacity.maxPeers ≤ p ∨ config.capacity.maxTxRpcQueue ≤ i then (.error .invalidArg, tx)
  else if (tx.queue i).used = false ∨ (tx.queue i).peerIndex ≠ p ∨ (tx.queue i).pos ≠ 0 then
    (.error .state, tx)
  else (.ok (), txAppendPeerItem config peers tx p i priority)

/-- The search of `gossipsub_tx_compact_buffer`: the used item with the lowest offset that is
    not below `searchOffset`. -/
def txLowestItem (tx : Tx) (searchOffset : Nat) : Option Nat × Nat :=
  (List.range config.capacity.maxTxRpcQueue).foldl (fun best i =>
    if (tx.queue i).used ∧ searchOffset ≤ (tx.queue i).offset ∧ (tx.queue i).offset < best.2 then
      (some i, (tx.queue i).offset)
    else best) (none, sizeMax)

/-- The outer loop of `gossipsub_tx_compact_buffer`; `fuel` is `tx_queue_len` less `moved`. -/
def txCompactLoop (config : Config) : Nat → Nat → Nat → Tx → Tx × Nat
  | 0, cursor, _, tx => (tx, cursor)
  | fuel + 1, cursor, searchOffset, tx =>
    match (txLowestItem config tx searchOffset).1 with
    | none => (tx, cursor)
    | some i =>
      let item := tx.queue i
      let buffer := if item.len ≠ 0 ∧ item.offset ≠ cursor then
          tx.buffer.move cursor item.offset item.len
        else tx.buffer
      let searchOffset := if item.offset + item.len = item.offset then item.offset + 1
        else item.offset + item.len
      txCompactLoop config fuel (cursor + item.len) searchOffset
        { tx.setItem i { item with offset := cursor } with buffer := buffer }

/-- `gossipsub_tx_compact_buffer` (`gossipsub_tx.c:440-492`). -/
def txCompactBuffer (tx : Tx) : Tx :=
  if tx.queueLen ≠ 0 then
    let (tx, cursor) := txCompactLoop config tx.queueLen 0 0 tx
    { tx with bufferUsed := cursor }
  else tx

/-- The part of `gossipsub_tx_reserve` that makes room at the end of the buffer. -/
def txMakeRoom (frameLen : Nat) (tx : Tx) : Tx :=
  let tx := if config.capacity.txBufferBytes - tx.bufferUsed < frameLen ∧ tx.queueLen = 0 then
      { tx with bufferUsed := 0 }
    else tx
  if config.capacity.txBufferBytes - tx.bufferUsed < frameLen ∧ tx.queueLen ≠ 0 then
    txCompactBuffer config tx
  else tx

/-- `gossipsub_tx_reserve` (`gossipsub_tx.c:494-570`), which returns the index of the item; the
    frame goes to its offset. -/
def txReserve (p frameLen lifetimeUs nowUs : Nat) : Comp Tx GossipsubErr Nat :=
  fun tx =>
    if config.capacity.maxPeers ≤ p then (.error .invalidArg, tx)
    else if config.capacity.maxPeerTxQueue ≤ (tx.peer p).queueDepth then (.error .limit, tx)
    else if config.capacity.maxTxRpcQueue ≤ tx.queueLen then (.error .limit, tx)
    else
      let tx := txMakeRoom config frameLen tx
      if config.capacity.txBufferBytes - tx.bufferUsed < frameLen then (.error .limit, tx)
      else
        match txFindFree config tx with
        | none => (.error .limit, tx)
        | some i =>
          (.ok i, { tx.setItem i { TxItem.free with
              used := true
              peerIndex := p
              offset := tx.bufferUsed
              len := frameLen
              deadlineUs := txDeadline nowUs lifetimeUs } with
            bufferUsed := tx.bufferUsed + frameLen
            queueLen := tx.queueLen + 1 })

/-- The search of `gossipsub_tx_remove`: the item before `index` in the list, when `index` is
    in it. -/
def txFindPrevious (tx : Tx) (index : Nat) : Nat → Option Nat → Option Nat → Option (Option Nat)
  | 0, _, _ => none
  | _ + 1, _, none => none
  | fuel + 1, previous, some current =>
    if current = index then some previous
    else txFindPrevious tx index fuel (some current) (tx.queue current).next

/-- The list part of `gossipsub_tx_remove`. -/
def txUnlink (tx : Tx) (p index : Nat) : Tx :=
  match txFindPrevious tx index config.capacity.maxTxRpcQueue none (tx.peer p).head with
  | none => tx
  | some previous =>
    let next := (tx.queue index).next
    let tx := match previous with
      | none => tx.setPeer p { tx.peer p with head := next }
      | some previous => tx.setItem previous { tx.queue previous with next := next }
    let tx := txRecountPeerQueue config tx p
    if (tx.peer p).queueDepth < config.capacity.maxPeerTxQueue then
      tx.setPeer p { tx.peer p with queueLimitReported := false }
    else tx

/-- `gossipsub_tx_remove` (`gossipsub_tx.c:733-804`). The recount makes the updates of the tail
    and the depth that stand before it irrelevant. -/
def txRemove (tx : Tx) (index : Nat) : Tx :=
  if index < config.capacity.maxTxRpcQueue ∧ (tx.queue index).used then
    let p := (tx.queue index).peerIndex
    let tx := if p < config.capacity.maxPeers then
        let tx := txUnlink config tx p index
        if (tx.peer p).queueDepth = 0 then
          txSetPeerReady config peers (tx.setPeer p { tx.peer p with
            head := none
            tail := none
            priorityTail := none
            priorityDepth := 0 }) p false
        else tx
      else tx
    let tx := tx.setItem index .free
    let queueLen := if tx.queueLen ≠ 0 then tx.queueLen - 1 else 0
    { tx with
      queueLen := queueLen
      bufferUsed := if queueLen = 0 then 0 else tx.bufferUsed }
  else tx

/-- `gossipsub_enqueue_rpc_with_lifetime` (`gossipsub_tx.c:618-699`), which returns the index of
    the item. A failed encoding leaves bytes in the range of its item that nothing reads. -/
def enqueueRpcWithLifetime (p : Nat) (rpc : Rpc)
    (lifetimeUs : Nat) (priority : Bool) (nowUs : Nat) : Comp Tx GossipsubErr Nat := fun tx =>
  if config.capacity.maxPeers ≤ p then (.error .invalidArg, tx)
  else if (peers p).used = false ∨ (peers p).stream = none then (.error .state, tx)
  else
    match rpcFrameSize (peers p).version config.limits rpc with
    | .error e => (.error e, tx)
    | .ok frameLen =>
      match txReserve config p frameLen lifetimeUs nowUs tx with
      | (.error e, tx) => (.error e, tx)
      | (.ok i, tx) =>
        match rpcFrameEncode (peers p).version config.limits rpc frameLen with
        | .error e => (.error e.code, txRemove config peers tx i)
        | .ok frame =>
          if frame.length ≠ frameLen then (.error .internal, txRemove config peers tx i)
          else
            let tx := { tx with buffer := tx.buffer.store (tx.queue i).offset frame }
            match txCommitReserved config peers p i priority tx with
            | (.ok (), tx) => (.ok i, tx)
            | (.error e, tx) => (.error e, txRemove config peers tx i)

/-- `gossipsub_enqueue_publish_entry_with_lifetime` (`gossipsub_tx.c:1067-1114`) for the RPC of an
    entry: the item keeps the id of its message. -/
def enqueuePublishWithLifetime (p : Nat) (rpc : Rpc)
    (messageId : Bytes) (lifetimeUs : Nat) (priority : Bool) (nowUs : Nat) :
    Comp Tx GossipsubErr Nat := fun tx =>
  match enqueueRpcWithLifetime config peers p rpc lifetimeUs priority nowUs tx with
  | (.error e, tx) => (.error e, tx)
  | (.ok i, tx) =>
    (.ok i, tx.setItem i { tx.queue i with publish := true, messageId := messageId })

/-- The loop of `gossipsub_tx_drop_stale` over the items of one peer. -/
def txDropStaleLoop (config : Config) (peers : Nat → Peer) (nowUs : Nat) :
    Nat → Option Nat → Tx → Tx
  | 0, _, tx => tx
  | _ + 1, none, tx => tx
  | fuel + 1, some i, tx =>
    if config.capacity.maxTxRpcQueue ≤ i ∨ (tx.queue i).used = false then tx
    else
      txDropStaleLoop config peers nowUs fuel (tx.queue i).next
        (if txItemStale (tx.queue i) nowUs then txRemove config peers tx i else tx)

/-- `gossipsub_tx_drop_stale` (`gossipsub_tx.c:843-889`). -/
def txDropStale (nowUs : Nat) (tx : Tx) : Tx :=
  (List.range config.capacity.maxPeers).foldl (fun tx p =>
    txDropStaleLoop config peers nowUs config.capacity.maxTxRpcQueue (tx.peer p).head tx) tx

/-- The loop of `gossipsub_drop_queued_publish`. -/
def dropQueuedPublishLoop (config : Config) (peers : Nat → Peer) (messageId : Bytes) :
    Nat → Option Nat → Tx → Tx
  | 0, _, tx => tx
  | _ + 1, none, tx => tx
  | fuel + 1, some i, tx =>
    let item := tx.queue i
    dropQueuedPublishLoop config peers messageId fuel item.next
      (if item.publish ∧ item.pos = 0 ∧ item.messageId = messageId then txRemove config peers tx i
      else tx)

/-- `gossipsub_drop_queued_publish` (`gossipsub_tx.c:1427-1459`). -/
def dropQueuedPublish (p : Nat) (messageId : Span) (tx : Tx) : Tx :=
  if messageId.isNull = false ∧ p < config.capacity.maxPeers then
    dropQueuedPublishLoop config peers messageId.bytes config.capacity.maxTxRpcQueue
      (tx.peer p).head tx
  else tx

/-- The loop of `gossipsub_drop_queued_peer`. -/
def dropQueuedPeerLoop (config : Config) (peers : Nat → Peer) (p : Nat) : Nat → Tx → Tx
  | 0, tx => tx
  | fuel + 1, tx =>
    match (tx.peer p).head with
    | none => tx
    | some i => dropQueuedPeerLoop config peers p fuel (txRemove config peers tx i)

/-- `gossipsub_drop_queued_peer` (`gossipsub_tx.c:1461-1490`). -/
def dropQueuedPeer (p : Nat) (tx : Tx) : Tx :=
  if p < config.capacity.maxPeers then
    let tx := dropQueuedPeerLoop config peers p config.capacity.maxTxRpcQueue tx
    let tx := txSetPeerReady config peers tx p false
    tx.setPeer p { tx.peer p with transportBusy := false }
  else tx

end LeanLibp2p.Gossipsub
