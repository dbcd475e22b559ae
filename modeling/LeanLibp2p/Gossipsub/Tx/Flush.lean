import LeanLibp2p.Gossipsub.Tx.Queue

/-!
# Writing queued frames

`gossipsub_flush_peer` and `gossipsub_flush_ready_peers` (`gossipsub_tx.c:1180-1360`). The host
answers each `libp2p_host_stream_write` with the number of bytes it takes, or with an error;
the answers of one call are a sequence. What the host took is kept in order.
-/

namespace LeanLibp2p.Gossipsub

open LeanLibp2p.Lib

/-- One `libp2p_host_stream_write` of which bytes were taken: the stream, the item whose bytes
    were offered, and the bytes taken. -/
structure HostWrite where
  stream : Nat
  item : Nat
  bytes : Bytes
  deriving DecidableEq, Repr

/-- The answers of the host to successive writes. -/
abbrev WriteAnswers := Nat → Except GossipsubErr Nat

variable (config : Config) (peers : Nat → Peer) (answers : WriteAnswers)

/-- The transmit state while frames are written, with what the calls reported. -/
structure FlushState where
  tx : Tx
  calls : Nat
  writes : List HostWrite
  madeProgress : Bool
  rpcsSent : Nat
  bytesWritten : Nat
  peerBlocked : Bool

namespace FlushState

/-- The host takes no more bytes for now. -/
def block (p : Nat) (s : FlushState) : FlushState :=
  { s with
    peerBlocked := true
    tx := txSetPeerReady config peers
      (s.tx.setPeer p { s.tx.peer p with transportBusy := true }) p false }

/-- The host took `accepted` bytes of item `i`. -/
def accept (stream i accepted : Nat) (s : FlushState) : FlushState :=
  if accepted ≠ 0 then
    let item := s.tx.queue i
    { s with
      madeProgress := true
      tx := s.tx.setItem i { item with pos := item.pos + accepted }
      bytesWritten := s.bytesWritten + accepted
      writes := s.writes ++
        [⟨stream, i, s.tx.buffer.slice (item.offset + item.pos) accepted⟩] }
  else s

end FlushState

/-- One round of the loop of `gossipsub_flush_peer` for item `i` at the head of the queue; the
    result tells whether the loop goes on. -/
def flushItem (p stream i : Nat) :
    Comp FlushState GossipsubErr Bool := fun s =>
  let item := s.tx.queue i
  let remaining := item.len - item.pos
  let answer := answers s.calls
  let s := { s with calls := s.calls + 1 }
  match answer with
  | .error e =>
    if e = .wouldBlock then (.ok false, s.block config peers p) else (.error e, s)
  | .ok n =>
    let accepted := min n remaining
    let s := s.accept stream i accepted
    if (s.tx.queue i).pos = (s.tx.queue i).len then
      (.ok true, { s with tx := txRemove config peers s.tx i, rpcsSent := s.rpcsSent + 1 })
    else if accepted = 0 then (.ok false, s.block config peers p)
    else (.ok true, s)

/-- One round of the loop of `gossipsub_flush_peer`. -/
def flushStep (p stream nowUs : Nat) :
    Comp FlushState GossipsubErr Bool := fun s =>
  if (s.tx.peer p).queueDepth = 0 then (.ok false, s)
  else
    match (s.tx.peer p).head with
    | none => (.ok false, { s with tx := txSetPeerReady config peers s.tx p false })
    | some i =>
      if config.capacity.maxTxRpcQueue ≤ i ∨ (s.tx.queue i).used = false then
        (.ok false, { s with tx := txSetPeerReady config peers s.tx p false })
      else if txItemStale (s.tx.queue i) nowUs then
        (.ok true, { s with tx := txRemove config peers s.tx i, madeProgress := true })
      else flushItem config peers answers p stream i s

/-- The loop of `gossipsub_flush_peer`. -/
def flushLoop (config : Config) (peers : Nat → Peer) (answers : WriteAnswers)
    (p stream nowUs : Nat) : Nat → Comp FlushState GossipsubErr Unit
  | 0 => pure ()
  | fuel + 1 => flushStep config peers answers p stream nowUs >>= fun keepWriting =>
    if keepWriting then flushLoop config peers answers p stream nowUs fuel else pure ()

/-- The end of `gossipsub_flush_peer`. -/
def flushSettle (p : Nat) (s : FlushState) : FlushState :=
  if (s.tx.peer p).queueDepth ≠ 0 then
    let ready := if s.peerBlocked then false
      else if s.bytesWritten ≠ 0 then true
      else (s.tx.peer p).ready
    { s with tx := txSetPeerReady config peers s.tx p ready }
  else s

/-- `gossipsub_flush_peer` (`gossipsub_tx.c:1180-1316`). Every round that goes on takes an item
    out or a byte of one, which bounds the loop. -/
def flushPeer (p nowUs : Nat) :
    Comp FlushState GossipsubErr Unit := fun s =>
  if config.capacity.maxPeers ≤ p then (.error .invalidArg, s)
  else
    match (peers p).stream with
    | none => (.ok (), { s with tx := txSetPeerReady config peers s.tx p false })
    | some stream =>
      let s := { s with bytesWritten := 0, peerBlocked := false }
      let (result, s) := flushLoop config peers answers p stream nowUs
        (s.tx.queueLen + s.tx.bufferUsed + 1) s
      (result, flushSettle config peers p s)

/-- The loop of `gossipsub_flush_ready_peers`; `fuel` is the number of peers not yet visited. -/
def flushReadyLoop (config : Config) (peers : Nat → Peer) (answers : WriteAnswers) (nowUs : Nat) :
    Nat → Comp FlushState GossipsubErr Unit
  | 0 => pure ()
  | fuel + 1 => fun s =>
    if s.tx.readyCount = 0 then (.ok (), s)
    else
      let p := s.tx.nextPeer
      let s := { s with tx := { s.tx with nextPeer := (p + 1) % config.capacity.maxPeers } }
      if (s.tx.peer p).ready ∧ (s.tx.peer p).queueDepth ≠ 0 then
        (flushPeer config peers answers p nowUs >>= fun _ =>
          flushReadyLoop config peers answers nowUs fuel) s
      else flushReadyLoop config peers answers nowUs fuel s

/-- `gossipsub_flush_ready_peers` (`gossipsub_tx.c:1318-1360`). -/
def flushReadyPeers (nowUs : Nat) : Comp FlushState GossipsubErr Unit :=
  flushReadyLoop config peers answers nowUs config.capacity.maxPeers

end LeanLibp2p.Gossipsub
