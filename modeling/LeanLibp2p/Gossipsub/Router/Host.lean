import LeanLibp2p.Gossipsub.Router.Api
import LeanLibp2p.Gossipsub.Tx.Compact
import LeanLibp2p.Gossipsub.Tx.Flush

/-!
# Host interface

The calls of `gossipsub_host.c`: starting and driving the router, and what it does when streams
open and end and when connections close. The answers of the host to the calls that the router
makes are arguments; the user data that the router attaches to a stream is the index of its slot
in the stream table.
-/

namespace LeanLibp2p.Gossipsub

open LeanLibp2p.Lib

variable (config : Config)

/-- `libp2p_gossipsub_start` (`gossipsub_host.c:62-83`). -/
def start (nowUs : Nat) (r : Router) : Router :=
  { r with
    started := true
    closing := false
    lastDriveUs := nowUs
    nextHeartbeatUs := u64Add nowUs config.mesh.heartbeatIntervalUs }

/-- `libp2p_gossipsub_close` (`gossipsub_host.c:85-115`), less the resets of the streams, which the
    host carries out. -/
def close (r : Router) : Router := { r with closing := true }

/-- The items of a peer that a flush wrote to the end: it took them out of the table. -/
def sentItems (before : Tx) (flushed : FlushState) (p : Nat) : List Nat :=
  (flushed.writes.map HostWrite.item).dedup.filter fun i =>
    (before.queue i).peerIndex = p && !(flushed.tx.queue i).used

/-- Enter into the history which frames a flush wrote to the end. -/
def recordSent (before : Tx) (flushed : FlushState) (history : History) : History :=
  { history with
    sent := fun p => history.sent p ++ (sentItems before flushed p).map before.content }

/-- `gossipsub_flush_ready_peers` on the transmit state of the router. -/
def flushReady (nowUs : Nat) (answers : WriteAnswers) : RouterM Unit := fun r =>
  let res := flushReadyPeers config r.peers answers nowUs ⟨r.tx, 0, [], false, 0, 0, false⟩
  (res.1, { r with tx := res.2.tx, history := recordSent r.tx res.2 r.history })

/-- `libp2p_gossipsub_drive` (`gossipsub_host.c:195-240`). -/
def drive (nowUs : Nat) (answers : WriteAnswers) : RouterM Unit := do
  Comp.update fun r =>
    { r with tx := txDropStale config r.peers nowUs r.tx, lastDriveUs := nowUs }
  Comp.update fun r =>
    if r.started ∧ r.nextHeartbeatUs ≤ nowUs then heartbeat config nowUs r else r
  flushReady config nowUs answers

/-! ## Streams -/

/-- `gossipsub_protocol_on_open` (`gossipsub_host.c:379-467`) up to the user data, which is the result
    beside the peer and whether the stream became its writer. -/
def openStream (stream conn : Nat) (peerId : Except GossipsubErr Bytes)
    (direction : Host.Direction) (version : ProtocolVersion) : RouterM (Nat × Nat × Bool) := do
  let p ← peerFromConn config conn peerId
  let i ← (← allocStream config) |> orFail .limit
  Comp.update fun r => r.setStream i
    { isOpen := true
      stream := some stream
      conn := some conn
      direction := direction
      version := version
      peerIndex := p }
  let r ← Comp.read id
  let selected := decide (direction = .outbound ∧ (r.peers p).stream = none)
  Comp.onlyIf selected do
    Comp.update fun r => { r.setPeer p { r.peers p with
        stream := some stream
        direction := direction
        version := version } with
      tx := r.tx.setPeer p { r.tx.peer p with transportBusy := false }
      history := { r.history with sent := Function.update r.history.sent p [] } }
  return (i, p, selected)

/-- The rest of `gossipsub_protocol_on_open`: an event, and the local subscriptions for a new
    writer. -/
def announceOpen (stream : Nat) (direction : Host.Direction)
    (version : ProtocolVersion) (p : Nat) (selected : Bool) : RouterM Unit := do
  let r ← Comp.read id
  pushEventOrDrop config { (Event.zero .peerOpened).ofPeer (r.peers p) with
    stream := some stream
    direction := direction
    protocolVersion := version }
  Comp.onlyIf selected <| Comp.forOk (fun t => do
    let r ← Comp.read id
    if (r.topics t).used ∧ (r.topics t).localSubscribed then
      continueAfterLocalLimit (enqueueSubscription config p (r.topics t) 1)
    else pure ()) (List.range config.capacity.maxTopics)

/-- `gossipsub_protocol_on_open`. -/
def protocolOnOpen (stream conn : Nat) (peerId : Except GossipsubErr Bytes)
    (direction : Host.Direction) (version : ProtocolVersion) : RouterM Unit := do
  let (_, p, selected) ← openStream config stream conn peerId direction version
  announceOpen config stream direction version p selected

/-- The WRITABLE branch of `gossipsub_protocol_on_event` (`gossipsub_host.c:469-554`) for a stream with
    slot `i`. -/
def streamWritable (i : Nat) (r : Router) : Router :=
  let p := (r.streams i).peerIndex
  if (r.peers p).stream = (r.streams i).stream then
    { r with tx := txMarkPeerReady config r.peers r.tx p }
  else r

/-- The writer of a peer is gone: what was queued for it is dropped and it leaves the mesh. -/
def dropWriter (p : Nat) (r : Router) : Router :=
  let r := { r with tx := dropQueuedPeer config r.peers p r.tx }
  let r := meshRemovePeer config p r
  { r.setPeer p { r.peers p with stream := none } with
    tx := r.tx.setPeer p { r.tx.peer p with transportBusy := false } }

/-- The RESET and CLOSED branch of `gossipsub_protocol_on_event` for a stream with slot `i`, less
    the calls to the host. -/
def streamEnd (i : Nat) : RouterM Unit := do
  let r ← Comp.read id
  let state := r.streams i
  let p := state.peerIndex
  Comp.onlyIf ((r.peers p).stream = state.stream) do
    pushEventOrDrop config { (Event.zero .peerClosed).ofPeer (r.peers p) with
      conn := none
      stream := none
      direction := state.direction
      protocolVersion := state.version }
    Comp.update (dropWriter config p)
  Comp.update fun r => r.setStream i { r.streams i with
    isOpen := false
    stream := none
    conn := none }

/-- The loop of `libp2p_gossipsub_handle_host_event` for the peers of a closed connection. -/
def closePeers (conn : Nat) : RouterM Unit :=
  Comp.forOk (fun p => do
    let r ← Comp.read id
    Comp.onlyIf ((r.peers p).used && (r.peers p).conn = some conn) do
      pushEventOrDrop config { (Event.zero .peerClosed).ofPeer (r.peers p) with
        conn := none
        stream := none }
      Comp.update (dropWriter config p)
      Comp.update fun r => r.setPeer p { r.peers p with conn := none })
    (List.range config.capacity.maxPeers)

/-- The loop of `libp2p_gossipsub_handle_host_event` for the streams of a closed connection. -/
def closeStreams (conn : Nat) (r : Router) : Router :=
  { r with streams := fun i =>
      if i < config.capacity.maxStreams ∧ (r.streams i).isOpen ∧ (r.streams i).conn = some conn then
        { r.streams i with isOpen := false, stream := none, conn := none }
      else r.streams i }

/-- `libp2p_gossipsub_handle_host_event` (`gossipsub_host.c:242-302`) for `CONN_CLOSED`. -/
def connClosed (conn : Nat) : RouterM Unit := do
  closePeers config conn
  Comp.update (closeStreams config conn)

/-- `libp2p_gossipsub_handle_host_event` for `STREAM_OPEN_FAILED`. -/
def streamOpenFailed (reason : GossipsubErr) : RouterM Unit :=
  pushEventOrDrop config { Event.zero .peerFailed with reason := some reason }

end LeanLibp2p.Gossipsub
