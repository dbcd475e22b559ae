import LeanLibp2p.Gossipsub.Tx.Compact
import LeanLibp2p.Gossipsub.Tx.Flush
import LeanLibp2p.Lib.Run

/-!
# Runs of the transmit queue

The transmit state of a router with the peers it reads, and what can happen to it: frames are
enqueued, dropped and written, and writer streams come and go. Beside the state of the code a
system keeps the frames that were enqueued, so that every byte that the host took has an owner.
-/

namespace LeanLibp2p.Gossipsub

open LeanLibp2p.Lib

/-- A transmit state with its history. -/
structure TxSystem where
  peers : Nat → Peer
  tx : Tx
  /-- The frames enqueued so far; a frame is known by its number here. -/
  frames : List Bytes
  /-- The number of the frame in each slot. -/
  frameOf : Nat → Nat
  /-- The streams that have been a writer. -/
  writers : List Nat
  /-- The bytes that the host took on each stream, with the number of their frame. -/
  sent : Nat → List (Nat × UInt8)

namespace TxSystem

/-- A router without peers. -/
def init : TxSystem := ⟨fun _ => .free, .init, [], fun _ => 0, [], fun _ => []⟩

/-- The bytes of frame `t`. -/
def frame (s : TxSystem) (t : Nat) : Bytes := s.frames.getD t []

/-- The bytes of frame `t`, each with the number of the frame. -/
def tagged (s : TxSystem) (t : Nat) : List (Nat × UInt8) := (s.frame t).map (Prod.mk t)

/-- The bytes that the host took in `writes` on one stream. -/
def sentBytes (frameOf : Nat → Nat) (writes : List HostWrite) (stream : Nat) : List (Nat × UInt8) :=
  (writes.filter fun w => w.stream = stream).flatMap fun w => w.bytes.map (Prod.mk (frameOf w.item))

/-- The system while frames are written. -/
def during (s : TxSystem) (f : FlushState) : TxSystem :=
  { s with
    tx := f.tx
    sent := fun stream => s.sent stream ++ sentBytes s.frameOf f.writes stream }

/-- The state in which `gossipsub_flush_peer` and `gossipsub_flush_ready_peers` start. -/
def flushState (s : TxSystem) : FlushState := ⟨s.tx, 0, [], false, 0, 0, false⟩

/-- What an enqueue leaves. -/
def enqueued (s : TxSystem) (result : Except GossipsubErr Nat × Tx) : TxSystem :=
  match result with
  | (.error _, tx) => { s with tx := tx }
  | (.ok i, tx) =>
    { s with
      tx := tx
      frames := s.frames ++ [tx.content i]
      frameOf := Function.update s.frameOf i s.frames.length }

end TxSystem

/-- What can happen to the transmit side of a router. -/
inductive TxAction where
  /-- `gossipsub_enqueue_rpc_with_lifetime`, with and without priority. -/
  | enqueue (p : Nat) (rpc : Rpc) (lifetimeUs : Nat) (priority : Bool) (nowUs : Nat)
  /-- `gossipsub_enqueue_publish_entry_with_lifetime`. -/
  | enqueuePublish (p : Nat) (rpc : Rpc) (messageId : Bytes) (lifetimeUs : Nat) (priority : Bool)
      (nowUs : Nat)
  /-- `gossipsub_drop_queued_publish`, after an IDONTWANT. -/
  | dropPublish (p : Nat) (messageId : Span)
  /-- `gossipsub_tx_drop_stale`. -/
  | dropStale (nowUs : Nat)
  /-- `gossipsub_flush_peer`. -/
  | flushPeer (p nowUs : Nat) (answers : WriteAnswers)
  /-- `gossipsub_flush_ready_peers`. -/
  | flushReadyPeers (nowUs : Nat) (answers : WriteAnswers)
  /-- `gossipsub_tx_mark_peer_ready`, after a WRITABLE event. -/
  | markReady (p : Nat)
  /-- A peer without a writer gets a new stream. -/
  | openWriter (p stream : Nat) (version : ProtocolVersion)
  /-- The writer of a peer is reset or closed, or its connection is. -/
  | closeWriter (p : Nat)

/-- One step of the transmit side. -/
def TxSystem.step (config : Config) (s : TxSystem) : TxAction → TxSystem
  | .enqueue p rpc lifetimeUs priority nowUs =>
    s.enqueued (enqueueRpcWithLifetime config s.peers p rpc lifetimeUs priority nowUs s.tx)
  | .enqueuePublish p rpc messageId lifetimeUs priority nowUs =>
    s.enqueued (enqueuePublishWithLifetime config s.peers p rpc messageId lifetimeUs priority nowUs
      s.tx)
  | .dropPublish p messageId => { s with tx := dropQueuedPublish config s.peers p messageId s.tx }
  | .dropStale nowUs => { s with tx := txDropStale config s.peers nowUs s.tx }
  | .flushPeer p nowUs answers =>
    s.during (flushPeer config s.peers answers p nowUs s.flushState).2
  | .flushReadyPeers nowUs answers =>
    s.during (flushReadyPeers config s.peers answers nowUs s.flushState).2
  | .markReady p => { s with tx := txMarkPeerReady config s.peers s.tx p }
  | .openWriter p stream version =>
    if p < config.capacity.maxPeers ∧ (s.peers p).stream = none ∧ stream ∉ s.writers then
      { s with
        peers := Function.update s.peers p { s.peers p with
          used := true
          stream := some stream
          direction := .outbound
          version := version }
        tx := s.tx.setPeer p { s.tx.peer p with transportBusy := false }
        writers := stream :: s.writers }
    else s
  | .closeWriter p =>
    if p < config.capacity.maxPeers then
      { s with
        peers := Function.update s.peers p { s.peers p with stream := none }
        tx := dropQueuedPeer config s.peers p s.tx }
    else s

/-- A run of the transmit side. -/
abbrev TxSystem.run (config : Config) (s : TxSystem) (actions : List TxAction) : TxSystem :=
  Lib.runFrom (TxSystem.step config) s actions

/-- `bytes` is what `libp2p_gossipsub_rpc_frame_encode` produces for some RPC. -/
def IsRpcFrame (config : Config) (bytes : Bytes) : Prop :=
  ∃ version rpc cap, rpcFrameEncode version config.limits rpc cap = .ok bytes

/-- The bytes that the host took on a stream are whole encoded RPC frames, one after the other,
    and then a prefix of one more such frame; no frame occurs twice. -/
def FrameIntegrity (config : Config) (s : TxSystem) (stream : Nat) : Prop :=
  (∀ frame ∈ s.frames, IsRpcFrame config frame) ∧
  ∃ done last rest, (done ++ [last]).Nodup ∧ (∀ t ∈ done, t < s.frames.length) ∧
    rest <+: s.tagged last ∧ s.sent stream = done.flatMap s.tagged ++ rest

end LeanLibp2p.Gossipsub
