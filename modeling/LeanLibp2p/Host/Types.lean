import LeanLibp2p.Host.Transport
import LeanLibp2p.Lib.Comp
import LeanLibp2p.Lib.Table
import LeanLibp2p.Multiformats.MultistreamSelect

/-!
# The host

The tables of `libp2p_host_t` (`libp2p_host_internal.h:52-142`), the transport and the protocols that
it is configured with, and what it reports. A pointer into one of the tables is a slot number; an
object of the transport is the number that the transport knows it by.
-/

namespace LeanLibp2p.Host

open LeanLibp2p.Lib

/-! ## States -/

/-- `host_state_t`. -/
inductive HostState where
  | init
  | started
  | closing
  | closed
  deriving DecidableEq, Repr

/-- `host_dial_state_t`. -/
inductive DialState where
  | free
  | pending
  | evented
  deriving DecidableEq, Repr

/-- `host_open_state_t`. -/
inductive OpenState where
  | free
  | waitTransport
  | negotiating
  | evented
  deriving DecidableEq, Repr

/-- `host_stream_state_t`. -/
inductive StreamState where
  | free
  | negotiating
  | opened
  | closing
  | closed
  deriving DecidableEq, Repr

/-- `host_negotiation_state_t`. -/
inductive NegotiationState where
  | none
  | outSendMs
  | outSendProtocol
  | outReadMs
  | outReadProtocol
  | inReadMs
  | inReadProtocol
  | inSendProtocol
  | inSendNa
  | inSendLs
  | done
  | failed
  deriving DecidableEq, Repr

/-- `libp2p_host_stream_direction_t`. -/
inductive Direction where
  | inbound
  | outbound
  deriving DecidableEq, Repr

/-- `libp2p_host_protocol_event_kind_t`. -/
inductive EventKind where
  | readable
  | writable
  | reset
  | closed
  deriving DecidableEq, Repr

/-! ## Records

The fields of a record that `memset` cleared are the default ones. -/

/-- `libp2p_host_conn`. -/
structure Conn where
  transportConn : Nat := 0
  streamCount : Nat := 0
  openCount : Nat := 0
  active : Bool := false
  closed : Bool := false
  closeEventPending : Bool := false
  localCloseRequested : Bool := false
  deriving DecidableEq, Repr

/-- `libp2p_host_stream_open`; the protocols are numbers of the registry. -/
structure StreamOpen where
  state : OpenState := .free
  conn : Nat := 0
  transportConn : Nat := 0
  transportStream : Nat := 0
  protocol : Nat := 0
  fallbackProtocol : Option Nat := none
  userData : Nat := 0
  deriving DecidableEq, Repr

/-- `libp2p_host_dial`. -/
structure Dial where
  state : DialState := .free
  transportAttempt : Nat := 0
  userData : Nat := 0
  deriving DecidableEq, Repr

/-- `libp2p_host_stream`; `inFrame` are the bytes `in_frame[0 .. in_len)` and `outFrame` the bytes
    `out_frame[out_pos .. out_len)`. -/
structure Stream where
  conn : Nat := 0
  transportStream : Nat := 0
  protocol : Option Nat := none
  fallbackProtocol : Option Nat := none
  openAttempt : Option Nat := none
  userData : Nat := 0
  state : StreamState := .free
  negState : NegotiationState := .none
  direction : Direction := .inbound
  pendingReadable : Bool := false
  pendingWritable : Bool := false
  pendingReset : Bool := false
  pendingClosed : Bool := false
  outboundMultistreamReady : Bool := false
  outboundOpenEventQueued : Bool := false
  outboundFailEventQueued : Bool := false
  inFrame : Bytes := []
  payload : Bytes := []
  outFrame : Bytes := []
  deriving DecidableEq, Repr

/-! ## Events -/

/-- `libp2p_host_transport_event_t`, with the fields that each type has. The attempt is NULL for a
    connection that was not dialed, and the reason `OK` where there is none. -/
inductive TransportEvent where
  | none
  | connEstablished (conn : Nat) (attempt : Option Nat) (userData : Nat)
  | connClosed (conn : Nat) (attempt : Option Nat) (reason : Option HostErr)
      (appErrorCode transportErrorCode : Nat)
  | dialFailed (attempt : Nat) (reason : Option HostErr) (appErrorCode transportErrorCode : Nat)
  | streamIncoming (conn stream : Nat)
  | streamReadable (stream : Nat)
  | streamWritable (stream : Nat)
  | streamReset (stream : Nat) (reason : Option HostErr) (appErrorCode transportErrorCode : Nat)
  | streamClosed (stream : Nat) (reason : Option HostErr) (appErrorCode transportErrorCode : Nat)
  deriving DecidableEq, Repr

/-- `libp2p_host_event_t`, with the fields that are valid for each type (`libp2p_host.h:363-395`). -/
inductive HostEvent where
  | connEstablished (conn : Nat) (dial : Option Nat) (userData : Nat)
  | connClosed (conn : Nat) (reason : Option HostErr) (locallyInitiated : Bool)
      (appErrorCode transportErrorCode : Nat)
  | dialFailed (dial : Nat) (userData : Nat) (reason : HostErr)
      (appErrorCode transportErrorCode : Nat)
  | streamOpened (conn stream : Nat) (streamOpen : Option Nat) (userData : Nat)
  | streamOpenFailed (conn : Nat) (streamOpen : Option Nat) (userData : Nat) (reason : HostErr)
      (appErrorCode transportErrorCode : Nat)
  | hostClosed
  deriving DecidableEq, Repr

namespace HostEvent

/-- The field `dial`. -/
def dial? : HostEvent → Option Nat
  | connEstablished _ dial _ => dial
  | dialFailed dial .. => some dial
  | _ => none

/-- The field `stream_open`. -/
def streamOpen? : HostEvent → Option Nat
  | streamOpened _ _ streamOpen _ => streamOpen
  | streamOpenFailed _ streamOpen .. => streamOpen
  | _ => none

/-- The field `stream` of a STREAM_OPENED event. -/
def stream? : HostEvent → Option Nat
  | streamOpened _ stream .. => some stream
  | _ => none

/-- The field `conn`. -/
def conn? : HostEvent → Option Nat
  | connEstablished conn .. => some conn
  | connClosed conn .. => some conn
  | streamOpened conn .. => some conn
  | streamOpenFailed conn .. => some conn
  | _ => none

/-- The field `user_data`. -/
def userData : HostEvent → Nat
  | connEstablished _ _ userData => userData
  | dialFailed _ userData .. => userData
  | streamOpened _ _ _ userData => userData
  | streamOpenFailed _ _ userData .. => userData
  | _ => 0

/-- The field `conn` of a CONN_CLOSED event. -/
def closedConn? : HostEvent → Option Nat
  | connClosed conn .. => some conn
  | _ => none

end HostEvent

/-- `libp2p_host_drive_result_t`. -/
structure DriveResult where
  transportEvents : Nat := 0
  negotiationSteps : Nat := 0
  protocolEvents : Nat := 0
  hostEvents : Nat := 0
  madeProgress : Bool := false
  deriving DecidableEq, Repr

/-! ## Configuration -/

/-- `libp2p_host_transport_vtable_t`, as far as the host calls it after initialization. A read gives
    the bytes and whether the stream ends behind them, and a write the number of accepted bytes. -/
structure TransportVtable (τ : Type) where
  drive : Nat → Nat → Comp τ HostErr Unit
  nextEvent : Comp τ HostErr TransportEvent
  dial : Bytes → Nat → Comp τ HostErr Nat
  openStream : Nat → Comp τ HostErr Nat
  connClose : Nat → Nat → Comp τ HostErr Unit
  connRelease : Option (Nat → Comp τ HostErr Unit)
  streamRead : Nat → Nat → Comp τ HostErr (Bytes × Bool)
  streamWrite : Nat → Bytes → Bool → Comp τ HostErr Nat
  streamFinish : Nat → Comp τ HostErr Unit
  streamReset : Nat → Nat → Comp τ HostErr Unit
  streamStopSending : Nat → Nat → Comp τ HostErr Unit
  /-- A read stays within the buffer. -/
  streamRead_le : ∀ stream room env bytes fin env',
    streamRead stream room env = (.ok (bytes, fin), env') → bytes.length ≤ room
  /-- No more is accepted than was offered. -/
  streamWrite_le : ∀ stream data fin env accepted env',
    streamWrite stream data fin env = (.ok accepted, env') → accepted ≤ data.length

/-- What a protocol callback can change of the stream it is called for: the bytes that the host
    still holds, the user data, and, through reads and writes, the transport. The state of the
    protocol itself is part of `env`. -/
structure CallbackState (τ : Type) where
  inFrame : Bytes
  userData : Nat
  env : τ

/-- `libp2p_host_protocol_t`. A callback is given the slot of the stream and its record. -/
structure Protocol (τ : Type) where
  id : Bytes
  onOpen : Nat → Stream → Comp (CallbackState τ) HostErr Unit
  onEvent : Option (Nat → Stream → EventKind → Comp (CallbackState τ) HostErr Unit)

/-- `HOST_NEGOTIATION_PAYLOAD_CAP`. -/
def hostNegotiationPayloadCap : Nat := multistreamSelectMaxPayloadBytes

/-- `HOST_NEGOTIATION_FRAME_CAP`. -/
def hostNegotiationFrameCap : Nat := multistreamSelectMaxEncodedMessageBytes

/-- What `libp2p_host_handle` asks of a protocol id (`libp2p_host_core.c:600-641`). -/
def ProtocolId (id : Bytes) : Prop := id ≠ [] ∧ id.length ≤ hostNegotiationPayloadCap

instance (id : Bytes) : Decidable (ProtocolId id) := by
  unfold ProtocolId
  infer_instance

/-- `libp2p_host_config_t` and the registry, as `host_config_validate` (`libp2p_host_core.c:221-251`)
    and `libp2p_host_handle` accept them. -/
structure HostConfig (τ : Type) where
  transport : TransportVtable τ
  protocols : List (Protocol τ)
  maxConnections : Nat
  maxStreamsPerConn : Nat
  maxPendingDials : Nat
  maxPendingStreamOpens : Nat
  eventCapacity : Nat
  maxNegotiationSteps : Nat
  maxConnections_pos : 0 < maxConnections
  maxStreamsPerConn_pos : 0 < maxStreamsPerConn
  maxPendingDials_pos : 0 < maxPendingDials
  maxPendingStreamOpens_pos : 0 < maxPendingStreamOpens
  maxNegotiationSteps_pos : 0 < maxNegotiationSteps
  eventCapacity_gt : maxPendingStreamOpens < eventCapacity
  protocolIds : ∀ protocol ∈ protocols, ProtocolId protocol.id

/-- `stream_capacity` (`libp2p_host_core.c:294-300`). -/
def HostConfig.streamCapacity {τ : Type} (config : HostConfig τ) : Nat :=
  config.maxConnections * config.maxStreamsPerConn

/-! ## The state -/

end LeanLibp2p.Host

namespace LeanLibp2p

open Host in
/-- `libp2p_host_t`. -/
structure Host where
  state : HostState
  conns : Nat → Conn
  streams : Nat → Stream
  dials : Nat → Dial
  opens : Nat → StreamOpen
  /-- The queue of `event_len` events from `event_head` on. -/
  events : List HostEvent
  openCursor : Nat
  negotiationCursor : Nat
  protocolCursor : Nat
  hostClosedEventQueued : Bool
  closeAppErrorCode : Nat

end LeanLibp2p

namespace LeanLibp2p.Host

open LeanLibp2p.Lib

/-- After `libp2p_host_start`. -/
def started : Host where
  state := .started
  conns := fun _ => {}
  streams := fun _ => {}
  dials := fun _ => {}
  opens := fun _ => {}
  events := []
  openCursor := 0
  negotiationCursor := 0
  protocolCursor := 0
  hostClosedEventQueued := false
  closeAppErrorCode := 0

/-- The callbacks of a protocol. -/
inductive Callback where
  | onOpen
  | onEvent (kind : EventKind)
  deriving DecidableEq, Repr

/-- What the host does, in the order in which it does it. -/
inductive Note where
  /-- The transport handed over an event when the host was as given. -/
  | took (host : Host) (event : TransportEvent)
  /-- An event was queued by the host as given. -/
  | pushed (host : Host) (event : HostEvent)
  /-- An event found the queue full. -/
  | dropped (event : HostEvent)
  /-- The application was handed an event. -/
  | popped (event : HostEvent)
  /-- A connection slot came into use, or was cleared by the host as given. -/
  | connAllocated (conn : Nat)
  | connCleared (host : Host) (conn : Nat)
  /-- A stream slot of the host as given came into use, or one was released. -/
  | streamAllocated (host : Host) (stream : Nat)
  | streamReleased (stream : Nat)
  /-- A callback of a protocol returned. -/
  | called (stream : Nat) (callback : Callback) (res : Except HostErr Unit)
  /-- `libp2p_host_open_stream` returned an open, or `libp2p_host_stream_open_cancel` took it back. -/
  | opened (streamOpen : Nat) (userData : Nat)
  | cancelled (streamOpen : Nat)
  /-- `libp2p_host_dial` returned a dial for an attempt of the transport. -/
  | dialed (dial : Nat) (userData : Nat) (attempt : Nat)
  /-- `libp2p_host_close` returned. -/
  | closeReturned (res : Except HostErr Unit)

/-- The host, the counters of the running `libp2p_host_drive`, and the transport with the
    application's protocols. `trace` is for the specifications; no function reads it. -/
structure World (τ : Type) where
  host : Host
  result : DriveResult
  env : τ
  trace : List Note

/-- A function of the host. -/
abbrev HostM (τ α : Type) : Type := Comp (World τ) HostErr α

section Operations

variable {τ α : Type}

/-- Change the host. -/
def modifyHost (f : Host → Host) : HostM τ Unit := Comp.update fun w => { w with host := f w.host }

/-- Change the counters. -/
def modifyResult (f : DriveResult → DriveResult) : HostM τ Unit :=
  Comp.update fun w => { w with result := f w.result }

/-- Record what was done. -/
def note (n : Note) : HostM τ Unit := Comp.update fun w => { w with trace := w.trace ++ [n] }

/-- A call of the transport. -/
def onTransport (c : Comp τ HostErr α) : HostM τ α :=
  Comp.zoom World.env (fun env w => { w with env := env }) c

end Operations

/-- Replace a slot. -/
def setConn (i : Nat) (conn : Conn) (host : Host) : Host :=
  { host with conns := Function.update host.conns i conn }

def setStream (i : Nat) (stream : Stream) (host : Host) : Host :=
  { host with streams := Function.update host.streams i stream }

def setDial (i : Nat) (dial : Dial) (host : Host) : Host :=
  { host with dials := Function.update host.dials i dial }

def setOpen (i : Nat) (streamOpen : StreamOpen) (host : Host) : Host :=
  { host with opens := Function.update host.opens i streamOpen }

end LeanLibp2p.Host
