import LeanLibp2p.Host.Types

/-!
# The tables of the host

Slots are found, taken and released (`libp2p_host_streams.c:44-318`, `libp2p_host_dial.c`), and events
are queued (`libp2p_host_core.c:427-456`). A connection slot is kept until the connection is closed, the
application has seen its CONN_CLOSED event, and no stream or open refers to it.
-/

namespace LeanLibp2p.Host

open LeanLibp2p.Lib

variable {τ : Type} (config : HostConfig τ)

/-- `host_event_push` (`libp2p_host_core.c:427-456`). -/
def hostEventPush (event : HostEvent) : HostM τ Unit := do
  let w ← Comp.read id
  if w.host.events.length = config.eventCapacity then do
    note (.dropped event)
    Comp.fail .limit
  else do
    note (.pushed w.host event)
    modifyHost fun host => { host with events := host.events ++ [event] }
    modifyResult fun result =>
      { result with hostEvents := result.hostEvents + 1, madeProgress := true }

/-! ## Connections -/

/-- `host_conn_find` (`libp2p_host_streams.c:44-65`). -/
def hostConnFind (transportConn : Nat) (host : LeanLibp2p.Host) : Option Nat :=
  findSlot config.maxConnections fun i =>
    (host.conns i).active && (host.conns i).transportConn == transportConn

/-- The first free connection slot. -/
def freeConn (host : LeanLibp2p.Host) : Option Nat :=
  findSlot config.maxConnections fun i => !(host.conns i).active

/-- `host_conn_alloc` (`libp2p_host_streams.c:67-114`). -/
def hostConnAlloc (transportConn : Nat) : HostM τ Nat := do
  let w ← Comp.read id
  match hostConnFind config transportConn w.host with
  | some existing => pure existing
  | none =>
    match freeConn config w.host with
    | none => Comp.fail .limit
    | some i => do
      modifyHost (setConn i { transportConn := transportConn, active := true })
      note (.connAllocated i)
      pure i

/-- `host_conn_validate_usable` (`libp2p_host_streams.c:116-134`). A slot that is not in use has no
    host, which is `INVALID_ARG`. -/
def hostConnValidateUsable (i : Nat) (host : LeanLibp2p.Host) : Except HostErr Unit :=
  if (host.conns i).active = false then .error .invalidArg
  else if (host.conns i).closed then .error .closed
  else .ok ()

/-- Nothing refers to a closed connection any more. -/
def Idle (conn : Conn) : Prop :=
  conn.active = true ∧ conn.closed = true ∧ conn.closeEventPending = false ∧
    conn.streamCount = 0 ∧ conn.openCount = 0

instance (conn : Conn) : Decidable (Idle conn) := by
  unfold Idle
  infer_instance

/-- `conn_release` of the transport, if it has one: whether the slot may be cleared. -/
def hostConnRelease (transportConn : Nat) : HostM τ Bool :=
  match config.transport.connRelease with
  | none => pure true
  | some connRelease => do
    match ← Comp.result (onTransport (connRelease transportConn)) with
    | .ok () => pure true
    | .error e => if e = .wouldBlock then pure false else Comp.fail e

/-- `host_conn_try_recycle` (`libp2p_host_streams.c:136-164`). -/
def hostConnTryRecycle (i : Nat) : HostM τ Unit := do
  let w ← Comp.read id
  if Idle (w.host.conns i) then do
    let released ← hostConnRelease config (w.host.conns i).transportConn
    Comp.onlyIf released do
      let w ← Comp.read id
      note (.connCleared w.host i)
      modifyHost (setConn i {})
  else pure ()

/-- `host_conn_recycle_quiet` (`libp2p_host_streams.c:166-180`). -/
def hostConnRecycleQuiet : HostM τ Unit :=
  Comp.forOk (hostConnTryRecycle config) (List.range config.maxConnections)

/-! ## Dials -/

/-- `host_dial_find` (`libp2p_host_dial.c:5-25`). -/
def hostDialFind (transportAttempt : Nat) (host : LeanLibp2p.Host) : Option Nat :=
  findSlot config.maxPendingDials fun i =>
    (host.dials i).state == .pending && (host.dials i).transportAttempt == transportAttempt

/-- The first free dial slot. -/
def freeDial (host : LeanLibp2p.Host) : Option Nat :=
  findSlot config.maxPendingDials fun i => (host.dials i).state == .free

/-- `host_dial_mark_evented` (`libp2p_host_dial.c:27-41`). -/
def hostDialMarkEvented (i : Nat) (host : LeanLibp2p.Host) : LeanLibp2p.Host :=
  setDial i { host.dials i with state := .evented } host

/-! ## Opens -/

/-- The first free open. -/
def freeOpen (host : LeanLibp2p.Host) : Option Nat :=
  findSlot config.maxPendingStreamOpens fun i => (host.opens i).state == .free

/-- `open->state = state`. -/
def setOpenState (i : Nat) (state : OpenState) (host : LeanLibp2p.Host) : LeanLibp2p.Host :=
  setOpen i { host.opens i with state := state } host

/-- `host_open_release` (`libp2p_host_streams.c:263-276`). -/
def hostOpenRelease (i : Nat) (host : LeanLibp2p.Host) : LeanLibp2p.Host :=
  if (host.opens i).state = .free then host
  else
    let conn := (host.opens i).conn
    setOpen i {} (setConn conn
      { host.conns conn with openCount := (host.conns conn).openCount - 1 } host)

/-! ## Streams -/

/-- `host_stream_find` (`libp2p_host_streams.c:182-202`). -/
def hostStreamFind (transportStream : Nat) (host : LeanLibp2p.Host) : Option Nat :=
  findSlot config.streamCapacity fun i =>
    (host.streams i).state != .free && (host.streams i).transportStream == transportStream

/-- The first free stream slot. -/
def freeStream (host : LeanLibp2p.Host) : Option Nat :=
  findSlot config.streamCapacity fun i => (host.streams i).state == .free

/-- The stream that `host_stream_alloc` sets up. -/
def freshStream (conn transportStream : Nat) (direction : Direction) (protocol : Option Nat)
    (openAttempt : Option Nat) (host : LeanLibp2p.Host) : Stream where
  conn := conn
  transportStream := transportStream
  protocol := protocol
  fallbackProtocol := openAttempt.bind fun o => (host.opens o).fallbackProtocol
  openAttempt := openAttempt
  direction := direction
  state := .negotiating
  negState := match direction with
    | .outbound => .outSendMs
    | .inbound => .inReadMs

/-- `host_stream_alloc` (`libp2p_host_streams.c:204-261`). -/
def hostStreamAlloc (conn transportStream : Nat) (direction : Direction) (protocol : Option Nat)
    (openAttempt : Option Nat) : HostM τ Nat := do
  let w ← Comp.read id
  if config.maxStreamsPerConn ≤ (w.host.conns conn).streamCount then Comp.fail .limit
  else
    match freeStream config w.host with
    | none => Comp.fail .limit
    | some i => do
      modifyHost fun host =>
        setConn conn { host.conns conn with streamCount := (host.conns conn).streamCount + 1 }
          (setStream i (freshStream conn transportStream direction protocol openAttempt host) host)
      note (.streamAllocated w.host i)
      pure i

/-- The tables after `host_stream_release`, before the connection is looked at: an open that has no
    event yet goes with its stream. -/
def hostStreamDrop (i : Nat) (host : LeanLibp2p.Host) : LeanLibp2p.Host :=
  let stream := host.streams i
  let host := setConn stream.conn
    { host.conns stream.conn with streamCount := (host.conns stream.conn).streamCount - 1 } host
  let host := match stream.openAttempt with
    | some o => if (host.opens o).state = .evented then host else hostOpenRelease o host
    | none => host
  setStream i {} host

/-- `host_stream_release` (`libp2p_host_streams.c:278-295`). -/
def hostStreamRelease (i : Nat) : HostM τ Unit := do
  let w ← Comp.read id
  if (w.host.streams i).state = .free then pure ()
  else do
    modifyHost (hostStreamDrop i)
    note (.streamReleased i)
    let _ ← Comp.result (hostConnTryRecycle config (w.host.streams i).conn)
    pure ()

end LeanLibp2p.Host
