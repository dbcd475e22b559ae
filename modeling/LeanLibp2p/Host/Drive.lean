import LeanLibp2p.Host.Streams

/-!
# Driving the host

`libp2p_host_drive` (`libp2p_host_drive.c`) takes events from the transport, retries opens, negotiates,
calls protocols, clears connection slots and completes a shutdown, in rounds of one of each, as long
as there is progress. The application dials, closes and takes events (`libp2p_host_dial.c`,
`libp2p_host_core.c:668-807`).
-/

namespace LeanLibp2p.Host

open LeanLibp2p.Lib

variable {τ : Type} (config : HostConfig τ)

/-! ## Events of the transport -/

/-- `host_transport_event_conn_established` (`libp2p_host_drive.c:5-35`). -/
def hostTransportEventConnEstablished (conn : Nat) (attempt : Option Nat) (userData : Nat) :
    HostM τ Unit := do
  let i ← hostConnAlloc config conn
  let w ← Comp.read id
  match hostDialFind config (attempt.getD conn) w.host with
  | some d => do
    modifyHost (hostDialMarkEvented d)
    hostEventPush config (.connEstablished i (some d) (w.host.dials d).userData)
  | none => hostEventPush config (.connEstablished i none userData)

/-- `host_conn_fail_waiting_opens` (`libp2p_host_drive.c:37-76`). -/
def hostConnFailWaitingOpens (i : Nat) : HostM τ Unit :=
  Comp.forOk
    (fun o => do
      let w ← Comp.read id
      if (w.host.opens o).state = .waitTransport ∧ (w.host.opens o).conn = i then
        hostOpenFail config o .closed
      else pure ())
    (List.range config.maxPendingStreamOpens)

/-- The body of the loop of `host_conn_close_streams` for a stream of the connection. -/
def hostConnCloseStream (s : Nat) : HostM τ Unit := do
  let w ← Comp.read id
  match (w.host.streams s).state with
  | .negotiating => hostStreamFailNegotiation config s .closed none
  | .opened => modifyHost (updateStream s fun stream => { stream with pendingClosed := true })
  | _ => hostStreamRelease config s

/-- `host_conn_close_streams` (`libp2p_host_drive.c:78-120`). -/
def hostConnCloseStreams (i : Nat) : HostM τ Unit :=
  Comp.forOk
    (fun s => do
      let w ← Comp.read id
      if (w.host.streams s).state ≠ .free ∧ (w.host.streams s).conn = i then
        hostConnCloseStream config s
      else pure ())
    (List.range config.streamCapacity)

/-- A dial ends with a DIAL_FAILED event. -/
def hostDialFail (d : Nat) (reason : Option HostErr) (appErrorCode transportErrorCode : Nat) :
    HostM τ Unit := do
  let w ← Comp.read id
  modifyHost (hostDialMarkEvented d)
  hostEventPush config (.dialFailed d (w.host.dials d).userData (reason.getD .transport)
    appErrorCode transportErrorCode)

/-- The connection of a CONN_CLOSED event is known. -/
def hostConnClosed (i : Nat) (reason : Option HostErr) (appErrorCode transportErrorCode : Nat) :
    HostM τ Unit := do
  let w ← Comp.read id
  if (w.host.conns i).closed then pure ()
  else do
    hostConnFailWaitingOpens config i
    hostConnCloseStreams config i
    let w ← Comp.read id
    modifyHost (setConn i { w.host.conns i with closed := true, closeEventPending := true })
    hostEventPush config (.connClosed i reason (w.host.conns i).localCloseRequested appErrorCode
      transportErrorCode)

/-- `host_transport_event_conn_closed` (`libp2p_host_drive.c:122-176`). -/
def hostTransportEventConnClosed (conn : Nat) (attempt : Option Nat) (reason : Option HostErr)
    (appErrorCode transportErrorCode : Nat) : HostM τ Unit := do
  let w ← Comp.read id
  match hostConnFind config conn w.host, hostDialFind config (attempt.getD conn) w.host with
  | some i, _ => hostConnClosed config i reason appErrorCode transportErrorCode
  | none, some d => hostDialFail config d reason appErrorCode transportErrorCode
  | none, none => pure ()

/-- `host_transport_event_dial_failed` (`libp2p_host_drive.c:178-202`). -/
def hostTransportEventDialFailed (attempt : Nat) (reason : Option HostErr)
    (appErrorCode transportErrorCode : Nat) : HostM τ Unit := do
  let w ← Comp.read id
  match hostDialFind config attempt w.host with
  | some d => hostDialFail config d reason appErrorCode transportErrorCode
  | none => pure ()

/-- `host_transport_event_stream_incoming` (`libp2p_host_drive.c:204-240`). -/
def hostTransportEventStreamIncoming (conn stream : Nat) : HostM τ Unit := do
  let w ← Comp.read id
  match hostConnFind config conn w.host with
  | none => Comp.fail .state
  | some i =>
    match hostConnValidateUsable i w.host with
    | .error _ => do
      let _ ← Comp.result (onTransport (config.transport.streamReset stream 0))
      pure ()
    | .ok () => do
      match ← Comp.result (hostStreamAlloc config i stream .inbound none none) with
      | .ok _ => pure ()
      | .error _ => do
        let _ ← Comp.result (onTransport (config.transport.streamReset stream 0))
        pure ()

/-- The reason of a stream that ended while it was negotiated. -/
def endReason (reason : Option HostErr) : HostErr := reason.getD .closed

/-- `host_transport_event_stream_mark` (`libp2p_host_drive.c:242-295`) for a stream that ends: `mark` sets
    the pending bit. -/
def hostStreamEnd (s : Nat) (mark : Stream → Stream) (reason : Option HostErr)
    (termination : Termination) : HostM τ Unit := do
  let w ← Comp.read id
  if (w.host.streams s).state = .negotiating then
    hostStreamFailNegotiation config s (endReason reason) (some termination)
  else modifyHost (updateStream s mark)

/-- `host_transport_event_stream_mark` with the stream that the event is for. -/
def hostTransportEventStreamMark (stream : Nat) (mark : Nat → HostM τ Unit) : HostM τ Unit := do
  let w ← Comp.read id
  match hostStreamFind config stream w.host with
  | none => pure ()
  | some s => mark s

/-- `host_transport_event_process` (`libp2p_host_drive.c:297-330`). -/
def hostTransportEventProcess : TransportEvent → HostM τ Unit
  | .none => pure ()
  | .connEstablished conn attempt userData =>
    hostTransportEventConnEstablished config conn attempt userData
  | .connClosed conn attempt reason appErrorCode transportErrorCode =>
    hostTransportEventConnClosed config conn attempt reason appErrorCode transportErrorCode
  | .dialFailed attempt reason appErrorCode transportErrorCode =>
    hostTransportEventDialFailed config attempt reason appErrorCode transportErrorCode
  | .streamIncoming conn stream => hostTransportEventStreamIncoming config conn stream
  | .streamReadable stream =>
    hostTransportEventStreamMark config stream fun s =>
      modifyHost (updateStream s fun stream => { stream with pendingReadable := true })
  | .streamWritable stream =>
    hostTransportEventStreamMark config stream fun s =>
      modifyHost (updateStream s fun stream => { stream with pendingWritable := true })
  | .streamReset stream reason appErrorCode transportErrorCode =>
    hostTransportEventStreamMark config stream fun s =>
      hostStreamEnd config s (fun stream => { stream with pendingReset := true }) reason
        ⟨true, appErrorCode, transportErrorCode⟩
  | .streamClosed stream reason appErrorCode transportErrorCode =>
    hostTransportEventStreamMark config stream fun s =>
      hostStreamEnd config s (fun stream => { stream with pendingClosed := true }) reason
        ⟨false, appErrorCode, transportErrorCode⟩

/-- `host_transport_event_one` (`libp2p_host_drive.c:332-363`): `out_progress`. -/
def hostTransportEventOne : HostM τ Bool := do
  match ← Comp.result (onTransport config.transport.nextEvent) with
  | .ok event => do
    let w ← Comp.read id
    note (.took w.host event)
    modifyResult fun result =>
      { result with transportEvents := result.transportEvents + 1, madeProgress := true }
    hostTransportEventProcess config event
    pure true
  | .error e => if e = .wouldBlock then pure false else Comp.fail .transport

/-- `host_transport_event_capacity_available` (`libp2p_host_drive.c:365-369`). -/
def hostTransportEventCapacityAvailable (host : LeanLibp2p.Host) : Prop :=
  config.maxPendingStreamOpens < config.eventCapacity - host.events.length

instance (host : LeanLibp2p.Host) : Decidable (hostTransportEventCapacityAvailable config host) := by
  unfold hostTransportEventCapacityAvailable
  infer_instance

/-! ## Events of the protocols -/

/-- The pending event of a stream that comes first, and the stream without its bit. -/
def pendingEvent (stream : Stream) : Option (EventKind × Stream) :=
  if stream.pendingReset then some (.reset, { stream with pendingReset := false })
  else if stream.pendingClosed then some (.closed, { stream with pendingClosed := false })
  else if stream.pendingReadable then some (.readable, { stream with pendingReadable := false })
  else if stream.pendingWritable then some (.writable, { stream with pendingWritable := false })
  else none

/-- A pending event is handed to the protocol; behind CLOSED the stream is released. -/
def hostProtocolEvent (i : Nat) (kind : EventKind) (stream : Stream) : HostM τ Unit := do
  modifyHost (setStream i stream)
  let res ← Comp.result (hostProtocolCallEvent config i kind)
  Comp.onlyIf (kind = .closed) (hostStreamRelease config i)
  Comp.ofResult res

/-- The loop of `host_protocol_event_one` (`libp2p_host_protocols.c:95-174`) over the streams that are
    left to check: `out_progress`. -/
def hostProtocolEventOne : Nat → HostM τ Bool
  | 0 => pure false
  | left + 1 => do
    let w ← Comp.read id
    let index := w.host.protocolCursor % config.streamCapacity
    modifyHost fun host =>
      { host with protocolCursor := (host.protocolCursor + 1) % config.streamCapacity }
    match if (w.host.streams index).state = .opened then pendingEvent (w.host.streams index)
        else none with
    | some (kind, stream) => do
      hostProtocolEvent config index kind stream
      pure true
    | none => hostProtocolEventOne left

/-! ## The end of the host -/

/-- `host_has_active_work` (`libp2p_host_drive.c:371-410`). -/
def hostHasActiveWork (host : LeanLibp2p.Host) : Bool :=
  (List.range config.maxConnections).any
      (fun i => (host.conns i).active && !(host.conns i).closed) ||
    (List.range config.streamCapacity).any
      (fun i => (host.streams i).state != .free && (host.streams i).state != .closed) ||
    (List.range config.maxPendingDials).any (fun i => (host.dials i).state == .pending) ||
    (List.range config.maxPendingStreamOpens).any
      (fun i => (host.opens i).state == .waitTransport || (host.opens i).state == .negotiating)

/-- `host_close_maybe_complete` (`libp2p_host_drive.c:412-436`): `out_progress`. -/
def hostCloseMaybeComplete : HostM τ Bool := do
  let w ← Comp.read id
  if w.host.state = .closing ∧ w.host.hostClosedEventQueued = false ∧
      hostHasActiveWork config w.host = false then do
    hostEventPush config .hostClosed
    modifyHost fun host => { host with hostClosedEventQueued := true, state := .closed }
    pure true
  else pure false

/-! ## Drive -/

/-- `LIBP2P_HOST_READY_ALL`. -/
def hostReadyAll : Nat := 15

/-- Run a part of a round unless it is held back; the default is no progress. -/
def whenever {α : Type} (b : Prop) [Decidable b] (default : α) (c : HostM τ α) : HostM τ α :=
  if b then c else pure default

/-- A round of `libp2p_host_drive` (`libp2p_host_drive.c:468-517`): whether there was progress, and the
    opens that are left to check. -/
def hostDriveRound (openSlotsLeft : Nat) : HostM τ (Bool × Nat) := do
  let w ← Comp.read id
  let transportProgress ← whenever (hostTransportEventCapacityAvailable config w.host) false
    (hostTransportEventOne config)
  let w ← Comp.read id
  let (openProgress, openSlotsLeft) ← whenever (w.host.events.length < config.eventCapacity)
    (false, openSlotsLeft) (hostStreamOpenRetryOne config openSlotsLeft)
  let w ← Comp.read id
  let negotiationProgress ← whenever (w.host.events.length < config.eventCapacity) false
    (hostStreamNegotiationOne config config.streamCapacity)
  let protocolProgress ← hostProtocolEventOne config config.streamCapacity
  hostConnRecycleQuiet config
  let w ← Comp.read id
  let closeProgress ← whenever (w.host.events.length < config.eventCapacity) false
    (hostCloseMaybeComplete config)
  pure (transportProgress || openProgress || negotiationProgress || protocolProgress ||
    closeProgress, openSlotsLeft)

/-- The rounds of `libp2p_host_drive`. -/
def hostDriveLoop : Nat → Nat → HostM τ Unit
  | 0, _ => pure ()
  | guard + 1, openSlotsLeft => do
    let (progress, openSlotsLeft) ← hostDriveRound config openSlotsLeft
    if progress then hostDriveLoop guard openSlotsLeft else pure ()

/-- `guard_limit`. -/
def hostGuardLimit : Nat :=
  config.eventCapacity + config.streamCapacity + config.maxPendingStreamOpens +
    config.maxNegotiationSteps + 8

/-- `libp2p_host_drive` (`libp2p_host_drive.c:438-526`). -/
def hostDrive (now ready : Nat) : HostM τ Unit := do
  modifyResult fun _ => {}
  let w ← Comp.read id
  Comp.ofResult (hostValidateStarted w.host)
  if hostReadyAll < ready then Comp.fail .invalidArg
  else do
    whenever (hostTransportEventCapacityAvailable config w.host) ()
      (onTransport (config.transport.drive now ready))
    hostDriveLoop config (hostGuardLimit config) config.maxPendingStreamOpens

/-! ## Calls of the application -/

/-- `libp2p_host_conn_close` (`libp2p_host_drive.c:636-657`). -/
def hostConnClose (i appErrorCode : Nat) : HostM τ Unit := do
  let w ← Comp.read id
  Comp.ofResult (hostValidateStarted w.host)
  Comp.ofResult (hostConnValidateUsable i w.host)
  onTransport (config.transport.connClose (w.host.conns i).transportConn appErrorCode)
  modifyHost fun host => setConn i { host.conns i with localCloseRequested := true } host

/-- The body of the loop of `libp2p_host_close`. -/
def hostCloseConn (appErrorCode i : Nat) : HostM τ Unit := do
  let w ← Comp.read id
  if (w.host.conns i).active = true ∧ (w.host.conns i).closed = false then do
    onTransport (config.transport.connClose (w.host.conns i).transportConn appErrorCode)
    modifyHost fun host => setConn i { host.conns i with localCloseRequested := true } host
  else pure ()

/-- `libp2p_host_close` (`libp2p_host_core.c:668-703`), less its note. -/
def hostCloseBody (appErrorCode : Nat) : HostM τ Unit := do
  let w ← Comp.read id
  Comp.ofResult (hostValidateStarted w.host)
  if w.host.state = .closing then pure ()
  else do
    modifyHost fun host => { host with state := .closing, closeAppErrorCode := appErrorCode }
    Comp.forOk (hostCloseConn config appErrorCode) (List.range config.maxConnections)

/-- `libp2p_host_close`. -/
def hostClose (appErrorCode : Nat) : HostM τ Unit := do
  let res ← Comp.result (hostCloseBody config appErrorCode)
  note (.closeReturned res)
  Comp.ofResult res

/-- `libp2p_host_dial` (`libp2p_host_dial.c:67-116`): the dial. -/
def hostDial (multiaddr : Bytes) (userData : Nat) : HostM τ Nat := do
  let w ← Comp.read id
  Comp.ofResult (hostValidateStarted w.host)
  if multiaddr = [] then Comp.fail .invalidArg
  else if w.host.state = .closing then Comp.fail .closed
  else
    match freeDial config w.host with
    | none => Comp.fail .limit
    | some d => do
      modifyHost (setDial d { state := .pending })
      match ← Comp.result (onTransport (config.transport.dial multiaddr userData)) with
      | .ok transportAttempt => do
        modifyHost (setDial d
          { state := .pending, transportAttempt := transportAttempt, userData := userData })
        note (.dialed d userData transportAttempt)
        pure d
      | .error e => do
        modifyHost fun host => setDial d { host.dials d with state := .free } host
        Comp.fail e

/-- The dial of an event is free again. -/
def releaseDial (dial : Option Nat) (host : LeanLibp2p.Host) : LeanLibp2p.Host :=
  match dial with
  | some d => setDial d { host.dials d with state := .free } host
  | none => host

/-- The stream of a STREAM_OPENED event, unless its slot has another open by now, has none. -/
def forgetOpen (stream : Option Nat) (o : Nat) (host : LeanLibp2p.Host) : LeanLibp2p.Host :=
  match stream with
  | some s =>
    if (host.streams s).openAttempt = some o then
      updateStream s (fun stream => { stream with openAttempt := none }) host
    else host
  | none => host

/-- What taking an event frees: its dial, and its open. -/
def releaseEvent (event : HostEvent) (host : LeanLibp2p.Host) : LeanLibp2p.Host :=
  let host := releaseDial event.dial? host
  match event.streamOpen? with
  | some o => hostOpenRelease o (forgetOpen event.stream? o host)
  | none => host

/-- `host_validate_any` holds of an initialized host, so `libp2p_host_next_event`
    (`libp2p_host_core.c:745-807`) only fails when there is no event or a connection cannot be
    released. -/
def hostNextEvent : HostM τ HostEvent := do
  let w ← Comp.read id
  match w.host.events with
  | [] => Comp.fail .wouldBlock
  | event :: events => do
    modifyHost fun host => releaseEvent event { host with events := events }
    note (.popped event)
    match event.streamOpen? with
    | some o => hostConnTryRecycle config (w.host.opens o).conn
    | none => pure ()
    match event.closedConn? with
    | some i => do
      modifyHost fun host => setConn i { host.conns i with closeEventPending := false } host
      hostConnTryRecycle config i
    | none => pure ()
    pure event

end LeanLibp2p.Host
