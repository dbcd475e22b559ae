import LeanLibp2p.Host.Negotiation
import LeanLibp2p.Host.Tables

/-!
# Streams of the host

How a stream is opened, negotiated, handed to its protocol, and read (`libp2p_host_streams.c:523-1310`,
`libp2p_host_protocols.c:42-93`).
-/

namespace LeanLibp2p.Host

open LeanLibp2p.Lib

variable {τ : Type} (config : HostConfig τ)

/-! ## Protocol callbacks -/

/-- Run a callback for a stream. -/
def runCallback (i : Nat) (callback : Comp (CallbackState τ) HostErr Unit) : HostM τ Unit := fun w =>
  let stream := w.host.streams i
  let ran := callback ⟨stream.inFrame, stream.userData, w.env⟩
  (ran.1, { w with
    host := setStream i
      { stream with inFrame := ran.2.inFrame, userData := ran.2.userData } w.host
    env := ran.2.env })

/-- A callback that is counted and noted. -/
def callProtocol (i : Nat) (name : Callback) (callback : Comp (CallbackState τ) HostErr Unit) :
    HostM τ Unit := do
  let res ← Comp.result (runCallback i callback)
  note (.called i name res)
  modifyResult fun result =>
    { result with protocolEvents := result.protocolEvents + 1, madeProgress := true }
  Comp.ofResult res

/-- The protocol of a stream. -/
def streamProtocol (stream : Stream) : Option (Protocol τ) :=
  stream.protocol.bind fun p => config.protocols[p]?

/-- `host_protocol_open` (`libp2p_host_protocols.c:42-66`). -/
def hostProtocolOpen (i : Nat) : HostM τ Unit := do
  let w ← Comp.read id
  match streamProtocol config (w.host.streams i) with
  | none => Comp.fail .invalidArg
  | some protocol => callProtocol i .onOpen (protocol.onOpen i (w.host.streams i))

/-- `host_protocol_call_event` (`libp2p_host_protocols.c:68-93`). -/
def hostProtocolCallEvent (i : Nat) (kind : EventKind) : HostM τ Unit := do
  let w ← Comp.read id
  let res ← Comp.result (match (streamProtocol config (w.host.streams i)).bind Protocol.onEvent with
    | none => pure ()
    | some onEvent => callProtocol i (.onEvent kind) (onEvent i (w.host.streams i) kind))
  match res with
  | .ok () => pure ()
  | .error e => do
    let _ ← Comp.result (onTransport
      (config.transport.streamReset (w.host.streams i).transportStream 0))
    hostStreamRelease config i
    Comp.fail e

/-! ## The end of a negotiation -/

/-- The user data of an open. -/
def openUserData (openAttempt : Option Nat) (host : LeanLibp2p.Host) : Nat :=
  match openAttempt with
  | some o => (host.opens o).userData
  | none => 0

/-- `open->state = HOST_OPEN_EVENTED`, if there is an open. -/
def eventOpen (openAttempt : Option Nat) (host : LeanLibp2p.Host) : LeanLibp2p.Host :=
  match openAttempt with
  | some o => setOpenState o .evented host
  | none => host

/-- Release an open, if there is one. -/
def releaseOpen (openAttempt : Option Nat) (host : LeanLibp2p.Host) : LeanLibp2p.Host :=
  match openAttempt with
  | some o => hostOpenRelease o host
  | none => host

/-- Change a stream. -/
def updateStream (i : Nat) (f : Stream → Stream) (host : LeanLibp2p.Host) : LeanLibp2p.Host :=
  setStream i (f (host.streams i)) host

/-- The event of the transport that ended a stream: whether it was a reset, and its error codes. -/
structure Termination where
  reset : Bool
  appErrorCode : Nat
  transportErrorCode : Nat
  deriving DecidableEq, Repr

/-- `host_stream_fail_negotiation` (`libp2p_host_streams.c:575-628`). -/
def hostStreamFailNegotiation (i : Nat) (reason : HostErr) (termination : Option Termination) :
    HostM τ Unit := do
  modifyHost (updateStream i fun stream => { stream with negState := .failed })
  let w ← Comp.read id
  let stream := w.host.streams i
  Comp.onlyIf (termination.all Termination.reset) do
    let _ ← Comp.result (onTransport (config.transport.streamReset stream.transportStream 0))
    pure ()
  let res ← if stream.direction = .outbound ∧ stream.outboundFailEventQueued = false then do
      let event := HostEvent.streamOpenFailed stream.conn stream.openAttempt
        (openUserData stream.openAttempt w.host) reason
        (termination.elim 0 Termination.appErrorCode)
        (termination.elim 0 Termination.transportErrorCode)
      modifyHost (eventOpen stream.openAttempt)
      modifyHost (updateStream i fun stream => { stream with outboundFailEventQueued := true })
      let res ← Comp.result (hostEventPush config event)
      match res with
      | .ok () => pure ()
      | .error _ => modifyHost (releaseOpen stream.openAttempt)
      pure res
    else pure (.ok ())
  hostStreamRelease config i
  Comp.ofResult res

/-- `host_stream_complete_negotiation` (`libp2p_host_streams.c:523-573`). -/
def hostStreamCompleteNegotiation (i : Nat) : HostM τ Unit := do
  modifyHost (updateStream i fun stream => { stream with negState := .done, state := .opened })
  match ← Comp.result (hostProtocolOpen config i) with
  | .error _ => hostStreamFailNegotiation config i .protocol none
  | .ok () => do
    modifyHost (updateStream i fun stream =>
      { stream with pendingWritable := true, pendingReadable := true })
    let w ← Comp.read id
    let stream := w.host.streams i
    if stream.direction = .outbound ∧ stream.outboundOpenEventQueued = false then do
      let event := HostEvent.streamOpened stream.conn i stream.openAttempt
        (openUserData stream.openAttempt w.host)
      modifyHost (eventOpen stream.openAttempt)
      modifyHost (updateStream i fun stream => { stream with outboundOpenEventQueued := true })
      match ← Comp.result (hostEventPush config event) with
      | .ok () => pure ()
      | .error e => do
        modifyHost (releaseOpen stream.openAttempt)
        modifyHost (updateStream i fun stream => { stream with openAttempt := none })
        Comp.fail e
    else pure ()

/-! ## Negotiation -/

/-- A step on the stream, and whether it made progress. -/
def negotiateStream (i : Nat) : HostM τ (Except HostErr Outcome × Bool) := fun w =>
  let ran := hostStreamDirectionStep config ⟨w.host.streams i, w.env, false⟩
  (.ok (ran.1, ran.2.madeProgress),
    { w with host := setStream i ran.2.stream w.host, env := ran.2.env })

/-- The open follows its stream to the fallback protocol. -/
def fallBackOpen (i : Nat) (host : LeanLibp2p.Host) : LeanLibp2p.Host :=
  match (host.streams i).openAttempt with
  | some o =>
    setOpen o { host.opens o with
      protocol := (host.streams i).protocol.getD 0
      fallbackProtocol := none } host
  | none => host

/-- What a step leads to. -/
def settleStream (i : Nat) : Outcome → HostM τ Unit
  | .goesOn => pure ()
  | .completes => hostStreamCompleteNegotiation config i
  | .fallsBack => modifyHost (fallBackOpen i)
  | .unsupported => hostStreamFailNegotiation config i .unsupported none

/-- `host_stream_negotiation_step` (`libp2p_host_streams.c:893-938`): `out_progress`. -/
def hostStreamNegotiationStep (i : Nat) : HostM τ Bool := do
  modifyResult fun result => { result with negotiationSteps := result.negotiationSteps + 1 }
  let (outcome, madeProgress) ← negotiateStream config i
  Comp.onlyIf madeProgress (modifyResult fun result => { result with madeProgress := true })
  let res ← Comp.result (Comp.ofResult outcome >>= settleStream config i)
  match res with
  | .ok () => pure madeProgress
  | .error e =>
    if e = .wouldBlock then pure madeProgress
    else do
      hostStreamFailNegotiation config i e none
      pure true

/-- The loop of `host_stream_negotiation_one` (`libp2p_host_streams.c:940-980`) over the streams that are
    left to check. -/
def hostStreamNegotiationOne : Nat → HostM τ Bool
  | 0 => pure false
  | left + 1 => do
    let w ← Comp.read id
    if config.maxNegotiationSteps ≤ w.result.negotiationSteps then pure false
    else do
      let index := w.host.negotiationCursor % config.streamCapacity
      modifyHost fun host =>
        { host with negotiationCursor := (host.negotiationCursor + 1) % config.streamCapacity }
      let progress ←
        if (w.host.streams index).state = .negotiating then hostStreamNegotiationStep config index
        else pure false
      if progress then pure true else hostStreamNegotiationOne left

/-! ## Opens -/

/-- An open ends with a STREAM_OPEN_FAILED event before it has a stream. -/
def hostOpenFail (o : Nat) (reason : HostErr) : HostM τ Unit := do
  let w ← Comp.read id
  let event := HostEvent.streamOpenFailed (w.host.opens o).conn (some o) (w.host.opens o).userData
    reason 0 0
  modifyHost (setOpenState o .evented)
  match ← Comp.result (hostEventPush config event) with
  | .ok () => pure ()
  | .error e => do
    modifyHost (hostOpenRelease o)
    Comp.fail e

/-- The open is negotiated on a stream of the transport. -/
def startOpen (o transportStream : Nat) (host : LeanLibp2p.Host) : LeanLibp2p.Host :=
  setOpen o { host.opens o with transportStream := transportStream, state := .negotiating } host

/-- The body of the loop of `host_stream_open_retry_one` for an open that waits. -/
def hostStreamOpenRetry (o : Nat) : HostM τ Bool := do
  let w ← Comp.read id
  match ← Comp.result (onTransport
    (config.transport.openStream (w.host.opens o).transportConn)) with
  | .ok transportStream => do
    modifyHost (startOpen o transportStream)
    match ← Comp.result (hostStreamAlloc config (w.host.opens o).conn transportStream .outbound
      (some (w.host.opens o).protocol) (some o)) with
    | .ok _ => do
      modifyResult fun result => { result with madeProgress := true }
      pure true
    | .error e => do
      let _ ← Comp.result (onTransport (config.transport.streamReset transportStream 0))
      hostOpenFail config o e
      pure true
  | .error e =>
    if e = .wouldBlock then pure false
    else do
      hostOpenFail config o e
      pure true

/-- The loop of `host_stream_open_retry_one` (`libp2p_host_streams.c:982-1091`) over the slots that this
    drive has not checked: whether there was progress, and the slots left. -/
def hostStreamOpenRetryOne : Nat → HostM τ (Bool × Nat)
  | 0 => pure (false, 0)
  | left + 1 => do
    let w ← Comp.read id
    let index := w.host.openCursor % config.maxPendingStreamOpens
    modifyHost fun host =>
      { host with openCursor := (host.openCursor + 1) % config.maxPendingStreamOpens }
    let progress ←
      if (w.host.opens index).state = .waitTransport then hostStreamOpenRetry config index
      else pure false
    if progress then pure (true, left) else hostStreamOpenRetryOne left

/-! ## Calls of the application -/

/-- `host_validate_started` (`libp2p_host_core.c:405-425`). -/
def hostValidateStarted (host : LeanLibp2p.Host) : Except HostErr Unit :=
  match host.state with
  | .closed => .error .closed
  | .init => .error .state
  | _ => .ok ()

/-- The checks of `host_open_stream_with_optional_fallback`: the protocol, and the fallback
    protocol. -/
def hostOpenStreamCheck (conn : Nat) (protocolId : Bytes) (fallbackId : Option Bytes)
    (host : LeanLibp2p.Host) : Except HostErr (Nat × Option Nat) := do
  hostValidateStarted host
  if (host.conns conn).active = false ∨ protocolId = [] ∨ fallbackId = some [] then
    .error .invalidArg
  else if host.state = .closing then .error .closed
  else do
    hostConnValidateUsable conn host
    let protocol ← hostProtocolFind config protocolId
    match fallbackId with
    | none => pure (protocol, none)
    | some id => do
      let fallback ← hostProtocolFind config id
      pure (protocol, some fallback)

/-- An open that waits for a stream of the transport. -/
def waitOpen (o conn protocol : Nat) (fallbackProtocol : Option Nat) (userData : Nat)
    (host : LeanLibp2p.Host) : LeanLibp2p.Host :=
  setConn conn { host.conns conn with openCount := (host.conns conn).openCount + 1 }
    (setOpen o
      { state := .waitTransport
        conn := conn
        transportConn := (host.conns conn).transportConn
        protocol := protocol
        fallbackProtocol := fallbackProtocol
        userData := userData } host)

/-- `host_open_stream_with_optional_fallback` (`libp2p_host_streams.c:1093-1201`): the open. -/
def hostOpenStream (conn : Nat) (protocolId : Bytes) (fallbackId : Option Bytes) (userData : Nat) :
    HostM τ Nat := do
  let w ← Comp.read id
  let (protocol, fallbackProtocol) ← Comp.ofResult
    (hostOpenStreamCheck config conn protocolId fallbackId w.host)
  match freeOpen config w.host with
  | none => Comp.fail .limit
  | some o => do
    modifyHost (waitOpen o conn protocol fallbackProtocol userData)
    match ← Comp.result (onTransport
      (config.transport.openStream (w.host.conns conn).transportConn)) with
    | .ok transportStream => do
      modifyHost (startOpen o transportStream)
      match ← Comp.result (hostStreamAlloc config conn transportStream .outbound (some protocol)
        (some o)) with
      | .ok _ => do
        note (.opened o userData)
        pure o
      | .error e => do
        let _ ← Comp.result (onTransport (config.transport.streamReset transportStream 0))
        modifyHost (hostOpenRelease o)
        Comp.fail e
    | .error e =>
      if e = .wouldBlock then do
        note (.opened o userData)
        pure o
      else do
        modifyHost (hostOpenRelease o)
        Comp.fail e

/-- The stream that is negotiated for an open. -/
def openStreamOf (o : Nat) (host : LeanLibp2p.Host) : Option Nat :=
  findSlot config.streamCapacity fun i =>
    (host.streams i).state != .free && (host.streams i).openAttempt == some o

/-- `libp2p_host_stream_open_cancel` (`libp2p_host_streams.c:1247-1310`). -/
def hostStreamOpenCancel (o expectedUserData : Nat) : HostM τ Unit := do
  let w ← Comp.read id
  Comp.ofResult (hostValidateStarted w.host)
  let streamOpen := w.host.opens o
  if expectedUserData = 0 then Comp.fail .invalidArg
  else if streamOpen.state = .free ∨ streamOpen.userData ≠ expectedUserData then Comp.fail .notFound
  else
    match streamOpen.state with
    | .waitTransport => do
      modifyHost (hostOpenRelease o)
      note (.cancelled o)
      let _ ← Comp.result (hostConnTryRecycle config streamOpen.conn)
      pure ()
    | .negotiating =>
      match openStreamOf config o w.host with
      | none => Comp.fail .state
      | some i => do
        let _ ← Comp.result (onTransport
          (config.transport.streamReset (w.host.streams i).transportStream 0))
        modifyHost (updateStream i fun stream => { stream with openAttempt := none })
        hostStreamRelease config i
        modifyHost (hostOpenRelease o)
        note (.cancelled o)
        let _ ← Comp.result (hostConnTryRecycle config streamOpen.conn)
        pure ()
    | _ => Comp.fail .state

/-- `libp2p_host_stream_read` (`libp2p_host_streams.c:1386-1441`). -/
def hostStreamRead (i outLen : Nat) : HostM τ (Bytes × Bool) := do
  let w ← Comp.read id
  Comp.ofResult (hostValidateStarted w.host)
  let stream := w.host.streams i
  if stream.state ≠ .opened then Comp.fail .invalidArg
  else if stream.inFrame ≠ [] then do
    modifyHost (updateStream i fun stream => { stream with inFrame := stream.inFrame.drop outLen })
    pure (stream.inFrame.take outLen, false)
  else onTransport (config.transport.streamRead stream.transportStream outLen)

/-- `libp2p_host_stream_write` (`libp2p_host_streams.c:1443-1473`). -/
def hostStreamWrite (i : Nat) (data : Bytes) (fin : Bool) : HostM τ Nat := do
  let w ← Comp.read id
  Comp.ofResult (hostValidateStarted w.host)
  if (w.host.streams i).state ≠ .opened then Comp.fail .invalidArg
  else onTransport (config.transport.streamWrite (w.host.streams i).transportStream data fin)

/-- `libp2p_host_stream_finish`, `libp2p_host_stream_reset` and `libp2p_host_stream_stop_sending`
    (`libp2p_host_streams.c:1475-1545`) hand their call to the transport. -/
def hostStreamCall (i : Nat) (call : Nat → Comp τ HostErr Unit) : HostM τ Unit := do
  let w ← Comp.read id
  Comp.ofResult (hostValidateStarted w.host)
  if (w.host.streams i).state = .free then Comp.fail .invalidArg
  else onTransport (call (w.host.streams i).transportStream)

def hostStreamFinish (i : Nat) : HostM τ Unit :=
  hostStreamCall i config.transport.streamFinish

def hostStreamReset (i appErrorCode : Nat) : HostM τ Unit :=
  hostStreamCall i fun stream => config.transport.streamReset stream appErrorCode

def hostStreamStopSending (i appErrorCode : Nat) : HostM τ Unit :=
  hostStreamCall i fun stream => config.transport.streamStopSending stream appErrorCode

/-- `libp2p_host_stream_set_user_data` (`libp2p_host_streams.c:1312-1326`) for a slot in use. -/
def hostStreamSetUserData (i userData : Nat) : HostM τ Unit :=
  modifyHost fun host =>
    if (host.streams i).state = .free then host
    else updateStream i (fun stream => { stream with userData := userData }) host

end LeanLibp2p.Host
