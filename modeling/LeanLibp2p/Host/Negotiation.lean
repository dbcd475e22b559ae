import LeanLibp2p.Host.Types

/-!
# Negotiation steps

One side of a multistream-select negotiation (`libp2p_host_streams.c:319-891`). A step works on the stream
and on what the transport holds for it; what it means for the rest of the host is its outcome.
-/

namespace LeanLibp2p.Host

open LeanLibp2p.Lib

/-- A stream that is negotiated, the transport under it, and `made_progress` of the step. -/
structure Negotiation (τ : Type) where
  stream : Stream
  env : τ
  madeProgress : Bool

/-- What a step leads to. -/
inductive Outcome where
  /-- The negotiation goes on. -/
  | goesOn
  /-- `host_stream_complete_negotiation` is called. -/
  | completes
  /-- The fallback protocol takes the place of the protocol, also in the open. -/
  | fallsBack
  /-- `host_stream_fail_negotiation` is called with `LIBP2P_HOST_ERR_UNSUPPORTED`. -/
  | unsupported
  deriving DecidableEq, Repr

/-- `host_ms_err` (`libp2p_host_streams.c:17-42`). -/
def hostMsErr : MultistreamSelectErr → HostErr
  | .bufTooSmall => .bufTooSmall
  | .notAvailable => .notFound
  | .wouldBlock => .wouldBlock
  | _ => .negotiation

section Steps

variable {τ : Type} (config : HostConfig τ)

/-- A part of a step. -/
abbrev NegotiationM (τ α : Type) : Type := Comp (Negotiation τ) HostErr α

/-- Change the stream. -/
def modifyStream (f : Stream → Stream) : NegotiationM τ Unit :=
  Comp.update fun n => { n with stream := f n.stream }

/-- `*made_progress = 1`. -/
def makeProgress : NegotiationM τ Unit := Comp.update fun n => { n with madeProgress := true }

/-- A call of the transport. -/
def onEnv {α : Type} (c : Comp τ HostErr α) : NegotiationM τ α :=
  Comp.zoom Negotiation.env (fun env n => { n with env := env }) c

/-! ## Messages -/

/-- `host_stream_prepare_message` (`libp2p_host_streams.c:319-343`). -/
def hostStreamPrepareMessage (payload : Bytes) : NegotiationM τ Unit :=
  match multistreamSelectMessageEncode payload hostNegotiationFrameCap with
  | .error e => Comp.fail (hostMsErr e)
  | .ok frame => modifyStream fun stream => { stream with outFrame := frame }

/-- `host_stream_prepare_ls` (`libp2p_host_streams.c:345-369`). -/
def hostStreamPrepareLs : NegotiationM τ Unit :=
  match multistreamSelectLsResponsePayloadEncode (config.protocols.map Protocol.id)
      hostNegotiationPayloadCap with
  | .error e => Comp.fail (hostMsErr e)
  | .ok payload => do
    modifyStream fun stream => { stream with payload := payload }
    hostStreamPrepareMessage payload

/-- `host_stream_send_prepared` (`libp2p_host_streams.c:371-416`). -/
def hostStreamSendPrepared : NegotiationM τ Unit := do
  let n ← Comp.read id
  if n.stream.outFrame = [] then pure ()
  else do
    let accepted ← onEnv
      (config.transport.streamWrite n.stream.transportStream n.stream.outFrame false)
    modifyStream fun stream => { stream with outFrame := stream.outFrame.drop accepted }
    Comp.onlyIf (accepted ≠ 0) makeProgress
    if n.stream.outFrame.drop accepted ≠ [] ∧ accepted = 0 then Comp.fail .wouldBlock else pure ()

/-- A message that the decoder took from the front of `in_frame`. -/
def takeMessage (payload : Bytes) (consumed : Nat) (stream : Stream) : Stream :=
  { stream with payload := payload, inFrame := stream.inFrame.drop consumed }

/-- `libp2p_multistream_select_message_decode` on `in_frame`. -/
def decodeInFrame (stream : Stream) : Except MultistreamSelectErr (Bytes × Nat) :=
  multistreamSelectMessageDecode stream.inFrame hostNegotiationPayloadCap

/-- `host_stream_read_message` (`libp2p_host_streams.c:418-521`). It comes back without an error exactly
    when it sets `out_message_ready`. -/
def hostStreamReadMessage : NegotiationM τ Unit := do
  let n ← Comp.read id
  match decodeInFrame n.stream with
  | .ok (payload, consumed) => do
    modifyStream (takeMessage payload consumed)
    makeProgress
  | .error .truncated =>
    if n.stream.inFrame.length = hostNegotiationFrameCap then Comp.fail .negotiation
    else do
      let (bytes, fin) ← onEnv (config.transport.streamRead n.stream.transportStream
        (hostNegotiationFrameCap - n.stream.inFrame.length))
      modifyStream fun stream => { stream with inFrame := stream.inFrame ++ bytes }
      Comp.onlyIf (bytes ≠ []) makeProgress
      if bytes = [] ∧ fin then Comp.fail .negotiation
      else do
        let n ← Comp.read id
        match decodeInFrame n.stream with
        | .ok (payload, consumed) => do
          modifyStream (takeMessage payload consumed)
          makeProgress
        | .error .truncated => Comp.fail .wouldBlock
        | .error e => Comp.fail (hostMsErr e)
  | .error e => Comp.fail (hostMsErr e)

/-! ## Steps -/

/-- `host_protocol_find` (`libp2p_host_protocols.c:5-40`): the number of a registered protocol. -/
def hostProtocolFind (id : Bytes) : Except HostErr Nat :=
  if id = [] then .error .invalidArg
  else
    match config.protocols.findIdx? fun protocol => protocol.id == id with
    | some i => .ok i
    | none => .error .notFound

/-- The id of a registered protocol. -/
def protocolId (i : Nat) : Option Bytes := config.protocols[i]?.map Protocol.id

/-- `stream->neg_state = state`. -/
def setNegState (state : NegotiationState) : NegotiationM τ Unit :=
  modifyStream fun stream => { stream with negState := state }

/-- Go on to the next state when the prepared message is sent. -/
def sendThen (next : NegotiationM τ Outcome) : NegotiationM τ Outcome := do
  hostStreamSendPrepared config
  let n ← Comp.read id
  if n.stream.outFrame = [] then next else pure .goesOn

/-- Set the state and note the progress. -/
def advance (state : NegotiationState) : NegotiationM τ Outcome := do
  setNegState state
  makeProgress
  pure .goesOn

/-- `host_stream_outbound_step` (`libp2p_host_streams.c:630-769`). -/
def hostStreamOutboundStep : NegotiationM τ Outcome := do
  let n ← Comp.read id
  match n.stream.negState with
  | .outSendMs => do
    Comp.onlyIf (n.stream.outFrame = []) (hostStreamPrepareMessage multistreamSelectProtocolId)
    sendThen config (advance .outSendProtocol)
  | .outSendProtocol =>
    match n.stream.protocol.bind (protocolId config) with
    | none => Comp.fail .negotiation
    | some protocol => do
      Comp.onlyIf (n.stream.outFrame = []) (hostStreamPrepareMessage protocol)
      sendThen config
        (advance (if n.stream.outboundMultistreamReady then .outReadProtocol else .outReadMs))
  | .outReadMs => do
    hostStreamReadMessage config
    let n ← Comp.read id
    if n.stream.payload = multistreamSelectProtocolId then do
      modifyStream fun stream =>
        { stream with outboundMultistreamReady := true, negState := .outReadProtocol }
      pure .goesOn
    else Comp.fail .negotiation
  | .outReadProtocol => do
    hostStreamReadMessage config
    let n ← Comp.read id
    if n.stream.protocol.bind (protocolId config) = some n.stream.payload then pure .completes
    else if n.stream.payload = multistreamSelectNa then
      match n.stream.fallbackProtocol with
      | some fallback => do
        modifyStream fun stream =>
          { stream with
            protocol := some fallback
            fallbackProtocol := none
            payload := []
            negState := .outSendProtocol }
        makeProgress
        pure .fallsBack
      | none => pure .unsupported
    else Comp.fail .negotiation
  | _ => Comp.fail .state

/-- `host_stream_inbound_step` (`libp2p_host_streams.c:771-891`). -/
def hostStreamInboundStep : NegotiationM τ Outcome := do
  let n ← Comp.read id
  match n.stream.negState with
  | .inReadMs => do
    hostStreamReadMessage config
    let n ← Comp.read id
    if n.stream.payload = multistreamSelectProtocolId then do
      hostStreamPrepareMessage multistreamSelectProtocolId
      setNegState .inSendProtocol
      pure .goesOn
    else Comp.fail .negotiation
  | .inSendProtocol =>
    sendThen config
      (if n.stream.protocol ≠ none then pure .completes else advance .inReadProtocol)
  | .inReadProtocol => do
    hostStreamReadMessage config
    let n ← Comp.read id
    if n.stream.payload = multistreamSelectLs then do
      hostStreamPrepareLs config
      setNegState .inSendLs
      pure .goesOn
    else
      match hostProtocolFind config n.stream.payload with
      | .ok protocol => do
        modifyStream fun stream => { stream with protocol := some protocol }
        hostStreamPrepareMessage ((protocolId config protocol).getD [])
        setNegState .inSendProtocol
        pure .goesOn
      | .error _ => do
        hostStreamPrepareMessage multistreamSelectNa
        setNegState .inSendNa
        pure .goesOn
  | .inSendNa => sendThen config (advance .inReadProtocol)
  | .inSendLs => sendThen config (advance .inReadProtocol)
  | _ => Comp.fail .state

/-- The step for the direction of the stream. -/
def hostStreamDirectionStep : NegotiationM τ Outcome := do
  let n ← Comp.read id
  match n.stream.direction with
  | .outbound => hostStreamOutboundStep config
  | .inbound => hostStreamInboundStep config

end Steps

end LeanLibp2p.Host
