import LeanLibp2p.Gossipsub.Router.Footprint
import LeanLibp2p.Lib.Run

/-!
# Runs of a router

Everything that can happen to a router: calls of the application, callbacks and events of the
host, and frames that arrive. A node is a router with the application that uses it, of which only
the events it took and the messages it accepted are kept.
-/

namespace LeanLibp2p.Gossipsub

open LeanLibp2p.Lib

variable (config : Config)

/-- The decode arrays of `gossipsub_stream_decode_available` (`gossipsub_rx.c:749-866`). -/
def decodeStorage : DecodeStorage :=
  { subscriptionCapacity := 64
    publishCapacity := 16
    ihaveCapacity := 32
    iwantCapacity := 32
    graftCapacity := 32
    pruneCapacity := 32
    idontwantCapacity := 32
    messageIdCapacity := 1024
    peerInfoCapacity := 32 }

/-- One round of the loop of `gossipsub_stream_decode_available`: the body of a frame that was
    received on the stream with slot `i`. The time that `gossipsub_protocol_on_event` passes on is
    `last_drive_us`. -/
def receive (i : Nat) (body : Bytes) : RouterM Unit := do
  let r ← Comp.read id
  if i < config.capacity.maxStreams ∧ (r.streams i).isOpen then do
    let rpc ← Comp.ofResult
      (rpcBodyDecode (r.streams i).version config.limits decodeStorage body)
    processRpc config (r.streams i).peerIndex rpc r.lastDriveUs
  else pure ()

/-- A body that is not for an open stream, or is not an RPC, changes nothing. -/
theorem receive_cases (i : Nat) (body : Bytes) (r : Router) :
    (receive config i body r).2 = r ∨
    ∃ rpc, (i < config.capacity.maxStreams ∧ (r.streams i).isOpen = true) ∧
      rpcBodyDecode (r.streams i).version config.limits decodeStorage body = .ok rpc ∧
      receive config i body r =
        processRpc config (r.streams i).peerIndex rpc r.lastDriveUs r := by
  unfold receive
  rw [Comp.read_id_bind]
  split
  · rename_i hopen
    cases hdecode : rpcBodyDecode (r.streams i).version config.limits decodeStorage body with
    | error e => exact .inl rfl
    | ok rpc => exact .inr ⟨rpc, hopen, rfl, rfl⟩
  · exact .inl rfl

/-- The protocols that `libp2p_gossipsub_protocols` registers. -/
inductive StreamProtocol where
  | v11
  | v12
  deriving DecidableEq, Repr

/-- The version in the protocol user data. -/
def StreamProtocol.version : StreamProtocol → ProtocolVersion
  | .v11 => .v11
  | .v12 => .v12

/-- What can happen to a router. -/
inductive Action where
  /-- `libp2p_gossipsub_start`. -/
  | start (nowUs : Nat)
  /-- `libp2p_gossipsub_close`. -/
  | close
  /-- `libp2p_gossipsub_drive`, with the answers of the host to the writes. -/
  | drive (nowUs : Nat) (answers : WriteAnswers)
  /-- `libp2p_gossipsub_subscribe`. -/
  | subscribe (request : TopicConfig)
  /-- `libp2p_gossipsub_unsubscribe`. -/
  | unsubscribe (topic : Span)
  /-- `libp2p_gossipsub_publish`. -/
  | publish (request : Publish) (outLen : Option Nat)
  /-- `libp2p_gossipsub_report_validation`, for the `k`-th event that the application took. -/
  | report (k : Nat) (value : ValidationResult)
  /-- `libp2p_gossipsub_next_event`. -/
  | nextEvent
  /-- `libp2p_gossipsub_set_peer_explicit`. -/
  | setPeerExplicit (peerId : Bytes) (isExplicit : Bool)
  /-- `gossipsub_protocol_on_open`. -/
  | streamOpen (stream conn : Nat) (peerId : Except GossipsubErr Bytes)
      (direction : Host.Direction) (protocol : StreamProtocol)
  /-- A frame body that READABLE callbacks brought together. -/
  | receive (i : Nat) (body : Bytes)
  /-- A WRITABLE callback. -/
  | writable (i : Nat)
  /-- A RESET or CLOSED callback. -/
  | streamEnd (i : Nat)
  /-- A `CONN_CLOSED` event of the host. -/
  | connClosed (conn : Nat)
  /-- A `STREAM_OPEN_FAILED` event of the host. -/
  | streamOpenFailed (reason : GossipsubErr)

/-- The token that the application reports about: that of the `k`-th event it took. -/
def reportedToken (received : List Event) (k : Nat) : Option Nat :=
  received[k]?.bind Event.validation

/-- What an action does to the router. -/
def Action.comp (received : List Event) : Action → RouterM Unit
  | .start nowUs => Comp.update (Gossipsub.start config nowUs)
  | .close => Comp.update Gossipsub.close
  | .drive nowUs answers => Gossipsub.drive config nowUs answers
  | .subscribe request => Gossipsub.subscribe config request
  | .unsubscribe topic => Gossipsub.unsubscribe config topic
  | .publish request outLen => do
    let _ ← Gossipsub.publish config request outLen
  | .report k value =>
    match reportedToken received k with
    | none => pure ()
    | some v => reportValidation config v value
  | .nextEvent => do
    let _ ← Gossipsub.nextEvent config
  | .setPeerExplicit peerId isExplicit => Gossipsub.setPeerExplicit config peerId isExplicit
  | .streamOpen stream conn peerId direction protocol =>
    protocolOnOpen config stream conn peerId direction protocol.version
  | .receive i body => Gossipsub.receive config i body
  | .writable i => Comp.update (streamWritable config i)
  | .streamEnd i => Gossipsub.streamEnd config i
  | .connClosed conn => Gossipsub.connClosed config conn
  | .streamOpenFailed reason => Gossipsub.streamOpenFailed config reason

/-! ## Frames -/

/-- The parts of a router that an action may change. -/
def Action.parts : Action → List Part
  | .start _ | .close => [.clock]
  | .drive _ _ => [.tx, .clock, .idontwantSent, .backoff, .grafts, .mesh, .random, .queued, .mcache,
      .seen, .idontwant, .validations, .sent]
  | .subscribe _ => [.topics, .tx, .grafts, .mesh, .random]
  | .unsubscribe _ => [.topics, .tx, .mesh, .backoff, .random]
  | .publish _ _ => [.topics, .mcache, .messages, .seen, .accepted, .tx, .idontwantSent, .unwanted,
      .queued]
  | .report _ _ => [.tx, .idontwantSent, .unwanted, .queued, .validations]
  | .nextEvent => [.events]
  | .setPeerExplicit _ _ => [.peers]
  | .streamOpen _ _ _ _ _ => [.peers, .identities, .idontwantSent, .streams, .tx, .sent, .events,
      .validations]
  | .receive _ _ => [.topics, .peerTopics, .events, .validations, .tx, .grafts, .mesh, .random,
      .idontwantSent, .unwanted, .queued, .mcache, .messages, .seen, .accepted, .idontwant, .backoff]
  | .writable _ => [.tx]
  | .streamEnd _ | .connClosed _ => [.events, .validations, .tx, .mesh, .peers, .streams]
  | .streamOpenFailed _ => [.events, .validations]

theorem receive_touches (i : Nat) (body : Bytes) :
    Touches (Action.receive i body).parts (Gossipsub.receive config i body) :=
  .bind (.read _) fun _ => .ite (.bind (.ofResult _) fun _ => processRpc_touches ..) (.pure _)

theorem openStream_touches (stream conn : Nat)
    (peerId : Except GossipsubErr Bytes) (direction : Host.Direction) (version : ProtocolVersion) :
    Touches [.peers, .identities, .idontwantSent, .streams, .tx, .sent]
      (openStream config stream conn peerId direction version) := by
  have hpeer : ∀ (r r' : Router) (p : Nat) (tx : Tx) (sent : Nat → List Bytes) (peer : Peer),
      r' = { r.setPeer p peer with tx := tx, history := { r.history with sent := sent } } →
      Router.Agrees [.peers, .identities, .idontwantSent, .streams, .tx, .sent] r r' := by
    intro r r' p tx sent peer hr'
    subst hr'
    refine ⟨fun part hpart => ?_⟩
    cases part <;> first | exact absurd (by decide) hpart | rfl
  refine .bind (.bind (.ofResult _) fun peerId => .bind ?_ fun o => .bind (orFail_touches ..)
    fun p => .bind (.update fun r => hpeer _ _ p _ _ _ rfl) fun _ => .pure _) fun p => ?_
  · refine ⟨fun r => ?_⟩
    unfold findOrAddPeer
    split
    · exact .refl r
    · split
      · exact .refl r
      · exact hpeer _ _ _ _ _ _ rfl
  · refine .bind ((allocStream_touches config).mono (by decide)) fun o => ?_
    refine .bind (orFail_touches ..) fun i => ?_
    refine .bind (.update fun r => (setStream_agrees r i _).mono (by decide)) fun _ => ?_
    refine .bind (.read _) fun r => .bind (.onlyIf (.update fun r => ?_)) fun _ => .pure _
    exact hpeer _ _ p _ _ _ rfl

/-- An action changes its own parts only. -/
theorem Action.touches (received : List Event) (action : Action) :
    Touches action.parts (action.comp config received) := by
  cases action with
  | start nowUs => exact .update fun r => start_agrees config nowUs r
  | close => exact .update fun r => close_agrees r
  | drive nowUs answers => exact drive_touches ..
  | subscribe request => exact subscribe_touches ..
  | unsubscribe topic => exact unsubscribe_touches ..
  | publish request outLen => exact .bind (publish_touches ..) fun _ => .pure _
  | report k value =>
    rw [Action.comp]
    cases reportedToken received k with
    | none => exact .pure _
    | some v => exact reportValidation_touches ..
  | nextEvent => exact .bind (nextEvent_touches _) fun _ => .pure _
  | setPeerExplicit peerId isExplicit => exact setPeerExplicit_touches ..
  | streamOpen stream conn peerId direction protocol =>
    rw [Action.parts]
    refine .bind ((openStream_touches ..).mono (by decide)) fun x => ?_
    exact (announceOpen_touches ..).mono (by decide)
  | receive i body => exact receive_touches ..
  | writable i => exact .update fun r => streamWritable_agrees ..
  | streamEnd i => exact streamEnd_touches ..
  | connClosed conn => exact connClosed_touches ..
  | streamOpenFailed reason => exact pushEventOrDrop_touches ..

/-! ## Nodes -/

/-- A router with the application that uses it. -/
structure Node where
  router : Router
  /-- The events that the application took. -/
  received : List Event
  /-- The numbers of the messages on which it reported ACCEPT. -/
  accepted : List Nat

namespace Node

/-- A node after `libp2p_gossipsub_init`. -/
def init : Node := ⟨.init, [], []⟩

/-- The event that the application takes. -/
def taken (s : Node) : Action → List Event
  | .nextEvent =>
    match (Gossipsub.nextEvent config s.router).1 with
    | .ok event => [event]
    | .error _ => []
  | _ => []

/-- The message that the application accepts. -/
def accepts (s : Node) : Action → List Nat
  | .report k .accept =>
    match s.received[k]? with
    | some event => if event.validation.isSome then [event.origin] else []
    | none => []
  | _ => []

/-- One step of a node. -/
def step (s : Node) (action : Action) : Node where
  router := (action.comp config s.received s.router).2
  received := s.received ++ s.taken config action
  accepted := s.accepted ++ s.accepts action

/-- A step changes the parts of its action only. -/
theorem step_agrees (s : Node) (action : Action) :
    Router.Agrees action.parts s.router (s.step config action).router :=
  (action.touches config s.received).agrees s.router

/-- A run of a node. -/
abbrev run (s : Node) (actions : List Action) : Node := runFrom (step config) s actions

@[simp] theorem run_nil (s : Node) : s.run config [] = s := rfl

@[simp] theorem run_cons (s : Node) (action : Action) (actions : List Action) :
    s.run config (action :: actions) = (s.step config action).run config actions := rfl

/-- The action satisfies `P` in every state that the run comes through. -/
abbrev Meets (config : Config) (P : Node → Action → Prop) (s : Node) (actions : List Action) : Prop :=
  RunMeets (step config) P s actions

instance decidableMeets (config : Config) (P : Node → Action → Prop)
    [∀ s action, Decidable (P s action)] (s : Node) (actions : List Action) :
    Decidable (s.Meets config P actions) :=
  inferInstanceAs (Decidable (RunMeets (step config) P s actions))

/-- An invariant of the router that every action keeps holds in every state reached. -/
theorem run_keeps_router {config : Config} {I : Router → Prop} {s : Node}
    (actions : List Action) (hs : I s.router)
    (hstep : ∀ received (action : Action), Comp.Keeps I (action.comp config received)) :
    I (s.run config actions).router :=
  runFrom_keeps (I := fun s : Node => I s.router) hs fun s action h =>
    hstep s.received action s.router h

end Node

end LeanLibp2p.Gossipsub
