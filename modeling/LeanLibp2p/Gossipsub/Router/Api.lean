import LeanLibp2p.Gossipsub.Router.Process

/-!
# Application interface

The calls of `gossipsub_api.c`.
-/

namespace LeanLibp2p.Gossipsub

open LeanLibp2p.Lib

variable (config : Config)

/-- `libp2p_gossipsub_topic_config_t`. -/
structure TopicConfig where
  topic : Span
  validationMode : ValidationMode
  enableIdontwant : Bool
  idontwantMinMessageBytes : Nat
  deriving DecidableEq, Repr

/-- `libp2p_gossipsub_publish_t`, less `user_data`. -/
structure Publish where
  topic : Span
  data : Span
  messageId : Span
  deriving DecidableEq, Repr

/-- The loop that tells all writer streams about a subscription. -/
def announceSubscription (t : Nat) (subscribe : UInt8) : RouterM Unit :=
  Comp.forOk (fun p => do
    let r ← Comp.read id
    if r.isWriter p then enqueueSubscription config p (r.topics t) subscribe else pure ())
    (List.range config.capacity.maxPeers)

/-- The settings of a topic that `libp2p_gossipsub_subscribe` takes over. -/
def Topic.subscribe (request : TopicConfig) (topic : Topic) : Topic :=
  { topic with
    localSubscribed := true
    validationMode := request.validationMode
    enableIdontwant := request.enableIdontwant
    idontwantMinMessageBytes := if request.idontwantMinMessageBytes = 0 then
        config.idontwantMinMessageBytes
      else request.idontwantMinMessageBytes }

/-- `libp2p_gossipsub_subscribe` (`gossipsub_api.c:6-56`). -/
def subscribe (request : TopicConfig) : RouterM Unit :=
  if request.topic.isNull ∨ request.topic.len = 0 ∨
      config.limits.maxTopicBytes < request.topic.len ∨
      config.limits.maxMessageDataBytes < request.idontwantMinMessageBytes then
    Comp.fail .invalidArg
  else do
    let t ← (← findOrAddTopic config request.topic) |> orFail .limit
    Comp.update fun r => r.setTopic t ((r.topics t).subscribe config request)
    announceSubscription config t 1
    meshFillTopic config t config.mesh.d true

/-- `libp2p_gossipsub_unsubscribe` (`gossipsub_api.c:58-102`). -/
def unsubscribe (topic : Span) : RouterM Unit :=
  if topic.isNull ∨ topic.len = 0 then Comp.fail .invalidArg
  else do
    let t ← orFail .notFound (findTopic config (← Comp.read id) topic)
    meshTrimTopic config t 0 true
    Comp.update (meshRemoveTopic config t)
    Comp.update fun r => r.setTopic t { r.topics t with localSubscribed := false }
    announceSubscription config t 0

/-- The id of a message to publish: the one that the application gives, or a computed one. -/
def publishMessageId (request : Publish) : Except GossipsubErr Bytes :=
  if request.messageId.present then
    if config.limits.maxMessageIdBytes < request.messageId.len then .error .limit
    else .ok request.messageId.bytes
  else computeMessageId config { Message.zero with topic := request.topic, data := request.data }

/-- A peer gets what is published: it is in the mesh, or subscribed and either explicit or
    flooded. -/
def publishTarget (r : Router) (t p : Nat) : Bool :=
  config.mesh.enableFloodPublish && peerSubscribed config r p t || meshContains config r p t ||
    (r.peers p).explicitPeer && peerSubscribed config r p t

/-- The loop of `libp2p_gossipsub_publish` over the peers. -/
def publishEntry (t : Nat) (entry : McacheEntry) : RouterM Unit :=
  Comp.forOk (fun p => do
    let r ← Comp.read id
    if r.isWriter p && publishTarget config r t p then
      sendEntry config p (r.topics t) entry (enqueueLocalPublishEntry config p entry)
    else pure ()) (List.range config.capacity.maxPeers)

/-- `libp2p_gossipsub_publish` (`gossipsub_api.c:104-254`), which returns the message id;
    `outLen` is the length of the buffer for it, if there is one. -/
def publish (request : Publish) (outLen : Option Nat) : RouterM Bytes :=
  if request.topic.isNull ∨ request.topic.len = 0 ∨
      config.limits.maxTopicBytes < request.topic.len ∨
      request.data.isNull ∧ request.data.len ≠ 0 ∨
      config.limits.maxMessageDataBytes < request.data.len then
    Comp.fail .invalidArg
  else do
    let messageId ← Comp.ofResult (publishMessageId config request)
    if outLen.any fun n => n < messageId.length then Comp.fail .bufTooSmall
    else do
      let t ← (← findOrAddTopic config request.topic) |> orFail .limit
      let slot ← mcacheStore config none false messageId request.topic request.data
      Comp.update fun r => seenAdd config messageId r.nextHeartbeatUs r
      publishEntry config t ((← Comp.read id).mcache.entries slot)
      return messageId

/-- `libp2p_gossipsub_report_validation` (`gossipsub_api.c:256-290`). -/
def reportValidation (v : Nat) (value : ValidationResult) : RouterM Unit :=
  fun r =>
    let validation := r.validations v
    if validation.pending = false ∨ config.capacity.mcacheSlots ≤ validation.mcacheIndex then
      (.error .invalidArg, r)
    else
      let entry := r.mcache.entries validation.mcacheIndex
      let (result, r) :=
        if entry.used = false then (.error .state, r)
        else if value = .accept then forwardEntry config validation.peerIndex entry r
        else (.ok (), r)
      (result, r.releaseValidation (some v))

/-- `libp2p_gossipsub_next_event` (`gossipsub_api.c:292-315`). -/
def nextEvent : RouterM Event := fun r =>
  match r.events.pop config.capacity.eventCapacity with
  | none => (.error .wouldBlock, r)
  | some (event, events) => (.ok event, { r with events := events })

/-- `libp2p_gossipsub_set_peer_explicit` (`gossipsub_api.c:317-345`). -/
def setPeerExplicit (peerId : Bytes) (isExplicit : Bool) : RouterM Unit :=
  if peerId = [] then Comp.fail .invalidArg
  else do
    let p ← orFail .notFound (findPeer config (← Comp.read id) peerId)
    Comp.update fun r => r.setPeer p { r.peers p with explicitPeer := isExplicit }

/-- `libp2p_gossipsub_mesh_peer_count` (`gossipsub_state.c:416-432`). -/
def meshPeerCount (r : Router) : Nat := r.mesh.peerCount

end LeanLibp2p.Gossipsub
