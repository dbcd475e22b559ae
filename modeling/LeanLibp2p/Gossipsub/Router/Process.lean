import LeanLibp2p.Gossipsub.Router.Heartbeat

/-!
# Received RPCs

`gossipsub_process_rpc` and what it calls (`gossipsub_rx.c:352-747`): the elements of an RPC that a
peer sent are handled one after the other, until one of them fails for another reason than a local
limit.
-/

namespace LeanLibp2p.Gossipsub

open LeanLibp2p.Lib

variable (config : Config)

/-- The mesh update after a subscription of a peer. -/
def subscriptionMesh (p t : Nat) (subscribe : UInt8) : RouterM Unit := do
  let r ← Comp.read id
  if subscribe ≠ 0 ∧ (r.topics t).localSubscribed ∧
      meshCountTopic config r t < config.mesh.dLow then
    meshFillTopic config t config.mesh.d true
  else if subscribe = 0 then
    Comp.update (meshRemove config p t)
  else pure ()

/-- `gossipsub_process_subscription` (`gossipsub_rx.c:356-414`). -/
def processSubscription (p : Nat) (sub : RpcSubscription) : RouterM Unit :=
  continueAfterLocalLimit do
    if config.capacity.maxPeers ≤ p then Comp.fail .invalidArg
    else do
      let t ← (← findOrAddTopic config sub.topic) |> orFail .limit
      let i ← (← findOrAddPeerTopic config p t) |> orFail .limit
      Comp.update fun r => r.setPeerTopic i { r.peerTopics i with subscribed := sub.subscribe }
      let r ← Comp.read id
      pushEventOrDrop config ({ Event.zero .subscription with
        topic := .topic t (r.topics t).topic.length }.ofPeer (r.peers p))
      subscriptionMesh config p t sub.subscribe

/-! ## Messages -/

/-- The end of `gossipsub_process_message` for the message in `slot`: the application gets the
    message, and the mesh too when the topic needs no validation. -/
def deliverEntry (p t slot nowUs : Nat) : RouterM Unit := do
  let r ← Comp.read id
  let topic := r.topics t
  let entry := r.mcache.entries slot
  enqueueIdontwantForReceivedEntry config topic slot entry
  let r ← Comp.read id
  let event : Event := { Event.zero .message with
    topic := .entryTopic slot entry.topic.length
    messageId := .entryId slot entry.messageId.length
    messageTopic := .entryTopic slot entry.topic.length
    messageData := .entryData entry.dataOffset entry.dataLen
    origin := entry.origin }.ofPeer (r.peers p)
  match topic.validationMode with
  | .requireApp => do
    match ← allocValidation config p slot nowUs entry.origin with
    | none => pure ()
    | some v => pushEventOrDrop config { event with validation := some v }
  | .acceptAll => do
    pushEventOrDrop config event
    forwardEntry config p entry

/-- The part of `gossipsub_process_message` for a message that was not seen before. -/
def acceptMessage (p : Nat) (message : Message) (messageId : Bytes)
    (nowUs : Nat) : RouterM Unit := do
  let r ← Comp.read id
  match (findTopic config r message.topic).filter fun t => (r.topics t).localSubscribed with
  | none =>
    pushEventOrDrop config ({ Event.zero .dropped with
      dropReason := .unsubscribedTopic
      topic := .borrowed message.topic
      messageId := .borrowed (.ptr messageId) }.ofPeer (r.peers p))
  | some t => do
    let slot ← mcacheStore config (some (p, message)) ((r.topics t).validationMode = .requireApp)
      messageId message.topic message.data
    deliverEntry config p t slot nowUs

/-- `gossipsub_process_message` (`gossipsub_rx.c:416-530`). -/
def processMessage (p : Nat) (message : Message) (nowUs : Nat) : RouterM Unit :=
  continueAfterLocalLimit do
    if config.capacity.maxPeers ≤ p then Comp.fail .invalidArg
    else do
      let messageId ← Comp.ofResult (computeMessageId config message)
      let r ← Comp.read id
      if seenContains config r (.ptr messageId) nowUs then do
        pushEventOrDrop config ({ Event.zero .dropped with
          dropReason := .duplicateMessage
          messageId := .borrowed (.ptr messageId) }.ofPeer (r.peers p))
        Comp.fail .duplicate
      else do
        Comp.update (seenAdd config messageId nowUs)
        acceptMessage config p message messageId nowUs

/-- `gossipsub_process_idontwant` (`gossipsub_rx.c:532-573`). -/
def processIdontwant (p : Nat) (idontwant : ControlIdontwant) (nowUs : Nat) : RouterM Unit :=
  if config.capacity.maxPeers ≤ p then Comp.fail .invalidArg
  else
    Comp.forOk (fun messageId => do
      Comp.update (peerIdontwantAdd config p messageId nowUs)
      Comp.update fun r => { r with tx := dropQueuedPublish config r.peers p messageId r.tx }
      let r ← Comp.read id
      pushEventOrDrop config ({ Event.zero .idontwant with
        messageId := .borrowed messageId
        idontwant := some idontwant }.ofPeer (r.peers p))) idontwant.messageIds

/-! ## RPCs -/

/-- A PRUNE for the peer, and the backoff that goes with it. -/
def refuseGraft (p t nowUs : Nat) : RouterM Unit := do
  let r ← Comp.read id
  enqueuePrune config p (r.topics t)
  backoffAdd config p t config.mesh.pruneBackoffUs nowUs

/-- The peer may join the mesh of the topic, or is in it. -/
def graftAccepted (r : Router) (p t nowUs : Nat) : Bool :=
  (r.topics t).localSubscribed && !backoffActive config r p t nowUs &&
    (meshContains config r p t || decide (meshCountTopic config r t < config.mesh.dHigh))

/-- The GRAFT loop of `gossipsub_process_rpc`. -/
def processGraft (p nowUs : Nat) (graft : ControlGraft) : RouterM Unit :=
  continueAfterLocalLimit do
    let t ← (← findOrAddTopic config graft.topic) |> orFail .limit
    let r ← Comp.read id
    if graftAccepted config r p t nowUs then meshAdd config p t
    else refuseGraft config p t nowUs

/-- `gossipsub_rx_prune_backoff_us` (`gossipsub_rx.c:330-354`). -/
def rxPruneBackoffUs (backoffSeconds : Nat) : Nat :=
  if backoffSeconds ≠ 0 then
    if uint64Max / 1000000 < backoffSeconds then uint64Max else backoffSeconds * 1000000
  else config.mesh.pruneBackoffUs

/-- The PRUNE loop of `gossipsub_process_rpc`. -/
def processPrune (p nowUs : Nat) (prune : ControlPrune) : RouterM Unit :=
  continueAfterLocalLimit do
    let r ← Comp.read id
    match findTopic config r prune.topic with
    | none => pure ()
    | some t => do
      Comp.update (meshRemove config p t)
      backoffAdd config p t (rxPruneBackoffUs config prune.backoffSeconds) nowUs

/-- The IWANT loop of `gossipsub_process_rpc` for one id. -/
def processIwantId (p : Nat) (messageId : Span) : RouterM Unit := do
  let r ← Comp.read id
  match mcacheFind config r messageId with
  | none => pure ()
  | some slot =>
    continueAfterLocalLimit (enqueuePublishEntry config p (r.mcache.entries slot))

/-- The IHAVE loop of `gossipsub_process_rpc` for one id. -/
def processIhaveId (p nowUs : Nat) (messageId : Span) : RouterM Unit := do
  let r ← Comp.read id
  if seenContains config r messageId nowUs then pure ()
  else continueAfterLocalLimit (enqueueIwant config p messageId)

/-- The elements of an RPC that `gossipsub_process_rpc` handles before it answers IWANTs. -/
def processRpcElements (p : Nat) (rpc : Rpc) (nowUs : Nat) : RouterM Unit := do
  Comp.forOk (processSubscription config p) rpc.subscriptions
  Comp.forOk (fun message =>
    Comp.absorb (fun e => e = .duplicate) (processMessage config p message nowUs)) rpc.publish
  Comp.forOk (fun x => processIdontwant config p x nowUs) rpc.control.idontwant
  Comp.forOk (processGraft config p nowUs) rpc.control.graft
  Comp.forOk (processPrune config p nowUs) rpc.control.prune

/-- `gossipsub_process_rpc` (`gossipsub_rx.c:575-747`). -/
def processRpc (p : Nat) (rpc : Rpc) (nowUs : Nat) : RouterM Unit :=
  if config.capacity.maxPeers ≤ p then Comp.fail .invalidArg
  else do
    processRpcElements config p rpc nowUs
    Comp.forOk (fun iwant => Comp.forOk (processIwantId config p) iwant.messageIds)
      rpc.control.iwant
    Comp.forOk (fun ihave => Comp.forOk (processIhaveId config p nowUs) ihave.messageIds)
      rpc.control.ihave

end LeanLibp2p.Gossipsub
