import LeanLibp2p.Gossipsub.Router.Cache
import LeanLibp2p.Gossipsub.Router.Mesh

/-!
# Sending

The part of `gossipsub_tx.c` that builds RPCs with one element and queues them for a peer, and
the forwarding of a cached message to the mesh.
-/

namespace LeanLibp2p.Gossipsub

open LeanLibp2p.Lib

variable (config : Config)

/-- `gossipsub_tx_effective_now_us` (`gossipsub_tx.c:160-174`). -/
def txEffectiveNowUs (r : Router) : Nat :=
  if r.lastDriveUs = 0 then r.nextHeartbeatUs else r.lastDriveUs

/-- `gossipsub_enqueue_rpc_with_lifetime` on the transmit state of the router. -/
def enqueueRpc (p : Nat) (rpc : Rpc) (lifetimeUs : Nat) (priority : Bool) :
    RouterM Unit := fun r =>
  let res := enqueueRpcWithLifetime config r.peers p rpc lifetimeUs priority (txEffectiveNowUs r)
    r.tx
  (res.1.map fun _ => (), { r with tx := res.2 })

/-- `gossipsub_enqueue_subscription` (`gossipsub_tx.c:891-909`). -/
def enqueueSubscription (p : Nat) (topic : Topic) (subscribe : UInt8) : RouterM Unit :=
  enqueueRpc config p { Rpc.zero with subscriptions := [⟨.ptr topic.topic, subscribe⟩] } 0 true

/-- An RPC with a control section. -/
def Rpc.ofControl (control : RpcControl) : Rpc := { Rpc.zero with control := control }

/-- `gossipsub_enqueue_idontwant` (`gossipsub_tx.c:911-932`). -/
def enqueueIdontwant (p : Nat) (messageId : Bytes) : RouterM Unit :=
  enqueueRpc config p (.ofControl { RpcControl.zero with idontwant := [⟨[.ptr messageId]⟩] }) 0 false

/-- `gossipsub_enqueue_iwant` (`gossipsub_tx.c:934-950`). -/
def enqueueIwant (p : Nat) (messageId : Span) : RouterM Unit :=
  enqueueRpc config p (.ofControl { RpcControl.zero with iwant := [⟨[messageId]⟩] }) 0 false

/-- Enter into the history that a GRAFT was queued. -/
def recordGraft (p t : Nat) (r : Router) : Router :=
  { r with history := { r.history with
      grafts := r.history.grafts ++ [⟨p, t, backoffActive config r p t r.lastDriveUs⟩] } }

/-- `gossipsub_enqueue_graft` (`gossipsub_tx.c:988-1013`) for topic `t`. -/
def enqueueGraft (p t : Nat) : RouterM Unit := do
  let r ← Comp.read id
  enqueueRpc config p
    (.ofControl { RpcControl.zero with graft := [⟨.ptr (r.topics t).topic⟩] }) 0 true
  Comp.update (recordGraft config p t)

/-- `gossipsub_tx_backoff_seconds` (`gossipsub_tx.c:192-203`). -/
def txBackoffSeconds (backoffUs : Nat) : Nat :=
  let seconds := backoffUs / 1000000
  if backoffUs ≠ 0 ∧ backoffUs % 1000000 ≠ 0 ∧ seconds ≠ uint64Max then seconds + 1 else seconds

/-- `gossipsub_enqueue_prune_with_backoff` (`gossipsub_tx.c:1038-1065`). -/
def enqueuePruneWithBackoff (p : Nat) (topic : Topic) (backoffUs : Nat) : RouterM Unit :=
  enqueueRpc config p (.ofControl { RpcControl.zero with
    prune := [⟨.ptr topic.topic, [], txBackoffSeconds backoffUs⟩] }) 0 true

/-- `gossipsub_enqueue_prune` (`gossipsub_tx.c:1015-1036`). -/
def enqueuePrune (p : Nat) (topic : Topic) : RouterM Unit :=
  enqueuePruneWithBackoff config p topic config.mesh.pruneBackoffUs

/-! ## Messages -/

/-- Enter into the history that messages were queued for a peer or advertised to one. -/
def recordQueued (messages : List QueuedMessage) (r : Router) : Router :=
  { r with history := { r.history with queued := r.history.queued ++ messages } }

/-- Enter into the history that peer `p` was told not to send a message. -/
def recordUnwanted (p : Nat) (message : QueuedMessage) (r : Router) : Router :=
  { r with history := { r.history with
      unwanted := r.history.unwanted ++ [message]
      idontwants := r.history.idontwants ++ [⟨p, message.origin⟩] } }

/-- `gossipsub_enqueue_ihave` (`gossipsub_tx.c:952-986`) for the ids of some entries. -/
def enqueueIhave (p : Nat) (topic : Topic) (entries : List McacheEntry) : RouterM Unit :=
  if entries = [] then Comp.fail .invalidArg
  else do
    enqueueRpc config p (.ofControl { RpcControl.zero with
      ihave := [⟨.ptr topic.topic, entries.map fun entry => .ptr entry.messageId⟩] })
      txForwardLifetimeUs false
    Comp.update (recordQueued
      (entries.map fun entry => ⟨entry.origin, entry.messageId, none⟩))

/-- The RPC that carries the message of an entry. -/
def entryRpc (mcache : Mcache) (entry : McacheEntry) : Rpc :=
  { Rpc.zero with publish := [entryMessage mcache entry] }

/-- `gossipsub_enqueue_publish_entry_with_lifetime` (`gossipsub_tx.c:1067-1114`). -/
def enqueuePublishEntryWithLifetime (p : Nat) (entry : McacheEntry)
    (lifetimeUs : Nat) (priority : Bool) : RouterM Unit := fun r =>
  match enqueuePublishWithLifetime config r.peers p (entryRpc r.mcache entry) entry.messageId
      lifetimeUs priority (txEffectiveNowUs r) r.tx with
  | (.error e, tx) => (.error e, { r with tx := tx })
  | (.ok _, tx) =>
    (.ok (), recordQueued [⟨entry.origin, entry.messageId, some (entryMessage r.mcache entry)⟩]
      { r with tx := tx })

/-- `gossipsub_enqueue_publish_entry` (`gossipsub_tx.c:1116-1127`). -/
def enqueuePublishEntry (p : Nat) (entry : McacheEntry) : RouterM Unit :=
  enqueuePublishEntryWithLifetime config p entry txForwardLifetimeUs false

/-- `gossipsub_enqueue_local_publish_entry` (`gossipsub_tx.c:1129-1140`). -/
def enqueueLocalPublishEntry (p : Nat) (entry : McacheEntry) : RouterM Unit :=
  enqueuePublishEntryWithLifetime config p entry txLocalPublishLifetimeUs true

/-- `gossipsub_enqueue_idontwant_for_entry` (`gossipsub_tx.c:1142-1178`). -/
def enqueueIdontwantForEntry (p : Nat) (topic : Topic) (entry : McacheEntry) :
    RouterM Unit := do
  let r ← Comp.read id
  if config.capacity.maxPeers ≤ p then Comp.fail .invalidArg
  else if (r.peers p).version = .v12 ∧ config.enableIdontwant ∧ topic.enableIdontwant ∧
      topic.idontwantMinMessageBytes ≤ entry.dataLen ∧
      (r.peers p).idontwantSentThisHeartbeat <
        config.maxIdontwantMessagesPerPeerPerHeartbeat then do
    enqueueIdontwant config p entry.messageId
    Comp.update fun r => recordUnwanted p ⟨entry.origin, entry.messageId, none⟩ (r.setPeer p
      { r.peers p with
        idontwantSentThisHeartbeat := (r.peers p).idontwantSentThisHeartbeat + 1 })
  else pure ()

/-- The event of `gossipsub_enqueue_idontwant_for_received_entry` for a full queue, once until
    the queue has room again. -/
def reportTxQueueLimit (p t slot : Nat) (topic : Topic) (entry : McacheEntry) :
    RouterM Unit := do
  let r ← Comp.read id
  if (r.tx.peer p).queueLimitReported then pure ()
  else do
    pushEventOrDrop config ({ Event.zero .dropped with
      dropReason := .idontwantTxQueueFull
      reason := some .limit
      topic := .topic t topic.topic.length
      messageId := .entryId slot entry.messageId.length
      txQueueDepth := (r.tx.peer p).queueDepth
      txQueueCapacity := config.capacity.maxPeerTxQueue }.ofPeer (r.peers p))
    Comp.update fun r =>
      { r with tx := r.tx.setPeer p { r.tx.peer p with queueLimitReported := true } }

/-- `gossipsub_enqueue_idontwant_for_received_entry` (`gossipsub_tx.c:1362-1425`) for the entry in
    `slot`. -/
def enqueueIdontwantForReceivedEntry (topic : Topic) (slot : Nat)
    (entry : McacheEntry) : RouterM Unit := do
  let t ← orFail .notFound (findTopic config (← Comp.read id) (.ptr entry.topic))
  Comp.forOk (fun p => do
    let r ← Comp.read id
    if r.isWriter p && meshContains config r p t then
      match ← Comp.result (enqueueIdontwantForEntry config p topic entry) with
      | .ok _ => pure ()
      | .error e =>
        if e = .limit then reportTxQueueLimit config p t slot topic entry else Comp.fail e
    else pure ()) (List.range config.capacity.maxPeers)

/-- `gossipsub_tx_is_mesh_route` (`gossipsub_tx.c:205-231`). -/
def txIsMeshRoute (r : Router) (p t : Nat) : Bool :=
  meshContains config r p t || (r.peers p).explicitPeer && peerSubscribed config r p t

/-- An IDONTWANT for the message and then the message, unless the first fails for another reason
    than a limit; a limit in the second is not an error. -/
def sendEntry (p : Nat) (topic : Topic) (entry : McacheEntry)
    (publish : RouterM Unit) : RouterM Unit :=
  continueAfterLocalLimit do
    continueAfterLocalLimit (enqueueIdontwantForEntry config p topic entry)
    publish

/-- `gossipsub_forward_entry` (`gossipsub_tx.c:1508-1568`). -/
def forwardEntry (source : Nat) (entry : McacheEntry) : RouterM Unit := do
  let r ← Comp.read id
  let t ← orFail .notFound (findTopic config r (.ptr entry.topic))
  Comp.forOk (fun p => do
    let r ← Comp.read id
    if p ≠ source ∧ r.isWriter p ∧ txIsMeshRoute config r p t ∧
        peerIdontwantContains config r p entry.messageId (txEffectiveNowUs r) = false then
      sendEntry config p (r.topics t) entry (enqueuePublishEntry config p entry)
    else pure ()) (List.range config.capacity.maxPeers)

end LeanLibp2p.Gossipsub
