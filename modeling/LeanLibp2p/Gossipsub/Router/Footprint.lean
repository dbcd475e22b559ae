import LeanLibp2p.Gossipsub.Router.Host
import LeanLibp2p.Lib.Footprint

/-!
# What each operation changes

The router as a family of parts, and for each operation of the model the parts that it may
change. The invariants of the router are each about a few parts; an operation that touches none of
them keeps the invariant by its footprint alone.
-/

namespace LeanLibp2p.Gossipsub

open LeanLibp2p.Lib

/-- The parts of a router. The slots that peer ids have are a part of their own beside all that a
    peer is; the count of the IDONTWANTs sent to it is another. -/
inductive Part where
  | clock
  | topics
  | peers
  | identities
  | idontwantSent
  | peerTopics
  | mesh
  | backoff
  | streams
  | tx
  | mcache
  | seen
  | validations
  | idontwant
  | events
  | random
  | messages
  | queued
  | unwanted
  | accepted
  | grafts
  | sent
  deriving DecidableEq, Repr

/-- The type of a part. -/
def Part.Value : Part → Type
  | .clock => Bool × Bool × Nat × Nat
  | .topics => Nat → Topic
  | .peers => Nat → Peer
  | .identities => Nat → Bool × Bytes
  | .idontwantSent => Nat → Nat
  | .peerTopics => Nat → PeerTopic
  | .mesh => Mesh
  | .backoff => Nat → Backoff
  | .streams => Nat → StreamState
  | .tx => Tx
  | .mcache => Mcache
  | .seen => Nat → Seen
  | .validations => Nat → Validation
  | .idontwant => Nat → IdontwantEntry
  | .events => RingBuffer Event × List PushedEvent
  | .random => Nat
  | .messages => List StoredMessage
  | .queued => List QueuedMessage
  | .unwanted => List QueuedMessage × List QueuedIdontwant
  | .accepted => List AcceptedId
  | .grafts => List QueuedGraft
  | .sent => Nat → List Bytes

/-- A part of a router. -/
def Router.part : (part : Part) → Router → part.Value
  | .clock, r => (r.started, r.closing, r.nextHeartbeatUs, r.lastDriveUs)
  | .topics, r => r.topics
  | .peers, r => fun p => { r.peers p with idontwantSentThisHeartbeat := 0 }
  | .identities, r => fun p => ((r.peers p).used, (r.peers p).peerId)
  | .idontwantSent, r => fun p => (r.peers p).idontwantSentThisHeartbeat
  | .peerTopics, r => r.peerTopics
  | .mesh, r => r.mesh
  | .backoff, r => r.backoff
  | .streams, r => r.streams
  | .tx, r => r.tx
  | .mcache, r => r.mcache
  | .seen, r => r.seen
  | .validations, r => r.validations
  | .idontwant, r => r.idontwant
  | .events, r => (r.events, r.history.pushed)
  | .random, r => r.randomCalls
  | .messages, r => r.history.messages
  | .queued, r => r.history.queued
  | .unwanted, r => (r.history.unwanted, r.history.idontwants)
  | .accepted, r => r.history.accepted
  | .grafts, r => r.history.grafts
  | .sent, r => r.history.sent

/-- None of the parts is among those touched. -/
def Part.untouched (parts touched : List Part) : Bool :=
  parts.all fun part => !touched.contains part

theorem Part.not_mem_of_untouched {parts touched : List Part}
    (h : Part.untouched parts touched = true) {part : Part} (hpart : part ∈ parts) :
    part ∉ touched := by
  unfold Part.untouched at h
  rw [List.all_eq_true] at h
  simpa using h part hpart

/-- The routers agree on every part outside of `parts`. -/
abbrev Router.Agrees (parts : List Part) (r r' : Router) : Prop :=
  Lib.Agrees Router.part parts r r'

/-- A peer is the same but for the count of the IDONTWANTs sent to it. -/
theorem Router.Agrees.peer {α : Type} {parts : List Part} {r r' : Router}
    (h : Router.Agrees parts r r') (hpart : .peers ∉ parts) (p : Nat) (f : Peer → α)
    (hf : ∀ peer : Peer, f { peer with idontwantSentThisHeartbeat := 0 } = f peer) :
    f (r'.peers p) = f (r.peers p) := by
  have hp : { r'.peers p with idontwantSentThisHeartbeat := 0 } =
      { r.peers p with idontwantSentThisHeartbeat := 0 } := congrFun (h.eq .peers hpart) p
  rw [← hf (r'.peers p), ← hf (r.peers p), hp]

theorem Router.Agrees.lastDriveUs {parts : List Part} {r r' : Router}
    (h : Router.Agrees parts r r') (hpart : .clock ∉ parts) : r'.lastDriveUs = r.lastDriveUs :=
  congrArg (fun x => x.2.2.2) (h.eq .clock hpart)

/-- The computation changes only `parts`. -/
abbrev Touches {α : Type} (parts : List Part) (c : RouterM α) : Prop :=
  Comp.Touches Router.part parts c

/-- A footprint may be enlarged. -/
theorem Touches.mono {α : Type} {parts parts' : List Part} {c : RouterM α} (h : Touches parts c)
    (hsub : ∀ p ∈ parts, p ∈ parts') : Touches parts' c := Comp.Touches.mono h hsub

theorem Touches.agrees {α : Type} {parts : List Part} {c : RouterM α} (h : Touches parts c)
    (r : Router) : Router.Agrees parts r (c r).2 := Comp.Touches.agrees h r

/-- The states before and after a run. -/
theorem Touches.of_run {α : Type} {parts : List Part} {c : RouterM α} {r r' : Router}
    {res : Except GossipsubErr α} (h : Touches parts c) (hrun : c r = (res, r')) :
    Router.Agrees parts r r' := Comp.Touches.of_run h hrun

theorem orFail_touches {α : Type} (parts : List Part) (e : GossipsubErr) (o : Option α) :
    Touches parts (orFail e o) := by
  cases o with
  | none => exact Comp.Touches.fail e
  | some a => exact Comp.Touches.pure a

theorem continueAfterLocalLimit_touches {parts : List Part} {c : RouterM Unit}
    (h : Touches parts c) : Touches parts (continueAfterLocalLimit c) := Comp.Touches.absorb h

/-! ## Tables -/

section Tables

variable (config : Config)

theorem releaseValidation_agrees (r : Router) (v : Option Nat) :
    Router.Agrees [.validations] r (r.releaseValidation v) := by
  refine ⟨fun part hpart => ?_⟩
  cases v with
  | none => rfl
  | some v => cases part <;> first | exact absurd (by decide) hpart | rfl

theorem pushEventOrDrop_touches (event : Event) :
    Touches [.events, .validations] (pushEventOrDrop config event) := by
  refine ⟨fun r => ?_⟩
  unfold pushEventOrDrop eventPush
  cases r.events.push config.capacity.eventCapacity event with
  | none =>
    exact (releaseValidation_agrees r event.validation).mono (by decide)
  | some events =>
    refine ⟨fun part hpart => ?_⟩
    cases part <;> first | exact absurd (by decide) hpart | rfl

theorem findOrAddTopic_touches (topic : Span) :
    Touches [.topics] (findOrAddTopic config topic) := by
  refine ⟨fun r => ?_⟩
  unfold findOrAddTopic
  split
  · exact .refl r
  · split
    · exact .refl r
    · split
      · exact .refl r
      · refine ⟨fun part hpart => ?_⟩
        cases part <;> first | exact absurd (by decide) hpart | rfl

theorem findOrAddPeerTopic_touches (p t : Nat) :
    Touches [.peerTopics] (findOrAddPeerTopic config p t) := by
  refine ⟨fun r => ?_⟩
  unfold findOrAddPeerTopic
  split
  · exact .refl r
  · split
    · exact .refl r
    · refine ⟨fun part hpart => ?_⟩
      cases part <;> first | exact absurd (by decide) hpart | rfl

theorem setPeerTopic_agrees (r : Router) (i : Nat) (edge : PeerTopic) :
    Router.Agrees [.peerTopics] r (r.setPeerTopic i edge) := by
  refine ⟨fun part hpart => ?_⟩
  cases part <;> first | exact absurd (by decide) hpart | rfl

theorem setTopic_agrees (r : Router) (t : Nat) (topic : Topic) :
    Router.Agrees [.topics] r (r.setTopic t topic) := by
  refine ⟨fun part hpart => ?_⟩
  cases part <;> first | exact absurd (by decide) hpart | rfl

theorem seenAdd_agrees (messageId : Bytes) (nowUs : Nat) (r : Router) :
    Router.Agrees [.seen, .accepted] r (seenAdd config messageId nowUs r) := by
  unfold seenAdd
  split
  · refine ⟨fun part hpart => ?_⟩
    cases part <;> first | exact absurd (by decide) hpart | rfl
  · exact .refl r

theorem mcacheStore_touches (source : Option (Nat × Message)) (gated : Bool) (messageId : Bytes)
    (topic data : Span) :
    Touches [.mcache, .messages] (mcacheStore config source gated messageId topic data) := by
  refine ⟨fun r => ?_⟩
  unfold mcacheStore
  split
  · exact .refl r
  · split
    · exact .refl r
    · refine ⟨fun part hpart => ?_⟩
      cases part <;> first | exact absurd (by decide) hpart | rfl

theorem peerIdontwantAdd_agrees (p : Nat) (messageId : Span) (nowUs : Nat) (r : Router) :
    Router.Agrees [.idontwant] r (peerIdontwantAdd config p messageId nowUs r) := by
  unfold peerIdontwantAdd
  split
  · refine ⟨fun part hpart => ?_⟩
    cases part <;> first | exact absurd (by decide) hpart | rfl
  · exact .refl r

theorem allocValidation_touches (p mcacheIndex nowUs origin : Nat) :
    Touches [.validations] (allocValidation config p mcacheIndex nowUs origin) := by
  refine ⟨fun r => ?_⟩
  unfold allocValidation
  split
  · exact .refl r
  · refine ⟨fun part hpart => ?_⟩
    cases part <;> first | exact absurd (by decide) hpart | rfl

theorem meshAdd_touches (p t : Nat) : Touches [.mesh] (meshAdd config p t) := by
  refine ⟨fun r => ?_⟩
  unfold meshAdd
  split
  · exact .refl r
  · split
    · exact .refl r
    · split
      · exact .refl r
      · split
        · exact .refl r
        · refine ⟨fun part hpart => ?_⟩
          cases part <;> first | exact absurd (by decide) hpart | rfl

theorem meshRemove_agrees (p t : Nat) (r : Router) :
    Router.Agrees [.mesh] r (meshRemove config p t r) := by
  unfold meshRemove
  split
  · exact .refl r
  · refine ⟨fun part hpart => ?_⟩
    cases part <;> first | exact absurd (by decide) hpart | rfl

theorem setBackoff_agrees (r : Router) (i : Nat) (entry : Backoff) :
    Router.Agrees [.backoff] r (r.setBackoff i entry) := by
  refine ⟨fun part hpart => ?_⟩
  cases part <;> first | exact absurd (by decide) hpart | rfl

theorem backoffAdd_touches (p t intervalUs nowUs : Nat) :
    Touches [.backoff] (backoffAdd config p t intervalUs nowUs) := by
  refine ⟨fun r => ?_⟩
  unfold backoffAdd
  split
  · exact .refl r
  · dsimp only
    split
    · split
      · exact setBackoff_agrees ..
      · exact .refl r
    · split
      · exact setBackoff_agrees ..
      · split
        · exact setBackoff_agrees ..
        · exact .refl r

theorem randomU64_touches : Touches [.random] (randomU64 config) := by
  refine ⟨fun r => ⟨fun part hpart => ?_⟩⟩
  cases part <;> first | exact absurd (by decide) hpart | rfl

end Tables

/-! ## Sending -/

section Sending

variable (config : Config) (p : Nat)

theorem enqueueRpc_touches (rpc : Rpc) (lifetimeUs : Nat) (priority : Bool) :
    Touches [.tx] (enqueueRpc config p rpc lifetimeUs priority) := by
  refine ⟨fun r => ⟨fun part hpart => ?_⟩⟩
  cases part <;> first | exact absurd (by decide) hpart | rfl

theorem enqueuePrune_touches (topic : Topic) : Touches [.tx] (enqueuePrune config p topic) :=
  enqueueRpc_touches ..

theorem enqueueIwant_touches (messageId : Span) : Touches [.tx] (enqueueIwant config p messageId) :=
  enqueueRpc_touches ..

theorem enqueueSubscription_touches (topic : Topic) (subscribe : UInt8) :
    Touches [.tx] (enqueueSubscription config p topic subscribe) := enqueueRpc_touches ..

theorem enqueueIdontwant_touches (messageId : Bytes) :
    Touches [.tx] (enqueueIdontwant config p messageId) := enqueueRpc_touches ..

theorem recordGraft_agrees (t : Nat) (r : Router) :
    Router.Agrees [.grafts] r (recordGraft config p t r) := by
  refine ⟨fun part hpart => ?_⟩
  cases part <;> first | exact absurd (by decide) hpart | rfl

theorem enqueueGraft_touches (t : Nat) : Touches [.tx, .grafts] (enqueueGraft config p t) := by
  refine .bind (.read _) fun r => .bind ((enqueueRpc_touches ..).mono (by decide)) fun _ => ?_
  exact .update fun r => (recordGraft_agrees config p t r).mono (by decide)

theorem recordQueued_agrees (messages : List QueuedMessage) (r : Router) :
    Router.Agrees [.queued] r (recordQueued messages r) := by
  refine ⟨fun part hpart => ?_⟩
  cases part <;> first | exact absurd (by decide) hpart | rfl

theorem enqueueIhave_touches (topic : Topic) (entries : List McacheEntry) :
    Touches [.tx, .queued] (enqueueIhave config p topic entries) := by
  refine .ite (.fail _) (.bind ((enqueueRpc_touches ..).mono (by decide)) fun _ => ?_)
  exact .update fun r => (recordQueued_agrees _ r).mono (by decide)

theorem enqueuePublishEntryWithLifetime_touches (entry : McacheEntry) (lifetimeUs : Nat)
    (priority : Bool) : Touches [.tx, .queued]
      (enqueuePublishEntryWithLifetime config p entry lifetimeUs priority) := by
  refine ⟨fun r => ?_⟩
  unfold enqueuePublishEntryWithLifetime
  split <;>
  · refine ⟨fun part hpart => ?_⟩
    cases part <;> first | exact absurd (by decide) hpart | rfl

theorem setPeer_counter_agrees (r : Router) (n : Nat) :
    Router.Agrees [.idontwantSent] r
      (r.setPeer p { r.peers p with idontwantSentThisHeartbeat := n }) := by
  refine ⟨fun part hpart => ?_⟩
  cases part with
  | peers =>
    funext q
    change Peer.mk .. = Peer.mk ..
    by_cases hq : q = p
    · subst hq
      simp [Router.setPeer]
    · simp [Router.setPeer, hq]
  | identities =>
    funext q
    change Prod.mk .. = Prod.mk ..
    by_cases hq : q = p
    · subst hq
      simp [Router.setPeer]
    · simp [Router.setPeer, hq]
  | idontwantSent => exact absurd (by decide) hpart
  | _ => rfl

/-- A peer keeps its slot while other things about it change. -/
theorem setPeer_agrees (r : Router) (peer : Peer) (hused : peer.used = (r.peers p).used)
    (hid : peer.peerId = (r.peers p).peerId)
    (hsent : peer.idontwantSentThisHeartbeat = (r.peers p).idontwantSentThisHeartbeat) :
    Router.Agrees [.peers] r (r.setPeer p peer) := by
  refine ⟨fun part hpart => ?_⟩
  cases part with
  | peers => exact absurd (by decide) hpart
  | identities =>
    funext q
    change Prod.mk .. = Prod.mk ..
    by_cases hq : q = p
    · subst hq
      simp [Router.setPeer, hused, hid]
    · simp [Router.setPeer, hq]
  | idontwantSent =>
    funext q
    change Peer.idontwantSentThisHeartbeat _ = Peer.idontwantSentThisHeartbeat _
    by_cases hq : q = p
    · subst hq
      simp [Router.setPeer, hsent]
    · simp [Router.setPeer, hq]
  | _ => rfl

theorem recordUnwanted_agrees (message : QueuedMessage) (r : Router) :
    Router.Agrees [.unwanted] r (recordUnwanted p message r) := by
  refine ⟨fun part hpart => ?_⟩
  cases part <;> first | exact absurd (by decide) hpart | rfl

theorem enqueueIdontwantForEntry_touches (topic : Topic) (entry : McacheEntry) :
    Touches [.tx, .idontwantSent, .unwanted] (enqueueIdontwantForEntry config p topic entry) := by
  refine .bind (.read _) fun r => .ite (.fail _) (.ite (.bind ?_ fun _ => ?_) (.pure _))
  · exact (enqueueIdontwant_touches ..).mono (by decide)
  · refine .update fun r => Lib.Agrees.trans ?_ ((recordUnwanted_agrees p _ _).mono (by decide))
    exact (setPeer_counter_agrees p r _).mono (by decide)

theorem setTxPeer_agrees (r : Router) (peer : PeerTx) :
    Router.Agrees [.tx] r { r with tx := r.tx.setPeer p peer } := by
  refine ⟨fun part hpart => ?_⟩
  cases part <;> first | exact absurd (by decide) hpart | rfl

theorem reportTxQueueLimit_touches (t slot : Nat) (topic : Topic) (entry : McacheEntry) :
    Touches [.tx, .events, .validations] (reportTxQueueLimit config p t slot topic entry) := by
  refine .bind (.read _) fun r => .ite (.pure _) (.bind ?_ fun _ => ?_)
  · exact (pushEventOrDrop_touches ..).mono (by decide)
  · exact .update fun r => (setTxPeer_agrees p r _).mono (by decide)

theorem enqueueIdontwantForReceivedEntry_touches (topic : Topic) (slot : Nat)
    (entry : McacheEntry) : Touches [.tx, .idontwantSent, .unwanted, .events, .validations]
      (enqueueIdontwantForReceivedEntry config topic slot entry) := by
  refine .bind (.read _) fun r => .bind (orFail_touches ..) fun t => .forOk fun p => ?_
  refine .bind (.read _) fun r => .ite (.bind (.result ?_) fun res => ?_) (.pure _)
  · exact (enqueueIdontwantForEntry_touches ..).mono (by decide)
  · cases res with
    | ok _ => exact .pure _
    | error e => exact .ite ((reportTxQueueLimit_touches ..).mono (by decide)) (.fail _)

theorem sendEntry_touches (topic : Topic) (entry : McacheEntry) {publish : RouterM Unit}
    (h : Touches [.tx, .queued] publish) :
    Touches [.tx, .idontwantSent, .unwanted, .queued] (sendEntry config p topic entry publish) := by
  refine continueAfterLocalLimit_touches (.bind (continueAfterLocalLimit_touches ?_) fun _ => ?_)
  · exact (enqueueIdontwantForEntry_touches ..).mono (by decide)
  · exact h.mono (by decide)

theorem forwardEntry_touches (source : Nat) (entry : McacheEntry) :
    Touches [.tx, .idontwantSent, .unwanted, .queued] (forwardEntry config source entry) := by
  refine .bind (.read _) fun r => .bind (orFail_touches ..) fun t => .forOk fun p => ?_
  refine .bind (.read _) fun r => .ite (sendEntry_touches _ _ _ _ ?_) (.pure _)
  exact enqueuePublishEntryWithLifetime_touches ..

end Sending

/-! ## Mesh and gossip -/

section Heartbeat

variable (config : Config) (t : Nat)

theorem meshFillPeer_touches (p : Nat) (queueGraft : Bool) :
    Touches [.tx, .grafts, .mesh] (meshFillPeer config t p queueGraft) := by
  refine .bind ((meshAdd_touches ..).mono (by decide)) fun _ => .ite (.bind (.result ?_) fun res => ?_)
    (.pure _)
  · exact (enqueueGraft_touches ..).mono (by decide)
  · cases res with
    | ok _ => exact .pure _
    | error e =>
      refine .bind (.update fun r => ?_) fun _ => .fail _
      exact (meshRemove_agrees config p t r).mono (by decide)

theorem meshFillLoop_touches (salt : UInt64) (queueGraft : Bool) (fuel : Nat) :
    Touches [.tx, .grafts, .mesh] (meshFillLoop config t salt queueGraft fuel) := by
  induction fuel with
  | zero => exact .pure _
  | succ fuel ih =>
    refine .bind (.read _) fun r => ?_
    split
    · exact .pure _
    · exact .bind (meshFillPeer_touches ..) fun _ => ih

theorem meshFillTopic_touches (target : Nat) (queueGraft : Bool) :
    Touches [.tx, .grafts, .mesh, .random] (meshFillTopic config t target queueGraft) := by
  refine .bind (.read _) fun r => .ite (.fail _) (.ite (.fail _) (.ite ?_ (.pure _)))
  refine .bind ((randomU64_touches config).mono (by decide)) fun salt => ?_
  exact (meshFillLoop_touches ..).mono (by decide)

theorem meshTrimPeer_touches (p : Nat) (queuePrune : Bool) :
    Touches [.tx, .mesh, .backoff] (meshTrimPeer config t p queuePrune) := by
  have hremove : Touches [.tx, .mesh, .backoff] (Comp.update (meshRemove config p t)) :=
    .update fun r => (meshRemove_agrees config p t r).mono (by decide)
  unfold meshTrimPeer
  dsimp only
  refine .ite (.bind (.read _) fun r => .bind ?_ fun _ => .bind ?_ fun _ => hremove) hremove
  · exact (enqueuePrune_touches ..).mono (by decide)
  · exact (backoffAdd_touches ..).mono (by decide)

theorem meshTrimLoop_touches (salt : UInt64) (queuePrune : Bool) (fuel : Nat) :
    Touches [.tx, .mesh, .backoff] (meshTrimLoop config t salt queuePrune fuel) := by
  induction fuel with
  | zero => exact .pure _
  | succ fuel ih =>
    refine .bind (.read _) fun r => ?_
    split
    · exact .pure _
    · exact .bind (meshTrimPeer_touches ..) fun _ => ih

theorem meshTrimTopic_touches (target : Nat) (queuePrune : Bool) :
    Touches [.tx, .mesh, .backoff, .random] (meshTrimTopic config t target queuePrune) := by
  refine .bind (.read _) fun r => .ite (.fail _) (.ite ?_ (.pure _))
  refine .bind ((randomU64_touches config).mono (by decide)) fun salt => ?_
  exact (meshTrimLoop_touches ..).mono (by decide)

theorem meshHeartbeat_touches :
    Touches [.tx, .grafts, .mesh, .backoff, .random] (meshHeartbeat config) := by
  refine .forOk fun t => .bind (.read _) fun r => .ite (.ite ?_ (.ite ?_ (.pure _))) (.pure _)
  · exact (meshFillTopic_touches ..).mono (by decide)
  · exact (meshTrimTopic_touches ..).mono (by decide)

theorem emitTopicGossipLoop_touches (salt : UInt64) (entries : List McacheEntry) (fuel : Nat)
    (previous : Option Nat) :
    Touches [.tx, .queued] (emitTopicGossipLoop config t salt entries fuel previous) := by
  induction fuel generalizing previous with
  | zero => exact .pure _
  | succ fuel ih =>
    refine .bind (.read _) fun r => ?_
    split
    · exact .pure _
    · exact .bind (enqueueIhave_touches ..) fun _ => ih _

theorem emitTopicGossip_touches :
    Touches [.tx, .queued, .random] (emitTopicGossip config t) := by
  refine .bind (.read _) fun r => ?_
  dsimp only
  refine .ite (.bind ?_ fun salt => ?_) (.bind (.pure _) fun salt => ?_)
  · exact (randomU64_touches config).mono (by decide)
  · exact (emitTopicGossipLoop_touches ..).mono (by decide)
  · exact (emitTopicGossipLoop_touches ..).mono (by decide)

theorem emitGossip_touches : Touches [.tx, .queued, .random] (emitGossip config) :=
  .forOk fun _ => .bind (.read _) fun _ => .ite (emitTopicGossip_touches ..) (.pure _)

end Heartbeat

/-! ## Received RPCs -/

section Process

variable (config : Config) (p : Nat)

theorem subscriptionMesh_touches (t : Nat) (subscribe : UInt8) :
    Touches [.tx, .grafts, .mesh, .random] (subscriptionMesh config p t subscribe) := by
  refine .bind (.read _) fun r => .ite (meshFillTopic_touches ..) (.ite (.update fun r => ?_) (.pure _))
  exact (meshRemove_agrees config p t r).mono (by decide)

theorem processSubscription_touches (sub : RpcSubscription) :
    Touches [.topics, .peerTopics, .events, .validations, .tx, .grafts, .mesh, .random]
      (processSubscription config p sub) := by
  refine continueAfterLocalLimit_touches (.ite (.fail _) ?_)
  refine .bind ((findOrAddTopic_touches ..).mono (by decide)) fun o => ?_
  refine .bind (orFail_touches ..) fun t => ?_
  refine .bind ((findOrAddPeerTopic_touches ..).mono (by decide)) fun o => ?_
  refine .bind (orFail_touches ..) fun i => ?_
  refine .bind (.update fun r => (setPeerTopic_agrees r i _).mono (by decide)) fun _ => ?_
  refine .bind (.read _) fun r => ?_
  refine .bind ((pushEventOrDrop_touches ..).mono (by decide)) fun _ => ?_
  exact (subscriptionMesh_touches ..).mono (by decide)

theorem deliverEntry_touches (t slot nowUs : Nat) :
    Touches [.tx, .idontwantSent, .unwanted, .queued, .events, .validations]
      (deliverEntry config p t slot nowUs) := by
  refine .bind (.read _) fun r => ?_
  refine .bind ((enqueueIdontwantForReceivedEntry_touches ..).mono (by decide)) fun _ => ?_
  refine .bind (.read _) fun r' => ?_
  dsimp only
  cases (r.topics t).validationMode with
  | requireApp =>
    refine .bind ((allocValidation_touches ..).mono (by decide)) fun o => ?_
    cases o with
    | none => exact .pure _
    | some v => exact (pushEventOrDrop_touches ..).mono (by decide)
  | acceptAll =>
    refine .bind ((pushEventOrDrop_touches ..).mono (by decide)) fun _ => ?_
    exact (forwardEntry_touches ..).mono (by decide)

theorem acceptMessage_touches (message : Message) (messageId : Bytes) (nowUs : Nat) :
    Touches [.tx, .idontwantSent, .unwanted, .queued, .events, .validations, .mcache, .messages]
      (acceptMessage config p message messageId nowUs) := by
  refine .bind (.read _) fun r => ?_
  split
  · exact (pushEventOrDrop_touches ..).mono (by decide)
  · refine .bind ((mcacheStore_touches ..).mono (by decide)) fun slot => ?_
    exact (deliverEntry_touches ..).mono (by decide)

theorem processMessage_touches (message : Message) (nowUs : Nat) :
    Touches [.tx, .idontwantSent, .unwanted, .queued, .events, .validations, .mcache, .messages,
      .seen, .accepted]
      (processMessage config p message nowUs) := by
  refine continueAfterLocalLimit_touches (.ite (.fail _) (.bind (.ofResult _) fun messageId => ?_))
  refine .bind (.read _) fun r => .ite (.bind ?_ fun _ => .fail _) (.bind ?_ fun _ => ?_)
  · exact (pushEventOrDrop_touches ..).mono (by decide)
  · exact .update fun r => (seenAdd_agrees config messageId nowUs r).mono (by decide)
  · exact (acceptMessage_touches ..).mono (by decide)

theorem setTx_agrees (r : Router) (tx : Tx) : Router.Agrees [.tx] r { r with tx := tx } := by
  refine ⟨fun part hpart => ?_⟩
  cases part <;> first | exact absurd (by decide) hpart | rfl

theorem processIdontwant_touches (idontwant : ControlIdontwant) (nowUs : Nat) :
    Touches [.tx, .idontwant, .events, .validations]
      (processIdontwant config p idontwant nowUs) := by
  refine .ite (.fail _) (.forOk fun messageId => ?_)
  refine .bind (.update fun r => (peerIdontwantAdd_agrees config p messageId nowUs r).mono (by decide))
    fun _ => ?_
  refine .bind (.update fun r => (setTx_agrees r _).mono (by decide)) fun _ => ?_
  exact .bind (.read _) fun r => (pushEventOrDrop_touches ..).mono (by decide)

theorem refuseGraft_touches (t nowUs : Nat) :
    Touches [.tx, .backoff] (refuseGraft config p t nowUs) := by
  refine .bind (.read _) fun r => .bind ((enqueuePrune_touches ..).mono (by decide)) fun _ => ?_
  exact (backoffAdd_touches ..).mono (by decide)

theorem processGraft_touches (nowUs : Nat) (graft : ControlGraft) :
    Touches [.topics, .mesh, .tx, .backoff] (processGraft config p nowUs graft) := by
  refine continueAfterLocalLimit_touches ?_
  refine .bind ((findOrAddTopic_touches ..).mono (by decide)) fun o => ?_
  refine .bind (orFail_touches ..) fun t => .bind (.read _) fun r => .ite ?_ ?_
  · exact (meshAdd_touches ..).mono (by decide)
  · exact (refuseGraft_touches ..).mono (by decide)

theorem processPrune_touches (nowUs : Nat) (prune : ControlPrune) :
    Touches [.mesh, .backoff] (processPrune config p nowUs prune) := by
  refine continueAfterLocalLimit_touches (.bind (.read _) fun r => ?_)
  split
  · exact .pure _
  · rename_i t _
    refine .bind (.update fun r => (meshRemove_agrees config p t r).mono (by decide)) fun _ => ?_
    exact (backoffAdd_touches ..).mono (by decide)

theorem processIwantId_touches (messageId : Span) :
    Touches [.tx, .queued] (processIwantId config p messageId) := by
  refine .bind (.read _) fun r => ?_
  split
  · exact .pure _
  · exact continueAfterLocalLimit_touches (enqueuePublishEntryWithLifetime_touches ..)

theorem processIhaveId_touches (nowUs : Nat) (messageId : Span) :
    Touches [.tx] (processIhaveId config p nowUs messageId) :=
  .bind (.read _) fun _ => .ite (.pure _) (continueAfterLocalLimit_touches (enqueueIwant_touches ..))

theorem processRpc_touches (rpc : Rpc) (nowUs : Nat) :
    Touches [.topics, .peerTopics, .events, .validations, .tx, .grafts, .mesh, .random,
      .idontwantSent, .unwanted, .queued, .mcache, .messages, .seen, .accepted, .idontwant, .backoff]
      (processRpc config p rpc nowUs) := by
  refine .ite (.fail _) (.bind ?_ fun _ => .bind (.forOk fun iwant => .forOk fun id => ?_) fun _ =>
    .forOk fun ihave => .forOk fun id => ?_)
  · refine .bind (.forOk fun sub => ?_) fun _ => .bind (.forOk fun message => .absorb ?_) fun _ =>
      .bind (.forOk fun x => ?_) fun _ => .bind (.forOk fun x => ?_) fun _ => .forOk fun x => ?_
    · exact (processSubscription_touches ..).mono (by decide)
    · exact (processMessage_touches ..).mono (by decide)
    · exact (processIdontwant_touches ..).mono (by decide)
    · exact (processGraft_touches ..).mono (by decide)
    · exact (processPrune_touches ..).mono (by decide)
  · exact (processIwantId_touches ..).mono (by decide)
  · exact (processIhaveId_touches ..).mono (by decide)

end Process

/-! ## Application -/

section Api

variable (config : Config)

theorem announceSubscription_touches (t : Nat) (subscribe : UInt8) :
    Touches [.tx] (announceSubscription config t subscribe) :=
  .forOk fun _ => .bind (.read _) fun _ => .ite (enqueueSubscription_touches ..) (.pure _)

theorem publishEntry_touches (t : Nat) (entry : McacheEntry) :
    Touches [.tx, .idontwantSent, .unwanted, .queued] (publishEntry config t entry) := by
  refine .forOk fun p => .bind (.read _) fun r => .ite (sendEntry_touches _ _ _ _ ?_) (.pure _)
  exact enqueuePublishEntryWithLifetime_touches ..

theorem nextEvent_touches : Touches [.events] (nextEvent config) := by
  refine ⟨fun r => ?_⟩
  unfold nextEvent
  split
  · exact .refl r
  · refine ⟨fun part hpart => ?_⟩
    cases part <;> first | exact absurd (by decide) hpart | rfl

theorem reportValidation_touches (v : Nat) (value : ValidationResult) :
    Touches [.tx, .idontwantSent, .unwanted, .queued, .validations]
      (reportValidation config v value) := by
  have hrelease : ∀ r : Router, Router.Agrees [.tx, .idontwantSent, .unwanted, .queued, .validations]
      r (r.releaseValidation (some v)) := by
    intro r
    exact (releaseValidation_agrees ..).mono (by decide)
  refine ⟨fun r => ?_⟩
  unfold reportValidation
  dsimp only
  split
  · exact .refl r
  · split
    · exact hrelease r
    · split
      · exact .trans (((forwardEntry_touches ..).agrees r).mono (by decide)) (hrelease _)
      · exact hrelease r

theorem meshRemoveTopic_agrees (t : Nat) (r : Router) :
    Router.Agrees [.mesh] r (meshRemoveTopic config t r) := by
  refine ⟨fun part hpart => ?_⟩
  cases part <;> first | exact absurd (by decide) hpart | rfl

theorem subscribe_touches (request : TopicConfig) :
    Touches [.topics, .tx, .grafts, .mesh, .random] (subscribe config request) := by
  refine .ite (.fail _) (.bind ((findOrAddTopic_touches ..).mono (by decide)) fun o => ?_)
  refine .bind (orFail_touches ..) fun t => ?_
  refine .bind (.update fun r => (setTopic_agrees r t _).mono (by decide)) fun _ => ?_
  refine .bind ((announceSubscription_touches ..).mono (by decide)) fun _ => ?_
  exact (meshFillTopic_touches ..).mono (by decide)

theorem unsubscribe_touches (topic : Span) :
    Touches [.topics, .tx, .mesh, .backoff, .random] (unsubscribe config topic) := by
  refine .ite (.fail _) (.bind (.read _) fun r => .bind (orFail_touches ..) fun t => ?_)
  refine .bind ((meshTrimTopic_touches ..).mono (by decide)) fun _ => ?_
  refine .bind (.update fun r => (meshRemoveTopic_agrees config t r).mono (by decide)) fun _ => ?_
  refine .bind (.update fun r => (setTopic_agrees r t _).mono (by decide)) fun _ => ?_
  exact (announceSubscription_touches ..).mono (by decide)

theorem publish_touches (request : Publish) (outLen : Option Nat) :
    Touches [.topics, .mcache, .messages, .seen, .accepted, .tx, .idontwantSent, .unwanted, .queued]
      (publish config request outLen) := by
  refine .ite (.fail _) (.bind (.ofResult _) fun messageId => .ite (.fail _) (.bind ?_ fun o => ?_))
  · exact (findOrAddTopic_touches ..).mono (by decide)
  refine .bind (orFail_touches ..) fun t => ?_
  refine .bind ((mcacheStore_touches ..).mono (by decide)) fun slot => ?_
  refine .bind (.update fun r => (seenAdd_agrees config messageId _ r).mono (by decide)) fun _ => ?_
  refine .bind (.read _) fun r => .bind ?_ fun _ => .pure _
  exact (publishEntry_touches ..).mono (by decide)

theorem setPeerExplicit_touches (peerId : Bytes) (isExplicit : Bool) :
    Touches [.peers] (setPeerExplicit config peerId isExplicit) := by
  refine .ite (.fail _) (.bind (.read _) fun r => .bind (orFail_touches ..) fun p => ?_)
  exact .update fun r => setPeer_agrees p r _ rfl rfl rfl

end Api

/-! ## Host -/

section Host

variable (config : Config)

theorem start_agrees (nowUs : Nat) (r : Router) :
    Router.Agrees [.clock] r (start config nowUs r) := by
  refine ⟨fun part hpart => ?_⟩
  cases part <;> first | exact absurd (by decide) hpart | rfl

theorem close_agrees (r : Router) : Router.Agrees [.clock] r (close r) := by
  refine ⟨fun part hpart => ?_⟩
  cases part <;> first | exact absurd (by decide) hpart | rfl

theorem setTime_agrees (tx : Tx) (nowUs : Nat) (r : Router) :
    Router.Agrees [.tx, .clock] r { r with tx := tx, lastDriveUs := nowUs } := by
  refine ⟨fun part hpart => ?_⟩
  cases part <;> first | exact absurd (by decide) hpart | rfl

theorem setSent_agrees (tx : Tx) (sent : Nat → List Bytes) (r : Router) :
    Router.Agrees [.tx, .sent] r { r with tx := tx, history := { r.history with sent := sent } } := by
  refine ⟨fun part hpart => ?_⟩
  cases part <;> first | exact absurd (by decide) hpart | rfl

theorem flushReady_touches (nowUs : Nat) (answers : WriteAnswers) :
    Touches [.tx, .sent] (flushReady config nowUs answers) := by
  refine ⟨fun r => ⟨fun part hpart => ?_⟩⟩
  cases part <;> first | exact absurd (by decide) hpart | rfl

theorem setStream_agrees (r : Router) (i : Nat) (stream : StreamState) :
    Router.Agrees [.streams] r (r.setStream i stream) := by
  refine ⟨fun part hpart => ?_⟩
  cases part <;> first | exact absurd (by decide) hpart | rfl

theorem allocStream_touches : Touches [.streams] (allocStream config) := by
  refine ⟨fun r => ?_⟩
  unfold allocStream
  split
  · exact .refl r
  · exact setStream_agrees ..

theorem announceOpen_touches (stream : Nat) (direction : Host.Direction)
    (version : ProtocolVersion) (p : Nat) (selected : Bool) :
    Touches [.tx, .events, .validations]
      (announceOpen config stream direction version p selected) := by
  refine .bind (.read _) fun r => .bind ((pushEventOrDrop_touches ..).mono (by decide)) fun _ => ?_
  refine .onlyIf (.forOk fun t => .bind (.read _) fun r => .ite ?_ (.pure _))
  exact continueAfterLocalLimit_touches ((enqueueSubscription_touches ..).mono (by decide))

theorem expireTables_agrees (nowUs : Nat) (r : Router) :
    Router.Agrees [.mcache, .seen, .idontwant, .validations, .clock] r
      (expireTables config nowUs r) := by
  refine ⟨fun part hpart => ?_⟩
  cases part <;> first | exact absurd (by decide) hpart | rfl

theorem backoffClearExpired_agrees (nowUs : Nat) (r : Router) :
    Router.Agrees [.backoff] r (backoffClearExpired config nowUs r) := by
  refine ⟨fun part hpart => ?_⟩
  cases part <;> first | exact absurd (by decide) hpart | rfl

theorem resetIdontwantSent_agrees (r : Router) :
    Router.Agrees [.idontwantSent] r (resetIdontwantSent config r) := by
  refine ⟨fun part hpart => ?_⟩
  cases part with
  | peers =>
    funext q
    change Peer.mk .. = Peer.mk ..
    by_cases hq : q < config.capacity.maxPeers ∧ (r.peers q).used
    · simp [resetIdontwantSent, hq]
    · simp [resetIdontwantSent, hq]
  | identities =>
    funext q
    change Prod.mk .. = Prod.mk ..
    by_cases hq : q < config.capacity.maxPeers ∧ (r.peers q).used
    · simp [resetIdontwantSent, hq]
    · simp [resetIdontwantSent, hq]
  | idontwantSent => exact absurd (by decide) hpart
  | _ => rfl

theorem closeStreams_agrees (conn : Nat) (r : Router) :
    Router.Agrees [.streams] r (closeStreams config conn r) := by
  refine ⟨fun part hpart => ?_⟩
  cases part <;> first | exact absurd (by decide) hpart | rfl

theorem streamWritable_agrees (i : Nat) (r : Router) :
    Router.Agrees [.tx] r (streamWritable config i r) := by
  unfold streamWritable
  dsimp only
  split
  · exact setTx_agrees ..
  · exact .refl r

theorem heartbeatMesh_agrees (nowUs : Nat) (r : Router) :
    Router.Agrees [.tx, .idontwantSent, .backoff, .grafts, .mesh, .random] r
      (heartbeatMesh config nowUs r) := by
  apply Lib.Agrees.trans
  · exact (resetIdontwantSent_agrees config r).mono (by decide)
  · apply Lib.Agrees.trans
    · exact (backoffClearExpired_agrees config nowUs _).mono (by decide)
    · exact ((meshHeartbeat_touches config).agrees _).mono (by decide)

theorem heartbeat_agrees (nowUs : Nat) (r : Router) :
    Router.Agrees [.tx, .clock, .idontwantSent, .backoff, .grafts, .mesh, .random, .queued, .mcache,
      .seen, .idontwant, .validations] r (heartbeat config nowUs r) := by
  apply Lib.Agrees.trans
  · exact (heartbeatMesh_agrees config nowUs r).mono (by decide)
  · apply Lib.Agrees.trans
    · exact ((emitGossip_touches config).agrees _).mono (by decide)
    · exact (expireTables_agrees config nowUs _).mono (by decide)

theorem drive_touches (nowUs : Nat) (answers : WriteAnswers) :
    Touches [.tx, .clock, .idontwantSent, .backoff, .grafts, .mesh, .random, .queued, .mcache,
      .seen, .idontwant, .validations, .sent] (drive config nowUs answers) := by
  refine .bind (.update fun r => (setTime_agrees _ nowUs r).mono (by decide)) fun _ => ?_
  refine .bind (.update fun r => ?_) fun _ => (flushReady_touches ..).mono (by decide)
  split
  · exact (heartbeat_agrees ..).mono (by decide)
  · exact .refl r

theorem dropWriter_agrees (p : Nat) (r : Router) :
    Router.Agrees [.tx, .mesh, .peers] r (dropWriter config p r) := by
  have hmesh : Router.Agrees [.tx, .mesh, .peers] r (meshRemovePeer config p
      { r with tx := dropQueuedPeer config r.peers p r.tx }) := by
    refine ⟨fun part hpart => ?_⟩
    cases part <;> first | exact absurd (by decide) hpart | rfl
  have hpeer : ∀ r' : Router, Router.Agrees [.tx, .mesh, .peers] r'
      (r'.setPeer p { r'.peers p with stream := none }) := by
    intro r'
    have hset := setPeer_agrees p r' { r'.peers p with stream := none } rfl rfl rfl
    exact hset.mono (by decide)
  exact (hmesh.trans (hpeer _)).trans ((setTx_agrees ..).mono (by decide))

theorem streamEnd_touches (i : Nat) :
    Touches [.events, .validations, .tx, .mesh, .peers, .streams] (streamEnd config i) := by
  refine .bind (.read _) fun r => .bind (.onlyIf (.bind ?_ fun _ => ?_)) fun _ => ?_
  · exact (pushEventOrDrop_touches ..).mono (by decide)
  · exact .update fun r => (dropWriter_agrees ..).mono (by decide)
  · exact .update fun r => (setStream_agrees r i _).mono (by decide)

theorem connClosed_touches (conn : Nat) :
    Touches [.events, .validations, .tx, .mesh, .peers, .streams] (connClosed config conn) := by
  refine .bind (.forOk fun p => .bind (.read _) fun r => .onlyIf ?_) fun _ => ?_
  · refine .bind ((pushEventOrDrop_touches ..).mono (by decide)) fun _ => ?_
    refine .bind (.update fun r => (dropWriter_agrees ..).mono (by decide)) fun _ => ?_
    exact .update fun r =>
      (setPeer_agrees p r { r.peers p with conn := none } rfl rfl rfl).mono (by decide)
  · exact .update fun r => (closeStreams_agrees ..).mono (by decide)

end Host

end LeanLibp2p.Gossipsub
