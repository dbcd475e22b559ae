import LeanLibp2p.Gossipsub.Router.EventQueue

/-!
# What events are about

Each event that the router pushes while it handles an RPC shows the bytes of the element that it
is about: the topic of a subscription, the topic, data and id of a message, the ids of an
IDONTWANT. All other events are about streams, and show nothing.
-/

namespace LeanLibp2p.Gossipsub

open LeanLibp2p.Lib

/-- What an event without spans shows. -/
def EventView.blank : EventView := ⟨some [], some [], some [], some [], some []⟩

/-- What an event about a message shows. -/
def Message.shownBy (message : Message) (messageId : Bytes) (event : Event) : EventView :=
  match event.type, event.dropReason with
  | .message, _ =>
    { EventView.blank with
      topic := some message.topic.bytes
      messageTopic := some message.topic.bytes
      messageData := some message.data.bytes
      messageId := some messageId }
  | _, .duplicateMessage => { EventView.blank with messageId := some messageId }
  | _, _ =>
    { EventView.blank with topic := some message.topic.bytes, messageId := some messageId }

/-- The event is about the subscription. -/
structure RpcSubscription.ShownBy (sub : RpcSubscription) (e : PushedEvent) : Prop where
  type : e.event.type = .subscription
  shown : e.shown = { EventView.blank with topic := some sub.topic.bytes }

/-- The event is about the message with the id computed for it. -/
structure Message.ShownBy (config : Config) (message : Message) (e : PushedEvent) : Prop where
  type : e.event.type = .message ∨ e.event.type = .dropped
  shown : ∃ messageId, computeMessageId config message = .ok messageId ∧
    e.shown = message.shownBy messageId e.event

/-- The event is about an id of the IDONTWANT. -/
structure ControlIdontwant.ShownBy (idontwant : ControlIdontwant) (e : PushedEvent) : Prop where
  type : e.event.type = .idontwant
  shown : ∃ messageId ∈ idontwant.messageIds, e.shown = { EventView.blank with
    messageId := some messageId.bytes
    idontwant := some (idontwant.messageIds.map Span.bytes) }

/-- The event is about an element of the RPC. -/
inductive PushedEvent.IsAbout (config : Config) (rpc : Rpc) (e : PushedEvent) : Prop where
  | subscription (sub : RpcSubscription) (hmem : sub ∈ rpc.subscriptions) (hshown : sub.ShownBy e)
  | message (message : Message) (hmem : message ∈ rpc.publish) (hshown : message.ShownBy config e)
  | idontwant (idontwant : ControlIdontwant) (hmem : idontwant ∈ rpc.control.idontwant)
      (hshown : idontwant.ShownBy e)

/-- The event is about a stream or a connection. -/
structure PushedEvent.IsPlain (e : PushedEvent) : Prop where
  type : e.event.type = .peerOpened ∨ e.event.type = .peerClosed ∨ e.event.type = .peerFailed
  shown : e.shown = EventView.blank

/-! ## Pushing while the stores stay -/

/-- From `r` to `r'` only events that satisfy `P` were pushed, and what topics and cached messages
    show is the same. -/
structure Pushing (P : PushedEvent → Prop) (r r' : Router) : Prop where
  pushed : Router.PushedAll P r r'
  topics : r'.topics = r.topics
  mcache : r'.mcache = r.mcache

namespace Pushing

variable {P : PushedEvent → Prop} {r r' : Router}

theorem refl (r : Router) : Pushing P r r := ⟨.refl r, rfl, rfl⟩

theorem of_agrees {touched : List Part} {r'' : Router} (h : Pushing P r r')
    (hagrees : Router.Agrees touched r' r'')
    (huntouched : Part.untouched [.events, .topics, .mcache] touched = true) :
    Pushing P r r'' := by
  have hnot : ∀ part ∈ [Part.events, .topics, .mcache], part ∉ touched :=
    fun part hpart => Part.not_mem_of_untouched huntouched hpart
  refine ⟨?_, ?_, ?_⟩
  · have heq := hagrees.eq .events (hnot _ (by simp))
    exact h.pushed.trans (.of_same (congrArg Prod.fst heq) (congrArg Prod.snd heq))
  · exact (hagrees.eq .topics (hnot _ (by simp))).trans h.topics
  · exact (hagrees.eq .mcache (hnot _ (by simp))).trans h.mcache

theorem of_touches {α : Type} {touched : List Part} {c : RouterM α} (hc : Touches touched c)
    (huntouched : Part.untouched [.events, .topics, .mcache] touched = true) :
    Comp.Keeps (Pushing P r) c :=
  hc.keeps fun _ _ hagrees h => h.of_agrees hagrees huntouched

theorem orFail {α : Type} (e : GossipsubErr) (o : Option α) :
    Comp.Keeps (Pushing P r) (orFail e o) := of_touches (orFail_touches [] e o) rfl

/-- An event that satisfies `P` as long as the stores stay. -/
theorem push {config : Config} {event : Event}
    (hevent : ∀ r' : Router, r'.topics = r.topics → r'.mcache = r.mcache →
      P ⟨event, event.view r' true⟩) :
    Comp.Keeps (Pushing P r) (pushEventOrDrop config event) := by
  intro r' h
  have hagrees := (pushEventOrDrop_touches config event).agrees r'
  refine ⟨h.pushed.push (hevent r' h.topics h.mcache), ?_, ?_⟩
  · exact (hagrees.eq .topics (by decide)).trans h.topics
  · exact (hagrees.eq .mcache (by decide)).trans h.mcache

end Pushing

/-! ## Received RPCs -/

section Process

variable {config : Config} {p : Nat} {r : Router}

theorem processSubscription_pushes (sub : RpcSubscription) :
    Router.PushedAll sub.ShownBy r (processSubscription config p sub r).2 := by
  unfold processSubscription continueAfterLocalLimit
  rw [Comp.absorb_state]
  split
  · exact .refl r
  have hadded : ∀ {res r'}, findOrAddTopic config sub.topic r = (res, r') →
      Router.PushedAll sub.ShownBy r r' := fun hrun =>
    Router.PushedAll.of_agrees (.refl r) ((findOrAddTopic_touches ..).of_run hrun) rfl
  refine Comp.after_bind (fun e r' hrun => hadded hrun) fun o r' hrun => ?_
  cases o with
  | none => exact hadded hrun
  | some t =>
    have htopic := (findOrAddTopic_some hrun).2.2
    apply (hadded hrun).trans
    rw [Comp.bind_of_ok (orFail_some ..)]
    have hrest : Comp.Keeps (Pushing sub.ShownBy r') (do
        let i ← (← findOrAddPeerTopic config p t) |> orFail .limit
        Comp.update fun r => r.setPeerTopic i { r.peerTopics i with subscribed := sub.subscribe }
        let r ← Comp.read id
        pushEventOrDrop config ({ Event.zero .subscription with
          topic := .topic t (r.topics t).topic.length }.ofPeer (r.peers p))
        subscriptionMesh config p t sub.subscribe) := by
      refine .bind (Pushing.of_touches (findOrAddPeerTopic_touches ..) rfl) fun o => ?_
      refine .bind (Pushing.orFail _ _) fun i => ?_
      refine .bind (.update fun r h => h.of_agrees (setPeerTopic_agrees ..) rfl) fun _ => ?_
      intro r'' h
      rw [Comp.read_id_bind]
      refine Comp.Keeps.bind (Pushing.push fun r₁ htopics hmcache => ?_)
        (fun _ => Pushing.of_touches (subscriptionMesh_touches ..) rfl) r'' h
      refine ⟨rfl, ?_⟩
      change EventView.mk _ _ _ _ _ = _
      simp only [Event.ofPeer, EventSpan.view, htopics, h.topics, htopic, arrayPrefix_length]
      rfl
    exact (hrest r' (.refl r')).pushed

/-- The event of a message in the cache. -/
def delivered (r : Router) (slot : Nat) : Event :=
  let entry := r.mcache.entries slot
  { Event.zero .message with
    topic := .entryTopic slot entry.topic.length
    messageId := .entryId slot entry.messageId.length
    messageTopic := .entryTopic slot entry.topic.length
    messageData := .entryData entry.dataOffset entry.dataLen
    origin := entry.origin }

/-- `gossipsub_process_message` from the cached message on. -/
theorem deliverEntry_pushes {message : Message} {messageId : Bytes} {t slot : Nat} (nowUs : Nat)
    (hid : computeMessageId config message = .ok messageId)
    (htopic : (r.topics t).topic = message.topic.bytes)
    (hentry : (r.mcache.entries slot).messageId = messageId ∧
      (r.mcache.entries slot).topic = message.topic.bytes ∧
      r.mcache.content (r.mcache.entries slot) = message.data.bytes) :
    Router.PushedAll (message.ShownBy config) r (deliverEntry config p t slot nowUs r).2 := by
  rcases hentry with ⟨hentryId, hentryTopic, hcontent⟩
  unfold deliverEntry
  rw [Comp.read_id_bind]
  have hlimit : Comp.Keeps (Pushing (message.ShownBy config) r)
      (enqueueIdontwantForReceivedEntry config (r.topics t) slot (r.mcache.entries slot)) := by
    refine .read_bind fun r₁ h => ?_
    cases hfind : findTopic config r₁ (.ptr (r.mcache.entries slot).topic) with
    | none =>
      rw [id, hfind]
      exact h
    | some u =>
      have hu : (r.topics u).topic = message.topic.bytes := by
        rw [← h.topics, ← hentryTopic]
        exact (findTopic_some hfind).2.2
      rw [id, hfind, Comp.bind_of_ok (orFail_some ..)]
      apply Comp.Keeps.forOk _ r₁ h
      intro q _
      refine .bind (.read _) fun r₂ => .ite (fun _ => .bind (.result ?_) fun res => ?_)
        fun _ => .pure _
      · exact Pushing.of_touches (enqueueIdontwantForEntry_touches ..) rfl
      · cases res with
        | ok _ => exact .pure _
        | error e =>
          refine .ite (fun _ => .bind (.read _) fun r₂ => .ite (fun _ => .pure _) fun _ => ?_)
            fun _ => .fail _
          refine .bind (Pushing.push fun r₃ htopics hmcache => ⟨.inr rfl, messageId, hid, ?_⟩)
            fun _ => .update fun r h => h.of_agrees (setTxPeer_agrees ..) rfl
          change EventView.mk _ _ _ _ _ = _
          simp only [Event.ofPeer, EventSpan.view, htopics, hmcache, hu, hentryId, htopic,
            arrayPrefix_length]
          rfl
  have hevent : ∀ (r' : Router) (peer : Peer) (v : Option Nat), r'.mcache = r.mcache →
      message.ShownBy config
        ⟨{ (delivered r slot).ofPeer peer with validation := v },
          Event.view r' true { (delivered r slot).ofPeer peer with validation := v }⟩ := by
    intro r' peer v hmcache
    refine ⟨.inl rfl, messageId, hid, ?_⟩
    change EventView.mk _ _ _ _ _ = _
    unfold Mcache.content at hcontent
    simp only [delivered, Event.ofPeer, EventSpan.view, hmcache, hentryId, hentryTopic, hcontent,
      arrayPrefix_length]
    rfl
  apply Pushing.pushed
  refine Comp.Keeps.bind hlimit (fun _ => .bind (.read _) fun r' => ?_) r (.refl r)
  dsimp only
  cases (r.topics t).validationMode with
  | requireApp =>
    refine .bind (Pushing.of_touches (allocValidation_touches ..) rfl) fun o => ?_
    cases o with
    | none => exact .pure _
    | some v => exact Pushing.push fun r₁ _ hmcache => hevent r₁ _ _ hmcache
  | acceptAll =>
    refine .bind (Pushing.push fun r₁ _ hmcache => hevent r₁ _ none hmcache) fun _ => ?_
    exact Pushing.of_touches (forwardEntry_touches ..) rfl

theorem acceptMessage_pushes {message : Message} {messageId : Bytes} (nowUs : Nat)
    (hid : computeMessageId config message = .ok messageId) :
    Router.PushedAll (message.ShownBy config) r
      (acceptMessage config p message messageId nowUs r).2 := by
  unfold acceptMessage
  rw [Comp.read_id_bind]
  cases hfind : (findTopic config r message.topic).filter fun t => (r.topics t).localSubscribed with
  | none => exact Router.PushedAll.push (.refl r) ⟨.inr rfl, messageId, hid, rfl⟩
  | some t =>
    have htopic := (findTopic_some (Option.filter_eq_some_iff.mp hfind).1).2.2
    dsimp only
    refine Comp.after_bind (fun e r' hrun => ?_) fun slot r' hrun => ?_
    · exact Router.PushedAll.of_agrees (.refl r) ((mcacheStore_touches ..).of_run hrun) rfl
    · have hagrees : Router.Agrees _ r r' := (mcacheStore_touches ..).of_run hrun
      have htopics : r'.topics = r.topics := hagrees.eq .topics (by decide)
      have hheld := (CacheInvariant.mcacheStore_ok hrun).2.2.2
      have hstored : Router.PushedAll (message.ShownBy config) r r' :=
        Router.PushedAll.of_agrees (.refl r) hagrees rfl
      apply hstored.trans
      apply deliverEntry_pushes nowUs hid
      · rw [htopics]
        exact htopic
      · exact ⟨hheld.messageId, hheld.topic, hheld.content⟩

theorem receiveMessage_pushes (message : Message) (nowUs : Nat) :
    Router.PushedAll (message.ShownBy config) r
      (Comp.absorb (fun e => e = .duplicate) (processMessage config p message nowUs) r).2 := by
  unfold processMessage continueAfterLocalLimit
  rw [Comp.absorb_state, Comp.absorb_state]
  split
  · exact .refl r
  cases hid : computeMessageId config message with
  | error e => exact .refl r
  | ok messageId =>
    rw [Comp.bind_of_ok (Comp.ofResult_apply ..), Comp.read_id_bind]
    split
    · refine Comp.Keeps.bind (fun r' h => ?_) (fun _ => .fail _) r (.refl r)
      exact Router.PushedAll.push h ⟨.inr rfl, messageId, hid, rfl⟩
    · rw [Comp.bind_of_ok (Comp.update_apply ..)]
      have hadded : Router.PushedAll (message.ShownBy config) r (seenAdd config messageId nowUs r) :=
        Router.PushedAll.of_agrees (.refl r) (seenAdd_agrees config messageId nowUs r) rfl
      exact hadded.trans (acceptMessage_pushes nowUs hid)

theorem processIdontwant_pushes (idontwant : ControlIdontwant) (nowUs : Nat) :
    Router.PushedAll idontwant.ShownBy r (processIdontwant config p idontwant nowUs r).2 := by
  have hkeeps : Comp.Keeps (Router.PushedAll idontwant.ShownBy r)
      (processIdontwant config p idontwant nowUs) := by
    refine .ite (fun _ => .fail _) fun _ => .forOk fun messageId hmem => ?_
    refine .bind (.update fun r h => h.of_agrees (peerIdontwantAdd_agrees ..) rfl) fun _ => ?_
    refine .bind (.update fun r h => h.of_agrees (setTx_agrees r _) rfl) fun _ => ?_
    exact .bind (.read _) fun r' r'' h => h.push ⟨rfl, messageId, hmem, rfl⟩
  exact hkeeps r (.refl r)

/-- Each event that is pushed while an RPC is handled is about an element of it. -/
theorem processRpc_pushes (rpc : Rpc) (nowUs : Nat) :
    Router.PushedAll (PushedEvent.IsAbout config rpc) r (processRpc config p rpc nowUs r).2 := by
  have hkeeps : Comp.Keeps (Router.PushedAll (PushedEvent.IsAbout config rpc) r)
      (processRpc config p rpc nowUs) := by
    refine .ite (fun _ => .fail _) fun _ => .bind ?_ fun _ => .bind ?_ fun _ => ?_
    · refine .bind (.forOk fun sub hmem r' h => h.trans ?_) fun _ =>
        .bind (.forOk fun message hmem r' h => h.trans ?_) fun _ =>
          .bind (.forOk fun x hmem r' h => h.trans ?_) fun _ => .bind (.forOk fun graft _ => ?_)
            fun _ => .forOk fun prune _ => ?_
      · exact (processSubscription_pushes sub).mono fun e he => .subscription sub hmem he
      · exact (receiveMessage_pushes message nowUs).mono fun e he => .message message hmem he
      · exact (processIdontwant_pushes x nowUs).mono fun e he => .idontwant x hmem he
      · exact .of_touches (processGraft_touches ..) rfl
      · exact .of_touches (processPrune_touches ..) rfl
    · exact .forOk fun _ _ => .forOk fun _ _ => .of_touches (processIwantId_touches ..) rfl
    · exact .forOk fun _ _ => .forOk fun _ _ => .of_touches (processIhaveId_touches ..) rfl
  exact hkeeps r (.refl r)

end Process

/-! ## Streams and connections -/

section Host

variable {config : Config} {r : Router}

theorem announceOpen_pushes (stream : Nat) (direction : Host.Direction)
    (version : ProtocolVersion) (p : Nat) (selected : Bool) :
    Comp.Keeps (Router.PushedAll PushedEvent.IsPlain r)
      (announceOpen config stream direction version p selected) := by
  refine .bind (.read _) fun r' => .bind (fun r'' h => h.push ⟨.inl rfl, rfl⟩) fun _ => ?_
  refine .onlyIf fun _ => .forOk fun t _ => .bind (.read _) fun r' =>
    .ite (fun _ => .absorb ?_) fun _ => .pure _
  exact .of_touches (enqueueSubscription_touches ..) rfl

theorem streamEnd_pushes (i : Nat) :
    Comp.Keeps (Router.PushedAll PushedEvent.IsPlain r) (streamEnd config i) := by
  refine .bind (.read _) fun r' => .bind (.onlyIf fun _ => .bind ?_ fun _ => ?_) fun _ => ?_
  · exact fun r'' h => h.push ⟨.inr (.inl rfl), rfl⟩
  · exact .update fun r h => h.of_agrees (dropWriter_agrees ..) rfl
  · exact .update fun r h => h.of_agrees (setStream_agrees r i _) rfl

theorem connClosed_pushes (conn : Nat) :
    Comp.Keeps (Router.PushedAll PushedEvent.IsPlain r) (connClosed config conn) := by
  refine .bind (.forOk fun p _ => .bind (.read _) fun r' => .onlyIf fun _ => .bind ?_ fun _ =>
    .bind ?_ fun _ => ?_) fun _ => .update fun r h => h.of_agrees (closeStreams_agrees ..) rfl
  · exact fun r'' h => h.push ⟨.inr (.inl rfl), rfl⟩
  · exact .update fun r h => h.of_agrees (dropWriter_agrees ..) rfl
  · refine .update fun r h => ?_
    exact h.of_agrees (setPeer_agrees p r { r.peers p with conn := none } rfl rfl rfl) rfl

end Host

/-- What the events that an action pushes are about. -/
def Action.pushes (config : Config) (s : Node) (action : Action) (e : PushedEvent) : Prop :=
  match action with
  | .receive i body => ∃ rpc, rpcBodyDecode (s.router.streams i).version config.limits decodeStorage
      body = .ok rpc ∧ e.IsAbout config rpc
  | _ => e.IsPlain

/-- Each event that a step pushes is about an element of the RPC that it handles, or about a
    stream. -/
theorem Node.step_pushes (config : Config) (s : Node) {action : Action}
    (hnot : action ≠ .nextEvent) :
    Router.PushedAll (action.pushes config s) s.router (s.step config action).router := by
  have hagrees := s.step_agrees config action
  cases action with
  | nextEvent => exact absurd rfl hnot
  | receive i body =>
    change Router.PushedAll _ _ (receive config i body s.router).2
    rcases receive_cases config i body s.router with hsame | ⟨rpc, -, hdecode, hrun⟩
    · rw [hsame]
      exact .refl _
    · rw [hrun]
      exact (processRpc_pushes rpc _).mono fun e he => ⟨rpc, hdecode, he⟩
  | streamOpen stream conn peerId direction protocol =>
    refine Comp.Keeps.bind (.of_touches (openStream_touches ..) rfl) (fun x => ?_) _ (.refl _)
    exact announceOpen_pushes _ _ _ _ _
  | streamEnd i => exact streamEnd_pushes i _ (.refl _)
  | connClosed conn => exact connClosed_pushes conn _ (.refl _)
  | streamOpenFailed reason => exact Router.PushedAll.push (.refl _) ⟨.inr (.inr rfl), rfl⟩
  | _ => exact Router.PushedAll.of_agrees (.refl _) hagrees rfl

end LeanLibp2p.Gossipsub
