import LeanLibp2p.Gossipsub.Router.EventSources
import LeanLibp2p.Gossipsub.Router.EventSpans
import LeanLibp2p.Gossipsub.Router.SeenIds

/-!
# What the application sees

A step leaves what queued events show alone when it stores no message where one of them points
to, and pushes no event that points at the temporaries of the call. Under that condition each
event that the application takes shows what it was pushed for.
-/

namespace LeanLibp2p.Gossipsub

open LeanLibp2p.Lib

variable (config : Config)

/-! ## Steps that leave queued events alone -/

/-- An event that points at temporaries is dropped. -/
def QueueFull (r : Router) : Prop :=
  r.events.len = config.capacity.eventCapacity

instance (r : Router) : Decidable (QueueFull config r) :=
  inferInstanceAs (Decidable (_ = _))

/-- `gossipsub_process_message` leaves queued events alone when the message is new: if its topic is
    subscribed, where it is stored, and otherwise the DROPPED event finds no room. -/
def AcceptUndisturbed (p : Nat) (message : Message) (messageId : Bytes) (r : Router) : Prop :=
  match (findTopic config r message.topic).filter fun t => (r.topics t).localSubscribed with
  | none => QueueFull config r
  | some t =>
    Comp.Yields (mcacheStore config (some (p, message)) ((r.topics t).validationMode = .requireApp)
      messageId message.topic message.data) r fun _ _ => StoreUndisturbed config r message.data.len

instance (p : Nat) (message : Message) (messageId : Bytes) (r : Router) :
    Decidable (AcceptUndisturbed config p message messageId r) := by
  unfold AcceptUndisturbed
  split <;> infer_instance

/-- `gossipsub_process_message` leaves queued events alone. -/
def MessageUndisturbed (p nowUs : Nat) (message : Message) (r : Router) : Prop :=
  Comp.Yields (Comp.ofResult (computeMessageId config message)) r fun messageId r =>
    if seenContains config r (.ptr messageId) nowUs then QueueFull config r
    else AcceptUndisturbed config p message messageId (seenAdd config messageId nowUs r)

instance (p nowUs : Nat) (message : Message) (r : Router) :
    Decidable (MessageUndisturbed config p nowUs message r) :=
  inferInstanceAs (Decidable (Comp.Yields ..))

/-- `gossipsub_process_rpc` leaves queued events alone: each message does, and an IDONTWANT finds no
    room for its events. -/
def RpcUndisturbed (p : Nat) (rpc : Rpc) (nowUs : Nat) (r : Router) : Prop :=
  Comp.Yields (Comp.forOk (processSubscription config p) rpc.subscriptions) r fun _ r =>
    Comp.Visits (receiveMessage config p nowUs) (MessageUndisturbed config p nowUs) rpc.publish r ∧
      Comp.Yields (Comp.forOk (receiveMessage config p nowUs) rpc.publish) r fun _ r =>
        Comp.Visits (fun x => processIdontwant config p x nowUs)
          (fun x r => x.messageIds = [] ∨ QueueFull config r) rpc.control.idontwant r

instance (p : Nat) (rpc : Rpc) (nowUs : Nat) (r : Router) :
    Decidable (RpcUndisturbed config p rpc nowUs r) :=
  inferInstanceAs (Decidable (Comp.Yields ..))

/-- The step leaves what queued events point to alone, and pushes no event that points at
    temporaries. -/
def Action.Undisturbed (s : Node) : Action → Prop
  | .receive i body =>
    Comp.Yields (Comp.ofResult (rpcBodyDecode (s.router.streams i).version config.limits
      decodeStorage body)) s.router fun rpc r =>
        RpcUndisturbed config (r.streams i).peerIndex rpc r.lastDriveUs r
  | .publish request outLen =>
    Comp.Yields (publishStored config request outLen) s.router fun _ _ =>
      StoreUndisturbed config s.router request.data.len
  | _ => True

instance (s : Node) (action : Action) : Decidable (action.Undisturbed config s) := by
  unfold Action.Undisturbed
  split <;> infer_instance

/-- The invariant of the event queue while a topic is worked on. -/
structure TopicInvariant (config : Config) (undisturbed : Prop) (t : Nat) (r : Router) : Prop
    extends EventInvariant config undisturbed r where
  used : (r.topics t).used = true

namespace TopicInvariant

variable {config : RouterConfig} {undisturbed : Prop} {t : Nat}

theorem of_touches {α : Type} {touched : List Part} {c : RouterM α} (hc : Touches touched c)
    (huntouched : Part.untouched [.events, .topics, .mcache] touched = true) :
    Comp.Keeps (TopicInvariant config.toConfig undisturbed t) c := by
  intro r h
  have hagrees : Router.Agrees touched r (c r).2 := hc.agrees r
  have htopics : (c r).2.topics = r.topics :=
    hagrees.eq .topics (Part.not_mem_of_untouched huntouched (by simp))
  refine ⟨h.toEventInvariant.of_agrees hagrees huntouched, ?_⟩
  rw [htopics]
  exact h.used

/-- An event about the topic, or about a cached message. -/
theorem push {event : Event} (hspans : ∀ span ∈ event.spans,
      span = .absent ∨ (∃ len, span = .topic t len) ∨ ∃ slot len, span = .entryId slot len)
    (hidontwant : event.idontwant = none) :
    Comp.Keeps (TopicInvariant config.toConfig undisturbed t)
      (pushEventOrDrop config.toConfig event) := by
  intro r h
  refine ⟨h.toEventInvariant.push fun _ _ => ⟨fun span hmem => ?_, hidontwant⟩, ?_⟩
  · rcases hspans span hmem with rfl | ⟨len, rfl⟩ | ⟨slot, len, rfl⟩
    · trivial
    · exact h.used
    · trivial
  · have htopics : (pushEventOrDrop config.toConfig event r).2.topics = r.topics :=
      ((pushEventOrDrop_touches ..).agrees r).eq .topics (by decide)
    rw [htopics]
    exact h.used

theorem reportTxQueueLimit (p slot : Nat) (topic : Topic) (entry : McacheEntry) :
    Comp.Keeps (TopicInvariant config.toConfig undisturbed t)
      (reportTxQueueLimit config.toConfig p t slot topic entry) := by
  refine .bind (.read _) fun r => .ite (fun _ => .pure _) fun _ => .bind (push ?_ rfl) fun _ => ?_
  · intro span hmem
    simp only [Event.spans, Event.ofPeer, Event.zero, List.mem_cons, List.not_mem_nil,
      or_false] at hmem
    rcases hmem with rfl | rfl | rfl | rfl
    · exact .inr (.inl ⟨_, rfl⟩)
    · exact .inl rfl
    · exact .inl rfl
    · exact .inr (.inr ⟨_, _, rfl⟩)
  · exact of_touches (.update fun r => setTxPeer_agrees p r _) rfl

end TopicInvariant

namespace EventInvariant

variable {config : RouterConfig} {undisturbed : Prop} {r r' : Router} {p : Nat}

/-! ## Messages -/

theorem enqueueIdontwantForReceivedEntry (topic : Topic) (slot : Nat) (entry : McacheEntry) :
    Comp.Keeps (EventInvariant config.toConfig undisturbed)
      (enqueueIdontwantForReceivedEntry config.toConfig topic slot entry) := by
  refine .read_bind fun r h => ?_
  cases hfind : findTopic config.toConfig r (.ptr entry.topic) with
  | none =>
    rw [id, hfind]
    exact h
  | some t =>
    rw [id, hfind, Comp.bind_of_ok (orFail_some ..)]
    apply TopicInvariant.toEventInvariant
    apply Comp.Keeps.forOk _ r ⟨h, (findTopic_some hfind).2.1⟩
    intro q _
    refine .bind (.read _) fun r' => .ite (fun _ => .bind (.result ?_) fun res => ?_)
      fun _ => .pure _
    · exact TopicInvariant.of_touches (enqueueIdontwantForEntry_touches ..) rfl
    · cases res with
      | ok _ => exact .pure _
      | error e => exact .ite (fun _ => TopicInvariant.reportTxQueueLimit _ _ _ _) fun _ => .fail _

variable (h : EventInvariant config.toConfig undisturbed r)

include h

/-- `gossipsub_process_message` from the cached message on. -/
theorem deliverEntry {t slot : Nat} (nowUs : Nat) (hregion : (r.mcache.entries slot).dataOffset +
      (r.mcache.entries slot).dataLen ≤ r.mcache.dataUsed) :
    EventInvariant config.toConfig undisturbed
      (deliverEntry config.toConfig p t slot nowUs r).2 := by
  have hevent : ∀ (r' : Router) (peer : Peer) (v : Option Nat), r'.mcache = r.mcache →
      Event.Lasting r' { (delivered r slot).ofPeer peer with validation := v } := by
    intro r' peer v hmcache
    refine ⟨fun span hmem => ?_, rfl⟩
    simp only [delivered, Event.spans, Event.ofPeer, List.mem_cons, List.not_mem_nil,
      or_false] at hmem
    rcases hmem with rfl | rfl | rfl | rfl
    · trivial
    · trivial
    · change _ ≤ r'.mcache.dataUsed
      rw [hmcache]
      exact hregion
    · trivial
  unfold Gossipsub.deliverEntry
  rw [Comp.read_id_bind]
  apply Comp.keeps_bind (enqueueIdontwantForReceivedEntry _ slot _ r h)
  intro _ r₁ hrun h₁
  have hmcache : r₁.mcache = r.mcache :=
    ((enqueueIdontwantForReceivedEntry_touches ..).of_run hrun).eq .mcache (by decide)
  rw [Comp.read_id_bind]
  dsimp only
  cases (r.topics t).validationMode with
  | requireApp =>
    apply Comp.keeps_bind (of_touches (allocValidation_touches ..) rfl r₁ h₁)
    intro o r₂ hrun h₂
    have hmcache' : r₂.mcache = r₁.mcache :=
      ((allocValidation_touches ..).of_run hrun).eq .mcache (by decide)
    cases o with
    | none => exact h₂
    | some v => exact h₂.push fun _ _ => hevent r₂ _ (some v) (hmcache'.trans hmcache)
  | acceptAll =>
    apply Comp.keeps_bind (h₁.push fun _ _ => hevent r₁ _ none hmcache)
    intro _ r₂ _ h₂
    exact of_touches (forwardEntry_touches ..) rfl r₂ h₂

theorem acceptMessage {message : Message} {messageId : Bytes} (nowUs : Nat)
    (hun : undisturbed → AcceptUndisturbed config.toConfig p message messageId r) :
    EventInvariant config.toConfig undisturbed
      (acceptMessage config.toConfig p message messageId nowUs r).2 := by
  unfold Gossipsub.acceptMessage
  unfold AcceptUndisturbed at hun
  rw [Comp.read_id_bind]
  cases hfind : (findTopic config.toConfig r message.topic).filter
      fun t => (r.topics t).localSubscribed with
  | none =>
    rw [hfind] at hun
    exact h.push fun hu hroom => absurd (hun hu) hroom
  | some t =>
    rw [hfind] at hun
    apply Comp.keeps_bind (h.mcacheStore hun)
    intro slot r' hrun h'
    exact h'.deliverEntry nowUs (mcacheStore_region hrun)

theorem receiveMessage {message : Message} {nowUs : Nat}
    (hun : undisturbed → MessageUndisturbed config.toConfig p nowUs message r) :
    EventInvariant config.toConfig undisturbed
      (receiveMessage config.toConfig p nowUs message r).2 := by
  unfold Gossipsub.receiveMessage processMessage continueAfterLocalLimit
  rw [Comp.absorb_state, Comp.absorb_state]
  split
  · exact h
  cases hid : computeMessageId config.toConfig message with
  | error e => exact h
  | ok messageId =>
    have hmessage : undisturbed → _ := fun hu => hun hu messageId r (Prod.ext hid rfl)
    dsimp only at hmessage
    rw [Comp.bind_of_ok (Comp.ofResult_apply ..), Comp.read_id_bind]
    split
    · rename_i hseen
      rw [if_pos hseen] at hmessage
      apply Comp.keeps_bind (h.push fun hu hroom => absurd (hmessage hu) hroom)
      exact fun _ r' _ h' => h'
    · rename_i hunseen
      rw [if_neg hunseen] at hmessage
      rw [Comp.bind_of_ok (Comp.update_apply ..)]
      exact (h.of_agrees (seenAdd_agrees config.toConfig messageId nowUs r) rfl).acceptMessage nowUs
        hmessage

/-! ## Other elements of an RPC -/

omit h in
theorem processSubscription (sub : RpcSubscription) :
    Comp.Keeps (EventInvariant config.toConfig undisturbed)
      (processSubscription config.toConfig p sub) := by
  refine .absorb (.ite (fun _ => .fail _) fun _ => ?_)
  intro r h
  apply Comp.keeps_bind (findOrAddTopic sub.topic r h)
  intro o r' hrun h'
  cases o with
  | none => exact h'
  | some t =>
    rw [Comp.bind_of_ok (orFail_some ..)]
    apply TopicInvariant.toEventInvariant
    refine Comp.Keeps.bind (TopicInvariant.of_touches (findOrAddPeerTopic_touches ..) rfl)
      (fun o => .bind (TopicInvariant.of_touches (orFail_touches [] ..) rfl) fun i => ?_) r'
      ⟨h', (findOrAddTopic_some hrun).2.1⟩
    refine .bind (TopicInvariant.of_touches (.update fun r => setPeerTopic_agrees r i _) rfl)
      fun _ => .bind (.read _) fun r'' => .bind (TopicInvariant.push ?_ rfl) fun _ => ?_
    · intro span hmem
      simp only [Event.spans, Event.ofPeer, Event.zero, List.mem_cons, List.not_mem_nil,
        or_false] at hmem
      rcases hmem with rfl | rfl | rfl | rfl
      · exact .inr (.inl ⟨_, rfl⟩)
      · exact .inl rfl
      · exact .inl rfl
      · exact .inl rfl
    · exact TopicInvariant.of_touches (subscriptionMesh_touches ..) rfl

/-- An IDONTWANT whose events find no room leaves the queue as it is. -/
theorem processIdontwant {idontwant : ControlIdontwant} {nowUs : Nat}
    (hun : undisturbed → idontwant.messageIds = [] ∨ QueueFull config.toConfig r) :
    EventInvariant config.toConfig undisturbed
      (processIdontwant config.toConfig p idontwant nowUs r).2 := by
  unfold Gossipsub.processIdontwant
  split
  · exact h
  by_cases hnone : idontwant.messageIds = []
  · rw [hnone]
    exact h
  have hloop : Comp.Keeps (fun r => EventInvariant config.toConfig undisturbed r ∧
      (undisturbed → QueueFull config.toConfig r)) (Comp.forOk (fun messageId => do
        Comp.update (peerIdontwantAdd config.toConfig p messageId nowUs)
        Comp.update fun r =>
          { r with tx := dropQueuedPublish config.toConfig r.peers p messageId r.tx }
        let r ← Comp.read id
        pushEventOrDrop config.toConfig ({ Event.zero .idontwant with
          messageId := .borrowed messageId
          idontwant := some idontwant }.ofPeer (r.peers p))) idontwant.messageIds) := by
    have hother : ∀ {touched : List Part} {f : Router → Router},
        (∀ r, Router.Agrees touched r (f r)) →
        Part.untouched [.events, .topics, .mcache] touched = true →
        Comp.Keeps (fun r => EventInvariant config.toConfig undisturbed r ∧
          (undisturbed → QueueFull config.toConfig r)) (Comp.update f : RouterM Unit) := by
      intro touched f hagrees huntouched r h
      refine ⟨h.1.of_agrees (hagrees r) huntouched, fun hu => ?_⟩
      have hevents := (hagrees r).eq .events (Part.not_mem_of_untouched huntouched (by simp))
      have hsame : (f r).events = r.events := congrArg Prod.fst hevents
      unfold QueueFull
      rw [Comp.update_apply, hsame]
      exact h.2 hu
    refine .forOk fun messageId _ => .bind (hother (fun r => peerIdontwantAdd_agrees _ p messageId nowUs r) rfl) fun _ =>
      .bind (hother (fun r => setTx_agrees r _) rfl) fun _ => .bind (.read _) fun r' => ?_
    intro r h
    refine ⟨h.1.push fun hu hroom => absurd (h.2 hu) hroom, fun hu => ?_⟩
    rcases pushEventOrDrop_cases config.toConfig _ r with ⟨-, hdrop⟩ | ⟨events, hpush, -⟩
    · rw [hdrop]
      exact (congrArg RingBuffer.len (releaseValidation_events ..)).trans (h.2 hu)
    · rw [RingBuffer.push_none_iff.mpr (h.2 hu)] at hpush
      cases hpush
  exact (hloop r ⟨h, fun hu => (hun hu).resolve_left hnone⟩).1

omit h in
theorem processGraft (nowUs : Nat) (graft : ControlGraft) :
    Comp.Keeps (EventInvariant config.toConfig undisturbed)
      (processGraft config.toConfig p nowUs graft) := by
  refine .absorb (.bind (findOrAddTopic graft.topic) fun o => .bind (orFail _ _) fun t => ?_)
  refine .bind (.read _) fun r => .ite (fun _ => ?_) fun _ => ?_
  · exact of_touches (meshAdd_touches ..) rfl
  · exact of_touches (refuseGraft_touches ..) rfl

omit h in
theorem processFromGrafts (rpc : Rpc) (nowUs : Nat) :
    Comp.Keeps (EventInvariant config.toConfig undisturbed)
      (processFromGrafts config.toConfig p rpc nowUs) := by
  refine .bind (.forOk fun graft _ => processGraft nowUs graft) fun _ =>
    .bind (.forOk fun prune _ => ?_) fun _ => .bind (.forOk fun iwant _ => .forOk fun id _ => ?_)
      fun _ => .forOk fun ihave _ => .forOk fun id _ => ?_
  · exact of_touches (processPrune_touches ..) rfl
  · exact of_touches (processIwantId_touches ..) rfl
  · exact of_touches (processIhaveId_touches ..) rfl

theorem processRpc {rpc : Rpc} {nowUs : Nat}
    (hun : undisturbed → RpcUndisturbed config.toConfig p rpc nowUs r) :
    EventInvariant config.toConfig undisturbed
      (processRpc config.toConfig p rpc nowUs r).2 := by
  by_cases hp : config.capacity.maxPeers ≤ p
  · unfold Gossipsub.processRpc
    rw [if_pos hp]
    exact h
  rw [processRpc_eq config.toConfig (Nat.not_le.mp hp)]
  refine Comp.keeps_bind (I := EventInvariant config.toConfig undisturbed) ?_ fun _ r' _ h' => ?_
  · have hsubs : Comp.Keeps (EventInvariant config.toConfig undisturbed)
        (Comp.forOk (Gossipsub.processSubscription config.toConfig p) rpc.subscriptions) :=
      .forOk fun sub _ => processSubscription sub
    apply Comp.keeps_bind (hsubs r h)
    intro _ r' hrun h'
    have hafter : undisturbed → _ := fun hu => hun hu () r' hrun
    have hmessages : EventInvariant config.toConfig undisturbed
        (Comp.forOk (Gossipsub.receiveMessage config.toConfig p nowUs) rpc.publish r').2 :=
      Comp.forOk_of_visits (I := EventInvariant config.toConfig undisturbed)
        (fun message r hmessage h => receiveMessage h hmessage)
        (Comp.visits_imp fun hu => (hafter hu).1) h'
    apply Comp.keeps_bind hmessages
    intro _ r'' hrun' h''
    exact Comp.forOk_of_visits (I := EventInvariant config.toConfig undisturbed)
      (fun x r hx h => processIdontwant h hx)
      (Comp.visits_imp fun hu => (hafter hu).2 () r'' hrun') h''
  · exact processFromGrafts rpc nowUs r' h'

/-! ## Calls of the application -/

omit h in
theorem subscribe (request : TopicConfig) :
    Comp.Keeps (EventInvariant config.toConfig undisturbed) (subscribe config.toConfig request) := by
  refine .ite (fun _ => .fail _) fun _ => .bind (findOrAddTopic _) fun o => .bind (orFail _ _)
    fun t => .bind (.update fun r h => h.setTopic fun hused => ?_) fun _ => .bind ?_ fun _ => ?_
  · exact ⟨hused, rfl⟩
  · exact of_touches (announceSubscription_touches ..) rfl
  · exact of_touches (meshFillTopic_touches ..) rfl

omit h in
theorem unsubscribe (topic : Span) :
    Comp.Keeps (EventInvariant config.toConfig undisturbed) (unsubscribe config.toConfig topic) := by
  refine .ite (fun _ => .fail _) fun _ => .bind (.read _) fun r => .bind (orFail _ _) fun t =>
    .bind ?_ fun _ => .bind ?_ fun _ => .bind (.update fun r h => h.setTopic fun hused => ?_)
      fun _ => ?_
  · exact of_touches (meshTrimTopic_touches ..) rfl
  · exact of_touches (.update fun r => meshRemoveTopic_agrees config.toConfig t r) rfl
  · exact ⟨hused, rfl⟩
  · exact of_touches (announceSubscription_touches ..) rfl

theorem publish {request : Publish} {outLen : Option Nat} (hun : undisturbed → Comp.Yields
      (publishStored config.toConfig request outLen) r fun _ _ =>
        StoreUndisturbed config.toConfig r request.data.len) :
    EventInvariant config.toConfig undisturbed (publish config.toConfig request outLen r).2 := by
  rw [publish_eq]
  have hstored : EventInvariant config.toConfig undisturbed
      (publishStored config.toConfig request outLen r).2 := by
    unfold publishStored at hun ⊢
    by_cases hinvalid : request.topic.isNull ∨ request.topic.len = 0 ∨
        config.limits.maxTopicBytes < request.topic.len ∨
        request.data.isNull ∧ request.data.len ≠ 0 ∨
        config.limits.maxMessageDataBytes < request.data.len
    · rw [if_pos hinvalid]
      exact h
    rw [if_neg hinvalid] at hun ⊢
    apply Comp.keeps_bind (Comp.Keeps.ofResult _ r h)
    intro messageId r₁ hrun _
    replace hun := fun hu => (hun hu).of_bind hrun
    obtain rfl : r = r₁ := congrArg Prod.snd hrun
    by_cases hshort : outLen.any fun n => n < messageId.length
    · rw [if_pos hshort]
      exact h
    rw [if_neg hshort] at hun ⊢
    apply Comp.keeps_bind (findOrAddTopic request.topic r h)
    intro o r₁ hrun h₁
    replace hun := fun hu => (hun hu).of_bind hrun
    have hagrees : Router.Agrees _ r r₁ := (findOrAddTopic_touches ..).of_run hrun
    cases o with
    | none => exact h₁
    | some t =>
      rw [Comp.bind_of_ok (orFail_some ..)]
      replace hun := fun hu => (hun hu).of_bind (orFail_some ..)
      refine Comp.keeps_bind (h₁.mcacheStore fun hu slot r₂ hrun => ?_) fun _ r' _ h' => h'
      have hstore := (hun hu).of_bind hrun _ r₂ rfl
      exact hstore.congr (congrArg Prod.fst (hagrees.eq .events (by decide)))
        (hagrees.eq .mcache (by decide))
  apply Comp.keeps_bind hstored
  intro x r' _ h'
  refine Comp.Keeps.bind (.update fun r h => h.of_agrees (seenAdd_agrees ..) rfl)
    (fun _ => .bind (.read _) fun r => .bind ?_ fun _ => .pure _) r' h'
  exact of_touches (publishEntry_touches ..) rfl

/-! ## Heartbeats and streams -/

omit h in
/-- An entry shows the same as it ages. -/
theorem age_shown (config : Config) (entry : McacheEntry) :
    (entry.age config).topic = entry.topic ∧ (entry.age config).messageId = entry.messageId := by
  unfold McacheEntry.age
  split
  · split <;> exact ⟨rfl, rfl⟩
  · exact ⟨rfl, rfl⟩

theorem expireTables (nowUs : Nat) :
    EventInvariant config.toConfig undisturbed
      (expireTables config.toConfig nowUs r) := by
  have hentry : ∀ i, ((Gossipsub.expireTables config.toConfig nowUs r).mcache.entries i).topic =
        (r.mcache.entries i).topic ∧
      ((Gossipsub.expireTables config.toConfig nowUs r).mcache.entries i).messageId =
        (r.mcache.entries i).messageId := by
    intro i
    unfold Gossipsub.expireTables
    dsimp only
    split
    · exact age_shown ..
    · exact ⟨rfl, rfl⟩
  refine h.of_kept ?_ ?_ ?_
  · rfl
  · rfl
  intro _ _ _ span _ hlasting
  cases span with
  | entryTopic slot len =>
    exact ⟨trivial, congrArg (fun bytes => some (arrayPrefix len bytes)) (hentry slot).1⟩
  | entryId slot len =>
    exact ⟨trivial, congrArg (fun bytes => some (arrayPrefix len bytes)) (hentry slot).2⟩
  | _ => exact ⟨hlasting, rfl⟩

omit h

theorem drive (nowUs : Nat) (answers : WriteAnswers) :
    Comp.Keeps (EventInvariant config.toConfig undisturbed)
      (drive config.toConfig nowUs answers) := by
  refine .bind (.update fun r h => h.of_agrees (setTime_agrees _ nowUs r) rfl) fun _ => ?_
  refine .bind (.update fun r h => ?_) fun _ => of_touches (flushReady_touches ..) rfl
  split
  · apply expireTables
    apply of_touches (emitGossip_touches config.toConfig) rfl
    exact h.of_agrees (heartbeatMesh_agrees config.toConfig nowUs r) rfl
  · exact h

theorem announceOpen (stream : Nat) (direction : Host.Direction) (version : ProtocolVersion)
    (selected : Bool) : Comp.Keeps (EventInvariant config.toConfig undisturbed)
      (announceOpen config.toConfig stream direction version p selected) := by
  refine .bind (.read _) fun r => .bind (pushPlain rfl rfl) fun _ => .onlyIf fun _ =>
    .forOk fun t _ => .bind (.read _) fun r => .ite (fun _ => .absorb ?_) fun _ => .pure _
  exact of_touches (enqueueSubscription_touches ..) rfl

theorem streamEnd (i : Nat) : Comp.Keeps (EventInvariant config.toConfig undisturbed)
    (streamEnd config.toConfig i) := by
  refine .bind (.read _) fun r => .bind (.onlyIf fun _ => .bind (pushPlain rfl rfl) fun _ => ?_)
    fun _ => ?_
  · exact .update fun r h => h.of_agrees (dropWriter_agrees ..) rfl
  · exact .update fun r h => h.of_agrees (setStream_agrees r i _) rfl

theorem connClosed (conn : Nat) : Comp.Keeps (EventInvariant config.toConfig undisturbed)
    (connClosed config.toConfig conn) := by
  refine .bind (.forOk fun p _ => .bind (.read _) fun r => .onlyIf fun _ =>
    .bind (pushPlain rfl rfl) fun _ => .bind ?_ fun _ => .update fun r h => ?_) fun _ => ?_
  · exact .update fun r h => h.of_agrees (dropWriter_agrees ..) rfl
  · exact h.of_agrees (setPeer_agrees p r { r.peers p with conn := none } rfl rfl rfl) rfl
  · exact .update fun r h => h.of_agrees (closeStreams_agrees ..) rfl

/-- One step keeps the invariant. -/
theorem step {s : Node} {action : Action}
    (h : EventInvariant config.toConfig undisturbed s.router)
    (hun : undisturbed → action.Undisturbed config.toConfig s) :
    EventInvariant config.toConfig undisturbed (s.step config.toConfig action).router := by
  have hagrees := s.step_agrees config.toConfig action
  cases action with
  | drive nowUs answers => exact drive nowUs answers _ h
  | subscribe request => exact subscribe request _ h
  | unsubscribe topic => exact unsubscribe topic _ h
  | publish request outLen => exact Comp.keeps_bind (h.publish hun) fun _ _ _ h' => h'
  | nextEvent => exact Comp.Keeps.bind nextEvent (fun _ => .pure _) _ h
  | streamOpen stream conn peerId direction protocol =>
    refine Comp.Keeps.bind (of_touches (openStream_touches ..) rfl) (fun x => ?_) _ h
    exact announceOpen _ _ _ _
  | receive i body =>
    change EventInvariant config.toConfig undisturbed (receive config.toConfig i body s.router).2
    rcases receive_cases config.toConfig i body s.router with hsame | ⟨rpc, -, hdecode, hrun⟩
    · rwa [hsame]
    · rw [hrun]
      exact h.processRpc fun hu => hun hu rpc s.router (Prod.ext hdecode rfl)
  | streamEnd i => exact streamEnd i _ h
  | connClosed conn => exact connClosed conn _ h
  | streamOpenFailed reason => exact pushPlain rfl rfl _ h
  | _ => exact h.of_agrees hagrees rfl

end EventInvariant

/-! ## Runs -/

/-- The application took the events in the order in which they were pushed. -/
structure Node.Reads (config : Config) (undisturbed : Prop) (s : Node) : Prop where
  events : EventInvariant config undisturbed s.router
  received : s.received = (s.router.history.pushed.take
    (s.router.history.pushed.length - s.router.events.len)).map PushedEvent.event

/-- The step tells the application what happened: the events that it pushes show the bytes of what
    they are about, and the event that the application takes is the next one of those that were
    pushed, and shows what it showed then. -/
structure Action.Tells (config : Config) (s : Node) (action : Action) : Prop where
  pushes : ∃ news, (s.step config action).router.history.pushed =
    s.router.history.pushed ++ news ∧ ∀ e ∈ news, action.pushes config s e
  takes : ∀ event ∈ s.taken config action,
    s.router.history.pushed[s.received.length]? = some ⟨event, event.view s.router false⟩

namespace Node.Reads

variable {config : RouterConfig} {undisturbed : Prop} {s : Node} {action : Action}

theorem received_length (h : s.Reads config.toConfig undisturbed) :
    s.received.length = s.router.history.pushed.length - s.router.events.len := by
  rw [h.received, List.length_map, List.length_take]
  omega

/-- `libp2p_gossipsub_next_event` takes the next event that was pushed, if it was not taken yet. -/
theorem nextEvent_cases (h : s.Reads config.toConfig undisturbed) :
    (s.taken config.toConfig .nextEvent = [] ∧
      (s.step config.toConfig .nextEvent).router = s.router) ∨
    ∃ e events, e ∈ s.router.queuedEvents ∧
      s.router.history.pushed[s.received.length]? = some e ∧
      s.router.events.len = events.len + 1 ∧ s.taken config.toConfig .nextEvent = [e.event] ∧
      (s.step config.toConfig .nextEvent).router = { s.router with events := events } := by
  unfold Node.taken Node.step Action.comp
  rcases h.events.toEventQueue.nextEvent_cases with ⟨-, hrun⟩ | ⟨e, events, hqueued, hrun, hqueue⟩
  · refine .inl ⟨?_, ?_⟩
    · dsimp only
      rw [hrun]
    · exact congrArg Prod.snd (Comp.bind_of_error hrun)
  · refine .inr ⟨e, events, hqueued ▸ List.mem_cons_self, ?_, ?_, ?_, ?_⟩
    · have hhead := congrArg List.head? hqueued
      rw [h.received_length]
      unfold Router.queuedEvents at hhead
      rwa [List.head?_drop, List.head?_cons] at hhead
    · have hlength := congrArg List.length hqueued
      have hle := h.events.len_le_pushed
      have hle' : events.len ≤ s.router.history.pushed.length := hqueue.len_le_pushed
      unfold Router.queuedEvents at hlength
      simp only [List.length_drop, List.length_cons] at hlength
      omega
    · dsimp only
      rw [hrun]
    · exact congrArg Prod.snd (Comp.bind_of_ok hrun)

theorem taken_of_ne (hnot : action ≠ .nextEvent) : s.taken config.toConfig action = [] := by
  cases action with
  | nextEvent => exact absurd rfl hnot
  | _ => rfl

theorem init : Node.init.Reads config.toConfig undisturbed := ⟨.init, rfl⟩

theorem step (h : s.Reads config.toConfig undisturbed)
    (hun : undisturbed → action.Undisturbed config.toConfig s) :
    (s.step config.toConfig action).Reads config.toConfig undisturbed := by
  refine ⟨h.events.step hun, ?_⟩
  change s.received ++ s.taken config.toConfig action = _
  have hle := h.events.len_le_pushed
  by_cases hnext : action = .nextEvent
  · subst hnext
    rcases h.nextEvent_cases with ⟨htaken, hsame⟩ | ⟨e, events, -, he, hlen, htaken, hafter⟩
    · rw [htaken, hsame, List.append_nil]
      exact h.received
    · rw [htaken, hafter]
      have hindex : s.router.history.pushed.length - events.len = s.received.length + 1 := by
        rw [h.received_length]
        omega
      dsimp only
      rw [hindex, List.take_add_one, he, List.map_append, h.received_length, ← h.received]
      rfl
  · rcases s.step_pushes config.toConfig hnext with ⟨news, hnews, hlen, -⟩
    rw [taken_of_ne hnext, List.append_nil, hnews, hlen, List.length_append,
      Nat.add_sub_add_right, List.take_append_of_le_length (Nat.sub_le ..)]
    exact h.received

theorem tells (h : s.Reads config.toConfig True) : action.Tells config.toConfig s := by
  by_cases hnext : action = .nextEvent
  · subst hnext
    rcases h.nextEvent_cases with ⟨htaken, hsame⟩ | ⟨e, events, hmem, he, -, htaken, hafter⟩
    · refine ⟨⟨[], ?_, fun _ hmem => nomatch hmem⟩, ?_⟩
      · rw [hsame, List.append_nil]
      · rw [htaken]
        exact fun _ hmem => nomatch hmem
    · refine ⟨⟨[], ?_, fun _ hmem => nomatch hmem⟩, ?_⟩
      · rw [hafter, List.append_nil]
      · rw [htaken]
        intro event hevent
        rw [List.mem_singleton.mp hevent, he, (h.events.intact trivial e hmem).shown]
  · rcases s.step_pushes config.toConfig hnext with ⟨news, hnews, -, habout⟩
    refine ⟨⟨news, hnews, habout⟩, ?_⟩
    rw [taken_of_ne hnext]
    exact fun _ hmem => nomatch hmem

end Node.Reads

/-- Where no step disturbs queued events, each event that the application takes is the next one of
    those that were pushed, and shows the bytes of what it was pushed for; and only an event for
    which the queue has no room is dropped, with its token. -/
theorem events_describe (config : RouterConfig) (actions : List Action)
    (hun : Node.init.Meets config.toConfig (Action.Undisturbed config.toConfig) actions) :
    let s := Node.init.run config.toConfig actions
    Node.init.Meets config.toConfig (Action.Tells config.toConfig) actions ∧
    s.router.history.pushed.map PushedEvent.event =
      s.received ++ s.router.events.toList config.capacity.eventCapacity ∧
    ∀ (event : Event) (r : Router),
      (r.events.len = config.capacity.eventCapacity ∧ pushEventOrDrop config.toConfig event r =
        (.ok (), r.releaseValidation event.validation)) ∨
      ∃ events, r.events.push config.capacity.eventCapacity event = some events ∧
        pushEventOrDrop config.toConfig event r = (.ok (), r.afterPush events event) := by
  intro s
  have hreads : s.Reads config.toConfig True :=
    Lib.run_keeps hun Node.Reads.init fun _ _ hstep h => h.step fun _ => hstep
  refine ⟨?_, ?_, fun event r => pushEventOrDrop_cases config.toConfig event r⟩
  · exact hun.of_keeps (I := fun s => s.Reads config.toConfig True) Node.Reads.init
      (fun _ _ hstep h => h.step fun _ => hstep) fun _ _ h => h.tells
  · rw [hreads.received, hreads.events.toList_eq, Router.queuedEvents, ← List.map_append,
      List.take_append_drop]

/-- Messages whose events are taken before the cache reuses their slots. -/
def promptEventRun : List Action :=
  [.subscribe ⟨.ptr [7], .acceptAll, false, 0⟩,
   .streamOpen 1 1 (.ok [1]) .inbound .v11,
   .nextEvent,
   .receive 0 [0x12, 6, 0x12, 1, 1, 0x22, 1, 7],
   .receive 0 [0x12, 6, 0x12, 1, 2, 0x22, 1, 7],
   .nextEvent]

theorem events_describe_promptEventRun :
    let s := Node.init.run RouterConfig.small.toConfig promptEventRun
    Node.init.Meets RouterConfig.small.toConfig (Action.Tells RouterConfig.small.toConfig)
      promptEventRun ∧
    s.router.history.pushed.map PushedEvent.event =
      s.received ++ s.router.events.toList RouterConfig.small.capacity.eventCapacity ∧
    ∀ (event : Event) (r : Router),
      (r.events.len = RouterConfig.small.capacity.eventCapacity ∧
        pushEventOrDrop RouterConfig.small.toConfig event r =
          (.ok (), r.releaseValidation event.validation)) ∨
      ∃ events, r.events.push RouterConfig.small.capacity.eventCapacity event = some events ∧
        pushEventOrDrop RouterConfig.small.toConfig event r = (.ok (), r.afterPush events event) :=
  events_describe RouterConfig.small promptEventRun (by decide +kernel)

/-- Three messages arrive at a cache with two slots. -/
def overwrittenEventRun : List Action :=
  [.subscribe ⟨.ptr [7], .acceptAll, false, 0⟩,
   .streamOpen 1 1 (.ok [1]) .inbound .v11,
   .nextEvent,
   .receive 0 [0x12, 6, 0x12, 1, 1, 0x22, 1, 7],
   .receive 0 [0x12, 6, 0x12, 1, 2, 0x22, 1, 7],
   .receive 0 [0x12, 6, 0x12, 1, 3, 0x22, 1, 7]]

/-- The event of the first message then shows the id of the third. -/
theorem events_overwritten : ¬ ∀ (config : RouterConfig) (actions : List Action),
    Node.init.Meets config.toConfig (Action.Tells config.toConfig) actions := by
  intro h
  have hlast := (runMeets_append.mp (h RouterConfig.small (overwrittenEventRun ++ [.nextEvent]))).2
  have htaken := hlast.1.takes
  revert htaken
  decide +kernel

end LeanLibp2p.Gossipsub
