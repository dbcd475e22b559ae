import LeanLibp2p.Gossipsub.Router.Ingress

/-!
# Validation tokens

A token names a slot of the message cache and the peer that the message in it came from. It is
handed out with the event for that message; by the time of the report, the slot may hold another
message and the token may be that of another event.
-/

namespace LeanLibp2p.Gossipsub

open LeanLibp2p.Lib

/-! ## Pending tokens -/

/-- The message with number `n` came from the peer. -/
def Sourced (r : Router) (n p : Nat) : Prop :=
  ∃ m message, r.history.messages[n]? = some m ∧ m.source = some (p, message)

/-- A pending token knows where its message came from. -/
structure TokenInvariant (r : Router) : Prop where
  sourced : ∀ v, (r.validations v).pending = true →
    Sourced r (r.validations v).origin (r.validations v).peerIndex

/-- The tokens are sound, and the message with number `n` came from the peer. -/
structure Delivering (n p : Nat) (r : Router) : Prop where
  tokens : TokenInvariant r
  sourced : Sourced r n p

namespace TokenInvariant

variable {config : Config} {r : Router}

theorem init : TokenInvariant .init := ⟨fun _ hpending => nomatch hpending⟩

theorem of_agrees {touched : List Part} {r' : Router} (h : TokenInvariant r)
    (hagrees : Router.Agrees touched r r')
    (hdisjoint : ∀ part ∈ [Part.validations, .messages], part ∉ touched) : TokenInvariant r' := by
  have hvalidations : r'.validations = r.validations :=
    hagrees.eq .validations (hdisjoint _ (by decide))
  have hmessages : r'.history.messages = r.history.messages :=
    hagrees.eq .messages (hdisjoint _ (by decide))
  constructor
  unfold Sourced
  rw [hvalidations, hmessages]
  exact h.sourced

theorem of_touches {α : Type} {touched : List Part} {c : RouterM α} (hc : Touches touched c)
    (hdisjoint : ∀ part ∈ [Part.validations, .messages], part ∉ touched) :
    Comp.Keeps TokenInvariant c :=
  hc.keeps fun _ _ hagrees h => h.of_agrees hagrees hdisjoint

/-- Tokens that are released and messages that are added do no harm. -/
theorem of_released {r' : Router} (h : TokenInvariant r)
    (hvalidations : ∀ v, r'.validations v = r.validations v ∨ r'.validations v = .free)
    (hmessages : ∃ added, r'.history.messages = r.history.messages ++ added) :
    TokenInvariant r' := by
  rcases hmessages with ⟨added, hmessages⟩
  refine ⟨fun v hpending => ?_⟩
  rcases hvalidations v with hsame | hfree
  · rw [hsame] at hpending ⊢
    rcases h.sourced v hpending with ⟨m, message, hm, hsource⟩
    refine ⟨m, message, ?_, hsource⟩
    rw [hmessages]
    exact (List.getElem?_append_left (List.getElem?_eq_some_iff.mp hm).1).trans hm
  · rw [hfree] at hpending
    cases hpending

theorem releaseValidation (h : TokenInvariant r) (token : Option Nat) :
    TokenInvariant (r.releaseValidation token) := by
  refine h.of_released (fun v => ?_) ⟨[], ?_⟩
  · cases token with
    | none => exact .inl rfl
    | some w =>
      by_cases hv : v = w
      · exact .inr (by simp [Router.releaseValidation, Router.setValidation, hv])
      · exact .inl (by simp [Router.releaseValidation, Router.setValidation, hv])
  · rw [List.append_nil]
    cases token <;> rfl

theorem pushEventOrDrop (event : Event) :
    Comp.Keeps TokenInvariant (pushEventOrDrop config event) := by
  intro r h
  unfold Gossipsub.pushEventOrDrop eventPush
  cases hpush : r.events.push config.capacity.eventCapacity event with
  | some events => exact h.of_released (fun _ => .inl rfl) ⟨[], (List.append_nil _).symm⟩
  | none => exact h.releaseValidation event.validation

theorem enqueueIdontwantForReceivedEntry (topic : Topic) (slot : Nat) (entry : McacheEntry) :
    Comp.Keeps TokenInvariant (enqueueIdontwantForReceivedEntry config topic slot entry) := by
  refine .bind (.read _) fun r => .bind (of_touches (orFail_touches [] ..) (by decide)) fun t => ?_
  refine .forOk fun p _ => .bind (.read _) fun r => .ite (fun _ => ?_) fun _ => .pure _
  refine .bind (.result (of_touches (enqueueIdontwantForEntry_touches ..) (by decide))) fun res => ?_
  cases res with
  | ok _ => exact .pure _
  | error e =>
    refine .ite (fun _ => ?_) fun _ => .fail _
    refine .bind (.read _) fun r => .ite (fun _ => .pure _) fun _ => .bind (pushEventOrDrop _) fun _ => ?_
    exact of_touches (.update fun r => setTxPeer_agrees p r _) (by decide)

theorem mcacheStore (source : Option (Nat × Message)) (gated : Bool) (messageId : Bytes)
    (topic data : Span) :
    Comp.Keeps TokenInvariant (mcacheStore config source gated messageId topic data) := by
  intro r h
  refine h.of_released (fun v => .inl ?_) (CacheInvariant.mcacheStore_messages ..)
  exact congrFun ((mcacheStore_touches ..).agrees r |>.eq .validations (by decide)) v

/-- A token that is handed out goes with a message of the peer. -/
theorem allocValidation {n p : Nat} (mcacheIndex nowUs : Nat) :
    Comp.Keeps (Delivering n p) (allocValidation config p mcacheIndex nowUs n) := by
  intro r h
  unfold Gossipsub.allocValidation
  cases hfree : findSlot config.capacity.pendingValidations fun v => !(r.validations v).pending with
  | none => exact h
  | some v =>
    refine ⟨⟨fun w hpending => ?_⟩, h.sourced⟩
    by_cases hw : w = v
    · subst hw
      simpa [Router.setValidation, Sourced] using h.sourced
    · simp only [Router.setValidation, Function.update_of_ne hw] at hpending ⊢
      exact h.tokens.sourced w hpending

/-! ## Steps -/

theorem deliverEntry {p t slot nowUs : Nat} (h : TokenInvariant r)
    (hsourced : Sourced r (r.mcache.entries slot).origin p) :
    TokenInvariant (deliverEntry config p t slot nowUs r).2 := by
  have hdelivering : ∀ {α : Type} {c : RouterM α} {touched : List Part} {n : Nat},
      Comp.Keeps TokenInvariant c → Touches touched c → Part.messages ∉ touched →
      Comp.Keeps (Delivering n p) c := by
    intro α c touched n hkeeps htouches hpart r hr
    have hmessages : (c r).2.history.messages = r.history.messages :=
      (htouches.agrees r).eq .messages hpart
    refine ⟨hkeeps r hr.tokens, ?_⟩
    unfold Sourced
    rw [hmessages]
    exact hr.sourced
  unfold Gossipsub.deliverEntry
  rw [Comp.read_id_bind]
  dsimp only
  cases (r.topics t).validationMode with
  | requireApp =>
    refine (Comp.Keeps.bind (I := Delivering (r.mcache.entries slot).origin p) ?_ (fun _ => ?_) r
      ⟨h, hsourced⟩).tokens
    · exact hdelivering (enqueueIdontwantForReceivedEntry _ _ _)
        (enqueueIdontwantForReceivedEntry_touches ..) (by decide)
    · refine .bind (.read _) fun r => .bind (allocValidation slot nowUs) fun o => ?_
      cases o with
      | none => exact .pure _
      | some v => exact hdelivering (pushEventOrDrop _) (pushEventOrDrop_touches ..) (by decide)
  | acceptAll =>
    refine Comp.Keeps.bind (enqueueIdontwantForReceivedEntry _ _ _) (fun _ => ?_) r h
    refine .bind (.read _) fun r => .bind (pushEventOrDrop _) fun _ => ?_
    exact of_touches (forwardEntry_touches ..) (by decide)

theorem acceptMessage (p : Nat) (message : Message) (messageId : Bytes) (nowUs : Nat) :
    Comp.Keeps TokenInvariant (acceptMessage config p message messageId nowUs) := by
  refine .read_bind fun r h => ?_
  rw [id]
  cases (findTopic config r message.topic).filter fun t => (r.topics t).localSubscribed with
  | none => exact pushEventOrDrop _ r h
  | some t =>
    have hstored := @mcacheStore config (some (p, message))
      (decide ((r.topics t).validationMode = .requireApp)) messageId message.topic message.data r h
    refine Comp.after_bind (fun e r' hrun => ?_) fun slot r' hrun => ?_
    · rwa [hrun] at hstored
    · rw [hrun] at hstored
      rcases CacheInvariant.mcacheStore_ok hrun with ⟨hmessages, horigin, -, -⟩
      apply deliverEntry hstored
      rw [Sourced, hmessages, horigin, List.getElem?_concat_length]
      exact ⟨_, message, rfl, rfl⟩

theorem processRpc (p : Nat) (rpc : Rpc) (nowUs : Nat) :
    Comp.Keeps TokenInvariant (processRpc config p rpc nowUs) := by
  refine .ite (fun _ => .fail _) fun _ => .bind ?_ fun _ => .bind ?_ fun _ => ?_
  · refine .bind (.forOk fun sub _ => ?_) fun _ => .bind (.forOk fun message _ => ?_) fun _ =>
      .bind (.forOk fun x _ => ?_) fun _ => .bind (.forOk fun graft _ => ?_) fun _ =>
        .forOk fun prune _ => ?_
    · refine .absorb (.ite (fun _ => .fail _) fun _ => ?_)
      refine .bind (of_touches (findOrAddTopic_touches ..) (by decide)) fun o => ?_
      refine .bind (of_touches (orFail_touches [] ..) (by decide)) fun t => ?_
      refine .bind (of_touches (findOrAddPeerTopic_touches ..) (by decide)) fun o => ?_
      refine .bind (of_touches (orFail_touches [] ..) (by decide)) fun i => ?_
      refine .bind (of_touches (.update fun r => setPeerTopic_agrees r i _) (by decide)) fun _ => ?_
      refine .bind (.read _) fun r => .bind (pushEventOrDrop _) fun _ => ?_
      exact of_touches (subscriptionMesh_touches ..) (by decide)
    · refine .absorb (.absorb (.ite (fun _ => .fail _) fun _ => .bind (.ofResult _) fun id => ?_))
      refine .bind (.read _) fun r => .ite (fun _ => .bind (pushEventOrDrop _) fun _ => .fail _)
        fun _ => .bind ?_ fun _ => acceptMessage p message id nowUs
      exact of_touches (.update fun r => seenAdd_agrees ..) (by decide)
    · refine .ite (fun _ => .fail _) fun _ => .forOk fun messageId _ => ?_
      refine .bind (of_touches (.update fun r => peerIdontwantAdd_agrees ..) (by decide)) fun _ => ?_
      refine .bind (of_touches (.update fun r => setTx_agrees r _) (by decide)) fun _ => ?_
      exact .bind (.read _) fun r => pushEventOrDrop _
    · exact of_touches (processGraft_touches ..) (by decide)
    · exact of_touches (processPrune_touches ..) (by decide)
  · exact .forOk fun _ _ => .forOk fun _ _ => of_touches (processIwantId_touches ..) (by decide)
  · exact .forOk fun _ _ => .forOk fun _ _ => of_touches (processIhaveId_touches ..) (by decide)

theorem publish (request : Publish) (outLen : Option Nat) :
    Comp.Keeps TokenInvariant (publish config request outLen) := by
  refine .ite (fun _ => .fail _) fun _ => .bind (.ofResult _) fun messageId => ?_
  refine .ite (fun _ => .fail _) fun _ => .bind ?_ fun o => ?_
  · exact of_touches (findOrAddTopic_touches ..) (by decide)
  refine .bind (of_touches (orFail_touches [] ..) (by decide)) fun t => ?_
  refine .bind (mcacheStore _ _ _ _ _) fun slot => .bind ?_ fun _ => ?_
  · exact of_touches (.update fun r => seenAdd_agrees ..) (by decide)
  refine .bind (.read _) fun r => .bind ?_ fun _ => .pure _
  exact of_touches (publishEntry_touches ..) (by decide)

theorem reportValidation (v : Nat) (value : ValidationResult) :
    Comp.Keeps TokenInvariant (reportValidation config v value) := by
  intro r h
  have hrelease : ∀ r', TokenInvariant r' → TokenInvariant (r'.releaseValidation (some v)) :=
    fun r' hr' => hr'.releaseValidation (some v)
  unfold Gossipsub.reportValidation
  dsimp only
  split
  · exact h
  · split
    · exact hrelease r h
    · split
      · apply hrelease
        exact of_touches (forwardEntry_touches config _ _) (by decide) r h
      · exact hrelease r h

/-- A heartbeat releases the tokens that are too old. -/
theorem drive (nowUs : Nat) (answers : WriteAnswers) :
    Comp.Keeps TokenInvariant (drive config nowUs answers) := by
  have hexpire : ∀ r, TokenInvariant r → TokenInvariant (expireTables config nowUs r) := by
    intro r h
    refine h.of_released (fun v => ?_) ⟨[], (List.append_nil _).symm⟩
    unfold expireTables
    dsimp only
    split
    · exact .inr rfl
    · exact .inl rfl
  refine .bind (.update fun r h => h.of_agrees (setTime_agrees _ nowUs r) (by decide)) fun _ => ?_
  refine .bind (.update fun r h => ?_) fun _ => of_touches (flushReady_touches ..) (by decide)
  split
  · apply hexpire
    apply of_touches (emitGossip_touches config) (by decide)
    apply of_touches (meshHeartbeat_touches config) (by decide)
    apply of_agrees _ (backoffClearExpired_agrees config nowUs _) (by decide)
    exact h.of_agrees (resetIdontwantSent_agrees config r) (by decide)
  · exact h

theorem announceOpen (stream : Nat) (direction : Host.Direction) (version : ProtocolVersion)
    (p : Nat) (selected : Bool) :
    Comp.Keeps TokenInvariant (announceOpen config stream direction version p selected) := by
  refine .bind (.read _) fun r => .bind (pushEventOrDrop _) fun _ => .onlyIf fun _ => ?_
  refine .forOk fun t _ => .bind (.read _) fun r => .ite (fun _ => .absorb ?_) fun _ => .pure _
  exact of_touches (enqueueSubscription_touches ..) (by decide)

theorem streamEnd (i : Nat) : Comp.Keeps TokenInvariant (streamEnd config i) := by
  refine .bind (.read _) fun r => .bind (.onlyIf fun _ => ?_) fun _ => ?_
  · refine .bind (pushEventOrDrop _) fun _ => ?_
    exact of_touches (.update fun r => dropWriter_agrees ..) (by decide)
  · exact of_touches (.update fun r => setStream_agrees r i _) (by decide)

theorem connClosed (conn : Nat) : Comp.Keeps TokenInvariant (connClosed config conn) := by
  refine .bind (.forOk fun p _ => .bind (.read _) fun r => .onlyIf fun _ => ?_) fun _ => ?_
  · refine .bind (pushEventOrDrop _) fun _ => .bind ?_ fun _ => ?_
    · exact of_touches (.update fun r => dropWriter_agrees ..) (by decide)
    · exact of_touches (.update fun r => setPeer_agrees p r { r.peers p with conn := none } rfl rfl rfl)
        (by decide)
  · exact of_touches (.update fun r => closeStreams_agrees ..) (by decide)

/-- One step keeps the invariant. -/
theorem step {s : Node} (h : TokenInvariant s.router) (action : Action) :
    TokenInvariant (s.step config action).router := by
  have hagrees := s.step_agrees config action
  cases action with
  | drive nowUs answers => exact drive nowUs answers _ h
  | publish request outLen => exact Comp.Keeps.bind (publish request outLen) (fun _ => .pure _) _ h
  | report k value =>
    change TokenInvariant (Action.comp config s.received (.report k value) s.router).2
    rw [Action.comp]
    cases reportedToken s.received k with
    | none => exact h
    | some v => exact reportValidation v value _ h
  | receive i body =>
    change TokenInvariant (receive config i body s.router).2
    rcases receive_cases config i body s.router with hsame | ⟨rpc, -, -, hrpc⟩
    · rwa [hsame]
    · rw [hrpc]
      exact processRpc _ rpc _ _ h
  | streamOpen stream conn peerId direction protocol =>
    refine Comp.Keeps.bind ?_ (fun x => announceOpen _ _ _ _ _) _ h
    exact of_touches (openStream_touches ..) (by decide)
  | streamEnd i => exact streamEnd i _ h
  | connClosed conn => exact connClosed conn _ h
  | streamOpenFailed reason => exact pushEventOrDrop _ _ h
  | _ => exact h.of_agrees hagrees (by rw [Action.parts]; decide)

/-- The tokens are sound in every reachable state. -/
theorem run (actions : List Action) : TokenInvariant (Node.init.run config actions).router := by
  apply Lib.run_keeps (P := fun _ _ => True) (I := fun s : Node => TokenInvariant s.router)
  · exact runMeets_of_forall fun _ _ => trivial
  · exact init
  · intro s action _ h
    exact h.step action

end TokenInvariant

/-! ## Reports -/

/-- Since `r₀`, of all messages only this one, with number `n`, was queued for peers, or advertised to
    them, or declined from them. -/
structure SentOnly (n : Nat) (m : StoredMessage) (r₀ r : Router) : Prop where
  queued : ∃ k, r.history.queued =
    r₀.history.queued ++ List.replicate k ⟨n, m.messageId, some m.wire⟩
  unwanted : ∃ k, r.history.unwanted =
    r₀.history.unwanted ++ List.replicate k ⟨n, m.messageId, none⟩

/-- The entry that is forwarded goes on holding the message. -/
structure ForwardingOnly (entry : McacheEntry) (m : StoredMessage) (r₀ r : Router) : Prop where
  holds : entry.Holds r.mcache m
  sent : SentOnly entry.origin m r₀ r

namespace ForwardingOnly

variable {config : Config} {entry : McacheEntry} {m : StoredMessage} {r₀ : Router}

theorem of_agrees {touched : List Part} {r r' : Router} (h : ForwardingOnly entry m r₀ r)
    (hagrees : Router.Agrees touched r r')
    (hdisjoint : ∀ part ∈ [Part.mcache, .queued, .unwanted], part ∉ touched) :
    ForwardingOnly entry m r₀ r' := by
  have hmcache : r'.mcache = r.mcache := hagrees.eq .mcache (hdisjoint _ (by decide))
  have hqueued : r'.history.queued = r.history.queued :=
    hagrees.eq .queued (hdisjoint _ (by decide))
  have hunwanted : r'.history.unwanted = r.history.unwanted :=
    congrArg Prod.fst (hagrees.eq .unwanted (hdisjoint _ (by decide)))
  refine ⟨hmcache ▸ h.holds, ?_, ?_⟩
  · rw [hqueued]
    exact h.sent.queued
  · rw [hunwanted]
    exact h.sent.unwanted

theorem enqueueIdontwantForEntry (p : Nat) (topic : Topic) :
    Comp.Keeps (ForwardingOnly entry m r₀) (enqueueIdontwantForEntry config p topic entry) := by
  have henqueue : Comp.Keeps (ForwardingOnly entry m r₀)
      (enqueueIdontwant config p entry.messageId) :=
    (enqueueIdontwant_touches ..).keeps fun _ _ hagrees h => h.of_agrees hagrees (by decide)
  refine .bind (.read _) fun r => .ite (fun _ => .fail _) fun _ => .ite (fun _ => ?_) fun _ => .pure _
  refine .bind henqueue fun _ => .update fun r h => ⟨h.holds, h.sent.queued, ?_⟩
  rcases h.sent.unwanted with ⟨k, hunwanted⟩
  refine ⟨k + 1, ?_⟩
  change r.history.unwanted ++ [⟨entry.origin, entry.messageId, none⟩] = _
  rw [hunwanted, List.append_assoc, List.replicate_succ', h.holds.messageId]

theorem enqueuePublishEntry (p : Nat) :
    Comp.Keeps (ForwardingOnly entry m r₀) (enqueuePublishEntry config p entry) := by
  intro r h
  unfold Gossipsub.enqueuePublishEntry enqueuePublishEntryWithLifetime
  split
  · exact h.of_agrees (setTx_agrees r _) (by decide)
  · refine ⟨h.holds, ?_, h.sent.unwanted⟩
    rcases h.sent.queued with ⟨k, hqueued⟩
    refine ⟨k + 1, ?_⟩
    change r.history.queued ++
      [⟨entry.origin, entry.messageId, some (entryMessage r.mcache entry)⟩] = _
    rw [hqueued, List.append_assoc, List.replicate_succ', h.holds.messageId, h.holds.entryMessage]

theorem forwardEntry (source : Nat) :
    Comp.Keeps (ForwardingOnly entry m r₀) (forwardEntry config source entry) := by
  have hfail : ∀ e o, Comp.Keeps (ForwardingOnly entry m r₀) (orFail e o : RouterM Nat) := by
    intro e o
    cases o with
    | none => exact .fail _
    | some t => exact .pure _
  refine .bind (.read _) fun r => .bind (hfail _ _) fun t => .forOk fun p _ => ?_
  refine .bind (.read _) fun r => .ite (fun _ => ?_) fun _ => .pure _
  exact .absorb (.bind (.absorb (enqueueIdontwantForEntry _ _)) fun _ => enqueuePublishEntry _)

end ForwardingOnly

/-- Forwarding goes through, or fails for an unknown topic before it sends anything. -/
theorem forwardEntry_result (config : RouterConfig) {r : Router} (hready : WritersReady r)
    (source : Nat) (entry : McacheEntry) :
    forwardEntry config.toConfig source entry r = (.error .notFound, r) ∨
      (forwardEntry config.toConfig source entry r).1 = .ok () := by
  cases hfind : findTopic config.toConfig r (.ptr entry.topic) with
  | none =>
    left
    unfold forwardEntry
    rw [Comp.read_id_bind, hfind]
    rfl
  | some t =>
    have hfound : (findTopic config.toConfig r (.ptr entry.topic)).isSome = true := by
      rw [hfind]
      rfl
    rcases (forwardEntry_succeeds config hready source hfound).ok with ⟨_, hrun⟩
    exact .inr (congrArg Prod.fst hrun)

/-- The token is still the one of the message with number `n`, and its slot still holds that
    message, as far as a report goes by them. -/
def TokenBound (config : Config) (r : Router) (v n : Nat) : Prop :=
  (r.validations v).pending = true → (r.validations v).mcacheIndex < config.capacity.mcacheSlots →
  (r.mcache.entries (r.validations v).mcacheIndex).used = true →
    (r.validations v).origin = n ∧ (r.mcache.entries (r.validations v).mcacheIndex).origin = n

/-- The report fails and sends nothing. -/
def ReportRefused (config : Config) (r : Router) (v : Nat) : Prop :=
  ∃ e r', reportValidation config v .accept r = (.error e, r') ∧
    r'.history.queued = r.history.queued ∧ r'.history.unwanted = r.history.unwanted ∧ r'.tx = r.tx

/-- The report forwards the message with number `n` from the peer that it came from, and nothing
    else. -/
def ReportForwards (config : Config) (r : Router) (v n : Nat) (m : StoredMessage) : Prop :=
  ∃ p message entry r', m.source = some (p, message) ∧ entry.Holds r.mcache m ∧
    forwardEntry config p entry r = (.ok (), r') ∧
    reportValidation config v .accept r = (.ok (), r'.releaseValidation (some v)) ∧
    SentOnly n m r r'

/-- When the application reports ACCEPT with the token that came with a message, and neither token
    nor slot went to another message, that message is forwarded or nothing is. -/
theorem reportValidation_forwards (config : RouterConfig) (actions : List Action) {k v : Nat}
    {event : Event} {m : StoredMessage} :
    let s := Node.init.run config.toConfig actions
    s.received[k]? = some event → event.validation = some v →
    s.router.history.messages[event.origin]? = some m →
    TokenBound config.toConfig s.router v event.origin →
    ReportRefused config.toConfig s.router v ∨
      ReportForwards config.toConfig s.router v event.origin m := by
  intro s _ _ hm hbound
  have htokens : TokenInvariant s.router := TokenInvariant.run actions
  have hcache : CacheInvariant config.toConfig s.router := CacheInvariant.run actions
  have hready : WritersReady s.router := WritersReady.run config.toConfig actions
  generalize s.router = r at *
  by_cases hvalid : (r.validations v).pending = false ∨
      config.capacity.mcacheSlots ≤ (r.validations v).mcacheIndex
  · left
    refine ⟨.invalidArg, r, ?_, rfl, rfl, rfl⟩
    unfold reportValidation
    rw [if_pos hvalid]
  by_cases hused : (r.mcache.entries (r.validations v).mcacheIndex).used = false
  · left
    refine ⟨.state, r.releaseValidation (some v), ?_, rfl, rfl, rfl⟩
    unfold reportValidation
    dsimp only
    rw [if_neg hvalid, if_pos hused]
  -- The slot holds the message, and the token has its source.
  rw [not_or, Bool.not_eq_false, Nat.not_le] at hvalid
  rw [Bool.not_eq_false] at hused
  rcases hbound hvalid.1 hvalid.2 hused with ⟨htoken, hentry⟩
  rcases htokens.sourced v hvalid.1 with ⟨m', message, hm', hsource⟩
  rcases hcache.holds _ hused with ⟨m'', hm'', hholds⟩
  rw [htoken, hm] at hm'
  rw [hentry, hm] at hm''
  cases hm'
  cases hm''
  have hreport : reportValidation config.toConfig v .accept r =
      ((forwardEntry config.toConfig (r.validations v).peerIndex
        (r.mcache.entries (r.validations v).mcacheIndex) r).1,
      (forwardEntry config.toConfig (r.validations v).peerIndex
        (r.mcache.entries (r.validations v).mcacheIndex) r).2.releaseValidation (some v)) := by
    unfold reportValidation
    dsimp only
    rw [if_neg (by simp [hvalid]), if_neg (by simp [hused]), if_pos rfl]
  rcases forwardEntry_result config hready (r.validations v).peerIndex
    (r.mcache.entries (r.validations v).mcacheIndex) with hfailed | hok
  · left
    rw [hfailed] at hreport
    exact ⟨.notFound, r.releaseValidation (some v), hreport, rfl, rfl, rfl⟩
  · right
    have hsent := @ForwardingOnly.forwardEntry config.toConfig _ m r
      (r.validations v).peerIndex r ⟨hholds, ⟨0, by simp⟩, ⟨0, by simp⟩⟩
    rw [hok] at hreport
    refine ⟨_, message, _, _, hsource, hholds, Prod.ext hok rfl, hreport, ?_⟩
    rw [← hentry]
    exact hsent.sent

/-- A message arrives from one peer of a topic with validation, and another peer is in the mesh. -/
def tokenRun : List Action :=
  [.subscribe ⟨.ptr [7], .requireApp, false, 0⟩,
   .streamOpen 1 1 (.ok [1]) .outbound .v11,
   .streamOpen 2 2 (.ok [2]) .outbound .v11,
   .receive 1 [0x1a, 5, 0x1a, 3, 0x0a, 1, 7],
   .receive 0 [0x12, 6, 0x12, 1, 9, 0x22, 1, 7],
   .nextEvent, .nextEvent, .nextEvent]

/-- Before the report the application publishes two messages, in a cache with two slots. -/
def staleTokenRun : List Action :=
  tokenRun ++ [.publish ⟨.ptr [7], .ptr [1], .null 0⟩ none,
    .publish ⟨.ptr [7], .ptr [2], .null 0⟩ none,
    .drive 10 fun _ => .ok 100]

/-- The message of `tokenRun`. -/
def tokenMessage : StoredMessage where
  source := some (0, { Message.zero with
    data := .ptr [9]
    topic := .ptr [7]
    rawMessage := .ptr [0x12, 1, 9, 0x22, 1, 7] })
  gated := true
  messageId := [7, 9]
  topic := [7]
  data := [9]

theorem reportValidation_forwards_tokenRun :
    let s := Node.init.run RouterConfig.small.toConfig tokenRun
    ReportRefused RouterConfig.small.toConfig s.router 0 ∨
      ReportForwards RouterConfig.small.toConfig s.router 0 0 tokenMessage := by
  have hevent : ((Node.init.run RouterConfig.small.toConfig tokenRun).received[2]?.map fun event =>
      (event.validation, event.origin)) = some (some 0, 0) := by decide +kernel
  rcases hreceived : (Node.init.run RouterConfig.small.toConfig tokenRun).received[2]? with _ | event
  · rw [hreceived] at hevent
    cases hevent
  rw [hreceived] at hevent
  rcases Prod.mk.inj (Option.some_inj.mp hevent) with ⟨hvalidation, horigin⟩
  have h := reportValidation_forwards RouterConfig.small tokenRun (m := tokenMessage) hreceived
    hvalidation
  rw [horigin] at h
  exact h (by decide +kernel) fun _ _ _ => ⟨by decide +kernel, by decide +kernel⟩

/-- The report is about the message that arrived, and what is forwarded is the second message that
    was published. -/
theorem reportValidation_forwards_other : ¬ ∀ (config : RouterConfig) (actions : List Action)
    (k v : Nat) (event : Event) (m : StoredMessage),
    let s := Node.init.run config.toConfig actions
    s.received[k]? = some event → event.validation = some v →
    s.router.history.messages[event.origin]? = some m →
    ReportRefused config.toConfig s.router v ∨
      ReportForwards config.toConfig s.router v event.origin m := by
  intro h
  have hevent : ((Node.init.run RouterConfig.small.toConfig staleTokenRun).received[2]?.map
      fun event => (event.validation, event.origin)) = some (some 0, 0) := by decide +kernel
  rcases hreceived : (Node.init.run RouterConfig.small.toConfig staleTokenRun).received[2]?
    with _ | event
  · rw [hreceived] at hevent
    cases hevent
  rw [hreceived] at hevent
  rcases Prod.mk.inj (Option.some_inj.mp hevent) with ⟨hvalidation, horigin⟩
  have hbound := h RouterConfig.small staleTokenRun 2 0 event tokenMessage hreceived hvalidation
  rw [horigin] at hbound
  have hresult : (reportValidation RouterConfig.small.toConfig 0 .accept
      (Node.init.run RouterConfig.small.toConfig staleTokenRun).router).1 = .ok () := by
    decide +kernel
  have hqueued : (reportValidation RouterConfig.small.toConfig 0 .accept
      (Node.init.run RouterConfig.small.toConfig staleTokenRun).router).2.history.queued.map
        QueuedMessage.origin = [1, 2, 2] := by decide +kernel
  have hbefore : (Node.init.run RouterConfig.small.toConfig staleTokenRun).router.history.queued.map
      QueuedMessage.origin = [1, 2] := by decide +kernel
  rcases hbound (by decide +kernel) with ⟨e, r', hrun, -⟩ | ⟨p, message, entry, r', -, -, -, hrun, hsent⟩
  · rw [hrun] at hresult
    cases hresult
  · rw [hrun] at hqueued
    rcases hsent.queued with ⟨n, hsent⟩
    change r'.history.queued.map QueuedMessage.origin = _ at hqueued
    rw [hsent, List.map_append, hbefore, List.map_replicate] at hqueued
    have hlast : 2 ∈ List.replicate n 0 := by
      rw [List.append_cancel_left (hqueued : [1, 2] ++ List.replicate n 0 = [1, 2] ++ [2])]
      exact List.mem_singleton_self _
    exact absurd (List.eq_of_mem_replicate hlast) (by decide)

end LeanLibp2p.Gossipsub
