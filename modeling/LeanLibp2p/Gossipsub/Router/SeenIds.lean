import LeanLibp2p.Gossipsub.Router.Ingress
import LeanLibp2p.Gossipsub.Router.Streams

/-!
# Ids seen lately

An id is kept from the time when its message was accepted or published until its time to live is
over, and what arrives with it until then is a duplicate. A new id takes the first slot that is free
or expired; a publish looks for one with the time of the next heartbeat.
-/

namespace LeanLibp2p.Gossipsub

open LeanLibp2p.Lib

variable (config : Config)

/-! ## The table -/

/-- The slot that `gossipsub_seen_add` takes. -/
def seenSlot (nowUs : Nat) (r : Router) : Nat :=
  (findSlot config.capacity.seenEntries fun i =>
    !(r.seen i).used || decide ((r.seen i).expiresUs < nowUs)).getD
      (r.mcache.next % config.capacity.seenEntries)

theorem seenSlot_lt {config : Config} (hentries : config.capacity.seenEntries ≠ 0) (nowUs : Nat)
    (r : Router) : seenSlot config nowUs r < config.capacity.seenEntries := by
  unfold seenSlot
  cases hfind : findSlot config.capacity.seenEntries fun i =>
      !(r.seen i).used || decide ((r.seen i).expiresUs < nowUs) with
  | none => exact Nat.mod_lt _ (Nat.pos_of_ne_zero hentries)
  | some i => exact (findSlot_some hfind).1

/-- The time with which an id is added is not past, and the slot that it takes is free, or its entry
    has expired or is for the same id. -/
structure SeenRoom (config : Config) (messageId : Bytes) (nowUs : Nat) (r : Router) : Prop where
  current : r.lastDriveUs ≤ nowUs
  slot : (r.seen (seenSlot config nowUs r)).used = true →
    r.lastDriveUs ≤ (r.seen (seenSlot config nowUs r)).expiresUs →
      (r.seen (seenSlot config nowUs r)).messageId = messageId

instance (messageId : Bytes) (nowUs : Nat) (r : Router) :
    Decidable (SeenRoom config messageId nowUs r) :=
  decidable_of_iff (r.lastDriveUs ≤ nowUs ∧
    ((r.seen (seenSlot config nowUs r)).used = true →
      r.lastDriveUs ≤ (r.seen (seenSlot config nowUs r)).expiresUs →
        (r.seen (seenSlot config nowUs r)).messageId = messageId))
    ⟨fun ⟨h, h'⟩ => ⟨h, h'⟩, fun ⟨h, h'⟩ => ⟨h, h'⟩⟩

/-- The expiry of an id that is added can be computed. -/
def ExpiryFits (_ : Bytes) (nowUs : Nat) (_ : Router) : Prop :=
  nowUs + config.mesh.seenTtlUs ≤ uint64Max

/-- The id was accepted and its time to live is not over. -/
def Unexpired (r : Router) (a : AcceptedId) : Prop :=
  r.lastDriveUs ≤ a.atUs + config.mesh.seenTtlUs

instance (r : Router) (a : AcceptedId) : Decidable (Unexpired config r a) :=
  inferInstanceAs (Decidable (r.lastDriveUs ≤ a.atUs + config.mesh.seenTtlUs))

/-- Each id that has not expired is in the table at least until it does. -/
structure SeenInvariant (config : Config) (r : Router) : Prop where
  past : ∀ a ∈ r.history.accepted, a.atUs ≤ r.lastDriveUs
  kept : ∀ a ∈ r.history.accepted, Unexpired config r a → ∃ i, i < config.capacity.seenEntries ∧
    (r.seen i).used = true ∧ (r.seen i).messageId = a.messageId ∧
      a.atUs + config.mesh.seenTtlUs ≤ (r.seen i).expiresUs

namespace SeenInvariant

variable {config : Config} {r : Router}

theorem init : SeenInvariant config .init :=
  ⟨fun _ hmem => (nomatch hmem), fun _ hmem => (nomatch hmem)⟩

theorem of_agrees {touched : List Part} {r' : Router} (h : SeenInvariant config r)
    (hagrees : Router.Agrees touched r r')
    (hdisjoint : ∀ part ∈ [Part.seen, .accepted, .clock], part ∉ touched) :
    SeenInvariant config r' := by
  have hseen : r'.seen = r.seen := hagrees.eq .seen (hdisjoint _ (by decide))
  have haccepted : r'.history.accepted = r.history.accepted :=
    hagrees.eq .accepted (hdisjoint _ (by decide))
  have hclock := hagrees.lastDriveUs (hdisjoint _ (by decide))
  refine ⟨?_, ?_⟩
  · rw [haccepted, hclock]
    exact h.past
  · unfold Unexpired
    rw [haccepted, hclock, hseen]
    exact h.kept

theorem of_touches {α : Type} {touched : List Part} {c : RouterM α} (hc : Touches touched c)
    (hdisjoint : ∀ part ∈ [Part.seen, .accepted, .clock], part ∉ touched) :
    Comp.Keeps (SeenInvariant config) c :=
  hc.keeps fun _ _ hagrees h => h.of_agrees hagrees hdisjoint

/-- An id that has not expired is found. -/
theorem seenContains (h : SeenInvariant config r) {a : AcceptedId} (ha : a ∈ r.history.accepted)
    (hunexpired : Unexpired config r a) :
    seenContains config r (.ptr a.messageId) r.lastDriveUs = true := by
  rcases h.kept a ha hunexpired with ⟨i, hi, hused, hid, hexpires⟩
  unfold Unexpired at hunexpired
  unfold Gossipsub.seenContains
  have hfound : ((r.seen i).used && decide (r.lastDriveUs ≤ (r.seen i).expiresUs) &&
      decide ((r.seen i).messageId = a.messageId)) = true := by
    simp only [Bool.and_eq_true, decide_eq_true_eq]
    exact ⟨⟨hused, by omega⟩, hid⟩
  rcases findSlot_isSome (p := fun i => (r.seen i).used &&
    decide (r.lastDriveUs ≤ (r.seen i).expiresUs) && decide ((r.seen i).messageId = a.messageId))
    hi hfound with ⟨j, hj⟩
  rw [Bool.and_eq_true]
  exact ⟨rfl, by rw [Span.bytes, hj]; rfl⟩

/-- Adding an id where there is room for it loses no other. -/
theorem seenAdd {messageId : Bytes} {nowUs : Nat} (h : SeenInvariant config r)
    (hfits : ExpiryFits config messageId nowUs r) (hroom : SeenRoom config messageId nowUs r) :
    SeenInvariant config (seenAdd config messageId nowUs r) := by
  unfold Gossipsub.seenAdd
  split
  · rename_i htable
    have hslot := seenSlot_lt htable.1 nowUs r
    have hexpires : u64Add nowUs config.mesh.seenTtlUs = nowUs + config.mesh.seenTtlUs :=
      Nat.mod_eq_of_lt (Nat.lt_succ_of_le hfits)
    have hcurrent := hroom.current
    change SeenInvariant config { r.setSeen (seenSlot config nowUs r) _ with history := _ }
    rw [hexpires]
    refine ⟨fun a ha => ?_, fun a ha hunexpired => ?_⟩
    · rcases List.mem_append.mp ha with hold | hnew
      · exact h.past a hold
      · rw [List.mem_singleton.mp hnew]
        exact Nat.le_refl _
    · rcases List.mem_append.mp ha with hold | hnew
      · rcases h.kept a hold hunexpired with ⟨i, hi, hused, hid, hlater⟩
        by_cases hsame : i = seenSlot config nowUs r
        · subst hsame
          have hpast := h.past a hold
          have hlive : r.lastDriveUs ≤ (r.seen (seenSlot config nowUs r)).expiresUs :=
            Nat.le_trans hunexpired hlater
          refine ⟨_, hslot, ?_⟩
          simp only [Router.setSeen, Function.update_self]
          exact ⟨trivial, (hroom.slot hused hlive).symm.trans hid, by omega⟩
        · refine ⟨i, hi, ?_⟩
          simp only [Router.setSeen, Function.update_of_ne hsame]
          exact ⟨hused, hid, hlater⟩
      · rw [List.mem_singleton.mp hnew]
        refine ⟨_, hslot, ?_⟩
        simp only [Router.setSeen, Function.update_self]
        exact ⟨trivial, trivial, by omega⟩
  · exact h

end SeenInvariant

/-! ## What adds ids -/

/-- `libp2p_gossipsub_publish` up to the cached message: its id, its topic and its slot. -/
def publishStored (request : Publish) (outLen : Option Nat) : RouterM (Bytes × Nat × Nat) :=
  if request.topic.isNull ∨ request.topic.len = 0 ∨
      config.limits.maxTopicBytes < request.topic.len ∨
      request.data.isNull ∧ request.data.len ≠ 0 ∨
      config.limits.maxMessageDataBytes < request.data.len then
    Comp.fail .invalidArg
  else do
    let messageId ← Comp.ofResult (publishMessageId config request)
    if outLen.any fun n => n < messageId.length then Comp.fail .bufTooSmall
    else do
      let t ← (← findOrAddTopic config request.topic) |> orFail .limit
      let slot ← mcacheStore config none false messageId request.topic request.data
      return (messageId, t, slot)

theorem publish_eq (request : Publish) (outLen : Option Nat) :
    publish config request outLen = publishStored config request outLen >>= fun x => do
      Comp.update fun r => seenAdd config x.1 r.nextHeartbeatUs r
      publishEntry config x.2.1 ((← Comp.read id).mcache.entries x.2.2)
      return x.1 := by
  unfold publish publishStored
  split
  · rfl
  · rw [Comp.bind_assoc]
    congr 1
    funext messageId
    split
    · rfl
    · rw [Comp.bind_assoc]
      congr 1
      funext o
      rw [Comp.bind_assoc]
      congr 1
      funext t
      rw [Comp.bind_assoc]
      rfl

/-- The message loop of `gossipsub_process_rpc` for one message. -/
def receiveMessage (p nowUs : Nat) (message : Message) : RouterM Unit :=
  Comp.absorb (fun e => e = .duplicate) (processMessage config p message nowUs)

/-- What the action does with the ids of messages meets `P`: each one that is added, at the time
    that goes with it and in the state in which it is added. -/
def Action.Adds (P : Bytes → Nat → Router → Prop) (s : Node) : Action → Prop
  | .publish request outLen => ∀ x r',
      publishStored config request outLen s.router = (.ok x, r') → P x.1 r'.nextHeartbeatUs r'
  | .receive i body => i < config.capacity.maxStreams → (s.router.streams i).isOpen →
      ∀ rpc, rpcBodyDecode (s.router.streams i).version config.limits decodeStorage body =
        .ok rpc →
      ∀ r', Comp.forOk (processSubscription config (s.router.streams i).peerIndex)
        rpc.subscriptions s.router = (.ok (), r') →
      Comp.Visits (receiveMessage config (s.router.streams i).peerIndex s.router.lastDriveUs)
        (fun message r => ∀ messageId, computeMessageId config message = .ok messageId →
          seenContains config r (.ptr messageId) s.router.lastDriveUs = false →
            P messageId s.router.lastDriveUs r) rpc.publish r'
  | _ => True

/-- Each id that the step adds finds room. -/
def Action.FindsRoom (s : Node) (action : Action) : Prop :=
  action.Adds config (SeenRoom config) s

/-- The different ids that have not expired. -/
def unexpiredIds (r : Router) : List Bytes :=
  ((r.history.accepted.filter fun a => Unexpired config r a).map AcceptedId.messageId).dedup

/-- Time does not go backwards, no expiry is out of range, and there are no more ids that have not
    expired than the table has entries. -/
structure Action.Manageable (config : Config) (s : Node) (action : Action) : Prop where
  ordered : action.Ordered s
  fits : action.Adds config (ExpiryFits config) s
  few : (unexpiredIds config (s.step config action).router).length ≤ config.capacity.seenEntries

namespace SeenInvariant

variable {config : Config} {r : Router}

/-- The message is for an id that finds room, if it is a new one. -/
def MessageGuard (config : Config) (nowUs : Nat) (message : Message) (r : Router) : Prop :=
  ∀ messageId, computeMessageId config message = .ok messageId →
    Gossipsub.seenContains config r (.ptr messageId) nowUs = false →
      ExpiryFits config messageId nowUs r ∧ SeenRoom config messageId nowUs r

theorem receiveMessage {p nowUs : Nat} {message : Message} (h : SeenInvariant config r)
    (hguard : MessageGuard config nowUs message r) :
    SeenInvariant config (receiveMessage config p nowUs message r).2 := by
  unfold Gossipsub.receiveMessage processMessage continueAfterLocalLimit
  rw [Comp.absorb_state, Comp.absorb_state]
  split
  · exact h
  · cases hid : computeMessageId config message with
    | error e => exact h
    | ok messageId =>
      rw [Comp.bind_of_ok (Comp.ofResult_apply ..), Comp.read_id_bind]
      split
      · refine Comp.Keeps.bind (of_touches (pushEventOrDrop_touches ..) (by decide))
          (fun _ => .fail _) r h
      · rename_i hunseen
        rw [Bool.not_eq_true] at hunseen
        rcases hguard messageId hid hunseen with ⟨hfits, hroom⟩
        rw [Comp.bind_of_ok (Comp.update_apply ..)]
        exact of_touches (acceptMessage_touches ..) (by decide) _ (h.seenAdd hfits hroom)

variable (h : SeenInvariant config r)

include h

theorem processBeforeGrafts {p nowUs : Nat} {rpc : Rpc}
    (hguard : ∀ r', Comp.forOk (processSubscription config p) rpc.subscriptions r = (.ok (), r') →
      Comp.Visits (Gossipsub.receiveMessage config p nowUs) (MessageGuard config nowUs)
        rpc.publish r') :
    SeenInvariant config (processBeforeGrafts config p rpc nowUs r).2 := by
  have hsubs : Comp.Keeps (SeenInvariant config)
      (Comp.forOk (processSubscription config p) rpc.subscriptions) :=
    .forOk fun sub _ => of_touches (processSubscription_touches ..) (by decide)
  have hidontwant : Comp.Keeps (SeenInvariant config)
      (Comp.forOk (fun x => processIdontwant config p x nowUs) rpc.control.idontwant) :=
    .forOk fun x _ => of_touches (processIdontwant_touches ..) (by decide)
  refine Comp.after_bind (fun e r' hrun => hsubs.of_run h hrun) fun _ r' hrun => ?_
  have hmessages : SeenInvariant config (Comp.forOk (fun message =>
      Comp.absorb (fun e => e = .duplicate) (processMessage config p message nowUs))
        rpc.publish r').2 :=
    Comp.forOk_of_visits (fun message s hmessage hs => receiveMessage hs hmessage) (hguard r' hrun)
      (hsubs.of_run h hrun)
  refine Comp.after_bind (fun e r'' hrun' => ?_) fun _ r'' hrun' => hidontwant r'' ?_
  · rwa [hrun'] at hmessages
  · rwa [hrun'] at hmessages

theorem processRpc {p nowUs : Nat} {rpc : Rpc}
    (hguard : ∀ r', Comp.forOk (processSubscription config p) rpc.subscriptions r = (.ok (), r') →
      Comp.Visits (Gossipsub.receiveMessage config p nowUs) (MessageGuard config nowUs)
        rpc.publish r') :
    SeenInvariant config (processRpc config p rpc nowUs r).2 := by
  by_cases hp : config.capacity.maxPeers ≤ p
  · unfold Gossipsub.processRpc
    rw [if_pos hp]
    exact h
  have hbefore := h.processBeforeGrafts hguard
  rw [processRpc_eq config (Nat.not_le.mp hp)]
  refine Comp.after_bind (fun e r' hrun => ?_) fun _ r' hrun => ?_
  · rwa [hrun] at hbefore
  · rw [hrun] at hbefore
    exact of_touches (processFromGrafts_touches ..) (by decide) r' hbefore

theorem publish {request : Publish} {outLen : Option Nat}
    (hguard : ∀ x r', publishStored config request outLen r = (.ok x, r') →
      ExpiryFits config x.1 r'.nextHeartbeatUs r' ∧ SeenRoom config x.1 r'.nextHeartbeatUs r') :
    SeenInvariant config (publish config request outLen r).2 := by
  have hstores : Comp.Keeps (SeenInvariant config) (publishStored config request outLen) := by
    refine .ite (fun _ => .fail _) fun _ => .bind (.ofResult _) fun messageId => ?_
    refine .ite (fun _ => .fail _) fun _ => .bind ?_ fun o => ?_
    · exact of_touches (findOrAddTopic_touches ..) (by decide)
    refine .bind (of_touches (orFail_touches [] ..) (by decide)) fun t => .bind ?_ fun slot => .pure _
    exact of_touches (mcacheStore_touches ..) (by decide)
  rw [publish_eq]
  refine Comp.after_bind (fun e r' hrun => hstores.of_run h hrun) fun x r' hrun => ?_
  have hstored := hstores.of_run h hrun
  rcases hguard x r' hrun with ⟨hfits, hroom⟩
  rw [Comp.bind_of_ok (Comp.update_apply ..)]
  have hadded := hstored.seenAdd hfits hroom
  refine Comp.Keeps.bind (.read _) (fun r => .bind ?_ fun _ => .pure _) _ hadded
  exact of_touches (publishEntry_touches ..) (by decide)

/-- A heartbeat clears what has expired by its time. -/
theorem expireTables {nowUs : Nat} (hnow : r.lastDriveUs = nowUs) :
    SeenInvariant config (expireTables config nowUs r) := by
  subst hnow
  refine ⟨h.past, fun a ha hunexpired => ?_⟩
  rcases h.kept a ha hunexpired with ⟨i, hi, hused, hid, hexpires⟩
  have hlive : r.lastDriveUs ≤ (r.seen i).expiresUs := Nat.le_trans hunexpired hexpires
  refine ⟨i, hi, ?_⟩
  unfold Gossipsub.expireTables
  dsimp only
  rw [if_neg (by omega)]
  exact ⟨hused, hid, hexpires⟩

theorem heartbeat {nowUs : Nat} (hnow : r.lastDriveUs = nowUs) :
    SeenInvariant config (heartbeat config nowUs r) := by
  have hagrees : Router.Agrees [.tx, .idontwantSent, .backoff, .grafts, .mesh, .random, .queued] r
      (emitGossip config (heartbeatMesh config nowUs r)).2 := by
    apply Lib.Agrees.trans
    · exact (heartbeatMesh_agrees config nowUs r).mono (by decide)
    · exact ((emitGossip_touches config).agrees _).mono (by decide)
  apply (h.of_agrees hagrees (by decide)).expireTables
  exact (hagrees.lastDriveUs (by decide)).trans hnow

/-- Time that goes on leaves fewer ids unexpired. -/
theorem later {nowUs : Nat} (hnow : r.lastDriveUs ≤ nowUs) {r' : Router}
    (hagrees : Router.Agrees [.tx, .clock] r r') (hclock : r'.lastDriveUs = nowUs) :
    SeenInvariant config r' := by
  have hseen : r'.seen = r.seen := hagrees.eq .seen (by decide)
  have haccepted : r'.history.accepted = r.history.accepted := hagrees.eq .accepted (by decide)
  refine ⟨?_, ?_⟩
  · rw [haccepted, hclock]
    exact fun a ha => Nat.le_trans (h.past a ha) hnow
  · unfold Unexpired
    rw [haccepted, hclock, hseen]
    exact fun a ha hunexpired => h.kept a ha (Nat.le_trans hnow hunexpired)

theorem drive {nowUs : Nat} {answers : WriteAnswers} (hordered : r.lastDriveUs ≤ nowUs) :
    SeenInvariant config (drive config nowUs answers r).2 := by
  have hstart := h.later hordered
    ((setTime_agrees (txDropStale config r.peers nowUs r.tx) nowUs r).mono (by decide)) rfl
  unfold Gossipsub.drive
  rw [Comp.bind_of_ok (Comp.update_apply ..), Comp.bind_of_ok (Comp.update_apply ..)]
  apply of_touches (flushReady_touches ..) (by decide)
  split
  · exact hstart.heartbeat rfl
  · exact hstart

omit h

/-- One step keeps the invariant. -/
theorem step {s : Node} {action : Action} (h : SeenInvariant config s.router)
    (hordered : action.Ordered s) (hfits : action.Adds config (ExpiryFits config) s)
    (hroom : action.FindsRoom config s) : SeenInvariant config (s.step config action).router := by
  have hagrees := s.step_agrees config action
  cases action with
  | start nowUs =>
    exact h.later (hordered nowUs rfl) ((start_agrees config nowUs s.router).mono (by decide)) rfl
  | close => exact h.later (Nat.le_refl _) ((close_agrees s.router).mono (by decide)) rfl
  | drive nowUs answers => exact h.drive (hordered nowUs rfl)
  | publish request outLen =>
    have hpublish := h.publish fun x r' hrun => ⟨hfits x r' hrun, hroom x r' hrun⟩
    refine Comp.after_bind (Q := SeenInvariant config) (fun e r' hrun => ?_) fun _ r' hrun => ?_
    · rwa [hrun] at hpublish
    · rwa [hrun] at hpublish
  | receive i body =>
    change SeenInvariant config (receive config i body s.router).2
    rcases receive_cases config i body s.router with hsame | ⟨rpc, hopen, hdecode, hrpc⟩
    · rwa [hsame]
    · rw [hrpc]
      refine h.processRpc fun r' hrun => ?_
      have hboth := (hfits hopen.1 hopen.2 rpc hdecode r' hrun).and
        (hroom hopen.1 hopen.2 rpc hdecode r' hrun)
      exact hboth.mono fun message r hmessage messageId hid hunseen =>
        ⟨hmessage.1 messageId hid hunseen, hmessage.2 messageId hid hunseen⟩
  | _ => exact h.of_agrees hagrees (by rw [Action.parts]; decide)

/-- When each step finds room for what it adds, the table keeps all ids that have not expired. -/
theorem run {s : Node} {actions : List Action} (h : SeenInvariant config s.router)
    (hrun : s.Meets config (fun s action => action.Manageable config s ∧ action.FindsRoom config s)
      actions) : SeenInvariant config (s.run config actions).router := by
  apply Lib.run_keeps (I := fun s : Node => SeenInvariant config s.router) hrun h
  intro s action haction hs
  exact hs.step haction.1.ordered haction.1.fits haction.2

end SeenInvariant

/-! ## Duplicates -/

/-- The event for a duplicate. -/
def duplicateEvent (peer : Peer) (messageId : Bytes) : Event :=
  { Event.zero .dropped with
    dropReason := .duplicateMessage
    messageId := .borrowed (.ptr messageId) }.ofPeer peer

/-- The message is a duplicate, and nothing but a DROPPED event comes of it. -/
def DroppedAsDuplicate (p nowUs : Nat) (message : Message) (messageId : Bytes)
    (r : Router) : Prop :=
  ∃ r', processMessage config p message nowUs r = (.error .duplicate, r') ∧
    pushEventOrDrop config (duplicateEvent (r.peers p) messageId) r = (.ok (), r') ∧
    Router.Agrees [.events] r r'

/-- A message with an id that was accepted and has not expired is a duplicate. -/
def Suppressed (p nowUs : Nat) (message : Message) (r : Router) : Prop :=
  ∀ a ∈ r.history.accepted, computeMessageId config message = .ok a.messageId →
    Unexpired config r a → DroppedAsDuplicate config p nowUs message a.messageId r

theorem SeenInvariant.suppressed {config : Config} {r : Router} {p nowUs : Nat}
    (h : SeenInvariant config r) (hp : p < config.capacity.maxPeers) (hnow : r.lastDriveUs = nowUs)
    (message : Message) : Suppressed config p nowUs message r := by
  intro a ha hid hunexpired
  have hseen := h.seenContains ha hunexpired
  rw [hnow] at hseen
  rcases @pushEventOrDrop_plain config (duplicateEvent (r.peers p) a.messageId) rfl r with
    ⟨r', hpush, hagrees⟩
  refine ⟨r', ?_, hpush, hagrees⟩
  have hinner : (Comp.ofResult (computeMessageId config message) >>= fun messageId =>
      Comp.read id >>= fun r => if Gossipsub.seenContains config r (.ptr messageId) nowUs then do
          pushEventOrDrop config (duplicateEvent (r.peers p) messageId)
          Comp.fail .duplicate
        else do
          Comp.update (Gossipsub.seenAdd config messageId nowUs)
          acceptMessage config p message messageId nowUs) r = (.error .duplicate, r') := by
    rw [hid, Comp.bind_of_ok (Comp.ofResult_apply ..), Comp.read_id_bind, if_pos hseen,
      Comp.bind_of_ok hpush]
    rfl
  unfold processMessage continueAfterLocalLimit Comp.absorb
  rw [if_neg (Nat.not_le.mpr hp)]
  unfold duplicateEvent at hinner
  rw [hinner]
  rfl

/-- In a run in which each step finds room for the ids that it adds, every message that arrives
    with an id that was accepted or published, and has not expired, is dropped as a duplicate. -/
theorem duplicates_suppressed (config : RouterConfig) (actions : List Action) (i : Nat)
    (body : Bytes) (hrun : Node.init.Meets config.toConfig (fun s action =>
      action.Manageable config.toConfig s ∧ action.FindsRoom config.toConfig s)
        (actions ++ [.receive i body])) :
    let s := Node.init.run config.toConfig actions
    let p := (s.router.streams i).peerIndex
    i < config.capacity.maxStreams → (s.router.streams i).isOpen →
    ∀ rpc, rpcBodyDecode (s.router.streams i).version config.limits decodeStorage body = .ok rpc →
    ∀ r', Comp.forOk (processSubscription config.toConfig p) rpc.subscriptions s.router =
      (.ok (), r') →
    Comp.Visits (receiveMessage config.toConfig p s.router.lastDriveUs)
      (Suppressed config.toConfig p s.router.lastDriveUs) rpc.publish r' := by
  intro s p hi hopen rpc hdecode r' hsubs
  rcases runMeets_append.mp hrun with ⟨hbefore, ⟨hmanageable, hroom⟩, -⟩
  have hs : SeenInvariant config.toConfig s.router := SeenInvariant.init.run hbefore
  have hp : p < config.capacity.maxPeers := (StreamsKnown.run actions i hopen).1
  have hagrees : Router.Agrees _ s.router r' := (Comp.Touches.forOk fun sub =>
    processSubscription_touches config.toConfig p sub).of_run hsubs
  have hguards := (hmanageable.fits hi hopen rpc hdecode r' hsubs).and
    (hroom hi hopen rpc hdecode r' hsubs)
  -- Each message finds the invariant, and its guard hands it on to the next.
  refine Comp.visits_of_guarded (I := fun r => SeenInvariant config.toConfig r ∧
    r.lastDriveUs = s.router.lastDriveUs) (fun message r hguard hr => ?_) (fun message r hr => ?_)
    hguards ⟨hs.of_agrees hagrees (by decide), hagrees.lastDriveUs (by decide)⟩
  · refine ⟨hr.1.receiveMessage fun messageId hid hunseen =>
      ⟨hguard.1 messageId hid hunseen, hguard.2 messageId hid hunseen⟩, ?_⟩
    have hmessage : Router.Agrees _ r _ := (Comp.Touches.absorb (p := fun e => decide (e = .duplicate))
      (processMessage_touches config.toConfig p message s.router.lastDriveUs)).agrees r
    exact (hmessage.lastDriveUs (by decide)).trans hr.2
  · exact hr.1.suppressed hp hr.2 message

theorem publishStored_touches (request : Publish) (outLen : Option Nat) :
    Touches [.topics, .mcache, .messages] (publishStored config request outLen) := by
  refine .ite (.fail _) (.bind (.ofResult _) fun messageId => .ite (.fail _) ?_)
  refine .bind ((findOrAddTopic_touches ..).mono (by decide)) fun o => ?_
  refine .bind (orFail_touches ..) fun t => ?_
  exact .bind ((mcacheStore_touches ..).mono (by decide)) fun _ => .pure _

/-- The clocks of the router are far from the end of their range, and the step is manageable
    otherwise. -/
structure Action.Clocked (config : Config) (s : Node) (action : Action) : Prop where
  ordered : action.Ordered s
  drive : s.router.lastDriveUs + config.mesh.seenTtlUs ≤ uint64Max
  heartbeat : s.router.nextHeartbeatUs + config.mesh.seenTtlUs ≤ uint64Max
  few : (unexpiredIds config (s.step config action).router).length ≤ config.capacity.seenEntries

instance (s : Node) (action : Action) : Decidable (action.Clocked config s) :=
  decidable_of_iff (action.Ordered s ∧ s.router.lastDriveUs + config.mesh.seenTtlUs ≤ uint64Max ∧
    s.router.nextHeartbeatUs + config.mesh.seenTtlUs ≤ uint64Max ∧
    (unexpiredIds config (s.step config action).router).length ≤ config.capacity.seenEntries)
    ⟨fun ⟨h, h', h'', h'''⟩ => ⟨h, h', h'', h'''⟩, fun ⟨h, h', h'', h'''⟩ => ⟨h, h', h'', h'''⟩⟩

theorem Action.Clocked.manageable {config : Config} {s : Node} {action : Action}
    (h : action.Clocked config s) : action.Manageable config s := by
  refine ⟨h.ordered, ?_, h.few⟩
  cases action with
  | publish request outLen =>
    intro x r' hrun
    have hagrees := (publishStored_touches config request outLen).of_run hrun
    have hclock : r'.nextHeartbeatUs = s.router.nextHeartbeatUs :=
      congrArg (fun x => x.2.2.1) (hagrees.eq .clock (by decide))
    unfold ExpiryFits
    rw [hclock]
    exact h.heartbeat
  | receive i body =>
    intro _ _ rpc _ r' _
    exact Comp.visits_of_forall (fun _ _ _ _ _ => h.drive) _ _
  | _ => trivial

/-- A message arrives, and then again. -/
def repeatedRun : List Action :=
  [.start 0,
   .subscribe ⟨.ptr [7], .acceptAll, false, 0⟩,
   .streamOpen 1 1 (.ok [1]) .outbound .v11,
   .receive 0 [0x12, 6, 0x12, 1, 9, 0x22, 1, 7]]

/-- The RPC with the message. -/
def repeatedRpc : Rpc :=
  { Rpc.zero with publish := [{ Message.zero with
    data := .ptr [9]
    topic := .ptr [7]
    rawMessage := .ptr [0x12, 1, 9, 0x22, 1, 7] }] }

theorem repeatedRpc_decoded : rpcBodyDecode .v11 RouterConfig.small.limits decodeStorage
    [0x12, 6, 0x12, 1, 9, 0x22, 1, 7] = .ok repeatedRpc := by decide

theorem duplicates_suppressed_repeatedRun :
    let s := Node.init.run RouterConfig.small.toConfig repeatedRun
    let p := (s.router.streams 0).peerIndex
    Comp.Visits (receiveMessage RouterConfig.small.toConfig p s.router.lastDriveUs)
      (Suppressed RouterConfig.small.toConfig p s.router.lastDriveUs) repeatedRpc.publish
        s.router := by
  have hversion : ((Node.init.run RouterConfig.small.toConfig repeatedRun).router.streams
      0).version = .v11 := by decide +kernel
  have hclocked : Node.init.Meets RouterConfig.small.toConfig
      (fun s action => action.Clocked RouterConfig.small.toConfig s)
      (repeatedRun ++ [.receive 0 [0x12, 6, 0x12, 1, 9, 0x22, 1, 7]]) := by decide +kernel
  have hrooms : Node.init.Meets RouterConfig.small.toConfig
      (Action.FindsRoom RouterConfig.small.toConfig)
      (repeatedRun ++ [.receive 0 [0x12, 6, 0x12, 1, 9, 0x22, 1, 7]]) := by
    apply runMeets_append.mpr
    refine ⟨⟨trivial, trivial, trivial, ?_, trivial⟩, ?_, trivial⟩
    · intro _ _ rpc hdecode r' hsubs
      cases repeatedRpc_decoded.symm.trans hdecode
      cases hsubs
      refine ⟨fun messageId hid _ => ?_, fun _ _ => trivial⟩
      cases hid
      decide +kernel
    · show Action.FindsRoom RouterConfig.small.toConfig
        (Node.init.run RouterConfig.small.toConfig repeatedRun) _
      intro _ _ rpc hdecode r' hsubs
      rw [hversion] at hdecode
      cases repeatedRpc_decoded.symm.trans hdecode
      have hnone : repeatedRpc.subscriptions = [] := rfl
      rw [hnone, Comp.forOk_nil, Comp.pure_apply] at hsubs
      rcases Prod.mk.inj hsubs with ⟨-, rfl⟩
      refine ⟨fun messageId hid hunseen => ?_, fun _ _ => trivial⟩
      cases hid
      exact absurd hunseen (by decide +kernel)
  have hboth := (hclocked.mono fun _ _ h => h.manageable).and hrooms
  exact duplicates_suppressed RouterConfig.small repeatedRun 0 _ hboth (by decide)
    (by decide +kernel) repeatedRpc (by rw [hversion]; exact repeatedRpc_decoded) _ rfl

/-- After the message arrived, a publish shortly before its id expires takes the slot of the id. -/
def overwrittenRun : List Action :=
  repeatedRun ++ [.drive 119500000 fun _ => .ok 100, .publish ⟨.ptr [7], .ptr [1], .null 0⟩ none]

/-- The message is accepted a second time. -/
theorem duplicates_accepted : ¬ ∀ (config : RouterConfig) (actions : List Action) (i : Nat)
    (body : Bytes), Node.init.Meets config.toConfig (Action.Manageable config.toConfig)
        (actions ++ [.receive i body]) →
    let s := Node.init.run config.toConfig actions
    let p := (s.router.streams i).peerIndex
    i < config.capacity.maxStreams → (s.router.streams i).isOpen →
    ∀ rpc, rpcBodyDecode (s.router.streams i).version config.limits decodeStorage body = .ok rpc →
    ∀ r', Comp.forOk (processSubscription config.toConfig p) rpc.subscriptions s.router =
      (.ok (), r') →
    Comp.Visits (receiveMessage config.toConfig p s.router.lastDriveUs)
      (Suppressed config.toConfig p s.router.lastDriveUs) rpc.publish r' := by
  intro h
  have hclocked : Node.init.Meets RouterConfig.small.toConfig
      (fun s action => action.Clocked RouterConfig.small.toConfig s)
      (overwrittenRun ++ [.receive 0 [0x12, 6, 0x12, 1, 9, 0x22, 1, 7]]) := by decide +kernel
  have hmanageable := hclocked.mono fun _ _ h => h.manageable
  have hversion : ((Node.init.run RouterConfig.small.toConfig overwrittenRun).router.streams
      0).version = .v11 := by decide +kernel
  have hvisits := h RouterConfig.small overwrittenRun 0 _ hmanageable (by decide) (by decide +kernel)
    repeatedRpc (by rw [hversion]; exact repeatedRpc_decoded) _ rfl
  have hresult : (processMessage RouterConfig.small.toConfig
      ((Node.init.run RouterConfig.small.toConfig overwrittenRun).router.streams 0).peerIndex
      { Message.zero with
        data := .ptr [9]
        topic := .ptr [7]
        rawMessage := .ptr [0x12, 1, 9, 0x22, 1, 7] }
      (Node.init.run RouterConfig.small.toConfig overwrittenRun).router.lastDriveUs
      (Node.init.run RouterConfig.small.toConfig overwrittenRun).router).1 = .ok () := by
    decide +kernel
  rcases hvisits.1 ⟨[7, 9], 0⟩ (by decide +kernel) rfl (by decide +kernel) with ⟨r', hdropped, -⟩
  rw [hdropped] at hresult
  cases hresult

end LeanLibp2p.Gossipsub
