import LeanLibp2p.Gossipsub.Router.CacheContent
import LeanLibp2p.Gossipsub.Router.Ranks
import LeanLibp2p.Gossipsub.Router.SeenIds

/-!
# Telling peers that a message is not wanted

An IDONTWANT for a message is queued when it is received, and once more for each peer that it is
forwarded to (`gossipsub_tx.c:1142-1178`, `gossipsub_tx.c:1362-1425`,
`gossipsub_tx.c:1508-1568`). Nothing remembers the first one.
-/

namespace LeanLibp2p.Gossipsub

open LeanLibp2p.Lib

/-- What `gossipsub_enqueue_idontwant_for_entry` asks before it queues an IDONTWANT for a message
    with `dataLen` bytes of data. -/
def takesIdontwant (config : Config) (r : Router) (p : Nat) (topic : Topic) (dataLen : Nat) :
    Prop :=
  (r.peers p).version = .v12 ∧ config.enableIdontwant ∧ topic.enableIdontwant ∧
    topic.idontwantMinMessageBytes ≤ dataLen ∧
    (r.peers p).idontwantSentThisHeartbeat < config.maxIdontwantMessagesPerPeerPerHeartbeat

instance (config : Config) (r : Router) (p : Nat) (topic : Topic) (dataLen : Nat) :
    Decidable (takesIdontwant config r p topic dataLen) :=
  inferInstanceAs (Decidable (_ ∧ _))

/-- What `gossipsub_forward_entry` asks of the peer that it forwards an entry to. -/
def forwardsTo (config : Config) (r : Router) (source t : Nat) (entry : McacheEntry) (p : Nat) :
    Prop :=
  p ≠ source ∧ r.isWriter p ∧ txIsMeshRoute config r p t ∧
    peerIdontwantContains config r p entry.messageId (txEffectiveNowUs r) = false

instance (config : Config) (r : Router) (source t : Nat) (entry : McacheEntry) (p : Nat) :
    Decidable (forwardsTo config r source t entry p) :=
  inferInstanceAs (Decidable (_ ∧ _))

/-- From `r` to `r'` these peers were told, one after the other, that the message with number `n`
    is not wanted. -/
structure Tells (n : Nat) (peers : List Nat) (r r' : Router) : Prop where
  agrees : Router.Agrees [.tx, .idontwantSent, .unwanted, .queued, .events, .validations] r r'
  idontwants : r'.history.idontwants = r.history.idontwants ++ peers.map fun p => ⟨p, n⟩
  sent : ∀ p, (r'.peers p).idontwantSentThisHeartbeat =
    (r.peers p).idontwantSentThisHeartbeat + peers.count p

namespace Tells

variable {config : Config} {n : Nat} {ps qs : List Nat} {r r' r'' : Router}

theorem of_agrees {touched : List Part} (hagrees : Router.Agrees touched r r')
    (hsub : ∀ part ∈ touched, part ∈ [Part.tx, .queued, .events, .validations]) :
    Tells n [] r r' := by
  have h := hagrees.mono hsub
  refine ⟨h.mono (by decide), ?_, fun p => ?_⟩
  · have hunwanted : r'.history.idontwants = r.history.idontwants :=
      congrArg Prod.snd (h.eq .unwanted (by decide))
    simpa using hunwanted
  · have hcount : (r'.peers p).idontwantSentThisHeartbeat =
        (r.peers p).idontwantSentThisHeartbeat := congrFun (h.eq .idontwantSent (by decide)) p
    simpa using hcount

theorem refl (n : Nat) (r : Router) : Tells n [] r r :=
  of_agrees (@Lib.Agrees.refl _ _ _ Router.part [] r) (by decide)

theorem trans (h : Tells n ps r r') (h' : Tells n qs r' r'') : Tells n (ps ++ qs) r r'' where
  agrees := h.agrees.trans h'.agrees
  idontwants := by rw [h'.idontwants, h.idontwants, List.map_append, List.append_assoc]
  sent p := by rw [h'.sent, h.sent, List.count_append, Nat.add_assoc]

/-- Whether a peer that was not told takes an IDONTWANT has not changed. -/
theorem takesIdontwant (h : Tells n ps r r') {p : Nat} (hp : p ∉ ps) {topic : Topic}
    {dataLen : Nat} (htakes : takesIdontwant config r' p topic dataLen) :
    Gossipsub.takesIdontwant config r p topic dataLen := by
  unfold Gossipsub.takesIdontwant at htakes ⊢
  rw [h.sent, List.count_eq_zero_of_not_mem hp,
    h.agrees.peer (by decide) p Peer.version fun _ => rfl] at htakes
  exact htakes

theorem isWriter (h : Tells n ps r r') : r'.isWriter = r.isWriter :=
  isWriter_of_agrees h.agrees (by decide)

theorem meshContains (h : Tells n ps r r') :
    meshContains config r' = Gossipsub.meshContains config r :=
  meshContains_of_agrees h.agrees (by decide)

theorem topics (h : Tells n ps r r') : r'.topics = r.topics := h.agrees.eq .topics (by decide)

theorem peerIdontwantContains (h : Tells n ps r r') (p : Nat) (messageId : Bytes) :
    peerIdontwantContains config r' p messageId (txEffectiveNowUs r') =
      Gossipsub.peerIdontwantContains config r p messageId (txEffectiveNowUs r) := by
  have hidontwant : r'.idontwant = r.idontwant := h.agrees.eq .idontwant (by decide)
  have hheartbeat : r'.nextHeartbeatUs = r.nextHeartbeatUs :=
    congrArg (fun x => x.2.2.1) (h.agrees.eq .clock (by decide))
  unfold Gossipsub.peerIdontwantContains txEffectiveNowUs
  rw [hidontwant, hheartbeat, h.agrees.lastDriveUs (by decide)]

theorem forwardsTo (h : Tells n ps r r') (source t : Nat) (entry : McacheEntry) (p : Nat) :
    forwardsTo config r' source t entry p ↔ Gossipsub.forwardsTo config r source t entry p := by
  unfold Gossipsub.forwardsTo txIsMeshRoute
  rw [h.isWriter, h.meshContains, h.agrees.peer (by decide) p Peer.explicitPeer fun _ => rfl,
    peerSubscribed_of_agrees h.agrees (by decide), h.peerIdontwantContains]

end Tells

/-! ## Loops over the peers -/

section Loops

variable {config : Config}

theorem enqueueIdontwantForEntry_tells (p : Nat) (topic : Topic) (entry : McacheEntry)
    (r : Router) :
    Tells entry.origin [] r (enqueueIdontwantForEntry config p topic entry r).2 ∨
      takesIdontwant config r p topic entry.dataLen ∧
        Tells entry.origin [p] r (enqueueIdontwantForEntry config p topic entry r).2 := by
  have htouches := (enqueueIdontwantForEntry_touches config p topic entry).agrees r
  unfold enqueueIdontwantForEntry at htouches ⊢
  rw [Comp.read_id_bind] at htouches ⊢
  split
  · exact .inl (.refl _ r)
  · rename_i hrange
    rw [if_neg hrange] at htouches
    split
    · rename_i htakes
      rw [if_pos htakes] at htouches
      have hsent : Router.Agrees [.tx] r (enqueueIdontwant config p entry.messageId r).2 :=
        (enqueueIdontwant_touches ..).agrees r
      rcases hrun : enqueueIdontwant config p entry.messageId r with ⟨e | ⟨⟩, r₁⟩
      · rw [Comp.bind_of_error hrun]
        rw [hrun] at hsent
        exact .inl (.of_agrees hsent (by decide))
      · rw [Comp.bind_of_ok hrun, Comp.update_apply] at htouches ⊢
        rw [hrun] at hsent
        refine .inr ⟨htakes, htouches.mono (by decide), ?_, fun q => ?_⟩
        · have hidontwants : r₁.history.idontwants = r.history.idontwants :=
            congrArg Prod.snd (hsent.eq .unwanted (by decide))
          change r₁.history.idontwants ++ [⟨p, entry.origin⟩] = _
          rw [hidontwants]
          rfl
        · have hcount := congrFun (hsent.eq .idontwantSent (by decide)) q
          change (r₁.peers q).idontwantSentThisHeartbeat =
            (r.peers q).idontwantSentThisHeartbeat at hcount
          change ((Function.update r₁.peers p _) q).idontwantSentThisHeartbeat = _
          by_cases hq : q = p
          · subst hq
            simp [hcount]
          · rw [Function.update_of_ne hq, hcount]
            simp [Ne.symm hq]
    · exact .inl (.refl _ r)

/-- What was told in a first part and in the rest, which tells nobody. -/
theorem tells_or_trans {n p : Nat} {C : Prop} {r r' r'' : Router}
    (h : Tells n [] r r' ∨ C ∧ Tells n [p] r r') (h' : Tells n [] r' r'') :
    Tells n [] r r'' ∨ C ∧ Tells n [p] r r'' :=
  h.imp (fun h => h.trans h') fun h => ⟨h.1, h.2.trans h'⟩

theorem sendEntry_tells (p : Nat) (topic : Topic) (entry : McacheEntry) {publish : RouterM Unit}
    (hpublish : Touches [.tx, .queued] publish) (r : Router) :
    Tells entry.origin [] r (sendEntry config p topic entry publish r).2 ∨
      takesIdontwant config r p topic entry.dataLen ∧
        Tells entry.origin [p] r (sendEntry config p topic entry publish r).2 := by
  refine tells_or_trans (enqueueIdontwantForEntry_tells p topic entry r) ?_
  unfold sendEntry continueAfterLocalLimit
  rw [Comp.absorb_state]
  have hstate := Comp.absorb_state (fun e => e = .limit)
    (enqueueIdontwantForEntry config p topic entry) r
  rw [← hstate]
  rcases hrun : Comp.absorb (fun e => decide (e = GossipsubErr.limit))
    (enqueueIdontwantForEntry config p topic entry) r with ⟨e | ⟨⟩, r₁⟩
  · rw [Comp.bind_of_error hrun]
    exact .refl _ r₁
  · rw [Comp.bind_of_ok hrun]
    exact .of_agrees (hpublish.agrees r₁) (by decide)

/-- A loop that tells a peer in its own round only, and only if it meets a condition that the other
    rounds do not establish. -/
theorem forOk_tells {n : Nat} {C : Nat → Router → Prop} {body : Nat → RouterM Unit}
    (hstable : ∀ ps p r r', p ∉ ps → Tells n ps r r' → C p r' → C p r)
    (hbody : ∀ p r, Tells n [] r (body p r).2 ∨ C p r ∧ Tells n [p] r (body p r).2)
    {xs : List Nat} (hnodup : xs.Nodup) (r : Router) :
    ∃ ps : List Nat, ps.Nodup ∧ (∀ p ∈ ps, p ∈ xs ∧ C p r) ∧
      Tells n ps r (Comp.forOk body xs r).2 := by
  induction xs generalizing r with
  | nil => exact ⟨[], List.nodup_nil, by simp, .refl _ r⟩
  | cons x xs ih =>
    obtain ⟨hx, hxs⟩ := List.nodup_cons.mp hnodup
    have hround := hbody x r
    rw [Comp.forOk_cons]
    rcases hrun : body x r with ⟨e | ⟨⟩, r₁⟩
    · rw [Comp.bind_of_error hrun]
      rw [hrun] at hround
      rcases hround with htells | ⟨hC, htells⟩
      · exact ⟨[], List.nodup_nil, by simp, htells⟩
      · exact ⟨[x], List.nodup_singleton x, by simpa using hC, htells⟩
    · rw [Comp.bind_of_ok hrun]
      rw [hrun] at hround
      obtain ⟨ps, hps, hmet, hrest⟩ := ih hxs r₁
      have hnot : x ∉ ps := fun hmem => hx (hmet x hmem).1
      rcases hround with htells | ⟨hC, htells⟩
      · refine ⟨ps, hps, fun p hp => ?_, htells.trans hrest⟩
        obtain ⟨hmem, hCp⟩ := hmet p hp
        exact ⟨List.mem_cons_of_mem x hmem, hstable [] p r r₁ (by simp) htells hCp⟩
      · refine ⟨x :: ps, List.nodup_cons.mpr ⟨hnot, hps⟩, fun p hp => ?_, htells.trans hrest⟩
        rcases List.mem_cons.mp hp with heq | hp
        · rw [heq]
          exact ⟨List.mem_cons_self, hC⟩
        · obtain ⟨hmem, hCp⟩ := hmet p hp
          have hne : p ∉ [x] := by
            rw [List.mem_singleton]
            intro heq
            exact hnot (heq ▸ hp)
          exact ⟨List.mem_cons_of_mem x hmem, hstable [x] p r r₁ hne htells hCp⟩

/-- When a message is received, the mesh peers that take an IDONTWANT may be told. -/
theorem enqueueIdontwantForReceivedEntry_tells (topic : Topic) (slot : Nat) (entry : McacheEntry)
    (r : Router) :
    ∃ ps : List Nat, ps.Nodup ∧
      (∀ p ∈ ps, p ∈ List.range config.capacity.maxPeers ∧ r.isWriter p = true ∧
        (∀ t, findTopic config r (.ptr entry.topic) = some t → meshContains config r p t = true) ∧
        takesIdontwant config r p topic entry.dataLen) ∧
      Tells entry.origin ps r (enqueueIdontwantForReceivedEntry config topic slot entry r).2 := by
  unfold enqueueIdontwantForReceivedEntry
  rw [Comp.read_id_bind]
  cases hfind : findTopic config r (.ptr entry.topic) with
  | none => exact ⟨[], List.nodup_nil, by simp, .refl _ r⟩
  | some t =>
    rw [Comp.bind_of_ok (orFail_some ..)]
    refine forOk_tells (C := fun p r => r.isWriter p = true ∧
      (∀ t', some t = some t' → meshContains config r p t' = true) ∧
      takesIdontwant config r p topic entry.dataLen) ?_ ?_ List.nodup_range r
    · intro ps p r r' hp htells hC
      rw [htells.isWriter, htells.meshContains] at hC
      exact ⟨hC.1, hC.2.1, htells.takesIdontwant hp hC.2.2⟩
    · intro p r
      rw [Comp.read_id_bind]
      split
      · rename_i hroute
        rw [Bool.and_eq_true] at hroute
        have htells := @enqueueIdontwantForEntry_tells config p topic entry r
        rcases hrun : enqueueIdontwantForEntry config p topic entry r with ⟨res, r₁⟩
        rw [Comp.bind_of_ok (Comp.result_of_run hrun)]
        rw [hrun] at htells
        have hmesh : ∀ t', some t = some t' → meshContains config r p t' = true := by
          intro t' heq
          rw [← Option.some_inj.mp heq]
          exact hroute.2
        refine tells_or_trans (htells.imp_right fun h => ⟨⟨hroute.1, hmesh, h.1⟩, h.2⟩) ?_
        cases res with
        | ok _ => exact .refl _ r₁
        | error e =>
          dsimp only
          split
          · exact .of_agrees ((reportTxQueueLimit_touches ..).agrees r₁) (by decide)
          · exact .refl _ r₁
      · exact .inl (.refl _ r)

/-- When a message is forwarded, the peers that it is forwarded to may be told. -/
theorem forwardEntry_tells (source : Nat) (entry : McacheEntry) (r : Router) :
    ∃ ps : List Nat, ps.Nodup ∧
      (∀ p ∈ ps, p ∈ List.range config.capacity.maxPeers ∧
        ∃ t, findTopic config r (.ptr entry.topic) = some t ∧
          forwardsTo config r source t entry p ∧
          takesIdontwant config r p (r.topics t) entry.dataLen) ∧
      Tells entry.origin ps r (forwardEntry config source entry r).2 := by
  unfold forwardEntry
  rw [Comp.read_id_bind]
  cases hfind : findTopic config r (.ptr entry.topic) with
  | none => exact ⟨[], List.nodup_nil, by simp, .refl _ r⟩
  | some t =>
    rw [Comp.bind_of_ok (orFail_some ..)]
    refine forOk_tells (C := fun p r => ∃ t', some t = some t' ∧
      forwardsTo config r source t' entry p ∧
      takesIdontwant config r p (r.topics t') entry.dataLen) ?_ ?_ List.nodup_range r
    · intro ps p r r' hp htells hC
      obtain ⟨t', ht, hto, htakes⟩ := hC
      rw [htells.topics] at htakes
      exact ⟨t', ht, (htells.forwardsTo ..).mp hto, htells.takesIdontwant hp htakes⟩
    · intro p r
      rw [Comp.read_id_bind]
      split
      · rename_i hto
        have htells := @sendEntry_tells config p (r.topics t) entry _
          (enqueuePublishEntryWithLifetime_touches config p entry txForwardLifetimeUs false) r
        exact htells.imp_right fun h => ⟨⟨t, rfl, hto, h.1⟩, h.2⟩
      · exact .inl (.refl _ r)

/-- When a message is published, each peer is told at most once. -/
theorem publishEntry_tells (t : Nat) (entry : McacheEntry) (r : Router) :
    ∃ ps : List Nat, ps.Nodup ∧ (∀ p ∈ ps, p ∈ List.range config.capacity.maxPeers ∧ True) ∧
      Tells entry.origin ps r (publishEntry config t entry r).2 := by
  refine forOk_tells (C := fun _ _ => True) (fun _ _ _ _ _ _ _ => trivial) ?_ List.nodup_range r
  intro p r
  rw [Comp.read_id_bind]
  split
  · have htells := @sendEntry_tells config p (r.topics t) entry _
      (enqueuePublishEntryWithLifetime_touches config p entry txLocalPublishLifetimeUs true) r
    exact htells.imp_right fun h => ⟨trivial, h.2⟩
  · exact .inl (.refl _ r)

end Loops

/-! ## Messages -/

/-- Where a message is forwarded when it is received, no mesh peer but the sender would be told
    twice: it has asked not to get the message, or has no more than one IDONTWANT left. -/
def ForwardSpares (config : Config) (p t : Nat) (messageId : Bytes) (dataLen : Nat) (r : Router) :
    Prop :=
  (r.topics t).validationMode = .acceptAll → ∀ q < config.capacity.maxPeers, q ≠ p →
    r.isWriter q = true → meshContains config r q t = true →
    takesIdontwant config r q (r.topics t) dataLen →
      peerIdontwantContains config r q messageId (txEffectiveNowUs r) = true ∨
        config.maxIdontwantMessagesPerPeerPerHeartbeat ≤ (r.peers q).idontwantSentThisHeartbeat + 1

/-- The message is a duplicate, or of a topic without a subscription, or no peer would be told twice
    about it. -/
def MessageSpares (config : Config) (p nowUs : Nat) (message : Message) (r : Router) : Prop :=
  ∀ messageId t, computeMessageId config message = .ok messageId →
    seenContains config r (.ptr messageId) nowUs = false →
    findTopic config r message.topic = some t → (r.topics t).localSubscribed = true →
    ForwardSpares config p t messageId message.data.bytes.length r

/-- Of the peers that the entry is forwarded to, none takes an IDONTWANT that was told before. -/
def ReportSpares (config : Config) (r : Router) (v : Nat) : Prop :=
  (r.validations v).pending = true → (r.validations v).mcacheIndex < config.capacity.mcacheSlots →
    (r.mcache.entries (r.validations v).mcacheIndex).used = true →
    ∀ t, findTopic config r (.ptr (r.mcache.entries (r.validations v).mcacheIndex).topic) =
      some t → ∀ p < config.capacity.maxPeers,
      forwardsTo config r (r.validations v).peerIndex t
        (r.mcache.entries (r.validations v).mcacheIndex) p →
      takesIdontwant config r p (r.topics t)
        (r.mcache.entries (r.validations v).mcacheIndex).dataLen →
        ⟨p, (r.mcache.entries (r.validations v).mcacheIndex).origin⟩ ∉ r.history.idontwants

/-- No message that the action receives, and none that it accepts, is one that a peer would be told
    about twice. -/
def Action.Spares (config : Config) (s : Node) : Action → Prop
  | .report k value => value = .accept →
      ∀ v, reportedToken s.received k = some v → ReportSpares config s.router v
  | .receive i body => i < config.capacity.maxStreams → (s.router.streams i).isOpen →
      ∀ rpc, rpcBodyDecode (s.router.streams i).version config.limits decodeStorage body =
        .ok rpc →
      ∀ r', Comp.forOk (processSubscription config (s.router.streams i).peerIndex)
        rpc.subscriptions s.router = (.ok (), r') →
      Comp.Visits (receiveMessage config (s.router.streams i).peerIndex s.router.lastDriveUs)
        (MessageSpares config (s.router.streams i).peerIndex s.router.lastDriveUs) rpc.publish r'
  | _ => True

/-- No peer was told twice about a message, and all that were told of are messages of the
    history. -/
structure ToldOnce (r : Router) : Prop where
  nodup : r.history.idontwants.Nodup
  known : ∀ q ∈ r.history.idontwants, q.origin < r.history.messages.length

namespace ToldOnce

variable {config : Config} {r r' : Router}

theorem of_agrees {touched : List Part} (h : ToldOnce r) (hagrees : Router.Agrees touched r r')
    (hdisjoint : ∀ part ∈ [Part.unwanted, .messages], part ∉ touched) : ToldOnce r' := by
  have hidontwants : r'.history.idontwants = r.history.idontwants :=
    congrArg Prod.snd (hagrees.eq .unwanted (hdisjoint _ (by decide)))
  have hmessages : r'.history.messages = r.history.messages :=
    hagrees.eq .messages (hdisjoint _ (by decide))
  constructor
  · rw [hidontwants]
    exact h.nodup
  · rw [hidontwants, hmessages]
    exact h.known

theorem of_touches {α : Type} {touched : List Part} {c : RouterM α} (hc : Touches touched c)
    (hdisjoint : ∀ part ∈ [Part.unwanted, .messages], part ∉ touched) :
    Comp.Keeps ToldOnce c :=
  hc.keeps fun _ _ hagrees h => h.of_agrees hagrees hdisjoint

/-- Peers that were not told about the message are told. -/
theorem tells {n : Nat} {ps : List Nat} (h : ToldOnce r) (htells : Tells n ps r r')
    (hps : ps.Nodup) (hnew : ∀ p ∈ ps, ⟨p, n⟩ ∉ r.history.idontwants)
    (hn : n < r.history.messages.length) : ToldOnce r' := by
  have hmessages : r'.history.messages = r.history.messages :=
    htells.agrees.eq .messages (by decide)
  constructor
  · rw [htells.idontwants]
    refine h.nodup.append (hps.map fun p q heq => congrArg QueuedIdontwant.peerIndex heq) ?_
    intro q hold hadded
    obtain ⟨p, hp, rfl⟩ := List.mem_map.mp hadded
    exact hnew p hp hold
  · intro q hq
    rw [hmessages]
    rw [htells.idontwants] at hq
    rcases List.mem_append.mp hq with hold | hadded
    · exact h.known q hold
    · obtain ⟨p, -, rfl⟩ := List.mem_map.mp hadded
      exact hn

/-- A message that is stored was told to nobody. -/
theorem mcacheStore {source : Option (Nat × Message)} {gated : Bool} {messageId : Bytes}
    {topic data : Span} :
    Comp.Keeps ToldOnce (Gossipsub.mcacheStore config source gated messageId topic data) := by
  intro r h
  obtain ⟨added, hmessages⟩ :=
    CacheInvariant.mcacheStore_messages config source gated messageId topic data r
  have hagrees := (mcacheStore_touches config source gated messageId topic data).agrees r
  have hidontwants :
      (Gossipsub.mcacheStore config source gated messageId topic data r).2.history.idontwants =
        r.history.idontwants := congrArg Prod.snd (hagrees.eq .unwanted (by decide))
  constructor
  · rw [hidontwants]
    exact h.nodup
  · intro q hq
    rw [hidontwants] at hq
    rw [hmessages, List.length_append]
    exact Nat.lt_add_right _ (h.known q hq)

end ToldOnce

section Messages

variable {config : Config}

theorem ForwardSpares.of_agrees {touched : List Part} {p t dataLen : Nat} {messageId : Bytes}
    {r r' : Router} (h : ForwardSpares config p t messageId dataLen r)
    (hagrees : Router.Agrees touched r r')
    (hdisjoint : ∀ part ∈ [Part.topics, .peers, .mesh, .idontwant, .clock, .idontwantSent],
      part ∉ touched) : ForwardSpares config p t messageId dataLen r' := by
  have hpeers : Part.peers ∉ touched := hdisjoint _ (by decide)
  have htopics : r'.topics = r.topics := hagrees.eq .topics (hdisjoint _ (by decide))
  have hidontwant : r'.idontwant = r.idontwant := hagrees.eq .idontwant (hdisjoint _ (by decide))
  have hheartbeat : r'.nextHeartbeatUs = r.nextHeartbeatUs :=
    congrArg (fun x => x.2.2.1) (hagrees.eq .clock (hdisjoint _ (by decide)))
  have hdrive : r'.lastDriveUs = r.lastDriveUs := hagrees.lastDriveUs (hdisjoint _ (by decide))
  intro hmode q hq hne hwriter hmesh htakes
  have hcount : (r'.peers q).idontwantSentThisHeartbeat =
      (r.peers q).idontwantSentThisHeartbeat :=
    congrFun (hagrees.eq .idontwantSent (hdisjoint _ (by decide))) q
  rw [htopics] at hmode
  rw [isWriter_of_agrees hagrees hpeers] at hwriter
  rw [meshContains_of_agrees hagrees (hdisjoint _ (by decide))] at hmesh
  unfold takesIdontwant at htakes
  rw [htopics, hcount, hagrees.peer hpeers q Peer.version fun _ => rfl] at htakes
  have hspared := h hmode q hq hne hwriter hmesh htakes
  unfold peerIdontwantContains txEffectiveNowUs at hspared ⊢
  rwa [hidontwant, hheartbeat, hdrive, hcount]

/-- The handling of a stored message tells no peer twice. -/
theorem deliverEntry_tells {p t slot nowUs : Nat} {r : Router}
    (hfind : findTopic config r (.ptr (r.mcache.entries slot).topic) = some t)
    (hspares : ForwardSpares config p t (r.mcache.entries slot).messageId
      (r.mcache.entries slot).dataLen r) :
    ∃ ps : List Nat, ps.Nodup ∧
      Tells (r.mcache.entries slot).origin ps r (deliverEntry config p t slot nowUs r).2 := by
  obtain ⟨ps, hps, htold, hreceived⟩ := @enqueueIdontwantForReceivedEntry_tells config
    (r.topics t) slot (r.mcache.entries slot) r
  unfold deliverEntry
  rw [Comp.read_id_bind]
  dsimp only
  rcases hrun : enqueueIdontwantForReceivedEntry config (r.topics t) slot (r.mcache.entries slot) r
    with ⟨e | ⟨⟩, r₁⟩
  · rw [Comp.bind_of_error hrun]
    rw [hrun] at hreceived
    exact ⟨ps, hps, hreceived⟩
  rw [Comp.bind_of_ok hrun, Comp.read_id_bind]
  rw [hrun] at hreceived
  cases hmode : (r.topics t).validationMode with
  | requireApp =>
    have hquiet : ∀ f : Option Nat → RouterM Unit, (∀ o, Touches [.events, .validations] (f o)) →
        Router.Agrees [.events, .validations] r₁
          ((allocValidation config p slot nowUs (r.mcache.entries slot).origin >>= f) r₁).2 :=
      fun f hf => (Comp.Touches.bind ((allocValidation_touches ..).mono (by decide)) hf).agrees r₁
    refine ⟨ps ++ [], by rwa [List.append_nil],
      hreceived.trans (.of_agrees (hquiet _ fun o => ?_) (by decide))⟩
    cases o with
    | none => exact .pure _
    | some v => exact pushEventOrDrop_touches ..
  | acceptAll =>
    dsimp only
    generalize hevent : Event.ofPeer _ _ = event
    rcases hpush : pushEventOrDrop config event r₁ with ⟨e | ⟨⟩, r₂⟩
    · rw [Comp.bind_of_error hpush]
      have hrest := hreceived.trans (.of_agrees ((pushEventOrDrop_touches ..).of_run hpush)
        (by decide))
      rw [List.append_nil] at hrest
      exact ⟨ps, hps, hrest⟩
    rw [Comp.bind_of_ok hpush]
    have hbefore := hreceived.trans (.of_agrees ((pushEventOrDrop_touches ..).of_run hpush)
      (by decide))
    rw [List.append_nil] at hbefore
    obtain ⟨qs, hqs, hto, hforwarded⟩ :=
      @forwardEntry_tells config p (r.mcache.entries slot) r₂
    refine ⟨ps ++ qs, hps.append hqs ?_, hbefore.trans hforwarded⟩
    -- Who was told when the message came is not told again.
    intro q hq hagain
    obtain ⟨hrange, hwriter, hmesh, htakes⟩ := htold q hq
    obtain ⟨-, t', -, hforwards, hleft⟩ := hto q hagain
    have hforwards := (hbefore.forwardsTo ..).mp hforwards
    have hcount : 1 ≤ ps.count q := List.one_le_count_iff.mpr hq
    have hroom := hleft.2.2.2.2
    rw [hbefore.sent] at hroom
    have hlt := List.mem_range.mp hrange
    rcases hspares hmode q hlt hforwards.1 hwriter (hmesh t hfind) htakes with hasked | hspent
    · rw [hforwards.2.2.2] at hasked
      cases hasked
    · omega

end Messages

namespace ToldOnce

variable {config : Config} {r : Router}

theorem acceptMessage {p nowUs : Nat} {message : Message} {messageId : Bytes} (h : ToldOnce r)
    (hspares : ∀ t, findTopic config r message.topic = some t →
      (r.topics t).localSubscribed = true →
      ForwardSpares config p t messageId message.data.bytes.length r) :
    ToldOnce (acceptMessage config p message messageId nowUs r).2 := by
  unfold Gossipsub.acceptMessage
  rw [Comp.read_id_bind]
  cases ht : (findTopic config r message.topic).filter fun t => (r.topics t).localSubscribed with
  | none => exact of_touches (pushEventOrDrop_touches ..) (by decide) r h
  | some t =>
    rw [Option.filter_eq_some_iff] at ht
    obtain ⟨hfind, hlocal⟩ := ht
    refine Comp.after_bind (fun e r' hrun => mcacheStore.of_run h hrun) fun slot r' hrun => ?_
    have hstored := mcacheStore.of_run h hrun
    have hagrees := (mcacheStore_touches ..).of_run hrun
    obtain ⟨hmessages, horigin, -, hholds⟩ := CacheInvariant.mcacheStore_ok hrun
    have htopics : r'.topics = r.topics := hagrees.eq .topics (by decide)
    have hfind' : findTopic config r' (.ptr (r'.mcache.entries slot).topic) = some t := by
      rw [hholds.topic]
      unfold findTopic at hfind ⊢
      rw [htopics]
      split at hfind
      · cases hfind
      · exact hfind
    have hspares' : ForwardSpares config p t (r'.mcache.entries slot).messageId
        (r'.mcache.entries slot).dataLen r' := by
      rw [hholds.messageId, hholds.dataLen]
      exact (hspares t hfind hlocal).of_agrees hagrees (by decide)
    obtain ⟨ps, hps, htells⟩ := @deliverEntry_tells config p t slot nowUs r' hfind' hspares'
    refine hstored.tells htells hps (fun q _ hmem => ?_) ?_
    · -- The number of the message is new.
      have hidontwants : r'.history.idontwants = r.history.idontwants :=
        congrArg Prod.snd (hagrees.eq .unwanted (by decide))
      rw [hidontwants] at hmem
      have hold := h.known _ hmem
      rw [horigin] at hold
      exact absurd hold (lt_irrefl _)
    · rw [horigin, hmessages]
      simp

theorem receiveMessage {p nowUs : Nat} {message : Message} (h : ToldOnce r)
    (hspares : MessageSpares config p nowUs message r) :
    ToldOnce (receiveMessage config p nowUs message r).2 := by
  unfold Gossipsub.receiveMessage processMessage continueAfterLocalLimit
  rw [Comp.absorb_state, Comp.absorb_state]
  split
  · exact h
  cases hid : computeMessageId config message with
  | error e => exact h
  | ok messageId =>
    rw [Comp.bind_of_ok (Comp.ofResult_apply ..), Comp.read_id_bind]
    split
    · exact Comp.Keeps.bind (of_touches (pushEventOrDrop_touches ..) (by decide))
        (fun _ => .fail _) r h
    · rename_i hunseen
      rw [Bool.not_eq_true] at hunseen
      rw [Comp.bind_of_ok (Comp.update_apply ..)]
      have hagrees := seenAdd_agrees config messageId nowUs r
      have htopics : (seenAdd config messageId nowUs r).topics = r.topics :=
        hagrees.eq .topics (by decide)
      apply (h.of_agrees hagrees (by decide)).acceptMessage
      intro t hfind hlocal
      unfold findTopic at hfind
      rw [htopics] at hfind hlocal
      exact (hspares messageId t hid hunseen hfind hlocal).of_agrees hagrees (by decide)

theorem processRpc {p nowUs : Nat} {rpc : Rpc} (h : ToldOnce r)
    (hspares : ∀ r', Comp.forOk (processSubscription config p) rpc.subscriptions r = (.ok (), r') →
      Comp.Visits (Gossipsub.receiveMessage config p nowUs) (MessageSpares config p nowUs)
        rpc.publish r') :
    ToldOnce (processRpc config p rpc nowUs r).2 := by
  by_cases hp : config.capacity.maxPeers ≤ p
  · unfold Gossipsub.processRpc
    rw [if_pos hp]
    exact h
  have hsubs : Comp.Keeps ToldOnce (Comp.forOk (processSubscription config p) rpc.subscriptions) :=
    .forOk fun sub _ => of_touches (processSubscription_touches ..) (by decide)
  have hidontwant : Comp.Keeps ToldOnce
      (Comp.forOk (fun x => processIdontwant config p x nowUs) rpc.control.idontwant) :=
    .forOk fun x _ => of_touches (processIdontwant_touches ..) (by decide)
  have hbefore : ToldOnce (processBeforeGrafts config p rpc nowUs r).2 := by
    refine Comp.after_bind (fun e r' hrun => hsubs.of_run h hrun) fun _ r' hrun => ?_
    have hmessages : ToldOnce (Comp.forOk (fun message =>
        Comp.absorb (fun e => e = .duplicate) (processMessage config p message nowUs))
          rpc.publish r').2 :=
      Comp.forOk_of_visits (fun message s hmessage hs => receiveMessage hs hmessage)
        (hspares r' hrun) (hsubs.of_run h hrun)
    refine Comp.after_bind (fun e r'' hrun' => ?_) fun _ r'' hrun' => hidontwant r'' ?_
    · rwa [hrun'] at hmessages
    · rwa [hrun'] at hmessages
  rw [processRpc_eq config (Nat.not_le.mp hp)]
  refine Comp.after_bind (fun e r' hrun => ?_) fun _ r' hrun => ?_
  · rwa [hrun] at hbefore
  · rw [hrun] at hbefore
    exact of_touches (processFromGrafts_touches ..) (by decide) r' hbefore

/-- A message that is published has a number that was told to nobody. -/
theorem publish (request : Publish) (outLen : Option Nat) (h : ToldOnce r) :
    ToldOnce (publish config request outLen r).2 := by
  unfold Gossipsub.publish
  split
  · exact h
  rcases publishMessageId config request with e | messageId
  · exact h
  rw [Comp.bind_of_ok (Comp.ofResult_apply ..)]
  split
  · exact h
  have htopic : Comp.Keeps ToldOnce (findOrAddTopic config request.topic) :=
    of_touches (findOrAddTopic_touches ..) (by decide)
  refine Comp.after_bind (fun e r₂ hrun => htopic.of_run h hrun) fun o r₂ hrun => ?_
  have h₂ := htopic.of_run h hrun
  cases o with
  | none => exact h₂
  | some t =>
    rw [Comp.bind_of_ok (orFail_some ..)]
    refine Comp.after_bind (fun e r₃ hrun => mcacheStore.of_run h₂ hrun) fun slot r₃ hrun => ?_
    have h₃ := mcacheStore.of_run h₂ hrun
    have hagrees := (mcacheStore_touches ..).of_run hrun
    obtain ⟨hmessages, horigin, -⟩ := CacheInvariant.mcacheStore_ok hrun
    rw [Comp.bind_of_ok (Comp.update_apply ..), Comp.read_id_bind]
    have hseen := seenAdd_agrees config messageId r₃.nextHeartbeatUs r₃
    generalize seenAdd config messageId r₃.nextHeartbeatUs r₃ = r₄ at hseen
    have h₄ := h₃.of_agrees hseen (by decide)
    have hmcache : r₄.mcache = r₃.mcache := hseen.eq .mcache (by decide)
    have hmessages₄ : r₄.history.messages = r₃.history.messages := hseen.eq .messages (by decide)
    obtain ⟨ps, hps, -, htells⟩ := @publishEntry_tells config t (r₄.mcache.entries slot) r₄
    have hpublished : ToldOnce (publishEntry config t (r₄.mcache.entries slot) r₄).2 := by
      refine h₄.tells htells hps (fun q _ hmem => ?_) ?_
      · have hidontwants₃ : r₃.history.idontwants = r₂.history.idontwants :=
          congrArg Prod.snd (hagrees.eq .unwanted (by decide))
        have hidontwants₄ : r₄.history.idontwants = r₃.history.idontwants :=
          congrArg Prod.snd (hseen.eq .unwanted (by decide))
        rw [hidontwants₄, hidontwants₃] at hmem
        have hold := h₂.known _ hmem
        dsimp only at hold
        rw [hmcache, horigin] at hold
        exact absurd hold (lt_irrefl _)
      · rw [hmcache, horigin, hmessages₄, hmessages]
        simp
    exact Comp.after_bind (fun e r₅ hrun => by rwa [hrun] at hpublished)
      fun _ r₅ hrun => by rwa [hrun] at hpublished

theorem reportValidation {v : Nat} {value : ValidationResult} (h : ToldOnce r)
    (hcache : CacheInvariant config r) (hspares : value = .accept → ReportSpares config r v) :
    ToldOnce (reportValidation config v value r).2 := by
  unfold Gossipsub.reportValidation
  dsimp only
  split
  · exact h
  rename_i hvalid
  simp only [not_or, Bool.not_eq_false, Nat.not_le] at hvalid
  have hrelease (r : Router) (h : ToldOnce r) : ToldOnce (r.releaseValidation (some v)) :=
    h.of_agrees (releaseValidation_agrees r (some v)) (by decide)
  split
  · exact hrelease r h
  rename_i hused
  rw [Bool.not_eq_false] at hused
  split
  · rename_i haccept
    obtain ⟨ps, hps, hto, htells⟩ := @forwardEntry_tells config (r.validations v).peerIndex
      (r.mcache.entries (r.validations v).mcacheIndex) r
    apply hrelease
    refine h.tells htells hps (fun q hq => ?_) ?_
    · obtain ⟨hrange, t, hfind, hforwards, htakes⟩ := hto q hq
      exact hspares haccept hvalid.1 hvalid.2 hused t hfind q (List.mem_range.mp hrange) hforwards
        htakes
    · obtain ⟨m, hm, -⟩ := hcache.holds _ hused
      exact (List.getElem?_eq_some_iff.mp hm).1
  · exact hrelease r h

theorem init : ToldOnce .init := ⟨List.nodup_nil, fun _ hmem => nomatch hmem⟩

theorem step {s : Node} {action : Action} (h : ToldOnce s.router)
    (hcache : CacheInvariant config s.router) (hspares : action.Spares config s) :
    ToldOnce (s.step config action).router := by
  have hagrees := s.step_agrees config action
  cases action with
  | publish request outLen =>
    have hpublish : ToldOnce (Gossipsub.publish config request outLen s.router).2 :=
      h.publish request outLen
    refine Comp.after_bind (Q := ToldOnce) (fun e r' hrun => ?_) fun _ r' hrun => ?_
    · rwa [hrun] at hpublish
    · rwa [hrun] at hpublish
  | report k value =>
    change ToldOnce (Action.comp config s.received (.report k value) s.router).2
    rw [Action.comp]
    cases htoken : reportedToken s.received k with
    | none => exact h
    | some v => exact h.reportValidation hcache fun haccept => hspares haccept v htoken
  | receive i body =>
    change ToldOnce (receive config i body s.router).2
    rcases receive_cases config i body s.router with hsame | ⟨rpc, hopen, hdecode, hrpc⟩
    · rwa [hsame]
    · rw [hrpc]
      exact h.processRpc fun r' hrun => hspares hopen.1 hopen.2 rpc hdecode r' hrun
  | _ => exact h.of_agrees hagrees (by rw [Action.parts]; decide)

end ToldOnce

/-! ## Runs -/

/-- Of each message that was received, each peer was told at most once that it is not wanted. -/
def IdontwantsOnce (r : Router) : Prop :=
  ∀ n m, r.history.messages[n]? = some m → m.source.isSome → ∀ p,
    r.history.idontwants.count ⟨p, n⟩ ≤ 1

/-- When no step tells a peer about a message again, no peer is told twice about a message. -/
theorem idontwants_once (config : RouterConfig) (actions : List Action)
    (hspares : Node.init.Meets config.toConfig (Action.Spares config.toConfig) actions) :
    IdontwantsOnce (Node.init.run config.toConfig actions).router := by
  have hboth : ToldOnce (Node.init.run config.toConfig actions).router ∧
      CacheInvariant config.toConfig (Node.init.run config.toConfig actions).router := by
    apply Lib.run_keeps (I := fun s : Node => ToldOnce s.router ∧
      CacheInvariant config.toConfig s.router) hspares
    · exact ⟨ToldOnce.init, CacheInvariant.init⟩
    · intro s action haction hs
      exact ⟨hs.1.step hs.2 haction, hs.2.step⟩
  intro n m _ _ p
  exact List.nodup_iff_count_le_one.mp hboth.1.nodup ⟨p, n⟩

/-- A router that sends a peer so many IDONTWANTs between heartbeats. -/
def idontwantConfig (budget : Nat) : RouterConfig where
  toConfig := { RouterConfig.small.toConfig with
    maxIdontwantMessagesPerPeerPerHeartbeat := budget }
  valid := RouterConfig.small.valid
  storage_le := RouterConfig.small.storage_le
  pruneBackoffUs_le := RouterConfig.small.pruneBackoffUs_le

/-- A message comes from one peer while another one is in the mesh of its topic. -/
def idontwantRun : List Action :=
  [.subscribe ⟨.ptr [7], .acceptAll, true, 1⟩,
   .streamOpen 1 1 (.ok [1]) .outbound .v12,
   .streamOpen 2 2 (.ok [2]) .outbound .v12,
   .receive 1 [0x1a, 5, 0x1a, 3, 0x0a, 1, 7],
   .drive 1 fun _ => .ok 100,
   .receive 0 [0x12, 6, 0x12, 1, 9, 0x22, 1, 7]]

/-- With one IDONTWANT to send, the mesh peer gets one. -/
theorem idontwants_once_idontwantRun :
    IdontwantsOnce (Node.init.run (idontwantConfig 1).toConfig idontwantRun).router := by
  apply idontwants_once (idontwantConfig 1) idontwantRun
  have hreceive : ∀ (s : Node) (i : Nat) (body : Bytes),
      (Action.receive i body).Spares (idontwantConfig 1).toConfig s := by
    intro s i body _ _ rpc _ r' _
    refine Comp.visits_of_forall (fun message r => ?_) _ _
    intro messageId t _ _ _ _ _ q _ _ _ _ _
    exact .inr (Nat.le_add_left 1 _)
  exact ⟨trivial, trivial, trivial, hreceive _ _ _, trivial, hreceive _ _ _, trivial⟩

set_option maxRecDepth 8000 in
/-- With two, it gets both for the one message. -/
theorem idontwants_not_once : ¬ ∀ (config : RouterConfig) (actions : List Action),
    IdontwantsOnce (Node.init.run config.toConfig actions).router := by
  intro h
  have hcount : (Node.init.run (idontwantConfig 2).toConfig
      idontwantRun).router.history.idontwants = [⟨1, 0⟩, ⟨1, 0⟩] := by
    decide +kernel
  have hsource : ((Node.init.run (idontwantConfig 2).toConfig
      idontwantRun).router.history.messages[0]?.map fun m => m.source.isSome) = some true := by
    decide +kernel
  obtain ⟨m, hm, hsome⟩ := Option.map_eq_some_iff.mp hsource
  have honce := h (idontwantConfig 2) idontwantRun 0 m hm hsome 1
  rw [hcount] at honce
  exact absurd honce (by decide)

end LeanLibp2p.Gossipsub
