import LeanLibp2p.Gossipsub.Router.Queued
import LeanLibp2p.Gossipsub.Router.LocalLimits
import LeanLibp2p.Gossipsub.Router.MeshSafety

/-!
# Well-formed RPCs

What is wrong with an RPC is found by the decoder. What the router then fails to do for one element
is a local limit, after which the next element is handled; only an answer to a peer that has no
writer ends the RPC.
-/

namespace LeanLibp2p.Gossipsub

open LeanLibp2p.Lib

/-! ## Decoded messages -/

theorem fieldLoop_keeps {σ : Type} {body : Nat → Nat → Bytes → σ → Except GossipsubErr (Bytes × σ)}
    {P : σ → Prop}
    (hbody : ∀ field wire rest s rest' s', body field wire rest s = .ok (rest', s') → P s → P s')
    {fuel : Nat} {rest : Bytes} {s s' : σ} (h : fieldLoop body fuel rest s = .ok s') (hs : P s) :
    P s' := by
  induction fuel generalizing rest s with
  | zero =>
    cases h
    exact hs
  | succ fuel ih =>
    unfold fieldLoop at h
    split at h
    · cases h
      exact hs
    · rcases bind_eq_ok.mp h with ⟨⟨key, rest₁⟩, -, h⟩
      rcases bind_eq_ok.mp h with ⟨⟨rest₂, s₁⟩, hrun, h⟩
      exact ih h (hbody _ _ _ _ _ _ hrun hs)

/-- The data is there, or there is none. -/
def Message.Sound (message : Message) : Prop := message.data.isNull = true → message.data.len = 0

/-- A field of a message is skipped, or it sets another field than the data, or it sets the data to a
    span of the input. -/
theorem messageField_sound {limits : Limits} {field wire : Nat} {rest rest' : Bytes}
    {out out' : Message} (h : messageField limits field wire rest out = .ok (rest', out'))
    (hout : out.Sound) : out'.Sound := by
  unfold messageField at h
  split at h
  · rcases bind_eq_ok.mp h with ⟨rest₁, -, hset⟩
    cases hset
    exact hout
  split at h
  · rcases bind_eq_ok.mp h with ⟨⟨span, rest₁⟩, -, hset⟩
    cases hset
    exact hout
  split at h
  · rcases bind_eq_ok.mp h with ⟨⟨span, rest₁⟩, hread, hset⟩
    dsimp only at hset
    split at hset
    · cases hset
    · cases hset
      intro hnull
      dsimp only at hnull
      rw [readLenSpan_ptr hread] at hnull
      cases hnull
  split at h
  · rcases bind_eq_ok.mp h with ⟨⟨span, rest₁⟩, -, hset⟩
    cases hset
    exact hout
  split at h
  · rcases bind_eq_ok.mp h with ⟨⟨span, rest₁⟩, -, hset⟩
    dsimp only at hset
    split at hset
    · cases hset
    · cases hset
      exact hout
  split at h
  · rcases bind_eq_ok.mp h with ⟨⟨span, rest₁⟩, -, hset⟩
    cases hset
    exact hout
  split at h
  · rcases bind_eq_ok.mp h with ⟨⟨span, rest₁⟩, -, hset⟩
    cases hset
    exact hout
  · rcases bind_eq_ok.mp h with ⟨rest₁, -, hset⟩
    cases hset
    exact hout

theorem messageDecode_sound {limits : Limits} {input : Span} {message : Message}
    (h : messageDecode limits input = .ok message) : message.Sound := by
  cases input with
  | null n => cases h
  | ptr bytes =>
    rcases bind_eq_ok.mp h with ⟨out, hloop, hend⟩
    have hout : out.Sound :=
      fieldLoop_keeps (fun _ _ _ _ _ _ => messageField_sound) hloop fun _ => rfl
    split at hend
    · cases hend
    · cases hend
      exact hout

/-- The messages of an RPC that was accepted have their data. -/
theorem rpcBodyDecode_sound {version : ProtocolVersion} {limits : Limits} {storage : DecodeStorage}
    {body : Bytes} {rpc : Rpc} (h : rpcBodyDecode version limits storage body = .ok rpc) :
    ∀ message ∈ rpc.publish, message.Sound := by
  have hfield : ∀ field wire rest (out : Rpc) rest' (out' : Rpc),
      rpcField limits storage field wire rest out = .ok (rest', out') →
      (∀ message ∈ out.publish, message.Sound) → ∀ message ∈ out'.publish, message.Sound := by
    intro field wire rest out rest' out' hrun hout
    rcases bind_eq_ok.mp hrun with ⟨⟨nested, rest₁⟩, -, hrun⟩
    dsimp only at hrun
    split at hrun
    · split at hrun
      · cases hrun
      · rcases bind_eq_ok.mp hrun with ⟨x, -, hset⟩
        cases hset
        exact hout
    split at hrun
    · split at hrun
      · cases hrun
      · rcases bind_eq_ok.mp hrun with ⟨message, hmessage, hset⟩
        cases hset
        intro m hm
        rcases List.mem_append.mp hm with hold | hnew
        · exact hout m hold
        · rw [List.mem_singleton.mp hnew]
          exact messageDecode_sound hmessage
    split at hrun
    · rcases bind_eq_ok.mp hrun with ⟨control, -, hset⟩
      cases hset
      exact hout
    · cases hrun
      exact hout
  rcases bind_eq_ok.mp h with ⟨_, -, h⟩
  rcases bind_eq_ok.mp h with ⟨_, -, h⟩
  split at h
  · cases h
  rcases bind_eq_ok.mp h with ⟨out, hloop, hend⟩
  split at hend
  · cases hend
  · cases hend
    exact fieldLoop_keeps hfield hloop fun _ hmem => nomatch hmem

/-! ## Elements -/

/-- The callbacks of the application do not fail; the one for ids may when its buffer is too
    small. -/
structure CallbacksSucceed (config : Config) : Prop where
  random : ∀ n, ∃ x, config.randomFn n = .ok x
  measure : ∀ message, ∃ n, config.messageIdFn.measure message = .ok n
  write : ∀ message n cap, config.messageIdFn.measure message = .ok n → n ≤ cap →
    ∃ messageId, config.messageIdFn.write message cap = .ok messageId

/-- An id is refused for its length only. -/
theorem computeMessageId_limitOnly (config : RouterConfig)
    (hcallbacks : CallbacksSucceed config.toConfig) (message : Message) :
    LimitOnly (computeMessageId config.toConfig message) := by
  have hmax : config.limits.maxMessageIdBytes ≤ defaultMaxMessageIdBytes := by
    have hlimits := config.limits_valid
    unfold limitsValidate at hlimits
    split at hlimits
    · cases hlimits
    · omega
  rcases hcallbacks.measure message with ⟨n, hn⟩
  unfold computeMessageId
  rw [hn]
  by_cases hrefused : n = 0 ∨ config.limits.maxMessageIdBytes < n
  · have hbind : ∀ {β : Type} (f : Unit → Except GossipsubErr β),
        (throw .limit >>= f) = .error .limit := fun _ => rfl
    simp only [bind, Except.bind, if_pos hrefused]
    exact .limit
  · have hfits : ¬ defaultMaxMessageIdBytes < n := by omega
    rcases hcallbacks.write message n defaultMaxMessageIdBytes hn (Nat.not_lt.mp hfits) with
      ⟨messageId, hwrite⟩
    simp only [bind, Except.bind, if_neg hrefused, if_neg hfits, hwrite]
    exact .ok _

theorem findOrAddTopic_succeeds (config : Config) (topic : Span) (r : Router) :
    Succeeds (findOrAddTopic config topic) r := by
  constructor
  intro e r' hrun
  unfold findOrAddTopic at hrun
  split at hrun
  · cases hrun
  · split at hrun
    · cases hrun
    · split at hrun
      · cases hrun
      · cases hrun

theorem findOrAddPeerTopic_succeeds (config : Config) (p t : Nat) (r : Router) :
    Succeeds (findOrAddPeerTopic config p t) r := by
  constructor
  intro e r' hrun
  unfold findOrAddPeerTopic at hrun
  split at hrun
  · cases hrun
  · split at hrun
    · cases hrun
    · cases hrun

/-- The topic is in use, and the writers speak a version that can be encoded. -/
structure TopicReady (t : Nat) (r : Router) : Prop where
  writers : WritersReady r
  used : (r.topics t).used = true

theorem TopicReady.of_touches {α : Type} {touched : List Part} {c : RouterM α} {t : Nat}
    (hc : Touches touched c) (hdisjoint : ∀ part ∈ [Part.peers, .topics], part ∉ touched) :
    Comp.Keeps (TopicReady t) c := by
  refine hc.keeps fun r r' hagrees h => ⟨h.writers.of_agrees hagrees (hdisjoint _ (by decide)), ?_⟩
  have htopics : r'.topics = r.topics := hagrees.eq .topics (hdisjoint _ (by decide))
  rw [htopics]
  exact h.used

section Elements

variable (config : RouterConfig) (hcallbacks : CallbacksSucceed config.toConfig) {p : Nat}
  (hp : p < config.capacity.maxPeers) {r : Router} (hready : WritersReady r)

include hready

theorem deliverEntry_succeeds (t slot nowUs : Nat)
    (hfound : (findTopic config.toConfig r (.ptr (r.mcache.entries slot).topic)).isSome = true) :
    Succeeds (deliverEntry config.toConfig p t slot nowUs) r := by
  refine .read_bind (.bind (enqueueIdontwantForReceivedEntry_succeeds config hready _ slot hfound)
    fun _ r' hrun => .read_bind ?_)
  have hagrees := (enqueueIdontwantForReceivedEntry_touches config.toConfig (r.topics t) slot
    (r.mcache.entries slot)).of_run hrun
  dsimp only [id]
  cases (r.topics t).validationMode with
  | requireApp =>
    refine .bind ?_ fun o r'' _ => ?_
    · constructor
      intro e r'' hfail
      unfold allocValidation at hfail
      split at hfail
      · cases hfail
      · cases hfail
    · cases o with
      | none => exact .pure _
      | some v => exact pushEventOrDrop_succeeds ..
  | acceptAll =>
    refine .bind (pushEventOrDrop_succeeds ..) fun _ r'' hpush => ?_
    have hagrees' := hagrees.trans (((pushEventOrDrop_touches config.toConfig _).mono
      (by decide)).of_run hpush)
    apply forwardEntry_succeeds config (hready.of_agrees hagrees' (by decide))
    rw [findTopic_congr hagrees' (by decide)]
    exact hfound

theorem acceptMessage_limitsOnly {message : Message} (hsound : message.Sound) (messageId : Bytes)
    (nowUs : Nat) : LimitsOnly (acceptMessage config.toConfig p message messageId nowUs) r := by
  refine .read_bind ?_
  rw [id]
  cases hfind : (findTopic config.toConfig r message.topic).filter
      fun t => (r.topics t).localSubscribed with
  | none => exact (pushEventOrDrop_succeeds ..).mono fun _ h => h.elim
  | some t =>
    have htopic := (Option.filter_eq_some_iff.mp hfind).1
    have hpresent : message.topic.isNull = false := by
      unfold findTopic at htopic
      split at htopic
      · cases htopic
      · rename_i hnull
        exact Bool.eq_false_iff.mpr hnull
    refine .bind ?_ fun slot r' hstore => ?_
    · constructor
      intro e r' hrun
      unfold mcacheStore at hrun
      split at hrun
      · rename_i hmissing
        rcases hmissing with hnull | ⟨hnull, hlen⟩
        · rw [hpresent] at hnull
          cases hnull
        · exact absurd (hsound hnull) hlen
      · split at hrun
        · cases hrun
          rfl
        · cases hrun
    · have hagrees := (mcacheStore_touches ..).of_run hstore
      have hholds := (CacheInvariant.mcacheStore_ok hstore).2.2.2
      refine (deliverEntry_succeeds config (hready.of_agrees hagrees (by decide)) t slot nowUs
        ?_).mono fun _ h => h.elim
      rw [findTopic_congr hagrees (by decide), hholds.topic]
      unfold findTopic at htopic ⊢
      rw [hpresent] at htopic
      exact Option.isSome_iff_exists.mpr ⟨t, htopic⟩

include hcallbacks hp

/-- A message that is not a duplicate is handled to the end. -/
theorem processMessage_succeeds {message : Message} (hsound : message.Sound) (nowUs : Nat) :
    Succeeds (Comp.absorb (fun e => e = .duplicate)
      (processMessage config.toConfig p message nowUs)) r := by
  refine .absorb (.absorb (.ite (fun hle => absurd hp (Nat.not_lt.mpr hle)) fun _ => ?_))
  refine .bind (.ofResult fun e he => ?_) fun messageId r' hrun => .read_bind ?_
  · exact .inl (by simp [(computeMessageId_limitOnly config hcallbacks message).eq e he])
  rcases Prod.mk.inj hrun with ⟨-, rfl⟩
  refine .ite (fun _ => .bind ?_ fun _ _ _ => .fail (.inr (.inl (by simp)))) fun _ => ?_
  · exact (pushEventOrDrop_succeeds ..).mono fun _ h => h.elim
  · refine .bind (.update _) fun _ r' hrun => ?_
    cases hrun
    have hlater := hready.of_agrees (seenAdd_agrees config.toConfig messageId nowUs r) (by decide)
    exact (acceptMessage_limitsOnly config hlater hsound messageId nowUs).mono
      fun e he => .inl (by simp [he])

theorem processSubscription_succeeds (sub : RpcSubscription) :
    Succeeds (processSubscription config.toConfig p sub) r := by
  refine continueAfterLocalLimit_succeeds (.ite (fun hle => absurd hp (Nat.not_lt.mpr hle)) fun _ => ?_)
  refine .bind ((findOrAddTopic_succeeds ..).mono fun _ h => h.elim) fun o r' htopic => ?_
  cases o with
  | none => exact .bind (.fail rfl) fun _ _ hrun => nomatch hrun
  | some t =>
    rcases findOrAddTopic_some htopic with ⟨ht, hused, -⟩
    have hlater : TopicReady t r' :=
      ⟨hready.of_agrees ((findOrAddTopic_touches ..).of_run htopic) (by decide), hused⟩
    refine .bind (.pure t) fun t' r'' hrun => ?_
    cases hrun
    refine .bind_of_keeps hlater ((findOrAddPeerTopic_succeeds ..).mono fun _ h => h.elim)
      (TopicReady.of_touches (findOrAddPeerTopic_touches ..) (by decide)) fun o r' hlater => ?_
    cases o with
    | none => exact .bind (.fail rfl) fun _ _ hrun => nomatch hrun
    | some i =>
      refine .bind_of_keeps hlater (.pure i) (.pure i) fun i' r' hlater => ?_
      refine .bind_of_keeps hlater (.update _) ?_ fun _ r' hlater => .read_bind ?_
      · exact TopicReady.of_touches (.update fun r => setPeerTopic_agrees r i' _) (by decide)
      refine .bind_of_keeps hlater ((pushEventOrDrop_succeeds ..).mono fun _ h => h.elim)
        (TopicReady.of_touches (pushEventOrDrop_touches ..) (by decide)) fun _ r' hlater => ?_
      refine .read_bind (.ite (fun _ => ?_) fun _ => .ite (fun _ => .update _) fun _ => .pure _)
      exact meshFillTopic_limitsOnly config ht hcallbacks.random _ _ hlater.writers hlater.used

omit hcallbacks hready in
theorem processIdontwant_succeeds (idontwant : ControlIdontwant) (nowUs : Nat) :
    Succeeds (processIdontwant config.toConfig p idontwant nowUs) r := by
  refine .ite (fun hle => absurd hp (Nat.not_lt.mpr hle)) fun _ => ?_
  apply Comp.FailsOnly.forOk (I := fun _ => True) trivial
  · exact fun _ _ _ _ => trivial
  · intro messageId _ r _
    refine .bind (.update _) fun _ _ _ => .bind (.update _) fun _ _ _ => .read_bind ?_
    exact pushEventOrDrop_succeeds ..

omit hcallbacks hready in
theorem processPrune_succeeds (nowUs : Nat) (prune : ControlPrune) :
    Succeeds (processPrune config.toConfig p nowUs prune) r := by
  refine continueAfterLocalLimit_succeeds (.read_bind ?_)
  rw [id]
  cases hfind : findTopic config.toConfig r prune.topic with
  | none => exact .pure _
  | some t =>
    have ht : t < config.capacity.maxTopics := by
      unfold findTopic at hfind
      split at hfind
      · cases hfind
      · exact (findSlot_some hfind).1
    exact .bind (.update _) fun _ _ _ => backoffAdd_limitsOnly config ht hp _ _

/-- Nothing that comes before the GRAFTs ends the RPC. -/
theorem processBeforeGrafts_succeeds {rpc : Rpc} (hsound : ∀ message ∈ rpc.publish, message.Sound)
    (nowUs : Nat) : Succeeds (processBeforeGrafts config.toConfig p rpc nowUs) r := by
  have hsubs : Comp.Keeps WritersReady
      (Comp.forOk (processSubscription config.toConfig p) rpc.subscriptions) :=
    .forOk fun sub _ => .of_touches (processSubscription_touches ..) (by decide)
  have hpublish : Comp.Keeps WritersReady (Comp.forOk (fun message =>
      Comp.absorb (fun e => e = .duplicate) (processMessage config.toConfig p message nowUs))
        rpc.publish) :=
    .forOk fun message _ => .absorb (.of_touches (processMessage_touches ..) (by decide))
  refine .bind_of_keeps hready (.forOk hready ?_ ?_) hsubs fun _ r hready => ?_
  · exact fun sub _ => .of_touches (processSubscription_touches ..) (by decide)
  · exact fun sub _ r hr => processSubscription_succeeds config hcallbacks hp hr sub
  refine .bind_of_keeps hready (.forOk hready ?_ ?_) hpublish fun _ r hready => ?_
  · exact fun message _ => .absorb (.of_touches (processMessage_touches ..) (by decide))
  · exact fun message hmem r hr => processMessage_succeeds config hcallbacks hp hr (hsound message hmem) nowUs
  refine .forOk hready ?_ ?_
  · exact fun x _ => .of_touches (processIdontwant_touches ..) (by decide)
  · exact fun x _ r _ => processIdontwant_succeeds config hp x nowUs

end Elements

/-! ## Answers -/

/-- The GRAFT needs no PRUNE in answer: the topic table has no room for its topic, or the peer may
    join. -/
def GraftAbsorbed (config : Config) (p nowUs : Nat) (graft : ControlGraft) (r : Router) : Prop :=
  ∀ t r', findOrAddTopic config graft.topic r = (.ok (some t), r') →
    graftAccepted config r' p t nowUs = true

/-- What is left of the RPC needs no answer: each GRAFT needs none in the state in which the loop
    comes to it, no IWANT is for a cached message, and every IHAVE is about messages seen. -/
structure Absorbed (config : Config) (p : Nat) (rpc : Rpc) (nowUs : Nat) (r : Router) : Prop where
  grafts : Comp.Visits (processGraft config p nowUs) (GraftAbsorbed config p nowUs)
    rpc.control.graft r
  iwants : ∀ iwant ∈ rpc.control.iwant, ∀ messageId ∈ iwant.messageIds,
    mcacheFind config r messageId = none
  ihaves : ∀ ihave ∈ rpc.control.ihave, ∀ messageId ∈ ihave.messageIds,
    seenContains config r messageId nowUs = true

instance (config : Config) (p nowUs : Nat) (graft : ControlGraft) (r : Router) :
    Decidable (GraftAbsorbed config p nowUs graft r) :=
  decidable_of_iff (Comp.Yields (findOrAddTopic config graft.topic) r fun o r' =>
      ∀ t ∈ o, graftAccepted config r' p t nowUs = true)
    ⟨fun h t r' hrun => h _ r' hrun t rfl, fun h o r' hrun t ht => h t r' (hrun.trans (by rw [ht]))⟩

instance (config : Config) (p : Nat) (rpc : Rpc) (nowUs : Nat) (r : Router) :
    Decidable (Absorbed config p rpc nowUs r) :=
  decidable_of_iff (_ ∧ _ ∧ _) ⟨fun h => ⟨h.1, h.2.1, h.2.2⟩, fun h => ⟨h.grafts, h.iwants, h.ihaves⟩⟩

section Answers

variable (config : RouterConfig) {p : Nat} (hp : p < config.capacity.maxPeers) {r : Router}

include hp

/-- A GRAFT that is accepted needs no writer. -/
theorem processGraft_succeeds (hready : WritersReady r) (hused : (r.peers p).used = true)
    {graft : ControlGraft} {nowUs : Nat}
    (h : r.isWriter p = true ∨ GraftAbsorbed config.toConfig p nowUs graft r) :
    Succeeds (processGraft config.toConfig p nowUs graft) r := by
  refine continueAfterLocalLimit_succeeds ?_
  refine .bind ((findOrAddTopic_succeeds ..).mono fun _ h => h.elim) fun o r' htopic => ?_
  have hagrees := (findOrAddTopic_touches ..).of_run htopic
  cases o with
  | none => exact .bind (.fail rfl) fun _ _ hrun => nomatch hrun
  | some t =>
    rcases findOrAddTopic_some htopic with ⟨ht, htused, -⟩
    refine .bind (.pure t) fun t' r'' hrun => ?_
    cases hrun
    refine .read_bind (.ite (fun _ => ?_) fun hrefused => ?_)
    · apply meshAdd_limitsOnly config ht hp _ htused
      rw [hagrees.peer (by decide) p Peer.used fun _ => rfl]
      exact hused
    · have hwriter : r'.isWriter p = true := by
        rw [isWriter_congr hagrees (by decide)]
        exact h.resolve_right fun habsorbed => hrefused (habsorbed t r' htopic)
      refine .read_bind (.bind ?_ fun _ _ _ => backoffAdd_limitsOnly config ht hp _ _)
      exact enqueuePrune_limitsOnly config hp (hready.of_agrees hagrees (by decide)) hwriter _

/-- One that is refused does. -/
theorem processGraft_ok_iff (hready : WritersReady r) (hused : (r.peers p).used = true)
    (hwriter : r.isWriter p = false) (graft : ControlGraft) (nowUs : Nat) :
    (∃ r', processGraft config.toConfig p nowUs graft r = (.ok (), r')) ↔
      GraftAbsorbed config.toConfig p nowUs graft r := by
  constructor
  · rintro ⟨r'', hrun⟩ t r' htopic
    have hwriter' : r'.isWriter p = false := by
      rw [isWriter_congr ((findOrAddTopic_touches ..).of_run htopic) (by decide)]
      exact hwriter
    by_contra hrefused
    have hrefuse : refuseGraft config.toConfig p t nowUs r' = (.error .state, r') := by
      unfold refuseGraft enqueuePrune enqueuePruneWithBackoff
      rw [Comp.read_id_bind, Comp.bind_of_error (enqueueRpc_of_not_writer hp hwriter' ..)]
    have hinner : (findOrAddTopic config.toConfig graft.topic >>= fun o =>
        (o |> orFail .limit) >>= fun t => Comp.read id >>= fun r =>
          if graftAccepted config.toConfig r p t nowUs then meshAdd config.toConfig p t
          else refuseGraft config.toConfig p t nowUs) r = (.error .state, r') := by
      have hsome : (orFail .limit (some t) : RouterM Nat) r' = (.ok t, r') := rfl
      rw [Comp.bind_of_ok htopic, Comp.bind_of_ok hsome, Comp.read_id_bind, if_neg hrefused, hrefuse]
    have herror : processGraft config.toConfig p nowUs graft r = (.error .state, r') := by
      unfold processGraft continueAfterLocalLimit Comp.absorb
      rw [hinner]
      rfl
    cases herror.symm.trans hrun
  · intro habsorbed
    rcases (processGraft_succeeds config hp hready hused (.inr habsorbed)).ok with ⟨a, hrun⟩
    exact ⟨_, hrun⟩

theorem processIwantId_succeeds (hready : WritersReady r) (hwriter : r.isWriter p = true)
    (messageId : Span) : Succeeds (processIwantId config.toConfig p messageId) r := by
  refine .read_bind ?_
  rw [id]
  cases mcacheFind config.toConfig r messageId with
  | none => exact .pure _
  | some slot =>
    exact continueAfterLocalLimit_succeeds
      (enqueuePublishEntryWithLifetime_limitsOnly config hp hready hwriter _ _ _)

theorem processIwantId_ok_iff (hwriter : r.isWriter p = false) (messageId : Span) :
    (processIwantId config.toConfig p messageId r).2 = r ∧
      ((∃ r', processIwantId config.toConfig p messageId r = (.ok (), r')) ↔
        mcacheFind config.toConfig r messageId = none) := by
  unfold processIwantId
  rw [Comp.read_id_bind]
  cases hfind : mcacheFind config.toConfig r messageId with
  | none => exact ⟨rfl, fun _ => rfl, fun _ => ⟨r, rfl⟩⟩
  | some slot =>
    have herror : continueAfterLocalLimit
        (enqueuePublishEntry config.toConfig p (r.mcache.entries slot)) r = (.error .state, r) := by
      unfold continueAfterLocalLimit Comp.absorb
      rw [SentInvariant.enqueuePublishEntry_of_not_writer hp hwriter]
      rfl
    dsimp only
    rw [herror]
    exact ⟨rfl, fun ⟨_, hrun⟩ => (nomatch hrun), fun hnone => nomatch hnone⟩

theorem processIhaveId_succeeds (hready : WritersReady r) (hwriter : r.isWriter p = true)
    (messageId : Span) (nowUs : Nat) :
    Succeeds (processIhaveId config.toConfig p nowUs messageId) r :=
  .read_bind (.ite (fun _ => .pure _) fun _ => continueAfterLocalLimit_succeeds
    (enqueueIwant_limitsOnly config hp hready hwriter messageId))

theorem processIhaveId_ok_iff (hwriter : r.isWriter p = false) (messageId : Span) (nowUs : Nat) :
    (processIhaveId config.toConfig p nowUs messageId r).2 = r ∧
      ((∃ r', processIhaveId config.toConfig p nowUs messageId r = (.ok (), r')) ↔
        seenContains config.toConfig r messageId nowUs = true) := by
  unfold processIhaveId
  rw [Comp.read_id_bind]
  by_cases hseen : seenContains config.toConfig r messageId nowUs = true
  · rw [if_pos hseen]
    exact ⟨rfl, fun _ => hseen, fun _ => ⟨r, rfl⟩⟩
  · have herror : continueAfterLocalLimit (enqueueIwant config.toConfig p messageId) r =
        (.error .state, r) := by
      unfold continueAfterLocalLimit Comp.absorb enqueueIwant
      rw [enqueueRpc_of_not_writer hp hwriter]
      rfl
    rw [if_neg hseen, herror]
    exact ⟨rfl, fun ⟨_, hrun⟩ => (nomatch hrun), fun htrue => absurd htrue hseen⟩

end Answers

/-! ## Whole RPCs -/

/-- The GRAFTs of an RPC and what comes after them. -/
def processFromGrafts (config : Config) (p : Nat) (rpc : Rpc) (nowUs : Nat) : RouterM Unit := do
  Comp.forOk (processGraft config p nowUs) rpc.control.graft
  Comp.forOk (processPrune config p nowUs) rpc.control.prune
  Comp.forOk (fun iwant => Comp.forOk (processIwantId config p) iwant.messageIds)
    rpc.control.iwant
  Comp.forOk (fun ihave => Comp.forOk (processIhaveId config p nowUs) ihave.messageIds)
    rpc.control.ihave

theorem processRpc_eq (config : Config) {p : Nat} (hp : p < config.capacity.maxPeers) (rpc : Rpc)
    (nowUs : Nat) : processRpc config p rpc nowUs =
      processBeforeGrafts config p rpc nowUs >>= fun _ => processFromGrafts config p rpc nowUs := by
  unfold processRpc processFromGrafts
  rw [if_neg (Nat.not_le.mpr hp), processRpcElements_eq, Comp.bind_assoc]
  congr 1
  funext _
  rw [Comp.bind_assoc]

theorem processFromGrafts_touches (config : Config) (p : Nat) (rpc : Rpc) (nowUs : Nat) :
    Touches [.topics, .mesh, .tx, .backoff, .queued] (processFromGrafts config p rpc nowUs) := by
  refine .bind (.forOk fun graft => ?_) fun _ => .bind (.forOk fun prune => ?_) fun _ =>
    .bind (.forOk fun iwant => .forOk fun id => ?_) fun _ => .forOk fun ihave => .forOk fun id => ?_
  · exact (processGraft_touches ..).mono (by decide)
  · exact (processPrune_touches ..).mono (by decide)
  · exact (processIwantId_touches ..).mono (by decide)
  · exact (processIhaveId_touches ..).mono (by decide)

/-- The peer is known, and it has a writer or has none. -/
structure Answering (p : Nat) (writer : Bool) (r : Router) : Prop where
  ready : WritersReady r
  used : (r.peers p).used = true
  isWriter : r.isWriter p = writer

theorem Answering.of_touches {α : Type} {touched : List Part} {c : RouterM α} {p : Nat}
    {writer : Bool} (h : Touches touched c) (hpart : Part.peers ∉ touched) :
    Comp.Keeps (Answering p writer) c := by
  intro r hr
  have hagrees := h.agrees r
  refine ⟨hr.ready.of_agrees hagrees hpart, ?_, ?_⟩
  · rw [hagrees.peer hpart p Peer.used fun _ => rfl]
    exact hr.used
  · rw [isWriter_congr hagrees hpart]
    exact hr.isWriter

section Whole

variable (config : RouterConfig) {p : Nat} (hp : p < config.capacity.maxPeers) {r : Router}
  (rpc : Rpc) (nowUs : Nat)

include hp

/-- What a peer with a writer asks for is answered, or is given up for a limit. -/
theorem answers_succeed (hr : Answering p true r) :
    Succeeds (processFromGrafts config.toConfig p rpc nowUs) r := by
  have hgraft : ∀ graft, Comp.Keeps (Answering p true)
      (processGraft config.toConfig p nowUs graft) :=
    fun graft => .of_touches (processGraft_touches ..) (by decide)
  have hprune : ∀ prune, Comp.Keeps (Answering p true)
      (processPrune config.toConfig p nowUs prune) :=
    fun prune => .of_touches (processPrune_touches ..) (by decide)
  have hiwant : ∀ messageId, Comp.Keeps (Answering p true)
      (processIwantId config.toConfig p messageId) :=
    fun messageId => .of_touches (processIwantId_touches ..) (by decide)
  have hihave : ∀ messageId, Comp.Keeps (Answering p true)
      (processIhaveId config.toConfig p nowUs messageId) :=
    fun messageId => .of_touches (processIhaveId_touches ..) (by decide)
  refine .bind_of_keeps hr (.forOk hr (fun x _ => hgraft x) fun x _ r hr => ?_)
    (.forOk fun x _ => hgraft x) fun _ r hr => ?_
  · exact processGraft_succeeds config hp hr.ready hr.used (.inl hr.isWriter)
  refine .bind_of_keeps hr (.forOk hr (fun x _ => hprune x) fun x _ r _ => ?_)
    (.forOk fun x _ => hprune x) fun _ r hr => ?_
  · exact processPrune_succeeds config hp nowUs x
  refine .bind_of_keeps hr (.forOk hr (fun _ _ => .forOk fun x _ => hiwant x) fun iwant _ r hr => ?_)
    (.forOk fun _ _ => .forOk fun x _ => hiwant x) fun _ r hr => ?_
  · refine .forOk hr (fun x _ => hiwant x) fun x _ r hr => ?_
    exact processIwantId_succeeds config hp hr.ready hr.isWriter x
  refine .forOk hr (fun _ _ => .forOk fun x _ => hihave x) fun ihave _ r hr => ?_
  refine .forOk hr (fun x _ => hihave x) fun x _ r hr => ?_
  exact processIhaveId_succeeds config hp hr.ready hr.isWriter x nowUs

/-- Without a writer the IWANTs and IHAVEs change nothing, and must need no answer. -/
theorem processIwants_ok_iff (hwriter : r.isWriter p = false) (iwants : List ControlIwant) :
    (Comp.forOk (fun iwant => Comp.forOk (processIwantId config.toConfig p) iwant.messageIds)
        iwants r).2 = r ∧
      ((∃ r', Comp.forOk (fun iwant =>
          Comp.forOk (processIwantId config.toConfig p) iwant.messageIds) iwants r = (.ok (), r')) ↔
        ∀ iwant ∈ iwants, ∀ messageId ∈ iwant.messageIds,
          mcacheFind config.toConfig r messageId = none) :=
  Comp.forOk_forOk_of_still (processIwantId_ok_iff config hp hwriter) iwants

theorem processIhaves_ok_iff (hwriter : r.isWriter p = false) (ihaves : List ControlIhave) :
    (∃ r', Comp.forOk (fun ihave =>
        Comp.forOk (processIhaveId config.toConfig p nowUs) ihave.messageIds) ihaves r =
          (.ok (), r')) ↔
      ∀ ihave ∈ ihaves, ∀ messageId ∈ ihave.messageIds,
        seenContains config.toConfig r messageId nowUs = true :=
  (Comp.forOk_forOk_of_still
    (fun messageId => processIhaveId_ok_iff config hp hwriter messageId nowUs) ihaves).2

/-- The GRAFTs of a peer without a writer must be accepted. -/
theorem processGrafts_ok_iff (hr : Answering p false r) :
    (∃ r', Comp.forOk (processGraft config.toConfig p nowUs) rpc.control.graft r = (.ok (), r')) ↔
      Comp.Visits (processGraft config.toConfig p nowUs)
        (GraftAbsorbed config.toConfig p nowUs) rpc.control.graft r := by
  rw [Comp.forOk_ok_iff]
  refine Comp.Visits.congr (I := Answering p false) (fun graft => ?_) (fun graft r hr => ?_) hr
  · exact Answering.of_touches (processGraft_touches ..) (by decide)
  · exact processGraft_ok_iff config hp hr.ready hr.used hr.isWriter graft nowUs

/-- What a peer without a writer asks for must need no answer. -/
theorem answers_ok_iff (hr : Answering p false r) :
    (∃ r', processFromGrafts config.toConfig p rpc nowUs r = (.ok (), r')) ↔
      Absorbed config.toConfig p rpc nowUs r := by
  -- Neither GRAFTs nor PRUNEs change the cache, the ids seen or the writer.
  have hsame : ∀ r₁ r₂,
      Comp.forOk (processGraft config.toConfig p nowUs) rpc.control.graft r = (.ok (), r₁) →
      Comp.forOk (processPrune config.toConfig p nowUs) rpc.control.prune r₁ = (.ok (), r₂) →
      r₂.mcache = r.mcache ∧ r₂.seen = r.seen ∧ r₂.isWriter p = false := by
    intro r₁ r₂ hgraft hprune
    have hagrees := (Comp.Touches.forOk fun graft =>
      processGraft_touches config.toConfig p nowUs graft).of_run hgraft
    have hagrees' := (Comp.Touches.forOk fun prune =>
      processPrune_touches config.toConfig p nowUs prune).of_run hprune
    refine ⟨(hagrees'.eq .mcache (by decide)).trans (hagrees.eq .mcache (by decide)),
      (hagrees'.eq .seen (by decide)).trans (hagrees.eq .seen (by decide)), ?_⟩
    rw [isWriter_congr hagrees' (by decide), isWriter_congr hagrees (by decide)]
    exact hr.isWriter
  constructor
  · rintro ⟨r₄, hrun⟩
    rcases Comp.ok_of_bind hrun with ⟨_, r₁, hgraft, hrun⟩
    rcases Comp.ok_of_bind hrun with ⟨_, r₂, hprune, hrun⟩
    rcases Comp.ok_of_bind hrun with ⟨_, r₃, hiwant, hihave⟩
    rcases hsame r₁ r₂ hgraft hprune with ⟨hmcache, hseen, hwriter⟩
    rcases processIwants_ok_iff config hp hwriter rpc.control.iwant with ⟨hstill, hiwants⟩
    rw [hiwant] at hstill
    cases hstill
    refine ⟨(processGrafts_ok_iff config hp rpc nowUs hr).mp ⟨r₁, hgraft⟩, ?_, ?_⟩
    · have hnone := hiwants.mp ⟨_, hiwant⟩
      unfold mcacheFind at hnone ⊢
      rwa [hmcache] at hnone
    · have hall := (processIhaves_ok_iff config hp nowUs hwriter _).mp ⟨r₄, hihave⟩
      unfold seenContains at hall ⊢
      rwa [hseen] at hall
  · intro habsorbed
    rcases (processGrafts_ok_iff config hp rpc nowUs hr).mpr habsorbed.grafts with ⟨r₁, hgraft⟩
    have hprunes : Succeeds (Comp.forOk (processPrune config.toConfig p nowUs) rpc.control.prune) r₁ :=
      .forOk (I := fun _ => True) trivial (fun _ _ _ _ => trivial)
        fun prune _ r _ => processPrune_succeeds config hp nowUs prune
    obtain ⟨r₂, hprune⟩ : ∃ r₂, Comp.forOk (processPrune config.toConfig p nowUs)
        rpc.control.prune r₁ = (.ok (), r₂) := by
      rcases hprunes.ok with ⟨_, hrun⟩
      exact ⟨_, hrun⟩
    rcases hsame r₁ r₂ hgraft hprune with ⟨hmcache, hseen, hwriter⟩
    rcases processIwants_ok_iff config hp hwriter rpc.control.iwant with ⟨hstill, hiwants⟩
    have hnone := habsorbed.iwants
    have hall := habsorbed.ihaves
    unfold mcacheFind at hnone hiwants
    unfold seenContains at hall
    rw [← hmcache] at hnone
    rw [← hseen] at hall
    rcases hiwants.mpr hnone with ⟨r₃, hiwant⟩
    rw [hiwant] at hstill
    cases hstill
    rcases (processIhaves_ok_iff config hp nowUs hwriter rpc.control.ihave).mpr hall with
      ⟨r₄, hihave⟩
    refine ⟨r₄, ?_⟩
    unfold processFromGrafts
    rw [Comp.bind_of_ok hgraft, Comp.bind_of_ok hprune, Comp.bind_of_ok hiwant, hihave]

end Whole

theorem processRpc_succeeds_iff (config : RouterConfig)
    (hcallbacks : CallbacksSucceed config.toConfig) {p : Nat} (hp : p < config.capacity.maxPeers)
    {version : ProtocolVersion} {storage : DecodeStorage} {body : Bytes} {rpc : Rpc}
    (hdecode : rpcBodyDecode version config.limits storage body = .ok rpc) (nowUs : Nat)
    {r : Router} (hready : WritersReady r) (hused : (r.peers p).used = true) :
    (∃ r', processRpc config.toConfig p rpc nowUs r = (.ok (), r')) ↔
      r.isWriter p = true ∨ Absorbed config.toConfig p rpc nowUs
        (processBeforeGrafts config.toConfig p rpc nowUs r).2 := by
  rcases (processBeforeGrafts_succeeds config hcallbacks hp hready (rpcBodyDecode_sound hdecode)
    nowUs).ok with ⟨_, hbefore⟩
  have hafter : Answering p (r.isWriter p) (processBeforeGrafts config.toConfig p rpc nowUs r).2 :=
    Answering.of_touches (processBeforeGrafts_touches ..) (by decide) r ⟨hready, hused, rfl⟩
  rw [processRpc_eq config.toConfig hp, Comp.bind_of_ok hbefore]
  cases hwriter : r.isWriter p with
  | true =>
    rw [hwriter] at hafter
    rcases (answers_succeed config hp rpc nowUs hafter).ok with ⟨_, hrun⟩
    exact ⟨fun _ => .inl rfl, fun _ => ⟨_, hrun⟩⟩
  | false =>
    rw [hwriter] at hafter
    rw [answers_ok_iff config hp rpc nowUs hafter]
    exact ⟨.inr, fun h => h.resolve_left (nomatch ·)⟩

/-- `gossipsub_process_rpc` on an RPC that the decoder accepted succeeds exactly when the peer has a
    writer or what is left after the messages needs no answer. -/
theorem processRpc_ok_iff (config : RouterConfig) (hcallbacks : CallbacksSucceed config.toConfig)
    (actions : List Action) {p : Nat} (hp : p < config.capacity.maxPeers)
    {version : ProtocolVersion} {storage : DecodeStorage} {body : Bytes} {rpc : Rpc}
    (hdecode : rpcBodyDecode version config.limits storage body = .ok rpc) (nowUs : Nat) :
    let r := (Node.init.run config.toConfig actions).router
    (r.peers p).used = true →
    ((∃ r', processRpc config.toConfig p rpc nowUs r = (.ok (), r')) ↔
      r.isWriter p = true ∨ Absorbed config.toConfig p rpc nowUs
        (processBeforeGrafts config.toConfig p rpc nowUs r).2) := by
  intro r hused
  exact processRpc_succeeds_iff config hcallbacks hp hdecode nowUs
    (WritersReady.run config.toConfig actions) hused

theorem small_callbacks : CallbacksSucceed RouterConfig.small.toConfig :=
  ⟨fun n => ⟨_, rfl⟩, fun message => ⟨_, rfl⟩, fun message n cap _ _ => ⟨_, rfl⟩⟩

/-- A peer opens a stream, and none is open to it. -/
def inboundRun : List Action :=
  [.subscribe ⟨.ptr [7], .acceptAll, false, 0⟩,
   .streamOpen 1 1 (.ok [1]) .inbound .v11]

/-- It asks for a message that is not in the cache. -/
theorem processRpc_ok_iff_inboundRun : ∃ r', processRpc RouterConfig.small.toConfig 0
    (.ofControl { RpcControl.zero with iwant := [⟨[.ptr [7, 9]]⟩] }) 0
    (Node.init.run RouterConfig.small.toConfig inboundRun).router = (.ok (), r') := by
  have hdecode : rpcBodyDecode .v11 RouterConfig.small.limits decodeStorage
      [0x1a, 6, 0x12, 4, 0x0a, 2, 7, 9] =
        .ok (.ofControl { RpcControl.zero with iwant := [⟨[.ptr [7, 9]]⟩] }) := by decide
  refine (processRpc_ok_iff RouterConfig.small small_callbacks inboundRun (by decide) hdecode 0
    (by decide +kernel)).mpr (.inr ⟨trivial, ?_, fun _ hihave => nomatch hihave⟩)
  intro iwant hiwant messageId hmem
  rw [List.mem_singleton.mp hiwant] at hmem
  rw [List.mem_singleton.mp hmem]
  decide +kernel

/-- It tells of a message that was not seen. -/
theorem processRpc_fails : ¬ ∀ (config : RouterConfig), CallbacksSucceed config.toConfig →
    ∀ (actions : List Action) (p : Nat), p < config.capacity.maxPeers →
    ∀ (version : ProtocolVersion) (storage : DecodeStorage) (body : Bytes) (rpc : Rpc),
    rpcBodyDecode version config.limits storage body = .ok rpc → ∀ nowUs,
    let r := (Node.init.run config.toConfig actions).router
    (r.peers p).used = true → ∃ r', processRpc config.toConfig p rpc nowUs r = (.ok (), r') := by
  intro h
  have hdecode : rpcBodyDecode .v11 RouterConfig.small.limits decodeStorage
      [0x1a, 9, 0x0a, 7, 0x0a, 1, 7, 0x12, 2, 7, 9] =
        .ok (.ofControl { RpcControl.zero with ihave := [⟨.ptr [7], [.ptr [7, 9]]⟩] }) := by decide
  rcases h RouterConfig.small small_callbacks inboundRun 0 (by decide) .v11 decodeStorage _ _ hdecode 0
    (by decide +kernel) with ⟨r', hrun⟩
  have herror : (processRpc RouterConfig.small.toConfig 0
      (.ofControl { RpcControl.zero with ihave := [⟨.ptr [7], [.ptr [7, 9]]⟩] }) 0
      (Node.init.run RouterConfig.small.toConfig inboundRun).router).1 = .error .state := by
    decide +kernel
  rw [hrun] at herror
  cases herror

end LeanLibp2p.Gossipsub
