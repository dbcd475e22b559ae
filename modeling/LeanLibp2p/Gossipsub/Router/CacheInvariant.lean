import LeanLibp2p.Gossipsub.Router.Run

/-!
# What the message cache holds

Each used slot of the cache holds a message of the history: its id, its topic, and in the region of
the slot its data, until the slot is filled again, the cache is wiped or the entry gets too old. The
data of a new entry goes behind all data in use, so it does not run over that of another.
-/

namespace LeanLibp2p.Gossipsub

open LeanLibp2p.Lib

/-- The entry holds the message. -/
structure McacheEntry.Holds (entry : McacheEntry) (mcache : Mcache) (m : StoredMessage) : Prop where
  messageId : entry.messageId = m.messageId
  topic : entry.topic = m.topic
  content : mcache.content entry = m.data
  dataLen : entry.dataLen = m.data.length

/-- The message has the sizes that the cache takes. -/
structure StoredMessage.Fits (config : Config) (m : StoredMessage) : Prop where
  messageId_pos : 0 < m.messageId.length
  messageId_le : m.messageId.length ≤ config.limits.maxMessageIdBytes
  topic_pos : 0 < m.topic.length
  topic_le : m.topic.length ≤ config.limits.maxTopicBytes
  data_le : m.data.length ≤ config.capacity.mcacheBytes

/-- A message that was received has the id that the callback computes for it. -/
def StoredMessage.Identified (config : Config) (m : StoredMessage) : Prop :=
  ∀ p message, m.source = some (p, message) →
    computeMessageId config message = .ok m.messageId ∧ m.topic = message.topic.bytes ∧
      m.data = message.data.bytes

/-- The invariant of the message cache. -/
structure CacheInvariant (config : Config) (r : Router) : Prop where
  dataUsed_le : r.mcache.dataUsed ≤ config.capacity.mcacheBytes
  region : ∀ i, (r.mcache.entries i).used = true →
    (r.mcache.entries i).dataOffset + (r.mcache.entries i).dataLen ≤ r.mcache.dataUsed
  holds : ∀ i, (r.mcache.entries i).used = true →
    ∃ m, r.history.messages[(r.mcache.entries i).origin]? = some m ∧
      (r.mcache.entries i).Holds r.mcache m
  messages : ∀ m ∈ r.history.messages, m.Fits config ∧ m.Identified config

/-! ## Steps -/

section Steps

variable {config : Config} {I : Router → Prop}
  (hkept : ∀ {r r' : Router}, r'.mcache = r.mcache →
    r'.history.messages = r.history.messages → I r → I r')
  (hstore : ∀ {source : Option (Nat × Message)} {gated : Bool} {messageId : Bytes} {topic data : Span},
    (∀ p message, source = some (p, message) →
      computeMessageId config message = .ok messageId ∧ topic = message.topic ∧
        data = message.data) →
    Comp.Keeps I (mcacheStore config source gated messageId topic data))
  (hexpire : ∀ nowUs {r : Router}, I r → I (expireTables config nowUs r))

include hkept

theorem cache_of_agrees {touched : List Part} {r r' : Router} (hagrees : Router.Agrees touched r r')
    (hdisjoint : ∀ part ∈ [Part.mcache, .messages], part ∉ touched) (h : I r) : I r' :=
  hkept (hagrees.eq .mcache (hdisjoint _ (by decide)))
    (hagrees.eq .messages (hdisjoint _ (by decide))) h

theorem cache_of_touches {α : Type} {touched : List Part} {c : RouterM α} (hc : Touches touched c)
    (hdisjoint : ∀ part ∈ [Part.mcache, .messages], part ∉ touched) : Comp.Keeps I c :=
  hc.keeps fun _ _ hagrees h => cache_of_agrees hkept hagrees hdisjoint h

include hstore

theorem cache_processMessage (p : Nat) (message : Message) (nowUs : Nat) :
    Comp.Keeps I (processMessage config p message nowUs) := by
  refine .absorb (.ite (fun _ => .fail _) fun _ => .ofResult_bind fun messageId hid => ?_)
  refine .bind (.read _) fun r => .ite (fun _ => .bind ?_ fun _ => .fail _) fun _ => .bind ?_ fun _ => ?_
  · exact cache_of_touches hkept (pushEventOrDrop_touches ..) (by decide)
  · exact .update fun r h => cache_of_agrees hkept (seenAdd_agrees ..) (by decide) h
  · refine .bind (.read _) fun r => ?_
    split
    · exact cache_of_touches hkept (pushEventOrDrop_touches ..) (by decide)
    · refine .bind (hstore fun q m hsome => ?_) fun slot => ?_
      · cases hsome
        exact ⟨hid, rfl, rfl⟩
      · exact cache_of_touches hkept (deliverEntry_touches ..) (by decide)

theorem cache_processRpc (p : Nat) (rpc : Rpc) (nowUs : Nat) :
    Comp.Keeps I (processRpc config p rpc nowUs) := by
  refine .ite (fun _ => .fail _) fun _ => .bind ?_ fun _ => .bind ?_ fun _ => ?_
  · refine .bind (.forOk fun sub _ => ?_) fun _ => .bind (.forOk fun message _ => ?_) fun _ =>
      .bind (.forOk fun x _ => ?_) fun _ => .bind (.forOk fun graft _ => ?_) fun _ =>
        .forOk fun prune _ => ?_
    · exact cache_of_touches hkept (processSubscription_touches ..) (by decide)
    · exact .absorb (cache_processMessage hkept hstore p message nowUs)
    · exact cache_of_touches hkept (processIdontwant_touches ..) (by decide)
    · exact cache_of_touches hkept (processGraft_touches ..) (by decide)
    · exact cache_of_touches hkept (processPrune_touches ..) (by decide)
  · exact .forOk fun _ _ => .forOk fun _ _ =>
      cache_of_touches hkept (processIwantId_touches ..) (by decide)
  · exact .forOk fun _ _ => .forOk fun _ _ =>
      cache_of_touches hkept (processIhaveId_touches ..) (by decide)

theorem cache_publish (request : Publish) (outLen : Option Nat) :
    Comp.Keeps I (publish config request outLen) := by
  refine .ite (fun _ => .fail _) fun _ => .bind (.ofResult _) fun messageId => ?_
  refine .ite (fun _ => .fail _) fun _ => .bind ?_ fun o => ?_
  · exact cache_of_touches hkept (findOrAddTopic_touches ..) (by decide)
  refine .bind (cache_of_touches hkept (orFail_touches [] ..) (by decide)) fun t => ?_
  refine .bind (hstore fun p m hsome => ?_) fun slot => ?_
  · cases hsome
  refine .bind (.update fun r h => cache_of_agrees hkept (seenAdd_agrees ..) (by decide) h) fun _ => ?_
  refine .bind (.read _) fun r => .bind ?_ fun _ => .pure _
  exact cache_of_touches hkept (publishEntry_touches ..) (by decide)

omit hstore in
include hexpire in
theorem cache_heartbeat (nowUs : Nat) {r : Router} (h : I r) : I (heartbeat config nowUs r) := by
  apply hexpire
  apply cache_of_agrees hkept ((emitGossip_touches config).agrees _) (by decide)
  exact cache_of_agrees hkept (heartbeatMesh_agrees config nowUs r) (by decide) h

include hexpire in
/-- What storing and expiring keep of the cache and the stored messages, every step keeps. -/
theorem cache_step {s : Node} {action : Action} (h : I s.router) :
    I (s.step config action).router := by
  have hagrees := s.step_agrees config action
  cases action with
  | drive nowUs answers =>
    refine (Comp.Keeps.bind (.update fun r h => cache_of_agrees hkept (setTime_agrees _ nowUs r)
      (by decide) h) fun _ => ?_ : Comp.Keeps I (drive config nowUs answers)) _ h
    refine .bind (.update fun r h => ?_) fun _ =>
      cache_of_touches hkept (flushReady_touches ..) (by decide)
    split
    · exact cache_heartbeat hkept hexpire nowUs h
    · exact h
  | publish request outLen =>
    exact Comp.Keeps.bind (cache_publish hkept hstore request outLen) (fun _ => .pure _) _ h
  | receive i body =>
    change I (receive config i body s.router).2
    rcases receive_cases config i body s.router with hsame | ⟨rpc, -, -, hrpc⟩
    · rwa [hsame]
    · rw [hrpc]
      exact cache_processRpc hkept hstore _ rpc _ _ h
  | _ => exact cache_of_agrees hkept hagrees (by rw [Action.parts]; decide) h

end Steps

/-! ## The invariant -/

namespace CacheInvariant

variable {config : Config} {r r' : Router}

theorem init : CacheInvariant config .init where
  dataUsed_le := Nat.zero_le _
  region := fun _ hused => nomatch hused
  holds := fun _ hused => nomatch hused
  messages := fun _ hmem => nomatch hmem

/-- The invariant is about the cache and the stored messages. -/
theorem of_same (hmcache : r'.mcache = r.mcache)
    (hmessages : r'.history.messages = r.history.messages) (h : CacheInvariant config r) :
    CacheInvariant config r' := by
  refine ⟨?_, ?_, ?_, ?_⟩
  · rw [hmcache]; exact h.dataUsed_le
  · rw [hmcache]; exact h.region
  · rw [hmcache, hmessages]; exact h.holds
  · rw [hmessages]; exact h.messages

theorem of_agrees {touched : List Part} (h : CacheInvariant config r)
    (hagrees : Router.Agrees touched r r')
    (hdisjoint : ∀ part ∈ [Part.mcache, .messages], part ∉ touched) : CacheInvariant config r' :=
  cache_of_agrees of_same hagrees hdisjoint h

/-- Wiping the cache makes room for any message that fits. -/
theorem makeRoom (h : CacheInvariant config r) {n : Nat} (hn : n ≤ config.capacity.mcacheBytes) :
    CacheInvariant config { r with mcache := r.mcache.makeRoom config n } ∧
      (r.mcache.makeRoom config n).dataUsed + n ≤ config.capacity.mcacheBytes := by
  have hle := h.dataUsed_le
  unfold Mcache.makeRoom
  split
  · constructor
    · exact
        { dataUsed_le := Nat.zero_le _
          region := fun _ hused => nomatch hused
          holds := fun _ hused => nomatch hused
          messages := h.messages }
    · simpa using hn
  · constructor
    · exact ⟨h.dataUsed_le, h.region, h.holds, h.messages⟩
    · omega

/-- Filling a slot behind the data in use leaves the other entries as they are. -/
theorem insert (h : CacheInvariant config r) {m : StoredMessage} (hfits : m.Fits config)
    (hid : m.Identified config)
    (hroom : r.mcache.dataUsed + m.data.length ≤ config.capacity.mcacheBytes) :
    CacheInvariant config { r with
      mcache := r.mcache.insert config m.messageId m.topic m.data r.history.messages.length
      history := { r.history with messages := r.history.messages ++ [m] } } := by
  refine ⟨hroom, ?_, ?_, ?_⟩
  · intro i hused
    by_cases hi : i = r.mcache.next % config.capacity.mcacheSlots
    · subst hi
      simp [Mcache.insert]
    · simp only [Mcache.insert, Function.update_of_ne hi] at hused ⊢
      have hregion := h.region i hused
      omega
  · intro i hused
    by_cases hi : i = r.mcache.next % config.capacity.mcacheSlots
    · subst hi
      refine ⟨m, by simp [Mcache.insert], ?_⟩
      simp only [Mcache.insert, Function.update_self]
      exact ⟨rfl, rfl, Memory.slice_store .., rfl⟩
    · simp only [Mcache.insert, Function.update_of_ne hi] at hused ⊢
      rcases h.holds i hused with ⟨m', hm', hholds⟩
      refine ⟨m', ?_, hholds.messageId, hholds.topic, ?_, hholds.dataLen⟩
      · exact (List.getElem?_append_left (List.getElem?_eq_some_iff.mp hm').1).trans hm'
      · rw [← hholds.content]
        exact Memory.slice_store_of_disjoint _ (.inl (h.region i hused))
  · intro m' hm'
    rcases List.mem_append.mp hm' with hold | hnew
    · exact h.messages m' hold
    · rw [List.mem_singleton.mp hnew]
      exact ⟨hfits, hid⟩

/-- `gossipsub_mcache_store`, for a message that was published or has its computed id. -/
theorem mcacheStore {source : Option (Nat × Message)} {gated : Bool} {messageId : Bytes}
    {topic data : Span}
    (hsource : ∀ p message, source = some (p, message) →
      computeMessageId config message = .ok messageId ∧ topic = message.topic ∧
        data = message.data) :
    Comp.Keeps (CacheInvariant config)
      (mcacheStore config source gated messageId topic data) := by
  intro r h
  unfold Gossipsub.mcacheStore
  split
  · exact h
  · rename_i hpresent
    split
    · exact h
    · rename_i hsizes
      simp only [not_or, Nat.not_lt] at hsizes
      rcases hsizes with ⟨hid, hidLe, htopic, htopicLe, hdata⟩
      have htopicLen : topic.bytes.length = topic.len :=
        Span.length_bytes fun hnull => absurd (.inl hnull) hpresent
      have hdataLen : data.bytes.length = data.len :=
        Span.length_bytes fun hnull => not_not.mp fun hlen => hpresent (.inr ⟨hnull, hlen⟩)
      rcases h.makeRoom hdata with ⟨hroom, hle⟩
      refine hroom.insert (m := ⟨source, gated, messageId, topic.bytes, data.bytes⟩) ?_ ?_ ?_
      · exact
          { messageId_pos := Nat.pos_of_ne_zero hid
            messageId_le := hidLe
            topic_pos := htopicLen ▸ Nat.pos_of_ne_zero htopic
            topic_le := htopicLen ▸ htopicLe
            data_le := hdataLen ▸ hdata }
      · intro p message hsome
        rcases hsource p message hsome with ⟨hcompute, rfl, rfl⟩
        exact ⟨hcompute, rfl, rfl⟩
      · change (r.mcache.makeRoom config data.len).dataUsed + data.bytes.length ≤ _
        rw [hdataLen]
        exact hle

/-- The slot that `gossipsub_mcache_store` returns holds the message that was stored. -/
theorem mcacheStore_ok {source : Option (Nat × Message)} {gated : Bool} {messageId : Bytes}
    {topic data : Span} {slot : Nat}
    (h : Gossipsub.mcacheStore config source gated messageId topic data r = (.ok slot, r')) :
    r'.history.messages =
        r.history.messages ++ [⟨source, gated, messageId, topic.bytes, data.bytes⟩] ∧
      (r'.mcache.entries slot).origin = r.history.messages.length ∧
      (r'.mcache.entries slot).used = true ∧
      (r'.mcache.entries slot).Holds r'.mcache
        ⟨source, gated, messageId, topic.bytes, data.bytes⟩ := by
  unfold Gossipsub.mcacheStore at h
  split at h
  · cases h
  · split at h
    · cases h
    · cases h
      refine ⟨rfl, ?_, ?_, ?_⟩
      · simp [Mcache.insert]
      · simp [Mcache.insert]
      · simp only [Mcache.insert, Function.update_self]
        exact ⟨rfl, rfl, Memory.slice_store .., rfl⟩

/-- The messages of the history keep their numbers. -/
theorem mcacheStore_messages (config : Config) (source : Option (Nat × Message)) (gated : Bool)
    (messageId : Bytes) (topic data : Span) (r : Router) :
    ∃ added, (Gossipsub.mcacheStore config source gated messageId topic data r).2.history.messages =
      r.history.messages ++ added := by
  unfold Gossipsub.mcacheStore
  split
  · exact ⟨[], (List.append_nil _).symm⟩
  · split
    · exact ⟨[], (List.append_nil _).symm⟩
    · exact ⟨_, rfl⟩

/-- What is left of an entry that ages is as it was. -/
theorem age_used {entry : McacheEntry} (h : (entry.age config).used = true) :
    entry.used = true ∧ (entry.age config).messageId = entry.messageId ∧
      (entry.age config).topic = entry.topic ∧ (entry.age config).dataOffset = entry.dataOffset ∧
      (entry.age config).dataLen = entry.dataLen ∧ (entry.age config).origin = entry.origin := by
  unfold McacheEntry.age at h ⊢
  split
  · rename_i hused
    split
    · rename_i hold
      rw [if_pos hused, if_pos hold] at h
      cases h
    · exact ⟨hused, rfl, rfl, rfl, rfl, rfl⟩
  · rename_i hunused
    rw [if_neg hunused] at h
    exact absurd h hunused

theorem expireTables (h : CacheInvariant config r) (nowUs : Nat) :
    CacheInvariant config (Gossipsub.expireTables config nowUs r) := by
  have hentry : ∀ i, ((Gossipsub.expireTables config nowUs r).mcache.entries i).used = true →
      (r.mcache.entries i).used = true ∧
      ((Gossipsub.expireTables config nowUs r).mcache.entries i).messageId = (r.mcache.entries i).messageId ∧
      ((Gossipsub.expireTables config nowUs r).mcache.entries i).topic = (r.mcache.entries i).topic ∧
      ((Gossipsub.expireTables config nowUs r).mcache.entries i).dataOffset =
        (r.mcache.entries i).dataOffset ∧
      ((Gossipsub.expireTables config nowUs r).mcache.entries i).dataLen = (r.mcache.entries i).dataLen ∧
      ((Gossipsub.expireTables config nowUs r).mcache.entries i).origin = (r.mcache.entries i).origin := by
    intro i hused
    unfold Gossipsub.expireTables at hused ⊢
    dsimp only at hused ⊢
    split
    · rename_i hi
      rw [if_pos hi] at hused
      exact age_used hused
    · rename_i hi
      rw [if_neg hi] at hused
      exact ⟨hused, rfl, rfl, rfl, rfl, rfl⟩
  refine ⟨h.dataUsed_le, ?_, ?_, h.messages⟩
  · intro i hused
    rcases hentry i hused with ⟨hold, -, -, hoffset, hlen, -⟩
    rw [hoffset, hlen]
    exact h.region i hold
  · intro i hused
    rcases hentry i hused with ⟨hold, hid, htopic, hoffset, hlen, horigin⟩
    rcases h.holds i hold with ⟨m, hm, hholds⟩
    refine ⟨m, by rw [horigin]; exact hm, hid.trans hholds.messageId, htopic.trans hholds.topic,
      ?_, hlen.trans hholds.dataLen⟩
    rw [← hholds.content]
    unfold Mcache.content
    rw [hoffset, hlen]
    rfl

/-- One step keeps the invariant. -/
theorem step {s : Node} {action : Action} (h : CacheInvariant config s.router) :
    CacheInvariant config (s.step config action).router :=
  cache_step of_same mcacheStore (fun nowUs _ h => h.expireTables nowUs) h

/-- The cache invariant holds in every reachable state. -/
theorem run (actions : List Action) :
    CacheInvariant config (Node.init.run config actions).router := by
  apply Lib.run_keeps (P := fun _ _ => True) (I := fun s : Node => CacheInvariant config s.router)
  · exact runMeets_of_forall fun _ _ => trivial
  · exact init
  · intro s action _ h
    exact h.step

end CacheInvariant

end LeanLibp2p.Gossipsub
