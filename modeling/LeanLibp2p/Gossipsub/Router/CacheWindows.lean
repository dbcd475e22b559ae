import LeanLibp2p.Gossipsub.Router.CacheContent

/-!
# The windows of the message cache

The window of an entry counts the heartbeats since its message was stored. Gossip is about the entries
of the first `mcache_gossip` windows; an entry is dropped in the heartbeat that finds it in window
`mcache_len`, which is one heartbeat after the last of the `mcache_len` windows.
-/

namespace LeanLibp2p.Gossipsub

open LeanLibp2p.Lib

/-! ## Stores and heartbeats -/

/-- A router, and how many heartbeats ago each of its messages was stored. -/
structure CacheRun where
  router : Router
  ages : List Nat

inductive CacheAction where
  | store (messageId : Bytes) (topic data : Span)
  | heartbeat (nowUs : Nat)
  deriving DecidableEq, Repr

namespace CacheRun

/-- A router with nothing in its cache. -/
def start (r : Router) : CacheRun where
  router := { r with
    mcache := { r.mcache with entries := fun _ => .free, dataUsed := 0 }
    history := { r.history with messages := [] } }
  ages := []

/-- The ages that a store adds. -/
def storedAges : Except GossipsubErr Nat → List Nat
  | .ok _ => [0]
  | .error _ => []

def step (config : Config) (s : CacheRun) : CacheAction → CacheRun
  | .store messageId topic data =>
    { router := (mcacheStore config none false messageId topic data s.router).2
      ages := s.ages ++ storedAges (mcacheStore config none false messageId topic data s.router).1 }
  | .heartbeat nowUs =>
    { router := Gossipsub.heartbeat config nowUs s.router
      ages := s.ages.map (· + 1) }

def run (config : Config) (s : CacheRun) (actions : List CacheAction) : CacheRun :=
  runFrom (step config) s actions

/-- The step neither takes the slot of a message that is held nor wipes the cache for its bytes. -/
def noOverflow (config : Config) (s : CacheRun) : CacheAction → Bool
  | .store messageId topic data =>
    match (mcacheStore config none false messageId topic data s.router).1 with
    | .ok slot => !(s.router.mcache.entries slot).used &&
        decide (data.len ≤ config.capacity.mcacheBytes - s.router.mcache.dataUsed)
    | .error _ => true
  | .heartbeat _ => true

/-- `gossipsub_mcache_find` passes at the entry of message `n`, for its id. -/
def Answers (config : Config) (r : Router) (n : Nat) (messageId : Bytes) : Prop :=
  ∃ i < config.capacity.mcacheSlots, (r.mcache.entries i).origin = n ∧
    ((r.mcache.entries i).used && decide ((r.mcache.entries i).messageId = messageId)) = true

/-- `gossipsub_collect_gossip_ids` passes at the entry of message `n`, for the topic. -/
def Advertises (config : Config) (r : Router) (n : Nat) (topic : Topic) : Prop :=
  ∃ i < config.capacity.mcacheSlots, (r.mcache.entries i).origin = n ∧
    gossips config topic (r.mcache.entries i) = true

instance (config : Config) (r : Router) (n : Nat) (messageId : Bytes) :
    Decidable (Answers config r n messageId) :=
  inferInstanceAs (Decidable (∃ i < config.capacity.mcacheSlots, _))

/-- A message is advertised in the next heartbeat if that is one of the first `mcache_gossip` after its
    store, and answers IWANT if there were less than `mcache_len` heartbeats since. -/
def Windows (config : Config) (s : CacheRun) : Prop :=
  ∀ (n : Nat) m age, s.router.history.messages[n]? = some m → s.ages[n]? = some age →
    (∀ topic : Topic, topic.topic = m.topic →
      (Advertises config s.router n topic ↔ age < config.mesh.mcacheGossip)) ∧
    (Answers config s.router n m.messageId ↔ age < config.mesh.mcacheLen)

/-! ## Invariant -/

/-- The window of each entry is the age of its message, and messages are kept up to the age
    `mcache_len`. -/
structure Aged (config : Config) (s : CacheRun) : Prop where
  content : CacheInvariant config s.router
  length : s.router.history.messages.length = s.ages.length
  inRing : ∀ i, (s.router.mcache.entries i).used = true → i < config.capacity.mcacheSlots
  window : ∀ i, (s.router.mcache.entries i).used = true →
    s.ages[(s.router.mcache.entries i).origin]? = some (s.router.mcache.entries i).window
  window_le : ∀ i, (s.router.mcache.entries i).used = true →
    (s.router.mcache.entries i).window ≤ config.mesh.mcacheLen
  kept : ∀ (n age : Nat), s.ages[n]? = some age → age ≤ config.mesh.mcacheLen →
    ∃ i < config.capacity.mcacheSlots, (s.router.mcache.entries i).used = true ∧
      (s.router.mcache.entries i).origin = n

/-- What acceptance of a configuration says about the cache. -/
theorem configValidate_mcache {config : Config} (h : configValidate config = .ok ()) :
    0 < config.capacity.mcacheSlots ∧ config.mesh.mcacheGossip ≤ config.mesh.mcacheLen := by
  unfold configValidate at h
  cases hlimits : limitsValidate config.limits with
  | error e =>
    rw [hlimits] at h
    cases h
  | ok u =>
    rw [hlimits] at h
    by_contra hbad
    change (if _ then _ else _ : Except GossipsubErr Unit) = .ok () at h
    rw [if_pos (by omega)] at h
    cases h

/-- A store that does not overflow is refused, or fills a free slot and leaves the others. -/
theorem mcacheStore_cases {config : Config} {s : CacheRun} {messageId : Bytes} {topic data : Span}
    (hroom : s.noOverflow config (.store messageId topic data) = true) :
    s.step config (.store messageId topic data) = s ∨
    ∃ r' entry m, s.step config (.store messageId topic data) = ⟨r', s.ages ++ [0]⟩ ∧
      r'.mcache.entries = Function.update s.router.mcache.entries
        (s.router.mcache.next % config.capacity.mcacheSlots) entry ∧
      (s.router.mcache.entries (s.router.mcache.next % config.capacity.mcacheSlots)).used = false ∧
      entry.used = true ∧ entry.window = 0 ∧
      entry.origin = s.router.history.messages.length ∧
      r'.history.messages = s.router.history.messages ++ [m] := by
  have hcases : (∃ e, mcacheStore config none false messageId topic data s.router =
        (.error e, s.router)) ∨
      ∃ r', mcacheStore config none false messageId topic data s.router =
          (.ok ((s.router.mcache.makeRoom config data.len).next % config.capacity.mcacheSlots), r') ∧
        r'.mcache = (s.router.mcache.makeRoom config data.len).insert config messageId topic.bytes
          data.bytes s.router.history.messages.length ∧
        r'.history.messages = s.router.history.messages ++
          [⟨none, false, messageId, topic.bytes, data.bytes⟩] := by
    unfold mcacheStore
    split
    · exact .inl ⟨_, rfl⟩
    · split
      · exact .inl ⟨_, rfl⟩
      · exact .inr ⟨_, rfl, rfl, rfl⟩
  rcases hcases with ⟨e, he⟩ | ⟨r', hok, hmcache, hmessages⟩
  · left
    simp [step, he, storedAges]
  · right
    simp only [noOverflow, hok, Bool.and_eq_true, Bool.not_eq_true', decide_eq_true_eq] at hroom
    obtain ⟨hslot, hbytes⟩ := hroom
    have hsame : s.router.mcache.makeRoom config data.len = s.router.mcache := by
      rw [Mcache.makeRoom, if_neg (Nat.not_lt.mpr hbytes)]
    rw [hsame] at hok hslot hmcache
    refine ⟨r',
      { used := true
        window := 0
        messageId := messageId
        topic := topic.bytes
        dataOffset := s.router.mcache.dataUsed
        dataLen := data.bytes.length
        origin := s.router.history.messages.length }, _, ?_, ?_, hslot, ?_, ?_, ?_, hmessages⟩
    · simp only [step, hok, storedAges]
    · rw [hmcache]
      rfl
    · rfl
    · rfl
    · rfl

/-- What a heartbeat does to the cache. -/
theorem heartbeat_mcache (config : Config) (nowUs : Nat) (r : Router) :
    (Gossipsub.heartbeat config nowUs r).mcache.entries =
        (fun i => if i < config.capacity.mcacheSlots then (r.mcache.entries i).age config
          else r.mcache.entries i) ∧
      (Gossipsub.heartbeat config nowUs r).history.messages = r.history.messages := by
  have hgossip := (emitGossip_touches config).agrees (heartbeatMesh config nowUs r)
  have hmesh := heartbeatMesh_agrees config nowUs r
  have hmcache : (emitGossip config (heartbeatMesh config nowUs r)).2.mcache = r.mcache :=
    (hgossip.eq .mcache (by decide)).trans (hmesh.eq .mcache (by decide))
  have hmessages : (emitGossip config (heartbeatMesh config nowUs r)).2.history.messages =
      r.history.messages :=
    (hgossip.eq .messages (by decide)).trans (hmesh.eq .messages (by decide))
  constructor
  · simp only [Gossipsub.heartbeat, expireTables, hmcache]
  · simp only [Gossipsub.heartbeat, expireTables, hmessages]

/-- An entry that is left by a heartbeat is one window older. -/
theorem age_window {config : Config} {entry : McacheEntry} (h : (entry.age config).used = true) :
    (entry.age config).window = entry.window + 1 ∧ entry.window < config.mesh.mcacheLen := by
  unfold McacheEntry.age at h ⊢
  split at h
  · rename_i hused
    split at h
    · cases h
    · rename_i hyoung
      simp [hused, hyoung]
      omega
  · rename_i hunused
    exact absurd h hunused

/-- An entry that is not yet in window `mcache_len` outlives the heartbeat. -/
theorem age_keeps {config : Config} {entry : McacheEntry} (hused : entry.used = true)
    (hyoung : entry.window < config.mesh.mcacheLen) : (entry.age config).used = true := by
  simp [McacheEntry.age, hused, Nat.not_le.mpr hyoung]

namespace Aged

variable {config : Config} {s : CacheRun}

theorem start (config : Config) (r : Router) : Aged config (start r) where
  content :=
    { dataUsed_le := Nat.zero_le _
      region := fun _ hused => by cases hused
      holds := fun _ hused => by cases hused
      messages := fun _ hmem => by cases hmem }
  length := rfl
  inRing := fun _ hused => by cases hused
  window := fun _ hused => by cases hused
  window_le := fun _ hused => by cases hused
  kept := fun _ _ hage => by cases hage

/-- A store that finds a free slot and room for its bytes leaves the other messages where they are. -/
theorem store (h : Aged config s) (hslots : 0 < config.capacity.mcacheSlots) {messageId : Bytes}
    {topic data : Span} (hroom : s.noOverflow config (.store messageId topic data) = true) :
    Aged config (s.step config (.store messageId topic data)) := by
  have hcontent : CacheInvariant config
      (mcacheStore config none false messageId topic data s.router).2 :=
    CacheInvariant.mcacheStore (fun _ _ hsome => by cases hsome) _ h.content
  rcases mcacheStore_cases hroom with
    hsame | ⟨r', entry, m, hstep, hentries, hfree, hused', hwindow, horigin', hmessages⟩
  · rwa [hsame]
  · have hrouter : (mcacheStore config none false messageId topic data s.router).2 = r' :=
      congrArg CacheRun.router hstep
    rw [hrouter] at hcontent
    rw [hstep]
    have hold : ∀ i, i ≠ s.router.mcache.next % config.capacity.mcacheSlots →
        r'.mcache.entries i = s.router.mcache.entries i := by
      intro i hi
      rw [hentries, Function.update_of_ne hi]
    have hnew : r'.mcache.entries (s.router.mcache.next % config.capacity.mcacheSlots) = entry := by
      rw [hentries, Function.update_self]
    refine ⟨hcontent, ?_, ?_, ?_, ?_, ?_⟩
    · simp [hmessages, h.length]
    · intro i hused
      by_cases hi : i = s.router.mcache.next % config.capacity.mcacheSlots
      · exact hi ▸ Nat.mod_lt _ hslots
      · rw [hold i hi] at hused
        exact h.inRing i hused
    · intro i hused
      by_cases hi : i = s.router.mcache.next % config.capacity.mcacheSlots
      · subst hi
        simp [hnew, hwindow, horigin', h.length]
      · simp only [hold i hi] at hused ⊢
        have hage := h.window i hused
        rwa [List.getElem?_append_left (List.getElem?_eq_some_iff.mp hage).1]
    · intro i hused
      by_cases hi : i = s.router.mcache.next % config.capacity.mcacheSlots
      · subst hi
        simp [hnew, hwindow]
      · simp only [hold i hi] at hused ⊢
        exact h.window_le i hused
    · intro n age hage hyoung
      by_cases hn : n < s.ages.length
      · rw [List.getElem?_append_left hn] at hage
        obtain ⟨i, hi, hused, horigin⟩ := h.kept n age hage hyoung
        have hne : i ≠ s.router.mcache.next % config.capacity.mcacheSlots := by
          rintro rfl
          simp [hfree] at hused
        refine ⟨i, hi, ?_, ?_⟩
        · rwa [hold i hne]
        · rwa [hold i hne]
      · have hlt := (List.getElem?_eq_some_iff.mp hage).1
        simp only [List.length_append, List.length_singleton] at hlt
        have hlast : n = s.ages.length := by omega
        refine ⟨s.router.mcache.next % config.capacity.mcacheSlots, Nat.mod_lt _ hslots, ?_, ?_⟩
        · rwa [hnew]
        · rw [hnew, horigin', h.length, hlast]

/-- What a heartbeat leaves of the cache is one window older, and all messages are. -/
theorem heartbeat (h : Aged config s) (nowUs : Nat) :
    Aged config (s.step config (.heartbeat nowUs)) := by
  obtain ⟨hentries, hmessages⟩ := heartbeat_mcache config nowUs s.router
  have hcontent : CacheInvariant config (Gossipsub.heartbeat config nowUs s.router) :=
    cache_heartbeat (I := CacheInvariant config)
      (fun hmcache hmessages h => h.of_same hmcache hmessages)
      (fun nowUs _ h => h.expireTables nowUs) nowUs h.content
  have hleft : ∀ i, ((Gossipsub.heartbeat config nowUs s.router).mcache.entries i).used = true →
      (s.router.mcache.entries i).used = true ∧
      ((Gossipsub.heartbeat config nowUs s.router).mcache.entries i).origin =
        (s.router.mcache.entries i).origin ∧
      ((Gossipsub.heartbeat config nowUs s.router).mcache.entries i).window =
        (s.router.mcache.entries i).window + 1 ∧
      (s.router.mcache.entries i).window < config.mesh.mcacheLen := by
    intro i hused
    simp only [hentries] at hused ⊢
    split at hused
    · rename_i hi
      obtain ⟨hold, -, -, -, -, horigin⟩ := CacheInvariant.age_used hused
      obtain ⟨hwindow, hyoung⟩ := age_window hused
      rw [if_pos hi]
      exact ⟨hold, horigin, hwindow, hyoung⟩
    · rename_i hi
      exact absurd (h.inRing i hused) hi
  refine ⟨hcontent, ?_, ?_, ?_, ?_, ?_⟩
  · simp [step, hmessages, h.length]
  · intro i hused
    exact h.inRing i (hleft i hused).1
  · intro i hused
    obtain ⟨hold, horigin, hwindow, -⟩ := hleft i hused
    change (s.ages.map (· + 1))[((Gossipsub.heartbeat config nowUs s.router).mcache.entries i).origin]? =
      some ((Gossipsub.heartbeat config nowUs s.router).mcache.entries i).window
    rw [horigin, hwindow, List.getElem?_map, h.window i hold]
    rfl
  · intro i hused
    obtain ⟨-, -, hwindow, hyoung⟩ := hleft i hused
    change ((Gossipsub.heartbeat config nowUs s.router).mcache.entries i).window ≤ _
    omega
  · intro n age hage hyoung
    simp only [step, List.getElem?_map, Option.map_eq_some_iff] at hage
    obtain ⟨age, hage, rfl⟩ := hage
    obtain ⟨i, hi, hused, horigin⟩ := h.kept n age hage (by omega)
    have hwindow : (s.router.mcache.entries i).window = age := by
      have hsome := h.window i hused
      rw [horigin, hage] at hsome
      exact (Option.some.inj hsome).symm
    have haged := age_keeps hused (hwindow ▸ hyoung)
    refine ⟨i, hi, ?_, ?_⟩
    · simpa only [step, hentries, if_pos hi] using haged
    · simp only [step, hentries, if_pos hi]
      rw [(CacheInvariant.age_used haged).2.2.2.2.2]
      exact horigin

/-- A message answers while it is not older than `mcache_len` heartbeats. -/
theorem answers_iff (h : Aged config s) {n age : Nat} {m : StoredMessage}
    (hm : s.router.history.messages[n]? = some m) (hage : s.ages[n]? = some age) :
    Answers config s.router n m.messageId ↔ age ≤ config.mesh.mcacheLen := by
  constructor
  · rintro ⟨i, -, horigin, hfind⟩
    simp only [Bool.and_eq_true, decide_eq_true_eq] at hfind
    have hwindow := h.window i hfind.1
    rw [horigin, hage] at hwindow
    rw [Option.some.inj hwindow]
    exact h.window_le i hfind.1
  · intro hyoung
    obtain ⟨i, hi, hused, horigin⟩ := h.kept n age hage hyoung
    obtain ⟨m', hm', hholds⟩ := h.content.holds i hused
    rw [horigin, hm] at hm'
    cases hm'
    exact ⟨i, hi, horigin, by simp [hused, hholds.messageId]⟩

/-- A message is advertised in the windows of gossip. -/
theorem advertises_iff (h : Aged config s)
    (hgossip : config.mesh.mcacheGossip ≤ config.mesh.mcacheLen) {n age : Nat} {m : StoredMessage}
    (hm : s.router.history.messages[n]? = some m) (hage : s.ages[n]? = some age) {topic : Topic}
    (htopic : topic.topic = m.topic) :
    Advertises config s.router n topic ↔ age < config.mesh.mcacheGossip := by
  constructor
  · rintro ⟨i, -, horigin, hgossips⟩
    simp only [gossips, Bool.and_eq_true, decide_eq_true_eq] at hgossips
    have hwindow := h.window i hgossips.1.1
    rw [horigin, hage] at hwindow
    rw [Option.some.inj hwindow]
    exact hgossips.1.2
  · intro hyoung
    obtain ⟨i, hi, hused, horigin⟩ := h.kept n age hage (by omega)
    obtain ⟨m', hm', hholds⟩ := h.content.holds i hused
    have hwindow := h.window i hused
    rw [horigin, hm] at hm'
    cases hm'
    rw [horigin, hage] at hwindow
    cases hwindow
    exact ⟨i, hi, horigin, by simp [gossips, hused, hyoung, hholds.topic, htopic]⟩

/-- Stores that do not overflow and heartbeats keep the windows the ages. -/
theorem run (hconfig : configValidate config = .ok ()) {r : Router} {actions : List CacheAction}
    (hrun : RunMeets (step config) (fun s action => s.noOverflow config action = true) (.start r)
      actions) :
    Aged config ((CacheRun.start r).run config actions) := by
  apply run_keeps hrun (Aged.start config r)
  intro s action hroom h
  cases action with
  | store messageId topic data => exact h.store (configValidate_mcache hconfig).1 hroom
  | heartbeat nowUs => exact h.heartbeat nowUs

end Aged

/-- The windows are as configured exactly while no stored message has seen `mcache_len` heartbeats: a
    message of that age still answers IWANT, until the next heartbeat. -/
theorem windows_iff {config : Config} (hconfig : configValidate config = .ok ()) (r : Router)
    {actions : List CacheAction}
    (hrun : RunMeets (step config) (fun s action => s.noOverflow config action = true) (.start r)
      actions) :
    Windows config ((start r).run config actions) ↔
      config.mesh.mcacheLen ∉ ((start r).run config actions).ages := by
  have h := Aged.run hconfig hrun
  constructor
  · intro hwindows hmem
    obtain ⟨n, hage⟩ := List.mem_iff_getElem?.mp hmem
    have hlt := (List.getElem?_eq_some_iff.mp hage).1
    rw [← h.length] at hlt
    have hm := List.getElem?_eq_getElem hlt
    have hanswers := (hwindows n _ _ hm hage).2.mp ((h.answers_iff hm hage).mpr le_rfl)
    exact absurd hanswers (lt_irrefl _)
  · intro hmem n m age hm hage
    have hne : age ≠ config.mesh.mcacheLen := by
      rintro rfl
      exact hmem (List.mem_iff_getElem?.mpr ⟨n, hage⟩)
    constructor
    · intro topic htopic
      exact h.advertises_iff (configValidate_mcache hconfig).2 hm hage htopic
    · rw [h.answers_iff hm hage]
      omega

/-- A message after as many heartbeats as there are windows. -/
def sixHeartbeats : List CacheAction :=
  .store [1] (.ptr [97]) (.ptr [7, 8]) :: List.replicate 6 (.heartbeat 0)

/-- Before the sixth heartbeat the windows are as configured. -/
theorem windows_five : Windows RouterConfig.small.toConfig
    ((start .init).run RouterConfig.small.toConfig sixHeartbeats.dropLast) :=
  (@windows_iff _ RouterConfig.small.valid .init sixHeartbeats.dropLast
    (by decide +kernel)).mpr (by decide +kernel)

/-- After the sixth the message still answers. -/
theorem windows_six_not :
    RunMeets (step RouterConfig.small.toConfig)
      (fun s action => s.noOverflow RouterConfig.small.toConfig action = true) (start .init)
      sixHeartbeats ∧
    ¬ Windows RouterConfig.small.toConfig
      ((start .init).run RouterConfig.small.toConfig sixHeartbeats) := by
  refine ⟨by decide +kernel, fun hwindows => ?_⟩
  have hmessages : ((start .init).run RouterConfig.small.toConfig
      sixHeartbeats).router.history.messages[0]? = some ⟨none, false, [1], [97], [7, 8]⟩ := by
    decide +kernel
  have hanswers : Answers RouterConfig.small.toConfig
      ((start .init).run RouterConfig.small.toConfig sixHeartbeats).router 0 [1] := by
    decide +kernel
  have hsix := (hwindows 0 _ 6 hmessages (by decide +kernel)).2.mp hanswers
  exact absurd hsix (by decide)

end CacheRun

end LeanLibp2p.Gossipsub
