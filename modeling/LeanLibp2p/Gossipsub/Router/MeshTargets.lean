import LeanLibp2p.Gossipsub.Router.BackoffTable
import LeanLibp2p.Gossipsub.Router.MeshChanges

/-!
# The mesh heartbeat reaches its target

Topic by topic the heartbeat brings the size of the mesh to its target. Each peer that is let in
gets a GRAFT, each that is put out a PRUNE and a backoff, and nobody else gets anything.
-/

namespace LeanLibp2p.Gossipsub

open LeanLibp2p.Lib

variable (config : Config)

/-! ## One topic -/

/-- The frames that peers get while the mesh of a topic is maintained. -/
def topicFrames (topic : Topic) (added removed : List Nat) (p : Nat)
    (priority : Bool) : List Bytes :=
  gainEach added true (fun _ => frameBytes (graftRpc topic)) p priority ++
    gainEach removed true (fun _ => frameBytes (pruneRpc config topic)) p priority

/-- What the mesh heartbeat does for a topic: which peers it lets in and which it puts out, and how
    large the mesh is in the end. -/
structure TopicMaintained (config : Config) (r r' : Router) (t : Nat) (added removed : List Nat) :
    Prop where
  added_nodup : added.Nodup
  removed_nodup : removed.Nodup
  added_spec : ∀ p ∈ added, p < config.capacity.maxPeers ∧ r.isWriter p = true ∧
    peerSubscribed config r p t = true ∧ meshContains config r p t = false
  removed_spec : ∀ p ∈ removed, meshContains config r p t = true
  contains_iff : ∀ p, meshContains config r' p t = true ↔
    (meshContains config r p t = true ∨ p ∈ added) ∧ p ∉ removed
  untouched : (r.topics t).localSubscribed = false ∨
      config.mesh.dLow ≤ (meshPeers config r t).length ∧
        (meshPeers config r t).length ≤ config.mesh.dHigh → added = [] ∧ removed = []
  fill : (meshPeers config r t).length < config.mesh.dLow → removed = []
  trim : config.mesh.dHigh < (meshPeers config r t).length → added = []
  most : (r.topics t).localSubscribed = true →
    (meshPeers config r' t).length ≤ config.mesh.dHigh
  least : (r.topics t).localSubscribed = true →
    config.mesh.dLow ≤ (meshPeers config r' t).length ∨
      ∀ p < config.capacity.maxPeers, r.isWriter p = true → peerSubscribed config r p t = true →
        backoffActive config r p t r.lastDriveUs = false → meshContains config r' p t = true

/-- A topic with its effects on the rest of the router. -/
structure TopicRound (config : Config) (r r' : Router) (t : Nat) (added removed : List Nat) : Prop
    extends TopicMaintained config r r' t added removed where
  agrees : Router.Agrees [.tx, .grafts, .mesh, .backoff, .random] r r'
  others : ∀ q u, u ≠ t → meshContains config r' q u = meshContains config r q u
  gains : Tx.Gains config r.tx r'.tx (topicFrames config (r.topics t) added removed)
  backoff : r'.backoff = backoffsAdded config r.lastDriveUs (removed.map fun p => (p, t)) r

/-- The invariants that the mesh heartbeat relies on. -/
structure MeshReady (config : Config) (r : Router) : Prop where
  mesh : MeshInvariant config False False r
  transmits : Transmits config r

/-- The part of `gossipsub_mesh_heartbeat` for one topic. -/
def maintainTopic (t : Nat) : RouterM Unit := do
  let r ← Comp.read id
  if (r.topics t).used ∧ (r.topics t).localSubscribed then
    if meshCountTopic config r t < config.mesh.dLow then
      meshFillTopic config t config.mesh.d true
    else if config.mesh.dHigh < meshCountTopic config r t then
      meshTrimTopic config t config.mesh.d true
    else pure ()
  else pure ()

namespace MeshReady

variable {config : RouterConfig} {r r' : Router} {t : Nat}

theorem maintainTopic (t : Nat) :
    Comp.Keeps (MeshReady config.toConfig) (maintainTopic config.toConfig t) := by
  intro r h
  unfold Gossipsub.maintainTopic
  rw [Comp.read_id_bind]
  split
  · rename_i hlocal
    split
    · exact ⟨h.mesh.meshFillTopic hlocal.2 _ true, Transmits.meshFillTopic t _ true r h.transmits⟩
    · split
      · exact ⟨MeshInvariant.meshTrimTopic t _ true r h.mesh,
          Transmits.meshTrimTopic t _ true r h.transmits⟩
      · exact h
  · exact h

/-- A topic that is left alone. -/
theorem idle (hidle : (r.topics t).localSubscribed = false ∨
      config.mesh.dLow ≤ (meshPeers config.toConfig r t).length ∧
        (meshPeers config.toConfig r t).length ≤ config.mesh.dHigh) :
    TopicRound config.toConfig r r t [] [] where
  added_nodup := List.nodup_nil
  removed_nodup := List.nodup_nil
  added_spec := by simp
  removed_spec := by simp
  contains_iff := by simp
  untouched := fun _ => ⟨rfl, rfl⟩
  fill := fun _ => rfl
  trim := fun _ => rfl
  most := by
    intro hlocal
    rcases hidle with hremote | ⟨-, hmost⟩
    · rw [hlocal] at hremote
      cases hremote
    · exact hmost
  least := by
    intro hlocal
    rcases hidle with hremote | ⟨hleast, -⟩
    · rw [hlocal] at hremote
      cases hremote
    · exact .inl hleast
  agrees := .refl r
  others := fun _ _ _ => rfl
  gains := (Tx.Gains.refl _ r.tx).congr fun _ _ _ => by simp [topicFrames, gainEach]
  backoff := rfl

/-- A topic with too few peers. -/
theorem fillRound (h : MeshReady config.toConfig r) (h' : MeshReady config.toConfig r')
    (hlocal : (r.topics t).localSubscribed = true)
    (hlow : meshCountTopic config.toConfig r t < config.mesh.dLow)
    (hd : config.mesh.dLow ≤ config.mesh.d) (hhigh : config.mesh.d ≤ config.mesh.dHigh)
    (hrun : meshFillTopic config.toConfig t config.mesh.d true r = (.ok (), r')) :
    ∃ added removed, TopicRound config.toConfig r r' t added removed := by
  obtain ⟨added, hfills, hle, hend⟩ := h.transmits.meshFillTopic_fills hrun
  have hcount : meshCountTopic config.toConfig r' t =
      added.length + meshCountTopic config.toConfig r t := by
    rw [meshCountTopic_eq, meshCountTopic_eq, (hfills.pairs.filter _).length_eq,
      List.filter_append, filter_pairs_self, List.length_append, List.length_map]
  have hpeers := h.mesh.countTopic t
  have hpeers' := h'.mesh.countTopic t
  have hspec : ∀ p ∈ added, p < config.capacity.maxPeers ∧ r.isWriter p = true ∧
      peerSubscribed config.toConfig r p t = true ∧
      meshContains config.toConfig r p t = false := by
    intro p hp
    obtain ⟨hlt, hcandidate⟩ := hfills.candidate p hp
    unfold fillCandidate at hcandidate
    simp only [Bool.and_eq_true, Bool.not_eq_true'] at hcandidate
    exact ⟨hlt, hcandidate.1.1.1, hcandidate.1.1.2, hcandidate.1.2⟩
  exact ⟨added, [],
    { added_nodup := hfills.nodup
      removed_nodup := List.nodup_nil
      added_spec := hspec
      removed_spec := by simp
      contains_iff := fun p => by rw [hfills.contains_iff]; simp
      untouched := by
        rintro (hremote | ⟨hleast, -⟩)
        · rw [hlocal] at hremote
          cases hremote
        · omega
      fill := fun _ => rfl
      trim := fun hmost => by omega
      most := fun _ => by omega
      least := by
        intro _
        rcases hend with hfull | hnone
        · exact .inl (by omega)
        · refine .inr fun p hp hwriter hsub hfree => ?_
          by_contra hout
          have hclock : r'.lastDriveUs = r.lastDriveUs := hfills.agrees.lastDriveUs (by decide)
          have hcandidate : fillCandidate config.toConfig r' t p = true := by
            unfold fillCandidate
            rw [isWriter_of_agrees hfills.agrees (by decide),
              peerSubscribed_of_agrees hfills.agrees (by decide), hwriter, hsub, hclock,
              backoffActive_congr (hfills.agrees.eq .backoff (by decide)), hfree]
            simpa using hout
          rw [hnone p hp] at hcandidate
          cases hcandidate
      agrees := hfills.agrees.mono (by decide)
      others := fun q u hne => by
        rw [Bool.eq_iff_iff, hfills.contains_iff]
        simp [hne]
      gains := hfills.gains.congr fun q _ kind => by simp [topicFrames, gainEach]
      backoff := hfills.agrees.eq .backoff (by decide) }⟩

/-- A topic with too many peers. -/
theorem trimRound (h : MeshReady config.toConfig r) (h' : MeshReady config.toConfig r')
    (hlocal : (r.topics t).localSubscribed = true)
    (hmany : config.mesh.dHigh < meshCountTopic config.toConfig r t)
    (hd : config.mesh.dLow ≤ config.mesh.d) (hhigh : config.mesh.d ≤ config.mesh.dHigh)
    (hrun : meshTrimTopic config.toConfig t config.mesh.d true r = (.ok (), r')) :
    ∃ added removed, TopicRound config.toConfig r r' t added removed := by
  obtain ⟨removed, htrims, hle, hend⟩ := h.transmits.meshTrimTopic_trims hrun
  have hcount : removed.length + meshCountTopic config.toConfig r' t =
      meshCountTopic config.toConfig r t := by
    rw [meshCountTopic_eq, meshCountTopic_eq, ← (htrims.pairs.filter _).length_eq,
      List.filter_append, filter_pairs_self, List.length_append, List.length_map]
  have hpeers := h.mesh.countTopic t
  have hpeers' := h'.mesh.countTopic t
  have hnodup : ((removed.map fun p => (p, t)) ++ r'.mesh.pairs config.toConfig).Nodup :=
    htrims.pairs.nodup_iff.mpr h.mesh.nodup
  obtain ⟨hmapped, -, hdisjoint⟩ := List.nodup_append.mp hnodup
  have hremoved : removed.Nodup := hmapped.of_map _
  have hcontains : ∀ q u, meshContains config.toConfig r' q u = true ↔
      meshContains config.toConfig r q u = true ∧ ¬ (u = t ∧ q ∈ removed) := by
    intro q u
    rw [meshContains_iff, meshContains_iff, ← htrims.pairs.mem_iff, List.mem_append]
    constructor
    · intro hin
      refine ⟨.inr hin, ?_⟩
      rintro ⟨rfl, hq⟩
      exact hdisjoint _ (List.mem_map_of_mem hq) _ hin rfl
    · rintro ⟨hleft | hin, hnot⟩
      · obtain ⟨p, hp, heq⟩ := List.mem_map.mp hleft
        cases heq
        exact absurd ⟨rfl, hp⟩ hnot
      · exact hin
  -- when no member is left, as many were put out as there were
  have hfull : removed.length = meshCountTopic config.toConfig r t - config.mesh.d := by
    rcases hend with hfull | hnone
    · exact hfull
    · have hempty : meshPeers config.toConfig r' t = [] := by
        unfold meshPeers
        rw [List.filter_eq_nil_iff]
        intro p hp
        rw [hnone p (List.mem_range.mp hp)]
        exact Bool.false_ne_true
      rw [hempty, List.length_nil] at hpeers'
      omega
  exact ⟨[], removed,
    { added_nodup := List.nodup_nil
      removed_nodup := hremoved
      added_spec := by simp
      removed_spec := htrims.member
      contains_iff := fun p => by rw [hcontains]; simp
      untouched := by
        rintro (hremote | ⟨-, hmost⟩)
        · rw [hlocal] at hremote
          cases hremote
        · omega
      fill := fun hleast => by omega
      trim := fun _ => rfl
      most := fun _ => by omega
      least := fun _ => .inl (by omega)
      agrees := htrims.agrees.mono (by decide)
      others := fun q u hne => by
        rw [Bool.eq_iff_iff, hcontains]
        simp [hne]
      gains := (htrims.gains hremoved).congr fun q _ kind => by simp [topicFrames, gainEach]
      backoff := htrims.backoff }⟩

/-- The heartbeat's round for any topic. -/
theorem topicRound (h : MeshReady config.toConfig r)
    (hd : config.mesh.dLow ≤ config.mesh.d) (hhigh : config.mesh.d ≤ config.mesh.dHigh)
    (hrun : Gossipsub.maintainTopic config.toConfig t r = (.ok (), r')) :
    ∃ added removed, TopicRound config.toConfig r r' t added removed := by
  have h' : MeshReady config.toConfig r' := (maintainTopic t).of_run h hrun
  have hpeers := h.mesh.countTopic t
  unfold Gossipsub.maintainTopic at hrun
  rw [Comp.read_id_bind] at hrun
  split at hrun
  · rename_i hlocal
    split at hrun
    · rename_i hlow
      exact h.fillRound h' hlocal.2 hlow hd hhigh hrun
    · split at hrun
      · rename_i hmany
        exact h.trimRound h' hlocal.2 hmany hd hhigh hrun
      · cases hrun
        exact ⟨[], [], idle (.inr (by omega))⟩
  · rename_i hremote
    cases hrun
    refine ⟨[], [], idle (.inl ?_)⟩
    by_contra hlocal
    rw [Bool.not_eq_false] at hlocal
    exact hremote ⟨h.mesh.used t hlocal, hlocal⟩

end MeshReady

/-! ## All topics -/

/-- What a topic is maintained to depends on the meshes of that topic alone. -/
theorem TopicMaintained.congr {config : Config} {r r₁ r' r'' : Router} {t : Nat}
    {added removed : List Nat} (h : TopicMaintained config r₁ r' t added removed)
    (hagrees : Router.Agrees [.tx, .grafts, .mesh, .backoff, .random] r r₁)
    (hbefore : ∀ q, meshContains config r₁ q t = meshContains config r q t)
    (hafter : ∀ q, meshContains config r'' q t = meshContains config r' q t)
    (hbackoff : ∀ q, backoffActive config r q t r.lastDriveUs = false →
      backoffActive config r₁ q t r.lastDriveUs = false) :
    TopicMaintained config r r'' t added removed := by
  have hpeers : meshPeers config r₁ t = meshPeers config r t := by
    unfold meshPeers
    simp only [hbefore]
  have hpeers' : meshPeers config r'' t = meshPeers config r' t := by
    unfold meshPeers
    simp only [hafter]
  have htopics : r₁.topics = r.topics := hagrees.eq .topics (by decide)
  have hclock : r₁.lastDriveUs = r.lastDriveUs := hagrees.lastDriveUs (by decide)
  have hwriter : r₁.isWriter = r.isWriter := isWriter_of_agrees hagrees (by decide)
  have hsub : peerSubscribed config r₁ = peerSubscribed config r :=
    peerSubscribed_of_agrees hagrees (by decide)
  exact
    { added_nodup := h.added_nodup
      removed_nodup := h.removed_nodup
      added_spec := fun p hp => by
        obtain ⟨hlt, hw, hs, hm⟩ := h.added_spec p hp
        exact ⟨hlt, hwriter ▸ hw, hsub ▸ hs, hbefore p ▸ hm⟩
      removed_spec := fun p hp => hbefore p ▸ h.removed_spec p hp
      contains_iff := fun p => by rw [hafter, h.contains_iff, hbefore]
      untouched := by
        have huntouched := h.untouched
        rwa [htopics, hpeers] at huntouched
      fill := by
        have hfill := h.fill
        rwa [hpeers] at hfill
      trim := by
        have htrim := h.trim
        rwa [hpeers] at htrim
      most := by
        have hmost := h.most
        rwa [htopics, ← hpeers'] at hmost
      least := by
        intro hlocal
        rw [hpeers']
        rcases h.least (by rw [htopics]; exact hlocal) with henough | hall
        · exact .inl henough
        · refine .inr fun p hp hw hs hfree => ?_
          rw [hafter]
          apply hall p hp
          · rw [hwriter]; exact hw
          · rw [hsub]; exact hs
          · rw [hclock]; exact hbackoff p hfree }

/-- What the mesh heartbeat does for some topics: each is maintained, each peer gets the frames of
    the changes that concern it, and each peer put out gets a backoff. -/
structure MeshMaintained (config : Config) (r r' : Router) (ts : List Nat)
    (added removed : Nat → List Nat) : Prop where
  topic : ∀ t ∈ ts, TopicMaintained config r r' t (added t) (removed t)
  others : ∀ q, ∀ u ∉ ts, meshContains config r' q u = meshContains config r q u
  gains : Tx.Gains config r.tx r'.tx fun p priority =>
    ts.flatMap fun t => topicFrames config (r.topics t) (added t) (removed t) p priority
  backoff : r'.backoff = backoffsAdded config r.lastDriveUs
    (ts.flatMap fun t => (removed t).map fun p => (p, t)) r

/-- The heartbeat over some topics that succeeds. -/
theorem MeshReady.maintains {config : RouterConfig} {r r' : Router} {ts : List Nat}
    (h : MeshReady config.toConfig r) (hd : config.mesh.dLow ≤ config.mesh.d)
    (hhigh : config.mesh.d ≤ config.mesh.dHigh) (hnodup : ts.Nodup)
    (hrun : Comp.forOk (Gossipsub.maintainTopic config.toConfig) ts r = (.ok (), r')) :
    ∃ added removed, MeshMaintained config.toConfig r r' ts added removed := by
  induction ts generalizing r with
  | nil =>
    cases hrun
    refine ⟨fun _ => [], fun _ => [], by simp, fun _ _ _ => rfl, ?_, rfl⟩
    exact (Tx.Gains.refl _ _).congr fun _ _ _ => by simp
  | cons t ts ih =>
    rw [Comp.forOk_cons] at hrun
    obtain ⟨⟨⟩, r₁, htopic, hrest⟩ := Comp.ok_of_bind hrun
    obtain ⟨hnotin, hnodup⟩ := List.nodup_cons.mp hnodup
    obtain ⟨addedHere, removedHere, hround⟩ := h.topicRound hd hhigh htopic
    obtain ⟨added, removed, hmaintained⟩ := ih ((MeshReady.maintainTopic t).of_run h htopic) hnodup
      hrest
    have htopics : r₁.topics = r.topics := hround.agrees.eq .topics (by decide)
    have hclock : r₁.lastDriveUs = r.lastDriveUs := hround.agrees.lastDriveUs (by decide)
    have hlater : ∀ u ∈ ts, u ≠ t := fun u hu heq => hnotin (heq ▸ hu)
    refine ⟨fun u => if u = t then addedHere else added u,
      fun u => if u = t then removedHere else removed u, ?_, ?_, ?_, ?_⟩
    · intro u hu
      by_cases hut : u = t
      · subst hut
        rw [if_pos rfl, if_pos rfl]
        exact hround.toTopicMaintained.congr (.refl r) (fun _ => rfl)
          (fun q => hmaintained.others q u hnotin) fun _ hfree => hfree
      · rw [if_neg hut, if_neg hut]
        have humem : u ∈ ts := (List.mem_cons.mp hu).resolve_left hut
        exact (hmaintained.topic u humem).congr hround.agrees (fun q => hround.others q u hut)
          (fun _ => rfl) fun q hfree => backoffsAdded_other hut hround.backoff hfree
    · intro q u hu
      rw [List.mem_cons, not_or] at hu
      obtain ⟨hut, hnotmem⟩ := hu
      rw [hmaintained.others q u hnotmem, hround.others q u hut]
    · refine (hround.gains.trans hmaintained.gains).congr fun q _ kind => ?_
      rw [List.flatMap_cons, if_pos rfl, if_pos rfl, htopics]
      congr 1
      apply List.flatMap_congr
      intro u hu
      rw [if_neg (hlater u hu), if_neg (hlater u hu)]
    · have hpairs : (ts.flatMap fun u => (if u = t then removedHere else removed u).map
          fun p => (p, u)) = ts.flatMap fun u => (removed u).map fun p => (p, u) := by
        apply List.flatMap_congr
        intro u hu
        rw [if_neg (hlater u hu)]
      rw [List.flatMap_cons, if_pos rfl, hpairs, hmaintained.backoff, hclock]
      exact backoffsAdded_append _ _ hround.backoff

/-! ## When the heartbeat succeeds -/

section Unblocked

/-- There is an edge for the peer chosen, and its GRAFT can be queued. -/
def graftUnblocked (t p : Nat) (r : Router) : Bool :=
  match findSlot config.capacity.maxMeshEdges fun i => !(r.mesh.edges i).used with
  | none => false
  | some i => (enqueueGraft config p t { r with mesh := r.mesh.insert i p t }).1 = .ok ()

/-- No round of a fill lacks an edge or fails to queue its GRAFT. -/
def fillUnblocked (t : Nat) (salt : UInt64) : Nat → Router → Bool
  | 0, _ => true
  | n + 1, r =>
    match lowestRank config r salt (fillCandidate config r t) with
    | none => true
    | some p => graftUnblocked config t p r &&
        fillUnblocked t salt n (meshFillPeer config t p true r).2

/-- No round of a trim fails to queue its PRUNE. -/
def trimUnblocked (t : Nat) (salt : UInt64) : Nat → Router → Bool
  | 0, _ => true
  | n + 1, r =>
    match lowestRank config r salt fun p => meshContains config r p t with
    | none => true
    | some p => decide ((enqueuePrune config p (r.topics t) r).1 = .ok ()) &&
        trimUnblocked t salt n (meshTrimPeer config t p true r).2

/-- The call of the random callback has an answer, and what comes after is not blocked either. -/
def saltUnblocked (rest : UInt64 → Router → Bool) (r : Router) : Bool :=
  match config.randomFn r.randomCalls with
  | .error _ => false
  | .ok salt => rest salt { r with randomCalls := r.randomCalls + 1 }

/-- Nothing that the heartbeat calls for a topic fails. -/
def topicUnblocked (t : Nat) (r : Router) : Bool :=
  if (r.topics t).used ∧ (r.topics t).localSubscribed then
    if meshCountTopic config r t < config.mesh.dLow then
      saltUnblocked config (fun salt => fillUnblocked config t salt
        (config.mesh.d - meshCountTopic config r t)) r
    else if config.mesh.dHigh < meshCountTopic config r t then
      saltUnblocked config (fun salt => trimUnblocked config t salt
        (meshCountTopic config r t - config.mesh.d)) r
    else true
  else true

/-- The callback answers, edges are free and frames can be queued wherever the heartbeat asks for
    it. -/
def heartbeatUnblocked : List Nat → Router → Bool
  | [], _ => true
  | t :: ts, r => topicUnblocked config t r && heartbeatUnblocked ts (maintainTopic config t r).2

theorem saltUnblocked_run {rest : UInt64 → Router → Bool} {body : UInt64 → RouterM Unit}
    {r : Router} (h : saltUnblocked config rest r = true)
    (hbody : ∀ salt, rest salt { r with randomCalls := r.randomCalls + 1 } = true →
      (body salt { r with randomCalls := r.randomCalls + 1 }).1 = .ok ()) :
    ((randomU64 config >>= body) r).1 = .ok () := by
  unfold saltUnblocked at h
  cases hanswer : config.randomFn r.randomCalls with
  | error e =>
    rw [hanswer] at h
    cases h
  | ok salt =>
    rw [hanswer] at h
    have hcall : randomU64 config r = (.ok salt, { r with randomCalls := r.randomCalls + 1 }) := by
      unfold randomU64
      rw [hanswer]
    rw [Comp.bind_of_ok hcall]
    exact hbody salt h

variable {config : RouterConfig} {r : Router} {t p : Nat}

/-- A backoff for a peer and a topic of the tables is always taken. -/
theorem backoffAdd_ok (hp : p < config.capacity.maxPeers) (ht : t < config.capacity.maxTopics)
    (intervalUs nowUs : Nat) :
    (backoffAdd config.toConfig p t intervalUs nowUs r).1 = .ok () := by
  have hrange : ¬ (config.capacity.maxPeers ≤ p ∨ config.capacity.maxTopics ≤ t) := by omega
  unfold backoffAdd
  rw [if_neg hrange]
  dsimp only
  split
  · split
    · rfl
    · rfl
  · split
    · rfl
    · rename_i hfull
      have hused := findSlot_none.mp hfull 0 config.capacity_pos.2.1
      rcases BackoffRun.backoffEarliest_cases config.toConfig r with ⟨-, hempty⟩ | ⟨i, hi, -⟩
      · simp [hempty 0 config.capacity_pos.2.1] at hused
      · rw [hi]

/-- A round of a fill that is not blocked. -/
theorem meshFillPeer_ok (hp : p < config.capacity.maxPeers) (ht : t < config.capacity.maxTopics)
    (hused : (r.topics t).used = true)
    (hcandidate : fillCandidate config.toConfig r t p = true)
    (h : graftUnblocked config.toConfig t p r = true) :
    (meshFillPeer config.toConfig t p true r).1 = .ok () := by
  unfold fillCandidate Router.isWriter at hcandidate
  simp only [Bool.and_eq_true, Bool.not_eq_true'] at hcandidate
  obtain ⟨⟨⟨⟨hpeer, -⟩, -⟩, hnot⟩, -⟩ := hcandidate
  unfold graftUnblocked at h
  cases hfree : findSlot config.capacity.maxMeshEdges fun i => !(r.mesh.edges i).used with
  | none =>
    rw [hfree] at h
    cases h
  | some i =>
    rw [hfree] at h
    have hadd : meshAdd config.toConfig p t r = (.ok (), { r with mesh := r.mesh.insert i p t }) := by
      unfold meshAdd
      rw [if_neg (by omega), if_neg (by simp [hpeer, hused]), if_neg (by simp [hnot]), hfree]
    unfold meshFillPeer
    rw [Comp.bind_of_ok hadd, if_pos rfl,
      Comp.bind_of_ok (Comp.result_of_run (Prod.ext (of_decide_eq_true h) rfl))]
    rfl

theorem meshFillLoop_ok (ht : t < config.capacity.maxTopics) (hused : (r.topics t).used = true)
    {salt : UInt64} (n : Nat) (h : fillUnblocked config.toConfig t salt n r = true) :
    (meshFillLoop config.toConfig t salt true n r).1 = .ok () := by
  induction n generalizing r with
  | zero => rfl
  | succ n ih =>
    rw [meshFillLoop, Comp.read_id_bind]
    rw [fillUnblocked] at h
    cases hlowest : lowestRank config.toConfig r salt (fillCandidate config.toConfig r t) with
    | none => rfl
    | some p =>
      rw [hlowest] at h
      obtain ⟨hround, hrest⟩ := Bool.and_eq_true_iff.mp h
      obtain ⟨hp, hcandidate⟩ := lowestRank_some hlowest
      have hok := meshFillPeer_ok hp ht hused hcandidate hround
      have htopics : (meshFillPeer config.toConfig t p true r).2.topics = r.topics :=
        ((@meshFillPeer_touches config.toConfig t p true).agrees r).eq .topics (by decide)
      have hrun : meshFillPeer config.toConfig t p true r =
          (.ok (), (meshFillPeer config.toConfig t p true r).2) := Prod.ext hok rfl
      dsimp only
      rw [Comp.bind_of_ok hrun]
      exact ih (by rw [htopics]; exact hused) hrest

/-- A round of a trim that is not blocked. -/
theorem meshTrimPeer_ok (hp : p < config.capacity.maxPeers) (ht : t < config.capacity.maxTopics)
    (h : (enqueuePrune config.toConfig p (r.topics t) r).1 = .ok ()) :
    (meshTrimPeer config.toConfig t p true r).1 = .ok () := by
  unfold meshTrimPeer
  dsimp only
  rw [if_pos rfl, Comp.read_id_bind]
  have hsend : enqueuePrune config.toConfig p (r.topics t) r =
      (.ok (), (enqueuePrune config.toConfig p (r.topics t) r).2) := Prod.ext h rfl
  generalize (enqueuePrune config.toConfig p (r.topics t) r).2 = r₁ at hsend
  have hadd : backoffAdd config.toConfig p t config.mesh.pruneBackoffUs r.lastDriveUs r₁ =
      (.ok (), (backoffAdd config.toConfig p t config.mesh.pruneBackoffUs r.lastDriveUs r₁).2) :=
    Prod.ext (backoffAdd_ok hp ht _ _) rfl
  rw [Comp.bind_of_ok hsend, Comp.bind_of_ok hadd]
  rfl

theorem meshTrimLoop_ok (ht : t < config.capacity.maxTopics) {salt : UInt64} (n : Nat)
    (h : trimUnblocked config.toConfig t salt n r = true) :
    (meshTrimLoop config.toConfig t salt true n r).1 = .ok () := by
  induction n generalizing r with
  | zero => rfl
  | succ n ih =>
    rw [meshTrimLoop, Comp.read_id_bind]
    rw [trimUnblocked] at h
    cases hlowest : lowestRank config.toConfig r salt
        (fun p => meshContains config.toConfig r p t) with
    | none => rfl
    | some p =>
      rw [hlowest] at h
      obtain ⟨hround, hrest⟩ := Bool.and_eq_true_iff.mp h
      have hok := meshTrimPeer_ok (lowestRank_some hlowest).1 ht (of_decide_eq_true hround)
      have hrun : meshTrimPeer config.toConfig t p true r =
          (.ok (), (meshTrimPeer config.toConfig t p true r).2) := Prod.ext hok rfl
      dsimp only
      rw [Comp.bind_of_ok hrun]
      exact ih hrest

/-- The heartbeat's round for a topic that is not blocked. -/
theorem maintainTopic_ok (ht : t < config.capacity.maxTopics)
    (hd : config.mesh.dLow ≤ config.mesh.d) (hhigh : config.mesh.d ≤ config.mesh.dHigh)
    (h : topicUnblocked config.toConfig t r = true) :
    (maintainTopic config.toConfig t r).1 = .ok () := by
  unfold maintainTopic
  unfold topicUnblocked at h
  rw [Comp.read_id_bind]
  split
  · rename_i hlocal
    rw [if_pos hlocal] at h
    split
    · rename_i hlow
      rw [if_pos hlow] at h
      unfold meshFillTopic
      rw [Comp.read_id_bind, if_neg (by omega), if_neg (by simp [hlocal.1]), if_pos (by omega)]
      exact saltUnblocked_run _ h fun salt hfill =>
        meshFillLoop_ok (r := { r with randomCalls := r.randomCalls + 1 }) ht hlocal.1 _ hfill
    · rename_i hlow
      rw [if_neg hlow] at h
      split
      · rename_i hmany
        rw [if_pos hmany] at h
        unfold meshTrimTopic
        rw [Comp.read_id_bind, if_neg (by omega), if_pos (by omega)]
        exact saltUnblocked_run _ h fun salt htrim => meshTrimLoop_ok ht _ htrim
      · rfl
  · rfl

/-- The heartbeat over some topics that is not blocked. -/
theorem maintainTopics_ok {ts : List Nat} (hts : ∀ t ∈ ts, t < config.capacity.maxTopics)
    (hd : config.mesh.dLow ≤ config.mesh.d) (hhigh : config.mesh.d ≤ config.mesh.dHigh)
    (h : heartbeatUnblocked config.toConfig ts r = true) :
    (Comp.forOk (maintainTopic config.toConfig) ts r).1 = .ok () := by
  induction ts generalizing r with
  | nil => rfl
  | cons t ts ih =>
    obtain ⟨hround, hrest⟩ := Bool.and_eq_true_iff.mp h
    have hok := maintainTopic_ok (hts t List.mem_cons_self) hd hhigh hround
    have hrun : maintainTopic config.toConfig t r =
        (.ok (), (maintainTopic config.toConfig t r).2) := Prod.ext hok rfl
    rw [Comp.forOk_cons, Comp.bind_of_ok hrun]
    exact ih (fun u hu => hts u (List.mem_cons_of_mem t hu)) hrest

end Unblocked

/-- The state in which a drive comes to the mesh heartbeat. -/
def meshStart (nowUs : Nat) (r : Router) : Router :=
  backoffClearExpired config nowUs (resetIdontwantSent config
    { r with tx := txDropStale config r.peers nowUs r.tx, lastDriveUs := nowUs })

theorem MeshReady.meshStart {config : RouterConfig} {r : Router} (h : MeshReady config.toConfig r)
    (nowUs : Nat) : MeshReady config.toConfig (meshStart config.toConfig nowUs r) where
  mesh := by
    have hlater : MeshInvariant config.toConfig False False
        { r with tx := txDropStale config.toConfig r.peers nowUs r.tx, lastDriveUs := nowUs } :=
      h.mesh.of_later (setTime_agrees ..) (by decide) False.elim
    have hreset := hlater.of_agrees (resetIdontwantSent_agrees config.toConfig _) (by decide)
    exact { hreset with excluded := fun hordered => hordered.elim }
  transmits := Transmits.of_agrees
    ((h.transmits.dropStale nowUs).of_agrees (resetIdontwantSent_agrees ..) rfl)
    (backoffClearExpired_agrees ..) rfl

theorem MeshReady.run (config : RouterConfig) (actions : List Action) :
    MeshReady config.toConfig (Node.init.run config.toConfig actions).router where
  mesh := by
    apply Lib.run_keeps (P := fun _ _ => True) (I := fun s : Node =>
      MeshInvariant config.toConfig False False s.router)
    · exact runMeets_of_forall fun _ _ => trivial
    · exact MeshInvariant.init
    · intro s action _ hs
      exact hs.step False.elim False.elim
  transmits := Transmits.run config actions

/-- In every reachable state, with `d_low ≤ d ≤ d_high`, a mesh heartbeat in which no random call, no
    search for an edge and no enqueue fails succeeds and maintains every topic. -/
theorem meshHeartbeat_maintains (config : RouterConfig) :
    (∀ (actions : List Action) (nowUs : Nat),
      MeshReady config.toConfig (Node.init.run config.toConfig actions).router ∧
      MeshReady config.toConfig
        (meshStart config.toConfig nowUs (Node.init.run config.toConfig actions).router)) ∧
    ∀ r : Router, MeshReady config.toConfig r → config.mesh.dLow ≤ config.mesh.d →
      config.mesh.d ≤ config.mesh.dHigh →
      heartbeatUnblocked config.toConfig (List.range config.capacity.maxTopics) r = true →
      ∃ r' added removed, meshHeartbeat config.toConfig r = (.ok (), r') ∧
        MeshMaintained config.toConfig r r' (List.range config.capacity.maxTopics)
          added removed := by
  refine ⟨fun actions nowUs => ?_, fun r h hd hhigh hunblocked => ?_⟩
  · have h := MeshReady.run config actions
    exact ⟨h, h.meshStart nowUs⟩
  · have hok := maintainTopics_ok (fun t ht => List.mem_range.mp ht) hd hhigh hunblocked
    have hrun : meshHeartbeat config.toConfig r =
        (.ok (), (meshHeartbeat config.toConfig r).2) := Prod.ext hok rfl
    obtain ⟨added, removed, hmaintained⟩ := h.maintains hd hhigh List.nodup_range hrun
    exact ⟨_, added, removed, hrun, hmaintained⟩

/-- The peer of `pruneRun` is let in again when its backoff is over. -/
theorem meshHeartbeat_maintains_pruneRun :
    ∃ r' added removed, meshHeartbeat RouterConfig.small.toConfig
      (meshStart RouterConfig.small.toConfig 100000000
        (Node.init.run RouterConfig.small.toConfig pruneRun).router) = (.ok (), r') ∧
      MeshMaintained RouterConfig.small.toConfig
        (meshStart RouterConfig.small.toConfig 100000000
          (Node.init.run RouterConfig.small.toConfig pruneRun).router) r'
        (List.range RouterConfig.small.capacity.maxTopics) added removed := by
  obtain ⟨hready, hmaintains⟩ := meshHeartbeat_maintains RouterConfig.small
  have hunblocked : heartbeatUnblocked RouterConfig.small.toConfig
      (List.range RouterConfig.small.capacity.maxTopics)
      (meshStart RouterConfig.small.toConfig 100000000
        (Node.init.run RouterConfig.small.toConfig pruneRun).router) = true := by
    decide +kernel
  have hstart := (hready pruneRun 100000000).2
  generalize meshStart RouterConfig.small.toConfig 100000000
    (Node.init.run RouterConfig.small.toConfig pruneRun).router = r at hunblocked hstart ⊢
  exact hmaintains r hstart (by decide) (by decide) hunblocked

/-- A router whose mesh has room for one peer, but should have two. -/
def narrowConfig : RouterConfig where
  toConfig := { RouterConfig.small.toConfig with
    mesh := { RouterConfig.small.mesh with
      dLow := 2
      d := 2
      dHigh := 2 }
    capacity := { RouterConfig.small.capacity with maxMeshEdges := 1 } }
  valid := by rfl
  storage_le := by
    unfold storageLowerBound streamRxBufferCap streamRxSmallStride streamRxMaxCap ptrdiffMax
    decide
  pruneBackoffUs_le := RouterConfig.small.pruneBackoffUs_le

/-- Two peers have a writer and subscribe, and their queues are written. -/
def twoPeersRun : List Action :=
  [.subscribe ⟨.ptr [7], .acceptAll, false, 0⟩,
   .streamOpen 1 1 (.ok [1]) .outbound .v11,
   .streamOpen 2 2 (.ok [2]) .outbound .v11,
   .receive 0 [0x0a, 5, 0x08, 1, 0x12, 1, 7],
   .receive 1 [0x0a, 5, 0x08, 1, 0x12, 1, 7],
   .drive 10 fun _ => .ok 100]

/-- The queue of the peer has room for a GRAFT and a PRUNE. -/
def RoomForChange (r : Router) (p t : Nat) : Prop :=
  (enqueueGraft config p t r).1 = .ok () ∧ (enqueuePrune config p (r.topics t) r).1 = .ok ()

instance (r : Router) (p t : Nat) : Decidable (RoomForChange config r p t) :=
  inferInstanceAs (Decidable ((enqueueGraft config p t r).1 = .ok () ∧
    (enqueuePrune config p (r.topics t) r).1 = .ok ()))

/-- The mesh of a topic is large enough, or has every peer that may be in it. -/
def LargeEnough (r r' : Router) (t : Nat) : Prop :=
  config.mesh.dLow ≤ (meshPeers config r' t).length ∨
    ∀ p < config.capacity.maxPeers, r.isWriter p = true → peerSubscribed config r p t = true →
      backoffActive config r p t r.lastDriveUs = false → meshContains config r' p t = true

/-- Without a free edge a peer stays outside, though no queue is full. -/
theorem meshHeartbeat_not_maintains : ¬ ∀ (config : RouterConfig) (actions : List Action)
    (nowUs : Nat), config.mesh.dLow ≤ config.mesh.d → config.mesh.d ≤ config.mesh.dHigh →
    let r := meshStart config.toConfig nowUs (Node.init.run config.toConfig actions).router
    (∀ p < config.capacity.maxPeers, r.isWriter p = true → ∀ t < config.capacity.maxTopics,
      (r.topics t).used = true →
        RoomForChange config.toConfig (meshHeartbeat config.toConfig r).2 p t) →
    ∀ t < config.capacity.maxTopics, (r.topics t).localSubscribed = true →
      LargeEnough config.toConfig r (meshHeartbeat config.toConfig r).2 t := by
  intro hall
  have hlarge := hall narrowConfig twoPeersRun 20 (by decide) (by decide) (by decide +kernel) 0
    (by decide) (by decide +kernel)
  have hsmall : ¬ LargeEnough narrowConfig.toConfig
      (meshStart narrowConfig.toConfig 20
        (Node.init.run narrowConfig.toConfig twoPeersRun).router)
      (meshHeartbeat narrowConfig.toConfig (meshStart narrowConfig.toConfig 20
        (Node.init.run narrowConfig.toConfig twoPeersRun).router)).2 0 := by
    unfold LargeEnough
    decide +kernel
  exact hsmall hlarge

end LeanLibp2p.Gossipsub
