import LeanLibp2p.Gossipsub.Router.MeshSafety
import LeanLibp2p.Gossipsub.Router.Ranks
import LeanLibp2p.Gossipsub.Router.Waiting

/-!
# Fills and trims

What the loops of `gossipsub_mesh_fill_topic` and `gossipsub_mesh_trim_topic` do to the mesh, to the
queues and to the backoff table: a fill takes candidates one after the other until there are enough
or none is left, a trim puts members out until there are few enough.
-/

namespace LeanLibp2p.Gossipsub

open LeanLibp2p.Lib

/-- The peers in the mesh of a topic. -/
def meshPeers (config : Config) (r : Router) (t : Nat) : List Nat :=
  (List.range config.capacity.maxPeers).filter fun p => meshContains config r p t

/-- The RPC of `gossipsub_enqueue_graft`. -/
def graftRpc (topic : Topic) : Rpc :=
  .ofControl { RpcControl.zero with graft := [⟨.ptr topic.topic⟩] }

/-- The RPC of `gossipsub_enqueue_prune`. -/
def pruneRpc (config : Config) (topic : Topic) : Rpc :=
  .ofControl { RpcControl.zero with
    prune := [⟨.ptr topic.topic, [], txBackoffSeconds config.mesh.pruneBackoffUs⟩] }

/-- The backoff table after some pairs got a backoff, one after the other. -/
def backoffsAdded (config : Config) (nowUs : Nat) (pairs : List (Nat × Nat)) (r : Router) :
    Nat → Backoff :=
  (pairs.foldl (fun r pair =>
    (backoffAdd config pair.1 pair.2 config.mesh.pruneBackoffUs nowUs r).2) r).backoff

/-! ## Counting -/

/-- The edges of a topic, counted in the list of pairs. -/
theorem meshCountTopic_eq (config : Config) (r : Router) (t : Nat) :
    meshCountTopic config r t =
      ((r.mesh.pairs config).filter fun pair => pair.2 = t).length := by
  unfold meshCountTopic Mesh.pairs entries
  rw [List.filter_filterMap, List.countP_eq_length_filter]
  induction List.range config.capacity.maxMeshEdges with
  | nil => rfl
  | cons i is ih =>
    by_cases hused : (r.mesh.edges i).used = true
    · have hpair : (r.mesh.edges i).pair =
          some ((r.mesh.edges i).peerIndex, (r.mesh.edges i).topicIndex) := if_pos hused
      by_cases ht : (r.mesh.edges i).topicIndex = t
      · simp [Option.filter, hpair, hused, ht, ih]
      · simp [Option.filter, hpair, hused, ht, ih]
    · have hpair : (r.mesh.edges i).pair = none := if_neg hused
      simp [hpair, hused, ih]

theorem filter_pairs_self (ps : List Nat) (t : Nat) :
    ((ps.map fun p => (p, t)).filter fun pair => pair.2 = t) = ps.map fun p => (p, t) := by
  simp [List.filter_eq_self]

/-- Every edge is about another peer, so the edges of a topic count its peers. -/
theorem MeshInvariant.countTopic {config : RouterConfig} {ordered guarded : Prop} {r : Router}
    (h : MeshInvariant config.toConfig ordered guarded r) (t : Nat) :
    meshCountTopic config.toConfig r t = (meshPeers config.toConfig r t).length := by
  have hnodup : (((r.mesh.pairs config.toConfig).filter fun pair => pair.2 = t).map
      Prod.fst).Nodup := by
    refine (h.nodup.filter _).map_on ?_
    intro x hx y hy hxy
    have hx2 := (List.mem_filter.mp hx).2
    have hy2 := (List.mem_filter.mp hy).2
    exact Prod.ext hxy ((of_decide_eq_true hx2).trans (of_decide_eq_true hy2).symm)
  have hperm : (((r.mesh.pairs config.toConfig).filter fun pair => pair.2 = t).map
      Prod.fst).Perm (meshPeers config.toConfig r t) := by
    refine (List.perm_ext_iff_of_nodup hnodup (List.nodup_range.filter _)).mpr fun p => ?_
    rw [List.mem_filter, List.mem_range, meshContains_iff, List.mem_map]
    constructor
    · rintro ⟨⟨q, u⟩, hmem, rfl⟩
      obtain ⟨hpair, hu⟩ := List.mem_filter.mp hmem
      obtain rfl := of_decide_eq_true hu
      exact ⟨(h.peer q u hpair).1, hpair⟩
    · rintro ⟨-, hpair⟩
      exact ⟨(p, t), List.mem_filter.mpr ⟨hpair, by simp⟩, rfl⟩
  rw [meshCountTopic_eq, ← hperm.length_eq, List.length_map]

/-! ## Backoff -/

section Backoff

variable {config : Config} {r r' : Router} {p t q u nowUs : Nat}

theorem backoffAdd_congr (h : r'.backoff = r.backoff) (p t intervalUs nowUs : Nat) :
    (backoffAdd config p t intervalUs nowUs r').2.backoff =
      (backoffAdd config p t intervalUs nowUs r).2.backoff := by
  unfold backoffAdd backoffEarliest
  dsimp only
  rw [h]
  split
  · exact h
  · split
    · split
      · simp [Router.setBackoff, h]
      · exact h
    · split
      · simp [Router.setBackoff, h]
      · split
        · simp [Router.setBackoff, h]
        · exact h

theorem backoffsAdded_congr (h : r'.backoff = r.backoff) (pairs : List (Nat × Nat)) :
    backoffsAdded config nowUs pairs r' = backoffsAdded config nowUs pairs r := by
  unfold backoffsAdded
  induction pairs generalizing r r' with
  | nil => exact h
  | cons pair pairs ih => exact ih (backoffAdd_congr h ..)

theorem backoffsAdded_append (pairs pairs' : List (Nat × Nat))
    (h : r'.backoff = backoffsAdded config nowUs pairs r) :
    backoffsAdded config nowUs pairs' r' = backoffsAdded config nowUs (pairs ++ pairs') r := by
  unfold backoffsAdded at h ⊢
  rw [List.foldl_append]
  exact backoffsAdded_congr h pairs'

/-- A backoff for one pair does not start one for another. -/
theorem backoffAdd_other {intervalUs atUs : Nat} (hne : (q, u) ≠ (p, t))
    (h : backoffActive config r q u atUs = false) :
    backoffActive config (backoffAdd config p t intervalUs nowUs r).2 q u atUs = false := by
  rcases backoffAdd_spec config p t intervalUs nowUs r with hsame | ⟨-, i, expiresUs, hset⟩
  · rwa [hsame]
  · rw [hset]
    exact setBackoff_other hne h

theorem backoffsAdded_other {atUs : Nat} {ps : List Nat} (hne : u ≠ t)
    (hbackoff : r'.backoff = backoffsAdded config nowUs (ps.map fun p => (p, t)) r)
    (h : backoffActive config r q u atUs = false) : backoffActive config r' q u atUs = false := by
  rw [backoffActive_congr hbackoff]
  clear hbackoff
  induction ps generalizing r with
  | nil => exact h
  | cons p ps ih =>
    apply ih
    exact backoffAdd_other (fun heq => hne (congrArg Prod.snd heq)) h

end Backoff

/-! ## Filling -/

/-- Peers were let into the mesh of a topic. -/
structure MeshFills (config : Config) (r r' : Router) (t : Nat) (added : List Nat) : Prop where
  agrees : Router.Agrees [.tx, .grafts, .mesh, .random] r r'
  nodup : added.Nodup
  candidate : ∀ p ∈ added, p < config.capacity.maxPeers ∧ fillCandidate config r t p = true
  pairs : (r'.mesh.pairs config).Perm ((added.map fun p => (p, t)) ++ r.mesh.pairs config)
  gains : Tx.Gains config r.tx r'.tx
    (gainEach added true fun _ => frameBytes (graftRpc (r.topics t)))

/-- A peer that `gossipsub_mesh_add` lets in gets a free edge. -/
theorem meshAdd_ok {config : Config} {p t : Nat} {r r' : Router}
    (hnot : meshContains config r p t = false) (hrun : meshAdd config p t r = (.ok (), r')) :
    ∃ i < config.capacity.maxMeshEdges, (r.mesh.edges i).used = false ∧
      r' = { r with mesh := r.mesh.insert i p t } := by
  unfold meshAdd at hrun
  split at hrun
  · cases hrun
  · split at hrun
    · cases hrun
    · rw [if_neg (by simp [hnot])] at hrun
      split at hrun
      · cases hrun
      · rename_i i hi
        cases hrun
        obtain ⟨hlt, hfree⟩ := findSlot_some hi
        exact ⟨i, hlt, by simpa using hfree, rfl⟩

namespace MeshFills

variable {config : Config} {r r' r'' : Router} {t p : Nat} {added : List Nat}

theorem refl (config : Config) (r : Router) (t : Nat) : MeshFills config r r t [] where
  agrees := .refl r
  nodup := List.nodup_nil
  candidate := by simp
  pairs := .refl _
  gains := (Tx.Gains.refl config r.tx).congr fun _ _ _ => by simp [gainEach]

theorem contains_iff (h : MeshFills config r r' t added) {q u : Nat} :
    meshContains config r' q u = true ↔
      meshContains config r q u = true ∨ u = t ∧ q ∈ added := by
  rw [meshContains_iff, meshContains_iff, h.pairs.mem_iff, List.mem_append, List.mem_map, or_comm]
  constructor
  · rintro (hold | ⟨p, hp, heq⟩)
    · exact .inl hold
    · cases heq
      exact .inr ⟨rfl, hp⟩
  · rintro (hold | ⟨rfl, hq⟩)
    · exact .inl hold
    · exact .inr ⟨q, hq, rfl⟩

/-- Who may be let in depends on the mesh alone. -/
theorem fillCandidate_iff (h : MeshFills config r r' t added) {q : Nat} :
    fillCandidate config r' t q = true ↔ fillCandidate config r t q = true ∧ q ∉ added := by
  have hclock : r'.lastDriveUs = r.lastDriveUs := h.agrees.lastDriveUs (by decide)
  have hbackoff : r'.backoff = r.backoff := h.agrees.eq .backoff (by decide)
  have hmesh : meshContains config r' q t = false ↔
      meshContains config r q t = false ∧ q ∉ added := by
    rw [Bool.eq_false_iff, Bool.eq_false_iff, ne_eq, h.contains_iff]
    simp
  unfold fillCandidate
  simp only [Bool.and_eq_true, Bool.not_eq_true']
  rw [isWriter_of_agrees h.agrees (by decide), peerSubscribed_of_agrees h.agrees (by decide),
    hclock, backoffActive_congr hbackoff, hmesh]
  constructor
  · rintro ⟨⟨hsub, hmesh, hnot⟩, hfree⟩
    exact ⟨⟨⟨hsub, hmesh⟩, hfree⟩, hnot⟩
  · rintro ⟨⟨⟨hsub, hmesh⟩, hfree⟩, hnot⟩
    exact ⟨⟨hsub, hmesh, hnot⟩, hfree⟩

/-- One more peer. -/
theorem cons (h : MeshFills config r r' t [p]) (h' : MeshFills config r' r'' t added) :
    MeshFills config r r'' t (p :: added) where
  agrees := h.agrees.trans h'.agrees
  nodup := by
    refine List.nodup_cons.mpr ⟨fun hp => ?_, h'.nodup⟩
    exact (h.fillCandidate_iff.mp (h'.candidate p hp).2).2 (List.mem_singleton_self p)
  candidate := by
    intro q hq
    rcases List.mem_cons.mp hq with rfl | hq
    · exact h.candidate q (List.mem_singleton_self q)
    · exact ⟨(h'.candidate q hq).1, (h.fillCandidate_iff.mp (h'.candidate q hq).2).1⟩
  pairs := by
    refine h'.pairs.trans ?_
    refine (h.pairs.append_left _).trans ?_
    rw [List.map_cons, List.map_nil, List.map_cons]
    exact List.perm_middle
  gains := by
    have htopics : r'.topics = r.topics := h.agrees.eq .topics (by decide)
    refine (h.gains.trans h'.gains).congr fun q _ kind => ?_
    have hp : p ∉ added := fun hp =>
      (h.fillCandidate_iff.mp (h'.candidate p hp).2).2 (List.mem_singleton_self p)
    rw [htopics]
    unfold gainEach
    by_cases hq : q = p
    · subst hq
      simp [hp]
    · simp [hq]

end MeshFills

namespace Transmits

variable {config : RouterConfig} {r r' : Router} {p t : Nat}

theorem enqueueGraft_gains (h : Transmits config.toConfig r)
    (hrun : Gossipsub.enqueueGraft config.toConfig p t r = (.ok (), r')) :
    Tx.Gains config.toConfig r.tx r'.tx (gainOf p true [frameBytes (graftRpc (r.topics t))]) := by
  unfold Gossipsub.enqueueGraft at hrun
  rw [Comp.read_id_bind] at hrun
  obtain ⟨⟨⟩, r₁, hsend, hrecord⟩ := Comp.ok_of_bind hrun
  have hgains := h.enqueueRpc_gains hsend
  cases hrecord
  exact hgains

/-- One round of a fill that succeeds. -/
theorem meshFillPeer_fills (h : Transmits config.toConfig r) (hp : p < config.capacity.maxPeers)
    (hcandidate : fillCandidate config.toConfig r t p = true)
    (hrun : Gossipsub.meshFillPeer config.toConfig t p true r = (.ok (), r')) :
    MeshFills config.toConfig r r' t [p] := by
  have hnot : meshContains config.toConfig r p t = false := by
    unfold fillCandidate at hcandidate
    simp only [Bool.and_eq_true, Bool.not_eq_true'] at hcandidate
    exact hcandidate.1.2
  obtain ⟨⟨⟩, r₁, hadd, hgraft⟩ := Comp.ok_of_bind hrun
  obtain ⟨i, hi, hfree, rfl⟩ := meshAdd_ok hnot hadd
  have h₁ : Transmits config.toConfig { r with mesh := r.mesh.insert i p t } :=
    (of_touches (meshAdd_touches config.toConfig p t) (by decide)).of_run h hadd
  rw [if_pos rfl] at hgraft
  obtain ⟨res, r₂, hres, hend⟩ := Comp.ok_of_bind hgraft
  have hgraft := Comp.of_result hres
  cases res with
  | error e =>
    obtain ⟨⟨⟩, r₃, -, hfail⟩ := Comp.ok_of_bind hend
    cases hfail
  | ok _ =>
    cases hend
    have hmesh : r'.mesh = r.mesh.insert i p t := by
      have hagrees := (@enqueueGraft_touches config.toConfig p t).agrees
        { r with mesh := r.mesh.insert i p t }
      rw [hgraft] at hagrees
      exact hagrees.eq .mesh (by decide)
    have hagrees := (@meshFillPeer_touches config.toConfig t p true).agrees r
    rw [hrun] at hagrees
    exact
      { agrees := hagrees.mono (by decide)
        nodup := List.nodup_singleton p
        candidate := fun q hq => by
          obtain rfl := List.mem_singleton.mp hq
          exact ⟨hp, hcandidate⟩
        pairs := by
          rw [hmesh]
          exact Mesh.insert_pairs hi hfree
        gains := (h₁.enqueueGraft_gains hgraft).congr fun q _ kind => by
          simp [gainOf, gainEach] }

/-- The loop of a fill that succeeds. -/
theorem meshFillLoop_fills (h : Transmits config.toConfig r) (salt : UInt64) (fuel : Nat)
    (hrun : meshFillLoop config.toConfig t salt true fuel r = (.ok (), r')) :
    ∃ added, MeshFills config.toConfig r r' t added ∧ added.length ≤ fuel ∧
      (added.length = fuel ∨
        ∀ p < config.capacity.maxPeers, fillCandidate config.toConfig r' t p = false) := by
  induction fuel generalizing r with
  | zero =>
    cases hrun
    exact ⟨[], .refl config.toConfig _ t, Nat.le_refl 0, .inl rfl⟩
  | succ fuel ih =>
    rw [meshFillLoop, Comp.read_id_bind] at hrun
    cases hlowest : lowestRank config.toConfig r salt (fillCandidate config.toConfig r t) with
    | none =>
      rw [hlowest] at hrun
      cases hrun
      refine ⟨[], .refl config.toConfig _ t, Nat.zero_le _, .inr fun p hp => ?_⟩
      rw [lowestRank_eq, least_none_iff (ranksBefore_strictTotal _ salt)] at hlowest
      exact hlowest p (List.mem_range.mpr hp)
    | some p =>
      rw [hlowest] at hrun
      obtain ⟨hp, hcandidate⟩ := lowestRank_some hlowest
      obtain ⟨⟨⟩, r₁, hpeer, hrest⟩ := Comp.ok_of_bind hrun
      have hfirst := h.meshFillPeer_fills hp hcandidate hpeer
      have h₁ : Transmits config.toConfig r₁ := (meshFillPeer t p true).of_run h hpeer
      obtain ⟨added, hadded, hle, hend⟩ := ih h₁ hrest
      refine ⟨p :: added, hfirst.cons hadded, Nat.succ_le_succ hle, ?_⟩
      rcases hend with hfull | hnone
      · exact .inl (congrArg Nat.succ hfull)
      · exact .inr hnone

end Transmits

/-! ## Trimming -/

/-- Peers were put out of the mesh of a topic. -/
structure MeshTrims (config : Config) (r r' : Router) (t : Nat) (removed : List Nat) : Prop where
  agrees : Router.Agrees [.tx, .mesh, .backoff, .random] r r'
  member : ∀ p ∈ removed, meshContains config r p t = true
  pairs : ((removed.map fun p => (p, t)) ++ r'.mesh.pairs config).Perm (r.mesh.pairs config)
  gains : removed.Nodup → Tx.Gains config r.tx r'.tx
    (gainEach removed true fun _ => frameBytes (pruneRpc config (r.topics t)))
  backoff : r'.backoff = backoffsAdded config r.lastDriveUs (removed.map fun p => (p, t)) r

namespace MeshTrims

variable {config : Config} {r r' r'' : Router} {t p : Nat} {removed : List Nat}

theorem refl (config : Config) (r : Router) (t : Nat) : MeshTrims config r r t [] where
  agrees := .refl r
  member := by simp
  pairs := .refl _
  gains := fun _ => (Tx.Gains.refl config r.tx).congr fun _ _ _ => by simp [gainEach]
  backoff := rfl

/-- One more peer. -/
theorem cons (h : MeshTrims config r r' t [p]) (h' : MeshTrims config r' r'' t removed) :
    MeshTrims config r r'' t (p :: removed) where
  agrees := h.agrees.trans h'.agrees
  member := by
    intro q hq
    rcases List.mem_cons.mp hq with rfl | hq
    · exact h.member q (List.mem_singleton_self q)
    · rw [meshContains_iff, ← h.pairs.mem_iff, List.mem_append]
      exact .inr (meshContains_iff.mp (h'.member q hq))
  pairs := by
    refine List.Perm.trans ?_ h.pairs
    rw [List.map_cons, List.map_cons, List.map_nil]
    exact List.Perm.cons _ h'.pairs
  gains := by
    intro hnodup
    obtain ⟨hp, hnodup⟩ := List.nodup_cons.mp hnodup
    have htopics : r'.topics = r.topics := h.agrees.eq .topics (by decide)
    refine ((h.gains (List.nodup_singleton p)).trans (h'.gains hnodup)).congr fun q _ kind => ?_
    rw [htopics]
    unfold gainEach
    by_cases hq : q = p
    · subst hq
      simp [hp]
    · simp [hq]
  backoff := by
    have hclock : r'.lastDriveUs = r.lastDriveUs := h.agrees.lastDriveUs (by decide)
    rw [h'.backoff, hclock]
    exact backoffsAdded_append _ _ h.backoff

end MeshTrims

/-- The pair that `gossipsub_mesh_remove` takes out. -/
theorem meshRemove_pairs {config : Config} {p t : Nat} {r : Router}
    (hmember : meshContains config r p t = true) :
    ((p, t) :: (meshRemove config p t r).mesh.pairs config).Perm (r.mesh.pairs config) := by
  unfold meshContains at hmember
  obtain ⟨i, hi⟩ := Option.isSome_iff_exists.mp hmember
  obtain ⟨hlt, hjoins⟩ := findSlot_some hi
  unfold meshRemove
  rw [hi]
  exact entries_clear hlt (MeshEdge.joins_iff.mp hjoins) rfl

namespace Transmits

variable {config : RouterConfig} {r r' : Router} {p t : Nat}

variable (h : Transmits config.toConfig r)

include h

/-- One round of a trim that succeeds. -/
theorem meshTrimPeer_trims (hmember : meshContains config.toConfig r p t = true)
    (hrun : Gossipsub.meshTrimPeer config.toConfig t p true r = (.ok (), r')) :
    MeshTrims config.toConfig r r' t [p] := by
  have hagrees := (@meshTrimPeer_touches config.toConfig t p true).agrees r
  rw [hrun] at hagrees
  unfold Gossipsub.meshTrimPeer at hrun
  dsimp only at hrun
  rw [if_pos rfl, Comp.read_id_bind] at hrun
  obtain ⟨⟨⟩, r₁, hsend, hrest⟩ := Comp.ok_of_bind hrun
  obtain ⟨⟨⟩, r₂, hbackoff, hremove⟩ := Comp.ok_of_bind hrest
  have hsent := (@enqueuePrune_touches config.toConfig p (r.topics t)).agrees r
  rw [hsend] at hsent
  have hadded := (backoffAdd_touches config.toConfig p t config.mesh.pruneBackoffUs
    r.lastDriveUs).agrees r₁
  rw [hbackoff] at hadded
  have hagrees₂ : Router.Agrees [.tx, .backoff] r r₂ :=
    (hsent.mono (by decide)).trans (hadded.mono (by decide))
  have hmesh : r₂.mesh = r.mesh := hagrees₂.eq .mesh (by decide)
  have hmember₂ : meshContains config.toConfig r₂ p t = true := by
    rwa [meshContains_of_agrees hagrees₂ (by decide)]
  cases hremove
  have hremoved := meshRemove_agrees config.toConfig p t r₂
  exact
    { agrees := hagrees.mono (by decide)
      member := fun q hq => by
        obtain rfl := List.mem_singleton.mp hq
        exact hmember
      pairs := by
        have hpairs := meshRemove_pairs hmember₂
        rwa [hmesh] at hpairs
      gains := fun _ => by
        have htx : (meshRemove config.toConfig p t r₂).tx = r₁.tx :=
          (hremoved.eq .tx (by decide)).trans (hadded.eq .tx (by decide))
        rw [htx]
        exact (h.enqueueRpc_gains hsend).congr fun q _ kind => by simp [gainOf, gainEach, pruneRpc]
      backoff := by
        have hkept : (meshRemove config.toConfig p t r₂).backoff = r₂.backoff :=
          hremoved.eq .backoff (by decide)
        have hfirst : r₁.backoff = r.backoff := hsent.eq .backoff (by decide)
        rw [hkept, show r₂ = _ from (congrArg Prod.snd hbackoff).symm]
        exact backoffAdd_congr hfirst .. }

/-- The loop of a trim that succeeds. -/
theorem meshTrimLoop_trims (salt : UInt64) (fuel : Nat)
    (hrun : meshTrimLoop config.toConfig t salt true fuel r = (.ok (), r')) :
    ∃ removed, MeshTrims config.toConfig r r' t removed ∧ removed.length ≤ fuel ∧
      (removed.length = fuel ∨
        ∀ p < config.capacity.maxPeers, meshContains config.toConfig r' p t = false) := by
  induction fuel generalizing r with
  | zero =>
    cases hrun
    exact ⟨[], .refl config.toConfig _ t, Nat.le_refl 0, .inl rfl⟩
  | succ fuel ih =>
    rw [meshTrimLoop, Comp.read_id_bind] at hrun
    cases hlowest : lowestRank config.toConfig r salt
        (fun p => meshContains config.toConfig r p t) with
    | none =>
      rw [hlowest] at hrun
      cases hrun
      refine ⟨[], .refl config.toConfig _ t, Nat.zero_le _, .inr fun p hp => ?_⟩
      rw [lowestRank_eq, least_none_iff (ranksBefore_strictTotal _ salt)] at hlowest
      exact hlowest p (List.mem_range.mpr hp)
    | some p =>
      rw [hlowest] at hrun
      obtain ⟨⟨⟩, r₁, hpeer, hrest⟩ := Comp.ok_of_bind hrun
      have hfirst := h.meshTrimPeer_trims (lowestRank_some hlowest).2 hpeer
      have h₁ : Transmits config.toConfig r₁ := (meshTrimPeer t p true).of_run h hpeer
      obtain ⟨removed, hremoved, hle, hend⟩ := ih h₁ hrest
      refine ⟨p :: removed, hfirst.cons hremoved, Nat.succ_le_succ hle, ?_⟩
      rcases hend with hfull | hnone
      · exact .inl (congrArg Nat.succ hfull)
      · exact .inr hnone

/-- The answer for a choice changes only the count of the calls. -/
theorem randomU64_draws {result : Except GossipsubErr UInt64}
    (hrun : randomU64 config.toConfig r = (result, r')) :
    { r with randomCalls := r.randomCalls + 1 } = r' ∧ Transmits config.toConfig r' ∧
      Router.Agrees [.random] r r' :=
  ⟨congrArg Prod.snd hrun,
    (of_touches (randomU64_touches config.toConfig) (by decide)).of_run h hrun,
    (randomU64_touches config.toConfig).of_run hrun⟩

/-- A fill that succeeds stops at its target, or has no candidate left. -/
theorem meshFillTopic_fills {target : Nat}
    (hrun : Gossipsub.meshFillTopic config.toConfig t target true r = (.ok (), r')) :
    ∃ added, MeshFills config.toConfig r r' t added ∧
      added.length ≤ target - meshCountTopic config.toConfig r t ∧
      (added.length = target - meshCountTopic config.toConfig r t ∨
        ∀ p < config.capacity.maxPeers, fillCandidate config.toConfig r' t p = false) := by
  unfold Gossipsub.meshFillTopic at hrun
  rw [Comp.read_id_bind] at hrun
  split at hrun
  · cases hrun
  split at hrun
  · cases hrun
  split at hrun
  · obtain ⟨salt, r₁, hrandom, hloop⟩ := Comp.ok_of_bind hrun
    obtain ⟨rfl, h₁, hagrees⟩ := h.randomU64_draws hrandom
    obtain ⟨added, hfills, hle, hend⟩ := h₁.meshFillLoop_fills salt _ hloop
    exact ⟨added, ⟨(hagrees.mono (by decide)).trans hfills.agrees, hfills.nodup, hfills.candidate,
      hfills.pairs, hfills.gains⟩, hle, hend⟩
  · rename_i hcount
    cases hrun
    exact ⟨[], .refl config.toConfig _ t, Nat.zero_le _, .inl (by simp; omega)⟩

/-- A trim that succeeds stops at its target, or has no member left. -/
theorem meshTrimTopic_trims {target : Nat}
    (hrun : Gossipsub.meshTrimTopic config.toConfig t target true r = (.ok (), r')) :
    ∃ removed, MeshTrims config.toConfig r r' t removed ∧
      removed.length ≤ meshCountTopic config.toConfig r t - target ∧
      (removed.length = meshCountTopic config.toConfig r t - target ∨
        ∀ p < config.capacity.maxPeers, meshContains config.toConfig r' p t = false) := by
  unfold Gossipsub.meshTrimTopic at hrun
  rw [Comp.read_id_bind] at hrun
  split at hrun
  · cases hrun
  split at hrun
  · obtain ⟨salt, r₁, hrandom, hloop⟩ := Comp.ok_of_bind hrun
    obtain ⟨rfl, h₁, hagrees⟩ := h.randomU64_draws hrandom
    obtain ⟨removed, htrims, hle, hend⟩ := h₁.meshTrimLoop_trims salt _ hloop
    have hbackoff : backoffsAdded config.toConfig r.lastDriveUs (removed.map fun p => (p, t))
        { r with randomCalls := r.randomCalls + 1 } =
          backoffsAdded config.toConfig r.lastDriveUs (removed.map fun p => (p, t)) r :=
      backoffsAdded_congr (by rfl) _
    exact ⟨removed, ⟨(hagrees.mono (by decide)).trans htrims.agrees, htrims.member, htrims.pairs,
      htrims.gains, htrims.backoff.trans hbackoff⟩, hle, hend⟩
  · rename_i hcount
    cases hrun
    exact ⟨[], .refl config.toConfig _ t, Nat.zero_le _, .inl (by simp; omega)⟩

end Transmits

end LeanLibp2p.Gossipsub
