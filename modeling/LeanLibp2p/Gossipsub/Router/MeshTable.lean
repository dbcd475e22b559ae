import LeanLibp2p.Gossipsub.Router.Run

/-!
# The mesh table

The mesh as the list of its pairs of a peer and a topic, and what each operation on the table of
edges does to this list and to the counter beside it. What a new backoff entry does to the
question whether a pair is in backoff stands here too.
-/

namespace LeanLibp2p.Gossipsub

open LeanLibp2p.Lib

/-- The pair that a used edge joins. -/
def MeshEdge.pair (edge : MeshEdge) : Option (Nat × Nat) :=
  if edge.used then some (edge.peerIndex, edge.topicIndex) else none

/-- The pairs in the mesh, one for each used edge. -/
def Mesh.pairs (config : Config) (mesh : Mesh) : List (Nat × Nat) :=
  entries config.capacity.maxMeshEdges MeshEdge.pair mesh.edges

theorem MeshEdge.joins_iff {edge : MeshEdge} {p t : Nat} :
    edge.joins p t = true ↔ edge.pair = some (p, t) := by
  unfold MeshEdge.joins MeshEdge.pair
  by_cases h : edge.used = true
  · simp [h]
  · simp [h]

theorem meshContains_iff {config : Config} {r : Router} {p t : Nat} :
    meshContains config r p t = true ↔ (p, t) ∈ r.mesh.pairs config := by
  unfold meshContains Mesh.pairs
  rw [mem_entries]
  constructor
  · intro h
    rcases Option.isSome_iff_exists.mp h with ⟨i, hi⟩
    rcases findSlot_some hi with ⟨hlt, hjoins⟩
    exact ⟨i, hlt, MeshEdge.joins_iff.mp hjoins⟩
  · rintro ⟨i, hlt, hpair⟩
    rcases findSlot_isSome (p := fun i => (r.mesh.edges i).joins p t) hlt
      (MeshEdge.joins_iff.mpr hpair) with ⟨j, hj⟩
    rw [hj]
    rfl

/-- The counter counts the pairs. -/
def Mesh.Counted (config : Config) (mesh : Mesh) : Prop :=
  mesh.peerCount = (mesh.pairs config).length

theorem Mesh.pairs_length_le (config : Config) (mesh : Mesh) :
    (mesh.pairs config).length ≤ config.capacity.maxMeshEdges := entries_length_le _

/-- The mesh edges fit into the address space, so the counter does not wrap around. -/
theorem RouterConfig.maxMeshEdges_lt (config : RouterConfig) :
    config.capacity.maxMeshEdges < uint64Max := by
  have h := config.storage_le
  unfold storageLowerBound at h
  dsimp only at h
  unfold ptrdiffMax at h
  unfold uint64Max
  omega

section Operations

variable {config : RouterConfig} {mesh : Mesh} {i p t : Nat}

theorem Mesh.insert_pairs (hi : i < config.capacity.maxMeshEdges)
    (hfree : (mesh.edges i).used = false) :
    ((mesh.insert i p t).pairs config.toConfig).Perm ((p, t) :: mesh.pairs config.toConfig) := by
  apply entries_fill hi
  · simp [MeshEdge.pair, hfree]
  · simp [MeshEdge.pair]

theorem Mesh.insert_counted (h : mesh.Counted config.toConfig)
    (hi : i < config.capacity.maxMeshEdges) (hfree : (mesh.edges i).used = false) :
    (mesh.insert i p t).Counted config.toConfig := by
  have hlen := mesh.pairs_length_le config.toConfig
  have hmax := config.maxMeshEdges_lt
  unfold Mesh.Counted at h ⊢
  rw [(Mesh.insert_pairs hi hfree).length_eq, List.length_cons]
  change (mesh.peerCount + 1) % (uint64Max + 1) = _
  rw [h, Nat.mod_eq_of_lt (by omega)]

theorem Mesh.clear_pairs (hi : i < config.capacity.maxMeshEdges)
    (hused : (mesh.edges i).pair = some (p, t)) :
    ((p, t) :: (mesh.clear i).pairs config.toConfig).Perm (mesh.pairs config.toConfig) :=
  entries_clear hi hused rfl

theorem Mesh.clear_counted (h : mesh.Counted config.toConfig)
    (hi : i < config.capacity.maxMeshEdges) (hused : (mesh.edges i).pair = some (p, t)) :
    (mesh.clear i).Counted config.toConfig := by
  have hlen := mesh.pairs_length_le config.toConfig
  have hmax := config.maxMeshEdges_lt
  have hperm := (Mesh.clear_pairs hi hused).length_eq
  rw [List.length_cons] at hperm
  unfold Mesh.Counted at h ⊢
  change (mesh.peerCount + uint64Max) % (uint64Max + 1) = _
  obtain ⟨n, hn⟩ : ∃ n, n = ((mesh.clear i).pairs config.toConfig).length := ⟨_, rfl⟩
  rw [h, ← hperm, ← hn, Nat.add_assoc, Nat.add_comm 1, Nat.add_mod_right,
    Nat.mod_eq_of_lt (by omega)]

/-- What `gossipsub_mesh_add` leaves: the mesh as it was, or with one pair more. -/
theorem meshAdd_spec (config : RouterConfig) (p t : Nat) (r : Router) :
    (meshAdd config.toConfig p t r).2 = r ∨
    (p < config.capacity.maxPeers ∧ t < config.capacity.maxTopics ∧ (r.peers p).used = true ∧
      (r.topics t).used = true ∧ (p, t) ∉ r.mesh.pairs config.toConfig ∧
      ∃ i, i < config.capacity.maxMeshEdges ∧ (r.mesh.edges i).used = false ∧
        (meshAdd config.toConfig p t r).2 = { r with mesh := r.mesh.insert i p t }) := by
  unfold meshAdd
  split
  · exact .inl rfl
  · rename_i hrange
    split
    · exact .inl rfl
    · rename_i hused
      split
      · exact .inl rfl
      · rename_i hcontains
        split
        · exact .inl rfl
        · rename_i j hj
          rcases findSlot_some hj with ⟨hlt, hfree⟩
          refine .inr ⟨by omega, by omega, ?_, ?_, ?_, j, hlt, by simpa using hfree, rfl⟩
          · simpa using fun h => hused (.inl h)
          · simpa using fun h => hused (.inr h)
          · rwa [meshContains_iff] at hcontains

/-- Some pairs are gone. -/
structure Mesh.Shrinks (config : Config) (mesh mesh' : Mesh) : Prop where
  subperm : (mesh'.pairs config).Subperm (mesh.pairs config)
  counted : mesh.Counted config → mesh'.Counted config

theorem Mesh.Shrinks.refl (config : Config) (mesh : Mesh) : mesh.Shrinks config mesh :=
  ⟨List.Subperm.refl _, id⟩

theorem Mesh.Shrinks.trans {config : Config} {mesh mesh' mesh'' : Mesh}
    (h : mesh.Shrinks config mesh') (h' : mesh'.Shrinks config mesh'') :
    mesh.Shrinks config mesh'' :=
  ⟨h'.subperm.trans h.subperm, h'.counted ∘ h.counted⟩

theorem Mesh.Shrinks.clear (hi : i < config.capacity.maxMeshEdges)
    (hused : (mesh.edges i).used = true) :
    mesh.Shrinks config.toConfig (mesh.clear i) := by
  have hpair : (mesh.edges i).pair =
      some ((mesh.edges i).peerIndex, (mesh.edges i).topicIndex) := by
    simp [MeshEdge.pair, hused]
  refine ⟨?_, fun h => Mesh.clear_counted h hi hpair⟩
  have hperm : (_ :: (mesh.clear i).pairs config.toConfig).Perm (mesh.pairs config.toConfig) :=
    Mesh.clear_pairs hi hpair
  exact (List.sublist_cons_self _ _).subperm.trans hperm.subperm

/-- `gossipsub_mesh_remove` changes the mesh only. -/
theorem meshRemove_eq (config : Config) (p t : Nat) (r : Router) :
    meshRemove config p t r = { r with mesh := (meshRemove config p t r).mesh } := by
  unfold meshRemove
  split <;> rfl

/-- What `gossipsub_mesh_remove` leaves: the pair is gone. -/
theorem meshRemove_shrinks (config : RouterConfig) (p t : Nat) (r : Router) :
    r.mesh.Shrinks config.toConfig (meshRemove config.toConfig p t r).mesh := by
  unfold meshRemove
  split
  · exact .refl ..
  · rename_i i hi
    rcases findSlot_some hi with ⟨hlt, hjoins⟩
    apply Mesh.Shrinks.clear hlt
    unfold MeshEdge.joins at hjoins
    simp only [Bool.and_eq_true] at hjoins
    exact hjoins.1.1

theorem meshRemove_not_mem (config : RouterConfig) (p t : Nat) {r : Router}
    (hnd : (r.mesh.pairs config.toConfig).Nodup) :
    (p, t) ∉ (meshRemove config.toConfig p t r).mesh.pairs config.toConfig := by
  unfold meshRemove
  split
  · rename_i hnone
    intro hmem
    rw [← meshContains_iff] at hmem
    unfold meshContains at hmem
    rw [hnone] at hmem
    cases hmem
  · rename_i i hi
    rcases findSlot_some hi with ⟨hlt, hjoins⟩
    have hperm : (_ :: (r.mesh.clear i).pairs config.toConfig).Perm
        (r.mesh.pairs config.toConfig) := Mesh.clear_pairs hlt (MeshEdge.joins_iff.mp hjoins)
    exact (List.nodup_cons.mp (hperm.nodup_iff.mpr hnd)).1

/-- The loop of `gossipsub_mesh_remove_peer` and `gossipsub_mesh_remove_topic` over some slots. -/
theorem Mesh.clearLoop_shrinks (config : RouterConfig) (sel : MeshEdge → Bool) (xs : List Nat)
    (hxs : ∀ i ∈ xs, i < config.capacity.maxMeshEdges) (mesh : Mesh) :
    mesh.Shrinks config.toConfig (xs.foldl (fun mesh i =>
      if (mesh.edges i).used && sel (mesh.edges i) then mesh.clear i else mesh) mesh) := by
  induction xs generalizing mesh with
  | nil => exact .refl ..
  | cons i xs ih =>
    rw [List.foldl_cons]
    refine Mesh.Shrinks.trans ?_ (ih (fun j hj => hxs j (by simp [hj])) _)
    by_cases hsel : ((mesh.edges i).used && sel (mesh.edges i)) = true
    · rw [if_pos hsel]
      exact .clear (hxs i (by simp)) (by simp only [Bool.and_eq_true] at hsel; exact hsel.1)
    · rw [if_neg hsel]
      exact .refl ..

theorem Mesh.clearWhere_shrinks (config : RouterConfig) (sel : MeshEdge → Bool) (mesh : Mesh) :
    mesh.Shrinks config.toConfig (mesh.clearWhere config.toConfig sel) :=
  Mesh.clearLoop_shrinks config sel _ (fun _ hi => List.mem_range.mp hi) mesh

/-- An edge that the loop leaves is as it was, and not of the kind that is cleared where the loop
    came by. -/
theorem Mesh.clearLoop_left (sel : MeshEdge → Bool) (xs : List Nat) (mesh : Mesh) (i : Nat)
    (hused : ((xs.foldl (fun mesh i =>
      if (mesh.edges i).used && sel (mesh.edges i) then mesh.clear i else mesh) mesh).edges
        i).used = true) :
    (xs.foldl (fun mesh i =>
      if (mesh.edges i).used && sel (mesh.edges i) then mesh.clear i else mesh) mesh).edges i =
        mesh.edges i ∧ (i ∈ xs → sel (mesh.edges i) = false) := by
  induction xs generalizing mesh with
  | nil => exact ⟨rfl, fun h => by cases h⟩
  | cons j xs ih =>
    rw [List.foldl_cons] at hused ⊢
    rcases ih _ hused with ⟨heq, hsel⟩
    by_cases hj : ((mesh.edges j).used && sel (mesh.edges j)) = true
    · rw [if_pos hj] at hused heq hsel ⊢
      have hij : i ≠ j := by
        intro hij
        subst hij
        rw [heq] at hused
        simp [Mesh.clear, MeshEdge.free] at hused
      have hsame : (mesh.clear j).edges i = mesh.edges i := Function.update_of_ne hij _ _
      rw [hsame] at heq hsel
      exact ⟨heq, fun hmem => hsel ((List.mem_cons.mp hmem).resolve_left hij)⟩
    · rw [if_neg hj] at hused heq hsel ⊢
      refine ⟨heq, fun hmem => ?_⟩
      rcases List.mem_cons.mp hmem with rfl | hmem
      · rw [heq] at hused
        simpa [hused] using hj
      · exact hsel hmem

/-- No edge of the kind that is cleared is left. -/
theorem Mesh.clearWhere_left (config : RouterConfig) (sel : MeshEdge → Bool) (mesh : Mesh)
    {edge : MeshEdge} (i : Nat) (hi : i < config.capacity.maxMeshEdges)
    (hedge : (mesh.clearWhere config.toConfig sel).edges i = edge) (hused : edge.used = true) :
    sel edge = false := by
  subst hedge
  rcases Mesh.clearLoop_left sel _ mesh i hused with ⟨heq, hsel⟩
  unfold Mesh.clearWhere
  rw [heq]
  exact hsel (List.mem_range.mpr hi)

/-- What `gossipsub_mesh_remove_peer` leaves names other peers. -/
theorem meshRemovePeer_ne (config : RouterConfig) (p : Nat) (r : Router) {q t : Nat}
    (h : (q, t) ∈ (meshRemovePeer config.toConfig p r).mesh.pairs config.toConfig) : q ≠ p := by
  rcases mem_entries.mp h with ⟨i, hi, hpair⟩
  have hjoins := MeshEdge.joins_iff.mpr hpair
  unfold MeshEdge.joins at hjoins
  simp only [Bool.and_eq_true, decide_eq_true_eq] at hjoins
  rcases hjoins with ⟨⟨hused, hq⟩, -⟩
  have hsel := Mesh.clearWhere_left config _ r.mesh i hi rfl hused
  change decide (_ = p) = false at hsel
  rw [← hq]
  exact of_decide_eq_false hsel

/-- What `gossipsub_mesh_remove_topic` leaves names other topics. -/
theorem meshRemoveTopic_ne (config : RouterConfig) (t : Nat) (r : Router) {p u : Nat}
    (h : (p, u) ∈ (meshRemoveTopic config.toConfig t r).mesh.pairs config.toConfig) : u ≠ t := by
  rcases mem_entries.mp h with ⟨i, hi, hpair⟩
  have hjoins := MeshEdge.joins_iff.mpr hpair
  unfold MeshEdge.joins at hjoins
  simp only [Bool.and_eq_true, decide_eq_true_eq] at hjoins
  rcases hjoins with ⟨⟨hused, -⟩, hu⟩
  have hsel := Mesh.clearWhere_left config _ r.mesh i hi rfl hused
  change decide (_ = t) = false at hsel
  rw [← hu]
  exact of_decide_eq_false hsel

end Operations

/-! ## Backoff -/

section BackoffTable

variable {config : Config} {r : Router} {p t q u nowUs : Nat}

theorem Backoff.concerns_iff {backoff : Backoff} :
    backoff.concerns p t = true ↔
      backoff.used = true ∧ backoff.peerIndex = p ∧ backoff.topicIndex = t := by
  simp [Backoff.concerns, and_assoc]

theorem backoffActive_iff : backoffActive config r p t nowUs = true ↔
    p < config.capacity.maxPeers ∧ t < config.capacity.maxTopics ∧
      ∃ i < config.capacity.maxBackoffEntries,
        (r.backoff i).concerns p t = true ∧ nowUs < (r.backoff i).expiresUs := by
  unfold backoffActive
  simp only [Bool.and_eq_true, decide_eq_true_eq, and_assoc]
  refine and_congr_right fun _ => and_congr_right fun _ => ?_
  constructor
  · intro h
    rcases Option.isSome_iff_exists.mp h with ⟨i, hi⟩
    rcases findSlot_some hi with ⟨hlt, hactive⟩
    exact ⟨i, hlt, by simpa using hactive⟩
  · intro h
    rcases h with ⟨i, hlt, hactive⟩
    apply Option.isSome_iff_exists.mpr
    exact findSlot_isSome hlt (by simpa using hactive)

/-- A backoff that is active later was active before. -/
theorem backoffActive_of_le {later : Nat} (hle : nowUs ≤ later)
    (h : backoffActive config r p t nowUs = false) :
    backoffActive config r p t later = false := by
  rw [Bool.eq_false_iff] at h ⊢
  intro hactive
  rcases backoffActive_iff.mp hactive with ⟨hp, ht, i, hi, hconcerns, hexpires⟩
  exact h (backoffActive_iff.mpr ⟨hp, ht, i, hi, hconcerns, by omega⟩)

/-- The answer depends on the table of backoff entries only. -/
theorem backoffActive_congr {r' : Router} (h : r'.backoff = r.backoff) :
    backoffActive config r' p t nowUs = backoffActive config r p t nowUs := by
  unfold backoffActive
  rw [h]

/-- What `gossipsub_backoff_add` leaves: the table as it was, or one entry for the pair in it. -/
theorem backoffAdd_spec (config : Config) (p t intervalUs nowUs : Nat) (r : Router) :
    (backoffAdd config p t intervalUs nowUs r).2 = r ∨
    ((backoffAdd config p t intervalUs nowUs r).1 = .ok () ∧
      ∃ i expiresUs, (backoffAdd config p t intervalUs nowUs r).2 =
        r.setBackoff i ⟨true, p, t, expiresUs⟩) := by
  unfold backoffAdd
  dsimp only
  split
  · exact .inl rfl
  · split
    · split
      · exact .inr ⟨rfl, _, _, rfl⟩
      · exact .inl rfl
    · split
      · exact .inr ⟨rfl, _, _, rfl⟩
      · split
        · exact .inr ⟨rfl, _, _, rfl⟩
        · exact .inl rfl

/-- An error leaves the table as it was. -/
theorem backoffAdd_error {intervalUs : Nat} {e : GossipsubErr}
    (h : (backoffAdd config p t intervalUs nowUs r).1 = .error e) :
    (backoffAdd config p t intervalUs nowUs r).2 = r := by
  rcases backoffAdd_spec config p t intervalUs nowUs r with hspec | ⟨hok, -⟩
  · exact hspec
  · rw [h] at hok
    cases hok

/-- A backoff for one pair does not start one for another. -/
theorem setBackoff_other {i expiresUs atUs : Nat} (hne : (q, u) ≠ (p, t))
    (h : backoffActive config r q u atUs = false) :
    backoffActive config (r.setBackoff i ⟨true, p, t, expiresUs⟩) q u atUs = false := by
  rw [Bool.eq_false_iff] at h ⊢
  intro hactive
  apply h
  rcases backoffActive_iff.mp hactive with ⟨hq, hu, j, hj, hconcerns, hexpires⟩
  by_cases hij : j = i
  · subst hij
    simp only [Router.setBackoff, Function.update_self] at hconcerns
    rcases Backoff.concerns_iff.mp hconcerns with ⟨-, hp, ht⟩
    exact absurd (by rw [← hp, ← ht]) hne
  · simp only [Router.setBackoff, Function.update_of_ne hij] at hconcerns hexpires
    exact backoffActive_iff.mpr ⟨hq, hu, j, hj, hconcerns, hexpires⟩

/-- What has expired by now was not active. -/
theorem backoffClearExpired_active {atUs : Nat} (h : backoffActive config r p t atUs = false) :
    backoffActive config (backoffClearExpired config nowUs r) p t atUs = false := by
  rw [Bool.eq_false_iff] at h ⊢
  intro hactive
  apply h
  rcases backoffActive_iff.mp hactive with ⟨hp, ht, i, hi, hconcerns, hexpires⟩
  unfold backoffClearExpired at hconcerns hexpires
  dsimp only at hconcerns hexpires
  split at hconcerns
  · exact absurd hconcerns (by simp [Backoff.concerns, Backoff.free])
  · rename_i hkept
    rw [if_neg hkept] at hexpires
    exact backoffActive_iff.mpr ⟨hp, ht, i, hi, hconcerns, hexpires⟩

end BackoffTable

end LeanLibp2p.Gossipsub
