import LeanLibp2p.Gossipsub.Router.MeshTable

/-!
# Who may be in the mesh

What the router promises about the mesh, and that every operation keeps it: a pair stands in it
once, its peer is known and its topic subscribed, it is not in backoff, and its peer has a writer
stream. The last two hold in some runs only, so the invariant says which of them are meant.
-/

namespace LeanLibp2p.Gossipsub

open LeanLibp2p.Lib

/-- The invariant of the mesh; `ordered` says that time does not go backwards, `guarded` that no
    peer without a writer is let in. -/
structure MeshInvariant (config : Config) (ordered guarded : Prop) (r : Router) : Prop where
  nodup : (r.mesh.pairs config).Nodup
  counted : r.mesh.Counted config
  peer : ∀ p t, (p, t) ∈ r.mesh.pairs config → p < config.capacity.maxPeers ∧ (r.peers p).used
  topic : ∀ p t, (p, t) ∈ r.mesh.pairs config →
    t < config.capacity.maxTopics ∧ (r.topics t).localSubscribed
  used : ∀ t, (r.topics t).localSubscribed → (r.topics t).used
  excluded : ordered → ∀ p t, (p, t) ∈ r.mesh.pairs config →
    backoffActive config r p t r.lastDriveUs = false
  grafts : ∀ graft ∈ r.history.grafts, graft.inBackoff = false
  writer : guarded → ∀ p t, (p, t) ∈ r.mesh.pairs config → (r.peers p).stream.isSome

namespace MeshInvariant

variable {config : RouterConfig} {ordered guarded : Prop} {r r' : Router} {p t : Nat}

/-- The parts that the invariant is about, beside the time. -/
def parts : List Part := [.mesh, .topics, .peers, .backoff, .grafts]

/-- What leaves these parts alone keeps the invariant, and time may go on. -/
theorem of_later {touched : List Part} (h : MeshInvariant config.toConfig ordered guarded r)
    (hagrees : Router.Agrees touched r r') (hdisjoint : ∀ part ∈ parts, part ∉ touched)
    (hclock : ordered → r.lastDriveUs ≤ r'.lastDriveUs) :
    MeshInvariant config.toConfig ordered guarded r' := by
  have hmesh : r'.mesh = r.mesh := hagrees.eq .mesh (hdisjoint _ (by decide))
  have htopics : r'.topics = r.topics := hagrees.eq .topics (hdisjoint _ (by decide))
  have hbackoff : r'.backoff = r.backoff := hagrees.eq .backoff (hdisjoint _ (by decide))
  have hgrafts : r'.history.grafts = r.history.grafts :=
    hagrees.eq .grafts (hdisjoint _ (by decide))
  have hpeer : ∀ p, (r'.peers p).used = (r.peers p).used ∧
      (r'.peers p).stream = (r.peers p).stream := by
    intro p
    have hpart : Part.peers ∉ touched := hdisjoint _ (by decide)
    exact ⟨hagrees.peer hpart p Peer.used fun _ => rfl, hagrees.peer hpart p Peer.stream fun _ => rfl⟩
  refine ⟨?_, ?_, ?_, ?_, ?_, ?_, ?_, ?_⟩
  · rw [hmesh]; exact h.nodup
  · rw [hmesh]; exact h.counted
  · intro p t hmem
    rw [hmesh] at hmem
    rw [(hpeer p).1]
    exact h.peer p t hmem
  · rw [hmesh, htopics]; exact h.topic
  · rw [htopics]; exact h.used
  · intro hordered p t hmem
    rw [hmesh] at hmem
    rw [backoffActive_congr hbackoff]
    exact backoffActive_of_le (hclock hordered) (h.excluded hordered p t hmem)
  · rw [hgrafts]; exact h.grafts
  · intro hguarded p t hmem
    rw [hmesh] at hmem
    rw [(hpeer p).2]
    exact h.writer hguarded p t hmem

theorem of_agrees {touched : List Part} (h : MeshInvariant config.toConfig ordered guarded r)
    (hagrees : Router.Agrees touched r r') (hdisjoint : ∀ part ∈ .clock :: parts, part ∉ touched) :
    MeshInvariant config.toConfig ordered guarded r' := by
  apply h.of_later hagrees fun part hpart => hdisjoint part (List.mem_cons_of_mem _ hpart)
  intro _
  exact Nat.le_of_eq (hagrees.lastDriveUs (hdisjoint _ List.mem_cons_self)).symm

/-- A computation that leaves these parts alone keeps the invariant. -/
theorem of_touches {α : Type} {touched : List Part} {c : RouterM α} (hc : Touches touched c)
    (hdisjoint : ∀ part ∈ .clock :: parts, part ∉ touched) :
    Comp.Keeps (MeshInvariant config.toConfig ordered guarded) c :=
  hc.keeps fun _ _ hagrees h => of_agrees h hagrees hdisjoint

theorem of_run {α : Type} {touched : List Part} {c : RouterM α} {res : Except GossipsubErr α}
    (h : MeshInvariant config.toConfig ordered guarded r) (hrun : c r = (res, r'))
    (hc : Touches touched c) (hdisjoint : ∀ part ∈ .clock :: parts, part ∉ touched) :
    MeshInvariant config.toConfig ordered guarded r' := by
  have hkeeps := of_touches hc hdisjoint r h
  rwa [hrun] at hkeeps

theorem fillCandidate_backoff (h : fillCandidate config.toConfig r t p = true) :
    backoffActive config.toConfig r p t r.lastDriveUs = false := by
  unfold fillCandidate at h
  simp only [Bool.and_eq_true] at h
  simpa using h.2

theorem fillCandidate_writer (h : fillCandidate config.toConfig r t p = true) :
    (r.peers p).stream.isSome = true := by
  unfold fillCandidate Router.isWriter at h
  simp only [Bool.and_eq_true] at h
  exact h.1.1.1.2

variable (h : MeshInvariant config.toConfig ordered guarded r)

include h

/-- Pairs may go. -/
theorem shrink {mesh : Mesh} (hshrinks : r.mesh.Shrinks config.toConfig mesh) :
    MeshInvariant config.toConfig ordered guarded { r with mesh := mesh } := by
  have hsub := hshrinks.subperm.subset
  rcases hshrinks.subperm with ⟨left, hperm, hsublist⟩
  exact
    { nodup := hperm.nodup_iff.mp (hsublist.nodup h.nodup)
      counted := hshrinks.counted h.counted
      peer := fun p t hmem => h.peer p t (hsub hmem)
      topic := fun p t hmem => h.topic p t (hsub hmem)
      used := h.used
      excluded := fun hordered p t hmem => h.excluded hordered p t (hsub hmem)
      grafts := h.grafts
      writer := fun hguarded p t hmem => h.writer hguarded p t (hsub hmem) }

theorem meshRemove (p t : Nat) :
    MeshInvariant config.toConfig ordered guarded (meshRemove config.toConfig p t r) := by
  rw [meshRemove_eq]
  exact h.shrink (meshRemove_shrinks config p t r)

/-- A pair may come when it meets the invariant. -/
theorem meshAdd (hlocal : (r.topics t).localSubscribed = true)
    (hbackoff : ordered → backoffActive config.toConfig r p t r.lastDriveUs = false)
    (hwriter : guarded → (r.peers p).stream.isSome) :
    MeshInvariant config.toConfig ordered guarded (meshAdd config.toConfig p t r).2 := by
  rcases meshAdd_spec config p t r with hsame | ⟨hp, ht, hpused, -, hnot, i, hi, hfree, hadd⟩
  · rwa [hsame]
  · rw [hadd]
    have hperm : ((r.mesh.insert i p t).pairs config.toConfig).Perm
        ((p, t) :: r.mesh.pairs config.toConfig) := Mesh.insert_pairs hi hfree
    have hmem : ∀ {q u}, (q, u) ∈ (r.mesh.insert i p t).pairs config.toConfig →
        (q, u) = (p, t) ∨ (q, u) ∈ r.mesh.pairs config.toConfig := by
      intro q u hqu
      exact List.mem_cons.mp (hperm.subset hqu)
    refine ⟨?_, Mesh.insert_counted h.counted hi hfree, ?_, ?_, h.used, ?_, h.grafts, ?_⟩
    · exact hperm.nodup_iff.mpr (List.nodup_cons.mpr ⟨hnot, h.nodup⟩)
    · intro q u hqu
      rcases hmem hqu with heq | hold
      · cases heq
        exact ⟨hp, hpused⟩
      · exact h.peer q u hold
    · intro q u hqu
      rcases hmem hqu with heq | hold
      · cases heq
        exact ⟨ht, hlocal⟩
      · exact h.topic q u hold
    · intro hordered q u hqu
      rcases hmem hqu with heq | hold
      · cases heq
        exact hbackoff hordered
      · exact h.excluded hordered q u hold
    · intro hguarded q u hqu
      rcases hmem hqu with heq | hold
      · cases heq
        exact hwriter hguarded
      · exact h.writer hguarded q u hold

/-- A pair outside of the mesh may get a backoff. -/
theorem setBackoff (hnot : ordered → (p, t) ∉ r.mesh.pairs config.toConfig) (i expiresUs : Nat) :
    MeshInvariant config.toConfig ordered guarded (r.setBackoff i ⟨true, p, t, expiresUs⟩) := by
  refine ⟨h.nodup, h.counted, h.peer, h.topic, h.used, ?_, h.grafts, h.writer⟩
  intro hordered q u hqu
  refine setBackoff_other ?_ (h.excluded hordered q u hqu)
  intro heq
  exact hnot hordered (heq ▸ hqu)

theorem backoffAdd (hnot : ordered → (p, t) ∉ r.mesh.pairs config.toConfig)
    (intervalUs nowUs : Nat) :
    MeshInvariant config.toConfig ordered guarded
      (backoffAdd config.toConfig p t intervalUs nowUs r).2 := by
  rcases backoffAdd_spec config.toConfig p t intervalUs nowUs r with hspec | ⟨-, i, e, hspec⟩
  · rwa [hspec]
  · rw [hspec]
    exact h.setBackoff hnot i e

/-- A pair that leaves the mesh may get a backoff. -/
theorem meshRemove_backoffAdd (p t intervalUs nowUs : Nat) :
    MeshInvariant config.toConfig ordered guarded
      (Gossipsub.meshRemove config.toConfig p t
        (Gossipsub.backoffAdd config.toConfig p t intervalUs nowUs r).2) := by
  have hremove := h.meshRemove p t
  have hnot := meshRemove_not_mem config p t h.nodup
  rcases backoffAdd_spec config.toConfig p t intervalUs nowUs r with hspec | ⟨-, i, e, hspec⟩
  · rwa [hspec]
  · rw [hspec]
    have hcommute : Gossipsub.meshRemove config.toConfig p t (r.setBackoff i ⟨true, p, t, e⟩) =
        (Gossipsub.meshRemove config.toConfig p t r).setBackoff i ⟨true, p, t, e⟩ := by
      unfold Gossipsub.meshRemove
      dsimp only [Router.setBackoff]
      cases findSlot config.capacity.maxMeshEdges fun i => (r.mesh.edges i).joins p t <;> rfl
    rw [hcommute]
    exact hremove.setBackoff (fun _ => hnot) i e

/-! ## Filling and trimming -/

theorem recordGraft (hbackoff : backoffActive config.toConfig r p t r.lastDriveUs = false) :
    MeshInvariant config.toConfig ordered guarded (recordGraft config.toConfig p t r) := by
  refine ⟨h.nodup, h.counted, h.peer, h.topic, h.used, h.excluded, ?_, h.writer⟩
  intro graft hgraft
  rcases List.mem_append.mp hgraft with hold | hnew
  · exact h.grafts graft hold
  · rw [List.mem_singleton.mp hnew]
    exact hbackoff

/-- A GRAFT may be queued for a pair that is not in backoff. -/
theorem enqueueGraft (hbackoff : backoffActive config.toConfig r p t r.lastDriveUs = false) :
    MeshInvariant config.toConfig ordered guarded
      (enqueueGraft config.toConfig p t r).2 := by
  unfold Gossipsub.enqueueGraft
  rw [Comp.read_id_bind]
  refine Comp.after_bind (fun e r' hrun => ?_) fun _ r' hrun => ?_
  · exact h.of_run hrun (enqueueRpc_touches ..) (by decide)
  · have hagrees := (enqueueRpc_touches ..).of_run hrun
    have hdrive := hagrees.lastDriveUs (by decide)
    apply (h.of_run hrun (enqueueRpc_touches ..) (by decide)).recordGraft
    rw [hdrive, backoffActive_congr (hagrees.eq .backoff (by decide))]
    exact hbackoff

/-- A candidate may join, and leaves again when its GRAFT cannot be queued. -/
theorem meshFillPeer (hlocal : (r.topics t).localSubscribed = true)
    (hcandidate : fillCandidate config.toConfig r t p = true) (queueGraft : Bool) :
    MeshInvariant config.toConfig ordered guarded
      (meshFillPeer config.toConfig t p queueGraft r).2 := by
  have hbackoff := fillCandidate_backoff hcandidate
  have hadd := h.meshAdd hlocal (fun _ => hbackoff) fun _ => fillCandidate_writer hcandidate
  unfold Gossipsub.meshFillPeer
  refine Comp.after_bind (fun e r' hrun => ?_) fun _ r' hrun => ?_
  · rwa [hrun] at hadd
  · rw [hrun] at hadd
    by_cases hqueue : queueGraft = true
    · rw [if_pos hqueue]
      have hagrees := (meshAdd_touches ..).of_run hrun
      have hdrive := hagrees.lastDriveUs (by decide)
      have hgraft := hadd.enqueueGraft (p := p) (t := t) (by
        rw [hdrive, backoffActive_congr (hagrees.eq .backoff (by decide))]
        exact hbackoff)
      refine Comp.after_bind (fun _ _ hresult => nomatch hresult) fun res s hresult => ?_
      cases hresult
      cases (Gossipsub.enqueueGraft config.toConfig p t r').1 with
      | ok _ => exact hgraft
      | error e => exact hgraft.meshRemove p t
    · rw [if_neg hqueue]
      exact hadd

theorem meshFillLoop (hlocal : (r.topics t).localSubscribed = true) (salt : UInt64)
    (queueGraft : Bool) (fuel : Nat) :
    MeshInvariant config.toConfig ordered guarded
      (meshFillLoop config.toConfig t salt queueGraft fuel r).2 := by
  induction fuel generalizing r with
  | zero => exact h
  | succ fuel ih =>
    unfold Gossipsub.meshFillLoop
    rw [Comp.read_id_bind]
    cases hbest : lowestRank config.toConfig r salt (fillCandidate config.toConfig r t) with
    | none => exact h
    | some p =>
      have hfill := h.meshFillPeer hlocal (lowestRank_some hbest).2 queueGraft
      refine Comp.after_bind (fun e r' hrun => ?_) fun _ r' hrun => ?_
      · rwa [hrun] at hfill
      · rw [hrun] at hfill
        have hagrees := (meshFillPeer_touches ..).of_run hrun
        apply ih hfill
        rw [show r'.topics = r.topics from hagrees.eq .topics (by decide)]
        exact hlocal

/-- `gossipsub_mesh_fill_topic` for a topic that is locally subscribed. -/
theorem meshFillTopic (hlocal : (r.topics t).localSubscribed = true) (target : Nat)
    (queueGraft : Bool) :
    MeshInvariant config.toConfig ordered guarded
      (meshFillTopic config.toConfig t target queueGraft r).2 := by
  unfold Gossipsub.meshFillTopic
  rw [Comp.read_id_bind]
  split
  · exact h
  · split
    · exact h
    · split
      · refine Comp.after_bind (fun e r' hrun => ?_) fun salt r' hrun => ?_
        · exact h.of_run hrun (randomU64_touches _) (by decide)
        · have hagrees := (randomU64_touches _).of_run hrun
          apply (h.of_run hrun (randomU64_touches _) (by decide)).meshFillLoop
          rw [show r'.topics = r.topics from hagrees.eq .topics (by decide)]
          exact hlocal
      · exact h

theorem meshTrimPeer (p : Nat) (queuePrune : Bool) :
    MeshInvariant config.toConfig ordered guarded
      (meshTrimPeer config.toConfig t p queuePrune r).2 := by
  unfold Gossipsub.meshTrimPeer
  dsimp only
  by_cases hqueue : queuePrune = true
  · rw [if_pos hqueue]
    rw [Comp.read_id_bind]
    refine Comp.after_bind (fun e r' hrun => ?_) fun _ r' hrun => ?_
    · exact h.of_run hrun (enqueueRpc_touches ..) (by decide)
    · have hprune := h.of_run hrun (enqueueRpc_touches ..) (by decide)
      refine Comp.after_bind (fun e r'' hbackoff => ?_) fun _ r'' hbackoff => ?_
      · have hsame := backoffAdd_error (congrArg Prod.fst hbackoff)
        rw [hbackoff] at hsame
        subst hsame
        exact hprune
      · have hremove := hprune.meshRemove_backoffAdd p t config.mesh.pruneBackoffUs r.lastDriveUs
        change MeshInvariant _ _ _ (Gossipsub.meshRemove config.toConfig p t
          (Gossipsub.backoffAdd config.toConfig p t _ r.lastDriveUs r').2) at hremove
        rwa [show (Gossipsub.backoffAdd config.toConfig p t config.mesh.pruneBackoffUs
          r.lastDriveUs r').2 = r'' from congrArg Prod.snd hbackoff] at hremove
  · rw [if_neg hqueue]
    exact h.meshRemove p t

theorem meshTrimLoop (salt : UInt64) (queuePrune : Bool) (fuel : Nat) :
    MeshInvariant config.toConfig ordered guarded
      (meshTrimLoop config.toConfig t salt queuePrune fuel r).2 := by
  induction fuel generalizing r with
  | zero => exact h
  | succ fuel ih =>
    unfold Gossipsub.meshTrimLoop
    rw [Comp.read_id_bind]
    cases lowestRank config.toConfig r salt fun p => meshContains config.toConfig r p t with
    | none => exact h
    | some p =>
      have htrim := h.meshTrimPeer (t := t) p queuePrune
      refine Comp.after_bind (fun e r' hrun => ?_) fun _ r' hrun => ?_
      · rwa [hrun] at htrim
      · rw [hrun] at htrim
        exact ih htrim

omit h

/-- `gossipsub_mesh_trim_topic`. -/
theorem meshTrimTopic (t target : Nat) (queuePrune : Bool) :
    Comp.Keeps (MeshInvariant config.toConfig ordered guarded)
      (meshTrimTopic config.toConfig t target queuePrune) := by
  refine .bind (.read _) fun r => .ite (fun _ => .fail _) fun _ =>
    .ite (fun _ => .bind ?_ fun salt => ?_) fun _ => .pure _
  · exact of_touches (randomU64_touches _) (by decide)
  · exact fun r h => h.meshTrimLoop salt queuePrune _

/-- `gossipsub_mesh_heartbeat`. -/
theorem meshHeartbeat : Comp.Keeps (MeshInvariant config.toConfig ordered guarded)
    (meshHeartbeat config.toConfig) := by
  refine .forOk fun t _ => fun r h => ?_
  rw [Comp.read_id_bind]
  split
  · rename_i hlocal
    split
    · exact h.meshFillTopic hlocal.2 _ true
    · split
      · exact meshTrimTopic t _ true r h
      · exact h
  · exact h

end MeshInvariant

end LeanLibp2p.Gossipsub
