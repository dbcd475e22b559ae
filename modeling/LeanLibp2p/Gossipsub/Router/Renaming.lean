import LeanLibp2p.Gossipsub.Router.Gossiping
import LeanLibp2p.Gossipsub.Tx.Renaming
import LeanLibp2p.Lib.Mirror

/-!
# Choosing peers under a renaming

The choices of `gossipsub_state.c` go by the ids of the peers. When a permutation moves the peers to
other slots, and every table that names a slot follows, the same peers are chosen.
-/

namespace LeanLibp2p.Gossipsub

open LeanLibp2p.Lib

/-! ## The tables of the renamed peers -/

def PeerTopic.rename (σ : Equiv.Perm Nat) (edge : PeerTopic) : PeerTopic :=
  if edge.used then { edge with peerIndex := σ edge.peerIndex } else edge

def MeshEdge.rename (σ : Equiv.Perm Nat) (edge : MeshEdge) : MeshEdge :=
  if edge.used then { edge with peerIndex := σ edge.peerIndex } else edge

def Mesh.rename (σ : Equiv.Perm Nat) (mesh : Mesh) : Mesh where
  edges := fun i => (mesh.edges i).rename σ
  peerCount := mesh.peerCount

def Backoff.rename (σ : Equiv.Perm Nat) (backoff : Backoff) : Backoff :=
  if backoff.used then { backoff with peerIndex := σ backoff.peerIndex } else backoff

/-- The second router is the first one with peer `p` in slot `σ p`, as far as the choice of peers
    and the sending to them read the state. -/
structure Renamed (σ : Equiv.Perm Nat) (r r' : Router) : Prop where
  peers : ∀ p, r'.peers (σ p) = r.peers p
  peerTopics : ∀ i, r'.peerTopics i = (r.peerTopics i).rename σ
  mesh : r'.mesh = r.mesh.rename σ
  backoff : ∀ i, r'.backoff i = (r.backoff i).rename σ
  tx : r'.tx = r.tx.rename σ r'.tx.nextPeer
  topics : r'.topics = r.topics
  mcache : r'.mcache = r.mcache
  randomCalls : r'.randomCalls = r.randomCalls
  lastDriveUs : r'.lastDriveUs = r.lastDriveUs
  nextHeartbeatUs : r'.nextHeartbeatUs = r.nextHeartbeatUs

/-- A router with every peer in its new slot. -/
def Router.rename (σ : Equiv.Perm Nat) (r : Router) : Router :=
  { r with
    peers := fun p => r.peers (σ.symm p)
    peerTopics := fun i => (r.peerTopics i).rename σ
    mesh := r.mesh.rename σ
    backoff := fun i => (r.backoff i).rename σ
    tx := r.tx.rename σ r.tx.nextPeer }

theorem Router.rename_renamed (σ : Equiv.Perm Nat) (r : Router) : Renamed σ r (r.rename σ) where
  peers p := congrArg r.peers (σ.symm_apply_apply p)
  peerTopics _ := rfl
  mesh := rfl
  backoff _ := rfl
  tx := rfl
  topics := rfl
  mcache := rfl
  randomCalls := rfl
  lastDriveUs := rfl
  nextHeartbeatUs := rfl

/-- The peer is known to the router: its slot is used, or a mesh edge names it. -/
def Router.Knows (config : Config) (r : Router) (p : Nat) : Prop :=
  (r.peers p).used = true ∨
    ∃ i < config.capacity.maxMeshEdges, (r.mesh.edges i).used ∧ (r.mesh.edges i).peerIndex = p

/-- The peers that the router knows have different ids. -/
def DistinctIds (config : Config) (r : Router) : Prop :=
  ∀ p < config.capacity.maxPeers, ∀ q < config.capacity.maxPeers, r.Knows config p →
    r.Knows config q → (r.peers p).peerId = (r.peers q).peerId → p = q

section Tables

variable (σ : Equiv.Perm Nat)

@[simp] theorem PeerTopic.rename_used (edge : PeerTopic) :
    (edge.rename σ).used = edge.used := by
  unfold rename
  split <;> rfl

@[simp] theorem MeshEdge.rename_used (edge : MeshEdge) : (edge.rename σ).used = edge.used := by
  unfold rename
  split <;> rfl

@[simp] theorem Backoff.rename_used (backoff : Backoff) :
    (backoff.rename σ).used = backoff.used := by
  unfold rename
  split <;> rfl

@[simp] theorem Backoff.rename_expiresUs (backoff : Backoff) :
    (backoff.rename σ).expiresUs = backoff.expiresUs := by
  unfold rename
  split <;> rfl

@[simp] theorem MeshEdge.rename_joins (edge : MeshEdge) (p t : Nat) :
    (edge.rename σ).joins (σ p) t = edge.joins p t := by
  unfold joins rename
  split
  · simp [σ.injective.eq_iff]
  · simp_all

@[simp] theorem Backoff.rename_concerns (backoff : Backoff) (p t : Nat) :
    (backoff.rename σ).concerns (σ p) t = backoff.concerns p t := by
  unfold concerns rename
  split
  · simp [σ.injective.eq_iff]
  · simp_all

@[simp] theorem Mesh.rename_edges (mesh : Mesh) (i : Nat) :
    (mesh.rename σ).edges i = (mesh.edges i).rename σ := rfl

@[simp] theorem MeshEdge.rename_topicIndex (edge : MeshEdge) :
    (edge.rename σ).topicIndex = edge.topicIndex := by
  unfold rename
  split <;> rfl

theorem Mesh.rename_insert (mesh : Mesh) (i p t : Nat) :
    (mesh.rename σ).insert i (σ p) t = (mesh.insert i p t).rename σ := by
  unfold insert rename
  congr 1
  funext j
  by_cases hj : j = i
  · subst hj
    simp [MeshEdge.rename]
  · simp [Function.update_of_ne hj]

theorem Mesh.rename_clear (mesh : Mesh) (i : Nat) :
    (mesh.rename σ).clear i = (mesh.clear i).rename σ := by
  unfold clear rename
  congr 1
  funext j
  by_cases hj : j = i
  · subst hj
    simp [MeshEdge.rename, MeshEdge.free]
  · simp [Function.update_of_ne hj]

end Tables

namespace Renamed

variable {config : Config} {σ : Equiv.Perm Nat} {r r' : Router}

/-! ## What the choices read -/

variable (h : Renamed σ r r')

include h

theorem isWriter (p : Nat) : r'.isWriter (σ p) = r.isWriter p := by
  unfold Router.isWriter
  rw [h.peers]

theorem peerSubscribed (p t : Nat) :
    peerSubscribed config r' (σ p) t = Gossipsub.peerSubscribed config r p t := by
  unfold Gossipsub.peerSubscribed
  congr 2
  funext i
  rw [h.peerTopics, PeerTopic.rename]
  split
  · simp [σ.injective.eq_iff]
  · simp_all

theorem meshContains (p t : Nat) :
    meshContains config r' (σ p) t = Gossipsub.meshContains config r p t := by
  simp [Gossipsub.meshContains, h.mesh]

theorem meshCountTopic (t : Nat) :
    meshCountTopic config r' t = Gossipsub.meshCountTopic config r t := by
  simp [Gossipsub.meshCountTopic, h.mesh]

theorem backoffActive (hσ : Permutes σ config.capacity.maxPeers) (p t nowUs : Nat) :
    backoffActive config r' (σ p) t nowUs = Gossipsub.backoffActive config r p t nowUs := by
  simp [Gossipsub.backoffActive, hσ p, h.backoff]

theorem backoffEarliest :
    backoffEarliest config r' = Gossipsub.backoffEarliest config r := by
  simp [Gossipsub.backoffEarliest, h.backoff]

theorem fillCandidate (hσ : Permutes σ config.capacity.maxPeers) (t p : Nat) :
    fillCandidate config r' t (σ p) = Gossipsub.fillCandidate config r t p := by
  unfold Gossipsub.fillCandidate
  rw [h.isWriter, h.peerSubscribed, h.meshContains, h.lastDriveUs, h.backoffActive hσ]

theorem peerGossipEligible (t p : Nat) :
    peerGossipEligible config r' t (σ p) = Gossipsub.peerGossipEligible config r t p := by
  unfold Gossipsub.peerGossipEligible
  rw [h.isWriter, h.peers, h.peerSubscribed, h.meshContains]

theorem txEffectiveNowUs :
    txEffectiveNowUs r' = Gossipsub.txEffectiveNowUs r := by
  unfold Gossipsub.txEffectiveNowUs
  rw [h.lastDriveUs, h.nextHeartbeatUs]

omit h in
/-- As many slots meet a condition as renamed slots meet the renamed condition. -/
theorem countP_range (hσ : Permutes σ config.capacity.maxPeers) {f f' : Nat → Bool}
    (hf : ∀ p, f' (σ p) = f p) :
    (List.range config.capacity.maxPeers).countP f' =
      (List.range config.capacity.maxPeers).countP f := by
  have hperm : ((List.range config.capacity.maxPeers).map σ).Perm
      (List.range config.capacity.maxPeers) := by
    apply (List.perm_ext_iff_of_nodup (List.nodup_range.map σ.injective) List.nodup_range).mpr
    intro q
    rw [List.mem_map, List.mem_range]
    constructor
    · rintro ⟨p, hp, rfl⟩
      exact (hσ p).mpr (List.mem_range.mp hp)
    · intro hq
      refine ⟨σ.symm q, List.mem_range.mpr ((hσ _).mp ?_), σ.apply_symm_apply q⟩
      rwa [σ.apply_symm_apply]
  rw [← hperm.countP_eq, List.countP_map]
  exact congrArg (fun g => List.countP g _) (funext hf)

/-- The choice of the candidate with the lowest rank: the renamed candidates yield the renamed
    choice. -/
theorem lowestRank (hd : DistinctIds config r) (hσ : Permutes σ config.capacity.maxPeers)
    {candidate candidate' : Nat → Bool} (salt : UInt64)
    (hcandidate : ∀ p < config.capacity.maxPeers, candidate' (σ p) = candidate p)
    (hknown : ∀ p, candidate p = true → r.Knows config p) :
    lowestRank config r' salt candidate' =
      (Gossipsub.lowestRank config r salt candidate).map σ := by
  rw [lowestRank_eq, lowestRank_eq]
  apply least_map (ranksBefore_strictTotal r salt) (ranksBefore_strictTotal r' salt)
  · intro p hp hc
    rw [List.mem_range] at hp ⊢
    exact ⟨(hσ p).mpr hp, by rwa [hcandidate p hp]⟩
  · intro q hq hc
    rw [List.mem_range] at hq
    have hp : σ.symm q < config.capacity.maxPeers := by
      rw [← hσ, σ.apply_symm_apply]
      exact hq
    refine ⟨σ.symm q, List.mem_range.mpr hp, ?_, σ.apply_symm_apply q⟩
    rwa [← hcandidate _ hp, σ.apply_symm_apply]
  · intro p hp q hq hcp hcq hbefore
    rw [List.mem_range] at hp hq
    have hne : (r.peers p).peerId ≠ (r.peers q).peerId := by
      intro heq
      rw [hd p hp q hq (hknown p hcp) (hknown q hcq) heq,
        (ranksBefore_strictTotal r salt).irrefl] at hbefore
      cases hbefore
    exact (ranksBefore_congr (by rw [h.peers]) (by rw [h.peers]) hne).mpr hbefore

end Renamed

theorem meshContains_knows {config : Config} {r : Router} {p t : Nat}
    (h : meshContains config r p t = true) : r.Knows config p := by
  unfold meshContains at h
  obtain ⟨i, hi⟩ := Option.isSome_iff_exists.mp h
  obtain ⟨hlow, hjoins⟩ := findSlot_some hi
  simp only [MeshEdge.joins, Bool.and_eq_true, decide_eq_true_eq] at hjoins
  exact .inr ⟨i, hlow, hjoins.1.1, hjoins.1.2⟩

theorem isWriter_knows {config : Config} {r : Router} {p : Nat} (h : r.isWriter p = true) :
    r.Knows config p := by
  simp only [Router.isWriter, Bool.and_eq_true] at h
  exact .inl h.1

/-! ## The operations -/

section Operations

variable {config : Config} {σ : Equiv.Perm Nat} {p t : Nat}

variable (hσ : Permutes σ config.capacity.maxPeers)

include hσ

theorem meshAdd_mirrors :
    Comp.Mirrors (Renamed σ) (meshAdd config p t) (meshAdd config (σ p) t) := by
  intro r r' h
  have hrange : config.capacity.maxPeers ≤ σ p ↔ config.capacity.maxPeers ≤ p := by
    rw [← not_lt, ← not_lt, hσ p]
  unfold Comp.MirrorsAt meshAdd
  simp only [hrange, h.peers, h.topics, h.meshContains]
  split
  · exact ⟨rfl, h⟩
  split
  · exact ⟨rfl, h⟩
  split
  · exact ⟨rfl, h⟩
  simp only [h.mesh, Mesh.rename_edges, MeshEdge.rename_used]
  cases findSlot config.capacity.maxMeshEdges fun i => !(r.mesh.edges i).used with
  | none => exact ⟨rfl, h⟩
  | some i => exact ⟨rfl, { h with mesh := Mesh.rename_insert σ r.mesh i p t, topics := rfl }⟩

omit hσ in
theorem meshRemove_mirrors :
    Comp.Mirrors (Renamed σ) (Comp.update (meshRemove config p t) : RouterM Unit)
      (Comp.update (meshRemove config (σ p) t)) := by
  apply Comp.Mirrors.update
  intro r r' h
  unfold meshRemove
  simp only [h.mesh, Mesh.rename_edges, MeshEdge.rename_joins]
  cases findSlot config.capacity.maxMeshEdges fun i => (r.mesh.edges i).joins p t with
  | none => exact h
  | some i => exact { h with mesh := Mesh.rename_clear σ r.mesh i }

omit hσ in
/-- The entry of the renamed peer in the place of the peer's entry. -/
theorem Renamed.setBackoff {r r' : Router} (h : Renamed σ r r') (i expiresUs : Nat) :
    Renamed σ (r.setBackoff i ⟨true, p, t, expiresUs⟩)
      (r'.setBackoff i ⟨true, σ p, t, expiresUs⟩) := by
  refine { h with backoff := fun j => ?_ }
  unfold Router.setBackoff
  dsimp only
  by_cases hj : j = i
  · subst hj
    simp [Backoff.rename]
  · rw [Function.update_of_ne hj, Function.update_of_ne hj]
    exact h.backoff j

theorem backoffAdd_mirrors (intervalUs nowUs : Nat) :
    Comp.Mirrors (Renamed σ) (backoffAdd config p t intervalUs nowUs)
      (backoffAdd config (σ p) t intervalUs nowUs) := by
  intro r r' h
  have hrange : config.capacity.maxPeers ≤ σ p ↔ config.capacity.maxPeers ≤ p := by
    rw [← not_lt, ← not_lt, hσ p]
  unfold Comp.MirrorsAt backoffAdd
  simp only [hrange, h.backoff, Backoff.rename_concerns, Backoff.rename_used,
    Backoff.rename_expiresUs, h.backoffEarliest]
  split
  · exact ⟨rfl, h⟩
  cases findSlot config.capacity.maxBackoffEntries fun i => (r.backoff i).concerns p t with
  | some i =>
    dsimp only
    split
    · exact ⟨rfl, h.setBackoff ..⟩
    · exact ⟨rfl, h⟩
  | none =>
    cases findSlot config.capacity.maxBackoffEntries fun i => !(r.backoff i).used with
    | some i => exact ⟨rfl, h.setBackoff ..⟩
    | none =>
      cases Gossipsub.backoffEarliest config r with
      | some i => exact ⟨rfl, h.setBackoff ..⟩
      | none => exact ⟨rfl, h⟩

omit hσ in
theorem randomU64_mirrors : Comp.Mirrors (Renamed σ) (randomU64 config) (randomU64 config) := by
  intro r r' h
  unfold Comp.MirrorsAt randomU64
  rw [h.randomCalls]
  exact ⟨rfl, { h with randomCalls := rfl }⟩

theorem enqueueRpc_mirrors (rpc : Rpc) (lifetimeUs : Nat) (priority : Bool) :
    Comp.Mirrors (Renamed σ) (enqueueRpc config p rpc lifetimeUs priority)
      (enqueueRpc config (σ p) rpc lifetimeUs priority) := by
  intro r r' h
  unfold Comp.MirrorsAt enqueueRpc
  dsimp only
  rw [h.tx, h.txEffectiveNowUs, enqueueRpcWithLifetime_rename hσ h.peers]
  exact ⟨rfl, { h with tx := rfl }⟩

theorem enqueueGraft_mirrors :
    Comp.Mirrors (Renamed σ) (enqueueGraft config p t) (enqueueGraft config (σ p) t) := by
  apply Comp.Mirrors.read_bind
  intro r r' h
  dsimp only
  rw [h.topics]
  refine (enqueueRpc_mirrors hσ _ 0 true).bind (fun _ => ?_) r r' h
  exact .update fun r r' h => { h with }

theorem enqueueIhave_mirrors (topic : Topic) (entries : List McacheEntry) :
    Comp.Mirrors (Renamed σ) (enqueueIhave config p topic entries)
      (enqueueIhave config (σ p) topic entries) := by
  refine .ite (.fail _) ((enqueueRpc_mirrors hσ _ _ false).bind fun _ => ?_)
  exact .update fun r r' h => { h with }

theorem enqueuePrune_mirrors (topic : Topic) :
    Comp.Mirrors (Renamed σ) (enqueuePrune config p topic) (enqueuePrune config (σ p) topic) :=
  enqueueRpc_mirrors hσ _ 0 true

end Operations

/-! ## The rounds of the loops -/

section Rounds

variable {config : Config} {σ : Equiv.Perm Nat} {p t : Nat}

theorem meshFillPeer_mirrors (hσ : Permutes σ config.capacity.maxPeers) (queueGraft : Bool) :
    Comp.Mirrors (Renamed σ) (meshFillPeer config t p queueGraft)
      (meshFillPeer config t (σ p) queueGraft) := by
  refine (meshAdd_mirrors hσ).bind fun _ => .ite ?_ (.pure _)
  refine (Comp.Mirrors.result (enqueueGraft_mirrors hσ)).bind fun res => ?_
  cases res with
  | ok _ => exact .pure _
  | error e => exact meshRemove_mirrors.bind fun _ => .fail e

theorem meshTrimPeer_mirrors (hσ : Permutes σ config.capacity.maxPeers) (queuePrune : Bool) :
    Comp.Mirrors (Renamed σ) (meshTrimPeer config t p queuePrune)
      (meshTrimPeer config t (σ p) queuePrune) := by
  refine .ite (.read_bind fun r r' h => ?_) meshRemove_mirrors
  rw [h.topics, h.lastDriveUs]
  exact ((enqueuePrune_mirrors hσ _).bind fun _ =>
    (backoffAdd_mirrors hσ _ _).bind fun _ => meshRemove_mirrors) r r' h

/-- Peers keep their ids while the router comes to know no further ones. -/
theorem DistinctIds.of_knows {r r₁ : Router} (h : DistinctIds config r)
    (hids : ∀ p, (r₁.peers p).peerId = (r.peers p).peerId)
    (hknows : ∀ p, r₁.Knows config p → r.Knows config p) : DistinctIds config r₁ := by
  intro p hp q hq hkp hkq hid
  rw [hids, hids] at hid
  exact h p hp q hq (hknows p hkp) (hknows q hkq) hid

theorem Router.Knows.of_agrees {touched : List Part} {r r₁ : Router} {p : Nat}
    (h : r.Knows config p) (hagrees : Router.Agrees touched r r₁) (hpeers : .peers ∉ touched)
    (hmesh : .mesh ∉ touched) : r₁.Knows config p := by
  have hm : r₁.mesh = r.mesh := hagrees.eq .mesh hmesh
  unfold Router.Knows at h ⊢
  rwa [hm, hagrees.peer hpeers p Peer.used fun _ => rfl]

theorem DistinctIds.of_agrees {touched : List Part} {r r₁ : Router} (h : DistinctIds config r)
    (hagrees : Router.Agrees touched r r₁) (hpeers : .peers ∉ touched) (hmesh : .mesh ∉ touched) :
    DistinctIds config r₁ := by
  refine h.of_knows (fun p => hagrees.peer hpeers p Peer.peerId fun _ => rfl) fun p hk => ?_
  have hback : Router.Agrees touched r₁ r := ⟨fun part hpart => (hagrees.eq part hpart).symm⟩
  exact hk.of_agrees hback hpeers hmesh

theorem keepsDistinct_of_touches {α : Type} {touched : List Part} {c : RouterM α}
    (htouches : Touches touched c) (hpeers : .peers ∉ touched) (hmesh : .mesh ∉ touched) :
    Comp.Keeps (DistinctIds config) c :=
  fun r h => h.of_agrees (htouches.agrees r) hpeers hmesh

theorem meshAdd_keepsDistinct : Comp.Keeps (DistinctIds config) (meshAdd config p t) := by
  intro r h
  unfold meshAdd
  split
  · exact h
  split
  · exact h
  split
  · exact h
  rename_i hused _
  cases findSlot config.capacity.maxMeshEdges fun i => !(r.mesh.edges i).used with
  | none => exact h
  | some i =>
    refine h.of_knows (fun _ => rfl) fun q hk => ?_
    rcases hk with hq | ⟨j, hj, hedge⟩
    · exact .inl hq
    · by_cases hji : j = i
      · subst hji
        -- The edge added is one of a used peer.
        simp only [Mesh.insert, Function.update_self] at hedge
        obtain ⟨-, rfl⟩ := hedge
        exact .inl (by simpa using fun hfree => hused (.inl hfree))
      · simp only [Mesh.insert, Function.update_of_ne hji] at hedge
        exact .inr ⟨j, hj, hedge⟩

theorem meshRemove_keepsDistinct :
    Comp.Keeps (DistinctIds config) (Comp.update (meshRemove config p t) : RouterM Unit) := by
  intro r h
  unfold meshRemove
  rw [Comp.update_apply]
  dsimp only
  cases findSlot config.capacity.maxMeshEdges fun i => (r.mesh.edges i).joins p t with
  | none => exact h
  | some i =>
    refine h.of_knows (fun _ => rfl) fun q hk => ?_
    rcases hk with hq | ⟨j, hj, hedge⟩
    · exact .inl hq
    · by_cases hji : j = i
      · subst hji
        simp [Mesh.clear, MeshEdge.free] at hedge
      · simp only [Mesh.clear, Function.update_of_ne hji] at hedge
        exact .inr ⟨j, hj, hedge⟩

theorem meshFillPeer_keepsDistinct (queueGraft : Bool) :
    Comp.Keeps (DistinctIds config) (meshFillPeer config t p queueGraft) := by
  refine meshAdd_keepsDistinct.bind fun _ => .ite (fun _ => ?_) fun _ => .pure _
  have hgraft : Comp.Keeps (DistinctIds config) (enqueueGraft config p t) :=
    keepsDistinct_of_touches (enqueueGraft_touches config p t) (by decide) (by decide)
  refine (Comp.Keeps.result hgraft).bind fun res => ?_
  cases res with
  | ok _ => exact .pure _
  | error e => exact meshRemove_keepsDistinct.bind fun _ => .fail e

theorem meshTrimPeer_keepsDistinct (queuePrune : Bool) :
    Comp.Keeps (DistinctIds config) (meshTrimPeer config t p queuePrune) := by
  refine .ite (fun _ => .read_bind fun r h => ?_) fun _ => meshRemove_keepsDistinct
  have hprune : Comp.Keeps (DistinctIds config) (enqueuePrune config p (r.topics t)) :=
    keepsDistinct_of_touches (enqueuePrune_touches ..) (by decide) (by decide)
  have hbackoff : Comp.Keeps (DistinctIds config)
      (backoffAdd config p t config.mesh.pruneBackoffUs r.lastDriveUs) :=
    keepsDistinct_of_touches (backoffAdd_touches ..) (by decide) (by decide)
  exact (hprune.bind fun _ => hbackoff.bind fun _ => meshRemove_keepsDistinct) r h

end Rounds

/-! ## The loops -/

section Loops

variable {config : Config} {σ : Equiv.Perm Nat} {t : Nat}

/-- Two states related by a renaming of peers with different ids. -/
def RenamedApart (config : Config) (σ : Equiv.Perm Nat) (r r' : Router) : Prop :=
  Renamed σ r r' ∧ DistinctIds config r

theorem meshFillLoop_mirrors (hσ : Permutes σ config.capacity.maxPeers) (salt : UInt64)
    (queueGraft : Bool) (fuel : Nat) :
    Comp.Mirrors (RenamedApart config σ) (meshFillLoop config t salt queueGraft fuel)
      (meshFillLoop config t salt queueGraft fuel) := by
  induction fuel with
  | zero => exact .pure ()
  | succ fuel ih =>
    apply Comp.Mirrors.read_bind
    intro r r' h
    have hchoice := h.1.lowestRank h.2 hσ salt (fun p _ => h.1.fillCandidate hσ t p) fun p hp => by
      simp only [fillCandidate, Bool.and_eq_true] at hp
      exact isWriter_knows hp.1.1.1
    rw [hchoice]
    cases lowestRank config r salt (fillCandidate config r t) with
    | none => exact Comp.Mirrors.pure () r r' h
    | some p =>
      have hround : Comp.Mirrors (RenamedApart config σ) (meshFillPeer config t p queueGraft)
          (meshFillPeer config t (σ p) queueGraft) :=
        (meshFillPeer_mirrors hσ queueGraft).and_keeps (meshFillPeer_keepsDistinct queueGraft)
      exact (hround.bind fun _ => ih) r r' h

theorem meshTrimLoop_mirrors (hσ : Permutes σ config.capacity.maxPeers) (salt : UInt64)
    (queuePrune : Bool) (fuel : Nat) :
    Comp.Mirrors (RenamedApart config σ) (meshTrimLoop config t salt queuePrune fuel)
      (meshTrimLoop config t salt queuePrune fuel) := by
  induction fuel with
  | zero => exact .pure ()
  | succ fuel ih =>
    apply Comp.Mirrors.read_bind
    intro r r' h
    have hmember : ∀ p < config.capacity.maxPeers,
        meshContains config r' (σ p) t = meshContains config r p t :=
      fun p _ => h.1.meshContains p t
    rw [h.1.lowestRank h.2 hσ salt hmember fun p hp => meshContains_knows hp]
    cases lowestRank config r salt fun p => meshContains config r p t with
    | none => exact Comp.Mirrors.pure () r r' h
    | some p =>
      have hround : Comp.Mirrors (RenamedApart config σ) (meshTrimPeer config t p queuePrune)
          (meshTrimPeer config t (σ p) queuePrune) :=
        (meshTrimPeer_mirrors hσ queuePrune).and_keeps (meshTrimPeer_keepsDistinct queuePrune)
      exact (hround.bind fun _ => ih) r r' h

/-- The next peer to gossip to is the renamed one. -/
theorem Renamed.gossipNextPeer {r r' : Router} (h : Renamed σ r r') (hd : DistinctIds config r)
    (hσ : Permutes σ config.capacity.maxPeers) (salt : UInt64) {previous : Option Nat}
    (hprevious : ∀ p ∈ previous, p < config.capacity.maxPeers ∧ r.Knows config p) :
    gossipNextPeer config r' t salt (previous.map σ) =
      (Gossipsub.gossipNextPeer config r t salt previous).map σ := by
  apply h.lowestRank hd hσ salt
  · intro p hp
    rw [h.peerGossipEligible]
    cases hc : Gossipsub.peerGossipEligible config r t p with
    | false => rfl
    | true =>
      have hk : r.Knows config p := by
        simp only [Gossipsub.peerGossipEligible, Bool.and_eq_true] at hc
        exact isWriter_knows hc.1.1.1
      cases previous with
      | none => rfl
      | some q =>
        obtain ⟨hq, hkq⟩ := hprevious q rfl
        by_cases hid : (r.peers q).peerId = (r.peers p).peerId
        · -- Neither comes behind itself.
          obtain rfl := hd q hq p hp hkq hk hid
          have hself := (ranksBefore_strictTotal r salt).irrefl q
          have hself' := (ranksBefore_strictTotal r' salt).irrefl (σ q)
          unfold ranksBefore at hself hself'
          simp [hself, hself']
        · have hsame : ranksBefore r' salt (σ q) (σ p) = true ↔ ranksBefore r salt q p = true :=
            ranksBefore_congr (by rw [h.peers]) (by rw [h.peers]) hid
          exact congrArg (true && ·) (Bool.eq_iff_iff.mpr hsame)
  · intro p hp
    simp only [Bool.and_eq_true, Gossipsub.peerGossipEligible] at hp
    exact isWriter_knows hp.1.1.1.1

theorem emitTopicGossipLoop_mirrors (hσ : Permutes σ config.capacity.maxPeers) (salt : UInt64)
    (entries : List McacheEntry) (fuel : Nat) {previous : Option Nat} {r r' : Router}
    (h : RenamedApart config σ r r')
    (hprevious : ∀ p ∈ previous, p < config.capacity.maxPeers ∧ r.Knows config p) :
    Comp.MirrorsAt (RenamedApart config σ)
      (emitTopicGossipLoop config t salt entries fuel previous)
      (emitTopicGossipLoop config t salt entries fuel (previous.map σ)) r r' := by
  induction fuel generalizing previous r r' with
  | zero => exact Comp.Mirrors.pure () r r' h
  | succ fuel ih =>
    unfold emitTopicGossipLoop
    change Comp.MirrorsAt _ (Comp.read id >>= _) (Comp.read id >>= _) r r'
    unfold Comp.MirrorsAt
    rw [Comp.read_id_bind, Comp.read_id_bind, h.1.gossipNextPeer h.2 hσ salt hprevious]
    cases hnext : gossipNextPeer config r t salt previous with
    | none => exact Comp.Mirrors.pure () r r' h
    | some p =>
      have hp := lowestRank_some hnext
      have hknows : r.Knows config p := by
        simp only [Bool.and_eq_true, peerGossipEligible] at hp
        exact isWriter_knows hp.2.1.1.1.1
      have hkeeps : Comp.Keeps (fun r => DistinctIds config r ∧ r.Knows config p)
          (enqueueIhave config p (r.topics t) entries) := by
        intro r₁ hI
        have hagrees := (enqueueIhave_touches config p (r.topics t) entries).agrees r₁
        exact ⟨hI.1.of_agrees hagrees (by decide) (by decide),
          hI.2.of_agrees hagrees (by decide) (by decide)⟩
      have hsend := (enqueueIhave_mirrors hσ (r.topics t) entries).and_keeps hkeeps r r'
        ⟨h.1, h.2, hknows⟩
      rw [← h.1.topics] at hsend ⊢
      refine hsend.bind (fun _ _ h => ⟨h.1, h.2.1⟩) fun _ r₁ r₁' h => ?_
      apply ih ⟨h.1, h.2.1⟩
      intro q hq
      obtain rfl := Option.mem_some.mp hq
      exact ⟨hp.1, h.2.2⟩

end Loops

/-! ## Whole topics -/

section Topics

variable {config : Config} {σ : Equiv.Perm Nat} {t : Nat}

theorem randomU64_mirrorsApart : Comp.Mirrors (RenamedApart config σ) (randomU64 config)
    (randomU64 config) :=
  randomU64_mirrors.and_keeps
    (keepsDistinct_of_touches (randomU64_touches config) (by decide) (by decide))

theorem meshFillTopic_mirrors (hσ : Permutes σ config.capacity.maxPeers) (target : Nat)
    (queueGraft : Bool) :
    Comp.Mirrors (RenamedApart config σ) (meshFillTopic config t target queueGraft)
      (meshFillTopic config t target queueGraft) := by
  apply Comp.Mirrors.read_bind
  intro r r' h
  rw [h.1.topics, h.1.meshCountTopic]
  refine Comp.Mirrors.ite (.fail _) (.ite (.fail _) (.ite ?_ (.pure ()))) r r' h
  exact randomU64_mirrorsApart.bind fun salt => meshFillLoop_mirrors hσ salt queueGraft _

theorem meshTrimTopic_mirrors (hσ : Permutes σ config.capacity.maxPeers) (target : Nat)
    (queuePrune : Bool) :
    Comp.Mirrors (RenamedApart config σ) (meshTrimTopic config t target queuePrune)
      (meshTrimTopic config t target queuePrune) := by
  apply Comp.Mirrors.read_bind
  intro r r' h
  rw [h.1.meshCountTopic]
  refine Comp.Mirrors.ite (.fail _) (.ite ?_ (.pure ())) r r' h
  exact randomU64_mirrorsApart.bind fun salt => meshTrimLoop_mirrors hσ salt queuePrune _

theorem Renamed.collectGossipIds {r r' : Router} (h : Renamed σ r r') (topic : Topic) :
    collectGossipIds config r' topic = Gossipsub.collectGossipIds config r topic := by
  unfold Gossipsub.collectGossipIds
  rw [h.mcache]

theorem emitTopicGossip_mirrors (hσ : Permutes σ config.capacity.maxPeers) :
    Comp.Mirrors (RenamedApart config σ) (emitTopicGossip config t)
      (emitTopicGossip config t) := by
  apply Comp.Mirrors.read_bind
  intro r r' h
  have heligible : gossipEligibleCount config r' t = gossipEligibleCount config r t :=
    Renamed.countP_range hσ fun p => h.1.peerGossipEligible t p
  dsimp only
  rw [h.1.topics, h.1.collectGossipIds, heligible]
  have hloop (salt : UInt64) (entries : List McacheEntry) (target : Nat) :
      Comp.Mirrors (RenamedApart config σ) (emitTopicGossipLoop config t salt entries target none)
        (emitTopicGossipLoop config t salt entries target none) := by
    intro r₁ r₁' h₁
    exact emitTopicGossipLoop_mirrors hσ salt entries target h₁ fun p hp => by cases hp
  exact Comp.Mirrors.ite (randomU64_mirrorsApart.bind fun salt => hloop salt _ _)
    (Comp.Mirrors.bind (.pure 0) fun salt => hloop salt _ _) r r' h

end Topics

/-! ## The peers chosen -/

/-- The ids of the peers that came into the mesh of a topic. -/
def meshJoined (config : Config) (t : Nat) (r r₁ : Router) : Set Bytes :=
  { id | ∃ p < config.capacity.maxPeers, (r.peers p).peerId = id ∧
    meshContains config r p t = false ∧ meshContains config r₁ p t = true }

/-- The ids of the peers that left the mesh of a topic. -/
def meshLeft (config : Config) (t : Nat) (r r₁ : Router) : Set Bytes :=
  { id | ∃ p < config.capacity.maxPeers, (r.peers p).peerId = id ∧
    meshContains config r p t = true ∧ meshContains config r₁ p t = false }

/-- The ids of the peers for which frames were queued. -/
def queuedFor (config : Config) (r r₁ : Router) : Set Bytes :=
  { id | ∃ p < config.capacity.maxPeers, (r.peers p).peerId = id ∧
    (r.tx.peer p).queueDepth < (r₁.tx.peer p).queueDepth }

/-- From both states the call ends alike and chooses peers with the same ids. -/
def ChoosesAlike (c : RouterM Unit) (chosen : Router → Router → Set Bytes) (r r' : Router) : Prop :=
  (c r').1 = (c r).1 ∧ chosen r' (c r').2 = chosen r (c r).2

section Choices

variable {config : Config} {σ : Equiv.Perm Nat} {r r' : Router}

/-- What is said about a slot in one state and of the renamed slot in the other is said about the
    same ids. -/
theorem Renamed.ids_eq (h : Renamed σ r r') (hσ : Permutes σ config.capacity.maxPeers)
    {chosen chosen' : Nat → Prop} (hchosen : ∀ p, chosen' (σ p) ↔ chosen p) :
    { id | ∃ p < config.capacity.maxPeers, (r'.peers p).peerId = id ∧ chosen' p } =
      { id | ∃ p < config.capacity.maxPeers, (r.peers p).peerId = id ∧ chosen p } := by
  ext id
  constructor
  · rintro ⟨q, hq, hid, hc⟩
    obtain ⟨p, rfl⟩ := σ.surjective q
    rw [h.peers] at hid
    exact ⟨p, (hσ p).mp hq, hid, (hchosen p).mp hc⟩
  · rintro ⟨p, hp, hid, hc⟩
    exact ⟨σ p, (hσ p).mpr hp, by rwa [h.peers], (hchosen p).mpr hc⟩

/-- The choices of peers go by their ids and not by their slots: after a permutation of the slots
    filling and trimming the mesh of a topic and gossiping about it choose the same peers. -/
theorem choices_ignore_slots (hσ : Permutes σ config.capacity.maxPeers) (h : Renamed σ r r')
    (hdistinct : DistinctIds config r) (t target : Nat) (queue : Bool) :
    ChoosesAlike (meshFillTopic config t target queue) (meshJoined config t) r r' ∧
      ChoosesAlike (meshTrimTopic config t target queue) (meshLeft config t) r r' ∧
      ChoosesAlike (emitTopicGossip config t) (queuedFor config) r r' := by
  refine ⟨?_, ?_, ?_⟩
  · obtain ⟨hres, hend, -⟩ := meshFillTopic_mirrors hσ target queue r r' ⟨h, hdistinct⟩
    refine ⟨hres, h.ids_eq hσ fun p => ?_⟩
    rw [h.meshContains, hend.meshContains]
  · obtain ⟨hres, hend, -⟩ := meshTrimTopic_mirrors hσ target queue r r' ⟨h, hdistinct⟩
    refine ⟨hres, h.ids_eq hσ fun p => ?_⟩
    rw [h.meshContains, hend.meshContains]
  · obtain ⟨hres, hend, -⟩ := emitTopicGossip_mirrors hσ r r' ⟨h, hdistinct⟩
    refine ⟨hres, h.ids_eq hσ fun p => ?_⟩
    rw [h.tx, hend.tx, Tx.rename_peer, Tx.rename_peer]

/-- Room for four peers; gossip goes to one peer. -/
def fourPeerConfig : Config :=
  { RouterConfig.small.toConfig with
    mesh := { RouterConfig.small.mesh with dLazy := 1, gossipFactorPpm := 0 }
    capacity := { RouterConfig.small.capacity with maxPeers := 4 } }

/-- Four peers subscribe to a topic with a cached message; two of them are in its mesh. -/
def fourSubscribers : Router :=
  { Router.init with
    topics := fun t => if t = 0 then ⟨true, true, false, .acceptAll, 0, [7]⟩ else .free
    peers := fun p =>
      if p < 4 then ⟨true, false, some p, some p, .outbound, .v11, [UInt8.ofNat p + 1], 0⟩
      else .free
    peerTopics := fun i => if i < 4 then ⟨true, i, 0, 1⟩ else .free
    mesh := ⟨fun i => if i < 2 then ⟨true, i, 0⟩ else .free, 2⟩
    mcache := { Router.init.mcache with
      entries := fun i => if i = 0 then ⟨true, 0, [9], [7], 0, 0, 0⟩ else .free } }

/-- A peer in the mesh and one outside it change places. One of two peers is taken into the mesh,
    one of two leaves it and one of two gets the gossip. -/
theorem choices_ignore_slots_fourSubscribers :
    let config := fourPeerConfig
    let swapped := fourSubscribers.rename (Equiv.swap 0 3)
    ChoosesAlike (meshFillTopic config 0 3 true) (meshJoined config 0) fourSubscribers swapped ∧
      ChoosesAlike (meshTrimTopic config 0 1 true) (meshLeft config 0) fourSubscribers swapped ∧
      ChoosesAlike (emitTopicGossip config 0) (queuedFor config) fourSubscribers swapped ∧
      [3] ∈ meshJoined config 0 fourSubscribers (meshFillTopic config 0 3 true fourSubscribers).2 ∧
      [2] ∈ meshLeft config 0 fourSubscribers (meshTrimTopic config 0 1 true fourSubscribers).2 ∧
      [3] ∈ queuedFor config fourSubscribers (emitTopicGossip config 0 fourSubscribers).2 := by
  intro config swapped
  have hσ : Permutes (Equiv.swap 0 3) config.capacity.maxPeers := by
    intro p
    by_cases h0 : p = 0
    · subst h0
      decide
    · by_cases h3 : p = 3
      · subst h3
        decide
      · rw [Equiv.swap_apply_of_ne_of_ne h0 h3]
  have hdistinct : DistinctIds config fourSubscribers := by
    have hids : ∀ p < 4, ∀ q < 4,
        (fourSubscribers.peers p).peerId = (fourSubscribers.peers q).peerId → p = q := by decide
    intro p hp q hq _ _
    exact hids p hp q hq
  have hchoices (target : Nat) := choices_ignore_slots hσ (Router.rename_renamed _ _) hdistinct 0
    target true
  refine ⟨(hchoices 3).1, (hchoices 1).2.1, (hchoices 1).2.2, ?_, ?_, ?_⟩
  · exact ⟨2, by decide +kernel⟩
  · exact ⟨1, by decide +kernel⟩
  · exact ⟨2, by decide +kernel⟩

end Choices

end LeanLibp2p.Gossipsub
