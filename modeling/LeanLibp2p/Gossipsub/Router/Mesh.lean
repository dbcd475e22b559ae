import LeanLibp2p.Gossipsub.Router.State

/-!
# Mesh edges and backoff

The tables of `gossipsub_state.c:376-691` that say which peers are in the mesh of a topic, and
which must not be grafted for some time.
-/

namespace LeanLibp2p.Gossipsub

open LeanLibp2p.Lib

variable (config : Config)

/-! ## Mesh edges -/

/-- The edge is used and joins peer `p` to topic `t`. -/
def MeshEdge.joins (edge : MeshEdge) (p t : Nat) : Bool :=
  edge.used && edge.peerIndex = p && edge.topicIndex = t

/-- `gossipsub_mesh_contains` (`gossipsub_state.c:373-395`). -/
def meshContains (r : Router) (p t : Nat) : Bool :=
  (findSlot config.capacity.maxMeshEdges fun i => (r.mesh.edges i).joins p t).isSome

/-- `gossipsub_mesh_count_topic` (`gossipsub_state.c:397-414`). -/
def meshCountTopic (r : Router) (t : Nat) : Nat :=
  (List.range config.capacity.maxMeshEdges).countP fun i =>
    (r.mesh.edges i).used && (r.mesh.edges i).topicIndex = t

/-- Fill a free edge and count it. -/
def Mesh.insert (mesh : Mesh) (i p t : Nat) : Mesh where
  edges := Function.update mesh.edges i ⟨true, p, t⟩
  peerCount := (mesh.peerCount + 1) % (uint64Max + 1)

/-- Clear an edge and take it off the count, which wraps around below zero. -/
def Mesh.clear (mesh : Mesh) (i : Nat) : Mesh where
  edges := Function.update mesh.edges i .free
  peerCount := (mesh.peerCount + uint64Max) % (uint64Max + 1)

/-- `gossipsub_mesh_add` (`gossipsub_state.c:578-629`). -/
def meshAdd (p t : Nat) : RouterM Unit := fun r =>
  if config.capacity.maxPeers ≤ p ∨ config.capacity.maxTopics ≤ t then (.error .invalidArg, r)
  else if (r.peers p).used = false ∨ (r.topics t).used = false then (.error .state, r)
  else if meshContains config r p t then (.ok (), r)
  else
    match findSlot config.capacity.maxMeshEdges fun i => !(r.mesh.edges i).used with
    | none => (.error .limit, r)
    | some i => (.ok (), { r with mesh := r.mesh.insert i p t })

/-- `gossipsub_mesh_remove` (`gossipsub_state.c:631-651`). -/
def meshRemove (p t : Nat) (r : Router) : Router :=
  match findSlot config.capacity.maxMeshEdges fun i => (r.mesh.edges i).joins p t with
  | none => r
  | some i => { r with mesh := r.mesh.clear i }

/-- Clear the used edges of some kind, in the order of the slots. -/
def Mesh.clearWhere (p : MeshEdge → Bool) (mesh : Mesh) : Mesh :=
  (List.range config.capacity.maxMeshEdges).foldl (fun mesh i =>
    if (mesh.edges i).used && p (mesh.edges i) then mesh.clear i else mesh) mesh

/-- `gossipsub_mesh_remove_peer` (`gossipsub_state.c:653-671`). -/
def meshRemovePeer (p : Nat) (r : Router) : Router :=
  { r with mesh := r.mesh.clearWhere config fun edge => edge.peerIndex = p }

/-- `gossipsub_mesh_remove_topic` (`gossipsub_state.c:673-691`). -/
def meshRemoveTopic (t : Nat) (r : Router) : Router :=
  { r with mesh := r.mesh.clearWhere config fun edge => edge.topicIndex = t }

/-! ## Backoff -/

/-- `gossipsub_u64_add_saturating` (`gossipsub_state.c:434-444`). -/
def u64AddSaturating (a b : Nat) : Nat := if b ≤ uint64Max - a then a + b else uint64Max

/-- `gossipsub_backoff_expires_us` (`gossipsub_state.c:446-460`). -/
def backoffExpiresUs (intervalUs nowUs : Nat) : Nat :=
  u64AddSaturating nowUs (u64AddSaturating intervalUs config.mesh.backoffSlackUs)

/-- The entry is used and is about peer `p` and topic `t`. -/
def Backoff.concerns (backoff : Backoff) (p t : Nat) : Bool :=
  backoff.used && backoff.peerIndex = p && backoff.topicIndex = t

/-- `gossipsub_backoff_active` (`gossipsub_state.c:462-487`). -/
def backoffActive (r : Router) (p t nowUs : Nat) : Bool :=
  decide (p < config.capacity.maxPeers) && decide (t < config.capacity.maxTopics) &&
    (findSlot config.capacity.maxBackoffEntries fun i =>
      (r.backoff i).concerns p t && decide (nowUs < (r.backoff i).expiresUs)).isSome

/-- The used entry that expires first, the first slot among equals. -/
def backoffEarliest (r : Router) : Option Nat :=
  (List.range config.capacity.maxBackoffEntries).foldl (fun best i =>
    if (r.backoff i).used then
      match best with
      | none => some i
      | some j => if (r.backoff i).expiresUs < (r.backoff j).expiresUs then some i else some j
    else best) none

/-- `gossipsub_backoff_add` (`gossipsub_state.c:489-561`): the entry of the pair is kept when it
    expires later; else the first free slot is taken, or the entry that expires first. -/
def backoffAdd (p t intervalUs nowUs : Nat) : RouterM Unit := fun r =>
  if config.capacity.maxPeers ≤ p ∨ config.capacity.maxTopics ≤ t then (.error .invalidArg, r)
  else
    let entry : Backoff := ⟨true, p, t, backoffExpiresUs config intervalUs nowUs⟩
    match findSlot config.capacity.maxBackoffEntries fun i => (r.backoff i).concerns p t with
    | some i =>
      if (r.backoff i).expiresUs < entry.expiresUs then (.ok (), r.setBackoff i entry)
      else (.ok (), r)
    | none =>
      match findSlot config.capacity.maxBackoffEntries fun i => !(r.backoff i).used with
      | some i => (.ok (), r.setBackoff i entry)
      | none =>
        match backoffEarliest config r with
        | some i => (.ok (), r.setBackoff i entry)
        | none => (.error .limit, r)

/-- `gossipsub_backoff_clear_expired` (`gossipsub_state.c:563-576`). -/
def backoffClearExpired (nowUs : Nat) (r : Router) : Router :=
  { r with backoff := fun i =>
      if i < config.capacity.maxBackoffEntries ∧ (r.backoff i).used ∧
          (r.backoff i).expiresUs ≤ nowUs then .free
      else r.backoff i }

end LeanLibp2p.Gossipsub
