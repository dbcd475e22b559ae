import LeanLibp2p.Gossipsub.Router.Send

/-!
# Mesh maintenance and gossip

The part of `gossipsub_state.c` that chooses peers: filling and trimming the mesh of a topic, and
the IHAVE that a heartbeat sends to peers outside of the mesh (`gossipsub_state.c:693-1405`).
-/

namespace LeanLibp2p.Gossipsub

open LeanLibp2p.Lib

variable (config : Config)

/-- `gossipsub_random_u64` (`gossipsub_state.c:693-717`). -/
def randomU64 : RouterM UInt64 := fun r =>
  (config.randomFn r.randomCalls, { r with randomCalls := r.randomCalls + 1 })

/-! ## Ranks -/

/-- The two results of `gossipsub_peer_id_cmp` (`gossipsub_state.c:719-763`) that its callers tell
    from the third: bytes are compared first, then lengths. -/
def peerIdLt : Bytes → Bytes → Bool
  | [], [] => false
  | [], _ :: _ => true
  | _ :: _, [] => false
  | a :: as, b :: bs => if a < b then true else if b < a then false else peerIdLt as bs

/-- `gossipsub_peer_rank` (`gossipsub_state.c:765-779`), a hash of the peer id. -/
def peerRank (peerId : Bytes) (salt : UInt64) : UInt64 :=
  peerId.foldl (fun rank b => (rank ^^^ b.toUInt64) * 1099511628211)
    ((1469598103934665603 : UInt64) ^^^ salt)

/-- `gossipsub_rank_before` (`gossipsub_state.c:781-827`) for peers of the table; the operands
    swapped it is `gossipsub_rank_after` (`gossipsub_state.c:829-875`). -/
def rankBefore (r : Router) (rank : UInt64) (p : Nat) (bestRank : UInt64) (best : Nat) : Bool :=
  if rank < bestRank then true
  else if bestRank < rank then false
  else if peerIdLt (r.peers p).peerId (r.peers best).peerId then true
  else if peerIdLt (r.peers best).peerId (r.peers p).peerId then false
  else decide (p < best)

/-- The loop that chooses the candidate with the lowest rank. -/
def lowestRank (r : Router) (salt : UInt64) (candidate : Nat → Bool) : Option Nat :=
  (List.range config.capacity.maxPeers).foldl (fun best p =>
    if candidate p then
      match best with
      | none => some p
      | some q =>
        if rankBefore r (peerRank (r.peers p).peerId salt) p (peerRank (r.peers q).peerId salt) q
        then some p else some q
    else best) none

/-- The peer chosen is a candidate. -/
theorem lowestRank_some {config : Config} {r : Router} {salt : UInt64} {candidate : Nat → Bool}
    {p : Nat} (h : lowestRank config r salt candidate = some p) :
    p < config.capacity.maxPeers ∧ candidate p = true := by
  unfold lowestRank at h
  have hchoice := foldl_choice (c := fun p => candidate p = true) ?_ h
  · rcases hchoice with hnone | ⟨hmem, hp⟩
    · cases hnone
    · exact ⟨List.mem_range.mp hmem, hp⟩
  · intro best q
    by_cases hq : candidate q = true
    · rw [if_pos hq]
      split
      · exact .inr ⟨rfl, hq⟩
      · split
        · exact .inr ⟨rfl, hq⟩
        · exact .inl rfl
    · rw [if_neg hq]
      exact .inl rfl

/-! ## Mesh -/

/-- `gossipsub_rank_candidate` (`gossipsub_state.c:877-912`) with `GOSSIPSUB_RANK_MODE_FILL`. -/
def fillCandidate (r : Router) (t p : Nat) : Bool :=
  r.isWriter p && peerSubscribed config r p t && !meshContains config r p t &&
    !backoffActive config r p t r.lastDriveUs

/-- One round of the loop of `gossipsub_mesh_fill_topic` for the peer chosen. -/
def meshFillPeer (t p : Nat) (queueGraft : Bool) : RouterM Unit := do
  meshAdd config p t
  if queueGraft then do
    match ← Comp.result (enqueueGraft config p t) with
    | .ok _ => pure ()
    | .error e => do
      Comp.update (meshRemove config p t)
      Comp.fail e
  else pure ()

/-- The loop of `gossipsub_mesh_fill_topic`; `fuel` is `target` less `count`. -/
def meshFillLoop (config : Config) (t : Nat) (salt : UInt64) (queueGraft : Bool) :
    Nat → RouterM Unit
  | 0 => pure ()
  | fuel + 1 => do
    let r ← Comp.read id
    match lowestRank config r salt (fillCandidate config r t) with
    | none => pure ()
    | some p => do
      meshFillPeer config t p queueGraft
      meshFillLoop config t salt queueGraft fuel

/-- `gossipsub_mesh_fill_topic` (`gossipsub_state.c:963-1026`). -/
def meshFillTopic (t target : Nat) (queueGraft : Bool) : RouterM Unit := do
  let r ← Comp.read id
  if config.capacity.maxTopics ≤ t then Comp.fail .invalidArg
  else if (r.topics t).used = false then Comp.fail .state
  else if meshCountTopic config r t < target then do
    let salt ← randomU64 config
    meshFillLoop config t salt queueGraft (target - meshCountTopic config r t)
  else pure ()

/-- One round of the loop of `gossipsub_mesh_trim_topic` for the peer chosen. -/
def meshTrimPeer (t p : Nat) (queuePrune : Bool) : RouterM Unit := do
  if queuePrune then do
    let r ← Comp.read id
    enqueuePrune config p (r.topics t)
    backoffAdd config p t config.mesh.pruneBackoffUs r.lastDriveUs
  else pure ()
  Comp.update (meshRemove config p t)

/-- The loop of `gossipsub_mesh_trim_topic`; `fuel` is `count` less `target`. -/
def meshTrimLoop (config : Config) (t : Nat) (salt : UInt64) (queuePrune : Bool) :
    Nat → RouterM Unit
  | 0 => pure ()
  | fuel + 1 => do
    let r ← Comp.read id
    match lowestRank config r salt fun p => meshContains config r p t with
    | none => pure ()
    | some p => do
      meshTrimPeer config t p queuePrune
      meshTrimLoop config t salt queuePrune fuel

/-- `gossipsub_mesh_trim_topic` (`gossipsub_state.c:1028-1095`). -/
def meshTrimTopic (t target : Nat) (queuePrune : Bool) : RouterM Unit := do
  let r ← Comp.read id
  if config.capacity.maxTopics ≤ t then Comp.fail .invalidArg
  else if target < meshCountTopic config r t then do
    let salt ← randomU64 config
    meshTrimLoop config t salt queuePrune (meshCountTopic config r t - target)
  else pure ()

/-- `gossipsub_mesh_heartbeat` (`gossipsub_state.c:1097-1141`). -/
def meshHeartbeat : RouterM Unit :=
  Comp.forOk (fun t => do
    let r ← Comp.read id
    if (r.topics t).used ∧ (r.topics t).localSubscribed then
      if meshCountTopic config r t < config.mesh.dLow then
        meshFillTopic config t config.mesh.d true
      else if config.mesh.dHigh < meshCountTopic config r t then
        meshTrimTopic config t config.mesh.d true
      else pure ()
    else pure ()) (List.range config.capacity.maxTopics)

/-! ## Gossip -/

/-- `LIBP2P_GOSSIPSUB_DEFAULT_MAX_MESSAGE_IDS_PER_RPC`. -/
def defaultMaxMessageIdsPerRpc : Nat := 1024

/-- `gossipsub_gossip_id_limit` (`gossipsub_state.c:1143-1157`). -/
def gossipIdLimit : Nat :=
  min config.limits.maxMessageIdsPerRpc defaultMaxMessageIdsPerRpc

/-- The entry is in the windows that are gossiped about, and of the topic. -/
def gossips (topic : Topic) (entry : McacheEntry) : Bool :=
  entry.used && decide (entry.window < config.mesh.mcacheGossip) && entry.topic = topic.topic

/-- The entries of the ids of `gossipsub_collect_gossip_ids` (`gossipsub_state.c:1159-1191`). -/
def collectGossipIds (r : Router) (topic : Topic) : List McacheEntry :=
  if config.mesh.mcacheGossip ≠ 0 then
    (((List.range config.capacity.mcacheSlots).map r.mcache.entries).filter
      (gossips config topic)).take (gossipIdLimit config)
  else []

/-- `gossipsub_peer_gossip_eligible` (`gossipsub_state.c:1193-1214`), and so
    `gossipsub_gossip_rank_candidate`. -/
def peerGossipEligible (r : Router) (t p : Nat) : Bool :=
  r.isWriter p && !(r.peers p).explicitPeer && peerSubscribed config r p t &&
    !meshContains config r p t

/-- `gossipsub_gossip_eligible_count` (`gossipsub_state.c:1216-1235`). -/
def gossipEligibleCount (r : Router) (t : Nat) : Nat :=
  (List.range config.capacity.maxPeers).countP (peerGossipEligible config r t)

/-- `gossipsub_gossip_target` (`gossipsub_state.c:1237-1277`). -/
def gossipTarget (eligible : Nat) : Nat :=
  if eligible = 0 then 0
  else
    let ppm := config.mesh.gossipFactorPpm
    let factor :=
      if ppm = 0 then 0
      else if sizeMax / ppm < eligible then eligible
      else
        let product := eligible * ppm
        if product % 1000000 ≠ 0 then product / 1000000 + 1 else product / 1000000
    min (max config.mesh.dLazy factor) eligible

/-- The next peer to gossip to: the eligible peer with the lowest rank after `previous`. -/
def gossipNextPeer (r : Router) (t : Nat) (salt : UInt64) (previous : Option Nat) : Option Nat :=
  lowestRank config r salt fun p =>
    peerGossipEligible config r t p &&
      match previous with
      | none => true
      | some q =>
        rankBefore r (peerRank (r.peers q).peerId salt) q (peerRank (r.peers p).peerId salt) p

/-- The loop of `gossipsub_emit_topic_gossip`; `fuel` is `target` less `sent`. -/
def emitTopicGossipLoop (config : Config) (t : Nat) (salt : UInt64) (entries : List McacheEntry) :
    Nat → Option Nat → RouterM Unit
  | 0, _ => pure ()
  | fuel + 1, previous => do
    let r ← Comp.read id
    match gossipNextPeer config r t salt previous with
    | none => pure ()
    | some p => do
      enqueueIhave config p (r.topics t) entries
      emitTopicGossipLoop config t salt entries fuel (some p)

/-- `gossipsub_emit_topic_gossip` (`gossipsub_state.c:1294-1379`). Only a choice among the eligible
    peers needs a salt. -/
def emitTopicGossip (t : Nat) : RouterM Unit := do
  let r ← Comp.read id
  let entries := collectGossipIds config r (r.topics t)
  let eligible := gossipEligibleCount config r t
  let target := gossipTarget config eligible
  let salt ← if entries ≠ [] ∧ target ≠ 0 ∧ target < eligible then randomU64 config else pure 0
  emitTopicGossipLoop config t salt entries target none

/-- `gossipsub_emit_gossip` (`gossipsub_state.c:1381-1404`). -/
def emitGossip : RouterM Unit :=
  Comp.forOk (fun t => do
    let r ← Comp.read id
    if (r.topics t).used ∧ (r.topics t).localSubscribed then emitTopicGossip config t
    else pure ()) (List.range config.capacity.maxTopics)

/-! ## Heartbeat -/

/-- The end of `gossipsub_heartbeat`: cached messages age, and what has expired is dropped. -/
def expireTables (nowUs : Nat) (r : Router) : Router :=
  { r with
    mcache := { r.mcache with
      entries := fun i =>
        if i < config.capacity.mcacheSlots then (r.mcache.entries i).age config
        else r.mcache.entries i }
    seen := fun i =>
      if i < config.capacity.seenEntries ∧ (r.seen i).used ∧ (r.seen i).expiresUs < nowUs then
        { r.seen i with used := false }
      else r.seen i
    idontwant := fun i =>
      if i < config.capacity.idontwantEntries ∧ (r.idontwant i).used ∧
          (r.idontwant i).expiresUs < nowUs then
        { r.idontwant i with used := false }
      else r.idontwant i
    validations := fun v =>
      if v < config.capacity.pendingValidations ∧ (r.validations v).pending ∧
          (r.validations v).expiresUs < nowUs then .free
      else r.validations v
    nextHeartbeatUs := u64Add nowUs config.mesh.heartbeatIntervalUs }

/-- The reset of the IDONTWANT counters in `gossipsub_heartbeat`. -/
def resetIdontwantSent (r : Router) : Router :=
  { r with peers := fun p =>
      if p < config.capacity.maxPeers ∧ (r.peers p).used then
        { r.peers p with idontwantSentThisHeartbeat := 0 }
      else r.peers p }

/-- The state in which `gossipsub_heartbeat` comes to emit gossip. -/
def heartbeatMesh (nowUs : Nat) (r : Router) : Router :=
  (meshHeartbeat config (backoffClearExpired config nowUs (resetIdontwantSent config r))).2

/-- `gossipsub_heartbeat` (`gossipsub_host.c:139-193`). -/
def heartbeat (nowUs : Nat) (r : Router) : Router :=
  expireTables config nowUs (emitGossip config (heartbeatMesh config nowUs r)).2

end LeanLibp2p.Gossipsub
