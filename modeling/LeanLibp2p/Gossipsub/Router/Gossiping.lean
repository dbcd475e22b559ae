import LeanLibp2p.Gossipsub.Router.Ranks
import LeanLibp2p.Gossipsub.Router.Waiting

/-!
# Gossip goes to the lowest ranks

`gossipsub_emit_topic_gossip` walks along the order of the ranks and so sends one IHAVE to each of
the first eligible peers. How many they are depends on the number of eligible peers alone.
-/

namespace LeanLibp2p.Gossipsub

open LeanLibp2p.Lib

variable (config : Config)
variable (r : Router) (t : Nat) (salt : UInt64)

/-- The peers that `gossipsub_emit_topic_gossip` comes to under a salt. -/
def gossipPeers (r : Router) (t : Nat) (salt : UInt64) : List Nat :=
  picks (ranksBefore r salt) (peerGossipEligible config r t) (List.range config.capacity.maxPeers)
    (gossipTarget config (gossipEligibleCount config r t)) none

theorem gossipNextPeer_eq (previous : Option Nat) :
    gossipNextPeer config r t salt previous =
      least (ranksBefore r salt)
        (behind (ranksBefore r salt) (peerGossipEligible config r t) previous)
        (List.range config.capacity.maxPeers) := by
  unfold gossipNextPeer
  rw [lowestRank_eq]
  congr 1
  funext p
  cases previous with
  | none => simp [behind]
  | some q => rfl

/-- Sending does not change what the choice depends on. -/
theorem emitTopicGossipLoop_eq {config : Config} {r r' : Router} {t : Nat} {salt : UInt64}
    {entries : List McacheEntry} (hagrees : Router.Agrees [.tx, .queued, .random] r r') (n : Nat)
    (previous : Option Nat) :
    emitTopicGossipLoop config t salt entries n previous r' =
      Comp.forOk (fun p => enqueueIhave config p (r.topics t) entries)
        (picks (ranksBefore r salt) (peerGossipEligible config r t)
          (List.range config.capacity.maxPeers) n previous) r' := by
  induction n generalizing previous r' with
  | zero => rfl
  | succ n ih =>
    have htopics : r'.topics = r.topics := hagrees.eq .topics (by decide)
    have hnext : gossipNextPeer config r' t salt previous =
        gossipNextPeer config r t salt previous := by
      rw [gossipNextPeer_eq, gossipNextPeer_eq, ranksBefore_of_agrees hagrees (by decide),
        peerGossipEligible_of_agrees hagrees (by decide)]
    rw [emitTopicGossipLoop, Comp.read_id_bind, hnext, gossipNextPeer_eq, htopics]
    cases hleast : least (ranksBefore r salt)
        (behind (ranksBefore r salt) (peerGossipEligible config r t) previous)
        (List.range config.capacity.maxPeers) with
    | none =>
      rw [picks_none hleast]
      rfl
    | some p =>
      rw [picks_some hleast, Comp.forOk_cons]
      dsimp only
      have hsend := (@enqueueIhave_touches config p (r.topics t) entries).agrees r'
      rcases hrun : enqueueIhave config p (r.topics t) entries r' with ⟨_ | _, r''⟩
      · rw [Comp.bind_of_error hrun, Comp.bind_of_error hrun]
      · rw [Comp.bind_of_ok hrun, Comp.bind_of_ok hrun]
        rw [hrun] at hsend
        exact ih (hagrees.trans (hsend.mono (by decide))) (some p)

/-- The router after some more calls of the random callback. -/
def Router.setRandomCalls (n : Nat) (r : Router) : Router := { r with randomCalls := n }

theorem setRandomCalls_agrees (n : Nat) (r : Router) :
    Router.Agrees [.random] r (r.setRandomCalls n) := by
  refine ⟨fun part hpart => ?_⟩
  cases part <;> first | rfl | exact absurd rfl (List.ne_of_not_mem_cons hpart)

/-- Sending does not look at the number of random calls. -/
theorem enqueueIhave_setRandomCalls (p : Nat) (topic : Topic)
    (entries : List McacheEntry) (n : Nat) (r : Router) :
    enqueueIhave config p topic entries (r.setRandomCalls n) =
      ((enqueueIhave config p topic entries r).1,
        (enqueueIhave config p topic entries r).2.setRandomCalls n) := by
  unfold enqueueIhave
  split
  · rfl
  · have hsend : ∀ rpc, enqueueRpc config p rpc txForwardLifetimeUs false (r.setRandomCalls n) =
        ((enqueueRpc config p rpc txForwardLifetimeUs false r).1,
          (enqueueRpc config p rpc txForwardLifetimeUs false r).2.setRandomCalls n) := fun _ => rfl
    rw [Comp.bind_apply, Comp.bind_apply, hsend]
    rcases enqueueRpc config p _ txForwardLifetimeUs false r with ⟨_ | _, r'⟩
    · rfl
    · rfl

theorem forOk_setRandomCalls {body : Nat → RouterM Unit} (n : Nat)
    (hbody : ∀ p r, body p (r.setRandomCalls n) = ((body p r).1, (body p r).2.setRandomCalls n))
    (ps : List Nat) (r : Router) :
    Comp.forOk body ps (r.setRandomCalls n) =
      ((Comp.forOk body ps r).1, (Comp.forOk body ps r).2.setRandomCalls n) := by
  induction ps generalizing r with
  | nil => rfl
  | cons p ps ih =>
    rw [Comp.forOk_cons, Comp.bind_apply, Comp.bind_apply, hbody]
    rcases body p r with ⟨_ | _, r'⟩
    · rfl
    · exact ih r'

/-- The salt of `gossipsub_emit_topic_gossip`: it is drawn only where some of the eligible peers are
    to be chosen, but not all. -/
def gossipSalt (r : Router) (t : Nat) : Except GossipsubErr UInt64 :=
  let eligible := gossipEligibleCount config r t
  let target := gossipTarget config eligible
  if target ≠ 0 ∧ target < eligible then config.randomFn r.randomCalls else .ok 0

/-- A call that draws its salt, or needs none, is the loop that sends to the peers chosen. -/
theorem emitTopicGossip_eq {config : Config} {r : Router} {t : Nat} {salt : UInt64}
    (hids : collectGossipIds config r (r.topics t) ≠ [])
    (hsalt : gossipSalt config r t = .ok salt) :
    ∃ n, emitTopicGossip config t r =
      Comp.forOk (fun p => enqueueIhave config p (r.topics t)
        (collectGossipIds config r (r.topics t))) (gossipPeers config r t salt)
        (r.setRandomCalls n) := by
  unfold gossipSalt at hsalt
  dsimp only at hsalt
  unfold emitTopicGossip gossipPeers
  rw [Comp.read_id_bind]
  dsimp only
  by_cases hnone : gossipTarget config (gossipEligibleCount config r t) = 0
  · -- nobody is chosen, under any salt
    rw [if_neg fun h => h.2.1 hnone, hnone]
    exact ⟨r.randomCalls, rfl⟩
  · by_cases hless : gossipTarget config (gossipEligibleCount config r t) <
        gossipEligibleCount config r t
    · rw [if_pos ⟨hnone, hless⟩] at hsalt
      have hcall : randomU64 config r = (.ok salt, { r with randomCalls := r.randomCalls + 1 }) := by
        unfold randomU64
        rw [hsalt]
      refine ⟨r.randomCalls + 1, ?_⟩
      rw [if_pos ⟨hids, hnone, hless⟩, Comp.bind_of_ok hcall]
      exact emitTopicGossipLoop_eq ((setRandomCalls_agrees _ r).mono (by decide)) _ none
    · rw [if_neg fun h => hless h.2] at hsalt
      cases hsalt
      refine ⟨r.randomCalls, ?_⟩
      rw [if_neg fun h => hless h.2.2]
      exact emitTopicGossipLoop_eq (.refl r) _ none

/-! ## Whom gossip goes to -/

/-- `gossipsub_gossip_target` is the larger of `d_lazy` and a share of the eligible peers, rounded
    up, and no more than there are. -/
theorem gossipTarget_eq {eligible : Nat}
    (hfits : eligible * config.mesh.gossipFactorPpm ≤ sizeMax) :
    gossipTarget config eligible = min eligible
      (max config.mesh.dLazy ((eligible * config.mesh.gossipFactorPpm + 999999) / 1000000)) := by
  unfold gossipTarget
  by_cases hnone : eligible = 0
  · simp [hnone]
  · rw [if_neg hnone, Nat.min_comm]
    dsimp only
    congr 2
    by_cases hppm : config.mesh.gossipFactorPpm = 0
    · simp [hppm]
    · have hroom : ¬ sizeMax / config.mesh.gossipFactorPpm < eligible := by
        rw [Nat.not_lt, Nat.le_div_iff_mul_le (Nat.pos_of_ne_zero hppm)]
        exact hfits
      rw [if_neg hppm, if_neg hroom]
      split
      · omega
      · omega

theorem gossipPeers_nodup :
    (gossipPeers config r t salt).Nodup := picks_nodup (ranksBefore_strictTotal r salt) _ _

theorem gossipPeers_eligible {config : Config} {r : Router} {t : Nat} {salt : UInt64} {p : Nat}
    (h : p ∈ gossipPeers config r t salt) :
    p < config.capacity.maxPeers ∧ peerGossipEligible config r t p = true := by
  obtain ⟨hmem, heligible⟩ := mem_picks (ranksBefore_strictTotal r salt) h
  exact ⟨List.mem_range.mp hmem, heligible⟩

theorem gossipTarget_le (eligible : Nat) : gossipTarget config eligible ≤ eligible := by
  unfold gossipTarget
  split
  · omega
  · exact Nat.min_le_right ..

theorem gossipPeers_length :
    (gossipPeers config r t salt).length =
      gossipTarget config (gossipEligibleCount config r t) := by
  unfold gossipPeers
  rw [picks_length (ranksBefore_strictTotal r salt) List.nodup_range]
  exact Nat.min_eq_left (gossipTarget_le config _)

/-- An IHAVE carries no more ids than an RPC may. -/
theorem collectGossipIds_length_le (topic : Topic) :
    (collectGossipIds config r topic).length ≤ config.limits.maxMessageIdsPerRpc := by
  have hlimit : gossipIdLimit config ≤ config.limits.maxMessageIdsPerRpc := Nat.min_le_left ..
  unfold collectGossipIds
  split
  · rw [List.length_take]
    omega
  · exact Nat.zero_le _

/-! ## What the peers get -/

/-- The RPC of `gossipsub_enqueue_ihave`. -/
def ihaveRpc (topic : Topic) (entries : List McacheEntry) : Rpc :=
  .ofControl { RpcControl.zero with
    ihave := [⟨.ptr topic.topic, entries.map fun entry => .ptr entry.messageId⟩] }

theorem Transmits.enqueueIhave_gains {config : RouterConfig} {p : Nat} {topic : Topic}
    {entries : List McacheEntry} {r r' : Router} (h : Transmits config.toConfig r)
    (hrun : Gossipsub.enqueueIhave config.toConfig p topic entries r = (.ok (), r')) :
    Tx.Gains config.toConfig r.tx r'.tx
      (gainOf p false [frameBytes (ihaveRpc topic entries)]) := by
  unfold Gossipsub.enqueueIhave at hrun
  split at hrun
  · cases hrun
  · obtain ⟨⟨⟩, r₁, hsend, hrecord⟩ := Comp.ok_of_bind hrun
    have hgains := h.enqueueRpc_gains hsend
    cases hrecord
    exact hgains

/-- What `gossipsub_emit_topic_gossip` is for: it chooses as many different eligible peers as the
    configuration asks for, and if no enqueue for them fails, each gets one IHAVE with the ids
    collected. -/
structure GossipExact (t : Nat) (r : Router) (salt : UInt64) : Prop where
  nodup : (gossipPeers config r t salt).Nodup
  eligible : ∀ p ∈ gossipPeers config r t salt,
    p < config.capacity.maxPeers ∧ peerGossipEligible config r t p = true
  length : (gossipPeers config r t salt).length =
    min (gossipEligibleCount config r t) (max config.mesh.dLazy
      ((gossipEligibleCount config r t * config.mesh.gossipFactorPpm + 999999) / 1000000))
  ids : (collectGossipIds config r (r.topics t)).length ≤ config.limits.maxMessageIdsPerRpc
  sent : (Comp.forOk (fun p => enqueueIhave config p (r.topics t)
      (collectGossipIds config r (r.topics t))) (gossipPeers config r t salt) r).1 = .ok () →
    (emitTopicGossip config t r).1 = .ok () ∧
    Tx.Gains config r.tx (emitTopicGossip config t r).2.tx
      (gainEach (gossipPeers config r t salt) false fun _ =>
        frameBytes (ihaveRpc (r.topics t) (collectGossipIds config r (r.topics t))))

/-- Gossip is exact in every state of the transmit side of a router in which there is an id to
    gossip about and the salt, where one is drawn, has an answer. -/
theorem emitTopicGossip_exact (config : RouterConfig) :
    (∀ actions : List Action,
      Transmits config.toConfig (Node.init.run config.toConfig actions).router) ∧
    ∀ (r : Router) (t : Nat) (salt : UInt64), Transmits config.toConfig r →
      t < config.capacity.maxTopics → collectGossipIds config.toConfig r (r.topics t) ≠ [] →
      gossipEligibleCount config.toConfig r t * config.mesh.gossipFactorPpm ≤ sizeMax →
      gossipSalt config.toConfig r t = .ok salt → GossipExact config.toConfig t r salt := by
  refine ⟨Transmits.run config, fun r t salt h _ hids hfits hsalt => ?_⟩
  obtain ⟨n, hemit⟩ := emitTopicGossip_eq hids hsalt
  rw [forOk_setRandomCalls n fun p r => enqueueIhave_setRandomCalls ..] at hemit
  exact
    { nodup := gossipPeers_nodup ..
      eligible := fun p hp => gossipPeers_eligible hp
      length := by rw [gossipPeers_length, gossipTarget_eq _ hfits]
      ids := collectGossipIds_length_le ..
      sent := by
        intro hsent
        rcases hloop : Comp.forOk (fun p => enqueueIhave config.toConfig p (r.topics t)
          (collectGossipIds config.toConfig r (r.topics t)))
          (gossipPeers config.toConfig r t salt) r with ⟨res, r'⟩
        rw [hloop] at hsent hemit
        obtain rfl : res = .ok () := hsent
        rw [hemit]
        have hgains := Transmits.forOk_gains (fun p => Transmits.enqueueIhave p _ _)
          (fun p r r' h hrun => h.enqueueIhave_gains hrun) (gossipPeers_nodup ..) h hloop
        exact ⟨rfl, hgains⟩ }

/-- A router that gossips to one of the eligible peers. -/
def lazyConfig (randomFn : Nat → Except GossipsubErr UInt64) : RouterConfig where
  toConfig := { RouterConfig.small.toConfig with
    mesh := { RouterConfig.small.mesh with
      dLow := 0
      d := 0
      dHigh := 0
      dLazy := 1 }
    randomFn := randomFn }
  valid := RouterConfig.small.valid
  storage_le := RouterConfig.small.storage_le
  pruneBackoffUs_le := RouterConfig.small.pruneBackoffUs_le

/-- Two peers subscribe to a topic, and a message is published in it. -/
def gossipRun : List Action :=
  [.start 5,
   .subscribe ⟨.ptr [7], .acceptAll, false, 0⟩,
   .streamOpen 1 1 (.ok [1]) .outbound .v11,
   .streamOpen 2 2 (.ok [2]) .outbound .v11,
   .receive 0 [0x0a, 5, 0x08, 1, 0x12, 1, 7],
   .receive 1 [0x0a, 5, 0x08, 1, 0x12, 1, 7],
   .drive 6 fun _ => .ok 100,
   .publish ⟨.ptr [7], .ptr [9], .null 0⟩ none]

/-- The random callback has no answer. -/
def muteConfig : RouterConfig := lazyConfig fun _ => .error .internal

/-- One of the two peers gets an IHAVE. -/
theorem emitTopicGossip_exact_gossipRun :
    let config := lazyConfig fun n => .ok (UInt64.ofNat n)
    let r := (Node.init.run config.toConfig gossipRun).router
    GossipExact config.toConfig 0 r (UInt64.ofNat r.randomCalls) := by
  intro config r
  obtain ⟨htransmits, hexact⟩ := emitTopicGossip_exact config
  exact hexact _ 0 _ (htransmits gossipRun) (by decide) (by decide +kernel) (by decide +kernel)
    (by decide +kernel)

/-- Without a salt no peer gets one, though there is room for it in every queue. -/
theorem emitTopicGossip_not_exact : ¬ ∀ (config : RouterConfig) (actions : List Action) (t : Nat),
    let r := (Node.init.run config.toConfig actions).router
    t < config.capacity.maxTopics → collectGossipIds config.toConfig r (r.topics t) ≠ [] →
      gossipEligibleCount config.toConfig r t * config.mesh.gossipFactorPpm ≤ sizeMax →
      ∃ salt, GossipExact config.toConfig t r salt := by
  intro hall
  obtain ⟨salt, hexact⟩ :=
    hall muteConfig gossipRun 0 (by decide) (by decide +kernel) (by decide +kernel)
  have hone := hexact.length.trans (show _ = 1 by decide +kernel)
  obtain ⟨p, hpeers⟩ := List.length_eq_one_iff.mp hone
  have hpeer := hexact.eligible p (by rw [hpeers]; exact List.mem_singleton_self p)
  have hsent := hexact.sent
  rw [hpeers] at hsent
  have hroom : ∀ p < 3,
      peerGossipEligible muteConfig.toConfig
        (Node.init.run muteConfig.toConfig gossipRun).router 0 p = true →
      (Comp.forOk (fun p => enqueueIhave muteConfig.toConfig p
        ((Node.init.run muteConfig.toConfig gossipRun).router.topics 0)
        (collectGossipIds muteConfig.toConfig (Node.init.run muteConfig.toConfig gossipRun).router
          ((Node.init.run muteConfig.toConfig gossipRun).router.topics 0))) [p]
        (Node.init.run muteConfig.toConfig gossipRun).router).1 = .ok () := by
    decide +kernel
  have hfails : (emitTopicGossip muteConfig.toConfig 0
      (Node.init.run muteConfig.toConfig gossipRun).router).1 = .error .internal := by
    decide +kernel
  cases (hsent (hroom p hpeer.1 hpeer.2)).1.symm.trans hfails

end LeanLibp2p.Gossipsub
