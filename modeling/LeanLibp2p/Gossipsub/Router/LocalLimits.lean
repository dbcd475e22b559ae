import LeanLibp2p.Gossipsub.Codec.Refusal
import LeanLibp2p.Gossipsub.Router.Run

/-!
# Local limits

Where a peer has a writer, an RPC for it is queued or fails with `LIMIT`: the tables and buffers are
bounded, and an RPC may get too long. Everything that answers a received RPC goes on after such a
limit.
-/

namespace LeanLibp2p.Gossipsub

open LeanLibp2p.Lib

/-- The computation fails with `LIMIT` only. -/
abbrev LimitsOnly {α : Type} (c : RouterM α) (r : Router) : Prop :=
  Comp.FailsOnly (fun e => e = .limit) c r

/-- The computation succeeds. -/
abbrev Succeeds {α : Type} (c : RouterM α) (r : Router) : Prop :=
  Comp.FailsOnly (fun _ => False) c r

/-- What goes on after a limit fails with no limit. -/
theorem continueAfterLocalLimit_succeeds {c : RouterM Unit} {r : Router} (h : LimitsOnly c r) :
    Succeeds (continueAfterLocalLimit c) r :=
  .absorb (h.mono fun e he => .inl (by simp [he]))

/-- Events are dropped when there is no room for them. -/
theorem pushEventOrDrop_succeeds (config : Config) (event : Event) (r : Router) :
    Succeeds (pushEventOrDrop config event) r := by
  constructor
  intro e r' hrun
  unfold pushEventOrDrop eventPush at hrun
  cases hpush : r.events.push config.capacity.eventCapacity event with
  | none =>
    rw [hpush] at hrun
    cases hrun
  | some events =>
    rw [hpush] at hrun
    cases hrun

/-- An event without a token changes the events only. -/
theorem pushEventOrDrop_plain (config : Config) {event : Event} (hplain : event.validation = none)
    (r : Router) :
    ∃ r', pushEventOrDrop config event r = (.ok (), r') ∧ Router.Agrees [.events] r r' := by
  unfold pushEventOrDrop eventPush
  cases hpush : r.events.push config.capacity.eventCapacity event with
  | none =>
    refine ⟨r, ?_, .refl r⟩
    dsimp only
    rw [if_pos rfl, hplain]
    rfl
  | some events =>
    refine ⟨_, rfl, ⟨fun part hpart => ?_⟩⟩
    cases part <;> first | exact absurd (by decide) hpart | rfl

/-! ## Queuing an RPC -/

/-- Every writer speaks a version that can be encoded. -/
def WritersReady (r : Router) : Prop :=
  ∀ p, r.isWriter p = true → versionValidate (r.peers p).version = .ok ()

theorem isWriter_congr {touched : List Part} {r r' : Router} (hagrees : Router.Agrees touched r r')
    (hpart : Part.peers ∉ touched) (p : Nat) : r'.isWriter p = r.isWriter p := by
  unfold Router.isWriter
  rw [hagrees.peer hpart p Peer.used fun _ => rfl, hagrees.peer hpart p Peer.stream fun _ => rfl]

theorem WritersReady.of_agrees {touched : List Part} {r r' : Router} (h : WritersReady r)
    (hagrees : Router.Agrees touched r r') (hpart : Part.peers ∉ touched) : WritersReady r' := by
  intro p hwriter
  rw [isWriter_congr hagrees hpart] at hwriter
  rw [hagrees.peer hpart p Peer.version fun _ => rfl]
  exact h p hwriter

/-- A reservation for a peer of the table gives a fresh item, for a frame that the buffer can
    hold. -/
theorem txReserve_result {config : Config} {p frameLen lifetimeUs nowUs : Nat} {tx tx' : Tx}
    {result : Except GossipsubErr Nat} (hp : p < config.capacity.maxPeers)
    (h : txReserve config p frameLen lifetimeUs nowUs tx = (result, tx')) :
    result = .error .limit ∨ ∃ i, result = .ok i ∧ i < config.capacity.maxTxRpcQueue ∧
      (tx'.queue i).used = true ∧ (tx'.queue i).peerIndex = p ∧ (tx'.queue i).pos = 0 ∧
      frameLen ≤ config.capacity.txBufferBytes := by
  unfold txReserve at h
  rw [if_neg (Nat.not_le.mpr hp)] at h
  split at h
  · cases h
    exact .inl rfl
  split at h
  · cases h
    exact .inl rfl
  dsimp only at h
  split at h
  · cases h
    exact .inl rfl
  rename_i hroom
  split at h
  · cases h
    exact .inl rfl
  · rename_i i hfree
    cases h
    refine .inr ⟨i, rfl, (findSlot_some hfree).1, ?_, ?_, ?_, by omega⟩
    · rw [Tx.setItem_self]
    · rw [Tx.setItem_self]
    · rw [Tx.setItem_self]
      rfl

/-- An RPC for a peer with a writer is queued, or there is no room for it. -/
theorem enqueueRpcWithLifetime_limit (config : RouterConfig) {peers : Nat → Peer} {p : Nat}
    {rpc : Rpc} {lifetimeUs nowUs : Nat} {priority : Bool} {tx tx' : Tx} {e : GossipsubErr}
    (hp : p < config.capacity.maxPeers) (hused : (peers p).used = true)
    (hstream : (peers p).stream ≠ none) (hallowed : rpc.Allowed (peers p).version)
    (hbackoff : ∀ prune ∈ rpc.control.prune, prune.backoffSeconds < 2 ^ 63)
    (h : enqueueRpcWithLifetime config.toConfig peers p rpc lifetimeUs priority nowUs tx =
      (.error e, tx')) : e = .limit := by
  unfold enqueueRpcWithLifetime at h
  rw [if_neg (Nat.not_le.mpr hp), if_neg (by simp [hused, hstream])] at h
  cases hsize : rpcFrameSize (peers p).version config.limits rpc with
  | error e' =>
    rw [hsize] at h
    cases h
    exact (rpcFrameSize_limitOnly config.limits_valid hallowed).eq e hsize
  | ok frameLen =>
    rw [hsize] at h
    dsimp only at h
    rcases hreserve : txReserve config.toConfig p frameLen lifetimeUs nowUs tx with ⟨result, tx₁⟩
    rw [hreserve] at h
    rcases txReserve_result hp hreserve with rfl | ⟨i, rfl, hi, hitem, hpeer, hpos, hfits⟩
    · cases h
      rfl
    · have hshort : frameLen < 2 ^ 63 := by
        have hbuffer := config.txBufferBytes_le
        unfold ptrdiffMax at hbuffer
        omega
      rcases rpcFrameEncode_of_size hbackoff hsize hshort with ⟨hencode, hlen⟩
      dsimp only at h
      rw [hencode] at h
      dsimp only at h
      rw [if_neg (by simp [hlen])] at h
      unfold txCommitReserved at h
      rw [if_neg (by simp [hp, hi]), if_neg (by simp [hitem, hpeer, hpos])] at h
      cases h

theorem noBackoff {rpc : Rpc} (h : rpc.control.prune = []) :
    ∀ prune ∈ rpc.control.prune, prune.backoffSeconds < 2 ^ 63 := by
  rw [h]
  exact fun _ hmem => nomatch hmem

/-- A peer without a writer gets nothing. -/
theorem enqueueRpc_of_not_writer {config : Config} {p : Nat} {r : Router}
    (hp : p < config.capacity.maxPeers) (hwriter : r.isWriter p = false) (rpc : Rpc)
    (lifetimeUs : Nat) (priority : Bool) :
    enqueueRpc config p rpc lifetimeUs priority r = (.error .state, r) := by
  have hnone : (r.peers p).used = false ∨ (r.peers p).stream = none := by
    rw [Router.isWriter, Bool.and_eq_false_iff, Option.isSome_eq_false_iff, Option.isNone_iff_eq_none]
      at hwriter
    exact hwriter
  unfold enqueueRpc enqueueRpcWithLifetime
  rw [if_neg (Nat.not_le.mpr hp), if_pos hnone]
  rfl

section Enqueue

variable (config : RouterConfig) {p : Nat} {r : Router}

theorem enqueueRpc_limitsOnly (hp : p < config.capacity.maxPeers) (hwriter : r.isWriter p = true)
    {rpc : Rpc} (hallowed : rpc.Allowed (r.peers p).version)
    (hbackoff : ∀ prune ∈ rpc.control.prune, prune.backoffSeconds < 2 ^ 63) (lifetimeUs : Nat)
    (priority : Bool) : LimitsOnly (enqueueRpc config.toConfig p rpc lifetimeUs priority) r := by
  unfold Router.isWriter at hwriter
  rw [Bool.and_eq_true, Option.isSome_iff_ne_none] at hwriter
  constructor
  intro e r' hrun
  unfold enqueueRpc at hrun
  rcases hqueue : enqueueRpcWithLifetime config.toConfig r.peers p rpc lifetimeUs priority
      (txEffectiveNowUs r) r.tx with ⟨e' | i, tx⟩
  · rw [hqueue] at hrun
    cases hrun
    exact enqueueRpcWithLifetime_limit config hp hwriter.1 hwriter.2 hallowed hbackoff hqueue
  · rw [hqueue] at hrun
    cases hrun

/-- An RPC without IDONTWANT goes to a writer of any version. -/
theorem enqueuePlain_limitsOnly (hp : p < config.capacity.maxPeers) (hready : WritersReady r)
    (hwriter : r.isWriter p = true) {rpc : Rpc} (hplain : rpc.control.idontwant = [])
    (hbackoff : ∀ prune ∈ rpc.control.prune, prune.backoffSeconds < 2 ^ 63) (lifetimeUs : Nat)
    (priority : Bool) : LimitsOnly (enqueueRpc config.toConfig p rpc lifetimeUs priority) r :=
  enqueueRpc_limitsOnly config hp hwriter ⟨hready p hwriter, fun hne => absurd hplain hne⟩ hbackoff _ _

variable (hp : p < config.capacity.maxPeers) (hready : WritersReady r)
  (hwriter : r.isWriter p = true)

include hp hready hwriter

theorem enqueueIwant_limitsOnly (messageId : Span) :
    LimitsOnly (enqueueIwant config.toConfig p messageId) r :=
  enqueuePlain_limitsOnly config hp hready hwriter rfl (noBackoff rfl) _ _

theorem enqueueGraft_limitsOnly (t : Nat) : LimitsOnly (enqueueGraft config.toConfig p t) r :=
  .read_bind (.bind (enqueuePlain_limitsOnly config hp hready hwriter rfl
    (noBackoff rfl) _ _) fun _ _ _ => .update _)

theorem enqueuePrune_limitsOnly (topic : Topic) :
    LimitsOnly (enqueuePrune config.toConfig p topic) r := by
  refine enqueuePlain_limitsOnly config hp hready hwriter rfl ?_ _ _
  intro prune hmem
  rw [List.mem_singleton.mp hmem]
  have hle := config.pruneBackoffUs_le
  unfold uint64Max at hle
  dsimp only
  unfold txBackoffSeconds
  dsimp only
  split <;> omega

theorem enqueuePublishEntryWithLifetime_limitsOnly (entry : McacheEntry) (lifetimeUs : Nat)
    (priority : Bool) :
    LimitsOnly (enqueuePublishEntryWithLifetime config.toConfig p entry lifetimeUs priority) r := by
  have henqueue : LimitsOnly (enqueueRpc config.toConfig p (entryRpc r.mcache entry) lifetimeUs
      priority) r :=
    enqueuePlain_limitsOnly config hp hready hwriter rfl (noBackoff rfl) _ _
  constructor
  intro e r' hrun
  unfold enqueuePublishEntryWithLifetime enqueuePublishWithLifetime at hrun
  rcases hqueue : enqueueRpcWithLifetime config.toConfig r.peers p (entryRpc r.mcache entry)
      lifetimeUs priority (txEffectiveNowUs r) r.tx with ⟨e' | i, tx⟩
  · rw [hqueue] at hrun
    cases hrun
    refine henqueue.error e { r with tx := tx } ?_
    unfold enqueueRpc
    rw [hqueue]
    rfl
  · rw [hqueue] at hrun
    cases hrun

omit hready in
theorem enqueueIdontwant_limitsOnly (hversion : (r.peers p).version = .v12) (messageId : Bytes) :
    LimitsOnly (enqueueIdontwant config.toConfig p messageId) r := by
  refine enqueueRpc_limitsOnly config hp hwriter ⟨?_, fun _ => hversion⟩
    (noBackoff rfl) _ _
  rw [hversion]
  rfl

omit hready in
theorem enqueueIdontwantForEntry_limitsOnly (topic : Topic) (entry : McacheEntry) :
    LimitsOnly (enqueueIdontwantForEntry config.toConfig p topic entry) r := by
  refine .read_bind (.ite (fun hle => ?_) fun _ => .ite (fun hsends => ?_) fun _ => .pure _)
  · exact absurd hp (Nat.not_lt.mpr hle)
  · exact .bind (enqueueIdontwant_limitsOnly config hp hwriter hsends.1 _) fun _ _ _ => .update _

/-- Neither an IDONTWANT nor the message itself stops what comes after it. -/
theorem sendEntry_succeeds (topic : Topic) (entry : McacheEntry) (lifetimeUs : Nat)
    (priority : Bool) : Succeeds (sendEntry config.toConfig p topic entry
      (enqueuePublishEntryWithLifetime config.toConfig p entry lifetimeUs priority)) r := by
  refine continueAfterLocalLimit_succeeds (.bind ?_ fun _ r' hrun => ?_)
  · exact (continueAfterLocalLimit_succeeds
      (enqueueIdontwantForEntry_limitsOnly config hp hwriter topic entry)).mono fun _ h => h.elim
  · have hagrees := (continueAfterLocalLimit_touches
      (enqueueIdontwantForEntry_touches config.toConfig p topic entry)).of_run hrun
    refine enqueuePublishEntryWithLifetime_limitsOnly config hp (hready.of_agrees hagrees ?_) ?_ _ _ _
    · decide
    · rw [isWriter_congr hagrees (by decide)]
      exact hwriter

end Enqueue

/-! ## Messages -/

theorem findTopic_congr {config : Config} {touched : List Part} {r r' : Router}
    (hagrees : Router.Agrees touched r r') (hpart : Part.topics ∉ touched) (topic : Span) :
    findTopic config r' topic = findTopic config r topic := by
  have htopics : r'.topics = r.topics := hagrees.eq .topics hpart
  unfold findTopic
  rw [htopics]

theorem WritersReady.of_touches {α : Type} {touched : List Part} {c : RouterM α}
    (hc : Touches touched c) (hpart : Part.peers ∉ touched) : Comp.Keeps WritersReady c :=
  hc.keeps fun _ _ hagrees h => h.of_agrees hagrees hpart

section Messages

variable (config : RouterConfig) {r : Router} (hready : WritersReady r)

include hready

/-- A message of a known topic is forwarded as far as there is room for it. -/
theorem forwardEntry_succeeds (source : Nat) {entry : McacheEntry}
    (hfound : (findTopic config.toConfig r (.ptr entry.topic)).isSome = true) :
    Succeeds (forwardEntry config.toConfig source entry) r := by
  refine .read_bind ?_
  rw [id]
  cases hfind : findTopic config.toConfig r (.ptr entry.topic) with
  | none => simp [hfind] at hfound
  | some t =>
    refine .bind (.pure t) fun t' r' hrun => ?_
    cases hrun
    apply Comp.FailsOnly.forOk hready
    · intro p _
      refine .bind (.read _) fun r => .ite (fun _ => ?_) fun _ => .pure _
      refine WritersReady.of_touches (sendEntry_touches _ _ _ _ ?_) (by decide)
      exact enqueuePublishEntryWithLifetime_touches ..
    · intro p hp r hr
      refine .read_bind (.ite (fun hroute => ?_) fun _ => .pure _)
      exact sendEntry_succeeds config (List.mem_range.mp hp) hr hroute.2.1 _ _ _ _

/-- So is the advice not to send it. -/
theorem enqueueIdontwantForReceivedEntry_succeeds (topic : Topic) (slot : Nat) {entry : McacheEntry}
    (hfound : (findTopic config.toConfig r (.ptr entry.topic)).isSome = true) :
    Succeeds (enqueueIdontwantForReceivedEntry config.toConfig topic slot entry) r := by
  refine .read_bind ?_
  rw [id]
  cases hfind : findTopic config.toConfig r (.ptr entry.topic) with
  | none => simp [hfind] at hfound
  | some t =>
    refine .bind (.pure t) fun t' r' hrun => ?_
    cases hrun
    apply Comp.FailsOnly.forOk hready
    · intro p _
      refine .bind (.read _) fun r => .ite (fun _ => .bind (.result ?_) fun res => ?_) fun _ => .pure _
      · exact WritersReady.of_touches (enqueueIdontwantForEntry_touches ..) (by decide)
      · cases res with
        | ok _ => exact .pure _
        | error e =>
          exact .ite (fun _ => WritersReady.of_touches (reportTxQueueLimit_touches ..) (by decide))
            fun _ => .fail _
    · intro p hp r hr
      refine .read_bind (.ite (fun hmember => ?_) fun _ => .pure _)
      rw [id, Bool.and_eq_true] at hmember
      refine .bind (.result _) fun res r' hrun => ?_
      cases res with
      | ok _ => exact .pure _
      | error e =>
        have hlimit : e = .limit :=
          (enqueueIdontwantForEntry_limitsOnly config (List.mem_range.mp hp) hmember.1 topic
            entry).error e r' (Comp.of_result hrun)
        refine .ite (fun _ => ?_) fun hne => absurd hlimit hne
        refine .read_bind (.ite (fun _ => .pure _) fun _ => .bind ?_ fun _ _ _ => .update _)
        exact pushEventOrDrop_succeeds ..

end Messages

/-! ## Mesh -/

section Mesh

variable (config : RouterConfig) {r : Router} {t : Nat} (ht : t < config.capacity.maxTopics)

include ht

theorem meshAdd_limitsOnly {p : Nat} (hp : p < config.capacity.maxPeers)
    (hpeer : (r.peers p).used = true) (htopic : (r.topics t).used = true) :
    LimitsOnly (meshAdd config.toConfig p t) r := by
  constructor
  intro e r' hrun
  unfold meshAdd at hrun
  rw [if_neg (by omega), if_neg (by simp [hpeer, htopic])] at hrun
  split at hrun
  · cases hrun
  · split at hrun
    · cases hrun
      rfl
    · cases hrun

theorem backoffAdd_limitsOnly {p : Nat} (hp : p < config.capacity.maxPeers)
    (intervalUs nowUs : Nat) : LimitsOnly (backoffAdd config.toConfig p t intervalUs nowUs) r := by
  constructor
  intro e r' hrun
  unfold backoffAdd at hrun
  rw [if_neg (by omega)] at hrun
  dsimp only at hrun
  split at hrun
  · split at hrun
    · cases hrun
    · cases hrun
  · split at hrun
    · cases hrun
    · split at hrun
      · cases hrun
      · cases hrun
        rfl

omit ht in
/-- The random callback does not fail. -/
theorem randomU64_succeeds (hrandom : ∀ n, ∃ x, config.randomFn n = .ok x) :
    Succeeds (randomU64 config.toConfig) r := by
  rcases hrandom r.randomCalls with ⟨x, hx⟩
  have hrun : randomU64 config.toConfig r = (.ok x, { r with randomCalls := r.randomCalls + 1 }) := by
    unfold randomU64
    rw [hx]
  exact .of_ok hrun

theorem meshFillPeer_limitsOnly {p : Nat} (hp : p < config.capacity.maxPeers)
    (hready : WritersReady r) (hwriter : r.isWriter p = true) (htopic : (r.topics t).used = true)
    (queueGraft : Bool) : LimitsOnly (meshFillPeer config.toConfig t p queueGraft) r := by
  have hpeer : (r.peers p).used = true := by
    unfold Router.isWriter at hwriter
    exact (Bool.and_eq_true _ _ ▸ hwriter).1
  refine .bind (meshAdd_limitsOnly config ht hp hpeer htopic) fun _ r' hrun => ?_
  have hagrees := (meshAdd_touches config.toConfig p t).of_run hrun
  refine .ite (fun _ => .bind (.result _) fun res r'' hrun' => ?_) fun _ => .pure _
  cases res with
  | ok _ => exact .pure _
  | error e =>
    refine .bind (.update _) fun _ _ _ => .fail ?_
    apply (enqueueGraft_limitsOnly config hp (hready.of_agrees hagrees (by decide)) ?_ t).error e r''
    · exact Comp.of_result hrun'
    · rw [isWriter_congr hagrees (by decide)]
      exact hwriter

theorem meshFillLoop_limitsOnly (salt : UInt64) (queueGraft : Bool) (fuel : Nat)
    (hready : WritersReady r) (htopic : (r.topics t).used = true) :
    LimitsOnly (meshFillLoop config.toConfig t salt queueGraft fuel) r := by
  induction fuel generalizing r with
  | zero => exact .pure _
  | succ fuel ih =>
    refine .read_bind ?_
    rw [id]
    cases hlowest : lowestRank config.toConfig r salt (fillCandidate config.toConfig r t) with
    | none => exact .pure _
    | some p =>
      rcases lowestRank_some hlowest with ⟨hp, hcandidate⟩
      unfold fillCandidate at hcandidate
      simp only [Bool.and_eq_true] at hcandidate
      refine .bind (meshFillPeer_limitsOnly config ht hp hready hcandidate.1.1.1 htopic queueGraft)
        fun _ r' hrun => ?_
      have hagrees := (meshFillPeer_touches config.toConfig t p queueGraft).of_run hrun
      have htopics : r'.topics = r.topics := hagrees.eq .topics (by decide)
      apply ih (hready.of_agrees hagrees (by decide))
      rw [htopics]
      exact htopic

theorem meshFillTopic_limitsOnly (hrandom : ∀ n, ∃ x, config.randomFn n = .ok x) (target : Nat)
    (queueGraft : Bool) (hready : WritersReady r) (htopic : (r.topics t).used = true) :
    LimitsOnly (meshFillTopic config.toConfig t target queueGraft) r := by
  refine .read_bind (.ite (fun hle => absurd ht (Nat.not_lt.mpr hle)) fun _ => ?_)
  refine .ite (fun hfree => ?_) fun _ => .ite (fun _ => ?_) fun _ => .pure _
  · rw [id, htopic] at hfree
    cases hfree
  · refine .bind ((randomU64_succeeds config hrandom).mono fun _ h => h.elim) fun salt r' hrun => ?_
    have hagrees := (randomU64_touches config.toConfig).of_run hrun
    have htopics : r'.topics = r.topics := hagrees.eq .topics (by decide)
    apply meshFillLoop_limitsOnly config ht _ _ _ (hready.of_agrees hagrees (by decide))
    rw [htopics]
    exact htopic

end Mesh

/-! ## Runs -/

namespace WritersReady

variable {config : Config} {r : Router}

theorem setPeer (h : WritersReady r) {p : Nat} {peer : Peer}
    (hversion : peer.used = true → peer.stream.isSome = true →
      versionValidate peer.version = .ok ()) : WritersReady (r.setPeer p peer) := by
  intro q hwriter
  unfold Router.isWriter Router.setPeer at hwriter
  unfold Router.setPeer
  dsimp only at hwriter ⊢
  by_cases hq : q = p
  · subst hq
    rw [Function.update_self, Bool.and_eq_true] at hwriter
    rw [Function.update_self]
    exact hversion hwriter.1 hwriter.2
  · rw [Function.update_of_ne hq] at hwriter ⊢
    exact h q hwriter

/-- A peer that keeps its writer keeps the version. -/
theorem updatePeer (h : WritersReady r) {p : Nat} {peer : Peer}
    (hused : peer.used = (r.peers p).used) (hstream : peer.stream = (r.peers p).stream)
    (hversion : peer.version = (r.peers p).version) : WritersReady (r.setPeer p peer) := by
  apply h.setPeer
  intro hpeer hwriter
  rw [hversion]
  apply h p
  unfold Router.isWriter
  rw [← hused, ← hstream, hpeer, hwriter]
  rfl

theorem dropWriter (h : WritersReady r) (p : Nat) : WritersReady (dropWriter config p r) := by
  have hremove : WritersReady (meshRemovePeer config p
      { r with tx := dropQueuedPeer config r.peers p r.tx }) := h
  have hpeer : WritersReady ((meshRemovePeer config p
      { r with tx := dropQueuedPeer config r.peers p r.tx }).setPeer p
        { r.peers p with stream := none }) :=
    hremove.setPeer fun _ hnone => nomatch hnone
  exact hpeer

theorem findOrAddPeer (peerId : Bytes) :
    Comp.Keeps WritersReady (findOrAddPeer config peerId) := by
  intro r h
  unfold Gossipsub.findOrAddPeer
  split
  · exact h
  · split
    · exact h
    · rename_i p _
      have hpeer : WritersReady (r.setPeer p { Peer.free with used := true, peerId := peerId }) :=
        h.setPeer fun _ hnone => nomatch hnone
      exact hpeer

theorem openStream (stream conn : Nat) (peerId : Except GossipsubErr Bytes)
    (direction : Host.Direction) {version : ProtocolVersion}
    (hversion : versionValidate version = .ok ()) :
    Comp.Keeps WritersReady (openStream config stream conn peerId direction version) := by
  refine .bind (.bind (.ofResult _) fun peerId => .bind (findOrAddPeer peerId) fun o => ?_) fun p => ?_
  · refine .bind (of_touches (orFail_touches [] ..) (by decide)) fun p => ?_
    exact .bind (.update fun r h => h.updatePeer rfl rfl rfl) fun _ => .pure _
  · refine .bind (of_touches (allocStream_touches _) (by decide)) fun o => ?_
    refine .bind (of_touches (orFail_touches [] ..) (by decide)) fun i => ?_
    refine .bind (.update fun r h => h.of_agrees (setStream_agrees r i _) (by decide)) fun _ => ?_
    refine .bind (.read _) fun r₀ => .bind (.onlyIf fun _ => .update fun r h => ?_) fun _ => .pure _
    have hpeer : WritersReady (r.setPeer p { r.peers p with
        stream := some stream
        direction := direction
        version := version }) := h.setPeer fun _ _ => hversion
    exact hpeer

theorem streamEnd (i : Nat) : Comp.Keeps WritersReady (streamEnd config i) := by
  refine .bind (.read _) fun r => .bind (.onlyIf fun _ => .bind ?_ fun _ => ?_) fun _ => ?_
  · exact of_touches (pushEventOrDrop_touches ..) (by decide)
  · exact .update fun r h => h.dropWriter _
  · exact .update fun r h => h.of_agrees (setStream_agrees r i _) (by decide)

theorem connClosed (conn : Nat) : Comp.Keeps WritersReady (connClosed config conn) := by
  refine .bind (.forOk fun p _ => .bind (.read _) fun r => .onlyIf fun _ => ?_) fun _ => ?_
  · refine .bind (of_touches (pushEventOrDrop_touches ..) (by decide)) fun _ => ?_
    refine .bind (.update fun r h => h.dropWriter p) fun _ => ?_
    exact .update fun r h => h.updatePeer rfl rfl rfl
  · exact .update fun r h => h.of_agrees (closeStreams_agrees ..) (by decide)

theorem step {s : Node} (h : WritersReady s.router) (action : Action) :
    WritersReady (s.step config action).router := by
  have hagrees := s.step_agrees config action
  cases action with
  | setPeerExplicit peerId isExplicit =>
    refine Comp.Keeps.ite (I := WritersReady) (fun _ => .fail _) (fun _ => .bind (.read _) fun r => ?_) _ h
    refine .bind (of_touches (orFail_touches [] ..) (by decide)) fun p => ?_
    exact .update fun r h => h.updatePeer rfl rfl rfl
  | streamOpen stream conn peerId direction protocol =>
    have hversion : versionValidate protocol.version = .ok () := by
      cases protocol <;> rfl
    exact Comp.Keeps.bind (openStream stream conn peerId direction hversion)
      (fun _ => of_touches (announceOpen_touches ..) (by decide)) _ h
  | streamEnd i => exact streamEnd i _ h
  | connClosed conn => exact connClosed conn _ h
  | _ => exact h.of_agrees hagrees (by rw [Action.parts]; decide)

/-- In every reachable state the writers speak a version that can be encoded. -/
theorem run (config : Config) (actions : List Action) :
    WritersReady (Node.init.run config actions).router := by
  apply Lib.run_keeps (P := fun _ _ => True) (I := fun s : Node => WritersReady s.router)
  · exact runMeets_of_forall fun _ _ => trivial
  · exact fun p hwriter => nomatch hwriter
  · intro s action _ h
    exact h.step action

end WritersReady

end LeanLibp2p.Gossipsub
