import LeanLibp2p.Gossipsub.Router.MeshInvariant

/-!
# The mesh in every reachable state

Every action of a run keeps the mesh invariant: received RPCs, calls of the application, and what
the host reports. Time that goes backwards could bring a backoff to life again, and a GRAFT is the
one way into the mesh that does not look at the writer of the peer.
-/

namespace LeanLibp2p.Gossipsub

open LeanLibp2p.Lib

namespace MeshInvariant

variable {config : RouterConfig} {ordered guarded : Prop} {r r' : Router} {p t : Nat}

/-! ## Topics and peers -/

theorem setTopic (h : MeshInvariant config.toConfig ordered guarded r) {topic : Topic}
    (hlocal : ∀ p, (p, t) ∈ r.mesh.pairs config.toConfig → topic.localSubscribed = true)
    (hused : topic.localSubscribed = true → topic.used = true) :
    MeshInvariant config.toConfig ordered guarded (r.setTopic t topic) := by
  refine ⟨h.nodup, h.counted, h.peer, ?_, ?_, h.excluded, h.grafts, h.writer⟩
  · intro q u hqu
    refine ⟨(h.topic q u hqu).1, ?_⟩
    by_cases hu : u = t
    · subst hu
      simpa [Router.setTopic] using hlocal q hqu
    · simpa [Router.setTopic, hu] using (h.topic q u hqu).2
  · intro u
    by_cases hu : u = t
    · subst hu
      simpa [Router.setTopic] using hused
    · simpa [Router.setTopic, hu] using h.used u

/-- No pair is about a free topic slot. -/
theorem not_mem_of_free (h : MeshInvariant config.toConfig ordered guarded r)
    (hfree : (r.topics t).used = false) (p : Nat) : (p, t) ∉ r.mesh.pairs config.toConfig := by
  intro hmem
  have hused := h.used t (h.topic p t hmem).2
  rw [hfree] at hused
  cases hused

theorem findOrAddTopic (topic : Span) : Comp.Keeps (MeshInvariant config.toConfig ordered guarded)
    (findOrAddTopic config.toConfig topic) := by
  intro r h
  rcases findOrAddTopic_spec config.toConfig topic r with
    hsame | ⟨t, added, -, hfree, hadd, hused, -, -, -⟩
  · rwa [hsame]
  · rw [hadd]
    exact h.setTopic (fun p hmem => absurd hmem (h.not_mem_of_free hfree p)) fun _ => hused

theorem setPeer (h : MeshInvariant config.toConfig ordered guarded r) {peer : Peer}
    (hused : ∀ t, (p, t) ∈ r.mesh.pairs config.toConfig → peer.used = true)
    (hstream : ∀ t, (p, t) ∈ r.mesh.pairs config.toConfig →
      (r.peers p).stream.isSome → peer.stream.isSome) :
    MeshInvariant config.toConfig ordered guarded (r.setPeer p peer) := by
  refine ⟨h.nodup, h.counted, ?_, h.topic, h.used, h.excluded, h.grafts, ?_⟩
  · intro q u hqu
    refine ⟨(h.peer q u hqu).1, ?_⟩
    by_cases hq : q = p
    · subst hq
      simpa [Router.setPeer] using hused u hqu
    · simpa [Router.setPeer, hq] using (h.peer q u hqu).2
  · intro hguarded q u hqu
    by_cases hq : q = p
    · subst hq
      simpa [Router.setPeer] using hstream u hqu (h.writer hguarded q u hqu)
    · simpa [Router.setPeer, hq] using h.writer hguarded q u hqu

/-- What is kept of a peer in the mesh is that it is used and has a writer. -/
theorem updatePeer (h : MeshInvariant config.toConfig ordered guarded r) {peer : Peer}
    (hused : peer.used = (r.peers p).used) (hstream : peer.stream = (r.peers p).stream) :
    MeshInvariant config.toConfig ordered guarded (r.setPeer p peer) := by
  apply h.setPeer
  · intro t hmem
    rw [hused]
    exact (h.peer p t hmem).2
  · intro t hmem hwriter
    rwa [hstream]

theorem setTx (h : MeshInvariant config.toConfig ordered guarded r) (tx : Tx) :
    MeshInvariant config.toConfig ordered guarded { r with tx := tx } :=
  h.of_agrees (setTx_agrees r tx) (by decide)

theorem findOrAddPeer (peerId : Bytes) :
    Comp.Keeps (MeshInvariant config.toConfig ordered guarded)
      (findOrAddPeer config.toConfig peerId) := by
  intro r h
  unfold Gossipsub.findOrAddPeer
  split
  · exact h
  · split
    · exact h
    · rename_i p hp
      have hfree := (findSlot_some hp).2
      refine setTx (h.setPeer ?_ ?_) _
      · exact fun _ _ => rfl
      · intro t hmem
        have hused := (h.peer p t hmem).2
        simp [hused] at hfree

theorem peerFromConn (conn : Nat) (peerId : Except GossipsubErr Bytes) :
    Comp.Keeps (MeshInvariant config.toConfig ordered guarded)
      (peerFromConn config.toConfig conn peerId) := by
  refine .bind (.ofResult _) fun peerId => .bind (findOrAddPeer peerId) fun o => ?_
  refine .bind (of_touches (orFail_touches [] ..) (by decide)) fun p => ?_
  exact .bind (.update fun r h => h.updatePeer rfl rfl) fun _ => .pure _

/-! ## Received RPCs -/

theorem subscriptionMesh (p t : Nat) (subscribe : UInt8) :
    Comp.Keeps (MeshInvariant config.toConfig ordered guarded)
      (subscriptionMesh config.toConfig p t subscribe) := by
  intro r h
  unfold Gossipsub.subscriptionMesh
  rw [Comp.read_id_bind]
  split
  · rename_i hlocal
    exact h.meshFillTopic hlocal.2.1 _ true
  · split
    · exact h.meshRemove p t
    · exact h

theorem processSubscription (p : Nat) (sub : RpcSubscription) :
    Comp.Keeps (MeshInvariant config.toConfig ordered guarded)
      (processSubscription config.toConfig p sub) := by
  refine .absorb (.ite (fun _ => .fail _) fun _ => ?_)
  refine .bind (findOrAddTopic sub.topic) fun o => ?_
  refine .bind (of_touches (orFail_touches [] ..) (by decide)) fun t => ?_
  refine .bind (of_touches (findOrAddPeerTopic_touches ..) (by decide)) fun o => ?_
  refine .bind (of_touches (orFail_touches [] ..) (by decide)) fun i => ?_
  refine .bind (.update fun r h => h.of_agrees (setPeerTopic_agrees r i _) (by decide)) fun _ => ?_
  refine .bind (.read _) fun r => ?_
  refine .bind (of_touches (pushEventOrDrop_touches ..) (by decide)) fun _ => ?_
  exact subscriptionMesh p t sub.subscribe

/-- A refused pair is not in the mesh. -/
theorem not_mem_of_refused (h : MeshInvariant config.toConfig ordered guarded r)
    (hrefused : graftAccepted config.toConfig r p t r.lastDriveUs = false) :
    ordered → (p, t) ∉ r.mesh.pairs config.toConfig := by
  intro hordered hmem
  have hlocal := (h.topic p t hmem).2
  have hbackoff := h.excluded hordered p t hmem
  unfold graftAccepted at hrefused
  rw [hlocal, hbackoff, meshContains_iff.mpr hmem] at hrefused
  simp at hrefused

theorem refuseGraft (h : MeshInvariant config.toConfig ordered guarded r)
    (hnot : ordered → (p, t) ∉ r.mesh.pairs config.toConfig) (nowUs : Nat) :
    MeshInvariant config.toConfig ordered guarded
      (refuseGraft config.toConfig p t nowUs r).2 := by
  unfold Gossipsub.refuseGraft
  rw [Comp.read_id_bind]
  refine Comp.after_bind (fun e r' hrun => ?_) fun _ r' hrun => ?_
  · exact h.of_run hrun (enqueueRpc_touches ..) (by decide)
  · have hmesh : r'.mesh = r.mesh := ((enqueueRpc_touches ..).of_run hrun).eq .mesh (by decide)
    apply (h.of_run hrun (enqueueRpc_touches ..) (by decide)).backoffAdd
    rwa [hmesh]

end MeshInvariant

/-! ## The way into the mesh -/

/-- What `gossipsub_process_rpc` does before it handles the GRAFTs. -/
def processBeforeGrafts (config : Config) (p : Nat) (rpc : Rpc) (nowUs : Nat) : RouterM Unit := do
  Comp.forOk (processSubscription config p) rpc.subscriptions
  Comp.forOk (fun message =>
    Comp.absorb (fun e => e = .duplicate) (processMessage config p message nowUs)) rpc.publish
  Comp.forOk (fun x => processIdontwant config p x nowUs) rpc.control.idontwant

theorem processRpcElements_eq (config : Config) (p : Nat) (rpc : Rpc) (nowUs : Nat) :
    processRpcElements config p rpc nowUs =
      processBeforeGrafts config p rpc nowUs >>= fun _ =>
        Comp.forOk (processGraft config p nowUs) rpc.control.graft >>= fun _ =>
          Comp.forOk (processPrune config p nowUs) rpc.control.prune := by
  unfold processRpcElements processBeforeGrafts
  rw [Comp.bind_assoc]
  congr 1
  funext _
  rw [Comp.bind_assoc]

/-- A GRAFT lets the peer into the mesh. -/
def admits (config : Config) (r : Router) (p nowUs : Nat) (graft : ControlGraft) : Bool :=
  (findTopic config r graft.topic).any fun t =>
    graftAccepted config r p t nowUs && !meshContains config r p t

/-- The GRAFT lets in no peer without a writer. -/
def GraftGuard (config : Config) (p nowUs : Nat) (graft : ControlGraft) (r : Router) : Prop :=
  admits config r p nowUs graft = true → r.isWriter p = true

theorem processBeforeGrafts_touches (config : Config) (p : Nat) (rpc : Rpc) (nowUs : Nat) :
    Touches [.topics, .peerTopics, .events, .validations, .tx, .grafts, .mesh, .random,
      .idontwantSent, .unwanted, .queued, .mcache, .messages, .seen, .accepted, .idontwant]
      (processBeforeGrafts config p rpc nowUs) := by
  refine .bind (.forOk fun sub => ?_) fun _ => .bind (.forOk fun message => .absorb ?_) fun _ =>
    .forOk fun x => ?_
  · exact (processSubscription_touches ..).mono (by decide)
  · exact (processMessage_touches ..).mono (by decide)
  · exact (processIdontwant_touches ..).mono (by decide)

namespace MeshInvariant

variable {config : RouterConfig} {ordered guarded : Prop} {r r' : Router} {p t : Nat}

/-- A topic slot that was just added has no local subscription. -/
theorem findTopic_of_accepted {topic : Span} {nowUs : Nat}
    (hrun : Gossipsub.findOrAddTopic config.toConfig topic r = (.ok (some t), r'))
    (haccepted : graftAccepted config.toConfig r' p t nowUs = true) :
    findTopic config.toConfig r topic = some t ∧ r' = r := by
  unfold Gossipsub.findOrAddTopic at hrun
  split at hrun
  · cases hrun
  · split at hrun
    · rename_i u hu
      cases hrun
      exact ⟨hu, rfl⟩
    · split at hrun
      · cases hrun
      · cases hrun
        simp [graftAccepted, Router.setTopic] at haccepted

/-- A GRAFT keeps the invariant when it lets in no peer without a writer. -/
theorem processGraft {nowUs : Nat} {graft : ControlGraft}
    (h : MeshInvariant config.toConfig ordered guarded r) (hnow : r.lastDriveUs = nowUs)
    (hguard : guarded → admits config.toConfig r p nowUs graft = true → r.isWriter p = true) :
    MeshInvariant config.toConfig ordered guarded
      (processGraft config.toConfig p nowUs graft r).2 := by
  unfold Gossipsub.processGraft continueAfterLocalLimit
  rw [Comp.absorb_state]
  refine Comp.after_bind (fun e r' hrun => ?_) fun o r' hrun => ?_
  · have hadd := findOrAddTopic graft.topic r h
    rwa [hrun] at hadd
  · have hadd := findOrAddTopic graft.topic r h
    rw [hrun] at hadd
    have hclock : r'.lastDriveUs = nowUs :=
      (((findOrAddTopic_touches ..).of_run hrun).lastDriveUs (by decide)).trans hnow
    cases o with
    | none => exact hadd
    | some t =>
      unfold orFail
      rw [Comp.bind_of_ok (Comp.pure_apply ..), Comp.read_id_bind]
      split
      · rename_i haccepted
        rcases findTopic_of_accepted hrun haccepted with ⟨hfind, rfl⟩
        have haccepted' := haccepted
        unfold graftAccepted at haccepted'
        simp only [Bool.and_eq_true, Bool.not_eq_true'] at haccepted'
        rcases haccepted' with ⟨⟨hlocal, hbackoff⟩, -⟩
        apply hadd.meshAdd hlocal
        · intro _
          rwa [hclock]
        · intro hguarded
          by_cases hmem : (p, t) ∈ r'.mesh.pairs config.toConfig
          · exact hadd.writer hguarded p t hmem
          · have hwriter : r'.isWriter p = true := by
              apply hguard hguarded
              have houtside : meshContains config.toConfig r' p t = false :=
                Bool.eq_false_iff.mpr fun hin => hmem (meshContains_iff.mp hin)
              unfold admits
              rw [hfind]
              simp [haccepted, houtside]
            unfold Router.isWriter at hwriter
            exact (Bool.and_eq_true_iff.mp hwriter).2
      · rename_i hrefused
        apply hadd.refuseGraft
        apply hadd.not_mem_of_refused
        rw [hclock]
        exact Bool.eq_false_iff.mpr hrefused

theorem processPrune (p nowUs : Nat) (prune : ControlPrune) :
    Comp.Keeps (MeshInvariant config.toConfig ordered guarded)
      (processPrune config.toConfig p nowUs prune) := by
  refine .absorb ?_
  intro r h
  rw [Comp.read_id_bind]
  cases findTopic config.toConfig r prune.topic with
  | none => exact h
  | some t =>
    have hnot := meshRemove_not_mem config p t h.nodup
    exact (h.meshRemove p t).backoffAdd (fun _ => hnot) _ nowUs

theorem processBeforeGrafts (p : Nat) (rpc : Rpc) (nowUs : Nat) :
    Comp.Keeps (MeshInvariant config.toConfig ordered guarded)
      (processBeforeGrafts config.toConfig p rpc nowUs) := by
  refine .bind (.forOk fun sub _ => processSubscription p sub) fun _ => ?_
  refine .bind (.forOk fun message _ => .absorb ?_) fun _ => .forOk fun x _ => ?_
  · exact of_touches (processMessage_touches ..) (by decide)
  · exact of_touches (processIdontwant_touches ..) (by decide)

section Rpc

variable {rpc : Rpc} {nowUs : Nat}
    (h : MeshInvariant config.toConfig ordered guarded r) (hnow : r.lastDriveUs = nowUs)
    (hguard : guarded → ∀ r',
      Gossipsub.processBeforeGrafts config.toConfig p rpc nowUs r = (.ok (), r') →
      Comp.Visits (Gossipsub.processGraft config.toConfig p nowUs)
        (GraftGuard config.toConfig p nowUs) rpc.control.graft r')

include h hnow hguard

theorem processRpcElements : MeshInvariant config.toConfig ordered guarded
      (processRpcElements config.toConfig p rpc nowUs r).2 := by
  rw [processRpcElements_eq]
  have hbefore := processBeforeGrafts p rpc nowUs r h
  refine Comp.after_bind (fun e r' hrun => ?_) fun _ r' hrun => ?_
  · rwa [hrun] at hbefore
  rw [hrun] at hbefore
  have hclock : r'.lastDriveUs = nowUs :=
    (((processBeforeGrafts_touches ..).of_run hrun).lastDriveUs (by decide)).trans hnow
  have hvisits : Comp.Visits (Gossipsub.processGraft config.toConfig p nowUs)
      (fun graft r => guarded → GraftGuard config.toConfig p nowUs graft r)
      rpc.control.graft r' := by
    by_cases hguarded : guarded
    · exact (hguard hguarded r' hrun).mono fun _ _ hx _ => hx
    · exact Comp.visits_of_forall (fun _ _ hg => absurd hg hguarded) _ _
  have hgrafts := Comp.forOk_of_visits
    (I := fun r => MeshInvariant config.toConfig ordered guarded r ∧ r.lastDriveUs = nowUs)
    (fun graft s hguard hs => ?_) hvisits ⟨hbefore, hclock⟩
  · refine Comp.after_bind (fun e r'' hrun => ?_) fun _ r'' hrun => ?_
    · rw [hrun] at hgrafts
      exact hgrafts.1
    · rw [hrun] at hgrafts
      exact Comp.Keeps.forOk (fun prune _ => processPrune p nowUs prune) r'' hgrafts.1
  · refine ⟨hs.1.processGraft hs.2 hguard, ?_⟩
    have hagrees := (processGraft_touches config.toConfig p nowUs graft).agrees s
    exact (hagrees.lastDriveUs (by decide)).trans hs.2

/-- `gossipsub_process_rpc`. -/
theorem processRpc : MeshInvariant config.toConfig ordered guarded
      (processRpc config.toConfig p rpc nowUs r).2 := by
  unfold Gossipsub.processRpc
  split
  · exact h
  have helements := h.processRpcElements hnow hguard
  refine Comp.after_bind (fun e r' hrun => ?_) fun _ r' hrun => ?_
  · rwa [hrun] at helements
  · rw [hrun] at helements
    refine Comp.Keeps.bind (.forOk fun iwant _ => .forOk fun id _ => ?_)
      (fun _ => .forOk fun ihave _ => .forOk fun id _ => ?_) r' helements
    · exact of_touches (processIwantId_touches ..) (by decide)
    · exact of_touches (processIhaveId_touches ..) (by decide)

end Rpc

/-! ## Application -/

theorem announceSubscription (t : Nat) (subscribe : UInt8) :
    Comp.Keeps (MeshInvariant config.toConfig ordered guarded)
      (announceSubscription config.toConfig t subscribe) :=
  of_touches (announceSubscription_touches ..) (by decide)

theorem subscribe (request : TopicConfig) :
    Comp.Keeps (MeshInvariant config.toConfig ordered guarded)
      (subscribe config.toConfig request) := by
  refine .ite (fun _ => .fail _) fun _ r h => ?_
  have hadd := findOrAddTopic request.topic r h
  refine Comp.after_bind (fun e r' hrun => ?_) fun o r' hrun => ?_
  · rwa [hrun] at hadd
  rw [hrun] at hadd
  cases o with
  | none => exact hadd
  | some t =>
    unfold orFail
    rw [Comp.bind_of_ok (Comp.pure_apply ..), Comp.bind_of_ok (Comp.update_apply ..)]
    have hused := (findOrAddTopic_some hrun).2.1
    have hset : MeshInvariant config.toConfig ordered guarded
        (r'.setTopic t ((r'.topics t).subscribe config.toConfig request)) :=
      hadd.setTopic (fun _ _ => rfl) fun _ => hused
    have hannounce := announceSubscription t 1 _ hset
    refine Comp.after_bind (fun e r'' hrun => ?_) fun _ r'' hrun => ?_
    · rwa [hrun] at hannounce
    · rw [hrun] at hannounce
      have htopics : r''.topics = (r'.setTopic t _).topics :=
        ((announceSubscription_touches ..).of_run hrun).eq .topics (by decide)
      apply hannounce.meshFillTopic
      rw [htopics]
      simp [Router.setTopic, Topic.subscribe]

theorem unsubscribe (topic : Span) : Comp.Keeps (MeshInvariant config.toConfig ordered guarded)
    (unsubscribe config.toConfig topic) := by
  refine .ite (fun _ => .fail _) fun _ => .bind (.read _) fun r => ?_
  refine .bind (of_touches (orFail_touches [] ..) (by decide)) fun t => ?_
  refine .bind (meshTrimTopic t 0 true) fun _ r h => ?_
  rw [Comp.bind_of_ok (Comp.update_apply ..), Comp.bind_of_ok (Comp.update_apply ..)]
  apply announceSubscription t 0
  have hremove : MeshInvariant config.toConfig ordered guarded
      (meshRemoveTopic config.toConfig t r) := h.shrink (Mesh.clearWhere_shrinks ..)
  apply hremove.setTopic
  · intro p hmem
    exact absurd rfl (meshRemoveTopic_ne config t r hmem)
  · intro hlocal
    cases hlocal

theorem publish (request : Publish) (outLen : Option Nat) :
    Comp.Keeps (MeshInvariant config.toConfig ordered guarded)
      (publish config.toConfig request outLen) := by
  refine .ite (fun _ => .fail _) fun _ => .bind (.ofResult _) fun messageId => ?_
  refine .ite (fun _ => .fail _) fun _ => .bind (findOrAddTopic request.topic) fun o => ?_
  refine .bind (of_touches (orFail_touches [] ..) (by decide)) fun t => ?_
  refine .bind (of_touches (mcacheStore_touches ..) (by decide)) fun slot => ?_
  refine .bind (.update fun r h => h.of_agrees (seenAdd_agrees ..) (by decide)) fun _ => ?_
  refine .bind (.read _) fun r => .bind ?_ fun _ => .pure _
  exact of_touches (publishEntry_touches ..) (by decide)

theorem setPeerExplicit (peerId : Bytes) (isExplicit : Bool) :
    Comp.Keeps (MeshInvariant config.toConfig ordered guarded)
      (setPeerExplicit config.toConfig peerId isExplicit) := by
  refine .ite (fun _ => .fail _) fun _ => .bind (.read _) fun r => ?_
  refine .bind (of_touches (orFail_touches [] ..) (by decide)) fun p => ?_
  exact .update fun r h => h.updatePeer rfl rfl

/-! ## Host -/

section Clock

variable (h : MeshInvariant config.toConfig ordered guarded r)

include h

theorem start (nowUs : Nat) (hclock : ordered → r.lastDriveUs ≤ nowUs) :
    MeshInvariant config.toConfig ordered guarded (start config.toConfig nowUs r) :=
  h.of_later (start_agrees ..) (by decide) hclock

theorem heartbeatMesh (nowUs : Nat) :
    MeshInvariant config.toConfig ordered guarded (heartbeatMesh config.toConfig nowUs r) := by
  apply meshHeartbeat
  have hreset := h.of_agrees (resetIdontwantSent_agrees config.toConfig r) (by decide)
  exact
    { nodup := hreset.nodup
      counted := hreset.counted
      peer := hreset.peer
      topic := hreset.topic
      used := hreset.used
      excluded := fun hordered p t hmem =>
        backoffClearExpired_active (hreset.excluded hordered p t hmem)
      grafts := hreset.grafts
      writer := hreset.writer }

theorem heartbeat (nowUs : Nat) :
    MeshInvariant config.toConfig ordered guarded (heartbeat config.toConfig nowUs r) := by
  have hgossip : MeshInvariant config.toConfig ordered guarded
      (emitGossip config.toConfig (Gossipsub.heartbeatMesh config.toConfig nowUs r)).2 :=
    of_touches (emitGossip_touches config.toConfig) (by decide) _ (h.heartbeatMesh nowUs)
  exact hgossip.of_later (expireTables_agrees ..) (by decide) fun _ => Nat.le_refl _

theorem drive (nowUs : Nat) (answers : WriteAnswers)
    (hclock : ordered → r.lastDriveUs ≤ nowUs) :
    MeshInvariant config.toConfig ordered guarded (drive config.toConfig nowUs answers r).2 := by
  unfold Gossipsub.drive
  rw [Comp.bind_of_ok (Comp.update_apply ..), Comp.bind_of_ok (Comp.update_apply ..)]
  apply of_touches (flushReady_touches ..) (by decide)
  have hlater : MeshInvariant config.toConfig ordered guarded
      { r with tx := txDropStale config.toConfig r.peers nowUs r.tx, lastDriveUs := nowUs } := by
    exact h.of_later (setTime_agrees ..) (by decide) hclock
  split
  · exact hlater.heartbeat nowUs
  · exact hlater

end Clock

theorem openStream (stream conn : Nat) (peerId : Except GossipsubErr Bytes)
    (direction : Host.Direction) (version : ProtocolVersion) :
    Comp.Keeps (MeshInvariant config.toConfig ordered guarded)
      (openStream config.toConfig stream conn peerId direction version) := by
  refine .bind (peerFromConn conn peerId) fun p => ?_
  refine .bind (of_touches (allocStream_touches _) (by decide)) fun o => ?_
  refine .bind (of_touches (orFail_touches [] ..) (by decide)) fun i => ?_
  refine .bind (.update fun r h => h.of_agrees (setStream_agrees r i _) (by decide)) fun _ => ?_
  refine .bind (.read _) fun r₀ => .bind (.onlyIf fun _ => .update fun r h => ?_) fun _ => .pure _
  have hset : MeshInvariant config.toConfig ordered guarded (r.setPeer p { r.peers p with
      stream := some stream
      direction := direction
      version := version }) := by
    apply h.setPeer
    · exact fun t hmem => (h.peer p t hmem).2
    · exact fun _ _ _ => rfl
  exact hset.of_agrees (setSent_agrees ..) (by decide)

theorem protocolOnOpen (stream conn : Nat) (peerId : Except GossipsubErr Bytes)
    (direction : Host.Direction) (version : ProtocolVersion) :
    Comp.Keeps (MeshInvariant config.toConfig ordered guarded)
      (protocolOnOpen config.toConfig stream conn peerId direction version) :=
  .bind (openStream stream conn peerId direction version) fun _ =>
    of_touches (announceOpen_touches ..) (by decide)

/-- A peer that loses its writer leaves the mesh first. -/
theorem dropWriter (h : MeshInvariant config.toConfig ordered guarded r) (p : Nat) :
    MeshInvariant config.toConfig ordered guarded (dropWriter config.toConfig p r) := by
  have hremove : MeshInvariant config.toConfig ordered guarded (meshRemovePeer config.toConfig p
      { r with tx := dropQueuedPeer config.toConfig r.peers p r.tx }) :=
    (h.setTx _).shrink (Mesh.clearWhere_shrinks ..)
  unfold Gossipsub.dropWriter
  refine setTx (hremove.setPeer ?_ ?_) _
  · exact fun t hmem => (hremove.peer p t hmem).2
  · intro t hmem
    exact absurd rfl (meshRemovePeer_ne config p _ hmem)

theorem streamEnd (i : Nat) : Comp.Keeps (MeshInvariant config.toConfig ordered guarded)
    (streamEnd config.toConfig i) := by
  refine .bind (.read _) fun r => .bind (.onlyIf fun _ => .bind ?_ fun _ => ?_) fun _ => ?_
  · exact of_touches (pushEventOrDrop_touches ..) (by decide)
  · exact .update fun r h => h.dropWriter _
  · exact .update fun r h => h.of_agrees (setStream_agrees r i _) (by decide)

theorem connClosed (conn : Nat) : Comp.Keeps (MeshInvariant config.toConfig ordered guarded)
    (connClosed config.toConfig conn) := by
  refine .bind (.forOk fun p _ => .bind (.read _) fun r => .onlyIf fun _ => ?_) fun _ => ?_
  · refine .bind (of_touches (pushEventOrDrop_touches ..) (by decide)) fun _ => ?_
    refine .bind (.update fun r h => h.dropWriter p) fun _ => ?_
    exact .update fun r h => h.updatePeer rfl rfl
  · exact .update fun r h => h.of_agrees (closeStreams_agrees ..) (by decide)

end MeshInvariant

/-! ## Runs -/

/-- The time that an action passes to the router. -/
def Action.time : Action → Option Nat
  | .start nowUs => some nowUs
  | .drive nowUs _ => some nowUs
  | _ => none

/-- Time does not go backwards in this step. -/
def Action.Ordered (s : Node) (action : Action) : Prop :=
  ∀ nowUs ∈ action.time, s.router.lastDriveUs ≤ nowUs

instance (s : Node) (action : Action) : Decidable (action.Ordered s) :=
  inferInstanceAs (Decidable (∀ nowUs ∈ action.time, s.router.lastDriveUs ≤ nowUs))

/-- The step lets in no peer without a writer: no GRAFT of the RPC received does, in the state in
    which the RPC loop comes to it. -/
def Action.Guarded (config : Config) (s : Node) : Action → Prop
  | .receive i body => ∀ rpc r', i < config.capacity.maxStreams → (s.router.streams i).isOpen →
      rpcBodyDecode (s.router.streams i).version config.limits decodeStorage body = .ok rpc →
      processBeforeGrafts config (s.router.streams i).peerIndex rpc s.router.lastDriveUs s.router =
        (.ok (), r') →
      Comp.Visits
        (processGraft config (s.router.streams i).peerIndex s.router.lastDriveUs)
        (GraftGuard config (s.router.streams i).peerIndex s.router.lastDriveUs)
        rpc.control.graft r'
  | _ => True

namespace MeshInvariant

variable {config : RouterConfig} {ordered guarded : Prop}

theorem init : MeshInvariant config.toConfig ordered guarded .init := by
  have hnone : Router.init.mesh.pairs config.toConfig = [] := by
    unfold Mesh.pairs entries
    apply List.filterMap_eq_nil_iff.mpr
    intro i _
    rfl
  have hempty : ∀ p t, (p, t) ∉ Router.init.mesh.pairs config.toConfig := by
    intro p t hmem
    rw [hnone] at hmem
    cases hmem
  exact
    { nodup := hnone ▸ List.nodup_nil
      counted := by
        unfold Mesh.Counted
        rw [hnone]
        rfl
      peer := fun p t hmem => absurd hmem (hempty p t)
      topic := fun p t hmem => absurd hmem (hempty p t)
      used := fun t hlocal => nomatch hlocal
      excluded := fun _ p t hmem => absurd hmem (hempty p t)
      grafts := fun graft hmem => nomatch hmem
      writer := fun _ p t hmem => absurd hmem (hempty p t) }

theorem receive {s : Node} {i : Nat} {body : Bytes}
    (h : MeshInvariant config.toConfig ordered guarded s.router)
    (hguarded : guarded → (Action.receive i body).Guarded config.toConfig s) :
    MeshInvariant config.toConfig ordered guarded
      (receive config.toConfig i body s.router).2 := by
  rcases receive_cases config.toConfig i body s.router with hsame | ⟨rpc, hopen, hdecode, hrpc⟩
  · rwa [hsame]
  · rw [hrpc]
    apply h.processRpc rfl
    intro hg r' hbefore
    exact hguarded hg rpc r' hopen.1 hopen.2 hdecode hbefore

/-- One step keeps the invariant. -/
theorem step {s : Node} {action : Action}
    (h : MeshInvariant config.toConfig ordered guarded s.router)
    (hordered : ordered → action.Ordered s)
    (hguarded : guarded → action.Guarded config.toConfig s) :
    MeshInvariant config.toConfig ordered guarded (s.step config.toConfig action).router := by
  change MeshInvariant _ _ _ (action.comp config.toConfig s.received s.router).2
  cases action with
  | start nowUs => exact h.start nowUs fun ho => hordered ho nowUs rfl
  | close => exact h.of_later (close_agrees _) (by decide) fun _ => Nat.le_refl _
  | drive nowUs answers => exact h.drive nowUs answers fun ho => hordered ho nowUs rfl
  | subscribe request => exact subscribe request _ h
  | unsubscribe topic => exact unsubscribe topic _ h
  | publish request outLen => exact Comp.Keeps.bind (publish request outLen) (fun _ => .pure _) _ h
  | report k value =>
    rw [Action.comp]
    cases reportedToken s.received k with
    | none => exact h
    | some v => exact of_touches (reportValidation_touches ..) (by decide) _ h
  | nextEvent =>
    exact Comp.Keeps.bind (of_touches (nextEvent_touches _) (by decide)) (fun _ => .pure _) _ h
  | setPeerExplicit peerId isExplicit => exact setPeerExplicit peerId isExplicit _ h
  | streamOpen stream conn peerId direction protocol => exact protocolOnOpen _ _ _ _ _ _ h
  | receive i body => exact h.receive hguarded
  | writable i => exact h.of_agrees (streamWritable_agrees ..) (by decide)
  | streamEnd i => exact streamEnd i _ h
  | connClosed conn => exact connClosed conn _ h
  | streamOpenFailed reason => exact of_touches (pushEventOrDrop_touches ..) (by decide) _ h

end MeshInvariant

/-- In every reachable state the mesh has no pair twice, its pairs are of known peers and locally
    subscribed topics, and `libp2p_gossipsub_mesh_peer_count` counts them. -/
theorem mesh_sound (config : RouterConfig) (actions : List Action) :
    let r := (Node.init.run config.toConfig actions).router
    (r.mesh.pairs config.toConfig).Nodup ∧
      (∀ p t, (p, t) ∈ r.mesh.pairs config.toConfig →
        p < config.capacity.maxPeers ∧ (r.peers p).used = true ∧
        t < config.capacity.maxTopics ∧ (r.topics t).used = true ∧
        (r.topics t).localSubscribed = true) ∧
      meshPeerCount r = (r.mesh.pairs config.toConfig).length := by
  intro r
  have h : MeshInvariant config.toConfig False False r := by
    apply Lib.run_keeps (P := fun _ _ => True) (I := fun s : Node =>
      MeshInvariant config.toConfig False False s.router)
    · exact runMeets_of_forall fun _ _ => trivial
    · exact MeshInvariant.init
    · intro s action _ hs
      exact hs.step False.elim False.elim
  refine ⟨h.nodup, ?_, h.counted⟩
  intro p t hmem
  rcases h.peer p t hmem with ⟨hp, hpused⟩
  rcases h.topic p t hmem with ⟨ht, hlocal⟩
  exact ⟨hp, hpused, ht, h.used t hlocal, hlocal⟩

/-- When time does not go backwards, no pair in the mesh is in backoff, and no GRAFT was queued
    for a pair in backoff. -/
theorem mesh_excludes_backoff (config : RouterConfig) (actions : List Action)
    (hordered : Node.init.Meets config.toConfig (fun s action => action.Ordered s) actions) :
    let r := (Node.init.run config.toConfig actions).router
    (∀ p t, meshContains config.toConfig r p t = true →
      backoffActive config.toConfig r p t r.lastDriveUs = false) ∧
      ∀ graft ∈ r.history.grafts, graft.inBackoff = false := by
  intro r
  have h : MeshInvariant config.toConfig True False r := by
    apply Lib.run_keeps (I := fun s : Node => MeshInvariant config.toConfig True False s.router) hordered
    · exact MeshInvariant.init
    · intro s action hstep hs
      exact hs.step (fun _ => hstep) False.elim
  refine ⟨?_, h.grafts⟩
  intro p t hmem
  exact h.excluded trivial p t (meshContains_iff.mp hmem)

/-- A peer subscribes, is grafted, prunes the router and may not come back for a minute. -/
def pruneRun : List Action :=
  [.start 5,
   .subscribe ⟨.ptr [7], .acceptAll, false, 0⟩,
   .streamOpen 1 1 (.ok [1]) .outbound .v11,
   .receive 0 [0x0a, 5, 0x08, 1, 0x12, 1, 7],
   .receive 0 [0x1a, 5, 0x22, 3, 0x0a, 1, 7],
   .receive 0 [0x1a, 5, 0x1a, 3, 0x0a, 1, 7],
   .drive 10 fun _ => .ok 100]

theorem mesh_excludes_backoff_pruneRun :
    let r := (Node.init.run RouterConfig.small.toConfig pruneRun).router
    (∀ p t, meshContains RouterConfig.small.toConfig r p t = true →
      backoffActive RouterConfig.small.toConfig r p t r.lastDriveUs = false) ∧
      ∀ graft ∈ r.history.grafts, graft.inBackoff = false := by
  apply mesh_excludes_backoff RouterConfig.small pruneRun
  decide +kernel

/-- When no step lets in a peer without a writer, every peer in the mesh has one. -/
theorem meshPeers_reachable (config : RouterConfig) (actions : List Action)
    (hguarded : Node.init.Meets config.toConfig (Action.Guarded config.toConfig) actions) :
    let r := (Node.init.run config.toConfig actions).router
    ∀ p t, meshContains config.toConfig r p t = true → (r.peers p).stream.isSome = true := by
  intro r
  have h : MeshInvariant config.toConfig False True r := by
    apply Lib.run_keeps (I := fun s : Node => MeshInvariant config.toConfig False True s.router) hguarded
    · exact MeshInvariant.init
    · intro s action hstep hs
      exact hs.step False.elim fun _ => hstep
  intro p t hmem
  exact h.writer trivial p t (meshContains_iff.mp hmem)

/-- A peer opens a writer stream and is let in with a GRAFT. -/
def outboundGraftRun : List Action :=
  [.subscribe ⟨.ptr [7], .acceptAll, false, 0⟩,
   .streamOpen 1 1 (.ok [1]) .outbound .v11,
   .receive 0 [0x1a, 5, 0x1a, 3, 0x0a, 1, 7]]

theorem meshPeers_reachable_outboundGraftRun :
    let r := (Node.init.run RouterConfig.small.toConfig outboundGraftRun).router
    ∀ p t, meshContains RouterConfig.small.toConfig r p t = true →
      (r.peers p).stream.isSome = true := by
  apply meshPeers_reachable RouterConfig.small outboundGraftRun
  refine ⟨trivial, trivial, ?_, trivial⟩
  intro rpc r' _ _ hdecode hbefore
  have hrpc : rpcBodyDecode .v11 RouterConfig.small.limits decodeStorage
      [0x1a, 5, 0x1a, 3, 0x0a, 1, 7] =
        .ok (.ofControl { RpcControl.zero with graft := [⟨.ptr [7]⟩] }) := by decide
  cases hrpc.symm.trans hdecode
  refine ⟨fun _ => ?_, fun _ _ => trivial⟩
  rw [show r' = _ from (congrArg Prod.snd hbefore).symm]
  decide

/-- A peer that only opened an inbound stream sends a GRAFT. -/
def inboundGraftRun : List Action :=
  [.subscribe ⟨.ptr [7], .acceptAll, false, 0⟩,
   .streamOpen 1 1 (.ok [1]) .inbound .v11,
   .receive 0 [0x1a, 5, 0x1a, 3, 0x0a, 1, 7]]

set_option maxRecDepth 4000 in
/-- It is in the mesh without a writer. -/
theorem meshPeers_unreachable : ¬ ∀ (config : RouterConfig) (actions : List Action) (p t : Nat),
    meshContains config.toConfig (Node.init.run config.toConfig actions).router p t = true →
      ((Node.init.run config.toConfig actions).router.peers p).stream.isSome = true := by
  intro h
  have hwriter := h RouterConfig.small inboundGraftRun 0 0 (by decide)
  exact absurd hwriter (by decide)

end LeanLibp2p.Gossipsub
