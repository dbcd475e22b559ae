import LeanLibp2p.Gossipsub.Router.Queueing
import LeanLibp2p.Gossipsub.Router.Streams
import LeanLibp2p.Gossipsub.Tx.Flushing

/-!
# Transmitting in a run

Whatever happens to a router, its transmit state with its peers is a state of the machine of
`TxStep`. Its invariant then holds in every state that a run comes to.
-/

namespace LeanLibp2p.Gossipsub

open LeanLibp2p.Lib

/-- The transmit side of a router between two calls, where no item is reserved. -/
def Router.side (r : Router) (written : Nat → Bytes) : TxSide := ⟨r.peers, r.tx, none, written⟩

/-- The transmit side is a state of the machine. -/
def Transmits (config : Config) (r : Router) : Prop :=
  ∃ written, TxReachable config (r.side written)

/-- What `libp2p_gossipsub_drive` does before it flushes. -/
def beforeFlush (config : Config) (nowUs : Nat) (r : Router) : Router :=
  let r := { r with tx := txDropStale config r.peers nowUs r.tx, lastDriveUs := nowUs }
  if r.started ∧ r.nextHeartbeatUs ≤ nowUs then heartbeat config nowUs r else r

namespace Transmits

variable {config : RouterConfig} {r r' : Router}

theorem init : Transmits config.toConfig .init := ⟨fun _ => [], .refl⟩

/-- A peer may change but for its flag and its writer. -/
theorem setPeers (h : Transmits config.toConfig r) (htx : r'.tx = r.tx)
    (hused : ∀ p, (r'.peers p).used = (r.peers p).used)
    (hstream : ∀ p, (r'.peers p).stream = (r.peers p).stream) :
    Transmits config.toConfig r' := by
  rcases h with ⟨written, h⟩
  refine ⟨written, ?_⟩
  have hpeers := h.step (.peers hused hstream)
  unfold Router.side at hpeers ⊢
  rwa [htx]

theorem of_agrees {touched : List Part} (h : Transmits config.toConfig r)
    (hagrees : Router.Agrees touched r r')
    (huntouched : Part.untouched [.tx, .peers] touched = true) : Transmits config.toConfig r' := by
  have hpeers : Part.peers ∉ touched := Part.not_mem_of_untouched huntouched (by simp)
  apply h.setPeers (hagrees.eq .tx (Part.not_mem_of_untouched huntouched (by simp)))
  · exact fun p => hagrees.peer hpeers p Peer.used fun _ => rfl
  · exact fun p => hagrees.peer hpeers p Peer.stream fun _ => rfl

theorem of_touches {α : Type} {touched : List Part} {c : RouterM α} (hc : Touches touched c)
    (huntouched : Part.untouched [.tx, .peers] touched = true) :
    Comp.Keeps (Transmits config.toConfig) c :=
  hc.keeps fun _ _ hagrees h => h.of_agrees hagrees huntouched

theorem orFail {α : Type} (e : GossipsubErr) (o : Option α) :
    Comp.Keeps (Transmits config.toConfig) (orFail e o) := of_touches (orFail_touches [] e o) rfl

theorem updatePeer (h : Transmits config.toConfig r) {p : Nat} {peer : Peer}
    (hused : peer.used = (r.peers p).used) (hstream : peer.stream = (r.peers p).stream) :
    Transmits config.toConfig (r.setPeer p peer) := by
  apply h.setPeers
  · rfl
  · intro q
    by_cases hq : q = p
    · simp [Router.setPeer, hq, hused]
    · simp [Router.setPeer, hq]
  · intro q
    by_cases hq : q = p
    · simp [Router.setPeer, hq, hstream]
    · simp [Router.setPeer, hq]

/-! ## Sending -/

theorem enqueueRpc (p : Nat) (rpc : Rpc) (lifetimeUs : Nat) (priority : Bool) :
    Comp.Keeps (Transmits config.toConfig)
      (enqueueRpc config.toConfig p rpc lifetimeUs priority) := by
  intro r h
  rcases h with ⟨written, h⟩
  exact h.enqueue rfl p rpc lifetimeUs priority (txEffectiveNowUs r)

/-- What a heartbeat queues it enqueues. -/
theorem queueing (config : RouterConfig) :
    Queueing config.toConfig (Transmits config.toConfig) where
  tables h hagrees := h.of_agrees hagrees rfl
  enqueue := enqueueRpc

theorem enqueueIhave (p : Nat) (topic : Topic) (entries : List McacheEntry) :
    Comp.Keeps (Transmits config.toConfig) (enqueueIhave config.toConfig p topic entries) :=
  (queueing config).enqueueIhave p topic entries

theorem enqueuePublishEntryWithLifetime (p : Nat) (entry : McacheEntry) (lifetimeUs : Nat)
    (priority : Bool) :
    Comp.Keeps (Transmits config.toConfig)
      (enqueuePublishEntryWithLifetime config.toConfig p entry lifetimeUs priority) := by
  intro r h
  rcases h with ⟨written, h⟩
  have hqueued := h.enqueuePublish rfl p (entryRpc r.mcache entry) entry.messageId lifetimeUs
    priority (txEffectiveNowUs r)
  rcases hqueued with ⟨written', hreached⟩
  change TxReachable config.toConfig ⟨r.peers, (enqueuePublishWithLifetime config.toConfig r.peers p
    (entryRpc r.mcache entry) entry.messageId lifetimeUs priority (txEffectiveNowUs r) r.tx).2,
    none, written'⟩ at hreached
  unfold Gossipsub.enqueuePublishEntryWithLifetime
  rcases hrun : enqueuePublishWithLifetime config.toConfig r.peers p (entryRpc r.mcache entry)
    entry.messageId lifetimeUs priority (txEffectiveNowUs r) r.tx with ⟨e | i, tx⟩
  · rw [hrun] at hreached
    exact ⟨written', hreached⟩
  · rw [hrun] at hreached
    exact ⟨written', hreached⟩

theorem enqueueIdontwantForEntry (p : Nat) (topic : Topic) (entry : McacheEntry) :
    Comp.Keeps (Transmits config.toConfig)
      (enqueueIdontwantForEntry config.toConfig p topic entry) := by
  refine .bind (.read _) fun r => .ite (fun _ => .fail _) fun _ => .ite (fun _ => ?_) fun _ => .pure _
  refine .bind (enqueueRpc _ _ _ _) fun _ => .update fun r h => ?_
  have hcounted : Transmits config.toConfig (r.setPeer p { r.peers p with
      idontwantSentThisHeartbeat := (r.peers p).idontwantSentThisHeartbeat + 1 }) :=
    h.updatePeer rfl rfl
  exact hcounted.of_agrees (recordUnwanted_agrees p _ _) rfl

theorem report (h : Transmits config.toConfig r) (p : Nat) :
    Transmits config.toConfig
      { r with tx := r.tx.setPeer p { r.tx.peer p with queueLimitReported := true } } := by
  rcases h with ⟨written, h⟩
  exact ⟨written, h.step (.report p)⟩

theorem pushEventOrDrop (event : Event) :
    Comp.Keeps (Transmits config.toConfig) (pushEventOrDrop config.toConfig event) :=
  of_touches (pushEventOrDrop_touches ..) rfl

theorem enqueueIdontwantForReceivedEntry (topic : Topic) (slot : Nat) (entry : McacheEntry) :
    Comp.Keeps (Transmits config.toConfig)
      (enqueueIdontwantForReceivedEntry config.toConfig topic slot entry) := by
  refine .bind (.read _) fun r => .bind (orFail _ _) fun t => ?_
  refine .forOk fun p _ => .bind (.read _) fun r => .ite (fun _ => ?_) fun _ => .pure _
  refine .bind (.result (enqueueIdontwantForEntry _ _ _)) fun res => ?_
  cases res with
  | ok _ => exact .pure _
  | error e =>
    refine .ite (fun _ => ?_) fun _ => .fail _
    refine .bind (.read _) fun r => .ite (fun _ => .pure _) fun _ => ?_
    exact .bind (pushEventOrDrop _) fun _ => .update fun r h => h.report p

theorem sendEntry (p : Nat) (topic : Topic) (entry : McacheEntry) {publish : RouterM Unit}
    (hpublish : Comp.Keeps (Transmits config.toConfig) publish) :
    Comp.Keeps (Transmits config.toConfig) (sendEntry config.toConfig p topic entry publish) :=
  .absorb (.bind (.absorb (enqueueIdontwantForEntry p topic entry)) fun _ => hpublish)

theorem forwardEntry (source : Nat) (entry : McacheEntry) :
    Comp.Keeps (Transmits config.toConfig) (forwardEntry config.toConfig source entry) := by
  refine .bind (.read _) fun r => .bind (orFail _ _) fun t => .forOk fun p _ => ?_
  refine .bind (.read _) fun r => .ite (fun _ => ?_) fun _ => .pure _
  exact sendEntry p _ entry (enqueuePublishEntryWithLifetime _ _ _ _)

/-! ## Mesh and gossip -/

theorem meshFillPeer (t p : Nat) (queueGraft : Bool) :
    Comp.Keeps (Transmits config.toConfig) (meshFillPeer config.toConfig t p queueGraft) :=
  (queueing config).meshFillPeer t p queueGraft

theorem meshFillTopic (t target : Nat) (queueGraft : Bool) :
    Comp.Keeps (Transmits config.toConfig)
      (meshFillTopic config.toConfig t target queueGraft) :=
  (queueing config).meshFillTopic t target queueGraft

theorem meshTrimPeer (t p : Nat) (queuePrune : Bool) :
    Comp.Keeps (Transmits config.toConfig) (meshTrimPeer config.toConfig t p queuePrune) :=
  (queueing config).meshTrimPeer t p queuePrune

theorem meshTrimTopic (t target : Nat) (queuePrune : Bool) :
    Comp.Keeps (Transmits config.toConfig)
      (meshTrimTopic config.toConfig t target queuePrune) :=
  (queueing config).meshTrimTopic t target queuePrune

theorem heartbeat (h : Transmits config.toConfig r) (nowUs : Nat) :
    Transmits config.toConfig (heartbeat config.toConfig nowUs r) :=
  Transmits.of_agrees ((queueing config).heartbeat h nowUs) (expireTables_agrees ..) rfl

/-! ## Received RPCs -/

theorem processSubscription (p : Nat) (sub : RpcSubscription) :
    Comp.Keeps (Transmits config.toConfig) (processSubscription config.toConfig p sub) := by
  refine .absorb (.ite (fun _ => .fail _) fun _ => ?_)
  refine .bind (of_touches (findOrAddTopic_touches ..) rfl) fun o => .bind (orFail _ _) fun t => ?_
  refine .bind (of_touches (findOrAddPeerTopic_touches ..) rfl) fun o =>
    .bind (orFail _ _) fun i => ?_
  refine .bind (.update fun r h => h.of_agrees (setPeerTopic_agrees r i _) rfl) fun _ => ?_
  refine .bind (.read _) fun r => .bind (pushEventOrDrop _) fun _ => .bind (.read _) fun r => ?_
  refine .ite (fun _ => meshFillTopic _ _ _) fun _ => .ite (fun _ => ?_) fun _ => .pure _
  exact .update fun r h => h.of_agrees (meshRemove_agrees ..) rfl

theorem processMessage (p : Nat) (message : Message) (nowUs : Nat) :
    Comp.Keeps (Transmits config.toConfig) (processMessage config.toConfig p message nowUs) := by
  refine .absorb (.ite (fun _ => .fail _) fun _ => .bind (.ofResult _) fun messageId => ?_)
  refine .bind (.read _) fun r => .ite (fun _ => ?_) fun _ => ?_
  · exact .bind (pushEventOrDrop _) fun _ => .fail _
  · refine .bind (.update fun r h => h.of_agrees (seenAdd_agrees ..) rfl) fun _ => ?_
    refine .bind (.read _) fun r => ?_
    split
    · exact pushEventOrDrop _
    · rename_i t _
      refine .bind (of_touches (mcacheStore_touches ..) rfl) fun slot => .bind (.read _) fun r => ?_
      refine .bind (enqueueIdontwantForReceivedEntry _ _ _) fun _ => .bind (.read _) fun r => ?_
      dsimp only
      split
      · refine .bind (of_touches (allocValidation_touches ..) rfl) fun o => ?_
        cases o with
        | none => exact .pure _
        | some v => exact pushEventOrDrop _
      · exact .bind (pushEventOrDrop _) fun _ => forwardEntry _ _

theorem processIdontwant (p : Nat) (idontwant : ControlIdontwant) (nowUs : Nat) :
    Comp.Keeps (Transmits config.toConfig)
      (processIdontwant config.toConfig p idontwant nowUs) := by
  refine .ite (fun _ => .fail _) fun _ => .forOk fun messageId _ => ?_
  refine .bind (.update fun r h => h.of_agrees (peerIdontwantAdd_agrees ..) rfl) fun _ => ?_
  refine .bind (.update fun r h => ?_) fun _ => .bind (.read _) fun r => pushEventOrDrop _
  rcases h with ⟨written, h⟩
  exact ⟨written, h.dropQueuedPublish rfl p messageId⟩

theorem processGraft (p nowUs : Nat) (graft : ControlGraft) :
    Comp.Keeps (Transmits config.toConfig) (processGraft config.toConfig p nowUs graft) := by
  refine .absorb (.bind (of_touches (findOrAddTopic_touches ..) rfl) fun o =>
    .bind (orFail _ _) fun t => .bind (.read _) fun r => ?_)
  refine .ite (fun _ => of_touches (meshAdd_touches ..) rfl) fun _ => .bind (.read _) fun r => ?_
  exact .bind (enqueueRpc _ _ _ _) fun _ => of_touches (backoffAdd_touches ..) rfl

theorem processRpc (p : Nat) (rpc : Rpc) (nowUs : Nat) :
    Comp.Keeps (Transmits config.toConfig) (processRpc config.toConfig p rpc nowUs) := by
  refine .ite (fun _ => .fail _) fun _ => ?_
  refine .bind (.bind (.forOk fun sub _ => processSubscription p sub) fun _ => ?_) fun _ => ?_
  · refine .bind (.forOk fun message _ => .absorb (processMessage _ _ _)) fun _ => ?_
    refine .bind (.forOk fun idontwant _ => processIdontwant _ _ _) fun _ => ?_
    refine .bind (.forOk fun graft _ => processGraft _ _ _) fun _ => ?_
    exact .forOk fun prune _ => of_touches (processPrune_touches ..) rfl
  · refine .bind (.forOk fun iwant _ => .forOk fun messageId _ => ?_) fun _ => ?_
    · refine .bind (.read _) fun r => ?_
      split
      · exact .pure _
      · exact .absorb (enqueuePublishEntryWithLifetime _ _ _ _)
    · refine .forOk fun ihave _ => .forOk fun messageId _ => .bind (.read _) fun r => ?_
      exact .ite (fun _ => .pure _) fun _ => .absorb (enqueueRpc _ _ _ _)

/-! ## Calls of the application -/

theorem announceSubscription (t : Nat) (subscribe : UInt8) :
    Comp.Keeps (Transmits config.toConfig) (announceSubscription config.toConfig t subscribe) := by
  refine .forOk fun p _ => .bind (.read _) fun r => .ite (fun _ => ?_) fun _ => .pure _
  exact enqueueRpc _ _ _ _

theorem subscribe (request : TopicConfig) :
    Comp.Keeps (Transmits config.toConfig) (subscribe config.toConfig request) := by
  refine .ite (fun _ => .fail _) fun _ => ?_
  refine .bind (of_touches (findOrAddTopic_touches ..) rfl) fun o => .bind (orFail _ _) fun t => ?_
  refine .bind (.update fun r h => h.of_agrees (setTopic_agrees r t _) rfl) fun _ => ?_
  exact .bind (announceSubscription _ _) fun _ => meshFillTopic _ _ _

theorem unsubscribe (topic : Span) :
    Comp.Keeps (Transmits config.toConfig) (unsubscribe config.toConfig topic) := by
  refine .ite (fun _ => .fail _) fun _ => .bind (.read _) fun r => .bind (orFail _ _) fun t => ?_
  refine .bind (meshTrimTopic _ _ _) fun _ => ?_
  refine .bind (.update fun r h => h.of_agrees (meshRemoveTopic_agrees ..) rfl) fun _ => ?_
  refine .bind (.update fun r h => h.of_agrees (setTopic_agrees r t _) rfl) fun _ => ?_
  exact announceSubscription _ _

theorem publish (request : Publish) (outLen : Option Nat) :
    Comp.Keeps (Transmits config.toConfig) (publish config.toConfig request outLen) := by
  refine .ite (fun _ => .fail _) fun _ => .bind (.ofResult _) fun messageId => ?_
  refine .ite (fun _ => .fail _) fun _ => ?_
  refine .bind (of_touches (findOrAddTopic_touches ..) rfl) fun o => .bind (orFail _ _) fun t => ?_
  refine .bind (of_touches (mcacheStore_touches ..) rfl) fun slot => ?_
  refine .bind (.update fun r h => h.of_agrees (seenAdd_agrees ..) rfl) fun _ => ?_
  refine .bind (.read _) fun r => .bind (.forOk fun p _ => ?_) fun _ => .pure _
  refine .bind (.read _) fun r => .ite (fun _ => ?_) fun _ => .pure _
  exact sendEntry p _ _ (enqueuePublishEntryWithLifetime _ _ _ _)

theorem reportValidation (v : Nat) (value : ValidationResult) :
    Comp.Keeps (Transmits config.toConfig) (reportValidation config.toConfig v value) := by
  intro r h
  unfold Gossipsub.reportValidation
  dsimp only
  split
  · exact h
  · apply Transmits.of_agrees _ (releaseValidation_agrees ..) rfl
    split
    · exact h
    · split
      · exact forwardEntry _ _ r h
      · exact h

theorem setPeerExplicit (peerId : Bytes) (isExplicit : Bool) :
    Comp.Keeps (Transmits config.toConfig) (setPeerExplicit config.toConfig peerId isExplicit) := by
  refine .ite (fun _ => .fail _) fun _ => .bind (.read _) fun r => .bind (orFail _ _) fun p => ?_
  exact .update fun r h => h.updatePeer rfl rfl

/-! ## Calls of the host -/

/-- `gossipsub_flush_ready_peers`, which leaves every queue empty or waiting when it succeeds. -/
theorem flushReady_settled (h : Transmits config.toConfig r) (nowUs : Nat)
    (answers : WriteAnswers) {result : Except GossipsubErr Unit}
    (hrun : Gossipsub.flushReady config.toConfig nowUs answers r = (result, r')) :
    Transmits config.toConfig r' ∧
      (result = .ok () → ∀ p < config.capacity.maxPeers, r'.tx.Settled p) := by
  rcases h with ⟨written, h⟩
  unfold Gossipsub.flushReady at hrun
  rcases hflush : flushReadyPeers config.toConfig r.peers answers nowUs
    ⟨r.tx, 0, [], false, 0, 0, false⟩ with ⟨result', f⟩
  rw [hflush] at hrun
  cases hrun
  rcases flushReadyPeers_flushes (s := r.side written) rfl answers nowUs h hflush with
    ⟨hreached, -, hsettled⟩
  exact ⟨⟨written, hreached⟩, hsettled⟩

theorem dropStale (h : Transmits config.toConfig r) (nowUs : Nat) :
    Transmits config.toConfig
      { r with tx := txDropStale config.toConfig r.peers nowUs r.tx, lastDriveUs := nowUs } := by
  rcases h with ⟨written, h⟩
  exact ⟨written, h.dropStale rfl nowUs⟩

/-- `libp2p_gossipsub_drive` up to the flush. -/
theorem beforeFlush (h : Transmits config.toConfig r) (nowUs : Nat) :
    Transmits config.toConfig (Gossipsub.beforeFlush config.toConfig nowUs r) := by
  have hdropped := h.dropStale nowUs
  unfold Gossipsub.beforeFlush
  dsimp only
  split
  · exact hdropped.heartbeat nowUs
  · exact hdropped

theorem drive_settled (h : Transmits config.toConfig r) (nowUs : Nat) (answers : WriteAnswers)
    {result : Except GossipsubErr Unit}
    (hrun : Gossipsub.drive config.toConfig nowUs answers r = (result, r')) :
    result = .ok () → ∀ p < config.capacity.maxPeers, r'.tx.Settled p :=
  ((h.beforeFlush nowUs).flushReady_settled nowUs answers hrun).2

theorem drive (nowUs : Nat) (answers : WriteAnswers) :
    Comp.Keeps (Transmits config.toConfig) (drive config.toConfig nowUs answers) :=
  fun _ h => ((h.beforeFlush nowUs).flushReady_settled nowUs answers rfl).1

/-- `gossipsub_peer_from_conn` may add a peer, which has no writer yet. -/
theorem found (h : Transmits config.toConfig r) {conn p : Nat} {peerId : Bytes}
    (hfound : PeerFound config.toConfig conn peerId p r r') : Transmits config.toConfig r' := by
  rcases h with ⟨written, h⟩
  refine ⟨written, ?_⟩
  unfold Router.side at h ⊢
  rw [hfound.peers, hfound.tx]
  cases hused : (r.peers p).used with
  | true =>
    rw [if_pos rfl]
    refine h.step (.peers (fun q => ?_) fun q => ?_)
    · by_cases hq : q = p
      · subst hq
        rw [Function.update_self, Peer.joined_used, hused]
      · rw [Function.update_of_ne hq]
    · by_cases hq : q = p
      · subst hq
        rw [Function.update_self, Peer.joined, if_pos hused]
      · rw [Function.update_of_ne hq]
  | false =>
    rw [if_neg (by simp)]
    apply h.step (.addPeer hused (Peer.joined_used _ _ _) ?_)
    rw [Peer.joined, hused]
    rfl

/-- A peer without a writer gets one, and does not wait for its transport. -/
theorem openWriter (h : Transmits config.toConfig r) {p : Nat} {peer : Peer}
    {history : History} (hnone : (r.peers p).stream = none) (hused : peer.used = true) :
    Transmits config.toConfig { r.setPeer p peer with
      tx := r.tx.setPeer p { r.tx.peer p with transportBusy := false }
      history := history } := by
  rcases h with ⟨written, h⟩
  have hidle := h.step (.idle fun hp => h.transmitInv.depth_eq_zero hp hnone)
  exact ⟨written, hidle.step (.openWriter hnone hused)⟩

theorem openStream (stream conn : Nat) (peerId : Except GossipsubErr Bytes)
    (direction : Host.Direction) (version : ProtocolVersion) :
    Comp.Keeps (Transmits config.toConfig)
      (openStream config.toConfig stream conn peerId direction version) := by
  intro r h
  unfold Gossipsub.openStream
  rcases peerFromConn_cases config.toConfig conn peerId r with
    ⟨e, hfail⟩ | ⟨_, p, r₁, -, hrun, hfound⟩
  · rw [Comp.bind_of_error hfail]
    exact h
  rw [Comp.bind_of_ok hrun]
  have hknown : Transmits config.toConfig r₁ ∧ (r₁.peers p).used = true := by
    refine ⟨h.found hfound, ?_⟩
    rw [hfound.peers, Function.update_self, Peer.joined_used]
  -- the peer stays in its slot until the writer is chosen
  have hkeeps : ∀ {α : Type} {c : RouterM α}, Touches [.streams] c →
      Comp.Keeps (fun r => Transmits config.toConfig r ∧ (r.peers p).used = true) c := by
    intro α c hc
    refine hc.keeps fun s s' hagrees hs => ⟨hs.1.of_agrees hagrees rfl, ?_⟩
    have hsame : Router.Agrees [.streams] s s' := hagrees
    rw [hsame.peer (by simp) p Peer.used fun _ => rfl]
    exact hs.2
  refine (Comp.Keeps.bind (hkeeps (allocStream_touches _)) (fun o => ?_) r₁ hknown).1
  refine .bind (hkeeps (orFail_touches ..)) fun i => ?_
  refine .bind (hkeeps (.update fun r => setStream_agrees r i _)) fun _ => .read_bind fun r hr => ?_
  unfold Comp.onlyIf
  dsimp only [id]
  split
  · rename_i hselected
    rw [decide_eq_true_eq] at hselected
    refine ⟨hr.1.openWriter hselected.2 hr.2, ?_⟩
    change (Function.update r.peers p _ p).used = true
    rw [Function.update_self]
    exact hr.2
  · exact hr

theorem protocolOnOpen (stream conn : Nat) (peerId : Except GossipsubErr Bytes)
    (direction : Host.Direction) (version : ProtocolVersion) :
    Comp.Keeps (Transmits config.toConfig)
      (protocolOnOpen config.toConfig stream conn peerId direction version) := by
  refine .bind (openStream stream conn peerId direction version) fun _ => ?_
  refine .bind (.read _) fun r => .bind (pushEventOrDrop _) fun _ => .onlyIf fun _ => ?_
  refine .forOk fun t _ => .bind (.read _) fun r => .ite (fun _ => ?_) fun _ => .pure _
  exact .absorb (enqueueRpc _ _ _ _)

theorem streamWritable (h : Transmits config.toConfig r) (i : Nat) :
    Transmits config.toConfig (streamWritable config.toConfig i r) := by
  unfold Gossipsub.streamWritable
  dsimp only
  split
  · rcases h with ⟨written, h⟩
    exact ⟨written, h.step (.wake _)⟩
  · exact h

/-- Without frames a peer may lose its writer. -/
theorem dropWriter (h : Transmits config.toConfig r) (p : Nat) :
    Transmits config.toConfig (dropWriter config.toConfig p r) := by
  rcases h with ⟨written, h⟩
  rcases h.dropQueuedPeer rfl p with ⟨hdropped, hempty⟩
  have hclosed := hdropped.step
    (@TxStep.closeWriter config.toConfig _ p { r.peers p with stream := none } hempty rfl rfl)
  exact ⟨written, hclosed.step (.idle hempty)⟩

theorem streamEnd (i : Nat) :
    Comp.Keeps (Transmits config.toConfig) (streamEnd config.toConfig i) := by
  refine .bind (.read _) fun r => .bind (.onlyIf fun _ => .bind (pushEventOrDrop _) fun _ => ?_)
    fun _ => ?_
  · exact .update fun r h => h.dropWriter _
  · exact .update fun r h => h.of_agrees (setStream_agrees r i _) rfl

theorem connClosed (conn : Nat) :
    Comp.Keeps (Transmits config.toConfig) (connClosed config.toConfig conn) := by
  refine .bind (.forOk fun p _ => .bind (.read _) fun r => .onlyIf fun _ => ?_) fun _ => ?_
  · refine .bind (pushEventOrDrop _) fun _ => .bind (.update fun r h => h.dropWriter p) fun _ => ?_
    exact .update fun r h => h.updatePeer rfl rfl
  · exact .update fun r h => h.of_agrees (closeStreams_agrees ..) rfl

theorem receive (i : Nat) (body : Bytes) :
    Comp.Keeps (Transmits config.toConfig) (receive config.toConfig i body) := by
  refine .bind (.read _) fun r => .ite (fun _ => ?_) fun _ => .pure _
  exact .bind (.ofResult _) fun rpc => processRpc _ _ _

/-! ## Runs -/

/-- One action. -/
theorem comp (received : List Event) (action : Action) :
    Comp.Keeps (Transmits config.toConfig) (action.comp config.toConfig received) := by
  cases action with
  | start nowUs => exact .update fun r h => h.of_agrees (start_agrees ..) rfl
  | close => exact .update fun r h => h.of_agrees (close_agrees r) rfl
  | drive nowUs answers => exact drive nowUs answers
  | subscribe request => exact subscribe request
  | unsubscribe topic => exact unsubscribe topic
  | publish request outLen => exact .bind (publish request outLen) fun _ => .pure _
  | report k value =>
    rw [Action.comp]
    cases reportedToken received k with
    | none => exact .pure _
    | some v => exact reportValidation v value
  | nextEvent => exact .bind (of_touches (nextEvent_touches _) rfl) fun _ => .pure _
  | setPeerExplicit peerId isExplicit => exact setPeerExplicit peerId isExplicit
  | streamOpen stream conn peerId direction protocol => exact protocolOnOpen _ _ _ _ _
  | receive i body => exact receive i body
  | writable i => exact .update fun r h => h.streamWritable i
  | streamEnd i => exact streamEnd i
  | connClosed conn => exact connClosed conn
  | streamOpenFailed reason => exact pushEventOrDrop _

/-- The transmit side of a router that has run. -/
theorem run (config : RouterConfig) (actions : List Action) :
    Transmits config.toConfig (Node.init.run config.toConfig actions).router :=
  Node.run_keeps_router actions .init comp

end Transmits

end LeanLibp2p.Gossipsub
