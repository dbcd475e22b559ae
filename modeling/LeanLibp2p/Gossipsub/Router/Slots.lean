import Mathlib.Data.Finset.Card
import LeanLibp2p.Gossipsub.Router.Run

/-!
# Slots for peers and topics

A peer id and a topic get a slot of a table when the router first hears of them, and keep it. So
what the tables hold is a matter of all names that ever came up in a run, and an operation that
needs a slot may fail because of names that nobody uses any more.
-/

namespace LeanLibp2p.Gossipsub

open LeanLibp2p.Lib

variable (config : Config)

/-! ## Peers -/

/-- The id of a slot in use. -/
def Peer.known (peer : Peer) : Option Bytes := if peer.used then some peer.peerId else none

/-- The peer ids that have a slot. -/
def knownPeers (r : Router) : List Bytes :=
  entries config.capacity.maxPeers Peer.known r.peers

theorem mem_knownPeers {config : Config} {r : Router} {peerId : Bytes} :
    peerId ∈ knownPeers config r ↔
      ∃ p < config.capacity.maxPeers, (r.peers p).used = true ∧ (r.peers p).peerId = peerId := by
  unfold knownPeers
  rw [mem_entries]
  refine exists_congr fun p => and_congr_right fun _ => ?_
  unfold Peer.known
  by_cases hused : (r.peers p).used = true
  · simp [hused]
  · simp [hused]

/-- What keeps the identities of the peers keeps their slots. -/
theorem knownPeers_congr {config : Config} {touched : List Part} {r r' : Router}
    (h : Router.Agrees touched r r') (hpart : .identities ∉ touched) :
    knownPeers config r' = knownPeers config r := by
  unfold knownPeers entries
  apply List.filterMap_congr
  intro p _
  have hp : ((r'.peers p).used, (r'.peers p).peerId) = ((r.peers p).used, (r.peers p).peerId) :=
    congrFun (h.eq .identities hpart) p
  rcases Prod.mk.inj hp with ⟨hused, hid⟩
  unfold Peer.known
  rw [hused, hid]

/-- What a search for the slot of a peer finds. -/
theorem findOrAddPeer_cases (peerId : Bytes) (r : Router) :
    (peerId ∈ knownPeers config r ∧ ∃ p, findOrAddPeer config peerId r = (.ok (some p), r)) ∨
    (peerId ∉ knownPeers config r ∧ ∃ p r', findOrAddPeer config peerId r = (.ok (some p), r') ∧
      (knownPeers config r').Perm (peerId :: knownPeers config r)) ∨
    (peerId ∉ knownPeers config r ∧ findOrAddPeer config peerId r = (.ok none, r) ∧
      (knownPeers config r).length = config.capacity.maxPeers) := by
  unfold findOrAddPeer
  cases hfind : findPeer config r peerId with
  | some p =>
    rcases findSlot_some hfind with ⟨hp, hmatch⟩
    exact .inl ⟨mem_knownPeers.mpr ⟨p, hp, by simpa using hmatch⟩, p, rfl⟩
  | none =>
    have hunknown : peerId ∉ knownPeers config r := by
      intro hmem
      rcases mem_knownPeers.mp hmem with ⟨p, hp, hused, hid⟩
      have hno := findSlot_none.mp hfind p hp
      simp [hused, hid] at hno
    cases hfree : findSlot config.capacity.maxPeers fun p => !(r.peers p).used with
    | none =>
      refine .inr (.inr ⟨hunknown, rfl, ?_⟩)
      unfold knownPeers
      apply entries_length_of_full
      intro p hp
      have hused := findSlot_none.mp hfree p hp
      simp only [Bool.not_eq_false'] at hused
      simp [Peer.known, hused]
    | some p =>
      rcases findSlot_some hfree with ⟨hp, hunused⟩
      refine .inr (.inl ⟨hunknown, p, _, rfl, ?_⟩)
      apply entries_fill hp
      · simpa [Peer.known] using hunused
      · rfl

/-- Opening a stream changes the table of peers only to find the slot of the peer. -/
theorem protocolOnOpen_knownPeers (stream conn : Nat) (peerId : Bytes)
    (direction : Host.Direction) (version : ProtocolVersion) (r : Router) :
    knownPeers config (protocolOnOpen config stream conn (.ok peerId) direction version r).2 =
      knownPeers config (findOrAddPeer config peerId r).2 := by
  have hconn : Router.Agrees [.peers] (findOrAddPeer config peerId r).2
      (peerFromConn config conn (.ok peerId) r).2 := by
    refine Comp.Touches.after (fun o => .bind (orFail_touches ..) fun p => ?_) r
    exact .bind (.update fun r => setPeer_agrees p r _ rfl rfl rfl) fun _ => .pure _
  have hstream : Router.Agrees [.peers, .streams, .tx, .sent]
      (peerFromConn config conn (.ok peerId) r).2
      (openStream config stream conn (.ok peerId) direction version r).2 := by
    refine Comp.Touches.after (fun p => .bind ((allocStream_touches _).mono (by decide)) fun o => ?_) r
    refine .bind (orFail_touches ..) fun i => ?_
    refine .bind (.update fun r => (setStream_agrees r i _).mono (by decide)) fun _ => ?_
    refine .bind (.read _) fun _ => .bind (.onlyIf (.update fun r => ?_)) fun _ => .pure _
    have hset := setPeer_agrees p r { r.peers p with
      stream := some stream
      direction := direction
      version := version } rfl rfl rfl
    exact (hset.mono (by decide)).trans ((setSent_agrees ..).mono (by decide))
  have hannounce : Router.Agrees [.tx, .events, .validations]
      (openStream config stream conn (.ok peerId) direction version r).2
      (protocolOnOpen config stream conn (.ok peerId) direction version r).2 :=
    Comp.Touches.after (fun _ => announceOpen_touches ..) r
  rw [knownPeers_congr hannounce (by decide), knownPeers_congr hstream (by decide),
    knownPeers_congr hconn (by decide)]

/-- The action opens a stream, and there is no slot for its peer. -/
def Action.lacksPeerSlot (s : Node) : Action → Bool
  | .streamOpen _ _ (.ok peerId) _ _ => (findOrAddPeer config peerId s.router).1 = .ok none
  | _ => false

/-- The peer of the stream that an action opens. -/
def Action.openedPeer : Action → Option Bytes
  | .streamOpen _ _ (.ok peerId) _ _ => some peerId
  | _ => none

/-- What a step does to the slots: it looks for the slot of the peer whose stream it opens. -/
theorem step_knownPeers (s : Node) (action : Action) :
    (action.openedPeer = none ∧ action.lacksPeerSlot config s = false ∧
      knownPeers config (s.step config action).router = knownPeers config s.router) ∨
    ∃ peerId, action.openedPeer = some peerId ∧
      (action.lacksPeerSlot config s = true ↔
        (findOrAddPeer config peerId s.router).1 = .ok none) ∧
      knownPeers config (s.step config action).router =
        knownPeers config (findOrAddPeer config peerId s.router).2 := by
  have hagrees := s.step_agrees config action
  cases action with
  | streamOpen stream conn peerId direction protocol =>
    cases peerId with
    | ok peerId =>
      refine .inr ⟨peerId, rfl, ?_, protocolOnOpen_knownPeers ..⟩
      unfold Action.lacksPeerSlot
      exact decide_eq_true_iff
    | error e => exact .inl ⟨rfl, rfl, rfl⟩
  | _ => exact .inl ⟨rfl, rfl, knownPeers_congr hagrees (by rw [Action.parts]; decide)⟩

/-- A run from a state in which the ids of the peers are distinct. -/
theorem peerSlots_suffice_from (actions : List Action) (s : Node)
    (hnd : (knownPeers config s.router).Nodup) :
    s.Meets config (fun s action => action.lacksPeerSlot config s = false) actions ↔
      ((knownPeers config s.router).toFinset ∪
        (actions.filterMap Action.openedPeer).toFinset).card ≤ config.capacity.maxPeers := by
  induction actions generalizing s with
  | nil =>
    have hle : (knownPeers config s.router).length ≤ config.capacity.maxPeers :=
      entries_length_le _
    simp [Node.Meets, RunMeets, List.toFinset_card_of_nodup hnd, hle]
  | cons action actions ih =>
    rcases step_knownPeers config s action with
      ⟨hopened, hlacks, hknown⟩ | ⟨peerId, hopened, hlacks, hknown⟩
    · rw [List.filterMap_cons_none hopened, ← hknown, ← ih _ (hknown ▸ hnd)]
      simp [Node.Meets, RunMeets, hlacks]
    · rw [List.filterMap_cons_some hopened, List.toFinset_cons, Finset.union_insert]
      rcases findOrAddPeer_cases config peerId s.router with
        ⟨hmem, p, hfound⟩ | ⟨hnot, p, r', hadded, hperm⟩ | ⟨hnot, hfull, hlength⟩
      · rw [hfound] at hlacks hknown
        rw [Finset.insert_eq_of_mem (by simp [hmem]), ← hknown, ← ih _ (hknown ▸ hnd)]
        have hhas : action.lacksPeerSlot config s = false := by simpa using hlacks
        simp [Node.Meets, RunMeets, hhas]
      · rw [hadded] at hlacks hknown
        have hset : (knownPeers config (s.step config action).router).toFinset =
            insert peerId (knownPeers config s.router).toFinset := by
          rw [hknown, List.toFinset_eq_of_perm _ _ hperm, List.toFinset_cons]
        have hnd' : (knownPeers config (s.step config action).router).Nodup := by
          rw [hknown]
          exact hperm.nodup_iff.mpr (List.nodup_cons.mpr ⟨hnot, hnd⟩)
        rw [← Finset.insert_union, ← hset, ← ih _ hnd']
        have hhas : action.lacksPeerSlot config s = false := by simpa using hlacks
        simp [Node.Meets, RunMeets, hhas]
      · rw [hfull] at hlacks
        have hno : action.lacksPeerSlot config s = true := hlacks.mpr rfl
        simp only [Node.Meets, RunMeets, hno, Bool.true_eq_false, false_and, false_iff, not_le]
        rw [← hlength, ← List.toFinset_card_of_nodup hnd]
        apply Finset.card_lt_card
        refine (Finset.ssubset_insert (by simpa using hnot)).trans_subset ?_
        exact Finset.insert_subset_insert _ Finset.subset_union_left

/-- Every stream that opens in a run finds a slot for its peer if and only if the run opens streams
    of at most as many peers as there are slots. -/
theorem peerSlots_suffice (config : RouterConfig) (actions : List Action) :
    Node.init.Meets config.toConfig
        (fun s action => action.lacksPeerSlot config.toConfig s = false) actions ↔
      (actions.filterMap Action.openedPeer).toFinset.card ≤ config.capacity.maxPeers := by
  have hnone : knownPeers config.toConfig Node.init.router = [] :=
    List.filterMap_eq_nil_iff.mpr fun _ _ => rfl
  rw [peerSlots_suffice_from config.toConfig actions Node.init (by rw [hnone]; exact List.nodup_nil),
    hnone]
  simp

/-- The connections with their peers after an action. -/
def Action.connects (conns : List (Nat × Bytes)) : Action → List (Nat × Bytes)
  | .streamOpen _ conn (.ok peerId) _ _ => (conn, peerId) :: conns
  | .connClosed conn => conns.filter fun c => c.1 ≠ conn
  | _ => conns

/-- The peers that are connected after some actions. -/
def connectedPeers (actions : List Action) : Finset Bytes :=
  ((actions.foldl Action.connects []).map Prod.snd).toFinset

/-- The action opens a stream, and all stream slots are taken. -/
def Action.lacksStreamSlot (s : Node) : Action → Bool
  | .streamOpen _ _ _ _ _ => (allocStream config s.router).1 = .ok none
  | _ => false

/-- Four peers come and go, one after the other. -/
def visitorsRun : List Action :=
  [.streamOpen 1 1 (.ok [1]) .outbound .v11, .streamEnd 0, .connClosed 1,
   .streamOpen 2 2 (.ok [2]) .outbound .v11, .streamEnd 0, .connClosed 2,
   .streamOpen 3 3 (.ok [3]) .outbound .v11, .streamEnd 0, .connClosed 3,
   .streamOpen 4 4 (.ok [4]) .outbound .v11]

/-- The fourth is turned away, though there are three slots and nobody else is connected. -/
theorem peerSlots_exhausted : ¬ ∀ (config : RouterConfig) (actions : List Action),
    (∀ before ∈ actions.inits, (connectedPeers before).card ≤ config.capacity.maxPeers) →
    Node.init.Meets config.toConfig
      (fun s action => action.lacksStreamSlot config.toConfig s = false) actions →
    Node.init.Meets config.toConfig
      (fun s action => action.lacksPeerSlot config.toConfig s = false) actions := by
  intro h
  have hslots := h RouterConfig.small visitorsRun (by decide +kernel) (by decide +kernel)
  exact absurd ((peerSlots_suffice_from _ visitorsRun Node.init (by decide)).mp hslots) (by decide)

/-! ## Topics -/

/-- The name of a topic slot in use. -/
def Topic.known (topic : Topic) : Option Bytes := if topic.used then some topic.topic else none

/-- The topics that have a slot. -/
def knownTopics (r : Router) : List Bytes :=
  entries config.capacity.maxTopics Topic.known r.topics

theorem mem_knownTopics {config : Config} {r : Router} {topic : Bytes} :
    topic ∈ knownTopics config r ↔
      ∃ t < config.capacity.maxTopics, (r.topics t).used = true ∧ (r.topics t).topic = topic := by
  unfold knownTopics
  rw [mem_entries]
  refine exists_congr fun t => and_congr_right fun _ => ?_
  unfold Topic.known
  by_cases hused : (r.topics t).used = true
  · simp [hused]
  · simp [hused]

/-- The topics with a slot are distinct, and each is one of `names`. -/
structure TopicsNamed (config : Config) (names : List Bytes) (r : Router) : Prop where
  nodup : (knownTopics config r).Nodup
  subset : ∀ topic ∈ knownTopics config r, topic ∈ names

namespace TopicsNamed

variable {config : Config} {names : List Bytes} {r r' : Router}

theorem of_agrees {touched : List Part} (h : TopicsNamed config names r)
    (hagrees : Router.Agrees touched r r') (hpart : .topics ∉ touched) :
    TopicsNamed config names r' := by
  have htopics : r'.topics = r.topics := hagrees.eq .topics hpart
  have hknown : knownTopics config r' = knownTopics config r := by
    unfold knownTopics
    rw [htopics]
  exact ⟨hknown ▸ h.nodup, hknown ▸ h.subset⟩

/-- A search for the slot of a topic that is named may take a free one. -/
theorem findOrAddTopic {topic : Span} (hname : topic.isNull = false → topic.bytes ∈ names) :
    Comp.Keeps (TopicsNamed config names) (findOrAddTopic config topic) := by
  intro r h
  unfold Gossipsub.findOrAddTopic
  split
  · exact h
  · rename_i hvalid
    cases hfind : findTopic config r topic with
    | some t => exact h
    | none =>
      dsimp only
      cases hfree : findSlot config.capacity.maxTopics fun t => !(r.topics t).used with
      | none => exact h
      | some t =>
        rcases findSlot_some hfree with ⟨ht, hunused⟩
        have hpresent : topic.isNull = false := by
          simpa using fun hnull => hvalid (.inl hnull)
        have hunknown : topic.bytes ∉ knownTopics config r := by
          intro hmem
          rcases mem_knownTopics.mp hmem with ⟨u, hu, hused, hbytes⟩
          unfold findTopic at hfind
          rw [if_neg (by simp [hpresent])] at hfind
          have hno := findSlot_none.mp hfind u hu
          simp [hused, hbytes] at hno
        have hperm : (knownTopics config (r.setTopic t
            { used := true
              localSubscribed := false
              enableIdontwant := config.enableIdontwant
              validationMode := .acceptAll
              idontwantMinMessageBytes := config.idontwantMinMessageBytes
              topic := topic.bytes })).Perm (topic.bytes :: knownTopics config r) := by
          apply entries_fill ht
          · simpa [Topic.known] using hunused
          · rfl
        refine ⟨hperm.nodup_iff.mpr (List.nodup_cons.mpr ⟨hunknown, h.nodup⟩), ?_⟩
        intro x hx
        rcases List.mem_cons.mp (hperm.subset hx) with rfl | hold
        · exact hname hpresent
        · exact h.subset x hold

/-- Settings of a topic may change. -/
theorem setTopic (h : TopicsNamed config names r) {t : Nat} {topic : Topic}
    (hused : topic.used = (r.topics t).used) (htopic : topic.topic = (r.topics t).topic) :
    TopicsNamed config names (r.setTopic t topic) := by
  have hknown : knownTopics config (r.setTopic t topic) = knownTopics config r := by
    unfold knownTopics entries
    apply List.filterMap_congr
    intro u _
    by_cases hu : u = t
    · subst hu
      simp [Router.setTopic, Topic.known, hused, htopic]
    · simp [Router.setTopic, hu]
  exact ⟨hknown ▸ h.nodup, hknown ▸ h.subset⟩

end TopicsNamed

/-- The topics that an RPC names in a SUBSCRIBE, UNSUBSCRIBE or GRAFT. -/
def Rpc.namedTopics (rpc : Rpc) : List Bytes :=
  (rpc.subscriptions.map fun sub => sub.topic.bytes) ++
    rpc.control.graft.map fun graft => graft.topic.bytes

/-- A condition on the topics that the search for the slot of a named one keeps. -/
structure KeptByNaming (config : Config) (names : List Bytes) (I : Router → Prop) : Prop where
  of_agrees : ∀ {touched : List Part} {r r' : Router}, I r → Router.Agrees touched r r' →
    .topics ∉ touched → I r'
  findOrAddTopic : ∀ {topic : Span}, (topic.isNull = false → topic.bytes ∈ names) →
    Comp.Keeps I (findOrAddTopic config topic)

namespace KeptByNaming

variable {config : Config} {names : List Bytes} {I : Router → Prop}

theorem of_touches {α : Type} {touched : List Part} {c : RouterM α} (h : KeptByNaming config names I)
    (hc : Touches touched c) (hpart : .topics ∉ touched) : Comp.Keeps I c :=
  hc.keeps fun _ _ hagrees hr => h.of_agrees hr hagrees hpart

theorem publish (h : KeptByNaming config names I) {request : Publish} (outLen : Option Nat)
    (hname : request.topic.bytes ∈ names) : Comp.Keeps I (publish config request outLen) := by
  refine .ite (fun _ => .fail _) fun _ => .bind (.ofResult _) fun messageId => ?_
  refine .ite (fun _ => .fail _) fun _ => .bind (h.findOrAddTopic fun _ => hname) fun o => ?_
  refine .bind (h.of_touches (orFail_touches [] ..) (by decide)) fun t => ?_
  refine .bind (h.of_touches (mcacheStore_touches ..) (by decide)) fun slot => ?_
  refine .bind (.update fun r hr => h.of_agrees hr (seenAdd_agrees ..) (by decide)) fun _ => ?_
  refine .bind (.read _) fun r => .bind ?_ fun _ => .pure _
  exact h.of_touches (publishEntry_touches ..) (by decide)

theorem processSubscription (h : KeptByNaming config names I) (p : Nat) {sub : RpcSubscription}
    (hname : sub.topic.bytes ∈ names) : Comp.Keeps I (processSubscription config p sub) := by
  refine .absorb (.ite (fun _ => .fail _) fun _ => ?_)
  refine .bind (h.findOrAddTopic fun _ => hname) fun o => ?_
  refine .bind (h.of_touches (orFail_touches [] ..) (by decide)) fun t => ?_
  refine .bind (h.of_touches (findOrAddPeerTopic_touches ..) (by decide)) fun o => ?_
  refine .bind (h.of_touches (orFail_touches [] ..) (by decide)) fun i => ?_
  refine .bind (.update fun r hr => h.of_agrees hr (setPeerTopic_agrees r i _) (by decide)) fun _ => ?_
  refine .bind (.read _) fun r => ?_
  refine .bind (h.of_touches (pushEventOrDrop_touches ..) (by decide)) fun _ => ?_
  exact h.of_touches (subscriptionMesh_touches ..) (by decide)

theorem processGraft (h : KeptByNaming config names I) (p nowUs : Nat) {graft : ControlGraft}
    (hname : graft.topic.bytes ∈ names) : Comp.Keeps I (processGraft config p nowUs graft) := by
  refine .absorb (.bind (h.findOrAddTopic fun _ => hname) fun o => ?_)
  refine .bind (h.of_touches (orFail_touches [] ..) (by decide)) fun t => .bind (.read _) fun r => ?_
  refine .ite (fun _ => ?_) fun _ => ?_
  · exact h.of_touches (meshAdd_touches ..) (by decide)
  · exact h.of_touches (refuseGraft_touches ..) (by decide)

theorem processRpc (h : KeptByNaming config names I) (p : Nat) {rpc : Rpc} (nowUs : Nat)
    (hnames : ∀ topic ∈ rpc.namedTopics, topic ∈ names) :
    Comp.Keeps I (processRpc config p rpc nowUs) := by
  refine .ite (fun _ => .fail _) fun _ => .bind ?_ fun _ => .bind ?_ fun _ => ?_
  · refine .bind (.forOk fun sub hsub => ?_) fun _ => .bind ?_ fun _ => .bind ?_ fun _ =>
      .bind (.forOk fun graft hgraft => ?_) fun _ => ?_
    · apply h.processSubscription
      exact hnames _ (List.mem_append_left _ (List.mem_map.mpr ⟨sub, hsub, rfl⟩))
    · exact .forOk fun _ _ => .absorb (h.of_touches (processMessage_touches ..) (by decide))
    · exact .forOk fun _ _ => h.of_touches (processIdontwant_touches ..) (by decide)
    · apply h.processGraft
      exact hnames _ (List.mem_append_right _ (List.mem_map.mpr ⟨graft, hgraft, rfl⟩))
    · exact .forOk fun _ _ => h.of_touches (processPrune_touches ..) (by decide)
  · exact .forOk fun _ _ => .forOk fun _ _ => h.of_touches (processIwantId_touches ..) (by decide)
  · exact .forOk fun _ _ => .forOk fun _ _ => h.of_touches (processIhaveId_touches ..) (by decide)

end KeptByNaming

namespace TopicsNamed

variable {config : Config} {names : List Bytes}

theorem keptByNaming : KeptByNaming config names (TopicsNamed config names) :=
  ⟨of_agrees, findOrAddTopic⟩

theorem subscribe {request : TopicConfig} (hname : request.topic.bytes ∈ names) :
    Comp.Keeps (TopicsNamed config names) (subscribe config request) := by
  refine .ite (fun _ => .fail _) fun _ => .bind (findOrAddTopic fun _ => hname) fun o => ?_
  refine .bind (keptByNaming.of_touches (orFail_touches [] ..) (by decide)) fun t => ?_
  refine .bind (.update fun r h => h.setTopic rfl rfl) fun _ => ?_
  refine .bind (keptByNaming.of_touches (announceSubscription_touches ..) (by decide)) fun _ => ?_
  exact keptByNaming.of_touches (meshFillTopic_touches ..) (by decide)

theorem unsubscribe (topic : Span) :
    Comp.Keeps (TopicsNamed config names) (unsubscribe config topic) := by
  refine .ite (fun _ => .fail _) fun _ => .bind (.read _) fun r => ?_
  refine .bind (keptByNaming.of_touches (orFail_touches [] ..) (by decide)) fun t => ?_
  refine .bind (keptByNaming.of_touches (meshTrimTopic_touches ..) (by decide)) fun _ => ?_
  refine .bind (.update fun r h => h.of_agrees (meshRemoveTopic_agrees ..) (by decide)) fun _ => ?_
  refine .bind (.update fun r h => h.setTopic rfl rfl) fun _ => ?_
  exact keptByNaming.of_touches (announceSubscription_touches ..) (by decide)

end TopicsNamed

/-- The topics that an action names: those of the application, and those that a peer names. -/
def Action.namedTopics (config : Config) (s : Node) : Action → List Bytes
  | .subscribe request => [request.topic.bytes]
  | .publish request _ => [request.topic.bytes]
  | .receive i body =>
    match rpcBodyDecode (s.router.streams i).version config.limits decodeStorage body with
    | .ok rpc => rpc.namedTopics
    | .error _ => []
  | _ => []

/-- The topics that a run names. -/
def Node.namedTopics (config : Config) : Node → List Action → List Bytes
  | _, [] => []
  | s, action :: actions =>
    action.namedTopics config s ++ (s.step config action).namedTopics config actions

/-- A step takes slots only for the topics that it names. -/
theorem TopicsNamed.step {config : Config} {names : List Bytes} {s : Node} {action : Action}
    (h : TopicsNamed config names s.router)
    (hnames : ∀ topic ∈ action.namedTopics config s, topic ∈ names) :
    TopicsNamed config names (s.step config action).router := by
  have hagrees := s.step_agrees config action
  cases action with
  | subscribe request => exact subscribe (hnames _ List.mem_cons_self) _ h
  | unsubscribe topic => exact unsubscribe topic _ h
  | publish request outLen =>
    exact Comp.Keeps.bind (keptByNaming.publish outLen (hnames _ List.mem_cons_self))
      (fun _ => .pure _) _ h
  | receive i body =>
    change TopicsNamed config names (receive config i body s.router).2
    rcases receive_cases config i body s.router with hsame | ⟨rpc, -, hdecode, hrpc⟩
    · rwa [hsame]
    · rw [hrpc]
      apply keptByNaming.processRpc _ _ ?_ _ h
      rw [Action.namedTopics, hdecode] at hnames
      exact hnames
  | _ => exact h.of_agrees hagrees (by rw [Action.parts]; decide)

/-- A topic that gets no slot has none, and all are taken. -/
theorem findOrAddTopic_full {config : Config} {topic : Span} {r : Router}
    (hvalid : topic.isNull = false ∧ topic.len ≤ config.limits.maxTopicBytes)
    (h : (findOrAddTopic config topic r).1 = .ok none) :
    topic.bytes ∉ knownTopics config r ∧
      (knownTopics config r).length = config.capacity.maxTopics := by
  unfold findOrAddTopic at h
  rw [if_neg (by simp [hvalid.1, hvalid.2])] at h
  cases hfind : findTopic config r topic with
  | some t => simp [hfind] at h
  | none =>
    cases hfree : findSlot config.capacity.maxTopics fun t => !(r.topics t).used with
    | some t => simp [hfind, hfree] at h
    | none =>
      constructor
      · intro hmem
        rcases mem_knownTopics.mp hmem with ⟨u, hu, hused, hbytes⟩
        unfold findTopic at hfind
        rw [if_neg (by simp [hvalid.1])] at hfind
        have hno := findSlot_none.mp hfind u hu
        simp [hused, hbytes] at hno
      · unfold knownTopics
        apply entries_length_of_full
        intro t ht
        have hused := findSlot_none.mp hfree t ht
        simp only [Bool.not_eq_false'] at hused
        simp [Topic.known, hused]

/-- The action is a subscription with valid arguments, and there is no slot for its topic. -/
def Action.lacksTopicSlot (s : Node) : Action → Bool
  | .subscribe request => !request.topic.isNull &&
      decide (request.topic.len ≤ config.limits.maxTopicBytes) &&
      decide ((findOrAddTopic config request.topic s.router).1 = .ok none)
  | _ => false

/-- The topics with a slot are among few names, so there is a slot for one more of them. -/
theorem TopicsNamed.hasSlot {config : Config} {names : List Bytes} {s : Node} {action : Action}
    (h : TopicsNamed config names s.router)
    (hnames : ∀ topic ∈ action.namedTopics config s, topic ∈ names)
    (hfew : names.toFinset.card ≤ config.capacity.maxTopics) :
    action.lacksTopicSlot config s = false := by
  cases action with
  | subscribe request =>
    rw [Bool.eq_false_iff]
    intro hlacks
    unfold Action.lacksTopicSlot at hlacks
    simp only [Bool.and_eq_true, Bool.not_eq_true', decide_eq_true_eq] at hlacks
    rcases hlacks with ⟨hvalid, hnone⟩
    rcases findOrAddTopic_full hvalid hnone with ⟨hunknown, hlength⟩
    have hlt : (knownTopics config s.router).toFinset.card < names.toFinset.card := by
      apply Finset.card_lt_card
      refine ⟨fun x hx => ?_, fun hsub => hunknown ?_⟩
      · exact List.mem_toFinset.mpr (h.subset x (List.mem_toFinset.mp hx))
      · have hname := hnames _ List.mem_cons_self
        exact List.mem_toFinset.mp (hsub (List.mem_toFinset.mpr hname))
    rw [List.toFinset_card_of_nodup h.nodup] at hlt
    omega
  | _ => rfl

/-- In a run that names few topics, every step finds a slot for its topic. -/
theorem TopicsNamed.run {config : Config} {names : List Bytes}
    (hfew : names.toFinset.card ≤ config.capacity.maxTopics) (actions : List Action) (s : Node)
    (h : TopicsNamed config names s.router)
    (hnames : ∀ topic ∈ s.namedTopics config actions, topic ∈ names) :
    s.Meets config (fun s action => action.lacksTopicSlot config s = false) actions := by
  induction actions generalizing s with
  | nil => trivial
  | cons action actions ih =>
    have hstep : ∀ topic ∈ action.namedTopics config s, topic ∈ names :=
      fun topic hmem => hnames topic (List.mem_append_left _ hmem)
    refine ⟨h.hasSlot hstep hfew, ih _ (h.step hstep) ?_⟩
    exact fun topic hmem => hnames topic (List.mem_append_right _ hmem)

/-- When the application and its peers together name at most as many topics as there are slots, no
    subscription fails for lack of a slot. -/
theorem topicSlots_suffice (config : RouterConfig) (actions : List Action)
    (hfew : (Node.init.namedTopics config.toConfig actions).toFinset.card ≤
      config.capacity.maxTopics) :
    Node.init.Meets config.toConfig
      (fun s action => action.lacksTopicSlot config.toConfig s = false) actions := by
  have hnone : knownTopics config.toConfig Node.init.router = [] :=
    List.filterMap_eq_nil_iff.mpr fun _ _ => rfl
  have hinit : TopicsNamed config.toConfig (Node.init.namedTopics config.toConfig actions)
      Node.init.router := by
    constructor
    · rw [hnone]
      exact List.nodup_nil
    · rw [hnone]
      exact fun _ hmem => nomatch hmem
  exact hinit.run hfew actions Node.init fun _ hmem => hmem

/-- A peer subscribes to a topic, then the application to another. -/
def twoTopicsRun : List Action :=
  [.streamOpen 1 1 (.ok [1]) .inbound .v11,
   .receive 0 [0x0a, 5, 0x08, 1, 0x12, 1, 1],
   .subscribe ⟨.ptr [7], .acceptAll, false, 0⟩]

theorem topicSlots_suffice_twoTopicsRun :
    Node.init.Meets RouterConfig.small.toConfig
      (fun s action => action.lacksTopicSlot RouterConfig.small.toConfig s = false)
      twoTopicsRun := by
  apply topicSlots_suffice RouterConfig.small twoTopicsRun
  decide +kernel

/-- The topics that the application names. -/
def Action.localTopic : Action → Option Bytes
  | .subscribe request => some request.topic.bytes
  | .publish request _ => some request.topic.bytes
  | _ => none

/-- A peer subscribes to two topics and leaves, then the application subscribes to one. -/
def foreignTopicsRun : List Action :=
  [.streamOpen 1 1 (.ok [1]) .inbound .v11,
   .receive 0 [0x0a, 5, 0x08, 1, 0x12, 1, 1, 0x0a, 5, 0x08, 1, 0x12, 1, 2],
   .streamEnd 0, .connClosed 1,
   .subscribe ⟨.ptr [7], .acceptAll, false, 0⟩]

/-- The two topics of the peer still have the two slots there are. -/
theorem topicSlots_exhausted : ¬ ∀ (config : RouterConfig) (actions : List Action),
    (actions.filterMap Action.localTopic).toFinset.card ≤ config.capacity.maxTopics →
    Node.init.Meets config.toConfig
      (fun s action => action.lacksTopicSlot config.toConfig s = false) actions := by
  intro h
  have hslots := h RouterConfig.small foreignTopicsRun (by decide)
  exact absurd hslots (by decide +kernel)

end LeanLibp2p.Gossipsub
