import LeanLibp2p.Gossipsub.Router.LocalLimits
import LeanLibp2p.Gossipsub.Router.Streams

/-!
# Writers

A peer is reached through its writer: the outbound stream that found it without one when it opened. An
outbound stream that opens beside the writer is not asked again when the writer ends.
-/

namespace LeanLibp2p.Gossipsub

open LeanLibp2p.Lib

variable {config : Config} {r : Router}

/-- The slot has an open outbound stream to the peer, on a connection that was not closed. -/
def StreamState.Reaches (state : StreamState) (p : Nat) : Prop :=
  state.isOpen = true ∧ state.direction = .outbound ∧ state.peerIndex = p ∧ state.conn ≠ none

instance (state : StreamState) (p : Nat) : Decidable (state.Reaches p) :=
  inferInstanceAs (Decidable (_ ∧ _ ∧ _ ∧ _))

/-- A peer that an open stream reaches has a writer. -/
def WritersElected (config : Config) (r : Router) : Prop :=
  ∀ i < config.capacity.maxStreams, ∀ p, (r.streams i).Reaches p → (r.peers p).stream ≠ none

/-- The writer that the action takes from a peer is its last stream: what ends with it. -/
def LastStream (config : Config) (s : Node) : Action → Prop
  | .streamEnd i =>
    let state := s.router.streams i
    (s.router.peers state.peerIndex).stream = state.stream →
      ∀ j < config.capacity.maxStreams, j ≠ i → ¬ (s.router.streams j).Reaches state.peerIndex
  | .connClosed conn =>
    ∀ p < config.capacity.maxPeers, (s.router.peers p).used = true →
      (s.router.peers p).conn = some conn →
        ∀ j < config.capacity.maxStreams, (s.router.streams j).Reaches p →
          (s.router.streams j).conn = some conn
  | _ => True

/-! ## What the calls do to peers and streams -/

theorem pushEventOrDrop_run (config : Config) (event : Event) (r : Router) :
    ∃ r', pushEventOrDrop config event r = (.ok (), r') ∧ r'.peers = r.peers ∧
      r'.streams = r.streams := by
  unfold pushEventOrDrop eventPush
  cases r.events.push config.capacity.eventCapacity event with
  | none => cases event.validation <;> exact ⟨_, rfl, rfl, rfl⟩
  | some events => exact ⟨_, rfl, rfl, rfl⟩

/-- The peer of a stream that ends. -/
def Peer.left (peer : Peer) (stream : Option Nat) : Peer :=
  if peer.stream = stream then { peer with stream := none } else peer

/-- The peer once a connection is closed. -/
def Peer.parted (peer : Peer) (conn : Nat) : Peer :=
  if peer.used && peer.conn = some conn then { peer with stream := none, conn := none } else peer

theorem streamEnd_spec (config : Config) (i : Nat) (r : Router) :
    (streamEnd config i r).2.peers = Function.update r.peers (r.streams i).peerIndex
        ((r.peers (r.streams i).peerIndex).left (r.streams i).stream) ∧
      (streamEnd config i r).2.streams = Function.update r.streams i
        { r.streams i with isOpen := false, stream := none, conn := none } := by
  unfold streamEnd Peer.left
  rw [Comp.read_id_bind]
  dsimp only [id]
  by_cases hwriter : (r.peers (r.streams i).peerIndex).stream = (r.streams i).stream
  · obtain ⟨r', hrun, hpeers, hstreams⟩ := pushEventOrDrop_run config
      { (Event.zero .peerClosed).ofPeer (r.peers (r.streams i).peerIndex) with
        conn := none
        stream := none
        direction := (r.streams i).direction
        protocolVersion := (r.streams i).version } r
    rw [if_pos hwriter, decide_eq_true hwriter, Comp.onlyIf, if_pos rfl,
      Comp.bind_of_ok ((Comp.bind_of_ok hrun).trans (Comp.update_apply ..)), ← hpeers, ← hstreams]
    exact ⟨rfl, rfl⟩
  · rw [if_neg hwriter, decide_eq_false hwriter, Function.update_eq_self]
    exact ⟨rfl, rfl⟩

/-- One peer of `libp2p_gossipsub_handle_host_event`. -/
theorem closePeer_run (config : Config) (conn p : Nat) (r : Router) :
    ∃ r', Comp.onlyIf ((r.peers p).used && (r.peers p).conn = some conn) (do
        pushEventOrDrop config { (Event.zero .peerClosed).ofPeer (r.peers p) with
          conn := none
          stream := none }
        Comp.update (dropWriter config p)
        Comp.update fun r => r.setPeer p { r.peers p with conn := none }) r = (.ok (), r') ∧
      r'.peers = Function.update r.peers p ((r.peers p).parted conn) ∧ r'.streams = r.streams := by
  unfold Peer.parted
  by_cases hconn : ((r.peers p).used && (r.peers p).conn = some conn) = true
  · obtain ⟨r', hrun, hpeers, hstreams⟩ := pushEventOrDrop_run config
      { (Event.zero .peerClosed).ofPeer (r.peers p) with conn := none, stream := none } r
    rw [if_pos hconn, Comp.onlyIf, if_pos hconn, Comp.bind_of_ok hrun, ← hpeers, ← hstreams]
    refine ⟨_, rfl, ?_, rfl⟩
    have hdropped : (dropWriter config p r').peers p = { r'.peers p with stream := none } :=
      Function.update_self ..
    show Function.update (Function.update r'.peers p _) p
      { (dropWriter config p r').peers p with conn := none } = _
    rw [Function.update_idem, hdropped]
  · rw [if_neg hconn, Comp.onlyIf, if_neg hconn, Function.update_eq_self]
    exact ⟨r, rfl, rfl, rfl⟩

theorem Peer.parted_parted (peer : Peer) (conn : Nat) :
    (peer.parted conn).parted conn = peer.parted conn := by
  unfold parted
  split
  · simp
  · rfl

theorem closePeers_run (config : Config) (conn : Nat) (r : Router) :
    ∃ r', closePeers config conn r = (.ok (), r') ∧ r'.streams = r.streams ∧
      ∀ p, r'.peers p =
        if p < config.capacity.maxPeers then (r.peers p).parted conn else r.peers p := by
  have hslots : ∀ slots r, ∃ r', Comp.forOk (fun p => do
      let r ← Comp.read id
      Comp.onlyIf ((r.peers p).used && (r.peers p).conn = some conn) do
        pushEventOrDrop config { (Event.zero .peerClosed).ofPeer (r.peers p) with
          conn := none
          stream := none }
        Comp.update (dropWriter config p)
        Comp.update fun r => r.setPeer p { r.peers p with conn := none }) slots r = (.ok (), r') ∧
      r'.streams = r.streams ∧
      ∀ p, r'.peers p = if p ∈ slots then (r.peers p).parted conn else r.peers p := by
    intro slots
    induction slots with
    | nil => exact fun r => ⟨r, rfl, rfl, fun _ => rfl⟩
    | cons q slots ih =>
      intro r
      obtain ⟨r₁, hrun, hpeers, hstreams⟩ := closePeer_run config conn q r
      obtain ⟨r', hrest, hstreams', hpeers'⟩ := ih r₁
      refine ⟨r', ?_, hstreams'.trans hstreams, fun p => ?_⟩
      · rw [Comp.forOk_cons, Comp.bind_of_ok ((Comp.read_id_bind ..).trans hrun)]
        exact hrest
      · rw [hpeers', hpeers]
        by_cases hp : p = q
        · rw [hp, Function.update_self, if_pos List.mem_cons_self, Peer.parted_parted, ite_self]
        · rw [Function.update_of_ne hp]
          simp [hp]
  obtain ⟨r', hrun, hstreams, hpeers⟩ := hslots (List.range config.capacity.maxPeers) r
  exact ⟨r', hrun, hstreams, fun p => by rw [hpeers]; simp only [List.mem_range]⟩

theorem connClosed_spec (config : Config) (conn : Nat) (r : Router) :
    (∀ p, (connClosed config conn r).2.peers p =
        if p < config.capacity.maxPeers then (r.peers p).parted conn else r.peers p) ∧
      (connClosed config conn r).2.streams = (closeStreams config conn r).streams := by
  obtain ⟨r', hrun, hstreams, hpeers⟩ := closePeers_run config conn r
  unfold connClosed
  rw [Comp.bind_of_ok hrun]
  refine ⟨hpeers, ?_⟩
  show (closeStreams config conn r').streams = _
  unfold closeStreams
  rw [hstreams]

theorem Peer.joined_stream {peer : Peer} (hused : peer.used = true) (peerId : Bytes) (conn : Nat) :
    (peer.joined peerId conn).stream = peer.stream := by
  unfold joined
  rw [if_pos hused]

/-- A stream that opens takes no writer away. -/
theorem Peer.opened_stream {peer : Peer} {stream : Nat} {direction : Host.Direction}
    (version : ProtocolVersion) (h : direction = .outbound ∨ peer.stream ≠ none) :
    (peer.opened stream direction version).stream ≠ none := by
  unfold opened
  split
  · simp
  · rename_i hnot
    intro hnone
    rcases h with houtbound | hwriter
    · exact hnot ⟨houtbound, hnone⟩
    · exact hwriter hnone

/-! ## Steps -/

namespace WritersElected

theorem of_agrees {touched : List Part} {r' : Router} (h : WritersElected config r)
    (hagrees : Router.Agrees touched r r')
    (hdisjoint : ∀ part ∈ [Part.streams, .peers], part ∉ touched) : WritersElected config r' := by
  have hstreams : r'.streams = r.streams := hagrees.eq .streams (hdisjoint _ (by decide))
  intro i hi p hreaches
  rw [hstreams] at hreaches
  rw [hagrees.peer (hdisjoint _ (by decide)) p Peer.stream fun _ => rfl]
  exact h i hi p hreaches

theorem setPeerExplicit (peerId : Bytes) (isExplicit : Bool) :
    Comp.Keeps (WritersElected config) (setPeerExplicit config peerId isExplicit) := by
  refine .ite (fun _ => .fail _) fun _ => .bind (.read _) fun r => ?_
  refine .bind ((orFail_touches [] ..).keeps fun _ _ hagrees h => h.of_agrees hagrees (by decide))
    fun p => .update fun r h i hi q hreaches => ?_
  have hq := h i hi q hreaches
  show (Function.update r.peers p _ q).stream ≠ none
  by_cases heq : q = p
  · rw [heq, Function.update_self]
    rwa [heq] at hq
  · rwa [Function.update_of_ne heq]

theorem openStream (h : WritersElected config r) (hknown : StreamsKnown config r)
    (stream conn : Nat) (peerId : Except GossipsubErr Bytes) (direction : Host.Direction)
    (version : ProtocolVersion) :
    WritersElected config (openStream config stream conn peerId direction version r).2 := by
  have hjoined : ∀ i < config.capacity.maxStreams, ∀ q, (r.streams i).Reaches q →
      ∀ id, ((r.peers q).joined id conn).stream ≠ none := by
    intro i hi q hreaches id
    have hused := (hknown i hreaches.1).2
    rw [hreaches.2.2.1] at hused
    rw [Peer.joined_stream hused]
    exact h i hi q hreaches
  rcases openStream_cases config stream conn peerId direction version r with
    ⟨e, hrun⟩ | ⟨e, id, p, r', hrun, -, hfound⟩ | ⟨id, i, p, r', -, hrun, hopened⟩
  · rw [hrun]
    exact h
  · rw [hrun]
    intro i hi q hreaches
    rw [show r'.streams = r.streams from hfound.agrees.eq .streams (by decide)] at hreaches
    rw [hfound.peers]
    by_cases hq : q = p
    · rw [hq, Function.update_self]
      exact hjoined i hi p (hq ▸ hreaches) id
    · rw [Function.update_of_ne hq]
      exact h i hi q hreaches
  · rw [hrun]
    intro j hj q hreaches
    rw [hopened.streams] at hreaches
    rw [hopened.peers]
    by_cases hij : j = i
    · rw [hij, Function.update_self] at hreaches
      obtain ⟨-, houtbound, rfl, -⟩ := hreaches
      rw [Function.update_self]
      exact Peer.opened_stream version (.inl houtbound)
    · rw [Function.update_of_ne hij] at hreaches
      by_cases hq : q = p
      · rw [hq, Function.update_self]
        exact Peer.opened_stream version (.inr (hjoined j hj p (hq ▸ hreaches) id))
      · rw [Function.update_of_ne hq]
        exact h j hj q hreaches

/-- A stream that ends leaves the writers elected when no other stream needed its peer's. -/
theorem streamEnd_iff (h : WritersElected config r) (i : Nat) :
    WritersElected config (streamEnd config i r).2 ↔
      ((r.peers (r.streams i).peerIndex).stream = (r.streams i).stream →
        ∀ j < config.capacity.maxStreams, j ≠ i →
          ¬ (r.streams j).Reaches (r.streams i).peerIndex) := by
  obtain ⟨hpeers, hstreams⟩ := streamEnd_spec config i r
  unfold WritersElected
  rw [hpeers, hstreams]
  constructor
  · intro hafter hwriter j hj hne hreaches
    apply hafter j hj (r.streams i).peerIndex
    · rwa [Function.update_of_ne hne]
    · rw [Function.update_self, Peer.left, if_pos hwriter]
  · intro hlast j hj q hreaches
    by_cases hne : j = i
    · rw [hne, Function.update_self] at hreaches
      cases hreaches.1
    · rw [Function.update_of_ne hne] at hreaches
      have hq := h j hj q hreaches
      by_cases heq : q = (r.streams i).peerIndex
      · rw [heq] at hreaches hq ⊢
        rw [Function.update_self, Peer.left, if_neg fun hwriter => hlast hwriter j hj hne hreaches]
        exact hq
      · rwa [Function.update_of_ne heq]

theorem connClosed_iff (h : WritersElected config r) (hknown : StreamsKnown config r) (conn : Nat) :
    WritersElected config (connClosed config conn r).2 ↔
      ∀ p < config.capacity.maxPeers, (r.peers p).used = true → (r.peers p).conn = some conn →
        ∀ j < config.capacity.maxStreams, (r.streams j).Reaches p →
          (r.streams j).conn = some conn := by
  obtain ⟨hpeers, hstreams⟩ := connClosed_spec config conn r
  unfold WritersElected
  rw [hstreams]
  unfold closeStreams
  dsimp only
  constructor
  · intro hafter p hp hused hconn j hj hreaches
    by_contra hother
    apply hafter j hj p
    · rwa [if_neg fun hclosed => hother hclosed.2.2]
    · rw [hpeers, if_pos hp, Peer.parted, if_pos (by simp [hused, hconn])]
  · intro hlast j hj q hreaches
    by_cases hclosed : j < config.capacity.maxStreams ∧ (r.streams j).isOpen = true ∧
        (r.streams j).conn = some conn
    · rw [if_pos hclosed] at hreaches
      cases hreaches.1
    · rw [if_neg hclosed] at hreaches
      have hq := hknown j hreaches.1
      rw [hreaches.2.2.1] at hq
      rw [hpeers, if_pos hq.1, Peer.parted, if_neg ?_]
      · exact h j hj q hreaches
      · intro hconn
        rw [Bool.and_eq_true, decide_eq_true_eq] at hconn
        exact hclosed ⟨hj, hreaches.1, hlast q hq.1 hconn.1 hconn.2 j hj hreaches⟩

/-- A step leaves the writers elected exactly when what it ends was the last stream of a peer. -/
theorem step_iff {s : Node} (h : WritersElected config s.router) (hknown : StreamsKnown config s.router)
    (action : Action) :
    WritersElected config (s.step config action).router ↔ LastStream config s action := by
  have hagrees := s.step_agrees config action
  cases action with
  | streamEnd i => exact h.streamEnd_iff i
  | connClosed conn => exact h.connClosed_iff hknown conn
  | setPeerExplicit peerId isExplicit =>
    exact iff_of_true (setPeerExplicit peerId isExplicit _ h) trivial
  | streamOpen stream conn peerId direction protocol =>
    refine iff_of_true ?_ trivial
    have hopened := h.openStream hknown stream conn peerId direction protocol.version
    refine Comp.after_bind (fun e r' hrun => ?_) fun x r' hrun => ?_
    · rwa [hrun] at hopened
    · rw [hrun] at hopened
      exact hopened.of_agrees ((announceOpen_touches ..).agrees r') (by decide)
  | _ => exact iff_of_true (h.of_agrees hagrees (by rw [Action.parts]; decide)) trivial

end WritersElected

/-! ## Runs -/

/-- The writers are elected in every state that a run reaches exactly when each of its steps that takes
    a writer ends the last stream of the peer. -/
theorem writersElected_iff (config : Config) (actions : List Action) :
    Node.init.Meets config (fun s action => WritersElected config (s.step config action).router)
      actions ↔ Node.init.Meets config (LastStream config) actions := by
  have hrun : ∀ s : Node, WritersElected config s.router → StreamsKnown config s.router →
      (s.Meets config (fun s action => WritersElected config (s.step config action).router) actions ↔
        s.Meets config (LastStream config) actions) := by
    induction actions with
    | nil => exact fun _ _ _ => Iff.rfl
    | cons action actions ih =>
      intro s h hknown
      have hstep := h.step_iff hknown action
      constructor
      · rintro ⟨hafter, hrest⟩
        exact ⟨hstep.mp hafter, (ih _ hafter (hknown.step action)).mp hrest⟩
      · rintro ⟨hlast, hrest⟩
        have hafter := hstep.mpr hlast
        exact ⟨hafter, (ih _ hafter (hknown.step action)).mpr hrest⟩
  refine hrun .init (fun i _ p hreaches => ?_) fun i hopen => ?_
  · cases hreaches.1
  · cases hopen

end LeanLibp2p.Gossipsub
