import LeanLibp2p.Gossipsub.Router.Run

/-!
# Streams and their peers

What opening a stream does to the table of peers and the table of streams, and what all open
streams have in common: each belongs to a peer of the table.
-/

namespace LeanLibp2p.Gossipsub

open LeanLibp2p.Lib

/-- The peer as `gossipsub_peer_from_conn` leaves it: in its slot, or new in a free one, and with the
    connection. -/
def Peer.joined (peer : Peer) (peerId : Bytes) (conn : Nat) : Peer :=
  if peer.used then { peer with conn := some conn }
  else { Peer.free with used := true, peerId := peerId, conn := some conn }

@[simp] theorem Peer.joined_used (peer : Peer) (peerId : Bytes) (conn : Nat) :
    (peer.joined peerId conn).used = true := by
  unfold joined
  split
  · rename_i hused
    exact hused
  · rfl

/-- `gossipsub_peer_from_conn` found the slot of the peer. -/
structure PeerFound (config : Config) (conn : Nat) (peerId : Bytes) (p : Nat) (r r' : Router) :
    Prop where
  lt : p < config.capacity.maxPeers
  peerId_eq : (r.peers p).used = true → (r.peers p).peerId = peerId
  unknown : (r.peers p).used = false →
    ∀ q, q < config.capacity.maxPeers → (r.peers q).used = true → (r.peers q).peerId ≠ peerId
  peers : r'.peers = Function.update r.peers p ((r.peers p).joined peerId conn)
  tx : r'.tx = if (r.peers p).used then r.tx else r.tx.setPeer p .fresh
  agrees : Router.Agrees [.peers, .identities, .idontwantSent, .tx] r r'

theorem findOrAddPeer_touches (config : Config) (peerId : Bytes) :
    Touches [.peers, .identities, .idontwantSent, .tx] (findOrAddPeer config peerId) := by
  refine ⟨fun r => ?_⟩
  unfold findOrAddPeer
  split
  · exact .refl r
  · split
    · exact .refl r
    · refine ⟨fun part hpart => ?_⟩
      cases part <;> first | exact absurd (by decide) hpart | rfl

/-- It fails without a change, or finds the slot. -/
theorem peerFromConn_cases (config : Config) (conn : Nat) (peerId : Except GossipsubErr Bytes)
    (r : Router) :
    (∃ e, peerFromConn config conn peerId r = (.error e, r)) ∨
    ∃ id p r', peerId = .ok id ∧ peerFromConn config conn peerId r = (.ok p, r') ∧
      PeerFound config conn id p r r' := by
  cases peerId with
  | error e => exact .inl ⟨e, rfl⟩
  | ok id =>
    have hset : ∀ (r : Router) (p : Nat) (peer : Peer),
        Router.Agrees [.peers, .identities, .idontwantSent, .tx] r (r.setPeer p peer) := by
      intro r p peer
      refine ⟨fun part hpart => ?_⟩
      cases part <;> first | exact absurd (by decide) hpart | rfl
    cases hfind : findPeer config r id with
    | some p =>
      rcases findSlot_some hfind with ⟨hp, hmatch⟩
      rw [Bool.and_eq_true, decide_eq_true_eq] at hmatch
      have hknown : findOrAddPeer config id r = (.ok (some p), r) := by
        unfold findOrAddPeer
        rw [hfind]
      refine .inr ⟨id, p, r.setPeer p { r.peers p with conn := some conn }, rfl, ?_, ?_⟩
      · unfold peerFromConn
        rw [Comp.bind_of_ok (Comp.ofResult_apply ..), Comp.bind_of_ok hknown]
        rfl
      · exact
          { lt := hp
            peerId_eq := fun _ => hmatch.2
            unknown := fun hfree => absurd hmatch.1 (by simp [hfree])
            peers := by simp [Peer.joined, hmatch.1, Router.setPeer]
            tx := by simp [hmatch.1, Router.setPeer]
            agrees := hset r p _ }
    | none =>
      cases hfree : findSlot config.capacity.maxPeers fun p => !(r.peers p).used with
      | none =>
        have hnone : findOrAddPeer config id r = (.ok none, r) := by
          unfold findOrAddPeer
          rw [hfind]
          dsimp only
          rw [hfree]
        refine .inl ⟨.limit, ?_⟩
        unfold peerFromConn
        rw [Comp.bind_of_ok (Comp.ofResult_apply ..), Comp.bind_of_ok hnone]
        rfl
      | some p =>
        rcases findSlot_some hfree with ⟨hp, hunused⟩
        rw [Bool.not_eq_true'] at hunused
        have hadded : ∃ r₁, findOrAddPeer config id r = (.ok (some p), r₁) ∧
            r₁.peers = Function.update r.peers p { Peer.free with used := true, peerId := id } ∧
            r₁.tx = r.tx.setPeer p .fresh := by
          unfold findOrAddPeer
          rw [hfind]
          dsimp only
          rw [hfree]
          exact ⟨_, rfl, rfl, rfl⟩
        rcases hadded with ⟨r₁, hrun, hpeers, htx⟩
        refine .inr ⟨id, p, r₁.setPeer p { r₁.peers p with conn := some conn }, rfl, ?_, ?_⟩
        · unfold peerFromConn
          rw [Comp.bind_of_ok (Comp.ofResult_apply ..), Comp.bind_of_ok hrun]
          rfl
        · exact
            { lt := hp
              peerId_eq := fun hused => absurd hused (by simp [hunused])
              unknown := fun _ q hq hused hid => by
                have hno := findSlot_none.mp hfind q hq
                simp [hused, hid] at hno
              peers := by simp [Peer.joined, hunused, Router.setPeer, hpeers]
              tx := by simp [hunused, Router.setPeer, htx]
              agrees := Lib.Agrees.trans ((findOrAddPeer_touches config id).of_run hrun)
                (hset _ p _) }

/-! ## Opening a stream -/

/-- The peer as a new stream leaves it: an outbound one becomes its writer if it has none. -/
def Peer.opened (peer : Peer) (stream : Nat) (direction : Host.Direction)
    (version : ProtocolVersion) : Peer :=
  if direction = .outbound ∧ peer.stream = none then
    { peer with
      stream := some stream
      direction := direction
      version := version }
  else peer

@[simp] theorem Peer.opened_used (peer : Peer) (stream : Nat) (direction : Host.Direction)
    (version : ProtocolVersion) :
    (peer.opened stream direction version).used = peer.used := by
  unfold opened
  split <;> rfl

/-- `gossipsub_protocol_on_open` found the slot `p` of the peer and a slot `i` for the stream. -/
structure StreamOpened (config : Config) (stream conn : Nat) (peerId : Bytes)
    (direction : Host.Direction) (version : ProtocolVersion) (i p : Nat) (r r' : Router) :
    Prop where
  peer_lt : p < config.capacity.maxPeers
  peerId_eq : (r.peers p).used = true → (r.peers p).peerId = peerId
  unknown : (r.peers p).used = false →
    ∀ q, q < config.capacity.maxPeers → (r.peers q).used = true → (r.peers q).peerId ≠ peerId
  slot_lt : i < config.capacity.maxStreams
  slot_free : (r.streams i).isOpen = false
  slot_found : findSlot config.capacity.maxStreams (fun j => !(r.streams j).isOpen) = some i
  streams : r'.streams = Function.update r.streams i
    ⟨true, some stream, some conn, direction, version, p⟩
  peers : r'.peers = Function.update r.peers p
    (((r.peers p).joined peerId conn).opened stream direction version)
  agrees : Router.Agrees [.peers, .identities, .idontwantSent, .streams, .tx, .sent] r r'

/-- Without a slot for the peer nothing changes; without one for the stream the peer has the
    connection all the same. -/
theorem openStream_cases (config : Config) (stream conn : Nat)
    (peerId : Except GossipsubErr Bytes) (direction : Host.Direction) (version : ProtocolVersion)
    (r : Router) :
    (∃ e, openStream config stream conn peerId direction version r = (.error e, r)) ∨
    (∃ e id p r', openStream config stream conn peerId direction version r = (.error e, r') ∧
      peerId = .ok id ∧ PeerFound config conn id p r r') ∨
    ∃ id i p r', peerId = .ok id ∧
      openStream config stream conn peerId direction version r =
        (.ok (i, p, decide (direction = .outbound ∧ ((r.peers p).joined id conn).stream = none)),
          r') ∧
      StreamOpened config stream conn id direction version i p r r' := by
  rcases peerFromConn_cases config conn peerId r with ⟨e, hfail⟩ | ⟨id, p, r₁, hid, hrun, hfound⟩
  · left
    unfold openStream
    exact ⟨e, by rw [Comp.bind_of_error hfail]⟩
  · right
    cases hfree : findSlot config.capacity.maxStreams fun i => !(r₁.streams i).isOpen with
    | none =>
      left
      have halloc : allocStream config r₁ = (.ok none, r₁) := by
        unfold allocStream
        rw [hfree]
      refine ⟨.limit, id, p, r₁, ?_, hid, hfound⟩
      unfold openStream
      rw [Comp.bind_of_ok hrun, Comp.bind_of_ok halloc]
      rfl
    | some i =>
      right
      rcases findSlot_some hfree with ⟨hi, hunused⟩
      rw [Bool.not_eq_true'] at hunused
      have hstreams : r₁.streams = r.streams := hfound.agrees.eq .streams (by decide)
      have hpeer : r₁.peers p = (r.peers p).joined id conn := by
        rw [hfound.peers, Function.update_self]
      have halloc : allocStream config r₁ =
          (.ok (some i), r₁.setStream i { r₁.streams i with isOpen := true }) := by
        unfold allocStream
        rw [hfree]
      have hopened : ∃ r₂, openStream config stream conn peerId direction version r =
          (.ok (i, p, decide (direction = .outbound ∧ ((r.peers p).joined id conn).stream = none)),
            r₂) ∧
          r₂.streams = Function.update r₁.streams i
            ⟨true, some stream, some conn, direction, version, p⟩ ∧
          r₂.peers = Function.update r₁.peers p ((r₁.peers p).opened stream direction version) := by
        unfold openStream
        rw [Comp.bind_of_ok hrun, Comp.bind_of_ok halloc]
        by_cases hselected : direction = .outbound ∧ ((r.peers p).joined id conn).stream = none
        · simp [Comp.bind_apply, orFail, Comp.onlyIf, hselected, hpeer, Router.setStream,
            Router.setPeer, Peer.opened]
        · simp [Comp.bind_apply, orFail, Comp.onlyIf, hselected, hpeer, Router.setStream,
            Router.setPeer, Peer.opened]
          exact not_and.mp hselected
      rcases hopened with ⟨r₂, hopen, hslots, hpeers⟩
      refine ⟨id, i, p, r₂, hid, hopen, ?_⟩
      exact
        { peer_lt := hfound.lt
          peerId_eq := hfound.peerId_eq
          unknown := hfound.unknown
          slot_lt := hi
          slot_free := hstreams ▸ hunused
          slot_found := hstreams ▸ hfree
          streams := hstreams ▸ hslots
          peers := by rw [hpeers, hpeer, hfound.peers, Function.update_idem]
          agrees := (openStream_touches ..).of_run hopen }

/-! ## Open streams -/

/-- Every open stream is of a peer of the table. -/
def StreamsKnown (config : Config) (r : Router) : Prop :=
  ∀ i, (r.streams i).isOpen = true → (r.streams i).peerIndex < config.capacity.maxPeers ∧
    (r.peers (r.streams i).peerIndex).used = true

namespace StreamsKnown

variable {config : Config} {r : Router}

/-- Peers that stay and streams that end keep it. -/
theorem of_peers {r' : Router} (h : StreamsKnown config r)
    (hstreams : ∀ i, (r'.streams i).isOpen = true →
      (r.streams i).isOpen = true ∧ (r'.streams i).peerIndex = (r.streams i).peerIndex)
    (hpeers : ∀ p, (r.peers p).used = true → (r'.peers p).used = true) :
    StreamsKnown config r' := by
  intro i hopen
  rcases hstreams i hopen with ⟨hold, hpeer⟩
  rw [hpeer]
  exact ⟨(h i hold).1, hpeers _ (h i hold).2⟩

theorem of_agrees {touched : List Part} {r' : Router} (h : StreamsKnown config r)
    (hagrees : Router.Agrees touched r r')
    (hdisjoint : ∀ part ∈ [Part.streams, .identities], part ∉ touched) :
    StreamsKnown config r' := by
  have hstreams : r'.streams = r.streams := hagrees.eq .streams (hdisjoint _ (by decide))
  refine h.of_peers (fun i hopen => ?_) fun p hused => ?_
  · rw [hstreams] at hopen ⊢
    exact ⟨hopen, rfl⟩
  · have hp : ((r'.peers p).used, (r'.peers p).peerId) = ((r.peers p).used, (r.peers p).peerId) :=
      congrFun (hagrees.eq .identities (hdisjoint _ (by decide))) p
    rw [(Prod.mk.inj hp).1]
    exact hused

theorem openStream (stream conn : Nat) (peerId : Except GossipsubErr Bytes)
    (direction : Host.Direction) (version : ProtocolVersion) :
    Comp.Keeps (StreamsKnown config)
      (openStream config stream conn peerId direction version) := by
  intro r h
  rcases openStream_cases config stream conn peerId direction version r with
    ⟨e, hrun⟩ | ⟨e, id, p, r', hrun, -, hfound⟩ | ⟨id, i, p, r', -, hrun, hopened⟩
  · rw [hrun]
    exact h
  · rw [hrun]
    have hstreams : r'.streams = r.streams := hfound.agrees.eq .streams (by decide)
    refine h.of_peers (fun i hopen => ?_) fun q hused => ?_
    · rw [hstreams] at hopen ⊢
      exact ⟨hopen, rfl⟩
    · rw [hfound.peers]
      by_cases hq : q = p
      · subst hq
        simp
      · rwa [Function.update_of_ne hq]
  · rw [hrun]
    have hused : ∀ q, (r.peers q).used = true → (r'.peers q).used = true := by
      intro q hused
      rw [hopened.peers]
      by_cases hq : q = p
      · subst hq
        simp
      · rwa [Function.update_of_ne hq]
    intro j hopen
    rw [hopened.streams] at hopen ⊢
    by_cases hj : j = i
    · subst hj
      rw [Function.update_self]
      refine ⟨hopened.peer_lt, ?_⟩
      rw [hopened.peers]
      simp
    · rw [Function.update_of_ne hj] at hopen ⊢
      exact ⟨(h j hopen).1, hused _ (h j hopen).2⟩

theorem of_touches {α : Type} {touched : List Part} {c : RouterM α} (hc : Touches touched c)
    (hdisjoint : ∀ part ∈ [Part.streams, .identities], part ∉ touched) :
    Comp.Keeps (StreamsKnown config) c :=
  hc.keeps fun _ _ hagrees h => h.of_agrees hagrees hdisjoint

theorem streamEnd (i : Nat) : Comp.Keeps (StreamsKnown config) (streamEnd config i) := by
  refine .bind (.read _) fun r => .bind (.onlyIf fun _ => .bind ?_ fun _ => ?_) fun _ => ?_
  · exact of_touches (pushEventOrDrop_touches ..) (by decide)
  · exact of_touches (.update fun r => dropWriter_agrees ..) (by decide)
  · refine .update fun r h => h.of_peers (fun j hopen => ?_) fun _ hused => hused
    by_cases hj : j = i
    · subst hj
      simp [Router.setStream] at hopen
    · simp only [Router.setStream, Function.update_of_ne hj] at hopen ⊢
      exact ⟨hopen, trivial⟩

theorem closeStreams (h : StreamsKnown config r) (conn : Nat) :
    StreamsKnown config (closeStreams config conn r) := by
  refine h.of_peers (fun j hopen => ?_) fun _ hused => hused
  unfold Gossipsub.closeStreams at hopen ⊢
  dsimp only at hopen ⊢
  split
  · rename_i hclosed
    rw [if_pos hclosed] at hopen
    cases hopen
  · rename_i hkept
    rw [if_neg hkept] at hopen
    exact ⟨hopen, rfl⟩

theorem connClosed (conn : Nat) : Comp.Keeps (StreamsKnown config) (connClosed config conn) := by
  refine .bind (.forOk fun p _ => .bind (.read _) fun r => .onlyIf fun _ => ?_) fun _ => ?_
  · refine .bind (of_touches (pushEventOrDrop_touches ..) (by decide)) fun _ => .bind ?_ fun _ => ?_
    · exact of_touches (.update fun r => dropWriter_agrees ..) (by decide)
    · exact of_touches (.update fun r => setPeer_agrees p r { r.peers p with conn := none } rfl rfl rfl)
        (by decide)
  · exact .update fun r h => h.closeStreams conn

theorem step {s : Node} (h : StreamsKnown config s.router) (action : Action) :
    StreamsKnown config (s.step config action).router := by
  have hagrees := s.step_agrees config action
  cases action with
  | streamOpen stream conn peerId direction protocol =>
    exact Comp.Keeps.bind (openStream stream conn peerId direction protocol.version)
      (fun _ => of_touches (announceOpen_touches ..) (by decide)) _ h
  | streamEnd i => exact streamEnd i _ h
  | connClosed conn => exact connClosed conn _ h
  | _ => exact h.of_agrees hagrees (by rw [Action.parts]; decide)

/-- In every reachable state the open streams are of peers of the table. -/
theorem run (actions : List Action) : StreamsKnown config (Node.init.run config actions).router := by
  apply Lib.run_keeps (P := fun _ _ => True) (I := fun s : Node => StreamsKnown config s.router)
  · exact runMeets_of_forall fun _ _ => trivial
  · exact fun i hopen => nomatch hopen
  · intro s action _ h
    exact h.step action

end StreamsKnown

end LeanLibp2p.Gossipsub
