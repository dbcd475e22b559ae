import LeanLibp2p.Gossipsub.Tx.FrameIntegrity
import LeanLibp2p.Gossipsub.Tx.Schedule

/-!
# The transmit side of a router

The transmit state with the peers that it reads, as a machine: `TxStep` has one rule for each
thing that the router does to it, from the reservation of an item to the loss of a writer. What
every rule keeps, `TransmitInv`, holds in every state that a router comes through.
-/

namespace LeanLibp2p.Gossipsub

open LeanLibp2p.Lib

variable {config : Config}

/-! ## The queues -/

/-- Follow the links from an item. -/
def Tx.walk (tx : Tx) : Nat → Option Nat → List Nat
  | 0, _ => []
  | _ + 1, none => []
  | fuel + 1, some i => i :: tx.walk fuel (tx.next i)

/-- The items of a peer: those on the way from `tx_head`. -/
def Tx.items (config : Config) (tx : Tx) (p : Nat) : List Nat :=
  tx.walk config.capacity.maxTxRpcQueue (tx.peer p).head

theorem Tx.walk_eq {tx : Tx} {start : Option Nat} {l : List Nat} {fuel : Nat}
    (h : Segment tx.next start l none) (hfuel : l.length ≤ fuel) : tx.walk fuel start = l := by
  induction l generalizing start fuel with
  | nil =>
    rw [Segment.nil_iff] at h
    subst h
    cases fuel <;> rfl
  | cons i l ih =>
    cases fuel with
    | zero => exact absurd hfuel (Nat.not_succ_le_zero _)
    | succ fuel =>
      rw [h.1, Tx.walk, ih h.2 (Nat.le_of_succ_le_succ hfuel)]

/-- The queues are what one meets on following the links. -/
theorem TxInv.items_eq {tx : Tx} {q : Nat → List Nat} {reserved : Option Nat}
    (h : TxInv config tx q reserved) {p : Nat} (hp : p < config.capacity.maxPeers) :
    tx.items config p = q p :=
  Tx.walk_eq (h.queue p hp).linked ((h.live hp).length_le (h.queue p hp).nodup)

/-- The walk depends on the heads and the links only. -/
theorem Tx.items_congr {tx tx' : Tx} {p : Nat}
    (hhead : (tx'.peer p).head = (tx.peer p).head) (hnext : tx'.next = tx.next) :
    tx'.items config p = tx.items config p := by
  have hwalk : ∀ fuel start, tx'.walk fuel start = tx.walk fuel start := by
    intro fuel
    induction fuel with
    | zero => exact fun _ => rfl
    | succ fuel ih =>
      intro start
      cases start with
      | none => rfl
      | some i => rw [Tx.walk, Tx.walk, hnext, ih]
  unfold Tx.items
  rw [hhead, hwalk]

theorem Tx.SameLists.items_eq {tx tx' : Tx} (h : Tx.SameLists tx tx') (config : Config) (p : Nat) :
    tx'.items config p = tx.items config p := by
  rcases h.peers p with ⟨_, _, _, hp⟩
  exact Tx.items_congr (by rw [hp]) h.next

theorem Tx.Schedules.items_eq {tx tx' : Tx} (h : Tx.Schedules tx tx') (config : Config) (p : Nat) :
    tx'.items config p = tx.items config p := h.sameLists.items_eq config p

theorem TxInv.of_queues {tx : Tx} {q : Nat → List Nat} {reserved : Option Nat}
    (h : TxInv config tx q reserved) : TxInv config tx (tx.items config) reserved :=
  h.congr_queues fun _ hp => h.items_eq hp

theorem Silent.congr {peers : Nat → Peer} {q q' : Nat → List Nat}
    (h : Silent config peers q) (hq : ∀ p < config.capacity.maxPeers, q' p = q p) :
    Silent config peers q' := by
  intro p hp hnone
  rw [hq p hp]
  exact h p hp hnone

/-! ## The machine -/

/-- The transmit state of a router with the peers that it reads. -/
structure TxSide where
  peers : Nat → Peer
  tx : Tx
  /-- The item that is reserved and not linked yet. -/
  reserved : Option Nat
  /-- What the encoder wrote for the item in each slot. -/
  written : Nat → Bytes

namespace TxSide

/-- A router without peers. -/
def init : TxSide := ⟨fun _ => .free, .init, none, fun _ => []⟩

/-- Replace a peer. -/
def setPeer (s : TxSide) (p : Nat) (peer : Peer) : TxSide :=
  { s with peers := Function.update s.peers p peer }

/-- The peer can write and frames wait for it. -/
def CanWrite (s : TxSide) (p : Nat) : Prop := Tx.CanWrite s.peers s.tx p

end TxSide

/-- What the router does to its transmit side. -/
inductive TxStep (config : Config) (s : TxSide) : TxSide → Prop
  /-- `gossipsub_tx_reserve` that fails. -/
  | refuse {p frameLen lifetimeUs nowUs : Nat} {e : GossipsubErr} {tx : Tx}
      (hfree : s.reserved = none) (hlen : 0 < frameLen)
      (hrun : txReserve config p frameLen lifetimeUs nowUs s.tx = (.error e, tx)) :
      TxStep config s { s with tx := tx }
  /-- `gossipsub_tx_reserve`. -/
  | reserve {p frameLen lifetimeUs nowUs i : Nat} {tx : Tx}
      (hfree : s.reserved = none) (hlen : 0 < frameLen)
      (hrun : txReserve config p frameLen lifetimeUs nowUs s.tx = (.ok i, tx)) :
      TxStep config s { s with tx := tx, reserved := some i }
  /-- `libp2p_gossipsub_rpc_frame_encode` into the range of the reserved item, and
      `gossipsub_tx_commit_reserved`. -/
  | commit {p i : Nat} {rpc : Rpc} {frame : Bytes} {priority : Bool} {tx : Tx}
      (hreserved : s.reserved = some i) (hwriter : (s.peers p).stream ≠ none)
      (hframe : rpcFrameEncode (s.peers p).version config.limits rpc (s.tx.len i) = .ok frame)
      (hlen : frame.length = s.tx.len i)
      (hrun : txCommitReserved config s.peers p i priority
        { s.tx with buffer := s.tx.buffer.store (s.tx.queue i).offset frame } = (.ok (), tx)) :
      TxStep config s
        { s with tx := tx, reserved := none, written := Function.update s.written i frame }
  /-- A queued message is marked with its id. -/
  | label (i : Nat) (messageId : Bytes) :
      TxStep config s { s with
        tx := s.tx.setItem i { s.tx.queue i with publish := true, messageId := messageId } }
  /-- `gossipsub_tx_remove`. -/
  | remove {i : Nat} (hreserved : s.reserved = none ∨ s.reserved = some i) :
      TxStep config s { s with tx := txRemove config s.peers s.tx i, reserved := none }
  /-- The host takes bytes of an item. -/
  | accept {i n : Nat} (hn : (s.tx.queue i).pos + n ≤ (s.tx.queue i).len) :
      TxStep config s { s with
        tx := s.tx.setItem i { s.tx.queue i with pos := (s.tx.queue i).pos + n } }
  /-- A full queue was reported to the application. -/
  | report (p : Nat) :
      TxStep config s { s with
        tx := s.tx.setPeer p { s.tx.peer p with queueLimitReported := true } }
  /-- The next call of `gossipsub_flush_ready_peers` goes on with the next peer. -/
  | advance :
      TxStep config s { s with
        tx := { s.tx with nextPeer := (s.tx.nextPeer + 1) % config.capacity.maxPeers } }
  /-- `gossipsub_tx_set_peer_ready` for a peer that would not be forgotten. -/
  | mark {p : Nat} {ready : Bool} (hp : p < config.capacity.maxPeers)
      (hawake : s.CanWrite p → ready = true ∨ (s.tx.peer p).transportBusy = true) :
      TxStep config s { s with tx := txSetPeerReady config s.peers s.tx p ready }
  /-- The transport of a peer takes no more bytes for now. -/
  | block {p : Nat} (hp : p < config.capacity.maxPeers) :
      TxStep config s { s with
        tx := txSetPeerReady config s.peers
          (s.tx.setPeer p { s.tx.peer p with transportBusy := true }) p false }
  /-- `gossipsub_tx_mark_peer_ready`. -/
  | wake (p : Nat) :
      TxStep config s { s with tx := txMarkPeerReady config s.peers s.tx p }
  /-- A peer without frames does not wait for its transport. -/
  | idle {p : Nat} (hempty : p < config.capacity.maxPeers → (s.tx.peer p).queueDepth = 0) :
      TxStep config s { s with
        tx := s.tx.setPeer p { s.tx.peer p with transportBusy := false } }
  /-- Nothing that the transmit state depends on changes in the peers. -/
  | peers {peers : Nat → Peer} (hused : ∀ p, (peers p).used = (s.peers p).used)
      (hstream : ∀ p, (peers p).stream = (s.peers p).stream) :
      TxStep config s { s with peers := peers }
  /-- A new peer. -/
  | addPeer {p : Nat} {peer : Peer} (hfree : (s.peers p).used = false)
      (hused : peer.used = true) (hstream : peer.stream = none) :
      TxStep config s { s.setPeer p peer with tx := s.tx.setPeer p .fresh }
  /-- A peer gets a writer. -/
  | openWriter {p : Nat} {peer : Peer} (hnone : (s.peers p).stream = none)
      (hused : peer.used = true) :
      TxStep config s (s.setPeer p peer)
  /-- A peer loses its writer. -/
  | closeWriter {p : Nat} {peer : Peer}
      (hempty : p < config.capacity.maxPeers → (s.tx.peer p).queueDepth = 0)
      (hused : peer.used = (s.peers p).used) (hstream : peer.stream = none) :
      TxStep config s (s.setPeer p peer)

/-- The states that the transmit side of a router comes through. -/
def TxReachable (config : Config) : TxSide → Prop :=
  Relation.ReflTransGen (TxStep config) .init

theorem TxReachable.step {s s' : TxSide} (h : TxReachable config s)
    (hstep : TxStep config s s') : TxReachable config s' := Relation.ReflTransGen.tail h hstep

/-! ## The invariant -/

/-- What holds of the transmit side between any two steps. -/
structure TransmitInv (config : Config) (s : TxSide) : Prop where
  queues : TxInv config s.tx (s.tx.items config) s.reserved
  silent : Silent config s.peers (s.tx.items config)
  unused : ∀ p, (s.peers p).used = false → (s.peers p).stream = none
  schedule : ScheduleInv config s.peers s.tx
  written : ∀ i, s.tx.Used config i → s.reserved ≠ some i → s.tx.content i = s.written i

namespace TransmitInv

variable {config : Config} {s : TxSide}

variable (h : TransmitInv config s)

include h

/-- A step that keeps the queues and the items. -/
theorem keeps {tx : Tx} (hq : TxInv config tx (s.tx.items config) s.reserved)
    (hschedule : ScheduleInv config s.peers tx)
    (hcontent : ∀ i, tx.Used config i → s.tx.Used config i ∧ tx.content i = s.tx.content i) :
    TransmitInv config { s with tx := tx } where
  queues := hq.of_queues
  silent := h.silent.congr fun _ hp => hq.items_eq hp
  unused := h.unused
  schedule := hschedule
  written i hi hne := by
    rcases hcontent i hi with ⟨hold, hsame⟩
    exact hsame.trans (h.written i hold hne)

/-- A step that at most schedules peers. -/
theorem schedules {tx : Tx} (hs : Tx.Schedules s.tx tx)
    (hschedule : ScheduleInv config s.peers tx) : TransmitInv config { s with tx := tx } := by
  apply h.keeps (hs.inv h.queues) hschedule
  intro i hi
  exact ⟨(hs.sameLists.used_iff config i).mp hi, (hs.keeps i).2⟩

/-- A step that changes an item in place. -/
theorem setItem {i : Nat} (item : TxItem) (hused : item.used = (s.tx.queue i).used)
    (hprio : item.priority = (s.tx.queue i).priority)
    (hpeer : item.peerIndex = (s.tx.queue i).peerIndex) (hnext : item.next = (s.tx.queue i).next)
    (hoff : item.offset = (s.tx.queue i).offset) (hlen : item.len = (s.tx.queue i).len)
    (hpos : s.tx.Used config i → item.pos ≤ item.len) :
    TransmitInv config { s with tx := s.tx.setItem i item } := by
  apply h.keeps (h.queues.setItem item hused hprio hpeer hnext hoff hlen hpos)
  · exact h.schedule.samePeers ⟨rfl, rfl, rfl⟩
  · intro j hj
    by_cases hji : j = i
    · subst hji
      unfold Tx.Used Tx.content at *
      rw [Tx.setItem_self, hused] at hj
      rw [Tx.setItem_self, hoff, hlen]
      exact ⟨hj, rfl⟩
    · unfold Tx.Used Tx.content at *
      rw [Tx.setItem_of_ne _ _ hji] at hj ⊢
      exact ⟨hj, rfl⟩

/-- The slots of the linked items are the same when the queues are. -/
theorem used_of_queues {tx : Tx} (hq : TxInv config tx (s.tx.items config) none) (i : Nat)
    (hi : tx.Used config i) :
    s.tx.Used config i := by
  rcases hq.used_iff i |>.mp hi with ⟨p, hp, hmem⟩
  exact (h.queues.queued p hp i hmem).1

theorem refuse (hfits : config.capacity.txBufferBytes ≤ ptrdiffMax)
    {p frameLen lifetimeUs nowUs : Nat} {e : GossipsubErr} {tx : Tx} (hfree : s.reserved = none)
    (hlen : 0 < frameLen)
    (hrun : txReserve config p frameLen lifetimeUs nowUs s.tx = (.error e, tx)) :
    TransmitInv config { s with tx := tx } := by
  have hqueues := h.queues
  rw [hfree] at hqueues
  rcases (txReserve_spec hqueues hfits hlen hrun).1 e rfl with ⟨hq, hkeeps⟩
  have hsame := txReserve_samePeers config p frameLen lifetimeUs nowUs s.tx
  rw [hrun] at hsame
  apply h.keeps (hfree ▸ hq) (h.schedule.samePeers hsame)
  intro i hi
  have hold := h.used_of_queues hq i hi
  exact ⟨hold, (hkeeps i hold).2⟩

theorem reserve (hfits : config.capacity.txBufferBytes ≤ ptrdiffMax)
    {p frameLen lifetimeUs nowUs i : Nat} {tx : Tx} (hfree : s.reserved = none)
    (hlen : 0 < frameLen) (hrun : txReserve config p frameLen lifetimeUs nowUs s.tx = (.ok i, tx)) :
    TransmitInv config { s with tx := tx, reserved := some i } := by
  have hqueues := h.queues
  rw [hfree] at hqueues
  rcases (txReserve_spec hqueues hfits hlen hrun).2 i rfl with ⟨hq, hreserves⟩
  have hsame := txReserve_samePeers config p frameLen lifetimeUs nowUs s.tx
  rw [hrun] at hsame
  refine ⟨hq.of_queues, h.silent.congr fun _ hp => hq.items_eq hp, h.unused,
    h.schedule.samePeers hsame, ?_⟩
  intro j hj hne
  rcases hq.owner j hj with ⟨hp, hmem⟩
  have hold := (h.queues.queued _ hp j (hmem hne)).1
  rw [← h.written j hold (by rw [hfree]; simp)]
  exact (hreserves.keeps j hold).2

theorem commit {p i : Nat} {frame : Bytes} {priority : Bool} {tx : Tx}
    (hreserved : s.reserved = some i) (hwriter : (s.peers p).stream ≠ none)
    (hlen : frame.length = s.tx.len i) (hrun : txCommitReserved config s.peers p i priority
      { s.tx with buffer := s.tx.buffer.store (s.tx.queue i).offset frame } = (.ok (), tx)) :
    TransmitInv config
      { s with tx := tx, reserved := none, written := Function.update s.written i frame } := by
  have hqueues := h.queues
  rw [hreserved] at hqueues
  rcases hqueues.store hlen with ⟨hstored, hcontent, hkeeps⟩
  have hschedule : ScheduleInv config s.peers
      { s.tx with buffer := s.tx.buffer.store (s.tx.queue i).offset frame } :=
    h.schedule.samePeers ⟨rfl, rfl, rfl⟩
  have hused : ∀ j, ({ s.tx with
      buffer := s.tx.buffer.store (s.tx.queue i).offset frame } : Tx).Used config j →
      s.tx.Used config j := fun _ hj => hj
  generalize ({ s.tx with buffer := s.tx.buffer.store (s.tx.queue i).offset frame } : Tx) = stored
    at hstored hcontent hkeeps hschedule hused hrun
  unfold txCommitReserved at hrun
  split at hrun
  · cases hrun
  rename_i hbounds
  split at hrun
  · cases hrun
  rename_i hitem
  cases hrun
  have hpeer : (stored.queue i).peerIndex = p := by
    by_contra hne
    exact hitem (.inr (.inl hne))
  rcases hstored.append s.peers hpeer priority with ⟨hq, hothers, -, hself⟩
  refine ⟨hq.of_queues, ?_, h.unused, hschedule.append (by omega) i priority, ?_⟩
  · refine Silent.congr ?_ fun _ hr => hq.items_eq hr
    intro r hr hnone
    have hrp : r ≠ p := by
      rintro rfl
      exact hwriter hnone
    rw [Function.update_of_ne hrp]
    exact h.silent r hr hnone
  · intro j hj _
    dsimp only at hj ⊢
    by_cases hji : j = i
    · subst hji
      rw [Function.update_self]
      exact hself.trans hcontent
    · have hstill : stored.Used config j := by
        refine ⟨hj.1, ?_⟩
        rw [← (hothers j hji).field_eq TxItem.used fun _ => rfl]
        exact hj.2
      have hold := hused j hstill
      rw [Function.update_of_ne hji, ← h.written j hold (by rw [hreserved]; simp [Ne.symm hji]),
        (hothers j hji).2, (hkeeps j hold hji).2]

theorem remove {i : Nat} (hreserved : s.reserved = none ∨ s.reserved = some i) :
    TransmitInv config
      { s with tx := txRemove config s.peers s.tx i, reserved := none } := by
  by_cases hi : s.tx.Used config i
  · rcases h.queues.remove s.peers hi hreserved with ⟨hq, hfree, hkeeps⟩
    refine ⟨hq.of_queues, ?_, h.unused, h.schedule.remove h.queues i, ?_⟩
    · exact (h.silent.erase i).congr fun _ hp => hq.items_eq hp
    · intro j hj _
      have hji : j ≠ i := by
        rintro rfl
        have := hj.2
        dsimp only at this
        rw [hfree] at this
        cases this
      have hold : s.tx.Used config j := by
        refine ⟨hj.1, ?_⟩
        rw [← (hkeeps j hji).field_eq TxItem.used fun _ => rfl]
        exact hj.2
      rw [← h.written j hold]
      · exact (hkeeps j hji).2
      · rcases hreserved with hnone | hsome
        · simp [hnone]
        · simp [hsome, Ne.symm hji]
  · rw [txRemove_of_unused s.peers hi]
    rcases hreserved with hnone | hsome
    · have hs : { s with tx := s.tx, reserved := none } = s := by rw [← hnone]
      rw [hs]
      exact h
    · exact absurd (h.queues.fresh i hsome).1 hi

theorem accept {i n : Nat} (hn : (s.tx.queue i).pos + n ≤ (s.tx.queue i).len) :
    TransmitInv config { s with
      tx := s.tx.setItem i { s.tx.queue i with pos := (s.tx.queue i).pos + n } } :=
  h.setItem { s.tx.queue i with pos := (s.tx.queue i).pos + n } rfl rfl rfl rfl rfl rfl fun _ => hn

theorem label (i : Nat) (messageId : Bytes) :
    TransmitInv config { s with
      tx := s.tx.setItem i { s.tx.queue i with publish := true, messageId := messageId } } :=
  h.setItem { s.tx.queue i with publish := true, messageId := messageId } rfl rfl rfl rfl rfl rfl
    fun hi => h.queues.buffer.pos_le i hi

theorem report (p : Nat) :
    TransmitInv config { s with
      tx := s.tx.setPeer p { s.tx.peer p with queueLimitReported := true } } := by
  apply h.schedules (Tx.Schedules.setPeer s.tx p true _ _)
  refine h.schedule.congr (Tx.SameSchedule.setPeer s.tx p _ rfl rfl) ?_
  intro r _
  apply Tx.canWrite_congr
  by_cases hrp : r = p
  · rw [hrp, Tx.setPeer_self]
  · rw [Tx.setPeer_of_ne _ _ hrp]

theorem advance :
    TransmitInv config { s with
      tx := { s.tx with nextPeer := (s.tx.nextPeer + 1) % config.capacity.maxPeers } } := by
  refine h.schedules ⟨rfl, rfl, rfl, rfl, fun _ => ⟨_, _, _, rfl⟩⟩ ⟨h.schedule.count, ?_, ?_⟩
  · intro p hp
    have hpeer := h.schedule.peer p hp
    constructor
    · intro hready
      rcases hpeer.can_write hready with ⟨hused, hwriter, hwaiting⟩
      exact ⟨hused, hwriter, hwaiting⟩
    · intro hcan
      exact hpeer.awake ⟨hcan.used, hcan.writer, hcan.waiting⟩
  · rcases Nat.eq_zero_or_pos config.capacity.maxPeers with hzero | hpos
    · exact .inl hzero
    · exact .inr (Nat.mod_lt _ hpos)

theorem mark {p : Nat} {ready : Bool} (hp : p < config.capacity.maxPeers)
    (hawake : s.CanWrite p → ready = true ∨ (s.tx.peer p).transportBusy = true) :
    TransmitInv config { s with tx := txSetPeerReady config s.peers s.tx p ready } := by
  apply h.schedules (txSetPeerReady_schedules ..)
  exact ScheduleInv.setPeerReady h.schedule.count (fun r hr _ => h.schedule.peer r hr)
    h.schedule.next hp hawake

/-- Replacing the flag of one peer leaves the others scheduled. -/
theorem others_scheduled {p : Nat} (peer : PeerTx) :
    ∀ r < config.capacity.maxPeers, r ≠ p → (s.tx.setPeer p peer).Scheduled s.peers r := by
  intro r hr hrp
  have hsame : (s.tx.setPeer p peer).peer r = s.tx.peer r := Tx.setPeer_of_ne _ _ hrp
  have hiff := @Tx.canWrite_congr s.peers _ _ _ (congrArg PeerTx.queueDepth hsame)
  constructor
  · rw [hsame, hiff]
    exact (h.schedule.peer r hr).can_write
  · rw [hsame, hiff]
    exact (h.schedule.peer r hr).awake

theorem block {p : Nat} (hp : p < config.capacity.maxPeers) :
    TransmitInv config { s with
      tx := txSetPeerReady config s.peers
        (s.tx.setPeer p { s.tx.peer p with transportBusy := true }) p false } := by
  have hbusy := Tx.Schedules.setPeer s.tx p (s.tx.peer p).queueLimitReported (s.tx.peer p).ready true
  apply h.schedules (hbusy.trans (txSetPeerReady_schedules ..))
  apply ScheduleInv.setPeerReady
  · exact h.schedule.count.replace hp rfl rfl
  · exact h.others_scheduled _
  · exact h.schedule.next
  · exact hp
  · intro _
    rw [Tx.setPeer_self]
    exact .inr rfl

theorem wake (p : Nat) :
    TransmitInv config { s with tx := txMarkPeerReady config s.peers s.tx p } :=
  h.schedules (txMarkPeerReady_schedules ..) (h.schedule.markPeerReady p)

/-- A peer without frames is not ready. -/
theorem not_ready {p : Nat} (hp : p < config.capacity.maxPeers)
    (hempty : (s.tx.peer p).queueDepth = 0) : (s.tx.peer p).ready = false := by
  cases hready : (s.tx.peer p).ready with
  | false => rfl
  | true => exact absurd hempty ((h.schedule.peer p hp).can_write hready).waiting

theorem idle {p : Nat} (hempty : p < config.capacity.maxPeers → (s.tx.peer p).queueDepth = 0) :
    TransmitInv config { s with
      tx := s.tx.setPeer p { s.tx.peer p with transportBusy := false } } := by
  apply h.schedules (Tx.Schedules.setPeer s.tx p _ _ false)
  refine ⟨?_, ?_, h.schedule.next⟩
  · by_cases hp : p < config.capacity.maxPeers
    · exact h.schedule.count.replace hp rfl rfl
    · exact h.schedule.count.setPeer_of_le _ (Nat.le_of_not_lt hp)
  · intro r hr
    by_cases hrp : r = p
    · subst hrp
      constructor
      · intro hready
        rw [Tx.setPeer_self] at hready
        have := h.not_ready hr (hempty hr)
        rw [hready] at this
        cases this
      · intro hcan
        have hwaiting := hcan.waiting
        rw [Tx.setPeer_self] at hwaiting
        exact absurd (hempty hr) hwaiting
    · exact h.others_scheduled _ r hr hrp

/-! ## Peers and writers -/

/-- A step that changes the peers only. -/
theorem setPeers {peers : Nat → Peer} (hsilent : Silent config peers (s.tx.items config))
    (hunused : ∀ p, (peers p).used = false → (peers p).stream = none)
    (hcan : ∀ p < config.capacity.maxPeers, Tx.CanWrite peers s.tx p ↔ s.CanWrite p) :
    TransmitInv config { s with peers := peers } :=
  ⟨h.queues, hsilent, hunused, h.schedule.congr (Tx.SameSchedule.refl s.tx) hcan, h.written⟩

theorem peers {peers : Nat → Peer} (hused : ∀ p, (peers p).used = (s.peers p).used)
    (hstream : ∀ p, (peers p).stream = (s.peers p).stream) :
    TransmitInv config { s with peers := peers } := by
  apply h.setPeers
  · intro p hp hnone
    rw [hstream] at hnone
    exact h.silent p hp hnone
  · intro p hfree
    rw [hused] at hfree
    rw [hstream]
    exact h.unused p hfree
  · intro p _
    constructor
    · intro hcan
      exact ⟨hused p ▸ hcan.used, hstream p ▸ hcan.writer, hcan.waiting⟩
    · intro hcan
      exact ⟨(hused p).symm ▸ hcan.used, (hstream p).symm ▸ hcan.writer, hcan.waiting⟩

/-- A peer without a writer has no frames. -/
theorem depth_eq_zero {p : Nat} (hp : p < config.capacity.maxPeers)
    (hnone : (s.peers p).stream = none) : (s.tx.peer p).queueDepth = 0 := by
  rw [(h.queues.queue p hp).depth_eq, h.silent p hp hnone]
  rfl

theorem items_eq_nil {p : Nat} (hp : p < config.capacity.maxPeers)
    (hempty : (s.tx.peer p).queueDepth = 0) : s.tx.items config p = [] :=
  (h.queues.queue p hp).eq_nil_of_depth hempty

/-- Replacing a peer whose queue is empty. -/
theorem setPeer {p : Nat} {peer : Peer}
    (hempty : p < config.capacity.maxPeers → (s.tx.peer p).queueDepth = 0)
    (hunused : peer.used = false → peer.stream = none) :
    TransmitInv config (s.setPeer p peer) := by
  apply h.setPeers
  · intro r hr hnone
    by_cases hrp : r = p
    · subst hrp
      exact h.items_eq_nil hr (hempty hr)
    · rw [Function.update_of_ne hrp] at hnone
      exact h.silent r hr hnone
  · intro r hfree
    by_cases hrp : r = p
    · subst hrp
      rw [Function.update_self] at hfree ⊢
      exact hunused hfree
    · rw [Function.update_of_ne hrp] at hfree ⊢
      exact h.unused r hfree
  · intro r hr
    by_cases hrp : r = p
    · subst hrp
      exact ⟨fun hcan => absurd (hempty hr) hcan.waiting,
        fun hcan => absurd (hempty hr) hcan.waiting⟩
    · constructor
      · intro hcan
        have hcan' := hcan
        rcases hcan with ⟨hused, hwriter, hwaiting⟩
        rw [Function.update_of_ne hrp] at hused hwriter
        exact ⟨hused, hwriter, hwaiting⟩
      · intro hcan
        refine ⟨?_, ?_, hcan.waiting⟩
        · rw [Function.update_of_ne hrp]
          exact hcan.used
        · rw [Function.update_of_ne hrp]
          exact hcan.writer

theorem addPeer {p : Nat} {peer : Peer} (hfree : (s.peers p).used = false)
    (hused : peer.used = true) :
    TransmitInv config { s.setPeer p peer with tx := s.tx.setPeer p .fresh } := by
  have hnone := h.unused p hfree
  have hsame : ∀ r, r ≠ p → (s.tx.setPeer p .fresh).peer r = s.tx.peer r :=
    fun r hr => Tx.setPeer_of_ne _ _ hr
  suffices hfresh : TransmitInv config { s with tx := s.tx.setPeer p .fresh } by
    apply hfresh.setPeer
    · intro _
      rw [Tx.setPeer_self]
      rfl
    · intro hunused
      rw [hused] at hunused
      cases hunused
  have hq : TxInv config (s.tx.setPeer p .fresh) (s.tx.items config) s.reserved := by
    have hbuffer : BufferInv config (s.tx.setPeer p .fresh) :=
      h.queues.buffer.congr (fun _ hi => hi) (fun _ _ => rfl) (fun _ _ => rfl) (fun _ _ => rfl) rfl
    refine ⟨?_, h.queues.owner, h.queues.queued, h.queues.fresh, h.queues.count, hbuffer⟩
    intro r hr
    by_cases hrp : r = p
    · subst hrp
      rw [h.silent r hr hnone]
      apply PeerQueue.of_empty <;> rw [Tx.setPeer_self] <;> rfl
    · apply (h.queues.queue r hr).congr
      case hnext => exact fun _ _ => rfl
      case hprio => exact fun _ _ => rfl
      all_goals rw [hsame r hrp]
  apply h.keeps hq
  · refine ⟨?_, ?_, h.schedule.next⟩
    · by_cases hp : p < config.capacity.maxPeers
      · apply h.schedule.count.replace hp rfl
        rw [h.not_ready hp (h.depth_eq_zero hp hnone)]
        rfl
      · exact h.schedule.count.setPeer_of_le _ (Nat.le_of_not_lt hp)
    · intro r hr
      by_cases hrp : r = p
      · subst hrp
        constructor
        · intro hready
          rw [Tx.setPeer_self] at hready
          cases hready
        · intro hcan
          have hwaiting := hcan.waiting
          rw [Tx.setPeer_self] at hwaiting
          exact absurd rfl hwaiting
      · exact h.others_scheduled _ r hr hrp
  · exact fun i hi => ⟨hi, rfl⟩

/-! ## Steps and runs -/

/-- Every step keeps the invariant. -/
theorem step (hfits : config.capacity.txBufferBytes ≤ ptrdiffMax) {s' : TxSide}
    (hstep : TxStep config s s') : TransmitInv config s' := by
  cases hstep with
  | refuse hfree hlen hrun => exact h.refuse hfits hfree hlen hrun
  | reserve hfree hlen hrun => exact h.reserve hfits hfree hlen hrun
  | commit hreserved hwriter hframe hlen hrun => exact h.commit hreserved hwriter hlen hrun
  | label i messageId => exact h.label i messageId
  | remove hreserved => exact h.remove hreserved
  | accept hn => exact h.accept hn
  | report p => exact h.report p
  | advance => exact h.advance
  | mark hp hawake => exact h.mark hp hawake
  | block hp => exact h.block hp
  | wake p => exact h.wake p
  | idle hempty => exact h.idle hempty
  | peers hused hstream => exact h.peers hused hstream
  | addPeer hfree hused hstream => exact h.addPeer hfree hused
  | @openWriter p peer hnone hused =>
    apply h.setPeer
    · exact fun hp => h.depth_eq_zero hp hnone
    · intro hunused
      rw [hused] at hunused
      cases hunused
  | closeWriter hempty hused hstream => exact h.setPeer hempty fun _ => hstream

end TransmitInv

theorem TransmitInv.init (config : Config) (hpeers : 0 < config.capacity.maxPeers) :
    TransmitInv config .init := by
  rcases SystemInv.init config with ⟨q, hq, hsilent⟩
  refine ⟨hq.tx.of_queues, hsilent.congr fun _ hp => hq.tx.items_eq hp, fun _ _ => rfl, ?_, ?_⟩
  · refine ⟨?_, ?_, .inr hpeers⟩
    · unfold Tx.Counted
      rw [List.countP_eq_zero.mpr]
      · rfl
      · intro p _ hready
        cases hready
    · intro p _
      exact ⟨fun hready => (nomatch hready), fun hcan => absurd rfl hcan.waiting⟩
  · intro i hi
    cases hi.2

/-- Every state that the transmit side comes through satisfies the invariant. -/
theorem TxReachable.inv {s : TxSide} (h : TxReachable config s)
    (hpeers : 0 < config.capacity.maxPeers)
    (hfits : config.capacity.txBufferBytes ≤ ptrdiffMax) : TransmitInv config s := by
  induction h with
  | refl => exact TransmitInv.init config hpeers
  | tail _ hstep ih => exact ih.step hfits hstep

end LeanLibp2p.Gossipsub
