import LeanLibp2p.Gossipsub.Tx.Reserve

/-!
# Scheduling of the writers

`gossipsub_flush_ready_peers` visits the peers that are marked ready. `ScheduleInv` says that
these are the peers with a writer and with frames, less those whose transport takes nothing for
now, so that no queue is forgotten. Each operation on the transmit state keeps it.
-/

namespace LeanLibp2p.Gossipsub

open LeanLibp2p.Lib

variable (config : Config) (peers : Nat → Peer)
variable (tx : Tx)

/-- The peer has a writer, and frames wait for it. -/
structure Tx.CanWrite (peers : Nat → Peer) (tx : Tx) (p : Nat) : Prop where
  used : (peers p).used = true
  writer : (peers p).stream.isSome = true
  waiting : (tx.peer p).queueDepth ≠ 0

/-- A ready peer can write, and one that can write is ready or waits for its transport. -/
structure Tx.Scheduled (peers : Nat → Peer) (tx : Tx) (p : Nat) : Prop where
  can_write : (tx.peer p).ready = true → Tx.CanWrite peers tx p
  awake : Tx.CanWrite peers tx p → (tx.peer p).ready = true ∨ (tx.peer p).transportBusy = true

/-- `tx_ready_count` counts the ready peers. -/
def Tx.Counted (tx : Tx) : Prop :=
  tx.readyCount = (List.range config.capacity.maxPeers).countP fun p => (tx.peer p).ready

/-- No peer that can write is forgotten. -/
structure ScheduleInv (config : Config) (peers : Nat → Peer) (tx : Tx) : Prop where
  count : tx.Counted config
  peer : ∀ p < config.capacity.maxPeers, tx.Scheduled peers p
  next : config.capacity.maxPeers = 0 ∨ tx.nextPeer < config.capacity.maxPeers

/-! ## Steps that do not schedule -/

/-- From `tx` to `tx'` no peer was scheduled anew. -/
structure Tx.SameSchedule (tx tx' : Tx) : Prop where
  ready : ∀ p, (tx'.peer p).ready = (tx.peer p).ready
  busy : ∀ p, (tx'.peer p).transportBusy = (tx.peer p).transportBusy
  readyCount : tx'.readyCount = tx.readyCount
  nextPeer : tx'.nextPeer = tx.nextPeer

namespace Tx.SameSchedule

variable {tx tx' tx'' : Tx}

theorem refl (tx : Tx) : Tx.SameSchedule tx tx := ⟨fun _ => rfl, fun _ => rfl, rfl, rfl⟩

theorem trans (h : Tx.SameSchedule tx tx') (h' : Tx.SameSchedule tx' tx'') :
    Tx.SameSchedule tx tx'' where
  ready p := (h'.ready p).trans (h.ready p)
  busy p := (h'.busy p).trans (h.busy p)
  readyCount := h'.readyCount.trans h.readyCount
  nextPeer := h'.nextPeer.trans h.nextPeer

/-- Replacing the other transmit fields of a peer. -/
theorem setPeer (tx : Tx) (p : Nat) (peer : PeerTx) (hready : peer.ready = (tx.peer p).ready)
    (hbusy : peer.transportBusy = (tx.peer p).transportBusy) :
    Tx.SameSchedule tx (tx.setPeer p peer) := by
  have hfield : ∀ {α : Type} (f : PeerTx → α), f peer = f (tx.peer p) →
      ∀ r, f ((tx.setPeer p peer).peer r) = f (tx.peer r) := by
    intro α f hf r
    by_cases hr : r = p
    · rw [hr, Tx.setPeer_self, hf]
    · rw [Tx.setPeer_of_ne _ _ hr]
  exact ⟨hfield PeerTx.ready hready, hfield PeerTx.transportBusy hbusy, rfl, rfl⟩

theorem counted (h : Tx.SameSchedule tx tx') {config : Config} (hcount : tx.Counted config) :
    tx'.Counted config := by
  unfold Tx.Counted
  simp only [h.readyCount, h.ready]
  exact hcount

/-- A peer that can write as before is scheduled as before. -/
theorem scheduled (h : Tx.SameSchedule tx tx') {peers peers' : Nat → Peer} {p : Nat}
    (hcan : Tx.CanWrite peers' tx' p ↔ Tx.CanWrite peers tx p) (hp : tx.Scheduled peers p) :
    tx'.Scheduled peers' p where
  can_write := by
    rw [h.ready, hcan]
    exact hp.can_write
  awake := by
    rw [h.ready, h.busy, hcan]
    exact hp.awake

end Tx.SameSchedule

/-- A step that neither schedules a peer nor changes who can write. -/
theorem ScheduleInv.congr {config : Config} {peers peers' : Nat → Peer} {tx tx' : Tx}
    (h : ScheduleInv config peers tx) (hs : Tx.SameSchedule tx tx')
    (hcan : ∀ p < config.capacity.maxPeers,
      Tx.CanWrite peers' tx' p ↔ Tx.CanWrite peers tx p) : ScheduleInv config peers' tx' where
  count := hs.counted h.count
  peer p hp := hs.scheduled (hcan p hp) (h.peer p hp)
  next := by
    rw [hs.nextPeer]
    exact h.next

theorem Tx.canWrite_congr {peers : Nat → Peer} {tx tx' : Tx} {p : Nat}
    (h : (tx'.peer p).queueDepth = (tx.peer p).queueDepth) :
    Tx.CanWrite peers tx' p ↔ Tx.CanWrite peers tx p := by
  constructor
  · intro hcan
    exact ⟨hcan.used, hcan.writer, h ▸ hcan.waiting⟩
  · intro hcan
    exact ⟨hcan.used, hcan.writer, h.symm ▸ hcan.waiting⟩

/-! ## Marking a peer -/

theorem txSetPeerReady_self {config : Config} (peers : Nat → Peer) (tx : Tx) {p : Nat}
    (ready : Bool) (hp : p < config.capacity.maxPeers) :
    (txSetPeerReady config peers tx p ready).peer p = { tx.peer p with
      ready := ready && ((peers p).used && (peers p).stream.isSome &&
        decide ((tx.peer p).queueDepth ≠ 0)) } := by
  unfold txSetPeerReady
  rw [if_pos hp]
  generalize hnext : (ready && ((peers p).used && (peers p).stream.isSome &&
    decide ((tx.peer p).queueDepth ≠ 0))) = next
  dsimp only
  rw [hnext]
  cases hready : (tx.peer p).ready <;> cases next <;> simp

theorem txSetPeerReady_nextPeer (p : Nat)
    (ready : Bool) : (txSetPeerReady config peers tx p ready).nextPeer = tx.nextPeer := by
  unfold txSetPeerReady
  split
  · dsimp only
    split
    · rfl
    · split <;> rfl
  · rfl

/-- Replacing a peer keeps the count when the counter follows. -/
theorem Tx.Counted.replace {config : Config} {tx tx' : Tx} (h : tx.Counted config) {p : Nat}
    {peer : PeerTx} (hp : p < config.capacity.maxPeers)
    (hpeer : tx'.peer = Function.update tx.peer p peer)
    (hcount : tx'.readyCount + (tx.peer p).ready.toNat = tx.readyCount + peer.ready.toNat) :
    tx'.Counted config := by
  have hupdate := countP_update PeerTx.ready tx.peer peer hp
  unfold Tx.Counted at h ⊢
  rw [hpeer]
  omega

/-- A peer outside of the table does not count. -/
theorem Tx.Counted.setPeer_of_le {config : Config} {tx : Tx} (h : tx.Counted config) {p : Nat}
    (peer : PeerTx) (hp : config.capacity.maxPeers ≤ p) : (tx.setPeer p peer).Counted config := by
  unfold Tx.Counted at h ⊢
  rw [show (tx.setPeer p peer).readyCount = tx.readyCount from rfl, h]
  apply List.countP_congr
  intro r hr
  rw [Tx.setPeer_of_ne _ _ (by have := List.mem_range.mp hr; omega)]

/-- Marking a peer keeps the count. -/
theorem Tx.Counted.setPeerReady {config : Config} {tx : Tx} (h : tx.Counted config)
    (peers : Nat → Peer) (p : Nat) (ready : Bool) :
    (txSetPeerReady config peers tx p ready).Counted config := by
  unfold txSetPeerReady
  split
  · rename_i hp
    generalize hnext : (ready && ((peers p).used && (peers p).stream.isSome &&
      decide ((tx.peer p).queueDepth ≠ 0))) = next
    dsimp only
    rw [hnext]
    split
    · rename_i hup
      simp only [Bool.and_eq_true, Bool.not_eq_true'] at hup
      apply h.replace hp rfl
      rw [hup.2]
      rfl
    · split
      · rename_i hdown
        simp only [Bool.and_eq_true, Bool.not_eq_true'] at hdown
        have hcounted : tx.readyCount ≠ 0 := by
          have hpos : 0 < (List.range config.capacity.maxPeers).countP fun q =>
              (tx.peer q).ready := by
            rw [List.countP_pos_iff]
            exact ⟨p, List.mem_range.mpr hp, hdown.2⟩
          unfold Tx.Counted at h
          omega
        apply h.replace hp rfl
        rw [if_pos hcounted, hdown.2]
        change tx.readyCount - 1 + 1 = tx.readyCount + 0
        omega
      · rename_i hup hdown
        have hsame : next = (tx.peer p).ready := by
          cases next <;> cases hready : (tx.peer p).ready <;> simp_all
        apply h.replace hp rfl
        rw [hsame]
        rfl
  · exact h

/-- After marking a peer it is scheduled, if it is marked ready or waits for its transport
    whenever it can write. -/
theorem ScheduleInv.setPeerReady {config : Config} {peers : Nat → Peer} {tx : Tx} {p : Nat}
    {ready : Bool} (hcount : tx.Counted config)
    (hothers : ∀ r < config.capacity.maxPeers, r ≠ p → tx.Scheduled peers r)
    (hnext : config.capacity.maxPeers = 0 ∨ tx.nextPeer < config.capacity.maxPeers)
    (hp : p < config.capacity.maxPeers)
    (hawake : Tx.CanWrite peers tx p → ready = true ∨ (tx.peer p).transportBusy = true) :
    ScheduleInv config peers (txSetPeerReady config peers tx p ready) := by
  have hself := txSetPeerReady_self peers tx ready hp
  have hcan : Tx.CanWrite peers (txSetPeerReady config peers tx p ready) p ↔
      Tx.CanWrite peers tx p := Tx.canWrite_congr (by rw [hself])
  refine ⟨hcount.setPeerReady peers p ready, ?_, ?_⟩
  · intro r hr
    by_cases hrp : r = p
    · subst hrp
      constructor
      · intro hready
        rw [hself] at hready
        simp only [Bool.and_eq_true, decide_eq_true_eq] at hready
        exact hcan.mpr ⟨hready.2.1.1, hready.2.1.2, hready.2.2⟩
      · intro h
        have hwrite := hcan.mp h
        rw [hself]
        rcases hawake hwrite with hready | hbusy
        · left
          simp only [hready, hwrite.used, hwrite.writer, Bool.true_and, decide_eq_true_eq]
          exact hwrite.waiting
        · exact .inr hbusy
    · have hsame := txSetPeerReady_others config peers tx ready hrp
      have hiff : Tx.CanWrite peers (txSetPeerReady config peers tx p ready) r ↔
          Tx.CanWrite peers tx r := Tx.canWrite_congr (by rw [hsame])
      constructor
      · rw [hsame, hiff]
        exact (hothers r hr hrp).can_write
      · rw [hsame, hiff]
        exact (hothers r hr hrp).awake
  · rw [txSetPeerReady_nextPeer]
    exact hnext

/-- `gossipsub_tx_mark_peer_ready` wakes the peer. -/
theorem ScheduleInv.markPeerReady {config : Config} {peers : Nat → Peer} {tx : Tx}
    (h : ScheduleInv config peers tx) (p : Nat) :
    ScheduleInv config peers (txMarkPeerReady config peers tx p) := by
  unfold txMarkPeerReady
  split
  · rename_i hp
    apply ScheduleInv.setPeerReady
    · exact h.count.replace hp rfl rfl
    · intro r hr hrp
      have hsame : (tx.setPeer p { tx.peer p with transportBusy := false }).peer r = tx.peer r :=
        Tx.setPeer_of_ne _ _ hrp
      have hiff := @Tx.canWrite_congr peers _ _ _ (congrArg PeerTx.queueDepth hsame)
      constructor
      · rw [hsame, hiff]
        exact (h.peer r hr).can_write
      · rw [hsame, hiff]
        exact (h.peer r hr).awake
    · exact h.next
    · exact hp
    · exact fun _ => .inl rfl
  · exact h

/-! ## Enqueueing -/

/-- Linking an item leaves the scheduling fields and the depth alone. -/
theorem txLinkPeerItem_peer (p i : Nat) (priority : Bool) (r : Nat) :
    ∃ head tail priorityTail, (txLinkPeerItem tx p i priority).peer r =
      { tx.peer r with head := head, tail := tail, priorityTail := priorityTail } := by
  have hset : ∀ (tx' : Tx) (head tail priorityTail : Option Nat), tx'.peer = tx.peer →
      ∃ head' tail' priorityTail', (tx'.setPeer p { tx.peer p with
        head := head, tail := tail, priorityTail := priorityTail }).peer r =
      { tx.peer r with head := head', tail := tail', priorityTail := priorityTail' } := by
    intro tx' head tail priorityTail htx'
    by_cases hr : r = p
    · subst hr
      exact ⟨head, tail, priorityTail, Tx.setPeer_self ..⟩
    · exact ⟨_, _, _, (Tx.setPeer_of_ne _ _ hr).trans (congrFun htx' r)⟩
  unfold txLinkPeerItem
  dsimp only
  split
  · exact hset tx _ _ _ rfl
  · split
    · split
      · exact ⟨_, _, _, rfl⟩
      · exact hset _ _ _ _ rfl
    · split
      · exact hset _ _ _ _ rfl
      · exact hset _ _ _ _ rfl

theorem txLinkPeerItem_counters (p i : Nat) (priority : Bool) :
    (txLinkPeerItem tx p i priority).readyCount = tx.readyCount ∧
      (txLinkPeerItem tx p i priority).nextPeer = tx.nextPeer := by
  unfold txLinkPeerItem
  dsimp only
  split
  · exact ⟨rfl, rfl⟩
  · split
    · split <;> exact ⟨rfl, rfl⟩
    · split <;> exact ⟨rfl, rfl⟩

/-- A peer that gets its first item is marked ready, unless it waits for its transport. -/
theorem ScheduleInv.append {config : Config} {peers : Nat → Peer} {tx : Tx}
    (h : ScheduleInv config peers tx) {p : Nat} (hp : p < config.capacity.maxPeers) (i : Nat)
    (priority : Bool) : ScheduleInv config peers (txAppendPeerItem config peers tx p i priority) := by
  unfold txAppendPeerItem
  dsimp only
  generalize hitem : tx.setItem i { tx.queue i with priority := priority } = tx₁
  have hpeer₁ : tx₁.peer = tx.peer := by
    rw [← hitem]
    rfl
  rcases txLinkPeerItem_peer tx₁ p i priority p with ⟨head, tail, priorityTail, hself⟩
  generalize hcounted : (txLinkPeerItem tx₁ p i priority).setPeer p
    { (txLinkPeerItem tx₁ p i priority).peer p with
      queueDepth := ((txLinkPeerItem tx₁ p i priority).peer p).queueDepth + 1
      priorityDepth := if priority then ((txLinkPeerItem tx₁ p i priority).peer p).priorityDepth + 1
        else ((txLinkPeerItem tx₁ p i priority).peer p).priorityDepth } = tx₂
  have hlink : Tx.SameSchedule tx (txLinkPeerItem tx₁ p i priority) := by
    rcases txLinkPeerItem_counters tx₁ p i priority with ⟨hready, hnext⟩
    constructor
    · intro r
      rcases txLinkPeerItem_peer tx₁ p i priority r with ⟨_, _, _, hr⟩
      rw [hr, hpeer₁]
    · intro r
      rcases txLinkPeerItem_peer tx₁ p i priority r with ⟨_, _, _, hr⟩
      rw [hr, hpeer₁]
    · rw [hready, ← hitem]
      rfl
    · rw [hnext, ← hitem]
      rfl
  have hsame : Tx.SameSchedule tx tx₂ := by
    rw [← hcounted]
    exact hlink.trans (Tx.SameSchedule.setPeer _ p _ rfl rfl)
  have hdepth : (tx₂.peer p).queueDepth = (tx.peer p).queueDepth + 1 := by
    rw [← hcounted, Tx.setPeer_self, hself, hpeer₁]
  have hothers : ∀ r < config.capacity.maxPeers, r ≠ p → tx₂.Scheduled peers r := by
    intro r hr hrp
    refine hsame.scheduled (Tx.canWrite_congr ?_) (h.peer r hr)
    rcases txLinkPeerItem_peer tx₁ p i priority r with ⟨_, _, _, hlinked⟩
    rw [← hcounted, Tx.setPeer_of_ne _ _ hrp, hlinked, hpeer₁]
  have hbusy : ((txLinkPeerItem tx₁ p i priority).peer p).transportBusy =
      (tx.peer p).transportBusy := hlink.busy p
  rw [hbusy]
  split
  · apply ScheduleInv.setPeerReady (hsame.counted h.count) hothers _ hp
    · exact fun _ => .inl rfl
    · rw [hsame.nextPeer]
      exact h.next
  · rename_i hskip
    refine ⟨hsame.counted h.count, ?_, by rw [hsame.nextPeer]; exact h.next⟩
    intro r hr
    by_cases hrp : r = p
    · subst hrp
      constructor
      · intro hready
        rw [hsame.ready] at hready
        have hcan := (h.peer r hr).can_write hready
        exact ⟨hcan.used, hcan.writer, by omega⟩
      · intro hcan
        rw [hsame.ready, hsame.busy]
        by_cases hempty : (tx.peer r).queueDepth = 0
        · right
          by_contra hidle
          exact hskip ⟨hempty, by simpa using hidle⟩
        · exact (h.peer r hr).awake ⟨hcan.used, hcan.writer, hempty⟩
    · exact hothers r hr hrp

/-- From `tx` to `tx'` nothing changed for the peers. -/
structure Tx.SamePeers (tx tx' : Tx) : Prop where
  peer : tx'.peer = tx.peer
  readyCount : tx'.readyCount = tx.readyCount
  nextPeer : tx'.nextPeer = tx.nextPeer

theorem Tx.SamePeers.refl : Tx.SamePeers tx tx := ⟨rfl, rfl, rfl⟩

theorem Tx.SamePeers.trans {tx tx' tx'' : Tx} (h : Tx.SamePeers tx tx')
    (h' : Tx.SamePeers tx' tx'') : Tx.SamePeers tx tx'' :=
  ⟨h'.peer.trans h.peer, h'.readyCount.trans h.readyCount, h'.nextPeer.trans h.nextPeer⟩

theorem ScheduleInv.samePeers {config : Config} {peers : Nat → Peer} {tx tx' : Tx}
    (h : ScheduleInv config peers tx) (hs : Tx.SamePeers tx tx') : ScheduleInv config peers tx' := by
  apply h.congr
  · exact ⟨fun p => by rw [hs.peer], fun p => by rw [hs.peer], hs.readyCount, hs.nextPeer⟩
  · exact fun p _ => Tx.canWrite_congr (by rw [hs.peer])

theorem txCompactLoop_samePeers (fuel cursor searchOffset : Nat) (tx : Tx) :
    Tx.SamePeers tx (txCompactLoop config fuel cursor searchOffset tx).1 := by
  induction fuel generalizing cursor searchOffset tx with
  | zero => exact .refl tx
  | succ fuel ih =>
    rw [txCompactLoop]
    cases (txLowestItem config tx searchOffset).1 with
    | none => exact .refl tx
    | some i =>
      have hrest := ih (cursor + (tx.queue i).len)
        (if (tx.queue i).offset + (tx.queue i).len = (tx.queue i).offset then (tx.queue i).offset + 1
          else (tx.queue i).offset + (tx.queue i).len)
        { tx.setItem i { tx.queue i with offset := cursor } with
          buffer := if (tx.queue i).len ≠ 0 ∧ (tx.queue i).offset ≠ cursor then
              tx.buffer.move cursor (tx.queue i).offset (tx.queue i).len
            else tx.buffer }
      exact ⟨hrest.peer, hrest.readyCount, hrest.nextPeer⟩

theorem txMakeRoom_samePeers (frameLen : Nat) (tx : Tx) :
    Tx.SamePeers tx (txMakeRoom config frameLen tx) := by
  have hcompact : ∀ tx, Tx.SamePeers tx (txCompactBuffer config tx) := by
    intro tx
    unfold txCompactBuffer
    split
    · have hloop := txCompactLoop_samePeers config tx.queueLen 0 0 tx
      exact ⟨hloop.peer, hloop.readyCount, hloop.nextPeer⟩
    · exact .refl tx
  obtain ⟨tx₁, htx₁, hreset⟩ : ∃ tx₁,
      (if config.capacity.txBufferBytes - tx.bufferUsed < frameLen ∧ tx.queueLen = 0 then
        { tx with bufferUsed := 0 } else tx) = tx₁ ∧ Tx.SamePeers tx tx₁ := by
    refine ⟨_, rfl, ?_⟩
    split
    · exact ⟨rfl, rfl, rfl⟩
    · exact .refl tx
  unfold txMakeRoom
  simp only [htx₁]
  split
  · exact hreset.trans (hcompact tx₁)
  · exact hreset

theorem txReserve_samePeers (p frameLen lifetimeUs nowUs : Nat) (tx : Tx) :
    Tx.SamePeers tx (txReserve config p frameLen lifetimeUs nowUs tx).2 := by
  have hroom := txMakeRoom_samePeers config frameLen tx
  unfold txReserve
  split
  · exact .refl tx
  · split
    · exact .refl tx
    · split
      · exact .refl tx
      · dsimp only
        split
        · exact hroom
        · split
          · exact hroom
          · exact hroom.trans ⟨rfl, rfl, rfl⟩

/-! ## Removing -/

theorem txUnlink_sameSchedule (p i : Nat) : Tx.SameSchedule tx (txUnlink config tx p i) := by
  have hcount : ∀ tx : Tx, Tx.SameSchedule tx (txRecountPeerQueue config tx p) := by
    intro tx
    unfold txRecountPeerQueue
    split
    · exact .setPeer tx p _ rfl rfl
    · exact .refl tx
  have hreport : ∀ tx : Tx, Tx.SameSchedule tx
      (if (tx.peer p).queueDepth < config.capacity.maxPeerTxQueue then
        tx.setPeer p { tx.peer p with queueLimitReported := false } else tx) := by
    intro tx
    split
    · exact .setPeer tx p _ rfl rfl
    · exact .refl tx
  unfold txUnlink
  split
  · exact .refl tx
  · rename_i previous _
    dsimp only
    cases previous with
    | none =>
      have hlink := Tx.SameSchedule.setPeer tx p { tx.peer p with head := (tx.queue i).next } rfl rfl
      exact (hlink.trans (hcount _)).trans (hreport _)
    | some previous =>
      have hlink : Tx.SameSchedule tx
          (tx.setItem previous { tx.queue previous with next := (tx.queue i).next }) :=
        ⟨fun _ => rfl, fun _ => rfl, rfl, rfl⟩
      exact (hlink.trans (hcount _)).trans (hreport _)

theorem txSetPeerReady_busy (p : Nat) (ready : Bool) (r : Nat) :
    ((txSetPeerReady config peers tx p ready).peer r).transportBusy =
      (tx.peer r).transportBusy := by
  by_cases hrp : r = p
  · subst hrp
    by_cases hr : r < config.capacity.maxPeers
    · rw [txSetPeerReady_self peers tx ready hr]
    · unfold txSetPeerReady
      rw [if_neg hr]
  · rw [txSetPeerReady_others config peers tx ready hrp]

theorem txRemove_busy (i r : Nat) :
    ((txRemove config peers tx i).peer r).transportBusy = (tx.peer r).transportBusy := by
  unfold txRemove
  split
  · generalize (tx.queue i).peerIndex = p
    dsimp only
    rw [Tx.setItem_peer]
    split
    · have hunlink := txUnlink_sameSchedule config tx p i
      split
      · rw [txSetPeerReady_busy, ← hunlink.busy r]
        apply Tx.SameSchedule.busy
        exact .setPeer _ p _ rfl rfl
      · exact hunlink.busy r
    · rfl
  · rfl

theorem txRemove_nextPeer (i : Nat) : (txRemove config peers tx i).nextPeer = tx.nextPeer := by
  unfold txRemove
  split
  · generalize (tx.queue i).peerIndex = p
    have hunlink := (txUnlink_sameSchedule config tx p i).nextPeer
    dsimp only
    split
    · split
      · exact (txSetPeerReady_nextPeer ..).trans hunlink
      · exact hunlink
    · rfl
  · rfl

/-- Removing an item leaves the other peers alone. -/
theorem txRemove_others {config : Config} (peers : Nat → Peer) {tx : Tx} {q : Nat → List Nat}
    {reserved : Option Nat} (h : TxInv config tx q reserved) {i r : Nat} (hi : tx.Used config i)
    (hr : r ≠ (tx.queue i).peerIndex) : (txRemove config peers tx i).peer r = tx.peer r := by
  have hp := (h.owner i hi).1
  have hothers := (h.unlink hp i).2.peers r hr
  unfold txRemove
  rw [if_pos ⟨hi.1, hi.2⟩]
  generalize (tx.queue i).peerIndex = p at hp hr hothers ⊢
  dsimp only
  rw [if_pos hp, Tx.setItem_peer]
  split
  · rw [txSetPeerReady_others config peers _ false hr, Tx.setPeer_of_ne _ _ hr]
    exact hothers
  · exact hothers

/-- A peer that loses its last item is not ready any more. -/
theorem ScheduleInv.remove {config : Config} {peers : Nat → Peer} {tx : Tx} {q : Nat → List Nat}
    {reserved : Option Nat} (h : ScheduleInv config peers tx) (hq : TxInv config tx q reserved)
    (i : Nat) : ScheduleInv config peers (txRemove config peers tx i) := by
  unfold txRemove
  split
  · rename_i hi
    have hp := (hq.owner i hi).1
    dsimp only
    generalize (tx.queue i).peerIndex = p at hp ⊢
    rw [if_pos hp]
    rcases hq.unlink hp i with ⟨hqueue, hrelinks⟩
    have hsame := txUnlink_sameSchedule config tx p i
    have hdepth : ((txUnlink config tx p i).peer p).queueDepth ≠ 0 → (tx.peer p).queueDepth ≠ 0 := by
      rw [hqueue.depth_eq, (hq.queue p hp).depth_eq]
      have := (List.erase_sublist (a := i) (l := q p)).length_le
      omega
    have hothers : ∀ r, r ≠ p → (txUnlink config tx p i).peer r = tx.peer r := hrelinks.peers
    generalize txUnlink config tx p i = tx₁ at hsame hdepth hothers ⊢
    suffices hsettled : ScheduleInv config peers
        (if (tx₁.peer p).queueDepth = 0 then
          txSetPeerReady config peers (tx₁.setPeer p { tx₁.peer p with
            head := none
            tail := none
            priorityTail := none
            priorityDepth := 0 }) p false
        else tx₁) from hsettled.samePeers ⟨rfl, rfl, rfl⟩
    split
    · rename_i hempty
      generalize hcleared : tx₁.setPeer p { tx₁.peer p with
        head := none
        tail := none
        priorityTail := none
        priorityDepth := 0 } = tx₂
      have hself : (tx₂.peer p).queueDepth = 0 := by
        rw [← hcleared, Tx.setPeer_self]
        exact hempty
      have hsame₂ : Tx.SameSchedule tx tx₂ := by
        rw [← hcleared]
        exact hsame.trans (.setPeer tx₁ p _ rfl rfl)
      apply ScheduleInv.setPeerReady (hsame₂.counted h.count)
      · intro r hr hrp
        refine hsame₂.scheduled (Tx.canWrite_congr ?_) (h.peer r hr)
        rw [← hcleared, Tx.setPeer_of_ne _ _ hrp, hothers r hrp]
      · rw [hsame₂.nextPeer]
        exact h.next
      · exact hp
      · exact fun hcan => absurd hself hcan.waiting
    · rename_i hleft
      apply h.congr hsame
      intro r hr
      by_cases hrp : r = p
      · subst hrp
        exact ⟨fun hcan => ⟨hcan.used, hcan.writer, hdepth hleft⟩,
          fun hcan => ⟨hcan.used, hcan.writer, hleft⟩⟩
      · exact Tx.canWrite_congr (by rw [hothers r hrp])
  · exact h

end LeanLibp2p.Gossipsub
