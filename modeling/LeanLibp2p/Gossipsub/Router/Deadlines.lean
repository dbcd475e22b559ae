import LeanLibp2p.Gossipsub.Router.Transmit
import LeanLibp2p.Gossipsub.Tx.Deadlines

/-!
# When the router is driven again

`libp2p_gossipsub_next_deadline` tells when to drive the router again. After a drive that time is
later than now, and no frame that waits has to start before it; within a drive no frame starts that
is past its deadline, and one that has started is not dropped for its age.
-/

namespace LeanLibp2p.Gossipsub

open LeanLibp2p.Lib

/-- `libp2p_gossipsub_next_deadline` (`gossipsub_host.c:117-137`). -/
def nextDeadline (config : Config) (r : Router) : Nat :=
  if r.started then txNextDeadline config r.tx r.nextHeartbeatUs else 0

/-- What the flush of `libp2p_gossipsub_drive` leaves. -/
def driveFlush (config : Config) (nowUs : Nat) (answers : WriteAnswers) (r : Router) :
    FlushState :=
  (flushReadyPeers config (beforeFlush config nowUs r).peers answers nowUs
    ⟨(beforeFlush config nowUs r).tx, 0, [], false, 0, 0, false⟩).2

theorem drive_tx (config : Config) (nowUs : Nat) (answers : WriteAnswers) (r : Router) :
    (drive config nowUs answers r).2.tx = (driveFlush config nowUs answers r).tx := rfl

/-- What one drive does about deadlines: the next deadline is later than now, and not later than the
    next heartbeat or the deadline of a frame that has not started; no frame starts at its
    deadline or later; the host takes what is left of a frame that has started, or the frame goes
    on waiting with the bytes that are left; and a frame has a deadline when it has a lifetime. -/
structure DriveTimely (config : Config) (nowUs : Nat) (answers : WriteAnswers) (r : Router) :
    Prop where
  wakes : ∀ r', r.started = true → 0 < config.mesh.heartbeatIntervalUs →
    nowUs + config.mesh.heartbeatIntervalUs ≤ uint64Max →
    drive config nowUs answers r = (.ok (), r') →
      nowUs < nextDeadline config r' ∧ nextDeadline config r' ≤ r'.nextHeartbeatUs ∧
      ∀ i, r'.tx.Used config i → (r'.tx.queue i).Expires →
        nextDeadline config r' ≤ (r'.tx.queue i).deadlineUs
  starts : ∀ w ∈ (driveFlush config nowUs answers r).writes,
    (beforeFlush config nowUs r).tx.Used config w.item ∧
      (((beforeFlush config nowUs r).tx.queue w.item).Expires →
        nowUs < ((beforeFlush config nowUs r).tx.queue w.item).deadlineUs)
  whole : ∀ i, r.tx.Used config i → (r.tx.queue i).pos ≠ 0 →
    (driveFlush config nowUs answers r).taken i ++ (drive config nowUs answers r).2.tx.rest i =
      r.tx.rest i
  lifetime : ∀ p rpc lifetimeUs priority i tx,
    enqueueRpcWithLifetime config r.peers p rpc lifetimeUs priority (txEffectiveNowUs r) r.tx =
      (.ok i, tx) → ((tx.queue i).deadlineUs ≠ 0 ↔ lifetimeUs ≠ 0)

/-- Between the drop of the stale frames, which leaves `tx`, and the flush: what waited still does,
    and nothing is past its deadline. -/
structure Punctual (config : Config) (nowUs : Nat) (tx : Tx) (r : Router) : Prop where
  transmits : Transmits config r
  clock : nowUs ≤ txEffectiveNowUs r
  timely : nowUs < uint64Max → r.tx.Timely config nowUs
  kept : ∀ i, tx.Used config i → r.tx.Used config i ∧ Tx.Keeps tx r.tx i

namespace Punctual

variable {config : RouterConfig} {nowUs : Nat} {tx : Tx} {r : Router}

/-- Frames that are enqueued get later deadlines. -/
theorem enqueue (p : Nat) (rpc : Rpc) (lifetimeUs : Nat) (priority : Bool) :
    Comp.Keeps (Punctual config.toConfig nowUs tx)
      (enqueueRpc config.toConfig p rpc lifetimeUs priority) := by
  intro r h
  have htransmits := Transmits.enqueueRpc p rpc lifetimeUs priority r h.transmits
  obtain ⟨written, hreached⟩ := h.transmits
  have hqueues : TxInv config.toConfig r.tx (r.tx.items config.toConfig) none :=
    hreached.transmitInv.queues
  unfold Gossipsub.enqueueRpc at htransmits ⊢
  rcases hrun : enqueueRpcWithLifetime config.toConfig r.peers p rpc lifetimeUs priority
    (txEffectiveNowUs r) r.tx with ⟨result, tx'⟩
  rw [hrun] at htransmits
  refine ⟨htransmits, h.clock, fun hmax i hi => ?_, fun i hi => ?_⟩
  · rcases enqueueRpcWithLifetime_items hqueues config.txBufferBytes_le hrun hi with
      ⟨hold, hkept⟩ | hnew
    · exact (hkept.stale_eq nowUs).trans (h.timely hmax i hold)
    · subst hnew
      exact txItemStale_of_deadline (enqueueRpcWithLifetime_deadline hrun) h.clock hmax
  · obtain ⟨hused, hkept⟩ := h.kept i hi
    have hkeeps : Tx.Keeps r.tx tx' i := by
      obtain ⟨herror, hok⟩ := enqueueRpcWithLifetime_spec hqueues config.txBufferBytes_le hrun
      cases result with
      | error e => exact (herror e rfl).2 i hused
      | ok j => exact (hok j rfl).2.keeps i hused
    refine ⟨⟨hused.1, ?_⟩, hkept.trans hkeeps⟩
    exact (hkeeps.field_eq TxItem.used fun _ => rfl).trans hused.2

theorem queueing (config : RouterConfig) (nowUs : Nat) (tx : Tx) :
    Queueing config.toConfig (Punctual config.toConfig nowUs tx) where
  tables {r r'} h hagrees := by
    have htx : r'.tx = r.tx := hagrees.eq .tx (by decide)
    have hclock := hagrees.eq .clock (by decide)
    have hlast : r'.lastDriveUs = r.lastDriveUs := congrArg (fun x => x.2.2.2) hclock
    have hnext : r'.nextHeartbeatUs = r.nextHeartbeatUs := congrArg (fun x => x.2.2.1) hclock
    refine ⟨h.transmits.of_agrees hagrees rfl, ?_, htx ▸ h.timely, htx ▸ h.kept⟩
    unfold txEffectiveNowUs
    rw [hlast, hnext]
    exact h.clock
  enqueue := enqueue

/-- The frames that `gossipsub_tx_drop_stale` leaves. -/
theorem dropStale (h : Transmits config.toConfig r) (nowUs : Nat) :
    Punctual config.toConfig nowUs (txDropStale config.toConfig r.peers nowUs r.tx)
      { r with tx := txDropStale config.toConfig r.peers nowUs r.tx, lastDriveUs := nowUs } := by
  refine ⟨h.dropStale nowUs, ?_, fun _ => ?_, fun i hi => ⟨hi, .refl _ i⟩⟩
  · unfold txEffectiveNowUs
    dsimp only
    split <;> omega
  · obtain ⟨written, hreached⟩ := h
    exact hreached.dropStale_timely rfl nowUs

end Punctual

section Drive

variable {config : RouterConfig} {nowUs : Nat} {answers : WriteAnswers} {r : Router}

/-- What the flush of a drive finds. -/
theorem beforeFlush_punctual (h : Transmits config.toConfig r) (nowUs : Nat) :
    (nowUs < uint64Max →
      (beforeFlush config.toConfig nowUs r).tx.Timely config.toConfig nowUs) ∧
    ∀ i, (txDropStale config.toConfig r.peers nowUs r.tx).Used config.toConfig i →
      (beforeFlush config.toConfig nowUs r).tx.Used config.toConfig i ∧
        Tx.Keeps (txDropStale config.toConfig r.peers nowUs r.tx)
          (beforeFlush config.toConfig nowUs r).tx i := by
  have hdropped := Punctual.dropStale h nowUs
  unfold beforeFlush
  dsimp only
  split
  · have hqueued := (Punctual.queueing config nowUs _).heartbeat hdropped nowUs
    exact ⟨hqueued.timely, hqueued.kept⟩
  · exact ⟨hdropped.timely, hdropped.kept⟩

/-- The time of the next heartbeat when a drive comes to its flush. -/
theorem beforeFlush_nextHeartbeat (hstarted : r.started = true)
    (hpos : 0 < config.mesh.heartbeatIntervalUs)
    (hmax : nowUs + config.mesh.heartbeatIntervalUs ≤ uint64Max) :
    nowUs < (beforeFlush config.toConfig nowUs r).nextHeartbeatUs := by
  unfold beforeFlush
  dsimp only
  split
  · change nowUs < u64Add nowUs config.mesh.heartbeatIntervalUs
    unfold u64Add
    rw [Nat.mod_eq_of_lt (Nat.lt_succ_of_le hmax)]
    exact Nat.lt_add_of_pos_right hpos
  · rename_i hnot
    simp only [not_and, Nat.not_le] at hnot
    exact hnot hstarted

theorem beforeFlush_started (nowUs : Nat) :
    (beforeFlush config.toConfig nowUs r).started = r.started := by
  unfold beforeFlush
  dsimp only
  split
  · have hmesh := (heartbeatMesh_agrees config.toConfig nowUs
      { r with tx := txDropStale config.toConfig r.peers nowUs r.tx, lastDriveUs := nowUs }).eq
      .clock (by decide)
    have hgossip := ((emitGossip_touches config.toConfig).agrees (heartbeatMesh config.toConfig
      nowUs { r with
        tx := txDropStale config.toConfig r.peers nowUs r.tx
        lastDriveUs := nowUs })).eq .clock (by decide)
    exact congrArg Prod.fst (hgossip.trans hmesh)
  · rfl

theorem driveFlush_flushed (h : Transmits config.toConfig r) (nowUs : Nat)
    (answers : WriteAnswers) :
    Flushed config.toConfig nowUs (beforeFlush config.toConfig nowUs r).tx
      (driveFlush config.toConfig nowUs answers r) := by
  obtain ⟨written, hreached⟩ := h.beforeFlush nowUs
  exact Flushed.flushReadyPeers _ answers _ (.start hreached.transmitInv.queues rfl rfl)

/-- A frame that waits to start after the flush of a drive does not have to start yet. -/
theorem driveFlush_later (h : Transmits config.toConfig r) (hmax : nowUs < uint64Max) {i : Nat}
    (hi : (driveFlush config.toConfig nowUs answers r).tx.Used config.toConfig i)
    (hexpires : ((driveFlush config.toConfig nowUs answers r).tx.queue i).Expires) :
    nowUs < ((driveFlush config.toConfig nowUs answers r).tx.queue i).deadlineUs := by
  obtain ⟨hused, hdeadline, hle, -⟩ := (driveFlush_flushed h nowUs answers).used i hi
  have hstale := (beforeFlush_punctual h nowUs).1 hmax i hused
  obtain ⟨hpos, hne⟩ := hexpires
  simp only [txItemStale, Bool.and_eq_false_iff, decide_eq_false_iff_not] at hstale
  omega

/-- A drive of a router that has run. -/
theorem drive_timely (h : Transmits config.toConfig r) :
    DriveTimely config.toConfig nowUs answers r := by
  have hflushed := driveFlush_flushed h nowUs answers
  obtain ⟨htimely, hkept⟩ := beforeFlush_punctual h nowUs
  refine ⟨?_, ?_, ?_, ?_⟩
  · intro r' hstarted hpos hmax hrun
    have hr' : r' = (drive config.toConfig nowUs answers r).2 := by rw [hrun]
    obtain ⟨q, hq⟩ := hflushed.inv
    have hearliest := txNextDeadline_earliest hq
      (beforeFlush config.toConfig nowUs r).nextHeartbeatUs
    have hnext : nextDeadline config.toConfig r' = txNextDeadline config.toConfig
        (driveFlush config.toConfig nowUs answers r).tx
        (beforeFlush config.toConfig nowUs r).nextHeartbeatUs := by
      rw [hr']
      exact if_pos ((beforeFlush_started nowUs).trans hstarted)
    have htx : r'.tx = (driveFlush config.toConfig nowUs answers r).tx := by rw [hr', drive_tx]
    rw [hnext, htx]
    refine ⟨?_, ?_, fun i hi => hearliest.le_deadline i (hq.mem_flatMap hi)⟩
    · rcases hearliest.attained with hbeat | ⟨i, hi, hexpires, hdeadline⟩
      · rw [hbeat]
        exact beforeFlush_nextHeartbeat hstarted hpos hmax
      · obtain ⟨p, hp, hip⟩ := List.mem_flatMap.mp hi
        rw [hdeadline]
        refine driveFlush_later h ?_ (hq.queued p (List.mem_range.mp hp) i hip).1 hexpires
        omega
    · rw [hr']
      exact hearliest.le_current
  · intro w hw
    obtain ⟨hused, hstale⟩ := hflushed.offered w hw
    refine ⟨hused, fun hexpires => ?_⟩
    unfold TxItem.Expires at hexpires
    simp only [txItemStale, Bool.and_eq_false_iff, decide_eq_false_iff_not] at hstale
    omega
  · intro i hi hstarted
    obtain ⟨written, hreached⟩ := h
    have hfresh := txItemStale_of_started hstarted nowUs
    have hleft := hreached.dropStale_used rfl nowUs hi hfresh
    have hdropped := hreached.dropStale_kept rfl nowUs hleft
    obtain ⟨hused, hlater⟩ := hkept i hleft
    have hsame : Tx.Keeps r.tx (beforeFlush config.toConfig nowUs r).tx i := hdropped.trans hlater
    rw [drive_tx, hflushed.whole i hused ((hsame.stale_eq nowUs).trans hfresh), hsame.rest_eq]
  · intro p rpc lifetimeUs priority i tx hrun
    rw [enqueueRpcWithLifetime_deadline hrun]
    exact not_congr (txDeadline_eq_zero_iff _ _)

end Drive

/-- Every drive of every run keeps the deadlines. -/
theorem deadlines_met (config : RouterConfig) (actions : List Action) (nowUs : Nat)
    (answers : WriteAnswers) :
    DriveTimely config.toConfig nowUs answers (Node.init.run config.toConfig actions).router :=
  drive_timely (Transmits.run config actions)

end LeanLibp2p.Gossipsub
