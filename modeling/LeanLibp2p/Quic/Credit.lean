import LeanLibp2p.Quic.Turns

/-!
# Streams without flow-control credit

A turn of a connection offers ngtcp2 the bytes of one stream, the next one of its round robin. If
that stream has no credit the turn is over, whatever the others have to send. `driveTx` is
`quic_service_drive_tx` of `quic_service.c`, which takes a round without a datagram as the end.
-/

namespace LeanLibp2p.Quic

open LeanLibp2p.Lib

/-- Flow control as ngtcp2 sees it: which streams of a connection have credit, how many bytes of them a
    packet takes, and which connections have control data to send. -/
structure Oracle where
  credit : Nat → Nat → Bool
  takes : Nat → Nat → Nat
  control : Nat → Bool

namespace Oracle

/-- Whether ngtcp2 writes a packet for a stream, or for none. -/
def accepts (oracle : Oracle) (c : Nat) : Option Nat → Bool
  | some stream => oracle.credit c stream
  | none => oracle.control c

/-- What ngtcp2 answers: `NGTCP2_ERR_STREAM_DATA_BLOCKED` for a stream without credit. -/
def writes (oracle : Oracle) : Writes where
  close _ := .ok true
  stream c pick :=
    if oracle.accepts c pick then .written (pick.map (oracle.takes c)) else .blocked

/-- The connection has something to send that ngtcp2 would take: unsent bytes or a FIN of a stream
    with credit, or control data. -/
def Sendable (oracle : Oracle) (endpoint : Endpoint) (c : Nat) : Prop :=
  (∃ stream ∈ (endpoint.conn c).streams,
    ((endpoint.conn c).object stream).wantsTx = true ∧ oracle.credit c stream = true) ∨
  oracle.control c = true

instance (oracle : Oracle) (endpoint : Endpoint) (c : Nat) :
    Decidable (oracle.Sendable endpoint c) :=
  inferInstanceAs (Decidable ((∃ stream ∈ (endpoint.conn c).streams, _ ∧ _) ∨ _))

/-- The connection's turn gives a datagram: it is closing, or ngtcp2 takes the stream that its round
    robin picks or, where no stream wants to send, has control data. -/
def TurnSends (oracle : Oracle) (endpoint : Endpoint) (c : Nat) : Prop :=
  (endpoint.conn c).closeRequested = true ∨
    oracle.accepts c (endpoint.conn c).nextTx.1 = true

instance (oracle : Oracle) (endpoint : Endpoint) (c : Nat) :
    Decidable (oracle.TurnSends endpoint c) :=
  inferInstanceAs (Decidable (_ ∨ _))

/-- With something to send, some connection's turn gives a datagram. -/
def Fair (oracle : Oracle) (endpoint : Endpoint) : Prop :=
  (∃ c ∈ endpoint.connections, oracle.Sendable endpoint c) →
    ∃ c ∈ endpoint.connections, oracle.TurnSends endpoint c

instance (oracle : Oracle) (endpoint : Endpoint) : Decidable (oracle.Fair endpoint) :=
  inferInstanceAs (Decidable ((∃ c ∈ endpoint.connections, _) → ∃ c ∈ endpoint.connections, _))

end Oracle

/-! ## One search for a datagram -/

namespace Endpoint

variable {endpoint endpoint' : Endpoint} {oracle : Oracle} {c start index rounds : Nat}

theorem not_ends (endpoint : Endpoint) (c : Nat) : ¬ oracle.writes.Ends endpoint c := by
  intro hends
  have hanswer := hends.2
  dsimp only [Oracle.writes] at hanswer
  split at hanswer
  · cases hanswer
  · cases hanswer

theorem writeConnDatagram_blocked_iff : (endpoint.writeConnDatagram oracle.writes c).1 =
    .error .wouldBlock ↔ ¬ oracle.TurnSends endpoint c := by
  unfold writeConnDatagram Oracle.TurnSends
  by_cases hclose : (endpoint.conn c).closeRequested = true
  · rw [if_pos hclose]
    simp [Oracle.writes, hclose]
  · rw [if_neg hclose]
    dsimp only [Oracle.writes]
    by_cases haccepts : oracle.accepts c (endpoint.conn c).nextTx.1 = true
    · rw [if_pos haccepts]
      refine ⟨fun heq => ?_, fun hnot => absurd (.inr haccepts) hnot⟩
      dsimp only at heq
      split at heq
      · cases heq
      · cases heq
    · rw [if_neg haccepts]
      simp [hclose, haccepts]

/-- The loop blocks when no turn that is left gives a datagram. -/
theorem Untouched.blocked_iff (hlisted : endpoint.Listed)
    (h : Untouched endpoint start index endpoint')
    (hrounds : endpoint.connections.length ≤ index + rounds) :
    (endpoint'.datagramLoop oracle.writes start rounds index).result = .error .wouldBlock ↔
      ∀ k, index ≤ k → k < endpoint.connections.length →
        ¬ oracle.TurnSends endpoint (endpoint.atTurn start k) := by
  induction rounds generalizing endpoint' index with
  | zero => exact ⟨fun _ k hk hlt => by omega, fun _ => rfl⟩
  | succ rounds ih =>
    by_cases hlt : index < endpoint.connections.length
    · have hlt' : index < endpoint'.connections.length := h.connections ▸ hlt
      have hsame : oracle.TurnSends endpoint' (endpoint.atTurn start index) ↔
          oracle.TurnSends endpoint (endpoint.atTurn start index) := by
        rw [Oracle.TurnSends, h.conn index (Nat.le_refl _) hlt, Oracle.TurnSends]
      have hturn := @writeConnDatagram_blocked_iff endpoint' oracle (endpoint.atTurn start index)
      rw [hsame] at hturn
      rcases @datagramLoop_succ endpoint' oracle.writes h.listed start rounds index hlt' with
        ⟨hgoes, result, hother, last, hloop⟩ | ⟨hblock, hloop⟩
      · rw [h.atTurn] at hgoes
        rw [hloop]
        refine ⟨fun heq => absurd heq hother, fun hall => ?_⟩
        exact absurd (hturn.mpr (hall index (Nat.le_refl _) hlt)) hgoes
      · rw [h.atTurn] at hblock hloop
        have hrest := ih (h.next hlisted hlt (not_ends endpoint _) hblock) (by omega)
        rw [hloop]
        refine hrest.trans ⟨fun hall k hk hklt => ?_, fun hall k hk => hall k (by omega)⟩
        rcases Nat.eq_or_lt_of_le hk with rfl | hk
        · exact hturn.mp hblock
        · exact hall k hk hklt
    · rw [datagramLoop, if_pos (h.connections ▸ Nat.le_of_not_lt hlt)]
      exact ⟨fun _ k hk hklt => by omega, fun _ => rfl⟩

/-- No datagram is found when no connection's turn gives one. -/
theorem nextDatagram_blocked_iff (h : endpoint.Listed) {dataCap : Nat} :
    (endpoint.nextDatagram oracle.writes dataCap).result = .error .wouldBlock ↔
      minInitialDatagramBytes ≤ dataCap ∧
        ∀ c ∈ endpoint.connections, ¬ oracle.TurnSends endpoint c := by
  by_cases hcap : minInitialDatagramBytes ≤ dataCap
  · obtain ⟨first, huntouched, hrun⟩ := nextDatagram_eq h hcap oracle.writes
    rw [hrun, huntouched.blocked_iff h (Nat.le_add_left _ _), and_iff_right hcap]
    constructor
    · intro hall c hc
      obtain ⟨k, hlt, rfl⟩ := exists_atTurn (firstTurn_lt (List.length_pos_of_mem hc)) hc
      exact hall k (Nat.zero_le k) hlt
    · intro hall k _ hlt
      exact hall _ (atTurn_mem (Nat.ne_of_gt (Nat.zero_lt_of_lt hlt)) _ k)
  · rw [nextDatagram_small h (Nat.lt_of_not_le hcap)]
    exact ⟨fun heq => (by cases heq), fun hall => absurd hall.1 hcap⟩

/-- A datagram that is found is noted with its connection. -/
theorem datagramLoop_noted {writes : Writes} :
    (endpoint.datagramLoop writes start rounds index).result = .ok () →
      (endpoint.datagramLoop writes start rounds index).endpoint.lastTxConn.isSome := by
  induction rounds generalizing endpoint index with
  | zero =>
    intro hok
    cases hok
  | succ rounds ih =>
    unfold datagramLoop
    dsimp only
    split
    · intro hok
      cases hok
    split
    · split
      · exact fun _ => rfl
      · exact ih
      · intro hok
        cases hok
    · exact ih

theorem nextDatagram_noted {writes : Writes} {dataCap : Nat} :
    (endpoint.nextDatagram writes dataCap).result = .ok () →
      (endpoint.nextDatagram writes dataCap).endpoint.lastTxConn.isSome := by
  unfold nextDatagram
  dsimp only
  split
  · intro hok
    cases hok
  split
  · intro hok
    cases hok
  · exact datagramLoop_noted

end Endpoint

/-! ## The sending stage of a drive -/

/-- A round of `quic_service_drive_tx`: what ngtcp2 answers, and what `sendto` does. -/
structure TxTurn where
  writes : Writes
  send : Except QuicErr Unit

/-- The service in its sending stage, with the counts of `libp2p_quic_service_drive_result_t`. -/
structure TxDrive where
  service : Service
  txDatagrams : Nat := 0
  txDrained : Bool := false

namespace Service

/-- `quic_service_prepare_tx_datagram` (`quic_service.c:880-911`) into `dataCap` bytes. -/
def prepareTxDatagram (writes : Writes) (dataCap : Nat) (service : Service) :
    Except QuicErr Unit × Service :=
  if service.pendingTxConn.isSome then (.ok (), service)
  else
    let run := service.endpoint.nextDatagram writes dataCap
    match run.result with
    | .ok () =>
      (.ok (), { service with endpoint := run.endpoint, pendingTxConn := run.endpoint.lastTxConn })
    | .error e => (.error e, { service with endpoint := run.endpoint })

/-- The loop of `quic_service_drive_tx`. -/
def driveTxLoop (turns : Nat → TxTurn) (dataCap : Nat) :
    (budget index : Nat) → TxDrive → Except QuicErr Unit × TxDrive
  | 0, _, drive => (.ok (), drive)
  | budget + 1, index, drive =>
    match drive.service.prepareTxDatagram (turns index).writes dataCap with
    | (.ok (), service) =>
      match (turns index).send with
      | .ok () =>
        driveTxLoop turns dataCap budget (index + 1)
          { drive with
            service := { service with pendingTxConn := none, txPending := true }
            txDatagrams := drive.txDatagrams + 1 }
      | .error .wouldBlock =>
        (.ok (), { drive with
          service := { service with txPending := service.pendingTxConn.isSome }
          txDrained := true })
      | .error e => (.error e, { drive with service := { service with pendingTxConn := none } })
    | (.error .wouldBlock, service) =>
      (.ok (), { drive with
        service := { service with txPending := drive.txDatagrams ≠ 0 }
        txDrained := true })
    | (.error e, service) =>
      (.error e, { drive with service := { service with pendingTxConn := none } })

/-- `quic_service_drive_tx` (`quic_service.c:913-975`), less the times that ngtcp2 is told. -/
def driveTx (turns : Nat → TxTurn) (dataCap budget : Nat) (service : Service) :
    Except QuicErr Unit × Service :=
  match driveTxLoop turns dataCap budget 0 { service := service } with
  | (.error e, drive) => (.error e, drive.service)
  | (.ok (), drive) =>
    let service :=
      if drive.txDrained then drive.service else { drive.service with txPending := true }
    (service.endpoint.validate, service)

variable {service service' : Service} {turns : Nat → TxTurn} {dataCap budget index : Nat}

theorem prepareTxDatagram_ok {writes : Writes}
    (hok : service.prepareTxDatagram writes dataCap = (.ok (), service')) :
    service'.pendingTxConn.isSome := by
  unfold prepareTxDatagram at hok
  split at hok
  · rename_i hpending
    rw [← (Prod.mk.inj hok).2]
    exact hpending
  · dsimp only at hok
    split at hok
    · rename_i hresult
      rw [← (Prod.mk.inj hok).2]
      exact Endpoint.nextDatagram_noted hresult
    · cases (Prod.mk.inj hok).1

theorem prepareTxDatagram_pending {writes : Writes} {result : Except QuicErr Unit}
    (hrun : service.prepareTxDatagram writes dataCap = (result, service')) :
    service'.txPending = service.txPending := by
  unfold prepareTxDatagram at hrun
  split at hrun
  · rw [← (Prod.mk.inj hrun).2]
  · dsimp only at hrun
    split at hrun
    · rw [← (Prod.mk.inj hrun).2]
    · rw [← (Prod.mk.inj hrun).2]

/-- Once a datagram was sent, the drive leaves more to be tried. -/
theorem driveTxLoop_keeps {drive : TxDrive} (hsent : drive.txDatagrams ≠ 0)
    (hpending : drive.service.txPending = true) :
    (driveTxLoop turns dataCap budget index drive).2.service.txPending = true := by
  induction budget generalizing index drive with
  | zero => exact hpending
  | succ budget ih =>
    unfold driveTxLoop
    split
    · rename_i hprepared
      split
      · exact ih (Nat.succ_ne_zero _) rfl
      · exact prepareTxDatagram_ok hprepared
      · exact (prepareTxDatagram_pending hprepared).trans hpending
    · exact decide_eq_true hsent
    · rename_i hprepared
      exact (prepareTxDatagram_pending hprepared).trans hpending

theorem driveTx_pending (turns : Nat → TxTurn) (dataCap budget : Nat) (service : Service)
    (h : (driveTxLoop turns dataCap budget 0 { service := service }).2.service.txPending = true) :
    (service.driveTx turns dataCap budget).2.txPending = true := by
  unfold driveTx
  rcases hloop : driveTxLoop turns dataCap budget 0 { service := service } with ⟨e | u, drive⟩
  · rw [hloop] at h
    exact h
  · rw [hloop] at h
    dsimp only
    split
    · exact h
    · rfl

/-- The drive gives up when its first search finds no datagram. -/
theorem driveTx_clears_iff (hpending : service.txPending = true) :
    (service.driveTx turns dataCap budget).2.txPending = false ↔
      budget ≠ 0 ∧ service.pendingTxConn = none ∧
        (service.endpoint.nextDatagram (turns 0).writes dataCap).result =
          .error .wouldBlock := by
  have hstays : ∀ budget, (driveTxLoop turns dataCap budget 0
      { service := service }).2.service.txPending = true →
        (service.driveTx turns dataCap budget).2.txPending ≠ false := fun budget h heq =>
    Bool.noConfusion ((driveTx_pending turns dataCap budget service h).symm.trans heq)
  cases budget with
  | zero => exact ⟨fun heq => absurd heq (hstays 0 hpending), fun h => absurd rfl h.1⟩
  | succ budget =>
    have hturn := hstays (budget + 1)
    rcases hprepared : service.prepareTxDatagram (turns 0).writes dataCap with ⟨e | u, prepared⟩
    · have hkept : prepared.txPending = true :=
        (prepareTxDatagram_pending hprepared).trans hpending
      have hsearched : service.pendingTxConn = none ∧
          (service.endpoint.nextDatagram (turns 0).writes dataCap).result = .error e := by
        unfold prepareTxDatagram at hprepared
        split at hprepared
        · cases (Prod.mk.inj hprepared).1
        · rename_i hnone
          dsimp only at hprepared
          split at hprepared
          · cases (Prod.mk.inj hprepared).1
          · rename_i hresult
            obtain rfl := Except.error.inj (Prod.mk.inj hprepared).1
            exact ⟨Option.not_isSome_iff_eq_none.mp hnone, hresult⟩
      obtain ⟨hnone, hresult⟩ := hsearched
      by_cases hblock : e = .wouldBlock
      · subst hblock
        refine ⟨fun _ => ⟨Nat.succ_ne_zero _, hnone, hresult⟩, fun _ => ?_⟩
        unfold driveTx driveTxLoop
        dsimp only
        rw [hprepared]
        rfl
      · refine ⟨fun heq => absurd heq (hturn ?_), fun h => ?_⟩
        · unfold driveTxLoop
          dsimp only
          rw [hprepared]
          cases e with
          | wouldBlock => exact absurd rfl hblock
          | _ => exact hkept
        · exact absurd (Except.error.inj (hresult.symm.trans h.2.2)) hblock
    · refine ⟨fun heq => absurd heq (hturn ?_), fun h => ?_⟩
      · unfold driveTxLoop
        dsimp only
        rw [hprepared]
        dsimp only
        rcases (turns 0).send with e | u
        · cases e with
          | wouldBlock => exact prepareTxDatagram_ok hprepared
          | _ => exact (prepareTxDatagram_pending hprepared).trans hpending
        · exact driveTxLoop_keeps (Nat.succ_ne_zero _) rfl
      · unfold prepareTxDatagram at hprepared
        rw [h.2.1] at hprepared
        dsimp only [Option.isSome] at hprepared
        rw [if_neg Bool.false_ne_true, h.2.2] at hprepared
        cases (Prod.mk.inj hprepared).1

end Service

/-! ## Stalls -/

namespace TimedEndpoint

/-- With something to send, a search finds a datagram, and a sending stage does not clear
    `tx_pending`. -/
structure NotStalled (oracles : Nat → Oracle) (sends : Nat → Except QuicErr Unit)
    (dataCap budget : Nat) (service : Service) : Prop where
  search : (∃ c ∈ service.endpoint.connections, (oracles 0).Sendable service.endpoint c) →
    (service.endpoint.nextDatagram (oracles 0).writes dataCap).result ≠ .error .wouldBlock
  drive : (∃ c ∈ service.endpoint.connections, (oracles 0).Sendable service.endpoint c) →
    service.txPending = true →
      (service.driveTx (fun index => ⟨(oracles index).writes, sends index⟩) dataCap
        budget).2.txPending ≠ false

/-- Sending does not stall exactly when, with something to send, the turn of some connection gives a
    datagram. -/
theorem notStalled_iff {peerIdValid : Bytes → Bool} {timed : TimedEndpoint}
    (h : timed.Reachable peerIdValid) (service : Service) (oracles : Nat → Oracle)
    (sends : Nat → Except QuicErr Unit) (dataCap budget : Nat) :
    NotStalled oracles sends dataCap budget { service with endpoint := timed.endpoint } ↔
      dataCap < Endpoint.minInitialDatagramBytes ∨ (oracles 0).Fair timed.endpoint := by
  have hlisted := reachable_listed h
  have hblocked := @Endpoint.nextDatagram_blocked_iff timed.endpoint (oracles 0) hlisted dataCap
  constructor
  · intro hstall
    by_cases hcap : dataCap < Endpoint.minInitialDatagramBytes
    · exact .inl hcap
    refine .inr fun hsendable => ?_
    by_contra hnone
    have hall : ∀ c ∈ timed.endpoint.connections, ¬ (oracles 0).TurnSends timed.endpoint c :=
      fun c hc hsends => hnone ⟨c, hc, hsends⟩
    exact hstall.search hsendable (hblocked.mpr ⟨Nat.le_of_not_lt hcap, hall⟩)
  · intro hcond
    have hfinds : (∃ c ∈ timed.endpoint.connections, (oracles 0).Sendable timed.endpoint c) →
        (timed.endpoint.nextDatagram (oracles 0).writes dataCap).result ≠ .error .wouldBlock := by
      intro hsendable heq
      obtain ⟨hcap, hall⟩ := hblocked.mp heq
      rcases hcond with hsmall | hfair
      · omega
      · obtain ⟨c, hc, hsends⟩ := hfair hsendable
        exact hall c hc hsends
    refine ⟨hfinds, fun hsendable hpending heq => ?_⟩
    exact hfinds hsendable ((Service.driveTx_clears_iff hpending).mp heq).2.2

/-- An established connection with two streams that have a byte to send each. -/
def twoStreams : TimedEndpoint :=
  runFrom (step fun _ => true) (start AuthRun.sampleConfig 8)
    [.call (.dial peerAddr {}), .call (.handshakeCompleted 0 false),
      .streams 0 (.openBidiStream true (.ok 0)), .streams 0 (.openBidiStream true (.ok 4)),
      .streams 0 (.write 0 64 [1] false (some 7) true),
      .streams 0 (.write 1 64 [2] false (some 8) true)]

/-- A service on the endpoint, with something to send. -/
def pendingService (endpoint : Endpoint) : Service :=
  { Service.start AuthRun.sampleConfig 8 8 with endpoint := endpoint, txPending := true }

/-- Flow control with credit for some streams, and no control data. -/
def withCredit (credit : Nat → Bool) : Oracle where
  credit _ stream := credit stream
  takes _ _ := 1
  control _ := false

theorem notStalled_iff_credit : (withCredit fun _ => true).Sendable twoStreams.endpoint 0 ∧
    NotStalled (fun _ => withCredit fun _ => true) (fun _ => .ok ()) 1500 16
      (pendingService twoStreams.endpoint) :=
  ⟨by decide +kernel,
    (@notStalled_iff (fun _ => true) twoStreams ⟨_, _, _, rfl⟩ (pendingService twoStreams.endpoint)
      (fun _ => withCredit fun _ => true) (fun _ => .ok ()) 1500 16).mpr
        (.inr (by decide +kernel))⟩

/-- The stream whose turn it is has no credit, and the other one does: the search finds nothing, and
    the sending stage gives up. -/
theorem stalled_without_credit : ¬ ∀ timed : TimedEndpoint, timed.Reachable (fun _ => true) →
    ∀ (service : Service) (oracles : Nat → Oracle) (sends : Nat → Except QuicErr Unit)
      (dataCap budget : Nat),
      NotStalled oracles sends dataCap budget { service with endpoint := timed.endpoint } := by
  intro hall
  have hstall := hall twoStreams ⟨_, _, _, rfl⟩ (pendingService twoStreams.endpoint)
    (fun _ => withCredit fun stream => stream = 1) (fun _ => .ok ()) 1500 16
  exact hstall.drive (by decide +kernel) rfl (by decide +kernel)

end TimedEndpoint

end LeanLibp2p.Quic
