import LeanLibp2p.Host.Reports
import LeanLibp2p.Host.Script

/-!
# Outcomes

Every open and every dial ends once. A dial is reported when the transport reports its attempt, unless
the connection that was established for it finds no slot.
-/

namespace LeanLibp2p.Host

open LeanLibp2p.Lib

variable {τ : Type} {config : HostConfig τ} {host host' : LeanLibp2p.Host} {notes : List Note}

/-! ## Reports of dials -/

/-- The attempt that an event of the transport is about; a connection stands for itself where the
    attempt is NULL. -/
def TransportEvent.attempt? : TransportEvent → Option Nat
  | .connEstablished conn attempt _ => some (attempt.getD conn)
  | .connClosed conn attempt .. => some (attempt.getD conn)
  | .dialFailed attempt .. => some attempt
  | _ => Option.none

/-- The transport reports the attempt of a pending dial. -/
def Names (host : LeanLibp2p.Host) (d : Nat) (event : TransportEvent) : Prop :=
  (host.dials d).state = .pending ∧ event.attempt? = some (host.dials d).transportAttempt

instance (host : LeanLibp2p.Host) (d : Nat) (event : TransportEvent) :
    Decidable (Names host d event) := by
  unfold Names
  infer_instance

/-- What is seen of a dial and the transport: its attempt is reported, something else is, or the dial is
    reported to the application. -/
inductive DialNote where
  | named
  | other
  | answered
  deriving DecidableEq, Repr

/-- What a note says of a dial and the transport. -/
def answerKind (d : Nat) : Note → Option DialNote
  | .took host event => some (if Names host d event then .named else .other)
  | .pushed _ event => if event.dial? = some d then some .answered else none
  | _ => none

/-- A report of the attempt is answered before the next event is taken from the transport, and nothing
    else is. The state tells whether an answer is due. -/
def answerNext : Bool → DialNote → Option Bool
  | false, .named => some true
  | false, .other => some false
  | true, .answered => some false
  | _, _ => none

/-- The host can answer an event: a pending dial that it names is the only one with its attempt, a
    connection that is established has a slot or finds one, and one that is closed has none. -/
def Answerable (config : HostConfig τ) : Note → Prop
  | .took host event => ∀ d, Names host d event →
    hostDialFind config (host.dials d).transportAttempt host = some d ∧
      match event with
      | .connEstablished conn .. =>
        hostConnFind config conn host ≠ none ∨ freeConn config host ≠ none
      | .connClosed conn .. => hostConnFind config conn host = none
      | _ => True
  | _ => True

theorem hostDialFind_names {attempt d : Nat} {event : TransportEvent}
    (hevent : event.attempt? = some attempt) (h : hostDialFind config attempt host = some d) :
    Names host d event := by
  have hslot := (findSlot_some h).2
  rw [Bool.and_eq_true, beq_iff_eq, beq_iff_eq] at hslot
  refine ⟨hslot.1, ?_⟩
  rw [hslot.2]
  exact hevent

/-- An event that passes names no dial. -/
theorem Passes.not_names {event : TransportEvent} (h : Passes config host event)
    (hanswer : Answerable config (.took host event)) (d : Nat) : ¬ Names host d event := by
  intro hnames
  obtain ⟨hfind, hslot⟩ := hanswer d hnames
  have hattempt := hnames.2
  cases event with
  | connEstablished conn attempt userData =>
    rcases hslot with hknown | hfree
    · exact hknown h.1
    · exact hfree h.2
  | connClosed conn attempt reason appErrorCode transportErrorCode =>
    rcases h with hknown | hnone
    · exact hknown hslot
    · rw [← Option.some.inj hattempt, hnone] at hfind
      cases hfind
  | dialFailed attempt reason appErrorCode transportErrorCode =>
    have hnone : hostDialFind config attempt host = none := h
    rw [← Option.some.inj hattempt, hnone] at hfind
    cases hfind
  | _ => cases hattempt

/-- The report that fails a dial names it. -/
theorem DialReport.names {event : TransportEvent} {d : Nat} (h : DialReport config host d event) :
    Names host d event := by
  cases event with
  | dialFailed attempt => exact hostDialFind_names rfl h
  | connClosed conn attempt => exact hostDialFind_names rfl h.2
  | _ => cases h

/-- Taking an event that names the dial, and answering it. -/
theorem reads_answer {d : Nat} {event : TransportEvent} {reported : HostEvent}
    {k : LeanLibp2p.Host} (hnames : Names host d event ↔ reported.dial? = some d)
    (hsilent : ∀ n ∈ notes, answerKind d n = none) :
    Reads (answerKind d) answerNext false (.took host event :: notes ++ [.pushed k reported])
      false := by
  by_cases h : Names host d event
  · have htook : Reads (answerKind d) answerNext false [.took host event] true := by
      refine .single (k := .named) ?_ rfl
      exact congrArg some (if_pos h)
    have hpushed : Reads (answerKind d) answerNext true [.pushed k reported] false := by
      refine .single (k := .answered) ?_ rfl
      exact if_pos (hnames.mp h)
    exact htook.append ((Reads.quiet hsilent).append hpushed)
  · have htook : Reads (answerKind d) answerNext false [.took host event] false := by
      refine .single (k := .other) ?_ rfl
      exact congrArg some (if_neg h)
    have hpushed : Reads (answerKind d) answerNext false [.pushed k reported] false := by
      refine .quiet fun n hn => ?_
      rw [List.mem_singleton.mp hn]
      exact if_neg fun hdial => h (hnames.mpr hdial)
    exact htook.append ((Reads.quiet hsilent).append hpushed)

/-- Taking an event that names no dial. -/
theorem reads_other {d : Nat} {event : TransportEvent} (hnames : ¬ Names host d event)
    (hsilent : ∀ n ∈ notes, answerKind d n = none) :
    Reads (answerKind d) answerNext false (.took host event :: notes) false := by
  have htook : Reads (answerKind d) answerNext false [.took host event] false := by
    refine .single (k := .other) ?_ rfl
    exact congrArg some (if_neg hnames)
  exact htook.append (.quiet hsilent)

/-- Every step answers what it takes. -/
theorem HostStep.reads_answer (hstep : HostStep config host notes host')
    (hanswer : ∀ n ∈ notes, Answerable config n) (d : Nat) :
    Reads (answerKind d) answerNext false notes false := by
  cases hstep with
  | takes hpasses =>
    exact reads_other (hpasses.not_names (hanswer _ (List.mem_singleton.mpr rfl)) d) (by rintro n ⟨⟩)
  | readable => exact reads_other (by rintro ⟨-, ⟨⟩⟩) (by rintro n ⟨⟩)
  | accepts => exact reads_other (by rintro ⟨-, ⟨⟩⟩) (by simp [answerKind])
  | @establishes host₁ host₂ k conn i userData userData' attempt dial notes hslot hdial huserData =>
    have hdials := hslot.tables.2.1
    have hfind : ∀ key, hostDialFind config key host₁ = hostDialFind config key host := by
      intro key
      unfold hostDialFind
      rw [hdials]
    refine Host.reads_answer ⟨fun hnames => ?_, fun hreported => ?_⟩ ?_
    · have hfound := (hanswer _ (List.mem_append_left _ List.mem_cons_self) d hnames).1
      rw [← Option.some.inj hnames.2, ← hfind] at hfound
      cases hdial with
      | found hfound' => exact hfound'.symm.trans hfound
      | none hnone => cases hnone.symm.trans hfound
    · cases hreported
      cases hdial with
      | found hfound =>
        rw [hfind] at hfound
        exact hostDialFind_names rfl hfound
    · cases hslot <;> simp [answerKind]
  | @dialFails k event d' reason _ _ hreport =>
    refine @Host.reads_answer host [] d event _ k ⟨fun hnames => ?_, fun hreported => ?_⟩ (by rintro n ⟨⟩)
    · have hfound := (hanswer _ List.mem_cons_self d hnames).1
      have hfound' := (hanswer _ List.mem_cons_self d' hreport.names).1
      have hsame := Option.some.inj (hnames.2.symm.trans hreport.names.2)
      rw [hsame, hfound'] at hfound
      exact hfound
    · cases hreported
      exact hreport.names
  | calls _ _ _ hnotes =>
    refine .quiet fun n hn => ?_
    split at hnotes
    · rw [hnotes] at hn
      rw [List.mem_singleton.mp hn]
      rfl
    · rw [hnotes] at hn
      cases hn
  | ends _ hnotes => rcases hnotes with rfl | ⟨-, kind, res, rfl⟩ <;> exact .quiet (by simp [answerKind])
  | failsInbound _ _ hnotes => rcases hnotes with rfl | ⟨e, rfl⟩ <;> exact .quiet (by simp [answerKind])
  | failsOutbound _ _ _ hnotes =>
    rcases hnotes with rfl | ⟨e, rfl⟩ <;> exact .quiet (by simp [answerKind, HostEvent.dial?])
  | _ => exact .quiet (by simp [answerKind, HostEvent.dial?])

/-- An open that runs is on a connection that is not closed. -/
theorem Consistent.running_open (h : Consistent config host) {o userData : Nat}
    (hruns : openLife (host.opens o) = .runs userData) :
    (host.conns (host.opens o).conn).closed = false := by
  cases hstate : (host.opens o).state with
  | free => cases (openLife_of_free hstate).symm.trans hruns
  | evented => cases (openLife_of_evented hstate).symm.trans hruns
  | waitTransport => exact h.settled.waiting o hstate
  | negotiating =>
    obtain ⟨s, hs⟩ := h.attempts.stream o hstate
    obtain ⟨hconn, -, hstates⟩ := h.attempts.linked s o hs
    rw [hconn]
    rcases hstates with ⟨hnegotiating, -⟩ | ⟨-, hevented⟩
    · exact h.settled.stream s hnegotiating
    · cases hevented.symm.trans hstate

/-- A host with room for one connection dials, and the connection is established. -/
def dialedRun : World Script :=
  hostRun Script.narrow {}
    [.dial [1] 5, .outside { events := [.connEstablished 1 (some 100) 5] }, .drive 0 0]

end LeanLibp2p.Host
