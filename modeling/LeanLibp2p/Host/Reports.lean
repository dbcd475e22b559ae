import LeanLibp2p.Host.Tells

/-!
# Reports

The queue never overflows and is first in, first out; every open and every dial ends once, with an event
for its user data or because it was taken back.
-/

namespace LeanLibp2p.Host

open LeanLibp2p.Lib

variable {τ : Type} {config : HostConfig τ} {host host' : LeanLibp2p.Host} {notes : List Note}

/-! ## The queue -/

/-- What a note says of the queue. -/
def queueKind : Note → Option (QueueNote HostEvent)
  | .pushed _ event => some (.queued event)
  | .popped event => some (.taken event)
  | _ => none

/-- What a note says of an open. -/
def openKind (o : Nat) : Note → Option (LifeNote Nat)
  | .opened o' userData => if o' = o then some (.begins userData) else none
  | .cancelled o' => if o' = o then some .cancelled else none
  | .pushed _ event => if event.streamOpen? = some o then some (.reports event.userData) else none
  | .popped event => if event.streamOpen? = some o then some .taken else none
  | _ => none

/-- What a note says of a dial. -/
def dialKind (d : Nat) : Note → Option (LifeNote Nat)
  | .dialed d' userData _ => if d' = d then some (.begins userData) else none
  | .pushed _ event => if event.dial? = some d then some (.reports event.userData) else none
  | .popped event => if event.dial? = some d then some .taken else none
  | _ => none

theorem queueKind_silent (n : Note) (h : n.tells = false) : queueKind n = none := by
  cases n <;> first | rfl | cases h

theorem openKind_silent (o : Nat) (n : Note) (h : n.tells = false) : openKind o n = none := by
  cases n <;> first | rfl | cases h

theorem dialKind_silent (d : Nat) (n : Note) (h : n.tells = false) : dialKind d n = none := by
  cases n <;> first | rfl | cases h

/-- The queue is first in, first out. -/
theorem Tells.reads_queue (h : Tells host notes host') :
    Reads queueKind queueNext host.events notes host'.events := by
  cases h with
  | nothing _ _ hevents =>
    rw [hevents]
    exact .quiet (by rintro n ⟨⟩)
  | begins _ _ _ hevents =>
    rw [hevents]
    exact .quiet fun n hn => by rw [List.mem_singleton.mp hn]; rfl
  | takesBack _ _ _ hevents =>
    rw [hevents]
    exact .quiet fun n hn => by rw [List.mem_singleton.mp hn]; rfl
  | dials _ _ _ hevents =>
    rw [hevents]
    exact .quiet fun n hn => by rw [List.mem_singleton.mp hn]; rfl
  | reports _ _ _ _ hevents =>
    rw [hevents]
    exact .single rfl rfl
  | handsOver _ _ _ _ hevents =>
    rw [hevents]
    exact .single rfl (if_pos rfl)

/-- The life of an open. -/
theorem Tells.reads_open (h : Tells host notes host') (o : Nat) :
    Reads (openKind o) Life.next (openLife (host.opens o)) notes (openLife (host'.opens o)) := by
  cases h with
  | nothing hopens =>
    rw [hopens o, if_neg (by rintro ⟨⟩)]
    exact .quiet (by rintro n ⟨⟩)
  | @begins _ o' userData hidle hopens =>
    rw [hopens o]
    refine .of_slot (o' = o) rfl ?_ ?_
    · rintro rfl
      rw [hidle, if_pos rfl]
      rfl
    · exact fun hne => if_neg fun hsome => hne (Option.some.inj hsome)
  | @takesBack _ o' userData hruns hopens =>
    rw [hopens o]
    refine .of_slot (o' = o) rfl ?_ ?_
    · rintro rfl
      rw [hruns, if_pos rfl]
      rfl
    · exact fun hne => if_neg fun hsome => hne (Option.some.inj hsome)
  | dials _ hopens =>
    rw [hopens o, if_neg (by rintro ⟨⟩)]
    exact .quiet fun n hn => by rw [List.mem_singleton.mp hn]; rfl
  | @reports _ k event hopen _ hopens =>
    rw [hopens o]
    refine .of_slot (event.streamOpen? = some o) rfl (fun habout => ?_) fun hne => if_neg hne
    rw [hopen o habout, if_pos habout]
    exact if_pos rfl
  | @handsOver _ event hopen _ hopens =>
    rw [hopens o]
    refine .of_slot (event.streamOpen? = some o) rfl (fun habout => ?_) fun hne => if_neg hne
    rw [hopen o habout, if_pos habout]
    rfl

/-- The life of a dial. -/
theorem Tells.reads_dial (h : Tells host notes host') (d : Nat) :
    Reads (dialKind d) Life.next (dialLife (host.dials d)) notes (dialLife (host'.dials d)) := by
  cases h with
  | nothing _ hdials =>
    rw [hdials d, if_neg (by rintro ⟨⟩)]
    exact .quiet (by rintro n ⟨⟩)
  | begins _ _ hdials =>
    rw [hdials d, if_neg (by rintro ⟨⟩)]
    exact .quiet fun n hn => by rw [List.mem_singleton.mp hn]; rfl
  | takesBack _ _ hdials =>
    rw [hdials d, if_neg (by rintro ⟨⟩)]
    exact .quiet fun n hn => by rw [List.mem_singleton.mp hn]; rfl
  | @dials _ d' userData attempt hidle _ hdials =>
    rw [hdials d]
    refine .of_slot (d' = d) rfl ?_ ?_
    · rintro rfl
      rw [hidle, if_pos rfl]
      rfl
    · exact fun hne => if_neg fun hsome => hne (Option.some.inj hsome)
  | @reports _ k event _ hdial _ hdials =>
    rw [hdials d]
    refine .of_slot (event.dial? = some d) rfl (fun habout => ?_) fun hne => if_neg hne
    rw [hdial d habout, if_pos habout]
    exact if_pos rfl
  | @handsOver _ event _ hdial _ hdials =>
    rw [hdials d]
    refine .of_slot (event.dial? = some d) rfl (fun habout => ?_) fun hne => if_neg hne
    rw [hdial d habout, if_pos habout]
    rfl

/-- What an automaton reads of every step, it reads of a run; the steps may keep an invariant. -/
theorem hostRun_reads_keeping {κ μ : Type} {kind : Note → Option κ} {next : μ → κ → Option μ}
    (view : LeanLibp2p.Host → μ) (C : Note → Prop) {I : LeanLibp2p.Host → Prop}
    (hstart : I started)
    (hkeeps : ∀ host notes host', Consistent config host → I host →
      HostStep config host notes host' → (∀ n ∈ notes, C n) → I host')
    (hstep : ∀ host notes host', Consistent config host → I host →
      HostStep config host notes host' → (∀ n ∈ notes, C n) →
        Reads kind next (view host) notes (view host'))
    (env : τ) (calls : List (HostCall τ)) (hnotes : ∀ n ∈ (hostRun config env calls).trace, C n) :
    Reads kind next (view started) (hostRun config env calls).trace
      (view (hostRun config env calls).host) := by
  have hpath := hostRun_path config env calls
  have hinvariant : ∀ host notes host', Consistent config host ∧ I host →
      HostStep config host notes host' → (∀ n ∈ notes, C n) → Consistent config host' ∧ I host' :=
    fun host notes host' hhost hstep hnotes =>
      ⟨hstep.consistent hhost.1, hkeeps host notes host' hhost.1 hhost.2 hstep hnotes⟩
  exact hpath.reads hinvariant (fun host notes host' hhost => hstep host notes host' hhost.1 hhost.2)
    ⟨.started, hstart⟩ hnotes

/-- The same without an invariant. -/
theorem hostRun_reads {κ μ : Type} {kind : Note → Option κ} {next : μ → κ → Option μ}
    (view : LeanLibp2p.Host → μ) (C : Note → Prop)
    (hstep : ∀ host notes host', Consistent config host → HostStep config host notes host' →
      (∀ n ∈ notes, C n) → Reads kind next (view host) notes (view host'))
    (env : τ) (calls : List (HostCall τ)) (hnotes : ∀ n ∈ (hostRun config env calls).trace, C n) :
    Reads kind next (view started) (hostRun config env calls).trace
      (view (hostRun config env calls).host) :=
  @hostRun_reads_keeping τ config κ μ kind next view C (fun _ => True) trivial
    (fun _ _ _ _ _ _ _ => trivial) (fun host notes host' hhost _ => hstep host notes host' hhost) env
    calls hnotes

/-- The life of every open in a run. -/
theorem hostRun_open (config : HostConfig τ) (env : τ) (calls : List (HostCall τ)) (o : Nat) :
    Reads (openKind o) Life.next .idle (hostRun config env calls).trace
      (openLife ((hostRun config env calls).host.opens o)) :=
  hostRun_reads (fun host => openLife (host.opens o)) (fun _ => True)
    (fun _ _ _ hhost hstep _ => .of_filter (openKind_silent o) ((hstep.tells hhost).reads_open o))
    env calls fun _ _ => trivial

/-- The life of every dial in a run. -/
theorem hostRun_dial (config : HostConfig τ) (env : τ) (calls : List (HostCall τ)) (d : Nat) :
    Reads (dialKind d) Life.next .idle (hostRun config env calls).trace
      (dialLife ((hostRun config env calls).host.dials d)) :=
  hostRun_reads (fun host => dialLife (host.dials d)) (fun _ => True)
    (fun _ _ _ hhost hstep _ => .of_filter (dialKind_silent d) ((hstep.tells hhost).reads_dial d))
    env calls fun _ _ => trivial

/-- No step drops an event. -/
theorem HostStep.not_dropped (hstep : HostStep config host notes host')
    (h : Consistent config host) (event : HostEvent) : Note.dropped event ∉ notes := by
  intro hmem
  have htold : Note.dropped event ∈ notes.filter Note.tells := List.mem_filter.mpr ⟨hmem, rfl⟩
  have htells := hstep.tells h
  generalize notes.filter Note.tells = told at htold htells
  cases htells with
  | nothing => cases htold
  | _ => cases List.mem_singleton.mp htold

/-- What holds of every note of a step from consistent tables, holds of every note of a run. -/
theorem hostRun_notes {C : Note → Prop}
    (hstep : ∀ host notes host', Consistent config host → HostStep config host notes host' →
      ∀ n ∈ notes, C n) (env : τ) (calls : List (HostCall τ)) :
    ∀ n ∈ (hostRun config env calls).trace, C n :=
  (hostRun_path config env calls).notes_meet
    (fun _ _ _ hhost hstep => hstep.consistent hhost) hstep .started

/-- No event is dropped: each push finds room. The events that were queued are handed over in their
    order, and an open or a dial is only idle again once its event was queued and taken, or once the
    application took it back. -/
theorem queue_never_overflows (config : HostConfig τ) (env : τ) (calls : List (HostCall τ)) :
    (∀ event, Note.dropped event ∉ (hostRun config env calls).trace) ∧
      Reads queueKind queueNext [] (hostRun config env calls).trace
        (hostRun config env calls).host.events ∧
      (∀ o, Reads (openKind o) Life.next .idle (hostRun config env calls).trace
        (openLife ((hostRun config env calls).host.opens o))) ∧
      ∀ d, Reads (dialKind d) Life.next .idle (hostRun config env calls).trace
        (dialLife ((hostRun config env calls).host.dials d)) := by
  refine ⟨fun event hmem => ?_, ?_, hostRun_open config env calls, hostRun_dial config env calls⟩
  · have hnotes := @hostRun_notes τ config (fun n => n ≠ .dropped event) ?_ env calls
    · exact hnotes _ hmem rfl
    · rintro host notes host' hhost hstep n hn rfl
      exact hstep.not_dropped hhost event hn
  · exact hostRun_reads LeanLibp2p.Host.events (fun _ => True)
      (fun _ _ _ hhost hstep _ => .of_filter queueKind_silent (hstep.tells hhost).reads_queue)
      env calls fun _ _ => trivial

/-! ## What waits -/

/-- An open is negotiated on one stream. -/
theorem Consistent.negotiating_iff (h : Consistent config host) (o : Nat) :
    (host.opens o).state = .negotiating ↔ ∃! s, (host.streams s).state = .negotiating ∧
      (host.streams s).openAttempt = some o := by
  constructor
  · intro ho
    obtain ⟨s, hs⟩ := h.attempts.stream o ho
    refine ⟨s, ⟨?_, hs⟩, fun s' hs' => h.attempts.unique s' s o hs'.2 hs⟩
    rcases (h.attempts.linked s o hs).2.2 with ⟨hstream, -⟩ | ⟨-, hevented⟩
    · exact hstream
    · rw [ho] at hevented
      cases hevented
  · rintro ⟨s, ⟨hnegotiating, hs⟩, -⟩
    exact h.attempt_negotiating hnegotiating hs

/-- In every state of a run the tables say what is on its way: an open is negotiated on exactly one
    stream, which is outbound and of its connection, nothing is negotiated on a closed connection, and
    the opens and dials to report and the closed connections are those of the queued events, each
    once. -/
theorem attempts_pending (config : HostConfig τ) (env : τ) (calls : List (HostCall τ)) :
    let host := (hostRun config env calls).host
    (∀ o, (host.opens o).state = .negotiating ↔ ∃! s, (host.streams s).state = .negotiating ∧
        (host.streams s).openAttempt = some o) ∧
      (∀ s o, (host.streams s).openAttempt = some o → Linked (host.streams s) (host.opens o)) ∧
      (∀ s, (host.streams s).state = .negotiating →
        (host.conns (host.streams s).conn).closed = false ∧
          ((host.streams s).direction = .outbound → (host.streams s).openAttempt ≠ none)) ∧
      Tracks HostEvent.streamOpen? host.events (fun o => (host.opens o).state = .evented) ∧
      Tracks HostEvent.dial? host.events (fun d => (host.dials d).state = .evented) ∧
      Tracks HostEvent.closedConn? host.events
        fun i => (host.conns i).closeEventPending = true := by
  have h := hostRun_consistent config env calls
  exact ⟨h.negotiating_iff, h.attempts.linked,
    fun s hs => ⟨h.settled.stream s hs, h.attempts.outbound s hs⟩, h.openEvents.tracks,
    h.dialEvents.tracks, h.closeEvents.tracks⟩

end LeanLibp2p.Host
