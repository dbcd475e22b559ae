import LeanLibp2p.Host.ConnSlots

/-!
# Handles

Whether the connection and the stream that an event names are still those for which the event was
queued when the application takes it.
-/

namespace LeanLibp2p.Host

open LeanLibp2p.Lib

variable {τ : Type} {config : HostConfig τ} {host host' : LeanLibp2p.Host} {notes : List Note}

/-! ## Queued handles -/

/-- The connection of a CONN_ESTABLISHED event. -/
def HostEvent.establishedConn? : HostEvent → Option Nat
  | .connEstablished conn .. => some conn
  | _ => Option.none

/-- What is seen of the handles: an event is queued or taken, or the slots of some events change
    hands. -/
inductive HandleNote where
  | queued (event : HostEvent)
  | taken (event : HostEvent)
  | lost (names : HostEvent → Bool)

/-- What a note says of the handles. A connection slot that is taken or cleared is no longer that of a
    connection it was queued for, nor is a stream slot that is taken. -/
def handleKind : Note → Option HandleNote
  | .pushed _ event => some (.queued event)
  | .popped event => some (.taken event)
  | .connAllocated i => some (.lost fun event => event.conn? = some i)
  | .connCleared _ i => some (.lost fun event => event.conn? = some i)
  | .streamAllocated _ s => some (.lost fun event => event.stream? = some s)
  | _ => none

/-- The queued events, with whether their handles are still good; an event is taken only with good
    handles. -/
def handleNext : List (HostEvent × Bool) → HandleNote → Option (List (HostEvent × Bool))
  | queue, .queued event => some (queue ++ [(event, true)])
  | queue, .lost names => some (queue.map fun handle => (handle.1, handle.2 && !names handle.1))
  | (first, good) :: queue, .taken event => if first = event ∧ good = true then some queue else none
  | [], .taken _ => none

/-- Events with good handles. -/
def goodHandles (events : List HostEvent) : List (HostEvent × Bool) :=
  events.map fun event => (event, true)

/-- Where a slot changes hands that no queued event names, all handles stay good. -/
theorem reads_lost {n : Note} {names : HostEvent → Bool} {events : List HostEvent}
    (hkind : handleKind n = some (.lost names)) (hnames : ∀ e ∈ events, names e = false) :
    Reads handleKind handleNext (goodHandles events) [n] (goodHandles events) := by
  refine .single hkind (congrArg some ?_)
  unfold goodHandles
  rw [List.map_map]
  refine List.map_congr_left fun e he => ?_
  show (e, true && !names e) = (e, true)
  rw [hnames e he]
  rfl

/-- Where no slot changes hands, the handles follow the queue. -/
theorem reads_handles {events events' : List HostEvent}
    (hlost : ∀ n ∈ notes, ∀ names, handleKind n ≠ some (.lost names))
    (h : Reads queueKind queueNext events notes events') :
    Reads handleKind handleNext (goodHandles events) notes (goodHandles events') := by
  induction notes generalizing events with
  | nil =>
    cases h
    exact .quiet (by rintro n ⟨⟩)
  | cons n notes ih =>
    have hrest := fun n' hn' => hlost n' (List.mem_cons_of_mem n hn')
    have hskip : queueKind n = none → handleKind n = none →
        Reads handleKind handleNext (goodHandles events) (n :: notes) (goodHandles events') := by
      intro hqueue hhandle
      unfold Reads at h ih ⊢
      rw [List.filterMap_cons_none hqueue] at h
      rw [List.filterMap_cons_none hhandle]
      exact ih hrest h
    cases n with
    | pushed k event =>
      have htail : Reads queueKind queueNext (events ++ [event]) notes events' := h
      have hfirst : Reads handleKind handleNext (goodHandles events) [.pushed k event]
          (goodHandles (events ++ [event])) := by
        refine .single rfl (congrArg some ?_)
        unfold goodHandles
        rw [List.map_append]
        rfl
      exact hfirst.append (ih hrest htail)
    | popped event =>
      cases events with
      | nil => cases h
      | cons first events =>
        by_cases heq : first = event
        · have htail : Reads queueKind queueNext events notes events' := by
            unfold Reads at h ⊢
            rw [List.filterMap_cons_some (show queueKind (.popped event) = _ from rfl),
              List.foldlM_cons, show queueNext (first :: events) (.taken event) = some events from
                if_pos heq] at h
            exact h
          have hfirst : Reads handleKind handleNext (goodHandles (first :: events))
              [.popped event] (goodHandles events) := .single rfl (if_pos ⟨heq, rfl⟩)
          exact hfirst.append (ih hrest htail)
        · unfold Reads at h
          rw [List.filterMap_cons_some (show queueKind (.popped event) = _ from rfl),
            List.foldlM_cons, show queueNext (first :: events) (.taken event) = none from
              if_neg heq] at h
          cases h
    | connAllocated i => exact absurd rfl (hlost _ List.mem_cons_self _)
    | connCleared k i => exact absurd rfl (hlost _ List.mem_cons_self _)
    | streamAllocated k s => exact absurd rfl (hlost _ List.mem_cons_self _)
    | _ => exact hskip rfl rfl

/-! ## The order of the events of a connection -/

/-- A stream slot that is taken is named by no queued event, and a connection that is established is
    not one that was closed. -/
def KeepsHandles (config : HostConfig τ) : Note → Prop
  | .took host (.connEstablished conn ..) =>
    ∀ i, hostConnFind config conn host = some i → (host.conns i).closed = false
  | .streamAllocated host s => ∀ e ∈ host.events, e.stream? ≠ some s
  | _ => True

/-- A condition on the slot that is found, if one is. -/
def foundDecidable (found : Option Nat) (p : Nat → Prop) [DecidablePred p] :
    Decidable (∀ i, found = some i → p i) :=
  match found with
  | none => .isTrue (by rintro i ⟨⟩)
  | some i => decidable_of_iff (p i) ⟨by rintro h j ⟨⟩; exact h, fun h => h i rfl⟩

instance (n : Note) : Decidable (KeepsHandles config n) := by
  induction n using Note.casesOn with
  | took host event =>
    induction event using TransportEvent.casesOn with
    | connEstablished conn =>
      exact foundDecidable (hostConnFind config conn host) fun i => (host.conns i).closed = false
    | _ => exact isTrue trivial
  | streamAllocated host s =>
    exact inferInstanceAs (Decidable (∀ e ∈ host.events, e.stream? ≠ some s))
  | _ => exact isTrue trivial

/-- An event that names a connection establishes or closes it, or reports an open. -/
def HasOwner (event : HostEvent) : Prop :=
  event.conn? ≠ none →
    event.establishedConn? ≠ none ∨ event.closedConn? ≠ none ∨ event.streamOpen? ≠ none

/-- How the events of a connection lie in the queue. -/
structure Ordered (host : LeanLibp2p.Host) : Prop where
  named : ∀ e ∈ host.events, ∀ i, e.establishedConn? = some i →
    connLife (host.conns i) = .opened ∨ connLife (host.conns i) = .closing
  order : host.events.Pairwise fun e e' => ∀ i, e.closedConn? = some i →
    e'.establishedConn? ≠ some i
  owner : ∀ e ∈ host.events, HasOwner e

namespace Ordered

theorem started : Ordered started where
  named := fun e he => by cases he
  order := List.Pairwise.nil
  owner := fun e he => by cases he

end Ordered

theorem connLife_active {conn : Conn} (h : connLife conn ≠ .free) : conn.active = true := by
  by_contra hnot
  exact h (if_pos ((Bool.not_eq_true _).mp hnot))

theorem connLife_of_open {conn : Conn} (hactive : conn.active = true)
    (hopen : conn.closed = false) : connLife conn = .opened := by
  unfold connLife
  rw [hactive, hopen]
  rfl

/-- The slot of the CONN_CLOSED event that is queued. -/
theorem Consistent.closing (h : Consistent config host) {e : HostEvent} {i : Nat}
    (he : e ∈ host.events) (hclosed : e.closedConn? = some i) :
    connLife (host.conns i) = .closing := by
  have hpending := h.closeEvents.tracks.of_mem he hclosed
  have hclosed := h.closeEvents.closed i hpending
  unfold connLife
  rw [h.closeEvents.active i hclosed, hclosed, hpending]
  rfl

/-- The connection that a queued event names is in use, and referred to. -/
theorem Ordered.busy (h : Ordered host) (hhost : Consistent config host) {e : HostEvent} {i : Nat}
    (he : e ∈ host.events) (hconn : e.conn? = some i) :
    connLife (host.conns i) ≠ .free ∧ ¬ Idle (host.conns i) := by
  have hlife : ∀ life, connLife (host.conns i) = life → life ≠ .free → life ≠ .closed →
      connLife (host.conns i) ≠ .free ∧ ¬ Idle (host.conns i) := by
    rintro life rfl hfree hclosed
    exact ⟨hfree, fun hidle => hclosed (connLife_of_idle hidle)⟩
  rcases h.owner e he (by rw [hconn]; rintro ⟨⟩) with hestablished | hclosed | hopen
  · obtain ⟨j, hj⟩ := Option.ne_none_iff_exists'.mp hestablished
    have hsame : e.conn? = some j := by
      cases e <;> cases hj
      rfl
    cases hconn.symm.trans hsame
    rcases h.named e he i hj with hopened | hclosing
    · exact hlife _ hopened (by rintro ⟨⟩) (by rintro ⟨⟩)
    · exact hlife _ hclosing (by rintro ⟨⟩) (by rintro ⟨⟩)
  · obtain ⟨j, hj⟩ := Option.ne_none_iff_exists'.mp hclosed
    have hsame : e.conn? = some j := by
      cases e <;> cases hj
      rfl
    cases hconn.symm.trans hsame
    exact hlife _ (hhost.closing he hj) (by rintro ⟨⟩) (by rintro ⟨⟩)
  · obtain ⟨o, ho⟩ := Option.ne_none_iff_exists'.mp hopen
    have hevented := hhost.openEvents.tracks.of_mem he ho
    have hused : (host.opens o).state ≠ .free := by
      rw [hevented]
      rintro ⟨⟩
    have hsame := (hhost.openEvents.data e he o ho).2
    rw [hconn] at hsame
    have hactive := hhost.counted.openActive o hused
    have hcount := hhost.openCount_pos hused
    rw [← Option.some.inj hsame] at hactive hcount
    refine ⟨fun hfree => ?_, fun hidle => ?_⟩
    · unfold connLife at hfree
      rw [hactive] at hfree
      split at hfree
      · contradiction
      · split at hfree
        · cases hfree
        · split at hfree <;> cases hfree
    · rw [hidle.2.2.2.2] at hcount
      cases hcount

/-! ## Steps -/

/-- A note of a call of a protocol is no other note. -/
theorem mem_of_called {s : Nat} {callback : Callback} {notes' : List Note} {n : Note}
    (hnotes : notes = [] ∨ ∃ res, notes = [.called s callback res]) (hn : n ∈ notes ++ notes') :
    n ∈ notes' ∨ ∃ res, n = .called s callback res := by
  rcases hnotes with rfl | ⟨res, rfl⟩
  · exact .inl hn
  · rcases List.mem_cons.mp hn with rfl | hn
    · exact .inr ⟨res, rfl⟩
    · exact .inl hn

theorem mem_of_calls {b : Prop} [Decidable b] {n called : Note}
    (hnotes : if b then notes = [called] else notes = []) (hn : n ∈ notes) : n = called := by
  split at hnotes
  · rw [hnotes] at hn
    exact List.mem_singleton.mp hn
  · rw [hnotes] at hn
    cases hn

/-- The events of the steps have an owner, and one that establishes a connection is for the slot that it
    has, or that it takes. -/
theorem HostStep.pushed_spec (hstep : HostStep config host notes host') {k : LeanLibp2p.Host}
    {e : HostEvent} (hn : .pushed k e ∈ notes) :
    HasOwner e ∧ ∀ i, e.establishedConn? = some i → ∃ conn attempt userData,
      .took host (.connEstablished conn attempt userData) ∈ notes ∧
        (hostConnFind config conn host = some i ∨ .connAllocated i ∈ notes) := by
  cases hstep with
  | @establishes host₁ host₂ k' conn i userData userData' attempt dial notes hslot hdial =>
    have hmem : Note.pushed k e = .pushed k' (.connEstablished i dial userData') := by
      cases hslot <;> simpa using hn
    cases hmem
    refine ⟨fun _ => .inl (by rintro ⟨⟩), fun j hj => ?_⟩
    cases hj
    refine ⟨conn, attempt, userData, List.mem_append_left _ List.mem_cons_self, ?_⟩
    cases hslot with
    | known hfound => exact .inl hfound
    | new => exact .inr (by simp)
  | dialFails =>
    have hmem := by simpa using hn
    rw [hmem.2]
    exact ⟨fun hconn => absurd rfl hconn, by rintro i ⟨⟩⟩
  | connCloses =>
    have hmem := by simpa using hn
    rw [hmem.2]
    exact ⟨fun _ => .inr (.inl (by rintro ⟨⟩)), by rintro i ⟨⟩⟩
  | completes =>
    have hmem := by simpa using hn
    rw [hmem.2]
    exact ⟨fun hconn => absurd rfl hconn, by rintro i ⟨⟩⟩
  | openFails =>
    have hmem := by simpa using hn
    rw [hmem.2]
    exact ⟨fun _ => .inr (.inr (by rintro ⟨⟩)), by rintro i ⟨⟩⟩
  | completesOutbound =>
    have hmem := by simpa using hn
    rw [hmem.2]
    exact ⟨fun _ => .inr (.inr (by rintro ⟨⟩)), by rintro i ⟨⟩⟩
  | failsOutbound _ _ _ hnotes =>
    rcases mem_of_called (hnotes.imp_right fun ⟨e, he⟩ => ⟨_, he⟩) hn with hn | ⟨res, hres⟩
    · have hmem := by simpa using hn
      rw [hmem.2]
      exact ⟨fun _ => .inr (.inr (by rintro ⟨⟩)), by rintro i ⟨⟩⟩
    · cases hres
  | calls _ _ _ hnotes => cases mem_of_calls hnotes hn
  | ends _ hnotes => rcases hnotes with rfl | ⟨-, kind, res, rfl⟩ <;> simp at hn
  | failsInbound _ _ hnotes => rcases hnotes with rfl | ⟨e, rfl⟩ <;> simp at hn
  | _ => simp at hn

/-- The queue behind a step. -/
theorem Tells.queue {told : List Note} (h : Tells host told host') :
    (host'.events = host.events ∧ ∀ e, Note.popped e ∉ told) ∨
      (∃ k e, Note.pushed k e ∈ told ∧ host'.events = host.events ++ [e] ∧
        ∀ e, Note.popped e ∉ told) ∨
      ∃ e, host.events = e :: host'.events ∧ ∀ e', Note.popped e' ∈ told → e' = e := by
  cases h with
  | nothing _ _ hevents => exact .inl ⟨hevents, fun e hn => by cases hn⟩
  | begins _ _ _ hevents => exact .inl ⟨hevents, fun e hn => by cases List.mem_singleton.mp hn⟩
  | takesBack _ _ _ hevents => exact .inl ⟨hevents, fun e hn => by cases List.mem_singleton.mp hn⟩
  | dials _ _ _ hevents => exact .inl ⟨hevents, fun e hn => by cases List.mem_singleton.mp hn⟩
  | reports _ _ _ _ hevents =>
    refine .inr (.inl ⟨_, _, List.mem_singleton.mpr rfl, hevents, fun e hn => ?_⟩)
    cases List.mem_singleton.mp hn
  | handsOver _ _ _ _ hevents =>
    refine .inr (.inr ⟨_, hevents, fun e hn => ?_⟩)
    cases List.mem_singleton.mp hn
    rfl

/-- A connection in use stays in use until its CONN_CLOSED event is taken. -/
theorem ConnTells.keeps_use {told : List Note} (h : ConnTells host told host') {i : Nat}
    (hlife : connLife (host.conns i) = .opened ∨ connLife (host.conns i) = .closing)
    (htaken : ∀ e, .popped e ∈ told → e.closedConn? ≠ some i) :
    connLife (host'.conns i) = .opened ∨ connLife (host'.conns i) = .closing := by
  have hother : ∀ {j life}, ConnsAfter host (some j) life host' → j ≠ i →
      connLife (host'.conns i) = .opened ∨ connLife (host'.conns i) = .closing := by
    intro j life hconns hne
    rw [hconns i, if_neg fun hsome => hne (Option.some.inj hsome)]
    exact hlife
  cases h with
  | nothing hconns =>
    rw [hconns i, if_neg (by rintro ⟨⟩)]
    exact hlife
  | allocates hfree hconns =>
    refine hother hconns ?_
    rintro rfl
    rcases hlife with h | h <;> cases hfree.symm.trans h
  | @closes _ _ j _ _ _ hconns =>
    by_cases heq : j = i
    · rw [hconns i, heq, if_pos rfl]
      exact .inr rfl
    · exact hother hconns heq
  | handsOver hevent _ hconns =>
    refine hother hconns ?_
    rintro rfl
    exact htaken _ (List.mem_singleton.mpr rfl) hevent
  | clears hidle hconns =>
    refine hother hconns ?_
    rintro rfl
    rcases hlife with h | h <;> cases (connLife_of_idle hidle).symm.trans h

/-- A slot that is taken was free. -/
theorem ConnTells.allocated {told : List Note} (h : ConnTells host told host') {i : Nat}
    (hn : .connAllocated i ∈ told) :
    connLife (host.conns i) = .free ∧ connLife (host'.conns i) = .opened := by
  cases h with
  | nothing => cases hn
  | allocates hfree hconns =>
    cases List.mem_singleton.mp hn
    exact ⟨hfree, by rw [hconns i, if_pos rfl]⟩
  | _ => cases List.mem_singleton.mp hn

/-- The events of a connection stay in order. -/
theorem Ordered.step (h : Ordered host) (hhost : Consistent config host)
    (hstep : HostStep config host notes host') (hkeeps : ∀ n ∈ notes, KeepsHandles config n) :
    Ordered host' := by
  have hconns := hstep.tellsConn hhost
  -- A connection that is established had an open slot, or takes a free one.
  have hslot : ∀ k e i, .pushed k e ∈ notes → e.establishedConn? = some i →
      connLife (host.conns i) = .opened ∨
        connLife (host.conns i) = .free ∧ connLife (host'.conns i) = .opened := by
    intro k e i hn he
    obtain ⟨conn, attempt, userData, htook, hfound | halloc⟩ := (hstep.pushed_spec hn).2 i he
    · have hactive := (Bool.and_eq_true_iff.mp (findSlot_some hfound).2).1
      exact .inl (connLife_of_open hactive (hkeeps _ htook i hfound))
    · exact .inr (hconns.allocated (List.mem_filter.mpr ⟨halloc, rfl⟩))
  have htold : ∀ {n}, n ∈ notes.filter Note.tells → n ∈ notes := List.mem_of_mem_filter
  have hpopped : ∀ {e}, .popped e ∈ notes.filter Note.tellsConn →
      .popped e ∈ notes.filter Note.tells := fun hn =>
    List.mem_filter.mpr ⟨List.mem_of_mem_filter hn, rfl⟩
  rcases (hstep.tells hhost).queue with ⟨hevents, hnone⟩ | ⟨k, new, hn, hevents, hnone⟩ |
    ⟨first, hevents, hfirst⟩
  · constructor
    · intro e he i hi
      rw [hevents] at he
      exact hconns.keeps_use (h.named e he i hi) fun e' he' => absurd (hpopped he') (hnone e')
    · rw [hevents]
      exact h.order
    · rw [hevents]
      exact h.owner
  · constructor
    · intro e he i hi
      rw [hevents] at he
      rcases List.mem_append.mp he with he | he
      · exact hconns.keeps_use (h.named e he i hi) fun e' he' => absurd (hpopped he') (hnone e')
      · cases List.mem_singleton.mp he
        rcases hslot k new i (htold hn) hi with hopen | ⟨-, hopen⟩
        · exact hconns.keeps_use (.inl hopen) fun e' he' => absurd (hpopped he') (hnone e')
        · exact .inl hopen
    · rw [hevents]
      refine List.pairwise_append.mpr ⟨h.order, List.pairwise_singleton .., ?_⟩
      intro e he e' he' i hclosed hestablished
      cases List.mem_singleton.mp he'
      have hclosing := hhost.closing he hclosed
      rcases hslot k new i (htold hn) hestablished with hopen | ⟨hfree, -⟩
      · cases hclosing.symm.trans hopen
      · cases hclosing.symm.trans hfree
    · intro e he
      rw [hevents] at he
      rcases List.mem_append.mp he with he | he
      · exact h.owner e he
      · cases List.mem_singleton.mp he
        exact (hstep.pushed_spec (htold hn)).1
  · have horder := h.order
    rw [hevents] at horder
    obtain ⟨hbefore, hrest⟩ := List.pairwise_cons.mp horder
    have hmem : ∀ e ∈ host'.events, e ∈ host.events := by
      intro e he
      rw [hevents]
      exact List.mem_cons_of_mem first he
    constructor
    · intro e he i hi
      refine hconns.keeps_use (h.named e (hmem e he) i hi) fun e' he' hclosed => ?_
      rw [hfirst e' (hpopped he')] at hclosed
      exact hbefore e he i hclosed hi
    · exact hrest
    · exact fun e he => h.owner e (hmem e he)

/-- Every step keeps the handles good. -/
theorem HostStep.reads_handles (hstep : HostStep config host notes host')
    (hhost : Consistent config host) (h : Ordered host)
    (hkeeps : ∀ n ∈ notes, KeepsHandles config n) :
    Reads handleKind handleNext (goodHandles host.events) notes (goodHandles host'.events) := by
  have hqueue : Reads queueKind queueNext host.events notes host'.events :=
    .of_filter queueKind_silent (hstep.tells hhost).reads_queue
  have hstream : ∀ {k s}, k.events = host.events → Note.streamAllocated k s ∈ notes →
      Reads handleKind handleNext (goodHandles host.events) [.streamAllocated k s]
        (goodHandles host.events) := by
    intro k s hevents hn
    refine reads_lost rfl fun e he => decide_eq_false ?_
    rw [← hevents] at he
    exact hkeeps _ hn e he
  have htook : ∀ {event}, Reads handleKind handleNext (goodHandles host.events) [.took host event]
      (goodHandles host.events) := .quiet fun n hn => by rw [List.mem_singleton.mp hn]; rfl
  cases hstep with
  | accepts =>
    exact htook.append (hstream rfl (by simp))
  | starts _ hhost₁ _ _ hevents =>
    subst hhost₁
    exact hstream hevents (by simp)
  | opensAtOnce _ _ _ hhost₁ hhost₂ _ _ hevents =>
    subst hhost₂ hhost₁
    refine (hstream hevents (by simp)).append (.quiet fun n hn => ?_)
    rw [List.mem_singleton.mp hn]
    rfl
  | recycles hidle =>
    refine reads_lost rfl fun e he => decide_eq_false fun hconn => ?_
    exact (h.busy hhost he hconn).2 hidle
  | @establishes host₁ host₂ k conn i userData userData' attempt dial notes hslot hdial =>
    cases hslot with
    | known => exact Host.reads_handles (by simp [handleKind]) hqueue
    | new hnone hfree =>
      have hlife : connLife (host.conns i) = .free := if_pos (by simpa using (findSlot_some hfree).2)
      have hallocated : Reads handleKind handleNext (goodHandles host.events) [.connAllocated i]
          (goodHandles host.events) :=
        reads_lost rfl fun e he => decide_eq_false fun hconn => (h.busy hhost he hconn).1 hlife
      have hpushed : Reads handleKind handleNext (goodHandles host.events)
          [.pushed k (.connEstablished i dial userData')]
          (goodHandles (pushEvent (.connEstablished i dial userData') host₂).events) :=
        Host.reads_handles (by simp [handleKind]) hqueue
      exact htook.append (hallocated.append hpushed)
  | calls _ _ _ hnotes =>
    refine Host.reads_handles (fun n hn names => ?_) hqueue
    rw [mem_of_calls hnotes hn]
    rintro ⟨⟩
  | ends _ hnotes =>
    refine Host.reads_handles ?_ hqueue
    rcases hnotes with rfl | ⟨-, kind, res, rfl⟩ <;> simp [handleKind]
  | failsInbound _ _ hnotes =>
    refine Host.reads_handles ?_ hqueue
    rcases hnotes with rfl | ⟨e, rfl⟩ <;> simp [handleKind]
  | failsOutbound _ _ _ hnotes =>
    refine Host.reads_handles ?_ hqueue
    rcases hnotes with rfl | ⟨e, rfl⟩ <;> simp [handleKind]
  | _ => exact Host.reads_handles (by simp [handleKind]) hqueue

/-- Where no stream slot is taken while a queued event names it, and no connection is established again
    once it was closed, every event is taken with good handles: its connection slot was neither cleared
    nor taken for another connection since it was queued, nor its stream slot for another stream. -/
theorem handles_good (env : τ) (calls : List (HostCall τ))
    (hkeeps : ∀ n ∈ (hostRun config env calls).trace, KeepsHandles config n) :
    Reads handleKind handleNext [] (hostRun config env calls).trace
      (goodHandles (hostRun config env calls).host.events) :=
  hostRun_reads_keeping (fun host => goodHandles host.events) (KeepsHandles config) Ordered.started
    (fun _ _ _ hhost hordered hstep hnotes => hordered.step hhost hstep hnotes)
    (fun _ _ _ hhost hordered hstep hnotes => hstep.reads_handles hhost hordered hnotes) env calls
    hkeeps

/-- A stream is opened on a connection; then the transport does something before the application takes
    the events. -/
def openedCalls (events : List TransportEvent) : List (HostCall Script) :=
  [.outside { events := [.connEstablished 1 none 0], bytes := [(100, Script.agreement)] },
    .drive 0 0, .nextEvent, .openStream 0 [1] none 5, .drive 0 0, .outside { events := events },
    .drive 0 0, .nextEvent]

theorem handles_good_opened :
    Reads handleKind handleNext []
      (hostRun Script.quiet {} (openedCalls [.streamClosed 100 none 0 0])).trace
      (goodHandles (hostRun Script.quiet {} (openedCalls [.streamClosed 100 none 0 0])).host.events) :=
  handles_good {} (openedCalls [.streamClosed 100 none 0 0]) (by decide +kernel)

/-- The stream is closed, and another one comes in: it has the slot that the STREAM_OPENED event
    names. -/
theorem handles_reused :
    ¬ Reads handleKind handleNext []
      (hostRun Script.quiet {}
        (openedCalls [.streamClosed 100 none 0 0, .streamIncoming 1 200])).trace
      (goodHandles (hostRun Script.quiet {}
        (openedCalls [.streamClosed 100 none 0 0, .streamIncoming 1 200])).host.events) := by
  decide +kernel

end LeanLibp2p.Host
