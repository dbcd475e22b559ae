import LeanLibp2p.Host.Run
import LeanLibp2p.Lib.Automaton

/-!
# What the application is told

A step of the host tells the application at most one thing: an open or a dial begins, an open is taken
back, an event is queued, or it is handed over. From this the life of every open and of every dial can
be read off the trace of a run, and the queue.
-/

namespace LeanLibp2p.Host

open LeanLibp2p.Lib

variable {τ : Type} {config : HostConfig τ} {host host' : LeanLibp2p.Host} {notes : List Note}
variable {k : LeanLibp2p.Host} {event : HostEvent}
variable {streamOpen : StreamOpen}

/-! ## Lives -/

/-- Where an open is. -/
def openLife (streamOpen : StreamOpen) : Life Nat :=
  match streamOpen.state with
  | .free => .idle
  | .waitTransport | .negotiating => .runs streamOpen.userData
  | .evented => .reported

/-- Where a dial is. -/
def dialLife (dial : Dial) : Life Nat :=
  match dial.state with
  | .free => .idle
  | .pending => .runs dial.userData
  | .evented => .reported

theorem openLife_of_free (h : streamOpen.state = .free) : openLife streamOpen = .idle := by
  unfold openLife
  rw [h]

theorem openLife_of_waiting (h : streamOpen.state = .waitTransport) :
    openLife streamOpen = .runs streamOpen.userData := by
  unfold openLife
  rw [h]

theorem openLife_of_negotiating (h : streamOpen.state = .negotiating) :
    openLife streamOpen = .runs streamOpen.userData := by
  unfold openLife
  rw [h]

theorem openLife_of_evented (h : streamOpen.state = .evented) :
    openLife streamOpen = .reported := by
  unfold openLife
  rw [h]

theorem dialLife_of_free {dial : Dial} (h : dial.state = .free) : dialLife dial = .idle := by
  unfold dialLife
  rw [h]

theorem dialLife_of_pending {dial : Dial} (h : dial.state = .pending) :
    dialLife dial = .runs dial.userData := by
  unfold dialLife
  rw [h]

theorem dialLife_of_evented {dial : Dial} (h : dial.state = .evented) :
    dialLife dial = .reported := by
  unfold dialLife
  rw [h]

/-! ## Steps -/

/-- A note about what the application is told. -/
def Note.tells : Note → Bool
  | .pushed .. | .dropped .. | .popped .. | .opened .. | .cancelled .. | .dialed .. => true
  | _ => false

/-- The lives of the opens are those before, but for one. -/
def OpensAfter (host : LeanLibp2p.Host) (o? : Option Nat) (life : Life Nat)
    (host' : LeanLibp2p.Host) : Prop :=
  ∀ o, openLife (host'.opens o) = if o? = some o then life else openLife (host.opens o)

/-- The lives of the dials are those before, but for one. -/
def DialsAfter (host : LeanLibp2p.Host) (d? : Option Nat) (life : Life Nat)
    (host' : LeanLibp2p.Host) : Prop :=
  ∀ d, dialLife (host'.dials d) = if d? = some d then life else dialLife (host.dials d)

/-- What a step tells, with what it does to opens, dials and the queue. -/
inductive Tells (host : LeanLibp2p.Host) : List Note → LeanLibp2p.Host → Prop where
  | nothing {host' : LeanLibp2p.Host} (hopens : OpensAfter host none .idle host')
      (hdials : DialsAfter host none .idle host') (hevents : host'.events = host.events) :
    Tells host [] host'
  | begins {host' : LeanLibp2p.Host} {o userData : Nat}
      (hidle : openLife (host.opens o) = .idle)
      (hopens : OpensAfter host (some o) (.runs userData) host')
      (hdials : DialsAfter host none .idle host') (hevents : host'.events = host.events) :
    Tells host [.opened o userData] host'
  | takesBack {host' : LeanLibp2p.Host} {o userData : Nat}
      (hruns : openLife (host.opens o) = .runs userData)
      (hopens : OpensAfter host (some o) .idle host')
      (hdials : DialsAfter host none .idle host') (hevents : host'.events = host.events) :
    Tells host [.cancelled o] host'
  | dials {host' : LeanLibp2p.Host} {d userData attempt : Nat}
      (hidle : dialLife (host.dials d) = .idle) (hopens : OpensAfter host none .idle host')
      (hdials : DialsAfter host (some d) (.runs userData) host')
      (hevents : host'.events = host.events) :
    Tells host [.dialed d userData attempt] host'
  | reports {host' k : LeanLibp2p.Host} {event : HostEvent}
      (hopen : ∀ o, event.streamOpen? = some o → openLife (host.opens o) = .runs event.userData)
      (hdial : ∀ d, event.dial? = some d → dialLife (host.dials d) = .runs event.userData)
      (hopens : OpensAfter host event.streamOpen? .reported host')
      (hdials : DialsAfter host event.dial? .reported host')
      (hevents : host'.events = host.events ++ [event]) :
    Tells host [.pushed k event] host'
  | handsOver {host' : LeanLibp2p.Host} {event : HostEvent}
      (hopen : ∀ o, event.streamOpen? = some o → openLife (host.opens o) = .reported)
      (hdial : ∀ d, event.dial? = some d → dialLife (host.dials d) = .reported)
      (hopens : OpensAfter host event.streamOpen? .idle host')
      (hdials : DialsAfter host event.dial? .idle host')
      (hevents : host.events = event :: host'.events) :
    Tells host [.popped event] host'

theorem OpensAfter.of_same {life : Life Nat} (h : host'.opens = host.opens) :
    OpensAfter host none life host' := by
  intro o
  rw [h, if_neg (by rintro ⟨⟩)]

theorem OpensAfter.of_update {o : Nat} {streamOpen : StreamOpen} {life : Life Nat}
    (h : host'.opens = Function.update host.opens o streamOpen)
    (hlife : openLife streamOpen = life) : OpensAfter host (some o) life host' := by
  intro o'
  rw [h]
  by_cases heq : o' = o
  · rw [heq, Function.update_self, if_pos rfl, hlife]
  · rw [Function.update_of_ne heq, if_neg fun hsome => heq (Option.some.inj hsome).symm]

/-- A change of an open that leaves it where it is. -/
theorem OpensAfter.of_update_same {o : Nat} {streamOpen : StreamOpen} {life : Life Nat}
    (h : host'.opens = Function.update host.opens o streamOpen)
    (hlife : openLife streamOpen = openLife (host.opens o)) : OpensAfter host none life host' := by
  intro o'
  rw [OpensAfter.of_update h hlife o', if_neg (show none ≠ some o' by rintro ⟨⟩)]
  by_cases heq : o = o'
  · rw [heq, if_pos rfl]
  · rw [if_neg fun hsome => heq (Option.some.inj hsome)]

theorem DialsAfter.of_same {life : Life Nat} (h : host'.dials = host.dials) :
    DialsAfter host none life host' := by
  intro d
  rw [h, if_neg (by rintro ⟨⟩)]

theorem DialsAfter.of_update {d : Nat} {dial : Dial} {life : Life Nat}
    (h : host'.dials = Function.update host.dials d dial) (hlife : dialLife dial = life) :
    DialsAfter host (some d) life host' := by
  intro d'
  rw [h]
  by_cases heq : d' = d
  · rw [heq, Function.update_self, if_pos rfl, hlife]
  · rw [Function.update_of_ne heq, if_neg fun hsome => heq (Option.some.inj hsome).symm]

/-- A step that tells nothing. -/
theorem Tells.of_silent {told : List Note} (htold : told = []) (hopens : host'.opens = host.opens)
    (hdials : host'.dials = host.dials) (hevents : host'.events = host.events) :
    Tells host told host' := by
  rw [htold]
  exact .nothing (.of_same hopens) (.of_same hdials) hevents

/-- An event that is not about an open or a dial. -/
theorem Tells.of_event (hopen : event.streamOpen? = none)
    (hdial : event.dial? = none) (hopens : host'.opens = host.opens)
    (hdials : host'.dials = host.dials) (hevents : host'.events = host.events ++ [event]) :
    Tells host [.pushed k event] host' := by
  refine .reports ?_ ?_ ?_ ?_ hevents
  · rw [hopen]
    rintro o ⟨⟩
  · rw [hdial]
    rintro d ⟨⟩
  · rw [hopen]
    exact .of_same hopens
  · rw [hdial]
    exact .of_same hdials

/-- An event that reports an open. -/
theorem Tells.of_openEvent {o : Nat}
    {streamOpen : StreamOpen} (hopen : event.streamOpen? = some o) (hdial : event.dial? = none)
    (hruns : openLife (host.opens o) = .runs event.userData)
    (hopens : host'.opens = Function.update host.opens o streamOpen)
    (hevented : streamOpen.state = .evented)
    (hdials : host'.dials = host.dials) (hevents : host'.events = host.events ++ [event]) :
    Tells host [.pushed k event] host' := by
  refine .reports ?_ ?_ ?_ ?_ hevents
  · rw [hopen]
    rintro o' ⟨⟩
    exact hruns
  · rw [hdial]
    rintro d ⟨⟩
  · rw [hopen]
    exact .of_update hopens (openLife_of_evented hevented)
  · rw [hdial]
    exact .of_same hdials

/-- An event that reports a dial. -/
theorem Tells.of_dialEvent {d : Nat} {dial : Dial}
    (hdial : event.dial? = some d) (hopen : event.streamOpen? = none)
    (hruns : dialLife (host.dials d) = .runs event.userData)
    (hdials : host'.dials = Function.update host.dials d dial) (hevented : dial.state = .evented)
    (hopens : host'.opens = host.opens) (hevents : host'.events = host.events ++ [event]) :
    Tells host [.pushed k event] host' := by
  refine .reports ?_ ?_ ?_ ?_ hevents
  · rw [hopen]
    rintro o ⟨⟩
  · rw [hdial]
    rintro d' ⟨⟩
    exact hruns
  · rw [hopen]
    exact .of_same hopens
  · rw [hdial]
    exact .of_update hdials (dialLife_of_evented hevented)

/-- The events of a protocol callback are nothing that the application is told. -/
theorem tells_of_called {s : Nat} {callback : Callback} (notes' : List Note)
    (hnotes : notes = [] ∨ ∃ res, notes = [.called s callback res]) :
    (notes ++ notes').filter Note.tells = notes'.filter Note.tells := by
  rcases hnotes with rfl | ⟨res, rfl⟩
  · rfl
  · rfl

theorem hostDialFind_pending {attempt d : Nat} (h : hostDialFind config attempt host = some d) :
    (host.dials d).state = .pending :=
  beq_iff_eq.mp (Bool.and_eq_true_iff.mp (findSlot_some h).2).1

theorem ConnSlot.tables {transportConn i : Nat}
    (h : ConnSlot config transportConn host i notes host') :
    host'.opens = host.opens ∧ host'.dials = host.dials ∧ host'.events = host.events ∧
      notes.filter Note.tells = [] := by
  cases h with
  | known => exact ⟨rfl, rfl, rfl, rfl⟩
  | new => exact ⟨rfl, rfl, rfl, rfl⟩

/-- What a step tells. -/
theorem HostStep.tells (hstep : HostStep config host notes host') (h : Consistent config host) :
    Tells host (notes.filter Note.tells) host' := by
  cases hstep with
  | cursors => exact .of_silent rfl rfl rfl rfl
  | streamData => exact .of_silent rfl rfl rfl rfl
  | @openData o protocol fallbackProtocol hused =>
    refine .nothing (.of_update_same rfl ?_) (.of_same rfl) rfl
    rw [openLife_of_negotiating hused]
    exact openLife_of_negotiating hused
  | takes => exact .of_silent rfl rfl rfl rfl
  | readable => exact .of_silent rfl rfl rfl rfl
  | @establishes host₁ host₂ k conn i userData userData' attempt dial notes hslot hdial huserData =>
    obtain ⟨hopens, hdials, hevents, hsilent⟩ := hslot.tables
    have hnotes : (Note.took host (.connEstablished conn attempt userData) :: notes ++
        [Note.pushed k (.connEstablished i dial userData')]).filter Note.tells =
          [Note.pushed k (.connEstablished i dial userData')] := by
      show (notes ++ _).filter Note.tells = _
      rw [List.filter_append, hsilent]
      rfl
    rw [hnotes]
    cases hdial with
    | none =>
      exact .of_event rfl rfl hopens hdials (congrArg (· ++ [_]) hevents)
    | @found d hfind =>
      have hpending := hostDialFind_pending hfind
      have hdial := congrFun hdials d
      refine @Tells.of_dialEvent host _ k _ d { host₁.dials d with state := .evented } rfl rfl ?_ ?_
        rfl hopens (congrArg (· ++ [_]) hevents)
      · rw [hdial] at hpending
        rw [dialLife_of_pending hpending]
        exact congrArg Life.runs (huserData d rfl).symm
      · show Function.update host₁.dials d _ = _
        rw [hdials]
  | @dialFails k event d reason _ _ hreport =>
    exact .of_dialEvent rfl rfl (dialLife_of_pending hreport.pending) rfl rfl rfl rfl
  | accepts => exact .of_silent rfl rfl rfl rfl
  | calls hopen hrole hreadable hnotes =>
    refine .of_silent ?_ rfl rfl rfl
    split at hnotes
    · rw [hnotes]
      rfl
    · rw [hnotes]
      rfl
  | ends hopen hnotes =>
    rw [h.drop_opened hopen]
    refine .of_silent ?_ rfl rfl rfl
    rcases hnotes with rfl | ⟨-, kind, res, rfl⟩
    · rfl
    · rfl
  | @waits o conn protocol userData fallbackProtocol hfree hconn hopen =>
    refine .begins (openLife_of_free (freeOpen_state hfree)) ?_ (.of_same rfl) rfl
    exact .of_update rfl rfl
  | @opensNothing o hfree =>
    refine .nothing (.of_update_same rfl ?_) (.of_same rfl) rfl
    rw [openLife_of_free hfree]
    rfl
  | @starts host₁ k o transportStream s hwaits hhost₁ =>
    subst hhost₁
    refine .nothing (.of_update_same rfl ?_) (.of_same rfl) rfl
    rw [openLife_of_waiting hwaits]
    rfl
  | @opensAtOnce host₁ host₂ k o conn protocol userData transportStream s fallbackProtocol hfree hconn
      hopen hhost₁ hhost₂ =>
    have hself : (host₁.opens o).userData = userData := by
      rw [hhost₁]
      unfold waitOpen setConn setOpen
      dsimp only
      rw [Function.update_self]
    have hopens : host₂.opens = Function.update host.opens o
        { host₁.opens o with transportStream := transportStream, state := .negotiating } := by
      rw [hhost₂]
      show Function.update host₁.opens o _ = _
      rw [hhost₁]
      exact Function.update_idem ..
    have hrest : host₂.dials = host.dials ∧ host₂.events = host.events := by
      rw [hhost₂, hhost₁]
      exact ⟨rfl, rfl⟩
    refine .begins (openLife_of_free (freeOpen_state hfree)) ?_ (.of_same hrest.1) hrest.2
    exact .of_update hopens (congrArg Life.runs hself)
  | @openFails host₁ k o transportStream reason hwaits hhost₁ =>
    subst hhost₁
    exact .of_openEvent rfl rfl (openLife_of_waiting hwaits) rfl rfl rfl rfl
  | completesInbound => exact .of_silent rfl rfl rfl rfl
  | @completesOutbound k s o stream hnegotiating hdirection hattempt hrole =>
    have hopen := h.attempt_negotiating hnegotiating hattempt
    exact .of_openEvent rfl rfl (openLife_of_negotiating hopen) rfl rfl rfl rfl
  | failsInbound hnegotiating hdirection hnotes =>
    rw [h.drop_inbound hdirection]
    refine .of_silent ?_ rfl rfl rfl
    rcases hnotes with rfl | ⟨e, rfl⟩
    · rfl
    · rfl
  | @failsOutbound k s o notes reason appErrorCode transportErrorCode hnegotiating hdirection hattempt
      hnotes =>
    have hopen := h.attempt_negotiating hnegotiating hattempt
    rw [drop_evented hattempt, tells_of_called _ (hnotes.imp_right fun ⟨e, he⟩ => ⟨_, he⟩)]
    exact .of_openEvent rfl rfl (openLife_of_negotiating hopen) rfl rfl rfl rfl
  | connCloses => exact .of_event rfl rfl rfl rfl rfl
  | recycles => exact .of_silent rfl rfl rfl rfl
  | @cancelsWaiting o hwaits =>
    rcases @hostOpenRelease_spec host o (by rw [hwaits]; rintro ⟨⟩) with
      ⟨hopens, -, hdials, hqueue, -⟩
    exact .takesBack (openLife_of_waiting hwaits) (.of_update hopens rfl) (.of_same hdials) hqueue
  | @cancelsStream o s hopen hused hattempt =>
    rw [drop_cancelled]
    rcases hostOpenRelease_spec (cancelled_used s hopen) with ⟨hopens, -, hdials, hqueue, -⟩
    exact .takesBack (openLife_of_negotiating hopen) (.of_update hopens rfl) (.of_same hdials) hqueue
  | @pops event events hqueue =>
    have hpopped := h.popped hqueue
    have hmem : event ∈ host.events := by rw [hqueue]; exact List.mem_cons_self
    let released := releaseEvent event { host with events := events }
    have htaken : Tells host [.popped event] released := by
      refine .handsOver ?_ ?_ ?_ ?_ (by rw [hqueue, hpopped.events])
      · exact fun o ho => openLife_of_evented (h.openEvents.tracks.of_mem hmem ho)
      · exact fun d hd => dialLife_of_evented (h.dialEvents.tracks.of_mem hmem hd)
      · have hopens := hpopped.opens
        cases hopen : event.streamOpen? with
        | none =>
          rw [hopen] at hopens
          exact .of_same hopens
        | some o =>
          rw [hopen] at hopens
          exact .of_update hopens rfl
      · have hdials := hpopped.dials
        cases hdial : event.dial? with
        | none =>
          rw [hdial] at hdials
          exact .of_same hdials
        | some d =>
          rw [hdial] at hdials
          exact .of_update hdials rfl
    show Tells host [.popped event] _
    cases event.closedConn? with
    | none => exact htaken
    | some i =>
      cases htaken with
      | handsOver hopen hdial hopens hdials hevents =>
        exact .handsOver hopen hdial hopens hdials hevents
  | @dials d userData attempt hfree hstarted =>
    refine .dials (dialLife_of_free (freeDial_state hfree)) (.of_same rfl) ?_ rfl
    exact .of_update rfl rfl
  | @dialsNothing d hfree =>
    refine .nothing (.of_same rfl) (fun d' => ?_) rfl
    rw [@DialsAfter.of_update host (setDial d {} host) d {} _ rfl (dialLife_of_free hfree).symm d']
    by_cases heq : d = d'
    · rw [heq, if_pos rfl, if_neg (by rintro ⟨⟩)]
    · rw [if_neg fun hsome => heq (Option.some.inj hsome), if_neg (by rintro ⟨⟩)]
  | shuts => exact .of_silent rfl rfl rfl rfl
  | asks => exact .of_silent rfl rfl rfl rfl
  | closeReturns => exact .of_silent rfl rfl rfl rfl
  | completes => exact .of_event rfl rfl rfl rfl rfl

end LeanLibp2p.Host
