import LeanLibp2p.Host.Attempts

/-!
# Consistency

Every step keeps the tables and the queue consistent: the counts count, opens and streams belong
together, and what has its event is what is named by the queue.
-/

namespace LeanLibp2p.Host

open LeanLibp2p.Lib

variable {τ : Type} {config : HostConfig τ} {host host' : LeanLibp2p.Host} {notes : List Note}

/-- The invariant of the host. -/
structure Consistent (config : HostConfig τ) (host : LeanLibp2p.Host) : Prop where
  counted : Counted config host
  attempts : Attempts host
  openEvents : OpenEvents host
  dialEvents : DialEvents host
  closeEvents : CloseEvents host
  settled : Settled host

namespace Consistent

theorem started : Consistent config started :=
  ⟨.started, .started, .started, .started, .started, .started⟩

/-- A released stream leaves its open to its event. -/
theorem drop_opened (h : Consistent config host) {s : Nat}
    (hopen : (host.streams s).state = .opened) : hostStreamDrop s host = freeStreamSlot s host := by
  apply hostStreamDrop_eq
  intro o ho
  rcases (h.attempts.linked s o ho).2.2 with ⟨hnegotiating, -⟩ | ⟨-, hevented⟩
  · rw [hopen] at hnegotiating
    cases hnegotiating
  · exact hevented

theorem inbound_attempt (h : Consistent config host) {s : Nat}
    (hdirection : (host.streams s).direction = .inbound) : (host.streams s).openAttempt = none := by
  cases hattempt : (host.streams s).openAttempt with
  | none => rfl
  | some o =>
    have hlinked := (h.attempts.linked s o hattempt).2.1
    rw [hdirection] at hlinked
    cases hlinked

theorem drop_inbound (h : Consistent config host) {s : Nat}
    (hdirection : (host.streams s).direction = .inbound) :
    hostStreamDrop s host = freeStreamSlot s host := by
  apply hostStreamDrop_eq
  intro o ho
  rw [h.inbound_attempt hdirection] at ho
  cases ho

/-- The open of a stream that is negotiated is negotiated. -/
theorem attempt_negotiating (h : Consistent config host) {s o : Nat}
    (hnegotiating : (host.streams s).state = .negotiating)
    (hattempt : (host.streams s).openAttempt = some o) : (host.opens o).state = .negotiating := by
  rcases (h.attempts.linked s o hattempt).2.2 with ⟨-, hopen⟩ | ⟨hopen, -⟩
  · exact hopen
  · rw [hnegotiating] at hopen
    cases hopen

end Consistent

/-- An open with its event queued, and its stream released. -/
theorem drop_evented {s o : Nat} {event : HostEvent}
    (hattempt : (host.streams s).openAttempt = some o) :
    hostStreamDrop s (pushEvent event (setOpenState o .evented host)) =
      freeStreamSlot s (pushEvent event (setOpenState o .evented host)) := by
  apply hostStreamDrop_eq
  intro o' ho'
  cases hattempt.symm.trans ho'
  show (Function.update host.opens o _ o).state = .evented
  rw [Function.update_self]

theorem drop_cancelled {s : Nat} :
    hostStreamDrop s (updateStream s (fun stream => { stream with openAttempt := none }) host) =
      freeStreamSlot s
        (updateStream s (fun stream => { stream with openAttempt := none }) host) := by
  apply hostStreamDrop_eq
  intro o ho
  have hnone : (Function.update host.streams s { host.streams s with openAttempt := none }
    s).openAttempt = some o := ho
  rw [Function.update_self] at hnone
  cases hnone

theorem cancelled_used {o : Nat} (s : Nat) (hopen : (host.opens o).state = .negotiating) :
    ((freeStreamSlot s (updateStream s (fun stream =>
      { stream with openAttempt := none }) host)).opens o).state ≠ .free := by
  show (host.opens o).state ≠ _
  rw [hopen]
  rintro ⟨⟩

/-- Two changes of one slot are the second one. -/
theorem setStream_setStream (s : Nat) (stream stream' : Stream) :
    setStream s stream (setStream s stream' host) = setStream s stream host := by
  unfold setStream
  rw [Function.update_idem]

/-- The open that waits. -/
theorem waitOpen_spec {o i protocol userData : Nat} {fallbackProtocol : Option Nat}
    (hhost' : host' = waitOpen o i protocol fallbackProtocol userData host) :
    (host'.opens o).state = .waitTransport ∧ (host'.opens o).conn = i ∧
      (host'.opens o).protocol = protocol ∧
      (host'.conns i).streamCount = (host.conns i).streamCount := by
  have hopens : host'.opens = Function.update host.opens o
      { state := .waitTransport
        conn := i
        transportConn := (host.conns i).transportConn
        protocol := protocol
        fallbackProtocol := fallbackProtocol
        userData := userData } := by
    rw [hhost']
    rfl
  have hconns : host'.conns = Function.update host.conns i
      { host.conns i with openCount := (host.conns i).openCount + 1 } := by
    rw [hhost']
    rfl
  rw [hopens, hconns, Function.update_self, Function.update_self]
  exact ⟨rfl, rfl, rfl, rfl⟩

namespace Counted

variable (h : Counted config host)

include h

/-- `host_conn_alloc`. -/
theorem allocConn {transportConn i : Nat}
    (hslot : ConnSlot config transportConn host i notes host') : Counted config host' := by
  cases hslot with
  | known => exact h
  | new hnone hfree =>
    rcases findSlot_some hfree with ⟨hlt, hinactive⟩
    have hactive : (host.conns i).active ≠ true := by simpa using hinactive
    have hstreams : (host.conns i).streamCount = 0 := by
      rw [h.streamCount]
      by_contra hne
      rcases List.countP_pos_iff.mp (Nat.pos_of_ne_zero hne) with ⟨s, -, hs⟩
      rcases used_of_streamConn (beq_iff_eq.mp hs) with ⟨hused, rfl⟩
      exact hactive (h.streamActive s hused)
    have hopens : (host.conns i).openCount = 0 := by
      rw [h.openCount]
      by_contra hne
      rcases List.countP_pos_iff.mp (Nat.pos_of_ne_zero hne) with ⟨o, -, ho⟩
      rcases used_of_openConn (beq_iff_eq.mp ho) with ⟨hused, rfl⟩
      exact hactive (h.openActive o hused)
    exact h.setConn hstreams.symm hopens.symm (fun _ => hlt) fun htrue => absurd htrue hactive

theorem answerDial {attempt : Nat} {dial : Option Nat}
    (hslot : DialSlot config attempt host dial host') : Counted config host' := by
  cases hslot with
  | found => exact h.congr rfl rfl rfl
  | none => exact h

/-- `host_stream_alloc`. -/
theorem allocStream {s i : Nat} {stream : Stream} (hfree : freeStream config host = some s)
    (hactive : (host.conns i).active = true)
    (hcount : (host.conns i).streamCount < config.maxStreamsPerConn) (hstate : stream.state ≠ .free)
    (hconn : stream.conn = i) :
    Counted config (Host.setConn i
      { host.conns i with streamCount := (host.conns i).streamCount + 1 }
      (Host.setStream s stream host)) := by
  rcases findSlot_some hfree with ⟨hlt, hstate'⟩
  have hs : (host.streams s).state = .free := beq_iff_eq.mp hstate'
  apply h.countStream hlt hactive
  · exact fun _ => hconn
  · exact fun hne => absurd hs hne
  · rw [if_pos hs, if_neg hstate]
  · exact hcount

/-- A new open. -/
theorem waitOpen {o i protocol userData : Nat} {fallbackProtocol : Option Nat}
    (hfree : freeOpen config host = some o) (hactive : (host.conns i).active = true) :
    Counted config (Host.waitOpen o i protocol fallbackProtocol userData host) := by
  rcases findSlot_some hfree with ⟨hlt, hstate⟩
  have ho : (host.opens o).state = .free := beq_iff_eq.mp hstate
  apply h.countOpen hlt hactive
  · exact fun _ => rfl
  · exact fun hne => absurd ho hne
  · rw [if_pos ho, if_neg (by rintro ⟨⟩)]

/-- The stream of an open. -/
theorem startStream {o transportStream s : Nat} (hwaits : (host.opens o).state = .waitTransport)
    (hhost' : host' = startOpen o transportStream host)
    (hcount : (host.conns (host.opens o).conn).streamCount < config.maxStreamsPerConn)
    (hfree : freeStream config host = some s) (stream : Stream) (hstate : stream.state ≠ .free)
    (hconn : stream.conn = (host.opens o).conn) :
    Counted config (Host.setConn (host.opens o).conn
      { host.conns (host.opens o).conn with
        streamCount := (host.conns (host.opens o).conn).streamCount + 1 }
      (Host.setStream s stream host')) := by
  subst hhost'
  have hused : (host.opens o).state ≠ .free := by
    rw [hwaits]
    rintro ⟨⟩
  have hopen : Counted config (startOpen o transportStream host) :=
    h.setOpen (by rintro ⟨⟩) hused rfl
  exact hopen.allocStream hfree (h.openActive o hused) hcount hstate hconn

/-- What taking an event frees. -/
theorem releaseDial (dial : Option Nat) :
    Counted config (Host.releaseDial dial host) := by
  cases dial with
  | none => exact h
  | some d => exact h.congr rfl rfl rfl

theorem forgetOpen (hattempts : Attempts host) (stream : Option Nat) (o : Nat) :
    Counted config (Host.forgetOpen stream o host) := by
  cases stream with
  | none => exact h
  | some s =>
    unfold Host.forgetOpen
    dsimp only
    by_cases hattempt : (host.streams s).openAttempt = some o
    · rw [if_pos hattempt]
      have hused : (host.streams s).state ≠ .free := by
        rcases (hattempts.linked s o hattempt).2.2 with ⟨hs, -⟩ | ⟨hs, -⟩
        · rw [hs]
          rintro ⟨⟩
        · rw [hs]
          rintro ⟨⟩
      exact h.setStream hused hused rfl
    · rw [if_neg hattempt]
      exact h

theorem releaseEvent (hattempts : Attempts host) (event : HostEvent) :
    Counted config (Host.releaseEvent event host) := by
  have hdial := h.releaseDial event.dial?
  have hattempts' : Attempts (Host.releaseDial event.dial? host) := by
    cases event.dial? with
    | none => exact hattempts
    | some d =>
      exact hattempts.congr (fun _ => ⟨rfl, rfl, rfl, rfl, rfl, rfl, rfl, fun _ => rfl⟩)
        fun _ => ⟨rfl, rfl⟩
  unfold Host.releaseEvent
  dsimp only
  cases event.streamOpen? with
  | none => exact hdial
  | some o => exact (hdial.forgetOpen hattempts' event.stream? o).openRelease o

end Counted

/-- Every step keeps the counts. -/
theorem HostStep.counted (hstep : HostStep config host notes host') (h : Consistent config host) :
    Counted config host' := by
  have hcounted := h.counted
  cases hstep with
  | cursors => exact hcounted.congr rfl rfl rfl
  | streamData hused hrole => exact hcounted.setStream (hrole.state ▸ hused) hused hrole.conn
  | openData hused =>
    exact hcounted.setOpen (by rw [hused]; rintro ⟨⟩) (by rw [hused]; rintro ⟨⟩) rfl
  | takes => exact hcounted
  | @readable transportStream s hfound =>
    have hused : (host.streams s).state ≠ .free := by
      have hslot := (findSlot_some hfound).2
      intro hfree
      rw [hfree] at hslot
      cases hslot
    exact hcounted.setStream hused hused rfl
  | establishes hslot hdial => exact ((hcounted.allocConn hslot).answerDial hdial).congr rfl rfl rfl
  | dialFails => exact hcounted.congr rfl rfl rfl
  | accepts hconn hopen hcount hfree =>
    have hactive := (Bool.and_eq_true_iff.mp (findSlot_some hconn).2).1
    exact hcounted.allocStream hfree hactive hcount (by rintro ⟨⟩) rfl
  | @calls s kind stream notes hopen hrole =>
    have hused : (host.streams s).state ≠ .free := by rw [hopen]; rintro ⟨⟩
    exact hcounted.setStream (hrole.state ▸ hused) hused hrole.conn
  | ends hopen =>
    rw [h.drop_opened hopen]
    exact hcounted.freeStreamSlot (by rw [hopen]; rintro ⟨⟩)
  | waits hfree hconn => exact hcounted.waitOpen hfree hconn
  | opensNothing hfree => exact hcounted.clearOpen hfree
  | starts hwaits hhost' hcount hfree =>
    exact hcounted.startStream hwaits hhost' hcount hfree _ (by rintro ⟨⟩) rfl
  | @opensAtOnce host' _ _ _ _ _ _ _ _ _ hfree hconn hopen hhost' hhost'' hcount hstream =>
    have hwait : Counted config host' := hhost' ▸ hcounted.waitOpen hfree hconn
    rcases waitOpen_spec hhost' with ⟨hwaits, hopenConn, -, hstreams⟩
    have hstart := fun stream => hwait.startStream hwaits hhost''
      (by rw [hopenConn, hstreams]; exact hcount) (by rw [hhost']; exact hstream) stream
    rw [hopenConn] at hstart
    subst hhost''
    exact hstart _ (by rintro ⟨⟩) rfl
  | @openFails host' k o transportStream reason hwaits hhost' =>
    subst hhost'
    have hset : Counted config (setOpen o { host.opens o with
        transportStream := transportStream, state := .evented } host) :=
      hcounted.setOpen (by rintro ⟨⟩) (by rw [hwaits]; rintro ⟨⟩) rfl
    exact hset.congr rfl rfl rfl
  | completesInbound hnegotiating hdirection hrole =>
    have hstate : _ = StreamState.opened := hrole.state
    exact hcounted.setStream (by rw [hstate]; rintro ⟨⟩) (by rw [hnegotiating]; rintro ⟨⟩) hrole.conn
  | @completesOutbound k s o stream hnegotiating hdirection hattempt hrole =>
    have hstate : stream.state = StreamState.opened := hrole.state
    have hopen := h.attempt_negotiating hnegotiating hattempt
    have hevented : Counted config (setOpenState o .evented host) :=
      hcounted.setOpen (by rintro ⟨⟩) (by rw [hopen]; rintro ⟨⟩) rfl
    have hset : Counted config (setStream s stream (setOpenState o .evented host)) :=
      hevented.setStream (by rw [hstate]; rintro ⟨⟩)
        (by show (host.streams s).state ≠ _; rw [hnegotiating]; rintro ⟨⟩) hrole.conn
    exact hset.congr rfl rfl rfl
  | failsInbound hnegotiating hdirection =>
    rw [h.drop_inbound hdirection]
    exact hcounted.freeStreamSlot (by rw [hnegotiating]; rintro ⟨⟩)
  | @failsOutbound k s o notes reason _ _ hnegotiating hdirection hattempt =>
    have hopen := h.attempt_negotiating hnegotiating hattempt
    have hevented : Counted config (setOpenState o .evented host) :=
      hcounted.setOpen (by rintro ⟨⟩) (by rw [hopen]; rintro ⟨⟩) rfl
    rw [drop_evented hattempt]
    apply Counted.freeStreamSlot
    · exact hevented.congr rfl rfl rfl
    · show (host.streams s).state ≠ _
      rw [hnegotiating]
      rintro ⟨⟩
  | @connCloses k i _ _ _ hactive hopen =>
    have hset : Counted config (setConn i
        { host.conns i with closed := true, closeEventPending := true } host) :=
      hcounted.setConn rfl rfl (fun _ => hcounted.connSlot _ hactive) fun _ => .inl hactive
    exact hset.congr rfl rfl rfl
  | recycles hidle =>
    exact hcounted.setConn hidle.2.2.2.1.symm hidle.2.2.2.2.symm (by rintro ⟨⟩)
      fun _ => .inr ⟨hidle.2.2.2.1, hidle.2.2.2.2⟩
  | cancelsWaiting => exact hcounted.openRelease _
  | @cancelsStream o s hopen hused hattempt =>
    have hset : Counted config
        (updateStream s (fun stream => { stream with openAttempt := none }) host) :=
      hcounted.setStream hused hused rfl
    rw [drop_cancelled]
    apply Counted.openRelease
    apply hset.freeStreamSlot
    show (Function.update host.streams s { host.streams s with openAttempt := none } s).state ≠ _
    rw [Function.update_self]
    exact hused
  | @pops event events hevents =>
    have hrest : Counted config { host with events := events } := hcounted.congr rfl rfl rfl
    have hattempts : Attempts { host with events := events } :=
      h.attempts.congr (fun _ => ⟨rfl, rfl, rfl, rfl, rfl, rfl, rfl, fun _ => rfl⟩)
        fun _ => ⟨rfl, rfl⟩
    have hrelease := hrest.releaseEvent hattempts event
    cases event.closedConn? with
    | none => exact hrelease
    | some i =>
      exact hrelease.setConn rfl rfl (fun hactive => hrelease.connSlot i hactive)
        fun hactive => .inl hactive
  | dials => exact hcounted.congr rfl rfl rfl
  | dialsNothing => exact hcounted.congr rfl rfl rfl
  | shuts => exact hcounted.congr rfl rfl rfl
  | asks hactive =>
    exact hcounted.setConn rfl rfl (fun _ => hcounted.connSlot _ hactive) fun _ => .inl hactive
  | closeReturns => exact hcounted
  | completes => exact hcounted.congr rfl rfl rfl

/-! ## Opens and their streams -/

theorem Stream.SameRole.refl (stream : Stream) : stream.SameRole stream :=
  ⟨rfl, rfl, rfl, rfl, rfl, rfl, rfl, fun _ => rfl⟩

/-- A stream that is replaced by one of the same role leaves all roles as they are. -/
theorem sameRole_setStream {s : Nat} {stream : Stream} (h : (host.streams s).SameRole stream)
    (s' : Nat) : (host.streams s').SameRole ((setStream s stream host).streams s') := by
  show (host.streams s').SameRole (Function.update host.streams s stream s')
  by_cases heq : s' = s
  · rw [heq, Function.update_self]
    exact h
  · rw [Function.update_of_ne heq]
    exact .refl _

/-- A table whose streams and opens are as before. -/
theorem Attempts.of_same (h : Attempts host) (hstreams : host'.streams = host.streams)
    (hopens : host'.opens = host.opens) : Attempts host' :=
  h.congr (fun s => by rw [hstreams]; exact .refl _) fun o => by rw [hopens]; exact ⟨rfl, rfl⟩

/-- `host_open_release`, by tables. -/
theorem hostOpenRelease_spec {o : Nat} (hused : (host.opens o).state ≠ .free) :
    (hostOpenRelease o host).opens = Function.update host.opens o {} ∧
      (hostOpenRelease o host).streams = host.streams ∧
      (hostOpenRelease o host).dials = host.dials ∧
      (hostOpenRelease o host).events = host.events ∧
      ∀ i, ((hostOpenRelease o host).conns i).active = (host.conns i).active ∧
        ((hostOpenRelease o host).conns i).closed = (host.conns i).closed ∧
        ((hostOpenRelease o host).conns i).closeEventPending =
          (host.conns i).closeEventPending := by
  unfold hostOpenRelease
  rw [if_neg hused]
  refine ⟨rfl, rfl, rfl, rfl, fun i => ?_⟩
  show (Function.update host.conns _ _ i).active = _ ∧ (Function.update host.conns _ _ i).closed = _ ∧
    (Function.update host.conns _ _ i).closeEventPending = _
  by_cases heq : i = (host.opens o).conn
  · rw [heq, Function.update_self]
    exact ⟨rfl, rfl, rfl⟩
  · rw [Function.update_of_ne heq]
    exact ⟨rfl, rfl, rfl⟩

theorem freeStream_state {s : Nat} (hfree : freeStream config host = some s) :
    (host.streams s).state = .free := beq_iff_eq.mp (findSlot_some hfree).2

theorem freeOpen_state {o : Nat} (hfree : freeOpen config host = some o) :
    (host.opens o).state = .free := beq_iff_eq.mp (findSlot_some hfree).2

theorem Attempts.free_attempt (h : Attempts host) {s : Nat} (hfree : (host.streams s).state = .free)
    (o : Nat) : (host.streams s).openAttempt ≠ some o := by
  intro ho
  rcases (h.linked s o ho).2.2 with ⟨hs, -⟩ | ⟨hs, -⟩
  · rw [hfree] at hs
    cases hs
  · rw [hfree] at hs
    cases hs

/-- The stream of an open that waited. -/
theorem Attempts.startStream (h : Attempts host) {o transportStream s : Nat} {protocol : Option Nat}
    (hwaits : (host.opens o).state = .waitTransport)
    (hfree : freeStream config host = some s) (hhost' : host' = startOpen o transportStream host)
    (conn : Conn) :
    Attempts (setConn (host.opens o).conn conn (Host.setStream s (freshStream (host.opens o).conn
      transportStream .outbound protocol (some o) host') host')) := by
  subst hhost'
  apply h.setBoth rfl rfl rfl
  · exact ⟨rfl, rfl, .inl ⟨rfl, rfl⟩⟩
  · exact fun _ => ⟨rfl, rfl⟩
  · intro s' _
    apply h.attempt_ne
    · rw [hwaits]
      rintro ⟨⟩
    · rw [hwaits]
      rintro ⟨⟩
  · exact fun o' _ => h.free_attempt (freeStream_state hfree) o'

/-- The open that waits. -/
theorem Attempts.waitOpen (h : Attempts host) {o i protocol userData : Nat}
    {fallbackProtocol : Option Nat} (hfree : freeOpen config host = some o) :
    Attempts (Host.waitOpen o i protocol fallbackProtocol userData host) := by
  refine h.setOpen rfl rfl (by rintro ⟨⟩) (h.attempt_ne ?_ ?_)
  · rw [freeOpen_state hfree]
    rintro ⟨⟩
  · rw [freeOpen_state hfree]
    rintro ⟨⟩

/-- A queued STREAM_OPENED event is the one of the only stream that still has the open. -/
theorem Consistent.forgetOpen (h : Consistent config host) {event : HostEvent} {o : Nat}
    (hmem : event ∈ host.events) (hevent : event.streamOpen? = some o) :
    Attempts (Host.forgetOpen event.stream? o host) ∧
      (∀ s, ((Host.forgetOpen event.stream? o host).streams s).openAttempt ≠ some o) ∧
      ∀ s o', ((Host.forgetOpen event.stream? o host).streams s).openAttempt = some o' →
        (host.streams s).openAttempt = some o' := by
  have hevented : (host.opens o).state = .evented := h.openEvents.tracks.of_mem hmem hevent
  have hnames := fun s ho => h.openEvents.stream s o ho event hmem hevent
  unfold Host.forgetOpen
  cases hstream : event.stream? with
  | none =>
    refine ⟨h.attempts, fun s ho => ?_, fun s o' ho => ho⟩
    have hsome := hnames s ho
    rw [hstream] at hsome
    cases hsome
  | some s =>
    dsimp only
    by_cases hattempt : (host.streams s).openAttempt = some o
    · rw [if_pos hattempt]
      have hopened : (host.streams s).state = .opened := by
        rcases (h.attempts.linked s o hattempt).2.2 with ⟨-, hopen⟩ | ⟨hopened, -⟩
        · rw [hevented] at hopen
          cases hopen
        · exact hopened
      have hother : ∀ s' o', ((updateStream s (fun stream => { stream with openAttempt := none })
          host).streams s').openAttempt = some o' →
          s' ≠ s ∧ (host.streams s').openAttempt = some o' := by
        intro s' o' ho'
        have ho'' : (Function.update host.streams s { host.streams s with openAttempt := none }
          s').openAttempt = some o' := ho'
        by_cases heq : s' = s
        · rw [heq, Function.update_self] at ho''
          cases ho''
        · rw [Function.update_of_ne heq] at ho''
          exact ⟨heq, ho''⟩
      refine ⟨h.attempts.setStream rfl rfl (.inr (.inl hopened)) rfl ?_, ?_, ?_⟩
      · intro o' ho'
        cases hattempt.symm.trans ho'
        rw [hevented]
        rintro ⟨⟩
      · intro s' ho'
        rcases hother s' o ho' with ⟨hne, hold⟩
        exact hne (h.attempts.unique s' s o hold hattempt)
      · exact fun s' o' ho' => (hother s' o' ho').2
    · rw [if_neg hattempt]
      refine ⟨h.attempts, fun s' ho' => ?_, fun s' o' ho' => ho'⟩
      have hsome := hnames s' ho'
      rw [hstream] at hsome
      cases hsome
      exact hattempt ho'

/-- Taking the first event, by tables. -/
structure Popped (host : LeanLibp2p.Host) (event : HostEvent) (events : List HostEvent)
    (host' : LeanLibp2p.Host) : Prop where
  events : host'.events = events
  attempts : Attempts host'
  openAttempt : ∀ s o, (host'.streams s).openAttempt = some o →
    (host.streams s).openAttempt = some o
  opens : host'.opens = match event.streamOpen? with
    | some o => Function.update host.opens o {}
    | none => host.opens
  dials : host'.dials = match event.dial? with
    | some d => Function.update host.dials d { host.dials d with state := .free }
    | none => host.dials
  conns : ∀ i, (host'.conns i).active = (host.conns i).active ∧
    (host'.conns i).closed = (host.conns i).closed ∧
    (host'.conns i).closeEventPending = (host.conns i).closeEventPending

theorem releaseDial_spec (dial : Option Nat) :
    (releaseDial dial host).dials = (match dial with
        | some d => Function.update host.dials d { host.dials d with state := .free }
        | none => host.dials) ∧
      (releaseDial dial host).streams = host.streams ∧ (releaseDial dial host).opens = host.opens ∧
      (releaseDial dial host).events = host.events ∧ (releaseDial dial host).conns = host.conns := by
  cases dial with
  | none => exact ⟨rfl, rfl, rfl, rfl, rfl⟩
  | some d => exact ⟨rfl, rfl, rfl, rfl, rfl⟩

theorem forgetOpen_spec (stream : Option Nat) (o : Nat) :
    (forgetOpen stream o host).dials = host.dials ∧ (forgetOpen stream o host).opens = host.opens ∧
      (forgetOpen stream o host).events = host.events ∧
      (forgetOpen stream o host).conns = host.conns := by
  cases stream with
  | none => exact ⟨rfl, rfl, rfl, rfl⟩
  | some s =>
    unfold forgetOpen
    dsimp only
    split
    · exact ⟨rfl, rfl, rfl, rfl⟩
    · exact ⟨rfl, rfl, rfl, rfl⟩

/-- Taking an event whose open is evented. -/
theorem Consistent.popped (h : Consistent config host) {event : HostEvent} {events : List HostEvent}
    (hevents : host.events = event :: events) :
    Popped host event events (releaseEvent event { host with events := events }) := by
  rcases @releaseDial_spec { host with events := events } event.dial? with
    ⟨hdials, hstreams, hopens, hqueue, hconns⟩
  unfold releaseEvent
  dsimp only
  generalize releaseDial event.dial? { host with events := events } = dialed at *
  cases hevent : event.streamOpen? with
  | none =>
    exact ⟨hqueue, h.attempts.of_same hstreams hopens, fun s o ho => by rwa [hstreams] at ho,
      by rw [hevent]; exact hopens, hdials, fun i => by rw [hconns]; exact ⟨rfl, rfl, rfl⟩⟩
  | some o =>
    have hmem : event ∈ host.events := by rw [hevents]; exact List.mem_cons_self
    have hevented : (host.opens o).state = .evented := h.openEvents.tracks.of_mem hmem hevent
    have hforget : Host.forgetOpen event.stream? o dialed =
        { Host.forgetOpen event.stream? o host with
          dials := dialed.dials, events := dialed.events, state := dialed.state
          openCursor := dialed.openCursor, negotiationCursor := dialed.negotiationCursor
          protocolCursor := dialed.protocolCursor
          hostClosedEventQueued := dialed.hostClosedEventQueued
          closeAppErrorCode := dialed.closeAppErrorCode } := by
      rcases dialed with ⟨_, conns, streams, _, opens⟩
      cases hstreams
      cases hopens
      cases hconns
      unfold Host.forgetOpen updateStream setStream
      cases event.stream? with
      | none => rfl
      | some s =>
        dsimp only
        split
        · rfl
        · rfl
    rcases h.forgetOpen hmem hevent with ⟨hattempts, hnone, hold⟩
    have hattempts' : Attempts (Host.forgetOpen event.stream? o dialed) := by
      rw [hforget]
      exact hattempts.of_same rfl rfl
    rcases @forgetOpen_spec dialed event.stream? o with ⟨hfdials, hfopens, hfevents, hfconns⟩
    have hused : ((Host.forgetOpen event.stream? o dialed).opens o).state ≠ .free := by
      rw [hfopens, hopens, hevented]
      rintro ⟨⟩
    rcases hostOpenRelease_spec hused with ⟨hropens, hrstreams, hrdials, hrevents, hrconns⟩
    refine ⟨hrevents.trans (hfevents.trans hqueue), ?_, ?_, ?_, ?_, ?_⟩
    · refine hattempts'.setOpen hrstreams hropens (by rintro ⟨⟩) fun s => ?_
      rw [hforget]
      exact hnone s
    · intro s o' ho'
      rw [hrstreams, hforget] at ho'
      exact hold s o' ho'
    · rw [hevent, hropens, hfopens, hopens]
    · rw [hrdials, hfdials, hdials]
    · intro i
      rw [(hrconns i).1, (hrconns i).2.1, (hrconns i).2.2, hfconns, hconns]
      exact ⟨rfl, rfl, rfl⟩

/-- Every step keeps opens and streams together. -/
theorem HostStep.attempts (hstep : HostStep config host notes host') (h : Consistent config host) :
    Attempts host' := by
  have hattempts := h.attempts
  cases hstep with
  | cursors => exact hattempts.of_same rfl rfl
  | streamData hused hrole => exact hattempts.congr (sameRole_setStream hrole) fun _ => ⟨rfl, rfl⟩
  | @openData o protocol fallbackProtocol hused =>
    refine hattempts.congr (fun _ => .refl _) fun o' => ?_
    show (Function.update host.opens o _ o').state = _ ∧ (Function.update host.opens o _ o').conn = _
    by_cases heq : o' = o
    · rw [heq, Function.update_self]
      exact ⟨rfl, rfl⟩
    · rw [Function.update_of_ne heq]
      exact ⟨rfl, rfl⟩
  | takes => exact hattempts
  | readable =>
    exact hattempts.congr
      (sameRole_setStream ⟨rfl, rfl, rfl, rfl, rfl, rfl, rfl, fun _ => rfl⟩) fun _ => ⟨rfl, rfl⟩
  | establishes hslot hdial =>
    cases hslot <;> cases hdial <;> exact hattempts.of_same rfl rfl
  | dialFails => exact hattempts.of_same rfl rfl
  | accepts hconn hopen hcount hfree =>
    exact hattempts.setStream rfl rfl (.inr (.inr ⟨rfl, rfl, rfl, rfl⟩)) rfl fun o ho =>
      absurd ho (hattempts.free_attempt (freeStream_state hfree) o)
  | calls hopen hrole => exact hattempts.congr (sameRole_setStream hrole) fun _ => ⟨rfl, rfl⟩
  | @ends s _ hopen =>
    rw [h.drop_opened hopen]
    refine hattempts.setStream rfl rfl (.inl rfl) rfl fun o ho => ?_
    rcases (hattempts.linked s o ho).2.2 with ⟨hnegotiating, -⟩ | ⟨-, hevented⟩
    · rw [hopen] at hnegotiating
      cases hnegotiating
    · rw [hevented]
      rintro ⟨⟩
  | waits hfree => exact hattempts.waitOpen hfree
  | @opensNothing o hfree =>
    refine hattempts.setOpen rfl rfl (by rintro ⟨⟩) (hattempts.attempt_ne ?_ ?_)
    · rw [hfree]
      rintro ⟨⟩
    · rw [hfree]
      rintro ⟨⟩
  | starts hwaits hhost' hcount hfree => exact hattempts.startStream hwaits hfree hhost' _
  | @opensAtOnce host' _ _ _ _ _ _ _ _ _ hfree hconn hopen hhost' hhost'' hcount hstream =>
    have hwait : Attempts host' := hhost' ▸ hattempts.waitOpen hfree
    rcases waitOpen_spec hhost' with ⟨hwaits, hopenConn, -, -⟩
    have hstart := fun protocol => @Attempts.startStream _ config _ _ hwait _ _ _ protocol hwaits
      (by rw [hhost']; exact hstream) hhost''
    rw [hopenConn] at hstart
    exact hstart _ _
  | @openFails host' k o transportStream reason hwaits hhost' =>
    subst hhost'
    refine hattempts.setOpen rfl rfl (by rintro ⟨⟩) (hattempts.attempt_ne ?_ ?_)
    · rw [hwaits]
      rintro ⟨⟩
    · rw [hwaits]
      rintro ⟨⟩
  | completesInbound hnegotiating hdirection hrole =>
    refine hattempts.setStream rfl rfl (.inr (.inl hrole.state))
      (hrole.openAttempt.trans (h.inbound_attempt hdirection)) fun o ho => ?_
    rw [h.inbound_attempt hdirection] at ho
    cases ho
  | @completesOutbound k s o stream hnegotiating hdirection hattempt hrole =>
    refine hattempts.setBoth rfl rfl (hrole.openAttempt.trans hattempt) ⟨?_, ?_, .inr ⟨?_, rfl⟩⟩
      (fun hn => ?_) (fun s' hne ho' => ?_) fun o' hne ho' => ?_
    · exact (hattempts.linked s o hattempt).1.trans hrole.conn.symm
    · exact hrole.direction.trans hdirection
    · exact hrole.state
    · cases hn.symm.trans hrole.state
    · exact hne (hattempts.unique s' s o ho' hattempt)
    · exact hne (Option.some.inj (ho'.symm.trans hattempt))
  | failsInbound hnegotiating hdirection =>
    rw [h.drop_inbound hdirection]
    refine hattempts.setStream rfl rfl (.inl rfl) rfl fun o ho => ?_
    rw [h.inbound_attempt hdirection] at ho
    cases ho
  | failsOutbound hnegotiating hdirection hattempt =>
    rw [drop_evented hattempt]
    exact hattempts.release rfl rfl hattempt rfl rfl (by rintro ⟨⟩)
  | connCloses => exact hattempts.of_same rfl rfl
  | recycles => exact hattempts.of_same rfl rfl
  | @cancelsWaiting o hwaits =>
    rcases @hostOpenRelease_spec host o (by rw [hwaits]; rintro ⟨⟩) with ⟨hopens, hstreams, -⟩
    refine hattempts.setOpen hstreams hopens (by rintro ⟨⟩) (hattempts.attempt_ne ?_ ?_)
    · rw [hwaits]
      rintro ⟨⟩
    · rw [hwaits]
      rintro ⟨⟩
  | @cancelsStream o s hopen hused hattempt =>
    rw [drop_cancelled]
    rcases hostOpenRelease_spec (cancelled_used s hopen) with ⟨hopens, hstreams, -⟩
    have hupdate : (freeStreamSlot s (updateStream s (fun stream =>
        { stream with openAttempt := none }) host)).streams = Function.update host.streams s {} :=
      Function.update_idem ..
    exact hattempts.release (hstreams.trans hupdate) hopens hattempt rfl rfl (by rintro ⟨⟩)
  | @pops event events hevents =>
    have hpopped := (h.popped hevents).attempts
    cases event.closedConn? with
    | none => exact hpopped
    | some i => exact hpopped.of_same rfl rfl
  | dials => exact hattempts.of_same rfl rfl
  | dialsNothing => exact hattempts.of_same rfl rfl
  | shuts => exact hattempts.of_same rfl rfl
  | asks => exact hattempts.of_same rfl rfl
  | closeReturns => exact hattempts
  | completes => exact hattempts.of_same rfl rfl

/-! ## Opens and their events -/

/-- The streams that have an open after a slot was emptied had it before. -/
theorem openAttempt_of_freed {s s' o : Nat} {stream : Stream} (hnone : stream.openAttempt = none)
    (ho : ((setStream s stream host).streams s').openAttempt = some o) :
    s' ≠ s ∧ (host.streams s').openAttempt = some o := by
  have ho' : (Function.update host.streams s stream s').openAttempt = some o := ho
  by_cases heq : s' = s
  · rw [heq, Function.update_self, hnone] at ho'
    cases ho'
  · rw [Function.update_of_ne heq] at ho'
    exact ⟨heq, ho'⟩

/-- The open that waits. -/
theorem OpenEvents.waitOpen (h : OpenEvents host) {o i protocol userData : Nat}
    {fallbackProtocol : Option Nat} (hfree : freeOpen config host = some o) :
    OpenEvents (Host.waitOpen o i protocol fallbackProtocol userData host) := by
  refine h.setOpen rfl rfl ?_ (by rintro ⟨⟩) fun s o' ho => .inl ho
  rw [freeOpen_state hfree]
  rintro ⟨⟩

/-- The stream of an open that waited. -/
theorem OpenEvents.startStream (h : OpenEvents host) {o transportStream s i : Nat}
    {protocol : Option Nat} (hwaits : (host.opens o).state = .waitTransport)
    (hhost' : host' = startOpen o transportStream host) (conn : Conn) :
    OpenEvents (setConn i conn (Host.setStream s (freshStream i transportStream .outbound protocol
      (some o) host') host')) := by
  subst hhost'
  refine h.setOpen (o := o) rfl rfl ?_ (by rintro ⟨⟩) fun s' o' ho => ?_
  · rw [hwaits]
    rintro ⟨⟩
  · have ho' : (Function.update host.streams s (freshStream i transportStream .outbound protocol
        (some o) (startOpen o transportStream host)) s').openAttempt = some o' := ho
    by_cases heq : s' = s
    · rw [heq, Function.update_self] at ho'
      exact .inr (Option.some.inj ho').symm
    · rw [Function.update_of_ne heq] at ho'
      exact .inl ho'

/-- Every step keeps opens and their events together. -/
theorem HostStep.openEvents (hstep : HostStep config host notes host')
    (h : Consistent config host) : OpenEvents host' := by
  have hevents := h.openEvents
  cases hstep with
  | cursors => exact hevents.same rfl rfl rfl
  | streamData hused hrole => exact hevents.setStream rfl rfl rfl (.inr hrole.openAttempt)
  | @openData o protocol fallbackProtocol hused =>
    refine hevents.setOpen rfl rfl ?_ ?_ fun _ _ => .inl
    · rw [hused]
      rintro ⟨⟩
    · show (host.opens o).state ≠ _
      rw [hused]
      rintro ⟨⟩
  | takes => exact hevents
  | readable => exact hevents.setStream rfl rfl rfl (.inr rfl)
  | establishes hslot hdial =>
    apply OpenEvents.push
    · cases hslot <;> cases hdial <;>
        exact hevents.same rfl rfl rfl
    · rfl
  | dialFails =>
    apply OpenEvents.push
    · exact hevents.same rfl rfl rfl
    · rfl
  | accepts => exact hevents.setStream rfl rfl rfl (.inl rfl)
  | calls hopen hrole => exact hevents.setStream rfl rfl rfl (.inr hrole.openAttempt)
  | ends hopen =>
    rw [h.drop_opened hopen]
    exact hevents.setStream rfl rfl rfl (.inl rfl)
  | waits hfree => exact hevents.waitOpen hfree
  | opensNothing hfree =>
    refine hevents.setOpen rfl rfl ?_ (by rintro ⟨⟩) fun _ _ => .inl
    rw [hfree]
    rintro ⟨⟩
  | starts hwaits hhost' => exact hevents.startStream hwaits hhost' _
  | @opensAtOnce host' _ _ _ _ _ _ _ _ _ hfree hconn hopen hhost' hhost'' =>
    have hwait : OpenEvents host' := hhost' ▸ hevents.waitOpen hfree
    exact hwait.startStream (waitOpen_spec hhost').1 hhost'' _
  | @openFails host' k o transportStream reason hwaits hhost' =>
    subst hhost'
    have hnot : (host.opens o).state ≠ .evented := by
      rw [hwaits]
      rintro ⟨⟩
    refine hevents.pushOpen rfl rfl rfl hnot rfl ⟨rfl, rfl⟩ fun s o' ho => ⟨?_, ho⟩
    rintro rfl
    refine absurd ho (h.attempts.attempt_ne ?_ hnot s)
    rw [hwaits]
    rintro ⟨⟩
  | completesInbound hnegotiating hdirection hrole =>
    exact hevents.setStream rfl rfl rfl (.inr hrole.openAttempt)
  | @completesOutbound k s o stream hnegotiating hdirection hattempt hrole =>
    have hopen := h.attempt_negotiating hnegotiating hattempt
    have hconn := (h.attempts.linked s o hattempt).1
    refine hevents.pushOpen rfl rfl rfl (by rw [hopen]; rintro ⟨⟩) rfl ⟨rfl, ?_⟩ fun s' o' ho => ?_
    · exact congrArg some hconn.symm
    · have ho' : (Function.update host.streams s stream s').openAttempt = some o' := ho
      by_cases heq : s' = s
      · rw [heq, Function.update_self] at ho'
        rw [heq]
        exact ⟨fun _ => rfl, hrole.openAttempt.symm.trans ho'⟩
      · rw [Function.update_of_ne heq] at ho'
        refine ⟨?_, ho'⟩
        rintro rfl
        exact absurd (h.attempts.unique s' s o' ho' hattempt) heq
  | failsInbound hnegotiating hdirection =>
    rw [h.drop_inbound hdirection]
    exact hevents.setStream rfl rfl rfl (.inl rfl)
  | @failsOutbound k s o notes reason _ _ hnegotiating hdirection hattempt =>
    have hopen := h.attempt_negotiating hnegotiating hattempt
    have hconn := (h.attempts.linked s o hattempt).1
    rw [drop_evented hattempt]
    refine hevents.pushOpen rfl rfl rfl (by rw [hopen]; rintro ⟨⟩) rfl ⟨rfl, ?_⟩ fun s' o' ho => ?_
    · exact congrArg some hconn.symm
    · rcases @openAttempt_of_freed host _ _ _ _ rfl ho with ⟨hne, hold⟩
      refine ⟨?_, hold⟩
      rintro rfl
      exact absurd (h.attempts.unique s' s o' hold hattempt) hne
  | connCloses =>
    apply OpenEvents.push
    · exact hevents.same rfl rfl rfl
    · rfl
  | recycles => exact hevents.same rfl rfl rfl
  | @cancelsWaiting o hwaits =>
    rcases @hostOpenRelease_spec host o (by rw [hwaits]; rintro ⟨⟩) with
      ⟨hopens, hstreams, -, hqueue, -⟩
    refine hevents.setOpen hqueue hopens ?_ (by rintro ⟨⟩) fun s o' ho => ?_
    · rw [hwaits]
      rintro ⟨⟩
    · rw [hstreams] at ho
      exact .inl ho
  | @cancelsStream o s hopen hused hattempt =>
    rw [drop_cancelled]
    rcases hostOpenRelease_spec (cancelled_used s hopen) with ⟨hopens, hstreams, -, hqueue, -⟩
    refine hevents.setOpen hqueue hopens ?_ (by rintro ⟨⟩) fun s' o' ho => ?_
    · rw [hopen]
      rintro ⟨⟩
    · rw [hstreams] at ho
      exact .inl (openAttempt_of_freed rfl (openAttempt_of_freed rfl ho).2).2
  | @pops event events hqueue =>
    have hpopped := h.popped hqueue
    have hpop := hevents.pop hqueue hpopped.events hpopped.opens hpopped.openAttempt
    cases event.closedConn? with
    | none => exact hpop
    | some i => exact hpop.same rfl rfl rfl
  | dials => exact hevents.same rfl rfl rfl
  | dialsNothing => exact hevents.same rfl rfl rfl
  | shuts => exact hevents.same rfl rfl rfl
  | asks => exact hevents.same rfl rfl rfl
  | closeReturns => exact hevents
  | completes =>
    have hpush : OpenEvents (pushEvent .hostClosed host) := hevents.push rfl
    exact hpush.same rfl rfl rfl

/-! ## Dials and their events -/

/-- A report of a dial is about one that is pending. -/
theorem DialReport.pending {event : TransportEvent} {d : Nat}
    (h : DialReport config host d event) : (host.dials d).state = .pending := by
  have hslot : ∀ attempt, hostDialFind config attempt host = some d →
      (host.dials d).state = .pending := fun attempt hfind =>
    beq_iff_eq.mp (Bool.and_eq_true_iff.mp (findSlot_some hfind).2).1
  cases event with
  | dialFailed attempt => exact hslot attempt h
  | connClosed conn attempt => exact hslot (attempt.getD conn) h.2
  | _ => cases h

/-- Every step keeps dials and their events together. -/
theorem HostStep.dialEvents (hstep : HostStep config host notes host')
    (h : Consistent config host) : DialEvents host' := by
  have hevents := h.dialEvents
  cases hstep with
  | cursors => exact hevents.same rfl rfl
  | streamData => exact hevents.same rfl rfl
  | openData => exact hevents.same rfl rfl
  | takes => exact hevents
  | readable => exact hevents.same rfl rfl
  | @establishes host₁ host₂ k conn i userData userData' attempt dial notes hslot hdial huserData =>
    have hdials : host₁.dials = host.dials := by
      cases hslot with
      | known => rfl
      | new => rfl
    have hevents₁ : DialEvents host₁ := by
      refine hevents.congr ?_ fun d => by rw [hdials]; exact ⟨Iff.rfl, fun _ => rfl⟩
      cases hslot with
      | known => rfl
      | new => rfl
    cases hdial with
    | @found d hfind =>
      have hpending : (host₁.dials d).state = .pending :=
        beq_iff_eq.mp (Bool.and_eq_true_iff.mp (findSlot_some hfind).2).1
      refine hevents₁.pushDial rfl rfl rfl hpending rfl ?_
      show userData' = (host₁.dials d).userData
      rw [hdials]
      exact huserData d rfl
    | none => exact hevents₁.push rfl
  | dialFails hreport => exact hevents.pushDial rfl rfl rfl hreport.pending rfl rfl
  | accepts => exact hevents.same rfl rfl
  | calls => exact hevents.same rfl rfl
  | ends hopen =>
    rw [h.drop_opened hopen]
    exact hevents.same rfl rfl
  | waits => exact hevents.same rfl rfl
  | opensNothing => exact hevents.same rfl rfl
  | starts _ hhost' =>
    subst hhost'
    exact hevents.same rfl rfl
  | opensAtOnce _ _ _ hhost' hhost'' =>
    subst hhost'' hhost'
    exact hevents.same rfl rfl
  | openFails _ hhost' =>
    subst hhost'
    apply DialEvents.push
    · exact hevents.same rfl rfl
    · rfl
  | completesInbound => exact hevents.same rfl rfl
  | completesOutbound =>
    apply DialEvents.push
    · exact hevents.same rfl rfl
    · rfl
  | failsInbound _ hdirection =>
    rw [h.drop_inbound hdirection]
    exact hevents.same rfl rfl
  | @failsOutbound k s o notes reason appErrorCode transportErrorCode _ _ hattempt =>
    rw [drop_evented hattempt]
    have hpush : DialEvents (pushEvent (.streamOpenFailed (host.streams s).conn (some o)
      (host.opens o).userData reason appErrorCode transportErrorCode) host) := hevents.push rfl
    exact hpush.same rfl rfl
  | connCloses =>
    apply DialEvents.push
    · exact hevents.same rfl rfl
    · rfl
  | recycles => exact hevents.same rfl rfl
  | @cancelsWaiting o hwaits =>
    rcases @hostOpenRelease_spec host o (by rw [hwaits]; rintro ⟨⟩) with ⟨-, -, hdials, hqueue, -⟩
    exact hevents.congr hqueue fun d => by rw [hdials]; exact ⟨Iff.rfl, fun _ => rfl⟩
  | @cancelsStream o s hopen hused hattempt =>
    rw [drop_cancelled]
    rcases hostOpenRelease_spec (cancelled_used s hopen) with ⟨-, -, hdials, hqueue, -⟩
    exact hevents.congr hqueue fun d => by rw [hdials]; exact ⟨Iff.rfl, fun _ => rfl⟩
  | @pops event events hqueue =>
    have hpopped := h.popped hqueue
    have hpop := hevents.pop hqueue hpopped.events hpopped.dials
    cases event.closedConn? with
    | none => exact hpop
    | some i => exact hpop.same rfl rfl
  | dials hfree => exact hevents.setFree rfl rfl (beq_iff_eq.mp (findSlot_some hfree).2) (by rintro ⟨⟩)
  | dialsNothing hfree => exact hevents.setFree rfl rfl hfree (by rintro ⟨⟩)
  | shuts => exact hevents.same rfl rfl
  | asks => exact hevents.same rfl rfl
  | closeReturns => exact hevents
  | completes =>
    have hpush : DialEvents (pushEvent .hostClosed host) := hevents.push rfl
    exact hpush.same rfl rfl

/-! ## Connections and their events -/

/-- The flags of the connections are as before. -/
def SameFlags (host host' : LeanLibp2p.Host) : Prop :=
  ∀ i, (host'.conns i).closeEventPending = (host.conns i).closeEventPending ∧
    (host'.conns i).closed = (host.conns i).closed ∧
    (host'.conns i).active = (host.conns i).active

/-- A connection that only counts differently. -/
theorem sameFlags_setConn {i : Nat} {conn : Conn}
    (hpending : conn.closeEventPending = (host.conns i).closeEventPending)
    (hclosed : conn.closed = (host.conns i).closed)
    (hactive : conn.active = (host.conns i).active) : SameFlags host (setConn i conn host) := by
  intro j
  show (Function.update host.conns i conn j).closeEventPending = _ ∧
    (Function.update host.conns i conn j).closed = _ ∧
    (Function.update host.conns i conn j).active = _
  by_cases heq : j = i
  · rw [heq, Function.update_self]
    exact ⟨hpending, hclosed, hactive⟩
  · rw [Function.update_of_ne heq]
    exact ⟨rfl, rfl, rfl⟩

theorem sameFlags_openRelease (o : Nat) : SameFlags host (hostOpenRelease o host) := by
  unfold hostOpenRelease
  split
  · exact fun _ => ⟨rfl, rfl, rfl⟩
  · exact @sameFlags_setConn host _ _ rfl rfl rfl

theorem SameFlags.trans {host'' : LeanLibp2p.Host} (h : SameFlags host host')
    (h' : SameFlags host' host'') : SameFlags host host'' := by
  intro i
  rw [(h' i).1, (h' i).2.1, (h' i).2.2]
  exact h i

/-- Every step keeps closed connections and their events together. -/
theorem HostStep.closeEvents (hstep : HostStep config host notes host')
    (h : Consistent config host) : CloseEvents host' := by
  have hevents := h.closeEvents
  cases hstep with
  | cursors => exact hevents.same rfl rfl
  | streamData => exact hevents.same rfl rfl
  | openData => exact hevents.same rfl rfl
  | takes => exact hevents
  | readable => exact hevents.same rfl rfl
  | @establishes host₁ host₂ k conn i userData userData' attempt dial notes hslot hdial huserData =>
    have hevents₁ : CloseEvents host₁ := by
      cases hslot with
      | known => exact hevents
      | new hnone hfree =>
        have hactive : (host.conns i).active ≠ true := by simpa using (findSlot_some hfree).2
        have hpending : (host.conns i).closeEventPending = false := by
          by_contra hset
          exact hactive (hevents.active i (hevents.closed i (Bool.not_eq_false _ ▸ hset)))
        exact hevents.setConn hpending rfl rfl
    cases hdial with
    | found =>
      apply CloseEvents.push
      · exact hevents₁.same rfl rfl
      · rfl
    | none => exact hevents₁.push rfl
  | dialFails =>
    apply CloseEvents.push
    · exact hevents.same rfl rfl
    · rfl
  | accepts => exact hevents.congr_flags rfl (@sameFlags_setConn host _ _ rfl rfl rfl)
  | calls => exact hevents.same rfl rfl
  | ends hopen =>
    rw [h.drop_opened hopen]
    exact hevents.congr_flags rfl (@sameFlags_setConn host _ _ rfl rfl rfl)
  | waits => exact hevents.congr_flags rfl (@sameFlags_setConn host _ _ rfl rfl rfl)
  | opensNothing => exact hevents.same rfl rfl
  | starts _ hhost' =>
    subst hhost'
    exact hevents.congr_flags rfl (@sameFlags_setConn host _ _ rfl rfl rfl)
  | @opensAtOnce host' _ _ o conn protocol userData _ _ fallbackProtocol _ _ _ hhost' hhost'' =>
    have hwait : CloseEvents host' := by
      subst hhost'
      exact hevents.congr_flags rfl (@sameFlags_setConn host _ _ rfl rfl rfl)
    subst hhost''
    exact hwait.congr_flags rfl (@sameFlags_setConn host' _ _ rfl rfl rfl)
  | openFails _ hhost' =>
    subst hhost'
    apply CloseEvents.push
    · exact hevents.same rfl rfl
    · rfl
  | completesInbound => exact hevents.same rfl rfl
  | completesOutbound =>
    apply CloseEvents.push
    · exact hevents.same rfl rfl
    · rfl
  | failsInbound _ hdirection =>
    rw [h.drop_inbound hdirection]
    exact hevents.congr_flags rfl (@sameFlags_setConn host _ _ rfl rfl rfl)
  | @failsOutbound k s o notes reason appErrorCode transportErrorCode _ _ hattempt =>
    rw [drop_evented hattempt]
    have hpush : CloseEvents (pushEvent (.streamOpenFailed (host.streams s).conn (some o)
      (host.opens o).userData reason appErrorCode transportErrorCode) host) := hevents.push rfl
    exact hpush.congr_flags rfl (@sameFlags_setConn host _ _ rfl rfl rfl)
  | connCloses hactive hopen => exact hevents.pushClosed rfl rfl rfl hopen ⟨rfl, rfl, hactive⟩
  | recycles hidle => exact hevents.setConn hidle.2.2.1 rfl rfl
  | @cancelsWaiting o hwaits =>
    rcases @hostOpenRelease_spec host o (by rw [hwaits]; rintro ⟨⟩) with ⟨-, -, -, hqueue, -⟩
    exact hevents.congr_flags hqueue (sameFlags_openRelease o)
  | @cancelsStream o s hopen hused hattempt =>
    rw [drop_cancelled]
    rcases hostOpenRelease_spec (cancelled_used s hopen) with ⟨-, -, -, hqueue, -⟩
    apply hevents.congr_flags hqueue
    apply SameFlags.trans _ (sameFlags_openRelease o)
    exact @sameFlags_setConn host ((updateStream s (fun stream =>
      { stream with openAttempt := none }) host).streams s).conn _ rfl rfl rfl
  | @pops event events hqueue =>
    have hpopped := h.popped hqueue
    cases hevent : event.closedConn? with
    | none =>
      refine hevents.pop hqueue hpopped.events fun i => ?_
      rw [hevent, if_neg (by rintro ⟨⟩)]
      exact ⟨(hpopped.conns i).2.2, (hpopped.conns i).2.1, (hpopped.conns i).1⟩
    | some j =>
      refine hevents.pop hqueue hpopped.events fun i => ?_
      rw [hevent]
      let rest := releaseEvent event { host with events := events }
      show (Function.update rest.conns j { rest.conns j with closeEventPending := false }
          i).closeEventPending = _ ∧
        (Function.update rest.conns j { rest.conns j with closeEventPending := false } i).closed = _ ∧
        (Function.update rest.conns j { rest.conns j with closeEventPending := false } i).active = _
      by_cases heq : i = j
      · rw [heq, Function.update_self, if_pos rfl]
        exact ⟨rfl, (hpopped.conns j).2.1, (hpopped.conns j).1⟩
      · rw [Function.update_of_ne heq, if_neg fun hsome => heq (Option.some.inj hsome).symm]
        exact ⟨(hpopped.conns i).2.2, (hpopped.conns i).2.1, (hpopped.conns i).1⟩
  | dials => exact hevents.same rfl rfl
  | dialsNothing => exact hevents.same rfl rfl
  | shuts => exact hevents.same rfl rfl
  | asks => exact hevents.congr_flags rfl (@sameFlags_setConn host _ _ rfl rfl rfl)
  | closeReturns => exact hevents
  | completes =>
    have hpush : CloseEvents (pushEvent .hostClosed host) := hevents.push rfl
    exact hpush.same rfl rfl

/-! ## Closed connections -/

/-- The connections are closed as before. -/
theorem Settled.of_flags (h : Settled host) (hstreams : host'.streams = host.streams)
    (hopens : host'.opens = host.opens) (hflags : SameFlags host host') : Settled host' :=
  h.congr hstreams hopens fun i hi => (hflags i).2.1.trans hi

/-- A stream of the same role. -/
theorem Settled.setRole (h : Settled host) {s : Nat} {stream : Stream}
    (hstate : stream.state = (host.streams s).state) (hconn : stream.conn = (host.streams s).conn) :
    Settled (Host.setStream s stream host) := by
  apply h.setStream
  intro hs
  rw [hconn]
  exact h.stream s (hstate.symm.trans hs)

theorem Settled.pushEvent (h : Settled host) (event : HostEvent) :
    Settled (Host.pushEvent event host) := h.congr rfl rfl fun _ => id

/-- A slot is released. -/
theorem Settled.freeStreamSlot (h : Settled host) (s : Nat) :
    Settled (Host.freeStreamSlot s host) := by
  have hset : Settled (Host.setStream s {} host) := h.setStream (by rintro ⟨⟩)
  exact hset.of_flags rfl rfl (@sameFlags_setConn (Host.setStream s {} host) _ _ rfl rfl rfl)

theorem Settled.openRelease (h : Settled host) (o : Nat) : Settled (hostOpenRelease o host) := by
  unfold hostOpenRelease
  split
  · exact h
  · apply Settled.setOpen
    · exact h.of_flags rfl rfl (@sameFlags_setConn host _ _ rfl rfl rfl)
    · rintro ⟨⟩

/-- The open that waits. -/
theorem Settled.waitOpen (h : Settled host) {o i protocol userData : Nat}
    {fallbackProtocol : Option Nat} (hopen : (host.conns i).closed = false) :
    Settled (Host.waitOpen o i protocol fallbackProtocol userData host) := by
  let streamOpen : StreamOpen :=
    { state := .waitTransport
      conn := i
      transportConn := (host.conns i).transportConn
      protocol := protocol
      fallbackProtocol := fallbackProtocol
      userData := userData }
  have hset : Settled (Host.setOpen o streamOpen host) := h.setOpen fun _ => hopen
  exact hset.of_flags rfl rfl (@sameFlags_setConn (Host.setOpen o streamOpen host) _ _ rfl rfl rfl)

/-- The stream of an open that waited. -/
theorem Settled.startStream (h : Settled host) {o transportStream s i streamCount : Nat}
    {protocol : Option Nat} (hhost' : host' = startOpen o transportStream host)
    (hopen : (host.conns i).closed = false) :
    Settled (setConn i { host'.conns i with streamCount := streamCount } (Host.setStream s
      (freshStream i transportStream .outbound protocol (some o) host') host')) := by
  have hstart : Settled host' := by
    subst hhost'
    exact h.setOpen (by rintro ⟨⟩)
  have hconns : host'.conns = host.conns := by
    subst hhost'
    rfl
  have hset : Settled (Host.setStream s (freshStream i transportStream .outbound protocol (some o)
      host') host') := by
    apply hstart.setStream
    rw [hconns]
    exact fun _ => hopen
  exact hset.of_flags rfl rfl (@sameFlags_setConn (Host.setStream s _ host') _ _ rfl rfl rfl)

/-- Taking an event leaves less to be settled. -/
theorem Settled.popped (h : Settled host) (event : HostEvent) (events : List HostEvent) :
    Settled (releaseEvent event { host with events := events }) := by
  have hrest : Settled { host with events := events } := h.congr rfl rfl fun _ => id
  have hdial : Settled (releaseDial event.dial? { host with events := events }) := by
    cases event.dial? with
    | none => exact hrest
    | some d => exact hrest.congr rfl rfl fun _ => id
  unfold releaseEvent
  dsimp only
  cases event.streamOpen? with
  | none => exact hdial
  | some o =>
    apply Settled.openRelease
    cases event.stream? with
    | none => exact hdial
    | some s =>
      unfold Host.forgetOpen
      dsimp only
      split
      · exact hdial.setRole rfl rfl
      · exact hdial

/-- Every step keeps closed connections settled. -/
theorem HostStep.settled (hstep : HostStep config host notes host') (h : Consistent config host) :
    Settled host' := by
  have hsettled := h.settled
  cases hstep with
  | cursors => exact hsettled.congr rfl rfl fun _ => id
  | streamData hused hrole => exact hsettled.setRole hrole.state hrole.conn
  | openData hused =>
    apply hsettled.setOpen
    intro hwaits
    rw [hused] at hwaits
    cases hwaits
  | takes => exact hsettled
  | readable => exact hsettled.setRole rfl rfl
  | @establishes host₁ host₂ k conn i userData userData' attempt dial notes hslot hdial huserData =>
    have hsettled₁ : Settled host₁ := by
      cases hslot with
      | known => exact hsettled
      | new =>
        refine hsettled.congr rfl rfl fun j hj => ?_
        show (Function.update host.conns i _ j).closed = false
        by_cases heq : j = i
        · rw [heq, Function.update_self]
        · rwa [Function.update_of_ne heq]
    cases hdial <;> exact hsettled₁.congr rfl rfl fun _ => id
  | dialFails => exact hsettled.congr rfl rfl fun _ => id
  | @accepts conn transportStream i s hconn hopen =>
    have hset : Settled (setStream s (freshStream i transportStream .inbound none none host) host) :=
      hsettled.setStream fun _ => hopen
    exact hset.of_flags rfl rfl (@sameFlags_setConn (setStream s _ host) _ _ rfl rfl rfl)
  | calls hopen hrole => exact hsettled.setRole hrole.state hrole.conn
  | @ends s _ hopen =>
    rw [h.drop_opened hopen]
    exact hsettled.freeStreamSlot s
  | waits hfree hconn hopen => exact hsettled.waitOpen hopen
  | opensNothing => exact hsettled.setOpen (by rintro ⟨⟩)
  | @starts host' k o transportStream s hwaits hhost' =>
    have hstart := @Settled.startStream host host' hsettled o transportStream s (host.opens o).conn
      ((host.conns (host.opens o).conn).streamCount + 1) (some (host.opens o).protocol) hhost'
      (hsettled.waiting o hwaits)
    subst hhost'
    exact hstart
  | opensAtOnce hfree hconn hopen hhost' hhost'' =>
    refine Settled.startStream ?_ hhost'' ?_
    · subst hhost'
      exact hsettled.waitOpen hopen
    · subst hhost'
      show (Function.update host.conns _ _ _).closed = false
      rw [Function.update_self]
      exact hopen
  | openFails _ hhost' =>
    subst hhost'
    apply Settled.pushEvent
    exact hsettled.setOpen (by rintro ⟨⟩)
  | completesInbound hnegotiating hdirection hrole =>
    apply hsettled.setStream
    intro hs
    cases hs.symm.trans hrole.state
  | @completesOutbound k s o stream hnegotiating hdirection hattempt hrole =>
    have hset : Settled (setOpenState o .evented host) := hsettled.setOpen (by rintro ⟨⟩)
    apply Settled.pushEvent
    apply hset.setStream
    intro hs
    cases hs.symm.trans hrole.state
  | @failsInbound s _ hnegotiating hdirection =>
    rw [h.drop_inbound hdirection]
    exact hsettled.freeStreamSlot s
  | failsOutbound hnegotiating hdirection hattempt =>
    rw [drop_evented hattempt]
    apply Settled.freeStreamSlot
    apply Settled.pushEvent
    exact hsettled.setOpen (by rintro ⟨⟩)
  | connCloses hactive hopen hstreams hopens =>
    apply Settled.pushEvent
    exact hsettled.closeConn hstreams hopens
  | @recycles i hidle =>
    refine hsettled.congr rfl rfl fun j hj => ?_
    show (Function.update host.conns i _ j).closed = false
    by_cases heq : j = i
    · rw [heq, Function.update_self]
    · rwa [Function.update_of_ne heq]
  | cancelsWaiting => exact hsettled.openRelease _
  | cancelsStream =>
    rw [drop_cancelled]
    apply Settled.openRelease
    apply Settled.freeStreamSlot
    exact hsettled.setRole rfl rfl
  | @pops event events hevents =>
    have hpopped := hsettled.popped event events
    cases event.closedConn? with
    | none => exact hpopped
    | some i =>
      refine hpopped.congr rfl rfl fun j hj => ?_
      let rest := releaseEvent event { host with events := events }
      show (Function.update rest.conns i { rest.conns i with closeEventPending := false }
        j).closed = false
      by_cases heq : j = i
      · rw [heq] at hj ⊢
        rw [Function.update_self]
        exact hj
      · rwa [Function.update_of_ne heq]
  | dials => exact hsettled.congr rfl rfl fun _ => id
  | dialsNothing => exact hsettled.congr rfl rfl fun _ => id
  | shuts => exact hsettled.congr rfl rfl fun _ => id
  | asks => exact hsettled.of_flags rfl rfl (@sameFlags_setConn host _ _ rfl rfl rfl)
  | closeReturns => exact hsettled
  | completes => exact hsettled.congr rfl rfl fun _ => id

/-- Every step keeps the host consistent. -/
theorem HostStep.consistent (hstep : HostStep config host notes host')
    (h : Consistent config host) : Consistent config host' :=
  ⟨hstep.counted h, hstep.attempts h, hstep.openEvents h, hstep.dialEvents h, hstep.closeEvents h,
    hstep.settled h⟩

end LeanLibp2p.Host
