import LeanLibp2p.Host.DriveRefines

/-!
# Calls as steps

What the application calls, as steps of the host.
-/

namespace LeanLibp2p.Host

open LeanLibp2p.Lib

variable {τ : Type} {config : HostConfig τ} {w : World τ} {host : LeanLibp2p.Host}

/-- Any result is fine. -/
abbrev Anyhow {α : Type} (_ : Except HostErr α) (_ : World τ) : Prop := True

/-- Checks come first. -/
theorem Refines.ofResult_bind {α β : Type} {r : Except HostErr β} {f : β → HostM τ α}
    {Q : Except HostErr α → World τ → Prop} (hok : ∀ b, r = .ok b → Refines config (f b) w Q)
    (herror : ∀ e, r = .error e → Q (.error e) w) :
    Refines config (Comp.ofResult r >>= f) w Q := by
  cases r with
  | ok b => exact hok b rfl
  | error e => exact .fail (herror e rfl)

theorem hostValidateStarted_started (hvalid : hostValidateStarted host = .ok ())
    (hopen : host.state ≠ .closing) : host.state = .started := by
  unfold hostValidateStarted at hvalid
  cases hstate : host.state with
  | started => rfl
  | closing => exact absurd hstate hopen
  | init =>
    rw [hstate] at hvalid
    cases hvalid
  | closed =>
    rw [hstate] at hvalid
    cases hvalid

/-! ## Dials -/

theorem setDial_setDial (d : Nat) (dial dial' : Dial) :
    setDial d dial (setDial d dial' host) = setDial d dial host := by
  unfold setDial
  rw [Function.update_idem]

theorem freeDial_state {d : Nat} (hfree : freeDial config host = some d) :
    (host.dials d).state = .free := beq_iff_eq.mp (findSlot_some hfree).2

/-- `libp2p_host_dial`. -/
theorem hostDial_refines (multiaddr : Bytes) (userData : Nat) :
    Refines config (hostDial config multiaddr userData) w Anyhow := by
  unfold hostDial
  apply Refines.read_bind
  refine .ofResult_bind (fun _ hvalid => ?_) fun _ _ => trivial
  refine .ite (fun _ => .fail trivial) fun _ => .ite (fun _ => .fail trivial) fun hopen => ?_
  have hstarted := hostValidateStarted_started hvalid hopen
  cases hfree : freeDial config w.host with
  | none => exact .fail trivial
  | some d =>
    dsimp only
    let pending := setDial d { state := .pending } w.host
    have hself : pending.dials d = { state := .pending } := Function.update_self ..
    have hmodify : modifyHost (setDial d { state := .pending }) w =
        (.ok (), { w with host := pending }) := rfl
    let asked := config.transport.dial multiaddr userData w.env
    cases hres : asked.1 with
    | ok attempt =>
      let after : World τ := { w with
        host := setDial d
          { state := .pending, transportAttempt := attempt, userData := userData } w.host
        env := asked.2
        trace := w.trace ++ [.dialed d userData attempt] }
      refine @Refines.step_done _ _ _ _ after _ _ _ (.ok d) ((Comp.bind_of_ok hmodify).trans
        ((transport_bind _ _ _).trans ?_)) rfl (.dials hfree hstarted) trivial
      rw [hres]
      dsimp only
      rw [Comp.bind_of_ok (modifyHost_apply _ _), setDial_setDial]
      rfl
    | error e =>
      let after : World τ := { w with host := setDial d {} w.host, env := asked.2 }
      refine @Refines.step_done _ _ _ _ after _ _ _ (.error e) ((Comp.bind_of_ok hmodify).trans
        ((transport_bind _ _ _).trans ?_)) (List.append_nil _).symm
        (.dialsNothing (freeDial_state hfree)) trivial
      rw [hres]
      dsimp only
      rw [Comp.bind_of_ok (modifyHost_apply _ _)]
      dsimp only
      rw [hself, setDial_setDial]
      rfl

/-! ## Opens -/

/-- A released open leaves the tables as if it had not been there. -/
theorem hostOpenRelease_waitOpen {o conn protocol userData : Nat} {fallbackProtocol : Option Nat} :
    hostOpenRelease o (waitOpen o conn protocol fallbackProtocol userData host) =
      setOpen o {} host := by
  have hopen : (waitOpen o conn protocol fallbackProtocol userData host).opens o =
      { state := .waitTransport
        conn := conn
        transportConn := (host.conns conn).transportConn
        protocol := protocol
        fallbackProtocol := fallbackProtocol
        userData := userData } := Function.update_self ..
  have hconn : (waitOpen o conn protocol fallbackProtocol userData host).conns conn =
      { host.conns conn with openCount := (host.conns conn).openCount + 1 } :=
    Function.update_self ..
  unfold hostOpenRelease
  rw [hopen, if_neg (by rintro ⟨⟩)]
  dsimp only
  rw [hconn]
  unfold waitOpen setConn setOpen
  dsimp only
  rw [Function.update_idem, Function.update_idem]
  congr 1
  exact Function.update_eq_self conn host.conns

theorem hostOpenRelease_startOpen {o transportStream : Nat} (hused : (host.opens o).state ≠ .free) :
    hostOpenRelease o (startOpen o transportStream host) = hostOpenRelease o host := by
  have hopen : (startOpen o transportStream host).opens o =
      { host.opens o with transportStream := transportStream, state := .negotiating } :=
    Function.update_self ..
  unfold hostOpenRelease
  rw [hopen, if_neg (by rintro ⟨⟩), if_neg hused]
  unfold startOpen setConn setOpen
  dsimp only
  rw [Function.update_idem]

theorem hostConnValidateUsable_ok {i : Nat} (h : hostConnValidateUsable i host = .ok ()) :
    (host.conns i).active = true ∧ (host.conns i).closed = false := by
  unfold hostConnValidateUsable at h
  by_cases hactive : (host.conns i).active = false
  · rw [if_pos hactive] at h
    cases h
  · rw [if_neg hactive] at h
    by_cases hclosed : (host.conns i).closed = true
    · rw [if_pos hclosed] at h
      cases h
    · exact ⟨Bool.eq_true_of_not_eq_false hactive, Bool.eq_false_of_not_eq_true hclosed⟩

/-- An open that is accepted is for a connection that is in use and not closed, of a host that is not
    closing. -/
theorem hostOpenStreamCheck_ok {conn : Nat} {protocolId : Bytes} {fallbackId : Option Bytes}
    {protocols : Nat × Option Nat}
    (h : hostOpenStreamCheck config conn protocolId fallbackId host = .ok protocols) :
    host.state = .started ∧ (host.conns conn).active = true ∧
      (host.conns conn).closed = false := by
  unfold hostOpenStreamCheck at h
  cases hvalid : hostValidateStarted host with
  | error e =>
    rw [hvalid] at h
    cases h
  | ok _ =>
    rw [hvalid] at h
    change (if _ then _ else if _ then _ else _) = _ at h
    by_cases hargs : (host.conns conn).active = false ∨ protocolId = [] ∨ fallbackId = some []
    · rw [if_pos hargs] at h
      cases h
    · rw [if_neg hargs] at h
      by_cases hclosing : host.state = .closing
      · rw [if_pos hclosing] at h
        cases h
      · rw [if_neg hclosing] at h
        cases husable : hostConnValidateUsable conn host with
        | error e =>
          rw [husable] at h
          cases h
        | ok _ =>
          exact ⟨hostValidateStarted_started hvalid hclosing, hostConnValidateUsable_ok husable⟩

/-- `host_open_stream_with_optional_fallback`. -/
theorem hostOpenStream_refines (conn : Nat) (protocolId : Bytes) (fallbackId : Option Bytes)
    (userData : Nat) :
    Refines config (hostOpenStream config conn protocolId fallbackId userData) w Anyhow := by
  unfold hostOpenStream
  apply Refines.read_bind
  refine .ofResult_bind (fun protocols hcheck => ?_) fun _ _ => trivial
  rcases protocols with ⟨protocol, fallbackProtocol⟩
  obtain ⟨-, hactive, hclosed⟩ := hostOpenStreamCheck_ok hcheck
  dsimp only
  cases hfree : freeOpen config w.host with
  | none => exact .fail trivial
  | some o =>
    dsimp only
    let waiting := waitOpen o conn protocol fallbackProtocol userData w.host
    have hmodify : modifyHost (waitOpen o conn protocol fallbackProtocol userData) w =
        (.ok (), { w with host := waiting }) := rfl
    have hspec : (waiting.opens o).state = .waitTransport ∧ (waiting.opens o).conn = conn ∧
        (waiting.opens o).protocol = protocol ∧
        (waiting.conns conn).streamCount = (w.host.conns conn).streamCount := waitOpen_spec rfl
    have hused : (waiting.opens o).state ≠ .free := by
      rw [hspec.1]
      rintro ⟨⟩
    have hundo : hostOpenRelease o waiting = setOpen o {} w.host := hostOpenRelease_waitOpen
    let asked := config.transport.openStream (w.host.conns conn).transportConn w.env
    cases hres : asked.1 with
    | error e =>
      by_cases he : e = .wouldBlock
      · let after : World τ := { w with
          host := waiting, env := asked.2, trace := w.trace ++ [.opened o userData] }
        refine @Refines.step_done _ _ _ _ after _ _ _ (.ok o) ((Comp.bind_of_ok hmodify).trans
          ((transport_bind _ _ _).trans ?_)) rfl (.waits hfree hactive hclosed) trivial
        rw [hres]
        dsimp only
        rw [if_pos he]
        rfl
      · let after : World τ := { w with host := setOpen o {} w.host, env := asked.2 }
        refine @Refines.step_done _ _ _ _ after _ _ _ (.error e) ((Comp.bind_of_ok hmodify).trans
          ((transport_bind _ _ _).trans ?_)) (List.append_nil _).symm
          (.opensNothing (freeOpen_state hfree)) trivial
        rw [hres]
        dsimp only
        rw [if_neg he, Comp.bind_of_ok (modifyHost_apply _ _)]
        dsimp only
        rw [hundo]
        rfl
    | ok transportStream =>
      let opened : World τ := { w with
        host := startOpen o transportStream waiting, env := asked.2 }
      have hstart : modifyHost (startOpen o transportStream)
          { w with host := waiting, env := asked.2 } = (.ok (), opened) := rfl
      have hundo' : hostOpenRelease o opened.host = setOpen o {} w.host :=
        (hostOpenRelease_startOpen hused).trans hundo
      rcases hostStreamAlloc_cases config conn transportStream .outbound (some protocol) (some o)
        opened with ⟨halloc, -⟩ | ⟨s, hcount, hstream, halloc⟩
      · let after : World τ := { w with
          host := setOpen o {} w.host
          env := (config.transport.streamReset transportStream 0 asked.2).2 }
        refine @Refines.step_done _ _ _ _ after _ _ _ (.error .limit)
          ((Comp.bind_of_ok hmodify).trans ((transport_bind _ _ _).trans ?_))
          (List.append_nil _).symm (.opensNothing (freeOpen_state hfree)) trivial
        rw [hres]
        refine (Comp.bind_of_ok hstart).trans ?_
        refine (Comp.bind_of_ok (Comp.result_of_run halloc)).trans ?_
        refine (transport_bind _ _ _).trans ?_
        rw [Comp.bind_of_ok (modifyHost_apply _ _)]
        dsimp only
        rw [hundo']
        rfl
      · let after : World τ := { w with
          host := setConn conn
            { opened.host.conns conn with
              streamCount := (opened.host.conns conn).streamCount + 1 }
            (setStream s
              (freshStream conn transportStream .outbound (some protocol) (some o) opened.host)
              opened.host)
          env := asked.2
          trace := w.trace ++ [.streamAllocated opened.host s] ++ [.opened o userData] }
        refine @Refines.step_done _ _ _ _ after _ _ _ (.ok o) ((Comp.bind_of_ok hmodify).trans
          ((transport_bind _ _ _).trans ?_)) (List.append_assoc ..)
          (.opensAtOnce hfree hactive hclosed rfl rfl ?_ hstream rfl) trivial
        · rw [hres]
          refine (Comp.bind_of_ok hstart).trans ?_
          exact Comp.bind_of_ok (Comp.result_of_run halloc)
        · rw [← hspec.2.2.2]
          exact hcount

/-- The stream that is found for an open belongs to it. -/
theorem openStreamOf_some {o s : Nat} (h : openStreamOf config o host = some s) :
    (host.streams s).state ≠ .free ∧ (host.streams s).openAttempt = some o := by
  have hfound := (findSlot_some h).2
  rw [Bool.and_eq_true, bne_iff_ne, beq_iff_eq] at hfound
  exact hfound

/-- Only a release takes the last reference of a connection. -/
theorem lookAfter_busy {i : Nat} (hbusy : ¬ Idle (w.host.conns i)) :
    lookAfter config i w = (.ok (), w) := by
  have hrecycle : hostConnTryRecycle config i w = (.ok (), w) := by
    unfold hostConnTryRecycle
    rw [Comp.read_id_bind, if_neg hbusy]
    rfl
  exact Comp.bind_of_ok (Comp.result_of_run hrecycle)

/-- The connection of an open is referred to. -/
theorem Consistent.openCount_pos (h : Consistent config host) {o : Nat}
    (hused : (host.opens o).state ≠ .free) :
    0 < (host.conns (host.opens o).conn).openCount := by
  rw [h.counted.openCount]
  exact refs_pos (h.counted.openSlot o hused) (openConn_of_used hused)

theorem freeStreamSlot_openCount (s i : Nat) :
    ((freeStreamSlot s host).conns i).openCount = (host.conns i).openCount := by
  show (Function.update host.conns _ _ i).openCount = _
  by_cases heq : i = (host.streams s).conn
  · rw [heq, Function.update_self]
  · rw [Function.update_of_ne heq]

/-- `libp2p_host_stream_open_cancel`. -/
theorem hostStreamOpenCancel_refines (o expectedUserData : Nat) :
    Refines config (hostStreamOpenCancel config o expectedUserData) w Anyhow := by
  have hlook : ∀ i w, Refines config (lookAfter config i) w Anyhow := fun i w =>
    (@lookAfter_refines τ config w (fun _ => True) (fun _ _ _ _ => trivial) trivial i).weaken
      fun _ _ _ _ => trivial
  apply Refines.assume
  intro hconsistent
  unfold hostStreamOpenCancel
  apply Refines.read_bind
  refine .ofResult_bind (fun _ _ => ?_) fun _ _ => trivial
  dsimp only
  refine .ite (fun _ => .fail trivial) fun _ => .ite (fun _ => .fail trivial) fun _ => ?_
  cases hstate : (w.host.opens o).state with
  | free => exact .fail trivial
  | evented => exact .fail trivial
  | waitTransport =>
    refine .step_then ((Comp.bind_of_ok (modifyHost_apply _ _)).trans
      (Comp.bind_of_ok (note_apply _ _))) rfl (.cancelsWaiting hstate) ?_
    exact hlook _ _
  | negotiating =>
    dsimp only
    cases hfound : openStreamOf config o w.host with
    | none => exact .fail trivial
    | some s =>
      obtain ⟨hused, hattempt⟩ := openStreamOf_some hfound
      dsimp only
      apply Refines.transport_bind
      intro _ env
      let forgotten := updateStream s (fun stream => { stream with openAttempt := none }) w.host
      have hself : forgotten.streams s = { w.host.streams s with openAttempt := none } :=
        Function.update_self ..
      let dropped : World τ := { w with
        host := hostStreamDrop s forgotten, env := env, trace := w.trace ++ [.streamReleased s] }
      have hmodify : modifyHost (updateStream s fun stream => { stream with openAttempt := none })
          { w with env := env } = (.ok (), { w with host := forgotten, env := env }) := rfl
      have hbusy : ¬ Idle (dropped.host.conns (w.host.streams s).conn) := by
        have hpos := hconsistent.openCount_pos
          (show (w.host.opens o).state ≠ .free by rw [hstate]; rintro ⟨⟩)
        rw [(hconsistent.attempts.linked s o hattempt).1] at hpos
        rintro ⟨-, -, -, -, hnone⟩
        change ((hostStreamDrop s forgotten).conns _).openCount = 0 at hnone
        rw [drop_cancelled, freeStreamSlot_openCount] at hnone
        exact absurd hnone (Nat.ne_of_gt hpos)
      have hrelease : hostStreamRelease config s { w with host := forgotten, env := env } =
          (.ok (), dropped) := by
        have hrun := @hostStreamRelease_run τ config { w with host := forgotten, env := env } s
          (by rw [hself]; exact hused)
        rw [hrun, hself]
        exact lookAfter_busy hbusy
      refine .step_then ((Comp.bind_of_ok hmodify).trans ((Comp.bind_of_ok hrelease).trans
        ((Comp.bind_of_ok (modifyHost_apply _ _)).trans (Comp.bind_of_ok (note_apply _ _)))))
        (List.append_assoc ..) (.cancelsStream hstate hused hattempt) ?_
      exact hlook _ _

/-! ## Events -/

/-- `libp2p_host_next_event`. -/
theorem hostNextEvent_refines : Refines config (hostNextEvent config) w Anyhow := by
  have hrecycle : ∀ i w, Refines config (hostConnTryRecycle config i) w Anyhow := fun i w =>
    (@hostConnTryRecycle_refines τ config w (fun _ => True) trivial i fun _ => trivial).weaken
      fun _ _ _ _ => trivial
  unfold hostNextEvent
  apply Refines.read_bind
  cases hevents : w.host.events with
  | nil => exact .fail trivial
  | cons event events =>
    have hpops := @HostStep.pops τ config w.host event events hevents
    dsimp only
    cases hopen : event.streamOpen? with
    | some o =>
      have hnotClosed : event.closedConn? = none := by
        cases event <;> first | rfl | cases hopen
      rw [hnotClosed] at hpops
      refine .step_then ((Comp.bind_of_ok (modifyHost_apply _ _)).trans
        (Comp.bind_of_ok (note_apply _ _))) rfl hpops ?_
      dsimp only
      refine .bind (hrecycle _ _) (fun _ _ _ => ?_) fun _ _ _ => trivial
      rw [hnotClosed]
      exact .pure trivial
    | none =>
      cases hclosed : event.closedConn? with
      | none =>
        rw [hclosed] at hpops
        refine .step_then ((Comp.bind_of_ok (modifyHost_apply _ _)).trans
          (Comp.bind_of_ok (note_apply _ _))) rfl hpops ?_
        exact .pure trivial
      | some i =>
        rw [hclosed] at hpops
        refine .step_then ((Comp.bind_of_ok (modifyHost_apply _ _)).trans
          ((Comp.bind_of_ok (note_apply _ _)).trans (Comp.bind_of_ok (modifyHost_apply _ _)))) rfl
          hpops ?_
        exact .bind (hrecycle _ _) (fun _ _ _ => .pure trivial) fun _ _ _ => trivial

/-! ## Closing -/

/-- `libp2p_host_conn_close`. -/
theorem hostConnClose_refines (i appErrorCode : Nat) :
    Refines config (hostConnClose config i appErrorCode) w Anyhow := by
  unfold hostConnClose
  apply Refines.read_bind
  refine .ofResult_bind (fun _ _ => ?_) fun _ _ => trivial
  refine .ofResult_bind (fun _ husable => ?_) fun _ _ => trivial
  refine .bind (M := fun _ w' => w'.host = w.host) (.onTransport rfl) ?_ fun _ _ _ => trivial
  intro _ w' hhost
  have hactive : (w'.host.conns i).active = true := by
    rw [hhost]
    exact (hostConnValidateUsable_ok husable).1
  exact .step_done (modifyHost_apply _ _) (List.append_nil _).symm (.asks hactive) trivial

/-- The body of the loop of `libp2p_host_close`. -/
theorem hostCloseConn_refines (appErrorCode i : Nat) :
    Refines config (hostCloseConn config appErrorCode i) w Anyhow := by
  unfold hostCloseConn
  apply Refines.read_bind
  refine .ite (fun hopen => ?_) fun _ => .pure trivial
  refine .bind (M := fun _ w' => w'.host = w.host) (.onTransport rfl) ?_ fun _ _ _ => trivial
  intro _ w' hhost
  have hactive : (w'.host.conns i).active = true := by
    rw [hhost]
    exact hopen.1
  exact .step_done (modifyHost_apply _ _) (List.append_nil _).symm (.asks hactive) trivial

/-- `libp2p_host_close`. -/
theorem hostClose_refines (appErrorCode : Nat) :
    Refines config (hostClose config appErrorCode) w Anyhow := by
  have hbody : Refines config (hostCloseBody config appErrorCode) w Anyhow := by
    unfold hostCloseBody
    apply Refines.read_bind
    refine .ofResult_bind (fun _ hvalid => ?_) fun _ _ => trivial
    refine .ite (fun _ => .pure trivial) fun hopen => ?_
    refine .step_then (Comp.bind_of_ok (modifyHost_apply _ _)) (List.append_nil _).symm
      (.shuts (hostValidateStarted_started hvalid hopen)) ?_
    refine (Refines.forOk (I := fun _ => True) (E := fun _ _ => True) ?_ trivial).weaken
      fun _ _ _ _ => trivial
    exact fun i _ w _ => (hostCloseConn_refines appErrorCode i).weaken
      fun _ _ _ _ => ⟨fun _ => trivial, fun _ _ => trivial⟩
  unfold hostClose
  refine .bind (M := fun r _ => ∃ res, r = .ok res) (Refines.result (hbody.weaken
    fun r _ _ _ => ⟨r, rfl⟩)) ?_ fun _ _ _ => trivial
  intro res w' _
  exact .step_then (Comp.bind_of_ok (note_apply _ _)) rfl (.closeReturns w'.host res)
    (.ofResult trivial)

/-! ## Streams -/

/-- `libp2p_host_stream_read`. -/
theorem hostStreamRead_refines (s outLen : Nat) :
    Refines config (hostStreamRead config s outLen) w Anyhow := by
  unfold hostStreamRead
  apply Refines.read_bind
  refine .ofResult_bind (fun _ _ => ?_) fun _ _ => trivial
  dsimp only
  refine .ite (fun _ => .fail trivial) fun hopen => .ite (fun _ => ?_) fun _ => .onTransport trivial
  have hused : (w.host.streams s).state ≠ .free := by
    rw [not_not.mp hopen]
    rintro ⟨⟩
  refine .step_then (Comp.bind_of_ok (modifyHost_apply _ _)) (List.append_nil _).symm
    (.streamData hused ?_ rfl) (.pure trivial)
  exact ⟨rfl, rfl, rfl, rfl, rfl, rfl, rfl, fun _ => rfl⟩

/-- `libp2p_host_stream_write`. -/
theorem hostStreamWrite_refines (s : Nat) (data : Bytes) (fin : Bool) :
    Refines config (hostStreamWrite config s data fin) w Anyhow := by
  unfold hostStreamWrite
  apply Refines.read_bind
  refine .ofResult_bind (fun _ _ => ?_) fun _ _ => trivial
  exact .ite (fun _ => .fail trivial) fun _ => .onTransport trivial

/-- `libp2p_host_stream_finish` and the like. -/
theorem hostStreamCall_refines (s : Nat) (call : Nat → Comp τ HostErr Unit) :
    Refines config (hostStreamCall s call) w Anyhow := by
  unfold hostStreamCall
  apply Refines.read_bind
  refine .ofResult_bind (fun _ _ => ?_) fun _ _ => trivial
  exact .ite (fun _ => .fail trivial) fun _ => .onTransport trivial

/-- `libp2p_host_stream_set_user_data`. -/
theorem hostStreamSetUserData_refines (s userData : Nat) :
    Refines config (hostStreamSetUserData s userData) w Anyhow := by
  unfold hostStreamSetUserData
  by_cases hfree : (w.host.streams s).state = .free
  · refine .still_done (modifyHost_apply _ _) ?_ rfl trivial
    exact if_pos hfree
  · refine .step_done (modifyHost_apply _ _) (List.append_nil _).symm ?_ trivial
    dsimp only
    rw [if_neg hfree]
    exact .streamData hfree ⟨rfl, rfl, rfl, rfl, rfl, rfl, rfl, fun _ => rfl⟩ rfl

end LeanLibp2p.Host
