import LeanLibp2p.Host.Handles

/-!
# Shutdown

What `libp2p_host_close` promises: every connection is asked to close, and HOST_CLOSED is the last
event. Both hold as long as no connection is established once the host is closing, and close is not
called again after it failed halfway.
-/

namespace LeanLibp2p.Host

open LeanLibp2p.Lib

variable {τ : Type} {config : HostConfig τ} {host host' : LeanLibp2p.Host} {notes : List Note}

/-! ## Conditions -/

/-- Every connection that is open was asked to close. -/
def Asked (host : LeanLibp2p.Host) : Prop :=
  ∀ i, (host.conns i).active = true → (host.conns i).closed = false →
    (host.conns i).localCloseRequested = true

/-- A connection that is established finds no free slot once the host is closing, and none at all
    once it is closed. -/
def InTime (config : HostConfig τ) : Note → Prop
  | .took host (.connEstablished conn ..) =>
    (host.state = .closing → hostConnFind config conn host = none → freeConn config host = none) ∧
      (host.state = .closed → hostConnFind config conn host = none ∧ freeConn config host = none)
  | _ => True

instance (n : Note) : Decidable (InTime config n) := by
  induction n using Note.casesOn with
  | took host event =>
    induction event using TransportEvent.casesOn with
    | connEstablished conn =>
      exact inferInstanceAs (Decidable ((host.state = .closing →
        hostConnFind config conn host = none → freeConn config host = none) ∧
          (host.state = .closed →
            hostConnFind config conn host = none ∧ freeConn config host = none)))
    | _ => exact isTrue trivial
  | _ => exact isTrue trivial

/-! ## Steps -/

theorem hostOpenRelease_state (o : Nat) (host : LeanLibp2p.Host) :
    (hostOpenRelease o host).state = host.state := by
  unfold hostOpenRelease
  dsimp only
  split
  · rfl
  · rfl

theorem hostStreamDrop_state (s : Nat) (host : LeanLibp2p.Host) :
    (hostStreamDrop s host).state = host.state := by
  unfold hostStreamDrop
  dsimp only
  cases (host.streams s).openAttempt with
  | none => rfl
  | some o =>
    dsimp only
    split
    · rfl
    · exact hostOpenRelease_state o _

theorem releaseEvent_state (event : HostEvent) (host : LeanLibp2p.Host) :
    (releaseEvent event host).state = host.state := by
  have hdial : (releaseDial event.dial? host).state = host.state := by
    cases event.dial? <;> rfl
  unfold releaseEvent
  dsimp only
  cases event.streamOpen? with
  | none => exact hdial
  | some o =>
    refine (hostOpenRelease_state o _).trans (Eq.trans ?_ hdial)
    cases event.stream? with
    | none => rfl
    | some s =>
      unfold forgetOpen
      dsimp only
      split <;> rfl

/-- What a step does to the state of the host. -/
theorem HostStep.state_spec (hstep : HostStep config host notes host') :
    host'.state = host.state ∨ host.state = .started ∧ host'.state = .closing ∨
      host.state = .closing ∧ host'.state = .closed ∧ hostHasActiveWork config host = false ∧
        notes = [.pushed host .hostClosed] ∧ host'.conns = host.conns ∧
          host'.dials = host.dials := by
  cases hstep with
  | completes hclosing _ hidle => exact .inr (.inr ⟨hclosing, rfl, hidle, rfl, rfl, rfl⟩)
  | shuts hstarted => exact .inr (.inl ⟨hstarted, rfl⟩)
  | establishes hslot hdial => exact .inl (by cases hslot <;> cases hdial <;> rfl)
  | ends => exact .inl (hostStreamDrop_state _ host)
  | starts _ hhost₁ =>
    subst hhost₁
    exact .inl rfl
  | opensAtOnce _ _ _ hhost₁ hhost₂ =>
    subst hhost₂ hhost₁
    exact .inl rfl
  | openFails _ hhost₁ =>
    subst hhost₁
    exact .inl rfl
  | failsInbound => exact .inl (hostStreamDrop_state _ host)
  | failsOutbound => exact .inl (hostStreamDrop_state _ _)
  | cancelsWaiting => exact .inl (hostOpenRelease_state _ host)
  | cancelsStream => exact .inl ((hostOpenRelease_state _ _).trans (hostStreamDrop_state _ _))
  | @pops event events =>
    have hstate := releaseEvent_state event { host with events := events }
    cases event.closedConn? with
    | none => exact .inl hstate
    | some i => exact .inl hstate
  | _ => exact .inl rfl

/-- What a note says of the host before its step, and behind it: a slot is taken for a connection that
    is established, where one is free; only a started host dials; and HOST_CLOSED is queued when
    nothing is active. -/
def Warranted (config : HostConfig τ) (host : LeanLibp2p.Host) (notes : List Note)
    (host' : LeanLibp2p.Host) : Note → Prop
  | .connAllocated _ => ∃ conn attempt userData,
    .took host (.connEstablished conn attempt userData) ∈ notes ∧
      hostConnFind config conn host = none ∧ freeConn config host ≠ none
  | .dialed .. => host.state = .started
  | .pushed k .hostClosed => host.state = .closing ∧ host'.state = .closed ∧
    hostHasActiveWork config k = false
  | _ => True

/-- Every note of a step is warranted. -/
theorem HostStep.warranted (hstep : HostStep config host notes host') :
    ∀ n ∈ notes, Warranted config host notes host' n := by
  cases hstep with
  | @establishes host₁ host₂ k conn i userData userData' attempt dial notes hslot hdial =>
    intro n hn
    rcases List.mem_append.mp hn with hn | hn
    · rcases List.mem_cons.mp hn with rfl | hn
      · trivial
      · cases hslot with
        | known => cases hn
        | new hnone hfree =>
          rw [List.mem_singleton.mp hn]
          refine ⟨conn, attempt, userData, List.mem_append_left _ List.mem_cons_self, hnone, ?_⟩
          rw [hfree]
          rintro ⟨⟩
    · rw [List.mem_singleton.mp hn]
      trivial
  | calls _ _ _ hnotes =>
    intro n hn
    rw [mem_of_calls hnotes hn]
    trivial
  | ends _ hnotes => rcases hnotes with rfl | ⟨-, kind, res, rfl⟩ <;> simp [Warranted]
  | failsInbound _ _ hnotes => rcases hnotes with rfl | ⟨e, rfl⟩ <;> simp [Warranted]
  | failsOutbound _ _ _ hnotes => rcases hnotes with rfl | ⟨e, rfl⟩ <;> simp [Warranted]
  | dials _ hstarted => simpa [Warranted] using hstarted
  | completes hclosing _ hidle => simpa [Warranted] using ⟨hclosing, hidle⟩
  | _ => simp [Warranted]

/-- Connections that were asked to close stay asked. -/
def StayAsked (host host' : LeanLibp2p.Host) : Prop :=
  ∀ i, connLife (host.conns i) = .opened → (host.conns i).localCloseRequested = true →
    connLife (host'.conns i) = .opened → (host'.conns i).localCloseRequested = true

theorem StayAsked.refl : StayAsked host host := fun _ _ h _ => h

/-- The same flag in every slot. -/
def SameRequests (host host' : LeanLibp2p.Host) : Prop :=
  ∀ i, (host'.conns i).localCloseRequested = (host.conns i).localCloseRequested

theorem StayAsked.of_requests (h : SameRequests host host') : StayAsked host host' :=
  fun i _ hasked _ => (h i).trans hasked

theorem SameRequests.trans {host'' : LeanLibp2p.Host} (h : SameRequests host host')
    (h' : SameRequests host' host'') : SameRequests host host'' := fun i => (h' i).trans (h i)

theorem sameRequests_setConn {i : Nat} {conn : Conn}
    (h : conn.localCloseRequested = (host.conns i).localCloseRequested) :
    SameRequests host (setConn i conn host) := by
  intro j
  show (Function.update host.conns i conn j).localCloseRequested = _
  by_cases heq : j = i
  · rw [heq, Function.update_self, h]
  · rw [Function.update_of_ne heq]

theorem sameRequests_openRelease (o : Nat) : SameRequests host (hostOpenRelease o host) := by
  unfold hostOpenRelease
  split
  · exact fun _ => rfl
  · exact @sameRequests_setConn host _ _ rfl

theorem sameRequests_releaseEvent (event : HostEvent) (events : List HostEvent) :
    SameRequests host (releaseEvent event { host with events := events }) := by
  have hdial : SameRequests host (releaseDial event.dial? { host with events := events }) := by
    cases event.dial? <;> exact fun _ => rfl
  unfold releaseEvent
  dsimp only
  cases event.streamOpen? with
  | none => exact hdial
  | some o =>
    refine hdial.trans (SameRequests.trans ?_ (sameRequests_openRelease o))
    intro i
    rw [(forgetOpen_spec event.stream? o).2.2.2]

/-- Every step leaves connections asked that were. -/
theorem HostStep.stay_asked (hstep : HostStep config host notes host')
    (h : Consistent config host) : StayAsked host host' := by
  have hupdate : ∀ {i : Nat} {conn : Conn}, connLife (host.conns i) ≠ .opened →
      StayAsked host (setConn i conn host) := by
    intro i conn hlife j hj hasked _
    show (Function.update host.conns i conn j).localCloseRequested = true
    rw [Function.update_of_ne (by rintro rfl; exact hlife hj)]
    exact hasked
  cases hstep with
  | @establishes host₁ host₂ k conn i userData userData' attempt dial notes hslot hdial =>
    have hconns : (pushEvent (.connEstablished i dial userData') host₂).conns = host₁.conns := by
      cases hdial <;> rfl
    unfold StayAsked
    rw [hconns]
    cases hslot with
    | known => exact fun _ _ hasked _ => hasked
    | new _ hfree =>
      have hlife : connLife (host.conns i) = .free := if_pos (by simpa using (findSlot_some hfree).2)
      exact hupdate (by rw [hlife]; rintro ⟨⟩)
  | accepts => exact .of_requests (@sameRequests_setConn host _ _ rfl)
  | ends hopen =>
    rw [h.drop_opened hopen]
    exact .of_requests (@sameRequests_setConn host _ _ rfl)
  | waits => exact .of_requests (@sameRequests_setConn host _ _ rfl)
  | starts _ hhost₁ =>
    subst hhost₁
    exact .of_requests (@sameRequests_setConn host _ _ rfl)
  | @opensAtOnce host₁ host₂ k o conn protocol userData _ _ fallbackProtocol _ _ _ hhost₁ hhost₂ =>
    have hwait : SameRequests host host₁ := by
      subst hhost₁
      exact @sameRequests_setConn host _ _ rfl
    subst hhost₂
    exact .of_requests (hwait.trans (@sameRequests_setConn host₁ _ _ rfl))
  | openFails _ hhost₁ =>
    subst hhost₁
    exact .refl
  | failsInbound _ hdirection =>
    rw [h.drop_inbound hdirection]
    exact .of_requests (@sameRequests_setConn host _ _ rfl)
  | failsOutbound _ _ hattempt =>
    rw [drop_evented hattempt]
    exact .of_requests (@sameRequests_setConn host _ _ rfl)
  | connCloses => exact .of_requests (@sameRequests_setConn host _ _ rfl)
  | recycles hidle => exact hupdate (by rw [connLife_of_idle hidle]; rintro ⟨⟩)
  | @cancelsWaiting o => exact .of_requests (sameRequests_openRelease o)
  | @cancelsStream o s =>
    rw [drop_cancelled]
    refine .of_requests (SameRequests.trans ?_ (sameRequests_openRelease o))
    exact @sameRequests_setConn host ((updateStream s (fun stream =>
      { stream with openAttempt := none }) host).streams s).conn _ rfl
  | @pops event events hqueue =>
    have hsame := @sameRequests_releaseEvent host event events
    cases event.closedConn? with
    | none => exact .of_requests hsame
    | some i =>
      exact .of_requests (hsame.trans
        (@sameRequests_setConn (releaseEvent event { host with events := events }) i _ rfl))
  | @asks i hactive =>
    intro j _ hasked _
    show (Function.update host.conns i _ j).localCloseRequested = true
    by_cases heq : j = i
    · rw [heq, Function.update_self]
    · rw [Function.update_of_ne heq]
      exact hasked
  | _ => exact .refl

theorem connLife_opened {conn : Conn} (h : connLife conn = .opened) :
    conn.active = true ∧ conn.closed = false := by
  have hactive : conn.active = true := connLife_active (by rw [h]; rintro ⟨⟩)
  refine ⟨hactive, ?_⟩
  by_contra hclosed
  unfold connLife at h
  rw [hactive, (Bool.not_eq_false _).mp hclosed] at h
  cases hpending : conn.closeEventPending with
  | false =>
    rw [hpending] at h
    cases h
  | true =>
    rw [hpending] at h
    cases h

/-- A connection is open behind a step only if it was, or its slot was taken. -/
theorem ConnTells.opened {told : List Note} (h : ConnTells host told host') {i : Nat}
    (hlife : connLife (host'.conns i) = .opened) :
    connLife (host.conns i) = .opened ∨ .connAllocated i ∈ told := by
  have hother : ∀ {j life}, ConnsAfter host (some j) life host' → life ≠ .opened →
      connLife (host.conns i) = .opened := by
    intro j life hconns hne
    by_cases heq : j = i
    · rw [hconns i, heq, if_pos rfl] at hlife
      exact absurd hlife hne
    · rwa [hconns i, if_neg fun hsome => heq (Option.some.inj hsome)] at hlife
  cases h with
  | nothing hconns =>
    rw [hconns i, if_neg (by rintro ⟨⟩)] at hlife
    exact .inl hlife
  | @allocates _ j _ hconns =>
    by_cases heq : j = i
    · exact .inr (by rw [heq]; exact List.mem_singleton.mpr rfl)
    · rw [hconns i, if_neg fun hsome => heq (Option.some.inj hsome)] at hlife
      exact .inl hlife
  | closes _ _ hconns => exact .inl (hother hconns (by rintro ⟨⟩))
  | handsOver _ _ hconns => exact .inl (hother hconns (by rintro ⟨⟩))
  | clears _ hconns => exact .inl (hother hconns (by rintro ⟨⟩))

/-- No connection slot is taken in time for a host that is not started. -/
theorem HostStep.not_allocated (hstep : HostStep config host notes host')
    (htaken : ∀ n ∈ notes, InTime config n)
    (hstate : host.state = .closing ∨ host.state = .closed) (i : Nat) :
    .connAllocated i ∉ notes := by
  intro hn
  obtain ⟨conn, attempt, userData, htook, hnone, hfree⟩ := hstep.warranted _ hn
  have hintime := htaken _ htook
  rcases hstate with hclosing | hclosed
  · exact hfree (hintime.1 hclosing hnone)
  · exact hfree (hintime.2 hclosed).2

/-! ## Asking to close -/

/-- While the host is closing every connection that was asked stays so, and no other one opens. -/
theorem Asked.step (h : Asked host) (hhost : Consistent config host)
    (hstep : HostStep config host notes host') (htaken : ∀ n ∈ notes, InTime config n)
    (hclosing : host.state = .closing) : Asked host' := by
  intro i hactive hopen
  have hlife' := connLife_of_open hactive hopen
  rcases (hstep.tellsConn hhost).opened hlife' with hlife | halloc
  · obtain ⟨hactive, hopen⟩ := connLife_opened hlife
    exact hstep.stay_asked hhost i hlife (h i hactive hopen) hlife'
  · exact absurd (List.mem_of_mem_filter halloc)
      (hstep.not_allocated htaken (.inl hclosing) i)

/-- What the loop of `libp2p_host_close` does to the slots that it has passed. -/
theorem hostCloseConns_ok {appErrorCode : Nat} {slots : List Nat} {w w' : World τ}
    (hrun : Comp.forOk (hostCloseConn config appErrorCode) slots w = (.ok (), w')) :
    w'.host.state = w.host.state ∧ (∀ i, connLife (w'.host.conns i) = connLife (w.host.conns i)) ∧
      (∀ i, (w.host.conns i).localCloseRequested = true →
        (w'.host.conns i).localCloseRequested = true) ∧
      ∀ i ∈ slots, connLife (w.host.conns i) = .opened →
        (w'.host.conns i).localCloseRequested = true := by
  induction slots generalizing w with
  | nil =>
    cases hrun
    exact ⟨rfl, fun _ => rfl, fun _ h => h, fun i hi => by cases hi⟩
  | cons j slots ih =>
    obtain ⟨_, w₁, hbody, hrest⟩ := Comp.ok_of_bind hrun
    obtain ⟨hstate, hlives, hkept, hasked⟩ := ih hrest
    have hfirst : w₁.host.state = w.host.state ∧
        (∀ i, connLife (w₁.host.conns i) = connLife (w.host.conns i)) ∧
        (∀ i, (w.host.conns i).localCloseRequested = true →
          (w₁.host.conns i).localCloseRequested = true) ∧
        (connLife (w.host.conns j) = .opened → (w₁.host.conns j).localCloseRequested = true) := by
      unfold hostCloseConn at hbody
      rw [Comp.read_id_bind] at hbody
      by_cases hopen : (w.host.conns j).active = true ∧ (w.host.conns j).closed = false
      · rw [if_pos hopen] at hbody
        obtain ⟨_, w₂, hcall, hmark⟩ := Comp.ok_of_bind hbody
        have hhost₂ : w₂.host = w.host := (congrArg (fun ran => World.host ran.2) hcall).symm
        have hhost₁ : w₁.host =
            setConn j { w.host.conns j with localCloseRequested := true } w.host := by
          rw [← hhost₂]
          exact (congrArg (fun ran => World.host ran.2) hmark).symm
        rw [hhost₁]
        unfold setConn
        dsimp only
        refine ⟨rfl, fun i => ?_, fun i hi => ?_, fun _ => ?_⟩
        · by_cases heq : i = j
          · rw [heq, Function.update_self]
            rfl
          · rw [Function.update_of_ne heq]
        · by_cases heq : i = j
          · rw [heq, Function.update_self]
          · rw [Function.update_of_ne heq]
            exact hi
        · rw [Function.update_self]
      · rw [if_neg hopen] at hbody
        cases hbody
        exact ⟨rfl, fun _ => rfl, fun _ h => h,
          fun hlife => absurd (connLife_opened hlife) hopen⟩
    refine ⟨hstate.trans hfirst.1, fun i => (hlives i).trans (hfirst.2.1 i),
      fun i hi => hkept i (hfirst.2.2.1 i hi), ?_⟩
    intro i hi hlife
    rcases List.mem_cons.mp hi with rfl | hi
    · exact hkept i (hfirst.2.2.2 hlife)
    · exact hasked i hi (by rw [hfirst.2.1]; exact hlife)

/-- `libp2p_host_close` that returns OK has asked every connection of a host that was started. -/
theorem hostClose_asked {w : World τ} (hw : Consistent config w.host) {appErrorCode : Nat}
    (hclosing : w.host.state = .closing → Asked w.host)
    (hok : ∀ e, (hostClose config appErrorCode w).1 ≠ .error e) :
    (hostClose config appErrorCode w).2.host.state = .closing ∧
      Asked (hostClose config appErrorCode w).2.host := by
  have hclose : hostClose config appErrorCode w = ((hostCloseBody config appErrorCode w).1,
      { (hostCloseBody config appErrorCode w).2 with
        trace := (hostCloseBody config appErrorCode w).2.trace ++
          [.closeReturned (hostCloseBody config appErrorCode w).1] }) := rfl
  rw [hclose] at hok ⊢
  dsimp only at hok ⊢
  let rest : HostM τ Unit := do
    modifyHost fun host => { host with state := .closing, closeAppErrorCode := appErrorCode }
    Comp.forOk (hostCloseConn config appErrorCode) (List.range config.maxConnections)
  have hbody : hostCloseBody config appErrorCode w = (Comp.ofResult (hostValidateStarted w.host) >>=
      fun _ => if w.host.state = .closing then pure () else rest) w := rfl
  cases hvalid : hostValidateStarted w.host with
  | error e =>
    rw [hvalid] at hbody
    exact absurd (congrArg Prod.fst hbody) (hok e)
  | ok _ =>
    rw [hvalid, Comp.bind_of_ok (Comp.ofResult_apply _ _)] at hbody
    rw [hbody] at hok ⊢
    by_cases hstate : w.host.state = .closing
    · rw [if_pos hstate]
      exact ⟨hstate, hclosing hstate⟩
    · have hrest : rest w = Comp.forOk (hostCloseConn config appErrorCode)
          (List.range config.maxConnections) { w with
            host := { w.host with state := .closing, closeAppErrorCode := appErrorCode } } := rfl
      rw [if_neg hstate, hrest] at hok ⊢
      rcases hrun : Comp.forOk (hostCloseConn config appErrorCode) (List.range config.maxConnections)
        { w with
          host := { w.host with state := .closing, closeAppErrorCode := appErrorCode } } with
        ⟨e | _, w'⟩
      · rw [hrun] at hok
        exact absurd rfl (hok e)
      · obtain ⟨hclosing', hlives, -, hasked⟩ := hostCloseConns_ok hrun
        refine ⟨hclosing', fun i hactive hopen => ?_⟩
        have hlife : connLife (w.host.conns i) = .opened :=
          (hlives i).symm.trans (connLife_of_open hactive hopen)
        have hslot := hw.counted.connSlot i (connLife_opened hlife).1
        exact hasked i (List.mem_range.mpr hslot) hlife

/-- The result of the last call of `libp2p_host_close` in a run. -/
def lastClose (config : HostConfig τ) (last : Option (Except HostErr Unit)) :
    World τ → List (HostCall τ) → Option (Except HostErr Unit)
  | _, [] => last
  | w, .close appErrorCode :: calls =>
    lastClose config (some (hostClose config appErrorCode w).1)
      (HostCall.step config w (.close appErrorCode)) calls
  | w, call :: calls => lastClose config last (call.step config w) calls

/-- `libp2p_host_close` is not called again while a connection was not asked to close. -/
def ClosesAsked (w : World τ) (call : HostCall τ) : Prop :=
  ∀ appErrorCode, call = .close appErrorCode → w.host.state = .closing → Asked w.host

/-- Once `libp2p_host_close` was called, every open connection of a closing host was asked to close,
    unless the last call failed. -/
def AskedOrFailed (last : Option (Except HostErr Unit)) (w : World τ) : Prop :=
  last = some (.ok ()) → w.host.state = .closing → Asked w.host

/-- Behind a call that did not fail the host never starts again. -/
def Stopping (last : Option (Except HostErr Unit)) (w : World τ) : Prop :=
  last = some (.ok ()) → w.host.state ≠ .started ∧ (w.host.state = .closing → Asked w.host)

/-- A step leaves it so. -/
theorem Asked.stopping_step (hhost : Consistent config host)
    (h : host.state ≠ .started ∧ (host.state = .closing → Asked host))
    (hstep : HostStep config host notes host') (htaken : ∀ n ∈ notes, InTime config n) :
    host'.state ≠ .started ∧ (host'.state = .closing → Asked host') := by
  rcases hstep.state_spec with hsame | ⟨hstarted, -⟩ | ⟨-, hclosed, -⟩
  · refine ⟨by rw [hsame]; exact h.1, fun hclosing => ?_⟩
    have hbefore := hsame.symm.trans hclosing
    exact (h.2 hbefore).step hhost hstep htaken hbefore
  · exact absurd hstarted h.1
  · rw [hclosed]
    exact ⟨by rintro ⟨⟩, by rintro ⟨⟩⟩

/-- A call other than `libp2p_host_close` leaves it so. -/
theorem HostCall.step_stopping {call : HostCall τ} {w : World τ} (hw : Consistent config w.host)
    {last : Option (Except HostErr Unit)}
    (htaken : ∀ n ∈ (call.step config w).trace, InTime config n)
    (h : Stopping last w) : Stopping last (call.step config w) := by
  intro hlast
  rcases call.step_extends hw with ⟨notes, hextends⟩
  have hkept := hextends.path.keeps_noted (I := fun host => Consistent config host ∧
    host.state ≠ .started ∧ (host.state = .closing → Asked host)) (C := InTime config)
    (fun host notes host' hhost hstep hnotes =>
      ⟨hstep.consistent hhost.1, Asked.stopping_step hhost.1 hhost.2 hstep hnotes⟩)
    ⟨hw, h hlast⟩ fun n hn =>
      htaken n (by rw [hextends.trace]; exact List.mem_append_right _ hn)
  exact hkept.2

/-- Every run leaves it so. -/
theorem run_asked {calls : List (HostCall τ)} {w : World τ} (hw : Consistent config w.host)
    {last : Option (Except HostErr Unit)}
    (hclose : RunMeets (HostCall.step config) ClosesAsked w calls)
    (htaken : ∀ n ∈ (runFrom (HostCall.step config) w calls).trace, InTime config n)
    (h : Stopping last w) :
    Stopping (lastClose config last w calls) (runFrom (HostCall.step config) w calls) := by
  induction calls generalizing w last with
  | nil => exact h
  | cons call calls ih =>
    rcases call.step_extends hw with ⟨notes, hextends⟩
    rcases @run_extends τ config (call.step config w) calls hextends.consistent with
      ⟨notes', hrest⟩
    have hstep : ∀ n ∈ (call.step config w).trace, InTime config n := fun n hn =>
      htaken n (by rw [runFrom_cons, hrest.trace]; exact List.mem_append_left _ hn)
    by_cases hcall : ∃ appErrorCode, call = .close appErrorCode
    · obtain ⟨appErrorCode, rfl⟩ := hcall
      refine ih hextends.consistent hclose.2 htaken fun hlast => ?_
      have hok : ∀ e, (hostClose config appErrorCode w).1 ≠ .error e := by
        intro e he
        cases he.symm.trans (Option.some.inj hlast)
      obtain ⟨hclosing, hasked⟩ := hostClose_asked hw (hclose.1 appErrorCode rfl) hok
      exact ⟨by rw [HostCall.step, hclosing]; rintro ⟨⟩, fun _ => hasked⟩
    · have hother := not_exists.mp hcall
      have hlast : lastClose config last w (call :: calls) =
          lastClose config last (call.step config w) calls := by
        cases call with
        | close appErrorCode => exact absurd rfl (hother appErrorCode)
        | _ => rfl
      rw [hlast]
      exact ih hextends.consistent hclose.2 htaken (HostCall.step_stopping hw hstep h)

/-! ## The last event -/

/-- What is seen of the end: HOST_CLOSED is queued, or another event. -/
inductive EndNote where
  | event
  | hostClosed
  deriving DecidableEq, Repr

/-- What a note says of the end. -/
def endKind : Note → Option EndNote
  | .pushed _ event => some (if event = .hostClosed then .hostClosed else .event)
  | _ => none

/-- Nothing is queued behind HOST_CLOSED. -/
def endNext : Bool → EndNote → Option Bool
  | false, .event => some false
  | false, .hostClosed => some true
  | true, _ => none

/-- Nothing is left that could be reported once the host is closed. -/
def Ended (config : HostConfig τ) (host : LeanLibp2p.Host) : Prop :=
  host.state = .closed → (∀ i, connLife (host.conns i) ≠ .opened) ∧
    ∀ d < config.maxPendingDials, (host.dials d).state ≠ .pending

theorem Ended.started : Ended config started := by rintro ⟨⟩

/-- A host without active work has no open connection, and no dial that is pending. -/
theorem ended_of_idle (hhost : Consistent config host)
    (hidle : hostHasActiveWork config host = false) :
    (∀ i, connLife (host.conns i) ≠ .opened) ∧
      ∀ d < config.maxPendingDials, (host.dials d).state ≠ .pending := by
  unfold hostHasActiveWork at hidle
  rw [Bool.or_eq_false_iff, Bool.or_eq_false_iff, Bool.or_eq_false_iff] at hidle
  obtain ⟨⟨⟨hconns, -⟩, hdials⟩, -⟩ := hidle
  refine ⟨fun i hlife => ?_, fun d hd hpending => ?_⟩
  · obtain ⟨hactive, hopen⟩ := connLife_opened hlife
    have hslot := List.any_eq_false.mp hconns i
      (List.mem_range.mpr (hhost.counted.connSlot i hactive))
    rw [hactive, hopen] at hslot
    exact hslot rfl
  · have hslot := List.any_eq_false.mp hdials d (List.mem_range.mpr hd)
    rw [hpending] at hslot
    exact hslot rfl

/-- Nothing comes back. -/
theorem Ended.step (h : Ended config host) (hhost : Consistent config host)
    (hstep : HostStep config host notes host') (htaken : ∀ n ∈ notes, InTime config n) :
    Ended config host' := by
  intro hclosed
  rcases hstep.state_spec with hsame | ⟨-, hclosing⟩ | ⟨-, -, hidle, -, hconns, hdials⟩
  · have hbefore := hsame.symm.trans hclosed
    obtain ⟨hconns, hdials⟩ := h hbefore
    refine ⟨fun i hlife => ?_, fun d hd hpending => ?_⟩
    · rcases (hstep.tellsConn hhost).opened hlife with hlife | halloc
      · exact hconns i hlife
      · exact hstep.not_allocated htaken (.inr hbefore) i (List.mem_of_mem_filter halloc)
    · have hruns := dialLife_of_pending hpending
      have hkept : ∀ {d? life}, DialsAfter host d? life host' → (d? = some d → life =
          .runs (host'.dials d).userData → False) → False := by
        intro d? life hafter hnot
        have hlife := hafter d
        by_cases heq : d? = some d
        · rw [if_pos heq] at hlife
          exact hnot heq (hlife.symm.trans hruns)
        · rw [if_neg heq, hruns] at hlife
          cases hstate : (host.dials d).state with
          | pending => exact hdials d hd hstate
          | free => cases hlife.trans (dialLife_of_free hstate)
          | evented => cases hlife.trans (dialLife_of_evented hstate)
      have htells := hstep.tells hhost
      generalize htold : notes.filter Note.tells = told at htells
      cases htells with
      | nothing _ hafter => exact hkept hafter (by rintro ⟨⟩)
      | begins _ _ hafter => exact hkept hafter (by rintro ⟨⟩)
      | takesBack _ _ hafter => exact hkept hafter (by rintro ⟨⟩)
      | reports _ _ _ hafter => exact hkept hafter (by rintro - ⟨⟩)
      | handsOver _ _ _ hafter => exact hkept hafter (by rintro - ⟨⟩)
      | @dials _ d' userData attempt _ _ hafter =>
        have hdialed : Note.dialed d' userData attempt ∈ notes.filter Note.tells := by
          rw [htold]
          exact List.mem_singleton.mpr rfl
        have hstarted : host.state = .started :=
          hstep.warranted _ (List.mem_of_mem_filter hdialed)
        cases hstarted.symm.trans hbefore
  · cases hclosing.symm.trans hclosed
  · rw [hconns, hdials]
    exact ended_of_idle hhost hidle

/-- The dial that is reported on has a slot. -/
theorem DialReport.slot {d : Nat} {event : TransportEvent} (h : DialReport config host d event) :
    d < config.maxPendingDials := by
  cases event with
  | dialFailed => exact (findSlot_some h).1
  | connClosed => exact (findSlot_some h.2).1
  | _ => cases h

/-- A closed host queues nothing. -/
theorem HostStep.not_pushed (hstep : HostStep config host notes host')
    (hhost : Consistent config host) (hended : Ended config host) (hclosed : host.state = .closed)
    (htaken : ∀ n ∈ notes, InTime config n) (k : LeanLibp2p.Host) (event : HostEvent) :
    .pushed k event ∉ notes := by
  obtain ⟨hconns, hdials⟩ := hended hclosed
  have hopen : ∀ i, (host.conns i).active = true → (host.conns i).closed = false → False :=
    fun i hactive hopen => hconns i (connLife_of_open hactive hopen)
  have hwaiting : ∀ o, (host.opens o).state = .waitTransport → False := fun o hwaits =>
    hopen _ (hhost.counted.openActive o (by rw [hwaits]; rintro ⟨⟩)) (hhost.settled.waiting o hwaits)
  have hnegotiating : ∀ s, (host.streams s).state = .negotiating → False := fun s hstate =>
    hopen _ (hhost.counted.streamActive s (by rw [hstate]; rintro ⟨⟩))
      (hhost.settled.stream s hstate)
  intro hn
  cases hstep with
  | @establishes host₁ host₂ k conn i userData userData' attempt dial notes hslot hdial =>
    obtain ⟨hnone, hfull⟩ := (htaken _ (List.mem_append_left _ List.mem_cons_self)).2 hclosed
    cases hslot with
    | known hfound => cases hfound.symm.trans hnone
    | new _ hfree => cases hfree.symm.trans hfull
  | dialFails hreport => exact hdials _ hreport.slot hreport.pending
  | calls _ _ _ hnotes => cases mem_of_calls hnotes hn
  | ends _ hnotes => rcases hnotes with rfl | ⟨-, kind, res, rfl⟩ <;> simp at hn
  | openFails hwaits => exact hwaiting _ hwaits
  | completesOutbound hstate => exact hnegotiating _ hstate
  | failsInbound hstate => exact hnegotiating _ hstate
  | failsOutbound hstate => exact hnegotiating _ hstate
  | connCloses hactive hnot => exact hopen _ hactive hnot
  | completes hclosing => cases hclosing.symm.trans hclosed
  | _ => simp at hn

theorem endKind_pushed (k : LeanLibp2p.Host) {event : HostEvent} (h : event ≠ .hostClosed) :
    endKind (.pushed k event) = some .event := congrArg some (if_neg h)

/-- Notes without HOST_CLOSED leave the queue open. -/
theorem reads_open (h : ∀ k, .pushed k .hostClosed ∉ notes) :
    Reads endKind endNext false notes false := by
  induction notes with
  | nil => exact .quiet (by rintro n ⟨⟩)
  | cons n notes ih =>
    have hrest := ih fun k hn => h k (List.mem_cons_of_mem _ hn)
    have hfirst : Reads endKind endNext false [n] false := by
      cases n with
      | pushed k event =>
        refine .single (endKind_pushed k ?_) rfl
        rintro rfl
        exact h k List.mem_cons_self
      | _ => exact .quiet fun n' hn' => by rw [List.mem_singleton.mp hn']; rfl
    exact hfirst.append hrest

/-- One step reads on. -/
theorem HostStep.reads_end (hstep : HostStep config host notes host')
    (hhost : Consistent config host) (hended : Ended config host)
    (htaken : ∀ n ∈ notes, InTime config n) :
    Reads endKind endNext (decide (host.state = .closed)) notes
      (decide (host'.state = .closed)) := by
  rcases hstep.state_spec with hsame | ⟨hstarted, hclosing⟩ | ⟨hclosing, hclosed, -, rfl, -⟩
  · rw [hsame]
    by_cases hclosed : host.state = .closed
    · refine .quiet fun n hn => ?_
      cases n with
      | pushed k event =>
        exact absurd hn (hstep.not_pushed hhost hended hclosed htaken k event)
      | _ => rfl
    · rw [decide_eq_false hclosed]
      refine reads_open fun k hn => hclosed ?_
      rw [← hsame]
      exact (hstep.warranted _ hn).2.1
  · rw [hstarted, hclosing]
    refine reads_open fun k hn => ?_
    cases hstarted.symm.trans (hstep.warranted _ hn).1
  · rw [hclosing, hclosed]
    exact .single rfl rfl

/-- HOST_CLOSED is queued only when nothing is active. -/
def ClosedIdle (config : HostConfig τ) : Note → Prop
  | .pushed host .hostClosed => hostHasActiveWork config host = false
  | _ => True

theorem HostStep.closed_idle (hstep : HostStep config host notes host') :
    ∀ n ∈ notes, ClosedIdle config n := by
  intro n hn
  have hwarranted := hstep.warranted n hn
  cases n with
  | pushed k event =>
    cases event with
    | hostClosed => exact hwarranted.2.2
    | _ => trivial
  | _ => trivial

/-- What `libp2p_host_close` promises of the state that a run reaches. -/
structure ShutsDown (config : HostConfig τ) (env : τ) (calls : List (HostCall τ)) : Prop where
  asked : AskedOrFailed (lastClose config none (World.start env) calls) (hostRun config env calls)
  /-- HOST_CLOSED is queued once the host is closed, and nothing is queued behind it. -/
  last : Reads endKind endNext false (hostRun config env calls).trace
    (decide ((hostRun config env calls).host.state = .closed))
  idle : ∀ n ∈ (hostRun config env calls).trace, ClosedIdle config n

/-- A host with a connection is closed, the connection closes, and the shutdown is complete. -/
def closeCalls : List (HostCall Script) :=
  [.outside { events := [.connEstablished 1 none 0] }, .drive 0 0, .nextEvent, .close 0,
    .outside { events := [.connClosed 1 none none 0 0] }, .drive 0 0]

/-- A handshake ends after the call. -/
def lateCalls : List (HostCall Script) :=
  [.close 0, .outside { events := [.connEstablished 1 none 0] }, .drive 0 0]

end LeanLibp2p.Host
