import LeanLibp2p.Host.Refines

/-!
# Streams as steps

How a stream is negotiated and ends, and how an open is retried, as steps of the host.
-/

namespace LeanLibp2p.Host

open LeanLibp2p.Lib

variable {τ : Type} {config : HostConfig τ} {w : World τ} {host : LeanLibp2p.Host}
variable {I : LeanLibp2p.Host → Prop}
variable {s : Nat}

/-! ## Releasing a stream -/

/-- Clearing an idle connection does not matter. -/
def Stable (I : LeanLibp2p.Host → Prop) : Prop :=
  ∀ host i, Idle (host.conns i) → I host → I (setConn i {} host)

theorem hostOpenRelease_setStream (o s : Nat) (stream : Stream) :
    hostOpenRelease o (setStream s stream host) = setStream s stream (hostOpenRelease o host) := by
  unfold hostOpenRelease
  by_cases hfree : (host.opens o).state = .free
  · rw [if_pos (show ((setStream s stream host).opens o).state = .free from hfree), if_pos hfree]
  · rw [if_neg (show ((setStream s stream host).opens o).state ≠ .free from hfree), if_neg hfree]
    rfl

/-- Only the role of a stream matters when it is released. -/
theorem hostStreamDrop_setStream {stream : Stream} (hconn : stream.conn = (host.streams s).conn)
    (hattempt : stream.openAttempt = (host.streams s).openAttempt) :
    hostStreamDrop s (setStream s stream host) = hostStreamDrop s host := by
  have hself : (setStream s stream host).streams s = stream := Function.update_self ..
  unfold hostStreamDrop
  dsimp only
  rw [hself, hconn, hattempt]
  let rest := setConn (host.streams s).conn
    { host.conns (host.streams s).conn with
      streamCount := (host.conns (host.streams s).conn).streamCount - 1 } host
  cases (host.streams s).openAttempt with
  | none => exact @setStream_setStream rest s {} stream
  | some o =>
    show setStream s {} (if (host.opens o).state = .evented then setStream s stream rest
      else hostOpenRelease o (setStream s stream rest)) =
        setStream s {} (if (host.opens o).state = .evented then rest else hostOpenRelease o rest)
    rw [hostOpenRelease_setStream]
    split
    · exact setStream_setStream ..
    · exact setStream_setStream ..

/-- A connection is looked at, whatever comes of it. -/
def lookAfter (config : HostConfig τ) (i : Nat) : HostM τ Unit :=
  Comp.result (hostConnTryRecycle config i) >>= fun _ => pure ()

/-- A stream in use is released, and its connection is looked at. -/
theorem hostStreamRelease_run (hused : (w.host.streams s).state ≠ .free) :
    hostStreamRelease config s w = lookAfter config (w.host.streams s).conn { w with
      host := hostStreamDrop s w.host
      trace := w.trace ++ [.streamReleased s] } := by
  unfold hostStreamRelease
  rw [Comp.read_id_bind, if_neg hused]
  rfl

theorem hostStreamRelease_free (hfree : (w.host.streams s).state = .free) :
    hostStreamRelease config s w = (.ok (), w) := by
  unfold hostStreamRelease
  rw [Comp.read_id_bind, if_pos hfree]
  rfl

theorem lookAfter_refines (hI : Stable I) (hw : I w.host) (i : Nat) :
    Refines config (lookAfter config i) w fun r w' => r = .ok () ∧ I w'.host := by
  have hrecycle : Refines config (hostConnTryRecycle config i) w fun _ w' => I w'.host :=
    (@hostConnTryRecycle_refines τ config w I hw i (hI w.host i · hw)).weaken
      fun _ _ _ hq => hq.1
  refine .bind (M := fun r w' => (∃ res, r = .ok res) ∧ I w'.host) ?_ ?_ ?_
  · exact Refines.result (hrecycle.weaken fun r w' _ hq => ⟨⟨r, rfl⟩, hq⟩)
  · exact fun _ w' hm => .pure ⟨rfl, hm.2⟩
  · rintro e w' ⟨⟨res, hres⟩, -⟩
    cases hres

/-! ## A negotiation that fails -/

/-- The event of an open that fails with its stream. -/
def failEvent (s o : Nat) (reason : HostErr) (termination : Option Termination)
    (host : LeanLibp2p.Host) : HostEvent :=
  .streamOpenFailed (host.streams s).conn (some o) (host.opens o).userData reason
    (termination.elim 0 Termination.appErrorCode) (termination.elim 0 Termination.transportErrorCode)

/-- The tables after the open of a stream failed with it. -/
def failOpen (s o : Nat) (event : HostEvent) (host : LeanLibp2p.Host) : LeanLibp2p.Host :=
  hostStreamDrop s (pushEvent event (setOpenState o .evented host))

theorem failOpen_setStream {s o : Nat} {event : HostEvent} {stream : Stream}
    (hconn : stream.conn = (host.streams s).conn)
    (hattempt : stream.openAttempt = (host.streams s).openAttempt) :
    failOpen s o event (setStream s stream host) = failOpen s o event host :=
  @hostStreamDrop_setStream (pushEvent event (setOpenState o .evented host)) s stream hconn hattempt

/-- The call of the transport that resets a stream, if it is made. -/
theorem onlyIf_transport_run (b : Bool) (c : Comp τ HostErr Unit) (w : World τ) :
    ∃ env, Comp.onlyIf b (do
      let _ ← Comp.result (onTransport c)
      pure ()) w = (.ok (), { w with env := env }) := by
  cases b with
  | false => exact ⟨w.env, rfl⟩
  | true => exact ⟨(c w.env).2, rfl⟩

/-- An inbound stream is reset and released. -/
theorem hostStreamFailNegotiation_inbound {reason : HostErr}
    {termination : Option Termination} (hused : (w.host.streams s).state ≠ .free)
    (hdirection : (w.host.streams s).direction = .inbound) :
    ∃ env, hostStreamFailNegotiation config s reason termination w =
      (lookAfter config (w.host.streams s).conn >>= fun _ => Comp.ofResult (.ok ()))
        { w with
          host := hostStreamDrop s w.host
          env := env
          trace := w.trace ++ [.streamReleased s] } := by
  let failed : Stream := { w.host.streams s with negState := .failed }
  have hself : (setStream s failed w.host).streams s = failed := Function.update_self ..
  have hdrop : hostStreamDrop s (setStream s failed w.host) = hostStreamDrop s w.host :=
    hostStreamDrop_setStream rfl rfl
  have hmodify : modifyHost (updateStream s fun stream => { stream with negState := .failed }) w =
      (.ok (), { w with host := setStream s failed w.host }) := rfl
  unfold hostStreamFailNegotiation
  rw [Comp.bind_of_ok hmodify, Comp.read_id_bind]
  dsimp only
  rw [hself]
  rcases onlyIf_transport_run (termination.all Termination.reset)
    (config.transport.streamReset failed.transportStream 0)
    { w with host := setStream s failed w.host } with ⟨env, hreset⟩
  have hinbound : ¬(failed.direction = .outbound ∧ failed.outboundFailEventQueued = false) := by
    rintro ⟨houtbound, -⟩
    cases hdirection.symm.trans houtbound
  have hrelease := @hostStreamRelease_run τ config
    { w with host := setStream s failed w.host, env := env } s (by rw [hself]; exact hused)
  rw [Comp.bind_of_ok hreset, if_neg hinbound, Comp.bind_of_ok (Comp.pure_apply _ _),
    Comp.bind_eq hrelease, hself, hdrop]
  exact ⟨env, rfl⟩

/-- An outbound stream is reset and released, and the event of its open is queued. -/
theorem hostStreamFailNegotiation_outbound {s o : Nat} {reason : HostErr}
    {termination : Option Termination} (hused : (w.host.streams s).state ≠ .free)
    (hdirection : (w.host.streams s).direction = .outbound)
    (hqueued : (w.host.streams s).outboundFailEventQueued = false)
    (hattempt : (w.host.streams s).openAttempt = some o) (hroom : Room config 1 w.host) :
    ∃ env result k, hostStreamFailNegotiation config s reason termination w =
      (lookAfter config (w.host.streams s).conn >>= fun _ => Comp.ofResult (.ok ()))
        { host := failOpen s o (failEvent s o reason termination w.host) w.host
          result := result
          env := env
          trace := w.trace ++
            [.pushed k (failEvent s o reason termination w.host), .streamReleased s] } := by
  let failed : Stream := { w.host.streams s with negState := .failed }
  have hself : (setStream s failed w.host).streams s = failed := Function.update_self ..
  have hmodify : modifyHost (updateStream s fun stream => { stream with negState := .failed }) w =
      (.ok (), { w with host := setStream s failed w.host }) := rfl
  unfold hostStreamFailNegotiation
  rw [Comp.bind_of_ok hmodify, Comp.read_id_bind]
  dsimp only
  rw [hself]
  rcases onlyIf_transport_run (termination.all Termination.reset)
    (config.transport.streamReset failed.transportStream 0)
    { w with host := setStream s failed w.host } with ⟨env, hreset⟩
  have houtbound : failed.direction = .outbound ∧ failed.outboundFailEventQueued = false :=
    ⟨hdirection, hqueued⟩
  let queued : Stream := { failed with outboundFailEventQueued := true }
  let settled := setOpenState o .evented (setStream s queued w.host)
  have hattempt' : failed.openAttempt = some o := hattempt
  have hsettle : modifyHost (eventOpen failed.openAttempt)
      { w with host := setStream s failed w.host, env := env } =
      (.ok (), { w with
        host := setOpenState o .evented (setStream s failed w.host), env := env }) := by
    rw [hattempt']
    rfl
  have hsettled : updateStream s (fun stream => { stream with outboundFailEventQueued := true })
      (setOpenState o .evented (setStream s failed w.host)) = settled := by
    show setOpenState o .evented (updateStream s (fun stream =>
      { stream with outboundFailEventQueued := true }) (setStream s failed w.host)) = settled
    unfold updateStream
    rw [hself, setStream_setStream]
  have hmark : modifyHost (updateStream s fun stream =>
      { stream with outboundFailEventQueued := true })
        { w with host := setOpenState o .evented (setStream s failed w.host), env := env } =
      (.ok (), { w with host := settled, env := env }) := by
    rw [modifyHost_apply, hsettled]
  have huserData : openUserData failed.openAttempt (setStream s failed w.host) =
      (w.host.opens o).userData := by
    rw [hattempt']
    rfl
  have hpush := Comp.result_of_run
    (@hostEventPush_run τ config { w with host := settled, env := env } hroom
      (.streamOpenFailed failed.conn (some o) (w.host.opens o).userData reason
        (termination.elim 0 Termination.appErrorCode)
        (termination.elim 0 Termination.transportErrorCode)))
  have hself' : ∀ event, (pushEvent event settled).streams s = queued :=
    fun _ => Function.update_self ..
  have hused' : ∀ event, ((pushEvent event settled).streams s).state ≠ .free := by
    intro event
    rw [hself']
    exact hused
  have hdrop : ∀ event, hostStreamDrop s (pushEvent event settled) = failOpen s o event w.host :=
    fun event => @failOpen_setStream w.host s o event queued rfl rfl
  rw [Comp.bind_of_ok hreset, if_pos houtbound, huserData, Comp.bind_of_ok hsettle,
    Comp.bind_of_ok hmark, hattempt', Comp.bind_of_ok hpush]
  dsimp only
  rw [Comp.bind_of_ok (Comp.pure_apply _ _), Comp.bind_eq (hostStreamRelease_run (hused' _))]
  dsimp only
  rw [hself', hdrop, List.append_assoc]
  exact ⟨env, _, settled, rfl⟩

/-- The open of an outbound stream that is negotiated. -/
theorem Consistent.outbound_attempt (h : Consistent config host) {s : Nat}
    (hnegotiating : (host.streams s).state = .negotiating)
    (hdirection : (host.streams s).direction = .outbound) :
    ∃ o, (host.streams s).openAttempt = some o :=
  Option.ne_none_iff_exists'.mp (h.attempts.outbound s hnegotiating hdirection)

theorem Stream.used_of_negotiating {stream : Stream} (h : stream.state = .negotiating) :
    stream.state ≠ .free := by
  rw [h]
  rintro ⟨⟩

/-- The end of a failed negotiation. -/
theorem lookAfter_ok_refines (hI : Stable I) (hw : I w.host) (i : Nat) :
    Refines config (lookAfter config i >>= fun _ => Comp.ofResult (.ok ())) w fun r w' =>
      r = .ok () ∧ I w'.host := by
  refine .bind (lookAfter_refines hI hw i) ?_ ?_
  · exact fun _ _ hm => .ofResult ⟨rfl, hm.2⟩
  · rintro e w' ⟨hres, -⟩
    cases hres

/-- A negotiation fails. -/
theorem hostStreamFailNegotiation_refines (hI : Stable I) {s : Nat}
    (hnegotiating : (w.host.streams s).state = .negotiating) (reason : HostErr)
    (termination : Option Termination)
    (hinbound : (w.host.streams s).direction = .inbound → I (hostStreamDrop s w.host))
    (houtbound : ∀ o event, (w.host.streams s).direction = .outbound →
      (w.host.streams s).openAttempt = some o → (w.host.opens o).state = .negotiating →
        I (failOpen s o event w.host))
    (hroom : ∀ o, (w.host.opens o).state = .negotiating → Room config 1 w.host) :
    Refines config (hostStreamFailNegotiation config s reason termination) w fun r w' =>
      r = .ok () ∧ I w'.host := by
  apply Refines.assume
  intro hconsistent
  have hused := Stream.used_of_negotiating hnegotiating
  cases hdirection : (w.host.streams s).direction with
  | inbound =>
    rcases @hostStreamFailNegotiation_inbound τ config w s reason termination hused hdirection
      with ⟨env, hrun⟩
    refine .step_then hrun rfl (.failsInbound hnegotiating hdirection (.inl rfl)) ?_
    exact lookAfter_ok_refines hI (hinbound hdirection) _
  | outbound =>
    rcases hconsistent.outbound_attempt hnegotiating hdirection with ⟨o, hattempt⟩
    have hopen := hconsistent.attempt_negotiating hnegotiating hattempt
    rcases @hostStreamFailNegotiation_outbound τ config w s o reason termination hused hdirection
      (hconsistent.attempts.fresh s hnegotiating).2 hattempt (hroom o hopen)
      with ⟨env, result, k, hrun⟩
    refine .step_then hrun rfl (.failsOutbound hnegotiating hdirection hattempt (.inl rfl)) ?_
    exact lookAfter_ok_refines hI (houtbound o _ hdirection hattempt hopen) _

/-! ## A negotiation that completes -/

/-- A callback changes its stream and the transport. -/
theorem callProtocol_run (i : Nat) (name : Callback) (callback : Comp (CallbackState τ) HostErr Unit)
    (w : World τ) :
    ∃ inFrame userData result env,
      callProtocol i name callback w =
        ((callback ⟨(w.host.streams i).inFrame, (w.host.streams i).userData, w.env⟩).1,
          { host := setStream i
              { w.host.streams i with inFrame := inFrame, userData := userData } w.host
            result := result
            env := env
            trace := w.trace ++ [.called i name
              (callback ⟨(w.host.streams i).inFrame, (w.host.streams i).userData, w.env⟩).1] }) :=
  ⟨_, _, _, _, rfl⟩

/-- `host_stream_release` leaves the queue alone. -/
theorem hostStreamDrop_events (s : Nat) (host : LeanLibp2p.Host) :
    (hostStreamDrop s host).events = host.events := by
  unfold hostStreamDrop
  dsimp only
  cases (host.streams s).openAttempt with
  | none => rfl
  | some o =>
    dsimp only
    split
    · rfl
    · unfold hostOpenRelease
      dsimp only
      split
      · rfl
      · rfl

/-- The queue changes only for the sake of an outbound stream. -/
def QuietInbound (s : Nat) (host host' : LeanLibp2p.Host) : Prop :=
  (host.streams s).direction = .inbound → host'.events = host.events

theorem stable_quiet (s : Nat) (host : LeanLibp2p.Host) : Stable (QuietInbound s host) :=
  fun _ _ _ h => h

/-- A negotiation fails at its last step, behind the callback of its protocol. -/
theorem failCompletion_refines {c : HostM τ Unit} {s : Nat} {stream : Stream} {notes : List Note}
    {reason : HostErr} {termination : Option Termination} {w' : World τ}
    (hnegotiating : (w.host.streams s).state = .negotiating)
    (hrun : c w = hostStreamFailNegotiation config s reason termination w')
    (hhost : w'.host = setStream s stream w.host) (htrace : w'.trace = w.trace ++ notes)
    (hstream : stream.state = .opened ∧ stream.conn = (w.host.streams s).conn ∧
      stream.direction = (w.host.streams s).direction ∧
      stream.openAttempt = (w.host.streams s).openAttempt ∧
      stream.outboundFailEventQueued = (w.host.streams s).outboundFailEventQueued)
    (hnotes : notes = [] ∨ ∃ e, notes = [.called s .onOpen (.error e)])
    (hroom : ∀ o, (w.host.opens o).state = .negotiating → Room config 1 w.host) :
    Refines config c w fun r w' => r = .ok () ∧ QuietInbound s w.host w'.host := by
  apply Refines.assume
  intro hconsistent
  rcases hstream with ⟨hopened, hconn, hsame, hattempt', hqueued⟩
  have hself : w'.host.streams s = stream := by
    rw [hhost]
    exact Function.update_self ..
  have hused : (w'.host.streams s).state ≠ .free := by
    rw [hself, hopened]
    rintro ⟨⟩
  cases hdirection : (w.host.streams s).direction with
  | inbound =>
    have hinbound : (w'.host.streams s).direction = .inbound := by rw [hself, hsame, hdirection]
    rcases @hostStreamFailNegotiation_inbound τ config w' s reason termination hused hinbound
      with ⟨env, hfail⟩
    rw [hhost, hostStreamDrop_setStream hconn hattempt', htrace, List.append_assoc] at hfail
    refine .step_then (hrun.trans hfail) rfl (.failsInbound hnegotiating hdirection hnotes) ?_
    exact lookAfter_ok_refines (stable_quiet s w.host) (fun _ => hostStreamDrop_events s w.host) _
  | outbound =>
    rcases hconsistent.outbound_attempt hnegotiating hdirection with ⟨o, hattempt⟩
    have hopen := hconsistent.attempt_negotiating hnegotiating hattempt
    have houtbound : (w'.host.streams s).direction = .outbound := by rw [hself, hsame, hdirection]
    have hroom' : Room config 1 w'.host := by
      rw [hhost]
      exact hroom o hopen
    rcases @hostStreamFailNegotiation_outbound τ config w' s o reason termination hused houtbound
      (by rw [hself, hqueued]; exact (hconsistent.attempts.fresh s hnegotiating).2)
      (by rw [hself, hattempt']; exact hattempt) hroom' with ⟨env, result, k, hfail⟩
    have hevent : failEvent s o reason termination w'.host =
        failEvent s o reason termination w.host := by
      unfold failEvent
      rw [hself, hconn, hhost]
      rfl
    rw [hevent, hhost, failOpen_setStream hconn hattempt', htrace, List.append_assoc] at hfail
    refine .step_then (hrun.trans hfail) rfl
      (.failsOutbound hnegotiating hdirection hattempt hnotes) ?_
    refine lookAfter_ok_refines (stable_quiet s w.host) ?_ _
    intro hinbound
    cases hinbound.symm.trans hdirection

/-- The stream with its negotiation done. -/
def World.negotiated (w : World τ) (s : Nat) : Stream :=
  { w.host.streams s with negState := .done, state := .opened }

/-- The protocol of the stream is about to open. -/
def World.opening (w : World τ) (s : Nat) : World τ :=
  { w with host := setStream s (w.negotiated s) w.host }

theorem World.opening_streams (w : World τ) (s : Nat) :
    (w.opening s).host.streams s = w.negotiated s := Function.update_self ..

/-- The stream after its protocol opened. -/
def Stream.ready (stream : Stream) : Stream :=
  { stream with pendingWritable := true, pendingReadable := true }

/-- The callback that opens a protocol changes its stream and the transport, and is noted. -/
theorem hostProtocolOpen_run (config : HostConfig τ) (w : World τ) (s : Nat) :
    ∃ result after inFrame userData notes,
      hostProtocolOpen config s (w.opening s) = (result, after) ∧
      after.host = setStream s
        { w.negotiated s with inFrame := inFrame, userData := userData } w.host ∧
      after.trace = w.trace ++ notes ∧
      (result = .ok () → notes = [.called s .onOpen (.ok ())]) ∧
      (∀ e, result = .error e → notes = [] ∨ notes = [.called s .onOpen (.error e)]) := by
  cases hprotocol : streamProtocol config (w.negotiated s) with
  | none =>
    have hopen : hostProtocolOpen config s (w.opening s) = (.error .invalidArg, w.opening s) := by
      unfold hostProtocolOpen
      rw [Comp.read_id_bind, w.opening_streams, hprotocol]
      rfl
    refine ⟨_, _, _, _, [], hopen, rfl, (List.append_nil _).symm, ?_, fun _ _ => .inl rfl⟩
    rintro ⟨⟩
  | some protocol =>
    have hopen : hostProtocolOpen config s (w.opening s) =
        callProtocol s .onOpen (protocol.onOpen s (w.negotiated s)) (w.opening s) := by
      unfold hostProtocolOpen
      rw [Comp.read_id_bind, w.opening_streams, hprotocol]
    rcases callProtocol_run s .onOpen (protocol.onOpen s (w.negotiated s)) (w.opening s) with
      ⟨inFrame, userData, result, env, hcall⟩
    refine ⟨_, _, inFrame, userData, _, hopen.trans hcall, ?_, rfl, ?_, ?_⟩
    · dsimp only
      rw [w.opening_streams]
      exact setStream_setStream ..
    · intro hok
      rw [hok]
    · intro e herror
      rw [herror]
      exact .inr rfl

section Completion

variable {after : World τ} {called : Stream}

theorem opening_run : modifyHost (updateStream s fun stream =>
    { stream with negState := .done, state := .opened }) w = (.ok (), w.opening s) := rfl

/-- The negotiation fails when the protocol does not open. -/
theorem hostStreamCompleteNegotiation_error {e : HostErr}
    (hopen : hostProtocolOpen config s (w.opening s) = (.error e, after)) :
    hostStreamCompleteNegotiation config s w =
      hostStreamFailNegotiation config s .protocol none after := by
  unfold hostStreamCompleteNegotiation
  rw [Comp.bind_of_ok opening_run, Comp.bind_of_ok (Comp.result_of_run hopen)]

/-- The stream is marked when its protocol opened. -/
theorem markReady_run (hhost : after.host = setStream s called w.host) :
    modifyHost (updateStream s fun stream =>
        { stream with pendingWritable := true, pendingReadable := true }) after =
      (.ok (), { after with host := setStream s called.ready w.host }) := by
  rw [modifyHost_apply, hhost]
  unfold updateStream
  rw [setStream_setStream, show (setStream s called w.host).streams s = called from
    Function.update_self ..]
  rfl

/-- An inbound stream is open then. -/
theorem hostStreamCompleteNegotiation_inbound
    (hopen : hostProtocolOpen config s (w.opening s) = (.ok (), after))
    (hhost : after.host = setStream s called w.host) (hdirection : called.direction = .inbound) :
    hostStreamCompleteNegotiation config s w =
      (.ok (), { after with host := setStream s called.ready w.host }) := by
  have hready : (setStream s called.ready w.host).streams s = called.ready :=
    Function.update_self ..
  have hinbound : ¬(called.ready.direction = .outbound ∧
      called.ready.outboundOpenEventQueued = false) := by
    rintro ⟨houtbound, -⟩
    cases hdirection.symm.trans houtbound
  unfold hostStreamCompleteNegotiation
  rw [Comp.bind_of_ok opening_run, Comp.bind_of_ok (Comp.result_of_run hopen)]
  dsimp only
  rw [Comp.bind_of_ok (markReady_run hhost), Comp.read_id_bind]
  dsimp only
  rw [hready, if_neg hinbound]
  rfl

/-- The stream of an attempt is open then, and the application is told. -/
theorem hostStreamCompleteNegotiation_outbound {o : Nat}
    (hopen : hostProtocolOpen config s (w.opening s) = (.ok (), after))
    (hhost : after.host = setStream s called w.host) (hdirection : called.direction = .outbound)
    (hqueued : called.outboundOpenEventQueued = false) (hattempt : called.openAttempt = some o)
    (hroom : Room config 1 w.host) :
    let queued := setStream s { called.ready with outboundOpenEventQueued := true }
      (setOpenState o .evented w.host)
    let event := HostEvent.streamOpened called.conn s (some o) (w.host.opens o).userData
    hostStreamCompleteNegotiation config s w =
      (.ok (), { after with
        host := pushEvent event queued
        result :=
          { after.result with hostEvents := after.result.hostEvents + 1, madeProgress := true }
        trace := after.trace ++ [.pushed queued event] }) := by
  intro queued event
  have hready : (setStream s called.ready w.host).streams s = called.ready :=
    Function.update_self ..
  have hready' : (setStream s called.ready (setOpenState o .evented w.host)).streams s =
      called.ready := Function.update_self ..
  have houtbound : called.ready.direction = .outbound ∧
      called.ready.outboundOpenEventQueued = false := ⟨hdirection, hqueued⟩
  have hattempt' : called.ready.openAttempt = some o := hattempt
  have huserData : openUserData called.ready.openAttempt (setStream s called.ready w.host) =
      (w.host.opens o).userData := by
    rw [hattempt']
    rfl
  have hsettle : modifyHost (eventOpen called.ready.openAttempt)
      { after with host := setStream s called.ready w.host } =
        (.ok (), { after with
          host := setStream s called.ready (setOpenState o .evented w.host) }) := by
    rw [hattempt']
    rfl
  have hmark : modifyHost (updateStream s fun stream =>
      { stream with outboundOpenEventQueued := true })
        { after with host := setStream s called.ready (setOpenState o .evented w.host) } =
          (.ok (), { after with host := queued }) := by
    rw [modifyHost_apply]
    unfold updateStream
    dsimp only
    rw [hready', setStream_setStream]
  have hpush := Comp.result_of_run (@hostEventPush_run τ config { after with host := queued }
    hroom (.streamOpened called.ready.conn s (some o) (w.host.opens o).userData))
  unfold hostStreamCompleteNegotiation
  rw [Comp.bind_of_ok opening_run, Comp.bind_of_ok (Comp.result_of_run hopen)]
  dsimp only
  rw [Comp.bind_of_ok (markReady_run hhost), Comp.read_id_bind]
  dsimp only
  rw [hready, if_pos houtbound, huserData, Comp.bind_of_ok hsettle, Comp.bind_of_ok hmark,
    hattempt', Comp.bind_of_ok hpush]
  rfl

end Completion

/-- `host_stream_complete_negotiation`. -/
theorem hostStreamCompleteNegotiation_refines (hnegotiating : (w.host.streams s).state = .negotiating)
    (hroom : ∀ o, (w.host.opens o).state = .negotiating → Room config 1 w.host) :
    Refines config (hostStreamCompleteNegotiation config s) w fun r w' =>
      r = .ok () ∧ QuietInbound s w.host w'.host := by
  apply Refines.assume
  intro hconsistent
  rcases hostProtocolOpen_run config w s with
    ⟨result, after, inFrame, userData, notes, hopen, hhost, htrace, hok, herror⟩
  cases result with
  | error e =>
    refine failCompletion_refines hnegotiating (hostStreamCompleteNegotiation_error hopen) hhost
      htrace ⟨rfl, rfl, rfl, rfl, rfl⟩ ?_ hroom
    exact (herror e rfl).imp_right fun hnotes => ⟨e, hnotes⟩
  | ok _ =>
    rw [hok rfl] at htrace
    cases hdirection : (w.host.streams s).direction with
    | inbound =>
      exact .step_done (hostStreamCompleteNegotiation_inbound hopen hhost hdirection) htrace
        (.completesInbound hnegotiating hdirection
          ⟨rfl, rfl, rfl, rfl, rfl, rfl, rfl, fun _ => rfl⟩ rfl) ⟨rfl, fun _ => rfl⟩
    | outbound =>
      rcases hconsistent.outbound_attempt hnegotiating hdirection with ⟨o, hattempt⟩
      have hwhole := hostStreamCompleteNegotiation_outbound hopen hhost hdirection
        (hconsistent.attempts.fresh s hnegotiating).1 hattempt
        (hroom o (hconsistent.attempt_negotiating hnegotiating hattempt))
      rw [htrace] at hwhole
      refine .step_done hwhole (List.append_assoc ..) ?_ ⟨rfl, fun hinbound => ?_⟩
      · exact .completesOutbound hnegotiating hdirection hattempt
          ⟨rfl, rfl, rfl, rfl, rfl, rfl, rfl, fun _ => rfl⟩ rfl
      · cases hinbound.symm.trans hdirection

/-! ## Negotiation steps -/

/-- What a negotiation step leaves of its stream. -/
def Stream.place (stream : Stream) :
    Nat × Nat × Option Nat × StreamState × Direction × Bool × Bool × Bool :=
  (stream.conn, stream.transportStream, stream.openAttempt, stream.state, stream.direction,
    stream.outboundOpenEventQueued, stream.outboundFailEventQueued, stream.pendingReadable)

/-- The stream of the negotiation keeps its place. -/
def InPlace (stream : Stream) (n : Negotiation τ) : Prop := n.stream.place = stream.place

section InPlace

variable {stream : Stream} {next : NegotiationM τ Outcome}

theorem modifyStream_keeps {f : Stream → Stream} (h : ∀ stream, (f stream).place = stream.place) :
    Comp.Keeps (InPlace stream) (modifyStream f : NegotiationM τ Unit) :=
  .update fun n hn => (h n.stream).trans hn

theorem makeProgress_keeps : Comp.Keeps (InPlace stream) (makeProgress : NegotiationM τ Unit) :=
  .update fun _ hn => hn

theorem onEnv_keeps {α : Type} (c : Comp τ HostErr α) :
    Comp.Keeps (InPlace stream) (onEnv c) := fun _ hn => hn

theorem setNegState_keeps (state : NegotiationState) :
    Comp.Keeps (InPlace stream) (setNegState state : NegotiationM τ Unit) :=
  modifyStream_keeps fun _ => rfl

theorem hostStreamPrepareMessage_keeps (payload : Bytes) :
    Comp.Keeps (InPlace stream) (hostStreamPrepareMessage payload : NegotiationM τ Unit) := by
  unfold hostStreamPrepareMessage
  cases multistreamSelectMessageEncode payload hostNegotiationFrameCap with
  | error e => exact .fail _
  | ok frame => exact modifyStream_keeps fun _ => rfl

theorem hostStreamPrepareLs_keeps : Comp.Keeps (InPlace stream) (hostStreamPrepareLs config) := by
  unfold hostStreamPrepareLs
  cases multistreamSelectLsResponsePayloadEncode (config.protocols.map Protocol.id)
    hostNegotiationPayloadCap with
  | error e => exact .fail _
  | ok payload =>
    exact .bind (modifyStream_keeps fun _ => rfl) fun _ => hostStreamPrepareMessage_keeps payload

theorem hostStreamSendPrepared_keeps :
    Comp.Keeps (InPlace stream) (hostStreamSendPrepared config) := by
  unfold hostStreamSendPrepared
  refine .bind (.read _) fun n => .ite (fun _ => .pure _) fun _ => ?_
  refine .bind (onEnv_keeps _) fun accepted => .bind (modifyStream_keeps fun _ => rfl) fun _ => ?_
  refine .bind (.onlyIf fun _ => makeProgress_keeps) fun _ => ?_
  exact .ite (fun _ => .fail _) fun _ => .pure _

theorem takeMessage_keeps (payload : Bytes) (consumed : Nat) : Comp.Keeps (InPlace stream) (do
    modifyStream (takeMessage payload consumed)
    makeProgress : NegotiationM τ Unit) :=
  .bind (modifyStream_keeps fun _ => rfl) fun _ => makeProgress_keeps

theorem hostStreamReadMessage_keeps :
    Comp.Keeps (InPlace stream) (hostStreamReadMessage config) := by
  unfold hostStreamReadMessage
  refine .bind (.read _) fun n => ?_
  cases decodeInFrame n.stream with
  | ok message => exact takeMessage_keeps message.1 message.2
  | error e =>
    cases e with
    | truncated =>
      refine .ite (fun _ => .fail _) fun _ => .bind (onEnv_keeps _) fun read => ?_
      refine .bind (modifyStream_keeps fun _ => rfl) fun _ => ?_
      refine .bind (.onlyIf fun _ => makeProgress_keeps) fun _ => ?_
      refine .ite (fun _ => .fail _) fun _ => .bind (.read _) fun n => ?_
      cases decodeInFrame n.stream with
      | ok message => exact takeMessage_keeps message.1 message.2
      | error e => cases e <;> exact .fail _
    | _ => exact .fail _

theorem sendThen_keeps (hnext : Comp.Keeps (InPlace stream) next) :
    Comp.Keeps (InPlace stream) (sendThen config next) :=
  .bind hostStreamSendPrepared_keeps fun _ => .bind (.read _) fun _ =>
    .ite (fun _ => hnext) fun _ => .pure _

theorem advance_keeps (state : NegotiationState) :
    Comp.Keeps (InPlace stream) (advance state : NegotiationM τ Outcome) :=
  .bind (setNegState_keeps state) fun _ => .bind makeProgress_keeps fun _ => .pure _

theorem hostStreamOutboundStep_keeps :
    Comp.Keeps (InPlace stream) (hostStreamOutboundStep config) := by
  unfold hostStreamOutboundStep
  refine .bind (.read _) fun n => ?_
  cases n.stream.negState with
  | outSendMs =>
    refine .bind (.onlyIf fun _ => hostStreamPrepareMessage_keeps _) fun _ => ?_
    exact sendThen_keeps (advance_keeps _)
  | outSendProtocol =>
    dsimp only
    cases n.stream.protocol.bind (protocolId config) with
    | none => exact .fail _
    | some protocol =>
      refine .bind (.onlyIf fun _ => hostStreamPrepareMessage_keeps _) fun _ => ?_
      exact sendThen_keeps (advance_keeps _)
  | outReadMs =>
    refine .bind hostStreamReadMessage_keeps fun _ => .bind (.read _) fun n => ?_
    exact .ite (fun _ => .bind (modifyStream_keeps fun _ => rfl) fun _ => .pure _) fun _ => .fail _
  | outReadProtocol =>
    refine .bind hostStreamReadMessage_keeps fun _ => .bind (.read _) fun n => ?_
    refine .ite (fun _ => .pure _) fun _ => .ite (fun _ => ?_) fun _ => .fail _
    cases n.stream.fallbackProtocol with
    | none => exact .pure _
    | some fallback =>
      exact .bind (modifyStream_keeps fun _ => rfl) fun _ => .bind makeProgress_keeps fun _ => .pure _
  | _ => exact .fail _

theorem hostStreamInboundStep_keeps :
    Comp.Keeps (InPlace stream) (hostStreamInboundStep config) := by
  unfold hostStreamInboundStep
  refine .bind (.read _) fun n => ?_
  cases n.stream.negState with
  | inReadMs =>
    refine .bind hostStreamReadMessage_keeps fun _ => .bind (.read _) fun n => ?_
    refine .ite (fun _ => .bind (hostStreamPrepareMessage_keeps _) fun _ => ?_) fun _ => .fail _
    exact .bind (setNegState_keeps _) fun _ => .pure _
  | inSendProtocol => exact sendThen_keeps (.ite (fun _ => .pure _) fun _ => advance_keeps _)
  | inReadProtocol =>
    refine .bind hostStreamReadMessage_keeps fun _ => .bind (.read _) fun n => ?_
    refine .ite (fun _ => ?_) fun _ => ?_
    · exact .bind hostStreamPrepareLs_keeps fun _ => .bind (setNegState_keeps _) fun _ => .pure _
    · cases hostProtocolFind config n.stream.payload with
      | ok protocol =>
        refine .bind (modifyStream_keeps fun _ => rfl) fun _ => ?_
        refine .bind (hostStreamPrepareMessage_keeps _) fun _ => ?_
        exact .bind (setNegState_keeps _) fun _ => .pure _
      | error e =>
        refine .bind (hostStreamPrepareMessage_keeps _) fun _ => ?_
        exact .bind (setNegState_keeps _) fun _ => .pure _
  | inSendNa => exact sendThen_keeps (advance_keeps _)
  | inSendLs => exact sendThen_keeps (advance_keeps _)
  | _ => exact .fail _

theorem hostStreamDirectionStep_keeps :
    Comp.Keeps (InPlace stream) (hostStreamDirectionStep config) := by
  unfold hostStreamDirectionStep
  refine .bind (.read _) fun n => ?_
  cases n.stream.direction with
  | outbound => exact hostStreamOutboundStep_keeps
  | inbound => exact hostStreamInboundStep_keeps

end InPlace

/-- A stream that is negotiated has no protocol for good. -/
theorem Stream.SameRole.of_place {stream stream' : Stream} (h : stream'.place = stream.place)
    (hnegotiating : stream.state = .negotiating) : stream.SameRole stream' := by
  unfold Stream.place at h
  simp only [Prod.mk.injEq] at h
  rcases h with ⟨hconn, htransport, hattempt, hstate, hdirection, hopen, hfail, -⟩
  refine ⟨hconn, htransport, hattempt, hstate, hdirection, hopen, hfail, fun hopened => ?_⟩
  rw [hnegotiating] at hopened
  cases hopened

/-- A step only ends a negotiation on an outbound stream behind a message. -/
def EndsBehind (r : Except HostErr Outcome) (n : Negotiation τ) : Prop :=
  r = .ok .completes ∨ r = .ok .unsupported → n.madeProgress = true

theorem hostStreamReadMessage_progress : Comp.Triple (fun _ => True) (hostStreamReadMessage config)
    fun r n => r = .ok () → n.madeProgress = true := by
  unfold hostStreamReadMessage
  refine .bind (M := fun _ _ => True) (.read fun _ _ => ⟨fun _ _ => trivial, by rintro e ⟨⟩⟩) ?_
  intro n
  cases decodeInFrame n.stream with
  | ok message => exact fun _ _ _ => rfl
  | error e =>
    cases e with
    | truncated =>
      refine .ite (fun _ => .fail fun _ _ => by rintro ⟨⟩) fun _ => ?_
      refine .bind (M := fun _ _ => True) (fun n _ => ⟨fun _ _ => trivial, fun _ _ => by rintro ⟨⟩⟩) ?_
      intro read
      refine .bind (M := fun _ _ => True) (.update fun _ _ => ⟨fun _ _ => trivial, by rintro e ⟨⟩⟩) ?_
      intro _
      refine .bind (M := fun _ _ => True) (fun n _ => ⟨fun _ _ => trivial, fun _ _ => by rintro ⟨⟩⟩) ?_
      intro _
      refine .ite (fun _ => .fail fun _ _ => by rintro ⟨⟩) fun _ => ?_
      refine .bind (M := fun _ _ => True) (.read fun _ _ => ⟨fun _ _ => trivial, by rintro e ⟨⟩⟩) ?_
      intro n
      cases decodeInFrame n.stream with
      | ok message => exact fun _ _ _ => rfl
      | error e => cases e <;> exact .fail fun _ _ => by rintro ⟨⟩
    | _ => exact .fail fun _ _ => by rintro ⟨⟩

/-- A message is read, and the rest keeps the progress it made. -/
theorem readThen_progress {f : Unit → NegotiationM τ Outcome}
    (h : ∀ a, Comp.Keeps (fun n => n.madeProgress = true) (f a)) :
    Comp.Triple (fun _ => True) (hostStreamReadMessage config >>= f) EndsBehind := by
  refine .bind (M := fun _ n => n.madeProgress = true) ?_ fun a => ?_
  · refine hostStreamReadMessage_progress.weaken (fun _ => id) fun r n hq => ⟨?_, ?_⟩
    · exact fun a ha => hq ha
    · exact fun _ _ => by rintro (⟨⟨⟩⟩ | ⟨⟨⟩⟩)
  · exact Comp.Triple.weaken (h a) (fun _ => id) fun r n hq _ => hq

/-- A state that only sends does not end the negotiation. -/
theorem sendThen_goesOn (state : NegotiationState) : Comp.Triple (fun _ => True)
    (sendThen config (advance state)) fun r _ => ∀ outcome, r = .ok outcome → outcome = .goesOn := by
  refine .bind (M := fun _ _ => True) (fun n _ => ⟨fun _ _ => trivial, fun _ _ => by rintro _ ⟨⟩⟩) ?_
  intro _
  refine .bind (M := fun _ _ => True) (.read fun _ _ => ⟨fun _ _ => trivial, by rintro e ⟨⟩⟩) ?_
  intro n
  exact .ite (fun _ _ _ _ h => by cases h; rfl) fun _ => .pure fun _ _ _ h => by cases h; rfl

theorem endsBehind_of_goesOn {r : Except HostErr Outcome} {n : Negotiation τ}
    (h : ∀ outcome, r = .ok outcome → outcome = .goesOn) : EndsBehind r n := by
  rintro (hr | hr)
  · cases h _ hr
  · cases h _ hr

theorem hostStreamOutboundStep_progress :
    Comp.Triple (fun _ => True) (hostStreamOutboundStep config) EndsBehind := by
  have hfail : ∀ e, Comp.Triple (fun _ => True) (Comp.fail e : NegotiationM τ Outcome) EndsBehind :=
    fun e => .fail fun _ _ => by rintro (⟨⟨⟩⟩ | ⟨⟨⟩⟩)
  have hsend : ∀ (c : NegotiationM τ Unit) state, Comp.Triple (fun _ => True)
      (c >>= fun _ => sendThen config (advance state)) EndsBehind := by
    intro c state
    refine .bind (M := fun _ _ => True) (fun n _ => ⟨fun _ _ => trivial, fun _ _ => ?_⟩) fun _ => ?_
    · rintro (⟨⟨⟩⟩ | ⟨⟨⟩⟩)
    · exact (sendThen_goesOn state).weaken (fun _ => id) fun _ _ => endsBehind_of_goesOn
  unfold hostStreamOutboundStep
  refine .bind (M := fun _ _ => True) (.read fun _ _ => ⟨fun _ _ => trivial, by rintro e ⟨⟩⟩) ?_
  intro n
  cases n.stream.negState with
  | outSendMs => exact hsend _ _
  | outSendProtocol =>
    dsimp only
    cases n.stream.protocol.bind (protocolId config) with
    | none => exact hfail _
    | some protocol => exact hsend _ _
  | outReadMs =>
    refine readThen_progress fun _ => .bind (.read _) fun n => ?_
    refine .ite (fun _ => .bind (.update fun _ hn => hn) fun _ => .pure _) fun _ => .fail _
  | outReadProtocol =>
    refine readThen_progress fun _ => .bind (.read _) fun n => ?_
    refine .ite (fun _ => .pure _) fun _ => .ite (fun _ => ?_) fun _ => .fail _
    cases n.stream.fallbackProtocol with
    | none => exact .pure _
    | some fallback =>
      exact .bind (.update fun _ hn => hn) fun _ => .bind (.update fun _ _ => rfl) fun _ => .pure _
  | _ => exact hfail _

/-- The open follows its stream. -/
theorem fallBackOpen_refines (hnegotiating : (w.host.streams s).state = .negotiating) :
    Refines config (modifyHost (fallBackOpen s)) w fun r w' =>
      r = .ok () ∧ w'.host.events = w.host.events := by
  apply Refines.assume
  intro hconsistent
  cases hattempt : (w.host.streams s).openAttempt with
  | none =>
    have hsame : fallBackOpen s w.host = w.host := by
      unfold fallBackOpen
      rw [hattempt]
    refine .of_still hsame rfl ⟨rfl, ?_⟩
    rw [modifyHost_apply, hsame]
  | some o =>
    have hopen : fallBackOpen s w.host = setOpen o { w.host.opens o with
        protocol := (w.host.streams s).protocol.getD 0, fallbackProtocol := none } w.host := by
      unfold fallBackOpen
      rw [hattempt]
    refine .step_done (modifyHost_apply _ _) (List.append_nil _).symm ?_ ⟨rfl, ?_⟩
    · rw [hopen]
      exact .openData (hconsistent.attempt_negotiating hnegotiating hattempt)
    · rw [hopen]
      rfl

/-- What a step leads to is settled, or its error is left to be. -/
theorem settleStream_refines (hnegotiating : (w.host.streams s).state = .negotiating)
    (hroom : ∀ o, (w.host.opens o).state = .negotiating → Room config 1 w.host)
    (outcome : Except HostErr Outcome) :
    Refines config (Comp.result (Comp.ofResult outcome >>= settleStream config s)) w fun r w' =>
      (r = .ok (.ok ()) ∧ (w'.host.events = w.host.events ∨
        (w.host.streams s).direction = .outbound ∧
          (outcome = .ok .completes ∨ outcome = .ok .unsupported))) ∨
      w' = w ∧ ∃ e, r = .ok (.error e) := by
  have hquiet : ∀ host', QuietInbound s w.host host' → host'.events = w.host.events ∨
      (w.host.streams s).direction = .outbound := by
    intro host' hq
    cases hdirection : (w.host.streams s).direction with
    | inbound => exact .inl (hq hdirection)
    | outbound => exact .inr rfl
  cases outcome with
  | error e => exact .of_still rfl rfl (.inr ⟨rfl, e, rfl⟩)
  | ok outcome =>
    suffices h : Refines config (Comp.result (settleStream config s outcome)) w _ from
      .still_then rfl rfl rfl h
    apply Refines.result
    cases outcome with
    | goesOn => exact .pure (.inl ⟨rfl, .inl rfl⟩)
    | completes =>
      refine (hostStreamCompleteNegotiation_refines hnegotiating hroom).weaken fun r w' _ hr => ?_
      exact .inl ⟨congrArg Except.ok hr.1, (hquiet _ hr.2).imp_right fun h => ⟨h, .inl rfl⟩⟩
    | fallsBack =>
      refine (fallBackOpen_refines hnegotiating).weaken fun r _ _ hr => ?_
      exact .inl ⟨congrArg Except.ok hr.1, .inl hr.2⟩
    | unsupported =>
      refine (hostStreamFailNegotiation_refines (stable_quiet s w.host) hnegotiating .unsupported none
        (fun _ _ => hostStreamDrop_events s w.host) ?_ hroom).weaken fun r w' _ hr => ?_
      · intro o event houtbound _ _ hinbound
        cases hinbound.symm.trans houtbound
      · exact .inl ⟨congrArg Except.ok hr.1, (hquiet _ hr.2).imp_right fun h => ⟨h, .inr rfl⟩⟩

/-- `host_stream_negotiation_step`. -/
theorem hostStreamNegotiationStep_refines (hnegotiating : (w.host.streams s).state = .negotiating)
    (hroom : ∀ o, (w.host.opens o).state = .negotiating → Room config 1 w.host) :
    Refines config (hostStreamNegotiationStep config s) w fun r w' =>
      ∃ progress, r = .ok progress ∧ (progress = false → w'.host.events = w.host.events) := by
  let ran := hostStreamDirectionStep config ⟨w.host.streams s, w.env, false⟩
  have hplace : ran.2.stream.place = (w.host.streams s).place :=
    hostStreamDirectionStep_keeps ⟨w.host.streams s, w.env, false⟩ rfl
  have hrole := Stream.SameRole.of_place hplace hnegotiating
  have hreadable : ran.2.stream.pendingReadable = (w.host.streams s).pendingReadable := by
    have hplace' := hplace
    unfold Stream.place at hplace'
    simp only [Prod.mk.injEq] at hplace'
    exact hplace'.2.2.2.2.2.2.2
  have hprogress : (w.host.streams s).direction = .outbound → EndsBehind ran.1 ran.2 := by
    intro houtbound
    have hstep : ran = hostStreamOutboundStep config ⟨w.host.streams s, w.env, false⟩ := by
      show hostStreamDirectionStep config _ = _
      unfold hostStreamDirectionStep
      rw [Comp.read_id_bind]
      dsimp only
      rw [houtbound]
    rw [hstep]
    exact hostStreamOutboundStep_progress _ trivial
  have hself : (setStream s ran.2.stream w.host).streams s = ran.2.stream := Function.update_self ..
  unfold hostStreamNegotiationStep
  refine .still_then (Comp.bind_of_ok (modifyResult_apply _ _)) rfl rfl ?_
  have hran : ∀ result, negotiateStream config s { w with result := result } =
      (.ok (ran.1, ran.2.madeProgress),
        { w with host := setStream s ran.2.stream w.host, result := result, env := ran.2.env }) :=
    fun _ => rfl
  refine .step_then (Comp.bind_of_ok (hran _)) (List.append_nil _).symm
    (.streamData (Stream.used_of_negotiating hnegotiating) hrole hreadable) ?_
  dsimp only
  refine .bind (M := fun r w' => r = .ok () ∧ w'.host = setStream s ran.2.stream w.host) ?_ ?_ ?_
  · refine .ite (fun _ => .modifyResult ⟨rfl, rfl⟩) fun _ => .pure ⟨rfl, rfl⟩
  · rintro _ w' ⟨-, hhost⟩
    have hnegotiating' : (w'.host.streams s).state = .negotiating := by
      rw [hhost, hself, hrole.state]
      exact hnegotiating
    have hdirection : (w'.host.streams s).direction = (w.host.streams s).direction := by
      rw [hhost, hself, hrole.direction]
    have hevents : w'.host.events = w.host.events := by
      rw [hhost]
      rfl
    have hroom' : ∀ o, (w'.host.opens o).state = .negotiating → Room config 1 w'.host := by
      rw [hhost]
      exact hroom
    refine .bind (settleStream_refines hnegotiating' hroom' ran.1) ?_ ?_
    · rintro res w'' (⟨hres, hquiet⟩ | ⟨rfl, e, hres⟩)
      · cases hres
        refine .pure ⟨_, rfl, fun hnone => ?_⟩
        rcases hquiet with hsame | ⟨houtbound, houtcome⟩
        · exact hsame.trans hevents
        · have hmade := hprogress (hdirection.symm.trans houtbound) houtcome
          cases hmade.symm.trans hnone
      · cases hres
        dsimp only
        refine .ite (fun _ => .pure ⟨_, rfl, fun _ => hevents⟩) fun _ => ?_
        refine .bind (hostStreamFailNegotiation_refines (stable_quiet s w''.host) hnegotiating' e none
          (fun _ _ => hostStreamDrop_events s w''.host) ?_ hroom') ?_ ?_
        · intro o event houtbound _ _ hinbound
          cases hinbound.symm.trans houtbound
        · exact fun _ _ _ => .pure ⟨_, rfl, by rintro ⟨⟩⟩
        · rintro e' _ ⟨hres, -⟩
          cases hres
    · rintro e w'' (⟨hres, -⟩ | ⟨-, e', hres⟩)
      · cases hres
      · cases hres
  · rintro e w' ⟨hres, -⟩
    cases hres

/-- The loop goes on behind a slot without progress. -/
theorem progress_refines {α : Type} {x : HostM τ Bool} {f : Bool → HostM τ α}
    {Q : Except HostErr α → World τ → Prop}
    (hx : Refines config x w fun r w' =>
      ∃ progress, r = .ok progress ∧ (progress = false → w'.host.events = w.host.events))
    (hstop : ∀ w', Refines config (f true) w' Q)
    (hgo : ∀ w', w'.host.events = w.host.events → Refines config (f false) w' Q) :
    Refines config (x >>= f) w Q := by
  refine .bind hx ?_ ?_
  · rintro progress w' ⟨_, hres, hquiet⟩
    cases hres
    cases progress with
    | false => exact hgo w' (hquiet rfl)
    | true => exact hstop w'
  · rintro e w' ⟨_, hres, -⟩
    cases hres

/-- `host_stream_negotiation_one`. -/
theorem hostStreamNegotiationOne_refines (left : Nat) (hroom : Room config 1 w.host) :
    Refines config (hostStreamNegotiationOne config left) w fun r _ => ∃ progress, r = .ok progress := by
  induction left generalizing w with
  | zero => exact .pure ⟨false, rfl⟩
  | succ left ih =>
    unfold hostStreamNegotiationOne
    apply Refines.read_bind
    refine .ite (fun _ => .pure ⟨false, rfl⟩) fun _ => ?_
    refine .step_then (Comp.bind_of_ok (modifyHost_apply _ _)) (List.append_nil _).symm
      (.cursors w.host _ _ _) ?_
    have hgo : ∀ w' : World τ, w'.host.events = w.host.events →
        Refines config (hostStreamNegotiationOne config left) w' fun r _ =>
          ∃ progress, r = .ok progress := by
      intro w' hevents
      apply ih
      unfold Room
      rw [hevents]
      exact hroom
    refine .ite (fun hnegotiating => ?_) fun _ => ?_
    · exact progress_refines (hostStreamNegotiationStep_refines hnegotiating fun _ _ => hroom)
        (fun _ => .pure ⟨true, rfl⟩) hgo
    · exact progress_refines (.pure ⟨false, rfl, fun _ => rfl⟩) (fun _ => .pure ⟨true, rfl⟩) hgo

/-! ## Opens -/

/-- The event of an open that fails before it has a stream. -/
def openFailEvent (o : Nat) (reason : HostErr) (host : LeanLibp2p.Host) : HostEvent :=
  .streamOpenFailed (host.opens o).conn (some o) (host.opens o).userData reason 0 0

/-- Where there is room, an open that fails is reported. -/
theorem hostOpenFail_run (hroom : Room config 1 w.host) (o : Nat) (reason : HostErr) :
    ∃ result k, hostOpenFail config o reason w = (.ok (), { w with
      host := pushEvent (openFailEvent o reason w.host) (setOpenState o .evented w.host)
      result := result
      trace := w.trace ++ [.pushed k (openFailEvent o reason w.host)] }) := by
  have hpush := Comp.result_of_run (@hostEventPush_run τ config
    { w with host := setOpenState o .evented w.host } hroom (openFailEvent o reason w.host))
  refine ⟨?_, setOpenState o .evented w.host, ?_⟩
  · exact { w.result with hostEvents := w.result.hostEvents + 1, madeProgress := true }
  · unfold hostOpenFail
    rw [Comp.read_id_bind, Comp.bind_of_ok (modifyHost_apply _ _)]
    exact Comp.bind_of_ok hpush

/-- An open that waits fails. -/
theorem hostOpenFail_refines {o : Nat}
    (hwaits : (w.host.opens o).state = .waitTransport) (hroom : Room config 1 w.host)
    (reason : HostErr)
    (hI : I (pushEvent (openFailEvent o reason w.host) (setOpenState o .evented w.host))) :
    Refines config (hostOpenFail config o reason) w fun r w' => r = .ok () ∧ I w'.host := by
  rcases @hostOpenFail_run τ config w hroom o reason with ⟨result, k, hrun⟩
  exact .step_done hrun rfl (.openFails hwaits rfl) ⟨rfl, hI⟩

/-- `host_stream_alloc` takes a slot, or changes nothing. -/
theorem hostStreamAlloc_cases (config : HostConfig τ) (conn transportStream : Nat)
    (direction : Direction) (protocol openAttempt : Option Nat) (w : World τ) :
    (hostStreamAlloc config conn transportStream direction protocol openAttempt w =
        (.error .limit, w) ∧
      (config.maxStreamsPerConn ≤ (w.host.conns conn).streamCount ∨
        freeStream config w.host = none)) ∨
    ∃ s, (w.host.conns conn).streamCount < config.maxStreamsPerConn ∧
      freeStream config w.host = some s ∧
      hostStreamAlloc config conn transportStream direction protocol openAttempt w =
        (.ok s, { w with
          host := setConn conn
            { w.host.conns conn with streamCount := (w.host.conns conn).streamCount + 1 }
            (setStream s (freshStream conn transportStream direction protocol openAttempt w.host)
              w.host)
          trace := w.trace ++ [.streamAllocated w.host s] }) := by
  unfold hostStreamAlloc
  rw [Comp.read_id_bind]
  by_cases hlimit : config.maxStreamsPerConn ≤ (w.host.conns conn).streamCount
  · rw [if_pos hlimit]
    exact .inl ⟨rfl, .inl hlimit⟩
  · rw [if_neg hlimit]
    cases hfree : freeStream config w.host with
    | none => exact .inl ⟨rfl, .inr rfl⟩
    | some s => exact .inr ⟨s, Nat.lt_of_not_le hlimit, rfl, rfl⟩

/-- An open that was started fails as one that waits. -/
theorem openFailEvent_started (o transportStream : Nat) (reason : HostErr)
    (host : LeanLibp2p.Host) :
    openFailEvent o reason (startOpen o transportStream host) = openFailEvent o reason host := by
  have hself : (startOpen o transportStream host).opens o =
      { host.opens o with transportStream := transportStream, state := .negotiating } :=
    Function.update_self ..
  unfold openFailEvent
  rw [hself]

theorem setOpenState_started (o transportStream : Nat) (state : OpenState)
    (host : LeanLibp2p.Host) :
    setOpenState o state (startOpen o transportStream host) = setOpen o
      { host.opens o with transportStream := transportStream, state := state } host := by
  have hself : (startOpen o transportStream host).opens o =
      { host.opens o with transportStream := transportStream, state := .negotiating } :=
    Function.update_self ..
  unfold setOpenState
  rw [hself]
  unfold startOpen setOpen
  rw [Function.update_idem]

/-- The body of the loop of `host_stream_open_retry_one`. -/
theorem hostStreamOpenRetry_refines {o : Nat} (hwaits : (w.host.opens o).state = .waitTransport)
    (hroom : Room config 1 w.host) :
    Refines config (hostStreamOpenRetry config o) w fun r w' =>
      ∃ progress, r = .ok progress ∧ (progress = false → w'.host.events = w.host.events) := by
  have hfail : ∀ env reason, Refines config (hostOpenFail config o reason >>= fun _ => pure true)
      { w with env := env } fun r w' =>
        ∃ progress, r = .ok progress ∧ (progress = false → w'.host.events = w.host.events) := by
    intro env reason
    refine .bind (@hostOpenFail_refines τ config { w with env := env } (fun _ => True) o hwaits hroom
      reason trivial) (fun _ _ _ => .pure ⟨true, rfl, by rintro ⟨⟩⟩) ?_
    rintro e w' ⟨hres, -⟩
    cases hres
  unfold hostStreamOpenRetry
  apply Refines.read_bind
  apply Refines.transport_bind
  intro res env
  cases res with
  | error e =>
    exact .ite (fun _ => .pure ⟨false, rfl, fun _ => rfl⟩) fun _ => hfail env e
  | ok transportStream =>
    dsimp only
    let opened : World τ := { w with host := startOpen o transportStream w.host, env := env }
    rcases hostStreamAlloc_cases config (w.host.opens o).conn transportStream .outbound
      (some (w.host.opens o).protocol) (some o) opened with ⟨halloc, -⟩ | ⟨s, hcount, hfree, halloc⟩
    · rcases @hostOpenFail_run τ config
        { opened with env := (config.transport.streamReset transportStream 0 env).2 } hroom o .limit
        with ⟨result, k, hfailed⟩
      have hevent := openFailEvent_started o transportStream .limit w.host
      rw [show opened.host = startOpen o transportStream w.host from rfl, hevent,
        setOpenState_started] at hfailed
      apply Refines.step_done
      · refine (Comp.bind_of_ok (modifyHost_apply _ _)).trans ?_
        refine (Comp.bind_of_ok (Comp.result_of_run halloc)).trans ?_
        refine (transport_bind _ _ _).trans ?_
        exact (Comp.bind_of_ok hfailed).trans (Comp.pure_apply _ _)
      · rfl
      · exact .openFails hwaits rfl
      · exact ⟨true, rfl, by rintro ⟨⟩⟩
    · refine .step_then ((Comp.bind_of_ok (modifyHost_apply _ _)).trans
        (Comp.bind_of_ok (Comp.result_of_run halloc))) rfl (.starts hwaits rfl hcount hfree rfl) ?_
      exact .still_then (Comp.bind_of_ok (modifyResult_apply _ _)) rfl rfl
        (.pure ⟨true, rfl, by rintro ⟨⟩⟩)

/-- `host_stream_open_retry_one`. -/
theorem hostStreamOpenRetryOne_refines (left : Nat) (hroom : Room config 1 w.host) :
    Refines config (hostStreamOpenRetryOne config left) w fun r _ => ∃ res, r = .ok res := by
  induction left generalizing w with
  | zero => exact .pure ⟨_, rfl⟩
  | succ left ih =>
    unfold hostStreamOpenRetryOne
    apply Refines.read_bind
    refine .step_then (Comp.bind_of_ok (modifyHost_apply _ _)) (List.append_nil _).symm
      (.cursors w.host _ _ _) ?_
    have hgo : ∀ w' : World τ, w'.host.events = w.host.events →
        Refines config (hostStreamOpenRetryOne config left) w' fun r _ => ∃ res, r = .ok res := by
      intro w' hevents
      apply ih
      unfold Room
      rw [hevents]
      exact hroom
    refine .ite (fun hwaits => ?_) fun _ => ?_
    · exact progress_refines (hostStreamOpenRetry_refines hwaits hroom) (fun _ => .pure ⟨_, rfl⟩) hgo
    · exact progress_refines (.pure ⟨false, rfl, fun _ => rfl⟩) (fun _ => .pure ⟨_, rfl⟩) hgo

end LeanLibp2p.Host
