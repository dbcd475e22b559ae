import LeanLibp2p.Host.StreamRefines

/-!
# Driving as steps

`libp2p_host_drive` is a sequence of steps of the host. It fails only for a failure of the transport or
of a callback, and for an event of the transport that the tables do not fit; the queue has room for
every event it queues.
-/

namespace LeanLibp2p.Host

open LeanLibp2p.Lib

variable {τ : Type} {config : HostConfig τ} {w : World τ} {host : LeanLibp2p.Host}

/-! ## A connection that is closed -/

/-- The open has no event yet. -/
def Pending (streamOpen : StreamOpen) : Bool :=
  streamOpen.state == .waitTransport || streamOpen.state == .negotiating

/-- The number of opens without an event. -/
def pendingOpens (config : HostConfig τ) (host : LeanLibp2p.Host) : Nat :=
  (List.range config.maxPendingStreamOpens).countP fun o => Pending (host.opens o)

theorem pendingOpens_le (config : HostConfig τ) (host : LeanLibp2p.Host) :
    pendingOpens config host ≤ config.maxPendingStreamOpens := by
  unfold pendingOpens
  exact Nat.le_trans List.countP_le_length (Nat.le_of_eq List.length_range)

/-- An open with its event is one less. -/
theorem pendingOpens_evented {o : Nat} (ho : o < config.maxPendingStreamOpens)
    (hpending : Pending (host.opens o) = true) :
    pendingOpens config (setOpenState o .evented host) + 1 = pendingOpens config host := by
  have hupdate := countP_update Pending host.opens { host.opens o with state := .evented } ho
  rw [hpending] at hupdate
  exact hupdate

/-- A connection is being closed: it is still open, and there is room for its event and those of all
    opens. -/
structure Closing (config : HostConfig τ) (i : Nat) (host : LeanLibp2p.Host) : Prop where
  active : (host.conns i).active = true
  opened : (host.conns i).closed = false
  room : host.events.length + pendingOpens config host + 1 ≤ config.eventCapacity

namespace Closing

variable {i : Nat}

theorem stable : Stable (Closing config i) := by
  intro host j hidle h
  have hne : i ≠ j := by
    rintro rfl
    cases h.opened.symm.trans hidle.2.1
  have hsame : (Function.update host.conns j {}) i = host.conns i := Function.update_of_ne hne ..
  exact ⟨(congrArg Conn.active hsame).trans h.active, (congrArg Conn.closed hsame).trans h.opened,
    h.room⟩

/-- There is room for the event of an open. -/
theorem room_of_pending (h : Closing config i host) {o : Nat} (ho : o < config.maxPendingStreamOpens)
    (hpending : Pending (host.opens o) = true) : Room config 1 host := by
  have hevented := pendingOpens_evented ho hpending
  have hroom := h.room
  unfold Room
  omega

/-- The event of an open is queued. -/
theorem event (h : Closing config i host) {o : Nat} (ho : o < config.maxPendingStreamOpens)
    (hpending : Pending (host.opens o) = true) (event : HostEvent) :
    Closing config i (pushEvent event (setOpenState o .evented host)) := by
  have hevented := pendingOpens_evented ho hpending
  have hroom := h.room
  refine ⟨h.active, h.opened, ?_⟩
  show (host.events ++ [event]).length + pendingOpens config (setOpenState o .evented host) + 1 ≤ _
  rw [List.length_append, List.length_singleton]
  omega

/-- A stream slot is released. -/
theorem freeStreamSlot (h : Closing config i host) (s : Nat) :
    Closing config i (Host.freeStreamSlot s host) := by
  have hflags := @sameFlags_setConn (setStream s {} host) (host.streams s).conn
    { host.conns (host.streams s).conn with
      streamCount := (host.conns (host.streams s).conn).streamCount - 1 } rfl rfl rfl i
  exact ⟨hflags.2.2.trans h.active, hflags.2.1.trans h.opened, h.room⟩

end Closing

/-- No open waits for the connection. -/
def NoneWaits (i o : Nat) (host : LeanLibp2p.Host) : Prop :=
  ¬((host.opens o).state = .waitTransport ∧ (host.opens o).conn = i)

/-- The stream is not negotiated on the connection. -/
def NotNegotiated (i s : Nat) (host : LeanLibp2p.Host) : Prop :=
  ¬((host.streams s).state = .negotiating ∧ (host.streams s).conn = i)

theorem NoneWaits.evented {i o o' : Nat} (h : o' = o ∨ NoneWaits i o' host) :
    NoneWaits i o' (setOpenState o .evented host) := by
  show ¬((Function.update host.opens o _ o').state = .waitTransport ∧
    (Function.update host.opens o _ o').conn = i)
  by_cases heq : o' = o
  · rw [heq, Function.update_self]
    rintro ⟨⟨⟩, -⟩
  · rw [Function.update_of_ne heq]
    exact h.resolve_left heq

theorem NotNegotiated.setStream {i s s' : Nat} {stream : Stream}
    (hstate : stream.state ≠ .negotiating) (h : s' = s ∨ NotNegotiated i s' host) :
    NotNegotiated i s' (setStream s stream host) := by
  show ¬((Function.update host.streams s stream s').state = .negotiating ∧
    (Function.update host.streams s stream s').conn = i)
  by_cases heq : s' = s
  · rw [heq, Function.update_self]
    exact fun hboth => hstate hboth.1
  · rw [Function.update_of_ne heq]
    exact h.resolve_left heq

/-- `host_conn_fail_waiting_opens`. -/
theorem hostConnFailWaitingOpens_refines {i : Nat} (hw : Closing config i w.host) :
    Refines config (hostConnFailWaitingOpens config i) w fun r w' =>
      r = .ok () ∧ Closing config i w'.host ∧
        ∀ o < config.maxPendingStreamOpens, NoneWaits i o w'.host := by
  unfold hostConnFailWaitingOpens
  refine (@Refines.forOk_settles τ Nat config w _ (fun w => Closing config i w.host)
    (fun o w => NoneWaits i o w.host) _ ?_ hw).weaken fun r w' _ hq =>
      ⟨hq.1, hq.2.1, fun o ho => hq.2.2 o (.inl (List.mem_range.mpr ho))⟩
  intro o ho w hw
  have hlt := List.mem_range.mp ho
  apply Refines.read_bind
  refine .ite (fun hwaits => ?_) fun hnot => .pure ⟨rfl, hw, hnot, fun _ => id⟩
  have hpending : Pending (w.host.opens o) = true := by
    unfold Pending
    rw [hwaits.1]
    rfl
  let event := openFailEvent o .closed w.host
  refine (hostOpenFail_refines (I := fun host => Closing config i host ∧ NoneWaits i o host ∧
    ∀ o', NoneWaits i o' w.host → NoneWaits i o' host) hwaits.1 (hw.room_of_pending hlt hpending)
      .closed ?_).weaken fun r w' _ hq => ⟨hq.1, hq.2.1, hq.2.2.1, hq.2.2.2⟩
  exact ⟨hw.event hlt hpending _, NoneWaits.evented (.inl rfl), fun o' ho' =>
    NoneWaits.evented (.inr ho')⟩

/-- What the streams of a closing connection are released in. -/
structure ClosingStreams (config : HostConfig τ) (i : Nat) (host : LeanLibp2p.Host) : Prop where
  closing : Closing config i host
  waiting : ∀ o < config.maxPendingStreamOpens, NoneWaits i o host

namespace ClosingStreams

variable {i : Nat}

theorem stable : Stable (ClosingStreams config i) := fun host j hidle h =>
  ⟨Closing.stable host j hidle h.closing, h.waiting⟩

theorem freeStreamSlot (h : ClosingStreams config i host) (s : Nat) :
    ClosingStreams config i (Host.freeStreamSlot s host) :=
  ⟨h.closing.freeStreamSlot s, h.waiting⟩

theorem event (h : ClosingStreams config i host) {o : Nat} (ho : o < config.maxPendingStreamOpens)
    (hpending : Pending (host.opens o) = true) (event : HostEvent) :
    ClosingStreams config i (pushEvent event (setOpenState o .evented host)) :=
  ⟨h.closing.event ho hpending event, fun o' ho' => NoneWaits.evented (.inr (h.waiting o' ho'))⟩

end ClosingStreams

/-- What is settled of the streams stays so when a slot is emptied. -/
theorem NotNegotiated.freeStreamSlot {i s s' : Nat} (h : s' = s ∨ NotNegotiated i s' host) :
    NotNegotiated i s' (Host.freeStreamSlot s host) :=
  @NotNegotiated.setStream host i s s' {} (by rintro ⟨⟩) h

/-- A stream of a closing connection is closed. -/
theorem hostConnCloseStream_refines {i s : Nat} (hw : ClosingStreams config i w.host)
    (hused : (w.host.streams s).state ≠ .free) :
    Refines config (hostConnCloseStream config s) w fun r w' =>
      r = .ok () ∧ ClosingStreams config i w'.host ∧
        ∀ s', s' = s ∨ NotNegotiated i s' w.host → NotNegotiated i s' w'.host := by
  apply Refines.assume
  intro hconsistent
  unfold hostConnCloseStream
  apply Refines.read_bind
  have hstate := hconsistent.attempts.state s
  cases hs : (w.host.streams s).state with
  | free => exact absurd hs hused
  | negotiating =>
    dsimp only
    have hpending : ∀ o, (w.host.opens o).state = .negotiating →
        o < config.maxPendingStreamOpens ∧ Pending (w.host.opens o) = true := by
      intro o ho
      refine ⟨hconsistent.counted.openSlot o (by rw [ho]; rintro ⟨⟩), ?_⟩
      unfold Pending
      rw [ho]
      rfl
    refine hostStreamFailNegotiation_refines (I := fun host => ClosingStreams config i host ∧
      ∀ s', s' = s ∨ NotNegotiated i s' w.host → NotNegotiated i s' host) ?_ hs .closed none ?_ ?_ ?_
    · exact fun host j hidle h => ⟨ClosingStreams.stable host j hidle h.1, h.2⟩
    · intro hdirection
      rw [hconsistent.drop_inbound hdirection]
      exact ⟨hw.freeStreamSlot s, fun s' => NotNegotiated.freeStreamSlot⟩
    · intro o event hdirection hattempt hopen
      unfold failOpen
      rw [drop_evented hattempt]
      exact ⟨(hw.event (hpending o hopen).1 (hpending o hopen).2 event).freeStreamSlot s,
        fun s' => NotNegotiated.freeStreamSlot⟩
    · exact fun o ho => hw.closing.room_of_pending (hpending o ho).1 (hpending o ho).2
  | opened =>
    refine .step_done (modifyHost_apply _ _) (List.append_nil _).symm (.streamData hused ?_ rfl)
      ⟨rfl, ⟨⟨hw.closing.active, hw.closing.opened, hw.closing.room⟩, hw.waiting⟩, ?_⟩
    · exact ⟨rfl, rfl, rfl, rfl, rfl, rfl, rfl, fun _ => rfl⟩
    · exact fun s' => @NotNegotiated.setStream w.host i s s' _ (by rw [hs]; rintro ⟨⟩)
  | closing =>
    rw [hs] at hstate
    exact absurd hstate (by decide)
  | closed =>
    rw [hs] at hstate
    exact absurd hstate (by decide)

/-- `host_conn_close_streams`. -/
theorem hostConnCloseStreams_refines {i : Nat} (hw : ClosingStreams config i w.host) :
    Refines config (hostConnCloseStreams config i) w fun r w' =>
      r = .ok () ∧ ClosingStreams config i w'.host ∧
        ∀ s < config.streamCapacity, NotNegotiated i s w'.host := by
  unfold hostConnCloseStreams
  refine (@Refines.forOk_settles τ Nat config w _ (fun w => ClosingStreams config i w.host)
    (fun s w => NotNegotiated i s w.host) _ ?_ hw).weaken fun r w' _ hq =>
      ⟨hq.1, hq.2.1, fun s hs => hq.2.2 s (.inl (List.mem_range.mpr hs))⟩
  intro s _ w hw
  apply Refines.read_bind
  refine .ite (fun hused => ?_) fun hnot => .pure ⟨rfl, hw, ?_, fun _ => id⟩
  · exact (hostConnCloseStream_refines hw hused.1).weaken fun r w' _ hq =>
      ⟨hq.1, hq.2.1, hq.2.2 s (.inl rfl), fun s' hs' => hq.2.2 s' (.inr hs')⟩
  · rintro ⟨hnegotiating, hconn⟩
    exact hnot ⟨Stream.used_of_negotiating hnegotiating, hconn⟩

/-- The connection of a CONN_CLOSED event is known. -/
theorem hostConnClosed_refines {i : Nat} {reason : Option HostErr}
    {appErrorCode transportErrorCode : Nat} (hactive : (w.host.conns i).active = true)
    (hroom : Room config (config.maxPendingStreamOpens + 1) w.host) :
    Refines config (hostConnClosed config i reason appErrorCode transportErrorCode) w
      fun r _ => r = .ok () := by
  unfold hostConnClosed
  apply Refines.read_bind
  refine .ite (fun _ => .pure rfl) fun hopen => ?_
  have hw : Closing config i w.host := by
    refine ⟨hactive, Bool.eq_false_iff.mpr hopen, ?_⟩
    have hle := pendingOpens_le config w.host
    unfold Room at hroom
    omega
  refine .bind (hostConnFailWaitingOpens_refines hw) ?_ fun _ _ hm => by cases hm.1
  rintro _ w₁ ⟨-, hclosing, hwaiting⟩
  refine .bind (hostConnCloseStreams_refines ⟨hclosing, hwaiting⟩) ?_ fun _ _ hm => by cases hm.1
  rintro _ w₂ ⟨-, hstreams, hnone⟩
  apply Refines.assume
  intro hconsistent
  apply Refines.read_bind
  have hroom₂ : Room config 1 w₂.host := by
    have hroom' := hstreams.closing.room
    unfold Room
    omega
  let closed := setConn i
    { w₂.host.conns i with closed := true, closeEventPending := true } w₂.host
  have hpush := @hostEventPush_run τ config { w₂ with host := closed } hroom₂
    (.connClosed i reason (w₂.host.conns i).localCloseRequested appErrorCode transportErrorCode)
  refine .step_done ((Comp.bind_of_ok (modifyHost_apply _ _)).trans hpush) rfl
    (.connCloses hstreams.closing.active hstreams.closing.opened ?_ ?_) rfl
  · intro s hconn hnegotiating
    have hs := hconsistent.counted.streamSlot s (Stream.used_of_negotiating hnegotiating)
    exact hnone s hs ⟨hnegotiating, hconn⟩
  · intro o hconn hwaits
    have ho := hconsistent.counted.openSlot o (by rw [hwaits]; rintro ⟨⟩)
    exact hstreams.waiting o ho ⟨hwaits, hconn⟩

/-! ## Events of the transport -/

/-- The tables fit the event: a connection that is established has a slot or finds a free one, and a
    stream comes in on a connection that is known. -/
def Fits (config : HostConfig τ) (host : LeanLibp2p.Host) : TransportEvent → Prop
  | .connEstablished conn .. =>
    hostConnFind config conn host ≠ none ∨ freeConn config host ≠ none
  | .streamIncoming conn _ => hostConnFind config conn host ≠ none
  | _ => True

instance (config : HostConfig τ) (host : LeanLibp2p.Host) (event : TransportEvent) :
    Decidable (Fits config host event) := by
  cases event <;> unfold Fits <;> infer_instance

/-- The last that was noted is an event that the tables did not fit. -/
def Overrun (config : HostConfig τ) (w : World τ) : Prop :=
  ∃ host event, w.trace.getLast? = some (.took host event) ∧ ¬Fits config host event

/-- A callback for the events of a stream failed. -/
def CallbackFailed (w : World τ) : Prop :=
  ∃ s kind e, .called s (.onEvent kind) (.error e) ∈ w.trace

/-- What a failure of the drive comes from. -/
def Blamed (config : HostConfig τ) (w : World τ) : Prop :=
  TransportFails config ∨ CallbackFailed w ∨ Overrun config w

/-- An event of the transport is noted and counted before it is processed. -/
def takeEvent (event : TransportEvent) (process : HostM τ Unit) : HostM τ Unit := do
  let w ← Comp.read id
  note (.took w.host event)
  modifyResult fun result =>
    { result with transportEvents := result.transportEvents + 1, madeProgress := true }
  process

/-- The world in which an event is processed. -/
def tookEvent (event : TransportEvent) (w : World τ) : World τ :=
  { w with
    result :=
      { w.result with transportEvents := w.result.transportEvents + 1, madeProgress := true }
    trace := w.trace ++ [.took w.host event] }

@[simp] theorem tookEvent_host (event : TransportEvent) (w : World τ) :
    (tookEvent event w).host = w.host := rfl

theorem takeEvent_run (event : TransportEvent) (process : HostM τ Unit) (w : World τ) :
    takeEvent event process w = process (tookEvent event w) := rfl

section Processing

variable {event : TransportEvent} {process : HostM τ Unit} {Q : Except HostErr Unit → World τ → Prop}

/-- An event that changes nothing by itself. -/
theorem takes_then (hpasses : Passes config w.host event)
    (h : Refines config process (tookEvent event w) Q) :
    Refines config (takeEvent event process) w Q :=
  .step_then (takeEvent_run ..) rfl (.takes hpasses) h

theorem overrun_took (hfits : ¬Fits config w.host event) : Overrun config (tookEvent event w) :=
  ⟨w.host, event, List.getLast?_concat, hfits⟩

end Processing

/-- `host_conn_alloc` finds a slot, or changes nothing. -/
theorem hostConnAlloc_cases (config : HostConfig τ) (conn : Nat) (w : World τ) :
    (∃ i notes host', ConnSlot config conn w.host i notes host' ∧
      hostConnAlloc config conn w =
        (.ok i, { w with host := host', trace := w.trace ++ notes })) ∨
    (hostConnFind config conn w.host = none ∧ freeConn config w.host = none ∧
      hostConnAlloc config conn w = (.error .limit, w)) := by
  unfold hostConnAlloc
  rw [Comp.read_id_bind]
  cases hfind : hostConnFind config conn w.host with
  | some i =>
    refine .inl ⟨i, [], w.host, .known hfind, ?_⟩
    rw [List.append_nil]
    rfl
  | none =>
    cases hfree : freeConn config w.host with
    | none => exact .inr ⟨rfl, rfl, rfl⟩
    | some i => exact .inl ⟨i, _, _, .new hfind hfree, rfl⟩

/-- The dial of an established connection is answered, if there is one. -/
theorem answerDial_cases (config : HostConfig τ) (conn i userData : Nat) (attempt : Option Nat)
    (w : World τ) :
    ∃ dial host' userData', DialSlot config (attempt.getD conn) w.host dial host' ∧
      (∀ d, dial = some d → userData' = (w.host.dials d).userData) ∧
      (do
        let w ← Comp.read id
        match hostDialFind config (attempt.getD conn) w.host with
        | some d => do
          modifyHost (hostDialMarkEvented d)
          hostEventPush config (.connEstablished i (some d) (w.host.dials d).userData)
        | none => hostEventPush config (.connEstablished i none userData) : HostM τ Unit) w =
        hostEventPush config (.connEstablished i dial userData') { w with host := host' } := by
  rw [Comp.read_id_bind]
  cases hfind : hostDialFind config (attempt.getD conn) w.host with
  | none => exact ⟨none, w.host, userData, .none hfind, by rintro d ⟨⟩, rfl⟩
  | some d =>
    refine ⟨some d, hostDialMarkEvented d w.host, (w.host.dials d).userData, .found hfind, ?_, rfl⟩
    intro d' hd'
    rw [Option.some.inj hd']

/-- `host_transport_event_conn_established`. -/
theorem connEstablished_refines (conn : Nat) (attempt : Option Nat) (userData : Nat)
    (hroom : Room config 1 w.host) :
    Refines config (takeEvent (.connEstablished conn attempt userData)
      (hostTransportEventConnEstablished config conn attempt userData)) w fun r w' =>
        ∀ e, r = .error e → Overrun config w' := by
  rcases hostConnAlloc_cases config conn (tookEvent (.connEstablished conn attempt userData) w) with
    ⟨i, notes, host', hslot, halloc⟩ | ⟨hfind, hfree, halloc⟩
  · rcases answerDial_cases config conn i userData attempt
      { tookEvent (.connEstablished conn attempt userData) w with
        host := host'
        trace := (tookEvent (.connEstablished conn attempt userData) w).trace ++ notes }
      with ⟨dial, host'', userData', hdial, huserData, hrun⟩
    have hroom' : Room config 1 host'' := by
      unfold Room
      cases hslot <;> cases hdial <;> exact hroom
    have huserData' : ∀ d, dial = some d → userData' = (w.host.dials d).userData := by
      cases hslot <;> exact huserData
    have hpush := @hostEventPush_run τ config
      { tookEvent (.connEstablished conn attempt userData) w with
        host := host''
        trace := (tookEvent (.connEstablished conn attempt userData) w).trace ++ notes } hroom'
      (.connEstablished i dial userData')
    have htrace : w.trace ++ [.took w.host (.connEstablished conn attempt userData)] ++ notes ++
        [.pushed host'' (.connEstablished i dial userData')] =
        w.trace ++ (.took w.host (.connEstablished conn attempt userData) :: notes ++
          [.pushed host'' (.connEstablished i dial userData')]) := by
      rw [List.append_assoc, List.append_assoc]
      rfl
    apply Refines.step_done
    · exact (takeEvent_run ..).trans ((Comp.bind_of_ok halloc).trans (hrun.trans hpush))
    · exact htrace
    · exact .establishes hslot hdial huserData'
    · rintro e ⟨⟩
  · refine takes_then ⟨hfind, hfree⟩ (.still_done (Comp.bind_of_error halloc) rfl rfl ?_)
    intro e _
    apply overrun_took
    rintro (hknown | hfound)
    · exact hknown hfind
    · exact hfound hfree

/-- A dial ends with its event. -/
theorem dialFail_refines {event : TransportEvent} {d : Nat} {process : HostM τ Unit}
    (reason : Option HostErr) (appErrorCode transportErrorCode : Nat)
    (hreport : DialReport config w.host d event) (hroom : Room config 1 w.host)
    (hprocess : process (tookEvent event w) =
      hostDialFail config d reason appErrorCode transportErrorCode (tookEvent event w)) :
    Refines config (takeEvent event process) w fun r _ => r = .ok () := by
  have hpush := @hostEventPush_run τ config
    { tookEvent event w with host := hostDialMarkEvented d w.host } hroom
    (.dialFailed d (w.host.dials d).userData (reason.getD .transport) appErrorCode
      transportErrorCode)
  apply Refines.step_done
  · refine (takeEvent_run ..).trans (hprocess.trans ?_)
    unfold hostDialFail
    exact (Comp.read_id_bind _ _).trans ((Comp.bind_of_ok (modifyHost_apply _ _)).trans hpush)
  · exact List.append_assoc ..
  · exact .dialFails hreport
  · rfl

/-- `host_transport_event_dial_failed`. -/
theorem dialFailed_refines (attempt : Nat) (reason : Option HostErr)
    (appErrorCode transportErrorCode : Nat) (hroom : Room config 1 w.host) :
    Refines config (takeEvent (.dialFailed attempt reason appErrorCode transportErrorCode)
      (hostTransportEventDialFailed config attempt reason appErrorCode transportErrorCode)) w
        fun r _ => r = .ok () := by
  cases hfind : hostDialFind config attempt w.host with
  | none =>
    refine takes_then hfind ?_
    unfold hostTransportEventDialFailed
    apply Refines.read_bind
    rw [tookEvent_host, hfind]
    exact .pure rfl
  | some d =>
    refine dialFail_refines (d := d) reason appErrorCode transportErrorCode hfind hroom ?_
    unfold hostTransportEventDialFailed
    rw [Comp.read_id_bind, tookEvent_host, hfind]

/-- `host_transport_event_conn_closed`. -/
theorem connClosed_refines (conn : Nat) (attempt : Option Nat) (reason : Option HostErr)
    (appErrorCode transportErrorCode : Nat)
    (hroom : Room config (config.maxPendingStreamOpens + 1) w.host) :
    Refines config (takeEvent (.connClosed conn attempt reason appErrorCode transportErrorCode)
      (hostTransportEventConnClosed config conn attempt reason appErrorCode transportErrorCode)) w
        fun r _ => r = .ok () := by
  cases hfind : hostConnFind config conn w.host with
  | some i =>
    have hactive : (w.host.conns i).active = true :=
      (Bool.and_eq_true_iff.mp (findSlot_some hfind).2).1
    refine takes_then (.inl (by rw [hfind]; rintro ⟨⟩)) ?_
    unfold hostTransportEventConnClosed
    apply Refines.read_bind
    rw [tookEvent_host, hfind]
    exact hostConnClosed_refines hactive hroom
  | none =>
    cases hdial : hostDialFind config (attempt.getD conn) w.host with
    | none =>
      refine takes_then (.inr hdial) ?_
      unfold hostTransportEventConnClosed
      apply Refines.read_bind
      rw [tookEvent_host, hfind, hdial]
      exact .pure rfl
    | some d =>
      refine dialFail_refines (d := d) reason appErrorCode transportErrorCode ⟨hfind, hdial⟩
        (hroom.mono (by omega)) ?_
      unfold hostTransportEventConnClosed
      rw [Comp.read_id_bind, tookEvent_host, hfind, hdial]

/-- `host_transport_event_stream_incoming`. -/
theorem streamIncoming_refines (conn stream : Nat) :
    Refines config (takeEvent (.streamIncoming conn stream)
      (hostTransportEventStreamIncoming config conn stream)) w fun r w' =>
        ∀ e, r = .error e → Overrun config w' := by
  have hreset : Refines config (takeEvent (.streamIncoming conn stream) (do
      let _ ← Comp.result (onTransport (config.transport.streamReset stream 0))
      pure ())) w fun r w' => ∀ e, r = .error e → Overrun config w' :=
    takes_then trivial (.transport_bind fun _ _ => .pure (by rintro e ⟨⟩))
  have htake : ∀ c : HostM τ Unit, (∀ w', w'.host = w.host →
      hostTransportEventStreamIncoming config conn stream w' = c w') →
      takeEvent (.streamIncoming conn stream) (hostTransportEventStreamIncoming config conn stream) w =
        takeEvent (.streamIncoming conn stream) c w :=
    fun c h => h (tookEvent (.streamIncoming conn stream) w) rfl
  cases hfind : hostConnFind config conn w.host with
  | none =>
    refine takes_then trivial ?_
    unfold hostTransportEventStreamIncoming
    apply Refines.read_bind
    rw [tookEvent_host, hfind]
    exact .fail fun e _ => overrun_took fun hknown => hknown hfind
  | some i =>
    have hactive : (w.host.conns i).active = true :=
      (Bool.and_eq_true_iff.mp (findSlot_some hfind).2).1
    by_cases hclosed : (w.host.conns i).closed = true
    · refine .still_then (htake _ fun w' hw' => ?_) rfl rfl hreset
      unfold hostTransportEventStreamIncoming
      rw [Comp.read_id_bind, hw', hfind]
      have husable : hostConnValidateUsable i w.host = .error .closed := by
        unfold hostConnValidateUsable
        rw [if_neg (by rw [hactive]; rintro ⟨⟩), if_pos hclosed]
      dsimp only
      rw [husable]
    · have husable : hostConnValidateUsable i w.host = .ok () := by
        unfold hostConnValidateUsable
        rw [if_neg (by rw [hactive]; rintro ⟨⟩), if_neg hclosed]
      rcases hostStreamAlloc_cases config i stream .inbound none none
        (tookEvent (.streamIncoming conn stream) w) with ⟨halloc, -⟩ | ⟨s, hcount, hfree, halloc⟩
      · refine takes_then trivial ?_
        unfold hostTransportEventStreamIncoming
        apply Refines.read_bind
        rw [tookEvent_host, hfind]
        dsimp only
        rw [husable]
        refine .still_then (Comp.bind_of_ok (Comp.result_of_run halloc)) rfl rfl ?_
        exact .transport_bind fun _ _ => .pure (by rintro e ⟨⟩)
      · have hrun : hostTransportEventStreamIncoming config conn stream
            (tookEvent (.streamIncoming conn stream) w) =
              (.ok (), (hostStreamAlloc config i stream .inbound none none
                (tookEvent (.streamIncoming conn stream) w)).2) := by
          rw [halloc]
          unfold hostTransportEventStreamIncoming
          rw [Comp.read_id_bind, tookEvent_host, hfind]
          dsimp only
          rw [husable]
          exact Comp.bind_of_ok (Comp.result_of_run halloc)
        rw [halloc] at hrun
        apply Refines.step_done
        · exact (takeEvent_run ..).trans hrun
        · exact List.append_assoc ..
        · exact .accepts hfind (Bool.eq_false_iff.mpr hclosed) hcount hfree
        · rintro e ⟨⟩

/-- A stream of the transport that is known is in use. -/
theorem used_of_find {stream s : Nat} (hfind : hostStreamFind config stream host = some s) :
    (host.streams s).state ≠ .free := by
  have hslot := (Bool.and_eq_true_iff.mp (findSlot_some hfind).2).1
  intro hfree
  rw [hfree] at hslot
  cases hslot

theorem streamMark_of_find {stream s : Nat} {mark : Nat → HostM τ Unit}
    (hfind : hostStreamFind config stream w.host = some s) :
    hostTransportEventStreamMark config stream mark w = mark s w := by
  unfold hostTransportEventStreamMark
  rw [Comp.read_id_bind, hfind]

/-- A mark that only a known stream gets. -/
theorem streamMark_refines {event : TransportEvent} {stream : Nat} {mark : Nat → HostM τ Unit}
    (hpasses : Passes config w.host event)
    (hmark : ∀ s, hostStreamFind config stream w.host = some s →
      Refines config (mark s) (tookEvent event w) fun r _ => r = .ok ()) :
    Refines config (takeEvent event (hostTransportEventStreamMark config stream mark)) w
      fun r _ => r = .ok () := by
  refine takes_then hpasses ?_
  unfold hostTransportEventStreamMark
  apply Refines.read_bind
  rw [tookEvent_host]
  cases hfind : hostStreamFind config stream w.host with
  | none => exact .pure rfl
  | some s => exact hmark s hfind

/-- A stream that ends. -/
theorem hostStreamEnd_refines {s : Nat} {mark : Stream → Stream} {reason : Option HostErr}
    {termination : Termination} (hused : (w.host.streams s).state ≠ .free)
    (hmark : ∀ stream, stream.SameRole (mark stream) ∧
      (mark stream).pendingReadable = stream.pendingReadable)
    (hroom : Room config 1 w.host) :
    Refines config (hostStreamEnd config s mark reason termination) w fun r _ => r = .ok () := by
  unfold hostStreamEnd
  apply Refines.read_bind
  refine .ite (fun hnegotiating => ?_) fun _ => ?_
  · exact (hostStreamFailNegotiation_refines (stable_quiet s w.host) hnegotiating _ _
      (fun _ _ => hostStreamDrop_events s w.host) (fun o event houtbound _ _ hinbound => by
        cases hinbound.symm.trans houtbound) fun _ _ => hroom).weaken fun _ _ _ hq => hq.1
  · exact .step_done (modifyHost_apply _ _) (List.append_nil _).symm
      (.streamData hused (hmark _).1 (hmark _).2) rfl

/-- `host_transport_event_process`, behind its note. -/
theorem hostTransportEventProcess_refines (event : TransportEvent)
    (hroom : Room config (config.maxPendingStreamOpens + 1) w.host) :
    Refines config (takeEvent event (hostTransportEventProcess config event)) w fun r w' =>
      ∀ e, r = .error e → Overrun config w' := by
  have hone : Room config 1 w.host := hroom.mono (by omega)
  have hok : ∀ {c : HostM τ Unit}, Refines config c w (fun r _ => r = .ok ()) →
      Refines config c w fun r w' => ∀ e, r = .error e → Overrun config w' := fun h =>
    h.weaken fun r w' _ hr e he => by cases hr.symm.trans he
  cases event with
  | none => exact takes_then trivial (.pure (by rintro e ⟨⟩))
  | connEstablished conn attempt userData => exact connEstablished_refines conn attempt userData hone
  | connClosed conn attempt reason appErrorCode transportErrorCode =>
    exact hok (connClosed_refines conn attempt reason appErrorCode transportErrorCode hroom)
  | dialFailed attempt reason appErrorCode transportErrorCode =>
    exact hok (dialFailed_refines attempt reason appErrorCode transportErrorCode hone)
  | streamIncoming conn stream => exact streamIncoming_refines conn stream
  | streamReadable stream =>
    apply hok
    cases hfind : hostStreamFind config stream w.host with
    | none =>
      refine takes_then hfind ?_
      unfold hostTransportEventProcess hostTransportEventStreamMark
      apply Refines.read_bind
      rw [tookEvent_host, hfind]
      exact .pure rfl
    | some s =>
      apply Refines.step_done
      · exact (takeEvent_run ..).trans (streamMark_of_find (w := tookEvent _ w) hfind)
      · rfl
      · exact .readable hfind
      · rfl
  | streamWritable stream =>
    exact hok (streamMark_refines trivial fun s hfind => .step_done (modifyHost_apply _ _)
      (List.append_nil _).symm (.streamData (used_of_find hfind)
        ⟨rfl, rfl, rfl, rfl, rfl, rfl, rfl, fun _ => rfl⟩ rfl) rfl)
  | streamReset stream reason appErrorCode transportErrorCode =>
    exact hok (streamMark_refines trivial fun s hfind => hostStreamEnd_refines (used_of_find hfind)
      (fun _ => ⟨⟨rfl, rfl, rfl, rfl, rfl, rfl, rfl, fun _ => rfl⟩, rfl⟩) hone)
  | streamClosed stream reason appErrorCode transportErrorCode =>
    exact hok (streamMark_refines trivial fun s hfind => hostStreamEnd_refines (used_of_find hfind)
      (fun _ => ⟨⟨rfl, rfl, rfl, rfl, rfl, rfl, rfl, fun _ => rfl⟩, rfl⟩) hone)

/-- `host_transport_event_one`. -/
theorem hostTransportEventOne_refines
    (hroom : hostTransportEventCapacityAvailable config w.host) :
    Refines config (hostTransportEventOne config) w fun r w' =>
      ∀ e, r = .error e → Blamed config w' := by
  have hroom' : Room config (config.maxPendingStreamOpens + 1) w.host := by
    unfold hostTransportEventCapacityAvailable at hroom
    unfold Room
    omega
  cases hnext : (config.transport.nextEvent w.env).1 with
  | error e =>
    have hrun : hostTransportEventOne config w =
        (if e = .wouldBlock then pure false else Comp.fail .transport : HostM τ Bool)
          { w with env := (config.transport.nextEvent w.env).2 } := by
      unfold hostTransportEventOne
      rw [transport_bind, hnext]
    refine .still_then hrun rfl rfl ?_
    exact .ite (fun _ => .pure (by rintro e ⟨⟩)) fun he =>
      .fail fun _ _ => .inl (.inr (.inl ⟨w.env, e, hnext, he⟩))
  | ok event =>
    have hrun : hostTransportEventOne config w =
        (takeEvent event (hostTransportEventProcess config event) >>= fun _ => pure true)
          { w with env := (config.transport.nextEvent w.env).2 } := by
      unfold hostTransportEventOne
      rw [transport_bind, hnext]
      rfl
    refine .still_then hrun rfl rfl ?_
    refine .bind (@hostTransportEventProcess_refines τ config
      { w with env := (config.transport.nextEvent w.env).2 } event hroom') ?_ ?_
    · exact fun _ _ _ => .pure (by rintro e ⟨⟩)
    · exact fun e w' hm e' _ => .inr (.inr (hm e rfl))

/-! ## Events of the protocols -/

/-- The stream whose pending bit was taken stands for the same. -/
theorem pendingEvent_some {stream stream' : Stream} {kind : EventKind}
    (h : pendingEvent stream = some (kind, stream')) :
    stream.SameRole stream' ∧ stream'.protocol = stream.protocol ∧
      stream'.pendingReadable = if kind = .readable then false else stream.pendingReadable := by
  unfold pendingEvent at h
  split at h
  · cases h
    exact ⟨⟨rfl, rfl, rfl, rfl, rfl, rfl, rfl, fun _ => rfl⟩, rfl, rfl⟩
  · split at h
    · cases h
      exact ⟨⟨rfl, rfl, rfl, rfl, rfl, rfl, rfl, fun _ => rfl⟩, rfl, rfl⟩
    · split at h
      · cases h
        exact ⟨⟨rfl, rfl, rfl, rfl, rfl, rfl, rfl, fun _ => rfl⟩, rfl, rfl⟩
      · split at h
        · cases h
          exact ⟨⟨rfl, rfl, rfl, rfl, rfl, rfl, rfl, fun _ => rfl⟩, rfl, rfl⟩
        · cases h

/-- The callback for the events of a stream. -/
def streamOnEvent (config : HostConfig τ) (stream : Stream) :
    Option (Nat → Stream → EventKind → Comp (CallbackState τ) HostErr Unit) :=
  (streamProtocol config stream).bind Protocol.onEvent

/-- What follows a callback. -/
def afterCallback (config : HostConfig τ) (i transportStream : Nat) :
    Except HostErr Unit → HostM τ Unit
  | .ok () => pure ()
  | .error e => do
    let _ ← Comp.result (onTransport (config.transport.streamReset transportStream 0))
    hostStreamRelease config i
    Comp.fail e

/-- `host_protocol_call_event`. -/
theorem hostProtocolCallEvent_cases (config : HostConfig τ) (i : Nat) (kind : EventKind)
    (w : World τ) :
    (streamOnEvent config (w.host.streams i) = none ∧
      hostProtocolCallEvent config i kind w = (.ok (), w)) ∨
    ∃ onEvent state, streamOnEvent config (w.host.streams i) = some onEvent ∧
      ∃ inFrame userData result env,
        hostProtocolCallEvent config i kind w =
          afterCallback config i (w.host.streams i).transportStream
            (onEvent i (w.host.streams i) kind state).1
            { host := setStream i
                { w.host.streams i with inFrame := inFrame, userData := userData } w.host
              result := result
              env := env
              trace := w.trace ++ [.called i (.onEvent kind)
                (onEvent i (w.host.streams i) kind state).1] } := by
  unfold hostProtocolCallEvent
  rw [Comp.read_id_bind]
  show (streamOnEvent config (w.host.streams i) = none ∧ _) ∨ _
  rw [show (streamProtocol config (w.host.streams i)).bind Protocol.onEvent =
    streamOnEvent config (w.host.streams i) from rfl]
  cases hprotocol : streamOnEvent config (w.host.streams i) with
  | none => exact .inl ⟨rfl, rfl⟩
  | some onEvent =>
    rcases callProtocol_run i (.onEvent kind) (onEvent i (w.host.streams i) kind) w with
      ⟨inFrame, userData, result, env, hcall⟩
    refine .inr ⟨onEvent, ⟨(w.host.streams i).inFrame, (w.host.streams i).userData, w.env⟩, rfl,
      inFrame, userData, result, env, ?_⟩
    refine (Comp.bind_of_ok (Comp.result_of_run hcall)).trans ?_
    cases (onEvent i (w.host.streams i) kind
      ⟨(w.host.streams i).inFrame, (w.host.streams i).userData, w.env⟩).1 <;> rfl

theorem stable_free (s : Nat) : Stable fun host => (host.streams s).state = .free :=
  fun _ _ _ h => h

theorem setStream_self (s : Nat) (stream : Stream) (host : LeanLibp2p.Host) :
    (setStream s stream host).streams s = stream := Function.update_self ..

theorem hostStreamDrop_free (s : Nat) (host : LeanLibp2p.Host) :
    ((hostStreamDrop s host).streams s).state = .free := by
  exact congrArg Stream.state (setStream_self s {} _)

/-- Releasing a stream does not fail. -/
theorem hostStreamRelease_ok (config : HostConfig τ) (i : Nat) (w : World τ) :
    ∃ w', hostStreamRelease config i w = (.ok (), w') := by
  by_cases hfree : (w.host.streams i).state = .free
  · exact ⟨w, hostStreamRelease_free hfree⟩
  · exact ⟨_, hostStreamRelease_run hfree⟩

/-- What was noted stays noted. -/
theorem Refines.noted {α : Type} {c : HostM τ α} {Q : Except HostErr α → World τ → Prop}
    {notes : List Note} (h : Refines config c w Q) (hnotes : ∀ n ∈ notes, n ∈ w.trace) :
    Refines config c w fun r w' => (∀ n ∈ notes, n ∈ w'.trace) ∧ Q r w' := by
  intro hw
  rcases h hw with ⟨added, htrace, hpath, hconsistent, hq⟩
  refine ⟨added, htrace, hpath, hconsistent, fun n hn => ?_, hq⟩
  rw [htrace]
  exact List.mem_append_left _ (hnotes n hn)

/-- An open stream ends behind its callback. -/
theorem endStream_refines {c : HostM τ Unit} {f : Unit → HostM τ Unit} {i : Nat} {stream : Stream}
    {notes : List Note} {w' : World τ} {Q : Except HostErr Unit → World τ → Prop}
    (hopen : (w.host.streams i).state = .opened) (hrole : (w.host.streams i).SameRole stream)
    (hrun : c w = (hostStreamRelease config i >>= f) w') (hhost : w'.host = setStream i stream w.host)
    (htrace : w'.trace = w.trace ++ notes)
    (hnotes : notes = [] ∨ (streamOnEvent config (w.host.streams i)).isSome ∧
      ∃ kind res, notes = [.called i (.onEvent kind) res])
    (hrest : ∀ w'', (w''.host.streams i).state = .free → Refines config (f ()) w'' Q) :
    Refines config c w fun r w' => (∀ n ∈ notes, n ∈ w'.trace) ∧ Q r w' := by
  have hused : (w'.host.streams i).state ≠ .free := by
    rw [hhost]
    show (Function.update w.host.streams i stream i).state ≠ _
    rw [Function.update_self, hrole.state, hopen]
    rintro ⟨⟩
  have hrelease := Comp.bind_eq (f := f) (@hostStreamRelease_run τ config w' i hused)
  rw [hhost, hostStreamDrop_setStream hrole.conn hrole.openAttempt, htrace,
    List.append_assoc] at hrelease
  refine .step_then (hrun.trans hrelease) rfl (.ends hopen hnotes) (.noted ?_ fun n hn => ?_)
  rotate_left
  · exact List.mem_append_right _ (List.mem_append_left _ hn)
  refine .bind (lookAfter_refines (stable_free i) (hostStreamDrop_free i w.host) _) ?_ ?_
  · exact fun _ w'' hm => hrest w'' hm.2
  · rintro e w'' ⟨hres, -⟩
    cases hres

/-- An event is handed to a protocol. -/
theorem hostProtocolEvent_refines {i : Nat} {kind : EventKind} {stream : Stream}
    (hopen : (w.host.streams i).state = .opened)
    (hpending : pendingEvent (w.host.streams i) = some (kind, stream)) :
    Refines config (hostProtocolEvent config i kind stream) w fun r w' =>
      ∀ e, r = .error e → CallbackFailed w' := by
  rcases pendingEvent_some hpending with ⟨hrole, hprotocol, hreadable⟩
  have hself : (setStream i stream w.host).streams i = stream := Function.update_self ..
  have hsame : streamOnEvent config stream = streamOnEvent config (w.host.streams i) := by
    unfold streamOnEvent streamProtocol
    rw [hprotocol]
  have hdone : ∀ w', Refines config (Comp.ofResult (.ok ()) : HostM τ Unit) w' fun r w'' =>
      ∀ e, r = .error e → CallbackFailed w'' := fun w' => .ofResult (by rintro e ⟨⟩)
  rcases hostProtocolCallEvent_cases config i kind { w with host := setStream i stream w.host } with
    ⟨hnone, hcall⟩ | ⟨onEvent, state, hsome, inFrame, userData, result, env, hcall⟩
  · rw [hself, hsame] at hnone
    have hrun : hostProtocolEvent config i kind stream w =
        (Comp.onlyIf (kind = .closed) (hostStreamRelease config i) >>= fun _ =>
          Comp.ofResult (.ok ())) { w with host := setStream i stream w.host } :=
      (Comp.bind_of_ok (modifyHost_apply _ _)).trans (Comp.bind_of_ok (Comp.result_of_run hcall))
    by_cases hclosed : kind = .closed
    · rw [decide_eq_true hclosed] at hrun
      exact (endStream_refines hopen hrole hrun rfl (List.append_nil _).symm (.inl rfl)
        fun w'' _ => hdone w'').weaken fun _ _ _ hq => hq.2
    · rw [decide_eq_false hclosed] at hrun
      refine .step_then hrun (List.append_nil _).symm (.calls hopen hrole hreadable ?_) (hdone _)
      rw [show (streamProtocol config (w.host.streams i)).bind Protocol.onEvent = none from hnone]
      rfl
  · rw [hself, setStream_setStream] at hcall
    rw [hself, hsame] at hsome
    let called : Stream := { stream with inFrame := inFrame, userData := userData }
    have hrole' : (w.host.streams i).SameRole called := ⟨hrole.conn, hrole.transportStream,
      hrole.openAttempt, hrole.state, hrole.direction, hrole.openEventQueued, hrole.failEventQueued,
      hrole.protocol⟩
    have hisSome : (streamOnEvent config (w.host.streams i)).isSome := by
      rw [hsome]
      rfl
    generalize hres : (onEvent i stream kind state).1 = res at hcall
    cases res with
    | ok _ =>
      have hrun : hostProtocolEvent config i kind stream w =
          (Comp.onlyIf (kind = .closed) (hostStreamRelease config i) >>= fun _ =>
            Comp.ofResult (.ok ()))
              { host := setStream i called w.host
                result := result
                env := env
                trace := w.trace ++ [.called i (.onEvent kind) (.ok ())] } :=
        (Comp.bind_of_ok (modifyHost_apply _ _)).trans (Comp.bind_of_ok (Comp.result_of_run hcall))
      by_cases hclosed : kind = .closed
      · rw [decide_eq_true hclosed] at hrun
        exact (endStream_refines hopen hrole' hrun rfl rfl (.inr ⟨hisSome, kind, _, rfl⟩)
          fun w'' _ => hdone w'').weaken fun _ _ _ hq => hq.2
      · rw [decide_eq_false hclosed] at hrun
        refine .step_then hrun rfl (.calls hopen hrole' hreadable ?_) (hdone _)
        rw [show (streamProtocol config (w.host.streams i)).bind Protocol.onEvent =
          streamOnEvent config (w.host.streams i) from rfl, if_pos hisSome]
    | error e =>
      have hrun : hostProtocolEvent config i kind stream w =
          (hostStreamRelease config i >>= fun _ => do
            let res ← Comp.result (Comp.fail e : HostM τ Unit)
            Comp.onlyIf (kind = .closed) (hostStreamRelease config i)
            Comp.ofResult res)
              { host := setStream i called w.host
                result := result
                env := (config.transport.streamReset stream.transportStream 0 env).2
                trace := w.trace ++ [.called i (.onEvent kind) (.error e)] } := by
        rcases hostStreamRelease_ok config i
          { host := setStream i called w.host
            result := result
            env := (config.transport.streamReset stream.transportStream 0 env).2
            trace := w.trace ++ [.called i (.onEvent kind) (.error e)] } with ⟨w₁, hrelease⟩
        have hcall' := hcall.trans ((transport_bind ..).trans (Comp.bind_of_ok hrelease))
        rw [Comp.bind_of_ok hrelease]
        exact (Comp.bind_of_ok (modifyHost_apply _ _)).trans
          (Comp.bind_of_ok (Comp.result_of_run hcall'))
      refine (endStream_refines (Q := fun _ _ => True) hopen hrole' hrun rfl rfl
        (.inr ⟨hisSome, kind, _, rfl⟩) ?_).weaken fun _ _ _ hq _ _ =>
          ⟨i, kind, e, hq.1 _ List.mem_cons_self⟩
      intro w'' hfree
      refine .still_then (Comp.bind_of_ok (Comp.result_of_run (Comp.fail_apply e w''))) rfl rfl ?_
      by_cases hclosed : kind = .closed
      · rw [decide_eq_true hclosed]
        exact .still_then (Comp.bind_of_ok (hostStreamRelease_free hfree)) rfl rfl
          (.ofResult trivial)
      · rw [decide_eq_false hclosed]
        exact .still_then (Comp.bind_of_ok (Comp.pure_apply _ _)) rfl rfl
          (.ofResult trivial)

/-- `host_protocol_event_one`. -/
theorem hostProtocolEventOne_refines (left : Nat) :
    Refines config (hostProtocolEventOne config left) w fun r w' =>
      ∀ e, r = .error e → CallbackFailed w' := by
  induction left generalizing w with
  | zero => exact .pure (by rintro e ⟨⟩)
  | succ left ih =>
    unfold hostProtocolEventOne
    apply Refines.read_bind
    let index := w.host.protocolCursor % config.streamCapacity
    refine .step_then (Comp.bind_of_ok (modifyHost_apply _ _)) (List.append_nil _).symm
      (.cursors w.host _ _ _) ?_
    cases hpending : if (w.host.streams index).state = .opened then
        pendingEvent (w.host.streams index) else none with
    | none => exact ih
    | some event =>
      rcases event with ⟨kind, stream⟩
      have hopen : (w.host.streams index).state = .opened := by
        by_contra hnot
        rw [if_neg hnot] at hpending
        cases hpending
      rw [if_pos hopen] at hpending
      refine .bind (hostProtocolEvent_refines hopen hpending) ?_ ?_
      · exact fun _ _ _ => .pure (by rintro e ⟨⟩)
      · exact fun e _ hm _ _ => hm e rfl

/-! ## Rounds -/

/-- `host_conn_recycle_quiet`. -/
theorem hostConnRecycleQuiet_refines : Refines config (hostConnRecycleQuiet config) w fun r _ =>
    ∀ e, r = .error e → TransportFails config := by
  unfold hostConnRecycleQuiet
  have hloop := @Refines.forOk τ Nat config w (hostConnTryRecycle config) (fun _ => True)
    (fun _ _ => TransportFails config) (List.range config.maxConnections) ?_ trivial
  · exact hloop.weaken fun _ _ _ hq => hq.2
  · intro i _ w _
    exact (@hostConnTryRecycle_refines τ config w (fun _ => True) trivial i fun _ => trivial).weaken
      fun _ _ _ hq => ⟨fun _ => trivial, hq.2⟩

/-- `host_close_maybe_complete`. -/
theorem hostCloseMaybeComplete_refines (hroom : Room config 1 w.host) :
    Refines config (hostCloseMaybeComplete config) w fun r _ => ∃ progress, r = .ok progress := by
  unfold hostCloseMaybeComplete
  apply Refines.read_bind
  refine .ite (fun hdone => ?_) fun _ => .pure ⟨false, rfl⟩
  exact .step_then ((Comp.bind_of_ok (hostEventPush_run hroom .hostClosed)).trans
    (Comp.bind_of_ok (modifyHost_apply _ _))) rfl
    (.completes hdone.1 hdone.2.1 hdone.2.2) (.pure ⟨true, rfl⟩)

/-- A part of a round that is held back where there is no room for it. -/
theorem whenever_refines {α : Type} {b : Prop} [Decidable b] {default : α} {c : HostM τ α}
    {E : World τ → Prop} (hc : b → Refines config c w fun r w' => ∀ e, r = .error e → E w') :
    Refines config (whenever b default c) w fun r w' => ∀ e, r = .error e → E w' :=
  .ite hc fun _ => .pure (by rintro e ⟨⟩)

/-- A part that does not fail. -/
theorem Refines.of_ok {α : Type} {c : HostM τ α} {E : World τ → Prop}
    (h : Refines config c w fun r _ => ∃ a, r = .ok a) :
    Refines config c w fun r w' => ∀ e, r = .error e → E w' :=
  h.weaken fun r w' _ ⟨a, ha⟩ e he => by cases ha.symm.trans he

/-- A part of a round, and the rest. -/
theorem Refines.part {α β : Type} {x : HostM τ α} {f : α → HostM τ β} {E : World τ → Prop}
    (hx : Refines config x w fun r w' => ∀ e, r = .error e → E w')
    (hf : ∀ a w', Refines config (f a) w' fun r w'' => ∀ e, r = .error e → E w'') :
    Refines config (x >>= f) w fun r w' => ∀ e, r = .error e → E w' :=
  .bind hx (fun a w' _ => hf a w') fun e _ hm _ _ => hm e rfl

/-- A round of `libp2p_host_drive`. -/
theorem hostDriveRound_refines (openSlotsLeft : Nat) :
    Refines config (hostDriveRound config openSlotsLeft) w fun r w' =>
      ∀ e, r = .error e → Blamed config w' := by
  have hroom : ∀ w : World τ, w.host.events.length < config.eventCapacity →
      Room config 1 w.host := fun _ h => h
  unfold hostDriveRound
  apply Refines.read_bind
  refine .part (whenever_refines hostTransportEventOne_refines) fun transportProgress w => ?_
  apply Refines.read_bind
  refine .part (whenever_refines fun h => (hostStreamOpenRetryOne_refines _ (hroom w h)).of_ok)
    fun opened w => ?_
  apply Refines.read_bind
  refine .part (whenever_refines fun h => (hostStreamNegotiationOne_refines _ (hroom w h)).of_ok)
    fun negotiationProgress w => ?_
  refine .part ((hostProtocolEventOne_refines _).weaken fun r w' _ hq e he =>
    .inr (.inl (hq e he))) fun protocolProgress w => ?_
  refine .part (hostConnRecycleQuiet_refines.weaken fun r w' _ hq e he => .inl (hq e he))
    fun _ w => ?_
  apply Refines.read_bind
  refine .part (whenever_refines fun h => (hostCloseMaybeComplete_refines (hroom w h)).of_ok)
    fun closeProgress w => ?_
  exact .pure (by rintro e ⟨⟩)

/-- The rounds of `libp2p_host_drive`. -/
theorem hostDriveLoop_refines (guard openSlotsLeft : Nat) :
    Refines config (hostDriveLoop config guard openSlotsLeft) w fun r w' =>
      ∀ e, r = .error e → Blamed config w' := by
  induction guard generalizing w openSlotsLeft with
  | zero => exact .pure (by rintro e ⟨⟩)
  | succ guard ih =>
    unfold hostDriveLoop
    refine .part (hostDriveRound_refines openSlotsLeft) fun round w => ?_
    exact .ite (fun _ => ih _) fun _ => .pure (by rintro e ⟨⟩)

/-- `libp2p_host_drive`. -/
theorem hostDrive_refines (now ready : Nat) :
    Refines config (hostDrive config now ready) w fun r w' =>
      (hostValidateStarted w.host = .ok () ∧ ready ≤ hostReadyAll →
        ∀ e, r = .error e → Blamed config w') := by
  unfold hostDrive
  refine .still_then (Comp.bind_of_ok (modifyResult_apply _ _)) rfl rfl ?_
  apply Refines.read_bind
  refine .bind (M := fun r w' => r = hostValidateStarted w.host) (.ofResult rfl) ?_ ?_
  · intro _ w' hvalid
    refine .ite (fun hready => .fail fun h => ?_) fun _ => ?_
    · exact absurd h.2 (Nat.not_le_of_lt hready)
    · refine Refines.weaken (.part (E := Blamed config) (whenever_refines fun _ => ?_) fun _ w =>
        hostDriveLoop_refines _ _) fun r w' _ hq _ => hq
      exact .onTransport fun e he => .inl (.inl ⟨now, ready, _, e, he⟩)
  · intro e w' hvalid h
    cases hvalid.trans h.1

end LeanLibp2p.Host
