import Mathlib.Data.List.Perm.Subperm
import LeanLibp2p.Quic.Conn
import LeanLibp2p.Quic.TxIntegrity

/-!
# The stream objects of a connection

A connection between its application, ngtcp2 and the peer, over any run. The history records which
streams ngtcp2 still has, which `CLOSED` events the application took from the queue and which stream
pointers it still holds. No function but the one that frees the connection takes a stream that was
opened out of the vector.
-/

namespace LeanLibp2p.Quic

open LeanLibp2p.Lib

/-- A connection and the pointers into its streams: the queued events, ngtcp2's open streams with
    their user data, the stream ids used so far, the streams whose `CLOSED` event was taken, those
    the application holds, and how many were ever opened. -/
structure ConnRun where
  conn : Conn := {}
  events : List StreamEvent := []
  ngStreams : List (Int × Option Nat) := []
  used : List Int := []
  drained : List Nat := []
  held : List Nat := []
  opened : Nat := 0
  deriving DecidableEq, Repr

variable (run : ConnRun)

/-- What can happen on a connection. The answers of the allocator, of ngtcp2 and of the event queue
    come with it. -/
inductive ConnAction where
  | enter (state : ConnState)
  | openBidiStream (allocated : Bool) (opened : Except QuicErr Int)
  | acceptStream
  | streamOpen (streamId : Int) (answers : CallbackAnswers)
  | recvStreamData (streamId : Int) (offset : Nat) (data : Bytes) (fin stored : Bool)
      (answers : CallbackAnswers)
  | streamClose (streamId : Int) (appError : Bool) (answers : CallbackAnswers)
  | streamReset (streamId : Int) (answers : CallbackAnswers)
  | acked (streamId : Int) (offset dataLen : Nat) (alloc : Option Nat) (pushed : Bool)
  | datagram (stream dataLen : Nat) (pushed : Bool)
  | write (stream window : Nat) (data : Bytes) (fin : Bool) (alloc : Option Nat) (pushed : Bool)
  | reset (stream : Nat) (shut : Except QuicErr Unit) (pushed : Bool)
  | nextEvent
  | release (stream : Nat)

namespace ConnRun

/-- ngtcp2 has this stream open, with this user data. -/
def ngStream (streamId : Int) : Option (Option Nat) := run.ngStreams.lookup streamId

/-- ngtcp2 calls back about a stream that it has open, or about one that the peer opens with an id
    that was not used before. -/
def mayCallBack (streamId : Int) : Bool :=
  (run.ngStream streamId).isSome || decide (streamId ∉ run.used)

/-- The user data of a stream. -/
def userData (streamId : Int) : Option Nat := (run.ngStream streamId).join

/-- ngtcp2 makes a callback about a stream, which it forgets where `gone`. -/
def callback (streamId : Int) (gone : Bool) (result : CallbackResult) : ConnRun :=
  let others := run.ngStreams.filter fun entry => entry.1 ≠ streamId
  { run with
    conn := result.conn
    events := run.events ++ result.events
    ngStreams := if gone then others else (streamId, result.userData) :: others
    used := streamId :: run.used
    opened := run.opened + (result.conn.objects.length - run.conn.objects.length) }

/-- The application's pointer or ngtcp2's leads to a stream object, and an event may report it. -/
def touch (stream : Nat) (f : Stream → Stream) (events : List StreamEvent) : ConnRun :=
  { run with conn := run.conn.update stream f, events := run.events ++ events }

/-- One thing happens. What ngtcp2 does not do (a callback about a stream that it closed, an id used
    twice) and what the application cannot do (a call with a pointer it does not hold) changes
    nothing. -/
def step : ConnAction → ConnRun
  | .enter state => { run with conn := { run.conn with state := state } }
  | .openBidiStream allocated opened =>
    if opened.toOption.any (fun streamId => decide (streamId ∈ run.used)) then run
    else
      match run.conn.openBidiStream allocated opened, opened with
      | (.ok stream, conn), .ok streamId =>
        { run with
          conn := conn
          ngStreams := (streamId, some stream) :: run.ngStreams
          used := streamId :: run.used
          held := stream :: run.held
          opened := run.opened + 1 }
      | (_, conn), _ => { run with conn := conn }
  | .acceptStream =>
    match run.conn.acceptStream with
    | (.ok stream, conn) => { run with conn := conn, held := stream :: run.held }
    | (.error _, conn) => { run with conn := conn }
  | .streamOpen streamId answers =>
    if streamId ∈ run.used then run
    else run.callback streamId false (run.conn.streamOpenCb streamId answers)
  | .recvStreamData streamId offset data fin stored answers =>
    if run.mayCallBack streamId then
      run.callback streamId false
        (run.conn.recvStreamDataCb (run.userData streamId) streamId offset data fin stored answers)
    else run
  | .streamClose streamId appError answers =>
    if run.mayCallBack streamId then
      run.callback streamId true
        (run.conn.streamCloseCb (run.userData streamId) streamId appError answers)
    else run
  | .streamReset streamId answers =>
    if run.mayCallBack streamId then
      run.callback streamId false
        (run.conn.streamResetCb (run.userData streamId) streamId answers)
    else run
  | .acked streamId offset dataLen alloc pushed =>
    match run.ngStream streamId with
    | some (some stream) =>
      let object := run.conn.object stream
      let acked := (object.recordAckedRange offset dataLen).any Prod.snd
      run.touch stream (fun object => (object.reclaimAcked offset dataLen alloc pushed).1)
        (pushEvent (acked && object.state.live && !object.localFinQueued && pushed)
          .streamWritable stream)
    | _ => run
  | .datagram stream dataLen pushed =>
    let object := run.conn.object stream
    if object.wantsTx ∧ stream ∈ run.conn.streams then
      let drained := object.txLen ≠ 0 ∧ object.txSentLen + dataLen = object.txLen
      run.touch stream (fun object => object.sent dataLen object.offeredFin pushed)
        (pushEvent (drained && !object.localFinQueued && pushed) .streamWritable stream)
    else run
  | .write stream window data fin alloc pushed =>
    if stream ∈ run.held then
      let reserved := (run.conn.object stream).reserveWrite window data.length alloc
      run.touch stream (fun object => (object.write window data fin alloc pushed).stream)
        (pushEvent (reserved.toBool && pushed) .txDatagramReady stream)
    else run
  | .reset stream shut pushed =>
    if stream ∈ run.held then
      let object := run.conn.object stream
      run.touch stream (fun object => (object.resetStream shut pushed).2)
        (pushEvent (object.state.live && shut.toBool && pushed) .txDatagramReady stream)
    else run
  | .nextEvent =>
    match run.events with
    | [] => run
    | event :: events =>
      { run with
        events := events
        held := event.stream :: run.held
        drained := if event.type = .streamClosed then event.stream :: run.drained else run.drained }
  | .release stream => { run with held := run.held.filter (· ≠ stream) }

@[simp] theorem step_enter (state : ConnState) :
    run.step (.enter state) = { run with conn := { run.conn with state := state } } := by
  simp only [step]

@[simp] theorem step_release (stream : Nat) :
    run.step (.release stream) = { run with held := run.held.filter (· ≠ stream) } := by
  simp only [step]

/-- The stream is terminal in both directions, its `CLOSED` event was taken, and neither an event
    nor ngtcp2 nor the application has its pointer. -/
def Retired (stream : Nat) : Prop :=
  (run.conn.object stream).state.live = false ∧ stream ∈ run.drained ∧
    (∀ event ∈ run.events, event.stream ≠ stream) ∧
    (∀ entry ∈ run.ngStreams, entry.2 ≠ some stream) ∧ stream ∉ run.held

instance (stream : Nat) : Decidable (run.Retired stream) := by
  unfold Retired
  infer_instance

/-- Closed streams do not accumulate: no retired stream is in the vector, which is then no longer than
    the streams that are open or still referenced are many. -/
structure Reclaims (run : ConnRun) : Prop where
  retired : ∀ stream ∈ run.conn.streams, ¬ run.Retired stream
  bounded : run.conn.streams.length ≤
    ((List.range run.conn.objects.length).filter fun stream => ¬ run.Retired stream).length

/-- The application does not let go of a stream whose `CLOSED` event it took, unless another event
    of that stream is still queued. -/
def Keeps : ConnAction → Prop
  | .release stream =>
    ¬ (stream ∈ run.drained ∧ ∀ event ∈ run.events, event.stream ≠ stream)
  | _ => True

/-! ## One function at a time -/

theorem object_update_self {conn : Conn} {stream : Nat} (h : stream < conn.objects.length)
    (f : Stream → Stream) : (conn.update stream f).object stream = f (conn.object stream) := by
  simp [Conn.object, Conn.update, h]

theorem object_update_of_ne {conn : Conn} {stream other : Nat} (h : stream ≠ other)
    (f : Stream → Stream) : (conn.update stream f).object other = conn.object other := by
  simp [Conn.object, Conn.update, h]

theorem update_length (conn : Conn) (stream : Nat) (f : Stream → Stream) :
    (conn.update stream f).objects.length = conn.objects.length := by
  simp [Conn.update]

/-- A field of a stream object that `f` keeps is kept by the update. -/
theorem object_update_congr {β : Type} {conn : Conn} {stream : Nat} {f : Stream → Stream}
    (field : Stream → β) (hf : field (f (conn.object stream)) = field (conn.object stream))
    (other : Nat) : field ((conn.update stream f).object other) = field (conn.object other) := by
  by_cases hne : stream = other
  · subst hne
    by_cases hlt : stream < conn.objects.length
    · rw [object_update_self hlt, hf]
    · simp [Conn.object, Conn.update, hlt]
  · rw [object_update_of_ne hne]

/-- A new stream object leaves those before it alone. -/
theorem object_append {conn : Conn} {streams : List Nat} {object : Stream} {stream : Nat}
    (h : stream < conn.objects.length) :
    Conn.object { conn with streams := streams, objects := conn.objects ++ [object] } stream =
      conn.object stream := by
  simp [Conn.object, List.getElem?_append_left h]

theorem object_append_new (conn : Conn) (streams : List Nat) (object : Stream) :
    Conn.object { conn with streams := streams, objects := conn.objects ++ [object] }
      conn.objects.length = object := by
  simp [Conn.object]

theorem modify_last (objects : List Stream) (object : Stream) (f : Stream → Stream) :
    (objects ++ [object]).modify objects.length f = objects ++ [f object] := by
  induction objects with
  | nil => rfl
  | cons first objects ih => exact congrArg (first :: ·) ih

theorem mem_pushEvent {pushed : Bool} {type : StreamEventType} {stream : Nat} {event : StreamEvent}
    (h : event ∈ pushEvent pushed type stream) : event = ⟨type, stream⟩ := by
  cases pushed with
  | false => simp [pushEvent] at h
  | true => simpa [pushEvent] using h

/-! ## The invariant -/

/-- The `CLOSED` event of the stream is queued or was taken. -/
def Closed (stream : Nat) : Prop :=
  stream ∈ run.drained ∨ ⟨.streamClosed, stream⟩ ∈ run.events

/-- The vector has every stream that was opened, and ngtcp2 has forgotten those that are closed. -/
structure Tracked (run : ConnRun) : Prop where
  bound : ∀ stream ∈ run.conn.streams, stream < run.conn.objects.length
  ordered : run.conn.streams.Pairwise (· < ·)
  length : run.conn.streams.length = run.opened
  ids : ∀ stream ∈ run.conn.streams, (run.conn.object stream).streamId ∈ run.used
  ngUsed : ∀ entry ∈ run.ngStreams, entry.1 ∈ run.used
  ngStreams : ∀ entry ∈ run.ngStreams, ∀ stream, entry.2 = some stream →
    stream ∈ run.conn.streams ∧ (run.conn.object stream).streamId = entry.1
  closed : ∀ stream, run.Closed stream → stream ∈ run.conn.streams ∧
    (run.conn.object stream).state.live = false ∧
    ∀ entry ∈ run.ngStreams, entry.1 ≠ (run.conn.object stream).streamId

variable {run : ConnRun}

variable (h : Tracked run)

include h

/-- A drained stream is retired once neither an event nor the application refers to it. -/
theorem Tracked.retired_iff (stream : Nat) : run.Retired stream ↔
    stream ∈ run.drained ∧ (∀ event ∈ run.events, event.stream ≠ stream) ∧ stream ∉ run.held := by
  constructor
  · rintro ⟨-, hdrained, hevents, -, hheld⟩
    exact ⟨hdrained, hevents, hheld⟩
  · rintro ⟨hdrained, hevents, hheld⟩
    obtain ⟨-, hlive, hforgot⟩ := h.closed stream (.inl hdrained)
    refine ⟨hlive, hdrained, hevents, ?_, hheld⟩
    intro entry hentry hstream
    exact hforgot entry hentry (h.ngStreams entry hentry stream hstream).2.symm

/-- A step on one stream object. -/
theorem Tracked.touch {stream : Nat} {f : Stream → Stream} {events : List StreamEvent}
    (hid : (f (run.conn.object stream)).streamId = (run.conn.object stream).streamId)
    (hstate : run.Closed stream →
      (f (run.conn.object stream)).state.live = (run.conn.object stream).state.live)
    (hevents : ∀ event ∈ events, event.type ≠ .streamClosed) :
    Tracked (run.touch stream f events) := by
  have hids := object_update_congr Stream.streamId hid
  have hclosed : ∀ other, (run.touch stream f events).Closed other → run.Closed other := by
    rintro other (hdrained | hevent)
    · exact .inl hdrained
    · rcases List.mem_append.mp hevent with hevent | hevent
      · exact .inr hevent
      · exact absurd rfl (hevents _ hevent)
  refine ⟨?_, h.ordered, h.length, ?_, h.ngUsed, ?_, ?_⟩
  · intro other hmem
    show other < (run.conn.update stream f).objects.length
    rw [update_length]
    exact h.bound other hmem
  · intro other hmem
    show ((run.conn.update stream f).object other).streamId ∈ run.used
    rw [hids]
    exact h.ids other hmem
  · intro entry hentry other hother
    refine ⟨(h.ngStreams entry hentry other hother).1, ?_⟩
    show ((run.conn.update stream f).object other).streamId = entry.1
    rw [hids]
    exact (h.ngStreams entry hentry other hother).2
  · intro other hother
    have hwas := hclosed other hother
    obtain ⟨hmem, hlive, hforgot⟩ := h.closed other hwas
    refine ⟨hmem, ?_, ?_⟩
    · show ((run.conn.update stream f).object other).state.live = false
      by_cases hne : stream = other
      · subst hne
        rw [object_update_self (h.bound stream hmem), hstate hwas, hlive]
      · rw [object_update_of_ne hne, hlive]
    · intro entry hentry
      show entry.1 ≠ ((run.conn.update stream f).object other).streamId
      rw [hids]
      exact hforgot entry hentry

/-! ## The callbacks -/

/-- What a callback about a stream id does: it leaves every stream in the vector, touches only one
    with that id, and reports a close only of a stream that ngtcp2 then forgets. -/
structure Effect (run : ConnRun) (streamId : Int) (gone : Bool) (result : CallbackResult) : Prop where
  bound : ∀ stream ∈ result.conn.streams, stream < result.conn.objects.length
  ordered : result.conn.streams.Pairwise (· < ·)
  length : result.conn.streams.length =
    run.opened + (result.conn.objects.length - run.conn.objects.length)
  kept : ∀ stream ∈ run.conn.streams, stream ∈ result.conn.streams ∧
    (result.conn.object stream).streamId = (run.conn.object stream).streamId
  new : ∀ stream ∈ result.conn.streams, stream ∈ run.conn.streams ∨
    (result.conn.object stream).streamId = streamId
  userData : ∀ stream, result.userData = some stream →
    stream ∈ result.conn.streams ∧ (result.conn.object stream).streamId = streamId
  same : ∀ stream, run.Closed stream → result.conn.object stream = run.conn.object stream
  closed : ∀ stream, ⟨.streamClosed, stream⟩ ∈ result.events →
    gone = true ∧ stream ∈ result.conn.streams ∧
      (result.conn.object stream).state.live = false ∧
      (result.conn.object stream).streamId = streamId

/-- ngtcp2 calls back only about a stream that it did not close. -/
theorem Tracked.not_closed {streamId : Int} (hmay : run.mayCallBack streamId = true) {stream : Nat}
    (hclosed : run.Closed stream) :
    (run.conn.object stream).streamId ≠ streamId := by
  obtain ⟨hmem, -, hforgot⟩ := h.closed stream hclosed
  rintro rfl
  simp only [mayCallBack, Bool.or_eq_true, decide_eq_true_eq] at hmay
  rcases hmay with hmay | hmay
  · obtain ⟨value, hvalue⟩ := Option.isSome_iff_exists.mp hmay
    obtain ⟨before, after, hsplit, -⟩ := List.lookup_eq_some_iff.mp hvalue
    refine hforgot ((run.conn.object stream).streamId, value) ?_ rfl
    rw [hsplit]
    simp
  · exact hmay (h.ids stream hmem)

theorem Tracked.callback {streamId : Int} {gone : Bool} {result : CallbackResult}
    (hmay : run.mayCallBack streamId = true) (heffect : Effect run streamId gone result) :
    Tracked (run.callback streamId gone result) := by
  have hentries : ∀ entry ∈ (run.callback streamId gone result).ngStreams,
      (entry ∈ run.ngStreams ∧ entry.1 ≠ streamId) ∨
        (gone = false ∧ entry = (streamId, result.userData)) := by
    intro entry hentry
    cases gone with
    | true =>
      have hothers := List.mem_filter.mp hentry
      exact .inl ⟨hothers.1, of_decide_eq_true hothers.2⟩
    | false =>
      rcases List.mem_cons.mp hentry with hentry | hentry
      · exact .inr ⟨rfl, hentry⟩
      · have hothers := List.mem_filter.mp hentry
        exact .inl ⟨hothers.1, of_decide_eq_true hothers.2⟩
  refine ⟨heffect.bound, heffect.ordered, heffect.length, ?_, ?_, ?_, ?_⟩
  · intro stream hmem
    show (result.conn.object stream).streamId ∈ streamId :: run.used
    rcases heffect.new stream hmem with hold | hnew
    · rw [(heffect.kept stream hold).2]
      exact List.mem_cons_of_mem _ (h.ids stream hold)
    · rw [hnew]
      exact List.mem_cons_self
  · intro entry hentry
    rcases hentries entry hentry with ⟨hold, -⟩ | ⟨-, rfl⟩
    · exact List.mem_cons_of_mem _ (h.ngUsed entry hold)
    · exact List.mem_cons_self
  · intro entry hentry stream hstream
    rcases hentries entry hentry with ⟨hold, -⟩ | ⟨-, rfl⟩
    · obtain ⟨hmem, hid⟩ := h.ngStreams entry hold stream hstream
      obtain ⟨hkept, hsame⟩ := heffect.kept stream hmem
      exact ⟨hkept, hsame.trans hid⟩
    · exact heffect.userData stream hstream
  · intro stream hstream
    have hcases : run.Closed stream ∨ ⟨.streamClosed, stream⟩ ∈ result.events := by
      rcases hstream with hdrained | hevent
      · exact .inl (.inl hdrained)
      · exact (List.mem_append.mp hevent).imp_left .inr
    rcases hcases with hclosed | hevent
    · obtain ⟨hmem, hlive, hforgot⟩ := h.closed stream hclosed
      have hsame : result.conn.object stream = run.conn.object stream := heffect.same stream hclosed
      refine ⟨(heffect.kept stream hmem).1, ?_, ?_⟩
      · show (result.conn.object stream).state.live = false
        rw [hsame, hlive]
      · intro entry hentry
        show entry.1 ≠ (result.conn.object stream).streamId
        rw [hsame]
        rcases hentries entry hentry with ⟨hold, -⟩ | ⟨-, rfl⟩
        · exact hforgot entry hold
        · exact (h.not_closed hmay hclosed).symm
    · obtain ⟨hgone, hmem, hlive, hid⟩ := heffect.closed stream hevent
      refine ⟨hmem, hlive, ?_⟩
      intro entry hentry
      show entry.1 ≠ (result.conn.object stream).streamId
      rw [hid]
      rcases hentries entry hentry with ⟨-, hne⟩ | ⟨hfalse, -⟩
      · exact hne
      · rw [hgone] at hfalse
        cases hfalse

/-- What looking a stream up gives: a stream of the vector with that id, or a new one at its end. -/
theorem Tracked.resolve {streamId : Int} {allocated : Bool} {stream : Nat} {conn : Conn}
    (hresolve : run.conn.resolveStream (run.userData streamId) streamId allocated =
      some (stream, conn)) :
    (conn = run.conn ∧ stream ∈ run.conn.streams ∧ (run.conn.object stream).streamId = streamId) ∨
      (stream = run.conn.objects.length ∧ conn = { run.conn with
        streams := run.conn.streams ++ [run.conn.objects.length]
        objects := run.conn.objects ++ [{ streamId := streamId, incoming := true }] }) := by
  unfold Conn.resolveStream at hresolve
  cases hdata : run.userData streamId with
  | some known =>
    rw [hdata] at hresolve
    obtain ⟨rfl, rfl⟩ : known = stream ∧ run.conn = conn := by simpa using hresolve
    left
    have hlookup : run.ngStreams.lookup streamId = some (some known) := by
      simpa [ConnRun.userData, ngStream, Option.join_eq_some_iff] using hdata
    obtain ⟨before, after, hsplit, -⟩ := List.lookup_eq_some_iff.mp hlookup
    have hmem : (streamId, some known) ∈ run.ngStreams := by
      rw [hsplit]
      simp
    exact ⟨rfl, h.ngStreams _ hmem known rfl⟩
  | none =>
    rw [hdata] at hresolve
    cases hfind : run.conn.findStream streamId with
    | some known =>
      simp only [hfind] at hresolve
      obtain ⟨rfl, rfl⟩ : known = stream ∧ run.conn = conn := by simpa using hresolve
      refine .inl ⟨rfl, List.mem_of_find?_eq_some hfind, ?_⟩
      simpa using List.find?_some hfind
    | none =>
      simp only [hfind, Conn.streamNew] at hresolve
      cases allocated with
      | false => simp at hresolve
      | true =>
        obtain ⟨rfl, rfl⟩ := by simpa using hresolve
        exact .inr ⟨rfl, rfl⟩

/-- A new stream object at the end of the vector. -/
theorem Tracked.new_effect (object : Stream) (gone : Bool) (userData : Option Nat)
    {events : List StreamEvent} (ok : Bool)
    (huserData : ∀ known, userData = some known → known = run.conn.objects.length)
    (hevents : ∀ event ∈ events, event.type ≠ .streamClosed) :
    Effect run object.streamId gone
      ⟨{ run.conn with
          streams := run.conn.streams ++ [run.conn.objects.length]
          objects := run.conn.objects ++ [object] }, userData, events, ok⟩ := by
  have hnew := object_append_new run.conn (run.conn.streams ++ [run.conn.objects.length]) object
  have hold : ∀ known ∈ run.conn.streams, Conn.object { run.conn with
      streams := run.conn.streams ++ [run.conn.objects.length]
      objects := run.conn.objects ++ [object] } known = run.conn.object known :=
    fun known hknown => object_append (h.bound known hknown)
  have hmem : run.conn.objects.length ∈ run.conn.streams ++ [run.conn.objects.length] :=
    List.mem_append_right _ (List.mem_singleton_self _)
  refine ⟨?_, ?_, ?_, ?_, ?_, ?_, ?_, fun _ hevent => absurd rfl (hevents _ hevent)⟩
  · intro known hknown
    show known < (run.conn.objects ++ [_]).length
    rw [List.length_append, List.length_singleton]
    rcases List.mem_append.mp hknown with hknown | hknown
    · exact Nat.lt_succ_of_lt (h.bound known hknown)
    · rw [List.mem_singleton.mp hknown]
      exact Nat.lt_succ_self _
  · refine List.pairwise_append.mpr ⟨h.ordered, List.pairwise_singleton _ _, ?_⟩
    intro known hknown last hlast
    rw [List.mem_singleton.mp hlast]
    exact h.bound known hknown
  · show (run.conn.streams ++ [_]).length =
      run.opened + ((run.conn.objects ++ [_]).length - run.conn.objects.length)
    rw [List.length_append, List.length_append, h.length, List.length_singleton,
      List.length_singleton]
    omega
  · intro known hknown
    exact ⟨List.mem_append_left _ hknown, congrArg Stream.streamId (hold known hknown)⟩
  · intro known hknown
    rcases List.mem_append.mp hknown with hknown | hknown
    · exact .inl hknown
    · rw [List.mem_singleton.mp hknown]
      exact .inr (congrArg Stream.streamId hnew)
  · intro known hknown
    rw [huserData known hknown]
    exact ⟨hmem, congrArg Stream.streamId hnew⟩
  · intro known hknown
    exact hold known (h.closed known hknown).1

/-- Looking a stream up has a callback's effect, before anything happens to the stream. -/
theorem Tracked.resolve_effect {streamId : Int} {allocated : Bool} {stream : Nat} {conn : Conn}
    (hresolve : run.conn.resolveStream (run.userData streamId) streamId allocated =
      some (stream, conn)) (gone : Bool) (userData : Option Nat) {events : List StreamEvent}
    (ok : Bool) (huserData : ∀ known, userData = some known → known = stream)
    (hevents : ∀ event ∈ events, event.type ≠ .streamClosed) :
    Effect run streamId gone ⟨conn, userData, events, ok⟩ ∧
      stream ∈ conn.streams ∧ (conn.object stream).streamId = streamId := by
  rcases h.resolve hresolve with ⟨rfl, hmem, hid⟩ | ⟨rfl, rfl⟩
  · refine ⟨⟨h.bound, h.ordered, ?_, fun _ hstream => ⟨hstream, rfl⟩, fun _ hstream => .inl hstream,
      ?_, fun _ _ => rfl, fun _ hevent => absurd rfl (hevents _ hevent)⟩, hmem, hid⟩
    · rw [Nat.sub_self, Nat.add_zero, h.length]
    · intro known hknown
      rw [huserData known hknown]
      exact ⟨hmem, hid⟩
  · refine ⟨h.new_effect { streamId := streamId, incoming := true } gone userData ok huserData
      hevents, List.mem_append_right _ (List.mem_singleton_self _), ?_⟩
    rw [object_append_new]

omit h in
/-- What then happens to the stream object, and is reported. -/
theorem Effect.update {streamId : Int} {gone : Bool} {result : CallbackResult} {stream : Nat}
    {object : Stream} {events : List StreamEvent} (h : Effect run streamId gone result)
    (hmem : stream ∈ result.conn.streams) (hclosed : ¬ run.Closed stream)
    (hid : (result.conn.object stream).streamId = streamId) (hobject : object.streamId = streamId)
    (hevents : ∀ event ∈ events, event.type = .streamClosed →
      gone = true ∧ event.stream = stream ∧ object.state.live = false) (ok : Bool) :
    Effect run streamId gone
      ⟨result.conn.update stream fun _ => object, result.userData, events, ok⟩ := by
  have hids := object_update_congr (f := fun _ => object) Stream.streamId
    (hobject.trans hid.symm)
  refine ⟨?_, h.ordered, ?_, ?_, ?_, ?_, ?_, ?_⟩
  · intro known hknown
    show known < (result.conn.update stream _).objects.length
    rw [update_length]
    exact h.bound known hknown
  · show result.conn.streams.length =
      run.opened + ((result.conn.update stream _).objects.length - run.conn.objects.length)
    rw [update_length]
    exact h.length
  · intro known hknown
    exact ⟨(h.kept known hknown).1, (hids known).trans (h.kept known hknown).2⟩
  · intro known hknown
    exact (h.new known hknown).imp_right (hids known).trans
  · intro known hknown
    exact ⟨(h.userData known hknown).1, (hids known).trans (h.userData known hknown).2⟩
  · intro known hknown
    have hne : stream ≠ known := by
      rintro rfl
      exact hclosed hknown
    exact (object_update_of_ne hne _).trans (h.same known hknown)
  · intro known hknown
    obtain ⟨hgone, rfl, hlive⟩ := hevents _ hknown rfl
    have hself : (result.conn.update known fun _ => object).object known = object :=
      object_update_self (h.bound known hmem) _
    refine ⟨hgone, hmem, ?_, ?_⟩
    · show ((result.conn.update known fun _ => object).object known).state.live = false
      rw [hself, hlive]
    · show ((result.conn.update known fun _ => object).object known).streamId = streamId
      rw [hself, hobject]

/-- Every stream callback has that effect. -/
theorem Tracked.streamCallback_effect {streamId : Int} (hmay : run.mayCallBack streamId = true)
    (announce gone : Bool) {f : Stream → Option Stream} (type : StreamEventType)
    (answers : CallbackAnswers)
    (hid : ∀ stream object, f stream = some object → object.streamId = stream.streamId)
    (hclosed : type = .streamClosed → gone = true ∧
      ∀ stream object, f stream = some object → object.state.live = false) :
    Effect run streamId gone
      (run.conn.streamCallback (run.userData streamId) streamId announce f type answers) := by
  unfold Conn.streamCallback
  cases hresolve : run.conn.resolveStream (run.userData streamId) streamId answers.allocated with
  | none =>
    refine ⟨h.bound, h.ordered, ?_, fun _ hmem => ⟨hmem, rfl⟩, fun _ hmem => .inl hmem, ?_,
      fun _ _ => rfl, by simp⟩
    · rw [Nat.sub_self, Nat.add_zero, h.length]
    · intro known hknown
      have hdata : run.userData streamId = some known := hknown
      rw [hdata] at hresolve
      simp [Conn.resolveStream] at hresolve
  | some found =>
    obtain ⟨stream, conn⟩ := found
    have hincoming : ∀ (announced : Bool),
        ∀ event ∈ pushEvent announced .streamIncoming stream, event.type ≠ .streamClosed := by
      intro announced event hevent
      rw [mem_pushEvent hevent]
      simp
    have hnothing : ∀ event ∈ ([] : List StreamEvent), event.type ≠ .streamClosed := by simp
    have hself : ∀ known, some stream = some known → known = stream := by
      intro known hknown
      exact (Option.some.inj hknown).symm
    dsimp only
    split
    · exact (h.resolve_effect hresolve gone none false (by simp) hnothing).1
    · split
      · exact (h.resolve_effect hresolve gone (some stream) false hself hnothing).1
      · split
        · exact (h.resolve_effect hresolve gone (some stream) false hself (hincoming _)).1
        · rename_i object hobject
          obtain ⟨heffect, hmem, hstreamId⟩ :=
            h.resolve_effect hresolve gone (some stream) false hself hnothing
          have hnot : ¬ run.Closed stream := by
            intro hwas
            refine h.not_closed hmay hwas ?_
            rw [← heffect.same stream hwas]
            exact hstreamId
          refine heffect.update hmem hnot hstreamId ((hid _ _ hobject).trans hstreamId) ?_ _
          intro event hevent htype
          rcases List.mem_append.mp hevent with hevent | hevent
          · exact absurd htype (hincoming _ event hevent)
          · rw [mem_pushEvent hevent] at htype ⊢
            obtain ⟨hgone, hlive⟩ := hclosed htype
            exact ⟨hgone, rfl, hlive _ _ hobject⟩

/-! ## What the functions of a stream keep -/

omit h

theorem recvData_streamId (stream : Stream) (data : Bytes) (fin : Bool) :
    (stream.recvData data fin).streamId = stream.streamId := by
  cases fin <;> rfl

theorem closeCb_streamId (appError : Bool) (stream : Stream) :
    (stream.closeCb appError).streamId = stream.streamId := by
  unfold Stream.closeCb
  rw [TxRun.discardTx_eq]

theorem closeCb_live (appError : Bool) (stream : Stream) :
    (stream.closeCb appError).state.live = false := by
  cases appError <;> rfl

theorem shrinkTx_kept (alloc : Option Nat) (stream : Stream) :
    ∃ data cap, stream.shrinkTx alloc = { stream with txData := data, txCap := cap } := by
  unfold Stream.shrinkTx
  dsimp only
  repeat' split
  all_goals exact ⟨_, _, rfl⟩

theorem recordAckedRange_kept {offset dataLen : Nat} {stream stream' : Stream} {acked : Bool}
    (h : stream.recordAckedRange offset dataLen = some (stream', acked)) :
    ∃ ranges, stream' = { stream with txAckRanges := ranges } := by
  unfold Stream.recordAckedRange at h
  dsimp only at h
  split at h
  · cases h
  · split at h
    · cases h
      exact ⟨stream.txAckRanges, rfl⟩
    · split at h
      · exact ⟨_, (Prod.mk.inj (Option.some.inj h)).1.symm⟩
      · cases h
        exact ⟨stream.txAckRanges, rfl⟩

/-- An acknowledgement does not end a stream. -/
theorem reclaimAcked_kept (offset dataLen : Nat) (alloc : Option Nat) (pushed : Bool)
    (stream : Stream) :
    (stream.reclaimAcked offset dataLen alloc pushed).1.streamId = stream.streamId ∧
      (stream.reclaimAcked offset dataLen alloc pushed).1.state = stream.state := by
  unfold Stream.reclaimAcked
  split
  · exact ⟨rfl, rfl⟩
  · rename_i hrecord
    obtain ⟨ranges, rfl⟩ := recordAckedRange_kept hrecord
    exact ⟨rfl, rfl⟩
  · rename_i hrecord
    obtain ⟨ranges, rfl⟩ := recordAckedRange_kept hrecord
    dsimp only
    obtain ⟨data, cap, hshrink⟩ := shrinkTx_kept alloc
      { stream with
        txAckRanges := ranges
        txBaseOffset := stream.txBaseOffset + stream.txSentLen
        txBytes := stream.txBytes.drop stream.txSentLen
        txSentLen := 0 }
    rw [hshrink]
    obtain ⟨blocked, hwake⟩ := TxRun.wakeBlockedWriter_spec pushed _
    rw [hwake]
    exact ⟨rfl, rfl⟩

/-- Neither does a write. -/
theorem write_kept (window : Nat) (data : Bytes) (fin : Bool) (alloc : Option Nat) (pushed : Bool)
    (stream : Stream) :
    (stream.write window data fin alloc pushed).stream.streamId = stream.streamId ∧
      (stream.write window data fin alloc pushed).stream.state = stream.state := by
  rcases TxRun.write_spec window data fin alloc pushed stream with
    ⟨blocked, -, hstream⟩ | ⟨-, n, txData, cap, queued, blocked, -, hstream, -⟩
  · rw [hstream]
    exact ⟨rfl, rfl⟩
  · rw [hstream]
    exact ⟨rfl, rfl⟩

theorem resetStream_streamId (shut : Except QuicErr Unit) (pushed : Bool) (stream : Stream) :
    (stream.resetStream shut pushed).2.streamId = stream.streamId := by
  unfold Stream.resetStream
  split
  · rfl
  · split
    · rfl
    · rw [TxRun.discardTx_eq]

/-- A stream that has ended is not reset. -/
theorem resetStream_of_ended {stream : Stream} (h : stream.state.live = false)
    (shut : Except QuicErr Unit) (pushed : Bool) :
    (stream.resetStream shut pushed).2 = stream := by
  unfold Stream.resetStream Stream.validate
  simp [h]

theorem sent_streamId (n : Nat) (fin pushed : Bool) (stream : Stream) :
    (stream.sent n fin pushed).streamId = stream.streamId := by
  obtain ⟨blocked, finSent, state, hsent, -⟩ := TxRun.sent_spec n fin pushed stream
  rw [hsent]

include h

/-! ## One step -/

/-- The invariant does not depend on what the application holds. -/
theorem Tracked.hold (held : List Nat) : Tracked { run with held := held } :=
  ⟨h.bound, h.ordered, h.length, h.ids, h.ngUsed, h.ngStreams, h.closed⟩

theorem Tracked.enter (state : ConnState) :
    Tracked (run.step (.enter state)) := by
  rw [step_enter]
  exact ⟨h.bound, h.ordered, h.length, h.ids, h.ngUsed, h.ngStreams, h.closed⟩

theorem Tracked.acceptStream : Tracked (run.step .acceptStream) := by
  simp only [step, Conn.acceptStream]
  split
  · rename_i stream conn hresult
    split at hresult
    · cases hresult
    · rename_i found hfound
      cases hresult
      have htouch : Tracked (run.touch stream (fun object => { object with accepted := true }) []) :=
        h.touch rfl (fun _ => rfl) (by simp)
      simp only [ConnRun.touch, List.append_nil] at htouch
      exact htouch.hold _
  · rename_i conn hresult
    split at hresult
    · cases hresult
      exact h
    · cases hresult

/-- A stream that ngtcp2 refused is taken out of the vector again. -/
theorem Tracked.popped (object : Stream) :
    Tracked { run with conn := { run.conn with
      streams := (run.conn.streams ++ [run.conn.objects.length]).dropLast
      objects := run.conn.objects ++ [object] } } := by
  rw [List.dropLast_concat]
  have hobject : ∀ stream ∈ run.conn.streams, Conn.object { run.conn with
      objects := run.conn.objects ++ [object] } stream = run.conn.object stream :=
    fun stream hmem => object_append (h.bound stream hmem)
  refine ⟨?_, h.ordered, h.length, ?_, h.ngUsed, ?_, ?_⟩
  · intro stream hmem
    show stream < (run.conn.objects ++ [object]).length
    have hlt := h.bound stream hmem
    simp only [List.length_append, List.length_singleton]
    omega
  · intro stream hmem
    show (Conn.object { run.conn with objects := run.conn.objects ++ [object] } stream).streamId ∈ _
    rw [hobject stream hmem]
    exact h.ids stream hmem
  · intro entry hentry stream hstream
    obtain ⟨hmem, hid⟩ := h.ngStreams entry hentry stream hstream
    exact ⟨hmem, (congrArg Stream.streamId (hobject stream hmem)).trans hid⟩
  · intro stream hclosed
    obtain ⟨hmem, hlive, hforgot⟩ := h.closed stream hclosed
    refine ⟨hmem, (congrArg (fun object => object.state.live) (hobject stream hmem)).trans hlive, ?_⟩
    intro entry hentry
    rw [show Conn.object _ stream = run.conn.object stream from hobject stream hmem]
    exact hforgot entry hentry

/-- A stream that the application opened, with an id that ngtcp2 did not give out before. -/
theorem Tracked.openBidiStream (allocated : Bool) (opened : Except QuicErr Int) :
    Tracked (run.step (.openBidiStream allocated opened)) := by
  simp only [step]
  split
  · exact h
  · rename_i hfresh
    unfold Conn.openBidiStream Conn.streamNew
    by_cases hstate : run.conn.state ≠ .established
    · simpa only [if_pos hstate] using h
    · rw [if_neg hstate]
      cases allocated with
      | false => exact h
      | true =>
        cases opened with
        | error e => exact h.popped _
        | ok streamId =>
          have hunused : streamId ∉ run.used := by simpa [Except.toOption] using hfresh
          have hmay : run.mayCallBack streamId = true := by simp [mayCallBack, hunused]
          have hothers : run.ngStreams.filter (fun entry => entry.1 ≠ streamId) = run.ngStreams := by
            refine List.filter_eq_self.mpr fun entry hentry => decide_eq_true ?_
            rintro rfl
            exact hunused (h.ngUsed entry hentry)
          have hnothing : ∀ event ∈ ([] : List StreamEvent), event.type ≠ .streamClosed := by simp
          have hcallback := h.callback hmay (h.new_effect { streamId := streamId } false
            (some run.conn.objects.length) true (fun _ hknown => (Option.some.inj hknown).symm)
            hnothing)
          have hupdate : (run.conn.objects ++ [({ streamId := -1, incoming := false } : Stream)]).modify
              run.conn.objects.length (fun object => { object with streamId := streamId }) =
                run.conn.objects ++ [{ streamId := streamId }] := modify_last _ _ _
          have hcount : (run.conn.objects ++ [({ streamId := streamId } : Stream)]).length -
              run.conn.objects.length = 1 := by
            rw [List.length_append, List.length_singleton]
            omega
          unfold ConnRun.callback at hcallback
          dsimp only at hcallback
          rw [hothers, hcount, List.append_nil] at hcallback
          simp only [if_true, Conn.update]
          rw [hupdate]
          exact hcallback.hold _

theorem Tracked.streamOpen (streamId : Int) (answers : CallbackAnswers) :
    Tracked (run.step (.streamOpen streamId answers)) := by
  simp only [step]
  split
  · exact h
  · rename_i hunused
    have hmay : run.mayCallBack streamId = true := by simp [mayCallBack, hunused]
    have hnone : run.userData streamId = none := by
      cases hdata : run.userData streamId with
      | none => rfl
      | some known =>
        have hlookup : run.ngStreams.lookup streamId = some (some known) := by
          simpa [ConnRun.userData, ngStream, Option.join_eq_some_iff] using hdata
        obtain ⟨before, after, hsplit, -⟩ := List.lookup_eq_some_iff.mp hlookup
        have hmem : (streamId, some known) ∈ run.ngStreams := by simp [hsplit]
        exact absurd (h.ngUsed _ hmem) hunused
    have heffect := h.streamCallback_effect hmay false false (f := some) .streamIncoming answers
      (fun _ _ hobject => congrArg Stream.streamId (Option.some.inj hobject).symm) (by simp)
    rw [hnone] at heffect
    exact h.callback hmay heffect

theorem Tracked.recvStreamData (streamId : Int) (offset : Nat) (data : Bytes) (fin stored : Bool)
    (answers : CallbackAnswers) :
    Tracked (run.step (.recvStreamData streamId offset data fin stored answers)) := by
  simp only [step]
  split
  · rename_i hmay
    refine h.callback hmay (h.streamCallback_effect hmay false false _ answers ?_ (by simp))
    intro stream object hobject
    split at hobject
    · cases hobject
    · rw [← Option.some.inj hobject]
      exact recvData_streamId stream data fin
  · exact h

theorem Tracked.streamClose (streamId : Int) (appError : Bool) (answers : CallbackAnswers) :
    Tracked (run.step (.streamClose streamId appError answers)) := by
  simp only [step]
  split
  · rename_i hmay
    refine h.callback hmay (h.streamCallback_effect hmay true true _ answers ?_ fun _ => ⟨rfl, ?_⟩)
    · intro stream object hobject
      rw [← Option.some.inj hobject]
      exact closeCb_streamId appError stream
    · intro stream object hobject
      rw [← Option.some.inj hobject]
      exact closeCb_live appError stream
  · exact h

theorem Tracked.streamReset (streamId : Int) (answers : CallbackAnswers) :
    Tracked (run.step (.streamReset streamId answers)) := by
  simp only [step]
  split
  · rename_i hmay
    refine h.callback hmay (h.streamCallback_effect hmay true false _ answers ?_ (by simp))
    intro stream object hobject
    rw [← Option.some.inj hobject]
    rfl
  · exact h

omit h in
theorem pushEvent_ne_closed {pushed : Bool} {type : StreamEventType} {stream : Nat}
    (htype : type ≠ .streamClosed) :
    ∀ event ∈ pushEvent pushed type stream, event.type ≠ .streamClosed := by
  intro event hevent
  rw [mem_pushEvent hevent]
  exact htype

theorem Tracked.acked (streamId : Int) (offset dataLen : Nat) (alloc : Option Nat) (pushed : Bool) :
    Tracked (run.step (.acked streamId offset dataLen alloc pushed)) := by
  simp only [step]
  split
  · rename_i stream _
    obtain ⟨hid, hstate⟩ := reclaimAcked_kept offset dataLen alloc pushed (run.conn.object stream)
    exact h.touch hid (fun _ => congrArg StreamState.live hstate) (pushEvent_ne_closed (by simp))
  · exact h

theorem Tracked.datagram (stream dataLen : Nat) (pushed : Bool) :
    Tracked (run.step (.datagram stream dataLen pushed)) := by
  simp only [step]
  split
  · rename_i hwants
    refine h.touch (sent_streamId _ _ _ _) ?_ (pushEvent_ne_closed (by simp))
    intro hclosed
    have hended := (h.closed stream hclosed).2.1
    have hlive : (run.conn.object stream).state.live = true := by
      have := hwants.1
      simp only [Stream.wantsTx, Bool.and_eq_true] at this
      exact this.1
    rw [hended] at hlive
    cases hlive
  · exact h

theorem Tracked.write (stream window : Nat) (data : Bytes) (fin : Bool) (alloc : Option Nat)
    (pushed : Bool) :
    Tracked (run.step (.write stream window data fin alloc pushed)) := by
  simp only [step]
  split
  · obtain ⟨hid, hstate⟩ := write_kept window data fin alloc pushed (run.conn.object stream)
    exact h.touch hid (fun _ => congrArg StreamState.live hstate) (pushEvent_ne_closed (by simp))
  · exact h

theorem Tracked.reset (stream : Nat) (shut : Except QuicErr Unit) (pushed : Bool) :
    Tracked (run.step (.reset stream shut pushed)) := by
  simp only [step]
  split
  · refine h.touch (resetStream_streamId _ _ _) ?_ (pushEvent_ne_closed (by simp))
    intro hclosed
    rw [resetStream_of_ended (h.closed stream hclosed).2.1]
  · exact h

theorem Tracked.nextEvent : Tracked (run.step .nextEvent) := by
  simp only [step]
  split
  · exact h
  · rename_i event events hevents
    refine ⟨h.bound, h.ordered, h.length, h.ids, h.ngUsed, h.ngStreams, ?_⟩
    intro stream hclosed
    refine h.closed stream ?_
    rcases hclosed with hdrained | hqueued
    · dsimp only at hdrained
      split at hdrained
      · rename_i htype
        rcases List.mem_cons.mp hdrained with rfl | hdrained
        · right
          rw [hevents, ← htype]
          exact List.mem_cons_self
        · exact .inl hdrained
      · exact .inl hdrained
    · right
      rw [hevents]
      exact List.mem_cons_of_mem _ hqueued

/-- Every step keeps the invariant. -/
theorem Tracked.step (action : ConnAction) : Tracked (run.step action) := by
  cases action with
  | enter state => exact h.enter state
  | openBidiStream allocated opened => exact h.openBidiStream allocated opened
  | acceptStream => exact h.acceptStream
  | streamOpen streamId answers => exact h.streamOpen streamId answers
  | recvStreamData streamId offset data fin stored answers =>
    exact h.recvStreamData streamId offset data fin stored answers
  | streamClose streamId appError answers => exact h.streamClose streamId appError answers
  | streamReset streamId answers => exact h.streamReset streamId answers
  | acked streamId offset dataLen alloc pushed => exact h.acked streamId offset dataLen alloc pushed
  | datagram stream dataLen pushed => exact h.datagram stream dataLen pushed
  | write stream window data fin alloc pushed =>
    exact h.write stream window data fin alloc pushed
  | reset stream shut pushed => exact h.reset stream shut pushed
  | nextEvent => exact h.nextEvent
  | release stream =>
    rw [step_release]
    exact h.hold _

omit h in
theorem tracked_new : Tracked {} where
  bound := by simp
  ordered := .nil
  length := rfl
  ids := by simp
  ngUsed := by simp
  ngStreams := by simp
  closed := by simp [Closed]

/-! ## Letting go -/

/-- A step other than letting go takes no reference away: what was queued is still queued or now
    held, and a stream whose `CLOSED` event is taken is held. -/
structure Refers (run run' : ConnRun) : Prop where
  drained : ∀ stream ∈ run'.drained, stream ∈ run.drained ∨ stream ∈ run'.held
  held : ∀ stream ∈ run.held, stream ∈ run'.held
  events : ∀ event ∈ run.events, event ∈ run'.events ∨ event.stream ∈ run'.held

omit h

theorem refers_same {run' : ConnRun} (hdrained : run'.drained = run.drained)
    (hheld : run.held ⊆ run'.held) (hevents : run.events ⊆ run'.events) : Refers run run' where
  drained _ hmem := .inl (hdrained ▸ hmem)
  held _ hmem := hheld hmem
  events _ hmem := .inl (hevents hmem)

theorem refers_callback (streamId : Int) (gone : Bool) (result : CallbackResult) :
    Refers run (run.callback streamId gone result) :=
  refers_same rfl (List.Subset.refl _) (List.subset_append_left _ _)

theorem refers_touch (stream : Nat) (f : Stream → Stream) (events : List StreamEvent) :
    Refers run (run.touch stream f events) :=
  refers_same rfl (List.Subset.refl _) (List.subset_append_left _ _)

theorem refers_nextEvent : Refers run (run.step .nextEvent) := by
  simp only [ConnRun.step]
  split
  · exact refers_same rfl (List.Subset.refl _) (List.Subset.refl _)
  · rename_i event events hevents
    refine ⟨?_, fun _ hmem => List.mem_cons_of_mem _ hmem, ?_⟩
    · intro stream hmem
      dsimp only at hmem
      split at hmem
      · rcases List.mem_cons.mp hmem with rfl | hmem
        · exact .inr List.mem_cons_self
        · exact .inl hmem
      · exact .inl hmem
    · intro other hmem
      rw [hevents] at hmem
      rcases List.mem_cons.mp hmem with rfl | hmem
      · exact .inr List.mem_cons_self
      · exact .inl hmem

theorem refers_step (run : ConnRun) {action : ConnAction}
    (haction : ∀ stream, action ≠ .release stream) : Refers run (run.step action) := by
  have hsame : Refers run run := refers_same rfl (List.Subset.refl _) (List.Subset.refl _)
  cases action with
  | enter state => exact refers_same rfl (List.Subset.refl _) (List.Subset.refl _)
  | openBidiStream allocated opened =>
    simp only [ConnRun.step]
    split
    · exact hsame
    · split
      · exact refers_same rfl (List.subset_cons_self _ _) (List.Subset.refl _)
      · exact refers_same rfl (List.Subset.refl _) (List.Subset.refl _)
  | acceptStream =>
    simp only [ConnRun.step]
    split
    · exact refers_same rfl (List.subset_cons_self _ _) (List.Subset.refl _)
    · exact refers_same rfl (List.Subset.refl _) (List.Subset.refl _)
  | nextEvent => exact refers_nextEvent
  | release stream => exact absurd rfl (haction stream)
  | _ =>
    simp only [ConnRun.step]
    split
    all_goals
      first
        | exact refers_callback _ _ _
        | exact refers_touch _ _ _
        | exact hsame

include h

/-- Unless the application lets go of a drained stream, no stream becomes retired. -/
theorem Tracked.keeps {action : ConnAction} (hkeeps : run.Keeps action)
    (hnone : ∀ stream, ¬ run.Retired stream) (stream : Nat) :
    ¬ (run.step action).Retired stream := by
  rw [(h.step action).retired_iff]
  rintro ⟨hdrained, hevents, hheld⟩
  by_cases hrelease : ∃ released, action = .release released
  · obtain ⟨released, rfl⟩ := hrelease
    have hwas : stream ∈ run.drained := hdrained
    have hqueue : ∀ event ∈ run.events, event.stream ≠ stream := hevents
    refine hnone stream ((h.retired_iff stream).mpr ⟨hwas, hqueue, ?_⟩)
    intro hmem
    by_cases hne : stream = released
    · subst hne
      exact hkeeps ⟨hwas, hqueue⟩
    · exact hheld (List.mem_filter.mpr ⟨hmem, by simpa using hne⟩)
  · have hrefers := refers_step run (not_exists.mp hrelease)
    refine hnone stream ((h.retired_iff stream).mpr ⟨?_, ?_, fun hmem => hheld (hrefers.held _ hmem)⟩)
    · exact (hrefers.drained stream hdrained).resolve_right hheld
    · rintro event hmem rfl
      rcases hrefers.events event hmem with hqueued | hnow
      · exact hevents event hqueued rfl
      · exact hheld hnow

/-- Letting go of a drained stream retires it, and it stays in the vector. -/
theorem Tracked.not_reclaims {action : ConnAction} (hkeeps : ¬ run.Keeps action) :
    ¬ Reclaims (run.step action) := by
  intro hreclaims
  cases action with
  | release stream =>
    obtain ⟨hdrained, hevents⟩ := not_not.mp hkeeps
    have hmem := (h.closed stream (.inl hdrained)).1
    refine hreclaims.retired stream hmem (((h.hold _).retired_iff stream).mpr ⟨hdrained, hevents, ?_⟩)
    intro hheld
    simpa using (List.mem_filter.mp hheld).2
  | _ => exact hkeeps trivial

/-- Where no stream is retired, the vector has no other streams than the open and referenced ones. -/
theorem Tracked.reclaims (hnone : ∀ stream, ¬ run.Retired stream) :
    Reclaims run where
  retired stream _ := hnone stream
  bounded := by
    have hnodup : run.conn.streams.Nodup := h.ordered.imp fun hlt => Nat.ne_of_lt hlt
    refine (List.subperm_of_subset hnodup ?_).length_le
    intro stream hmem
    exact List.mem_filter.mpr
      ⟨List.mem_range.mpr (h.bound stream hmem), decide_eq_true (hnone stream)⟩

omit h

/-- In every run the vector has all the streams that were ever opened; closed streams do not
    accumulate just as long as the application never lets go of one whose `CLOSED` event it took. -/
theorem connRun_reclaims (actions : List ConnAction) :
    ((∀ before, before <+: actions → Reclaims (runFrom step {} before)) ↔
        RunMeets step Keeps {} actions) ∧
      (runFrom step {} actions).conn.streams.length = (runFrom step {} actions).opened := by
  have htracked (actions : List ConnAction) : Tracked (runFrom step {} actions) :=
    runFrom_keeps tracked_new fun _ action h => h.step action
  refine ⟨⟨?_, ?_⟩, (htracked actions).length⟩
  · intro hall
    refine runMeets_iff_prefix.mpr fun before action hpre => ?_
    by_contra hkeeps
    refine (htracked before).not_reclaims hkeeps ?_
    have hreclaims := hall (before ++ [action]) hpre
    rwa [runFrom_append] at hreclaims
  · rintro hmeets before ⟨rest, rfl⟩
    have hbefore := (runMeets_append.mp hmeets).1
    have hstart : Tracked {} ∧ ∀ stream, ¬ Retired {} stream :=
      ⟨tracked_new, fun _ h => absurd h.2.1 (List.not_mem_nil)⟩
    obtain ⟨h, hnone⟩ := run_keeps (I := fun run => Tracked run ∧ ∀ stream, ¬ run.Retired stream)
      hbefore hstart fun _ action hkeeps h => ⟨h.1.step action, h.1.keeps hkeeps h.2⟩
    exact h.reclaims hnone

/-- The peer opens a stream and ngtcp2 closes it; the application takes both events and lets go. The
    stream object stays. -/
theorem connRun_not_reclaims : ¬ ∀ actions, Reclaims (runFrom step {} actions) := by
  intro hall
  have hreclaims := hall [.streamOpen 0 {}, .nextEvent, .streamClose 0 false {}, .nextEvent, .release 0]
  exact hreclaims.retired 0 (by decide +kernel) (by decide +kernel)

end ConnRun

end LeanLibp2p.Quic
