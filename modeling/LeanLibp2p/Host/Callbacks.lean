import LeanLibp2p.Host.Reports

/-!
# Callbacks

What a protocol is told about the slot of a stream: `on_open` once and first, `on_event` only after it
succeeded, nothing after a callback that failed, and nothing about a slot that is free.
-/

namespace LeanLibp2p.Host

open LeanLibp2p.Lib

variable {τ : Type} {config : HostConfig τ} {host host' : LeanLibp2p.Host} {notes : List Note}
variable {s t : Nat}

/-- A stream slot as its protocol knows it. -/
inductive Service where
  | free
  | negotiating
  | opened
  /-- A callback failed. -/
  | refused
  deriving DecidableEq, Repr

/-- What is seen of a stream slot. -/
inductive ServiceNote where
  | allocated
  | released
  | called (callback : Callback) (res : Except HostErr Unit)

/-- The order in which a slot comes into use, is told to a protocol and is released. -/
def Service.next : Service → ServiceNote → Option Service
  | .free, .allocated => some .negotiating
  | .negotiating, .called .onOpen (.ok _) => some .opened
  | .negotiating, .called .onOpen (.error _) => some .refused
  | .opened, .called (.onEvent _) (.ok _) => some .opened
  | .opened, .called (.onEvent _) (.error _) => some .refused
  | .negotiating, .released | .opened, .released | .refused, .released => some .free
  | _, _ => none

/-- What a note says of a stream slot. -/
def serviceKind (s : Nat) : Note → Option ServiceNote
  | .streamAllocated _ s' => if s' = s then some .allocated else none
  | .streamReleased s' => if s' = s then some .released else none
  | .called s' callback res => if s' = s then some (.called callback res) else none
  | _ => none

/-- What the state of a stream says of its slot. -/
def StreamState.service : StreamState → Service
  | .free => .free
  | .negotiating => .negotiating
  | .opened | .closing | .closed => .opened

/-! ## Steps -/

theorem forgetOpen_streamState (stream : Option Nat) (o s : Nat) :
    ((forgetOpen stream o host).streams s).state = (host.streams s).state := by
  cases stream with
  | none => rfl
  | some t =>
    unfold forgetOpen
    dsimp only
    split
    · by_cases ht : s = t
      · rw [ht, updateStream, setStream_self]
      · exact congrArg Stream.state (Function.update_of_ne ht ..)
    · rfl

theorem hostOpenRelease_streams (o : Nat) : (hostOpenRelease o host).streams = host.streams := by
  unfold hostOpenRelease
  split
  · rfl
  · rfl

theorem releaseEvent_streamState (event : HostEvent) (s : Nat) :
    ((releaseEvent event host).streams s).state = (host.streams s).state := by
  have hdial : (releaseDial event.dial? host).streams = host.streams :=
    (releaseDial_spec event.dial?).2.1
  unfold releaseEvent
  dsimp only
  cases event.streamOpen? with
  | none => rw [hdial]
  | some o =>
    dsimp only
    rw [hostOpenRelease_streams, forgetOpen_streamState, hdial]

theorem hostStreamDrop_of_ne (h : s ≠ t) : (hostStreamDrop t host).streams s = host.streams s := by
  unfold hostStreamDrop
  dsimp only
  refine (Function.update_of_ne h ..).trans ?_
  split
  · split
    · rfl
    · exact congrFun (hostOpenRelease_streams _) s
  · rfl

/-- The slot of the protocol after the steps, when the notes are about another one. -/
theorem reads_elsewhere {s : Nat} (hnotes : ∀ n ∈ notes, serviceKind s n = none)
    (hstate : (host'.streams s).state = (host.streams s).state) :
    Reads (serviceKind s) Service.next (host.streams s).state.service notes
      (host'.streams s).state.service := by
  rw [hstate]
  exact .quiet hnotes

/-- A slot is released behind what its protocol was told. -/
theorem reads_released {after : List Note} (hcalls : t = s → ∃ service ≠ Service.free,
      Reads (serviceKind s) Service.next (host.streams s).state.service notes service)
    (hquiet : t ≠ s → ∀ n ∈ notes, serviceKind s n = none)
    (hafter : ∀ n ∈ after, serviceKind s n = none) (hfree : (host'.streams t).state = .free)
    (hsame : s ≠ t → (host'.streams s).state = (host.streams s).state) :
    Reads (serviceKind s) Service.next (host.streams s).state.service
      (notes ++ .streamReleased t :: after) (host'.streams s).state.service := by
  by_cases h : t = s
  · subst h
    obtain ⟨service, hused, hreads⟩ := hcalls rfl
    have hnext : Service.next service .released = some .free := by
      cases service <;> first | exact absurd rfl hused | rfl
    have hreleased : Reads (serviceKind t) Service.next service [.streamReleased t] .free :=
      .single (if_pos rfl) hnext
    rw [hfree]
    exact hreads.append (hreleased.append (.quiet hafter))
  · refine reads_elsewhere (fun n hn => ?_) (hsame (Ne.symm h))
    rcases List.mem_append.mp hn with hn | hn
    · exact hquiet h n hn
    · rcases List.mem_cons.mp hn with rfl | hn
      · exact if_neg h
      · exact hafter n hn

/-- A stream is set, and its state stays or the slot is another one. -/
theorem update_state {stream : Stream} (h : s = t → stream.state = (host.streams t).state) :
    (Function.update host.streams t stream s).state = (host.streams s).state := by
  by_cases ht : s = t
  · rw [ht, Function.update_self, h ht]
  · rw [Function.update_of_ne ht]

/-- A free slot is taken for a stream to negotiate. -/
theorem reads_allocated (k : LeanLibp2p.Host) {stream : Stream}
    (hfree : (host.streams t).state = .free) (hstate : stream.state = .negotiating) :
    Reads (serviceKind s) Service.next (host.streams s).state.service [.streamAllocated k t]
      (Function.update host.streams t stream s).state.service := by
  refine .of_slot (t = s) rfl ?_ fun hne => by rw [Function.update_of_ne (Ne.symm hne)]
  rintro rfl
  rw [hfree, Function.update_self, hstate]
  rfl

/-- The negotiation of a stream completes, and its protocol takes the stream. -/
theorem reads_completed {stream : Stream}
    (hnegotiating : (host.streams t).state = .negotiating) (hstate : stream.state = .opened) :
    Reads (serviceKind s) Service.next (host.streams s).state.service [.called t .onOpen (.ok ())]
      (Function.update host.streams t stream s).state.service := by
  refine .of_slot (t = s) rfl ?_ fun hne => by rw [Function.update_of_ne (Ne.symm hne)]
  rintro rfl
  rw [hnegotiating, Function.update_self, hstate]
  rfl

/-- A negotiation fails, at the latest because the protocol refuses the stream. -/
theorem reads_refused {calls : List Note} (hnegotiating : (host.streams t).state = .negotiating)
    (hcalls : calls = [] ∨ ∃ e, calls = [.called t .onOpen (.error e)]) (heq : t = s) :
    ∃ service ≠ Service.free, Reads (serviceKind s) Service.next (host.streams s).state.service
      calls service := by
  subst heq
  rw [hnegotiating]
  rcases hcalls with rfl | ⟨e, rfl⟩
  · exact ⟨.negotiating, by rintro ⟨⟩, .quiet (by rintro n ⟨⟩)⟩
  · exact ⟨.refused, by rintro ⟨⟩, .single (if_pos rfl) rfl⟩

/-- A step tells a protocol about a slot what may come next. -/
theorem HostStep.reads_service (hstep : HostStep config host notes host') (s : Nat) :
    Reads (serviceKind s) Service.next (host.streams s).state.service notes
      (host'.streams s).state.service := by
  have hpushed : ∀ k event service, Reads (serviceKind s) Service.next service [.pushed k event]
      service := fun _ _ _ => .quiet (by simp [serviceKind])
  cases hstep with
  | streamData _ hrole => exact reads_elsewhere (by rintro n ⟨⟩) (update_state fun _ => hrole.state)
  | readable => exact reads_elsewhere (by simp [serviceKind]) (update_state fun _ => rfl)
  | establishes hslot hdial =>
    cases hslot <;> cases hdial <;> exact reads_elsewhere (by simp [serviceKind]) rfl
  | accepts _ _ _ hfree =>
    have htook : ∀ event service, Reads (serviceKind s) Service.next service [.took host event]
        service := fun _ _ => .quiet (by simp [serviceKind])
    exact (htook _ _).append (reads_allocated host (freeStream_state hfree) rfl)
  | @calls t kind stream _ hopen hrole _ hnotes =>
    split at hnotes
    · subst hnotes
      refine .of_slot (t = s) rfl ?_ fun hne => congrArg _ (update_state fun heq => absurd heq.symm hne)
      rintro rfl
      rw [hopen, show (setStream t stream host).streams t = stream from setStream_self ..,
        hrole.state, hopen]
      rfl
    · subst hnotes
      exact reads_elsewhere (by rintro n ⟨⟩) (update_state fun _ => hrole.state)
  | @ends t calls hopen hnotes =>
    refine reads_released (fun heq => ?_) (fun hne => ?_) (by rintro n ⟨⟩) (hostStreamDrop_free t host)
      fun hne => by rw [hostStreamDrop_of_ne hne]
    · subst heq
      rw [hopen]
      rcases hnotes with rfl | ⟨-, kind, res, rfl⟩
      · exact ⟨.opened, by rintro ⟨⟩, .quiet (by rintro n ⟨⟩)⟩
      · cases res with
        | ok => exact ⟨.opened, by rintro ⟨⟩, .single (if_pos rfl) rfl⟩
        | error => exact ⟨.refused, by rintro ⟨⟩, .single (if_pos rfl) rfl⟩
    · rcases hnotes with rfl | ⟨-, kind, res, rfl⟩
      · rintro n ⟨⟩
      · simp [serviceKind, hne]
  | starts _ hhost' _ hfree =>
    subst hhost'
    exact reads_allocated _ (freeStream_state hfree) rfl
  | @opensAtOnce _ _ k o _ _ userData _ _ _ _ _ _ hhost' hhost'' _ hfree =>
    subst hhost'' hhost'
    have hopened : ∀ service, Reads (serviceKind s) Service.next service [.opened o userData] service :=
      fun _ => .quiet (by simp [serviceKind])
    exact (reads_allocated k (freeStream_state hfree) rfl).append (hopened _)
  | completesInbound hnegotiating _ hrole => exact reads_completed hnegotiating hrole.state
  | @completesOutbound k t _ stream hnegotiating _ _ hrole =>
    exact (@reads_completed host s t stream hnegotiating hrole.state).append (hpushed k _ _)
  | @failsInbound t calls hnegotiating _ hnotes =>
    refine reads_released (reads_refused hnegotiating hnotes) (fun hne => ?_) (by rintro n ⟨⟩)
      (hostStreamDrop_free t host) fun hne => by rw [hostStreamDrop_of_ne hne]
    rcases hnotes with rfl | ⟨e, rfl⟩
    · rintro n ⟨⟩
    · simp [serviceKind, hne]
  | @failsOutbound k t o calls reason app transport hnegotiating _ _ hnotes =>
    rw [List.append_cons]
    refine reads_released (fun heq => ?_) (fun hne n hn => ?_) (by rintro n ⟨⟩)
      (hostStreamDrop_free ..) fun hne => congrArg Stream.state (hostStreamDrop_of_ne hne)
    · obtain ⟨service, hused, hreads⟩ := reads_refused hnegotiating hnotes heq
      exact ⟨service, hused, hreads.append (hpushed k _ service)⟩
    · rcases List.mem_append.mp hn with hn | hn
      · rcases hnotes with rfl | ⟨e, rfl⟩
        · cases hn
        · rw [List.mem_singleton.mp hn]
          exact if_neg hne
      · rw [List.mem_singleton.mp hn]
        rfl
  | @cancelsStream o t _ hused =>
    have hrelease : (hostOpenRelease o (hostStreamDrop t (updateStream t (fun stream =>
        { stream with openAttempt := none }) host))).streams =
          (hostStreamDrop t (updateStream t (fun stream =>
            { stream with openAttempt := none }) host)).streams := hostOpenRelease_streams o
    refine @reads_released host _ [] s t [.cancelled o] (fun heq => ?_) (fun _ => by rintro n ⟨⟩)
      (by simp [serviceKind]) ?_ fun hne => ?_
    · refine ⟨_, ?_, .quiet (by rintro n ⟨⟩)⟩
      subst heq
      cases hstate : (host.streams t).state <;> first | exact absurd hstate hused | rintro ⟨⟩
    · rw [hrelease]
      exact hostStreamDrop_free ..
    · rw [hrelease, hostStreamDrop_of_ne hne]
      exact congrArg Stream.state (Function.update_of_ne hne ..)
  | @pops event events hevents =>
    refine reads_elsewhere (by simp [serviceKind]) ?_
    cases event.closedConn? with
    | none => exact releaseEvent_streamState event s
    | some i => exact releaseEvent_streamState event s
  | cancelsWaiting => exact reads_elsewhere (by simp [serviceKind]) (by rw [hostOpenRelease_streams])
  | openFails _ hhost' => subst hhost'; exact reads_elsewhere (by simp [serviceKind]) rfl
  | _ => exact reads_elsewhere (by simp [serviceKind]) rfl

/-! ## Runs -/

/-- In every run the protocol of a stream is told in order: `on_open` at most once for each stream and
    before any `on_event`, no `on_event` unless `on_open` succeeded, and nothing more once a callback
    failed, until the slot was released and taken again. -/
theorem callbacks_ordered (config : HostConfig τ) (env : τ) (calls : List (HostCall τ)) (s : Nat) :
    Reads (serviceKind s) Service.next .free (hostRun config env calls).trace
      ((hostRun config env calls).host.streams s).state.service :=
  hostRun_reads (fun host => (host.streams s).state.service) (fun _ => True)
    (fun _ _ _ _ hstep _ => hstep.reads_service s) env calls fun _ _ => trivial

end LeanLibp2p.Host
