import LeanLibp2p.Gossipsub.Router.CacheInvariant

/-!
# The event queue

Events leave the queue in the order in which they entered it, and only an event for which there is
no room is dropped. What an event showed when it entered the queue is entered into the history:
the bytes of the message or of the control element that it is about.
-/

namespace LeanLibp2p.Gossipsub

open LeanLibp2p.Lib

@[simp] theorem arrayPrefix_length (bytes : Bytes) : arrayPrefix bytes.length bytes = bytes := by
  unfold arrayPrefix
  exact List.take_left' rfl

/-- The history of the events that are still in the queue. -/
def Router.queuedEvents (r : Router) : List PushedEvent :=
  r.history.pushed.drop (r.history.pushed.length - r.events.len)

/-- The ring holds the last events that were pushed. -/
structure EventQueue (config : Config) (r : Router) : Prop where
  head_lt : r.events.head < config.capacity.eventCapacity
  len_le : r.events.len ≤ config.capacity.eventCapacity
  len_le_pushed : r.events.len ≤ r.history.pushed.length
  toList_eq : r.events.toList config.capacity.eventCapacity =
    r.queuedEvents.map PushedEvent.event

/-- The state after an event was pushed. -/
def Router.afterPush (r : Router) (events : RingBuffer Event) (event : Event) : Router :=
  { r with
    events := events
    history := { r.history with pushed := r.history.pushed ++ [⟨event, event.view r true⟩] } }

/-- An event is dropped with its token when the queue is full, and queued otherwise. -/
theorem pushEventOrDrop_cases (config : Config) (event : Event) (r : Router) :
    (r.events.len = config.capacity.eventCapacity ∧
      pushEventOrDrop config event r = (.ok (), r.releaseValidation event.validation)) ∨
    ∃ events, r.events.push config.capacity.eventCapacity event = some events ∧
      pushEventOrDrop config event r = (.ok (), r.afterPush events event) := by
  unfold pushEventOrDrop eventPush
  cases hpush : r.events.push config.capacity.eventCapacity event with
  | none => exact .inl ⟨RingBuffer.push_none_iff.mp hpush, rfl⟩
  | some events => exact .inr ⟨events, rfl, rfl⟩

@[simp] theorem releaseValidation_events (r : Router) (v : Option Nat) :
    (r.releaseValidation v).events = r.events := by
  cases v <;> rfl

@[simp] theorem releaseValidation_history (r : Router) (v : Option Nat) :
    (r.releaseValidation v).history = r.history := by
  cases v <;> rfl

namespace EventQueue

variable {config : Config} {r r' : Router}

theorem congr (h : EventQueue config r) (hevents : r'.events = r.events)
    (hpushed : r'.history.pushed = r.history.pushed) : EventQueue config r' := by
  refine ⟨?_, ?_, ?_, ?_⟩
  · rw [hevents]; exact h.head_lt
  · rw [hevents]; exact h.len_le
  · rw [hevents, hpushed]; exact h.len_le_pushed
  · unfold Router.queuedEvents
    rw [hevents, hpushed]
    exact h.toList_eq

theorem queued_afterPush (h : EventQueue config r) {event : Event} {events : RingBuffer Event}
    (hpush : r.events.push config.capacity.eventCapacity event = some events) :
    (r.afterPush events event).queuedEvents = r.queuedEvents ++ [⟨event, event.view r true⟩] := by
  have hlen := RingBuffer.len_of_push hpush
  have hle := h.len_le_pushed
  unfold Router.queuedEvents Router.afterPush
  dsimp only
  rw [List.length_append, List.length_singleton, hlen, Nat.add_sub_add_right,
    List.drop_append_of_le_length (by omega)]

theorem push (h : EventQueue config r) (event : Event) {events : RingBuffer Event}
    (hpush : r.events.push config.capacity.eventCapacity event = some events) :
    EventQueue config (r.afterPush events event) := by
  have hqueued := h.queued_afterPush hpush
  have hlist := RingBuffer.push_toList h.len_le hpush
  have hle := RingBuffer.push_len h.len_le hpush
  unfold RingBuffer.push at hpush
  split at hpush
  · cases hpush
  · cases hpush
    refine ⟨h.head_lt, hle, ?_, ?_⟩
    · have := h.len_le_pushed
      change r.events.len + 1 ≤ (r.history.pushed ++ _).length
      rw [List.length_append, List.length_singleton]
      omega
    · rw [hqueued, List.map_append, ← h.toList_eq]
      exact hlist

/-- `libp2p_gossipsub_next_event` takes the oldest event. -/
theorem nextEvent_cases (h : EventQueue config r) :
    (r.queuedEvents = [] ∧ nextEvent config r = (.error .wouldBlock, r)) ∨
    ∃ pushed events, r.queuedEvents = pushed :: { r with events := events }.queuedEvents ∧
      nextEvent config r = (.ok pushed.event, { r with events := events }) ∧
      EventQueue config { r with events := events } := by
  unfold nextEvent
  cases hpop : r.events.pop config.capacity.eventCapacity with
  | none =>
    left
    refine ⟨?_, rfl⟩
    unfold RingBuffer.pop at hpop
    split at hpop
    · rename_i hempty
      unfold Router.queuedEvents
      rw [hempty, Nat.sub_zero, List.drop_length]
    · cases hpop
  | some popped =>
    rcases popped with ⟨event, events⟩
    right
    rcases RingBuffer.pop_head h.head_lt hpop with ⟨hhead, hlen⟩
    have hlist := RingBuffer.pop_toList h.head_lt hpop
    have hle := h.len_le_pushed
    have hlt : r.history.pushed.length - r.events.len < r.history.pushed.length := by omega
    have hqueued : r.queuedEvents = r.history.pushed[r.history.pushed.length - r.events.len] ::
        { r with events := events }.queuedEvents := by
      unfold Router.queuedEvents
      dsimp only
      rw [List.drop_eq_getElem_cons hlt]
      congr 2
      omega
    have heq := h.toList_eq
    rw [hqueued, hlist, List.map_cons] at heq
    injection heq with hevent hrest
    refine ⟨_, events, hqueued, by rw [hevent], hhead, ?_, ?_, hrest⟩
    · have := h.len_le
      change events.len ≤ _
      omega
    · change events.len ≤ r.history.pushed.length
      omega

theorem init (config : RouterConfig) : EventQueue config.toConfig .init :=
  ⟨config.capacity_pos.2.2, Nat.zero_le _, Nat.le_refl 0, rfl⟩

end EventQueue

/-! ## What enters the queue -/

/-- From `r` to `r'` no event was taken, and the events that were pushed satisfy `P`. -/
def Router.PushedAll (P : PushedEvent → Prop) (r r' : Router) : Prop :=
  ∃ news, r'.history.pushed = r.history.pushed ++ news ∧
    r'.events.len = r.events.len + news.length ∧ ∀ e ∈ news, P e

namespace Router.PushedAll

variable {P Q : PushedEvent → Prop} {r r' r'' : Router}

theorem of_same (hevents : r'.events = r.events) (hpushed : r'.history.pushed = r.history.pushed) :
    Router.PushedAll P r r' :=
  ⟨[], by rw [hpushed, List.append_nil], by rw [hevents]; rfl, fun _ hmem => nomatch hmem⟩

theorem refl (r : Router) : Router.PushedAll P r r := of_same rfl rfl

theorem trans (h : Router.PushedAll P r r') (h' : Router.PushedAll P r' r'') :
    Router.PushedAll P r r'' := by
  rcases h with ⟨news, hnews, hlen, hP⟩
  rcases h' with ⟨news', hnews', hlen', hP'⟩
  refine ⟨news ++ news', by rw [hnews', hnews, List.append_assoc], ?_, fun e hmem => ?_⟩
  · rw [List.length_append, hlen', hlen, Nat.add_assoc]
  · rcases List.mem_append.mp hmem with hold | hnew
    · exact hP e hold
    · exact hP' e hnew

theorem mono (h : Router.PushedAll P r r') (himp : ∀ e, P e → Q e) : Router.PushedAll Q r r' := by
  rcases h with ⟨news, hnews, hlen, hP⟩
  exact ⟨news, hnews, hlen, fun e hmem => himp e (hP e hmem)⟩

theorem of_agrees {touched : List Part} (h : Router.PushedAll P r r')
    (hagrees : Router.Agrees touched r' r'')
    (huntouched : Part.untouched [.events] touched = true) : Router.PushedAll P r r'' := by
  have heq := hagrees.eq .events (Part.not_mem_of_untouched huntouched (by simp))
  exact h.trans (of_same (congrArg Prod.fst heq) (congrArg Prod.snd heq))

/-- A computation that does not touch the queue. -/
theorem of_touches {α : Type} {touched : List Part} {c : RouterM α} (hc : Touches touched c)
    (huntouched : Part.untouched [.events] touched = true) :
    Comp.Keeps (Router.PushedAll P r) c :=
  hc.keeps fun _ _ hagrees h => h.of_agrees hagrees huntouched

/-- The event, if it is pushed, is the only one. -/
theorem push (h : Router.PushedAll P r r') {config : Config} {event : Event}
    (hevent : P ⟨event, event.view r' true⟩) :
    Router.PushedAll P r (pushEventOrDrop config event r').2 := by
  apply h.trans
  rcases pushEventOrDrop_cases config event r' with ⟨-, hdrop⟩ | ⟨events, hpush, hrun⟩
  · rw [hdrop]
    exact of_same (releaseValidation_events ..) (by rw [releaseValidation_history])
  · rw [hrun]
    exact ⟨_, rfl, RingBuffer.len_of_push hpush, fun e hmem => List.mem_singleton.mp hmem ▸ hevent⟩

end Router.PushedAll

end LeanLibp2p.Gossipsub
