import LeanLibp2p.Gossipsub.Router.EventQueue
import LeanLibp2p.Gossipsub.Router.Streams

/-!
# What events show

A queued event points into the topics and into the message cache. What it points to stays as it
is until the cache stores a message in the same slot or starts again from an empty buffer; an event
that points at the temporaries of the call that pushed it shows nothing once that call has returned.
-/

namespace LeanLibp2p.Gossipsub

open LeanLibp2p.Lib

/-! ## Spans that last -/

/-- What the span points to outlives the call that pushes it. -/
def EventSpan.Lasting (r : Router) : EventSpan → Prop
  | .topic t _ => (r.topics t).used = true
  | .entryData offset len => offset + len ≤ r.mcache.dataUsed
  | .borrowed _ => False
  | _ => True

/-- The cache slot that the span points to. -/
def EventSpan.slot : EventSpan → Option Nat
  | .entryTopic slot _ | .entryId slot _ => some slot
  | _ => none

/-- The span points into the message cache. -/
def EventSpan.cached : EventSpan → Bool
  | .entryTopic _ _ | .entryId _ _ | .entryData _ _ => true
  | _ => false

/-- The spans of an event, less those of an IDONTWANT. -/
def Event.spans (event : Event) : List EventSpan :=
  [event.topic, event.messageTopic, event.messageData, event.messageId]

/-- All that the event shows outlives the call that pushes it. -/
structure Event.Lasting (r : Router) (event : Event) : Prop where
  spans : ∀ span ∈ event.spans, span.Lasting r
  idontwant : event.idontwant = none

/-- From `r` to `r'` the span keeps what it shows. -/
def EventSpan.Kept (r r' : Router) (span : EventSpan) : Prop :=
  span.Lasting r → span.Lasting r' ∧ span.view r' false = span.view r false

theorem EventSpan.Lasting.view_eq {r : Router} {span : EventSpan} (h : span.Lasting r) :
    span.view r false = span.view r true := by
  cases span with
  | borrowed span => exact h.elim
  | _ => rfl

theorem EventSpan.kept_of_same {r r' : Router} (htopics : r'.topics = r.topics)
    (hmcache : r'.mcache = r.mcache) (span : EventSpan) : span.Kept r r' := by
  intro h
  cases span <;> simp_all [EventSpan.Lasting, EventSpan.view]

/-- The event shows what it showed when it was pushed, and goes on to do so. -/
structure PushedEvent.Intact (r : Router) (e : PushedEvent) : Prop where
  lasting : e.event.Lasting r
  shown : e.event.view r false = e.shown

theorem Event.Lasting.intact {r : Router} {event : Event} (h : event.Lasting r) :
    PushedEvent.Intact r ⟨event, event.view r true⟩ := by
  refine ⟨h, ?_⟩
  have hspan : ∀ span ∈ event.spans, span.view r false = span.view r true :=
    fun span hmem => (h.spans span hmem).view_eq
  unfold Event.spans at hspan
  unfold Event.view
  rw [hspan event.topic (by simp), hspan event.messageTopic (by simp),
    hspan event.messageData (by simp), hspan event.messageId (by simp), h.idontwant]

theorem PushedEvent.Intact.kept {r r' : Router} {e : PushedEvent} (h : e.Intact r)
    (hkept : ∀ span ∈ e.event.spans, span.Kept r r') : e.Intact r' := by
  have hspan : ∀ span ∈ e.event.spans, span.view r' false = span.view r false :=
    fun span hmem => (hkept span hmem (h.lasting.spans span hmem)).2
  refine ⟨⟨fun span hmem => (hkept span hmem (h.lasting.spans span hmem)).1,
    h.lasting.idontwant⟩, ?_⟩
  rw [← h.shown]
  unfold Event.spans at hspan
  unfold Event.view
  rw [hspan e.event.topic (by simp), hspan e.event.messageTopic (by simp),
    hspan e.event.messageData (by simp), hspan e.event.messageId (by simp), h.lasting.idontwant]

/-! ## The invariant -/

/-- The invariant of the event queue; `undisturbed` says that every step left what queued events
    point to alone. -/
structure EventInvariant (config : Config) (undisturbed : Prop) (r : Router) : Prop
    extends EventQueue config r where
  intact : undisturbed → ∀ e ∈ r.queuedEvents, e.Intact r

/-- Storing a message leaves alone what the queued events point to: none points to the slot that
    is next, and none into the cache when the cache has to start again. -/
def StoreUndisturbed (config : Config) (r : Router) (dataLen : Nat) : Prop :=
  (∀ event ∈ r.events.toList config.capacity.eventCapacity, ∀ span ∈ event.spans,
    span.slot ≠ some (r.mcache.next % config.capacity.mcacheSlots)) ∧
  (config.capacity.mcacheBytes - r.mcache.dataUsed < dataLen →
    ∀ event ∈ r.events.toList config.capacity.eventCapacity, ∀ span ∈ event.spans,
      span.cached = false)

instance (config : Config) (r : Router) (dataLen : Nat) :
    Decidable (StoreUndisturbed config r dataLen) := inferInstanceAs (Decidable (_ ∧ _))

theorem StoreUndisturbed.congr {config : Config} {r r' : Router} {dataLen : Nat}
    (h : StoreUndisturbed config r dataLen) (hevents : r'.events = r.events)
    (hmcache : r'.mcache = r.mcache) : StoreUndisturbed config r' dataLen := by
  unfold StoreUndisturbed
  rw [hevents, hmcache]
  exact h

namespace EventInvariant

variable {config : RouterConfig} {undisturbed : Prop} {r r' : Router} {t : Nat}

theorem init : EventInvariant config.toConfig undisturbed .init where
  toEventQueue := EventQueue.init config
  intact _ _ hmem := nomatch hmem

/-- A step that pushes and takes no event. -/
theorem of_kept (h : EventInvariant config.toConfig undisturbed r) (hevents : r'.events = r.events)
    (hpushed : r'.history.pushed = r.history.pushed)
    (hkept : undisturbed → ∀ e ∈ r.queuedEvents, ∀ span ∈ e.event.spans, span.Kept r r') :
    EventInvariant config.toConfig undisturbed r' := by
  refine ⟨h.toEventQueue.congr hevents hpushed, fun hun e hmem => ?_⟩
  unfold Router.queuedEvents at hmem
  rw [hevents, hpushed] at hmem
  exact (h.intact hun e hmem).kept (hkept hun e hmem)

theorem of_agrees {touched : List Part} (h : EventInvariant config.toConfig undisturbed r)
    (hagrees : Router.Agrees touched r r')
    (huntouched : Part.untouched [.events, .topics, .mcache] touched = true) :
    EventInvariant config.toConfig undisturbed r' := by
  have hnot : ∀ part ∈ [Part.events, .topics, .mcache], part ∉ touched :=
    fun part hpart => Part.not_mem_of_untouched huntouched hpart
  have hevents := hagrees.eq .events (hnot _ (by simp))
  apply h.of_kept (congrArg Prod.fst hevents) (congrArg Prod.snd hevents)
  intro _ _ _ span _
  exact span.kept_of_same (hagrees.eq .topics (hnot _ (by simp)))
    (hagrees.eq .mcache (hnot _ (by simp)))

theorem of_touches {α : Type} {touched : List Part} {c : RouterM α} (hc : Touches touched c)
    (huntouched : Part.untouched [.events, .topics, .mcache] touched = true) :
    Comp.Keeps (EventInvariant config.toConfig undisturbed) c :=
  hc.keeps fun _ _ hagrees h => h.of_agrees hagrees huntouched

theorem orFail {α : Type} (e : GossipsubErr) (o : Option α) :
    Comp.Keeps (EventInvariant config.toConfig undisturbed) (orFail e o) :=
  of_touches (orFail_touches [] e o) rfl

/-- Replacing a topic slot that is free, or whose name stays. -/
theorem setTopic (h : EventInvariant config.toConfig undisturbed r) {topic : Topic}
    (hname : (r.topics t).used = true → topic.used = true ∧ topic.topic = (r.topics t).topic) :
    EventInvariant config.toConfig undisturbed (r.setTopic t topic) := by
  refine h.of_kept ?_ ?_ ?_
  · rfl
  · rfl
  intro _ e _ span _ hlasting
  cases span with
  | topic u len =>
    by_cases hut : u = t
    · subst hut
      rcases hname hlasting with ⟨hused, hsame⟩
      simp [EventSpan.Lasting, EventSpan.view, Router.setTopic, hused, hsame]
    · have hother : (r.setTopic t topic).topics u = r.topics u := Function.update_of_ne hut ..
      constructor
      · change ((r.setTopic t topic).topics u).used = true
        rwa [hother]
      · change some (arrayPrefix len ((r.setTopic t topic).topics u).topic) = _
        rw [hother]
        rfl
  | _ => exact ⟨hlasting, rfl⟩

theorem findOrAddTopic (topic : Span) : Comp.Keeps (EventInvariant config.toConfig undisturbed)
    (findOrAddTopic config.toConfig topic) := by
  intro r h
  rcases findOrAddTopic_spec config.toConfig topic r with hsame | ⟨t, added, -, hfree, hadd, -⟩
  · rwa [hsame]
  · rw [hadd]
    apply h.setTopic
    intro hused
    rw [hfree] at hused
    cases hused

/-- Pushing an event that lasts. -/
theorem push (h : EventInvariant config.toConfig undisturbed r) {event : Event}
    (hlasting : undisturbed → r.events.len ≠ config.capacity.eventCapacity → event.Lasting r) :
    EventInvariant config.toConfig undisturbed
      (pushEventOrDrop config.toConfig event r).2 := by
  rcases pushEventOrDrop_cases config.toConfig event r with ⟨-, hdrop⟩ | ⟨events, hpush, hrun⟩
  · rw [hdrop]
    exact h.of_agrees (releaseValidation_agrees ..) rfl
  · rw [hrun]
    refine ⟨h.toEventQueue.push event hpush, fun hun e hmem => ?_⟩
    have hroom : r.events.len ≠ config.capacity.eventCapacity := by
      intro hfull
      rw [RingBuffer.push_none_iff.mpr hfull] at hpush
      cases hpush
    have hkept : ∀ span : EventSpan, span.Kept r (r.afterPush events event) :=
      EventSpan.kept_of_same rfl rfl
    rw [h.toEventQueue.queued_afterPush hpush] at hmem
    rcases List.mem_append.mp hmem with hold | hnew
    · exact (h.intact hun e hold).kept fun span _ => hkept span
    · rw [List.mem_singleton.mp hnew]
      exact (hlasting hun hroom).intact.kept fun span _ => hkept span

/-- An event without spans. -/
theorem pushPlain {event : Event} (hspans : event.spans = [.absent, .absent, .absent, .absent])
    (hidontwant : event.idontwant = none) :
    Comp.Keeps (EventInvariant config.toConfig undisturbed)
      (pushEventOrDrop config.toConfig event) := by
  intro r h
  refine h.push fun _ _ => ⟨fun span hmem => ?_, hidontwant⟩
  rw [hspans] at hmem
  simp only [List.mem_cons, or_self, List.not_mem_nil, or_false] at hmem
  subst hmem
  trivial

/-- `libp2p_gossipsub_next_event`. -/
theorem nextEvent : Comp.Keeps (EventInvariant config.toConfig undisturbed)
    (nextEvent config.toConfig) := by
  intro r h
  rcases h.toEventQueue.nextEvent_cases with ⟨-, hnone⟩ | ⟨pushed, events, hqueued, hrun, hqueue⟩
  · rwa [hnone]
  · rw [hrun]
    refine ⟨hqueue, fun hun e hmem => ?_⟩
    have hold : e ∈ r.queuedEvents := hqueued ▸ List.mem_cons_of_mem pushed hmem
    exact (h.intact hun e hold).kept fun span _ => span.kept_of_same rfl rfl

/-! ## Storing a message -/

/-- What the cache stored before stays in the slots that are not reused. -/
theorem kept_of_store {messageId : Bytes} {topic data : Bytes} {origin dataLen : Nat}
    (hlen : data.length = dataLen) {history : History} {span : EventSpan}
    (hslot : span.slot ≠ some (r.mcache.next % config.capacity.mcacheSlots))
    (hroom : config.capacity.mcacheBytes - r.mcache.dataUsed < dataLen → span.cached = false) :
    span.Kept r { r with
      mcache := (r.mcache.makeRoom config.toConfig dataLen).insert config.toConfig messageId topic
        data origin
      history := history } := by
  intro hlasting
  by_cases hfits : config.capacity.mcacheBytes - r.mcache.dataUsed < dataLen
  · have hcached := hroom hfits
    cases span <;> first | exact ⟨hlasting, rfl⟩ | cases hcached
  · have hsame : r.mcache.makeRoom config.toConfig dataLen = r.mcache := if_neg hfits
    rw [hsame]
    cases span with
    | entryTopic slot len =>
      have hne : slot ≠ r.mcache.next % config.capacity.mcacheSlots :=
        fun heq => hslot (congrArg some heq)
      refine ⟨trivial, ?_⟩
      unfold EventSpan.view Mcache.insert
      dsimp only
      rw [Function.update_of_ne hne]
    | entryId slot len =>
      have hne : slot ≠ r.mcache.next % config.capacity.mcacheSlots :=
        fun heq => hslot (congrArg some heq)
      refine ⟨trivial, ?_⟩
      unfold EventSpan.view Mcache.insert
      dsimp only
      rw [Function.update_of_ne hne]
    | entryData offset len =>
      unfold EventSpan.Lasting at hlasting
      refine ⟨?_, ?_⟩
      · change offset + len ≤ r.mcache.dataUsed + data.length
        omega
      · exact congrArg some (Memory.slice_store_of_disjoint _ (.inl hlasting))
    | _ => exact ⟨hlasting, rfl⟩

/-- `gossipsub_mcache_store`. -/
theorem mcacheStore (h : EventInvariant config.toConfig undisturbed r)
    {source : Option (Nat × Message)} {gated : Bool} {messageId : Bytes} {topic data : Span}
    (hstore : undisturbed → Comp.Yields
      (mcacheStore config.toConfig source gated messageId topic data) r fun _ _ =>
        StoreUndisturbed config.toConfig r data.len) :
    EventInvariant config.toConfig undisturbed
      (mcacheStore config.toConfig source gated messageId topic data r).2 := by
  unfold Gossipsub.mcacheStore at hstore ⊢
  split at hstore
  · rename_i habsent
    rw [if_pos habsent]
    exact h
  rename_i hpresent
  rw [if_neg hpresent]
  split at hstore
  · rename_i hlimit
    rw [if_pos hlimit]
    exact h
  rename_i hsizes
  rw [if_neg hsizes]
  have hlen : data.bytes.length = data.len :=
    Span.length_bytes fun hnull => not_not.mp fun hne => hpresent (.inr ⟨hnull, hne⟩)
  refine h.of_kept ?_ ?_ ?_
  · rfl
  · rfl
  intro hun e hmem span hspan
  have hevent : e.event ∈ r.events.toList config.capacity.eventCapacity := by
    rw [h.toList_eq]
    exact List.mem_map_of_mem hmem
  rcases hstore hun _ _ rfl with ⟨hslot, hroom⟩
  exact kept_of_store hlen (hslot e.event hevent span hspan)
    fun hfits => hroom hfits e.event hevent span hspan

end EventInvariant

/-- The data of the slot that `gossipsub_mcache_store` returns lies in the used part. -/
theorem mcacheStore_region {config : Config} {r r' : Router} {source : Option (Nat × Message)}
    {gated : Bool} {messageId : Bytes} {topic data : Span} {slot : Nat}
    (h : mcacheStore config source gated messageId topic data r = (.ok slot, r')) :
    (r'.mcache.entries slot).dataOffset + (r'.mcache.entries slot).dataLen ≤
      r'.mcache.dataUsed := by
  unfold mcacheStore at h
  split at h
  · cases h
  · split at h
    · cases h
    · cases h
      simp [Mcache.insert]

end LeanLibp2p.Gossipsub
