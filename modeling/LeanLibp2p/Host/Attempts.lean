import LeanLibp2p.Host.Counts
import LeanLibp2p.Lib.Tracks

/-!
# Attempts and their events

An open is negotiated on one stream until its event is queued, and stays evented until the event is
taken. The same holds of a dial, and of a connection slot whose CONN_CLOSED event is queued.
-/

namespace LeanLibp2p.Host

open LeanLibp2p.Lib

variable {τ : Type} {config : HostConfig τ} {host host' : LeanLibp2p.Host}

/-! ## Opens and their streams -/

/-- The states of an open and of the stream that belongs to it. -/
def Linked (stream : Stream) (streamOpen : StreamOpen) : Prop :=
  streamOpen.conn = stream.conn ∧ stream.direction = .outbound ∧
    (stream.state = .negotiating ∧ streamOpen.state = .negotiating ∨
      stream.state = .opened ∧ streamOpen.state = .evented)

/-- How streams and opens belong together. -/
structure Attempts (host : LeanLibp2p.Host) : Prop where
  state : ∀ s, (host.streams s).state = .free ∨ (host.streams s).state = .negotiating ∨
    (host.streams s).state = .opened
  outbound : ∀ s, (host.streams s).state = .negotiating → (host.streams s).direction = .outbound →
    (host.streams s).openAttempt ≠ none
  fresh : ∀ s, (host.streams s).state = .negotiating →
    (host.streams s).outboundOpenEventQueued = false ∧
      (host.streams s).outboundFailEventQueued = false
  linked : ∀ s o, (host.streams s).openAttempt = some o → Linked (host.streams s) (host.opens o)
  unique : ∀ s s' o, (host.streams s).openAttempt = some o →
    (host.streams s').openAttempt = some o → s = s'
  stream : ∀ o, (host.opens o).state = .negotiating → ∃ s, (host.streams s).openAttempt = some o

namespace Attempts

theorem started : Attempts started where
  state := fun _ => .inl rfl
  outbound := fun _ h => by cases h
  fresh := fun _ h => by cases h
  linked := fun _ _ h => by cases h
  unique := fun _ _ _ h => by cases h
  stream := fun _ h => by cases h

/-- Only the roles of the streams matter, and the states of the opens. -/
theorem congr (h : Attempts host) (hstreams : ∀ s, (host.streams s).SameRole (host'.streams s))
    (hopens : ∀ o, (host'.opens o).state = (host.opens o).state ∧
      (host'.opens o).conn = (host.opens o).conn) : Attempts host' where
  state := fun s => by rw [(hstreams s).state]; exact h.state s
  outbound := fun s => by
    rw [(hstreams s).state, (hstreams s).direction, (hstreams s).openAttempt]
    exact h.outbound s
  fresh := fun s => by
    rw [(hstreams s).state, (hstreams s).openEventQueued, (hstreams s).failEventQueued]
    exact h.fresh s
  linked := fun s o => by
    unfold Linked
    rw [(hstreams s).state, (hstreams s).direction, (hstreams s).openAttempt, (hstreams s).conn,
      (hopens o).1, (hopens o).2]
    exact h.linked s o
  unique := fun s s' o => by
    rw [(hstreams s).openAttempt, (hstreams s').openAttempt]
    exact h.unique s s' o
  stream := fun o ho => by
    rw [(hopens o).1] at ho
    rcases h.stream o ho with ⟨s, hs⟩
    exact ⟨s, (hstreams s).openAttempt.trans hs⟩

/-- An open that is not negotiated has no stream that is. -/
theorem attempt_ne (h : Attempts host) {o : Nat} (hn : (host.opens o).state ≠ .negotiating)
    (he : (host.opens o).state ≠ .evented) (s : Nat) : (host.streams s).openAttempt ≠ some o := by
  intro hattempt
  rcases (h.linked s o hattempt).2.2 with ⟨-, hopen⟩ | ⟨-, hopen⟩
  · exact hn hopen
  · exact he hopen

/-- A stream that loses its open, which had its event, or never had one. -/
theorem setStream (h : Attempts host) {s : Nat} {stream : Stream}
    (hstreams : host'.streams = Function.update host.streams s stream)
    (hopens : host'.opens = host.opens)
    (hstate : stream.state = .free ∨ stream.state = .opened ∨
      stream.state = .negotiating ∧ stream.direction = .inbound ∧
        stream.outboundOpenEventQueued = false ∧ stream.outboundFailEventQueued = false)
    (hattempt : stream.openAttempt = none)
    (hlost : ∀ o, (host.streams s).openAttempt = some o → (host.opens o).state ≠ .negotiating) :
    Attempts host' := by
  have hget : ∀ s' o, (host'.streams s').openAttempt = some o →
      host'.streams s' = host.streams s' ∧ s' ≠ s := by
    intro s' o ho
    rw [hstreams] at ho ⊢
    by_cases heq : s' = s
    · rw [heq, Function.update_self, hattempt] at ho
      cases ho
    · exact ⟨Function.update_of_ne heq .., heq⟩
  have hself : host'.streams s = stream := by rw [hstreams, Function.update_self]
  have hother : ∀ s', s' ≠ s → host'.streams s' = host.streams s' := by
    intro s' hne
    rw [hstreams]
    exact Function.update_of_ne hne ..
  constructor
  · intro s'
    by_cases heq : s' = s
    · rw [heq, hself]
      rcases hstate with hfree | hopened | ⟨hnegotiating, -⟩
      · exact .inl hfree
      · exact .inr (.inr hopened)
      · exact .inr (.inl hnegotiating)
    · rw [hother s' heq]
      exact h.state s'
  · intro s' hnegotiating houtbound
    by_cases heq : s' = s
    · rw [heq, hself] at hnegotiating houtbound
      rcases hstate with hfree | hopened | ⟨-, hinbound, -⟩
      · rw [hfree] at hnegotiating
        cases hnegotiating
      · rw [hopened] at hnegotiating
        cases hnegotiating
      · rw [hinbound] at houtbound
        cases houtbound
    · rw [hother s' heq] at hnegotiating houtbound ⊢
      exact h.outbound s' hnegotiating houtbound
  · intro s' hnegotiating
    by_cases heq : s' = s
    · rw [heq, hself] at hnegotiating ⊢
      rcases hstate with hfree | hopened | ⟨-, -, hflags⟩
      · rw [hfree] at hnegotiating
        cases hnegotiating
      · rw [hopened] at hnegotiating
        cases hnegotiating
      · exact hflags
    · rw [hother s' heq] at hnegotiating ⊢
      exact h.fresh s' hnegotiating
  · intro s' o ho
    rcases hget s' o ho with ⟨hsame, -⟩
    rw [hsame] at ho ⊢
    rw [hopens]
    exact h.linked s' o ho
  · intro s' s'' o ho ho'
    rw [(hget s' o ho).1] at ho
    rw [(hget s'' o ho').1] at ho'
    exact h.unique s' s'' o ho ho'
  · intro o ho
    rw [hopens] at ho
    rcases h.stream o ho with ⟨s', hs'⟩
    refine ⟨s', ?_⟩
    rw [hother s' ?_]
    · exact hs'
    · rintro rfl
      exact hlost o hs' ho

/-- An open without a stream that does not get one. -/
theorem setOpen (h : Attempts host) {o : Nat} {streamOpen : StreamOpen}
    (hstreams : host'.streams = host.streams)
    (hopens : host'.opens = Function.update host.opens o streamOpen)
    (hstate : streamOpen.state ≠ .negotiating)
    (hnone : ∀ s, (host.streams s).openAttempt ≠ some o) : Attempts host' := by
  constructor
  · rw [hstreams]
    exact h.state
  · rw [hstreams]
    exact h.outbound
  · rw [hstreams]
    exact h.fresh
  · intro s o' ho'
    rw [hstreams] at ho' ⊢
    rw [hopens, Function.update_of_ne]
    · exact h.linked s o' ho'
    · rintro rfl
      exact hnone s ho'
  · rw [hstreams]
    exact h.unique
  · intro o' ho'
    rw [hstreams]
    by_cases heq : o' = o
    · rw [heq, hopens, Function.update_self] at ho'
      exact absurd ho' hstate
    · rw [hopens, Function.update_of_ne heq] at ho'
      exact h.stream o' ho'

/-- A stream and its open change together. -/
theorem setBoth (h : Attempts host) {s o : Nat} {stream : Stream} {streamOpen : StreamOpen}
    (hstreams : host'.streams = Function.update host.streams s stream)
    (hopens : host'.opens = Function.update host.opens o streamOpen)
    (hattempt : stream.openAttempt = some o) (hlinked : Linked stream streamOpen)
    (hfresh : stream.state = .negotiating →
      stream.outboundOpenEventQueued = false ∧ stream.outboundFailEventQueued = false)
    (hothers : ∀ s', s' ≠ s → (host.streams s').openAttempt ≠ some o)
    (hlost : ∀ o', o' ≠ o → (host.streams s).openAttempt ≠ some o') : Attempts host' := by
  have hself : host'.streams s = stream := by rw [hstreams, Function.update_self]
  have hother : ∀ s', s' ≠ s → host'.streams s' = host.streams s' := by
    intro s' hne
    rw [hstreams]
    exact Function.update_of_ne hne ..
  have hopen : host'.opens o = streamOpen := by rw [hopens, Function.update_self]
  have hopenOther : ∀ o', o' ≠ o → host'.opens o' = host.opens o' := by
    intro o' hne
    rw [hopens]
    exact Function.update_of_ne hne ..
  have hnot : ∀ s' o', s' ≠ s → (host'.streams s').openAttempt = some o' →
      (host.streams s').openAttempt = some o' ∧ o' ≠ o := by
    intro s' o' hne ho'
    rw [hother s' hne] at ho'
    refine ⟨ho', ?_⟩
    rintro rfl
    exact hothers s' hne ho'
  constructor
  · intro s'
    by_cases heq : s' = s
    · rw [heq, hself]
      rcases hlinked.2.2 with ⟨hnegotiating, -⟩ | ⟨hopened, -⟩
      · exact .inr (.inl hnegotiating)
      · exact .inr (.inr hopened)
    · rw [hother s' heq]
      exact h.state s'
  · intro s' hnegotiating houtbound
    by_cases heq : s' = s
    · rw [heq, hself, hattempt]
      exact Option.some_ne_none o
    · rw [hother s' heq] at hnegotiating houtbound ⊢
      exact h.outbound s' hnegotiating houtbound
  · intro s' hnegotiating
    by_cases heq : s' = s
    · rw [heq, hself] at hnegotiating ⊢
      exact hfresh hnegotiating
    · rw [hother s' heq] at hnegotiating ⊢
      exact h.fresh s' hnegotiating
  · intro s' o' ho'
    by_cases heq : s' = s
    · rw [heq, hself] at ho' ⊢
      cases hattempt.symm.trans ho'
      rw [hopen]
      exact hlinked
    · rcases hnot s' o' heq ho' with ⟨hold, hne⟩
      rw [hother s' heq, hopenOther o' hne]
      exact h.linked s' o' hold
  · intro s' s'' o' ho' ho''
    by_cases heq : s' = s
    · by_cases heq' : s'' = s
      · rw [heq, heq']
      · rw [heq, hself, hattempt] at ho'
        exact absurd (Option.some.inj ho').symm (hnot s'' o' heq' ho'').2
    · by_cases heq' : s'' = s
      · rw [heq', hself, hattempt] at ho''
        exact absurd (Option.some.inj ho'').symm (hnot s' o' heq ho').2
      · exact h.unique s' s'' o' (hnot s' o' heq ho').1 (hnot s'' o' heq' ho'').1
  · intro o' ho'
    by_cases heq : o' = o
    · exact ⟨s, by rw [hself, hattempt, heq]⟩
    · rw [hopenOther o' heq] at ho'
      rcases h.stream o' ho' with ⟨s', hs'⟩
      refine ⟨s', ?_⟩
      rw [hother s' ?_]
      · exact hs'
      · rintro rfl
        exact hlost o' heq hs'

/-- A stream is released, and its open is settled. -/
theorem release (h : Attempts host) {s o : Nat} {stream : Stream} {streamOpen : StreamOpen}
    (hstreams : host'.streams = Function.update host.streams s stream)
    (hopens : host'.opens = Function.update host.opens o streamOpen)
    (hbefore : (host.streams s).openAttempt = some o) (hfree : stream.state = .free)
    (hattempt : stream.openAttempt = none) (hstate : streamOpen.state ≠ .negotiating) :
    Attempts host' := by
  have hself : host'.streams s = stream := by rw [hstreams, Function.update_self]
  have hother : ∀ s', s' ≠ s → host'.streams s' = host.streams s' := by
    intro s' hne
    rw [hstreams]
    exact Function.update_of_ne hne ..
  have hopenOther : ∀ o', o' ≠ o → host'.opens o' = host.opens o' := by
    intro o' hne
    rw [hopens]
    exact Function.update_of_ne hne ..
  have hold : ∀ s' o', (host'.streams s').openAttempt = some o' →
      s' ≠ s ∧ o' ≠ o ∧ (host.streams s').openAttempt = some o' := by
    intro s' o' ho'
    have hne : s' ≠ s := by
      rintro rfl
      rw [hself, hattempt] at ho'
      cases ho'
    rw [hother s' hne] at ho'
    refine ⟨hne, ?_, ho'⟩
    rintro rfl
    exact hne (h.unique s' s o' ho' hbefore)
  have hused : ∀ s', (host'.streams s').state = .negotiating →
      s' ≠ s ∧ (host.streams s').state = .negotiating := by
    intro s' hs'
    have hne : s' ≠ s := by
      rintro rfl
      rw [hself, hfree] at hs'
      cases hs'
    rw [hother s' hne] at hs'
    exact ⟨hne, hs'⟩
  constructor
  · intro s'
    by_cases heq : s' = s
    · rw [heq, hself]
      exact .inl hfree
    · rw [hother s' heq]
      exact h.state s'
  · intro s' hs'
    rcases hused s' hs' with ⟨hne, hs'⟩
    rw [hother s' hne]
    exact h.outbound s' hs'
  · intro s' hs'
    rcases hused s' hs' with ⟨hne, hs'⟩
    rw [hother s' hne]
    exact h.fresh s' hs'
  · intro s' o' ho'
    rcases hold s' o' ho' with ⟨hne, hne', ho'⟩
    rw [hother s' hne, hopenOther o' hne']
    exact h.linked s' o' ho'
  · intro s' s'' o' ho' ho''
    exact h.unique s' s'' o' (hold s' o' ho').2.2 (hold s'' o' ho'').2.2
  · intro o' ho'
    have hne : o' ≠ o := by
      rintro rfl
      rw [hopens, Function.update_self] at ho'
      exact hstate ho'
    rw [hopenOther o' hne] at ho'
    rcases h.stream o' ho' with ⟨s', hs'⟩
    refine ⟨s', ?_⟩
    rw [hother s' ?_]
    · exact hs'
    · rintro rfl
      exact hne (Option.some.inj (hs'.symm.trans hbefore))

end Attempts

/-! ## Queued events -/

/-- The opens with an event are those of the queued events. -/
structure OpenEvents (host : LeanLibp2p.Host) : Prop where
  tracks : Tracks HostEvent.streamOpen? host.events fun o => (host.opens o).state = .evented
  data : ∀ e ∈ host.events, ∀ o, e.streamOpen? = some o →
    e.userData = (host.opens o).userData ∧ e.conn? = some (host.opens o).conn
  /-- The event that a stream still belongs to names the stream. -/
  stream : ∀ s o, (host.streams s).openAttempt = some o → ∀ e ∈ host.events,
    e.streamOpen? = some o → e.stream? = some s

namespace OpenEvents

theorem started : OpenEvents started where
  tracks := .nil fun _ => by rintro ⟨⟩
  data := fun _ h => by cases h
  stream := fun _ _ h => by cases h

/-- The events stay, and what they say of their opens. -/
theorem congr (h : OpenEvents host) (hevents : host'.events = host.events)
    (hopens : ∀ o, ((host'.opens o).state = .evented ↔ (host.opens o).state = .evented) ∧
      ((host.opens o).state = .evented → (host'.opens o).userData = (host.opens o).userData ∧
        (host'.opens o).conn = (host.opens o).conn))
    (hstreams : ∀ s o, (host'.streams s).openAttempt = some o →
      (host.streams s).openAttempt = some o ∨ (host.opens o).state ≠ .evented) :
    OpenEvents host' := by
  constructor
  · rw [hevents]
    exact h.tracks.congr fun o => (hopens o).1
  · intro e he o ho
    rw [hevents] at he
    have hdata := (hopens o).2 (h.tracks.of_mem he ho)
    rw [hdata.1, hdata.2]
    exact h.data e he o ho
  · intro s o hattempt e he ho
    rw [hevents] at he
    rcases hstreams s o hattempt with hold | hnot
    · exact h.stream s o hold e he ho
    · exact absurd (h.tracks.of_mem he ho) hnot

/-- The events, the opens and the streams stay. -/
theorem same (h : OpenEvents host) (hevents : host'.events = host.events)
    (hopens : host'.opens = host.opens) (hstreams : host'.streams = host.streams) :
    OpenEvents host' := by
  refine h.congr hevents (fun o => ?_) fun s o ho => ?_
  · rw [hopens]
    exact ⟨Iff.rfl, fun _ => ⟨rfl, rfl⟩⟩
  · rw [hstreams] at ho
    exact .inl ho

/-- A stream that keeps its open, or loses it. -/
theorem setStream (h : OpenEvents host) {s : Nat} {stream : Stream}
    (hevents : host'.events = host.events) (hopens : host'.opens = host.opens)
    (hstreams : host'.streams = Function.update host.streams s stream)
    (hattempt : stream.openAttempt = none ∨ stream.openAttempt = (host.streams s).openAttempt) :
    OpenEvents host' := by
  refine h.congr hevents (fun o => by rw [hopens]; exact ⟨Iff.rfl, fun _ => ⟨rfl, rfl⟩⟩) ?_
  intro s' o ho
  rw [hstreams] at ho
  by_cases heq : s' = s
  · rw [heq, Function.update_self] at ho
    rcases hattempt with hnone | hsame
    · rw [hnone] at ho
      cases ho
    · rw [heq, ← hsame]
      exact .inl ho
  · rw [Function.update_of_ne heq] at ho
    exact .inl ho

/-- An open that has no event before and after. -/
theorem setOpen (h : OpenEvents host) {o : Nat} {streamOpen : StreamOpen}
    (hevents : host'.events = host.events)
    (hopens : host'.opens = Function.update host.opens o streamOpen)
    (hbefore : (host.opens o).state ≠ .evented) (hafter : streamOpen.state ≠ .evented)
    (hstreams : ∀ s o', (host'.streams s).openAttempt = some o' →
      (host.streams s).openAttempt = some o' ∨ o' = o) : OpenEvents host' := by
  refine h.congr hevents (fun o' => ?_) fun s o' ho => ?_
  · rw [hopens]
    by_cases heq : o' = o
    · rw [heq, Function.update_self]
      exact ⟨iff_of_false hafter hbefore, fun hevented => absurd hevented hbefore⟩
    · rw [Function.update_of_ne heq]
      exact ⟨Iff.rfl, fun _ => ⟨rfl, rfl⟩⟩
  · rcases hstreams s o' ho with hold | rfl
    · exact .inl hold
    · exact .inr hbefore

/-- An event of another kind is queued. -/
theorem push (h : OpenEvents host) {event : HostEvent} (hevent : event.streamOpen? = none) :
    OpenEvents (pushEvent event host) := by
  have hmem : ∀ e ∈ host.events ++ [event], ∀ o, e.streamOpen? = some o → e ∈ host.events := by
    intro e he o ho
    rcases List.mem_append.mp he with he | he
    · exact he
    · rw [List.mem_singleton.mp he, hevent] at ho
      cases ho
  exact {
    tracks := h.tracks.append_none hevent
    data := fun e he o ho => h.data e (hmem e he o ho) o ho
    stream := fun s o hattempt e he ho => h.stream s o hattempt e (hmem e he o ho) ho }

/-- The event of an open is queued. -/
theorem pushOpen (h : OpenEvents host) {event : HostEvent} {o : Nat} {streamOpen : StreamOpen}
    (hevents : host'.events = host.events ++ [event])
    (hopens : host'.opens = Function.update host.opens o streamOpen)
    (hevent : event.streamOpen? = some o) (hbefore : (host.opens o).state ≠ .evented)
    (hstate : streamOpen.state = .evented)
    (hdata : event.userData = streamOpen.userData ∧ event.conn? = some streamOpen.conn)
    (hstreams : ∀ s o', (host'.streams s).openAttempt = some o' →
      (o' = o → event.stream? = some s) ∧ (host.streams s).openAttempt = some o') :
    OpenEvents host' := by
  have hother : ∀ e ∈ host.events, ∀ o', e.streamOpen? = some o' → o' ≠ o := by
    rintro e he o' ho' rfl
    exact hbefore (h.tracks.of_mem he ho')
  constructor
  · rw [hevents, hopens]
    exact h.tracks.append_some (m := fun o : StreamOpen => o.state = .evented) hevent hbefore hstate
  · intro e he o' ho'
    rw [hevents] at he
    rcases List.mem_append.mp he with he | he
    · rw [hopens, Function.update_of_ne (hother e he o' ho')]
      exact h.data e he o' ho'
    · rw [List.mem_singleton.mp he] at ho' ⊢
      cases hevent.symm.trans ho'
      rw [hopens, Function.update_self]
      exact hdata
  · intro s o' hattempt e he ho'
    have hs := hstreams s o' hattempt
    rw [hevents] at he
    rcases List.mem_append.mp he with he | he
    · exact h.stream s o' hs.2 e he ho'
    · rw [List.mem_singleton.mp he] at ho' ⊢
      cases hevent.symm.trans ho'
      exact hs.1 rfl

/-- An event is taken, with its open. -/
theorem pop (h : OpenEvents host) {event : HostEvent} {events : List HostEvent}
    (hhost : host.events = event :: events) (hevents : host'.events = events)
    (hopens : host'.opens = match event.streamOpen? with
      | some o => Function.update host.opens o {}
      | none => host.opens)
    (hstreams : ∀ s o, (host'.streams s).openAttempt = some o →
      (host.streams s).openAttempt = some o) : OpenEvents host' := by
  have htracks := h.tracks
  have hdata := h.data
  have hstream := h.stream
  rw [hhost] at htracks hdata hstream
  cases hevent : event.streamOpen? with
  | none =>
    replace hopens : host'.opens = host.opens := by rw [hopens, hevent]
    constructor
    · rw [hevents, hopens]
      exact htracks.tail_none hevent
    · intro e he
      rw [hevents] at he
      rw [hopens]
      exact hdata e (List.mem_cons_of_mem event he)
    · intro s o hattempt e he
      rw [hevents] at he
      exact hstream s o (hstreams s o hattempt) e (List.mem_cons_of_mem event he)
  | some o =>
    replace hopens : host'.opens = Function.update host.opens o {} := by rw [hopens, hevent]
    constructor
    · rw [hevents, hopens]
      refine (htracks.tail_some hevent).congr fun o' => ?_
      by_cases heq : o' = o
      · rw [heq, Function.update_self]
        exact iff_of_false (by rintro ⟨⟩) fun h => h.2 rfl
      · rw [Function.update_of_ne heq]
        exact (and_iff_left heq).symm
    · intro e he o' ho'
      rw [hevents] at he
      rw [hopens, Function.update_of_ne (htracks.ne_head hevent he ho')]
      exact hdata e (List.mem_cons_of_mem event he) o' ho'
    · intro s o' hattempt e he
      rw [hevents] at he
      exact hstream s o' (hstreams s o' hattempt) e (List.mem_cons_of_mem event he)

end OpenEvents

/-- The dials with an event are those of the queued events. -/
structure DialEvents (host : LeanLibp2p.Host) : Prop where
  tracks : Tracks HostEvent.dial? host.events fun d => (host.dials d).state = .evented
  data : ∀ e ∈ host.events, ∀ d, e.dial? = some d → e.userData = (host.dials d).userData

namespace DialEvents

theorem started : DialEvents started where
  tracks := .nil fun _ => by rintro ⟨⟩
  data := fun _ h => by cases h

theorem congr (h : DialEvents host) (hevents : host'.events = host.events)
    (hdials : ∀ d, ((host'.dials d).state = .evented ↔ (host.dials d).state = .evented) ∧
      ((host.dials d).state = .evented → (host'.dials d).userData = (host.dials d).userData)) :
    DialEvents host' := by
  constructor
  · rw [hevents]
    exact h.tracks.congr fun d => (hdials d).1
  · intro e he d hd
    rw [hevents] at he
    rw [(hdials d).2 (h.tracks.of_mem he hd)]
    exact h.data e he d hd

theorem same (h : DialEvents host) (hevents : host'.events = host.events)
    (hdials : host'.dials = host.dials) : DialEvents host' := by
  refine h.congr hevents fun d => ?_
  rw [hdials]
  exact ⟨Iff.rfl, fun _ => rfl⟩

/-- A free dial that does not get an event. -/
theorem setFree (h : DialEvents host) {d : Nat} {dial : Dial} (hevents : host'.events = host.events)
    (hdials : host'.dials = Function.update host.dials d dial) (hfree : (host.dials d).state = .free)
    (hstate : dial.state ≠ .evented) : DialEvents host' := by
  refine h.congr hevents fun d' => ?_
  rw [hdials]
  by_cases heq : d' = d
  · rw [heq, Function.update_self, hfree]
    exact ⟨iff_of_false hstate (by rintro ⟨⟩), by rintro ⟨⟩⟩
  · rw [Function.update_of_ne heq]
    exact ⟨Iff.rfl, fun _ => rfl⟩

/-- An event of another kind is queued. -/
theorem push (h : DialEvents host) {event : HostEvent} (hevent : event.dial? = none) :
    DialEvents (pushEvent event host) := by
  refine ⟨h.tracks.append_none hevent, fun e he d hd => ?_⟩
  rcases List.mem_append.mp he with he | he
  · exact h.data e he d hd
  · rw [List.mem_singleton.mp he, hevent] at hd
    cases hd

/-- The event of a dial is queued. -/
theorem pushDial (h : DialEvents host) {event : HostEvent} {d : Nat} {dial : Dial}
    (hevents : host'.events = host.events ++ [event])
    (hdials : host'.dials = Function.update host.dials d dial)
    (hevent : event.dial? = some d) (hbefore : (host.dials d).state = .pending)
    (hstate : dial.state = .evented) (hdata : event.userData = dial.userData) :
    DialEvents host' := by
  have hnew : (host.dials d).state ≠ .evented := by
    rw [hbefore]
    rintro ⟨⟩
  constructor
  · rw [hevents, hdials]
    exact h.tracks.append_some (m := fun d : Dial => d.state = .evented) hevent hnew hstate
  · intro e he d' hd'
    rw [hevents] at he
    rw [hdials]
    rcases List.mem_append.mp he with he | he
    · rw [Function.update_of_ne]
      · exact h.data e he d' hd'
      · rintro rfl
        exact hnew (h.tracks.of_mem he hd')
    · rw [List.mem_singleton.mp he] at hd' ⊢
      cases hevent.symm.trans hd'
      rw [Function.update_self]
      exact hdata

/-- An event is taken, with its dial. -/
theorem pop (h : DialEvents host) {event : HostEvent} {events : List HostEvent}
    (hhost : host.events = event :: events) (hevents : host'.events = events)
    (hdials : host'.dials = match event.dial? with
      | some d => Function.update host.dials d { host.dials d with state := .free }
      | none => host.dials) : DialEvents host' := by
  have htracks := h.tracks
  have hdata := h.data
  rw [hhost] at htracks hdata
  cases hevent : event.dial? with
  | none =>
    replace hdials : host'.dials = host.dials := by rw [hdials, hevent]
    constructor
    · rw [hevents, hdials]
      exact htracks.tail_none hevent
    · intro e he
      rw [hevents] at he
      rw [hdials]
      exact hdata e (List.mem_cons_of_mem event he)
  | some d =>
    replace hdials : host'.dials =
        Function.update host.dials d { host.dials d with state := .free } := by rw [hdials, hevent]
    constructor
    · rw [hevents, hdials]
      refine (htracks.tail_some hevent).congr fun d' => ?_
      by_cases heq : d' = d
      · rw [heq, Function.update_self]
        exact iff_of_false (by rintro ⟨⟩) fun h => h.2 rfl
      · rw [Function.update_of_ne heq]
        exact (and_iff_left heq).symm
    · intro e he d' hd'
      rw [hevents] at he
      rw [hdials, Function.update_of_ne (htracks.ne_head hevent he hd')]
      exact hdata e (List.mem_cons_of_mem event he) d' hd'

end DialEvents

/-- The connections whose CONN_CLOSED event is pending are those of the queued events. -/
structure CloseEvents (host : LeanLibp2p.Host) : Prop where
  tracks : Tracks HostEvent.closedConn? host.events fun i =>
    (host.conns i).closeEventPending = true
  closed : ∀ i, (host.conns i).closeEventPending = true → (host.conns i).closed = true
  active : ∀ i, (host.conns i).closed = true → (host.conns i).active = true

namespace CloseEvents

theorem started : CloseEvents started where
  tracks := .nil fun _ => by rintro ⟨⟩
  closed := fun _ h => by cases h
  active := fun _ h => by cases h

theorem congr (h : CloseEvents host) (hevents : host'.events = host.events)
    (hconns : ∀ i, (host'.conns i).closeEventPending = (host.conns i).closeEventPending ∧
      ((host.conns i).closeEventPending = true → (host'.conns i).closed = true) ∧
      ((host'.conns i).closed = true → (host'.conns i).active = true)) : CloseEvents host' := by
  constructor
  · rw [hevents]
    exact h.tracks.congr fun i => by rw [(hconns i).1]
  · intro i hi
    rw [(hconns i).1] at hi
    exact (hconns i).2.1 hi
  · exact fun i => (hconns i).2.2

/-- The flags of the connections stay. -/
theorem congr_flags (h : CloseEvents host) (hevents : host'.events = host.events)
    (hconns : ∀ i, (host'.conns i).closeEventPending = (host.conns i).closeEventPending ∧
      (host'.conns i).closed = (host.conns i).closed ∧
      (host'.conns i).active = (host.conns i).active) : CloseEvents host' := by
  apply h.congr hevents
  intro i
  rw [(hconns i).1, (hconns i).2.1, (hconns i).2.2]
  exact ⟨rfl, h.closed i, h.active i⟩

theorem same (h : CloseEvents host) (hevents : host'.events = host.events)
    (hconns : host'.conns = host.conns) : CloseEvents host' :=
  h.congr_flags hevents fun i => by
    rw [hconns]
    exact ⟨rfl, rfl, rfl⟩

/-- An event of another kind is queued. -/
theorem push (h : CloseEvents host) {event : HostEvent} (hevent : event.closedConn? = none) :
    CloseEvents (pushEvent event host) :=
  ⟨h.tracks.append_none hevent, h.closed, h.active⟩

/-- The CONN_CLOSED event of a connection is queued. -/
theorem pushClosed (h : CloseEvents host) {event : HostEvent} {i : Nat} {conn : Conn}
    (hevents : host'.events = host.events ++ [event])
    (hconns : host'.conns = Function.update host.conns i conn)
    (hevent : event.closedConn? = some i) (hopen : (host.conns i).closed = false)
    (hconn : conn.closeEventPending = true ∧ conn.closed = true ∧ conn.active = true) :
    CloseEvents host' := by
  have hnew : (host.conns i).closeEventPending ≠ true := by
    intro hpending
    have hclosed := h.closed i hpending
    rw [hopen] at hclosed
    cases hclosed
  constructor
  · rw [hevents, hconns]
    exact h.tracks.append_some (m := fun c : Conn => c.closeEventPending = true) hevent hnew hconn.1
  · rw [hconns]
    apply (Function.forall_update_iff host.conns
      (p := fun _ (c : Conn) => c.closeEventPending = true → c.closed = true)).mpr
    exact ⟨fun _ => hconn.2.1, fun j _ => h.closed j⟩
  · rw [hconns]
    apply (Function.forall_update_iff host.conns
      (p := fun _ (c : Conn) => c.closed = true → c.active = true)).mpr
    exact ⟨fun _ => hconn.2.2, fun j _ => h.active j⟩

/-- A slot without a pending event is set to a connection that is not closed. -/
theorem setConn (h : CloseEvents host) {i : Nat} {conn : Conn}
    (hslot : (host.conns i).closeEventPending = false) (hpending : conn.closeEventPending = false)
    (hopen : conn.closed = false) : CloseEvents (Host.setConn i conn host) := by
  refine h.congr rfl fun j => ?_
  show (Function.update host.conns i conn j).closeEventPending = _ ∧
    (_ → (Function.update host.conns i conn j).closed = true) ∧
    ((Function.update host.conns i conn j).closed = true →
      (Function.update host.conns i conn j).active = true)
  by_cases heq : j = i
  · rw [heq, Function.update_self, hslot, hpending, hopen]
    exact ⟨rfl, by rintro ⟨⟩, by rintro ⟨⟩⟩
  · rw [Function.update_of_ne heq]
    exact ⟨rfl, h.closed j, h.active j⟩

/-- An event is taken, with the pending flag of its connection. -/
theorem pop (h : CloseEvents host) {event : HostEvent} {events : List HostEvent}
    (hhost : host.events = event :: events) (hevents : host'.events = events)
    (hconns : ∀ i, (host'.conns i).closeEventPending =
        (if event.closedConn? = some i then false else (host.conns i).closeEventPending) ∧
      (host'.conns i).closed = (host.conns i).closed ∧
      (host'.conns i).active = (host.conns i).active) : CloseEvents host' := by
  have htracks := h.tracks
  rw [hhost] at htracks
  constructor
  · rw [hevents]
    cases hevent : event.closedConn? with
    | none =>
      refine (htracks.tail_none hevent).congr fun i => ?_
      rw [(hconns i).1, hevent, if_neg (by rintro ⟨⟩)]
    | some j =>
      refine (htracks.tail_some hevent).congr fun i => ?_
      rw [(hconns i).1, hevent]
      by_cases heq : i = j
      · rw [if_pos (by rw [heq])]
        exact iff_of_false (by rintro ⟨⟩) fun h => h.2 heq
      · rw [if_neg fun h => heq (Option.some.inj h).symm]
        exact (and_iff_left heq).symm
  · intro i hi
    rw [(hconns i).1] at hi
    rw [(hconns i).2.1]
    split at hi
    · cases hi
    · exact h.closed i hi
  · intro i hi
    rw [(hconns i).2.1] at hi
    rw [(hconns i).2.2]
    exact h.active i hi

end CloseEvents

/-! ## Closed connections -/

/-- Nothing is negotiated on a closed connection, and no open waits for it. -/
structure Settled (host : LeanLibp2p.Host) : Prop where
  stream : ∀ s, (host.streams s).state = .negotiating →
    (host.conns (host.streams s).conn).closed = false
  waiting : ∀ o, (host.opens o).state = .waitTransport →
    (host.conns (host.opens o).conn).closed = false

namespace Settled

theorem started : Settled started where
  stream := fun _ _ => rfl
  waiting := fun _ _ => rfl

/-- No connection that was open is closed. -/
theorem congr (h : Settled host) (hstreams : host'.streams = host.streams)
    (hopens : host'.opens = host.opens)
    (hclosed : ∀ i, (host.conns i).closed = false → (host'.conns i).closed = false) :
    Settled host' where
  stream := fun s hs => by
    rw [hstreams] at hs ⊢
    exact hclosed _ (h.stream s hs)
  waiting := fun o ho => by
    rw [hopens] at ho ⊢
    exact hclosed _ (h.waiting o ho)

theorem setStream (h : Settled host) {s : Nat} {stream : Stream}
    (hstream : stream.state = .negotiating → (host.conns stream.conn).closed = false) :
    Settled (Host.setStream s stream host) where
  stream := fun s' hs' => by
    have hstate : (Function.update host.streams s stream s').state = .negotiating := hs'
    show (host.conns (Function.update host.streams s stream s').conn).closed = false
    by_cases heq : s' = s
    · rw [heq, Function.update_self] at hstate ⊢
      exact hstream hstate
    · rw [Function.update_of_ne heq] at hstate ⊢
      exact h.stream s' hstate
  waiting := h.waiting

theorem setOpen (h : Settled host) {o : Nat} {streamOpen : StreamOpen}
    (hopen : streamOpen.state = .waitTransport → (host.conns streamOpen.conn).closed = false) :
    Settled (Host.setOpen o streamOpen host) where
  stream := h.stream
  waiting := fun o' ho' => by
    have hstate : (Function.update host.opens o streamOpen o').state = .waitTransport := ho'
    show (host.conns (Function.update host.opens o streamOpen o').conn).closed = false
    by_cases heq : o' = o
    · rw [heq, Function.update_self] at hstate ⊢
      exact hopen hstate
    · rw [Function.update_of_ne heq] at hstate ⊢
      exact h.waiting o' hstate

/-- A connection is closed that nothing is negotiated on. -/
theorem closeConn (h : Settled host) {i : Nat} {conn : Conn}
    (hstreams : ∀ s, (host.streams s).conn = i → (host.streams s).state ≠ .negotiating)
    (hopens : ∀ o, (host.opens o).conn = i → (host.opens o).state ≠ .waitTransport) :
    Settled (Host.setConn i conn host) where
  stream := fun s hs => by
    show (Function.update host.conns i conn (host.streams s).conn).closed = false
    rw [Function.update_of_ne]
    · exact h.stream s hs
    · exact fun heq => hstreams s heq hs
  waiting := fun o ho => by
    show (Function.update host.conns i conn (host.opens o).conn).closed = false
    rw [Function.update_of_ne]
    · exact h.waiting o ho
    · exact fun heq => hopens o heq ho

end Settled

end LeanLibp2p.Host
