import LeanLibp2p.Quic.Turns

/-!
# Deadlines of the QUIC endpoint

`quic_backend_endpoint_next_deadline` tells the caller in microseconds of its own clock when the
earliest expiry is, which ngtcp2 has in nanoseconds since the time origin. The conversion rounds down,
and the poll compares in nanoseconds.
-/

namespace LeanLibp2p.Quic

open LeanLibp2p.Lib

/-! ## The clocks -/

theorem timeMax_toNat : timeMax.toNat = 18446744073709551615 := rfl

theorem toNat_le_timeMax (t : UInt64) : t.toNat ≤ 18446744073709551615 := by
  have hlt := t.toNat_lt
  omega

theorem timeToNgtcp2_toNat (t : UInt64) :
    (timeToNgtcp2 t).toNat = min (t.toNat * 1000) timeMax.toNat := by
  have hbound : (timeMax / microseconds < t) ↔ 18446744073709551 < t.toNat := by
    rw [UInt64.lt_iff_toNat_lt, UInt64.toNat_div]
    rfl
  unfold timeToNgtcp2
  rw [timeMax_toNat]
  split
  · rename_i hlt
    have hlt := hbound.mp hlt
    rw [timeMax_toNat]
    omega
  · rename_i hle
    have hle : ¬ 18446744073709551 < t.toNat := fun hlt => hle (hbound.mpr hlt)
    rw [UInt64.toNat_mul, show microseconds.toNat = 1000 from rfl, Nat.mod_eq_of_lt (by omega)]
    omega

theorem timeFromNgtcp2_toNat (ts : UInt64) : (timeFromNgtcp2 ts).toNat = ts.toNat / 1000 :=
  UInt64.toNat_div ts microseconds

namespace EndpointClock

variable (clock : EndpointClock)

/-- The origin that a call at a time is measured from. -/
def originAt (nowUs : UInt64) : UInt64 := if clock.hasTimeOrigin then clock.timeOriginUs else nowUs

/-- The origin that is added to a deadline. -/
def origin : UInt64 := if clock.hasTimeOrigin then clock.timeOriginUs else 0

/-- The conversions are exact up to the largest time, and do not wrap. -/
structure NoWrap : Prop where
  toNgtcp2 : ∀ t, (clock.toNgtcp2 t).toNat =
    min ((t.toNat - (clock.originAt t).toNat) * 1000) timeMax.toNat
  fromNgtcp2 : ∀ ts, (clock.fromNgtcp2 ts).toNat =
    min (clock.origin.toNat + ts.toNat / 1000) timeMax.toNat

theorem noWrap : clock.NoWrap where
  toNgtcp2 t := by
    have hrelative : (if clock.originAt t ≤ t then t - clock.originAt t else 0).toNat =
        t.toNat - (clock.originAt t).toNat := by
      split
      · rename_i hle
        exact UInt64.toNat_sub_of_le _ _ hle
      · rename_i hlt
        rw [UInt64.le_iff_toNat_le] at hlt
        rw [Nat.sub_eq_zero_of_le (by omega)]
        rfl
    refine (timeToNgtcp2_toNat _).trans ?_
    exact congrArg (fun relative => min (relative * 1000) timeMax.toNat) hrelative
  fromNgtcp2 ts := by
    have hts := timeFromNgtcp2_toNat ts
    have horigin := toNat_le_timeMax clock.timeOriginUs
    have hmax := toNat_le_timeMax ts
    unfold EndpointClock.fromNgtcp2 origin
    rw [timeMax_toNat]
    dsimp only
    split
    · have hroom : (timeMax - clock.timeOriginUs).toNat =
          18446744073709551615 - clock.timeOriginUs.toNat :=
        UInt64.toNat_sub_of_le _ _ (UInt64.le_iff_toNat_le.mpr horigin)
      split
      · rename_i hlt
        rw [UInt64.lt_iff_toNat_lt, hroom, hts] at hlt
        rw [timeMax_toNat]
        omega
      · rename_i hle
        rw [UInt64.lt_iff_toNat_lt, hroom, hts] at hle
        rw [UInt64.toNat_add, hts, Nat.mod_eq_of_lt (by omega)]
        omega
    · rw [hts]
      change ts.toNat / 1000 = min (0 + ts.toNat / 1000) _
      omega

/-- The clocks agree on an expiry: it is whole microseconds after the origin and within the caller's
    time, and not at the origin unless that is zero. Without an origin it is zero. -/
def Agrees (expiry : UInt64) : Prop :=
  if clock.hasTimeOrigin then
    1000 ∣ expiry.toNat ∧ clock.timeOriginUs.toNat + expiry.toNat / 1000 ≤ timeMax.toNat ∧
      (expiry = 0 → clock.timeOriginUs = 0)
  else expiry = 0

instance (expiry : UInt64) : Decidable (clock.Agrees expiry) := by
  unfold Agrees
  split <;> infer_instance

variable {clock}

/-- The expiry has passed from its deadline on and not before, exactly when the clocks agree. -/
theorem agrees_iff (expiry : UInt64) : clock.Agrees expiry ↔
    (∀ t, clock.fromNgtcp2 expiry ≤ t → expiry ≤ clock.toNgtcp2 t) ∧
      ∀ t, t < clock.fromNgtcp2 expiry → clock.toNgtcp2 t < expiry := by
  have hmax := toNat_le_timeMax expiry
  have horiginMax := toNat_le_timeMax clock.timeOriginUs
  have hfrom := clock.noWrap.fromNgtcp2 expiry
  have hto := clock.noWrap.toNgtcp2
  rw [timeMax_toNat] at hfrom
  simp only [timeMax_toNat] at hto
  simp only [UInt64.le_iff_toNat_le, UInt64.lt_iff_toNat_lt, hto]
  unfold Agrees
  rw [timeMax_toNat]
  have hzero : ∀ t : UInt64, t = 0 ↔ t.toNat = 0 := fun t => UInt64.toNat_inj.symm
  simp only [hzero]
  by_cases horigin : clock.hasTimeOrigin = true
  · have hat : ∀ t, clock.originAt t = clock.timeOriginUs := fun t => if_pos horigin
    have hadded : clock.origin = clock.timeOriginUs := if_pos horigin
    rw [if_pos horigin]
    rw [hadded] at hfrom
    simp only [hat]
    constructor
    · intro h
      obtain ⟨⟨q, hq⟩, hfits, hstart⟩ := h
      constructor
      · intro t ht
        omega
      · intro t ht
        omega
    · intro h
      obtain ⟨hlate, hearly⟩ := h
      have hdue := hlate (clock.fromNgtcp2 expiry) (Nat.le_refl _)
      rw [hfrom] at hdue
      refine ⟨?_, ?_, fun hnone => ?_⟩
      · omega
      · omega
      · by_contra hpos
        have hzero := hearly 0
        change 0 < _ → min ((0 - _) * 1000) _ < _ at hzero
        omega
  · have hat : ∀ t, clock.originAt t = t := fun t => if_neg horigin
    rw [if_neg horigin]
    simp only [hat, Nat.sub_self]
    constructor
    · intro hnone
      constructor
      · intro t _
        omega
      · intro t ht
        have hadded : clock.origin = 0 := if_neg horigin
        rw [hadded] at hfrom
        change (clock.fromNgtcp2 expiry).toNat = min (0 + _) _ at hfrom
        omega
    · intro h
      have hdue := h.1 (clock.fromNgtcp2 expiry) (Nat.le_refl _)
      omega

end EndpointClock

/-! ## The deadline -/

/-- No connection of the endpoint expires before this one. -/
def Timers.Earliest (timers : Timers) (endpoint : Endpoint) (c : Nat) : Prop :=
  c ∈ endpoint.connections ∧ ∀ c' ∈ endpoint.connections, timers.expiry c ≤ timers.expiry c'

instance (timers : Timers) (endpoint : Endpoint) (c : Nat) :
    Decidable (timers.Earliest endpoint c) :=
  inferInstanceAs (Decidable (_ ∧ ∀ c' ∈ endpoint.connections, _))

/-- The search for the least expiry, as far as all connections are live. -/
theorem foldl_earliest {timers : Timers} {live : Nat → Bool} {connections : List Nat}
    (hlive : ∀ c ∈ connections, live c = true) (best : UInt64) :
    let found := connections.foldl (fun best c =>
      if live c ∧ timers.expiry c < best then timers.expiry c else best) best
    found ≤ best ∧ (∀ c ∈ connections, found ≤ timers.expiry c) ∧
      (found = best ∨ ∃ c ∈ connections, timers.expiry c = found) := by
  induction connections generalizing best with
  | nil => exact ⟨UInt64.le_refl _, fun c hc => (by cases hc), .inl rfl⟩
  | cons c connections ih =>
    obtain ⟨hc, hrest⟩ := List.forall_mem_cons.mp hlive
    by_cases hlt : timers.expiry c < best
    · obtain ⟨hle, hall, hfound⟩ := ih hrest (timers.expiry c)
      simp only [List.foldl_cons, if_pos (⟨hc, hlt⟩ : live c = true ∧ timers.expiry c < best)]
      refine ⟨UInt64.le_trans hle (UInt64.le_of_lt hlt), List.forall_mem_cons.mpr ⟨hle, hall⟩, ?_⟩
      rcases hfound with heq | ⟨c', hc', heq⟩
      · exact .inr ⟨c, List.mem_cons_self, heq.symm⟩
      · exact .inr ⟨c', List.mem_cons_of_mem _ hc', heq⟩
    · obtain ⟨hle, hall, hfound⟩ := ih hrest best
      have hkeeps : ¬ (live c = true ∧ timers.expiry c < best) := fun h => hlt h.2
      simp only [List.foldl_cons, if_neg hkeeps]
      refine ⟨hle, List.forall_mem_cons.mpr
        ⟨UInt64.le_trans hle (UInt64.not_lt.mp hlt), hall⟩, ?_⟩
      rcases hfound with heq | ⟨c', hc', heq⟩
      · exact .inl heq
      · exact .inr ⟨c', List.mem_cons_of_mem _ hc', heq⟩

/-- A deadline is that of the earliest expiry. -/
theorem nextDeadline_spec {endpoint : Endpoint} (h : endpoint.Listed) {timers : Timers}
    {clock : EndpointClock} {d : UInt64} (hd : endpoint.nextDeadline timers clock = .ok d) :
    ∃ c, timers.Earliest endpoint c ∧ timers.expiry c ≠ timeMax ∧
      d = clock.fromNgtcp2 (timers.expiry c) := by
  have hfold := @foldl_earliest timers (fun c => (endpoint.conn c).state.live)
    endpoint.connections h.live timeMax
  unfold Endpoint.nextDeadline at hd
  dsimp only at hd hfold
  generalize (endpoint.connections.foldl (fun best c =>
    if (endpoint.conn c).state.live = true ∧ timers.expiry c < best then timers.expiry c
    else best) timeMax) = best at hd hfold
  obtain ⟨-, hall, hfound⟩ := hfold
  split at hd
  · cases hd
  · rename_i hsome
    obtain ⟨c, hc, rfl⟩ := hfound.resolve_left hsome
    exact ⟨c, ⟨hc, hall⟩, hsome, (Except.ok.inj hd).symm⟩

namespace TimedEndpoint

/-- A poll from the deadline on handles an earliest expiry, and one before handles none. -/
structure KeepsDeadline (timed : TimedEndpoint) (timers : Timers) (d : UInt64) : Prop where
  late : ∀ t, d ≤ t → ∃ c ∈ (timed.poll timers t).visited, timers.Earliest timed.endpoint c
  early : ∀ t, t < d → (timed.poll timers t).visited = []

/-- The clocks agree on the earliest expiry, and a poll for which that is due comes to such a
    connection. -/
structure InTime (timed : TimedEndpoint) (timers : Timers) : Prop where
  agrees : ∀ c, timers.Earliest timed.endpoint c → timed.clock.Agrees (timers.expiry c)
  reaches : ∀ t c, timers.Earliest timed.endpoint c →
    timers.due (timed.clock.toNgtcp2 t) c = true →
      ∃ p first, timed.endpoint.connections[p]? = some first ∧
        timers.Earliest timed.endpoint first ∧
        timers.Reaches (timed.clock.toNgtcp2 t) timed.endpoint p

variable {timed : TimedEndpoint} {timers : Timers} {c c' : Nat}

theorem earliest_expiry (h : timers.Earliest timed.endpoint c)
    (h' : timers.Earliest timed.endpoint c') : timers.expiry c = timers.expiry c' :=
  UInt64.le_antisymm (h.2 c' h'.1) (h'.2 c h.1)

/-- Handling nothing means that nothing is due. -/
theorem poll_visited_eq_nil (h : timed.endpoint.Listed) (hfirst : timers.Earliest timed.endpoint c)
    (hmax : timers.expiry c ≠ timeMax) (t : UInt64) :
    (timed.poll timers t).visited = [] ↔ timed.clock.toNgtcp2 t < timers.expiry c := by
  unfold poll
  rw [Endpoint.poll_visited h]
  generalize timed.clock.toNgtcp2 t = now
  constructor
  · intro hnone
    by_contra hnotlt
    have hdue : timers.due now c = true := by simp [Timers.due, hmax, UInt64.not_lt.mp hnotlt]
    have hexists : ∃ c ∈ timed.endpoint.connections, timers.due now c = true :=
      ⟨c, hfirst.1, hdue⟩
    have hstay : ∀ room c', ¬ timers.due now c' = true → timers.turn now room c' = .stay :=
      fun room c' hnotdue => if_neg hnotdue
    obtain ⟨c', hc', hdue'⟩ := @exists_mem_sweep _ _ _ (timers.roomAfter now) _ _ hstay hexists
      timed.endpoint.room
    exact List.filter_eq_nil_iff.mp hnone c' hc' hdue'
  · intro hlt
    refine List.filter_eq_nil_iff.mpr fun c' hc' hdue => ?_
    obtain ⟨p, hget, -⟩ := mem_sweep.mp hc'
    have hle := hfirst.2 c' (List.mem_of_getElem? hget)
    have hdue : timers.expiry c' ≤ now := by
      simp only [Timers.due, decide_eq_true_eq] at hdue
      exact hdue.2
    exact UInt64.not_lt.mpr (UInt64.le_trans hle hdue) hlt

theorem keepsDeadline_iff (h : timed.endpoint.Listed) {d : UInt64}
    (hd : timed.endpoint.nextDeadline timers timed.clock = .ok d) :
    timed.KeepsDeadline timers d ↔ timed.InTime timers := by
  obtain ⟨c, hc, hmax, rfl⟩ := nextDeadline_spec h hd
  have hnil := poll_visited_eq_nil h hc hmax
  have hsame : ∀ c', timers.Earliest timed.endpoint c' → timers.expiry c' = timers.expiry c :=
    fun c' hc' => earliest_expiry hc' hc
  have hdue : ∀ t c', timers.Earliest timed.endpoint c' →
      (timers.due (timed.clock.toNgtcp2 t) c' = true ↔
        timers.expiry c ≤ timed.clock.toNgtcp2 t) := by
    intro t c' hc'
    simp [Timers.due, hsame c' hc', hmax]
  constructor
  · intro hkeeps
    obtain ⟨hlate, hearly⟩ := hkeeps
    have hagrees : timed.clock.Agrees (timers.expiry c) := by
      refine (EndpointClock.agrees_iff _).mpr ⟨fun t ht => ?_, fun t ht => ?_⟩
      · obtain ⟨c', hvisited, hc'⟩ := hlate t ht
        exact (hdue t c' hc').mp ((Endpoint.mem_poll_visited h).mp hvisited).1
      · exact (hnil t).mp (hearly t ht)
    refine ⟨fun c' hc' => (hsame c' hc').symm ▸ hagrees, fun t c' hc' hdue' => ?_⟩
    have hle : timed.clock.fromNgtcp2 (timers.expiry c) ≤ t := by
      by_contra hlt
      have hbefore := (hnil t).mp (hearly t (UInt64.not_le.mp hlt))
      exact UInt64.not_lt.mpr ((hdue t c' hc').mp hdue') hbefore
    obtain ⟨first, hvisited, hfirst⟩ := hlate t hle
    obtain ⟨-, p, hget, hreaches⟩ := (Endpoint.mem_poll_visited h).mp hvisited
    exact ⟨p, first, hget, hfirst, hreaches⟩
  · intro hintime
    obtain ⟨hlate, hearly⟩ := (EndpointClock.agrees_iff _).mp (hintime.agrees c hc)
    refine ⟨fun t ht => ?_, fun t ht => (hnil t).mpr (hearly t ht)⟩
    have hpassed := hlate t ht
    obtain ⟨p, first, hget, hfirst, hreaches⟩ :=
      hintime.reaches t c hc ((hdue t c hc).mpr hpassed)
    exact ⟨first, (Endpoint.mem_poll_visited h).mpr
      ⟨(hdue t first hfirst).mpr hpassed, p, hget, hreaches⟩, hfirst⟩

/-- A deadline that is returned is kept exactly when the clocks agree on it and the polls come to the
    connection that it is for; the conversions never wrap. -/
theorem deadline_kept_iff {peerIdValid : Bytes → Bool} {timed : TimedEndpoint}
    (h : timed.Reachable peerIdValid) (timers : Timers) (d : UInt64)
    (hd : timed.endpoint.nextDeadline timers timed.clock = .ok d) :
    (timed.KeepsDeadline timers d ↔ timed.InTime timers) ∧ timed.clock.NoWrap :=
  ⟨keepsDeadline_iff (reachable_listed h) hd, timed.clock.noWrap⟩

/-- Two connections were dialed, and the clock was read at its origin. -/
def observed : TimedEndpoint := twoDialed.step (fun _ => true) (.observe 7)

/-- One connection expires some nanoseconds after the origin, the other at no time. -/
def expires (expiry : UInt64) : Timers where
  expiry c := if c = 0 then expiry else timeMax
  handleExpiry _ _ := .ok ()

theorem observed_reachable : observed.Reachable fun _ => true :=
  ⟨AuthRun.sampleConfig, 8,
    [.call (.dial peerAddr {}), .call (.dial peerAddr {}), .observe 7], rfl⟩

/-- An expiry of three microseconds after the origin. -/
theorem deadline_kept_whole : observed.endpoint.nextDeadline (expires 3000) observed.clock = .ok 10 ∧
    observed.KeepsDeadline (expires 3000) 10 := by
  have hd : observed.endpoint.nextDeadline (expires 3000) observed.clock = .ok 10 := by
    decide +kernel
  refine ⟨hd, (deadline_kept_iff observed_reachable (expires 3000) 10 hd).1.mpr ?_⟩
  have hfirst : ∀ c, (expires 3000).Earliest observed.endpoint c → c = 0 := by
    intro c hc
    have hle := hc.2 0 (by decide +kernel)
    by_contra hne
    rw [show (expires 3000).expiry c = timeMax from if_neg hne] at hle
    exact absurd hle (by decide +kernel)
  refine ⟨fun c hc => ?_, fun t c hc _ => ⟨0, 0, by decide +kernel, hfirst c hc ▸ hc, ?_⟩⟩
  · obtain rfl := hfirst c hc
    decide +kernel
  · exact ⟨Nat.zero_lt_of_lt (by decide +kernel : 0 + 0 < observed.endpoint.connections.length),
      trivial⟩

/-- An expiry of one and a half microseconds: the deadline is after one, and the poll there is told a
    time that is too early. -/
theorem deadline_not_kept : ¬ ∀ timed : TimedEndpoint, timed.Reachable (fun _ => true) →
    ∀ (timers : Timers) (d : UInt64), timed.endpoint.nextDeadline timers timed.clock = .ok d →
      timed.KeepsDeadline timers d := by
  intro hall
  have hkeeps := hall observed observed_reachable (expires 1500) 8 (by decide +kernel)
  obtain ⟨c, hvisited, -⟩ := hkeeps.late 8 (UInt64.le_refl _)
  have hnone : (observed.poll (expires 1500) 8).visited = [] := by decide +kernel
  rw [hnone] at hvisited
  cases hvisited

end TimedEndpoint

end LeanLibp2p.Quic
