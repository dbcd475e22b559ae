import LeanLibp2p.Host.Consistent

/-!
# Functions as steps

What it means that a function of the host is a sequence of its steps: from consistent tables it adds
to the trace what the steps note, and leaves the tables consistent. The smallest functions, and those
that end a stream, are such.
-/

namespace LeanLibp2p.Host

open LeanLibp2p.Lib

variable {τ α β : Type} {config : HostConfig τ} {w w' : World τ}

@[simp] theorem modifyHost_apply (f : LeanLibp2p.Host → LeanLibp2p.Host) (w : World τ) :
    modifyHost f w = (.ok (), { w with host := f w.host }) := rfl

@[simp] theorem modifyResult_apply (f : DriveResult → DriveResult) (w : World τ) :
    modifyResult f w = (.ok (), { w with result := f w.result }) := rfl

@[simp] theorem note_apply (n : Note) (w : World τ) :
    note n w = (.ok (), { w with trace := w.trace ++ [n] }) := rfl

@[simp] theorem onTransport_apply (c : Comp τ HostErr α) (w : World τ) :
    onTransport c w = ((c w.env).1, { w with env := (c w.env).2 }) := rfl

theorem transport_bind (c : Comp τ HostErr β) (f : Except HostErr β → HostM τ α) (w : World τ) :
    (Comp.result (onTransport c) >>= f) w = f (c w.env).1 { w with env := (c w.env).2 } := rfl

/-- From `w` the function does steps of the host, and ends in `Q`. -/
def Refines (config : HostConfig τ) (c : HostM τ α) (w : World τ)
    (Q : Except HostErr α → World τ → Prop) : Prop :=
  Consistent config w.host →
    Comp.Follows (HostStep config) World.host World.trace c w fun r w' =>
      Consistent config w'.host ∧ Q r w'

namespace Refines

variable {Q Q' : Except HostErr α → World τ → Prop}

theorem assume {c : HostM τ α} (h : Consistent config w.host → Refines config c w Q) :
    Refines config c w Q := fun hw => h hw hw

theorem weaken {c : HostM τ α} (h : Refines config c w Q)
    (hpost : ∀ r w', Consistent config w'.host → Q r w' → Q' r w') : Refines config c w Q' :=
  fun hw => (h hw).weaken fun r w' hq => ⟨hq.1, hpost r w' hq.1 hq.2⟩

theorem of_step {c : HostM τ α} {notes : List Note} (hlog : (c w).2.trace = w.trace ++ notes)
    (hstep : HostStep config w.host notes (c w).2.host) (hpost : Q (c w).1 (c w).2) :
    Refines config c w Q :=
  fun hw => .of_step hlog hstep ⟨hstep.consistent hw, hpost⟩

theorem step_done {c : HostM τ α} {notes : List Note} {r : Except HostErr α}
    (hrun : c w = (r, w')) (hlog : w'.trace = w.trace ++ notes)
    (hstep : HostStep config w.host notes w'.host) (hpost : Q r w') : Refines config c w Q := by
  have hfirst := congrArg Prod.fst hrun
  have hsecond := congrArg Prod.snd hrun
  refine @of_step τ α config w Q c notes ?_ ?_ ?_
  · rw [hsecond, hlog]
  · rwa [hsecond]
  · rwa [hfirst, hsecond]

theorem step_then {c c' : HostM τ α} {notes : List Note} (hrun : c w = c' w')
    (hlog : w'.trace = w.trace ++ notes) (hstep : HostStep config w.host notes w'.host)
    (h : Refines config c' w' Q) : Refines config c w Q :=
  fun hw => .step_then hrun hlog hstep (h (hstep.consistent hw))

theorem still_then {c c' : HostM τ α} (hrun : c w = c' w') (hhost : w'.host = w.host)
    (hlog : w'.trace = w.trace) (h : Refines config c' w' Q) : Refines config c w Q :=
  fun hw => .still_then hrun hhost hlog (h (by rwa [hhost]))

theorem of_still {c : HostM τ α} (hhost : (c w).2.host = w.host) (hlog : (c w).2.trace = w.trace)
    (hpost : Q (c w).1 (c w).2) : Refines config c w Q :=
  fun hw => .of_still hhost hlog ⟨by rwa [hhost], hpost⟩

theorem still_done {c : HostM τ α} {r : Except HostErr α} (hrun : c w = (r, w'))
    (hhost : w'.host = w.host) (hlog : w'.trace = w.trace) (hpost : Q r w') :
    Refines config c w Q := by
  have hfirst := congrArg Prod.fst hrun
  have hsecond := congrArg Prod.snd hrun
  refine @of_still τ α config w Q c ?_ ?_ ?_
  · rw [hsecond, hhost]
  · rw [hsecond, hlog]
  · rwa [hfirst, hsecond]

theorem pure {a : α} (h : Q (.ok a) w) : Refines config (pure a : HostM τ α) w Q :=
  fun hw => .pure ⟨hw, h⟩

theorem fail {e : HostErr} (h : Q (.error e) w) : Refines config (Comp.fail e : HostM τ α) w Q :=
  fun hw => .fail ⟨hw, h⟩

theorem ofResult {r : Except HostErr α} (h : Q r w) :
    Refines config (Comp.ofResult r : HostM τ α) w Q :=
  fun hw => .ofResult ⟨hw, h⟩

theorem read_bind {f : World τ → HostM τ α} (h : Refines config (f w) w Q) :
    Refines config (Comp.read id >>= f) w Q := h

theorem bind {x : HostM τ β} {f : β → HostM τ α} {M : Except HostErr β → World τ → Prop}
    (hx : Refines config x w M) (hok : ∀ b w', M (.ok b) w' → Refines config (f b) w' Q)
    (herror : ∀ e w', M (.error e) w' → Q (.error e) w') : Refines config (x >>= f) w Q :=
  fun hw => .bind (hx hw) (fun b w' hm => hok b w' hm.2 hm.1) fun e w' hm =>
    ⟨hm.1, herror e w' hm.2⟩

theorem ite {b : Prop} [Decidable b] {x y : HostM τ α} (hx : b → Refines config x w Q)
    (hy : ¬ b → Refines config y w Q) : Refines config (if b then x else y) w Q :=
  fun hw => .ite (fun hb => hx hb hw) fun hb => hy hb hw

theorem result {c : HostM τ α} {Q : Except HostErr (Except HostErr α) → World τ → Prop}
    (h : Refines config c w fun r => Q (.ok r)) : Refines config (Comp.result c) w Q := h

/-- A call of the transport. -/
theorem onTransport {c : Comp τ HostErr α} (h : Q (c w.env).1 { w with env := (c w.env).2 }) :
    Refines config (Host.onTransport c) w Q := of_still rfl rfl h

/-- A call of the transport whose result does not matter. -/
theorem transport_bind {c : Comp τ HostErr β} {f : Except HostErr β → HostM τ α}
    (h : ∀ r env, Refines config (f r) { w with env := env } Q) :
    Refines config (Comp.result (Host.onTransport c) >>= f) w Q :=
  still_then rfl rfl rfl (h (c w.env).1 (c w.env).2)

theorem modifyResult {f : DriveResult → DriveResult} {Q : Except HostErr Unit → World τ → Prop}
    (h : Q (.ok ()) { w with result := f w.result }) :
    Refines config (Host.modifyResult f) w Q := of_still rfl rfl h

theorem forOk {body : β → HostM τ Unit} {I : World τ → Prop} {E : HostErr → World τ → Prop}
    {xs : List β} (h : ∀ x ∈ xs, ∀ w, I w → Refines config (body x) w fun r w' =>
      (r = .ok () → I w') ∧ ∀ e, r = .error e → E e w') (hw : I w) :
    Refines config (Comp.forOk body xs) w fun r w' =>
      (r = .ok () → I w') ∧ ∀ e, r = .error e → E e w' := by
  intro hconsistent
  have hloop : Comp.Follows (HostStep config) World.host World.trace (Comp.forOk body xs) w
      fun r w' => (r = .ok () → Consistent config w'.host ∧ I w') ∧
        ∀ e, r = .error e → Consistent config w'.host ∧ E e w' := by
    apply Comp.Follows.forOk
    · intro x hx w hw
      refine (h x hx w hw.2 hw.1).weaken fun r w' hq => ?_
      exact ⟨fun hr => ⟨hq.1, hq.2.1 hr⟩, fun e he => ⟨hq.1, hq.2.2 e he⟩⟩
    · exact ⟨hconsistent, hw⟩
  refine hloop.weaken fun r w' hq => ?_
  cases r with
  | ok a => exact ⟨(hq.1 rfl).1, fun _ => (hq.1 rfl).2, by rintro e ⟨⟩⟩
  | error e =>
    refine ⟨(hq.2 e rfl).1, by rintro ⟨⟩, fun e' he' => ?_⟩
    cases he'
    exact (hq.2 e rfl).2

theorem forOk_settles {body : β → HostM τ Unit} {I : World τ → Prop} {D : β → World τ → Prop}
    {xs : List β} (h : ∀ x ∈ xs, ∀ w, I w → Refines config (body x) w fun r w' =>
      r = .ok () ∧ I w' ∧ D x w' ∧ ∀ y, D y w → D y w') (hw : I w) :
    Refines config (Comp.forOk body xs) w fun r w' =>
      r = .ok () ∧ I w' ∧ ∀ x, x ∈ xs ∨ D x w → D x w' := by
  intro hconsistent
  have hloop : Comp.Follows (HostStep config) World.host World.trace (Comp.forOk body xs) w
      fun r w' => r = .ok () ∧ (Consistent config w'.host ∧ I w') ∧
        ∀ x, x ∈ xs ∨ D x w → D x w' := by
    apply Comp.Follows.forOk_settles
    · intro x hx w hw
      refine (h x hx w hw.2 hw.1).weaken fun r w' hq => ?_
      exact ⟨hq.2.1, ⟨hq.1, hq.2.2.1⟩, hq.2.2.2⟩
    · exact ⟨hconsistent, hw⟩
  exact hloop.weaken fun r w' hq => ⟨hq.2.1.1, hq.1, hq.2.1.2, hq.2.2⟩

end Refines

/-! ## Events -/

/-- The queue has room for `n` more events. -/
def Room (config : HostConfig τ) (n : Nat) (host : LeanLibp2p.Host) : Prop :=
  host.events.length + n ≤ config.eventCapacity

theorem Room.mono {n m : Nat} {host : LeanLibp2p.Host} (h : Room config n host) (hle : m ≤ n) :
    Room config m host := by
  unfold Room at h ⊢
  omega

/-- Where there is room, an event is queued. -/
theorem hostEventPush_run (hroom : Room config 1 w.host) (event : HostEvent) :
    hostEventPush config event w = (.ok (), { w with
      host := pushEvent event w.host
      result :=
        { w.result with hostEvents := w.result.hostEvents + 1, madeProgress := true }
      trace := w.trace ++ [.pushed w.host event] }) := by
  unfold Room at hroom
  unfold hostEventPush
  rw [Comp.read_id_bind, if_neg (by omega)]
  rfl

/-! ## Connections -/

/-- A failure of the transport itself. -/
def TransportFails (config : HostConfig τ) : Prop :=
  (∃ now ready env e, (config.transport.drive now ready env).1 = .error e) ∨
    (∃ env e, (config.transport.nextEvent env).1 = .error e ∧ e ≠ .wouldBlock) ∨
    ∃ connRelease conn env e, config.transport.connRelease = some connRelease ∧
      (connRelease conn env).1 = .error e ∧ e ≠ .wouldBlock

theorem hostConnRelease_run (transportConn : Nat) (w : World τ) :
    ∃ env r, hostConnRelease config transportConn w = (r, { w with env := env }) ∧
      ∀ e, r = .error e → TransportFails config := by
  unfold hostConnRelease
  cases hrelease : config.transport.connRelease with
  | none => exact ⟨w.env, .ok true, rfl, by rintro e ⟨⟩⟩
  | some connRelease =>
    dsimp only
    rw [transport_bind]
    cases hres : (connRelease transportConn w.env).1 with
    | ok _ => exact ⟨_, .ok true, rfl, by rintro e ⟨⟩⟩
    | error e =>
      dsimp only
      by_cases he : e = .wouldBlock
      · rw [if_pos he]
        exact ⟨_, .ok false, rfl, by rintro e ⟨⟩⟩
      · rw [if_neg he]
        exact ⟨_, .error e, rfl, fun _ _ =>
          .inr (.inr ⟨connRelease, transportConn, w.env, e, hrelease, hres, he⟩)⟩

/-- `host_conn_try_recycle`, with what does not depend on idle connections. -/
theorem hostConnTryRecycle_refines {I : LeanLibp2p.Host → Prop} (hw : I w.host) (i : Nat)
    (hclear : Idle (w.host.conns i) → I (setConn i {} w.host)) :
    Refines config (hostConnTryRecycle config i) w fun r w' =>
      I w'.host ∧ ∀ e, r = .error e → TransportFails config := by
  unfold hostConnTryRecycle
  apply Refines.read_bind
  refine .ite (fun hidle => ?_) fun _ => .pure ⟨hw, by rintro e ⟨⟩⟩
  rcases @hostConnRelease_run τ config (w.host.conns i).transportConn w with ⟨env, r, hrun, hfails⟩
  cases r with
  | error e =>
    exact .still_done (Comp.bind_of_error hrun) rfl rfl ⟨hw, fun _ _ => hfails e rfl⟩
  | ok released =>
    refine Refines.still_then (Comp.bind_of_ok hrun) rfl rfl ?_
    cases released with
    | false => exact .pure ⟨hw, by rintro e ⟨⟩⟩
    | true => exact .of_step rfl (.recycles hidle) ⟨hclear hidle, by rintro e ⟨⟩⟩

end LeanLibp2p.Host
