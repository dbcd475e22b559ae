import LeanLibp2p.Lib.Comp
import LeanLibp2p.Lib.Run

/-!
# Traces

A system whose steps leave notes. A path collects the notes of its steps; a monitor reads a list of
notes one by one, and is tied to the system by a relation that every step keeps. A computation that
keeps its notes in its state follows the system when what it does is a path with the notes that it
adds.
-/

namespace LeanLibp2p.Lib

variable {σ α μ : Type}

/-- Steps, one after the other, with what they note. -/
inductive Path (step : σ → List α → σ → Prop) : σ → List α → σ → Prop where
  | nil (s : σ) : Path step s [] s
  | cons {s s' s'' : σ} {notes notes' : List α} (hstep : step s notes s')
      (hpath : Path step s' notes' s'') : Path step s (notes ++ notes') s''

namespace Path

variable {step : σ → List α → σ → Prop} {s s' s'' : σ} {notes notes' : List α}

theorem single (h : step s notes s') : Path step s notes s' := by
  have hpath := Path.cons h (Path.nil s')
  rwa [List.append_nil] at hpath

theorem append (h : Path step s notes s') (h' : Path step s' notes' s'') :
    Path step s (notes ++ notes') s'' := by
  induction h with
  | nil => exact h'
  | cons hstep _ ih =>
    rw [List.append_assoc]
    exact .cons hstep (ih h')

/-- What every step keeps, a path keeps. -/
theorem keeps {I : σ → Prop} (hstep : ∀ s notes s', I s → step s notes s' → I s')
    (h : Path step s notes s') (hs : I s) : I s' := by
  induction h with
  | nil => exact hs
  | cons hfirst _ ih => exact ih (hstep _ _ _ hs hfirst)

end Path

/-! ## Computations -/

namespace Comp

variable {ω ε β γ : Type}

/-- From `w` the computation does what a path does, notes the same, and ends in `Q`. `view` is the
    part of its state that the steps are about and `log` its notes. -/
def Follows (step : σ → List α → σ → Prop) (view : ω → σ) (log : ω → List α) (c : Comp ω ε β) (w : ω)
    (Q : Except ε β → ω → Prop) : Prop :=
  ∃ notes, log (c w).2 = log w ++ notes ∧ Path step (view w) notes (view (c w).2) ∧
    Q (c w).1 (c w).2

namespace Follows

variable {step : σ → List α → σ → Prop} {view : ω → σ} {log : ω → List α} {w w' : ω}
  {Q Q' : Except ε β → ω → Prop}

theorem weaken {c : Comp ω ε β} (h : Follows step view log c w Q) (hpost : ∀ r w', Q r w' → Q' r w') :
    Follows step view log c w Q' := by
  rcases h with ⟨notes, hlog, hpath, hq⟩
  exact ⟨notes, hlog, hpath, hpost _ _ hq⟩

/-- A computation that leaves view and log alone. -/
theorem of_still {c : Comp ω ε β} (hview : view (c w).2 = view w) (hlog : log (c w).2 = log w)
    (hpost : Q (c w).1 (c w).2) : Follows step view log c w Q := by
  refine ⟨[], by rw [hlog, List.append_nil], ?_, hpost⟩
  rw [hview]
  exact .nil _

/-- A computation that does one step. -/
theorem of_step {c : Comp ω ε β} {notes : List α} (hlog : log (c w).2 = log w ++ notes)
    (hstep : step (view w) notes (view (c w).2)) (hpost : Q (c w).1 (c w).2) :
    Follows step view log c w Q :=
  ⟨notes, hlog, .single hstep, hpost⟩

/-- The computation goes on as another one, behind a step. -/
theorem step_then {c c' : Comp ω ε β} {notes : List α} (hrun : c w = c' w')
    (hlog : log w' = log w ++ notes) (hstep : step (view w) notes (view w'))
    (h : Follows step view log c' w' Q) : Follows step view log c w Q := by
  rcases h with ⟨notes', hlog', hpath, hq⟩
  unfold Follows
  rw [hrun]
  refine ⟨notes ++ notes', ?_, .cons hstep hpath, hq⟩
  rw [hlog', hlog, List.append_assoc]

/-- The computation goes on as another one, from where the steps see no difference. -/
theorem still_then {c c' : Comp ω ε β} (hrun : c w = c' w') (hview : view w' = view w)
    (hlog : log w' = log w) (h : Follows step view log c' w' Q) : Follows step view log c w Q := by
  unfold Follows at h ⊢
  rw [hrun]
  rwa [hview, hlog] at h

theorem pure {b : β} (h : Q (.ok b) w) : Follows step view log (pure b : Comp ω ε β) w Q :=
  of_still rfl rfl h

theorem fail {e : ε} (h : Q (.error e) w) : Follows step view log (fail e : Comp ω ε β) w Q :=
  of_still rfl rfl h

theorem ofResult {r : Except ε β} (h : Q r w) :
    Follows step view log (ofResult r : Comp ω ε β) w Q :=
  of_still rfl rfl h

theorem bind {x : Comp ω ε γ} {f : γ → Comp ω ε β} {M : Except ε γ → ω → Prop}
    (hx : Follows step view log x w M)
    (hok : ∀ a w', M (.ok a) w' → Follows step view log (f a) w' Q)
    (herror : ∀ e w', M (.error e) w' → Q (.error e) w') :
    Follows step view log (x >>= f) w Q := by
  rcases hx with ⟨notes, hlog, hpath, hm⟩
  rcases hrun : x w with ⟨e | a, w'⟩
  · rw [hrun] at hlog hpath hm
    unfold Follows
    rw [bind_of_error hrun]
    exact ⟨notes, hlog, hpath, herror e w' hm⟩
  · rw [hrun] at hlog hpath hm
    rcases hok a w' hm with ⟨notes', hlog', hpath', hq⟩
    unfold Follows
    rw [bind_of_ok hrun]
    refine ⟨notes ++ notes', ?_, hpath.append hpath', hq⟩
    rw [hlog', hlog, List.append_assoc]

theorem ite {b : Prop} [Decidable b] {x y : Comp ω ε β} (hx : b → Follows step view log x w Q)
    (hy : ¬ b → Follows step view log y w Q) :
    Follows step view log (if b then x else y) w Q := by
  by_cases hb : b
  · rw [if_pos hb]
    exact hx hb
  · rw [if_neg hb]
    exact hy hb

/-- A loop follows the steps when its body does, from an invariant back to it. -/
theorem forOk {body : β → Comp ω ε Unit} {I : ω → Prop} {E : ε → ω → Prop} {xs : List β}
    (h : ∀ x ∈ xs, ∀ w, I w → Follows step view log (body x) w fun r w' =>
      (r = .ok () → I w') ∧ ∀ e, r = .error e → E e w') (hw : I w) :
    Follows step view log (Comp.forOk body xs) w fun r w' =>
      (r = .ok () → I w') ∧ ∀ e, r = .error e → E e w' := by
  induction xs generalizing w with
  | nil => exact pure ⟨fun _ => hw, by rintro e ⟨⟩⟩
  | cons x xs ih =>
    refine bind (h x List.mem_cons_self w hw) (fun a w' hm => ?_) fun e w' hm => ?_
    · exact ih (fun y hy => h y (List.mem_cons_of_mem x hy)) (hm.1 rfl)
    · exact ⟨by rintro ⟨⟩, fun e' he' => by cases he'; exact hm.2 e rfl⟩

/-- A loop that does not fail, and settles each of its elements for good. -/
theorem forOk_settles {body : β → Comp ω ε Unit} {I : ω → Prop} {D : β → ω → Prop} {xs : List β}
    (h : ∀ x ∈ xs, ∀ w, I w → Follows step view log (body x) w fun r w' =>
      r = .ok () ∧ I w' ∧ D x w' ∧ ∀ y, D y w → D y w') (hw : I w) :
    Follows step view log (Comp.forOk body xs) w fun r w' =>
      r = .ok () ∧ I w' ∧ ∀ x, x ∈ xs ∨ D x w → D x w' := by
  induction xs generalizing w with
  | nil =>
    refine pure ⟨rfl, hw, ?_⟩
    rintro x (hx | hx)
    · cases hx
    · exact hx
  | cons x xs ih =>
    refine bind (h x List.mem_cons_self w hw) (fun a w' hm => ?_) fun e w' hm => ?_
    · refine (ih (fun y hy => h y (List.mem_cons_of_mem x hy)) hm.2.1).weaken fun r w'' hq => ?_
      refine ⟨hq.1, hq.2.1, ?_⟩
      rintro y (hy | hy)
      · rcases List.mem_cons.mp hy with rfl | hy
        · exact hq.2.2 y (.inr hm.2.2.1)
        · exact hq.2.2 y (.inl hy)
      · exact hq.2.2 y (.inr (hm.2.2.2 y hy))
    · cases hm.1

end Follows

end Comp

end LeanLibp2p.Lib
