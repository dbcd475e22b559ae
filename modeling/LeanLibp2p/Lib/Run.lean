import Mathlib.Data.List.Basic

/-!
# Runs of a state machine

A machine that takes one action after the other. `Meets` says that a condition on a state and its
action holds all along a run, and `run_keeps` is the induction over runs: what every step keeps
under the condition, a run that meets it keeps.
-/

namespace LeanLibp2p.Lib

variable {σ α : Type} (step : σ → α → σ)

/-- The state after some actions. -/
def runFrom (s : σ) (actions : List α) : σ := actions.foldl step s

@[simp] theorem runFrom_nil (s : σ) : runFrom step s [] = s := rfl

@[simp] theorem runFrom_cons (s : σ) (action : α) (actions : List α) :
    runFrom step s (action :: actions) = runFrom step (step s action) actions := rfl

theorem runFrom_append (s : σ) (actions actions' : List α) :
    runFrom step s (actions ++ actions') = runFrom step (runFrom step s actions) actions' :=
  List.foldl_append ..

/-- Each action satisfies `P` in the state in which it is taken. -/
def RunMeets (P : σ → α → Prop) : σ → List α → Prop
  | _, [] => True
  | s, action :: actions => P s action ∧ RunMeets P (step s action) actions

instance RunMeets.decidable (P : σ → α → Prop) [∀ s action, Decidable (P s action)] :
    (s : σ) → (actions : List α) → Decidable (RunMeets step P s actions)
  | _, [] => .isTrue trivial
  | s, action :: actions =>
    have := RunMeets.decidable P (step s action) actions
    inferInstanceAs (Decidable (P s action ∧ RunMeets step P (step s action) actions))

variable {step} {P Q : σ → α → Prop} {I : σ → Prop} {s : σ} {actions actions' : List α}

theorem runMeets_of_forall (h : ∀ s action, P s action) : RunMeets step P s actions := by
  induction actions generalizing s with
  | nil => trivial
  | cons action actions ih => exact ⟨h s action, ih⟩

theorem RunMeets.mono (h : ∀ s action, P s action → Q s action)
    (hrun : RunMeets step P s actions) : RunMeets step Q s actions := by
  induction actions generalizing s with
  | nil => trivial
  | cons action actions ih => exact ⟨h s action hrun.1, ih hrun.2⟩

theorem RunMeets.and (hP : RunMeets step P s actions) (hQ : RunMeets step Q s actions) :
    RunMeets step (fun s action => P s action ∧ Q s action) s actions := by
  induction actions generalizing s with
  | nil => trivial
  | cons action actions ih => exact ⟨⟨hP.1, hQ.1⟩, ih hP.2 hQ.2⟩

/-- A run in two parts. -/
theorem runMeets_append : RunMeets step P s (actions ++ actions') ↔
    RunMeets step P s actions ∧ RunMeets step P (runFrom step s actions) actions' := by
  induction actions generalizing s with
  | nil => exact (and_iff_right trivial).symm
  | cons action actions ih => exact (and_congr_right fun _ => ih).trans and_assoc.symm

/-- A run meets a condition where each of its steps does. -/
theorem runMeets_iff_prefix : RunMeets step P s actions ↔
    ∀ before action, before ++ [action] <+: actions → P (runFrom step s before) action := by
  induction actions generalizing s with
  | nil =>
    refine ⟨fun _ before action hpre => ?_, fun _ => trivial⟩
    have hlen := hpre.length_le
    rw [List.length_append, List.length_singleton, List.length_nil] at hlen
    omega
  | cons first actions ih =>
    constructor
    · rintro ⟨hfirst, hrest⟩ before action hpre
      cases before with
      | nil =>
        obtain ⟨rfl, -⟩ := List.cons_prefix_cons.mp hpre
        exact hfirst
      | cons head before =>
        obtain ⟨rfl, htail⟩ := List.cons_prefix_cons.mp hpre
        exact ih.mp hrest before action htail
    · intro hall
      have hnil : [first] <+: first :: actions := ⟨actions, rfl⟩
      refine ⟨hall [] first hnil, ih.mpr fun before action hpre => ?_⟩
      exact hall (first :: before) action (List.cons_prefix_cons.mpr ⟨rfl, hpre⟩)

/-- What every step keeps without a condition, a run keeps. -/
theorem runFrom_keeps (hs : I s) (hstep : ∀ s action, I s → I (step s action)) :
    I (runFrom step s actions) := by
  induction actions generalizing s with
  | nil => exact hs
  | cons action actions ih => exact ih (hstep s action hs)

/-- What every step keeps, a run keeps. -/
theorem run_keeps (hrun : RunMeets step P s actions) (hs : I s)
    (hstep : ∀ s action, P s action → I s → I (step s action)) :
    I (runFrom step s actions) := by
  induction actions generalizing s with
  | nil => exact hs
  | cons action actions ih => exact ih hrun.2 (hstep s action hrun.1 hs)

/-- What an invariant gives, the run meets on its way. -/
theorem RunMeets.of_keeps (hrun : RunMeets step P s actions) (hs : I s)
    (hstep : ∀ s action, P s action → I s → I (step s action))
    (hmeets : ∀ s action, I s → Q s action) : RunMeets step Q s actions := by
  induction actions generalizing s with
  | nil => trivial
  | cons action actions ih => exact ⟨hmeets s action hs, ih hrun.2 (hstep s action hrun.1 hs)⟩

end LeanLibp2p.Lib
