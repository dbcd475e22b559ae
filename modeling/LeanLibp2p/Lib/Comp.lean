import Mathlib.Data.List.Basic

/-!
# Computations that keep their state on failure

A C function that updates an object and returns a result code leaves the object as
far as it came, whatever the code says. `Comp σ ε α` is that shape: a state goes in,
and a value or an error comes out beside the state reached. `Triple` is the
partial-correctness judgement over such computations, with one rule for each way of
building them; `forOk` is the counted loop that stops at the first result that is
not OK.
-/

namespace LeanLibp2p.Lib

/-- A computation over `σ` that returns an `α` or an error `ε`. -/
def Comp (σ ε α : Type) : Type := σ → Except ε α × σ

namespace Comp

variable {σ τ ε α β : Type} {body : α → Comp σ ε Unit} {x : Comp σ ε α} {f : α → Comp σ ε β}

instance : Monad (Comp σ ε) where
  pure a := fun s => (.ok a, s)
  bind x f := fun s =>
    match x s with
    | (.ok a, s') => f a s'
    | (.error e, s') => (.error e, s')

/-- End with the error `e`. -/
def fail (e : ε) : Comp σ ε α := fun s => (.error e, s)

/-- Read a part of the state. -/
def read (f : σ → α) : Comp σ ε α := fun s => (.ok (f s), s)

/-- Update the state. -/
def update (f : σ → σ) : Comp σ ε Unit := fun s => (.ok (), f s)

/-- End with a result that was computed without touching the state. -/
def ofResult (r : Except ε α) : Comp σ ε α := fun s => (r, s)

/-- Run `c` only if the condition holds. -/
def onlyIf (b : Bool) (c : Comp σ ε Unit) : Comp σ ε Unit := if b then c else pure ()

/-- Run `c` and hand its result code to the caller instead of stopping at an error. -/
def result (c : Comp σ ε α) : Comp σ ε (Except ε α) := fun s => (.ok (c s).1, (c s).2)

/-- Treat the errors that `p` selects as success. -/
def absorb (p : ε → Bool) (c : Comp σ ε Unit) : Comp σ ε Unit := fun s =>
  match c s with
  | (.ok _, s') => (.ok (), s')
  | (.error e, s') => if p e then (.ok (), s') else (.error e, s')

/-- Run a computation over one component of a larger state. -/
def zoom (get : σ → τ) (set : τ → σ → σ) (c : Comp τ ε α) : Comp σ ε α := fun s =>
  ((c (get s)).1, set (c (get s)).2 s)

/-- `for (x in xs; result == OK; ) result = body(x)`. -/
def forOk (body : α → Comp σ ε Unit) : List α → Comp σ ε Unit
  | [] => pure ()
  | x :: xs => body x >>= fun _ => forOk body xs

@[simp] theorem pure_apply (a : α) (s : σ) : (pure a : Comp σ ε α) s = (.ok a, s) := rfl

@[simp] theorem fail_apply (e : ε) (s : σ) : (fail e : Comp σ ε α) s = (.error e, s) := rfl

@[simp] theorem read_apply (f : σ → α) (s : σ) : (read f : Comp σ ε α) s = (.ok (f s), s) := rfl

@[simp] theorem update_apply (f : σ → σ) (s : σ) : (update f : Comp σ ε Unit) s = (.ok (), f s) :=
  rfl

@[simp] theorem ofResult_apply (r : Except ε α) (s : σ) : (ofResult r : Comp σ ε α) s = (r, s) :=
  rfl

theorem bind_apply (x : Comp σ ε α) (f : α → Comp σ ε β) (s : σ) :
    (x >>= f) s =
      match x s with
      | (.ok a, s') => f a s'
      | (.error e, s') => (.error e, s') := rfl

theorem bind_of_ok {s s' : σ} {a : α} (h : x s = (.ok a, s')) : (x >>= f) s = f a s' := by
  simp [bind_apply, h]

theorem bind_of_error {s s' : σ} {e : ε}
    (h : x s = (.error e, s')) : (x >>= f) s = (.error e, s') := by
  simp [bind_apply, h]

theorem bind_eq {x y : Comp σ ε α} {f : α → Comp σ ε β} {s s' : σ} (h : x s = y s') :
    (x >>= f) s = (y >>= f) s' := by
  simp [bind_apply, h]

theorem read_id_bind (f : σ → Comp σ ε β) (s : σ) : (read id >>= f) s = f s s := rfl

theorem bind_assoc {γ : Type} (x : Comp σ ε α) (f : α → Comp σ ε β) (g : β → Comp σ ε γ) :
    x >>= f >>= g = x >>= fun a => f a >>= g := by
  funext s
  rcases hx : x s with ⟨e | a, s'⟩
  · rw [bind_of_error hx, bind_of_error (bind_of_error hx)]
  · rw [bind_of_ok hx, bind_apply, bind_of_ok hx]
    rfl

theorem absorb_state (p : ε → Bool) (c : Comp σ ε Unit) (s : σ) :
    (absorb p c s).2 = (c s).2 := by
  unfold absorb
  rcases c s with ⟨e | a, s'⟩
  · by_cases h : p e = true
    · simp [h]
    · simp [h]
  · rfl

theorem result_of_run {c : Comp σ ε α} {s s' : σ} {res : Except ε α} (h : c s = (res, s')) :
    result c s = (.ok res, s') := by
  unfold result
  rw [h]

theorem of_result {c : Comp σ ε α} {s s' : σ} {res : Except ε α}
    (h : result c s = (.ok res, s')) : c s = (res, s') := by
  rcases Prod.mk.inj h with ⟨hres, hstate⟩
  exact Prod.ext (Except.ok.inj hres) hstate

/-- A bind that succeeds splits into its two halves. -/
theorem ok_of_bind {s s'' : σ} {b : β}
    (h : (x >>= f) s = (.ok b, s'')) : ∃ a s', x s = (.ok a, s') ∧ f a s' = (.ok b, s'') := by
  rcases hx : x s with ⟨r, s'⟩
  cases r with
  | error e => simp [bind_of_error hx] at h
  | ok a => exact ⟨a, s', rfl, by rwa [bind_of_ok hx] at h⟩

/-- What holds after the first half fails, and after the second half where it does not, holds
    after both. -/
theorem after_bind {s : σ} {Q : σ → Prop} (herror : ∀ e s', x s = (.error e, s') → Q s')
    (hok : ∀ a s', x s = (.ok a, s') → Q (f a s').2) : Q ((x >>= f) s).2 := by
  rcases hx : x s with ⟨e | a, s'⟩
  · rw [bind_of_error hx]
    exact herror e s' hx
  · rw [bind_of_ok hx]
    exact hok a s' hx

/-- The same where the first half meets the condition either way. -/
theorem keeps_bind {s : σ} {I : σ → Prop} (hx : I (x s).2)
    (hf : ∀ a s', x s = (.ok a, s') → I s' → I (f a s').2) : I ((x >>= f) s).2 := by
  refine after_bind (fun e s' hrun => ?_) fun a s' hrun => hf a s' hrun ?_
  · rwa [hrun] at hx
  · rwa [hrun] at hx

@[simp] theorem forOk_nil (body : α → Comp σ ε Unit) : forOk body [] = pure () := rfl

@[simp] theorem forOk_cons (body : α → Comp σ ε Unit) (x : α) (xs : List α) :
    forOk body (x :: xs) = body x >>= fun _ => forOk body xs := rfl

/-- `P` holds of each element in the state in which the loop comes to it. -/
def Visits (body : α → Comp σ ε Unit) (P : α → σ → Prop) : List α → σ → Prop
  | [], _ => True
  | x :: xs, s => P x s ∧ ∀ s', body x s = (.ok (), s') → Visits body P xs s'

/-- The condition is tested along the loop. -/
instance Visits.decidable (body : α → Comp σ ε Unit) (P : α → σ → Prop)
    [∀ x s, Decidable (P x s)] : (xs : List α) → (s : σ) → Decidable (Visits body P xs s)
  | [], _ => .isTrue trivial
  | x :: xs, s =>
    match hbody : body x s with
    | (.ok (), s') =>
      have := Visits.decidable body P xs s'
      decidable_of_iff (P x s ∧ Visits body P xs s') (and_congr_right fun _ =>
        ⟨fun h s'' hrun => by cases hbody.symm.trans hrun; exact h, fun h => h s' hbody⟩)
    | (.error _, _) =>
      decidable_of_iff (P x s) ⟨fun h => ⟨h, fun s'' hrun => by cases hbody.symm.trans hrun⟩,
        fun h => h.1⟩

/-- `Q` holds of the result of `c` and the state it leaves, if it does not fail. -/
def Yields (c : Comp σ ε α) (s : σ) (Q : α → σ → Prop) : Prop := ∀ a s', c s = (.ok a, s') → Q a s'

instance Yields.decidable (c : Comp σ ε α) (s : σ) (Q : α → σ → Prop)
    [∀ a s', Decidable (Q a s')] : Decidable (Yields c s Q) :=
  match hc : c s with
  | (.ok a, s') =>
    decidable_of_iff (Q a s')
      ⟨fun h a' s'' hrun => by cases hc.symm.trans hrun; exact h, fun h => h a s' hc⟩
  | (.error _, _) => .isTrue fun a' s'' hrun => by cases hc.symm.trans hrun

/-- What the whole yields, its second half does. -/
theorem Yields.of_bind {s s' : σ} {a : α} {Q : β → σ → Prop}
    (h : Yields (x >>= f) s Q) (hx : x s = (.ok a, s')) : Yields (f a) s' Q :=
  fun b s'' hrun => h b s'' (by rw [bind_of_ok hx, hrun])

/-- A condition that is only met under an assumption is met under it by each element. -/
theorem visits_imp {P : α → σ → Prop} {U : Prop} {xs : List α} {s : σ}
    (h : U → Visits body P xs s) : Visits body (fun x s => U → P x s) xs s := by
  induction xs generalizing s with
  | nil => trivial
  | cons x xs ih => exact ⟨fun hU => (h hU).1, fun s' hbody => ih fun hU => (h hU).2 s' hbody⟩

theorem Visits.mono {P Q : α → σ → Prop} (h : ∀ x s, P x s → Q x s)
    {xs : List α} {s : σ} (hxs : Visits body P xs s) : Visits body Q xs s := by
  induction xs generalizing s with
  | nil => trivial
  | cons x xs ih => exact ⟨h x s hxs.1, fun s' hbody => ih (hxs.2 s' hbody)⟩

theorem Visits.and {P Q : α → σ → Prop} {xs : List α} {s : σ}
    (hP : Visits body P xs s) (hQ : Visits body Q xs s) :
    Visits body (fun x s => P x s ∧ Q x s) xs s := by
  induction xs generalizing s with
  | nil => trivial
  | cons x xs ih => exact ⟨⟨hP.1, hQ.1⟩, fun s' hbody => ih (hP.2 s' hbody) (hQ.2 s' hbody)⟩

theorem visits_of_forall {P : α → σ → Prop} (h : ∀ x s, P x s)
    (xs : List α) (s : σ) : Visits body P xs s := by
  induction xs generalizing s with
  | nil => trivial
  | cons x xs ih => exact ⟨h x s, fun s' _ => ih s'⟩

/-- Under an invariant of the body, equivalent conditions are met alike. -/
theorem Visits.congr {P Q : α → σ → Prop} {I : σ → Prop}
    (hkeeps : ∀ x s, I s → I (body x s).2) (h : ∀ x s, I s → (P x s ↔ Q x s)) {xs : List α} {s : σ}
    (hs : I s) : Visits body P xs s ↔ Visits body Q xs s := by
  induction xs generalizing s with
  | nil => exact Iff.rfl
  | cons x xs ih =>
    refine and_congr (h x s hs) (forall₂_congr fun s' hrun => ih ?_)
    have hs' := hkeeps x s hs
    rwa [hrun] at hs'

/-- Each element that the loop comes to finds an invariant that the body keeps under a condition. -/
theorem visits_of_guarded {P Q : α → σ → Prop} {I : σ → Prop}
    (hkeeps : ∀ x s, P x s → I s → I (body x s).2) (h : ∀ x s, I s → Q x s) {xs : List α} {s : σ}
    (hxs : Visits body P xs s) (hs : I s) : Visits body Q xs s := by
  induction xs generalizing s with
  | nil => trivial
  | cons x xs ih =>
    refine ⟨h x s hs, fun s' hrun => ih (hxs.2 s' hrun) ?_⟩
    have hs' := hkeeps x s hxs.1 hs
    rwa [hrun] at hs'

/-- A loop keeps what its body keeps for each element that the loop comes to. -/
theorem forOk_of_visits {P : α → σ → Prop} {I : σ → Prop}
    (h : ∀ x s, P x s → I s → I (body x s).2) {xs : List α} {s : σ} (hxs : Visits body P xs s)
    (hs : I s) : I (forOk body xs s).2 := by
  induction xs generalizing s with
  | nil => exact hs
  | cons x xs ih =>
    have hx := h x s hxs.1 hs
    rcases hbody : body x s with ⟨_ | _, s'⟩
    · rw [forOk_cons, bind_of_error hbody]
      rwa [hbody] at hx
    · rw [forOk_cons, bind_of_ok hbody]
      rw [hbody] at hx
      exact ih (hxs.2 s' hbody) hx

/-- From every state in `P`, running `c` ends with a result and a state in `Q`. -/
def Triple (P : σ → Prop) (c : Comp σ ε α) (Q : Except ε α → σ → Prop) : Prop :=
  ∀ s, P s → Q (c s).1 (c s).2

/-- `c` keeps the invariant `I`, whether it succeeds or fails. -/
def Keeps (I : σ → Prop) (c : Comp σ ε α) : Prop := Triple I c fun _ => I

namespace Triple

variable {P P' : σ → Prop} {Q Q' : Except ε α → σ → Prop}

theorem weaken {c : Comp σ ε α} (h : Triple P c Q) (hpre : ∀ s, P' s → P s)
    (hpost : ∀ r s, Q r s → Q' r s) : Triple P' c Q' :=
  fun s hs => hpost _ _ (h s (hpre s hs))

theorem pure {a : α} (h : ∀ s, P s → Q (.ok a) s) : Triple P (pure a : Comp σ ε α) Q := h

theorem fail {e : ε} (h : ∀ s, P s → Q (.error e) s) : Triple P (fail e : Comp σ ε α) Q := h

theorem read {f : σ → α} (h : ∀ s, P s → Q (.ok (f s)) s) : Triple P (read f : Comp σ ε α) Q := h

theorem update {f : σ → σ} {Q : Except ε Unit → σ → Prop} (h : ∀ s, P s → Q (.ok ()) (f s)) :
    Triple P (update f : Comp σ ε Unit) Q := h

/-- The middle assertion is met after success; an error leaves with `Q` already. -/
theorem bind {M : α → σ → Prop} {Q : Except ε β → σ → Prop} {x : Comp σ ε α}
    {f : α → Comp σ ε β}
    (hx : Triple P x fun r s => (∀ a, r = .ok a → M a s) ∧ ∀ e, r = .error e → Q (.error e) s)
    (hf : ∀ a, Triple (M a) (f a) Q) : Triple P (x >>= f) Q := by
  intro s hs
  have h := hx s hs
  rcases hxs : x s with ⟨r, s'⟩
  rw [hxs] at h
  cases r with
  | ok a =>
    rw [bind_of_ok hxs]
    exact hf a s' (h.1 a rfl)
  | error e =>
    rw [bind_of_error hxs]
    exact h.2 e rfl

theorem ite {b : Prop} [Decidable b] {x y : Comp σ ε α} (hx : b → Triple P x Q)
    (hy : ¬ b → Triple P y Q) : Triple P (if b then x else y) Q := by
  by_cases hb : b
  · rw [if_pos hb]; exact hx hb
  · rw [if_neg hb]; exact hy hb

end Triple

namespace Keeps

variable {I : σ → Prop}

theorem pure (a : α) : Keeps I (pure a : Comp σ ε α) := fun _ hs => hs

theorem fail (e : ε) : Keeps I (fail e : Comp σ ε α) := fun _ hs => hs

theorem read (f : σ → α) : Keeps I (read f : Comp σ ε α) := fun _ hs => hs

theorem ofResult (r : Except ε α) : Keeps I (ofResult r : Comp σ ε α) := fun _ hs => hs

theorem update {f : σ → σ} (h : ∀ s, I s → I (f s)) : Keeps I (update f : Comp σ ε Unit) := h

theorem bind (hx : Keeps I x) (hf : ∀ a, Keeps I (f a)) : Keeps I (x >>= f) :=
  Triple.bind (M := fun _ => I)
    (fun s hs => ⟨fun _ _ => hx s hs, fun _ _ => hx s hs⟩) hf

theorem ofResult_bind {r : Except ε α} {f : α → Comp σ ε β} (h : ∀ a, r = .ok a → Keeps I (f a)) :
    Keeps I (Comp.ofResult r >>= f) := by
  cases r with
  | error e => exact fun _ hs => hs
  | ok a => exact h a rfl

theorem read_bind {g : σ → α} {f : α → Comp σ ε β} (h : ∀ s, I s → I (f (g s) s).2) :
    Keeps I (Comp.read g >>= f) := h

theorem ite {b : Prop} [Decidable b] {x y : Comp σ ε α} (hx : b → Keeps I x)
    (hy : ¬ b → Keeps I y) : Keeps I (if b then x else y) := Triple.ite hx hy

theorem onlyIf {b : Bool} {c : Comp σ ε Unit} (h : b = true → Keeps I c) :
    Keeps I (onlyIf b c) := Keeps.ite h fun _ => Keeps.pure _

theorem result {c : Comp σ ε α} (h : Keeps I c) : Keeps I (result c) := h

theorem absorb {p : ε → Bool} {c : Comp σ ε Unit} (h : Keeps I c) : Keeps I (absorb p c) := by
  intro s hs
  have h' : I (c s).2 := h s hs
  rcases hc : c s with ⟨r, s'⟩
  rw [hc] at h'
  cases r with
  | ok a => simpa [Comp.absorb, hc] using h'
  | error e =>
    by_cases hp : p e = true
    · simpa [Comp.absorb, hc, hp] using h'
    · simpa [Comp.absorb, hc, hp] using h'

/-- A loop keeps what its body keeps. -/
theorem forOk {xs : List α} (h : ∀ x ∈ xs, Keeps I (body x)) : Keeps I (forOk body xs) := by
  induction xs with
  | nil => exact Keeps.pure ()
  | cons x xs ih =>
    exact Keeps.bind (h x (by simp)) fun _ => ih fun y hy => h y (by simp [hy])

/-- A run of `c` from a state in `I`. -/
theorem of_run {c : Comp σ ε α} {s s' : σ} {res : Except ε α} (h : Keeps I c) (hs : I s)
    (hrun : c s = (res, s')) : I s' := by
  have hs' := h s hs
  rwa [hrun] at hs'

end Keeps

/-- From `s`, the errors of `c` are all in `E`. -/
structure FailsOnly (E : ε → Prop) (c : Comp σ ε α) (s : σ) : Prop where
  error : ∀ e s', c s = (.error e, s') → E e

namespace FailsOnly

variable {E E' : ε → Prop} {s : σ}

theorem mono {c : Comp σ ε α} (h : FailsOnly E c s) (himp : ∀ e, E e → E' e) :
    FailsOnly E' c s :=
  ⟨fun e s' hrun => himp e (h.error e s' hrun)⟩

/-- A computation without errors ends with a result. -/
theorem ok {c : Comp σ ε α} (h : FailsOnly (fun _ => False) c s) :
    ∃ a, c s = (.ok a, (c s).2) := by
  rcases hc : c s with ⟨e | a, s'⟩
  · exact (h.error e s' hc).elim
  · exact ⟨a, rfl⟩

theorem of_ok {c : Comp σ ε α} {a : α} {s' : σ} (h : c s = (.ok a, s')) : FailsOnly E c s := by
  constructor
  intro e s'' hrun
  cases h.symm.trans hrun

theorem pure (a : α) : FailsOnly E (pure a : Comp σ ε α) s := of_ok (pure_apply a s)

theorem update (f : σ → σ) : FailsOnly E (update f : Comp σ ε Unit) s := of_ok (update_apply f s)

theorem result (c : Comp σ ε α) : FailsOnly E (result c) s := of_ok rfl

theorem fail {e : ε} (he : E e) : FailsOnly E (fail e : Comp σ ε α) s := by
  constructor
  intro e' s' hrun
  cases hrun
  exact he

theorem ofResult {r : Except ε α} (h : ∀ e, r = .error e → E e) :
    FailsOnly E (ofResult r : Comp σ ε α) s := by
  constructor
  intro e s' hrun
  exact h e (congrArg Prod.fst hrun)

theorem bind (hx : FailsOnly E x s)
    (hf : ∀ a s', x s = (.ok a, s') → FailsOnly E (f a) s') : FailsOnly E (x >>= f) s := by
  constructor
  intro e s'' hrun
  rcases hxs : x s with ⟨e' | a, s'⟩
  · rw [bind_of_error hxs] at hrun
    cases hrun
    exact hx.error _ _ hxs
  · rw [bind_of_ok hxs] at hrun
    exact (hf a s' hxs).error e s'' hrun

/-- The second half may rely on an invariant that the first half keeps. -/
theorem bind_of_keeps {I : σ → Prop} {x : Comp σ ε α} {f : α → Comp σ ε β} (hs : I s)
    (hx : FailsOnly E x s) (hkeeps : Keeps I x) (hf : ∀ a s', I s' → FailsOnly E (f a) s') :
    FailsOnly E (x >>= f) s :=
  bind hx fun a s' hrun => hf a s' (hkeeps.of_run hs hrun)

theorem read_bind {g : σ → α} {f : α → Comp σ ε β} (h : FailsOnly E (f (g s)) s) :
    FailsOnly E (Comp.read g >>= f) s := ⟨h.error⟩

theorem ite {b : Prop} [Decidable b] {x y : Comp σ ε α} (hx : b → FailsOnly E x s)
    (hy : ¬ b → FailsOnly E y s) : FailsOnly E (if b then x else y) s := by
  by_cases hb : b
  · rw [if_pos hb]
    exact hx hb
  · rw [if_neg hb]
    exact hy hb

/-- The errors that are treated as success are none. -/
theorem absorb {p : ε → Bool} {c : Comp σ ε Unit} (h : FailsOnly (fun e => p e = true ∨ E e) c s) :
    FailsOnly E (absorb p c) s := by
  constructor
  intro e s' hrun
  unfold Comp.absorb at hrun
  rcases hc : c s with ⟨e' | a, s''⟩
  · rw [hc] at hrun
    dsimp only at hrun
    split at hrun
    · cases hrun
    · rename_i hp
      cases hrun
      exact (h.error _ _ hc).resolve_left hp
  · rw [hc] at hrun
    cases hrun

/-- A loop over a body that keeps what its rounds need. -/
theorem forOk {I : σ → Prop} {xs : List α} (hs : I s)
    (hkeeps : ∀ x ∈ xs, Keeps I (body x)) (h : ∀ x ∈ xs, ∀ s, I s → FailsOnly E (body x) s) :
    FailsOnly E (forOk body xs) s := by
  induction xs generalizing s with
  | nil => exact pure ()
  | cons x xs ih =>
    have hmem := List.mem_cons_self (a := x) (l := xs)
    refine bind (h x hmem s hs) fun a s' hrun => ih ((hkeeps x hmem).of_run hs hrun) ?_ ?_
    · exact fun y hy => hkeeps y (List.mem_cons_of_mem x hy)
    · exact fun y hy => h y (List.mem_cons_of_mem x hy)

end FailsOnly

theorem forOk_append (xs ys : List α) (s : σ) :
    forOk body (xs ++ ys) s = (forOk body xs >>= fun _ => forOk body ys) s := by
  induction xs generalizing s with
  | nil => rfl
  | cons x xs ih =>
    rw [List.cons_append, forOk_cons, forOk_cons, bind_assoc]
    rcases hx : body x s with ⟨e | a, s'⟩
    · rw [bind_of_error hx, bind_of_error hx]
    · rw [bind_of_ok hx, bind_of_ok hx, ih]

/-- What is met along a loop is met by the element that it comes to. -/
theorem Visits.last {P : α → σ → Prop} {xs : List α} {x : α} {s s' : σ}
    (h : Visits body P (xs ++ [x]) s) (hrun : forOk body xs s = (.ok (), s')) : P x s' := by
  induction xs generalizing s with
  | nil =>
    cases hrun
    exact h.1
  | cons y ys ih =>
    rw [forOk_cons] at hrun
    obtain ⟨⟨⟩, s₁, hy, hys⟩ := ok_of_bind hrun
    exact ih (h.2 s₁ hy) hys

/-- A loop succeeds when each of its rounds does. -/
theorem forOk_ok_iff {xs : List α} {s : σ} :
    (∃ s', forOk body xs s = (.ok (), s')) ↔
      Visits body (fun x s => ∃ s', body x s = (.ok (), s')) xs s := by
  induction xs generalizing s with
  | nil => exact ⟨fun _ => trivial, fun _ => ⟨s, rfl⟩⟩
  | cons x xs ih =>
    rw [forOk_cons]
    constructor
    · rintro ⟨s'', hrun⟩
      rcases ok_of_bind hrun with ⟨a, s', hx, hxs⟩
      refine ⟨⟨s', hx⟩, fun s₁ hs₁ => ?_⟩
      cases hx.symm.trans hs₁
      exact ih.mp ⟨s'', hxs⟩
    · rintro ⟨⟨s', hx⟩, hrest⟩
      rw [bind_of_ok hx]
      exact ih.mpr (hrest s' hx)

/-- A loop whose rounds leave the state alone. -/
theorem forOk_of_still {xs : List α} {s : σ} (h : ∀ x ∈ xs, (body x s).2 = s) :
    (forOk body xs s).2 = s ∧
      ((∃ s', forOk body xs s = (.ok (), s')) ↔ ∀ x ∈ xs, ∃ s', body x s = (.ok (), s')) := by
  induction xs with
  | nil => exact ⟨rfl, fun _ _ hmem => (nomatch hmem), fun _ => ⟨s, rfl⟩⟩
  | cons x xs ih =>
    have hx := h x List.mem_cons_self
    rcases ih fun y hy => h y (List.mem_cons_of_mem x hy) with ⟨hstill, hiff⟩
    rw [forOk_cons, List.forall_mem_cons]
    rcases hbody : body x s with ⟨e | a, s'⟩
    · rw [hbody] at hx
      subst hx
      rw [bind_of_error hbody]
      exact ⟨rfl, fun ⟨_, hrun⟩ => (nomatch hrun), fun ⟨⟨_, hrun⟩, _⟩ => (nomatch hrun)⟩
    · rw [hbody] at hx
      subst hx
      rw [bind_of_ok hbody]
      exact ⟨hstill, fun hrun => ⟨⟨_, rfl⟩, hiff.mp hrun⟩, fun hall => hiff.mpr hall.2⟩

/-- The same for a loop in a loop. -/
theorem forOk_forOk_of_still {α β σ ε : Type} {body : β → Comp σ ε Unit} {inner : α → List β}
    {P : β → Prop} {s : σ}
    (h : ∀ y, (body y s).2 = s ∧ ((∃ s', body y s = (.ok (), s')) ↔ P y)) (xs : List α) :
    (forOk (fun x => forOk body (inner x)) xs s).2 = s ∧
      ((∃ s', forOk (fun x => forOk body (inner x)) xs s = (.ok (), s')) ↔
        ∀ x ∈ xs, ∀ y ∈ inner x, P y) := by
  have hinner : ∀ x, (forOk body (inner x) s).2 = s ∧
      ((∃ s', forOk body (inner x) s = (.ok (), s')) ↔ ∀ y ∈ inner x, P y) := by
    intro x
    rcases @forOk_of_still _ _ _ body (inner x) s fun y _ => (h y).1 with ⟨hstill, hiff⟩
    exact ⟨hstill, hiff.trans (forall₂_congr fun y _ => (h y).2)⟩
  rcases @forOk_of_still _ _ _ (fun x => forOk body (inner x)) xs s fun x _ => (hinner x).1
    with ⟨hstill, hiff⟩
  exact ⟨hstill, hiff.trans (forall₂_congr fun x _ => (hinner x).2)⟩

end Comp

end LeanLibp2p.Lib
