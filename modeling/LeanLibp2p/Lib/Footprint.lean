import LeanLibp2p.Lib.Comp

/-!
# Footprints

A state that is seen as a family of parts. A computation touches some of them when it leaves all
others as they are; the footprint of a program is put together from those of its steps, and an
invariant about other parts is kept without looking at the program again.
-/

namespace LeanLibp2p.Lib

variable {σ ε α β Part : Type} {Value : Part → Type}

/-- The states agree on every part outside of `parts`. -/
structure Agrees (get : ∀ p, σ → Value p) (parts : List Part) (s s' : σ) : Prop where
  eq : ∀ p, p ∉ parts → get p s' = get p s

namespace Agrees

variable {get : ∀ p, σ → Value p} {parts parts' : List Part} {s s' s'' : σ}

theorem refl (s : σ) : Agrees get parts s s := ⟨fun _ _ => rfl⟩

theorem trans (h : Agrees get parts s s') (h' : Agrees get parts s' s'') :
    Agrees get parts s s'' :=
  ⟨fun p hp => (h'.eq p hp).trans (h.eq p hp)⟩

/-- A footprint may be enlarged. -/
theorem mono (h : Agrees get parts s s') (hsub : ∀ p ∈ parts, p ∈ parts') :
    Agrees get parts' s s' :=
  ⟨fun p hp => h.eq p fun hmem => hp (hsub p hmem)⟩

end Agrees

namespace Comp

/-- The computation changes only `parts`, whether it succeeds or fails. -/
structure Touches (get : ∀ p, σ → Value p) (parts : List Part) (c : Comp σ ε α) : Prop where
  agrees : ∀ s, Agrees get parts s (c s).2

namespace Touches

variable {get : ∀ p, σ → Value p} {parts parts' : List Part}

theorem mono {c : Comp σ ε α} (h : Touches get parts c)
    (hsub : ∀ p ∈ parts, p ∈ parts') : Touches get parts' c :=
  ⟨fun s => (h.agrees s).mono hsub⟩

theorem pure (a : α) : Touches get parts (pure a : Comp σ ε α) := ⟨.refl⟩

theorem fail (e : ε) : Touches get parts (fail e : Comp σ ε α) := ⟨.refl⟩

theorem read (f : σ → α) : Touches get parts (read f : Comp σ ε α) := ⟨.refl⟩

theorem ofResult (r : Except ε α) : Touches get parts (ofResult r : Comp σ ε α) := ⟨.refl⟩

theorem update {f : σ → σ} (h : ∀ s, Agrees get parts s (f s)) :
    Touches get parts (update f : Comp σ ε Unit) := ⟨h⟩

theorem bind {x : Comp σ ε α} {f : α → Comp σ ε β} (hx : Touches get parts x)
    (hf : ∀ a, Touches get parts (f a)) : Touches get parts (x >>= f) := by
  refine ⟨fun s => ?_⟩
  have h := hx.agrees s
  rcases hxs : x s with ⟨r, s'⟩
  rw [hxs] at h
  cases r with
  | ok a =>
    rw [bind_of_ok hxs]
    exact h.trans ((hf a).agrees s')
  | error e =>
    rw [bind_of_error hxs]
    exact h

/-- The second half of a computation starts where the first ended. -/
theorem after {x : Comp σ ε α} {f : α → Comp σ ε β} (hf : ∀ a, Touches get parts (f a)) (s : σ) :
    Agrees get parts (x s).2 ((x >>= f) s).2 := by
  rcases hxs : x s with ⟨r, s'⟩
  cases r with
  | ok a =>
    rw [bind_of_ok hxs]
    exact (hf a).agrees s'
  | error e =>
    rw [bind_of_error hxs]
    exact Agrees.refl s'

theorem ite {b : Prop} [Decidable b] {x y : Comp σ ε α} (hx : Touches get parts x)
    (hy : Touches get parts y) : Touches get parts (if b then x else y) := by
  by_cases hb : b
  · rw [if_pos hb]; exact hx
  · rw [if_neg hb]; exact hy

theorem onlyIf {b : Bool} {c : Comp σ ε Unit} (h : Touches get parts c) :
    Touches get parts (onlyIf b c) := ite h (pure _)

theorem result {c : Comp σ ε α} (h : Touches get parts c) : Touches get parts (result c) :=
  ⟨h.agrees⟩

theorem absorb {p : ε → Bool} {c : Comp σ ε Unit} (h : Touches get parts c) :
    Touches get parts (absorb p c) := by
  refine ⟨fun s => ?_⟩
  have h' := h.agrees s
  rcases hc : c s with ⟨r, s'⟩
  rw [hc] at h'
  cases r with
  | ok a => simpa [Comp.absorb, hc] using h'
  | error e =>
    by_cases hp : p e = true
    · simpa [Comp.absorb, hc, hp] using h'
    · simpa [Comp.absorb, hc, hp] using h'

theorem forOk {body : α → Comp σ ε Unit} {xs : List α} (h : ∀ x, Touches get parts (body x)) :
    Touches get parts (forOk body xs) := by
  induction xs with
  | nil => exact Touches.pure ()
  | cons x xs ih => exact Touches.bind (h x) fun _ => ih

/-- The states before and after a run. -/
theorem of_run {c : Comp σ ε α} {s s' : σ} {res : Except ε α} (h : Touches get parts c)
    (hrun : c s = (res, s')) : Agrees get parts s s' := by
  have hagrees := h.agrees s
  rwa [hrun] at hagrees

/-- An invariant that only depends on the parts left alone is kept. -/
theorem keeps {I : σ → Prop} {c : Comp σ ε α} (h : Touches get parts c)
    (hI : ∀ s s', Agrees get parts s s' → I s → I s') : Keeps I c :=
  fun s hs => hI s _ (h.agrees s) hs

end Touches

end Comp

end LeanLibp2p.Lib
