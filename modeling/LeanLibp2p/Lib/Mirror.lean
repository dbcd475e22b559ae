import LeanLibp2p.Lib.Comp

/-!
# Two computations side by side

Two computations mirror each other under a relation of their states when from related states they
answer alike and end in related states.
-/

namespace LeanLibp2p.Lib

namespace Comp

variable {σ σ' ε α β : Type}

/-- From these two states both computations answer alike and end in related states. -/
def MirrorsAt (R : σ → σ' → Prop) (c : Comp σ ε α) (c' : Comp σ' ε α) (s : σ) (s' : σ') : Prop :=
  (c' s').1 = (c s).1 ∧ R (c s).2 (c' s').2

/-- From all related states both computations answer alike and end in related states. -/
def Mirrors (R : σ → σ' → Prop) (c : Comp σ ε α) (c' : Comp σ' ε α) : Prop :=
  ∀ s s', R s s' → MirrorsAt R c c' s s'

theorem MirrorsAt.bind {R R' : σ → σ' → Prop} {x : Comp σ ε α} {x' : Comp σ' ε α}
    {f : α → Comp σ ε β} {f' : α → Comp σ' ε β} {s : σ} {s' : σ'} (hx : MirrorsAt R x x' s s')
    (hfail : ∀ t t', R t t' → R' t t')
    (hf : ∀ a t t', R t t' → MirrorsAt R' (f a) (f' a) t t') :
    MirrorsAt R' (x >>= f) (x' >>= f') s s' := by
  obtain ⟨hres, hstate⟩ := hx
  unfold MirrorsAt
  rw [bind_apply, bind_apply]
  rcases hrun : x s with ⟨e | a, t⟩ <;> rcases hrun' : x' s' with ⟨e' | a', t'⟩ <;>
    rw [hrun, hrun'] at hres hstate <;> cases hres
  · exact ⟨rfl, hfail t t' hstate⟩
  · exact hf a t t' hstate

namespace Mirrors

variable {R : σ → σ' → Prop} {x : Comp σ ε α} {x' : Comp σ' ε α} {f : α → Comp σ ε β}
  {f' : α → Comp σ' ε β}

theorem pure (a : α) : Mirrors R (pure a : Comp σ ε α) (pure a : Comp σ' ε α) :=
  fun _ _ h => ⟨rfl, h⟩

theorem fail (e : ε) : Mirrors R (fail e : Comp σ ε α) (fail e : Comp σ' ε α) :=
  fun _ _ h => ⟨rfl, h⟩

theorem update {g : σ → σ} {g' : σ' → σ'} (h : ∀ s s', R s s' → R (g s) (g' s')) :
    Mirrors R (update g : Comp σ ε Unit) (update g' : Comp σ' ε Unit) :=
  fun s s' hR => ⟨rfl, h s s' hR⟩

theorem bind (hx : Mirrors R x x') (hf : ∀ a, Mirrors R (f a) (f' a)) :
    Mirrors R (x >>= f) (x' >>= f') :=
  fun s s' hR => (hx s s' hR).bind (fun _ _ h => h) fun a t t' h => hf a t t' h

/-- A computation that looks at its state first. -/
theorem read_bind {f : σ → Comp σ ε β} {f' : σ' → Comp σ' ε β}
    (h : ∀ s s', R s s' → MirrorsAt R (f s) (f' s') s s') :
    Mirrors R (Comp.read id >>= f) (Comp.read id >>= f') := h

theorem result (h : Mirrors R x x') : Mirrors R (result x) (result x') := by
  intro s s' hR
  obtain ⟨hres, hstate⟩ := h s s' hR
  exact ⟨congrArg Except.ok hres, hstate⟩

theorem ite {b : Prop} [Decidable b] {y : Comp σ ε α} {y' : Comp σ' ε α} (hx : Mirrors R x x')
    (hy : Mirrors R y y') : Mirrors R (if b then x else y) (if b then x' else y') := by
  by_cases hb : b
  · rw [if_pos hb, if_pos hb]
    exact hx
  · rw [if_neg hb, if_neg hb]
    exact hy

/-- What the first computation keeps joins the relation. -/
theorem and_keeps {I : σ → Prop} (h : Mirrors R x x') (hkeeps : Keeps I x) :
    Mirrors (fun s s' => R s s' ∧ I s) x x' := by
  intro s s' hR
  obtain ⟨hres, hstate⟩ := h s s' hR.1
  exact ⟨hres, hstate, hkeeps s hR.2⟩

end Mirrors

end Comp

end LeanLibp2p.Lib
