import Mathlib.Data.List.Nodup

/-!
# Queues that track slots

A queue of entries some of which name a slot. It tracks a condition on slots when the slots named are
those that meet the condition, each named once. Appending an entry and taking the first one change
the condition at one slot.
-/

namespace LeanLibp2p.Lib

variable {α β : Type} {f : α → Option β} {xs : List α} {x : α} {b : β} {p q : β → Prop}

/-- The slots that the entries name are those in `p`, and each is named once. -/
structure Tracks (f : α → Option β) (xs : List α) (p : β → Prop) : Prop where
  mem : ∀ b, b ∈ xs.filterMap f ↔ p b
  nodup : (xs.filterMap f).Nodup

namespace Tracks

theorem nil (h : ∀ b, ¬ p b) : Tracks f [] p where
  mem := fun b => by simpa using h b
  nodup := List.nodup_nil

theorem congr (h : Tracks f xs p) (hp : ∀ b, q b ↔ p b) : Tracks f xs q where
  mem := fun b => (h.mem b).trans (hp b).symm
  nodup := h.nodup

theorem of_mem (h : Tracks f xs p) (hx : x ∈ xs) (hf : f x = some b) : p b :=
  (h.mem b).mp (List.mem_filterMap.mpr ⟨x, hx, hf⟩)

/-- An entry that names no slot is appended. -/
theorem append_none (h : Tracks f xs p) (hx : f x = none) : Tracks f (xs ++ [x]) p := by
  have hlist : (xs ++ [x]).filterMap f = xs.filterMap f := by
    rw [List.filterMap_append, List.filterMap_cons_none hx]
    exact List.append_nil _
  constructor
  · rw [hlist]
    exact h.mem
  · rw [hlist]
    exact h.nodup

/-- An entry is appended that names a new slot of a table, and the slot is marked. -/
theorem append_some [DecidableEq β] {γ : Type} {t : β → γ} {m : γ → Prop} {row : γ}
    (h : Tracks f xs fun c => m (t c)) (hx : f x = some b) (hb : ¬ m (t b)) (hrow : m row) :
    Tracks f (xs ++ [x]) fun c => m (Function.update t b row c) := by
  have hlist : (xs ++ [x]).filterMap f = xs.filterMap f ++ [b] := by
    rw [List.filterMap_append, List.filterMap_cons_some hx]
    rfl
  constructor
  · intro c
    rw [hlist, List.mem_append, List.mem_singleton, h.mem]
    by_cases heq : c = b
    · rw [heq, Function.update_self]
      exact iff_of_true (.inr rfl) hrow
    · rw [Function.update_of_ne heq]
      exact or_iff_left heq
  · rw [hlist]
    apply List.Nodup.append h.nodup (List.nodup_cons.mpr ⟨List.not_mem_nil, List.nodup_nil⟩)
    intro c hc hc'
    rw [List.mem_singleton.mp hc'] at hc
    exact hb ((h.mem b).mp hc)

/-- The first entry is taken, and named no slot. -/
theorem tail_none (h : Tracks f (x :: xs) p) (hx : f x = none) : Tracks f xs p := by
  have hlist : (x :: xs).filterMap f = xs.filterMap f := List.filterMap_cons_none hx
  constructor
  · rw [← hlist]
    exact h.mem
  · rw [← hlist]
    exact h.nodup

/-- The first entry is taken, and named a slot. -/
theorem tail_some (h : Tracks f (x :: xs) p) (hx : f x = some b) :
    Tracks f xs fun c => p c ∧ c ≠ b := by
  have hlist : (x :: xs).filterMap f = b :: xs.filterMap f := List.filterMap_cons_some hx
  have hnodup := h.nodup
  rw [hlist] at hnodup
  rcases List.nodup_cons.mp hnodup with ⟨hgone, hrest⟩
  constructor
  · intro c
    rw [← h.mem c, hlist, List.mem_cons]
    constructor
    · intro hc
      refine ⟨.inr hc, ?_⟩
      rintro rfl
      exact hgone hc
    · rintro ⟨heq | hc, hne⟩
      · exact absurd heq hne
      · exact hc
  · exact hrest

/-- No other entry names the slot of the first. -/
theorem ne_head (h : Tracks f (x :: xs) p) (hx : f x = some b) {y : α} {c : β} (hy : y ∈ xs)
    (hc : f y = some c) : c ≠ b :=
  ((h.tail_some hx).of_mem hy hc).2

end Tracks

end LeanLibp2p.Lib
