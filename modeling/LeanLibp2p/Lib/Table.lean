import Mathlib.Data.List.Perm.Basic

/-!
# Slot tables

A fixed table is a total map from slot numbers, of which the first `n` exist. `findSlot` is the
loop that looks for the first slot of some kind.
-/

namespace LeanLibp2p.Lib

/-- The first of the slots below `n` that satisfies `p`. -/
def findSlot (n : Nat) (p : Nat → Bool) : Option Nat := (List.range n).find? p

theorem findSlot_some {n i : Nat} {p : Nat → Bool} (h : findSlot n p = some i) :
    i < n ∧ p i = true :=
  ⟨List.mem_range.mp (List.mem_of_find?_eq_some h), List.find?_some h⟩

theorem findSlot_none {n : Nat} {p : Nat → Bool} :
    findSlot n p = none ↔ ∀ i < n, p i = false := by
  unfold findSlot
  rw [List.find?_eq_none]
  constructor
  · intro h i hi
    simpa using h i (List.mem_range.mpr hi)
  · intro h i hi
    simpa using h i (List.mem_range.mp hi)

theorem findSlot_isSome {n i : Nat} {p : Nat → Bool} (hi : i < n) (hp : p i = true) :
    ∃ j, findSlot n p = some j := by
  cases h : findSlot n p with
  | none =>
    have := findSlot_none.mp h i hi
    rw [hp] at this
    cases this
  | some j => exact ⟨j, rfl⟩

/-- A loop that at each element keeps its choice or takes the element, if that is allowed, ends
    with an element that is allowed. -/
theorem foldl_choice {α : Type} {f : Option α → α → Option α} {c : α → Prop}
    (hf : ∀ best x, f best x = best ∨ f best x = some x ∧ c x) {xs : List α} {best : Option α}
    {x : α} (h : xs.foldl f best = some x) : best = some x ∨ x ∈ xs ∧ c x := by
  induction xs generalizing best with
  | nil => exact .inl h
  | cons y ys ih =>
    rw [List.foldl_cons] at h
    rcases ih h with hbest | ⟨hmem, hx⟩
    · rcases hf best y with hkeep | ⟨htake, hy⟩
      · exact .inl (hkeep ▸ hbest)
      · cases htake.symm.trans hbest
        exact .inr ⟨List.mem_cons_self, hy⟩
    · exact .inr ⟨List.mem_cons_of_mem y hmem, hx⟩

/-! ## Entries -/

section Entries

variable {α β : Type} {f : α → Option β} {slots : Nat → α}

/-- The values of the slots below `n` that have one. -/
def entries (n : Nat) (f : α → Option β) (slots : Nat → α) : List β :=
  (List.range n).filterMap fun i => f (slots i)

theorem mem_entries {n : Nat} {b : β} : b ∈ entries n f slots ↔ ∃ i < n, f (slots i) = some b := by
  simp [entries]

theorem entries_succ (n : Nat) :
    entries (n + 1) f slots = entries n f slots ++ (f (slots n)).toList := by
  unfold entries
  rw [List.range_succ, List.filterMap_append]
  rfl

theorem entries_length_le (n : Nat) : (entries n f slots).length ≤ n := by
  have h := List.length_filterMap_le (fun i => f (slots i)) (List.range n)
  rwa [List.length_range] at h

/-- A slot outside of the table does not matter. -/
theorem entries_update_of_le {n i : Nat} (x : α) (h : n ≤ i) :
    entries n f (Function.update slots i x) = entries n f slots := by
  unfold entries
  apply List.filterMap_congr
  intro j hj
  rw [Function.update_of_ne (by have := List.mem_range.mp hj; omega)]

/-- Replacing a slot exchanges its value. -/
theorem entries_update {n i : Nat} (x : α) (h : i < n) :
    ((f (slots i)).toList ++ entries n f (Function.update slots i x)).Perm
      ((f x).toList ++ entries n f slots) := by
  induction n with
  | zero => exact absurd h (Nat.not_lt_zero i)
  | succ n ih =>
    rw [entries_succ, entries_succ]
    by_cases hi : i = n
    · subst hi
      rw [entries_update_of_le x (Nat.le_refl i), Function.update_self]
      refine List.perm_append_comm.trans ?_
      rw [List.append_assoc]
      refine (List.perm_append_comm_assoc ..).trans ?_
      exact List.Perm.refl _
    · rw [Function.update_of_ne (Ne.symm hi), ← List.append_assoc, ← List.append_assoc]
      exact (ih (by omega)).append_right _

/-- Filling a free slot adds its value. -/
theorem entries_fill {n i : Nat} {x : α} {b : β} (h : i < n) (hfree : f (slots i) = none)
    (hx : f x = some b) : (entries n f (Function.update slots i x)).Perm (b :: entries n f slots) := by
  have hperm := @entries_update _ _ f slots n i x h
  rw [hfree, hx] at hperm
  exact hperm

/-- Clearing a slot takes its value out. -/
theorem entries_clear {n i : Nat} {x : α} {b : β} (h : i < n) (hused : f (slots i) = some b)
    (hx : f x = none) : (b :: entries n f (Function.update slots i x)).Perm (entries n f slots) := by
  have hperm := @entries_update _ _ f slots n i x h
  rw [hused, hx] at hperm
  exact hperm

/-- A table without free slots has as many values as slots. -/
theorem entries_length_of_full {n : Nat} (h : ∀ i < n, (f (slots i)).isSome = true) :
    (entries n f slots).length = n := by
  induction n with
  | zero => rfl
  | succ n ih =>
    rcases Option.isSome_iff_exists.mp (h n (Nat.lt_succ_self n)) with ⟨b, hb⟩
    rw [entries_succ, List.length_append, ih fun i hi => h i (Nat.lt_succ_of_lt hi), hb]
    rfl

end Entries

/-! ## Counting -/

/-- Replacing a slot changes the number of the slots of some kind by that slot. -/
theorem countP_update {α : Type} (f : α → Bool) (slots : Nat → α) {n i : Nat} (x : α) (h : i < n) :
    ((List.range n).countP fun j => f (Function.update slots i x j)) + (f (slots i)).toNat =
      ((List.range n).countP fun j => f (slots j)) + (f x).toNat := by
  induction n with
  | zero => exact absurd h (Nat.not_lt_zero i)
  | succ n ih =>
    rw [List.range_succ, List.countP_append, List.countP_append, List.countP_singleton,
      List.countP_singleton]
    by_cases hi : i = n
    · subst hi
      have hrest : ((List.range i).countP fun j => f (Function.update slots i x j)) =
          (List.range i).countP fun j => f (slots j) := by
        apply List.countP_congr
        intro j hj
        rw [Function.update_of_ne (Nat.ne_of_lt (List.mem_range.mp hj))]
      rw [hrest, Function.update_self]
      cases f x <;> cases f (slots i) <;> simp
    · have hrest := ih (by omega)
      rw [Function.update_of_ne (Ne.symm hi)]
      omega

end LeanLibp2p.Lib
