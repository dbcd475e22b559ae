import Mathlib.Data.List.Nodup

/-!
# Lists threaded through a table

A table of entries, each with the index of the next one, holds singly linked lists. `Segment
next a xs b` says that following `next` from `a` one meets the indices `xs` and stands at `b`;
a whole list is a segment that ends at `none`. Segments compose, depend only on the entries
they pass, and so tell what inserting and removing one index does.
-/

namespace LeanLibp2p.Lib

/-- From `a`, following `next` through the indices `xs`, one reaches `b`. -/
def Segment (next : Nat → Option Nat) : Option Nat → List Nat → Option Nat → Prop
  | a, [], b => a = b
  | a, i :: xs, b => a = some i ∧ Segment next (next i) xs b

namespace Segment

variable {next : Nat → Option Nat}

@[simp] theorem nil_iff {a b : Option Nat} : Segment next a [] b ↔ a = b := Iff.rfl

@[simp] theorem cons_iff {a b : Option Nat} {i : Nat} {xs : List Nat} :
    Segment next a (i :: xs) b ↔ a = some i ∧ Segment next (next i) xs b := Iff.rfl

theorem append_iff {a c : Option Nat} {xs ys : List Nat} :
    Segment next a (xs ++ ys) c ↔ ∃ b, Segment next a xs b ∧ Segment next b ys c := by
  induction xs generalizing a with
  | nil => simp
  | cons i xs ih =>
    simp only [List.cons_append, cons_iff, ih]
    constructor
    · intro h
      rcases h with ⟨ha, b, hxs, hys⟩
      exact ⟨b, ⟨ha, hxs⟩, hys⟩
    · intro h
      rcases h with ⟨b, ⟨ha, hxs⟩, hys⟩
      exact ⟨ha, b, hxs, hys⟩

theorem snoc_iff {a b : Option Nat} {i : Nat} {xs : List Nat} :
    Segment next a (xs ++ [i]) b ↔ Segment next a xs (some i) ∧ next i = b := by
  simp only [append_iff, cons_iff, nil_iff]
  constructor
  · intro h
    rcases h with ⟨c, hxs, rfl, hb⟩
    exact ⟨hxs, hb⟩
  · intro h
    exact ⟨some i, h.1, rfl, h.2⟩

/-- A segment only depends on the entries it passes. -/
theorem congr {next' : Nat → Option Nat} {a b : Option Nat} {xs : List Nat}
    (h : Segment next a xs b) (hnext : ∀ i ∈ xs, next' i = next i) : Segment next' a xs b := by
  induction xs generalizing a with
  | nil => exact h
  | cons i xs ih =>
    refine ⟨h.1, ?_⟩
    rw [hnext i (by simp)]
    exact ih h.2 fun j hj => hnext j (by simp [hj])

theorem head_eq {a : Option Nat} {xs : List Nat} (h : Segment next a xs none) : a = xs.head? := by
  cases xs with
  | nil => exact h
  | cons i xs => exact h.1

theorem eq_nil_iff {a : Option Nat} {xs : List Nat} (h : Segment next a xs none) :
    a = none ↔ xs = [] := by
  rw [head_eq h, List.head?_eq_none_iff]

/-- The index after `i` in a list. -/
theorem next_of_append {a : Option Nat} {i : Nat} {xs ys : List Nat}
    (h : Segment next a (xs ++ i :: ys) none) : next i = ys.head? := by
  rcases append_iff.mp h with ⟨b, -, -, hys⟩
  exact head_eq hys

/-! ## Changing the table -/

variable {a b : Option Nat} {i p : Nat} {xs ys : List Nat}

/-- Updating an entry that the segment does not pass. -/
theorem update (h : Segment next a xs b) (hp : p ∉ xs) (v : Option Nat) :
    Segment (Function.update next p v) a xs b := by
  refine h.congr fun j hj => ?_
  rw [Function.update_of_ne]
  intro heq
  exact hp (heq ▸ hj)

/-- A new last index. -/
theorem insert_last (h : Segment next a (xs ++ [p]) none) (hnd : (xs ++ [p]).Nodup)
    (hi : i ∉ xs ++ [p]) (hnext : next i = none) :
    Segment (Function.update next p (some i)) a (xs ++ [p] ++ [i]) none := by
  rcases snoc_iff.mp h with ⟨hxs, -⟩
  have hpx : p ∉ xs := by
    intro hp
    exact (List.nodup_append.mp hnd).2.2 p hp p (by simp) rfl
  have hip : i ≠ p := by
    intro heq
    exact hi (by simp [heq])
  rw [snoc_iff, snoc_iff]
  refine ⟨⟨hxs.update hpx _, Function.update_self ..⟩, ?_⟩
  rw [Function.update_of_ne hip, hnext]

/-- A new index right after `p`, which takes over what followed `p`. -/
theorem insert_after (h : Segment next a (xs ++ p :: ys) none) (hnd : (xs ++ p :: ys).Nodup)
    (hi : i ∉ xs ++ p :: ys) :
    Segment (Function.update (Function.update next i (next p)) p (some i)) a
      (xs ++ p :: i :: ys) none := by
  rcases append_iff.mp h with ⟨b, hxs, rfl, hys⟩
  have hpx : p ∉ xs := by
    intro hp
    exact (List.nodup_append.mp hnd).2.2 p hp p (by simp) rfl
  have hpy : p ∉ ys := (List.nodup_cons.mp (List.nodup_append.mp hnd).2.1).1
  have hix : i ∉ xs := fun hx => hi (by simp [hx])
  have hiy : i ∉ ys := fun hy => hi (by simp [hy])
  have hip : i ≠ p := fun heq => hi (by simp [heq])
  rw [append_iff]
  refine ⟨some p, (hxs.update hix _).update hpx _, rfl, ?_⟩
  refine ⟨Function.update_self .., ?_⟩
  rw [Function.update_of_ne hip, Function.update_self]
  exact (hys.update hiy _).update hpy _

/-- Removing the index after `p`. -/
theorem remove_after (h : Segment next a (xs ++ p :: i :: ys) none)
    (hnd : (xs ++ p :: i :: ys).Nodup) :
    Segment (Function.update next p (next i)) a (xs ++ p :: ys) none := by
  rcases append_iff.mp h with ⟨b, hxs, rfl, hi, hys⟩
  have hpx : p ∉ xs := by
    intro hp
    exact (List.nodup_append.mp hnd).2.2 p hp p (by simp) rfl
  have hpy : p ∉ ys := by
    intro hp
    exact (List.nodup_cons.mp (List.nodup_append.mp hnd).2.1).1 (by simp [hp])
  rw [append_iff]
  refine ⟨some p, hxs.update hpx _, rfl, ?_⟩
  rw [Function.update_self]
  exact hys.update hpy _

end Segment

end LeanLibp2p.Lib
