import Mathlib.Algebra.BigOperators.Group.List.Basic
import Mathlib.Algebra.GroupWithZero.Nat
import Mathlib.Data.List.Pairwise

/-!
# Placing regions one after the other

A block of storage is laid out by a cursor: each region starts at the cursor, rounded up to the
alignment, and moves the cursor to its end. `placed` is the layout in unbounded arithmetic. An
allocator on machine words that refuses to pass `max` computes exactly this layout, or fails
because the layout passes `max`.
-/

namespace LeanLibp2p.Lib

/-- A half-open range of addresses. -/
structure Region where
  offset : Nat
  bytes : Nat
  deriving DecidableEq, Repr

namespace Region

/-- The first address after the region. -/
def stop (r : Region) : Nat := r.offset + r.bytes

/-- The address is one of the region. -/
def Covers (r : Region) (a : Nat) : Prop := r.offset ≤ a ∧ a < r.stop

/-- The regions have no address in common. -/
def Apart (r s : Region) : Prop := ∀ a, r.Covers a → ¬ s.Covers a

theorem Apart.symm {r s : Region} (h : r.Apart s) : s.Apart r := fun a hs hr => h a hr hs

theorem apart_of_stop_le {r s : Region} (h : r.stop ≤ s.offset) : r.Apart s := by
  intro a hr hs
  have hlt : a < r.stop := hr.2
  have hle : s.offset ≤ a := hs.1
  omega

theorem apart_of_bytes_zero {r s : Region} (h : r.bytes = 0) : r.Apart s := by
  intro a hr _
  have hle : r.offset ≤ a := hr.1
  have hlt : a < r.offset + r.bytes := hr.2
  omega

end Region

/-! ## Alignment -/

/-- The least multiple of `align` from `n` on. -/
def roundUp (align n : Nat) : Nat := (n + (align - 1)) / align * align

theorem dvd_roundUp (align n : Nat) : align ∣ roundUp align n := Nat.dvd_mul_left _ _

theorem roundUp_of_dvd {align n : Nat} (halign : 0 < align) (h : n % align = 0) :
    roundUp align n = n := by
  obtain ⟨k, rfl⟩ := Nat.dvd_of_mod_eq_zero h
  have hdiv : (align - 1 + align * k) / align = k := by
    rw [Nat.add_mul_div_left _ _ halign, Nat.div_eq_of_lt (by omega), Nat.zero_add]
  rw [roundUp, Nat.add_comm, hdiv, Nat.mul_comm]

theorem roundUp_of_not_dvd {align n : Nat} (halign : 0 < align) (h : n % align ≠ 0) :
    roundUp align n = n + (align - n % align) := by
  have hlt : n % align < align := Nat.mod_lt n halign
  have hn : align * (n / align) + n % align = n := Nat.div_add_mod n align
  have hup : n + (align - 1) = n % align - 1 + align * (n / align + 1) := by
    rw [Nat.mul_add, Nat.mul_one]
    omega
  have hdiv : (n + (align - 1)) / align = n / align + 1 := by
    rw [hup, Nat.add_mul_div_left _ _ halign, Nat.div_eq_of_lt (by omega), Nat.zero_add]
  rw [roundUp, hdiv, Nat.mul_comm, Nat.mul_add, Nat.mul_one]
  omega

theorem le_roundUp {align : Nat} (halign : 0 < align) (n : Nat) : n ≤ roundUp align n := by
  by_cases h : n % align = 0
  · exact Nat.le_of_eq (roundUp_of_dvd halign h).symm
  · rw [roundUp_of_not_dvd halign h]
    omega

/-! ## The layout -/

/-- The regions of the given sizes, from `cursor` on. -/
def placed (align : Nat) : Nat → List Nat → List Region
  | _, [] => []
  | cursor, n :: ns => ⟨roundUp align cursor, n⟩ :: placed align (roundUp align cursor + n) ns

/-- The cursor after the last of them. -/
def placedEnd (align : Nat) : Nat → List Nat → Nat
  | cursor, [] => cursor
  | cursor, n :: ns => placedEnd align (roundUp align cursor + n) ns

section Layout

variable {align cursor : Nat} {ns ms : List Nat} {r : Region}

@[simp] theorem placed_nil : placed align cursor [] = [] := rfl

@[simp] theorem placed_cons {n : Nat} : placed align cursor (n :: ns) =
    ⟨roundUp align cursor, n⟩ :: placed align (roundUp align cursor + n) ns := rfl

@[simp] theorem placedEnd_nil : placedEnd align cursor [] = cursor := rfl

@[simp] theorem placedEnd_cons {n : Nat} : placedEnd align cursor (n :: ns) =
    placedEnd align (roundUp align cursor + n) ns := rfl

theorem placed_append : placed align cursor (ns ++ ms) =
    placed align cursor ns ++ placed align (placedEnd align cursor ns) ms := by
  induction ns generalizing cursor with
  | nil => rfl
  | cons n ns ih => simp [ih]

theorem placedEnd_append : placedEnd align cursor (ns ++ ms) =
    placedEnd align (placedEnd align cursor ns) ms := by
  induction ns generalizing cursor with
  | nil => rfl
  | cons n ns ih => simp [ih]

@[simp] theorem placed_length : (placed align cursor ns).length = ns.length := by
  induction ns generalizing cursor with
  | nil => rfl
  | cons n ns ih => simp [ih]

theorem placed_dvd (h : r ∈ placed align cursor ns) : align ∣ r.offset := by
  induction ns generalizing cursor with
  | nil => simp at h
  | cons n ns ih =>
    obtain rfl | hmem := List.mem_cons.mp h
    · exact dvd_roundUp align cursor
    · exact ih hmem

variable (halign : 0 < align)

include halign

/-- The cursor never moves back, and no size is lost on the way. -/
theorem add_sum_le_placedEnd :
    cursor + ns.sum ≤ placedEnd align cursor ns := by
  induction ns generalizing cursor with
  | nil => simp
  | cons n ns ih =>
    have hup := le_roundUp halign cursor
    have hrest := @ih (roundUp align cursor + n)
    rw [List.sum_cons, placedEnd_cons]
    omega

theorem le_placedEnd : cursor ≤ placedEnd align cursor ns := by
  have h := @add_sum_le_placedEnd align cursor ns halign
  omega

theorem le_placed_offset (h : r ∈ placed align cursor ns) :
    cursor ≤ r.offset := by
  induction ns generalizing cursor with
  | nil => simp at h
  | cons n ns ih =>
    have hup := le_roundUp halign cursor
    obtain rfl | hmem := List.mem_cons.mp h
    · exact hup
    · have hrest := ih hmem
      omega

theorem placed_stop_le (h : r ∈ placed align cursor ns) :
    r.stop ≤ placedEnd align cursor ns := by
  induction ns generalizing cursor with
  | nil => simp at h
  | cons n ns ih =>
    obtain rfl | hmem := List.mem_cons.mp h
    · exact le_placedEnd halign
    · exact ih hmem

/-- Each region ends before the later ones start. -/
theorem placed_pairwise :
    (placed align cursor ns).Pairwise fun r s => r.stop ≤ s.offset := by
  induction ns generalizing cursor with
  | nil => exact .nil
  | cons n ns ih =>
    refine .cons ?_ ih
    intro s hs
    exact le_placed_offset halign hs

/-- The layout passes `max` if a size, a start or an end does. -/
theorem lt_placedEnd_iff {max : Nat} (hcursor : cursor ≤ max) :
    max < placedEnd align cursor ns ↔
      ∃ r ∈ placed align cursor ns, max < r.bytes ∨ max < r.offset ∨ max < r.stop := by
  constructor
  · intro h
    induction ns generalizing cursor with
    | nil => exact absurd h (Nat.not_lt.mpr hcursor)
    | cons n ns ih =>
      by_cases hfirst : roundUp align cursor + n ≤ max
      · obtain ⟨r, hmem, hr⟩ := ih hfirst h
        exact ⟨r, List.mem_cons_of_mem _ hmem, hr⟩
      · exact ⟨_, List.mem_cons_self, .inr (.inr (Nat.not_le.mp hfirst))⟩
  · intro ⟨r, hmem, hr⟩
    have hstop := placed_stop_le halign hmem
    unfold Region.stop at hr hstop
    omega

end Layout

/-! ## Allocators -/

section Allocator

variable {ε : Type} {align max : Nat} {e : ε} {place : Nat → StateT Nat (Except ε) Nat}

/-- What an allocator that keeps its cursor up to `max` does for one region. -/
def Places (align max : Nat) (e : ε) (place : Nat → StateT Nat (Except ε) Nat) : Prop :=
  ∀ n cursor, cursor ≤ max → (place n).run cursor =
    if roundUp align cursor + n ≤ max then .ok (roundUp align cursor, roundUp align cursor + n)
    else .error e

/-- For a list of regions, it computes the offsets of the layout, or the layout passes `max`. -/
theorem Places.mapM (h : Places align max e place) (halign : 0 < align) {ns : List Nat}
    {cursor : Nat} (hcursor : cursor ≤ max) : (ns.mapM place).run cursor =
      if placedEnd align cursor ns ≤ max then
        .ok ((placed align cursor ns).map Region.offset, placedEnd align cursor ns)
      else .error e := by
  induction ns generalizing cursor with
  | nil => simp [hcursor]; rfl
  | cons n ns ih =>
    rw [List.mapM_cons, StateT.run_bind, h n cursor hcursor, placedEnd_cons, placed_cons,
      List.map_cons]
    by_cases hfirst : roundUp align cursor + n ≤ max
    · rw [if_pos hfirst]
      change (ns.mapM place >>= fun rest => pure (roundUp align cursor :: rest)).run
        (roundUp align cursor + n) = _
      rw [StateT.run_bind, ih hfirst]
      split <;> rfl
    · have hpass : ¬ placedEnd align (roundUp align cursor + n) ns ≤ max := by
        have hle := @le_placedEnd align (roundUp align cursor + n) ns halign
        omega
      rw [if_neg hfirst, if_neg hpass]
      rfl

/-- And what is done next goes on from the end of the layout. -/
theorem Places.mapM_bind (h : Places align max e place) (halign : 0 < align) {ns : List Nat}
    {cursor : Nat} (hcursor : cursor ≤ max) {α : Type}
    (next : List Nat → StateT Nat (Except ε) α) : (ns.mapM place >>= next).run cursor =
      if placedEnd align cursor ns ≤ max then
        (next ((placed align cursor ns).map Region.offset)).run (placedEnd align cursor ns)
      else .error e := by
  rw [StateT.run_bind, h.mapM halign hcursor]
  split <;> rfl

end Allocator

end LeanLibp2p.Lib
