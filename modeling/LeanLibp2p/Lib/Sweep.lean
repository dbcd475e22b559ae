import Mathlib.Data.List.Basic

/-!
# Sweeps over an array that shrinks

A loop over the positions of an array that may take out the element it is at. The last element then
moves into the gap, behind the position of the loop, and the loop does not come back to it. `lt_sweep`
says which positions are reached.
-/

namespace LeanLibp2p.Lib

variable {σ α : Type}

/-- What a round of the loop does with the element it is at. -/
inductive Turn where
  | stay
  | leave
  | stop
  deriving DecidableEq, Repr

variable (turn : σ → α → Turn) (next : σ → α → σ)

/-- The elements that the loop comes to, from the list of those that are left. -/
def sweep : σ → List α → List α
  | _, [] => []
  | s, a :: l =>
    match turn s a with
    | .stay => a :: sweep (next s a) l
    | .leave => a :: sweep (next s a) l.dropLast
    | .stop => [a]
termination_by _ l => l.length
decreasing_by all_goals simp; try omega

/-- How many elements leave in the first `p` rounds. -/
def leavers : σ → List α → (p : Nat) → Nat
  | s, a :: l, p + 1 => (if turn s a = .leave then 1 else 0) + leavers (next s a) l p
  | _, _, _ => 0

/-- No round before position `p` stops the loop. -/
def Proceeds : σ → List α → (p : Nat) → Prop
  | s, a :: l, p + 1 => turn s a ≠ .stop ∧ Proceeds (next s a) l p
  | _, _, _ => True

instance Proceeds.decidable : (s : σ) → (l : List α) → (p : Nat) →
    Decidable (Proceeds turn next s l p)
  | s, a :: l, p + 1 =>
    have := Proceeds.decidable (next s a) l p
    inferInstanceAs (Decidable (turn s a ≠ .stop ∧ Proceeds turn next (next s a) l p))
  | _, [], _ => .isTrue trivial
  | _, _ :: _, 0 => .isTrue trivial

variable {turn next} {s : σ} {l : List α} {p : Nat}

@[simp] theorem sweep_nil : sweep turn next s [] = [] := by rw [sweep]

theorem sweep_stay {a : α} (h : turn s a = .stay) :
    sweep turn next s (a :: l) = a :: sweep turn next (next s a) l := by rw [sweep, h]

theorem sweep_leave {a : α} (h : turn s a = .leave) :
    sweep turn next s (a :: l) = a :: sweep turn next (next s a) l.dropLast := by rw [sweep, h]

theorem sweep_stop {a : α} (h : turn s a = .stop) : sweep turn next s (a :: l) = [a] := by
  rw [sweep, h]

/-- The loop goes through the array from its start. -/
theorem sweep_start (s : σ) (l : List α) : ∃ rest, l = sweep turn next s l ++ rest := by
  fun_induction sweep turn next s l with
  | case1 s => exact ⟨[], rfl⟩
  | case2 s a l h ih =>
    obtain ⟨rest, hrest⟩ := ih
    exact ⟨rest, by rw [List.cons_append, ← hrest]⟩
  | case3 s a l h ih =>
    obtain ⟨rest, hrest⟩ := ih
    refine ⟨rest ++ l.drop (l.length - 1), ?_⟩
    rw [List.cons_append, ← List.append_assoc, ← hrest, List.dropLast_eq_take,
      List.take_append_drop]
  | case4 s a l h => exact ⟨l, rfl⟩

theorem leavers_congr {l l' : List α} (h : l.take p = l'.take p) (s : σ) :
    leavers turn next s l p = leavers turn next s l' p ∧
      (Proceeds turn next s l p ↔ Proceeds turn next s l' p) := by
  induction p generalizing s l l' with
  | zero => cases l <;> cases l' <;> simp [leavers, Proceeds]
  | succ p ih =>
    cases l with
    | nil =>
      cases l' with
      | nil => exact ⟨rfl, Iff.rfl⟩
      | cons a l' => cases h
    | cons a l =>
      cases l' with
      | nil => cases h
      | cons a' l' =>
        obtain ⟨rfl, hrest⟩ := List.cons.inj h
        obtain ⟨hleavers, hproceeds⟩ := ih hrest (next s a)
        exact ⟨by rw [leavers, leavers, hleavers], and_congr_right fun _ => hproceeds⟩

/-- The loop comes to a position when the array is still longer by then, and it did not stop. -/
theorem lt_sweep (s : σ) (l : List α) (p : Nat) : p < (sweep turn next s l).length ↔
    p + leavers turn next s l p < l.length ∧ Proceeds turn next s l p := by
  fun_induction sweep turn next s l generalizing p with
  | case1 s => simp
  | case2 s a l h ih =>
    cases p with
    | zero => simp [leavers, Proceeds]
    | succ p =>
      have hlength : p + 1 + (0 + leavers turn next (next s a) l p) < l.length + 1 ↔
          p + leavers turn next (next s a) l p < l.length := by omega
      simp only [List.length_cons, leavers, Proceeds, h, reduceCtorEq, if_false, hlength]
      rw [Nat.add_lt_add_iff_right, ih p]
      simp
  | case3 s a l h ih =>
    cases p with
    | zero => simp [leavers, Proceeds]
    | succ p =>
      have hlength : p + 1 + (1 + leavers turn next (next s a) l p) < l.length + 1 ↔
          p + leavers turn next (next s a) l p < l.length - 1 := by omega
      simp only [List.length_cons, leavers, Proceeds, h, if_true, hlength]
      rw [Nat.add_lt_add_iff_right, ih p, List.length_dropLast]
      by_cases hlast : p < l.length
      · have htake : l.dropLast.take p = l.take p := by
          rw [List.dropLast_eq_take, List.take_take, Nat.min_eq_left (by omega)]
        obtain ⟨hleavers, hproceeds⟩ := leavers_congr htake (next s a)
        rw [hleavers, hproceeds]
        simp
      · constructor
        · intro hreached
          omega
        · intro hreached
          omega
  | case4 s a l h =>
    cases p with
    | zero => simp [leavers, Proceeds]
    | succ p => simp [Proceeds, h]

/-- An element is reached at its position. -/
theorem mem_sweep {a : α} : a ∈ sweep turn next s l ↔ ∃ p, l[p]? = some a ∧
    p + leavers turn next s l p < l.length ∧ Proceeds turn next s l p := by
  obtain ⟨rest, hrest⟩ := @sweep_start _ _ turn next s l
  rw [List.mem_iff_getElem?]
  constructor
  · intro h
    obtain ⟨p, hp⟩ := h
    have hlt := (List.getElem?_eq_some_iff.mp hp).1
    refine ⟨p, ?_, (lt_sweep s l p).mp hlt⟩
    rw [hrest, List.getElem?_append_left hlt, hp]
  · intro h
    obtain ⟨p, hp, hreached⟩ := h
    have hlt := (lt_sweep s l p).mpr hreached
    refine ⟨p, ?_⟩
    rwa [hrest, List.getElem?_append_left hlt] at hp

/-- With no element twice, none is reached twice. -/
theorem sweep_nodup (h : l.Nodup) : (sweep turn next s l).Nodup := by
  obtain ⟨rest, hrest⟩ := @sweep_start _ _ turn next s l
  rw [hrest] at h
  exact (List.nodup_append.mp h).1

/-- The loop comes to one of the elements that do not just stay. -/
theorem exists_mem_sweep {P : α → Prop} (hstay : ∀ s a, ¬ P a → turn s a = .stay)
    (h : ∃ a ∈ l, P a) (s : σ) : ∃ a ∈ sweep turn next s l, P a := by
  induction l generalizing s with
  | nil =>
    obtain ⟨a, ha, -⟩ := h
    cases ha
  | cons first l ih =>
    by_cases hfirst : P first
    · obtain ⟨rest, hrest⟩ := @sweep_start _ _ turn next s (first :: l)
      refine ⟨first, ?_, hfirst⟩
      have hpos : 0 < (sweep turn next s (first :: l)).length := by
        rw [lt_sweep]
        exact ⟨by simp [leavers], trivial⟩
      obtain ⟨a, swept, hswept⟩ := List.exists_cons_of_length_pos hpos
      rw [hswept] at hrest ⊢
      obtain ⟨rfl, -⟩ := List.cons.inj hrest
      exact List.mem_cons_self
    · obtain ⟨a, ha, hPa⟩ := h
      have hrest : a ∈ l := (List.mem_cons.mp ha).resolve_left fun heq => hfirst (heq ▸ hPa)
      obtain ⟨b, hb, hPb⟩ := ih ⟨a, hrest, hPa⟩ (next s first)
      rw [sweep_stay (hstay s first hfirst)]
      exact ⟨b, List.mem_cons_of_mem _ hb, hPb⟩

/-! ## Filling a gap -/

section Gap

variable (before after : List α) (a d : α)

/-- The last element behind a gap moves into it. -/
theorem dropLast_set : ((before ++ a :: after).set before.length
    ((before ++ a :: after).getLastD d)).dropLast =
      before ++ (after.getLast?.toList ++ after.dropLast) := by
  rcases List.eq_nil_or_concat after with rfl | ⟨middle, last, rfl⟩
  · simp
  · have hlast : (before ++ a :: (middle ++ [last])).getLastD d = last := by
      rw [List.getLastD_eq_getLast?, ← List.cons_append, ← List.append_assoc,
        List.getLast?_concat, Option.getD_some]
    rw [List.concat_eq_append, hlast, List.set_append_right _ _ (Nat.le_refl _), Nat.sub_self,
      List.set_cons_zero, List.dropLast_append_of_ne_nil (List.cons_ne_nil _ _), ← List.cons_append,
      List.dropLast_concat]
    simp

theorem gap_perm :
    (before ++ (after.getLast?.toList ++ after.dropLast)).Perm (before ++ after) := by
  refine List.Perm.append_left before ?_
  rcases List.eq_nil_or_concat after with rfl | ⟨middle, last, rfl⟩
  · rfl
  · simpa using (List.perm_append_comm : ([last] ++ middle).Perm (middle ++ [last]))

/-- What is behind the element that moved. -/
theorem drop_gap : (before ++ (after.getLast?.toList ++ after.dropLast)).drop (before.length + 1) =
    after.dropLast := by
  rcases List.eq_nil_or_concat after with rfl | ⟨middle, last, rfl⟩
  · simp
  · simp

theorem length_gap : (before ++ (after.getLast?.toList ++ after.dropLast)).length =
    (before ++ after).length := (gap_perm before after).length_eq

end Gap

end LeanLibp2p.Lib
