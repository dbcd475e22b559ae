import Mathlib.Data.List.Induction
import Mathlib.Data.List.Nodup
import Mathlib.Order.Lattice

/-!
# Choosing in an order

A loop over a table that keeps the best candidate so far ends with the least one. Taking again and
again the least candidate behind the one taken last lists the first candidates of the order,
without a record of what was taken.
-/

namespace LeanLibp2p.Lib

variable {α β : Type} {lt : α → α → Bool} {candidate : α → Bool} {xs : List α}

/-- The order is strict and total. -/
structure StrictTotal (lt : α → α → Bool) : Prop where
  irrefl : ∀ x, lt x x = false
  trans : ∀ x y z, lt x y = true → lt y z = true → lt x z = true
  total : ∀ x y, lt x y = true ∨ x = y ∨ lt y x = true

/-- Comparing keys is such an order where no two elements share a key. -/
theorem StrictTotal.of_key {κ : Type} [LinearOrder κ] {key : α → κ}
    (hkey : ∀ x y, lt x y = true ↔ key x < key y) (hinj : Function.Injective key) :
    StrictTotal lt where
  irrefl x := Bool.eq_false_iff.mpr fun h => lt_irrefl (key x) ((hkey x x).mp h)
  trans x y z hxy hyz := (hkey x z).mpr (lt_trans ((hkey x y).mp hxy) ((hkey y z).mp hyz))
  total x y := by
    rcases lt_trichotomy (key x) (key y) with hlow | heq | hhigh
    · exact .inl ((hkey x y).mpr hlow)
    · exact .inr (.inl (hinj heq))
    · exact .inr (.inr ((hkey y x).mpr hhigh))

/-- One round of the loop, which keeps the best candidate so far. -/
def better (lt : α → α → Bool) (candidate : α → Bool) (best : Option α) (x : α) : Option α :=
  if candidate x then
    match best with
    | none => some x
    | some b => if lt x b then some x else some b
  else best

/-- The least candidate of a list. -/
def least (lt : α → α → Bool) (candidate : α → Bool) (xs : List α) : Option α :=
  xs.foldl (better lt candidate) none

/-- What the loop has after some elements: the least candidate among them, or none. -/
def IsLeast (lt : α → α → Bool) (candidate : α → Bool) (xs : List α) : Option α → Prop
  | none => ∀ x ∈ xs, candidate x = false
  | some b => b ∈ xs ∧ candidate b = true ∧
      ∀ x ∈ xs, candidate x = true → x = b ∨ lt b x = true

variable (hlt : StrictTotal lt)

include hlt

/-- One round of the loop. -/
theorem IsLeast.snoc {best : Option α} (h : IsLeast lt candidate xs best) (x : α) :
    IsLeast lt candidate (xs ++ [x]) (better lt candidate best x) := by
  unfold better
  by_cases hx : candidate x = true
  · rw [if_pos hx]
    cases best with
    | none =>
      refine ⟨by simp, hx, ?_⟩
      intro y hy hcy
      rcases List.mem_append.mp hy with hmem | hmem
      · rw [h y hmem] at hcy
        cases hcy
      · exact .inl (List.mem_singleton.mp hmem)
    | some b =>
      obtain ⟨hmem, hcb, hleast⟩ := h
      dsimp only
      by_cases hxb : lt x b = true
      · rw [if_pos hxb]
        refine ⟨by simp, hx, ?_⟩
        intro y hy hcy
        rcases List.mem_append.mp hy with hmemy | hmemy
        · rcases hleast y hmemy hcy with rfl | hby
          · exact .inr hxb
          · exact .inr (hlt.trans x b y hxb hby)
        · exact .inl (List.mem_singleton.mp hmemy)
      · rw [if_neg hxb]
        refine ⟨by simp [hmem], hcb, ?_⟩
        intro y hy hcy
        rcases List.mem_append.mp hy with hmemy | hmemy
        · exact hleast y hmemy hcy
        · obtain rfl := List.mem_singleton.mp hmemy
          rcases hlt.total y b with hlow | heq | hhigh
          · exact absurd hlow hxb
          · exact .inl heq
          · exact .inr hhigh
  · rw [if_neg hx]
    cases best with
    | none =>
      intro y hy
      rcases List.mem_append.mp hy with hmem | hmem
      · exact h y hmem
      · rw [List.mem_singleton.mp hmem]
        simpa using hx
    | some b =>
      obtain ⟨hmem, hcb, hleast⟩ := h
      refine ⟨by simp [hmem], hcb, ?_⟩
      intro y hy hcy
      rcases List.mem_append.mp hy with hmemy | hmemy
      · exact hleast y hmemy hcy
      · rw [List.mem_singleton.mp hmemy] at hcy
        exact absurd hcy hx

/-- The loop finds the least candidate. -/
theorem isLeast_least (candidate : α → Bool) (xs : List α) :
    IsLeast lt candidate xs (least lt candidate xs) := by
  induction xs using List.reverseRecOn with
  | nil => simp [least, IsLeast]
  | append_singleton xs x ih =>
    unfold least at ih ⊢
    rw [List.foldl_append]
    exact ih.snoc hlt x

/-- There is only one least candidate. -/
theorem IsLeast.unique {best best' : Option α} (h : IsLeast lt candidate xs best)
    (h' : IsLeast lt candidate xs best') : best = best' := by
  cases best with
  | none =>
    cases best' with
    | none => rfl
    | some b =>
      have hb := h b h'.1
      rw [h'.2.1] at hb
      cases hb
  | some b =>
    cases best' with
    | none =>
      have hb := h' b h.1
      rw [h.2.1] at hb
      cases hb
    | some b' =>
      rcases h.2.2 b' h'.1 h'.2.1 with heq | hlow
      · rw [heq]
      · rcases h'.2.2 b h.1 h.2.1 with heq | hhigh
        · rw [heq]
        · have hself := hlt.trans b b' b hlow hhigh
          rw [hlt.irrefl] at hself
          cases hself

theorem least_none_iff :
    least lt candidate xs = none ↔ ∀ x ∈ xs, candidate x = false := by
  have h := isLeast_least hlt candidate xs
  constructor
  · intro hnone
    rwa [hnone] at h
  · intro hall
    have hempty : IsLeast lt candidate xs none := hall
    exact h.unique hlt hempty

theorem least_eq_some {b : α} (h : least lt candidate xs = some b) :
    b ∈ xs ∧ candidate b = true ∧ ∀ x ∈ xs, candidate x = true → x = b ∨ lt b x = true := by
  have hleast := isLeast_least hlt candidate xs
  rwa [h] at hleast

/-- The choice follows a renaming of the candidates that keeps their order. -/
theorem least_map {lt' : β → β → Bool} {candidate' : β → Bool} {ys : List β} {f : α → β}
    (hlt' : StrictTotal lt')
    (hto : ∀ x ∈ xs, candidate x = true → f x ∈ ys ∧ candidate' (f x) = true)
    (hfrom : ∀ y ∈ ys, candidate' y = true → ∃ x ∈ xs, candidate x = true ∧ f x = y)
    (hord : ∀ x ∈ xs, ∀ y ∈ xs, candidate x = true → candidate y = true → lt x y = true →
      lt' (f x) (f y) = true) :
    least lt' candidate' ys = (least lt candidate xs).map f := by
  apply (isLeast_least hlt' candidate' ys).unique hlt'
  have hleast := isLeast_least hlt candidate xs
  cases hb : least lt candidate xs with
  | none =>
    rw [hb] at hleast
    intro y hy
    by_contra hcy
    rcases hfrom y hy (by simpa using hcy) with ⟨x, hx, hcx, -⟩
    rw [hleast x hx] at hcx
    cases hcx
  | some b =>
    rw [hb] at hleast
    obtain ⟨hmem, hcb, hmin⟩ := hleast
    refine ⟨(hto b hmem hcb).1, (hto b hmem hcb).2, ?_⟩
    intro y hy hcy
    rcases hfrom y hy hcy with ⟨x, hx, hcx, rfl⟩
    rcases hmin x hx hcx with rfl | hlow
    · exact .inl rfl
    · exact .inr (hord b hmem x hx hcb hcx hlow)

/-! ## Walking along the order -/

/-- The candidate comes behind the one taken last. -/
def behind (lt : α → α → Bool) (candidate : α → Bool) : Option α → α → Bool
  | none, x => candidate x
  | some last, x => candidate x && lt last x

/-- The candidates taken in `n` rounds, each the least one behind the last. -/
def picks (lt : α → α → Bool) (candidate : α → Bool) (xs : List α) : Nat → Option α → List α
  | 0, _ => []
  | n + 1, last =>
    match least lt (behind lt candidate last) xs with
    | none => []
    | some b => b :: picks lt candidate xs n (some b)

omit hlt in
theorem picks_none {n : Nat} {last : Option α}
    (h : least lt (behind lt candidate last) xs = none) :
    picks lt candidate xs (n + 1) last = [] := by
  rw [picks, h]

omit hlt in
theorem picks_some {n : Nat} {last : Option α} {b : α}
    (h : least lt (behind lt candidate last) xs = some b) :
    picks lt candidate xs (n + 1) last = b :: picks lt candidate xs n (some b) := by
  rw [picks, h]

/-- What is taken are candidates behind the last one. -/
theorem mem_picks {n : Nat} {last : Option α} {x : α} (h : x ∈ picks lt candidate xs n last) :
    x ∈ xs ∧ behind lt candidate last x = true := by
  induction n generalizing last with
  | zero => cases h
  | succ n ih =>
    cases hb : least lt (behind lt candidate last) xs with
    | none =>
      rw [picks_none hb] at h
      cases h
    | some b =>
      rw [picks_some hb] at h
      obtain ⟨hmem, hbehind, -⟩ := least_eq_some hlt hb
      rcases List.mem_cons.mp h with rfl | htail
      · exact ⟨hmem, hbehind⟩
      · obtain ⟨hx, hbx⟩ := ih htail
        refine ⟨hx, ?_⟩
        cases last with
        | none => exact (Bool.and_eq_true _ _ ▸ hbx).1
        | some last =>
          simp only [behind, Bool.and_eq_true] at hbx hbehind ⊢
          exact ⟨hbx.1, hlt.trans last b x hbehind.2 hbx.2⟩

/-- Nothing is taken twice. -/
theorem picks_nodup (n : Nat) (last : Option α) :
    (picks lt candidate xs n last).Nodup := by
  induction n generalizing last with
  | zero => exact List.nodup_nil
  | succ n ih =>
    cases hb : least lt (behind lt candidate last) xs with
    | none => rw [picks_none hb]; exact List.nodup_nil
    | some b =>
      rw [picks_some hb]
      refine List.nodup_cons.mpr ⟨?_, ih (some b)⟩
      intro hmem
      have hself := (mem_picks hlt hmem).2
      simp only [behind, Bool.and_eq_true, hlt.irrefl] at hself
      exact Bool.false_ne_true hself.2

/-- Taking the least candidate leaves one candidate less. -/
theorem countP_behind (hnodup : xs.Nodup) {last : Option α} {b : α}
    (hb : least lt (behind lt candidate last) xs = some b) :
    xs.countP (behind lt candidate last) = xs.countP (behind lt candidate (some b)) + 1 := by
  obtain ⟨hmem, hbehind, hmin⟩ := least_eq_some hlt hb
  have hself : behind lt candidate (some b) b = false := by simp [behind, hlt.irrefl]
  have hsame : ∀ x ∈ xs, x ≠ b →
      (behind lt candidate last x = true ↔ behind lt candidate (some b) x = true) := by
    intro x hx hne
    constructor
    · intro hcx
      rcases hmin x hx hcx with heq | hlow
      · exact absurd heq hne
      · cases last with
        | none => simpa [behind, hlow] using hcx
        | some last =>
          simp only [behind, Bool.and_eq_true] at hcx ⊢
          exact ⟨hcx.1, hlow⟩
    · intro hcx
      cases last with
      | none => exact (Bool.and_eq_true _ _ ▸ hcx).1
      | some last =>
        simp only [behind, Bool.and_eq_true] at hcx hbehind ⊢
        exact ⟨hcx.1, hlt.trans last b x hbehind.2 hcx.2⟩
  obtain ⟨before, after, rfl⟩ := List.append_of_mem hmem
  have hnotin : b ∉ before ∧ b ∉ after := by
    rw [List.nodup_middle, List.nodup_cons, List.mem_append] at hnodup
    exact ⟨fun h => hnodup.1 (.inl h), fun h => hnodup.1 (.inr h)⟩
  have hbefore : before.countP (behind lt candidate last) =
      before.countP (behind lt candidate (some b)) := by
    apply List.countP_congr
    intro x hx
    exact hsame x (by simp [hx]) fun heq => hnotin.1 (heq ▸ hx)
  have hafter : after.countP (behind lt candidate last) =
      after.countP (behind lt candidate (some b)) := by
    apply List.countP_congr
    intro x hx
    exact hsame x (by simp [hx]) fun heq => hnotin.2 (heq ▸ hx)
  rw [List.countP_append, List.countP_append, List.countP_cons_of_pos hbehind,
    List.countP_cons_of_neg (by simp [hself]), hbefore, hafter]
  omega

/-- As many are taken as were asked for, unless there are less candidates. -/
theorem picks_length (hnodup : xs.Nodup) (n : Nat) (last : Option α) :
    (picks lt candidate xs n last).length = min n (xs.countP (behind lt candidate last)) := by
  induction n generalizing last with
  | zero => simp [picks]
  | succ n ih =>
    cases hb : least lt (behind lt candidate last) xs with
    | none =>
      have hall := (least_none_iff hlt).mp hb
      have hzero : xs.countP (behind lt candidate last) = 0 := by
        rw [List.countP_eq_zero]
        simpa using hall
      rw [picks_none hb, hzero]
      rfl
    | some b =>
      rw [picks_some hb, List.length_cons, ih, countP_behind hlt hnodup hb]
      omega

end LeanLibp2p.Lib
