import Mathlib.Data.Nat.Digits.Lemmas

/-!
# Radix conversion

A number is multiplied and added to in place, as its little-endian digits in some base, in an array
with limited room. Doing so for each digit of a numeral of another base converts the numeral; with the
leading zeros kept, conversion there and back again is the identity. The last section has the digits
in the cells of an array.
-/

namespace LeanLibp2p.Lib.Radix

/-- Multiply a number by `m` and add a carry, digit by digit from the least significant one of base
    `b`, in at most `room` digits. -/
def mulAdd (b m : Nat) : (room : Nat) → List Nat → (carry : Nat) → Option (List Nat)
  | 0, digits, carry => if digits = [] ∧ carry = 0 then some [] else none
  | room + 1, digits, carry =>
    if digits = [] ∧ carry = 0 then some []
    else
      let carry := carry + digits.headD 0 * m
      (mulAdd b m room digits.tail (carry / b)).map (carry % b :: ·)

/-- The number of some big-endian digits. -/
def value (b : Nat) (digits : List Nat) : Nat := digits.foldl (fun n d => n * b + d) 0

/-- How many zeros some digits start with. -/
def leading (digits : List Nat) : Nat := (digits.takeWhile (· = 0)).length

/-- Big-endian digits of base `b` as those of base `b'`, with as many leading zeros. -/
def convert (b b' : Nat) (digits : List Nat) : List Nat :=
  List.replicate (leading digits) 0 ++ (Nat.digits b' (value b digits)).reverse

variable {b b' m : Nat}

theorem digits_headD (b n : Nat) (hb : 1 < b) : (Nat.digits b n).headD 0 = n % b := by
  rcases Nat.eq_zero_or_pos n with rfl | hn
  · simp
  · rw [Nat.digits_def' hb hn]
    rfl

theorem digits_tail (b n : Nat) (hb : 1 < b) : (Nat.digits b n).tail = Nat.digits b (n / b) := by
  rcases Nat.eq_zero_or_pos n with rfl | hn
  · simp
  · rw [Nat.digits_def' hb hn]
    rfl

/-- In place, the digits become those of the new number, if there is room for them. -/
theorem mulAdd_digits (hb : 1 < b) (hm : 0 < m) (room n carry : Nat) :
    mulAdd b m room (Nat.digits b n) carry =
      if (Nat.digits b (n * m + carry)).length ≤ room then some (Nat.digits b (n * m + carry))
      else none := by
  induction room generalizing n carry with
  | zero =>
    unfold mulAdd
    by_cases hzero : Nat.digits b n = [] ∧ carry = 0
    · obtain ⟨hnil, rfl⟩ := hzero
      rw [Nat.digits_eq_nil_iff_eq_zero.mp hnil]
      simp
    · have hne : n * m + carry ≠ 0 := by
        intro h
        obtain ⟨hnm, hcarry⟩ := Nat.add_eq_zero_iff.mp h
        refine hzero ⟨Nat.digits_eq_nil_iff_eq_zero.mpr ?_, hcarry⟩
        exact (Nat.mul_eq_zero.mp hnm).resolve_right (by omega)
      have hlen : 0 < (Nat.digits b (n * m + carry)).length :=
        List.length_pos_of_ne_nil (Nat.digits_ne_nil_iff_ne_zero.mpr hne)
      rw [if_neg hzero, if_neg (by omega)]
  | succ room ih =>
    unfold mulAdd
    by_cases hzero : Nat.digits b n = [] ∧ carry = 0
    · obtain ⟨hnil, rfl⟩ := hzero
      rw [Nat.digits_eq_nil_iff_eq_zero.mp hnil]
      simp
    · have hne : 0 < n * m + carry := by
        rcases Nat.eq_zero_or_pos n with rfl | hn
        · have hcarry : carry ≠ 0 := fun hcarry => hzero ⟨Nat.digits_zero b, hcarry⟩
          omega
        · exact Nat.add_pos_left (Nat.mul_pos hn hm) _
      have hsplit : n * m + carry = carry + n % b * m + b * (n / b * m) := by
        have hn := Nat.mod_add_div n b
        calc n * m + carry = (n % b + b * (n / b)) * m + carry := by rw [hn]
          _ = carry + n % b * m + b * (n / b * m) := by ring
      have hdiv : (n * m + carry) / b = n / b * m + (carry + n % b * m) / b := by
        rw [hsplit, Nat.add_mul_div_left _ _ (by omega), Nat.add_comm]
      have hmod : (n * m + carry) % b = (carry + n % b * m) % b := by
        rw [hsplit, Nat.add_mul_mod_self_left]
      rw [if_neg hzero, digits_headD b n hb, digits_tail b n hb]
      dsimp only
      rw [ih, Nat.digits_def' hb hne, hdiv, hmod, List.length_cons]
      by_cases hroom : (Nat.digits b (n / b * m + (carry + n % b * m) / b)).length ≤ room
      · rw [if_pos hroom, if_pos (by omega)]
        rfl
      · rw [if_neg hroom, if_neg (by omega)]
        rfl

theorem foldl_ge (hm : 0 < m) (ds : List Nat) (n : Nat) : n ≤ ds.foldl (fun n d => n * m + d) n := by
  induction ds generalizing n with
  | nil => exact Nat.le_refl n
  | cons d ds ih =>
    have hn : n ≤ n * m := Nat.le_mul_of_pos_right n hm
    exact Nat.le_trans (by omega) (ih (n * m + d))

/-- One numeral's digits, one after the other. There was room all along if there is at the end. -/
theorem foldlM_mulAdd (hb : 1 < b) (hm : 0 < m) (room : Nat) (ds : List Nat) (n : Nat)
    (hroom : (Nat.digits b n).length ≤ room) :
    ds.foldlM (fun digits d => mulAdd b m room digits d) (Nat.digits b n) =
      if (Nat.digits b (ds.foldl (fun n d => n * m + d) n)).length ≤ room then
        some (Nat.digits b (ds.foldl (fun n d => n * m + d) n))
      else none := by
  induction ds generalizing n with
  | nil => simp [hroom]
  | cons d ds ih =>
    rw [List.foldlM_cons, mulAdd_digits hb hm, List.foldl_cons]
    by_cases hnext : (Nat.digits b (n * m + d)).length ≤ room
    · rw [if_pos hnext]
      exact ih (n * m + d) hnext
    · have hgrows := Nat.le_length_digits_le b _ _ (foldl_ge hm ds (n * m + d))
      rw [if_neg hnext, if_neg (by omega)]
      rfl

/-! ## There and back -/

theorem value_replicate_zero (b k : Nat) (ds : List Nat) :
    value b (List.replicate k 0 ++ ds) = value b ds := by
  induction k with
  | zero => rfl
  | succ k ih =>
    rw [List.replicate_succ, List.cons_append, value, List.foldl_cons, Nat.zero_mul, Nat.zero_add]
    exact ih

theorem value_eq (b : Nat) (ds : List Nat) : value b ds = Nat.ofDigits b ds.reverse := by
  induction ds using List.reverseRecOn with
  | nil => rfl
  | append_singleton ds d ih =>
    rw [List.reverse_append, List.reverse_singleton, List.singleton_append, Nat.ofDigits_cons, ← ih]
    simp only [value, List.foldl_append, List.foldl_cons, List.foldl_nil]
    ring

theorem leading_replicate (k : Nat) {ds : List Nat} (h : ds.head? ≠ some 0) :
    leading (List.replicate k 0 ++ ds) = k := by
  induction k with
  | zero =>
    cases ds with
    | nil => rfl
    | cons d ds =>
      have hd : d ≠ 0 := fun hd => h (by rw [hd]; rfl)
      simp [leading, hd]
  | succ k ih =>
    rw [List.replicate_succ, List.cons_append, leading, List.takeWhile_cons_of_pos (by simp),
      List.length_cons, ← leading, ih]

/-- Digits are their leading zeros and digits without any. -/
theorem exists_leading (ds : List Nat) :
    ∃ rest, ds = List.replicate (leading ds) 0 ++ rest ∧ rest.head? ≠ some 0 := by
  induction ds with
  | nil => exact ⟨[], rfl, by simp⟩
  | cons d ds ih =>
    by_cases hd : d = 0
    · subst hd
      obtain ⟨rest, hds, hrest⟩ := ih
      refine ⟨rest, ?_, hrest⟩
      rw [leading, List.takeWhile_cons_of_pos (by simp), List.length_cons, ← leading,
        List.replicate_succ, List.cons_append, ← hds]
    · refine ⟨d :: ds, ?_, by simpa using hd⟩
      simp [leading, hd]

theorem head?_reverse_digits (b n : Nat) : (Nat.digits b n).reverse.head? ≠ some 0 := by
  intro hzero
  rw [List.head?_reverse] at hzero
  have hne : n ≠ 0 := by
    rintro rfl
    simp at hzero
  refine Nat.getLast_digit_ne_zero b hne ?_
  rw [List.getLast?_eq_some_getLast (Nat.digits_ne_nil_iff_ne_zero.mpr hne)] at hzero
  exact Option.some.inj hzero

theorem digits_value (hb : 1 < b) {ds : List Nat} (hds : ∀ d ∈ ds, d < b)
    (h : ds.head? ≠ some 0) : (Nat.digits b (value b ds)).reverse = ds := by
  rw [value_eq, Nat.digits_ofDigits b hb, List.reverse_reverse]
  · exact fun d hd => hds d (List.mem_reverse.mp hd)
  · intro hne hlast
    rw [List.getLast_reverse] at hlast
    refine h ?_
    rw [List.head?_eq_some_head (by simpa using hne), hlast]

/-- Converting back gives the digits that were converted. -/
theorem convert_convert (b' : Nat) (hb : 1 < b) {ds : List Nat} (hds : ∀ d ∈ ds, d < b) :
    convert b' b (convert b b' ds) = ds := by
  obtain ⟨rest, heq, hrest⟩ := exists_leading ds
  have hvalue : value b ds = value b rest := by
    conv_lhs => rw [heq]
    exact value_replicate_zero b _ rest
  have hback : value b' (convert b b' ds) = value b rest := by
    rw [convert, value_replicate_zero, value_eq, List.reverse_reverse, Nat.ofDigits_digits, hvalue]
  have hlead : leading (convert b b' ds) = leading ds :=
    leading_replicate _ (head?_reverse_digits b' _)
  have hmem : ∀ d ∈ rest, d < b := fun d hd => hds d (by rw [heq]; exact List.mem_append_right _ hd)
  rw [convert, hlead, hback, digits_value hb hmem hrest, ← heq]

theorem convert_lt (hb' : 1 < b') (ds : List Nat) : ∀ d ∈ convert b b' ds, d < b' := by
  intro d hd
  rcases List.mem_append.mp hd with hd | hd
  · rw [(List.mem_replicate.mp hd).2]
    omega
  · exact Nat.digits_lt_base hb' (List.mem_reverse.mp hd)

/-! ## Length and first digits -/

theorem value_lt (hb : 1 < b) {ds : List Nat} (hds : ∀ d ∈ ds, d < b) :
    value b ds < b ^ ds.length := by
  rw [value_eq, ← List.length_reverse]
  exact Nat.ofDigits_lt_base_pow_length hb fun d hd => hds d (List.mem_reverse.mp hd)

theorem value_append (b : Nat) (ds es : List Nat) :
    value b (ds ++ es) = value b ds * b ^ es.length + value b es := by
  rw [value_eq, value_eq, value_eq, List.reverse_append, Nat.ofDigits_append, List.length_reverse]
  ring

theorem convert_zero_cons (b b' : Nat) (ds : List Nat) :
    convert b b' (0 :: ds) = 0 :: convert b b' ds := by
  have hvalue : value b (0 :: ds) = value b ds := value_replicate_zero b 1 ds
  rw [convert, convert, hvalue, leading, List.takeWhile_cons_of_pos (by simp), List.length_cons,
    ← leading, List.replicate_succ, List.cons_append]

/-- Where `i` digits take at most `j` digits of the new base, so does every group of `i` of them. -/
theorem convert_length_le {i j : Nat} (hb : 1 < b) (hb' : 1 < b') (hi : 0 < i)
    (hij : b ^ i ≤ b' ^ j) {ds : List Nat} (hds : ∀ d ∈ ds, d < b) :
    ∃ zeros ≤ ds.length,
      (convert b b' ds).length ≤ zeros + j * ((ds.length - zeros + (i - 1)) / i) := by
  obtain ⟨rest, heq, -⟩ := exists_leading ds
  have hvalue : value b ds = value b rest := by
    conv_lhs => rw [heq]
    exact value_replicate_zero b _ rest
  have hmem : ∀ d ∈ rest, d < b := fun d hd => hds d (by rw [heq]; exact List.mem_append_right _ hd)
  have hlength : ds.length = leading ds + rest.length := by
    conv_lhs => rw [heq]
    rw [List.length_append, List.length_replicate]
  have hgroups : rest.length ≤ i * ((rest.length + (i - 1)) / i) := by
    have hlt := Nat.lt_mul_div_succ (rest.length + (i - 1)) hi
    rw [Nat.mul_add] at hlt
    omega
  have hdigits : (Nat.digits b' (value b rest)).length ≤ j * ((rest.length + (i - 1)) / i) := by
    rw [Nat.digits_length_le_iff hb', pow_mul]
    calc value b rest < b ^ rest.length := value_lt hb hmem
      _ ≤ b ^ (i * ((rest.length + (i - 1)) / i)) := Nat.pow_le_pow_right (by omega) hgroups
      _ = (b ^ i) ^ ((rest.length + (i - 1)) / i) := pow_mul _ _ _
      _ ≤ (b' ^ j) ^ ((rest.length + (i - 1)) / i) := Nat.pow_le_pow_left hij _
  refine ⟨leading ds, by omega, ?_⟩
  have hrest : ds.length - leading ds = rest.length := by omega
  rw [convert, List.length_append, List.length_replicate, List.length_reverse, hvalue, hrest]
  omega

theorem drop_digits (hb : 1 < b) (k n : Nat) :
    (Nat.digits b n).drop k = Nat.digits b (n / b ^ k) := by
  induction k generalizing n with
  | zero => simp
  | succ k ih =>
    rw [← List.drop_drop, List.drop_one, ih, digits_tail b _ hb, Nat.div_div_eq_div_mul, pow_succ]

/-- The digits above the `k`-th come first. -/
theorem reverse_digits (hb : 1 < b) (k n : Nat) :
    ∃ low, (Nat.digits b n).reverse = (Nat.digits b (n / b ^ k)).reverse ++ low := by
  refine ⟨((Nat.digits b n).take k).reverse, ?_⟩
  rw [← drop_digits hb, ← List.reverse_append, List.take_append_drop]

/-! ## In an array -/

/-- `mulAdd` on the last cells of an array, the least significant digit in the last one: `index` digits
    are done, `room` cells from `start` on are left, and `used` cells held digits before. -/
def mulAddAt (b m start used : Nat) :
    (room : Nat) → (cells : List Nat) → (carry index : Nat) → Option (List Nat × Nat)
  | 0, cells, carry, index => if carry ≠ 0 ∨ index < used then none else some (cells, index)
  | room + 1, cells, carry, index =>
    if carry ≠ 0 ∨ index < used then
      let carry := carry + cells.getD (start + room) 0 * m
      mulAddAt b m start used room (cells.set (start + room) (carry % b)) (carry / b) (index + 1)
    else some (cells, index)

/-- Copy `n` cells from `gap` cells further on, front to back. -/
def moveAt (f : Nat → Nat) (gap : Nat) : (n : Nat) → (pos : Nat) → List Nat → List Nat
  | 0, _, cells => cells
  | n + 1, pos, cells => moveAt f gap n (pos + 1) (cells.set pos (f (cells.getD (pos + gap) 0)))

/-- The last cells of an array that hold some digits, with zeros up to `room` cells. -/
def stored (room : Nat) (digits : List Nat) : List Nat :=
  (digits ++ List.replicate (room - digits.length) 0).reverse

theorem stored_nil (room : Nat) : stored room [] = List.replicate room 0 := by
  simp [stored]

theorem stored_length {room : Nat} {digits : List Nat} (h : digits.length ≤ room) :
    (stored room digits).length = room := by
  simp only [stored, List.length_reverse, List.length_append, List.length_replicate]
  omega

theorem stored_succ (room : Nat) (digits : List Nat) :
    stored (room + 1) digits = stored room digits.tail ++ [digits.headD 0] := by
  cases digits with
  | nil => rw [List.tail_nil, stored_nil, stored_nil, List.replicate_succ']; rfl
  | cons d ds => simp [stored]

theorem mulAdd_length_le (room : Nat) :
    ∀ {digits new : List Nat} {carry : Nat}, mulAdd b m room digits carry = some new →
      new.length ≤ room := by
  induction room with
  | zero =>
    intro digits new carry h
    unfold mulAdd at h
    split at h
    · cases h
      simp
    · cases h
  | succ room ih =>
    intro digits new carry h
    unfold mulAdd at h
    split at h
    · cases h
      simp
    · obtain ⟨more, hmore, rfl⟩ := Option.map_eq_some_iff.mp h
      have := ih hmore
      simp only [List.length_cons]
      omega

theorem getD_append_cell (front back : List Nat) (cell : Nat) {pos : Nat} (h : pos = front.length) :
    (front ++ cell :: back).getD pos 0 = cell := by
  rw [h]
  simp

theorem set_append_cell (front back : List Nat) (cell new : Nat) {pos : Nat}
    (h : pos = front.length) : (front ++ cell :: back).set pos new = front ++ new :: back := by
  rw [h]
  simp

/-- The array holds what `mulAdd` computes on the digits that it holds. -/
theorem mulAddAt_stored (front : List Nat) (used room : Nat) :
    ∀ (digits done : List Nat) (carry : Nat), digits.length ≤ room →
      used - done.length = digits.length →
      mulAddAt b m front.length used room (front ++ (stored room digits ++ done.reverse)) carry
          done.length =
        (mulAdd b m room digits carry).map fun new =>
          (front ++ (stored room new ++ done.reverse), done.length + new.length) := by
  induction room with
  | zero =>
    intro digits done carry hlen hused
    obtain rfl := List.eq_nil_of_length_eq_zero (Nat.le_zero.mp hlen)
    have hdone : ¬ done.length < used := by
      rw [List.length_nil] at hused
      omega
    rw [mulAddAt, mulAdd]
    by_cases hcarry : carry = 0
    · rw [if_neg (by omega), if_pos ⟨rfl, hcarry⟩]
      simp
    · rw [if_pos (.inl hcarry), if_neg fun h => hcarry h.2]
      rfl
  | succ room ih =>
    intro digits done carry hlen hused
    have hmore : done.length < used ↔ digits ≠ [] := by
      rw [← List.length_pos_iff]
      omega
    rw [mulAddAt, mulAdd]
    by_cases hstop : digits = [] ∧ carry = 0
    · obtain ⟨rfl, rfl⟩ := hstop
      rw [if_neg (by rw [hmore]; simp), if_pos ⟨rfl, rfl⟩]
      simp
    · rw [if_pos (by rw [hmore]; tauto), if_neg hstop]
      have htail : digits.tail.length ≤ room := by
        rw [List.length_tail]
        omega
      have hused' : used - (done.length + 1) = digits.tail.length := by
        rw [List.length_tail]
        omega
      have hpos : front.length + room = (front ++ stored room digits.tail).length := by
        rw [List.length_append, stored_length htail]
      have hcells : front ++ (stored (room + 1) digits ++ done.reverse) =
          (front ++ stored room digits.tail) ++ digits.headD 0 :: done.reverse := by
        simp [stored_succ]
      have hnext (value : Nat) : (front ++ stored room digits.tail) ++ value :: done.reverse =
          front ++ (stored room digits.tail ++ (done ++ [value]).reverse) := by
        simp
      have hstep := ih digits.tail (done ++ [(carry + digits.headD 0 * m) % b])
        ((carry + digits.headD 0 * m) / b) htail
        (by rw [List.length_append, List.length_singleton, hused'])
      rw [List.length_append, List.length_singleton] at hstep
      rw [hcells]
      simp only [getD_append_cell _ _ _ hpos, set_append_cell _ _ _ _ hpos]
      rw [hnext, hstep, Option.map_map]
      congr 1
      funext new
      simp [stored_succ, Nat.add_comm, Nat.add_left_comm]

/-- A move ends with the moved cells in place, and as many behind them as there were between. -/
theorem moveAt_eq (f : Nat → Nat) (source : List Nat) :
    ∀ (front between : List Nat), ∃ rest, rest.length = between.length ∧
      moveAt f between.length source.length front.length (front ++ (between ++ source)) =
        front ++ (source.map f ++ rest) := by
  induction source with
  | nil => exact fun front between => ⟨between, rfl, by simp [moveAt]⟩
  | cons cell source ih =>
    intro front between
    obtain ⟨head, gap, hgap⟩ : ∃ head gap, between ++ [cell] = head :: gap :=
      List.exists_cons_of_ne_nil (by simp)
    have hlen : gap.length = between.length := by
      have := congrArg List.length hgap
      simpa using this.symm
    have hsplit : between ++ cell :: source = head :: (gap ++ source) := by
      rw [← List.singleton_append, ← List.append_assoc, hgap, List.cons_append]
    have hread : (front ++ (between ++ cell :: source)).getD (front.length + between.length) 0 =
        cell := by
      rw [← List.append_assoc]
      exact getD_append_cell _ _ _ (by rw [List.length_append])
    obtain ⟨rest, hrest, hmove⟩ := ih (front ++ [f cell]) gap
    refine ⟨rest, hrest.trans hlen, ?_⟩
    rw [List.length_cons, moveAt, hread, hsplit, set_append_cell _ _ _ _ rfl]
    rw [List.length_append, List.length_singleton, hlen] at hmove
    simpa using hmove

/-- The cells of a range are set to one value. -/
theorem moveAt_fill (value : Nat) (front cells back : List Nat) :
    moveAt (fun _ => value) 0 cells.length front.length (front ++ (cells ++ back)) =
      front ++ (List.replicate cells.length value ++ back) := by
  induction cells generalizing front with
  | nil => rfl
  | cons cell cells ih =>
    have hstep := ih (front ++ [value])
    rw [List.length_append, List.length_singleton] at hstep
    rw [List.length_cons, moveAt, List.cons_append, set_append_cell _ _ _ _ rfl]
    simpa [List.replicate_succ] using hstep

end LeanLibp2p.Lib.Radix
