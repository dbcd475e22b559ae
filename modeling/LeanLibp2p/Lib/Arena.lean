import Mathlib.Algebra.GroupWithZero.Nat
import Mathlib.Data.List.Nodup
import Mathlib.Data.List.Pairwise

/-!
# Byte areas and compaction

A byte area is a total map from addresses to bytes; `slice` reads a range, `store` and `move`
write one, the second with the overlap rules of `memmove`. An area that is cut into regions is
compacted by sliding the regions, in the order of their offsets, down to a cursor.
-/

namespace LeanLibp2p.Lib

variable {order : List Nat}

/-- A byte area. -/
abbrev Memory := Nat → UInt8

variable (mem : Memory)

namespace Memory

/-- The `len` bytes from `off`. -/
def slice (off len : Nat) : List UInt8 := (List.range len).map fun k => mem (off + k)

/-- Write `bytes` from `off`. -/
def store (off : Nat) (bytes : List UInt8) : Memory := fun a =>
  if off ≤ a ∧ a < off + bytes.length then bytes.getD (a - off) 0 else mem a

/-- `memmove(&mem[dst], &mem[src], len)`. -/
def move (dst src len : Nat) : Memory := fun a =>
  if dst ≤ a ∧ a < dst + len then mem (src + (a - dst)) else mem a

/-- Moving a range onto itself, or an empty one, does nothing. -/
theorem move_self (off len : Nat) : move mem off off len = mem := by
  funext a
  unfold move
  split
  · rw [Nat.add_sub_of_le (by omega)]
  · rfl

theorem move_zero (dst src : Nat) : move mem dst src 0 = mem := by
  funext a
  unfold move
  rw [if_neg (by omega)]

@[simp] theorem slice_length (off len : Nat) : (slice mem off len).length = len := by
  simp [slice]

@[simp] theorem slice_zero (off : Nat) : slice mem off 0 = [] := rfl

/-- A slice only depends on the bytes in it. -/
theorem slice_congr {mem mem' : Memory} {off off' len : Nat}
    (h : ∀ k < len, mem (off + k) = mem' (off' + k)) : slice mem off len = slice mem' off' len := by
  unfold slice
  apply List.map_congr_left
  intro k hk
  exact h k (List.mem_range.mp hk)

theorem slice_append (off m n : Nat) :
    slice mem off (m + n) = slice mem off m ++ slice mem (off + m) n := by
  unfold slice
  rw [List.range_add, List.map_append, List.map_map]
  simp [Function.comp_def, Nat.add_assoc]

theorem slice_take (off : Nat) {n len : Nat} (h : n ≤ len) :
    (slice mem off len).take n = slice mem off n := by
  obtain ⟨m, rfl⟩ : ∃ m, len = n + m := ⟨len - n, by omega⟩
  rw [slice_append, List.take_left' (slice_length ..)]

theorem slice_drop (off : Nat) {n len : Nat} (h : n ≤ len) :
    (slice mem off len).drop n = slice mem (off + n) (len - n) := by
  obtain ⟨m, rfl⟩ : ∃ m, len = n + m := ⟨len - n, by omega⟩
  rw [slice_append, List.drop_left' (slice_length ..), Nat.add_sub_cancel_left]

theorem slice_store (off : Nat) (bytes : List UInt8) :
    slice (store mem off bytes) off bytes.length = bytes := by
  apply List.ext_getElem
  · simp
  · intro k hk _
    have hk' : k < bytes.length := by simpa using hk
    simp [slice, store, hk']

theorem slice_store_of_disjoint {off off' len : Nat} {bytes : List UInt8}
    (h : off + len ≤ off' ∨ off' + bytes.length ≤ off) :
    slice (store mem off' bytes) off len = slice mem off len := by
  apply slice_congr
  intro k hk
  unfold store
  rw [if_neg (by omega)]

theorem slice_move (dst src len : Nat) :
    slice (move mem dst src len) dst len = slice mem src len := by
  apply slice_congr
  intro k hk
  unfold move
  rw [if_pos (by omega), Nat.add_sub_cancel_left]

theorem slice_move_of_disjoint {dst src off n len : Nat} (h : off + n ≤ dst ∨ dst + len ≤ off) :
    slice (move mem dst src len) off n = slice mem off n := by
  apply slice_congr
  intro k hk
  unfold move
  rw [if_neg (by omega)]

end Memory

/-- A byte area with the offsets of the regions in it. -/
structure Arena where
  mem : Memory
  offset : Nat → Nat

namespace Arena

variable (len : Nat → Nat)

/-- The bytes of region `i`. -/
def content (a : Arena) (i : Nat) : List UInt8 := a.mem.slice (a.offset i) (len i)

/-- Slide region `i` down to `cursor`. -/
def slide (a : Arena) (i cursor : Nat) : Arena :=
  ⟨a.mem.move cursor (a.offset i) (len i), Function.update a.offset i cursor⟩

/-- Slide the regions one after the other, and return where the last one ends. -/
def slideAll : List Nat → Nat → Arena → Arena × Nat
  | [], cursor, a => (a, cursor)
  | i :: order, cursor, a => slideAll order (cursor + len i) (slide len a i cursor)

/-- Two regions do not overlap. -/
def Apart (a : Arena) (i j : Nat) : Prop :=
  a.offset i + len i ≤ a.offset j ∨ a.offset j + len j ≤ a.offset i

/-- The regions lie one after the other from `cursor` on, with room between them. -/
def Sorted (a : Arena) : Nat → List Nat → Prop
  | _, [] => True
  | cursor, i :: order => cursor ≤ a.offset i ∧ Sorted a (a.offset i + len i) order

variable {len} {a : Arena}

theorem Sorted.mono {cursor cursor' : Nat} {order : List Nat} (h : Sorted len a cursor order)
    (hle : cursor' ≤ cursor) : Sorted len a cursor' order := by
  cases order with
  | nil => trivial
  | cons i order => exact ⟨Nat.le_trans hle h.1, h.2⟩

theorem Sorted.le_offset {cursor : Nat} {order : List Nat} (h : Sorted len a cursor order) :
    ∀ i ∈ order, cursor ≤ a.offset i := by
  induction order generalizing cursor with
  | nil =>
    intro i hi
    cases hi
  | cons j order ih =>
    intro i hi
    rcases List.mem_cons.mp hi with rfl | hi
    · exact h.1
    · have := ih h.2 i hi
      have := h.1
      omega

theorem Sorted.congr {a' : Arena} {cursor : Nat} {order : List Nat} (h : Sorted len a cursor order)
    (hoff : ∀ i ∈ order, a'.offset i = a.offset i) : Sorted len a' cursor order := by
  induction order generalizing cursor with
  | nil => trivial
  | cons i order ih =>
    have hi := hoff i (by simp)
    refine ⟨?_, ?_⟩
    · rw [hi]
      exact h.1
    · rw [hi]
      exact ih h.2 fun j hj => hoff j (by simp [hj])

/-- Regions that lie one after the other below a bound fill no more than the bound. -/
theorem Sorted.sum_le {cursor bound : Nat} {order : List Nat} (h : Sorted len a cursor order)
    (hcursor : cursor ≤ bound) (hbound : ∀ i ∈ order, a.offset i + len i ≤ bound) :
    cursor + (order.map len).sum ≤ bound := by
  induction order generalizing cursor with
  | nil => simpa using hcursor
  | cons i order ih =>
    have hrest := ih h.2 (hbound i (by simp)) fun j hj => hbound j (by simp [hj])
    have := h.1
    rw [List.map_cons, List.sum_cons]
    omega

theorem slide_offset_of_ne (a : Arena) {i j : Nat} (cursor : Nat) (h : j ≠ i) :
    (slide len a i cursor).offset j = a.offset j := Function.update_of_ne h ..

@[simp] theorem slide_offset_self (a : Arena) (i cursor : Nat) :
    (slide len a i cursor).offset i = cursor := Function.update_self ..

/-- Sliding keeps the bytes of the region, of those below the cursor and of those above it. -/
theorem slide_content_self (a : Arena) (i cursor : Nat) :
    content len (slide len a i cursor) i = content len a i := by
  unfold content
  rw [slide_offset_self]
  exact Memory.slice_move ..

theorem slide_content_of_ne {i j cursor : Nat} (hne : j ≠ i) (hcursor : cursor ≤ a.offset i)
    (h : a.offset j + len j ≤ cursor ∨ a.offset i + len i ≤ a.offset j) :
    content len (slide len a i cursor) j = content len a j := by
  unfold content
  rw [slide_offset_of_ne a cursor hne]
  exact Memory.slice_move_of_disjoint _ (by omega)

/-- Regions that are not in the order and end below the cursor stay as they are. -/
theorem slideAll_below {cursor j : Nat} (hsorted : Sorted len a cursor order)
    (hnd : order.Nodup) (hj : j ∉ order) (hbelow : a.offset j + len j ≤ cursor) :
    (slideAll len order cursor a).1.offset j = a.offset j ∧
      content len (slideAll len order cursor a).1 j = content len a j := by
  induction order generalizing cursor a with
  | nil => exact ⟨rfl, rfl⟩
  | cons i order ih =>
    have hji : j ≠ i := fun heq => hj (by simp [heq])
    have hrest : Sorted len (slide len a i cursor) (cursor + len i) order := by
      refine (hsorted.2.mono ?_).congr fun k hk => slide_offset_of_ne a cursor ?_
      · have := hsorted.1
        omega
      · rintro rfl
        exact (List.nodup_cons.mp hnd).1 hk
    have hstep := ih hrest (List.nodup_cons.mp hnd).2 (fun h => hj (by simp [h]))
      (by rw [slide_offset_of_ne a cursor hji]; omega)
    rw [slide_offset_of_ne a cursor hji, slide_content_of_ne hji hsorted.1 (.inl hbelow)] at hstep
    exact hstep

/-- After sliding, the regions lie between the old and the new cursor without overlap, each with
    the bytes it had. -/
theorem slideAll_spec {cursor : Nat} (hsorted : Sorted len a cursor order) (hnd : order.Nodup) :
    (∀ i ∈ order, content len (slideAll len order cursor a).1 i = content len a i ∧
      cursor ≤ (slideAll len order cursor a).1.offset i ∧
      (slideAll len order cursor a).1.offset i + len i ≤ (slideAll len order cursor a).2) ∧
    order.Pairwise (fun i j => (slideAll len order cursor a).1.offset i + len i ≤
      (slideAll len order cursor a).1.offset j) ∧
    (slideAll len order cursor a).2 = cursor + (order.map len).sum := by
  induction order generalizing cursor a with
  | nil => simp [slideAll]
  | cons i order ih =>
    have hnotin := (List.nodup_cons.mp hnd).1
    have hne : ∀ k ∈ order, k ≠ i := by
      rintro k hk rfl
      exact hnotin hk
    have hrest : Sorted len (slide len a i cursor) (cursor + len i) order := by
      refine (hsorted.2.mono ?_).congr fun k hk => slide_offset_of_ne a cursor (hne k hk)
      have := hsorted.1
      omega
    rcases ih hrest (List.nodup_cons.mp hnd).2 with ⟨hall, hpairs, hend⟩
    rcases slideAll_below hrest (List.nodup_cons.mp hnd).2 hnotin
      (Nat.le_of_eq (by rw [slide_offset_self])) with ⟨hoff, hcontent⟩
    rw [slide_offset_self] at hoff
    rw [slide_content_self] at hcontent
    refine ⟨?_, ?_, ?_⟩
    · intro j hj
      rcases List.mem_cons.mp hj with rfl | hj
      · refine ⟨hcontent, ?_, ?_⟩
        · exact Nat.le_of_eq hoff.symm
        · change (slideAll len order (cursor + len j) (slide len a j cursor)).1.offset j + len j ≤
            (slideAll len order (cursor + len j) (slide len a j cursor)).2
          rw [hoff, hend]
          omega
      · rcases hall j hj with ⟨hc, hlow, hhigh⟩
        rw [slide_content_of_ne (hne j hj) hsorted.1 (.inr (hsorted.2.le_offset j hj))] at hc
        exact ⟨hc, Nat.le_trans (Nat.le_add_right ..) hlow, hhigh⟩
    · rw [List.pairwise_cons]
      refine ⟨?_, hpairs⟩
      intro j hj
      change (slideAll len order (cursor + len i) (slide len a i cursor)).1.offset i + len i ≤ _
      rw [hoff]
      exact (hall j hj).2.1
    · change (slideAll len order (cursor + len i) (slide len a i cursor)).2 = _
      rw [hend, List.map_cons, List.sum_cons]
      omega

/-- The region that ends where the last one does is the one that lies highest, before sliding as
    after. -/
theorem slideAll_last {cursor i : Nat} (hsorted : Sorted len a cursor order)
    (hnd : order.Nodup) (hpos : ∀ j ∈ order, 0 < len j) (hi : i ∈ order) :
    (slideAll len order cursor a).1.offset i + len i = (slideAll len order cursor a).2 ↔
      ∀ j ∈ order, a.offset j ≤ a.offset i := by
  induction order generalizing cursor a with
  | nil => cases hi
  | cons k order ih =>
    have hnotin := (List.nodup_cons.mp hnd).1
    have hne : ∀ j ∈ order, j ≠ k := by
      rintro j hj rfl
      exact hnotin hj
    have hrest : Sorted len (slide len a k cursor) (cursor + len k) order := by
      refine (hsorted.2.mono ?_).congr fun j hj => slide_offset_of_ne a cursor (hne j hj)
      have := hsorted.1
      omega
    rcases List.mem_cons.mp hi with rfl | hmem
    · obtain ⟨hoff, -⟩ := slideAll_below hrest (List.nodup_cons.mp hnd).2 hnotin
        (Nat.le_of_eq (by rw [slide_offset_self]))
      rw [slide_offset_self] at hoff
      obtain ⟨-, -, hend⟩ := slideAll_spec hrest (List.nodup_cons.mp hnd).2
      change (slideAll len order (cursor + len i) (slide len a i cursor)).1.offset i + len i =
        (slideAll len order (cursor + len i) (slide len a i cursor)).2 ↔ _
      rw [hoff, hend]
      cases order with
      | nil => simp
      | cons j order =>
        have hj := hpos j (by simp)
        have hi := hpos i (by simp)
        have hbehind := hsorted.2.1
        constructor
        · intro heq
          simp only [List.map_cons, List.sum_cons] at heq
          omega
        · intro hall
          have hle := hall j (by simp)
          omega
    · have hstep := ih hrest (List.nodup_cons.mp hnd).2 (fun j hj => hpos j (by simp [hj])) hmem
      refine hstep.trans ?_
      have hfirst : a.offset k ≤ a.offset i :=
        Nat.le_trans (Nat.le_add_right ..) (hsorted.2.le_offset i hmem)
      rw [slide_offset_of_ne a cursor (hne i hmem)]
      constructor
      · intro hall j hj
        rcases List.mem_cons.mp hj with rfl | hj
        · exact hfirst
        · rw [← slide_offset_of_ne a cursor (hne j hj)]
          exact hall j hj
      · intro hall j hj
        rw [slide_offset_of_ne a cursor (hne j hj)]
        exact hall j (by simp [hj])

/-- Regions that lie one after the other do not overlap. -/
theorem apart_of_pairwise (h : order.Pairwise fun i j => a.offset i + len i ≤ a.offset j) {i j : Nat} (hi : i ∈ order)
    (hj : j ∈ order) (hij : i ≠ j) : Apart len a i j := by
  have hsymm : Std.Symm (Apart len a) := ⟨fun _ _ hapart => hapart.symm⟩
  have hapart : order.Pairwise (Apart len a) := h.imp fun hle => Or.inl hle
  exact hapart.forall hi hj hij

/-- Regions that do not overlap can be sorted. -/
theorem exists_sorted (a : Arena) {regions : List Nat} (hnd : regions.Nodup)
    (hapart : ∀ i ∈ regions, ∀ j ∈ regions, i ≠ j → Apart len a i j)
    (hpos : ∀ i ∈ regions, 0 < len i) :
    ∃ order, order.Perm regions ∧ Sorted len a 0 order := by
  refine ⟨regions.mergeSort fun i j => decide (a.offset i ≤ a.offset j), List.mergeSort_perm .., ?_⟩
  have hperm := List.mergeSort_perm regions fun i j => decide (a.offset i ≤ a.offset j)
  have hpairs : (regions.mergeSort fun i j => decide (a.offset i ≤ a.offset j)).Pairwise
      fun i j => a.offset i ≤ a.offset j := by
    refine (List.pairwise_mergeSort ?_ ?_ regions).imp (by simp)
    · intro i j k hij hjk
      simp only [decide_eq_true_eq] at *
      omega
    · intro i j
      simp only [Bool.or_eq_true, decide_eq_true_eq]
      omega
  generalize regions.mergeSort (fun i j => decide (a.offset i ≤ a.offset j)) = order at hperm hpairs
  have hnd' : order.Nodup := hperm.nodup_iff.mpr hnd
  have hmem : ∀ i ∈ order, i ∈ regions := fun i hi => hperm.mem_iff.mp hi
  clear hperm hnd
  suffices h : ∀ cursor, (∀ i ∈ order, cursor ≤ a.offset i) → Sorted len a cursor order from
    h 0 fun _ _ => Nat.zero_le _
  induction order with
  | nil => intro _ _; trivial
  | cons i order ih =>
    intro cursor hcursor
    refine ⟨hcursor i (by simp), ih (List.pairwise_cons.mp hpairs).2 (List.nodup_cons.mp hnd').2
      (fun j hj => hmem j (by simp [hj])) _ ?_⟩
    intro j hj
    have hne : i ≠ j := by
      rintro rfl
      exact (List.nodup_cons.mp hnd').1 hj
    have hle := (List.pairwise_cons.mp hpairs).1 j hj
    have hj' := hpos j (hmem j (by simp [hj]))
    rcases hapart i (hmem i (by simp)) j (hmem j (by simp [hj])) hne with h | h
    · exact h
    · omega

/-! ## Compaction by search

A compaction that keeps no list of its regions looks, in each round, for the one that lies lowest
of those it has not come to. -/

/-- The first `n` regions, searched for the live one that lies lowest from `search` on. -/
def lowest (n : Nat) (live : Nat → Prop) [DecidablePred live] (offset : Nat → Nat)
    (search top : Nat) : Option Nat × Nat :=
  (List.range n).foldl (fun best i =>
    if live i ∧ search ≤ offset i ∧ offset i < best.2 then (some i, offset i) else best) (none, top)

/-- The search over some regions keeps the lowest candidate. -/
theorem lowest_foldl (live : Nat → Prop) [DecidablePred live] (offset : Nat → Nat) (search : Nat)
    (xs : List Nat) (best : Option Nat × Nat) :
    let res := xs.foldl (fun best i =>
      if live i ∧ search ≤ offset i ∧ offset i < best.2 then (some i, offset i) else best) best
    res.2 ≤ best.2 ∧ (∀ j ∈ xs, live j → search ≤ offset j → res.2 ≤ offset j) ∧
      (res = best ∨ ∃ k ∈ xs, live k ∧ search ≤ offset k ∧ res = (some k, offset k)) := by
  induction xs generalizing best with
  | nil =>
    refine ⟨Nat.le_refl _, ?_, .inl rfl⟩
    intro j hj
    cases hj
  | cons i xs ih =>
    simp only [List.foldl_cons]
    by_cases hi : live i ∧ search ≤ offset i ∧ offset i < best.2
    · rw [if_pos hi]
      rcases ih (some i, offset i) with ⟨hle, hall, hres⟩
      refine ⟨?_, ?_, ?_⟩
      · exact Nat.le_trans hle (Nat.le_of_lt hi.2.2)
      · intro j hj hlive hoff
        rcases List.mem_cons.mp hj with rfl | hj
        · exact hle
        · exact hall j hj hlive hoff
      · rcases hres with hres | ⟨k, hk, hlive, hoff, hres⟩
        · exact .inr ⟨i, by simp, hi.1, hi.2.1, hres⟩
        · exact .inr ⟨k, by simp [hk], hlive, hoff, hres⟩
    · rw [if_neg hi]
      rcases ih best with ⟨hle, hall, hres⟩
      refine ⟨hle, ?_, ?_⟩
      · intro j hj hlive hoff
        rcases List.mem_cons.mp hj with rfl | hj
        · by_contra hlt
          exact hi ⟨hlive, hoff, by omega⟩
        · exact hall j hj hlive hoff
      · rcases hres with hres | ⟨k, hk, hlive, hoff, hres⟩
        · exact .inl hres
        · exact .inr ⟨k, by simp [hk], hlive, hoff, hres⟩

/-- Region `i` is the live one that lies lowest from `search` on. -/
structure Lowest (live : Nat → Prop) (offset : Nat → Nat) (search i : Nat) : Prop where
  is_live : live i
  from_search : search ≤ offset i
  below : ∀ j, live j → search ≤ offset j → j ≠ i → offset i < offset j

/-- The search finds the region that lies lowest. -/
theorem Lowest.found {live : Nat → Prop} [DecidablePred live] {offset : Nat → Nat}
    {n search top i : Nat} (h : Lowest (fun j => j < n ∧ live j) offset search i)
    (htop : offset i < top) : (lowest n live offset search top).1 = some i := by
  rcases lowest_foldl live offset search (List.range n) (none, top) with ⟨-, hall, hres⟩
  have hle := hall i (List.mem_range.mpr h.is_live.1) h.is_live.2 h.from_search
  unfold lowest
  rcases hres with hres | ⟨k, hk, hlive, hoff, hres⟩
  · rw [hres] at hle
    dsimp only at hle
    omega
  · rw [hres] at hle ⊢
    by_cases hki : k = i
    · rw [hki]
    · have := h.below k ⟨List.mem_range.mp hk, hlive⟩ hoff hki
      dsimp only at hle
      omega

/-- A loop each of whose rounds slides the region that lies lowest slides the regions that are
    left, in the order of their offsets. `I` is what the rounds keep. -/
theorem slideAll_of_rounds {σ : Type} (loop : Nat → Nat → Nat → σ → σ × Nat) (live : Nat → Prop)
    {arena : σ → Arena} {I : σ → Prop} {bound : Nat}
    (hnil : ∀ cursor search s, loop 0 cursor search s = (s, cursor))
    (hround : ∀ s i fuel cursor search, I s → Lowest live (arena s).offset search i → 0 < len i →
      cursor ≤ search → (arena s).offset i + len i ≤ bound →
      ∃ s', loop (fuel + 1) cursor search s =
          loop fuel (cursor + len i) ((arena s).offset i + len i) s' ∧
        arena s' = slide len (arena s) i cursor ∧ I s')
    {order : List Nat} {s : σ} {cursor search : Nat} (hs : I s)
    (hsorted : Sorted len (arena s) search order) (hnd : order.Nodup) (hcursor : cursor ≤ search)
    (horder : ∀ i, live i ∧ search ≤ (arena s).offset i ↔ i ∈ order)
    (hpos : ∀ i ∈ order, 0 < len i) (hbound : ∀ i ∈ order, (arena s).offset i + len i ≤ bound) :
    arena (loop order.length cursor search s).1 = (slideAll len order cursor (arena s)).1 ∧
      (loop order.length cursor search s).2 = (slideAll len order cursor (arena s)).2 ∧
      I (loop order.length cursor search s).1 := by
  induction order generalizing s cursor search with
  | nil =>
    rw [List.length_nil, hnil]
    exact ⟨rfl, rfl, hs⟩
  | cons i order ih =>
    have hi := (horder i).mpr (by simp)
    have hleni := hpos i (by simp)
    have hnotin := (List.nodup_cons.mp hnd).1
    have hne : ∀ j ∈ order, j ≠ i := by
      rintro j hj rfl
      exact hnotin hj
    have hlow : Lowest live (arena s).offset search i := by
      refine ⟨hi.1, hi.2, ?_⟩
      intro j hlive hoff hji
      rcases List.mem_cons.mp ((horder j).mp ⟨hlive, hoff⟩) with rfl | hmem
      · exact absurd rfl hji
      · have := hsorted.2.le_offset j hmem
        omega
    obtain ⟨s', hloop, harena, hs'⟩ :=
      hround s i order.length cursor search hs hlow hleni hcursor (hbound i (by simp))
    have hoffset : ∀ j ∈ order, (arena s').offset j = (arena s).offset j := by
      intro j hj
      rw [harena]
      exact slide_offset_of_ne _ _ (hne j hj)
    have horder' : ∀ j, live j ∧ (arena s).offset i + len i ≤ (arena s').offset j ↔ j ∈ order := by
      intro j
      constructor
      · rintro ⟨hlive, hoff⟩
        by_cases hji : j = i
        · subst hji
          rw [harena, slide_offset_self] at hoff
          have := hi.2
          omega
        · rw [harena, slide_offset_of_ne _ _ hji] at hoff
          have hsearch := hi.2
          rcases List.mem_cons.mp ((horder j).mp ⟨hlive, by omega⟩) with rfl | hmem
          · exact absurd rfl hji
          · exact hmem
      · intro hj
        rw [hoffset j hj]
        exact ⟨((horder j).mpr (by simp [hj])).1, hsorted.2.le_offset j hj⟩
    have hsearch := hi.2
    have hcursor' : cursor + len i ≤ (arena s).offset i + len i := by omega
    have hrest := ih hs' (hsorted.2.congr hoffset) (List.nodup_cons.mp hnd).2 hcursor' horder'
      (fun j hj => hpos j (by simp [hj]))
      (fun j hj => by rw [hoffset j hj]; exact hbound j (by simp [hj]))
    rw [harena] at hrest
    rw [List.length_cons, hloop]
    exact hrest

end Arena

end LeanLibp2p.Lib
