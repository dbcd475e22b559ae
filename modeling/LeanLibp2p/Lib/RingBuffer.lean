import Mathlib.Data.List.Basic

/-!
# Ring buffers

A queue of bounded length in an array of `cap` slots: `head` is the slot of its first element
and `len` its length. `toList` is the queue from the first element to the last.
-/

namespace LeanLibp2p.Lib

/-- A ring buffer; the capacity is a parameter of its operations. -/
structure RingBuffer (α : Type) where
  slots : Nat → α
  head : Nat
  len : Nat

namespace RingBuffer

variable {α : Type} {cap : Nat} {ring ring' : RingBuffer α} {x : α}

/-- The elements from the first to the last. -/
def toList (cap : Nat) (ring : RingBuffer α) : List α :=
  (List.range ring.len).map fun k => ring.slots ((ring.head + k) % cap)

/-- Add an element behind the last, unless the ring is full. -/
def push (cap : Nat) (ring : RingBuffer α) (x : α) : Option (RingBuffer α) :=
  if ring.len = cap then none
  else
    some { ring with
      slots := Function.update ring.slots ((ring.head + ring.len) % cap) x
      len := ring.len + 1 }

/-- Take the first element. -/
def pop (cap : Nat) (ring : RingBuffer α) : Option (α × RingBuffer α) :=
  if ring.len = 0 then none
  else
    some (ring.slots ring.head,
      { ring with head := (ring.head + 1) % cap, len := ring.len - 1 })

@[simp] theorem toList_length (ring : RingBuffer α) : (ring.toList cap).length = ring.len := by
  simp [toList]

/-- Two different offsets below the capacity are two different slots. -/
theorem slot_ne {head k n : Nat} (hk : k < n) (hn : n < cap) :
    (head + k) % cap ≠ (head + n) % cap := by
  intro heq
  have hmod : (n - k) % cap = 0 := by
    have hsub := Nat.sub_mod_eq_zero_of_mod_eq heq.symm
    rwa [Nat.add_sub_add_left] at hsub
  rw [Nat.mod_eq_of_lt (by omega)] at hmod
  omega

/-- A push appends to the queue. -/
theorem push_toList (hlen : ring.len ≤ cap)
    (h : ring.push cap x = some ring') : ring'.toList cap = ring.toList cap ++ [x] := by
  unfold push at h
  split at h
  · cases h
  · rename_i hfull
    cases h
    unfold toList
    rw [List.range_succ, List.map_append]
    congr 1
    · apply List.map_congr_left
      intro k hk
      exact Function.update_of_ne (slot_ne (List.mem_range.mp hk) (by omega)) ..
    · simp

theorem len_of_push (h : ring.push cap x = some ring') : ring'.len = ring.len + 1 := by
  unfold push at h
  split at h
  · cases h
  · cases h
    rfl

theorem push_len (hlen : ring.len ≤ cap) (h : ring.push cap x = some ring') : ring'.len ≤ cap := by
  unfold push at h
  split at h
  · cases h
  · cases h
    change ring.len + 1 ≤ cap
    omega

/-- A pop takes the first element of the queue. -/
theorem pop_toList (hhead : ring.head < cap)
    (h : ring.pop cap = some (x, ring')) : ring.toList cap = x :: ring'.toList cap := by
  unfold pop at h
  split at h
  · cases h
  · rename_i hempty
    cases h
    obtain ⟨n, hn⟩ : ∃ n, ring.len = n + 1 := ⟨ring.len - 1, by omega⟩
    unfold toList
    rw [hn, List.range_succ_eq_map, List.map_cons, Nat.add_zero, Nat.mod_eq_of_lt hhead,
      List.map_map]
    congr 1
    apply List.map_congr_left
    intro k _
    change ring.slots ((ring.head + (k + 1)) % cap) = ring.slots (((ring.head + 1) % cap + k) % cap)
    rw [Nat.mod_add_mod, Nat.add_assoc, Nat.add_comm 1 k]

theorem push_none_iff {ring : RingBuffer α} {x : α} :
    ring.push cap x = none ↔ ring.len = cap := by
  unfold push
  split
  · rename_i hfull
    exact ⟨fun _ => hfull, fun _ => rfl⟩
  · rename_i hfull
    exact ⟨(fun h => nomatch h), fun h => absurd h hfull⟩

/-- A pop leaves a ring whose first slot exists. -/
theorem pop_head (hhead : ring.head < cap)
    (h : ring.pop cap = some (x, ring')) : ring'.head < cap ∧ ring.len = ring'.len + 1 := by
  unfold pop at h
  split at h
  · cases h
  · rename_i hempty
    cases h
    exact ⟨Nat.mod_lt _ (by omega), by change ring.len = ring.len - 1 + 1; omega⟩

end RingBuffer

end LeanLibp2p.Lib
