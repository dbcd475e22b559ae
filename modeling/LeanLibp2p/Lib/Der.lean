import Mathlib.Data.Nat.Digits.Lemmas

/-!
# Canonical DER

The tag-length-value strings of DER with one-byte tags: a length below 128 is one octet, any other
is the number of its big-endian octets with the high bit set, and then those octets without a
leading zero. Each value has one string, which no other string begins with.
-/

namespace LeanLibp2p.Lib.Der

/-- The number that big-endian octets stand for. -/
def ofOctets (octets : List UInt8) : Nat :=
  octets.foldl (fun value octet => value * 256 + octet.toNat) 0

/-- The shortest big-endian octets of a number. -/
def toOctets (value : Nat) : List UInt8 := ((Nat.digits 256 value).map UInt8.ofNat).reverse

/-- The length octets of a value of `n` bytes. -/
def lengthOctets (n : Nat) : List UInt8 :=
  if n < 128 then [UInt8.ofNat n] else UInt8.ofNat (128 + (toOctets n).length) :: toOctets n

/-- The string of a tag and a value. -/
def tlv (tag : UInt8) (value : List UInt8) : List UInt8 :=
  tag :: (lengthOctets value.length ++ value)

theorem ofOctets_eq (octets : List UInt8) :
    ofOctets octets = Nat.ofDigits 256 (octets.map UInt8.toNat).reverse := by
  induction octets using List.reverseRecOn with
  | nil => rfl
  | append_singleton octets octet ih =>
    rw [List.map_append, List.reverse_append, List.map_singleton, List.reverse_singleton,
      List.singleton_append, Nat.ofDigits_cons, ← ih]
    simp only [ofOctets, List.foldl_append, List.foldl_cons, List.foldl_nil]
    omega

theorem map_ofNat_toNat (digits : List Nat) (h : ∀ d ∈ digits, d < 256) :
    (digits.map UInt8.ofNat).map UInt8.toNat = digits := by
  rw [List.map_map]
  conv_rhs => rw [← List.map_id digits]
  refine List.map_congr_left fun d hd => ?_
  simp [Nat.mod_eq_of_lt (h d hd)]

theorem ofOctets_toOctets (value : Nat) : ofOctets (toOctets value) = value := by
  rw [ofOctets_eq, toOctets, List.map_reverse, List.reverse_reverse, map_ofNat_toNat,
    Nat.ofDigits_digits]
  exact fun d hd => Nat.digits_lt_base (by decide) hd

/-- Octets without a leading zero are the shortest ones. -/
theorem toOctets_ofOctets {octets : List UInt8} (h : octets.head? ≠ some 0) :
    toOctets (ofOctets octets) = octets := by
  rw [ofOctets_eq, toOctets, Nat.digits_ofDigits 256 (by decide)]
  · simp [← List.map_reverse, Function.comp_def]
  · intro d hd
    obtain ⟨octet, -, rfl⟩ := List.mem_map.mp (List.mem_reverse.mp hd)
    exact octet.toNat_lt
  · intro hne hlast
    refine h ?_
    cases octets with
    | nil => simp at hne
    | cons octet octets =>
      simp only [List.map_cons, List.reverse_cons, List.getLast_append_of_ne_nil _
        (List.cons_ne_nil _ _), List.getLast_singleton] at hlast
      simpa using UInt8.toNat_inj.mp hlast

theorem toOctets_length_le {value k : Nat} (h : value < 256 ^ k) : (toOctets value).length ≤ k := by
  rw [toOctets, List.length_reverse, List.length_map]
  exact (Nat.digits_length_le_iff (by decide) value).mpr h

theorem toOctets_ne_nil {value : Nat} (h : value ≠ 0) : toOctets value ≠ [] := by
  simpa [toOctets, Nat.digits_eq_nil_iff_eq_zero] using h

theorem head?_toOctets (value : Nat) : (toOctets value).head? ≠ some 0 := by
  intro hzero
  have hdigits : (Nat.digits 256 value).getLast? = some 0 := by
    simp only [toOctets, List.head?_reverse, List.getLast?_map, Option.map_eq_some_iff] at hzero
    obtain ⟨d, hd, hoctet⟩ := hzero
    have hlt := Nat.digits_lt_base (by decide) (List.mem_of_getLast? hd)
    have hd0 : d = 0 := by
      have := congrArg UInt8.toNat hoctet
      simpa [Nat.mod_eq_of_lt hlt] using this
    rw [hd, hd0]
  have hne : value ≠ 0 := by
    rintro rfl
    simp at hdigits
  refine Nat.getLast_digit_ne_zero 256 hne ?_
  rw [List.getLast?_eq_some_getLast (Nat.digits_ne_nil_iff_ne_zero.mpr hne)] at hdigits
  exact Option.some.inj hdigits

theorem lengthOctets_length_pos (n : Nat) : 0 < (lengthOctets n).length := by
  unfold lengthOctets
  split <;> simp

theorem lengthOctets_length_le {n : Nat} (h : n < 2 ^ 32) : (lengthOctets n).length ≤ 5 := by
  unfold lengthOctets
  split
  · simp
  · have := toOctets_length_le (show n < 256 ^ 4 from h)
    rw [List.length_cons]
    omega

theorem tlv_length_le {tag : UInt8} {value : List UInt8} (h : value.length < 2 ^ 32) :
    (tlv tag value).length ≤ value.length + 6 := by
  have := lengthOctets_length_le h
  simp only [tlv, List.length_cons, List.length_append]
  omega

end LeanLibp2p.Lib.Der
