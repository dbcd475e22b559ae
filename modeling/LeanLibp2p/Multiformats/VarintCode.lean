import Mathlib.Tactic.Ring
import LeanLibp2p.Multiformats.Varint

/-!
# Unsigned varints are a prefix code

`unsigned_varint.c`: the encoder and the decoder together. A number is a run of bytes with the
continuation bit and one byte without it; what the decoder answers is read off the length of that
run and the byte that ends it.
-/

namespace LeanLibp2p

variable {run : Bytes} (rest : Bytes)

/-! ## Numbers have one encoding -/

/-- A single group is the same whatever room is left for more. -/
theorem uvarintEncodeLoop_small {value : Nat} (h : value < 128) (fuel : Nat) :
    uvarintEncodeLoop fuel value = [UInt8.ofNat value] := by
  cases fuel with
  | zero => simp [uvarintEncodeLoop, and_7f, Nat.mod_eq_of_lt h]
  | succ fuel => simp [uvarintEncodeLoop_succ, Nat.div_eq_of_lt h, Nat.mod_eq_of_lt h]

/-- After `index` groups, what the loop still reads is the encoding of what it adds. -/
theorem uvarintDecodeLoop_canonical :
    ∀ (buf : Bytes) (index fuel decoded value read : Nat), index + fuel = 9 →
      decoded < 2 ^ (7 * index) →
      uvarintDecodeLoop buf index (7 * index) decoded = .ok (value, read) →
      ∃ more, value = decoded + 2 ^ (7 * index) * more ∧ (0 < index → more ≠ 0) ∧
        buf = uvarintEncodeLoop fuel more ++ buf.drop (read - index) := by
  intro buf
  induction buf with
  | nil =>
    intro index fuel decoded value read _ _ h
    cases h
  | cons byte buf ih =>
    intro index fuel decoded value read hfuel hdecoded h
    have hbyte := byte.toNat_lt
    have hmax : uvarintMaxBytes = 9 := rfl
    unfold uvarintDecodeLoop at h
    split at h
    · cases h
    rename_i hindex
    split at h
    · cases h
    obtain ⟨fuel, rfl⟩ := Nat.exists_eq_succ_of_ne_zero (show fuel ≠ 0 by omega)
    rw [and_7f, or_shiftLeft hdecoded] at h
    split at h
    · rename_i hsmall
      split at h
      · cases h
      rename_i hminimal
      simp only [Except.ok.injEq, Prod.mk.injEq] at h
      obtain ⟨rfl, rfl⟩ := h
      have hmod : byte.toNat % 128 = byte.toNat := Nat.mod_eq_of_lt hsmall
      refine ⟨byte.toNat, by rw [hmod], fun hpos hzero => ?_, ?_⟩
      · exact hminimal ⟨hpos, UInt8.toNat_inj.mp hzero⟩
      · have hone : index + 1 - index = 1 := by omega
        rw [uvarintEncodeLoop_small hsmall, UInt8.ofNat_toNat, hone]
        rfl
    · rename_i hlarge
      have hshift : 7 * index + 7 = 7 * (index + 1) := by omega
      have hpow : 2 ^ (7 * (index + 1)) = 2 ^ (7 * index) * 128 := by
        rw [Nat.mul_add, Nat.pow_add]
      rw [hshift] at h
      obtain ⟨more, rfl, hmore, hbuf⟩ :=
        ih (index + 1) fuel _ value read (by omega) (group_lt _ hdecoded) h
      have hbounds := uvarintDecodeLoop_bounds _ _ _ _ _ _ h
      have hmod : (byte.toNat % 128 + 128 * more) % 128 = byte.toNat % 128 := by omega
      have hdiv : (byte.toNat % 128 + 128 * more) / 128 = more := by omega
      refine ⟨byte.toNat % 128 + 128 * more, by rw [hpow]; ring, fun _ => ?_, ?_⟩
      · have := hmore (by omega)
        omega
      · have hbyte' : byte.toNat % 128 + 128 = byte.toNat := by omega
        have hread : read - index = read - (index + 1) + 1 := by omega
        rw [uvarintEncodeLoop_succ, hmod, hdiv, if_pos (hmore (by omega)), hbyte',
          UInt8.ofNat_toNat, hread, List.drop_succ_cons, List.cons_append, ← hbuf]

theorem uvarintDecode_canonical {buf : Bytes} {value read : Nat}
    (h : uvarintDecode buf = .ok (value, read)) :
    buf = uvarintEncodeLoop 9 value ++ buf.drop read := by
  obtain ⟨more, hvalue, -, hbuf⟩ :=
    uvarintDecodeLoop_canonical buf 0 9 0 value read rfl (by decide) h
  have hmore : value = more := by omega
  rw [hmore]
  exact hbuf

theorem uvarintDecode_encodeLoop {value : Nat} (hvalue : value < 2 ^ 63) (rest : Bytes) :
    uvarintDecode (uvarintEncodeLoop 9 value ++ rest) =
      .ok (value, (uvarintEncodeLoop 9 value).length) :=
  uvarintDecode_encode (uvarintEncode_ok hvalue (uvarintSize_le value)) rest

/-! ## Runs of continued bytes -/

/-- A byte with the continuation bit, `(byte & 0x80) != 0`. -/
def Continued (byte : UInt8) : Prop := 0x80 ≤ byte.toNat

instance : DecidablePred Continued := fun byte => inferInstanceAs (Decidable (0x80 ≤ byte.toNat))

/-- Up to the ninth byte the loop goes on over continued bytes. -/
theorem uvarintDecodeLoop_continued :
    ∀ (run : Bytes) (index shift decoded : Nat), (∀ byte ∈ run, Continued byte) →
      index + run.length < uvarintMaxBytes →
      ∃ decoded', uvarintDecodeLoop (run ++ rest) index shift decoded =
        uvarintDecodeLoop rest (index + run.length) (shift + 7 * run.length) decoded' := by
  intro run
  induction run with
  | nil => exact fun index shift decoded _ _ => ⟨decoded, rfl⟩
  | cons byte run ih =>
    intro index shift decoded hrun hlen
    have hbyte : 0x80 ≤ byte.toNat := hrun byte List.mem_cons_self
    have hmax : uvarintMaxBytes = 9 := rfl
    rw [List.length_cons] at hlen
    obtain ⟨decoded', hloop⟩ := ih (index + 1) (shift + 7)
      (decoded ||| ((byte.toNat &&& 0x7f) <<< shift))
      (fun b hb => hrun b (List.mem_cons_of_mem _ hb)) (by omega)
    have hindex : index + 1 + run.length = index + (run.length + 1) := by omega
    have hshift : shift + 7 + 7 * run.length = shift + 7 * (run.length + 1) := by omega
    rw [hindex, hshift] at hloop
    refine ⟨decoded', ?_⟩
    rw [List.cons_append, uvarintDecodeLoop, if_neg (by omega), if_neg (by omega),
      if_neg (by omega), List.length_cons]
    exact hloop

theorem uvarintDecode_continued (hrun : ∀ byte ∈ run, Continued byte) (hlen : run.length ≤ 8) :
    ∃ decoded, uvarintDecode (run ++ rest) =
      uvarintDecodeLoop rest run.length (7 * run.length) decoded := by
  have hmax : uvarintMaxBytes = 9 := rfl
  simpa [uvarintDecode] using
    uvarintDecodeLoop_continued rest run 0 0 0 hrun (by omega)

/-- An input that ends inside the number. -/
theorem uvarintDecode_run (hrun : ∀ byte ∈ run, Continued byte)
    (hlen : run.length ≤ 8) : uvarintDecode run = .error .truncated := by
  obtain ⟨decoded, h⟩ := uvarintDecode_continued [] hrun hlen
  rw [List.append_nil] at h
  rw [h]
  rfl

/-- A ninth byte with the continuation bit. -/
theorem uvarintDecode_run_overflow (hrun : ∀ byte ∈ run, Continued byte) (hlen : run.length = 9) :
    uvarintDecode (run ++ rest) = .error .overflow := by
  obtain ⟨init, last, rfl⟩ : ∃ init last, run = init ++ [last] :=
    ⟨run.dropLast, run.getLast (by rintro rfl; cases hlen), (List.dropLast_append_getLast _).symm⟩
  simp only [List.mem_append, List.mem_singleton, or_imp, forall_and, forall_eq] at hrun
  simp only [List.length_append, List.length_singleton] at hlen
  have hlast : 0x80 ≤ last.toNat := hrun.2
  obtain ⟨decoded, h⟩ := uvarintDecode_continued ([last] ++ rest) hrun.1 (by omega)
  have hmax : uvarintMaxBytes = 9 := rfl
  rw [List.append_assoc, h, List.singleton_append, uvarintDecodeLoop, if_neg (by omega),
    if_pos ⟨by omega, hlast⟩]

/-- A terminated number: refused when a longer one ends in a zero group, else read. -/
theorem uvarintDecode_terminated {last : UInt8} (rest : Bytes)
    (hrun : ∀ byte ∈ run, Continued byte) (hlen : run.length ≤ 8) (hlast : ¬ Continued last) :
    ∃ value, uvarintDecode (run ++ last :: rest) =
      if run ≠ [] ∧ last = 0 then .error .nonMinimal else .ok (value, run.length + 1) := by
  have hsmall : last.toNat < 0x80 := not_le.mp hlast
  have hmax : uvarintMaxBytes = 9 := rfl
  have hpos : 0 < run.length ↔ run ≠ [] := List.length_pos_iff
  obtain ⟨decoded, h⟩ := uvarintDecode_continued (last :: rest) hrun hlen
  refine ⟨decoded ||| ((last.toNat &&& 0x7f) <<< (7 * run.length)), ?_⟩
  rw [h, uvarintDecodeLoop, if_neg (by omega), if_neg (by omega), if_pos hsmall]
  simp only [hpos]

/-! ## The three errors -/

/-- An input is a run of continued bytes, or has one that a byte ends. -/
theorem continued_or_terminated (buf : Bytes) :
    (∀ byte ∈ buf, Continued byte) ∨
    ∃ run last rest, buf = run ++ last :: rest ∧ (∀ byte ∈ run, Continued byte) ∧
      ¬ Continued last := by
  induction buf with
  | nil => exact .inl fun _ hb => by cases hb
  | cons byte buf ih =>
    by_cases hbyte : Continued byte
    · obtain hall | ⟨run, last, rest, rfl, hrun, hlast⟩ := ih
      · exact .inl (List.forall_mem_cons.mpr ⟨hbyte, hall⟩)
      · exact .inr ⟨byte :: run, last, rest, rfl, List.forall_mem_cons.mpr ⟨hbyte, hrun⟩, hlast⟩
    · exact .inr ⟨[], byte, buf, rfl, by simp, hbyte⟩

/-- More than eight continued bytes begin with nine. -/
theorem continued_nine (hrun : ∀ byte ∈ run, Continued byte) (hlen : ¬ run.length ≤ 8) :
    ∃ nine rest', run ++ rest = nine ++ rest' ∧ nine.length = 9 ∧
      ∀ byte ∈ nine, Continued byte := by
  refine ⟨run.take 9, run.drop 9 ++ rest, ?_, ?_, ?_⟩
  · rw [← List.append_assoc, List.take_append_drop]
  · rw [List.length_take]
    omega
  · exact fun byte hbyte => hrun byte (List.mem_of_mem_take hbyte)

/-- Every input begins with one of three kinds of run. -/
theorem continued_cases (buf : Bytes) :
    (buf.length ≤ 8 ∧ ∀ byte ∈ buf, Continued byte) ∨
    (∃ run rest, buf = run ++ rest ∧ run.length = 9 ∧ ∀ byte ∈ run, Continued byte) ∨
    ∃ run last rest, buf = run ++ last :: rest ∧ run.length ≤ 8 ∧
      (∀ byte ∈ run, Continued byte) ∧ ¬ Continued last := by
  obtain hall | ⟨run, last, rest, rfl, hrun, hlast⟩ := continued_or_terminated buf
  · by_cases hlen : buf.length ≤ 8
    · exact .inl ⟨hlen, hall⟩
    · have hnine := continued_nine [] hall hlen
      rw [List.append_nil] at hnine
      exact .inr (.inl hnine)
  · by_cases hlen : run.length ≤ 8
    · exact .inr (.inr ⟨run, last, rest, rfl, hlen, hrun, hlast⟩)
    · exact .inr (.inl (continued_nine (last :: rest) hrun hlen))

theorem uvarintDecode_truncated_iff {buf : Bytes} :
    uvarintDecode buf = .error .truncated ↔ buf.length ≤ 8 ∧ ∀ byte ∈ buf, Continued byte := by
  constructor
  · intro h
    obtain hshort | ⟨run, rest, rfl, hlen, hrun⟩ | ⟨run, last, rest, rfl, hlen, hrun, hlast⟩ :=
      continued_cases buf
    · exact hshort
    · rw [uvarintDecode_run_overflow rest hrun hlen] at h
      cases h
    · obtain ⟨value, hvalue⟩ := uvarintDecode_terminated rest hrun hlen hlast
      rw [hvalue] at h
      split at h <;> cases h
  · exact fun h => uvarintDecode_run h.2 h.1

theorem uvarintDecode_overflow_iff {buf : Bytes} :
    uvarintDecode buf = .error .overflow ↔
      ∃ run rest, buf = run ++ rest ∧ run.length = 9 ∧ ∀ byte ∈ run, Continued byte := by
  constructor
  · intro h
    obtain ⟨hlen, hrun⟩ | hlong | ⟨run, last, rest, rfl, hlen, hrun, hlast⟩ := continued_cases buf
    · rw [uvarintDecode_run hrun hlen] at h
      cases h
    · exact hlong
    · obtain ⟨value, hvalue⟩ := uvarintDecode_terminated rest hrun hlen hlast
      rw [hvalue] at h
      split at h <;> cases h
  · intro h
    obtain ⟨run, rest, rfl, hlen, hrun⟩ := h
    exact uvarintDecode_run_overflow rest hrun hlen

theorem uvarintDecode_nonMinimal_iff {buf : Bytes} :
    uvarintDecode buf = .error .nonMinimal ↔
      ∃ run rest, buf = run ++ 0 :: rest ∧ run ≠ [] ∧ run.length ≤ 8 ∧
        ∀ byte ∈ run, Continued byte := by
  constructor
  · intro h
    obtain ⟨hlen, hrun⟩ | ⟨run, rest, rfl, hlen, hrun⟩ |
      ⟨run, last, rest, rfl, hlen, hrun, hlast⟩ := continued_cases buf
    · rw [uvarintDecode_run hrun hlen] at h
      cases h
    · rw [uvarintDecode_run_overflow rest hrun hlen] at h
      cases h
    · obtain ⟨value, hvalue⟩ := uvarintDecode_terminated rest hrun hlen hlast
      rw [hvalue] at h
      split at h
      · rename_i hzero
        exact ⟨run, rest, by rw [hzero.2], hzero.1, hlen, hrun⟩
      · cases h
  · intro h
    obtain ⟨run, rest, rfl, hne, hlen, hrun⟩ := h
    obtain ⟨value, hvalue⟩ := uvarintDecode_terminated rest hrun hlen
      (show ¬ Continued 0 by decide)
    rw [hvalue, if_pos ⟨hne, rfl⟩]

/-! ## The prefix code -/

/-- Nine groups of seven bits hold every value below 2^63. -/
theorem uvarintSize_le_max {value : Nat} (h : value < 2 ^ 63) :
    uvarintSize value ≤ uvarintMaxBytes := by
  have hwritten := uvarintEncode_ok h (le_refl (uvarintSize value))
  have hdecode := uvarintDecode_encode hwritten []
  rw [← uvarintEncode_length hwritten]
  exact uvarintDecode_read_le hdecode

/-- A value of 2^63 or more is refused for every buffer. -/
theorem uvarintEncode_overflow {value : Nat} (h : 2 ^ 63 ≤ value) (bufLen : Nat) :
    uvarintEncode value bufLen = .error .overflow := by
  rw [uvarintEncode, if_pos (by omega)]

/-- `libp2p_uvarint_encode` and `libp2p_uvarint_decode` are an exact prefix code of the values below
    2^63, and the errors of the decoder divide the remaining inputs by their run of continued
    bytes. -/
theorem uvarint_prefix_code :
    (∀ value bufLen, value < 2 ^ 63 → uvarintSize value ≤ bufLen →
      ∃ out, uvarintEncode value bufLen = .ok out ∧ out.length = uvarintSize value ∧
        uvarintSize value ≤ 9 ∧
        ∀ rest, uvarintDecode (out ++ rest) = .ok (value, uvarintSize value)) ∧
    (∀ buf value read, uvarintDecode buf = .ok (value, read) →
      ∃ out rest, uvarintEncode value (uvarintSize value) = .ok out ∧ buf = out ++ rest ∧
        read = out.length) ∧
    (∀ buf, uvarintDecode buf = .error .truncated ↔
      buf.length ≤ 8 ∧ ∀ byte ∈ buf, Continued byte) ∧
    (∀ buf, uvarintDecode buf = .error .nonMinimal ↔
      ∃ run rest, buf = run ++ 0 :: rest ∧ run ≠ [] ∧ run.length ≤ 8 ∧
        ∀ byte ∈ run, Continued byte) ∧
    (∀ buf, uvarintDecode buf = .error .overflow ↔
      ∃ run rest, buf = run ++ rest ∧ run.length = 9 ∧ ∀ byte ∈ run, Continued byte) ∧
    ∀ value bufLen, 2 ^ 63 ≤ value → uvarintEncode value bufLen = .error .overflow := by
  refine ⟨?_, ?_, fun _ => uvarintDecode_truncated_iff, fun _ => uvarintDecode_nonMinimal_iff,
    fun _ => uvarintDecode_overflow_iff, fun _ bufLen h => uvarintEncode_overflow h bufLen⟩
  · intro value bufLen hvalue hbuf
    have hwritten := uvarintEncode_ok hvalue hbuf
    have hlen := uvarintEncode_length hwritten
    refine ⟨_, hwritten, hlen, uvarintSize_le_max hvalue, fun rest => ?_⟩
    rw [uvarintDecode_encode hwritten rest, hlen]
  · intro buf value read h
    have hvalue := uvarintDecode_value_lt h
    have hwritten := uvarintEncode_ok hvalue (le_refl (uvarintSize value))
    have hbuf := uvarintDecode_canonical h
    refine ⟨_, _, hwritten, hbuf, ?_⟩
    have hback := uvarintDecode_encode hwritten (buf.drop read)
    rw [← hbuf, h] at hback
    exact (Prod.mk.inj (Except.ok.inj hback)).2

end LeanLibp2p
