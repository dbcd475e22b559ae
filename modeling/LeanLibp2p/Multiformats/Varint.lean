import Mathlib.Data.List.Basic
import Mathlib.Data.Nat.Bitwise
import LeanLibp2p.Lib.Word

/-!
# Unsigned varints

`unsigned_varint.c`: base-128 little-endian integers of at most nine bytes, hence at
most 63 bits. The encoder writes the shortest form; the decoder refuses a longer one
(`NON_MINIMAL`), a tenth byte (`OVERFLOW`) and an input that ends inside the number
(`TRUNCATED`).
-/

namespace LeanLibp2p

/-- The byte strings of the wire and of every copied buffer. -/
abbrev Bytes := List UInt8

variable {value bufLen : Nat} {out : Bytes}

variable {buf : Bytes} {value read : Nat}

/-- `libp2p_uvarint_err_t` without `OK`. -/
inductive UvarintErr where
  | bufTooSmall
  | truncated
  | nonMinimal
  | overflow
  deriving DecidableEq, Repr

/-- `LIBP2P_UVARINT_MAX_BYTES`. -/
def uvarintMaxBytes : Nat := 9

/-- The loop of `uvarint_measure_unchecked` (`unsigned_varint.c:12-24`). A `uint64_t`
    leaves it after at most ten rounds. -/
def uvarintMeasureLoop : Nat → Nat → Nat
  | 0, _ => 1
  | fuel + 1, remaining =>
      if 0x80 ≤ remaining then uvarintMeasureLoop fuel (remaining >>> 7) + 1 else 1

/-- `uvarint_measure_unchecked`, and so `libp2p_uvarint_size`. -/
def uvarintSize (value : Nat) : Nat := uvarintMeasureLoop 9 value

/-- The `do … while (remaining != 0)` loop of `libp2p_uvarint_encode`
    (`unsigned_varint.c:56-72`). -/
def uvarintEncodeLoop : Nat → Nat → Bytes
  | 0, remaining => [UInt8.ofNat (remaining &&& 0x7f)]
  | fuel + 1, remaining =>
      let byte := remaining &&& 0x7f
      let remaining := remaining >>> 7
      if remaining ≠ 0 then UInt8.ofNat (byte ||| 0x80) :: uvarintEncodeLoop fuel remaining
      else [UInt8.ofNat byte]

/-- `libp2p_uvarint_encode` (`unsigned_varint.c:26-76`) into `bufLen` bytes; a NULL
    buffer is a buffer of no bytes. -/
def uvarintEncode (value bufLen : Nat) : Except UvarintErr Bytes :=
  if 0x7FFFFFFFFFFFFFFF < value then .error .overflow
  else if bufLen < uvarintSize value then .error .bufTooSmall
  else .ok (uvarintEncodeLoop 9 value)

/-- The loop of `libp2p_uvarint_decode` (`unsigned_varint.c:104-154`): the value and the
    number of bytes read. -/
def uvarintDecodeLoop : Bytes → Nat → Nat → Nat → Except UvarintErr (Nat × Nat)
  | [], _, _, _ => .error .truncated
  | byte :: rest, index, shift, decoded =>
      if uvarintMaxBytes ≤ index then .error .overflow
      else if index = uvarintMaxBytes - 1 ∧ 0x80 ≤ byte.toNat then .error .overflow
      else
        let decoded := decoded ||| ((byte.toNat &&& 0x7f) <<< shift)
        if byte.toNat < 0x80 then
          if 0 < index ∧ byte = 0 then .error .nonMinimal else .ok (decoded, index + 1)
        else uvarintDecodeLoop rest (index + 1) (shift + 7) decoded

/-- `libp2p_uvarint_decode` (`unsigned_varint.c:78-158`). -/
def uvarintDecode (buf : Bytes) : Except UvarintErr (Nat × Nat) := uvarintDecodeLoop buf 0 0 0

/-! ## Arithmetic of one group -/

theorem and_7f (n : Nat) : n &&& 0x7f = n % 128 := Nat.and_two_pow_sub_one_eq_mod n 7

theorem shiftRight_7 (n : Nat) : n >>> 7 = n / 128 := Nat.shiftRight_eq_div_pow n 7

theorem or_80 {n : Nat} (h : n < 128) : n ||| 0x80 = n + 128 := by
  have := Nat.two_pow_add_eq_or_of_lt (i := 7) h 1
  rw [Nat.or_comm, Nat.add_comm]
  exact this.symm

theorem or_shiftLeft {acc p shift : Nat} (h : acc < 2 ^ shift) :
    acc ||| (p <<< shift) = acc + 2 ^ shift * p := by
  rw [Nat.shiftLeft_eq, Nat.or_comm, Nat.mul_comm, ← Nat.two_pow_add_eq_or_of_lt h p, Nat.add_comm]

/-- The groups of `value` are the group `value % 128` below those of `value / 128`. -/
theorem uvarintEncodeLoop_succ (fuel value : Nat) :
    uvarintEncodeLoop (fuel + 1) value =
      if value / 128 ≠ 0 then UInt8.ofNat (value % 128 + 128) :: uvarintEncodeLoop fuel (value / 128)
      else [UInt8.ofNat (value % 128)] := by
  simp only [uvarintEncodeLoop, and_7f, shiftRight_7, or_80 (Nat.mod_lt value (by decide : 0 < 128))]

theorem uvarintEncodeLoop_ne_nil (fuel value : Nat) : uvarintEncodeLoop fuel value ≠ [] := by
  cases fuel with
  | zero => simp [uvarintEncodeLoop]
  | succ fuel => rw [uvarintEncodeLoop_succ]; split <;> simp

/-- `libp2p_uvarint_size` measures what the encoder writes. -/
theorem uvarintEncodeLoop_length (fuel value : Nat) :
    (uvarintEncodeLoop fuel value).length = uvarintMeasureLoop fuel value := by
  induction fuel generalizing value with
  | zero => rfl
  | succ fuel ih =>
    rw [uvarintEncodeLoop_succ, uvarintMeasureLoop, shiftRight_7]
    by_cases hv : 0x80 ≤ value
    · rw [if_pos (by omega), if_pos hv, List.length_cons, ih]
    · rw [if_neg (by omega), if_neg hv]
      rfl

theorem uvarintEncode_length (h : uvarintEncode value bufLen = .ok out) : out.length = uvarintSize value := by
  unfold uvarintEncode at h
  split at h
  · cases h
  · split at h
    · cases h
    · simp only [Except.ok.injEq] at h
      rw [← h]
      exact uvarintEncodeLoop_length 9 value

theorem uvarintSize_pos (value : Nat) : 0 < uvarintSize value := by
  simp only [uvarintSize, uvarintMeasureLoop]
  split <;> omega

theorem uvarintMeasureLoop_le (fuel value : Nat) : uvarintMeasureLoop fuel value ≤ fuel + 1 := by
  fun_induction uvarintMeasureLoop fuel value <;> omega

theorem uvarintSize_le (value : Nat) : uvarintSize value ≤ 10 := uvarintMeasureLoop_le 9 value

/-- With room for the measured size, every value below 2^63 is written. -/
theorem uvarintEncode_ok (hv : value < 2 ^ 63) (hb : uvarintSize value ≤ bufLen) :
    uvarintEncode value bufLen = .ok (uvarintEncodeLoop 9 value) := by
  unfold uvarintEncode
  rw [if_neg (by omega), if_neg (by omega)]

theorem uvarintEncode_ok_lt (h : uvarintEncode value bufLen = .ok out) : value < 2 ^ 63 := by
  unfold uvarintEncode at h
  split at h
  · cases h
  · omega

/-! ## Decoding what was encoded -/

theorem ofNat_toNat_lt {n : Nat} (h : n < 256) : (UInt8.ofNat n).toNat = n := by
  rw [UInt8.toNat_ofNat']
  omega

/-- A group of seven bits keeps the number below the place of the next group. -/
theorem group_lt {decoded index : Nat} (value : Nat) (hd : decoded < 2 ^ (7 * index)) :
    decoded + 2 ^ (7 * index) * (value % 128) < 2 ^ (7 * (index + 1)) := by
  have hpow : 2 ^ (7 * (index + 1)) = 2 ^ (7 * index) * 128 := by rw [Nat.mul_add, Nat.pow_add]
  have := Nat.mul_le_mul_left (2 ^ (7 * index)) (show value % 128 ≤ 127 by omega)
  omega

/-- After `index` groups the loop has the low `7 * index` bits of the number; the
    remaining groups complete it. -/
theorem uvarintDecodeLoop_encode (fuel : Nat) :
    ∀ (index value decoded : Nat) (rest : Bytes), index + fuel = 8 → value < 128 ^ (fuel + 1) →
      (0 < index → value ≠ 0) → decoded < 2 ^ (7 * index) →
      uvarintDecodeLoop (uvarintEncodeLoop fuel value ++ rest) index (7 * index) decoded =
        .ok (decoded + 2 ^ (7 * index) * value, index + (uvarintEncodeLoop fuel value).length) := by
  induction fuel with
  | zero =>
    intro index value decoded rest hi hv hz hd
    have hbyte : (UInt8.ofNat (value % 128)).toNat = value % 128 := ofNat_toNat_lt (by omega)
    have hmod : value % 128 = value := Nat.mod_eq_of_lt (by simpa using hv)
    have hnz : ¬ (0 < index ∧ UInt8.ofNat (value % 128) = 0) := by
      rintro ⟨hpos, h0⟩
      have := congrArg UInt8.toNat h0
      rw [hbyte, hmod] at this
      exact hz hpos (by simpa using this)
    simp only [uvarintEncodeLoop, and_7f, List.cons_append, List.nil_append, uvarintDecodeLoop,
      uvarintMaxBytes, hbyte, List.length_singleton]
    rw [if_neg (by omega), if_neg (by omega), if_pos (by omega), if_neg hnz, or_shiftLeft hd,
      Nat.mod_mod, hmod]
  | succ fuel ih =>
    intro index value decoded rest hi hv hz hd
    rw [uvarintEncodeLoop_succ]
    by_cases hlast : value / 128 ≠ 0
    · have hbyte : (UInt8.ofNat (value % 128 + 128)).toNat = value % 128 + 128 :=
        ofNat_toNat_lt (by omega)
      have hdiv : value / 128 < 128 ^ (fuel + 1) := by
        rw [Nat.div_lt_iff_lt_mul (by decide)]
        rwa [Nat.pow_succ] at hv
      have hpow : 2 ^ (7 * (index + 1)) = 2 ^ (7 * index) * 128 := by
        rw [Nat.mul_add, Nat.pow_add]
      have step := ih (index + 1) (value / 128) (decoded + 2 ^ (7 * index) * (value % 128)) rest
        (by omega) hdiv (fun _ => hlast) (group_lt _ hd)
      have hgroup : (value % 128 + 128) % 128 = value % 128 := by omega
      rw [if_pos hlast]
      simp only [List.cons_append, uvarintDecodeLoop, uvarintMaxBytes, hbyte, and_7f, hgroup,
        List.length_cons]
      rw [if_neg (by omega), if_neg (by omega), if_neg (by omega), or_shiftLeft hd,
        show 7 * index + 7 = 7 * (index + 1) by omega, step]
      have hvalue : decoded + 2 ^ (7 * index) * (value % 128) + 2 ^ (7 * (index + 1)) * (value / 128)
          = decoded + 2 ^ (7 * index) * value := by
        rw [hpow, Nat.mul_assoc, Nat.add_assoc, ← Nat.mul_add]
        congr 2
        omega
      rw [hvalue]
      congr 2
      omega
    · have hbyte : (UInt8.ofNat (value % 128)).toNat = value % 128 := ofNat_toNat_lt (by omega)
      have hmod : value % 128 = value := by omega
      have hnz : ¬ (0 < index ∧ UInt8.ofNat (value % 128) = 0) := by
        rintro ⟨hpos, h0⟩
        have := congrArg UInt8.toNat h0
        rw [hbyte, hmod] at this
        exact hz hpos (by simpa using this)
      rw [if_neg hlast]
      simp only [List.cons_append, List.nil_append, uvarintDecodeLoop, uvarintMaxBytes, hbyte, and_7f,
        List.length_singleton]
      rw [if_neg (by omega), if_neg (by omega), if_pos (by omega), if_neg hnz, or_shiftLeft hd,
        Nat.mod_mod, hmod]

/-- A value below 2^63 and whatever follows it is read back exactly. -/
theorem uvarintDecode_encode (h : uvarintEncode value bufLen = .ok out) (rest : Bytes) :
    uvarintDecode (out ++ rest) = .ok (value, out.length) := by
  have hv := uvarintEncode_ok_lt h
  have hout : out = uvarintEncodeLoop 8 value := by
    unfold uvarintEncode at h
    rw [if_neg (by omega)] at h
    split at h
    · cases h
    · simp only [Except.ok.injEq] at h
      rw [← h]
      -- nine groups hold 63 bits, so the tenth round is never entered
      have key : ∀ fuel v, v < 128 ^ (fuel + 1) →
          uvarintEncodeLoop (fuel + 1) v = uvarintEncodeLoop fuel v := by
        intro fuel
        induction fuel with
        | zero =>
          intro v hv
          rw [uvarintEncodeLoop_succ, if_neg (by omega)]
          simp [uvarintEncodeLoop, and_7f]
        | succ fuel ih =>
          intro v hv
          have hdiv : v / 128 < 128 ^ (fuel + 1) := by
            rw [Nat.div_lt_iff_lt_mul (by decide)]
            rwa [Nat.pow_succ] at hv
          rw [uvarintEncodeLoop_succ (fuel + 1) v, uvarintEncodeLoop_succ fuel v,
            ih (v / 128) hdiv]
      exact key 8 value (by omega)
  have := uvarintDecodeLoop_encode 8 0 value 0 rest rfl (by omega) (by omega) (by decide)
  rw [hout, uvarintDecode]
  simpa using this

/-! ## What the decoder reads -/

/-- The decoder reads at least one byte and never past the input. -/
theorem uvarintDecodeLoop_bounds :
    ∀ (buf : Bytes) (index shift decoded value read : Nat),
      uvarintDecodeLoop buf index shift decoded = .ok (value, read) →
      index < read ∧ read ≤ index + buf.length := by
  intro buf
  induction buf with
  | nil => intro index shift decoded value read h; simp [uvarintDecodeLoop] at h
  | cons byte rest ih =>
    intro index shift decoded value read h
    simp only [uvarintDecodeLoop] at h
    split at h
    · cases h
    split at h
    · cases h
    split at h
    · split at h
      · cases h
      · simp only [Except.ok.injEq, Prod.mk.injEq] at h
        simp only [List.length_cons]
        omega
    · have := ih _ _ _ _ _ h
      simp only [List.length_cons]
      omega

theorem uvarintDecode_bounds (h : uvarintDecode buf = .ok (value, read)) : 0 < read ∧ read ≤ buf.length := by
  simpa using uvarintDecodeLoop_bounds buf 0 0 0 value read h

/-- A number takes at most nine bytes, and an input that ends inside one is shorter. -/
theorem uvarintDecodeLoop_le :
    ∀ (buf : Bytes) (index shift decoded : Nat), index ≤ uvarintMaxBytes →
      (uvarintDecodeLoop buf index shift decoded = .error .truncated →
        index + buf.length ≤ uvarintMaxBytes) ∧
      ∀ value read, uvarintDecodeLoop buf index shift decoded = .ok (value, read) →
        read ≤ uvarintMaxBytes := by
  intro buf
  induction buf with
  | nil =>
    intro index shift decoded hi
    refine ⟨fun _ => hi, ?_⟩
    intro value read h
    simp [uvarintDecodeLoop] at h
  | cons byte rest ih =>
    intro index shift decoded hi
    unfold uvarintDecodeLoop
    by_cases hmax : uvarintMaxBytes ≤ index
    · simp [if_pos hmax]
    by_cases hlast : index = uvarintMaxBytes - 1 ∧ 0x80 ≤ byte.toNat
    · simp [if_pos hlast]
    simp only [if_neg hmax, if_neg hlast]
    by_cases hbyte : byte.toNat < 0x80
    · rw [if_pos hbyte]
      split
      · simp
      · refine ⟨by simp, ?_⟩
        intro value read h
        cases h
        omega
    · rw [if_neg hbyte, List.length_cons]
      have hrest := ih (index + 1) (shift + 7)
        (decoded ||| ((byte.toNat &&& 0x7f) <<< shift)) (by omega)
      refine ⟨fun h => ?_, hrest.2⟩
      have := hrest.1 h
      omega

theorem uvarintDecode_truncated_length (h : uvarintDecode buf = .error .truncated) :
    buf.length ≤ uvarintMaxBytes := by
  simpa using (uvarintDecodeLoop_le buf 0 0 0 (Nat.zero_le _)).1 h

theorem uvarintDecode_read_le (h : uvarintDecode buf = .ok (value, read)) : read ≤ uvarintMaxBytes :=
  (uvarintDecodeLoop_le buf 0 0 0 (Nat.zero_le _)).2 value read h

/-- More input changes an answer only when the input was too short. -/
theorem uvarintDecodeLoop_append :
    ∀ (buf more : Bytes) (index shift decoded : Nat),
      uvarintDecodeLoop buf index shift decoded ≠ .error .truncated →
      uvarintDecodeLoop (buf ++ more) index shift decoded =
        uvarintDecodeLoop buf index shift decoded := by
  intro buf more
  induction buf with
  | nil => intro index shift decoded h; simp [uvarintDecodeLoop] at h
  | cons byte rest ih =>
    intro index shift decoded h
    simp only [List.cons_append, uvarintDecodeLoop] at h ⊢
    split
    · rfl
    split
    · rfl
    split
    · rfl
    · rename_i h1 h2 h3
      rw [if_neg h1, if_neg h2, if_neg h3] at h
      exact ih _ _ _ h

theorem uvarintDecode_append (more : Bytes) (h : uvarintDecode buf ≠ .error .truncated) :
    uvarintDecode (buf ++ more) = uvarintDecode buf :=
  uvarintDecodeLoop_append buf more 0 0 0 h

/-- A number fills at most nine bytes of seven bits. -/
theorem uvarintDecodeLoop_value_lt :
    ∀ (buf : Bytes) (index decoded value read : Nat), decoded < 2 ^ (7 * index) →
      uvarintDecodeLoop buf index (7 * index) decoded = .ok (value, read) → value < 2 ^ 63 := by
  intro buf
  induction buf with
  | nil => intro index decoded value read _ h; simp [uvarintDecodeLoop] at h
  | cons byte rest ih =>
    intro index decoded value read hd h
    simp only [uvarintDecodeLoop, uvarintMaxBytes, and_7f, or_shiftLeft hd] at h
    split at h
    · cases h
    split at h
    · cases h
    split at h
    · split at h
      · cases h
      · rename_i hi _ _ _
        simp only [Except.ok.injEq, Prod.mk.injEq] at h
        rw [← h.1]
        exact lt_of_lt_of_le (group_lt _ hd) (Nat.pow_le_pow_right (by decide) (by omega))
    · exact ih (index + 1) _ _ _ (group_lt _ hd) (by rwa [Nat.mul_add])

theorem uvarintDecode_value_lt (h : uvarintDecode buf = .ok (value, read)) : value < 2 ^ 63 :=
  uvarintDecodeLoop_value_lt buf 0 0 value read (by decide) h

/-- A number that goes on past its first group is at least the place of its second group: the last
    group of a longer one is not zero. -/
theorem uvarintDecodeLoop_le_value :
    ∀ (buf : Bytes) (index decoded value read : Nat), 0 < index → decoded < 2 ^ (7 * index) →
      uvarintDecodeLoop buf index (7 * index) decoded = .ok (value, read) →
      2 ^ (7 * index) ≤ value := by
  intro buf
  induction buf with
  | nil => intro index decoded value read _ _ h; simp [uvarintDecodeLoop] at h
  | cons byte rest ih =>
    intro index decoded value read hpos hd h
    simp only [uvarintDecodeLoop, uvarintMaxBytes, and_7f, or_shiftLeft hd] at h
    split at h
    · cases h
    split at h
    · cases h
    split at h
    · rename_i hsmall
      split at h
      · cases h
      · rename_i hzero
        simp only [Except.ok.injEq, Prod.mk.injEq] at h
        have hbyte : 1 ≤ byte.toNat % 128 := by
          have hne : byte.toNat ≠ 0 := fun h0 => hzero ⟨hpos, UInt8.toNat_inj.mp h0⟩
          omega
        have := Nat.mul_le_mul_left (2 ^ (7 * index)) hbyte
        omega
    · have := ih (index + 1) _ _ _ (Nat.succ_pos index) (group_lt _ hd)
        (by rwa [Nat.mul_add])
      have hpow : 2 ^ (7 * index) ≤ 2 ^ (7 * (index + 1)) :=
        Nat.pow_le_pow_right (by decide) (by omega)
      omega

/-- A number below 128 is its one byte. -/
theorem uvarintDecode_small (hvalue : value < 128) (h : uvarintDecode buf = .ok (value, read)) :
    read = 1 ∧ ∃ rest, buf = UInt8.ofNat value :: rest := by
  cases buf with
  | nil => simp [uvarintDecode, uvarintDecodeLoop] at h
  | cons byte rest =>
    have hd : byte.toNat % 128 < 2 ^ (7 * 1) := Nat.mod_lt _ (by decide)
    simp only [uvarintDecode, uvarintDecodeLoop, uvarintMaxBytes, and_7f, Nat.zero_or,
      Nat.shiftLeft_zero] at h
    rw [if_neg (by decide), if_neg (by omega)] at h
    split at h
    · rename_i hsmall
      rw [if_neg (by omega)] at h
      simp only [Except.ok.injEq, Prod.mk.injEq] at h
      refine ⟨h.2.symm, rest, ?_⟩
      rw [← h.1, Nat.mod_eq_of_lt hsmall, UInt8.ofNat_toNat]
    · have := uvarintDecodeLoop_le_value rest 1 _ value read Nat.one_pos hd h
      omega

theorem uvarintDecode_byte {value : Nat} (rest : Bytes) (h : value < 128) :
    uvarintDecode (UInt8.ofNat value :: rest) = .ok (value, 1) := by
  have hbyte : (UInt8.ofNat value).toNat = value := ofNat_toNat_lt (by omega)
  simp only [uvarintDecode, uvarintDecodeLoop, uvarintMaxBytes, and_7f, Nat.zero_or,
    Nat.shiftLeft_zero, hbyte, Nat.mod_eq_of_lt h]
  rw [if_neg (by decide), if_neg (by omega), if_pos h, if_neg (by omega)]

end LeanLibp2p
