import LeanLibp2p.Multiformats.VarintCode

/-!
# Multihashes

`multihash.c`: a code, the length of a digest and the digest. The subset has the identity and
SHA2-256.
-/

namespace LeanLibp2p

/-- `libp2p_multihash_err_t` without `OK`. -/
inductive MultihashErr where
  | bufTooSmall
  | unsupportedCode
  | invalidVarint
  | truncated
  | digestSizeMismatch
  deriving DecidableEq, Repr

/-- `LIBP2P_MULTIHASH_CODE_IDENTITY`. -/
def multihashCodeIdentity : Nat := 0x00
/-- `LIBP2P_MULTIHASH_CODE_SHA2_256`. -/
def multihashCodeSha2_256 : Nat := 0x12
/-- `LIBP2P_MULTIHASH_SHA2_256_DIGEST_BYTES`. -/
def multihashSha2_256DigestBytes : Nat := 32

/-- `multihash_map_header_varint_err` (`multihash.c:63-86`). -/
def multihashMapHeaderVarintErr : UvarintErr → MultihashErr
  | .truncated => .truncated
  | .bufTooSmall | .nonMinimal | .overflow => .invalidVarint

/-- `multihash_validate_code_and_length` (`multihash.c:33-61`). -/
def multihashValidateCodeAndLength (code digestLen : Nat) : Except MultihashErr Unit :=
  if 0x7FFFFFFFFFFFFFFF < digestLen then .error .digestSizeMismatch
  else if code = multihashCodeIdentity then .ok ()
  else if code = multihashCodeSha2_256 then
    if digestLen ≠ multihashSha2_256DigestBytes then .error .digestSizeMismatch else .ok ()
  else .error .unsupportedCode

/-- `libp2p_multihash_encode` (`multihash.c:88-159`) into `outLen` bytes, with `*written`; a NULL
    buffer is a buffer of no bytes. -/
def multihashEncode (code : Nat) (digest : Bytes) (outLen : Nat) :
    Except MultihashErr Bytes × Nat :=
  match multihashValidateCodeAndLength code digest.length with
  | .error e => (.error e, 0)
  | .ok () =>
    let required := uvarintSize code + uvarintSize digest.length + digest.length
    if outLen < required then (.error .bufTooSmall, required)
    else
      match uvarintEncode code 10, uvarintEncode digest.length 10 with
      | .ok codeBuf, .ok sizeBuf => (.ok (codeBuf ++ sizeBuf ++ digest), required)
      | _, _ => (.error .invalidVarint, required)

/-- `libp2p_multihash_read_header` (`multihash.c:225-292`): the code, the length of the digest and
    where it starts. -/
def multihashReadHeader (input : Bytes) : Except MultihashErr (Nat × Nat × Nat) :=
  match uvarintDecode input with
  | .error e => .error (multihashMapHeaderVarintErr e)
  | .ok (code, codeRead) =>
    match uvarintDecode (input.drop codeRead) with
    | .error e => .error (multihashMapHeaderVarintErr e)
    | .ok (digestLen, sizeRead) => .ok (code, digestLen, codeRead + sizeRead)

/-- `libp2p_multihash_decode` (`multihash.c:161-223`): the code, the digest and the bytes read. -/
def multihashDecode (input : Bytes) : Except MultihashErr (Nat × Bytes × Nat) :=
  match multihashReadHeader input with
  | .error e => .error e
  | .ok (code, digestLen, digestOffset) =>
    match multihashValidateCodeAndLength code digestLen with
    | .error e => .error e
    | .ok () =>
      if input.length - digestOffset < digestLen then .error .truncated
      else .ok (code, (input.drop digestOffset).take digestLen, digestOffset + digestLen)

/-- The multihash of a code and a digest that both take one byte to announce. -/
def multihash (code : Nat) (digest : Bytes) : Bytes :=
  UInt8.ofNat code :: UInt8.ofNat digest.length :: digest

theorem uvarintSize_small {value : Nat} (h : value < 128) : uvarintSize value = 1 := by
  rw [uvarintSize, ← uvarintEncodeLoop_length, uvarintEncodeLoop_small h]
  rfl

theorem uvarintEncode_small {value bufLen : Nat} (h : value < 128) (hbuf : 1 ≤ bufLen) :
    uvarintEncode value bufLen = .ok [UInt8.ofNat value] := by
  rw [uvarintEncode, uvarintSize_small h, if_neg (by omega), if_neg (by omega),
    uvarintEncodeLoop_small h]

/-- A supported digest of less than 128 bytes is written as its multihash. -/
theorem multihashEncode_small {code outLen : Nat} {digest : Bytes} (hlen : digest.length < 128)
    (hcode : code = multihashCodeIdentity ∨ code = multihashCodeSha2_256 ∧ digest.length = 32)
    (hout : digest.length + 2 ≤ outLen) :
    multihashEncode code digest outLen = (.ok (multihash code digest), digest.length + 2) := by
  have hidentity : multihashCodeIdentity = 0 := rfl
  have hsha : multihashCodeSha2_256 = 18 := rfl
  have hbytes : multihashSha2_256DigestBytes = 32 := rfl
  have hsmall : code < 128 := by omega
  have hvalid : multihashValidateCodeAndLength code digest.length = .ok () := by
    unfold multihashValidateCodeAndLength
    rw [if_neg (by omega)]
    by_cases h0 : code = multihashCodeIdentity
    · rw [if_pos h0]
    · rw [if_neg h0, if_pos (by omega), if_neg (by omega)]
  unfold multihashEncode
  simp only [hvalid, uvarintSize_small hsmall, uvarintSize_small hlen]
  rw [if_neg (by omega), uvarintEncode_small hsmall (by decide),
    uvarintEncode_small hlen (by decide)]
  simp only [multihash, Prod.mk.injEq]
  exact ⟨rfl, by omega⟩

/-- A header with a code and a length below 128 is two bytes. -/
theorem multihashReadHeader_small {input : Bytes} {code digestLen offset : Nat} (hcode : code < 128)
    (hlen : digestLen < 128) :
    multihashReadHeader input = .ok (code, digestLen, offset) ↔
      offset = 2 ∧ ∃ rest, input = UInt8.ofNat code :: UInt8.ofNat digestLen :: rest := by
  unfold multihashReadHeader
  constructor
  · intro h
    cases hfirst : uvarintDecode input with
    | error e => simp [hfirst] at h
    | ok first =>
      obtain ⟨firstCode, codeRead⟩ := first
      simp only [hfirst] at h
      cases hsecond : uvarintDecode (input.drop codeRead) with
      | error e => simp [hsecond] at h
      | ok second =>
        obtain ⟨secondLen, sizeRead⟩ := second
        simp only [hsecond, Except.ok.injEq, Prod.mk.injEq] at h
        obtain ⟨rfl, rfl, rfl⟩ := h
        obtain ⟨rfl, rest, rfl⟩ := uvarintDecode_small hcode hfirst
        rw [List.drop_one, List.tail_cons] at hsecond
        obtain ⟨rfl, rest, rfl⟩ := uvarintDecode_small hlen hsecond
        exact ⟨rfl, rest, rfl⟩
  · rintro ⟨rfl, rest, rfl⟩
    simp [uvarintDecode_byte _ hcode, uvarintDecode_byte _ hlen]

end LeanLibp2p
