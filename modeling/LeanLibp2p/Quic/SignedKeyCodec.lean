import LeanLibp2p.Quic.IdentityExact

/-!
# The SignedKey payload as a codec

The DER half of `quic_identity.c`: the encoder of the payload, the decoder over the offsets it
reads, and the round trip between the two.
-/

namespace LeanLibp2p.Quic

open LeanLibp2p.Lib

variable {input : Bytes}

/-! ## The encoder -/

/-- `LIBP2P_QUIC_SIGNED_PUBLIC_KEY_MAX_BYTES`. -/
def signedPublicKeyMaxBytes : Nat := 512

/-- The `do … while (value != 0)` loop of `quic_identity_der_length_size`; a `size_t` leaves it after
    at most eight rounds. -/
def derLengthSizeLoop : Nat → Nat → Nat → Nat
  | 0, _, size => size
  | rounds + 1, value, size =>
    if value >>> 8 ≠ 0 then derLengthSizeLoop rounds (value >>> 8) (size + 1) else size + 1

/-- `quic_identity_der_length_size` (`quic_identity.c:72-88`). -/
def derLengthSize (len : Nat) : Nat := if 128 ≤ len then derLengthSizeLoop 8 len 1 else 1

/-- `quic_identity_der_tlv_size` (`quic_identity.c:90-114`). -/
def derTlvSize (valueLen : Nat) : Except QuicErr Nat :=
  if sizeMax < 1 + derLengthSize valueLen then .error .limit
  else if sizeMax < 1 + derLengthSize valueLen + valueLen then .error .limit
  else .ok (1 + derLengthSize valueLen + valueLen)

/-- The loop of `quic_identity_der_write_length` over the octets of a long length. -/
def derLengthBytes (len lenBytes : Nat) : Bytes :=
  (List.range lenBytes).map fun index => UInt8.ofNat (len >>> ((lenBytes - 1 - index) * 8))

/-- `quic_identity_der_write_length` (`quic_identity.c:116-150`) into `outLen` bytes. -/
def derWriteLength (len outLen : Nat) : Except QuicErr Bytes :=
  if outLen < derLengthSize len then .error .bufTooSmall
  else if len < 128 then .ok [UInt8.ofNat len]
  else
    let lenBytes := derLengthSize len - 1
    .ok (UInt8.ofNat (0x80 ||| lenBytes) :: derLengthBytes len lenBytes)

/-- `quic_identity_der_write_tlv` (`quic_identity.c:152-188`): the bytes, and what `*written` is. -/
def derWriteTlv (tag : UInt8) (value : Bytes) (outLen : Nat) : Except QuicErr Bytes × Nat :=
  match derTlvSize value.length with
  | .error e => (.error e, 0)
  | .ok required =>
    if outLen < required then (.error .bufTooSmall, required)
    else
      match derWriteLength value.length (outLen - 1) with
      | .error e => (.error e, required)
      | .ok length => (.ok (tag :: (length ++ value)), required)

/-- The two strings that `libp2p_quic_identity_encode_signed_key_der` puts into `content`. -/
def signedKeyContent (hostPublicKeyMessage signature : Bytes) : Except QuicErr Bytes := do
  let publicKeyTlvLen ← derTlvSize hostPublicKeyMessage.length
  let signatureTlvLen ← derTlvSize signature.length
  if sizeMax < publicKeyTlvLen + signatureTlvLen then throw .limit
  if signedPublicKeyMaxBytes < publicKeyTlvLen + signatureTlvLen then throw .limit
  let publicKeyTlv ← (derWriteTlv derOctetString hostPublicKeyMessage signedPublicKeyMaxBytes).1
  let signatureTlv ←
    (derWriteTlv derOctetString signature (signedPublicKeyMaxBytes - publicKeyTlv.length)).1
  return publicKeyTlv ++ signatureTlv

/-- `libp2p_quic_identity_encode_signed_key_der` (`quic_identity.c:1512-1588`) into `outLen` bytes:
    the payload, and what `*written` is. -/
def encodeSignedKeyDer (hostPublicKeyMessage signature : Bytes) (outLen : Nat) :
    Except QuicErr Bytes × Nat :=
  match signedKeyContent hostPublicKeyMessage signature with
  | .error e => (.error e, 0)
  | .ok content => derWriteTlv derSequence content outLen

/-! ## The encoder writes canonical DER -/

theorem toOctets_succ {value : Nat} (h : value ≠ 0) :
    Der.toOctets value = Der.toOctets (value / 256) ++ [UInt8.ofNat (value % 256)] := by
  rw [Der.toOctets, Der.toOctets, Nat.digits_def' (by decide) (Nat.pos_of_ne_zero h)]
  simp

theorem derLengthSizeLoop_eq (rounds : Nat) :
    ∀ value size, value ≠ 0 → value < 256 ^ rounds →
      derLengthSizeLoop rounds value size = size + (Der.toOctets value).length := by
  induction rounds with
  | zero =>
    intro value size hvalue hlt
    rw [Nat.pow_zero] at hlt
    omega
  | succ rounds ih =>
    intro value size hvalue hlt
    have hshift : value >>> 8 = value / 256 := Nat.shiftRight_eq_div_pow value 8
    rw [derLengthSizeLoop, hshift, toOctets_succ hvalue, List.length_append,
      List.length_singleton]
    split
    · rename_i hmore
      have hdiv : value / 256 < 256 ^ rounds := by
        rw [Nat.div_lt_iff_lt_mul (by decide)]
        rwa [Nat.pow_succ] at hlt
      rw [ih (value / 256) (size + 1) hmore hdiv]
      omega
    · rename_i hlast
      simp only [ne_eq, not_not] at hlast
      simp [hlast, Der.toOctets]

/-- The measured size is that of the length octets. -/
theorem derLengthSize_eq {len : Nat} (h : len ≤ sizeMax) :
    derLengthSize len = (Der.lengthOctets len).length := by
  have hmax : sizeMax = 18446744073709551615 := rfl
  unfold derLengthSize Der.lengthOctets
  by_cases hlong : 128 ≤ len
  · rw [if_pos hlong, if_neg (by omega), List.length_cons,
      derLengthSizeLoop_eq 8 len 1 (by omega) (by omega)]
    omega
  · rw [if_neg hlong, if_pos (by omega), List.length_singleton]

theorem derLengthBytes_succ (len lenBytes : Nat) :
    derLengthBytes len (lenBytes + 1) =
      derLengthBytes (len / 256) lenBytes ++ [UInt8.ofNat len] := by
  unfold derLengthBytes
  rw [List.range_succ, List.map_append, List.map_singleton]
  congr 1
  · refine List.map_congr_left fun index hindex => ?_
    have hlt := List.mem_range.mp hindex
    have hshift : (lenBytes + 1 - 1 - index) * 8 = 8 + (lenBytes - 1 - index) * 8 := by omega
    have hdiv : len / 256 = len >>> 8 := (Nat.shiftRight_eq_div_pow len 8).symm
    rw [hshift, hdiv, Nat.shiftRight_add]
  · simp

/-- The loop over the shifts writes the shortest big-endian octets. -/
theorem derLengthBytes_eq (len : Nat) :
    derLengthBytes len (Der.toOctets len).length = Der.toOctets len := by
  induction len using Nat.strongRecOn with
  | ind len ih =>
    by_cases hzero : len = 0
    · subst hzero
      simp [Der.toOctets, derLengthBytes]
    · have hoctet : UInt8.ofNat len = UInt8.ofNat (len % 256) := by
        apply UInt8.toNat_inj.mp
        simp
      rw [toOctets_succ hzero, List.length_append, List.length_singleton, derLengthBytes_succ,
        ih (len / 256) (by omega), hoctet]

theorem or_80_eq_add {n : Nat} (h : n < 128) : 0x80 ||| n = 128 + n := by
  rw [Nat.or_comm, or_80 h, Nat.add_comm]

theorem derWriteLength_eq {len outLen : Nat} (hlen : len ≤ sizeMax)
    (hout : (Der.lengthOctets len).length ≤ outLen) :
    derWriteLength len outLen = .ok (Der.lengthOctets len) := by
  have hmax : sizeMax = 18446744073709551615 := rfl
  have hsize := derLengthSize_eq hlen
  rw [derWriteLength, if_neg (by omega)]
  by_cases hshort : len < 128
  · rw [if_pos hshort, Der.lengthOctets, if_pos hshort]
  · have hcount : (Der.toOctets len).length ≤ 8 := Der.toOctets_length_le (by omega)
    have hoctets : derLengthSize len - 1 = (Der.toOctets len).length := by
      rw [hsize, Der.lengthOctets, if_neg hshort, List.length_cons]
      omega
    rw [if_neg hshort, Der.lengthOctets, if_neg hshort]
    simp only [hoctets, derLengthBytes_eq, or_80_eq_add (show (Der.toOctets len).length < 128 by omega)]

theorem tlv_length (tag : UInt8) (value : Bytes) :
    (Der.tlv tag value).length = 1 + (Der.lengthOctets value.length).length + value.length := by
  simp only [Der.tlv, List.length_cons, List.length_append]
  omega

/-- A size is measured exactly when a `size_t` holds it. -/
theorem derTlvSize_ok_iff {tag : UInt8} {value : Bytes} {total : Nat} :
    derTlvSize value.length = .ok total ↔
      total = (Der.tlv tag value).length ∧ (Der.tlv tag value).length ≤ sizeMax := by
  rw [derTlvSize, tlv_length]
  by_cases hvalue : value.length ≤ sizeMax
  · rw [derLengthSize_eq hvalue]
    by_cases hfits : 1 + (Der.lengthOctets value.length).length + value.length ≤ sizeMax
    · rw [if_neg (by omega), if_neg (by omega), Except.ok.injEq]
      exact ⟨fun h => ⟨h.symm, hfits⟩, fun h => h.1.symm⟩
    · simp [show sizeMax < 1 + (Der.lengthOctets value.length).length + value.length by omega,
        hfits]
  · rw [if_pos (show sizeMax < 1 + derLengthSize value.length + value.length by omega), ite_self]
    simp only [reduceCtorEq, false_iff, not_and]
    omega

/-- What is written is the string of the tag and the value, where it fits. -/
theorem derWriteTlv_eq {tag : UInt8} {value : Bytes} (outLen : Nat)
    (hsize : (Der.tlv tag value).length ≤ sizeMax) :
    derWriteTlv tag value outLen =
      (if outLen < (Der.tlv tag value).length then .error .bufTooSmall
        else .ok (Der.tlv tag value), (Der.tlv tag value).length) := by
  have hlen := tlv_length tag value
  have hmeasured := (@derTlvSize_ok_iff tag value _).mpr ⟨rfl, hsize⟩
  simp only [derWriteTlv, hmeasured]
  by_cases hfits : outLen < (Der.tlv tag value).length
  · rw [if_pos hfits, if_pos hfits]
  · rw [if_neg hfits, if_neg hfits, derWriteLength_eq (by omega) (by omega)]
    rfl

/-- The content of the SEQUENCE. -/
def signedKeySequence (message signature : Bytes) : Bytes :=
  Der.tlv derOctetString message ++ Der.tlv derOctetString signature

theorem signedKeyContent_ok_iff {message signature content : Bytes} :
    signedKeyContent message signature = .ok content ↔
      content = signedKeySequence message signature ∧
        (signedKeySequence message signature).length ≤ signedPublicKeyMaxBytes := by
  have hmax : sizeMax = 18446744073709551615 := rfl
  have hbytes : signedPublicKeyMaxBytes = 512 := rfl
  have hcontent : (signedKeySequence message signature).length =
      (Der.tlv derOctetString message).length + (Der.tlv derOctetString signature).length :=
    List.length_append
  have hkey := fun total => @derTlvSize_ok_iff derOctetString message total
  have hsign := fun total => @derTlvSize_ok_iff derOctetString signature total
  simp only [signedKeyContent, bind, Except.bind, pure, Except.pure, throw, throwThe,
    MonadExceptOf.throw]
  constructor
  · intro h
    cases hkeyLen : derTlvSize message.length with
    | error e => simp [hkeyLen] at h
    | ok keyLen =>
      cases hsignLen : derTlvSize signature.length with
      | error e => simp [hkeyLen, hsignLen] at h
      | ok signLen =>
        obtain ⟨rfl, hkeyMax⟩ := (hkey keyLen).mp hkeyLen
        obtain ⟨rfl, hsignMax⟩ := (hsign signLen).mp hsignLen
        simp only [hkeyLen, hsignLen] at h
        split at h
        · cases h
        split at h
        · cases h
        rename_i hfits
        rw [derWriteTlv_eq _ hkeyMax, if_neg (by omega)] at h
        simp only [derWriteTlv_eq _ hsignMax] at h
        rw [if_neg (by omega)] at h
        cases h
        exact ⟨rfl, by omega⟩
  · intro h
    obtain ⟨rfl, hfits⟩ := h
    rw [(hkey _).mpr ⟨rfl, by omega⟩, (hsign _).mpr ⟨rfl, by omega⟩]
    simp only []
    rw [if_neg (by omega), if_neg (by omega), derWriteTlv_eq _ (by omega), if_neg (by omega)]
    simp only []
    rw [derWriteTlv_eq _ (by omega), if_neg (by omega)]
    rfl

/-- The encoder writes the payload when its content is within the limit and the buffer holds it. -/
theorem encodeSignedKeyDer_ok_iff {message signature out : Bytes} {outLen : Nat} :
    (encodeSignedKeyDer message signature outLen).1 = .ok out ↔
      out = signedKeyDer message signature ∧
        (signedKeySequence message signature).length ≤ signedPublicKeyMaxBytes ∧
        (signedKeyDer message signature).length ≤ outLen := by
  have hbytes : signedPublicKeyMaxBytes = 512 := rfl
  have hmax : sizeMax = 18446744073709551615 := rfl
  have hpayload : signedKeyDer message signature =
    Der.tlv derSequence (signedKeySequence message signature) := rfl
  unfold encodeSignedKeyDer
  cases hcontent : signedKeyContent message signature with
  | error e =>
    have hlarge : ¬ (signedKeySequence message signature).length ≤ signedPublicKeyMaxBytes := by
      intro hfits
      have := signedKeyContent_ok_iff.mpr ⟨rfl, hfits⟩
      rw [hcontent] at this
      cases this
    simp [hlarge]
  | ok content =>
    obtain ⟨rfl, hfits⟩ := signedKeyContent_ok_iff.mp hcontent
    have hlen := @Der.tlv_length_le derSequence (signedKeySequence message signature) (by omega)
    rw [← hpayload] at hlen
    simp only [@derWriteTlv_eq derSequence _ outLen (show (Der.tlv derSequence
      (signedKeySequence message signature)).length ≤ sizeMax by rw [← hpayload]; omega),
      ← hpayload]
    by_cases hout : outLen < (signedKeyDer message signature).length
    · simp [hout]
    · rw [if_neg hout, Except.ok.injEq]
      exact ⟨fun h => ⟨h.symm, hfits, by omega⟩, fun h => h.1.symm⟩

/-! ## The decoder over offsets -/

/-- The loop of `quic_identity_der_read_length` from an offset, or `none` where it would leave the
    input. -/
def derParsedLengthAt (input : Bytes) : Nat → Nat → Nat → Option Nat
  | 0, _, parsed => some parsed
  | lenBytes + 1, start, parsed =>
    match input[start]? with
    | none => none
    | some octet => derParsedLengthAt input lenBytes (start + 1) (parsed <<< 8 ||| octet.toNat)

/-- `quic_identity_der_read_length` at an offset of the input. -/
def derReadLengthAt (input : Bytes) (start inLen : Nat) : Option (Except QuicErr (Nat × Nat)) :=
  if inLen = 0 then some (.error .invalidArg)
  else
    match input[start]? with
    | none => none
    | some first =>
      if first.toNat < 0x80 then some (.ok (first.toNat, 1))
      else
        let lenBytes := first.toNat &&& 0x7f
        if lenBytes = 0 ∨ 8 < lenBytes ∨ inLen < 1 + lenBytes then
          some (.error .certificateExtension)
        else
          match input[start + 1]? with
          | none => none
          | some second =>
            if second = 0 then some (.error .certificateExtension)
            else
              match derParsedLengthAt input lenBytes (start + 1) 0 with
              | none => none
              | some parsed =>
                if parsed < 128 then some (.error .certificateExtension)
                else some (.ok (parsed, 1 + lenBytes))

/-- `quic_identity_der_read_tlv` at an offset of the input: where the value starts, its length and
    how many bytes the string takes. -/
def derReadTlvAt (input : Bytes) (start inLen : Nat) (expectedTag : UInt8) :
    Option (Except QuicErr (Nat × Nat × Nat)) :=
  if inLen < 2 then some (.error .invalidArg)
  else
    match input[start]? with
    | none => none
    | some tag =>
      if tag ≠ expectedTag then some (.error .certificateExtension)
      else
        match derReadLengthAt input (start + 1) (inLen - 1) with
        | none => none
        | some (.error e) => some (.error e)
        | some (.ok (valueLen, lenConsumed)) =>
          let total := 1 + lenConsumed + valueLen
          if sizeMax < total then some (.error .certificateExtension)
          else if inLen < total then some (.error .certificateExtension)
          else some (.ok (start + 1 + lenConsumed, valueLen, total))

/-- A `memcpy` of `len` bytes out of the input. -/
def copyAt (input : Bytes) (start len : Nat) : Option Bytes :=
  if start + len ≤ input.length then some ((input.drop start).take len) else none

/-- `libp2p_quic_identity_decode_signed_key_der` over offsets of its input; `none` is a read outside
    of it. -/
def decodeSignedKeyDerAt (input : Bytes) (publicKeyOutLen signatureOutLen : Nat) :
    Option (Except QuicErr (Bytes × Bytes)) :=
  match derReadTlvAt input 0 input.length derSequence with
  | none => none
  | some (.error e) => some (.error e)
  | some (.ok (sequence, sequenceLen, sequenceConsumed)) =>
    if sequenceConsumed ≠ input.length then some (.error .certificateExtension)
    else
      match derReadTlvAt input sequence sequenceLen derOctetString with
      | none => none
      | some (.error e) => some (.error e)
      | some (.ok (publicKey, publicKeyLen, publicKeyConsumed)) =>
        match derReadTlvAt input (sequence + publicKeyConsumed) (sequenceLen - publicKeyConsumed)
            derOctetString with
        | none => none
        | some (.error e) => some (.error e)
        | some (.ok (signature, signatureLen, signatureConsumed)) =>
          if publicKeyConsumed + signatureConsumed ≠ sequenceLen then
            some (.error .certificateExtension)
          else if publicKeyOutLen < publicKeyLen ∨ signatureOutLen < signatureLen then
            some (.error .bufTooSmall)
          else
            match copyAt input publicKey publicKeyLen, copyAt input signature signatureLen with
            | some publicKey, some signature => some (.ok (publicKey, signature))
            | _, _ => none

/-- The bytes between two offsets. -/
def slice (input : Bytes) (start len : Nat) : Bytes := (input.drop start).take len

theorem slice_length {start len : Nat} (h : start + len ≤ input.length) :
    (slice input start len).length = len := by
  rw [slice, List.length_take, List.length_drop]
  omega

theorem slice_cons {start len : Nat} (h : start + (len + 1) ≤ input.length) :
    ∃ first, input[start]? = some first ∧
      slice input start (len + 1) = first :: slice input (start + 1) len := by
  have hlt : start < input.length := by omega
  refine ⟨input[start], List.getElem?_eq_getElem hlt, ?_⟩
  rw [slice, List.drop_eq_getElem_cons hlt, List.take_succ_cons, slice]

theorem slice_slice {start len from' count : Nat} (h : from' + count ≤ len) :
    ((slice input start len).drop from').take count = slice input (start + from') count := by
  rw [slice, List.drop_take, List.take_take, List.drop_drop, slice, Nat.min_eq_left (by omega)]

theorem derParsedLengthAt_eq (lenBytes : Nat) :
    ∀ start parsed, start + lenBytes ≤ input.length →
      derParsedLengthAt input lenBytes start parsed =
        some ((slice input start lenBytes).foldl
          (fun parsed octet => parsed <<< 8 ||| octet.toNat) parsed) := by
  induction lenBytes with
  | zero => intro start parsed _; simp [derParsedLengthAt, slice]
  | succ lenBytes ih =>
    intro start parsed h
    obtain ⟨octet, hoctet, hslice⟩ := slice_cons h
    rw [derParsedLengthAt, hoctet, hslice, List.foldl_cons]
    exact ih (start + 1) _ (by omega)

/-- Inside the input the offsets read what the bytes of the slice say. -/
theorem derReadLengthAt_eq {start inLen : Nat} (h : start + inLen ≤ input.length) :
    derReadLengthAt input start inLen = some (derReadLength (slice input start inLen)) := by
  cases inLen with
  | zero => simp [derReadLengthAt, slice, derReadLength]
  | succ inLen =>
    obtain ⟨first, hfirst, hslice⟩ := slice_cons h
    have hrest := slice_length (show start + 1 + inLen ≤ input.length by omega)
    simp only [derReadLengthAt, hfirst, hslice, derReadLength, hrest]
    rw [if_neg (Nat.succ_ne_zero inLen)]
    by_cases hshort : first.toNat < 0x80
    · rw [if_pos hshort, if_pos hshort]
    rw [if_neg hshort, if_neg hshort]
    have hcount : inLen + 1 < 1 + (first.toNat &&& 0x7f) ↔ inLen < first.toNat &&& 0x7f := by omega
    simp only [hcount]
    by_cases hbad : first.toNat &&& 0x7f = 0 ∨ 8 < first.toNat &&& 0x7f ∨
        inLen < first.toNat &&& 0x7f
    · rw [if_pos hbad, if_pos hbad]
    rw [if_neg hbad, if_neg hbad]
    obtain ⟨more, rfl⟩ : ∃ more, inLen = more + 1 := ⟨inLen - 1, by omega⟩
    obtain ⟨second, hsecond, hslice'⟩ :=
      slice_cons (show start + 1 + (more + 1) ≤ input.length by omega)
    have htake : (slice input (start + 1) (more + 1)).take (first.toNat &&& 0x7f) =
        slice input (start + 1) (first.toNat &&& 0x7f) := by
      have := @slice_slice input (start + 1) (more + 1) 0 (first.toNat &&& 0x7f) (by omega)
      simpa using this
    have hparsed : derParsedLengthAt input (first.toNat &&& 0x7f) (start + 1) 0 =
        some (derParsedLength (slice input (start + 1) (first.toNat &&& 0x7f))) :=
      derParsedLengthAt_eq (first.toNat &&& 0x7f) (start + 1) 0 (by omega)
    rw [hsecond, hparsed, htake, hslice', List.head?_cons]
    by_cases hzero : second = 0
    · simp [hzero]
    · by_cases hsmall :
          derParsedLength (slice input (start + 1) (first.toNat &&& 0x7f)) < 128
      · simp [hzero, hsmall]
      · simp [hzero, hsmall]

theorem derReadTlvAt_error {start inLen : Nat} {tag : UInt8} {e : QuicErr}
    (h : start + inLen ≤ input.length) (hread : derReadTlv (slice input start inLen) tag = .error e) :
    derReadTlvAt input start inLen tag = some (.error e) := by
  unfold derReadTlv at hread
  rw [slice_length h] at hread
  unfold derReadTlvAt
  by_cases hshort : inLen < 2
  · rw [if_pos hshort] at hread ⊢
    cases hread
    rfl
  rw [if_neg hshort] at hread ⊢
  obtain ⟨more, rfl⟩ : ∃ more, inLen = more + 1 := ⟨inLen - 1, by omega⟩
  obtain ⟨first, hfirst, hslice⟩ := slice_cons h
  rw [hslice, List.head?_cons, List.tail_cons] at hread
  simp only [hfirst, Nat.add_sub_cancel,
    derReadLengthAt_eq (show start + 1 + more ≤ input.length by omega)]
  simp only [ne_eq, Option.some.injEq] at hread
  by_cases htag : first = tag
  case neg =>
    rw [if_pos htag] at hread ⊢
    cases hread
    rfl
  rw [if_neg (not_not.mpr htag)] at hread ⊢
  cases hlength : derReadLength (slice input (start + 1) more) with
  | error e' =>
    simp only [hlength] at hread
    cases hread
    rfl
  | ok read =>
    simp only [hlength] at hread ⊢
    split at hread
    · rename_i hmax
      cases hread
      rw [if_pos hmax]
    split at hread
    · rename_i hmax hlen
      cases hread
      rw [if_neg hmax, if_pos hlen]
    · cases hread

/-- A string that is read lies where the offsets say. -/
theorem derReadTlvAt_ok {input value : Bytes} {start inLen consumed : Nat} {tag : UInt8}
    (h : start + inLen ≤ input.length)
    (hread : derReadTlv (slice input start inLen) tag = .ok (value, consumed)) :
    ∃ found, derReadTlvAt input start inLen tag = some (.ok (found, value.length, consumed)) ∧
      value = slice input found value.length ∧ found + value.length = start + consumed ∧
      consumed ≤ inLen := by
  unfold derReadTlv at hread
  rw [slice_length h] at hread
  unfold derReadTlvAt
  by_cases hshort : inLen < 2
  · rw [if_pos hshort] at hread
    cases hread
  rw [if_neg hshort] at hread ⊢
  obtain ⟨more, rfl⟩ : ∃ more, inLen = more + 1 := ⟨inLen - 1, by omega⟩
  obtain ⟨first, hfirst, hslice⟩ := slice_cons h
  rw [hslice, List.head?_cons, List.tail_cons, ← hslice] at hread
  simp only [hfirst, Nat.add_sub_cancel,
    derReadLengthAt_eq (show start + 1 + more ≤ input.length by omega)]
  simp only [ne_eq, Option.some.injEq] at hread
  by_cases htag : first = tag
  case neg =>
    rw [if_pos htag] at hread
    cases hread
  rw [if_neg (not_not.mpr htag)] at hread ⊢
  cases hlength : derReadLength (slice input (start + 1) more) with
  | error e' =>
    simp only [hlength] at hread
    cases hread
  | ok read =>
    obtain ⟨valueLen, lenConsumed⟩ := read
    simp only [hlength] at hread ⊢
    split at hread
    · cases hread
    split at hread
    · cases hread
    rename_i hmax hlen
    obtain ⟨hvalue, rfl⟩ := Prod.mk.inj (Except.ok.inj hread)
    have hat := @slice_slice input start (more + 1) (1 + lenConsumed) valueLen (by omega)
    rw [hat] at hvalue
    have hcount : value.length = valueLen := by
      rw [← hvalue, slice_length (by omega)]
    rw [if_neg hmax, if_neg hlen, hcount, Nat.add_assoc start 1]
    exact ⟨start + (1 + lenConsumed), rfl, hvalue.symm, by omega, by omega⟩

theorem copyAt_slice {input value : Bytes} {start : Nat} (h : start + value.length ≤ input.length)
    (hvalue : value = slice input start value.length) :
    copyAt input start value.length = some value := by
  rw [copyAt, if_pos h]
  exact congrArg some hvalue.symm

theorem slice_drop {input value : Bytes} {found len : Nat} (hvalue : value = slice input found len)
    (consumed : Nat) :
    value.drop consumed = slice input (found + consumed) (len - consumed) := by
  rw [hvalue, slice, List.drop_take, List.drop_drop, slice]

/-- The decoder never reads outside of its input. -/
theorem decodeSignedKeyDerAt_eq (input : Bytes) (publicKeyOutLen signatureOutLen : Nat) :
    decodeSignedKeyDerAt input publicKeyOutLen signatureOutLen =
      some (decodeSignedKeyDer input publicKeyOutLen signatureOutLen) := by
  have hwhole : slice input 0 input.length = input := by simp [slice]
  simp only [decodeSignedKeyDer, bind, Except.bind, pure, Except.pure, throw, throwThe,
    MonadExceptOf.throw]
  unfold decodeSignedKeyDerAt
  cases hsequence : derReadTlv input derSequence with
  | error e =>
    rw [derReadTlvAt_error (by omega) (by rw [hwhole]; exact hsequence)]
  | ok read =>
    obtain ⟨sequence, sequenceConsumed⟩ := read
    obtain ⟨found, hfound, hslice, hend, hconsumed⟩ := derReadTlvAt_ok
      (show 0 + input.length ≤ input.length by omega) (by rw [hwhole]; exact hsequence)
    simp only [hfound]
    by_cases hends : sequenceConsumed = input.length
    case neg => rw [if_pos hends, if_pos hends]
    rw [if_neg (not_not.mpr hends), if_neg (not_not.mpr hends)]
    cases hkey : derReadTlv sequence derOctetString with
    | error e =>
      rw [derReadTlvAt_error (by omega) (by rw [← hslice]; exact hkey)]
    | ok read =>
      obtain ⟨publicKey, publicKeyConsumed⟩ := read
      obtain ⟨keyAt, hkeyAt, hkeySlice, hkeyEnd, hkeyConsumed⟩ := derReadTlvAt_ok
        (show found + sequence.length ≤ input.length by omega) (by rw [← hslice]; exact hkey)
      have hrest := slice_drop hslice publicKeyConsumed
      simp only [hkeyAt]
      cases hsign : derReadTlv (sequence.drop publicKeyConsumed) derOctetString with
      | error e =>
        rw [derReadTlvAt_error (by omega) (by rw [← hrest]; exact hsign)]
      | ok read =>
        obtain ⟨signature, signatureConsumed⟩ := read
        obtain ⟨signAt, hsignAt, hsignSlice, hsignEnd, hsignConsumed⟩ := derReadTlvAt_ok
          (show found + publicKeyConsumed + (sequence.length - publicKeyConsumed) ≤ input.length by
            omega) (by rw [← hrest]; exact hsign)
        simp only [hsignAt]
        by_cases hinner : publicKeyConsumed + signatureConsumed = sequence.length
        case neg => rw [if_pos hinner, if_pos hinner]
        rw [if_neg (not_not.mpr hinner), if_neg (not_not.mpr hinner)]
        by_cases hfits : publicKeyOutLen < publicKey.length ∨ signatureOutLen < signature.length
        · rw [if_pos hfits, if_pos hfits]
        · rw [if_neg hfits, if_neg hfits, copyAt_slice (by omega) hkeySlice,
            copyAt_slice (by omega) hsignSlice]

/-! ## The codec -/

/-- An input is parsed when it is accepted or refused for the output buffers alone. -/
def ParsesSignedKey (payload : Bytes) : Prop :=
  ∀ publicKeyOutLen signatureOutLen e,
    decodeSignedKeyDer payload publicKeyOutLen signatureOutLen = .error e → e = .bufTooSmall

theorem parsesSignedKey_iff {payload : Bytes} (hlen : payload.length ≤ sizeMax) :
    ParsesSignedKey payload ↔ ∃ message signature, payload = signedKeyDer message signature := by
  constructor
  · intro h
    obtain ⟨message, signature, hpayload, -⟩ := decodeSignedKeyDer_sound (h 0 0)
    exact ⟨message, signature, hpayload⟩
  · intro h publicKeyOutLen signatureOutLen e he
    obtain ⟨message, signature, rfl⟩ := h
    rw [decodeSignedKeyDer_payload hlen] at he
    split at he
    · exact (Except.error.inj he).symm
    · cases he

/-- The encoder and the decoder of the payload are inverse to each other: what the encoder writes is
    read back, what the decoder parses is canonical DER, and that is what the encoder writes for the
    two values. The decoder reads nothing but its input. -/
theorem signedKeyDer_codec :
    (∀ message signature outLen out,
      (encodeSignedKeyDer message signature outLen).1 = .ok out →
      ∀ publicKeyOutLen signatureOutLen, message.length ≤ publicKeyOutLen →
        signature.length ≤ signatureOutLen →
        decodeSignedKeyDer out publicKeyOutLen signatureOutLen = .ok (message, signature)) ∧
    (∀ payload : Bytes, payload.length ≤ sizeMax →
      (ParsesSignedKey payload ↔
        ∃ message signature, payload = signedKeyDer message signature)) ∧
    (∀ message signature publicKeyOutLen signatureOutLen,
      (signedKeyDer message signature).length ≤ sizeMax →
      decodeSignedKeyDer (signedKeyDer message signature) publicKeyOutLen signatureOutLen =
        if publicKeyOutLen < message.length ∨ signatureOutLen < signature.length then
          .error .bufTooSmall
        else .ok (message, signature)) ∧
    (∀ payload publicKeyOutLen signatureOutLen,
      decodeSignedKeyDerAt payload publicKeyOutLen signatureOutLen =
        some (decodeSignedKeyDer payload publicKeyOutLen signatureOutLen)) ∧
    ∀ payload message signature publicKeyOutLen signatureOutLen outLen,
      decodeSignedKeyDer payload publicKeyOutLen signatureOutLen = .ok (message, signature) →
      (signedKeySequence message signature).length ≤ signedPublicKeyMaxBytes →
      payload.length ≤ outLen →
      (encodeSignedKeyDer message signature outLen).1 = .ok payload := by
  have hbytes : signedPublicKeyMaxBytes = 512 := rfl
  have hmax : sizeMax = 18446744073709551615 := rfl
  refine ⟨?_, fun _ => parsesSignedKey_iff, fun _ _ publicKeyOutLen signatureOutLen h =>
    decodeSignedKeyDer_payload h publicKeyOutLen signatureOutLen, decodeSignedKeyDerAt_eq, ?_⟩
  · intro message signature outLen out h publicKeyOutLen signatureOutLen hmessage hsignature
    obtain ⟨rfl, hfits, -⟩ := encodeSignedKeyDer_ok_iff.mp h
    have hlen := @Der.tlv_length_le derSequence (signedKeySequence message signature) (by omega)
    have hpayload : (signedKeyDer message signature).length ≤ sizeMax := by
      change (Der.tlv derSequence (signedKeySequence message signature)).length ≤ sizeMax
      omega
    rw [decodeSignedKeyDer_payload hpayload, if_neg (by omega)]
  · intro payload message signature publicKeyOutLen signatureOutLen outLen h hfits hout
    obtain ⟨message', signature', rfl, hdecode⟩ := decodeSignedKeyDer_sound
      (fun e he => by rw [h] at he; cases he)
    rw [h] at hdecode
    split at hdecode
    · cases hdecode
    · obtain ⟨rfl, rfl⟩ := Prod.mk.inj (Except.ok.inj hdecode)
      exact encodeSignedKeyDer_ok_iff.mpr ⟨rfl, hfits, hout⟩

end LeanLibp2p.Quic
