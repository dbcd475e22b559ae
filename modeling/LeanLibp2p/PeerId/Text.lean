import LeanLibp2p.Multiformats.Multibase
import LeanLibp2p.PeerId.Key

/-!
# Peer ids as texts

The checks of a binary peer id and its two texts in `peer_id.c`: the legacy one is the base58btc text
of the id without a prefix, the other one a CIDv1 in a multibase. Both are decoded into arrays of a
fixed size, whose lack of room is reported as that of the caller's buffer.
-/

namespace LeanLibp2p

open LeanLibp2p.Lib

/-- `LIBP2P_PEER_ID_CID_VERSION_1`. -/
def peerIdCidVersion1 : Nat := 0x01
/-- `LIBP2P_PEER_ID_CID_CODEC_LIBP2P_KEY`. -/
def peerIdCidCodecLibp2pKey : Nat := 0x72
/-- `LIBP2P_PEER_ID_TEXT_MAX_BYTES`. -/
def peerIdTextMaxBytes : Nat := 96

/-- `peer_id_multibase_err_to_peer_id` (`peer_id.c:61-89`). -/
def peerIdMultibaseErr : MultibaseErr → PeerIdErr
  | .bufTooSmall => .bufTooSmall
  | .unsupportedBase | .reservedPrefix => .unsupportedEncoding
  | .invalidCharacter | .invalidLength | .emptyInput => .invalidPeerId

/-- The test of `libp2p_peer_id_from_string` (`peer_id.c:1214-1215`) for a legacy text. -/
def isLegacyText (text : Bytes) : Bool :=
  text.head? = some (ascii '1') ∨ text.head? = some (ascii 'Q') ∧ text[1]? = some (ascii 'm')

/-- `peer_id_decode_legacy_text` (`peer_id.c:532-577`). -/
def decodeLegacyText (text : Bytes) (outLen : Nat) : Except PeerIdErr Bytes :=
  if text.length = 0 ∨ peerIdTextMaxBytes < text.length then .error .invalidPeerId
  else (multibaseDecode (ascii 'z' :: text) outLen).1.mapError peerIdMultibaseErr

namespace Secp256k1

section

variable (lib : Secp256k1)

/-- `peer_id_validate_binary_peer_id` (`peer_id.c:463-530`). -/
def validateBinaryPeerId (id : Bytes) : Except PeerIdErr Unit :=
  match multihashReadHeader id with
  | .error e => .error (peerIdMultihashErr e)
  | .ok (code, digestLen, digestOffset) =>
    if digestOffset + digestLen ≠ id.length then .error .invalidPeerId
    else if code = multihashCodeIdentity then
      if peerIdInlineKeyMaxBytes < digestLen then .error .invalidPeerId
      else
        match decodeKeyMessage (id.drop digestOffset) with
        | .error e => .error e
        | .ok keyOffset => lib.parsePublicKey (id.drop (digestOffset + keyOffset))
    else if code = multihashCodeSha2_256 then
      if digestLen ≠ peerIdSha2_256Bytes then .error .invalidPeerId else .ok ()
    else .error .unsupportedEncoding

/-- `peer_id_decode_cid_text` (`peer_id.c:579-687`). -/
def decodeCidText (text : Bytes) (outLen : Nat) : Except PeerIdErr Bytes :=
  if text.length = 0 then .error .invalidPeerId
  else
    match (multibaseDecode text (peerIdInlineKeyMaxBytes + 8)).1 with
    | .error e => .error (peerIdMultibaseErr e)
    | .ok decoded =>
      match uvarintDecode decoded with
      | .error _ => .error .invalidPeerId
      | .ok (version, versionRead) =>
        if version ≠ peerIdCidVersion1 then .error .unsupportedEncoding
        else if decoded.length < versionRead then .error .invalidPeerId
        else
          match uvarintDecode (decoded.drop versionRead) with
          | .error _ => .error .invalidPeerId
          | .ok (codec, codecRead) =>
            if codec ≠ peerIdCidCodecLibp2pKey then .error .unsupportedEncoding
            else
              let id := decoded.drop (versionRead + codecRead)
              match lib.validateBinaryPeerId id with
              | .error e => .error e
              | .ok () => if outLen < id.length then .error .bufTooSmall else .ok id

/-- The decoding step of `libp2p_peer_id_from_string`, into an array of a peer id's size. -/
def decodePeerIdText (text : Bytes) : Except PeerIdErr Bytes :=
  if text.length = 0 then .error .invalidPeerId
  else if isLegacyText text then decodeLegacyText text peerIdMaxBytes
  else lib.decodeCidText text peerIdMaxBytes

/-- `libp2p_peer_id_from_string` (`peer_id.c:1196-1252`). -/
def peerIdFromString (text : Bytes) (outLen : Nat) : Except PeerIdErr Bytes × Nat :=
  match lib.decodePeerIdText text with
  | .error e => (.error e, 0)
  | .ok id =>
    match lib.validateBinaryPeerId id with
    | .error e => (.error e, 0)
    | .ok () => if outLen < id.length then (.error .bufTooSmall, id.length) else (.ok id, id.length)

/-- `libp2p_peer_id_to_string` (`peer_id.c:1254-1308`). -/
def peerIdToString (id : Bytes) (outLen : Nat) : Except PeerIdErr Bytes × Nat :=
  match lib.validateBinaryPeerId id with
  | .error e => (.error e, 0)
  | .ok () =>
    match (multibaseEncodeBase58btc id peerIdTextMaxBytes).1 with
    | .error e => (.error (peerIdMultibaseErr e), 0)
    | .ok encoded =>
      if encoded.length = 0 then (.error .invalidPeerId, 0)
      else if outLen < encoded.length - 1 then (.error .bufTooSmall, encoded.length - 1)
      else (.ok (encoded.drop 1), encoded.length - 1)

/-- `libp2p_peer_id_extract_secp256k1_public_key` (`peer_id.c:1310-1368`). -/
def extractSecp256k1PublicKey (id : Bytes) (outLen : Nat) : Except PeerIdErr Bytes × Nat :=
  match multihashReadHeader id with
  | .error e => (.error (peerIdMultihashErr e), 0)
  | .ok (code, digestLen, digestOffset) =>
    if digestOffset + digestLen ≠ id.length then (.error .invalidPeerId, 0)
    else if code = multihashCodeSha2_256 then (.error .noInlinePublicKey, 0)
    else if code ≠ multihashCodeIdentity then (.error .unsupportedEncoding, 0)
    else if peerIdInlineKeyMaxBytes < digestLen then (.error .invalidPeerId, 0)
    else lib.publicKeyDecode (id.drop digestOffset) outLen

end

variable {lib : Secp256k1}

/-! ## The binary ids -/

/-- A binary peer id that the check accepts. -/
def ValidPeerId (lib : Secp256k1) (id : Bytes) : Prop := lib.validateBinaryPeerId id = .ok ()

/-- A binary peer id holds a compressed key or a SHA2-256 digest. -/
theorem ValidPeerId.cases {id : Bytes} (h : lib.ValidPeerId id) :
    (∃ key, lib.ValidKey key ∧ key.length = 33 ∧
      id = multihash multihashCodeIdentity (keyMessage key)) ∨
      ∃ digest : Bytes, digest.length = 32 ∧ id = multihash multihashCodeSha2_256 digest := by
  have hinline : peerIdInlineKeyMaxBytes = 42 := rfl
  have hsize : peerIdSha2_256Bytes = 32 := rfl
  unfold ValidPeerId validateBinaryPeerId at h
  cases hheader : multihashReadHeader id with
  | error e => simp [hheader] at h
  | ok header =>
    obtain ⟨code, digestLen, digestOffset⟩ := header
    simp only [hheader] at h
    split at h
    · cases h
    rename_i hlength
    split at h
    · rename_i hcode
      split at h
      · cases h
      rename_i hshort
      subst hcode
      obtain ⟨rfl, rest, rfl⟩ := (multihashReadHeader_small (by decide) (by omega)).mp hheader
      rw [List.length_cons, List.length_cons] at hlength
      rw [List.drop_succ_cons, List.drop_succ_cons, List.drop_zero] at h
      cases hdecode : decodeKeyMessage rest with
      | error e => simp [hdecode] at h
      | ok keyOffset =>
        simp only [hdecode] at h
        obtain ⟨rfl, hrest⟩ := (decodeKeyMessage_small (by omega)).mp hdecode
        generalize hkey : rest.drop 4 = key at hrest
        subst hrest
        have hvalid : lib.ValidKey key := parsePublicKey_ok_iff.mp h
        have hkeyLen : key.length = 33 := by
          have hshort : secp256k1CompressedPublicKeyBytes = 33 := rfl
          have hlong : secp256k1UncompressedPublicKeyBytes = 65 := rfl
          rw [keyMessage_length] at hlength
          rcases hvalid.1 with h | h
          · omega
          · omega
        refine .inl ⟨key, hvalid, hkeyLen, ?_⟩
        have hdigest : digestLen = (keyMessage key).length := by omega
        rw [hdigest]
        rfl
    · split at h
      · rename_i hcode
        split at h
        · cases h
        rename_i hdigest
        subst hcode
        obtain ⟨rfl, rest, rfl⟩ := (multihashReadHeader_small (by decide) (by omega)).mp hheader
        rw [List.length_cons, List.length_cons] at hlength
        have hrest : digestLen = rest.length := by omega
        exact .inr ⟨rest, by omega, by rw [hrest]; rfl⟩
      · cases h

theorem ValidPeerId.length_le {id : Bytes} (h : lib.ValidPeerId id) : id.length ≤ peerIdMaxBytes := by
  have hmax : peerIdMaxBytes = 39 := rfl
  rcases h.cases with ⟨key, -, hkey, rfl⟩ | ⟨digest, hdigest, rfl⟩
  · have hlen := keyMessage_length key
    simp only [multihash, List.length_cons]
    omega
  · simp only [multihash, List.length_cons]
    omega

theorem decodeKeyMessage_error {input : Bytes} {e : PeerIdErr} (h : decodeKeyMessage input = .error e) :
    e ≠ .bufTooSmall := by
  unfold decodeKeyMessage at h
  split at h
  · cases h
    simp
  split at h
  · cases h
    simp
  dsimp only at h
  split at h
  · cases h
    simp
  split at h
  · cases h
    simp
  split at h
  · cases h
    simp
  · split at h <;> cases h
    simp

theorem parsePublicKey_error {key : Bytes} {e : PeerIdErr} (h : lib.parsePublicKey key = .error e) :
    e ≠ .bufTooSmall := by
  unfold parsePublicKey at h
  split at h
  · cases h
    simp
  · split at h <;> cases h
    simp

theorem multihashReadHeader_error {input : Bytes} {e : MultihashErr}
    (h : multihashReadHeader input = .error e) : e ≠ .bufTooSmall := by
  have hmap (err : UvarintErr) : multihashMapHeaderVarintErr err ≠ .bufTooSmall := by
    cases err <;> simp [multihashMapHeaderVarintErr]
  unfold multihashReadHeader at h
  split at h
  · cases h
    exact hmap _
  · split at h <;> cases h
    exact hmap _

/-- A peer id that is refused is not refused for a lack of room. -/
theorem validateBinaryPeerId_error {id : Bytes} {e : PeerIdErr}
    (h : lib.validateBinaryPeerId id = .error e) : e ≠ .bufTooSmall := by
  unfold validateBinaryPeerId at h
  split at h
  · rename_i err hheader
    have hne := multihashReadHeader_error hheader
    cases h
    cases err <;> simp_all [peerIdMultihashErr]
  split at h
  · cases h
    simp
  split at h
  · split at h
    · cases h
      simp
    split at h
    · rename_i hdecode
      cases h
      exact decodeKeyMessage_error hdecode
    · exact parsePublicKey_error h
  · split at h
    · split at h <;> cases h
      simp
    · cases h
      simp

end Secp256k1

/-! ## The texts -/

/-- Eight bytes take at most eleven characters. -/
theorem base58Text_length_le (bytes : Bytes) :
    ∃ zeros ≤ bytes.length,
      (base58Text bytes).length ≤ zeros + 11 * ((bytes.length - zeros + 7) / 8) := by
  have hconvert := @Radix.convert_length_le 256 58 8 11 (by decide) (by decide) (by decide)
    (by decide) (bytes.map UInt8.toNat) fun n hn => toNat_lt_of_mem hn
  rw [List.length_map] at hconvert
  rwa [base58Text, List.length_map]

/-- An id with a key inside starts with a zero byte, whose character is `1`. -/
theorem isLegacyText_zero (bytes : Bytes) : isLegacyText (base58Text (0 :: bytes)) = true := by
  have hzero : (0 : UInt8).toNat = 0 := rfl
  have hone : base58btcAlphabet.getD 0 0 = ascii '1' := by decide
  rw [base58Text, List.map_cons, hzero, Radix.convert_zero_cons, List.map_cons, hone]
  simp [isLegacyText]

/-- An id that is a digest is a number whose two first base58 digits are those of `Qm`. -/
theorem isLegacyText_sha256 {digest : Bytes} (hdigest : digest.length = 32) :
    isLegacyText (base58Text (multihash multihashCodeSha2_256 digest)) = true := by
  have hbytes : (multihash multihashCodeSha2_256 digest).map UInt8.toNat =
      [0x12, 0x20] ++ digest.map UInt8.toNat := by
    rw [multihash, hdigest]
    rfl
  have hlead : Radix.leading ([0x12, 0x20] ++ digest.map UInt8.toNat) = 0 :=
    Radix.leading_replicate 0 (by simp)
  have hlow : Radix.value 256 (digest.map UInt8.toNat) < 256 ^ 32 := by
    have hlt := @Radix.value_lt 256 (by decide) (digest.map UInt8.toNat) fun n hn => toNat_lt_of_mem hn
    rwa [List.length_map, hdigest] at hlt
  have hvalue : Radix.value 256 ([0x12, 0x20] ++ digest.map UInt8.toNat) =
      0x1220 * 256 ^ 32 + Radix.value 256 (digest.map UInt8.toNat) := by
    rw [Radix.value_append, List.length_map, hdigest]
    rfl
  -- the range of these numbers lies between two multiples of `58 ^ 44`
  have htop : (0x1220 * 256 ^ 32 + Radix.value 256 (digest.map UInt8.toNat)) / 58 ^ 44 =
      23 * 58 + 44 := by
    generalize Radix.value 256 (digest.map UInt8.toNat) = low at hlow
    refine Nat.div_eq_of_lt_le ?_ ?_
    · exact le_trans (by norm_num) (Nat.le_add_right _ _)
    · exact lt_of_lt_of_le (Nat.add_lt_add_left hlow _) (by norm_num)
  obtain ⟨low, hdigits⟩ := @Radix.reverse_digits 58 (by decide) 44
    (0x1220 * 256 ^ 32 + Radix.value 256 (digest.map UInt8.toNat))
  have hfirst : (Nat.digits 58 (23 * 58 + 44)).reverse = [23, 44] := by norm_num
  have hq : base58btcAlphabet.getD 23 0 = ascii 'Q' := by decide
  have hm : base58btcAlphabet.getD 44 0 = ascii 'm' := by decide
  rw [base58Text, hbytes, Radix.convert, hlead, hvalue, hdigits, htop, hfirst, List.replicate_zero,
    List.nil_append, List.map_append, List.map_cons, List.map_cons, hq, hm]
  simp [isLegacyText]

theorem MultibaseText.not_isLegacyText {text bytes : Bytes} (h : MultibaseText text bytes) :
    isLegacyText text = false := by
  have hz : ascii 'z' ≠ ascii '1' ∧ ascii 'z' ≠ ascii 'Q' := by decide
  have hu : ascii 'u' ≠ ascii '1' ∧ ascii 'u' ≠ ascii 'Q' := by decide
  rcases h with rfl | rfl
  · simp [isLegacyText, hz]
  · simp [isLegacyText, hu]

/-- The CIDv1 around an id. -/
def cidOf (id : Bytes) : Bytes :=
  UInt8.ofNat peerIdCidVersion1 :: UInt8.ofNat peerIdCidCodecLibp2pKey :: id

/-- The texts of a peer id: its base58btc text, and the multibase texts of its CID. -/
def PeerIdText (text id : Bytes) : Prop := text = base58Text id ∨ MultibaseText text (cidOf id)

/-- A text with more bytes than the array it is decoded into: a legacy text of up to 96 characters
    with more than a peer id has, or a multibase text with more than 50. -/
def OverflowsScratch (text : Bytes) : Prop :=
  isLegacyText text = true ∧ text.length ≤ peerIdTextMaxBytes ∧
      (∃ bytes, text = base58Text bytes ∧ peerIdMaxBytes < bytes.length) ∨
    ∃ bytes, MultibaseText text bytes ∧ peerIdInlineKeyMaxBytes + 8 < bytes.length

theorem peerIdMultibaseErr_eq {e : MultibaseErr} :
    peerIdMultibaseErr e = .bufTooSmall ↔ e = .bufTooSmall := by
  cases e <;> simp [peerIdMultibaseErr]

theorem decodeLegacyText_ok_iff {text id : Bytes} {outLen : Nat} :
    decodeLegacyText text outLen = .ok id ↔
      text ≠ [] ∧ text.length ≤ peerIdTextMaxBytes ∧ text = base58Text id ∧ id.length ≤ outLen := by
  have hdecode : (multibaseDecode (ascii 'z' :: text) outLen).1 = .ok id ↔
      text = base58Text id ∧ id.length ≤ outLen := by
    simpa [multibaseDecode] using decodeBase58btc_ok_iff
  rw [← hdecode, ← List.length_pos_iff]
  unfold decodeLegacyText
  by_cases hlen : text.length = 0 ∨ peerIdTextMaxBytes < text.length
  · rw [if_pos hlen]
    refine ⟨fun h => (by cases h), fun h => ?_⟩
    omega
  · rw [if_neg hlen]
    have hbounds : 0 < text.length ∧ text.length ≤ peerIdTextMaxBytes := by omega
    simp only [hbounds, true_and]
    cases (multibaseDecode (ascii 'z' :: text) outLen).1 <;> simp [Except.mapError]

theorem decodeLegacyText_tooSmall_iff {text : Bytes} {outLen : Nat} :
    decodeLegacyText text outLen = .error .bufTooSmall ↔
      text ≠ [] ∧ text.length ≤ peerIdTextMaxBytes ∧
        ∃ bytes, text = base58Text bytes ∧ outLen < bytes.length := by
  have hdecode : (multibaseDecode (ascii 'z' :: text) outLen).1 = .error .bufTooSmall ↔
      ∃ bytes, text = base58Text bytes ∧ outLen < bytes.length := by
    simpa [multibaseDecode] using decodeBase58btc_tooSmall_iff
  rw [← hdecode, ← List.length_pos_iff]
  unfold decodeLegacyText
  by_cases hlen : text.length = 0 ∨ peerIdTextMaxBytes < text.length
  · rw [if_pos hlen]
    refine ⟨fun h => (by cases h), fun h => ?_⟩
    omega
  · rw [if_neg hlen]
    have hbounds : 0 < text.length ∧ text.length ≤ peerIdTextMaxBytes := by omega
    simp only [hbounds, true_and]
    cases (multibaseDecode (ascii 'z' :: text) outLen).1 <;>
      simp [Except.mapError, peerIdMultibaseErr_eq]

namespace Secp256k1

variable {lib : Secp256k1}

theorem ValidPeerId.isLegacyText {id : Bytes} (h : lib.ValidPeerId id) :
    isLegacyText (base58Text id) = true := by
  rcases h.cases with ⟨key, -, -, rfl⟩ | ⟨digest, hdigest, rfl⟩
  · exact isLegacyText_zero _
  · exact isLegacyText_sha256 hdigest

/-- What a CID text decodes to, once its multibase does. -/
theorem decodeCidText_decoded {text decoded : Bytes} {outLen : Nat}
    (hdecode : (multibaseDecode text (peerIdInlineKeyMaxBytes + 8)).1 = .ok decoded)
    (hout : peerIdMaxBytes ≤ outLen) :
    lib.decodeCidText text outLen ≠ .error .bufTooSmall ∧
      ∀ id, lib.decodeCidText text outLen = .ok id ↔ lib.ValidPeerId id ∧ decoded = cidOf id := by
  have hversion : peerIdCidVersion1 = 1 := rfl
  have hcodec : peerIdCidCodecLibp2pKey = 0x72 := rfl
  have hempty : text.length ≠ 0 := by
    intro h
    rw [List.length_eq_zero_iff.mp h] at hdecode
    cases hdecode
  by_cases hcid : ∃ id, decoded = cidOf id
  · obtain ⟨id, rfl⟩ := hcid
    have hfirst : uvarintDecode (cidOf id) = .ok (peerIdCidVersion1, 1) :=
      uvarintDecode_byte _ (by decide)
    have hsecond : uvarintDecode ((cidOf id).drop 1) = .ok (peerIdCidCodecLibp2pKey, 1) :=
      uvarintDecode_byte _ (by decide)
    have hdrop : (cidOf id).drop (1 + 1) = id := rfl
    have hlen : (cidOf id).length = id.length + 2 := rfl
    have heq : lib.decodeCidText text outLen = (lib.validateBinaryPeerId id).map fun _ => id := by
      unfold decodeCidText
      rw [if_neg hempty, hdecode]
      dsimp only
      rw [hfirst]
      dsimp only
      rw [if_neg (by simp), if_neg (by omega), hsecond]
      dsimp only
      rw [if_neg (by simp), hdrop]
      cases hvalid : lib.validateBinaryPeerId id with
      | error e => rfl
      | ok u =>
        have hmax := ValidPeerId.length_le hvalid
        exact if_neg (by omega)
    rw [heq]
    unfold ValidPeerId
    cases hvalid : lib.validateBinaryPeerId id with
    | error e =>
      refine ⟨fun h => validateBinaryPeerId_error hvalid (by simpa [Except.map] using h), fun id' => ?_⟩
      refine ⟨fun h => (by cases h), ?_⟩
      rintro ⟨hvalid', heq'⟩
      rw [← (List.cons.inj (List.cons.inj heq').2).2] at hvalid'
      cases hvalid.symm.trans hvalid'
    | ok u =>
      refine ⟨by simp [Except.map], fun id' => ?_⟩
      constructor
      · intro h
        cases h
        exact ⟨hvalid, rfl⟩
      · rintro ⟨-, heq'⟩
        rw [(List.cons.inj (List.cons.inj heq').2).2]
        rfl
  · have hne (id : Bytes) : decoded ≠ cidOf id := fun h => hcid ⟨id, h⟩
    have herror : ∃ e, lib.decodeCidText text outLen = .error e ∧ e ≠ .bufTooSmall := by
      unfold decodeCidText
      rw [if_neg hempty, hdecode]
      dsimp only
      cases hfirst : uvarintDecode decoded with
      | error e => exact ⟨_, rfl, by simp⟩
      | ok first =>
        obtain ⟨version, versionRead⟩ := first
        dsimp only
        by_cases hv : version = peerIdCidVersion1
        · rw [if_neg (not_not.mpr hv)]
          subst hv
          obtain ⟨rfl, rest, rfl⟩ := uvarintDecode_small (by decide) hfirst
          rw [List.length_cons, if_neg (by omega), List.drop_succ_cons, List.drop_zero]
          cases hsecond : uvarintDecode rest with
          | error e => exact ⟨_, rfl, by simp⟩
          | ok second =>
            obtain ⟨codec, codecRead⟩ := second
            dsimp only
            by_cases hc : codec = peerIdCidCodecLibp2pKey
            · subst hc
              obtain ⟨rfl, rest, rfl⟩ := uvarintDecode_small (by decide) hsecond
              exact absurd rfl (hne rest)
            · rw [if_pos hc]
              exact ⟨_, rfl, by simp⟩
        · rw [if_pos hv]
          exact ⟨_, rfl, by simp⟩
    obtain ⟨e, he, hsmall⟩ := herror
    rw [he]
    refine ⟨by simpa using hsmall, fun id => ⟨fun h => (by cases h), fun h => absurd h.2 (hne id)⟩⟩

end Secp256k1

end LeanLibp2p
