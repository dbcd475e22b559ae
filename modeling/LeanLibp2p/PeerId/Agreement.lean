import LeanLibp2p.PeerId.Text

/-!
# The three forms of a peer id

A binary peer id, its texts and the key inside it determine one another.
-/

namespace LeanLibp2p.Secp256k1

variable {lib : Secp256k1}

/-! ## From a text -/

theorem decodePeerIdText_ok_iff {text id : Bytes} (hvalid : lib.ValidPeerId id) :
    lib.decodePeerIdText text = .ok id ↔ PeerIdText text id := by
  have hmax : peerIdMaxBytes = 39 := rfl
  have htextMax : peerIdTextMaxBytes = 96 := rfl
  have hinline : peerIdInlineKeyMaxBytes = 42 := rfl
  have hid := hvalid.length_le
  have hcid : (cidOf id).length = id.length + 2 := rfl
  unfold decodePeerIdText PeerIdText
  by_cases hempty : text.length = 0
  · rw [if_pos hempty]
    obtain rfl := List.length_eq_zero_iff.mp hempty
    refine ⟨fun h => (by cases h), ?_⟩
    rintro (h | h | h)
    · have hlegacy := hvalid.isLegacyText
      rw [← h] at hlegacy
      cases hlegacy
    · cases h
    · cases h
  rw [if_neg hempty]
  by_cases hlegacy : isLegacyText text = true
  · rw [if_pos hlegacy, decodeLegacyText_ok_iff]
    constructor
    · exact fun h => .inl h.2.2.1
    · rintro (rfl | hcidText)
      · obtain ⟨zeros, hzeros, hlen⟩ := base58Text_length_le id
        exact ⟨fun h => hempty (by rw [h]; rfl), by omega, rfl, hid⟩
      · rw [hcidText.not_isLegacyText] at hlegacy
        cases hlegacy
  · rw [if_neg hlegacy]
    constructor
    · intro h
      cases hdecode : (multibaseDecode text (peerIdInlineKeyMaxBytes + 8)).1 with
      | error e => simp [decodeCidText, hempty, hdecode] at h
      | ok decoded =>
        obtain ⟨-, rfl⟩ := ((decodeCidText_decoded hdecode le_rfl).2 id).mp h
        exact .inr (multibaseDecode_ok_iff.mp hdecode).1
    · rintro (rfl | hcidText)
      · exact absurd hvalid.isLegacyText hlegacy
      · have hdecode : (multibaseDecode text (peerIdInlineKeyMaxBytes + 8)).1 = .ok (cidOf id) :=
          multibaseDecode_ok_iff.mpr ⟨hcidText, by omega⟩
        exact ((decodeCidText_decoded hdecode le_rfl).2 id).mpr ⟨hvalid, rfl⟩

/-- The decoding step lacks room for the texts that overflow its arrays. -/
theorem decodePeerIdText_tooSmall_iff {text : Bytes} :
    lib.decodePeerIdText text = .error .bufTooSmall ↔ OverflowsScratch text := by
  unfold decodePeerIdText OverflowsScratch
  by_cases hempty : text.length = 0
  · obtain rfl := List.length_eq_zero_iff.mp hempty
    simp [isLegacyText, MultibaseText]
  rw [if_neg hempty]
  have hne : text ≠ [] := fun h => hempty (by rw [h]; rfl)
  by_cases hlegacy : isLegacyText text = true
  · have hcid : ¬ ∃ bytes, MultibaseText text bytes ∧ peerIdInlineKeyMaxBytes + 8 < bytes.length := by
      rintro ⟨bytes, htext, -⟩
      rw [htext.not_isLegacyText] at hlegacy
      cases hlegacy
    rw [if_pos hlegacy, decodeLegacyText_tooSmall_iff]
    simp only [hne, hlegacy, hcid, ne_eq, not_false_eq_true, true_and, or_false]
  · rw [if_neg hlegacy, ← multibaseDecode_tooSmall_iff]
    simp only [hlegacy, Bool.false_eq_true, false_and, false_or]
    cases hdecode : (multibaseDecode text (peerIdInlineKeyMaxBytes + 8)).1 with
    | error e => simp [decodeCidText, hempty, hdecode, peerIdMultibaseErr_eq]
    | ok decoded =>
      have hroom := (@decodeCidText_decoded lib _ _ peerIdMaxBytes hdecode le_rfl).1
      simp [hroom]

/-- The decoder accepts the texts of the valid ids that fit. -/
theorem peerIdFromString_ok_iff {text id : Bytes} {outLen : Nat} :
    (lib.peerIdFromString text outLen).1 = .ok id ↔
      lib.ValidPeerId id ∧ PeerIdText text id ∧ id.length ≤ outLen := by
  unfold peerIdFromString
  constructor
  · intro h
    cases hdecode : lib.decodePeerIdText text with
    | error e => simp [hdecode] at h
    | ok found =>
      simp only [hdecode] at h
      cases hvalid : lib.validateBinaryPeerId found with
      | error e => simp [hvalid] at h
      | ok u =>
        simp only [hvalid] at h
        split at h
        · cases h
        · cases h
          exact ⟨hvalid, (decodePeerIdText_ok_iff hvalid).mp hdecode, by omega⟩
  · rintro ⟨hvalid, htext, hfits⟩
    rw [(decodePeerIdText_ok_iff hvalid).mpr htext]
    dsimp only
    rw [show lib.validateBinaryPeerId id = .ok () from hvalid]
    dsimp only
    rw [if_neg (by omega)]

/-- It reports a lack of room for the texts of the valid ids that do not fit, and for the texts that
    overflow its arrays. -/
theorem peerIdFromString_tooSmall {text : Bytes} {outLen : Nat}
    (h : (lib.peerIdFromString text outLen).1 = .error .bufTooSmall) :
    OverflowsScratch text ∨ ∃ id, lib.ValidPeerId id ∧ PeerIdText text id ∧
      (lib.peerIdFromString text outLen).2 = id.length := by
  unfold peerIdFromString at h ⊢
  cases hdecode : lib.decodePeerIdText text with
  | error e =>
    simp only [hdecode, Except.error.injEq] at h
    exact .inl (decodePeerIdText_tooSmall_iff.mp (by rw [hdecode, h]))
  | ok found =>
    simp only [hdecode] at h ⊢
    cases hvalid : lib.validateBinaryPeerId found with
    | error e =>
      simp only [hvalid, Except.error.injEq] at h
      exact absurd h (validateBinaryPeerId_error hvalid)
    | ok u =>
      simp only [hvalid] at h ⊢
      refine .inr ⟨found, hvalid, (decodePeerIdText_ok_iff hvalid).mp hdecode, ?_⟩
      split <;> rfl

theorem not_peerIdText_of_overflows {text id : Bytes} (h : OverflowsScratch text)
    (hvalid : lib.ValidPeerId id) : ¬ PeerIdText text id := by
  intro htext
  have hdecode := (decodePeerIdText_ok_iff hvalid).mpr htext
  rw [decodePeerIdText_tooSmall_iff.mpr h] at hdecode
  cases hdecode

/-! ## To a text, and the key inside -/

theorem peerIdToString_valid {id : Bytes} (hvalid : lib.ValidPeerId id) (outLen : Nat) :
    lib.peerIdToString id outLen =
      if (base58Text id).length ≤ outLen then (.ok (base58Text id), (base58Text id).length)
      else (.error .bufTooSmall, (base58Text id).length) := by
  have hmax : peerIdMaxBytes = 39 := rfl
  have htextMax : peerIdTextMaxBytes = 96 := rfl
  have hid := hvalid.length_le
  obtain ⟨zeros, hzeros, hlen⟩ := base58Text_length_le id
  unfold peerIdToString
  rw [show lib.validateBinaryPeerId id = .ok () from hvalid, encodeBase58btc_ok (by omega)]
  dsimp only
  rw [List.length_cons, if_neg (by omega), Nat.add_sub_cancel, List.drop_succ_cons, List.drop_zero]
  by_cases hfits : (base58Text id).length ≤ outLen
  · rw [if_neg (by omega), if_pos hfits]
  · rw [if_pos (by omega), if_neg hfits]

/-- A key is extracted from its own id. -/
theorem extractSecp256k1PublicKey_ok_iff {id key : Bytes} {outLen : Nat} :
    (lib.extractSecp256k1PublicKey id outLen).1 = .ok key ↔
      lib.ValidKey key ∧ key.length = 33 ∧ id = multihash multihashCodeIdentity (keyMessage key) ∧
        key.length ≤ outLen := by
  have hinline : peerIdInlineKeyMaxBytes = 42 := rfl
  have hshort : secp256k1CompressedPublicKeyBytes = 33 := rfl
  have hlong : secp256k1UncompressedPublicKeyBytes = 65 := rfl
  unfold extractSecp256k1PublicKey
  constructor
  · intro h
    cases hheader : multihashReadHeader id with
    | error e => simp [hheader] at h
    | ok header =>
      obtain ⟨code, digestLen, digestOffset⟩ := header
      simp only [hheader] at h
      split at h
      · cases h
      rename_i hlength
      split at h
      · cases h
      split at h
      · cases h
      rename_i hcode
      split at h
      · cases h
      rename_i hdigest
      rw [not_not] at hcode
      subst hcode
      obtain ⟨rfl, rest, rfl⟩ := (multihashReadHeader_small (by decide) (by omega)).mp hheader
      rw [List.length_cons, List.length_cons] at hlength
      obtain ⟨hvalid, hmessage, hfits⟩ := publicKeyDecode_ok_iff.mp h
      rw [List.drop_succ_cons, List.drop_succ_cons, List.drop_zero] at hmessage
      subst hmessage
      rw [keyMessage_length] at hlength
      refine ⟨hvalid, ?_, ?_, hfits⟩
      · rcases hvalid.1 with h | h
        · omega
        · omega
      · have hdigestLen : digestLen = (keyMessage key).length := by
          rw [keyMessage_length]
          omega
        rw [hdigestLen]
        rfl
  · rintro ⟨hvalid, hkey, rfl, hfits⟩
    have hlen : (keyMessage key).length = 37 := by rw [keyMessage_length, hkey]
    have hheader : multihashReadHeader (multihash multihashCodeIdentity (keyMessage key)) =
        .ok (multihashCodeIdentity, (keyMessage key).length, 2) :=
      (multihashReadHeader_small (by decide) (by omega)).mpr ⟨rfl, _, rfl⟩
    have hlength : (multihash multihashCodeIdentity (keyMessage key)).length =
        (keyMessage key).length + 2 := rfl
    rw [hheader]
    dsimp only
    rw [if_neg (by omega), if_neg (by decide), if_neg (by simp), if_neg (by omega)]
    exact publicKeyDecode_ok_iff.mpr ⟨hvalid, rfl, hfits⟩

/-- What the encoder of a valid key writes. -/
theorem publicKeyEncode_sound {key message : Bytes} {room : Nat} (hvalid : lib.ValidKey key)
    (h : (lib.publicKeyEncode key room).1 = .ok message) : message = keyMessage key := by
  by_cases hroom : key.length + 4 ≤ room
  · rw [publicKeyEncode_ok hvalid hroom] at h
    exact (Except.ok.inj h).symm
  · have hlen := hvalid.length_le
    have htype : uvarintSize peerIdSecp256k1KeyType = 1 := by decide
    have hsmall : room < 2 + uvarintSize peerIdSecp256k1KeyType + uvarintSize key.length +
        key.length := by
      rw [htype, uvarintSize_small (by omega)]
      omega
    unfold publicKeyEncode encodeKeyMessage at h
    rw [parsePublicKey_ok_iff.mpr hvalid] at h
    dsimp only at h
    rw [if_pos hsmall] at h
    cases h

theorem peerIdOf_compressed {key : Bytes} (hkey : key.length = 33) :
    lib.peerIdOf key = multihash multihashCodeIdentity (keyMessage key) := by
  have hinline : peerIdInlineKeyMaxBytes = 42 := rfl
  have hlen := keyMessage_length key
  exact if_pos (by omega)

/-! ## Agreement -/

/-- How the forms of a peer id agree, and what a text makes of that. -/
structure PeerIdFormsAgree (lib : Secp256k1) (text : Bytes) : Prop where
  /-- The text of an id is that of no other form, and is read back. -/
  round_trip : ∀ id, lib.ValidPeerId id → ∃ idText, isLegacyText idText = true ∧
    (∀ outLen, idText.length ≤ outLen →
      lib.peerIdToString id outLen = (.ok idText, idText.length)) ∧
    ∀ outLen, id.length ≤ outLen → (lib.peerIdFromString idText outLen).1 = .ok id
  accepts_iff : ∀ id outLen, (lib.peerIdFromString text outLen).1 = .ok id ↔
    lib.ValidPeerId id ∧ PeerIdText text id ∧ id.length ≤ outLen
  too_small : ∀ outLen, (lib.peerIdFromString text outLen).1 = .error .bufTooSmall →
    ∃ id larger, (lib.peerIdFromString text larger).1 = .ok id ∧
      (lib.peerIdFromString text outLen).2 = id.length
  key_of_id : ∀ key, lib.ValidKey key → key.length = 33 → ∃ id,
    (∀ outLen, peerIdMaxBytes ≤ outLen →
      lib.peerIdFromPublicKey key outLen = (.ok id, id.length)) ∧
    ∀ outLen, key.length ≤ outLen → (lib.extractSecp256k1PublicKey id outLen).1 = .ok key
  id_of_key : ∀ id key outLen, (lib.extractSecp256k1PublicKey id outLen).1 = .ok key →
    ∀ outLen, peerIdMaxBytes ≤ outLen → (lib.peerIdFromPublicKey key outLen).1 = .ok id
  message_iff : ∀ message key outLen, (lib.publicKeyDecode message outLen).1 = .ok key ↔
    lib.ValidKey key ∧ key.length ≤ outLen ∧
      ∃ room, (lib.publicKeyEncode key room).1 = .ok message

/-- A text that overflows an array of the decoder is refused for a lack of room, but never accepted. -/
theorem PeerIdFormsAgree.not_overflowsScratch {text : Bytes} (hagree : lib.PeerIdFormsAgree text) :
    ¬ OverflowsScratch text := by
  intro hoverflow
  have hsmall : (lib.peerIdFromString text 0).1 = .error .bufTooSmall := by
    unfold peerIdFromString
    rw [decodePeerIdText_tooSmall_iff.mpr hoverflow]
  obtain ⟨id, larger, haccepted, -⟩ := hagree.too_small 0 hsmall
  obtain ⟨hvalid, htext, -⟩ := peerIdFromString_ok_iff.mp haccepted
  exact not_peerIdText_of_overflows hoverflow hvalid htext

/-- A text's lack of room is a lack of room for its id, unless it overflows an array of the decoder;
    everything else agrees for every text. -/
theorem peerIdFormsAgree_iff (lib : Secp256k1) (text : Bytes) :
    lib.PeerIdFormsAgree text ↔ ¬ OverflowsScratch text := by
  refine ⟨fun hagree => hagree.not_overflowsScratch, fun hoverflow => ?_⟩
  refine ⟨fun id hvalid => ?_, fun id outLen => peerIdFromString_ok_iff, fun outLen h => ?_,
    fun key hvalid hkey => ?_, fun id key outLen h outLen' hout => ?_, fun message key outLen => ?_⟩
  · refine ⟨base58Text id, hvalid.isLegacyText, fun outLen hout => ?_, fun outLen hout => ?_⟩
    · rw [peerIdToString_valid hvalid, if_pos hout]
    · exact peerIdFromString_ok_iff.mpr ⟨hvalid, .inl rfl, hout⟩
  · obtain ⟨id, hvalid, htext, hwritten⟩ :=
      (peerIdFromString_tooSmall h).resolve_left hoverflow
    exact ⟨id, id.length, peerIdFromString_ok_iff.mpr ⟨hvalid, htext, le_rfl⟩, hwritten⟩
  · refine ⟨lib.peerIdOf key, fun outLen hout => peerIdFromPublicKey_ok hvalid hout,
      fun outLen hout => ?_⟩
    exact extractSecp256k1PublicKey_ok_iff.mpr ⟨hvalid, hkey, peerIdOf_compressed hkey, hout⟩
  · obtain ⟨hvalid, hkey, rfl, -⟩ := extractSecp256k1PublicKey_ok_iff.mp h
    rw [peerIdFromPublicKey_ok hvalid hout, peerIdOf_compressed hkey]
  · rw [publicKeyDecode_ok_iff]
    constructor
    · rintro ⟨hvalid, rfl, hfits⟩
      exact ⟨hvalid, hfits, key.length + 4, by rw [publicKeyEncode_ok hvalid le_rfl]⟩
    · rintro ⟨hvalid, hfits, room, hencode⟩
      exact ⟨hvalid, publicKeyEncode_sound hvalid hencode, hfits⟩

/-- Forty `1` characters are the text of forty zero bytes, which are no peer id. -/
theorem not_peerIdFormsAgree_ones :
    ¬ ∃ lib : Secp256k1, lib.PeerIdFormsAgree (List.replicate 40 (ascii '1')) := by
  rintro ⟨lib, hagree⟩
  have htext : List.replicate 40 (ascii '1') = base58Text (List.replicate 40 0) := by
    decide +kernel
  exact hagree.not_overflowsScratch
    (.inl ⟨by decide, by decide, List.replicate 40 0, htext, by decide⟩)

end LeanLibp2p.Secp256k1
