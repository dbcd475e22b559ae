import LeanLibp2p.Multiformats.Multihash

/-!
# Peer ids and their keys

The secp256k1 part of `peer_id.c`: the messages around raw public and private keys, the peer id that a
key has, and the check of a message's signature. What libsecp256k1 answers is an argument. A NULL
output buffer is a buffer of no bytes, and a function that measures returns `*written` beside its
result.
-/

namespace LeanLibp2p

variable {key : Bytes}

/-- `libp2p_peer_id_err_t` without `OK`. -/
inductive PeerIdErr where
  | bufTooSmall
  | invalidPrivateKey
  | invalidPublicKey
  | invalidKeyEncoding
  | invalidMessageHash
  | invalidSignature
  | invalidPeerId
  | unsupportedEncoding
  | noInlinePublicKey
  deriving DecidableEq, Repr

/-- `LIBP2P_PEER_ID_SECP256K1_COMPRESSED_PUBLIC_KEY_BYTES`. -/
def secp256k1CompressedPublicKeyBytes : Nat := 33
/-- `LIBP2P_PEER_ID_SECP256K1_UNCOMPRESSED_PUBLIC_KEY_BYTES`. -/
def secp256k1UncompressedPublicKeyBytes : Nat := 65
/-- `LIBP2P_PEER_ID_SECP256K1_PUBLIC_KEY_MESSAGE_MAX_BYTES`. -/
def secp256k1PublicKeyMessageMaxBytes : Nat := 69
/-- `LIBP2P_PEER_ID_SECP256K1_SIGNATURE_MAX_BYTES`. -/
def secp256k1SignatureMaxBytes : Nat := 72
/-- `LIBP2P_PEER_ID_SHA2_256_BYTES`. -/
def peerIdSha2_256Bytes : Nat := 32
/-- `LIBP2P_PEER_ID_INLINE_KEY_MAX_BYTES`. -/
def peerIdInlineKeyMaxBytes : Nat := 42
/-- `LIBP2P_PEER_ID_MAX_BYTES`. -/
def peerIdMaxBytes : Nat := 39
/-- `LIBP2P_PEER_ID_SECP256K1_KEY_TYPE`. -/
def peerIdSecp256k1KeyType : Nat := 0x02
/-- `LIBP2P_PEER_ID_PROTOBUF_KEY_TYPE_TAG`. -/
def peerIdKeyTypeTag : UInt8 := 0x08
/-- `LIBP2P_PEER_ID_PROTOBUF_KEY_DATA_TAG`. -/
def peerIdKeyDataTag : UInt8 := 0x12

/-- libsecp256k1 and its SHA-256: which strings of a key's length are a public key, and whether a DER
    signature of a hash is one by that key. A signature has two numbers of at most 33 bytes, and
    strict DER around them takes six more. -/
structure Secp256k1 where
  parses : Bytes → Bool
  sha256 : Bytes → Bytes
  verifies : (key hash signature : Bytes) → Bool
  sha256_length : ∀ message, (sha256 message).length = peerIdSha2_256Bytes
  verifies_length : ∀ {key hash signature}, verifies key hash signature = true →
    0 < signature.length ∧ signature.length ≤ secp256k1SignatureMaxBytes

/-- `peer_id_multihash_err_to_peer_id` (`peer_id.c:91-118`). -/
def peerIdMultihashErr : MultihashErr → PeerIdErr
  | .bufTooSmall => .bufTooSmall
  | .unsupportedCode => .unsupportedEncoding
  | .invalidVarint | .truncated | .digestSizeMismatch => .invalidPeerId

namespace Secp256k1

variable (lib : Secp256k1)

/-- `peer_id_parse_public_key` (`peer_id.c:220-246`). -/
def parsePublicKey (key : Bytes) : Except PeerIdErr Unit :=
  if key.length ≠ secp256k1CompressedPublicKeyBytes ∧
      key.length ≠ secp256k1UncompressedPublicKeyBytes then .error .invalidPublicKey
  else if ¬ lib.parses key then .error .invalidPublicKey
  else .ok ()

end Secp256k1

/-- `peer_id_encode_key_message` (`peer_id.c:317-382`). -/
def encodeKeyMessage (key : Bytes) (outLen : Nat) : Except PeerIdErr Bytes × Nat :=
  let required :=
    2 + uvarintSize peerIdSecp256k1KeyType + uvarintSize key.length + key.length
  if outLen < required then (.error .bufTooSmall, required)
  else
    match uvarintEncode key.length uvarintMaxBytes with
    | .error _ => (.error .invalidKeyEncoding, required)
    | .ok length =>
      (.ok ([peerIdKeyTypeTag, UInt8.ofNat peerIdSecp256k1KeyType, peerIdKeyDataTag] ++ length ++ key),
        required)

/-- `peer_id_decode_key_message` (`peer_id.c:384-461`): where the key starts. It ends with the
    message. -/
def decodeKeyMessage (input : Bytes) : Except PeerIdErr Nat :=
  if input.length < 4 ∨ input.head? ≠ some peerIdKeyTypeTag then .error .invalidKeyEncoding
  else
    match uvarintDecode (input.drop 1) with
    | .error _ => .error .invalidKeyEncoding
    | .ok (parsedType, typeRead) =>
      let offset := 1 + typeRead
      if input.length ≤ offset ∨ input[offset]? ≠ some peerIdKeyDataTag then
        .error .invalidKeyEncoding
      else if parsedType ≠ peerIdSecp256k1KeyType then .error .unsupportedEncoding
      else
        match uvarintDecode (input.drop (offset + 1)) with
        | .error _ => .error .invalidKeyEncoding
        | .ok (payloadLen, lengthRead) =>
          let start := offset + 1 + lengthRead
          if input.length < start ∨ input.length - start ≠ payloadLen then .error .invalidKeyEncoding
          else .ok start

namespace Secp256k1

variable (lib : Secp256k1)

/-- `libp2p_peer_id_public_key_encode` (`peer_id.c:707-724`). -/
def publicKeyEncode (key : Bytes) (outLen : Nat) : Except PeerIdErr Bytes × Nat :=
  match lib.parsePublicKey key with
  | .error e => (.error e, 0)
  | .ok () => encodeKeyMessage key outLen

/-- `libp2p_peer_id_public_key_decode` (`peer_id.c:726-770`). -/
def publicKeyDecode (input : Bytes) (outLen : Nat) : Except PeerIdErr Bytes × Nat :=
  match decodeKeyMessage input with
  | .error e => (.error e, 0)
  | .ok offset =>
    let key := input.drop offset
    if outLen < key.length then (.error .bufTooSmall, key.length)
    else (lib.parsePublicKey key |>.map fun _ => key, key.length)

/-- `libp2p_peer_id_verify_message` (`peer_id.c:1079-1101`) through `libp2p_peer_id_verify_hash`
    (`peer_id.c:999-1051`). -/
def verifyMessage (key message signature : Bytes) : Except PeerIdErr Unit :=
  if signature.length = 0 then .error .invalidSignature
  else
    match lib.parsePublicKey key with
    | .error e => .error e
    | .ok () =>
      if lib.verifies key (lib.sha256 message) signature then .ok () else .error .invalidSignature

/-- `libp2p_peer_id_from_secp256k1_public_key` (`peer_id.c:1141-1194`). -/
def peerIdFromPublicKey (key : Bytes) (outLen : Nat) : Except PeerIdErr Bytes × Nat :=
  match (lib.publicKeyEncode key secp256k1PublicKeyMessageMaxBytes).1 with
  | .error e => (.error e, 0)
  | .ok encoded =>
    let (result, written) :=
      if encoded.length ≤ peerIdInlineKeyMaxBytes then
        multihashEncode multihashCodeIdentity encoded outLen
      else multihashEncode multihashCodeSha2_256 (lib.sha256 encoded) outLen
    (result.mapError peerIdMultihashErr, written)

/-! ## Keys, messages and ids -/

/-- A compressed or uncompressed public key. -/
def ValidKey (key : Bytes) : Prop :=
  (key.length = secp256k1CompressedPublicKeyBytes ∨
    key.length = secp256k1UncompressedPublicKeyBytes) ∧ lib.parses key = true

instance (key : Bytes) : Decidable (lib.ValidKey key) := inferInstanceAs (Decidable (_ ∧ _))

end Secp256k1

/-- The PublicKey message of a key of less than 128 bytes. -/
def keyMessage (key : Bytes) : Bytes :=
  peerIdKeyTypeTag :: UInt8.ofNat peerIdSecp256k1KeyType :: peerIdKeyDataTag ::
    UInt8.ofNat key.length :: key

/-- The peer id of a key: the multihash of its message, which is kept whole where it is short. -/
def Secp256k1.peerIdOf (lib : Secp256k1) (key : Bytes) : Bytes :=
  if (keyMessage key).length ≤ peerIdInlineKeyMaxBytes then
    multihash multihashCodeIdentity (keyMessage key)
  else multihash multihashCodeSha2_256 (lib.sha256 (keyMessage key))

@[simp] theorem keyMessage_length (key : Bytes) : (keyMessage key).length = key.length + 4 := by
  simp [keyMessage]

theorem encodeKeyMessage_small {outLen : Nat} (hkey : key.length < 128)
    (hout : key.length + 4 ≤ outLen) :
    encodeKeyMessage key outLen = (.ok (keyMessage key), key.length + 4) := by
  have htype : uvarintSize peerIdSecp256k1KeyType = 1 := by decide
  have hmax : uvarintMaxBytes = 9 := rfl
  unfold encodeKeyMessage
  rw [htype, uvarintSize_small hkey]
  dsimp only
  rw [if_neg (by omega), uvarintEncode_small hkey (by omega)]
  simp only [keyMessage, List.cons_append, List.nil_append, Prod.mk.injEq, true_and]
  omega

/-- A message around a key of less than 128 bytes is that key's message. -/
theorem decodeKeyMessage_small {input : Bytes} {start : Nat} (hlen : input.length - start < 128) :
    decodeKeyMessage input = .ok start ↔ start = 4 ∧ input = keyMessage (input.drop 4) := by
  have hmax : peerIdSecp256k1KeyType = 2 := rfl
  unfold decodeKeyMessage
  constructor
  · intro h
    split at h
    · cases h
    rename_i hhead
    obtain ⟨hinput, hhead⟩ := not_or.mp hhead
    cases input with
    | nil => simp at hinput
    | cons tag rest =>
      have htag : tag = peerIdKeyTypeTag := by simpa using hhead
      rw [List.drop_one, List.tail_cons] at h
      cases htype : uvarintDecode rest with
      | error e => simp [htype] at h
      | ok type =>
        obtain ⟨parsedType, typeRead⟩ := type
        simp only [htype] at h
        split at h
        · cases h
        rename_i hdata
        split at h
        · cases h
        rename_i hkind
        obtain ⟨rfl, rest, rfl⟩ := uvarintDecode_small (by omega) htype
        simp only [List.length_cons] at h hdata hlen
        cases rest with
        | nil => simp at hdata
        | cons data rest =>
          have hdata' : data = peerIdKeyDataTag := by simpa using hdata
          simp only [Nat.reduceAdd, List.drop_succ_cons, List.drop_zero] at h
          cases hlength : uvarintDecode rest with
          | error e => simp [hlength] at h
          | ok length =>
            obtain ⟨payloadLen, lengthRead⟩ := length
            simp only [hlength, List.length_cons] at h
            split at h
            · cases h
            rename_i hfits
            cases h
            simp only [List.length_cons] at hlen
            obtain ⟨rfl, rest, rfl⟩ := uvarintDecode_small (by omega) hlength
            simp only [List.length_cons] at hfits
            have hpayload : payloadLen = rest.length := by omega
            refine ⟨rfl, ?_⟩
            simp [keyMessage, htag, hdata', hpayload, not_not.mp hkind]
  · rintro ⟨rfl, hinput⟩
    have hdrop : (input.drop 4).length < 128 := by simpa using hlen
    generalize input.drop 4 = key at hinput hdrop
    subst hinput
    have htype : uvarintDecode (UInt8.ofNat peerIdSecp256k1KeyType ::
        peerIdKeyDataTag :: UInt8.ofNat key.length :: key) = .ok (peerIdSecp256k1KeyType, 1) :=
      uvarintDecode_byte _ (by decide)
    simp only [keyMessage, List.length_cons, List.head?_cons, ne_eq, not_true_eq_false, or_false,
      List.drop_succ_cons, List.drop_zero, htype, Nat.reduceAdd, List.getElem?_cons_succ,
      List.getElem?_cons_zero, uvarintDecode_byte key hdrop]
    rw [if_neg (by omega), if_neg (by simp), if_neg (by simp)]
    have hfits : ¬ (key.length + 1 + 1 + 1 + 1 < 4 ∨
        ¬ key.length + 1 + 1 + 1 + 1 - 4 = key.length) := by omega
    exact if_neg hfits

namespace Secp256k1

variable {lib : Secp256k1}

theorem parsePublicKey_ok_iff : lib.parsePublicKey key = .ok () ↔ lib.ValidKey key := by
  unfold parsePublicKey ValidKey
  by_cases hlen : key.length = secp256k1CompressedPublicKeyBytes ∨
      key.length = secp256k1UncompressedPublicKeyBytes
  · rw [if_neg (by tauto)]
    by_cases hparses : lib.parses key = true
    · simp [hparses, hlen]
    · simp [hparses]
  · rw [if_pos (by tauto)]
    simp [hlen]

theorem ValidKey.length_le (h : lib.ValidKey key) : key.length ≤ 65 := by
  have hshort : secp256k1CompressedPublicKeyBytes = 33 := rfl
  have hlong : secp256k1UncompressedPublicKeyBytes = 65 := rfl
  rcases h.1 with h | h
  · omega
  · omega

/-- The decoder accepts the messages of the valid keys that fit. -/
theorem publicKeyDecode_ok_iff {input key : Bytes} {outLen : Nat} :
    (lib.publicKeyDecode input outLen).1 = .ok key ↔
      lib.ValidKey key ∧ input = keyMessage key ∧ key.length ≤ outLen := by
  unfold publicKeyDecode
  constructor
  · intro h
    cases hdecode : decodeKeyMessage input with
    | error e => simp [hdecode] at h
    | ok offset =>
      simp only [hdecode] at h
      split at h
      · cases h
      rename_i hfits
      cases hparse : lib.parsePublicKey (input.drop offset) with
      | error e => simp [hparse, Except.map] at h
      | ok u =>
        simp only [hparse, Except.map, Except.ok.injEq] at h
        have hvalid := parsePublicKey_ok_iff.mp hparse
        have hlen := hvalid.length_le
        rw [List.length_drop] at hlen
        obtain ⟨rfl, hmessage⟩ := (decodeKeyMessage_small (by omega)).mp hdecode
        rw [h] at hvalid hmessage hfits
        exact ⟨hvalid, hmessage, by omega⟩
  · rintro ⟨hvalid, rfl, hfits⟩
    have hlen := hvalid.length_le
    have hdecode : decodeKeyMessage (keyMessage key) = .ok 4 :=
      (decodeKeyMessage_small (by rw [keyMessage_length]; omega)).mpr ⟨rfl, rfl⟩
    have hdrop : (keyMessage key).drop 4 = key := rfl
    have hparse := parsePublicKey_ok_iff.mpr hvalid
    simp only [hdecode, hdrop, hparse]
    rw [if_neg (by omega)]
    rfl

theorem publicKeyEncode_ok {outLen : Nat} (hvalid : lib.ValidKey key)
    (hout : key.length + 4 ≤ outLen) :
    lib.publicKeyEncode key outLen = (.ok (keyMessage key), key.length + 4) := by
  have hlen := hvalid.length_le
  unfold publicKeyEncode
  rw [parsePublicKey_ok_iff.mpr hvalid]
  exact encodeKeyMessage_small (by omega) hout

/-- A valid key has its peer id, which fits the buffer of a peer id. -/
theorem peerIdFromPublicKey_ok {outLen : Nat} (hvalid : lib.ValidKey key)
    (hout : peerIdMaxBytes ≤ outLen) :
    lib.peerIdFromPublicKey key outLen = (.ok (lib.peerIdOf key), (lib.peerIdOf key).length) := by
  have hmax : peerIdMaxBytes = 39 := rfl
  have hmessage : secp256k1PublicKeyMessageMaxBytes = 69 := rfl
  have hinline : peerIdInlineKeyMaxBytes = 42 := rfl
  have hshort : secp256k1CompressedPublicKeyBytes = 33 := rfl
  have hlong : secp256k1UncompressedPublicKeyBytes = 65 := rfl
  have hlen := hvalid.length_le
  have hsha : (lib.sha256 (keyMessage key)).length = 32 := lib.sha256_length _
  unfold peerIdFromPublicKey peerIdOf
  rw [publicKeyEncode_ok hvalid (by omega)]
  dsimp only
  by_cases hkind : (keyMessage key).length ≤ peerIdInlineKeyMaxBytes
  · have hkey : key.length = 33 := by
      rw [keyMessage_length] at hkind
      rcases hvalid.1 with h | h
      · omega
      · omega
    have hlength : (keyMessage key).length = 37 := by rw [keyMessage_length]; omega
    rw [if_pos hkind, if_pos hkind,
      multihashEncode_small (by omega) (.inl rfl) (by omega)]
    rfl
  · rw [if_neg hkind, if_neg hkind,
      multihashEncode_small (by omega) (.inr ⟨rfl, hsha⟩) (by omega)]
    rfl

theorem peerIdOf_length_le (hvalid : lib.ValidKey key) :
    (lib.peerIdOf key).length ≤ peerIdMaxBytes := by
  have hmax : peerIdMaxBytes = 39 := rfl
  have hinline : peerIdInlineKeyMaxBytes = 42 := rfl
  have hshort : secp256k1CompressedPublicKeyBytes = 33 := rfl
  have hlong : secp256k1UncompressedPublicKeyBytes = 65 := rfl
  have hsha : (lib.sha256 (keyMessage key)).length = 32 := lib.sha256_length _
  have hlength := keyMessage_length key
  unfold peerIdOf multihash
  split
  · rcases hvalid.1 with h | h
    · simp only [List.length_cons]
      omega
    · omega
  · simp only [List.length_cons]
    omega

theorem peerIdOf_ne_nil (key : Bytes) : lib.peerIdOf key ≠ [] := by
  unfold peerIdOf multihash
  split <;> simp

/-- A message verifies where the key is valid and its signature is one of the message's hash. -/
theorem verifyMessage_ok_iff {key message signature : Bytes} :
    lib.verifyMessage key message signature = .ok () ↔
      lib.ValidKey key ∧ lib.verifies key (lib.sha256 message) signature = true := by
  unfold verifyMessage
  by_cases hempty : signature.length = 0
  · rw [if_pos hempty]
    refine ⟨fun h => (by cases h), fun h => ?_⟩
    have := (lib.verifies_length h.2).1
    omega
  · rw [if_neg hempty, ← parsePublicKey_ok_iff]
    cases lib.parsePublicKey key with
    | error e => simp
    | ok u => by_cases hverifies : lib.verifies key (lib.sha256 message) signature = true <;>
        simp [hverifies]

end Secp256k1

/-! ## Private keys -/

/-- `LIBP2P_PEER_ID_SECP256K1_PRIVATE_KEY_BYTES`. -/
def secp256k1PrivateKeyBytes : Nat := 32
/-- `LIBP2P_PEER_ID_SECP256K1_PRIVATE_KEY_MESSAGE_BYTES`. -/
def secp256k1PrivateKeyMessageBytes : Nat := 36

variable (verify : Bytes → Bool)

/-- `peer_id_validate_private_key` (`peer_id.c:189-218`). -/
def validatePrivateKey (key : Bytes) : Except PeerIdErr Unit :=
  if key.length ≠ secp256k1PrivateKeyBytes ∨ ¬ verify key then .error .invalidPrivateKey else .ok ()

/-- `libp2p_peer_id_private_key_encode` (`peer_id.c:772-804`). -/
def privateKeyEncode (key : Bytes) (outLen : Nat) : Except PeerIdErr Bytes × Nat :=
  match validatePrivateKey verify key with
  | .error e => (.error e, 0)
  | .ok () =>
    if outLen < secp256k1PrivateKeyMessageBytes then
      (.error .bufTooSmall, secp256k1PrivateKeyMessageBytes)
    else encodeKeyMessage key outLen

/-- `libp2p_peer_id_private_key_decode` (`peer_id.c:806-854`). -/
def privateKeyDecode (input : Bytes) (outLen : Nat) : Except PeerIdErr Bytes × Nat :=
  match decodeKeyMessage input with
  | .error e => (.error e, 0)
  | .ok offset =>
    let key := input.drop offset
    if key.length ≠ secp256k1PrivateKeyBytes then (.error .invalidKeyEncoding, 0)
    else if outLen < key.length then (.error .bufTooSmall, key.length)
    else (validatePrivateKey verify key |>.map fun _ => key, key.length)

/-- A secret that libsecp256k1 takes. -/
def ValidPrivateKey (key : Bytes) : Prop := key.length = secp256k1PrivateKeyBytes ∧ verify key = true

instance (key : Bytes) : Decidable (ValidPrivateKey verify key) :=
  inferInstanceAs (Decidable (_ ∧ _))

variable {verify} {input key : Bytes} {outLen : Nat}

theorem validatePrivateKey_eq : validatePrivateKey verify key =
    if ValidPrivateKey verify key then .ok () else .error .invalidPrivateKey := by
  unfold validatePrivateKey
  by_cases h : ValidPrivateKey verify key
  · rw [if_pos h, if_neg (not_or.mpr ⟨not_not.mpr h.1, not_not.mpr h.2⟩)]
  · rw [if_neg h, if_pos (not_and_or.mp h)]

theorem privateKeyEncode_eq : privateKeyEncode verify key outLen =
    if ValidPrivateKey verify key then
      (if outLen < secp256k1PrivateKeyMessageBytes then .error .bufTooSmall else .ok (keyMessage key),
        secp256k1PrivateKeyMessageBytes)
    else (.error .invalidPrivateKey, 0) := by
  have hmessage : secp256k1PrivateKeyMessageBytes = 36 := rfl
  unfold privateKeyEncode
  rw [validatePrivateKey_eq]
  by_cases h : ValidPrivateKey verify key
  · have hlen : key.length = 32 := h.1
    rw [if_pos h, if_pos h]
    dsimp only
    split
    · rfl
    · rw [encodeKeyMessage_small (by omega) (by omega), hlen]
      rfl
  · rw [if_neg h, if_neg h]

/-- The codec of private keys is exact: the decoder takes what the encoder writes of a valid secret and
    nothing else, and the encoder writes every valid secret and only asks for 36 bytes. -/
theorem privateKey_codec (verify : Bytes → Bool) (input key : Bytes) (outLen : Nat) :
    ((privateKeyDecode verify input outLen).1 = .ok key ↔
      (privateKeyEncode verify key secp256k1PrivateKeyMessageBytes).1 = .ok input ∧
        secp256k1PrivateKeyBytes ≤ outLen) ∧
      ((∃ message, (privateKeyEncode verify key outLen).1 = .ok message) ↔
        ValidPrivateKey verify key ∧ secp256k1PrivateKeyMessageBytes ≤ outLen) := by
  have hbytes : secp256k1PrivateKeyBytes = 32 := rfl
  rw [privateKeyEncode_eq, privateKeyEncode_eq]
  constructor
  · unfold privateKeyDecode
    constructor
    · intro h
      cases hdecode : decodeKeyMessage input with
      | error e => simp [hdecode] at h
      | ok offset =>
        simp only [hdecode, validatePrivateKey_eq] at h
        split_ifs at h with hlen hroom hvalid
        · rw [List.length_drop] at hlen hroom
          obtain ⟨rfl, hmessage⟩ := (decodeKeyMessage_small (by omega)).mp hdecode
          cases h
          rw [if_pos hvalid, ← hmessage]
          exact ⟨rfl, by omega⟩
        · cases h
    · rintro ⟨hinput, hroom⟩
      split_ifs at hinput with hvalid
      cases hinput
      have hlen : key.length = 32 := hvalid.1
      have hdecode : decodeKeyMessage (keyMessage key) = .ok 4 :=
        (decodeKeyMessage_small (by rw [keyMessage_length]; omega)).mpr ⟨rfl, rfl⟩
      have hdrop : (keyMessage key).drop 4 = key := rfl
      simp only [hdecode, hdrop, validatePrivateKey_eq, if_pos hvalid]
      rw [if_neg (by omega), if_neg (by omega)]
      rfl
  · by_cases hvalid : ValidPrivateKey verify key
    · by_cases hroom : outLen < secp256k1PrivateKeyMessageBytes
      · simp [hvalid, hroom]
      · simp [hvalid, hroom, not_lt.mp hroom]
    · simp [hvalid]

end LeanLibp2p
