import LeanLibp2p.Lib.Radix
import LeanLibp2p.Multiformats.Varint

/-!
# Multibase

`multibase.c`: base58btc and base64url texts behind a prefix character. Texts are their ASCII bytes.
A buffer is given by its length, and a function that measures returns `*written` beside its result.
-/

namespace LeanLibp2p

open LeanLibp2p.Lib

/-- `libp2p_multibase_err_t` without `OK`. -/
inductive MultibaseErr where
  | bufTooSmall
  | unsupportedBase
  | reservedPrefix
  | invalidCharacter
  | invalidLength
  | emptyInput
  deriving DecidableEq, Repr

/-- The byte of an ASCII character. -/
def ascii (c : Char) : UInt8 := UInt8.ofNat c.toNat

/-- `multibase_base58btc_alphabet`. -/
def base58btcAlphabet : Bytes := List.map ascii
  ['1', '2', '3', '4', '5', '6', '7', '8', '9', 'A', 'B', 'C', 'D', 'E', 'F', 'G', 'H', 'J', 'K',
   'L', 'M', 'N', 'P', 'Q', 'R', 'S', 'T', 'U', 'V', 'W', 'X', 'Y', 'Z', 'a', 'b', 'c', 'd', 'e',
   'f', 'g', 'h', 'i', 'j', 'k', 'm', 'n', 'o', 'p', 'q', 'r', 's', 't', 'u', 'v', 'w', 'x', 'y',
   'z']

/-- The `base64url_alphabet` of `multibase_encode_base64url`. -/
def base64urlAlphabet : Bytes := List.map ascii
  ['A', 'B', 'C', 'D', 'E', 'F', 'G', 'H', 'I', 'J', 'K', 'L', 'M', 'N', 'O', 'P', 'Q', 'R', 'S',
   'T', 'U', 'V', 'W', 'X', 'Y', 'Z', 'a', 'b', 'c', 'd', 'e', 'f', 'g', 'h', 'i', 'j', 'k', 'l',
   'm', 'n', 'o', 'p', 'q', 'r', 's', 't', 'u', 'v', 'w', 'x', 'y', 'z', '0', '1', '2', '3', '4',
   '5', '6', '7', '8', '9', '-', '_']

/-- `multibase_base58_value` (`multibase.c:251-269`), `none` where it does not find the character. -/
def base58Value (character : UInt8) : Option Nat :=
  let index := base58btcAlphabet.idxOf character
  if index < 58 then some index else none

/-- `multibase_base64url_value` (`multibase.c:271-309`). -/
def base64urlValue (character : UInt8) : Option Nat :=
  let value := character.toNat
  if (ascii 'A').toNat ≤ value ∧ value ≤ (ascii 'Z').toNat then some (value - (ascii 'A').toNat)
  else if (ascii 'a').toNat ≤ value ∧ value ≤ (ascii 'z').toNat then
    some (26 + (value - (ascii 'a').toNat))
  else if (ascii '0').toNat ≤ value ∧ value ≤ (ascii '9').toNat then
    some (52 + (value - (ascii '0').toNat))
  else if character = ascii '-' then some 62
  else if character = ascii '_' then some 63
  else none

/-! ## base58btc -/

/-- How many zero bytes an input starts with. -/
def zeroCount (input : Bytes) : Nat := (input.takeWhile (· = 0)).length

/-- `multibase_encode_base58btc` (`multibase.c:396-557`). The inner loop over the base58 digits in the
    tail of `out` is `Radix.mulAdd`. -/
def multibaseEncodeBase58btc (input : Bytes) (outLen : Nat) : Except MultibaseErr Bytes × Nat :=
  let zeros := zeroCount input
  if zeros = input.length then
    let required := 1 + zeros
    if outLen < required then (.error .bufTooSmall, required)
    else (.ok (ascii 'z' :: List.replicate zeros (ascii '1')), required)
  else
    let scratchOffset := 1 + zeros
    let requiredBound := scratchOffset + ((input.length - zeros) * 138 / 100 + 1)
    if outLen ≤ scratchOffset then (.error .bufTooSmall, requiredBound)
    else
      let capacity := outLen - scratchOffset
      match (input.drop zeros).foldlM (fun digits byte => Radix.mulAdd 58 256 capacity digits byte.toNat)
          [] with
      | none => (.error .bufTooSmall, requiredBound)
      | some digits =>
        (.ok (ascii 'z' :: (List.replicate zeros (ascii '1') ++
            digits.reverse.map fun digit => base58btcAlphabet.getD digit 0)),
          scratchOffset + digits.length)

/-- The loop of `multibase_decode_base58btc` over the characters: the bytes so far, least significant
    first, or `none` once they did not fit. -/
def base58DecodeLoop (outLen : Nat) :
    Bytes → Option (List Nat) → Except MultibaseErr (Option (List Nat))
  | [], used => .ok used
  | character :: text, used =>
    match base58Value character with
    | none => .error .invalidCharacter
    | some value =>
      base58DecodeLoop outLen text (used.bind fun bytes => Radix.mulAdd 256 58 outLen bytes value)

/-- `multibase_decode_base58btc` (`multibase.c:694-803`) behind the prefix. -/
def multibaseDecodeBase58btc (payload : Bytes) (outLen : Nat) : Except MultibaseErr Bytes × Nat :=
  let zeros := (payload.takeWhile (· = ascii '1')).length
  match base58DecodeLoop outLen (payload.drop zeros) (some []) with
  | .error e => (.error e, payload.length)
  | .ok none => (.error .bufTooSmall, payload.length)
  | .ok (some bytes) =>
    if outLen < zeros + bytes.length then (.error .bufTooSmall, payload.length)
    else (.ok (List.replicate zeros 0 ++ bytes.reverse.map UInt8.ofNat), zeros + bytes.length)

/-! ## base64url -/

/-- The loop of `multibase_encode_base64url` (`multibase.c:311-394`) over groups of three bytes, with
    the one or two bytes that remain. -/
def base64urlEncodeLoop : Bytes → Bytes
  | [] => []
  | [byte0] => [byte0.toNat >>> 2, (byte0.toNat &&& 0x03) <<< 4].map (base64urlAlphabet.getD · 0)
  | [byte0, byte1] =>
    [byte0.toNat >>> 2, (byte0.toNat &&& 0x03) <<< 4 ||| byte1.toNat >>> 4,
      (byte1.toNat &&& 0x0f) <<< 2].map (base64urlAlphabet.getD · 0)
  | byte0 :: byte1 :: byte2 :: rest =>
    let chunk := byte0.toNat <<< 16 ||| byte1.toNat <<< 8 ||| byte2.toNat
    [chunk >>> 18 &&& 0x3f, chunk >>> 12 &&& 0x3f, chunk >>> 6 &&& 0x3f, chunk &&& 0x3f].map
      (base64urlAlphabet.getD · 0) ++ base64urlEncodeLoop rest

/-- `multibase_base64_encoded_exact_size` (`multibase.c:75-107`). -/
def base64EncodedExactSize (inLen : Nat) : Nat :=
  inLen / 3 * 4 + if inLen % 3 = 0 then 0 else inLen % 3 + 1

/-- `multibase_encode_base64url`. -/
def multibaseEncodeBase64url (input : Bytes) (outLen : Nat) : Except MultibaseErr Bytes × Nat :=
  let exactTotalLen := 1 + base64EncodedExactSize input.length
  if outLen < exactTotalLen then (.error .bufTooSmall, exactTotalLen)
  else (.ok (ascii 'u' :: base64urlEncodeLoop input), exactTotalLen)

/-- The loop of `multibase_decode_base64url` over groups of four characters, with the two or three
    that remain. -/
def base64urlDecodeLoop : Bytes → Except MultibaseErr Bytes
  | [] => .ok []
  | [_] => .error .invalidLength
  | [char0, char1] =>
    match base64urlValue char0, base64urlValue char1 with
    | some v0, some v1 =>
      if v1 &&& 0x0f ≠ 0 then .error .invalidCharacter
      else .ok [UInt8.ofNat (v0 <<< 2 ||| v1 >>> 4)]
    | _, _ => .error .invalidCharacter
  | [char0, char1, char2] =>
    match base64urlValue char0, base64urlValue char1, base64urlValue char2 with
    | some v0, some v1, some v2 =>
      if v2 &&& 0x03 ≠ 0 then .error .invalidCharacter
      else .ok [UInt8.ofNat (v0 <<< 2 ||| v1 >>> 4), UInt8.ofNat (v1 <<< 4 ||| v2 >>> 2)]
    | _, _, _ => .error .invalidCharacter
  | char0 :: char1 :: char2 :: char3 :: rest =>
    match base64urlValue char0, base64urlValue char1, base64urlValue char2, base64urlValue char3 with
    | some v0, some v1, some v2, some v3 =>
      let chunk := v0 <<< 18 ||| v1 <<< 12 ||| v2 <<< 6 ||| v3
      (base64urlDecodeLoop rest).map fun bytes =>
        UInt8.ofNat (chunk >>> 16) :: UInt8.ofNat (chunk >>> 8) :: UInt8.ofNat chunk :: bytes
    | _, _, _, _ => .error .invalidCharacter

/-- `multibase_base64_decoded_exact_size` (`multibase.c:128-181`) of a length that is one. -/
def base64DecodedExactSize (textLen : Nat) : Nat :=
  textLen / 4 * 3 + if textLen % 4 = 0 then 0 else textLen % 4 - 1

/-- `multibase_decode_base64url` (`multibase.c:559-692`) behind the prefix. -/
def multibaseDecodeBase64url (payload : Bytes) (outLen : Nat) : Except MultibaseErr Bytes × Nat :=
  if payload.length % 4 = 1 then (.error .invalidLength, 0)
  else
    let exactSize := base64DecodedExactSize payload.length
    match base64urlDecodeLoop payload with
    | .error e => (.error e, exactSize)
    | .ok bytes => if outLen < exactSize then (.error .bufTooSmall, exactSize) else (.ok bytes, exactSize)

/-- `libp2p_multibase_decode` (`multibase.c:836-884`) with `multibase_base_from_prefix`
    (`multibase.c:210-249`). -/
def multibaseDecode (input : Bytes) (outLen : Nat) : Except MultibaseErr Bytes × Nat :=
  match input with
  | [] => (.error .emptyInput, 0)
  | first :: payload =>
    if first = ascii 'z' then multibaseDecodeBase58btc payload outLen
    else if first = ascii 'u' then multibaseDecodeBase64url payload outLen
    else if first = 0 ∨ first = ascii '/' ∨ first = ascii '1' ∨ first = ascii 'Q' then
      (.error .reservedPrefix, 0)
    else (.error .unsupportedBase, 0)

/-! ## What base58btc accepts -/

/-- The base58btc text of some bytes, without a prefix. -/
def base58Text (bytes : Bytes) : Bytes :=
  (Radix.convert 256 58 (bytes.map UInt8.toNat)).map (base58btcAlphabet.getD · 0)

theorem base58Value_alphabet {value : Nat} (h : value < 58) :
    base58Value (base58btcAlphabet.getD value 0) = some value := by
  have hall : ∀ value : Fin 58, base58Value (base58btcAlphabet.getD value 0) = some value.val := by
    decide +kernel
  exact hall ⟨value, h⟩

theorem base58Value_eq_some {character : UInt8} {value : Nat}
    (h : base58Value character = some value) :
    value < 58 ∧ character = base58btcAlphabet.getD value 0 := by
  unfold base58Value at h
  dsimp only at h
  split at h
  · rename_i hlt
    cases h
    have hlen : base58btcAlphabet.length = 58 := rfl
    refine ⟨hlt, ?_⟩
    rw [List.getD_eq_getElem _ _ (by omega), List.getElem_idxOf]
  · cases h

theorem alphabet_injective {v v' : Nat} (hv : v < 58) (hv' : v' < 58)
    (h : base58btcAlphabet.getD v 0 = base58btcAlphabet.getD v' 0) : v = v' := by
  have hvalue := base58Value_alphabet hv
  rw [h, base58Value_alphabet hv'] at hvalue
  exact (Option.some.inj hvalue).symm

/-- A text is either the characters of some values, or has a character without a value. -/
theorem exists_values (text : Bytes) :
    (∃ vs : List Nat, (∀ v ∈ vs, v < 58) ∧ text = vs.map (base58btcAlphabet.getD · 0)) ∨
      ∃ character ∈ text, base58Value character = none := by
  induction text with
  | nil => exact .inl ⟨[], by simp, rfl⟩
  | cons character text ih =>
    cases hvalue : base58Value character with
    | none => exact .inr ⟨character, List.mem_cons_self, hvalue⟩
    | some v =>
      obtain ⟨hv, hcharacter⟩ := base58Value_eq_some hvalue
      rcases ih with ⟨vs, hvs, rfl⟩ | ⟨bad, hmem, hbad⟩
      · exact .inl ⟨v :: vs, List.forall_mem_cons.mpr ⟨hv, hvs⟩, by rw [hcharacter]; rfl⟩
      · exact .inr ⟨bad, List.mem_cons_of_mem _ hmem, hbad⟩

theorem base58DecodeLoop_bad (outLen : Nat) {text : Bytes} (used : Option (List Nat))
    (h : ∃ character ∈ text, base58Value character = none) :
    base58DecodeLoop outLen text used = .error .invalidCharacter := by
  induction text generalizing used with
  | nil => obtain ⟨_, hmem, _⟩ := h; cases hmem
  | cons character text ih =>
    unfold base58DecodeLoop
    cases hvalue : base58Value character with
    | none => rfl
    | some v =>
      obtain ⟨bad, hmem, hbad⟩ := h
      rcases List.mem_cons.mp hmem with rfl | hmem
      · cases hvalue.symm.trans hbad
      · exact ih _ ⟨bad, hmem, hbad⟩

theorem base58DecodeLoop_values (outLen : Nat) {vs : List Nat} (hvs : ∀ v ∈ vs, v < 58)
    (used : Option (List Nat)) :
    base58DecodeLoop outLen (vs.map (base58btcAlphabet.getD · 0)) used =
      .ok (used.bind fun bytes =>
        vs.foldlM (fun bytes value => Radix.mulAdd 256 58 outLen bytes value) bytes) := by
  induction vs generalizing used with
  | nil => cases used <;> rfl
  | cons v vs ih =>
    rw [List.forall_mem_cons] at hvs
    rw [List.map_cons, base58DecodeLoop, base58Value_alphabet hvs.1]
    dsimp only
    rw [ih hvs.2]
    cases used <;> rfl

theorem exists_replicate {α : Type} [DecidableEq α] (a : α) (l : List α) :
    ∃ k rest, l = List.replicate k a ++ rest ∧ rest.head? ≠ some a := by
  induction l with
  | nil => exact ⟨0, [], rfl, by simp⟩
  | cons b l ih =>
    by_cases hb : b = a
    · obtain ⟨k, rest, rfl, hrest⟩ := ih
      exact ⟨k + 1, rest, by rw [hb, List.replicate_succ, List.cons_append], hrest⟩
    · exact ⟨0, b :: l, rfl, by simpa using hb⟩

theorem takeWhile_replicate {α : Type} [DecidableEq α] (a : α) (k : Nat) {rest : List α}
    (h : rest.head? ≠ some a) :
    ((List.replicate k a ++ rest).takeWhile (· = a)).length = k ∧
      (List.replicate k a ++ rest).drop k = rest := by
  refine ⟨?_, by simp⟩
  induction k with
  | zero =>
    cases rest with
    | nil => rfl
    | cons b rest =>
      have hb : b ≠ a := fun hb => h (by rw [hb]; rfl)
      simp [hb]
  | succ k ih =>
    rw [List.replicate_succ, List.cons_append, List.takeWhile_cons_of_pos (by simp),
      List.length_cons, ih]

/-- The decoder reads the values of a text as digits. -/
theorem decodeBase58btc_values (outLen : Nat) {vs : List Nat} (hvs : ∀ v ∈ vs, v < 58) :
    multibaseDecodeBase58btc (vs.map (base58btcAlphabet.getD · 0)) outLen =
      if (Radix.convert 58 256 vs).length ≤ outLen then
        (.ok ((Radix.convert 58 256 vs).map UInt8.ofNat), (Radix.convert 58 256 vs).length)
      else (.error .bufTooSmall, vs.length) := by
  obtain ⟨rest, heq, hrest⟩ := Radix.exists_leading vs
  generalize hk : Radix.leading vs = k at heq
  have hone : base58btcAlphabet.getD 0 0 = ascii '1' := by decide
  have hmem : ∀ v ∈ rest, v < 58 := fun v hv => hvs v (by rw [heq]; exact List.mem_append_right _ hv)
  have htext : vs.map (base58btcAlphabet.getD · 0) =
      List.replicate k (ascii '1') ++ rest.map (base58btcAlphabet.getD · 0) := by
    rw [heq, List.map_append, List.map_replicate, hone]
  have hhead : (rest.map (base58btcAlphabet.getD · 0)).head? ≠ some (ascii '1') := by
    intro h
    cases rest with
    | nil => cases h
    | cons v rest =>
      rw [List.map_cons, List.head?_cons, Option.some.injEq, ← hone] at h
      have hv := alphabet_injective (hmem v List.mem_cons_self) (by decide) h
      exact hrest (by rw [hv]; rfl)
  obtain ⟨hcount, hdrop⟩ := takeWhile_replicate (ascii '1') k hhead
  have hvalue : Radix.value 58 vs = Radix.value 58 rest := by
    conv_lhs => rw [heq]
    exact Radix.value_replicate_zero 58 k rest
  have hfold := @Radix.foldlM_mulAdd 256 58 (by decide) (by decide) outLen rest 0 (by simp)
  rw [Nat.digits_zero] at hfold
  have hlength : (Radix.convert 58 256 vs).length =
      k + (Nat.digits 256 (Radix.value 58 rest)).length := by
    rw [Radix.convert, hk, hvalue, List.length_append, List.length_replicate, List.length_reverse]
  unfold multibaseDecodeBase58btc
  rw [htext, hcount]
  dsimp only
  rw [hdrop, base58DecodeLoop_values outLen hmem]
  dsimp only [Option.bind_some]
  rw [hfold, List.length_append, List.length_replicate, List.length_map]
  have hvalueDef : rest.foldl (fun n d => n * 58 + d) 0 = Radix.value 58 rest := rfl
  have hvs : vs.length = k + rest.length := by
    conv_lhs => rw [heq]
    rw [List.length_append, List.length_replicate]
  rw [hvalueDef, hlength, hvs]
  by_cases hroom : (Nat.digits 256 (Radix.value 58 rest)).length ≤ outLen
  · rw [if_pos hroom]
    dsimp only
    by_cases hall : k + (Nat.digits 256 (Radix.value 58 rest)).length ≤ outLen
    · rw [if_neg (by omega), if_pos hall, Radix.convert, hk, hvalue, List.map_append,
        List.map_replicate]
      rfl
    · rw [if_pos (by omega), if_neg hall]
  · rw [if_neg hroom, if_neg (by omega)]

theorem map_toNat_ofNat {ns : List Nat} (h : ∀ n ∈ ns, n < 256) :
    (ns.map UInt8.ofNat).map UInt8.toNat = ns := by
  rw [List.map_map]
  conv_rhs => rw [← List.map_id ns]
  exact List.map_congr_left fun n hn => ofNat_toNat_lt (h n hn)

theorem toNat_lt_of_mem {bytes : Bytes} {n : Nat} (h : n ∈ bytes.map UInt8.toNat) : n < 256 := by
  obtain ⟨byte, -, rfl⟩ := List.mem_map.mp h
  exact byte.toNat_lt

/-- A text of values is the base58btc text of the bytes it decodes to. -/
theorem base58Text_convert {vs : List Nat} (hvs : ∀ v ∈ vs, v < 58) :
    base58Text ((Radix.convert 58 256 vs).map UInt8.ofNat) =
      vs.map (base58btcAlphabet.getD · 0) := by
  rw [base58Text, map_toNat_ofNat (Radix.convert_lt (by decide) vs),
    Radix.convert_convert 256 (by decide) hvs]

/-- The values of a base58btc text. -/
theorem base58Text_values (bytes : Bytes) :
    ∃ vs : List Nat, (∀ v ∈ vs, v < 58) ∧ base58Text bytes = vs.map (base58btcAlphabet.getD · 0) ∧
      (Radix.convert 58 256 vs).map UInt8.ofNat = bytes := by
  refine ⟨Radix.convert 256 58 (bytes.map UInt8.toNat), Radix.convert_lt (by decide) _, rfl, ?_⟩
  rw [Radix.convert_convert 58 (by decide) fun n hn => toNat_lt_of_mem hn, List.map_map]
  conv_rhs => rw [← List.map_id bytes]
  exact List.map_congr_left fun byte _ => UInt8.ofNat_toNat

/-- A text with a character that has no value is refused. -/
theorem decodeBase58btc_bad {payload : Bytes} (outLen : Nat)
    (h : ∃ character ∈ payload, base58Value character = none) :
    multibaseDecodeBase58btc payload outLen = (.error .invalidCharacter, payload.length) := by
  have hone : base58Value (ascii '1') = some 0 := by decide
  obtain ⟨bad, hmem, hbad⟩ := h
  have hne : bad ≠ ascii '1' := by
    rintro rfl
    cases hone.symm.trans hbad
  have hdrop : bad ∈ payload.drop (payload.takeWhile (· = ascii '1')).length := by
    obtain ⟨k, rest, rfl, hrest⟩ := exists_replicate (ascii '1') payload
    obtain ⟨hcount, hdrop⟩ := takeWhile_replicate (ascii '1') k hrest
    rw [hcount, hdrop]
    rcases List.mem_append.mp hmem with hmem | hmem
    · exact absurd (List.mem_replicate.mp hmem).2 hne
    · exact hmem
  unfold multibaseDecodeBase58btc
  dsimp only
  rw [base58DecodeLoop_bad outLen _ ⟨bad, hdrop, hbad⟩]

/-- The decoder accepts the base58btc texts of the bytes that fit. -/
theorem decodeBase58btc_ok_iff {payload bytes : Bytes} {outLen : Nat} :
    (multibaseDecodeBase58btc payload outLen).1 = .ok bytes ↔
      payload = base58Text bytes ∧ bytes.length ≤ outLen := by
  constructor
  · intro h
    rcases exists_values payload with ⟨vs, hvs, rfl⟩ | hbad
    · rw [decodeBase58btc_values outLen hvs] at h
      split at h
      · rename_i hfits
        cases h
        exact ⟨(base58Text_convert hvs).symm, by rwa [List.length_map]⟩
      · cases h
    · rw [decodeBase58btc_bad outLen hbad] at h
      cases h
  · rintro ⟨rfl, hfits⟩
    obtain ⟨vs, hvs, htext, hbytes⟩ := base58Text_values bytes
    rw [htext, decodeBase58btc_values outLen hvs, hbytes]
    rw [← hbytes, List.length_map] at hfits
    rw [if_pos hfits]

/-- It reports a lack of room for the texts of the bytes that do not fit. -/
theorem decodeBase58btc_tooSmall_iff {payload : Bytes} {outLen : Nat} :
    (multibaseDecodeBase58btc payload outLen).1 = .error .bufTooSmall ↔
      ∃ bytes, payload = base58Text bytes ∧ outLen < bytes.length := by
  constructor
  · intro h
    rcases exists_values payload with ⟨vs, hvs, rfl⟩ | hbad
    · rw [decodeBase58btc_values outLen hvs] at h
      split at h
      · cases h
      · refine ⟨_, (base58Text_convert hvs).symm, ?_⟩
        rw [List.length_map]
        omega
    · rw [decodeBase58btc_bad outLen hbad] at h
      cases h
  · rintro ⟨bytes, rfl, hsmall⟩
    obtain ⟨vs, hvs, htext, hbytes⟩ := base58Text_values bytes
    rw [htext, decodeBase58btc_values outLen hvs]
    rw [← hbytes, List.length_map] at hsmall
    rw [if_neg (by omega)]

/-- The base58btc text of a run of zeros and bytes without a leading zero. -/
theorem base58Text_replicate (k : Nat) {rest : Bytes} (hrest : rest.head? ≠ some 0) :
    (rest.map UInt8.toNat).head? ≠ some 0 ∧
      base58Text (List.replicate k 0 ++ rest) = List.replicate k (ascii '1') ++
        (Nat.digits 58 (Radix.value 256 (rest.map UInt8.toNat))).reverse.map
          (base58btcAlphabet.getD · 0) := by
  have hone : base58btcAlphabet.getD 0 0 = ascii '1' := by decide
  have hmap : (List.replicate k (0 : UInt8) ++ rest).map UInt8.toNat =
      List.replicate k 0 ++ rest.map UInt8.toNat := by
    rw [List.map_append, List.map_replicate]
    rfl
  have hhead : (rest.map UInt8.toNat).head? ≠ some 0 := by
    intro h
    cases rest with
    | nil => cases h
    | cons byte rest =>
      rw [List.map_cons, List.head?_cons, Option.some.injEq] at h
      exact hrest (by rw [List.head?_cons, UInt8.toNat_inj.mp (h.trans (by rfl : 0 = UInt8.toNat 0))])
  refine ⟨hhead, ?_⟩
  rw [base58Text, hmap, Radix.convert, Radix.leading_replicate k hhead,
    Radix.value_replicate_zero, List.map_append, List.map_replicate, hone]

/-- The encoder writes the base58btc text where it fits. -/
theorem encodeBase58btc_ok {bytes : Bytes} {outLen : Nat}
    (hfits : 1 + (base58Text bytes).length ≤ outLen) :
    multibaseEncodeBase58btc bytes outLen =
      (.ok (ascii 'z' :: base58Text bytes), 1 + (base58Text bytes).length) := by
  obtain ⟨k, rest, rfl, hrest⟩ := exists_replicate (0 : UInt8) bytes
  obtain ⟨hcount, hdrop⟩ := takeWhile_replicate (0 : UInt8) k hrest
  obtain ⟨hhead, htext⟩ := base58Text_replicate k hrest
  rw [htext, List.length_append, List.length_replicate, List.length_map, List.length_reverse] at hfits
  rw [htext, List.length_append, List.length_replicate, List.length_map, List.length_reverse]
  unfold multibaseEncodeBase58btc zeroCount
  rw [hcount]
  dsimp only
  rw [hdrop]
  cases rest with
  | nil =>
    have hzero : Radix.value 256 (([] : Bytes).map UInt8.toNat) = 0 := rfl
    rw [hzero, Nat.digits_zero] at hfits ⊢
    rw [List.append_nil, List.length_replicate, if_pos rfl, if_neg (by simpa using hfits)]
    simp
  | cons byte rest =>
    have hne : Radix.value 256 ((byte :: rest).map UInt8.toNat) ≠ 0 := by
      intro hzero
      have hdigits := @Radix.digits_value 256 (by decide) _ (fun n hn => toNat_lt_of_mem hn) hhead
      rw [hzero] at hdigits
      simp at hdigits
    have hpos : 0 < (Nat.digits 58 (Radix.value 256 ((byte :: rest).map UInt8.toNat))).length :=
      List.length_pos_of_ne_nil (Nat.digits_ne_nil_iff_ne_zero.mpr hne)
    have hfold := @Radix.foldlM_mulAdd 58 256 (by decide) (by decide) (outLen - (1 + k))
      ((byte :: rest).map UInt8.toNat) 0 (by simp)
    rw [Nat.digits_zero, List.foldlM_map] at hfold
    rw [if_neg (by simp), if_neg (by omega), hfold]
    have hvalue : ((byte :: rest).map UInt8.toNat).foldl (fun n d => n * 256 + d) 0 =
      Radix.value 256 ((byte :: rest).map UInt8.toNat) := rfl
    rw [hvalue, if_pos (by omega)]
    simp only [Prod.mk.injEq, true_and]
    omega

/-- It reports a lack of room for any other text. -/
theorem encodeBase58btc_tooSmall {bytes : Bytes} {outLen : Nat}
    (hsmall : outLen < 1 + (base58Text bytes).length) :
    (multibaseEncodeBase58btc bytes outLen).1 = .error .bufTooSmall := by
  obtain ⟨k, rest, rfl, hrest⟩ := exists_replicate (0 : UInt8) bytes
  obtain ⟨hcount, hdrop⟩ := takeWhile_replicate (0 : UInt8) k hrest
  obtain ⟨hhead, htext⟩ := base58Text_replicate k hrest
  rw [htext, List.length_append, List.length_replicate, List.length_map, List.length_reverse] at hsmall
  unfold multibaseEncodeBase58btc zeroCount
  rw [hcount]
  dsimp only
  rw [hdrop]
  by_cases hzeros : k = (List.replicate k (0 : UInt8) ++ rest).length
  · have hnil : rest = [] := by
      rw [List.length_append, List.length_replicate] at hzeros
      exact List.eq_nil_of_length_eq_zero (by omega)
    subst hnil
    have hzero : Radix.value 256 (([] : Bytes).map UInt8.toNat) = 0 := rfl
    rw [hzero, Nat.digits_zero, List.length_nil] at hsmall
    rw [if_pos hzeros, if_pos (by omega)]
  · rw [if_neg hzeros]
    by_cases hroom : outLen ≤ 1 + k
    · rw [if_pos hroom]
    · have hfold := @Radix.foldlM_mulAdd 58 256 (by decide) (by decide) (outLen - (1 + k))
        (rest.map UInt8.toNat) 0 (by simp)
      have hvalue : (rest.map UInt8.toNat).foldl (fun n d => n * 256 + d) 0 =
        Radix.value 256 (rest.map UInt8.toNat) := rfl
      rw [Nat.digits_zero, List.foldlM_map, hvalue, if_neg (by omega)] at hfold
      rw [if_neg hroom, hfold]

/-! ## What base64url accepts -/

theorem base64urlValue_alphabet {value : Nat} (h : value < 64) :
    base64urlValue (base64urlAlphabet.getD value 0) = some value := by
  have hall : ∀ value : Fin 64, base64urlValue (base64urlAlphabet.getD value 0) = some value.val := by
    decide +kernel
  exact hall ⟨value, h⟩

theorem base64urlValue_eq_some {character : UInt8} {value : Nat}
    (h : base64urlValue character = some value) :
    value < 64 ∧ character = base64urlAlphabet.getD value 0 := by
  have hall : ∀ n : Fin 256, ∀ value ∈ base64urlValue (UInt8.ofNat n),
      value < 64 ∧ UInt8.ofNat n = base64urlAlphabet.getD value 0 := by
    decide +kernel
  have hcharacter := hall ⟨character.toNat, character.toNat_lt⟩ value
  simp only [UInt8.ofNat_toNat] at hcharacter
  exact hcharacter h

theorem shiftLeft_or {b i : Nat} (a : Nat) (h : b < 2 ^ i) : a <<< i ||| b = a * 2 ^ i + b := by
  rw [← Nat.shiftLeft_add_eq_or_of_lt h, Nat.shiftLeft_eq]

theorem and_3f (n : Nat) : n &&& 0x3f = n % 64 := Nat.and_two_pow_sub_one_eq_mod n 6

theorem and_0f (n : Nat) : n &&& 0x0f = n % 16 := Nat.and_two_pow_sub_one_eq_mod n 4

theorem and_03 (n : Nat) : n &&& 0x03 = n % 4 := Nat.and_two_pow_sub_one_eq_mod n 2

theorem base64urlEncodeLoop_one (a : UInt8) :
    base64urlEncodeLoop [a] =
      [a.toNat / 4, a.toNat % 4 * 16].map (base64urlAlphabet.getD · 0) := by
  rw [base64urlEncodeLoop, and_03, Nat.shiftRight_eq_div_pow, Nat.shiftLeft_eq]

theorem base64urlEncodeLoop_two (a b : UInt8) :
    base64urlEncodeLoop [a, b] =
      [a.toNat / 4, a.toNat % 4 * 16 + b.toNat / 16, b.toNat % 16 * 4].map
        (base64urlAlphabet.getD · 0) := by
  have hb := b.toNat_lt
  have hor : (a.toNat % 4) <<< 4 ||| b.toNat >>> 4 = a.toNat % 4 * 16 + b.toNat / 16 := by
    rw [Nat.shiftRight_eq_div_pow, shiftLeft_or _ (by omega)]
    rfl
  rw [base64urlEncodeLoop, and_03, and_0f, hor, Nat.shiftRight_eq_div_pow, Nat.shiftLeft_eq]

theorem base64urlEncodeLoop_three (a b c : UInt8) (rest : Bytes) :
    base64urlEncodeLoop (a :: b :: c :: rest) =
      [a.toNat / 4, a.toNat % 4 * 16 + b.toNat / 16, b.toNat % 16 * 4 + c.toNat / 64,
        c.toNat % 64].map (base64urlAlphabet.getD · 0) ++ base64urlEncodeLoop rest := by
  have ha := a.toNat_lt
  have hb := b.toNat_lt
  have hc := c.toNat_lt
  have hchunk : a.toNat <<< 16 ||| b.toNat <<< 8 ||| c.toNat =
      a.toNat * 65536 + b.toNat * 256 + c.toNat := by
    rw [Nat.or_assoc, shiftLeft_or b.toNat (by omega), shiftLeft_or a.toNat (by omega)]
    omega
  rw [base64urlEncodeLoop, hchunk]
  simp only [and_3f, Nat.shiftRight_eq_div_pow]
  congr 2
  · simp only [List.cons.injEq, and_true]
    omega

theorem base64urlDecodeLoop_two {v0 v1 : Nat} (h0 : v0 < 64) (h1 : v1 < 64) :
    base64urlDecodeLoop ([v0, v1].map (base64urlAlphabet.getD · 0)) =
      if v1 % 16 ≠ 0 then .error .invalidCharacter else .ok [UInt8.ofNat (v0 * 4 + v1 / 16)] := by
  simp only [List.map_cons, List.map_nil, base64urlDecodeLoop, base64urlValue_alphabet h0,
    base64urlValue_alphabet h1, and_0f, Nat.shiftRight_eq_div_pow]
  rw [shiftLeft_or v0 (by omega)]
  rfl

theorem base64urlDecodeLoop_three {v0 v1 v2 : Nat} (h0 : v0 < 64) (h1 : v1 < 64) (h2 : v2 < 64) :
    base64urlDecodeLoop ([v0, v1, v2].map (base64urlAlphabet.getD · 0)) =
      if v2 % 4 ≠ 0 then .error .invalidCharacter
      else .ok [UInt8.ofNat (v0 * 4 + v1 / 16), UInt8.ofNat (v1 % 16 * 16 + v2 / 4)] := by
  have hsecond : UInt8.ofNat (v1 <<< 4 ||| v2 >>> 2) = UInt8.ofNat (v1 % 16 * 16 + v2 / 4) := by
    rw [Nat.shiftRight_eq_div_pow, shiftLeft_or v1 (by omega)]
    refine UInt8.toNat_inj.mp ?_
    simp only [UInt8.toNat_ofNat']
    omega
  simp only [List.map_cons, List.map_nil, base64urlDecodeLoop, base64urlValue_alphabet h0,
    base64urlValue_alphabet h1, base64urlValue_alphabet h2, and_03, hsecond]
  rw [Nat.shiftRight_eq_div_pow, shiftLeft_or v0 (by omega)]
  rfl

theorem base64urlDecodeLoop_four {v0 v1 v2 v3 : Nat} (h0 : v0 < 64) (h1 : v1 < 64) (h2 : v2 < 64)
    (h3 : v3 < 64) (rest : Bytes) :
    base64urlDecodeLoop ([v0, v1, v2, v3].map (base64urlAlphabet.getD · 0) ++ rest) =
      (base64urlDecodeLoop rest).map fun bytes =>
        UInt8.ofNat (v0 * 4 + v1 / 16) :: UInt8.ofNat (v1 % 16 * 16 + v2 / 4) ::
          UInt8.ofNat (v2 % 4 * 64 + v3) :: bytes := by
  have hchunk : v0 <<< 18 ||| v1 <<< 12 ||| v2 <<< 6 ||| v3 =
      v0 * 262144 + v1 * 4096 + v2 * 64 + v3 := by
    rw [Nat.or_assoc, Nat.or_assoc, shiftLeft_or v2 (by omega), shiftLeft_or v1 (by omega),
      shiftLeft_or v0 (by omega)]
    omega
  have hfirst : UInt8.ofNat ((v0 * 262144 + v1 * 4096 + v2 * 64 + v3) >>> 16) =
      UInt8.ofNat (v0 * 4 + v1 / 16) := by
    rw [Nat.shiftRight_eq_div_pow]
    congr 1
    omega
  have hsecond : UInt8.ofNat ((v0 * 262144 + v1 * 4096 + v2 * 64 + v3) >>> 8) =
      UInt8.ofNat (v1 % 16 * 16 + v2 / 4) := by
    rw [Nat.shiftRight_eq_div_pow]
    refine UInt8.toNat_inj.mp ?_
    simp only [UInt8.toNat_ofNat']
    omega
  have hthird : UInt8.ofNat (v0 * 262144 + v1 * 4096 + v2 * 64 + v3) =
      UInt8.ofNat (v2 % 4 * 64 + v3) := by
    refine UInt8.toNat_inj.mp ?_
    simp only [UInt8.toNat_ofNat']
    omega
  simp only [List.map_cons, List.map_nil, List.cons_append, List.nil_append, base64urlDecodeLoop,
    base64urlValue_alphabet h0, base64urlValue_alphabet h1, base64urlValue_alphabet h2,
    base64urlValue_alphabet h3, hchunk, hfirst, hsecond, hthird]

theorem base64urlDecodeLoop_encode (bytes : Bytes) :
    base64urlDecodeLoop (base64urlEncodeLoop bytes) = .ok bytes := by
  induction bytes using base64urlEncodeLoop.induct with
  | case1 => rfl
  | case2 a =>
    have ha := a.toNat_lt
    rw [base64urlEncodeLoop_one, base64urlDecodeLoop_two (by omega) (by omega), if_neg (by omega)]
    have hbyte : a.toNat / 4 * 4 + a.toNat % 4 * 16 / 16 = a.toNat := by omega
    rw [hbyte, UInt8.ofNat_toNat]
  | case3 a b =>
    have ha := a.toNat_lt
    have hb := b.toNat_lt
    rw [base64urlEncodeLoop_two, base64urlDecodeLoop_three (by omega) (by omega) (by omega),
      if_neg (by omega)]
    have hfirst : a.toNat / 4 * 4 + (a.toNat % 4 * 16 + b.toNat / 16) / 16 = a.toNat := by omega
    have hsecond : (a.toNat % 4 * 16 + b.toNat / 16) % 16 * 16 + b.toNat % 16 * 4 / 4 = b.toNat := by
      omega
    rw [hfirst, hsecond, UInt8.ofNat_toNat, UInt8.ofNat_toNat]
  | case4 a b c rest ih =>
    have ha := a.toNat_lt
    have hb := b.toNat_lt
    have hc := c.toNat_lt
    rw [base64urlEncodeLoop_three, base64urlDecodeLoop_four (by omega) (by omega) (by omega)
      (by omega), ih]
    have hfirst : a.toNat / 4 * 4 + (a.toNat % 4 * 16 + b.toNat / 16) / 16 = a.toNat := by omega
    have hsecond : (a.toNat % 4 * 16 + b.toNat / 16) % 16 * 16 +
        (b.toNat % 16 * 4 + c.toNat / 64) / 4 = b.toNat := by omega
    have hthird : (b.toNat % 16 * 4 + c.toNat / 64) % 4 * 64 + c.toNat % 64 = c.toNat := by omega
    rw [hfirst, hsecond, hthird, UInt8.ofNat_toNat, UInt8.ofNat_toNat, UInt8.ofNat_toNat]
    rfl

/-- A character with a value is that value's. -/
theorem base64urlValue_cases (character : UInt8) :
    base64urlValue character = none ∨
      ∃ value < 64, character = base64urlAlphabet.getD value 0 := by
  cases h : base64urlValue character with
  | none => exact .inl rfl
  | some value => exact .inr ⟨value, base64urlValue_eq_some h⟩

/-- What the loop accepts is the text of the bytes it returns. -/
theorem base64urlDecodeLoop_sound {payload bytes : Bytes}
    (h : base64urlDecodeLoop payload = .ok bytes) : payload = base64urlEncodeLoop bytes := by
  induction hlen : payload.length using Nat.strong_induction_on generalizing payload bytes with
  | _ n ih =>
    rcases payload with _ | ⟨c0, _ | ⟨c1, _ | ⟨c2, _ | ⟨c3, rest⟩⟩⟩⟩
    · cases h
      rfl
    · cases h
    · rcases base64urlValue_cases c0 with h0 | ⟨v0, h0, rfl⟩
      · simp [base64urlDecodeLoop, h0] at h
      rcases base64urlValue_cases c1 with h1 | ⟨v1, h1, rfl⟩
      · simp [base64urlDecodeLoop, h1] at h
      have hrun := h.symm.trans (base64urlDecodeLoop_two h0 h1)
      split at hrun
      · cases hrun
      rename_i hbits
      cases hrun
      rw [base64urlEncodeLoop_one, ofNat_toNat_lt (by omega)]
      have hfirst : (v0 * 4 + v1 / 16) / 4 = v0 := by omega
      have hsecond : (v0 * 4 + v1 / 16) % 4 * 16 = v1 := by omega
      rw [hfirst, hsecond]
      rfl
    · rcases base64urlValue_cases c0 with h0 | ⟨v0, h0, rfl⟩
      · simp [base64urlDecodeLoop, h0] at h
      rcases base64urlValue_cases c1 with h1 | ⟨v1, h1, rfl⟩
      · simp [base64urlDecodeLoop, h1] at h
      rcases base64urlValue_cases c2 with h2 | ⟨v2, h2, rfl⟩
      · simp [base64urlDecodeLoop, h2] at h
      have hrun := h.symm.trans (base64urlDecodeLoop_three h0 h1 h2)
      split at hrun
      · cases hrun
      rename_i hbits
      cases hrun
      rw [base64urlEncodeLoop_two, ofNat_toNat_lt (by omega), ofNat_toNat_lt (by omega)]
      have hfirst : (v0 * 4 + v1 / 16) / 4 = v0 := by omega
      have hsecond : (v0 * 4 + v1 / 16) % 4 * 16 + (v1 % 16 * 16 + v2 / 4) / 16 = v1 := by omega
      have hthird : (v1 % 16 * 16 + v2 / 4) % 16 * 4 = v2 := by omega
      rw [hfirst, hsecond, hthird]
      rfl
    · rcases base64urlValue_cases c0 with h0 | ⟨v0, h0, rfl⟩
      · simp [base64urlDecodeLoop, h0] at h
      rcases base64urlValue_cases c1 with h1 | ⟨v1, h1, rfl⟩
      · simp [base64urlDecodeLoop, h1] at h
      rcases base64urlValue_cases c2 with h2 | ⟨v2, h2, rfl⟩
      · simp [base64urlDecodeLoop, h2] at h
      rcases base64urlValue_cases c3 with h3 | ⟨v3, h3, rfl⟩
      · simp [base64urlDecodeLoop, h3] at h
      have hrun := h.symm.trans (base64urlDecodeLoop_four h0 h1 h2 h3 rest)
      cases hrest : base64urlDecodeLoop rest with
      | error e => simp [hrest, Except.map] at hrun
      | ok tail =>
        simp only [hrest, Except.map, Except.ok.injEq] at hrun
        have htail := ih rest.length (by rw [← hlen]; simp; omega) hrest rfl
        rw [hrun, base64urlEncodeLoop_three, ofNat_toNat_lt (by omega), ofNat_toNat_lt (by omega),
          ofNat_toNat_lt (by omega), ← htail]
        have hfirst : (v0 * 4 + v1 / 16) / 4 = v0 := by omega
        have hsecond : (v0 * 4 + v1 / 16) % 4 * 16 + (v1 % 16 * 16 + v2 / 4) / 16 = v1 := by omega
        have hthird : (v1 % 16 * 16 + v2 / 4) % 16 * 4 + (v2 % 4 * 64 + v3) / 64 = v2 := by omega
        have hfourth : (v2 % 4 * 64 + v3) % 64 = v3 := by omega
        rw [hfirst, hsecond, hthird, hfourth]
        rfl

theorem base64DecodedExactSize_add (n : Nat) :
    base64DecodedExactSize (n + 4) = base64DecodedExactSize n + 3 := by
  have hmod : (n + 4) % 4 = n % 4 := by omega
  unfold base64DecodedExactSize
  rw [hmod]
  omega

theorem base64urlEncodeLoop_length (bytes : Bytes) :
    (base64urlEncodeLoop bytes).length % 4 ≠ 1 ∧
      base64DecodedExactSize (base64urlEncodeLoop bytes).length = bytes.length := by
  induction bytes using base64urlEncodeLoop.induct with
  | case1 => simp [base64urlEncodeLoop, base64DecodedExactSize]
  | case2 a => simp [base64urlEncodeLoop, base64DecodedExactSize]
  | case3 a b => simp [base64urlEncodeLoop, base64DecodedExactSize]
  | case4 a b c rest ih =>
    have hlen : (base64urlEncodeLoop (a :: b :: c :: rest)).length =
        (base64urlEncodeLoop rest).length + 4 := by
      simp only [base64urlEncodeLoop, List.length_append, List.length_map, List.length_cons,
        List.length_nil]
      omega
    rw [hlen, base64DecodedExactSize_add, ih.2]
    refine ⟨?_, rfl⟩
    have hrest := ih.1
    omega

/-- The decoder accepts the base64url texts of the bytes that fit. -/
theorem decodeBase64url_ok_iff {payload bytes : Bytes} {outLen : Nat} :
    (multibaseDecodeBase64url payload outLen).1 = .ok bytes ↔
      payload = base64urlEncodeLoop bytes ∧ bytes.length ≤ outLen := by
  unfold multibaseDecodeBase64url
  constructor
  · intro h
    split at h
    · cases h
    cases hloop : base64urlDecodeLoop payload with
    | error e => simp [hloop] at h
    | ok found =>
      have hpayload := base64urlDecodeLoop_sound hloop
      have hsize := (base64urlEncodeLoop_length found).2
      rw [← hpayload] at hsize
      simp only [hloop, hsize] at h
      split at h
      · cases h
      · cases h
        exact ⟨hpayload, by omega⟩
  · rintro ⟨rfl, hfits⟩
    obtain ⟨hvalid, hsize⟩ := base64urlEncodeLoop_length bytes
    simp only [base64urlDecodeLoop_encode, hsize]
    rw [if_neg hvalid, if_neg (by omega)]

theorem base64urlDecodeLoop_error {payload : Bytes} {e : MultibaseErr}
    (h : base64urlDecodeLoop payload = .error e) : e ≠ .bufTooSmall := by
  induction hlen : payload.length using Nat.strong_induction_on generalizing payload with
  | _ n ih =>
    rcases payload with _ | ⟨c0, _ | ⟨c1, _ | ⟨c2, _ | ⟨c3, rest⟩⟩⟩⟩
    · cases h
    · cases h
      simp
    · unfold base64urlDecodeLoop at h
      split at h
      · split at h <;> cases h
        simp
      · cases h
        simp
    · unfold base64urlDecodeLoop at h
      split at h
      · split at h <;> cases h
        simp
      · cases h
        simp
    · unfold base64urlDecodeLoop at h
      split at h
      · cases hrest : base64urlDecodeLoop rest with
        | ok bytes => simp [hrest, Except.map] at h
        | error e' =>
          simp only [hrest, Except.map, Except.error.injEq] at h
          rw [h] at hrest
          exact ih rest.length (by rw [← hlen]; simp; omega) hrest rfl
      · cases h
        simp

/-- It reports a lack of room for the texts of the bytes that do not fit. -/
theorem decodeBase64url_tooSmall_iff {payload : Bytes} {outLen : Nat} :
    (multibaseDecodeBase64url payload outLen).1 = .error .bufTooSmall ↔
      ∃ bytes, payload = base64urlEncodeLoop bytes ∧ outLen < bytes.length := by
  unfold multibaseDecodeBase64url
  constructor
  · intro h
    split at h
    · cases h
    cases hloop : base64urlDecodeLoop payload with
    | error e =>
      simp only [hloop, Except.error.injEq] at h
      exact absurd h (base64urlDecodeLoop_error hloop)
    | ok found =>
      have hpayload := base64urlDecodeLoop_sound hloop
      have hsize := (base64urlEncodeLoop_length found).2
      rw [← hpayload] at hsize
      simp only [hloop, hsize] at h
      split at h
      · exact ⟨found, hpayload, by assumption⟩
      · cases h
  · rintro ⟨bytes, rfl, hsmall⟩
    obtain ⟨hvalid, hsize⟩ := base64urlEncodeLoop_length bytes
    simp only [base64urlDecodeLoop_encode, hsize]
    rw [if_neg hvalid, if_pos hsmall]

/-! ## What a multibase text says -/

/-- The multibase texts of some bytes, in the two bases of the library. -/
def MultibaseText (text bytes : Bytes) : Prop :=
  text = ascii 'z' :: base58Text bytes ∨ text = ascii 'u' :: base64urlEncodeLoop bytes

/-- The decoder accepts the multibase texts of the bytes that fit. -/
theorem multibaseDecode_ok_iff {text bytes : Bytes} {outLen : Nat} :
    (multibaseDecode text outLen).1 = .ok bytes ↔ MultibaseText text bytes ∧ bytes.length ≤ outLen := by
  have hne : ascii 'u' ≠ ascii 'z' := by decide
  unfold multibaseDecode MultibaseText
  cases text with
  | nil => simp
  | cons first payload =>
    by_cases hz : first = ascii 'z'
    · simp [hz, hne.symm, decodeBase58btc_ok_iff]
    by_cases hu : first = ascii 'u'
    · simp [hu, hne, decodeBase64url_ok_iff]
    simp only [hz, hu, if_false, List.cons.injEq, false_and, or_self, iff_false]
    split <;> simp

/-- It reports a lack of room for the multibase texts of the bytes that do not fit. -/
theorem multibaseDecode_tooSmall_iff {text : Bytes} {outLen : Nat} :
    (multibaseDecode text outLen).1 = .error .bufTooSmall ↔
      ∃ bytes, MultibaseText text bytes ∧ outLen < bytes.length := by
  have hne : ascii 'u' ≠ ascii 'z' := by decide
  unfold multibaseDecode MultibaseText
  cases text with
  | nil => simp
  | cons first payload =>
    by_cases hz : first = ascii 'z'
    · simp [hz, hne.symm, decodeBase58btc_tooSmall_iff]
    by_cases hu : first = ascii 'u'
    · simp [hu, hne, decodeBase64url_tooSmall_iff]
    simp only [hz, hu, if_false, List.cons.injEq, false_and, or_self, exists_false, iff_false]
    split <;> simp

end LeanLibp2p
