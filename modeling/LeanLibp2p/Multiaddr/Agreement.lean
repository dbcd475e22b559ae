import LeanLibp2p.Multiaddr.Text

/-!
# Multiaddr texts and bytes

What is written is read back, and what is read is made of valid components. A peer id longer than the
arrays of the text functions is the exception.
-/

namespace LeanLibp2p

open LeanLibp2p.Lib

variable {components : List (MultiaddrProtocolEntry × Bytes)}
variable {protocol : MultiaddrProtocolEntry}
variable {value : Bytes}

/-! ## Peer ids -/

/-- A value that is a multihash has a legacy text. -/
theorem validateP2pValue_cases (h : validateP2pValue value = true) :
    (∃ rest, value = 0 :: rest) ∨
      ∃ digest : Bytes, digest.length = 32 ∧ value = multihash multihashCodeSha2_256 digest := by
  have hbytes : multihashSha2_256DigestBytes = 32 := rfl
  unfold validateP2pValue multihashDecode at h
  cases hheader : multihashReadHeader value with
  | error e => simp [hheader] at h
  | ok header =>
    obtain ⟨code, digestLen, digestOffset⟩ := header
    simp only [hheader] at h
    cases hvalid : multihashValidateCodeAndLength code digestLen with
    | error e => simp [hvalid] at h
    | ok u =>
      simp only [hvalid] at h
      unfold multihashValidateCodeAndLength at hvalid
      split at hvalid
      · cases hvalid
      split at hvalid
      · rename_i hcode
        subst hcode
        unfold multihashReadHeader at hheader
        cases hfirst : uvarintDecode value with
        | error e => simp [hfirst] at hheader
        | ok first =>
          obtain ⟨code, codeRead⟩ := first
          simp only [hfirst] at hheader
          split at hheader
          · cases hheader
          · cases hheader
            obtain ⟨-, rest, hvalue⟩ := uvarintDecode_small (by decide) hfirst
            exact .inl ⟨rest, hvalue⟩
      · split at hvalid
        · rename_i hcode
          split at hvalid
          · cases hvalid
          rename_i hlen
          subst hcode
          obtain ⟨rfl, rest, rfl⟩ := (multihashReadHeader_small (by decide) (by omega)).mp hheader
          split at h
          · cases h
          · rename_i hread
            split at hread
            · cases hread
            · simp only [Except.ok.injEq, Prod.mk.injEq] at hread
              obtain ⟨-, -, rfl⟩ := hread
              simp only [List.length_cons, decide_eq_true_eq] at h
              refine .inr ⟨rest, by omega, ?_⟩
              have hrest : rest.length = digestLen := by omega
              rw [multihash, hrest]
        · cases hvalid

theorem isLegacyText_p2pValue (h : validateP2pValue value = true) :
    isLegacyText (base58Text value) = true := by
  rcases validateP2pValue_cases h with ⟨rest, rfl⟩ | ⟨digest, hdigest, rfl⟩
  · exact isLegacyText_zero rest
  · exact isLegacyText_sha256 hdigest

theorem validateP2pValue_iff :
    validateP2pValue value = true ↔
      ∃ code digest, multihashDecode value = .ok (code, digest, value.length) := by
  unfold validateP2pValue
  cases multihashDecode value with
  | error e => simp
  | ok found =>
    obtain ⟨code, digest, read⟩ := found
    simp

theorem formatPeerId_short (hlen : value.length ≤ multiaddrMaxPeerIdBytes) :
    formatPeerId value multiaddrMaxPeerIdText = some (base58Text value) := by
  have hmax : multiaddrMaxPeerIdBytes = 128 := rfl
  have htext : multiaddrMaxPeerIdText = 192 := rfl
  obtain ⟨zeros, hzeros, hshort⟩ := base58Text_length_le value
  unfold formatPeerId
  rw [if_neg (by omega), encodeBase58btc_ok (by omega)]
  dsimp only
  rw [List.length_cons, if_neg (by omega), List.drop_succ_cons, List.drop_zero]

theorem parsePeerId_base58Text (hvalid : validateP2pValue value = true)
    (hlen : value.length ≤ multiaddrMaxPeerIdBytes) :
    parsePeerId (base58Text value) multiaddrMaxPeerIdBytes = some value := by
  have hmax : multiaddrMaxPeerIdBytes = 128 := rfl
  have htext : multiaddrMaxPeerIdText = 192 := rfl
  obtain ⟨zeros, hzeros, hshort⟩ := base58Text_length_le value
  have hdecode : (multibaseDecode (ascii 'z' :: base58Text value) multiaddrMaxPeerIdBytes).1 =
      .ok value := multibaseDecode_ok_iff.mpr ⟨.inl rfl, hlen⟩
  obtain ⟨code, digest, hmultihash⟩ := validateP2pValue_iff.mp hvalid
  unfold parsePeerId parseLegacyPeerId
  rw [multiaddrIsLegacyPeerId, isLegacyText_p2pValue hvalid, if_pos rfl, if_neg (by omega), hdecode]
  dsimp only
  rw [hmultihash]
  exact if_neg (by simp)

/-- What is read is a multihash that fits. -/
theorem parsePeerId_some {text value : Bytes} {capacity : Nat}
    (h : parsePeerId text capacity = some value) :
    validateP2pValue value = true ∧ value.length ≤ capacity := by
  unfold parsePeerId at h
  split at h
  · unfold parseLegacyPeerId at h
    split at h
    · cases h
    cases hdecode : (multibaseDecode (ascii 'z' :: text) capacity).1 with
    | error e => simp [hdecode] at h
    | ok decoded =>
      simp only [hdecode] at h
      cases hmultihash : multihashDecode decoded with
      | error e => simp [hmultihash] at h
      | ok found =>
        obtain ⟨code, digest, read⟩ := found
        simp only [hmultihash] at h
        split at h
        · cases h
        rename_i hread
        cases h
        rw [not_not.mp hread] at hmultihash
        exact ⟨validateP2pValue_iff.mpr ⟨code, digest, hmultihash⟩,
          (multibaseDecode_ok_iff.mp hdecode).2⟩
  · unfold parseCidPeerId at h
    split at h
    · cases h
    rename_i cid _
    split at h
    · cases h
    split at h
    · cases h
    split at h
    · cases h
    rename_i versionRead _ _ _ codec codecRead _
    dsimp only at h
    split at h
    · cases h
    rename_i hoffset
    cases hmultihash : multihashDecode (cid.drop (versionRead + codecRead)) with
    | error e => simp [hmultihash] at h
    | ok found =>
      obtain ⟨code, digest, read⟩ := found
      simp only [hmultihash] at h
      split at h
      · cases h
      rename_i hread
      cases h
      have hlen : (cid.drop (versionRead + codecRead)).length = read := by
        rw [List.length_drop]
        omega
      rw [← hlen] at hmultihash
      rw [List.take_of_length_le hlen.le]
      exact ⟨validateP2pValue_iff.mpr ⟨code, digest, hmultihash⟩, by omega⟩

/-! ## Components -/

theorem base58Text_separator {bytes : Bytes} {c : UInt8} (h : c ∈ base58Text bytes) :
    c ≠ ascii '/' := by
  have hall : ∀ v : Fin 58, base58btcAlphabet.getD v 0 ≠ ascii '/' := by decide
  obtain ⟨vs, hvs, htext, -⟩ := base58Text_values bytes
  rw [htext] at h
  obtain ⟨v, hv, rfl⟩ := List.mem_map.mp h
  exact hall ⟨v, hvs v hv⟩

/-- A peer id that the text functions have room for. -/
def ShortPeerId (component : MultiaddrProtocolEntry × Bytes) : Prop :=
  component.1 = multiaddrP2p → component.2.length ≤ multiaddrMaxPeerIdBytes

/-- A value is written without separators and read back. -/
theorem formatValue_read (hvalid : ValidComponent (protocol, value)) (hshort : ShortPeerId (protocol, value))
    (hcode : protocol.code ≠ multiaddrCodeQuicV1) :
    ∃ text, text ≠ [] ∧ (∀ c ∈ text, c ≠ ascii '/') ∧
      formatValue protocol.code value = .ok (ascii '/' :: text) ∧
      parseTextComponent protocol.code text = .ok value := by
  obtain ⟨hmem, hsized, hmultihash⟩ := hvalid
  have hdot : ascii '.' ≠ ascii '/' := by decide
  have hcolon : ascii ':' ≠ ascii '/' := by decide
  dsimp only at hmem hsized hmultihash
  simp only [multiaddrProtocolTable, List.mem_cons, List.not_mem_nil, or_false] at hmem
  obtain rfl | rfl | rfl | rfl | rfl := hmem
  · have hlen : value.length = 4 := hsized
    have hread := parseIpv4_write hlen
    refine ⟨writeIpv4 value, fun h => ?_, fun c hc => ?_, ?_, ?_⟩
    · rw [h] at hread
      cases hread
    · rcases writeIpv4_mem hlen hc with hc | rfl
      · exact (hexDigits_separators hc).2.2
      · exact hdot
    · simp [formatValue, multiaddrIp4, multiaddrCodeIp4, multiaddrCodeQuicV1, hlen]
    · simp [parseTextComponent, multiaddrIp4, hread]
  · have hlen : value.length = 16 := hsized
    have hread := parseIpv6_write hlen
    refine ⟨writeIpv6 value, fun h => ?_, fun c hc => ?_, ?_, ?_⟩
    · rw [h] at hread
      cases hread
    · rcases writeIpv6Loop_mem hc with hc | rfl
      · exact (hexDigits_separators hc).2.2
      · exact hcolon
    · simp [formatValue, multiaddrIp6, multiaddrCodeIp4, multiaddrCodeIp6, multiaddrCodeQuicV1, hlen]
    · simp [parseTextComponent, multiaddrIp6, multiaddrCodeIp4, multiaddrCodeIp6, hread]
  · obtain ⟨high, low, rfl⟩ := List.length_eq_two.mp (show value.length = 2 from hsized)
    have hhigh := high.toNat_lt
    have hlow := low.toNat_lt
    have hnumber : high.toNat <<< 8 ||| low.toNat = high.toNat * 256 + low.toNat :=
      shiftLeft_or _ (by omega)
    have hread := @parseDecimal_write (high.toNat * 256 + low.toNat) 65535 (by omega) (by omega)
    obtain ⟨hfirst, hsecond⟩ := split_bytes high low
    refine ⟨writeDecimal (high.toNat * 256 + low.toNat), writeDecimal_ne_nil _, fun c hc =>
      (hexDigits_separators (writeDecimal_mem hc)).2.2, ?_, ?_⟩
    · simp [formatValue, multiaddrUdp, multiaddrCodeIp4, multiaddrCodeIp6, multiaddrCodeUdp,
        multiaddrCodeQuicV1, hnumber]
    · unfold parseTextComponent
      have hudp : multiaddrUdp.code = multiaddrCodeUdp := rfl
      rw [if_neg (by decide), if_neg (by decide), if_pos hudp, hread, Option.map_some, hfirst,
        hsecond]
  · exact absurd rfl hcode
  · have hvalue := hmultihash rfl
    have hlen := hshort rfl
    refine ⟨base58Text value, fun h => ?_, fun c hc => base58Text_separator hc, ?_, ?_⟩
    · have hlegacy := isLegacyText_p2pValue hvalue
      rw [h] at hlegacy
      cases hlegacy
    · simp [formatValue, multiaddrP2p, multiaddrCodeIp4, multiaddrCodeIp6, multiaddrCodeUdp,
        multiaddrCodeP2p, multiaddrCodeQuicV1, formatPeerId_short hlen]
    · simp [parseTextComponent, multiaddrP2p, multiaddrCodeIp4, multiaddrCodeIp6, multiaddrCodeUdp,
        multiaddrCodeP2p, parsePeerId_base58Text hvalue hlen]

/-- The text of a component. -/
def componentText (component : MultiaddrProtocolEntry × Bytes) : Bytes :=
  ascii '/' :: (component.1.name ++
    (formatValue component.1.code component.2).toOption.getD [])

/-- The text of some components. -/
def multiaddrText (components : List (MultiaddrProtocolEntry × Bytes)) : Bytes :=
  components.flatMap componentText

/-- A text that is read as some valid components. -/
inductive ReadsAs : Bytes → List (MultiaddrProtocolEntry × Bytes) → Prop where
  | nil : ReadsAs [] []
  | cons {text value rest components protocol} :
    readComponentText text = .ok (protocol.code, value, rest) →
    ValidComponent (protocol, value) → ShortPeerId (protocol, value) → rest.length < text.length →
    ReadsAs rest components → ReadsAs text ((protocol, value) :: components)

theorem readTextSegment_segment {segment rest : Bytes} (hsegment : ∀ c ∈ segment, c ≠ ascii '/')
    (hrest : ∀ c ∈ rest.head?, c = ascii '/') :
    readTextSegment (ascii '/' :: (segment ++ rest)) = .ok (segment, rest) := by
  obtain ⟨htake, hdrop⟩ := @takeWhile_segment _ (fun c => decide (c ≠ ascii '/')) segment rest
    (fun c hc => by simpa using hsegment c hc) fun c hc => by simpa using hrest c hc
  rw [readTextSegment, if_neg (by simp), htake, hdrop]

theorem readTextSegment_length {text segment rest : Bytes}
    (h : readTextSegment text = .ok (segment, rest)) : rest.length < text.length := by
  cases text with
  | nil => cases h
  | cons first text =>
    by_cases hfirst : first = ascii '/'
    · rw [readTextSegment, if_neg (not_not.mpr hfirst), Except.ok.injEq, Prod.mk.injEq] at h
      have hle := (List.dropWhile_sublist (fun c => decide (c ≠ ascii '/')) (l := text)).length_le
      rw [← h.2, List.length_cons]
      omega
    · rw [readTextSegment, if_pos hfirst] at h
      cases h

theorem multiaddrText_head (components : List (MultiaddrProtocolEntry × Bytes)) :
    ∀ c ∈ (multiaddrText components).head?, c = ascii '/' := by
  cases components with
  | nil => simp [multiaddrText]
  | cons component components => simp [multiaddrText, componentText]

set_option maxRecDepth 8000 in
/-- The name of a protocol is read as that protocol. -/
theorem name_read (h : protocol ∈ multiaddrProtocolTable) :
    (∀ c ∈ protocol.name, c ≠ ascii '/') ∧ protocol.name.length ≠ 0 ∧
      isIpfsAlias protocol.name = false ∧ findProtocolByName protocol.name = some protocol := by
  have hall : ∀ entry ∈ multiaddrProtocolTable,
      (∀ c ∈ entry.name, c ≠ ascii '/') ∧ entry.name.length ≠ 0 ∧
        isIpfsAlias entry.name = false ∧ findProtocolByName entry.name = some entry := by decide
  exact hall protocol h

theorem readComponentText_componentText {value rest : Bytes}
    (hvalid : ValidComponent (protocol, value)) (hshort : ShortPeerId (protocol, value))
    (hrest : ∀ c ∈ rest.head?, c = ascii '/') :
    readComponentText (componentText (protocol, value) ++ rest) =
      .ok (protocol.code, value, rest) := by
  obtain ⟨hsep, hlen, halias, hname⟩ := name_read hvalid.mem
  dsimp only at hsep hlen halias hname
  by_cases hcode : protocol.code = multiaddrCodeQuicV1
  · have hvalue : value = [] := by
      have hclass : ∀ entry ∈ multiaddrProtocolTable,
          entry.code = multiaddrCodeQuicV1 → entry.valueClass = .valueNone := by decide
      have hsized := hvalid.sized
      unfold MultiaddrProtocolEntry.Sized at hsized
      rwa [hclass protocol hvalid.mem hcode] at hsized
    have htext : componentText (protocol, value) ++ rest =
        ascii '/' :: (protocol.name ++ rest) := by
      simp [componentText, formatValue, hcode, Except.toOption]
    have hsegment := readTextSegment_segment hsep hrest
    rw [htext, hvalue]
    unfold readComponentText
    rw [hsegment]
    simp [bind, Except.bind, pure, Except.pure, hlen, halias, hname, hcode]
  · obtain ⟨text, hne, hseparator, hformat, hparse⟩ := formatValue_read hvalid hshort hcode
    have htext : componentText (protocol, value) ++ rest =
        ascii '/' :: (protocol.name ++ (ascii '/' :: (text ++ rest))) := by
      simp [componentText, hformat, Except.toOption]
    have hfirst := @readTextSegment_segment protocol.name (ascii '/' :: (text ++ rest)) hsep (by simp)
    have hsecond := readTextSegment_segment hseparator hrest
    rw [htext]
    unfold readComponentText
    rw [hfirst]
    simp [bind, Except.bind, pure, Except.pure, hlen, halias, hname, hcode, hsecond, hne, hparse]

/-- The text of valid components is read as them. -/
theorem readsAs_multiaddrText (hvalid : ∀ c ∈ components, ValidComponent c) (hshort : ∀ c ∈ components, ShortPeerId c) :
    ReadsAs (multiaddrText components) components := by
  induction components with
  | nil => exact .nil
  | cons component components ih =>
    obtain ⟨protocol, value⟩ := component
    rw [List.forall_mem_cons] at hvalid hshort
    have htext : multiaddrText ((protocol, value) :: components) =
        componentText (protocol, value) ++ multiaddrText components := rfl
    rw [htext]
    refine .cons (readComponentText_componentText hvalid.1 hshort.1 (multiaddrText_head components))
      hvalid.1 hshort.1 ?_ (ih hvalid.2 hshort.2)
    rw [componentText, List.length_append, List.length_cons]
    omega

/-! ## From a text -/

/-- A value that is read is one of its protocol. -/
theorem parseTextComponent_ok {text value : Bytes} (hmem : protocol ∈ multiaddrProtocolTable)
    (h : parseTextComponent protocol.code text = .ok value) :
    ValidComponent (protocol, value) ∧ ShortPeerId (protocol, value) := by
  have hother {entry : MultiaddrProtocolEntry} (hentry : entry ∈ multiaddrProtocolTable)
      (hne : entry ≠ multiaddrP2p) (hsized : entry.Sized value) :
      ValidComponent (entry, value) ∧ ShortPeerId (entry, value) :=
    ⟨⟨hentry, hsized, fun heq => absurd heq hne⟩, fun heq => absurd heq hne⟩
  unfold parseTextComponent at h
  have hentry := hmem
  simp only [multiaddrProtocolTable, List.mem_cons, List.not_mem_nil, or_false] at hentry
  obtain rfl | rfl | rfl | rfl | rfl := hentry
  · have hcode : multiaddrIp4.code = multiaddrCodeIp4 := rfl
    rw [if_pos hcode] at h
    cases hparse : parseIpv4 text with
    | none => simp [hparse] at h
    | some found =>
      simp only [hparse, Except.ok.injEq] at h
      subst h
      exact hother hmem (by decide) (parseIpv4Loop_length hparse)
  · have hcode : multiaddrIp6.code = multiaddrCodeIp6 := rfl
    rw [if_neg (by decide), if_pos hcode] at h
    cases hparse : parseIpv6 text with
    | none => simp [hparse] at h
    | some found =>
      simp only [hparse, Except.ok.injEq] at h
      subst h
      exact hother hmem (by decide) (parseIpv6_length hparse)
  · have hcode : multiaddrUdp.code = multiaddrCodeUdp := rfl
    rw [if_neg (by decide), if_neg (by decide), if_pos hcode] at h
    cases hparse : parseDecimal text 65535 with
    | none => simp [hparse] at h
    | some found =>
      simp only [hparse, Option.map_some, Except.ok.injEq] at h
      subst h
      exact hother hmem (by decide) rfl
  · rw [if_neg (by decide), if_neg (by decide), if_neg (by decide), if_neg (by decide)] at h
    cases h
  · have hcode : multiaddrP2p.code = multiaddrCodeP2p := rfl
    have hmax : multiaddrMaxPeerIdBytes = 128 := rfl
    rw [if_neg (by decide), if_neg (by decide), if_neg (by decide), if_pos hcode] at h
    cases hparse : parsePeerId text multiaddrMaxPeerIdBytes with
    | none => simp [hparse] at h
    | some found =>
      simp only [hparse, Except.ok.injEq] at h
      subst h
      obtain ⟨hvalid, hlen⟩ := parsePeerId_some hparse
      have hsized : found.length < 2 ^ 63 := by omega
      exact ⟨⟨hmem, hsized, fun _ => hvalid⟩, fun _ => hlen⟩

theorem findProtocolByName_some {name : Bytes} {protocol : MultiaddrProtocolEntry}
    (h : findProtocolByName name = some protocol) : protocol ∈ multiaddrProtocolTable :=
  List.mem_of_find?_eq_some h

/-- What is read is a valid component. -/
theorem readComponentText_ok {text value rest : Bytes} {code : Nat}
    (h : readComponentText text = .ok (code, value, rest)) :
    text.head? = some (ascii '/') ∧ rest.length < text.length ∧
      ∃ protocol, protocol.code = code ∧ ValidComponent (protocol, value) ∧
        ShortPeerId (protocol, value) := by
  unfold readComponentText at h
  cases hname : readTextSegment text with
  | error e => simp [hname, bind, Except.bind] at h
  | ok segment =>
    obtain ⟨name, afterName⟩ := segment
    have hhead : text.head? = some (ascii '/') := by
      cases text with
      | nil => cases hname
      | cons first text =>
        by_cases hfirst : first = ascii '/'
        · rw [hfirst]
          rfl
        · rw [readTextSegment, if_pos hfirst] at hname
          cases hname
    have hlt := readTextSegment_length hname
    simp only [hname, bind, Except.bind, pure, Except.pure, throw, throwThe, MonadExceptOf.throw] at h
    split at h
    · cases h
    generalize hprotocol : (if isIpfsAlias name then findProtocolByCode multiaddrCodeP2p
      else findProtocolByName name) = found at h
    cases found with
    | none => cases h
    | some protocol =>
      have hmem : protocol ∈ multiaddrProtocolTable := by
        split at hprotocol
        · exact (findProtocolByCode_some hprotocol).1
        · exact findProtocolByName_some hprotocol
      dsimp only at h
      split at h
      · rename_i hcode
        simp only [Except.ok.injEq, Prod.mk.injEq] at h
        obtain ⟨rfl, rfl, rfl⟩ := h
        have hquic : ∀ entry ∈ multiaddrProtocolTable, entry.code = multiaddrCodeQuicV1 →
            entry.valueClass = .valueNone ∧ entry ≠ multiaddrP2p := by decide
        obtain ⟨hclass, hne⟩ := hquic protocol hmem hcode
        refine ⟨hhead, hlt, protocol, rfl, ⟨hmem, ?_, fun heq => absurd heq hne⟩,
          fun heq => absurd heq hne⟩
        simp [MultiaddrProtocolEntry.Sized, hclass]
      · cases hvalue : readTextSegment afterName with
        | error e => simp [hvalue] at h
        | ok segment =>
          obtain ⟨valueText, afterValue⟩ := segment
          have hlt' := readTextSegment_length hvalue
          simp only [hvalue] at h
          split at h
          · cases h
          cases hparse : parseTextComponent protocol.code valueText with
          | error e => simp [hparse] at h
          | ok found =>
            simp only [hparse, Except.ok.injEq, Prod.mk.injEq] at h
            obtain ⟨rfl, rfl, rfl⟩ := h
            obtain ⟨hvalid, hshort⟩ := parseTextComponent_ok hmem hparse
            exact ⟨hhead, by omega, protocol, rfl, hvalid, hshort⟩

theorem ReadsAs.valid {text : Bytes} {components : List (MultiaddrProtocolEntry × Bytes)}
    (h : ReadsAs text components) :
    (∀ c ∈ components, ValidComponent c) ∧ ∀ c ∈ components, ShortPeerId c := by
  induction h with
  | nil => simp
  | cons hread hvalid hshort hlen hrest ih =>
    exact ⟨List.forall_mem_cons.mpr ⟨hvalid, ih.1⟩, List.forall_mem_cons.mpr ⟨hshort, ih.2⟩⟩

/-- The loop over a text that is read as some components: it stores their bytes where all of them fit,
    and measures them in any case. -/
theorem fromStringLoop_readsAs {text : Bytes}
    {components : List (MultiaddrProtocolEntry × Bytes)} (h : ReadsAs text components)
    (out : Option Nat) {fuel : Nat} (small : Bool) (stored : Bytes) (pos : Nat)
    (hfuel : text.length < fuel) :
    ∃ small' stored', fromStringLoop out fuel text small stored pos =
        (.ok (), small', stored', pos + (multiaddrBytes components).length) ∧
      (small' = true ↔ small = true ∨ components ≠ [] ∧
        out.all (· < pos + (multiaddrBytes components).length) = true) ∧
      (small' = false → stored' = stored ++ multiaddrBytes components) := by
  induction h generalizing fuel small stored pos with
  | nil =>
    obtain ⟨fuel, rfl⟩ := Nat.exists_eq_succ_of_ne_zero (Nat.ne_of_gt hfuel)
    refine ⟨small, stored, rfl, by simp, fun _ => by simp [multiaddrBytes]⟩
  | @cons text value rest components protocol hread hvalid hshort hlen hrest ih =>
    obtain ⟨fuel, rfl⟩ := Nat.exists_eq_succ_of_ne_zero (show fuel ≠ 0 by omega)
    have hne : text ≠ [] := by
      rintro rfl
      cases hlen
    have hbytes : multiaddrBytes ((protocol, value) :: components) =
        componentBytes protocol value ++ multiaddrBytes components := rfl
    unfold fromStringLoop
    rw [if_neg hne, hread]
    dsimp only
    rw [appendComponent_valid hvalid, hbytes, List.length_append, ← Nat.add_assoc]
    by_cases hfits : (if small then none else out).all
        (· < pos + (componentBytes protocol value).length) = true
    · obtain ⟨small', stored', hrun, hsmall, -⟩ := ih true stored
        (pos + (componentBytes protocol value).length) (show rest.length < fuel by omega)
      have htrue : small' = true := hsmall.mpr (.inl rfl)
      rw [if_pos hfits]
      dsimp only
      rw [if_pos rfl]
      refine ⟨small', stored', hrun, ⟨fun _ => ?_, fun _ => htrue⟩, fun hfalse => ?_⟩
      · cases small with
        | true => exact .inl rfl
        | false =>
          refine .inr ⟨List.cons_ne_nil _ _, ?_⟩
          cases out with
          | none => rfl
          | some len =>
            simp only [Bool.false_eq_true, if_false, Option.all_some, decide_eq_true_eq] at hfits ⊢
            omega
      · rw [htrue] at hfalse
        cases hfalse
    · have hsmall : small = false := by
        cases small with
        | false => rfl
        | true => exact absurd rfl hfits
      subst hsmall
      obtain ⟨small', stored', hrun, hsmall, hstored⟩ := ih false
        (stored ++ componentBytes protocol value) (pos + (componentBytes protocol value).length)
        (show rest.length < fuel by omega)
      rw [if_neg hfits]
      refine ⟨small', stored', hrun, hsmall.trans ?_, fun hfalse => ?_⟩
      · simp only [Bool.false_eq_true, false_or, ne_eq, List.cons_ne_nil, not_false_eq_true, true_and]
        refine ⟨fun h => h.2, fun h => ⟨fun hnil => hfits ?_, h⟩⟩
        subst hnil
        simpa [multiaddrBytes] using h
      · rw [hstored hfalse, List.append_assoc]

/-- What the loop reads to the end is some valid components. -/
theorem fromStringLoop_ok {out : Option Nat} {fuel : Nat} {text : Bytes} {small : Bool}
    {stored : Bytes} {pos : Nat}
    (h : (fromStringLoop out fuel text small stored pos).1 = .ok ()) :
    ∃ components, ReadsAs text components := by
  induction fuel generalizing text small stored pos with
  | zero => cases h
  | succ fuel ih =>
    unfold fromStringLoop at h
    split at h
    · rename_i hnil
      rw [hnil]
      exact ⟨[], .nil⟩
    cases hread : readComponentText text with
    | error e => simp [hread] at h
    | ok component =>
      obtain ⟨code, value, rest⟩ := component
      obtain ⟨-, hlen, protocol, rfl, hvalid, hshort⟩ := readComponentText_ok hread
      simp only [hread] at h
      have hrest : ∃ components, ReadsAs rest components := by
        split at h
        · exact ih h
        · split at h
          · exact ih h
          · cases h
      obtain ⟨components, hrest⟩ := hrest
      exact ⟨_, .cons hread hvalid hshort hlen hrest⟩

theorem multiaddrFromString_readsAs {text : Bytes}
    {components : List (MultiaddrProtocolEntry × Bytes)} (h : ReadsAs text components)
    (hne : components ≠ []) (out : Option Nat) :
    multiaddrFromString text out =
      if out.all (· < (multiaddrBytes components).length) then
        (.error .bufTooSmall, (multiaddrBytes components).length)
      else (.ok (multiaddrBytes components), (multiaddrBytes components).length) := by
  have hhead : text.head? = some (ascii '/') := by
    cases h with
    | nil => exact absurd rfl hne
    | cons hread => exact (readComponentText_ok hread).1
  obtain ⟨small, stored, hrun, hsmall, hstored⟩ :=
    fromStringLoop_readsAs h out false [] 0 (Nat.lt_succ_self text.length)
  unfold multiaddrFromString
  rw [if_neg (not_not.mpr hhead), hrun]
  dsimp only
  simp only [Bool.false_eq_true, false_or, hne, ne_eq, not_false_eq_true, true_and, Nat.zero_add]
    at hsmall ⊢
  by_cases hroom : out.all (· < (multiaddrBytes components).length) = true
  · rw [if_pos (hsmall.mpr hroom), if_pos hroom]
  · have hfalse : small = false := by
      cases small with
      | false => rfl
      | true => exact absurd (hsmall.mp rfl) hroom
    rw [if_neg (by simp [hfalse]), if_neg hroom, hstored hfalse, List.nil_append]

theorem multiaddrFromString_ok {text bytes : Bytes} {out : Option Nat}
    (h : (multiaddrFromString text out).1 = .ok bytes) :
    ∃ components, ReadsAs text components ∧ components ≠ [] ∧ bytes = multiaddrBytes components := by
  have hrun := h
  unfold multiaddrFromString at hrun
  split at hrun
  · cases hrun
  rename_i hhead
  dsimp only at hrun
  split at hrun
  · cases hrun
  rename_i hparse
  obtain ⟨components, hread⟩ := fromStringLoop_ok hparse
  have hne : components ≠ [] := by
    rintro rfl
    cases hread
    exact hhead (by simp)
  rw [multiaddrFromString_readsAs hread hne] at h
  split at h
  · cases h
  · cases h
    exact ⟨components, hread, hne, rfl⟩

/-! ## To a text -/

theorem formatValue_short (hvalid : ValidComponent (protocol, value)) (hshort : ShortPeerId (protocol, value)) :
    ∃ text, formatValue protocol.code value = .ok text := by
  by_cases hcode : protocol.code = multiaddrCodeQuicV1
  · exact ⟨[], if_pos hcode⟩
  · obtain ⟨text, -, -, hformat, -⟩ := formatValue_read hvalid hshort hcode
    exact ⟨_, hformat⟩

/-- The loop over the bytes of valid components with room for their peer ids writes their text. -/
theorem toStringLoop_short (hvalid : ∀ c ∈ components, ValidComponent c) (hshort : ∀ c ∈ components, ShortPeerId c)
    {fuel : Nat} (hfuel : (multiaddrBytes components).length < fuel) (written : Bytes) :
    toStringLoop fuel (multiaddrBytes components) written =
      (.ok (), written ++ multiaddrText components) := by
  induction components generalizing fuel written with
  | nil =>
    obtain ⟨fuel, rfl⟩ := Nat.exists_eq_succ_of_ne_zero (Nat.ne_of_gt hfuel)
    simp [toStringLoop, multiaddrBytes, multiaddrText, nextComponent]
  | cons component components ih =>
    obtain ⟨protocol, value⟩ := component
    rw [List.forall_mem_cons] at hvalid hshort
    obtain ⟨fuel, rfl⟩ := Nat.exists_eq_succ_of_ne_zero (show fuel ≠ 0 by omega)
    have hpos := List.length_pos_of_ne_nil (componentBytes_ne_nil protocol value)
    have hbytes : multiaddrBytes ((protocol, value) :: components) =
        componentBytes protocol value ++ multiaddrBytes components := rfl
    have htext : multiaddrText ((protocol, value) :: components) =
        componentText (protocol, value) ++ multiaddrText components := rfl
    obtain ⟨text, hformat⟩ := formatValue_short hvalid.1 hshort.1
    rw [hbytes, List.length_append] at hfuel
    rw [hbytes, toStringLoop, nextComponent_componentBytes hvalid.1.mem hvalid.1.sized]
    dsimp only
    rw [findProtocolByCode_mem hvalid.1.mem]
    dsimp only
    rw [hformat]
    dsimp only
    rw [ih hvalid.2 hshort.2 (by omega), htext, componentText, hformat]
    simp [Except.toOption]

/-- A peer id that the text functions have no room for ends the loop. -/
theorem toStringLoop_long (hvalid : ∀ c ∈ components, ValidComponent c) (hlong : ¬ ∀ c ∈ components, ShortPeerId c)
    (fuel : Nat) (written : Bytes) :
    (toStringLoop fuel (multiaddrBytes components) written).1 = .error .malformed := by
  induction components generalizing fuel written with
  | nil => exact absurd (by simp) hlong
  | cons component components ih =>
    obtain ⟨protocol, value⟩ := component
    rw [List.forall_mem_cons] at hvalid hlong
    cases fuel with
    | zero => rfl
    | succ fuel =>
      have hbytes : multiaddrBytes ((protocol, value) :: components) =
          componentBytes protocol value ++ multiaddrBytes components := rfl
      rw [hbytes, toStringLoop, nextComponent_componentBytes hvalid.1.mem hvalid.1.sized]
      dsimp only
      rw [findProtocolByCode_mem hvalid.1.mem]
      dsimp only
      by_cases hshort : ShortPeerId (protocol, value)
      · obtain ⟨text, hformat⟩ := formatValue_short hvalid.1 hshort
        rw [hformat]
        exact ih hvalid.2 (fun h => hlong ⟨hshort, h⟩) fuel _
      · obtain ⟨rfl, hlen⟩ := Classical.not_imp.mp hshort
        have hformat : formatValue multiaddrP2p.code value = .error .malformed := by
          have hnone : formatPeerId value multiaddrMaxPeerIdText = none :=
            if_pos (.inl (not_le.mp hlen))
          simp [formatValue, multiaddrP2p, multiaddrCodeIp4, multiaddrCodeIp6, multiaddrCodeUdp,
            multiaddrCodeP2p, multiaddrCodeQuicV1, hnone]
        rw [hformat]

theorem multiaddrToString_short (hvalid : ∀ c ∈ components, ValidComponent c) (hshort : ∀ c ∈ components, ShortPeerId c)
    (out : Option Nat) :
    multiaddrToString (multiaddrBytes components) out =
      if out.all (· < (multiaddrText components).length) then
        (.error .bufTooSmall, (multiaddrText components).length)
      else (.ok (multiaddrText components), (multiaddrText components).length) := by
  have hok := multiaddrValidate_ok_iff.mpr ⟨components, hvalid, rfl⟩
  unfold multiaddrToString
  rw [hok, toStringLoop_short hvalid hshort (Nat.lt_succ_self _), List.nil_append]

theorem multiaddrToString_long (hvalid : ∀ c ∈ components, ValidComponent c) (hlong : ¬ ∀ c ∈ components, ShortPeerId c)
    (out : Option Nat) :
    (multiaddrToString (multiaddrBytes components) out).1 = .error .malformed := by
  have hok := multiaddrValidate_ok_iff.mpr ⟨components, hvalid, rfl⟩
  have hloop := toStringLoop_long hvalid hlong ((multiaddrBytes components).length + 1) []
  unfold multiaddrToString
  rw [hok]
  dsimp only
  rw [hloop]

/-! ## Correspondence -/

/-- A result of a function that measures: with `answer` where a buffer has room for it, and its size
    with any buffer. -/
def Measures (run : Option Nat → Except MultiaddrErr Bytes × Nat) (answer : Bytes) : Prop :=
  ∀ out, run out =
    if out.all (· < answer.length) then (.error .bufTooSmall, answer.length)
    else (.ok answer, answer.length)

/-- How the bytes and the text of multiaddrs correspond. -/
structure MultiaddrFormsAgree (bytes text : Bytes) : Prop where
  /-- Bytes that validate are printed, and what is printed is read as them. -/
  printed : bytes ≠ [] → multiaddrValidate bytes = .ok () →
    ∃ printed, Measures (multiaddrToString bytes) printed ∧
      Measures (multiaddrFromString printed) bytes
  /-- Bytes that are read validate, and have a canonical text that is read as them. -/
  read : ∀ out found, (multiaddrFromString text out).1 = .ok found →
    Measures (multiaddrFromString text) found ∧ multiaddrValidate found = .ok () ∧
      ∃ canonical, Measures (multiaddrToString found) canonical ∧
        Measures (multiaddrFromString canonical) found

/-- Bytes that validate but have a peer id that the text functions have no room for. -/
def HasLongPeerId (bytes : Bytes) : Prop :=
  ∃ components, (∀ c ∈ components, ValidComponent c) ∧ bytes = multiaddrBytes components ∧
    ∃ value, (multiaddrP2p, value) ∈ components ∧ multiaddrMaxPeerIdBytes < value.length

theorem measures_of_components (hvalid : ∀ c ∈ components, ValidComponent c) (hshort : ∀ c ∈ components, ShortPeerId c)
    (hne : components ≠ []) :
    Measures (multiaddrToString (multiaddrBytes components)) (multiaddrText components) ∧
      Measures (multiaddrFromString (multiaddrText components)) (multiaddrBytes components) :=
  ⟨multiaddrToString_short hvalid hshort,
    multiaddrFromString_readsAs (readsAs_multiaddrText hvalid hshort) hne⟩

theorem MultiaddrFormsAgree.not_hasLongPeerId {bytes text : Bytes}
    (h : MultiaddrFormsAgree bytes text) : ¬ HasLongPeerId bytes := by
  rintro ⟨components, hvalid, rfl, value, hmem, hlong⟩
  have hne : multiaddrBytes components ≠ [] := by
    obtain ⟨before, after, rfl⟩ := List.append_of_mem hmem
    simp [multiaddrBytes, componentBytes_ne_nil]
  obtain ⟨printed, hprinted, -⟩ := h.printed hne
    (multiaddrValidate_ok_iff.mpr ⟨components, hvalid, rfl⟩)
  have herror := multiaddrToString_long hvalid
    (fun hshort => absurd (hshort _ hmem rfl) (not_le.mpr hlong)) (some printed.length)
  rw [hprinted (some printed.length)] at herror
  simp at herror

/-- The bytes and the text correspond, unless the bytes have a peer id of more than 128 bytes. -/
theorem multiaddrFormsAgree_iff (bytes text : Bytes) :
    MultiaddrFormsAgree bytes text ↔ ¬ HasLongPeerId bytes := by
  refine ⟨fun h => h.not_hasLongPeerId, fun hlong => ⟨fun hne hvalidate => ?_, fun out found h => ?_⟩⟩
  · obtain ⟨components, hvalid, rfl⟩ := multiaddrValidate_ok_iff.mp hvalidate
    have hshort : ∀ c ∈ components, ShortPeerId c := by
      intro c hc heq
      by_contra hlen
      refine hlong ⟨components, hvalid, rfl, c.2, ?_, not_le.mp hlen⟩
      rw [← heq]
      exact hc
    have hnil : components ≠ [] := by
      rintro rfl
      exact hne rfl
    exact ⟨_, measures_of_components hvalid hshort hnil⟩
  · obtain ⟨components, hread, hne, rfl⟩ := multiaddrFromString_ok h
    obtain ⟨hvalid, hshort⟩ := hread.valid
    exact ⟨multiaddrFromString_readsAs hread hne,
      multiaddrValidate_ok_iff.mpr ⟨components, hvalid, rfl⟩, _,
      measures_of_components hvalid hshort hne⟩

/-- An address with the identity multihash of 127 bytes for its peer id validates, but is not
    printed. -/
theorem not_multiaddrFormsAgree_long :
    ¬ MultiaddrFormsAgree
      (componentBytes multiaddrP2p (0x00 :: 0x7f :: List.replicate 127 0)) [] := by
  intro h
  refine h.not_hasLongPeerId ⟨[(multiaddrP2p, 0x00 :: 0x7f :: List.replicate 127 0)], ?_,
    (List.append_nil _).symm, _, List.mem_singleton_self _, by decide +kernel⟩
  have hsized : ((0x00 :: 0x7f :: List.replicate 127 0 : Bytes)).length < 2 ^ 63 := by
    decide +kernel
  rw [List.forall_mem_singleton]
  exact ⟨by decide, hsized, fun _ => by decide +kernel⟩

end LeanLibp2p
