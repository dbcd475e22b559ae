import LeanLibp2p.Multiaddr.IpText

/-!
# The IPv6 texts that are read and written

The texts of IPv6 addresses as a grammar: eight groups of hexadecimal digits, or fewer with one
`::`, the last two also as four decimal octets. `multiaddr_parse_ipv6` reads these, and with eight
groups beside the `::` one kind too many.
-/

namespace LeanLibp2p

open LeanLibp2p.Lib

variable {text : Bytes}

/-! ## The grammar -/

/-- The hexadecimal digits in upper case. -/
def upperHexDigits : Bytes :=
  List.map ascii ['0', '1', '2', '3', '4', '5', '6', '7', '8', '9', 'A', 'B', 'C', 'D', 'E', 'F']

/-- A character that stands for a hexadecimal digit. -/
def HexDigit (character : UInt8) (digit : Nat) : Prop :=
  digit < 16 ∧ (character = hexDigits.getD digit 0 ∨ character = upperHexDigits.getD digit 0)

instance (character : UInt8) (digit : Nat) : Decidable (HexDigit character digit) :=
  inferInstanceAs (Decidable (_ ∧ _))

/-- A character that stands for a decimal digit. -/
def DecDigit (character : UInt8) (digit : Nat) : Prop :=
  digit < 10 ∧ character = decimalDigits.getD digit 0

instance (character : UInt8) (digit : Nat) : Decidable (DecDigit character digit) :=
  inferInstanceAs (Decidable (_ ∧ _))

/-- One to four hexadecimal digits. -/
def HexGroup (text : Bytes) (group : Nat) : Prop :=
  text ≠ [] ∧ text.length ≤ 4 ∧
    ∃ digits, List.Forall₂ HexDigit text digits ∧ Radix.value 16 digits = group

/-- Decimal digits of a number of at most 255. -/
def DecOctet (text : Bytes) (octet : Nat) : Prop :=
  text ≠ [] ∧ octet ≤ 255 ∧
    ∃ digits, List.Forall₂ DecDigit text digits ∧ Radix.value 10 digits = octet

/-- One item or more, with a separator between any two. -/
inductive Separated (Item : Bytes → Nat → Prop) (separator : UInt8) : Bytes → List Nat → Prop
  | last {text : Bytes} {item : Nat} : Item text item → Separated Item separator text [item]
  | cons {head rest : Bytes} {item : Nat} {items : List Nat} : Item head item →
      Separated Item separator rest items →
      Separated Item separator (head ++ separator :: rest) (item :: items)

/-- Groups behind colons to the end of the address, the last two also as four octets. -/
inductive GroupsText : Bytes → List Nat → Prop
  | group {text : Bytes} {group : Nat} : HexGroup text group → GroupsText text [group]
  | octets {text : Bytes} {a b c d : Nat} : Separated DecOctet (ascii '.') text [a, b, c, d] →
      GroupsText text [a * 256 + b, c * 256 + d]
  | cons {head rest : Bytes} {group : Nat} {groups : List Nat} : HexGroup head group →
      GroupsText rest groups → GroupsText (head ++ ascii ':' :: rest) (group :: groups)

/-- Nothing, or what `Text` says. -/
def Maybe (Text : Bytes → List Nat → Prop) (text : Bytes) (groups : List Nat) : Prop :=
  (text = [] ∧ groups = []) ∨ Text text groups

/-- A text with a `::`, and the groups in front of it and behind it. -/
def CompressedText (text : Bytes) (before after : List Nat) : Prop :=
  ∃ pre post, text = pre ++ ascii ':' :: ascii ':' :: post ∧
    Maybe (Separated HexGroup (ascii ':')) pre before ∧ Maybe GroupsText post after

/-- The text of an IPv6 address and its eight groups. -/
inductive Ipv6Text : Bytes → List Nat → Prop
  | full {text : Bytes} {groups : List Nat} : GroupsText text groups → groups.length = 8 →
      Ipv6Text text groups
  | compressed {text : Bytes} {before after : List Nat} : CompressedText text before after →
      before.length + after.length < 8 →
      Ipv6Text text (before ++ List.replicate (8 - (before.length + after.length)) 0 ++ after)

/-- A `::` beside eight groups, which stands for none. -/
def SurplusText (text : Bytes) : Prop :=
  ∃ before after, CompressedText text before after ∧ before.length + after.length = 8

/-- The sixteen bytes of eight groups. -/
def groupBytes (groups : List Nat) : Bytes :=
  groups.flatMap fun group => [UInt8.ofNat (group / 256), UInt8.ofNat (group % 256)]

/-! ## Numbers -/

theorem hexValue_iff {character : UInt8} {digit : Nat} :
    hexValue character = some digit ↔ HexDigit character digit := by
  constructor
  · have hall : ∀ n : Fin 256, ∀ d ∈ hexValue (UInt8.ofNat n), HexDigit (UInt8.ofNat n) d := by
      decide +kernel
    have hread := hall ⟨character.toNat, character.toNat_lt⟩ digit
    rwa [UInt8.ofNat_toNat] at hread
  · have hall : ∀ d : Fin 16, hexValue (hexDigits.getD d 0) = some d.val ∧
        hexValue (upperHexDigits.getD d 0) = some d.val := by decide
    intro h
    obtain ⟨hdigit, rfl | rfl⟩ := h
    · exact (hall ⟨digit, hdigit⟩).1
    · exact (hall ⟨digit, hdigit⟩).2

theorem decDigit_iff {character : UInt8} {digit : Nat} : DecDigit character digit ↔
    (ascii '0').toNat ≤ character.toNat ∧ character.toNat ≤ (ascii '9').toNat ∧
      digit = character.toNat - (ascii '0').toNat := by
  have hzero : (ascii '0').toNat = 48 := rfl
  have hnine : (ascii '9').toNat = 57 := rfl
  constructor
  · intro h
    obtain ⟨hdigit, rfl⟩ := h
    have hcode := decimalDigits_toNat hdigit
    omega
  · intro h
    obtain ⟨hlow, hhigh, rfl⟩ := h
    have hdigit : character.toNat - (ascii '0').toNat < 10 := by omega
    refine ⟨hdigit, UInt8.toNat_inj.mp ?_⟩
    rw [decimalDigits_toNat hdigit]
    omega

/-- The digits of a group are read from any number of digits on. -/
theorem parseHexLoop_iff {count value result : Nat} (hvalue : value < 16 ^ count)
    (hcount : count ≤ 4) :
    parseHexLoop count text value = some result ↔ count + text.length ≤ 4 ∧
      ∃ digits, List.Forall₂ HexDigit text digits ∧
        digits.foldl (fun n d => n * 16 + d) value = result := by
  induction text generalizing count value with
  | nil => simp [parseHexLoop, hcount]
  | cons character text ih =>
    rw [parseHexLoop, List.length_cons]
    by_cases hfull : 4 ≤ count
    · rw [if_pos hfull]
      simp only [reduceCtorEq, false_iff, not_and]
      omega
    rw [if_neg hfull]
    cases hdigit : hexValue character with
    | none =>
      simp only [reduceCtorEq, false_iff, not_and, not_exists]
      intro _ digits hdigits
      cases hdigits with
      | cons h _ => rw [hexValue_iff.mpr h] at hdigit; cases hdigit
    | some digit =>
      have hlt := (hexValue_iff.mp hdigit).1
      have hnext : value * 16 + digit < 16 ^ (count + 1) := by
        rw [pow_succ]
        omega
      have hpow : (16 : Nat) ^ (count + 1) ≤ 2 ^ 16 := by
        rw [show (2 : Nat) ^ 16 = 16 ^ 4 from rfl]
        exact Nat.pow_le_pow_right (by decide) (by omega)
      have hor : (value <<< 4 ||| digit) % 2 ^ 16 = value * 16 + digit := by
        rw [shiftLeft_or value hlt]
        exact Nat.mod_eq_of_lt (hnext.trans_le hpow)
      dsimp only
      rw [hor, ih hnext (by omega)]
      constructor
      · rintro ⟨hlen, digits, hdigits, hresult⟩
        exact ⟨by omega, digit :: digits, .cons (hexValue_iff.mp hdigit) hdigits, hresult⟩
      · rintro ⟨hlen, digits, hdigits, hresult⟩
        cases hdigits with
        | cons h hrest =>
          rw [hexValue_iff.mpr h] at hdigit
          cases hdigit
          exact ⟨by omega, _, hrest, hresult⟩

theorem parseHexLoop_group {group : Nat} :
    (text ≠ [] ∧ parseHexLoop 0 text 0 = some group) ↔ HexGroup text group := by
  rw [parseHexLoop_iff (by decide) (by decide), Nat.zero_add, HexGroup]
  rfl

theorem parseDecimal_iff {maxValue result : Nat} (hmax : 9 ≤ maxValue) :
    parseDecimal text maxValue = some result ↔ text ≠ [] ∧ result ≤ maxValue ∧
      ∃ digits, List.Forall₂ DecDigit text digits ∧ Radix.value 10 digits = result := by
  unfold parseDecimal
  by_cases hempty : text = []
  · simp [hempty]
  rw [if_neg hempty]
  simp only [ne_eq, hempty, not_false_eq_true, true_and]
  unfold Radix.value
  have hpos : 0 ≤ maxValue := Nat.zero_le _
  generalize 0 = parsed at hpos
  clear hempty
  induction text generalizing parsed with
  | nil =>
    simp only [List.foldlM_nil, List.forall₂_nil_left_iff, exists_eq_left, List.foldl_nil]
    constructor
    · intro h
      cases h
      exact ⟨hpos, rfl⟩
    · intro h
      exact congrArg some h.2
  | cons c text ih =>
    have hnine : (ascii '9').toNat = (ascii '0').toNat + 9 := rfl
    rw [List.foldlM_cons]
    by_cases hrange : c.toNat < (ascii '0').toNat ∨ (ascii '9').toNat < c.toNat
    · rw [if_pos hrange]
      constructor
      · intro h
        cases h
      · rintro ⟨_, digits, hdigits, _⟩
        cases hdigits with
        | cons h _ =>
          have hdigit := decDigit_iff.mp h
          omega
    rw [if_neg hrange]
    by_cases hover : (maxValue - (c.toNat - (ascii '0').toNat)) / 10 < parsed
    · rw [if_pos hover]
      constructor
      · intro h
        cases h
      · rintro ⟨hle, digits, hdigits, hresult⟩
        cases hdigits with
        | cons h hrest =>
          obtain ⟨_, _, rfl⟩ := decDigit_iff.mp h
          rw [List.foldl_cons] at hresult
          have hge := hresult ▸ Radix.foldl_ge (by decide : 0 < 10) _ _
          omega
    · rw [if_neg hover]
      refine (ih _ (by omega)).trans ?_
      constructor
      · rintro ⟨hle, digits, hdigits, hresult⟩
        exact ⟨hle, _ :: digits, .cons (decDigit_iff.mpr ⟨by omega, by omega, rfl⟩) hdigits,
          hresult⟩
      · rintro ⟨hle, digits, hdigits, hresult⟩
        cases hdigits with
        | cons h hrest =>
          obtain ⟨_, _, rfl⟩ := decDigit_iff.mp h
          exact ⟨hle, _, hrest, hresult⟩

theorem parseDecimal_octet {octet : Nat} :
    parseDecimal text 255 = some octet ↔ DecOctet text octet := parseDecimal_iff (by decide)

/-! ## Separators -/

theorem HexGroup.chars {group : Nat} (h : HexGroup text group) :
    ∀ c ∈ text, c ≠ ascii ':' ∧ c ≠ ascii '.' := by
  obtain ⟨_, _, digits, hdigits, _⟩ := h
  have hall : ∀ d : Fin 16, (hexDigits.getD d 0 ≠ ascii ':' ∧ hexDigits.getD d 0 ≠ ascii '.') ∧
      (upperHexDigits.getD d 0 ≠ ascii ':' ∧ upperHexDigits.getD d 0 ≠ ascii '.') := by decide
  intro c hc
  obtain ⟨digit, hdigit⟩ : ∃ digit, HexDigit c digit := by
    clear * - hdigits hc
    induction hdigits with
    | nil => cases hc
    | cons h _ ih =>
      rcases List.mem_cons.mp hc with rfl | hc
      · exact ⟨_, h⟩
      · exact ih hc
  obtain ⟨hlt, rfl | rfl⟩ := hdigit
  · exact (hall ⟨digit, hlt⟩).1
  · exact (hall ⟨digit, hlt⟩).2

theorem DecOctet.chars {octet : Nat} (h : DecOctet text octet) :
    ∀ c ∈ text, c ≠ ascii ':' ∧ c ≠ ascii '.' := by
  obtain ⟨_, _, digits, hdigits, _⟩ := h
  have hall : ∀ d : Fin 10,
      decimalDigits.getD d 0 ≠ ascii ':' ∧ decimalDigits.getD d 0 ≠ ascii '.' := by decide
  intro c hc
  obtain ⟨digit, hlt, rfl⟩ : ∃ digit, DecDigit c digit := by
    clear * - hdigits hc
    induction hdigits with
    | nil => cases hc
    | cons h _ ih =>
      rcases List.mem_cons.mp hc with rfl | hc
      · exact ⟨_, h⟩
      · exact ih hc
  exact hall ⟨digit, hlt⟩

theorem Separated.ne_nil {Item : Bytes → Nat → Prop} {separator : UInt8} {text : Bytes}
    {items : List Nat} (hitem : ∀ {text item}, Item text item → text ≠ [])
    (h : Separated Item separator text items) : text ≠ [] ∧ items ≠ [] := by
  cases h with
  | last h => exact ⟨hitem h, by simp⟩
  | cons h _ => exact ⟨by simp, by simp⟩

/-- Where a text stops at a colon or a dot. -/
theorem dropWhile_head {p : UInt8 → Bool} {text rest : Bytes} {c : UInt8}
    (h : text.dropWhile p = c :: rest) : p c = false ∧ text = text.takeWhile p ++ c :: rest := by
  constructor
  · have hhead := List.head?_dropWhile_not p text
    rw [h] at hhead
    simpa using hhead
  · rw [← h, List.takeWhile_append_dropWhile]

theorem dropWhile_nil {p : UInt8 → Bool} {text : Bytes} (h : text.dropWhile p = []) :
    text = text.takeWhile p := by
  have hsplit := List.takeWhile_append_dropWhile (p := p) (l := text)
  rw [h, List.append_nil] at hsplit
  exact hsplit.symm

/-! ## Octets -/

theorem parseIpv4Loop_iff {parts : Nat} {text value : Bytes} :
    parseIpv4Loop (parts + 1) text = some value ↔
      ∃ octets, Separated DecOctet (ascii '.') text octets ∧ octets.length = parts + 1 ∧
        value = octets.map UInt8.ofNat := by
  induction parts generalizing text value with
  | zero =>
    constructor
    · intro h
      unfold parseIpv4Loop at h
      split at h
      · cases h
      cases hoctet : parseDecimal (text.takeWhile (· ≠ ascii '.')) 255 with
      | none => rw [hoctet] at h; cases h
      | some octet =>
        rw [hoctet] at h
        change (if text.dropWhile (· ≠ ascii '.') = [] then some [UInt8.ofNat octet] else none) =
          some value at h
        split at h <;> cases h
        rename_i hrest
        rw [← dropWhile_nil hrest] at hoctet
        exact ⟨[octet], .last (parseDecimal_octet.mp hoctet), rfl, rfl⟩
    · intro h
      obtain ⟨octets, htext, hlen, rfl⟩ := h
      cases htext with
      | cons _ hrest =>
        have hne := (hrest.ne_nil fun h => h.1).2
        exact absurd (by simpa using hlen) hne
      | last h =>
        obtain ⟨htake, hdrop⟩ := @takeWhile_segment _ (fun c => decide (c ≠ ascii '.')) text []
          (fun c hc => by simpa using (h.chars c hc).2) (by simp)
        rw [List.append_nil] at htake hdrop
        rw [parseIpv4Loop, if_neg h.1, htake, hdrop, parseDecimal_octet.mpr h]
        simp
  | succ parts ih =>
    constructor
    · intro h
      unfold parseIpv4Loop at h
      split at h
      · cases h
      cases hoctet : parseDecimal (text.takeWhile (· ≠ ascii '.')) 255 with
      | none => rw [hoctet] at h; cases h
      | some octet =>
        rw [hoctet] at h
        dsimp only at h
        split at h
        · rename_i heq
          cases heq
        · cases h
        · rename_i c rest hdrop _
          obtain ⟨tail, htail, rfl⟩ := Option.map_eq_some_iff.mp h
          obtain ⟨octets, hoctets, hlen, rfl⟩ := ih.mp htail
          obtain ⟨hdot, hsplit⟩ := dropWhile_head hdrop
          obtain rfl : c = ascii '.' := by simpa using hdot
          refine ⟨octet :: octets, ?_, by simp [hlen], rfl⟩
          rw [hsplit]
          exact .cons (parseDecimal_octet.mp hoctet) hoctets
    · intro h
      obtain ⟨octets, htext, hlen, rfl⟩ := h
      cases htext with
      | last _ => cases hlen
      | @cons head rest item items h hrest =>
        obtain ⟨htake, hdrop⟩ := @takeWhile_segment _ (fun c => decide (c ≠ ascii '.')) head
          (ascii '.' :: rest) (fun c hc => by simpa using (h.chars c hc).2) (by simp)
        rw [parseIpv4Loop, if_neg (by simp), htake, hdrop, parseDecimal_octet.mpr h]
        have hread := ih.mpr ⟨items, hrest, by simpa using hlen, rfl⟩
        simp [hread]

theorem parseIpv4_iff {text value : Bytes} :
    parseIpv4 text = some value ↔ ∃ octets, Separated DecOctet (ascii '.') text octets ∧
      octets.length = 4 ∧ value = octets.map UInt8.ofNat := parseIpv4Loop_iff

theorem Separated.octet_le {separator : UInt8} {text : Bytes} {octets : List Nat}
    (h : Separated DecOctet separator text octets) : ∀ octet ∈ octets, octet ≤ 255 := by
  induction h with
  | last h => simpa using h.2.1
  | cons h _ ih => exact List.forall_mem_cons.mpr ⟨h.2.1, ih⟩

/-- The two groups of four octets. -/
theorem octet_groups {a b c d : Nat} (h : ∀ octet ∈ [a, b, c, d], octet ≤ 255) :
    (UInt8.ofNat a).toNat <<< 8 ||| (UInt8.ofNat b).toNat = a * 256 + b ∧
      (UInt8.ofNat c).toNat <<< 8 ||| (UInt8.ofNat d).toNat = c * 256 + d := by
  simp only [List.forall_mem_cons] at h
  obtain ⟨ha, hb, hc, hd, _⟩ := h
  rw [ofNat_toNat_lt (by omega), ofNat_toNat_lt (by omega), ofNat_toNat_lt (by omega),
    ofNat_toNat_lt (by omega), shiftLeft_or a (by omega), shiftLeft_or c (by omega)]
  exact ⟨rfl, rfl⟩

/-! ## The scanner -/

/-- The rounds of `parseIpv6Loop` up to its end: the groups and the place of the `::`. -/
def scanIpv6Loop : (fuel : Nat) → (groups : List Nat) → (compressIndex : Option Nat) → Bytes →
    Option (List Nat × Option Nat)
  | 0, _, _, _ => none
  | fuel + 1, groups, compressIndex, text =>
    if text = [] then some (groups, compressIndex)
    else if 8 ≤ groups.length then none
    else
      let segment := text.takeWhile fun c => c ≠ ascii ':' ∧ c ≠ ascii '.'
      let rest := text.dropWhile fun c => c ≠ ascii ':' ∧ c ≠ ascii '.'
      if rest.head? = some (ascii '.') then
        if 6 < groups.length then none
        else
          match parseIpv4 text with
          | some [a, b, c, d] =>
            some (groups ++ [a.toNat <<< 8 ||| b.toNat, c.toNat <<< 8 ||| d.toNat], compressIndex)
          | _ => none
      else if segment = [] then none
      else
        match parseHexLoop 0 segment 0 with
        | none => none
        | some value =>
          let groups := groups ++ [value]
          match rest with
          | [] => some (groups, compressIndex)
          | _ :: [] => none
          | _ :: next :: rest =>
            if next = ascii ':' then
              if compressIndex.isSome then none
              else scanIpv6Loop fuel groups (some groups.length) rest
            else scanIpv6Loop fuel groups compressIndex (next :: rest)

theorem parseIpv6Loop_scan (fuel : Nat) (groups : List Nat) (compressIndex : Option Nat)
    (text : Bytes) : parseIpv6Loop fuel groups compressIndex text =
      (scanIpv6Loop fuel groups compressIndex text).bind fun scanned =>
        parseIpv6Finish scanned.1 scanned.2 := by
  induction fuel generalizing groups compressIndex text with
  | zero => rfl
  | succ fuel ih =>
    unfold parseIpv6Loop scanIpv6Loop
    dsimp only
    split
    · rfl
    split
    · rfl
    split
    · split
      · rfl
      cases hread : parseIpv4 text with
      | none => rfl
      | some value =>
        obtain ⟨octets, _, hlen, rfl⟩ := parseIpv4_iff.mp hread
        obtain ⟨a, b, c, d, rfl⟩ := List.length_eq_four.mp hlen
        rfl
    split
    · rfl
    cases parseHexLoop 0 (text.takeWhile fun c => c ≠ ascii ':' ∧ c ≠ ascii '.') 0 with
    | none => rfl
    | some value =>
      rcases text.dropWhile fun c => c ≠ ascii ':' ∧ c ≠ ascii '.' with
        _ | ⟨_, _ | ⟨next, rest⟩⟩
      · rfl
      · rfl
      · dsimp only
        split
        · split
          · rfl
          · exact ih ..
        · exact ih ..

/-! ### A round -/

section

variable {fuel group : Nat} {groups result : List Nat} {compress last : Option Nat}
  {text head rest : Bytes}

/-- The group in front of a colon. -/
theorem HexGroup.takeWhile (h : HexGroup head group) (hrest : ∀ c ∈ rest.head?, c = ascii ':') :
    (head ++ rest).takeWhile (fun c => c ≠ ascii ':' ∧ c ≠ ascii '.') = head ∧
      (head ++ rest).dropWhile (fun c => c ≠ ascii ':' ∧ c ≠ ascii '.') = rest := by
  refine takeWhile_segment (fun c hc => by simpa using h.chars c hc) fun c hc => ?_
  rw [hrest c hc]
  decide

theorem scanIpv6Loop_last (h : HexGroup text group) (hlen : groups.length < 8) :
    scanIpv6Loop (fuel + 1) groups compress text = some (groups ++ [group], compress) := by
  obtain ⟨htake, hdrop⟩ := @HexGroup.takeWhile _ _ [] h (by simp)
  obtain ⟨hne, hread⟩ := parseHexLoop_group.mpr h
  rw [List.append_nil] at htake hdrop
  rw [scanIpv6Loop, if_neg hne, if_neg (by omega), htake, hdrop]
  dsimp only
  rw [if_neg (by simp), if_neg hne, hread]

theorem scanIpv6Loop_group {next : UInt8} (h : HexGroup head group) (hlen : groups.length < 8) :
    scanIpv6Loop (fuel + 1) groups compress (head ++ ascii ':' :: next :: rest) =
      if next = ascii ':' then
        if compress.isSome then none
        else scanIpv6Loop fuel (groups ++ [group]) (some (groups ++ [group]).length) rest
      else scanIpv6Loop fuel (groups ++ [group]) compress (next :: rest) := by
  obtain ⟨htake, hdrop⟩ := @HexGroup.takeWhile _ _ (ascii ':' :: next :: rest) h (by simp)
  obtain ⟨hne, hread⟩ := parseHexLoop_group.mpr h
  have hdot : ascii ':' ≠ ascii '.' := by decide
  rw [scanIpv6Loop, if_neg (by simp), if_neg (by omega), htake, hdrop]
  dsimp only
  rw [List.head?_cons, if_neg (by simpa using hdot), if_neg hne, hread]

theorem scanIpv6Loop_octets {a b c d : Nat}
    (h : Separated DecOctet (ascii '.') text [a, b, c, d]) (hlen : groups.length ≤ 6) :
    scanIpv6Loop (fuel + 1) groups compress text =
      some (groups ++ [a * 256 + b, c * 256 + d], compress) := by
  have hread : parseIpv4 text = some ([a, b, c, d].map UInt8.ofNat) :=
    parseIpv4_iff.mpr ⟨_, h, rfl, rfl⟩
  obtain ⟨hfirst, hsecond⟩ := octet_groups h.octet_le
  obtain ⟨hne, _⟩ := h.ne_nil fun h => h.1
  have hdrop : (text.dropWhile fun c => c ≠ ascii ':' ∧ c ≠ ascii '.').head? =
      some (ascii '.') := by
    cases h with
    | @cons head rest item items hhead hrest =>
      rw [(@takeWhile_segment _ _ head (ascii '.' :: rest)
        (fun c hc => by simpa using hhead.chars c hc) (by simp)).2]
      rfl
  rw [scanIpv6Loop, if_neg hne, if_neg (by omega)]
  dsimp only
  rw [if_pos hdrop, if_neg (by omega), hread]
  simp only [List.map_cons, List.map_nil, hfirst, hsecond]

/-- What a round of the scanner does when it succeeds. -/
theorem scanIpv6Loop_cases
    (h : scanIpv6Loop (fuel + 1) groups compress text = some (result, last)) :
    (text = [] ∧ result = groups ∧ last = compress) ∨
    (groups.length < 8 ∧
      ((∃ gs, GroupsText text gs ∧ groups.length + gs.length ≤ 8 ∧ result = groups ++ gs ∧
        last = compress) ∨
      ∃ head rest group, HexGroup head group ∧
        ((text = head ++ ascii ':' :: ascii ':' :: rest ∧ compress = none ∧
          scanIpv6Loop fuel (groups ++ [group]) (some (groups.length + 1)) rest =
            some (result, last)) ∨
        (text = head ++ ascii ':' :: rest ∧ rest ≠ [] ∧
          scanIpv6Loop fuel (groups ++ [group]) compress rest = some (result, last))))) := by
  unfold scanIpv6Loop at h
  split at h
  · rename_i hempty
    cases h
    exact .inl ⟨hempty, rfl, rfl⟩
  split at h
  · cases h
  rename_i hroom
  refine .inr ⟨by omega, ?_⟩
  dsimp only at h
  split at h
  · split at h
    · cases h
    rename_i hsix
    cases hread : parseIpv4 text with
    | none => rw [hread] at h; cases h
    | some value =>
      obtain ⟨octets, hoctets, hlen, rfl⟩ := parseIpv4_iff.mp hread
      obtain ⟨a, b, c, d, rfl⟩ := List.length_eq_four.mp hlen
      obtain ⟨hfirst, hsecond⟩ := octet_groups hoctets.octet_le
      rw [hread] at h
      simp only [List.map_cons, List.map_nil, hfirst, hsecond] at h
      cases h
      exact .inl ⟨_, .octets hoctets, by simp only [List.length_cons, List.length_nil]; omega,
        rfl, rfl⟩
  rename_i hdot
  split at h
  · cases h
  rename_i hne
  cases hread : parseHexLoop 0 (text.takeWhile fun c => c ≠ ascii ':' ∧ c ≠ ascii '.') 0 with
  | none => rw [hread] at h; cases h
  | some value =>
    have hgroup := parseHexLoop_group.mp ⟨hne, hread⟩
    rw [hread] at h
    dsimp only at h
    split at h
    · rename_i hrest
      cases h
      rw [← dropWhile_nil hrest] at hgroup
      exact .inl ⟨_, .group hgroup, by simp only [List.length_singleton]; omega, rfl, rfl⟩
    · cases h
    · rename_i separator next rest hrest
      obtain ⟨hstop, hsplit⟩ := dropWhile_head hrest
      obtain rfl : separator = ascii ':' := by
        rw [hrest, List.head?_cons] at hdot
        by_contra hcolon
        simp [hcolon] at hstop
        exact hdot (congrArg some hstop)
      right
      split at h
      · rename_i hnext
        subst hnext
        split at h
        · cases h
        rename_i hnone
        rw [List.length_append, List.length_singleton] at h
        exact ⟨_, _, value, hgroup, .inl ⟨hsplit, by simpa using hnone, h⟩⟩
      · exact ⟨_, _, value, hgroup, .inr ⟨hsplit, by simp, h⟩⟩

/-! ### All rounds -/

/-- A scanned text is one of the grammar. -/
theorem scanIpv6Loop_sound (hlen : groups.length ≤ 8)
    (h : scanIpv6Loop fuel groups compress text = some (result, last)) : result.length ≤ 8 ∧
      ((∃ gs, Maybe GroupsText text gs ∧ result = groups ++ gs ∧ last = compress) ∨
      (compress = none ∧ ∃ pre before post after, Separated HexGroup (ascii ':') pre before ∧
        Maybe GroupsText post after ∧ text = pre ++ ascii ':' :: ascii ':' :: post ∧
        result = groups ++ before ++ after ∧ last = some (groups.length + before.length))) := by
  induction fuel generalizing groups compress text with
  | zero => cases h
  | succ fuel ih =>
    rcases scanIpv6Loop_cases h with ⟨rfl, rfl, rfl⟩ | ⟨hroom, ⟨gs, hgs, hfits, rfl, rfl⟩ |
      ⟨head, rest, group, hgroup, ⟨rfl, rfl, hrest⟩ | ⟨rfl, hne, hrest⟩⟩⟩
    · exact ⟨hlen, .inl ⟨[], .inl ⟨rfl, rfl⟩, by simp, rfl⟩⟩
    · rw [List.length_append]
      exact ⟨hfits, .inl ⟨gs, .inr hgs, rfl, rfl⟩⟩
    · -- behind the `::` there is no second one
      obtain ⟨hresult, hform⟩ := ih (by simp; omega) hrest
      obtain ⟨gs, hgs, rfl, rfl⟩ | ⟨hnone, _⟩ := hform
      · exact ⟨hresult, .inr ⟨rfl, head, [group], rest, gs, .last hgroup, hgs, rfl, rfl, rfl⟩⟩
      · cases hnone
    · obtain ⟨hresult, hform⟩ := ih (by simp; omega) hrest
      obtain ⟨gs, hgs, rfl, rfl⟩ | ⟨rfl, pre, before, post, after, hpre, hpost, rfl, rfl, rfl⟩ :=
        hform
      · obtain ⟨hempty, _⟩ | hgs := hgs
        · exact absurd hempty hne
        · exact ⟨hresult, .inl ⟨group :: gs, .inr (.cons hgroup hgs), by simp, rfl⟩⟩
      · refine ⟨hresult, .inr ⟨rfl, head ++ ascii ':' :: pre, group :: before, post, after,
          .cons hgroup hpre, hpost, by simp, by simp, ?_⟩⟩
        simp only [List.length_append, List.length_cons, List.length_nil]
        congr 1
        omega

theorem HexGroup.first (h : HexGroup head group) :
    ∃ c tail, head = c :: tail ∧ c ≠ ascii ':' := by
  obtain ⟨c, tail, rfl⟩ := List.exists_cons_of_ne_nil h.1
  exact ⟨c, tail, rfl, (h.chars c List.mem_cons_self).1⟩

theorem GroupsText.first {gs : List Nat} (h : GroupsText text gs) :
    ∃ c tail, text = c :: tail ∧ c ≠ ascii ':' := by
  cases h with
  | group h => exact h.first
  | octets h =>
    cases h with
    | cons hhead _ =>
      obtain ⟨c, tail, rfl⟩ := List.exists_cons_of_ne_nil hhead.1
      exact ⟨c, _, rfl, (hhead.chars c List.mem_cons_self).1⟩
  | cons h _ =>
    obtain ⟨c, tail, rfl, hc⟩ := h.first
    exact ⟨c, _, rfl, hc⟩

theorem Separated.first {gs : List Nat} (h : Separated HexGroup (ascii ':') text gs) :
    ∃ c tail, text = c :: tail ∧ c ≠ ascii ':' := by
  cases h with
  | last h => exact h.first
  | cons h _ =>
    obtain ⟨c, tail, rfl, hc⟩ := h.first
    exact ⟨c, _, rfl, hc⟩

/-- Groups to the end of the text are scanned. -/
theorem scanIpv6Loop_groups {gs : List Nat} (h : GroupsText text gs) (hfuel : text.length < fuel)
    (hlen : groups.length + gs.length ≤ 8) :
    scanIpv6Loop fuel groups compress text = some (groups ++ gs, compress) := by
  induction h generalizing fuel groups with
  | group h =>
    obtain ⟨fuel, rfl⟩ := Nat.exists_eq_succ_of_ne_zero (Nat.ne_zero_of_lt hfuel)
    exact scanIpv6Loop_last h (by simpa using hlen)
  | octets h =>
    obtain ⟨fuel, rfl⟩ := Nat.exists_eq_succ_of_ne_zero (Nat.ne_zero_of_lt hfuel)
    exact scanIpv6Loop_octets h (by simp at hlen; omega)
  | cons h hrest ih =>
    obtain ⟨fuel, rfl⟩ := Nat.exists_eq_succ_of_ne_zero (Nat.ne_zero_of_lt hfuel)
    obtain ⟨c, tail, rfl, hc⟩ := hrest.first
    simp only [List.length_append, List.length_cons] at hfuel hlen ih
    rw [scanIpv6Loop_group h (by omega), if_neg hc, ih (by omega) (by simp; omega)]
    simp

theorem scanIpv6Loop_maybe {gs : List Nat} (h : Maybe GroupsText text gs)
    (hfuel : text.length < fuel) (hlen : groups.length + gs.length ≤ 8) :
    scanIpv6Loop fuel groups compress text = some (groups ++ gs, compress) := by
  obtain ⟨rfl, rfl⟩ | h := h
  · obtain ⟨fuel, rfl⟩ := Nat.exists_eq_succ_of_ne_zero (Nat.ne_zero_of_lt hfuel)
    simp [scanIpv6Loop]
  · exact scanIpv6Loop_groups h hfuel hlen

/-- Groups up to the `::` are scanned, and those behind it. -/
theorem scanIpv6Loop_compressed {pre post : Bytes} {before after : List Nat}
    (hpre : Separated HexGroup (ascii ':') pre before) (hpost : Maybe GroupsText post after)
    (hfuel : pre.length + post.length < fuel)
    (hlen : groups.length + before.length + after.length ≤ 8) :
    scanIpv6Loop fuel groups none (pre ++ ascii ':' :: ascii ':' :: post) =
      some (groups ++ before ++ after, some (groups.length + before.length)) := by
  induction hpre generalizing fuel groups with
  | last h =>
    obtain ⟨fuel, rfl⟩ := Nat.exists_eq_succ_of_ne_zero (Nat.ne_zero_of_lt hfuel)
    have hpos := List.length_pos_of_ne_nil h.1
    rw [List.length_singleton] at hlen
    rw [scanIpv6Loop_group h (by omega), if_pos rfl, if_neg (by simp),
      scanIpv6Loop_maybe hpost (by omega) (by simp; omega)]
    simp
  | cons h hrest ih =>
    obtain ⟨fuel, rfl⟩ := Nat.exists_eq_succ_of_ne_zero (Nat.ne_zero_of_lt hfuel)
    obtain ⟨c, tail, rfl, hc⟩ := hrest.first
    simp only [List.length_append, List.length_cons] at hfuel hlen ih
    rw [List.append_assoc, List.cons_append, List.cons_append,
      scanIpv6Loop_group h (by omega), if_neg hc, ← List.cons_append,
      ih (by omega) (by simp; omega)]
    simp only [List.append_assoc, List.cons_append, List.length_append, List.length_cons,
      List.length_nil]
    congr 3
    omega

end

/-! ## What is accepted -/

/-- The scanner on a whole text. -/
def scanIpv6 (text : Bytes) : Option (List Nat × Option Nat) :=
  match text with
  | [] => none
  | first :: rest =>
    if first = ascii ':' then
      match rest with
      | [] => none
      | second :: rest =>
        if second ≠ ascii ':' then none else scanIpv6Loop text.length [] (some 0) rest
    else scanIpv6Loop (text.length + 1) [] none text

theorem parseIpv6_scan (text : Bytes) : parseIpv6 text =
    (scanIpv6 text).bind fun scanned =>
      (parseIpv6Finish scanned.1 scanned.2).map fun groups => groups.flatMap fun group =>
        [UInt8.ofNat (group >>> 8), UInt8.ofNat (group &&& 0xff)] := by
  unfold parseIpv6 scanIpv6
  rcases text with _ | ⟨first, rest⟩
  · rfl
  dsimp only
  by_cases hfirst : first = ascii ':'
  · rw [if_pos hfirst, if_pos hfirst]
    rcases rest with _ | ⟨second, rest⟩
    · rfl
    · dsimp only
      split
      · rfl
      · rw [parseIpv6Loop_scan, Option.map_bind]
        rfl
  · rw [if_neg hfirst, if_neg hfirst, parseIpv6Loop_scan, Option.map_bind]
    rfl

/-- What the scanner takes without a `::`. -/
theorem scanIpv6_full {groups : List Nat} :
    scanIpv6 text = some (groups, none) ↔ GroupsText text groups ∧ groups.length ≤ 8 := by
  constructor
  · intro h
    unfold scanIpv6 at h
    rcases text with _ | ⟨first, rest⟩
    · cases h
    dsimp only at h
    by_cases hfirst : first = ascii ':'
    · rw [if_pos hfirst] at h
      rcases rest with _ | ⟨second, rest⟩
      · cases h
      dsimp only at h
      split at h
      · cases h
      obtain ⟨_, ⟨gs, _, _, hlast⟩ | ⟨hnone, _⟩⟩ := scanIpv6Loop_sound (by simp) h
      · cases hlast
      · cases hnone
    · rw [if_neg hfirst] at h
      obtain ⟨hlen, ⟨gs, hgs, rfl, _⟩ | ⟨_, _, _, _, _, _, _, _, _, hlast⟩⟩ :=
        scanIpv6Loop_sound (by simp) h
      · obtain ⟨hempty, _⟩ | hgs := hgs
        · cases hempty
        · exact ⟨hgs, hlen⟩
      · cases hlast
  · intro h
    obtain ⟨hgroups, hlen⟩ := h
    obtain ⟨c, tail, htext, hc⟩ := hgroups.first
    have hscan := @scanIpv6Loop_groups (text.length + 1) [] none text groups hgroups
      (Nat.lt_succ_self _) (by simpa using hlen)
    rw [htext] at hscan ⊢
    unfold scanIpv6
    dsimp only
    rw [if_neg hc]
    exact hscan

/-- What the scanner takes with a `::`. -/
theorem scanIpv6_compressed {groups : List Nat} {index : Nat} :
    scanIpv6 text = some (groups, some index) ↔ ∃ before after, CompressedText text before after ∧
      groups = before ++ after ∧ index = before.length ∧ groups.length ≤ 8 := by
  constructor
  · intro h
    unfold scanIpv6 at h
    rcases text with _ | ⟨first, rest⟩
    · cases h
    dsimp only at h
    by_cases hfirst : first = ascii ':'
    · rw [if_pos hfirst] at h
      rcases rest with _ | ⟨second, rest⟩
      · cases h
      dsimp only at h
      split at h
      · cases h
      rename_i hsecond
      obtain ⟨hlen, ⟨gs, hgs, rfl, hlast⟩ | ⟨hnone, _⟩⟩ := scanIpv6Loop_sound (by simp) h
      · cases hlast
        refine ⟨[], groups, ⟨[], rest, ?_, .inl ⟨rfl, rfl⟩, hgs⟩, rfl, rfl, hlen⟩
        rw [hfirst, not_not.mp hsecond]
        rfl
      · cases hnone
    · rw [if_neg hfirst] at h
      obtain ⟨hlen, ⟨gs, _, _, hlast⟩ | ⟨_, pre, before, post, after, hpre, hpost, htext, rfl,
        hlast⟩⟩ := scanIpv6Loop_sound (by simp) h
      · cases hlast
      · cases hlast
        exact ⟨before, after, ⟨pre, post, htext, .inr hpre, hpost⟩, rfl, by simp, hlen⟩
  · intro h
    obtain ⟨before, after, ⟨pre, post, rfl, hpre, hpost⟩, rfl, rfl, hlen⟩ := h
    rw [List.length_append] at hlen
    obtain ⟨rfl, rfl⟩ | hpre := hpre
    · unfold scanIpv6
      dsimp only [List.nil_append]
      rw [if_pos rfl, if_neg (by simp)]
      exact scanIpv6Loop_maybe hpost (by simp only [List.length_cons]; omega) (by simpa using hlen)
    · obtain ⟨c, tail, htext, hc⟩ := hpre.first
      have hscan := @scanIpv6Loop_compressed
        ((pre ++ ascii ':' :: ascii ':' :: post).length + 1) [] pre post before after hpre hpost
        (by simp only [List.length_append, List.length_cons]; omega) (by simpa using hlen)
      rw [htext] at hscan ⊢
      rw [List.nil_append, List.length_nil, Nat.zero_add] at hscan
      unfold scanIpv6
      dsimp only [List.cons_append]
      rw [if_neg hc]
      exact hscan

theorem groupBytes_eq (groups : List Nat) : (groups.flatMap fun group =>
    [UInt8.ofNat (group >>> 8), UInt8.ofNat (group &&& 0xff)]) = groupBytes groups := by
  unfold groupBytes
  congr 1
  funext group
  rw [Nat.shiftRight_eq_div_pow, show (0xff : Nat) = 2 ^ 8 - 1 from rfl,
    Nat.and_two_pow_sub_one_eq_mod]

/-- The code reads the texts of the grammar, and those with a surplus `::`. -/
theorem parseIpv6_iff {text value : Bytes} : parseIpv6 text = some value ↔
    (∃ groups, Ipv6Text text groups ∧ value = groupBytes groups) ∨
      ∃ before after, CompressedText text before after ∧ before.length + after.length = 8 ∧
        value = groupBytes (before ++ after) := by
  rw [parseIpv6_scan]
  constructor
  · intro h
    obtain ⟨⟨groups, compress⟩, hscan, h⟩ := Option.bind_eq_some_iff.mp h
    obtain ⟨all, hfinish, rfl⟩ := Option.map_eq_some_iff.mp h
    rw [groupBytes_eq]
    cases compress with
    | none =>
      obtain ⟨hgroups, _⟩ := scanIpv6_full.mp hscan
      by_cases hlen : groups.length = 8
      · simp only [parseIpv6Finish, ne_eq, hlen, not_true_eq_false, if_false,
          Option.some.injEq] at hfinish
        subst hfinish
        exact .inl ⟨_, .full hgroups hlen, rfl⟩
      · simp [parseIpv6Finish, hlen] at hfinish
    | some index =>
      obtain ⟨before, after, htext, rfl, rfl, hlen⟩ := scanIpv6_compressed.mp hscan
      simp only [parseIpv6Finish, if_neg (not_lt.mpr hlen), List.take_left, List.drop_left,
        Option.some.injEq] at hfinish
      subst hfinish
      rw [List.length_append] at hlen ⊢
      rcases Nat.lt_or_eq_of_le hlen with hlt | heq
      · exact .inl ⟨_, .compressed htext hlt, rfl⟩
      · refine .inr ⟨before, after, htext, heq, ?_⟩
        rw [heq]
        simp
  · intro h
    obtain ⟨groups, h, rfl⟩ | ⟨before, after, htext, hlen, rfl⟩ := h
    · cases h with
      | full hgroups hlen =>
        rw [scanIpv6_full.mpr ⟨hgroups, hlen.le⟩, Option.bind_some, parseIpv6Finish,
          if_neg (by simp [hlen]), Option.map_some, groupBytes_eq]
      | compressed htext hlen =>
        rename_i before after
        rw [scanIpv6_compressed.mpr ⟨before, after, htext, rfl, rfl, by simp; omega⟩,
          Option.bind_some]
        simp only [parseIpv6Finish, List.length_append, List.take_left, List.drop_left]
        rw [if_neg (by omega), Option.map_some, groupBytes_eq]
    · rw [scanIpv6_compressed.mpr ⟨before, after, htext, rfl, rfl, by simp; omega⟩,
        Option.bind_some]
      simp only [parseIpv6Finish, List.length_append, List.take_left, List.drop_left, hlen]
      rw [if_neg (by omega), Option.map_some, groupBytes_eq]
      simp

/-- A text with a surplus `::` is none of the grammar. -/
theorem SurplusText.not_ipv6Text (h : SurplusText text) (groups : List Nat) :
    ¬ Ipv6Text text groups := by
  obtain ⟨before, after, htext, hlen⟩ := h
  have hscan := scanIpv6_compressed.mpr
    ⟨before, after, htext, rfl, rfl, by rw [List.length_append]; omega⟩
  intro hgrammar
  cases hgrammar with
  | full hgroups hfull =>
    rw [scanIpv6_full.mpr ⟨hgroups, hfull.le⟩] at hscan
    cases hscan
  | compressed hother hlt =>
    rename_i before' after'
    rw [scanIpv6_compressed.mpr
      ⟨before', after', hother, rfl, rfl, by rw [List.length_append]; omega⟩] at hscan
    have hgroups := congrArg List.length (Prod.mk.inj (Option.some.inj hscan)).1
    rw [List.length_append, List.length_append] at hgroups
    omega

end LeanLibp2p
