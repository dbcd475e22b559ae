import LeanLibp2p.Multiformats.Multibase

/-!
# IP addresses and numbers as texts

The decimal and hexadecimal numbers, IPv4 and IPv6 addresses of `multiaddr.c`: how they are read and
how they are written. What is written is read back.
-/

namespace LeanLibp2p

open LeanLibp2p.Lib

variable {best : Nat × Nat} {groups : List Nat}

/-! ## Numbers -/

/-- The digits of the `do … while (remaining != 0)` loops that write a number, least significant
    first, into an array of `fuel + 1` characters. -/
def digitLoop (base : Nat) : (fuel : Nat) → (remaining : Nat) → List Nat
  | 0, remaining => [remaining % base]
  | fuel + 1, remaining =>
    remaining % base :: if remaining / base = 0 then [] else digitLoop base fuel (remaining / base)

/-- `multiaddr_parse_decimal` (`multiaddr.c:201-248`) for a `max_value` of at least nine. -/
def parseDecimal (text : Bytes) (maxValue : Nat) : Option Nat :=
  if text = [] then none
  else
    text.foldlM (fun parsed character =>
      if character.toNat < (ascii '0').toNat ∨ (ascii '9').toNat < character.toNat then none
      else
        let digit := character.toNat - (ascii '0').toNat
        if (maxValue - digit) / 10 < parsed then none else some (parsed * 10 + digit)) 0

/-- The `decimal_digits` of `multiaddr_write_decimal_u32`. -/
def decimalDigits : Bytes := List.map ascii ['0', '1', '2', '3', '4', '5', '6', '7', '8', '9']

/-- `multiaddr_write_decimal_u32` (`multiaddr.c:566-589`). -/
def writeDecimal (value : Nat) : Bytes :=
  (digitLoop 10 9 value).reverse.map (decimalDigits.getD · 0)

/-- `multiaddr_hex_value` (`multiaddr.c:250-284`). -/
def hexValue (character : UInt8) : Option Nat :=
  let value := character.toNat
  if (ascii '0').toNat ≤ value ∧ value ≤ (ascii '9').toNat then some (value - (ascii '0').toNat)
  else if (ascii 'a').toNat ≤ value ∧ value ≤ (ascii 'f').toNat then
    some (10 + (value - (ascii 'a').toNat))
  else if (ascii 'A').toNat ≤ value ∧ value ≤ (ascii 'F').toNat then
    some (10 + (value - (ascii 'A').toNat))
  else none

/-- The loop of `multiaddr_parse_ipv6` over the digits of one group. -/
def parseHexLoop : (digitCount : Nat) → Bytes → (value : Nat) → Option Nat
  | _, [], value => some value
  | digitCount, character :: segment, value =>
    if 4 ≤ digitCount then none
    else
      match hexValue character with
      | none => none
      | some digit => parseHexLoop (digitCount + 1) segment ((value <<< 4 ||| digit) % 2 ^ 16)

/-- The `hex_digits` of `multiaddr_write_hex_group`. -/
def hexDigits : Bytes :=
  List.map ascii ['0', '1', '2', '3', '4', '5', '6', '7', '8', '9', 'a', 'b', 'c', 'd', 'e', 'f']

/-- `multiaddr_write_hex_group` (`multiaddr.c:591-612`). -/
def writeHexGroup (value : Nat) : Bytes := (digitLoop 16 3 value).reverse.map (hexDigits.getD · 0)

/-! ## Addresses -/

/-- The loop of `multiaddr_parse_ipv4` over the parts that are left. -/
def parseIpv4Loop : (parts : Nat) → Bytes → Option Bytes
  | 0, _ => some []
  | parts + 1, text =>
    if text = [] then none
    else
      match parseDecimal (text.takeWhile (· ≠ ascii '.')) 255 with
      | none => none
      | some value =>
        match parts, text.dropWhile (· ≠ ascii '.') with
        | 0, rest => if rest = [] then some [UInt8.ofNat value] else none
        | _, [] => none
        | parts, _ :: rest => (parseIpv4Loop parts rest).map (UInt8.ofNat value :: ·)

/-- `multiaddr_parse_ipv4` (`multiaddr.c:286-342`). -/
def parseIpv4 (text : Bytes) : Option Bytes := parseIpv4Loop 4 text

/-- `multiaddr_write_ipv4` (`multiaddr.c:614-630`). -/
def writeIpv4 (value : Bytes) : Bytes :=
  ((value.map fun byte => writeDecimal byte.toNat).intersperse [ascii '.']).flatten

/-- The end of `multiaddr_parse_ipv6` (`multiaddr.c:481-513`): the groups with the compressed zeros
    put in. -/
def parseIpv6Finish (groups : List Nat) (compressIndex : Option Nat) : Option (List Nat) :=
  match compressIndex with
  | some index =>
    if 8 < groups.length then none
    else some (groups.take index ++ List.replicate (8 - groups.length) 0 ++ groups.drop index)
  | none => if groups.length ≠ 8 then none else some groups

/-- The loop of `multiaddr_parse_ipv6` (`multiaddr.c:373-479`), a round for each group and at least
    one character in each. -/
def parseIpv6Loop : (fuel : Nat) → (groups : List Nat) → (compressIndex : Option Nat) → Bytes →
    Option (List Nat)
  | 0, _, _, _ => none
  | fuel + 1, groups, compressIndex, text =>
    if text = [] then parseIpv6Finish groups compressIndex
    else if 8 ≤ groups.length then none
    else
      let segment := text.takeWhile fun c => c ≠ ascii ':' ∧ c ≠ ascii '.'
      let rest := text.dropWhile fun c => c ≠ ascii ':' ∧ c ≠ ascii '.'
      if rest.head? = some (ascii '.') then
        if 6 < groups.length then none
        else
          match parseIpv4 text with
          | some [a, b, c, d] =>
            parseIpv6Finish
              (groups ++ [a.toNat <<< 8 ||| b.toNat, c.toNat <<< 8 ||| d.toNat]) compressIndex
          | _ => none
      else if segment = [] then none
      else
        match parseHexLoop 0 segment 0 with
        | none => none
        | some value =>
          let groups := groups ++ [value]
          match rest with
          | [] => parseIpv6Finish groups compressIndex
          | _ :: [] => none
          | _ :: next :: rest =>
            if next = ascii ':' then
              if compressIndex.isSome then none
              else parseIpv6Loop fuel groups (some groups.length) rest
            else parseIpv6Loop fuel groups compressIndex (next :: rest)

/-- `multiaddr_parse_ipv6` (`multiaddr.c:344-526`). -/
def parseIpv6 (text : Bytes) : Option Bytes :=
  let groups :=
    match text with
    | [] => none
    | first :: rest =>
      if first = ascii ':' then
        match rest with
        | [] => none
        | second :: rest =>
          if second ≠ ascii ':' then none else parseIpv6Loop text.length [] (some 0) rest
      else parseIpv6Loop (text.length + 1) [] none text
  groups.map fun groups => groups.flatMap fun group =>
    [UInt8.ofNat (group >>> 8), UInt8.ofNat (group &&& 0xff)]

/-- The groups of `multiaddr_write_ipv6`. -/
def ipv6Groups : Bytes → List Nat
  | high :: low :: rest => (high.toNat <<< 8 ||| low.toNat) :: ipv6Groups rest
  | _ => []

/-- The search of `multiaddr_write_ipv6` for the first longest run of zero groups: its start and its
    length. -/
def bestRunLoop : List Nat → (index : Nat) → (best current : Nat × Nat) → Nat × Nat
  | [], _, best, current => if best.2 < current.2 then current else best
  | group :: groups, index, best, current =>
    if group = 0 then
      bestRunLoop groups (index + 1) best
        (if current.2 = 0 then index else current.1, current.2 + 1)
    else
      bestRunLoop groups (index + 1) (if best.2 < current.2 then current else best) (current.1, 0)

/-- The run that `multiaddr_write_ipv6` leaves out, of length zero where there is none. -/
def bestRun (groups : List Nat) : Nat × Nat :=
  let best := bestRunLoop groups 0 (0, 0) (0, 0)
  if best.2 < 2 then (0, 0) else best

/-- The loop of `multiaddr_write_ipv6` that writes the eight groups. -/
def writeIpv6Loop (best : Nat × Nat) (groups : List Nat) :
    (fuel : Nat) → (index : Nat) → (needSeparator : Bool) → Bytes
  | 0, _, _ => []
  | fuel + 1, index, needSeparator =>
    if 8 ≤ index then []
    else if best.2 ≠ 0 ∧ index = best.1 then
      ascii ':' :: ascii ':' :: writeIpv6Loop best groups fuel (index + best.2) false
    else
      (if needSeparator then [ascii ':'] else []) ++ writeHexGroup (groups.getD index 0) ++
        writeIpv6Loop best groups fuel (index + 1) true

/-- `multiaddr_write_ipv6` (`multiaddr.c:632-701`). -/
def writeIpv6 (value : Bytes) : Bytes :=
  let groups := ipv6Groups value
  writeIpv6Loop (bestRun groups) groups 8 0 false

/-! ## Written numbers are read back -/

theorem digitLoop_lt {base : Nat} (hbase : 0 < base) (fuel n : Nat) :
    ∀ d ∈ digitLoop base fuel n, d < base := by
  induction fuel generalizing n with
  | zero => simpa [digitLoop] using Nat.mod_lt n hbase
  | succ fuel ih =>
    intro d hd
    rcases List.mem_cons.mp hd with rfl | hd
    · exact Nat.mod_lt n hbase
    · split at hd
      · cases hd
      · exact ih _ d hd

theorem digitLoop_length (base fuel n : Nat) :
    0 < (digitLoop base fuel n).length ∧ (digitLoop base fuel n).length ≤ fuel + 1 := by
  induction fuel generalizing n with
  | zero => simp [digitLoop]
  | succ fuel ih =>
    rw [digitLoop, List.length_cons]
    split
    · simp
    · have := (ih (n / base)).2
      omega

theorem value_digitLoop {base fuel n : Nat} (h : n < base ^ (fuel + 1)) :
    Radix.value base (digitLoop base fuel n).reverse = n := by
  rw [Radix.value_eq, List.reverse_reverse]
  induction fuel generalizing n with
  | zero =>
    rw [Nat.zero_add, pow_one] at h
    simp [digitLoop, Nat.mod_eq_of_lt h]
  | succ fuel ih =>
    rw [digitLoop, Nat.ofDigits_cons]
    split
    · rename_i hzero
      have hmod := Nat.div_add_mod n base
      rw [hzero] at hmod
      simpa using hmod
    · rw [ih (Nat.div_lt_of_lt_mul (by rwa [pow_succ'] at h)), Nat.add_comm]
      exact Nat.div_add_mod n base

theorem decimalDigits_toNat {d : Nat} (h : d < 10) :
    (decimalDigits.getD d 0).toNat = (ascii '0').toNat + d := by
  have hall : ∀ d : Fin 10, (decimalDigits.getD d 0).toNat = (ascii '0').toNat + d := by decide
  exact hall ⟨d, h⟩

theorem hexValue_hexDigits {d : Nat} (h : d < 16) : hexValue (hexDigits.getD d 0) = some d := by
  have hall : ∀ d : Fin 16, hexValue (hexDigits.getD d 0) = some d.val := by decide
  exact hall ⟨d, h⟩

/-- Digits are read as their number, up to the bound. -/
theorem parseDecimal_digits {ds : List Nat} {maxValue : Nat} (hne : ds ≠ [])
    (hds : ∀ d ∈ ds, d < 10) (hvalue : Radix.value 10 ds ≤ maxValue) :
    parseDecimal (ds.map (decimalDigits.getD · 0)) maxValue = some (Radix.value 10 ds) := by
  unfold parseDecimal
  rw [if_neg (by simpa using hne), List.foldlM_map]
  unfold Radix.value at hvalue ⊢
  generalize 0 = parsed at hvalue
  clear hne
  induction ds generalizing parsed with
  | nil => rfl
  | cons d ds ih =>
    rw [List.forall_mem_cons] at hds
    rw [List.foldl_cons] at hvalue
    have hd := decimalDigits_toNat hds.1
    have hnine : (ascii '9').toNat = (ascii '0').toNat + 9 := rfl
    have hle : parsed * 10 + d ≤ maxValue :=
      (Radix.foldl_ge (by decide) ds (parsed * 10 + d)).trans hvalue
    rw [List.foldlM_cons, List.foldl_cons, hd, if_neg (by omega)]
    dsimp only
    rw [Nat.add_sub_cancel_left, if_neg (by omega)]
    exact ih hds.2 _ hvalue

theorem parseDecimal_write {n maxValue : Nat} (hn : n ≤ maxValue) (hlt : n < 10 ^ 10) : parseDecimal (writeDecimal n) maxValue = some n := by
  have hvalue : Radix.value 10 (digitLoop 10 9 n).reverse = n := value_digitLoop hlt
  have hread := @parseDecimal_digits (digitLoop 10 9 n).reverse maxValue
    (by simpa using List.ne_nil_of_length_pos (digitLoop_length 10 9 n).1)
    (fun d hd => digitLoop_lt (by decide) 9 n d (List.mem_reverse.mp hd)) (by omega)
  rwa [hvalue] at hread

theorem parseHexLoop_digits {ds : List Nat} (hds : ∀ d ∈ ds, d < 16) {count value : Nat}
    (hcount : count + ds.length ≤ 4) (hvalue : ds.foldl (fun n d => n * 16 + d) value < 2 ^ 16) :
    parseHexLoop count (ds.map (hexDigits.getD · 0)) value =
      some (ds.foldl (fun n d => n * 16 + d) value) := by
  induction ds generalizing count value with
  | nil => rfl
  | cons d ds ih =>
    rw [List.forall_mem_cons] at hds
    rw [List.length_cons] at hcount
    rw [List.foldl_cons] at hvalue
    have hlt : value * 16 + d < 2 ^ 16 :=
      (Radix.foldl_ge (by decide) ds (value * 16 + d)).trans_lt hvalue
    have hor : (value <<< 4 ||| d) % 2 ^ 16 = value * 16 + d := by
      rw [shiftLeft_or value hds.1]
      exact Nat.mod_eq_of_lt hlt
    rw [List.map_cons, parseHexLoop, if_neg (by omega), hexValue_hexDigits hds.1]
    dsimp only
    rw [hor]
    exact ih hds.2 (by omega) hvalue

theorem parseHexLoop_write {n : Nat} (h : n < 2 ^ 16) :
    parseHexLoop 0 (writeHexGroup n) 0 = some n := by
  have hvalue : Radix.value 16 (digitLoop 16 3 n).reverse = n := value_digitLoop h
  have hlen := (digitLoop_length 16 3 n).2
  have hread := @parseHexLoop_digits (digitLoop 16 3 n).reverse
    (fun d hd => digitLoop_lt (by decide) 3 n d (List.mem_reverse.mp hd)) 0 0
    (by rw [List.length_reverse]; omega) (by unfold Radix.value at hvalue; omega)
  unfold Radix.value at hvalue
  rwa [hvalue] at hread

/-! ## Written addresses are read back -/

theorem takeWhile_segment {α : Type} {p : α → Bool} {l rest : List α} (hl : ∀ a ∈ l, p a = true)
    (hrest : ∀ a ∈ rest.head?, p a = false) :
    (l ++ rest).takeWhile p = l ∧ (l ++ rest).dropWhile p = rest := by
  induction l with
  | nil =>
    cases rest with
    | nil => exact ⟨rfl, rfl⟩
    | cons a rest =>
      have ha := hrest a rfl
      simp [ha]
  | cons a l ih =>
    rw [List.forall_mem_cons] at hl
    obtain ⟨htake, hdrop⟩ := ih hl.2
    simp [hl.1, htake, hdrop]

/-- The characters of numbers are those of hexadecimal digits. -/
theorem writeDecimal_mem {n : Nat} {c : UInt8} (h : c ∈ writeDecimal n) : c ∈ hexDigits := by
  obtain ⟨d, hd, rfl⟩ := List.mem_map.mp h
  have hall : ∀ d : Fin 10, decimalDigits.getD d 0 ∈ hexDigits := by decide
  exact hall ⟨d, digitLoop_lt (by decide) 9 n d (List.mem_reverse.mp hd)⟩

theorem writeHexGroup_mem {n : Nat} {c : UInt8} (h : c ∈ writeHexGroup n) : c ∈ hexDigits := by
  obtain ⟨d, hd, rfl⟩ := List.mem_map.mp h
  have hall : ∀ d : Fin 16, hexDigits.getD d 0 ∈ hexDigits := by decide
  exact hall ⟨d, digitLoop_lt (by decide) 3 n d (List.mem_reverse.mp hd)⟩

theorem writeHexGroup_ne_nil (n : Nat) : writeHexGroup n ≠ [] := by
  have hpos := (digitLoop_length 16 3 n).1
  intro h
  rw [writeHexGroup, List.map_eq_nil_iff, List.reverse_eq_nil_iff] at h
  rw [h] at hpos
  cases hpos

set_option maxRecDepth 4000 in
/-- No character of a number separates anything. -/
theorem hexDigits_separators {c : UInt8} (h : c ∈ hexDigits) :
    c ≠ ascii '.' ∧ c ≠ ascii ':' ∧ c ≠ ascii '/' := by
  have hall : ∀ c ∈ hexDigits, c ≠ ascii '.' ∧ c ≠ ascii ':' ∧ c ≠ ascii '/' := by decide
  exact hall c h

theorem writeDecimal_ne_nil (n : Nat) : writeDecimal n ≠ [] := by
  have hpos := (digitLoop_length 10 9 n).1
  intro h
  rw [writeDecimal, List.map_eq_nil_iff, List.reverse_eq_nil_iff] at h
  rw [h] at hpos
  cases hpos

theorem parseDecimal_byte (b : UInt8) : parseDecimal (writeDecimal b.toNat) 255 = some b.toNat := by
  have hb := b.toNat_lt
  exact parseDecimal_write (by omega) (by omega)

/-- The parts of a written IPv4 address are read one after another. -/
theorem parseIpv4Loop_part (parts : Nat) (b : UInt8) (rest : Bytes) :
    parseIpv4Loop (parts + 2) (writeDecimal b.toNat ++ ascii '.' :: rest) =
      (parseIpv4Loop (parts + 1) rest).map (b :: ·) := by
  have hdots : ∀ c ∈ writeDecimal b.toNat, decide (c ≠ ascii '.') = true := fun c hc => by
    simpa using (hexDigits_separators (writeDecimal_mem hc)).1
  obtain ⟨htake, hdrop⟩ := @takeWhile_segment _ _ _ (ascii '.' :: rest) hdots (by simp)
  have hne : writeDecimal b.toNat ++ ascii '.' :: rest ≠ [] := by simp
  rw [parseIpv4Loop, if_neg hne, htake, hdrop, parseDecimal_byte]
  dsimp only
  rw [UInt8.ofNat_toNat]
  rfl

theorem parseIpv4Loop_last (b : UInt8) :
    parseIpv4Loop 1 (writeDecimal b.toNat) = some [b] := by
  have hdots : ∀ c ∈ writeDecimal b.toNat, decide (c ≠ ascii '.') = true := fun c hc => by
    simpa using (hexDigits_separators (writeDecimal_mem hc)).1
  obtain ⟨htake, hdrop⟩ := @takeWhile_segment _ _ _ [] hdots (by simp)
  rw [List.append_nil] at htake hdrop
  rw [parseIpv4Loop, if_neg (writeDecimal_ne_nil _), htake, hdrop, parseDecimal_byte]
  simp

theorem writeIpv4_four (a b c d : UInt8) :
    writeIpv4 [a, b, c, d] = writeDecimal a.toNat ++ ascii '.' ::
      (writeDecimal b.toNat ++ ascii '.' :: (writeDecimal c.toNat ++ ascii '.' ::
        writeDecimal d.toNat)) := by
  simp [writeIpv4]

theorem parseIpv4_write {value : Bytes} (h : value.length = 4) :
    parseIpv4 (writeIpv4 value) = some value := by
  obtain ⟨a, b, c, d, rfl⟩ := List.length_eq_four.mp h
  rw [parseIpv4, writeIpv4_four, parseIpv4Loop_part, parseIpv4Loop_part, parseIpv4Loop_part,
    parseIpv4Loop_last]
  rfl

theorem parseIpv4Loop_length {parts : Nat} {text value : Bytes}
    (h : parseIpv4Loop parts text = some value) : value.length = parts := by
  induction parts generalizing text value with
  | zero =>
    cases h
    rfl
  | succ parts ih =>
    unfold parseIpv4Loop at h
    split at h
    · cases h
    split at h
    · cases h
    split at h
    · split at h <;> cases h
      rfl
    · cases h
    · obtain ⟨tail, htail, rfl⟩ := Option.map_eq_some_iff.mp h
      rw [List.length_cons, ih htail]

/-! ## IPv6 -/

/-- Groups behind one another, the first one behind a colon where a separator is needed. -/
def colonJoin : (needSeparator : Bool) → List Nat → Bytes
  | _, [] => []
  | needSeparator, group :: groups =>
    (if needSeparator then [ascii ':'] else []) ++ writeHexGroup group ++ colonJoin true groups

/-- A written group ends at the end of the text or at a colon. -/
theorem takeWhile_group (group : Nat) {rest : Bytes} (hrest : ∀ c ∈ rest.head?, c = ascii ':') :
    (writeHexGroup group ++ rest).takeWhile (fun c => c ≠ ascii ':' ∧ c ≠ ascii '.') =
        writeHexGroup group ∧
      (writeHexGroup group ++ rest).dropWhile (fun c => c ≠ ascii ':' ∧ c ≠ ascii '.') = rest := by
  refine takeWhile_segment (fun c hc => ?_) fun c hc => ?_
  · have hsep := hexDigits_separators (writeHexGroup_mem hc)
    simpa using ⟨hsep.2.1, hsep.1⟩
  · rw [hrest c hc]
    decide

section

variable {fuel group : Nat} {groups : List Nat} {compress : Option Nat}

/-- The last group is read. -/
theorem parseIpv6Loop_last (hgroup : group < 2 ^ 16) (hlen : groups.length < 8) :
    parseIpv6Loop (fuel + 1) groups compress (writeHexGroup group) =
      parseIpv6Finish (groups ++ [group]) compress := by
  obtain ⟨htake, hdrop⟩ := @takeWhile_group group [] (by simp)
  rw [List.append_nil] at htake hdrop
  rw [parseIpv6Loop, if_neg (writeHexGroup_ne_nil group), if_neg (by omega), htake, hdrop]
  dsimp only
  rw [if_neg (by simp), if_neg (writeHexGroup_ne_nil group), parseHexLoop_write hgroup]

/-- A group is read up to a colon. -/
theorem parseIpv6Loop_group {next : UInt8} {rest : Bytes} (hgroup : group < 2 ^ 16)
    (hlen : groups.length < 8) :
    parseIpv6Loop (fuel + 1) groups compress (writeHexGroup group ++ ascii ':' :: next :: rest) =
      if next = ascii ':' then
        if compress.isSome then none
        else parseIpv6Loop fuel (groups ++ [group]) (some (groups ++ [group]).length) rest
      else parseIpv6Loop fuel (groups ++ [group]) compress (next :: rest) := by
  obtain ⟨htake, hdrop⟩ := @takeWhile_group group (ascii ':' :: next :: rest) (by simp)
  have hdot : ascii ':' ≠ ascii '.' := by decide
  rw [parseIpv6Loop, if_neg (by simp), if_neg (by omega), htake, hdrop]
  dsimp only
  rw [List.head?_cons, if_neg (by simpa using hdot), if_neg (writeHexGroup_ne_nil group),
    parseHexLoop_write hgroup]

end

theorem colonJoin_length (sep : Bool) (groups : List Nat) :
    groups.length ≤ (colonJoin sep groups).length := by
  induction groups generalizing sep with
  | nil => simp
  | cons group groups ih =>
    have hpos := List.length_pos_of_ne_nil (writeHexGroup_ne_nil group)
    have hrest := ih true
    rw [colonJoin, List.length_append, List.length_append, List.length_cons]
    omega

theorem colonJoin_head (group : Nat) (groups : List Nat) :
    ∃ c text, colonJoin false (group :: groups) = c :: text ∧ c ≠ ascii ':' := by
  have hne := writeHexGroup_ne_nil group
  cases htext : writeHexGroup group with
  | nil => exact absurd htext hne
  | cons c text =>
    have hc : c ∈ writeHexGroup group := by rw [htext]; exact List.mem_cons_self
    exact ⟨c, text ++ colonJoin true groups, by simp [colonJoin, htext],
      (hexDigits_separators (writeHexGroup_mem hc)).2.1⟩

/-- Groups to the end of the text are read. -/
theorem parseIpv6Loop_join {gs : List Nat} (hgs : ∀ g ∈ gs, g < 2 ^ 16) {fuel : Nat}
    {groups : List Nat} (compress : Option Nat) (hfuel : gs.length < fuel)
    (hlen : groups.length + gs.length ≤ 8) :
    parseIpv6Loop fuel groups compress (colonJoin false gs) =
      parseIpv6Finish (groups ++ gs) compress := by
  induction gs generalizing fuel groups with
  | nil =>
    obtain ⟨fuel, rfl⟩ := Nat.exists_eq_succ_of_ne_zero (Nat.ne_of_gt hfuel)
    rw [colonJoin, parseIpv6Loop, if_pos rfl, List.append_nil]
  | cons g gs ih =>
    obtain ⟨fuel, rfl⟩ := Nat.exists_eq_succ_of_ne_zero (Nat.ne_of_gt (Nat.zero_lt_of_lt hfuel))
    rw [List.forall_mem_cons] at hgs
    rw [List.length_cons] at hfuel hlen
    have htext : colonJoin false (g :: gs) = writeHexGroup g ++ colonJoin true gs := by
      simp [colonJoin]
    cases gs with
    | nil =>
      rw [htext, colonJoin, List.append_nil, parseIpv6Loop_last hgs.1 (by omega)]
    | cons g' gs =>
      obtain ⟨c, text, hjoin, hc⟩ := colonJoin_head g' gs
      have htail : colonJoin true (g' :: gs) = ascii ':' :: c :: text := by
        rw [← hjoin]
        simp [colonJoin]
      rw [htext, htail, parseIpv6Loop_group hgs.1 (by omega), if_neg hc, ← hjoin,
        ih hgs.2 (by omega) (by rw [List.length_append, List.length_singleton]; omega),
        List.append_assoc, List.singleton_append]

/-- Groups up to a run of zeros are read, and those behind it. -/
theorem parseIpv6Loop_run {pre post : List Nat} (hpre : ∀ g ∈ pre, g < 2 ^ 16)
    (hpost : ∀ g ∈ post, g < 2 ^ 16) (hne : pre ≠ []) {fuel : Nat} {groups : List Nat}
    (hfuel : pre.length + post.length < fuel)
    (hlen : groups.length + pre.length + post.length ≤ 8) :
    parseIpv6Loop fuel groups none
        (colonJoin false pre ++ ascii ':' :: ascii ':' :: colonJoin false post) =
      parseIpv6Finish (groups ++ pre ++ post) (some (groups ++ pre).length) := by
  induction pre generalizing fuel groups with
  | nil => exact absurd rfl hne
  | cons g gs ih =>
    obtain ⟨fuel, rfl⟩ := Nat.exists_eq_succ_of_ne_zero (Nat.ne_of_gt (Nat.zero_lt_of_lt hfuel))
    rw [List.forall_mem_cons] at hpre
    rw [List.length_cons] at hfuel hlen
    have htext : colonJoin false (g :: gs) = writeHexGroup g ++ colonJoin true gs := by
      simp [colonJoin]
    cases gs with
    | nil =>
      rw [htext, colonJoin, List.append_nil, parseIpv6Loop_group hpre.1 (by omega),
        if_pos rfl, if_neg (by simp)]
      rw [List.length_nil] at hfuel hlen
      exact parseIpv6Loop_join hpost _ (by omega)
        (by rw [List.length_append, List.length_singleton]; omega)
    | cons g' gs =>
      obtain ⟨c, text, hjoin, hc⟩ := colonJoin_head g' gs
      have htail : colonJoin true (g' :: gs) = ascii ':' :: c :: text := by
        rw [← hjoin]
        simp [colonJoin]
      rw [htext, htail, List.append_assoc, List.cons_append, List.cons_append,
        parseIpv6Loop_group hpre.1 (by omega), if_neg hc, ← List.cons_append, ← hjoin,
        ih hpre.2 (by simp) (by omega)
          (by rw [List.length_append, List.length_singleton]; omega)]
      simp

/-- Without a run ahead, the groups that are left are written. -/
theorem writeIpv6Loop_join (hlen : groups.length = 8)
    {fuel index : Nat} (hbest : best.2 = 0 ∨ best.1 < index) (hfuel : 8 ≤ index + fuel)
    (sep : Bool) : writeIpv6Loop best groups fuel index sep = colonJoin sep (groups.drop index) := by
  induction fuel generalizing index sep with
  | zero =>
    rw [List.drop_eq_nil_of_le (by omega)]
    rfl
  | succ fuel ih =>
    unfold writeIpv6Loop
    by_cases hend : 8 ≤ index
    · rw [if_pos hend, List.drop_eq_nil_of_le (by omega)]
      rfl
    · rw [if_neg hend, if_neg (by omega), ih (by omega) (by omega),
        List.drop_eq_getElem_cons (by omega : index < groups.length), colonJoin,
        List.getD_eq_getElem _ _ (by omega)]

/-- The groups up to the run are written, two colons and the groups behind it. -/
theorem writeIpv6Loop_run (hlen : groups.length = 8)
    (hbest : best.2 ≠ 0) (hfits : best.1 + best.2 ≤ 8) {fuel index : Nat} (hindex : index ≤ best.1)
    (hfuel : 8 ≤ index + fuel) (sep : Bool) :
    writeIpv6Loop best groups fuel index sep =
      colonJoin sep ((groups.take best.1).drop index) ++
        ascii ':' :: ascii ':' :: colonJoin false (groups.drop (best.1 + best.2)) := by
  induction fuel generalizing index sep with
  | zero => omega
  | succ fuel ih =>
    unfold writeIpv6Loop
    rw [if_neg (by omega)]
    by_cases hstart : index = best.1
    · have htake : (groups.take best.1).drop index = [] :=
        List.drop_eq_nil_of_le (by rw [List.length_take]; omega)
      rw [if_pos ⟨hbest, hstart⟩, htake, hstart,
        writeIpv6Loop_join hlen (.inr (by omega)) (by omega)]
      rfl
    · have htake : index < (groups.take best.1).length := by
        rw [List.length_take]
        omega
      rw [if_neg (by omega), ih (by omega) (by omega), List.drop_eq_getElem_cons htake, colonJoin,
        List.getElem_take, List.getD_eq_getElem _ _ (by omega)]
      simp only [List.append_assoc]

/-- A run of zero groups. -/
def ZeroRun (groups : List Nat) (run : Nat × Nat) : Prop :=
  run.1 + run.2 ≤ groups.length ∧ ∀ i, run.1 ≤ i → i < run.1 + run.2 → groups[i]? = some 0

theorem ZeroRun.empty (groups : List Nat) : ZeroRun groups (0, 0) :=
  ⟨Nat.zero_le _, fun _ _ hi => absurd hi (Nat.not_lt_zero _)⟩

/-- The search keeps the best run and, where it is in one, the current run up to its index. -/
theorem bestRunLoop_zeroRun {groups done left : List Nat} (hgroups : groups = done ++ left)
    {best current : Nat × Nat} (hbest : ZeroRun groups best)
    (hcurrent : current.2 ≠ 0 → ZeroRun groups current ∧ current.1 + current.2 = done.length) :
    ZeroRun groups (bestRunLoop left done.length best current) := by
  induction left generalizing done best current with
  | nil =>
    unfold bestRunLoop
    split
    · exact (hcurrent (by omega)).1
    · exact hbest
  | cons group left ih =>
    have hnext : groups = (done ++ [group]) ++ left := by rw [hgroups]; simp
    have hlen : (done ++ [group]).length = done.length + 1 := by simp
    unfold bestRunLoop
    rw [← hlen]
    split
    · rename_i hzero
      refine ih hnext hbest fun _ => ?_
      have hhere : groups[done.length]? = some 0 := by
        rw [hgroups, List.getElem?_append_right le_rfl, Nat.sub_self, hzero]
        rfl
      have hroom : done.length + 1 ≤ groups.length := by
        rw [hgroups, List.length_append, List.length_cons]
        omega
      rw [hlen]
      by_cases hfirst : current.2 = 0
      · rw [if_pos hfirst, hfirst]
        refine ⟨⟨hroom, fun i hi hi' => ?_⟩, rfl⟩
        have heq : i = done.length := by
          dsimp only at hi hi'
          omega
        rw [heq, hhere]
      · rw [if_neg hfirst]
        obtain ⟨hrun, hend⟩ := hcurrent hfirst
        refine ⟨⟨by dsimp only; omega, fun i hi hi' => ?_⟩, by dsimp only; omega⟩
        dsimp only at hi hi'
        by_cases hlast : i = done.length
        · rw [hlast, hhere]
        · exact hrun.2 i hi (by omega)
    · refine ih hnext ?_ fun h => absurd rfl h
      split
      · exact (hcurrent (by omega)).1
      · exact hbest

theorem bestRun_zeroRun (groups : List Nat) : ZeroRun groups (bestRun groups) := by
  unfold bestRun
  dsimp only
  split
  · exact .empty groups
  · exact @bestRunLoop_zeroRun groups [] groups rfl _ _ (.empty groups) fun h => absurd rfl h

/-- Putting the zeros of a run back gives the groups. -/
theorem ZeroRun.finish {run : Nat × Nat} (h : ZeroRun groups run) (hlen : groups.length = 8) :
    parseIpv6Finish (groups.take run.1 ++ groups.drop (run.1 + run.2)) (some run.1) =
      some groups := by
  have hfits := h.1
  have hlength : (groups.take run.1 ++ groups.drop (run.1 + run.2)).length = 8 - run.2 := by
    rw [List.length_append, List.length_take, List.length_drop]
    omega
  have htake : (groups.take run.1).length = run.1 := by
    rw [List.length_take]
    omega
  have hzeros : (groups.drop run.1).take run.2 = List.replicate run.2 0 := by
    refine List.ext_getElem (by simp; omega) fun i hi hi' => ?_
    rw [List.length_replicate] at hi'
    have hzero := h.2 (run.1 + i) (by omega) (by omega)
    rw [List.getElem_take, List.getElem_drop, List.getElem_replicate]
    rw [List.getElem?_eq_getElem (by omega)] at hzero
    exact Option.some.inj hzero
  unfold parseIpv6Finish
  rw [hlength]
  dsimp only
  have hroom : 8 - (8 - run.2) = run.2 := by omega
  rw [if_neg (by omega), hroom, List.take_left' htake, List.drop_left' htake, ← hzeros,
    ← List.drop_drop, List.append_assoc, List.take_append_drop, List.take_append_drop]

theorem ipv6Groups_lt (value : Bytes) : ∀ g ∈ ipv6Groups value, g < 2 ^ 16 := by
  induction value using ipv6Groups.induct with
  | case1 high low rest ih =>
    have hhigh := high.toNat_lt
    have hlow := low.toNat_lt
    rw [ipv6Groups, List.forall_mem_cons]
    refine ⟨?_, ih⟩
    rw [shiftLeft_or _ (by omega)]
    omega
  | case2 value h =>
    intro g hg
    rw [ipv6Groups] at hg
    · cases hg
    · exact h

/-- A number of two bytes is split into them. -/
theorem split_bytes (high low : UInt8) :
    UInt8.ofNat ((high.toNat * 256 + low.toNat) >>> 8) = high ∧
      UInt8.ofNat ((high.toNat * 256 + low.toNat) &&& 0xff) = low := by
  have hhigh := high.toNat_lt
  have hlow := low.toNat_lt
  have hand : (high.toNat * 256 + low.toNat) &&& 0xff = low.toNat := by
    rw [show (0xff : Nat) = 2 ^ 8 - 1 from rfl, Nat.and_two_pow_sub_one_eq_mod]
    omega
  refine ⟨?_, by rw [hand, UInt8.ofNat_toNat]⟩
  rw [Nat.shiftRight_eq_div_pow]
  refine UInt8.toNat_inj.mp ?_
  rw [ofNat_toNat_lt (by omega)]
  omega

theorem ipv6Groups_length (n : Nat) {value : Bytes} (h : value.length = 2 * n) :
    (ipv6Groups value).length = n ∧ (ipv6Groups value).flatMap (fun group =>
      [UInt8.ofNat (group >>> 8), UInt8.ofNat (group &&& 0xff)]) = value := by
  induction n generalizing value with
  | zero =>
    obtain rfl := List.length_eq_zero_iff.mp h
    exact ⟨rfl, rfl⟩
  | succ n ih =>
    rcases value with _ | ⟨high, _ | ⟨low, rest⟩⟩
    · simp at h
    · simp at h
      omega
    · obtain ⟨hlen, hbytes⟩ := @ih rest (by simp at h; omega)
      have hlow := low.toNat_lt
      have hgroup : high.toNat <<< 8 ||| low.toNat = high.toNat * 256 + low.toNat :=
        shiftLeft_or _ (by omega)
      obtain ⟨hfirst, hsecond⟩ := split_bytes high low
      rw [ipv6Groups, List.length_cons, hlen, List.flatMap_cons, hbytes, hgroup, hfirst, hsecond]
      exact ⟨rfl, rfl⟩

/-- A written address is read back. -/
theorem parseIpv6_write {value : Bytes} (h : value.length = 16) :
    parseIpv6 (writeIpv6 value) = some value := by
  obtain ⟨hlen, hbytes⟩ := ipv6Groups_length 8 h
  have hlt := ipv6Groups_lt value
  have hrun := bestRun_zeroRun (ipv6Groups value)
  unfold writeIpv6
  dsimp only
  generalize ipv6Groups value = groups at hlen hbytes hlt hrun
  generalize bestRun groups = best at hrun
  rw [← hbytes]
  have hfinish := hrun.finish hlen
  have hfits := hrun.1
  by_cases hbest : best.2 = 0
  · obtain ⟨g, gs, rfl⟩ := List.exists_cons_of_length_pos (by omega : 0 < groups.length)
    obtain ⟨c, text, hjoin, hc⟩ := colonJoin_head g gs
    have hfuel := colonJoin_length false (g :: gs)
    rw [writeIpv6Loop_join hlen (.inl hbest) (by omega), List.drop_zero, hjoin]
    unfold parseIpv6
    dsimp only
    rw [if_neg hc, ← hjoin, parseIpv6Loop_join hlt none (by omega) (by simpa using hlen.le),
      List.nil_append, parseIpv6Finish, if_neg (by simpa using hlen)]
    rfl
  · rw [writeIpv6Loop_run hlen hbest (by omega) (Nat.zero_le _) (by omega), List.drop_zero]
    have hpost : ∀ g ∈ groups.drop (best.1 + best.2), g < 2 ^ 16 := fun g hg =>
      hlt g (List.mem_of_mem_drop hg)
    have hpre : ∀ g ∈ groups.take best.1, g < 2 ^ 16 := fun g hg =>
      hlt g (List.mem_of_mem_take hg)
    have htake : (groups.take best.1).length = best.1 := by
      rw [List.length_take]
      omega
    have hdrop : (groups.drop (best.1 + best.2)).length = 8 - (best.1 + best.2) := by
      rw [List.length_drop, hlen]
    have hpreText := colonJoin_length false (groups.take best.1)
    have hpostText := colonJoin_length false (groups.drop (best.1 + best.2))
    by_cases hfirst : groups.take best.1 = []
    · -- the run comes first, so the text starts with its colons
      rw [hfirst] at htake hfinish ⊢
      rw [List.length_nil] at htake
      rw [← htake] at hfinish
      unfold parseIpv6
      dsimp only [colonJoin, List.nil_append]
      rw [if_pos rfl, if_neg (by simp),
        parseIpv6Loop_join hpost _ (by simp only [List.length_cons]; omega)
          (by rw [List.length_nil]; omega)]
      rw [← htake, hfinish]
      rfl
    · obtain ⟨g, gs, hcons⟩ := List.exists_cons_of_ne_nil hfirst
      obtain ⟨c, text, hjoin, hc⟩ := colonJoin_head g gs
      have hparse := @parseIpv6Loop_run _ _ hpre hpost hfirst
        ((colonJoin false (groups.take best.1) ++ ascii ':' :: ascii ':' ::
          colonJoin false (groups.drop (best.1 + best.2))).length + 1) []
        (by rw [List.length_append, List.length_cons, List.length_cons]; omega)
        (by rw [List.length_nil]; omega)
      rw [List.nil_append, htake, hfinish] at hparse
      rw [hcons, hjoin, List.cons_append] at hparse ⊢
      unfold parseIpv6
      dsimp only
      rw [if_neg hc, hparse]
      rfl

theorem parseIpv6Finish_length {groups result : List Nat} {compress : Option Nat}
    (h : parseIpv6Finish groups compress = some result) : result.length = 8 := by
  unfold parseIpv6Finish at h
  split at h
  · rename_i index
    split at h <;> cases h
    have hsplit := congrArg List.length (List.take_append_drop index groups)
    rw [List.length_append] at hsplit
    simp only [List.length_append, List.length_replicate]
    omega
  · split at h <;> cases h
    omega

theorem parseIpv6Loop_length {fuel : Nat} {groups result : List Nat} {compress : Option Nat}
    {text : Bytes} (h : parseIpv6Loop fuel groups compress text = some result) :
    result.length = 8 := by
  induction fuel generalizing groups compress text with
  | zero => cases h
  | succ fuel ih =>
    unfold parseIpv6Loop at h
    split at h
    · exact parseIpv6Finish_length h
    split at h
    · cases h
    dsimp only at h
    split at h
    · split at h
      · cases h
      split at h
      · exact parseIpv6Finish_length h
      · cases h
    split at h
    · cases h
    split at h
    · cases h
    split at h
    · exact parseIpv6Finish_length h
    · cases h
    · split at h
      · split at h
        · cases h
        · exact ih h
      · exact ih h

theorem flatMap_bytes_length (groups : List Nat) :
    (groups.flatMap fun group => [UInt8.ofNat (group >>> 8), UInt8.ofNat (group &&& 0xff)]).length =
      2 * groups.length := by
  induction groups with
  | nil => rfl
  | cons group groups ih =>
    rw [List.flatMap_cons, List.length_append, ih]
    simp only [List.length_cons, List.length_nil]
    omega

theorem parseIpv6_length {text value : Bytes} (h : parseIpv6 text = some value) :
    value.length = 16 := by
  unfold parseIpv6 at h
  obtain ⟨groups, hgroups, rfl⟩ := Option.map_eq_some_iff.mp h
  rw [flatMap_bytes_length]
  cases text with
  | nil => cases hgroups
  | cons first rest =>
    dsimp only at hgroups
    split at hgroups
    · split at hgroups
      · cases hgroups
      split at hgroups
      · cases hgroups
      · rw [parseIpv6Loop_length hgroups]
    · rw [parseIpv6Loop_length hgroups]

/-- The characters of the written addresses. -/
theorem writeIpv4_mem {value : Bytes} (hlen : value.length = 4) {c : UInt8}
    (h : c ∈ writeIpv4 value) : c ∈ hexDigits ∨ c = ascii '.' := by
  obtain ⟨b0, b1, b2, b3, rfl⟩ := List.length_eq_four.mp hlen
  rw [writeIpv4_four] at h
  simp only [List.mem_append, List.mem_cons] at h
  obtain h | h | h | h | h | h | h := h
  · exact .inl (writeDecimal_mem h)
  · exact .inr h
  · exact .inl (writeDecimal_mem h)
  · exact .inr h
  · exact .inl (writeDecimal_mem h)
  · exact .inr h
  · exact .inl (writeDecimal_mem h)

theorem writeIpv6Loop_mem {fuel index : Nat} {sep : Bool}
    {c : UInt8} (h : c ∈ writeIpv6Loop best groups fuel index sep) :
    c ∈ hexDigits ∨ c = ascii ':' := by
  induction fuel generalizing index sep with
  | zero => cases h
  | succ fuel ih =>
    unfold writeIpv6Loop at h
    split at h
    · cases h
    split at h
    · rcases List.mem_cons.mp h with rfl | h
      · exact .inr rfl
      rcases List.mem_cons.mp h with rfl | h
      · exact .inr rfl
      · exact ih h
    · rcases List.mem_append.mp h with h | h
      · rcases List.mem_append.mp h with h | h
        · split at h
          · exact .inr (List.mem_singleton.mp h)
          · cases h
        · exact .inl (writeHexGroup_mem h)
      · exact ih h

end LeanLibp2p
