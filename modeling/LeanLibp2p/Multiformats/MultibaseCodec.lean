import LeanLibp2p.Multiformats.Multibase

/-!
# Multibase as a codec

`multibase.c`: `libp2p_multibase_encode` and `libp2p_multibase_decode` are inverse to each other, the
decoder accepts the texts of the encoder and no others, and the sizes that the library announces are
enough. base58btc is also run in the caller's buffer, cell by cell.
-/

namespace LeanLibp2p

open LeanLibp2p.Lib

/-- `libp2p_multibase_t`. -/
inductive MultibaseBase where
  | base58btc
  | base64url
  deriving DecidableEq, Repr

variable (base : MultibaseBase) (bytes : Bytes)

/-- `libp2p_multibase_encode` (`multibase.c:805-834`). -/
def multibaseEncode (input : Bytes) (outLen : Nat) : Except MultibaseErr Bytes × Nat :=
  match base with
  | .base58btc => multibaseEncodeBase58btc input outLen
  | .base64url => multibaseEncodeBase64url input outLen

/-! ## Sizes -/

/-- `multibase_add_overflow` (`multibase.c:19-34`). -/
def multibaseAddOverflow (a b : Nat) : Option Nat :=
  if sizeMax - a < b then none else some (a + b)

/-- `multibase_mul_overflow` (`multibase.c:36-51`). -/
def multibaseMulOverflow (a b : Nat) : Option Nat :=
  if a ≠ 0 ∧ sizeMax / a < b then none else some (a * b)

/-- `multibase_base58_encoded_upper_bound` (`multibase.c:53-73`). -/
def base58EncodedUpperBound (inLen : Nat) : Nat :=
  if inLen = 0 then 0
  else
    match multibaseMulOverflow inLen 138 with
    | none => sizeMax
    | some scaled => scaled / 100 + 1

/-- `multibase_base64_encoded_exact_size` (`multibase.c:75-107`), which saturates. -/
def base64EncodedSize (inLen : Nat) : Nat :=
  match multibaseMulOverflow (inLen / 3) 4 with
  | none => sizeMax
  | some total =>
    if inLen % 3 = 0 then total
    else if inLen % 3 = 1 then (multibaseAddOverflow total 2).getD sizeMax
    else (multibaseAddOverflow total 3).getD sizeMax

/-- `multibase_base64_decoded_upper_bound` (`multibase.c:109-126`). -/
def base64DecodedUpperBound (textLen : Nat) : Nat :=
  match multibaseAddOverflow textLen 3 with
  | none => sizeMax
  | some groups => (multibaseMulOverflow (groups / 4) 3).getD sizeMax

/-- `libp2p_multibase_encoded_size` (`multibase.c:886-935`). -/
def multibaseEncodedSize (inLen : Nat) : Nat :=
  let payloadLen :=
    match base with
    | .base58btc => base58EncodedUpperBound inLen
    | .base64url => base64EncodedSize inLen
  (multibaseAddOverflow 1 payloadLen).getD sizeMax

/-- `libp2p_multibase_max_decoded_size` (`multibase.c:937-970`) of a text without its prefix. -/
def multibaseMaxDecodedSize (textLen : Nat) : Nat :=
  match base with
  | .base58btc => textLen
  | .base64url => base64DecodedUpperBound textLen

/-! ## base58btc in the caller's buffer -/

/-- `multibase_encode_base58btc` (`multibase.c:396-557`) on the cells of `out`: the cells in the end,
    and how many of them are the text. -/
def encodeBase58btcAt (input : Bytes) (out : List Nat) : Option (List Nat × Nat) :=
  let zeros := zeroCount input
  if zeros = input.length then
    if out.length < 1 + zeros then none
    else
      some (Radix.moveAt (fun _ => (ascii '1').toNat) 0 zeros 1 (out.set 0 (ascii 'z').toNat), 1 + zeros)
  else
    let scratchOffset := 1 + zeros
    if out.length ≤ scratchOffset then none
    else
      let capacity := out.length - scratchOffset
      let cleared := Radix.moveAt (fun _ => 0) 0 capacity scratchOffset out
      match (input.drop zeros).foldlM (fun run byte =>
          Radix.mulAddAt 58 256 scratchOffset run.2 capacity run.1 byte.toNat 0) (cleared, 0) with
      | none => none
      | some run =>
        let prefixed :=
          Radix.moveAt (fun _ => (ascii '1').toNat) 0 zeros 1 (run.1.set 0 (ascii 'z').toNat)
        some (Radix.moveAt (fun digit => (base58btcAlphabet.getD digit 0).toNat) (capacity - run.2) run.2
          scratchOffset prefixed, scratchOffset + run.2)

/-- The loop of `multibase_decode_base58btc` over the characters, on the cells of `out`. -/
def base58DecodeLoopAt (outLen : Nat) :
    Bytes → Option (List Nat × Nat) → Except MultibaseErr (Option (List Nat × Nat))
  | [], run => .ok run
  | character :: text, run =>
    match base58Value character with
    | none => .error .invalidCharacter
    | some value =>
      base58DecodeLoopAt outLen text
        (run.bind fun run => Radix.mulAddAt 256 58 0 run.2 outLen run.1 value 0)

/-- `multibase_decode_base58btc` (`multibase.c:694-803`) on the cells of `out`. -/
def decodeBase58btcAt (payload : Bytes) (out : List Nat) : Except MultibaseErr (List Nat × Nat) :=
  let zeros := (payload.takeWhile (· = ascii '1')).length
  match base58DecodeLoopAt out.length (payload.drop zeros)
      (some (List.replicate out.length 0, 0)) with
  | .error e => .error e
  | .ok none => .error .bufTooSmall
  | .ok (some run) =>
    if out.length < zeros + run.2 then .error .bufTooSmall
    else
      let moved := Radix.moveAt id (out.length - run.2 - zeros) run.2 zeros run.1
      .ok (Radix.moveAt (fun _ => 0) 0 zeros 0 moved, zeros + run.2)

/-- Each step of a fold keeps the cells that store the digits. -/
theorem foldlM_mulAddAt (b m : Nat) (front : List Nat) (room : Nat) (input : Bytes) :
    ∀ digits : List Nat, digits.length ≤ room →
      input.foldlM (fun run byte =>
          Radix.mulAddAt b m front.length run.2 room run.1 byte.toNat 0)
          (front ++ Radix.stored room digits, digits.length) =
        (input.foldlM (fun digits byte => Radix.mulAdd b m room digits byte.toNat) digits).map
          fun new => (front ++ Radix.stored room new, new.length) := by
  induction input with
  | nil => exact fun digits _ => rfl
  | cons byte input ih =>
    intro digits hdigits
    have hstep := @Radix.mulAddAt_stored b m front digits.length room digits [] byte.toNat hdigits rfl
    simp only [List.reverse_nil, List.append_nil, List.length_nil, Nat.zero_add] at hstep
    simp only [List.foldlM_cons, hstep]
    cases hnew : Radix.mulAdd b m room digits byte.toNat with
    | none => rfl
    | some new => exact ih new (Radix.mulAdd_length_le room hnew)

theorem foldlM_mulAdd_length (b m room : Nat) (input : Bytes) :
    ∀ {digits new : List Nat}, digits.length ≤ room →
      input.foldlM (fun digits byte => Radix.mulAdd b m room digits byte.toNat) digits = some new →
      new.length ≤ room := by
  induction input with
  | nil =>
    intro digits new hdigits h
    cases h
    exact hdigits
  | cons byte input ih =>
    intro digits new hdigits h
    rw [List.foldlM_cons] at h
    cases hstep : Radix.mulAdd b m room digits byte.toNat with
    | none =>
      rw [hstep] at h
      cases h
    | some next =>
      rw [hstep] at h
      exact ih (Radix.mulAdd_length_le room hstep) h

/-- The prefix and the leading characters of a text, over whatever the cells held. -/
theorem moveAt_prefixed (zeros : Nat) {out : List Nat} (h : 1 + zeros ≤ out.length) :
    Radix.moveAt (fun _ => (ascii '1').toNat) 0 zeros 1 (out.set 0 (ascii 'z').toNat) =
      (ascii 'z').toNat :: List.replicate zeros (ascii '1').toNat ++ out.drop (1 + zeros) := by
  obtain ⟨cell, cells, rfl⟩ := List.exists_cons_of_ne_nil (List.ne_nil_of_length_pos
    (show 0 < out.length by omega))
  have hlen : (cells.take zeros).length = zeros := by
    rw [List.length_take]
    rw [List.length_cons] at h
    omega
  have hfill := Radix.moveAt_fill (ascii '1').toNat [(ascii 'z').toNat] (cells.take zeros)
    (cells.drop zeros)
  rw [hlen, List.take_append_drop, List.length_singleton, List.singleton_append] at hfill
  rw [List.set_cons_zero, hfill, Nat.add_comm 1, List.drop_succ_cons]
  rfl

/-- In the buffer the encoder does what it does on digits: where there is room the first cells are
    the text, and else it fails. -/
theorem encodeBase58btcAt_eq (input : Bytes) (out : List Nat) :
    (∀ text, (multibaseEncodeBase58btc input out.length).1 = .ok text →
      ∃ rest, encodeBase58btcAt input out = some (text.map UInt8.toNat ++ rest, text.length) ∧
        text.length + rest.length = out.length) ∧
    ∀ e, (multibaseEncodeBase58btc input out.length).1 = .error e →
      encodeBase58btcAt input out = none := by
  unfold multibaseEncodeBase58btc encodeBase58btcAt
  dsimp only
  by_cases hzeros : zeroCount input = input.length
  · rw [if_pos hzeros, if_pos hzeros]
    by_cases hroom : out.length < 1 + zeroCount input
    · rw [if_pos hroom, if_pos hroom]
      exact ⟨fun text h => (by cases h), fun _ _ => rfl⟩
    · rw [if_neg hroom, if_neg hroom]
      refine ⟨fun text h => ?_, fun e h => (by cases h)⟩
      cases h
      refine ⟨out.drop (1 + zeroCount input), ?_, ?_⟩
      · rw [moveAt_prefixed _ (by omega), List.map_cons, List.map_replicate, List.length_cons,
          List.length_replicate, Nat.add_comm 1]
      · simp only [List.length_cons, List.length_replicate, List.length_drop]
        omega
  · rw [if_neg hzeros, if_neg hzeros]
    by_cases hroom : out.length ≤ 1 + zeroCount input
    · rw [if_pos hroom, if_pos hroom]
      exact ⟨fun text h => (by cases h), fun _ _ => rfl⟩
    rw [if_neg hroom, if_neg hroom]
    obtain ⟨front, back, rfl, hfront⟩ : ∃ front back : List Nat, out = front ++ back ∧
        front.length = 1 + zeroCount input :=
      ⟨out.take (1 + zeroCount input), out.drop (1 + zeroCount input),
        (List.take_append_drop _ _).symm, by rw [List.length_take]; omega⟩
    have hcapacity : (front ++ back).length - (1 + zeroCount input) = back.length := by
      rw [List.length_append]
      omega
    have hclear := Radix.moveAt_fill 0 front back []
    rw [List.append_nil, List.append_nil, ← Radix.stored_nil, hfront] at hclear
    have hfold := foldlM_mulAddAt 58 256 front back.length (input.drop (zeroCount input)) []
      (Nat.zero_le _)
    rw [List.length_nil, hfront] at hfold
    rw [hcapacity, hclear, hfold]
    cases hdigits : (input.drop (zeroCount input)).foldlM
        (fun digits byte => Radix.mulAdd 58 256 back.length digits byte.toNat) [] with
    | none => exact ⟨fun text h => (by cases h), fun _ _ => rfl⟩
    | some digits =>
      have hlen := foldlM_mulAdd_length 58 256 back.length _ (Nat.zero_le _) hdigits
      refine ⟨fun text h => ?_, fun e h => (by cases h)⟩
      cases h
      have hstored : Radix.stored back.length digits =
          List.replicate (back.length - digits.length) 0 ++ digits.reverse := by
        simp [Radix.stored]
      have hprefixed := moveAt_prefixed (zeroCount input)
        (show 1 + zeroCount input ≤ (front ++ Radix.stored back.length digits).length by
          rw [List.length_append]; omega)
      rw [List.drop_left' hfront, hstored] at hprefixed
      obtain ⟨rest, hrest, hmove⟩ := Radix.moveAt_eq
        (fun digit => (base58btcAlphabet.getD digit 0).toNat) digits.reverse
        ((ascii 'z').toNat :: List.replicate (zeroCount input) (ascii '1').toNat)
        (List.replicate (back.length - digits.length) 0)
      have hhead : ((ascii 'z').toNat ::
          List.replicate (zeroCount input) (ascii '1').toNat).length = 1 + zeroCount input := by
        rw [List.length_cons, List.length_replicate, Nat.add_comm]
      rw [hhead, List.length_replicate, List.length_reverse] at hmove
      rw [List.length_replicate] at hrest
      refine ⟨rest, ?_, ?_⟩
      · simp only [Option.map_some, hstored]
        rw [hprefixed, hmove]
        simp only [List.map_cons, List.map_append, List.map_replicate, List.map_map,
          List.length_cons, List.length_append, List.length_replicate, List.length_map,
          List.length_reverse, List.cons_append, List.append_assoc, Option.some.injEq,
          Prod.mk.injEq]
        exact ⟨rfl, by omega⟩
      · simp only [List.length_cons, List.length_append, List.length_replicate, List.length_map,
          List.length_reverse, hrest, hfront]
        omega

/-- The cells that store the digits, and how many there are. -/
def storedRun (outLen : Nat) (digits : List Nat) : List Nat × Nat :=
  (Radix.stored outLen digits, digits.length)

theorem base58DecodeLoopAt_eq (outLen : Nat) (text : Bytes) :
    ∀ used : Option (List Nat), (∀ digits ∈ used, digits.length ≤ outLen) →
      base58DecodeLoopAt outLen text (used.map (storedRun outLen)) =
        (base58DecodeLoop outLen text used).map fun used => used.map (storedRun outLen) := by
  induction text with
  | nil => exact fun used _ => rfl
  | cons character text ih =>
    intro used hused
    unfold base58DecodeLoopAt base58DecodeLoop
    cases hvalue : base58Value character with
    | none => rfl
    | some value =>
      cases used with
      | none => exact ih none (fun _ h => by cases h)
      | some digits =>
        have hstep := @Radix.mulAddAt_stored 256 58 [] digits.length outLen digits [] value
          (hused digits rfl) rfl
        simp only [List.nil_append, List.reverse_nil, List.append_nil, List.length_nil,
          Nat.zero_add] at hstep
        simp only [Option.map_some, Option.bind_some, storedRun, hstep]
        exact ih _ fun new hnew => Radix.mulAdd_length_le outLen hnew

/-- In the buffer the decoder does what it does on digits. -/
theorem decodeBase58btcAt_eq (payload : Bytes) (out : List Nat) :
    (∀ bytes, (multibaseDecodeBase58btc payload out.length).1 = .ok bytes →
      ∃ cells, decodeBase58btcAt payload out = .ok (cells, bytes.length) ∧
        (cells.take bytes.length).map UInt8.ofNat = bytes) ∧
    ∀ e, (multibaseDecodeBase58btc payload out.length).1 = .error e →
      decodeBase58btcAt payload out = .error e := by
  have hloop := base58DecodeLoopAt_eq out.length
    (payload.drop (payload.takeWhile (· = ascii '1')).length) (some [])
    (fun digits h => by cases h; exact Nat.zero_le _)
  rw [Option.map_some, storedRun, Radix.stored_nil, List.length_nil] at hloop
  unfold multibaseDecodeBase58btc decodeBase58btcAt
  dsimp only
  rw [hloop]
  generalize hzeros : (payload.takeWhile (· = ascii '1')).length = zeros
  rw [hzeros] at hloop
  cases hdigits : base58DecodeLoop out.length (payload.drop zeros) (some []) with
  | error e =>
    refine ⟨fun bytes h => (by cases h), fun e' h => ?_⟩
    cases h
    rfl
  | ok used =>
    cases used with
    | none =>
      refine ⟨fun bytes h => (by cases h), fun e' h => ?_⟩
      cases h
      rfl
    | some digits =>
      simp only [Except.map, Option.map_some, storedRun]
      by_cases hroom : out.length < zeros + digits.length
      · rw [if_pos hroom, if_pos hroom]
        refine ⟨fun bytes h => (by cases h), fun e' h => ?_⟩
        cases h
        rfl
      · rw [if_neg hroom, if_neg hroom]
        refine ⟨fun bytes h => ?_, fun e h => (by cases h)⟩
        cases h
        have hstored : Radix.stored out.length digits = List.replicate zeros 0 ++
            (List.replicate (out.length - digits.length - zeros) 0 ++ digits.reverse) := by
          rw [← List.append_assoc, List.replicate_append_replicate,
            show zeros + (out.length - digits.length - zeros) = out.length - digits.length by omega]
          simp [Radix.stored]
        obtain ⟨rest, hrest, hmove⟩ := Radix.moveAt_eq id digits.reverse (List.replicate zeros 0)
          (List.replicate (out.length - digits.length - zeros) 0)
        rw [List.length_replicate, List.length_replicate, List.length_reverse, List.map_id] at hmove
        have hfill := Radix.moveAt_fill 0 [] (List.replicate zeros 0) (digits.reverse ++ rest)
        rw [List.length_replicate, List.length_nil, List.nil_append] at hfill
        have hlen : (List.replicate zeros (0 : UInt8) ++ digits.reverse.map UInt8.ofNat).length =
            zeros + digits.length := by
          rw [List.length_append, List.length_replicate, List.length_map, List.length_reverse]
        refine ⟨List.replicate zeros 0 ++ (digits.reverse ++ rest), ?_, ?_⟩
        · rw [hstored, hmove, hfill, hlen]
        · rw [hlen, ← List.append_assoc, List.take_left' (by
            rw [List.length_append, List.length_replicate, List.length_reverse])]
          rw [List.map_append, List.map_replicate]
          rfl

/-! ## The accepted texts -/

/-- The text of some bytes in a base. -/
def multibaseText (bytes : Bytes) : Bytes :=
  match base with
  | .base58btc => ascii 'z' :: base58Text bytes
  | .base64url => ascii 'u' :: base64urlEncodeLoop bytes

/-- The bits of the last character of a base64url text that no byte takes. -/
def base64urlUnusedBits (payload : Bytes) : Nat :=
  let value := (payload.getLast?.bind base64urlValue).getD 0
  if payload.length % 4 = 2 then value % 16
  else if payload.length % 4 = 3 then value % 4
  else 0

/-- A base64url text: only characters of the alphabet, no lone character at the end and no bit set
    that no byte takes. -/
structure Base64urlText (payload : Bytes) : Prop where
  alphabet : ∀ character ∈ payload, character ∈ base64urlAlphabet
  length : payload.length % 4 ≠ 1
  unused : base64urlUnusedBits payload = 0

/-- The texts of a base: its prefix, and behind it what the base allows. -/
def MultibaseWellFormed (text : Bytes) : Prop :=
  match base with
  | .base58btc =>
    ∃ payload, text = ascii 'z' :: payload ∧ ∀ character ∈ payload, character ∈ base58btcAlphabet
  | .base64url => ∃ payload, text = ascii 'u' :: payload ∧ Base64urlText payload

theorem mem_base58btcAlphabet_iff {character : UInt8} :
    character ∈ base58btcAlphabet ↔ base58Value character ≠ none := by
  have hlen : base58btcAlphabet.length = 58 := rfl
  rw [← List.idxOf_lt_length_iff, hlen]
  unfold base58Value
  dsimp only
  split <;> simp [*]

theorem mem_base64urlAlphabet {value : Nat} (h : value < 64) :
    base64urlAlphabet.getD value 0 ∈ base64urlAlphabet := by
  have hlen : base64urlAlphabet.length = 64 := rfl
  rw [List.getD_eq_getElem _ _ (by omega)]
  exact List.getElem_mem _

theorem exists_base64urlValue {character : UInt8} (h : character ∈ base64urlAlphabet) :
    ∃ value < 64, character = base64urlAlphabet.getD value 0 := by
  have hlen : base64urlAlphabet.length = 64 := rfl
  obtain ⟨value, hvalue, rfl⟩ := List.mem_iff_getElem.mp h
  exact ⟨value, hlen ▸ hvalue, (List.getD_eq_getElem _ _ hvalue).symm⟩

theorem base64urlUnusedBits_two (first : UInt8) {value : Nat} (h : value < 64) :
    base64urlUnusedBits [first, base64urlAlphabet.getD value 0] = value % 16 := by
  simp only [base64urlUnusedBits, List.getLast?_cons_cons, List.getLast?_singleton,
    Option.bind_some, base64urlValue_alphabet h]
  rfl

theorem base64urlUnusedBits_three (first second : UInt8) {value : Nat} (h : value < 64) :
    base64urlUnusedBits [first, second, base64urlAlphabet.getD value 0] = value % 4 := by
  simp only [base64urlUnusedBits, List.getLast?_cons_cons, List.getLast?_singleton,
    Option.bind_some, base64urlValue_alphabet h]
  rfl

theorem base64urlUnusedBits_four (c0 c1 c2 c3 : UInt8) (rest : Bytes) :
    base64urlUnusedBits (c0 :: c1 :: c2 :: c3 :: rest) = base64urlUnusedBits rest := by
  unfold base64urlUnusedBits
  cases rest with
  | nil => simp
  | cons c rest =>
    have hmod : (c0 :: c1 :: c2 :: c3 :: c :: rest).length % 4 = (c :: rest).length % 4 := by
      simp only [List.length_cons]
      omega
    simp only [hmod, List.getLast?_cons_cons]

/-- A text begins with a group of four characters when what follows it is a text. -/
theorem base64urlText_four {c0 c1 c2 c3 : UInt8} {rest : Bytes} :
    Base64urlText (c0 :: c1 :: c2 :: c3 :: rest) ↔
      (c0 ∈ base64urlAlphabet ∧ c1 ∈ base64urlAlphabet ∧ c2 ∈ base64urlAlphabet ∧
        c3 ∈ base64urlAlphabet) ∧ Base64urlText rest := by
  have hmod : (c0 :: c1 :: c2 :: c3 :: rest).length % 4 = rest.length % 4 := by
    simp only [List.length_cons]
    omega
  have hbits := base64urlUnusedBits_four c0 c1 c2 c3 rest
  constructor
  · intro h
    have hall := h.alphabet
    simp only [List.forall_mem_cons] at hall
    exact ⟨⟨hall.1, hall.2.1, hall.2.2.1, hall.2.2.2.1⟩, hall.2.2.2.2, hmod ▸ h.length,
      hbits ▸ h.unused⟩
  · intro h
    refine ⟨?_, hmod ▸ h.2.length, hbits ▸ h.2.unused⟩
    simp only [List.forall_mem_cons]
    exact ⟨h.1.1, h.1.2.1, h.1.2.2.1, h.1.2.2.2, h.2.alphabet⟩

/-- The encoder writes such texts. -/
theorem base64urlEncodeLoop_text : Base64urlText (base64urlEncodeLoop bytes) := by
  induction bytes using base64urlEncodeLoop.induct with
  | case1 => exact ⟨by simp [base64urlEncodeLoop], by simp [base64urlEncodeLoop], rfl⟩
  | case2 a =>
    have ha := a.toNat_lt
    rw [base64urlEncodeLoop_one]
    simp only [List.map_cons, List.map_nil]
    refine ⟨?_, by simp, ?_⟩
    · simp only [List.forall_mem_cons]
      exact ⟨mem_base64urlAlphabet (by omega), mem_base64urlAlphabet (by omega), by simp⟩
    · rw [base64urlUnusedBits_two _ (by omega)]
      omega
  | case3 a b =>
    have ha := a.toNat_lt
    have hb := b.toNat_lt
    rw [base64urlEncodeLoop_two]
    simp only [List.map_cons, List.map_nil]
    refine ⟨?_, by simp, ?_⟩
    · simp only [List.forall_mem_cons]
      exact ⟨mem_base64urlAlphabet (by omega), mem_base64urlAlphabet (by omega),
        mem_base64urlAlphabet (by omega), by simp⟩
    · rw [base64urlUnusedBits_three _ _ (by omega)]
      omega
  | case4 a b c rest ih =>
    have ha := a.toNat_lt
    have hb := b.toNat_lt
    have hc := c.toNat_lt
    rw [base64urlEncodeLoop_three]
    simp only [List.map_cons, List.map_nil, List.cons_append, List.nil_append]
    exact base64urlText_four.mpr ⟨⟨mem_base64urlAlphabet (by omega),
      mem_base64urlAlphabet (by omega), mem_base64urlAlphabet (by omega),
      mem_base64urlAlphabet (by omega)⟩, ih⟩

/-- The loop accepts every such text. -/
theorem base64urlDecodeLoop_text {payload : Bytes} (h : Base64urlText payload) :
    ∃ bytes, base64urlDecodeLoop payload = .ok bytes := by
  induction hlen : payload.length using Nat.strong_induction_on generalizing payload with
  | _ n ih =>
    have hall := h.alphabet
    have hbits := h.unused
    obtain _ | ⟨c0, _ | ⟨c1, _ | ⟨c2, _ | ⟨c3, rest⟩⟩⟩⟩ := payload
    · exact ⟨[], rfl⟩
    · exact absurd rfl h.length
    · simp only [List.forall_mem_cons] at hall
      obtain ⟨v0, h0, rfl⟩ := exists_base64urlValue hall.1
      obtain ⟨v1, h1, rfl⟩ := exists_base64urlValue hall.2.1
      rw [base64urlUnusedBits_two _ h1] at hbits
      have hloop := base64urlDecodeLoop_two h0 h1
      rw [if_neg (not_not.mpr hbits)] at hloop
      exact ⟨_, hloop⟩
    · simp only [List.forall_mem_cons] at hall
      obtain ⟨v0, h0, rfl⟩ := exists_base64urlValue hall.1
      obtain ⟨v1, h1, rfl⟩ := exists_base64urlValue hall.2.1
      obtain ⟨v2, h2, rfl⟩ := exists_base64urlValue hall.2.2.1
      rw [base64urlUnusedBits_three _ _ h2] at hbits
      have hloop := base64urlDecodeLoop_three h0 h1 h2
      rw [if_neg (not_not.mpr hbits)] at hloop
      exact ⟨_, hloop⟩
    · obtain ⟨hgroup, hrest⟩ := base64urlText_four.mp h
      obtain ⟨v0, h0, rfl⟩ := exists_base64urlValue hgroup.1
      obtain ⟨v1, h1, rfl⟩ := exists_base64urlValue hgroup.2.1
      obtain ⟨v2, h2, rfl⟩ := exists_base64urlValue hgroup.2.2.1
      obtain ⟨v3, h3, rfl⟩ := exists_base64urlValue hgroup.2.2.2
      obtain ⟨bytes, hbytes⟩ := ih rest.length (by rw [← hlen]; simp; omega) hrest rfl
      have hloop := base64urlDecodeLoop_four h0 h1 h2 h3 rest
      rw [hbytes] at hloop
      exact ⟨_, hloop⟩

/-- The texts of a base are the texts of some bytes in that base. -/
theorem multibaseWellFormed_iff (text : Bytes) :
    MultibaseWellFormed base text ↔ ∃ bytes, text = multibaseText base bytes := by
  cases base with
  | base58btc =>
    constructor
    · intro h
      obtain ⟨payload, rfl, hall⟩ := h
      obtain ⟨vs, hvs, rfl⟩ | ⟨bad, hmem, hbad⟩ := exists_values payload
      · exact ⟨_, congrArg _ (base58Text_convert hvs).symm⟩
      · exact absurd hbad (mem_base58btcAlphabet_iff.mp (hall bad hmem))
    · intro h
      obtain ⟨bytes, rfl⟩ := h
      obtain ⟨vs, hvs, htext, -⟩ := base58Text_values bytes
      refine ⟨base58Text bytes, rfl, fun character hmem => ?_⟩
      rw [htext] at hmem
      obtain ⟨value, hvalue, rfl⟩ := List.mem_map.mp hmem
      rw [mem_base58btcAlphabet_iff, base58Value_alphabet (hvs value hvalue)]
      simp
  | base64url =>
    constructor
    · intro h
      obtain ⟨payload, rfl, htext⟩ := h
      obtain ⟨bytes, hbytes⟩ := base64urlDecodeLoop_text htext
      exact ⟨bytes, congrArg _ (base64urlDecodeLoop_sound hbytes)⟩
    · intro h
      obtain ⟨bytes, rfl⟩ := h
      exact ⟨_, rfl, base64urlEncodeLoop_text bytes⟩

/-! ## Sizes that are enough -/

theorem base64urlEncodeLoop_size :
    (base64urlEncodeLoop bytes).length = base64EncodedExactSize bytes.length := by
  induction bytes using base64urlEncodeLoop.induct with
  | case1 => rfl
  | case2 a => simp [base64urlEncodeLoop, base64EncodedExactSize]
  | case3 a b => simp [base64urlEncodeLoop, base64EncodedExactSize]
  | case4 a b c rest ih =>
    have hdiv : (rest.length + 3) / 3 = rest.length / 3 + 1 := by omega
    have hmod : (rest.length + 3) % 3 = rest.length % 3 := by omega
    rw [base64urlEncodeLoop_three, List.length_append, ih]
    simp only [List.length_map, List.length_cons, List.length_nil, base64EncodedExactSize, hdiv,
      hmod]
    omega

theorem pow_256_le (n : Nat) : 256 ^ n ≤ 58 ^ (n * 138 / 100 + 1) := by
  have hsmall : ∀ r : Fin 50, 256 ^ r.val ≤ 58 ^ (r.val * 138 / 100 + 1) := by decide +kernel
  have hblock : 256 ^ 50 ≤ 58 ^ 69 := by norm_num
  have hsplit : n * 138 / 100 + 1 = 69 * (n / 50) + (n % 50 * 138 / 100 + 1) := by omega
  calc 256 ^ n = 256 ^ (50 * (n / 50) + n % 50) := by rw [Nat.div_add_mod]
    _ = (256 ^ 50) ^ (n / 50) * 256 ^ (n % 50) := by rw [pow_add, pow_mul]
    _ ≤ (58 ^ 69) ^ (n / 50) * 58 ^ (n % 50 * 138 / 100 + 1) :=
      Nat.mul_le_mul (Nat.pow_le_pow_left hblock _)
        (hsmall ⟨n % 50, Nat.mod_lt n (by decide)⟩)
    _ = 58 ^ (n * 138 / 100 + 1) := by rw [← pow_mul, ← pow_add, ← hsplit]

/-- The estimate of a hundredth part of 138 digits a byte, with leading zeros counted as bytes. -/
theorem base58Text_length_estimate :
    (base58Text bytes).length ≤ if bytes.length = 0 then 0 else bytes.length * 138 / 100 + 1 := by
  obtain ⟨k, rest, rfl, hrest⟩ := exists_replicate (0 : UInt8) bytes
  obtain ⟨-, htext⟩ := base58Text_replicate k hrest
  have hlt := @Radix.value_lt 256 (by decide) (rest.map UInt8.toNat)
    (fun n hn => toNat_lt_of_mem hn)
  rw [List.length_map] at hlt
  have hdigits : (Nat.digits 58 (Radix.value 256 (rest.map UInt8.toNat))).length ≤
      rest.length * 138 / 100 + 1 :=
    (Nat.digits_length_le_iff (by decide) _).mpr (Nat.lt_of_lt_of_le hlt (pow_256_le rest.length))
  have hnil : rest.length = 0 →
      (Nat.digits 58 (Radix.value 256 (rest.map UInt8.toNat))).length = 0 := by
    intro h
    obtain rfl := List.eq_nil_of_length_eq_zero h
    simp [Radix.value]
  rw [htext]
  simp only [List.length_append, List.length_replicate, List.length_map, List.length_reverse]
  split <;> omega

theorem multibaseAddOverflow_getD (a b : Nat) (ha : a ≤ sizeMax) :
    (multibaseAddOverflow a b).getD sizeMax = min (a + b) sizeMax := by
  unfold multibaseAddOverflow
  split
  · rw [Option.getD_none]
    omega
  · rw [Option.getD_some]
    omega

theorem multibaseMulOverflow_eq (a b : Nat) :
    multibaseMulOverflow a b = if sizeMax < a * b then none else some (a * b) := by
  have hiff : (a ≠ 0 ∧ sizeMax / a < b) ↔ sizeMax < a * b := by
    obtain rfl | ha := Nat.eq_zero_or_pos a
    · simp
    · rw [Nat.div_lt_iff_lt_mul ha, Nat.mul_comm]
      exact and_iff_right (by omega)
  unfold multibaseMulOverflow
  simp only [hiff]

theorem base64EncodedSize_eq (n : Nat) :
    base64EncodedSize n = min (base64EncodedExactSize n) sizeMax := by
  unfold base64EncodedSize base64EncodedExactSize
  rw [multibaseMulOverflow_eq]
  by_cases hlarge : sizeMax < n / 3 * 4
  · rw [if_pos hlarge]
    dsimp only
    omega
  · have hfits : n / 3 * 4 ≤ sizeMax := not_lt.mp hlarge
    rw [if_neg hlarge]
    simp only [multibaseAddOverflow_getD _ _ hfits]
    generalize sizeMax = sizeMax at hfits
    split_ifs <;> omega

/-- The announced size holds the text of every input whose text a buffer can hold. -/
theorem multibaseEncodedSize_enough (input : Bytes) :
    min (multibaseText base input).length sizeMax ≤
      multibaseEncodedSize base input.length := by
  have hmax : sizeMax = 18446744073709551615 := rfl
  unfold multibaseEncodedSize
  rw [multibaseAddOverflow_getD _ _ (by omega)]
  cases base with
  | base58btc =>
    have hlen := base58Text_length_estimate input
    simp only [multibaseText, List.length_cons, base58EncodedUpperBound, multibaseMulOverflow_eq]
    split at hlen
    · rename_i hzero
      rw [if_pos hzero]
      omega
    · rename_i hpos
      rw [if_neg hpos]
      by_cases hlarge : sizeMax < input.length * 138
      · rw [if_pos hlarge]
        dsimp only
        omega
      · rw [if_neg hlarge]
        dsimp only
        omega
  | base64url =>
    simp only [multibaseText, List.length_cons, base64urlEncodeLoop_size, base64EncodedSize_eq]
    omega

/-- The text of an input of less than 2^63 bytes fits a buffer. -/
theorem multibaseText_length_le {input : Bytes}
    (h : input.length < 2 ^ 63) : (multibaseText base input).length ≤ sizeMax := by
  have hmax : sizeMax = 18446744073709551615 := rfl
  cases base with
  | base58btc =>
    have hlen := base58Text_length_estimate input
    simp only [multibaseText, List.length_cons]
    split at hlen <;> omega
  | base64url =>
    simp only [multibaseText, List.length_cons, base64urlEncodeLoop_size, base64EncodedExactSize]
    split <;> omega

theorem base58Text_length_ge : bytes.length ≤ (base58Text bytes).length := by
  obtain ⟨vs, hvs, htext, hbytes⟩ := base58Text_values bytes
  obtain ⟨zeros, hzeros, hlen⟩ :=
    @Radix.convert_length_le 58 256 1 1 (by decide) (by decide) (by decide) (by decide) vs hvs
  rw [htext, ← hbytes, List.length_map, List.length_map]
  simp only [Nat.sub_self, Nat.add_zero, Nat.div_one, Nat.one_mul] at hlen
  omega

/-- The announced bound holds the bytes of every accepted text of a `size_t` of characters. -/
theorem multibaseMaxDecodedSize_enough {payload bytes : Bytes} {first : UInt8}
    (hlen : payload.length ≤ sizeMax)
    (h : first :: payload = multibaseText base bytes) :
    bytes.length ≤ multibaseMaxDecodedSize base payload.length := by
  have hmax : sizeMax = 18446744073709551615 := rfl
  cases base with
  | base58btc =>
    obtain ⟨-, rfl⟩ := List.cons.inj h
    exact base58Text_length_ge bytes
  | base64url =>
    obtain ⟨-, rfl⟩ := List.cons.inj h
    obtain ⟨hvalid, hsize⟩ := base64urlEncodeLoop_length bytes
    rw [← hsize]
    generalize (base64urlEncodeLoop bytes).length = n at hlen hvalid
    simp only [multibaseMaxDecodedSize, base64DecodedUpperBound, multibaseAddOverflow,
      base64DecodedExactSize]
    by_cases hlarge : sizeMax - n < 3
    · rw [if_pos hlarge]
      dsimp only
      split <;> omega
    · have hfits : ¬ sizeMax < (n + 3) / 4 * 3 := by omega
      rw [if_neg hlarge]
      simp only [multibaseMulOverflow_eq, if_neg hfits, Option.getD_some]
      split <;> omega

/-! ## The codec -/

/-- Encoding succeeds exactly when the text fits. -/
theorem multibaseEncode_eq (input : Bytes) (outLen : Nat) :
    (multibaseEncode base input outLen).1 =
      if (multibaseText base input).length ≤ outLen then .ok (multibaseText base input)
      else .error .bufTooSmall := by
  cases base with
  | base58btc =>
    simp only [multibaseEncode, multibaseText, List.length_cons, Nat.add_comm _ 1]
    split
    · rename_i hfits
      rw [encodeBase58btc_ok hfits]
    · rename_i hsmall
      exact encodeBase58btc_tooSmall (by omega)
  | base64url =>
    simp only [multibaseEncode, multibaseText, List.length_cons, base64urlEncodeLoop_size,
      multibaseEncodeBase64url, Nat.add_comm _ 1]
    by_cases hfits : 1 + base64EncodedExactSize input.length ≤ outLen
    · rw [if_neg (by omega), if_pos hfits]
    · rw [if_pos (by omega), if_neg hfits]

theorem multibaseText_iff {text bytes : Bytes} :
    MultibaseText text bytes ↔ ∃ base, text = multibaseText base bytes := by
  constructor
  · intro h
    obtain h | h := h
    · exact ⟨.base58btc, h⟩
    · exact ⟨.base64url, h⟩
  · intro h
    obtain ⟨base, rfl⟩ := h
    cases base with
    | base58btc => exact .inl rfl
    | base64url => exact .inr rfl

/-- Decoding a text succeeds exactly when its bytes fit. -/
theorem multibaseDecode_text (outLen : Nat) :
    (multibaseDecode (multibaseText base bytes) outLen).1 =
      if bytes.length ≤ outLen then .ok bytes else .error .bufTooSmall := by
  have htext : MultibaseText (multibaseText base bytes) bytes := multibaseText_iff.mpr ⟨base, rfl⟩
  by_cases hfits : bytes.length ≤ outLen
  · rw [if_pos hfits]
    exact multibaseDecode_ok_iff.mpr ⟨htext, hfits⟩
  · rw [if_neg hfits]
    exact multibaseDecode_tooSmall_iff.mpr ⟨bytes, htext, by omega⟩

/-- `libp2p_multibase_encode` and `libp2p_multibase_decode` in either base: a round trip both ways,
    exactly the well-formed texts, room for exactly the output, and announced sizes that are
    enough. In the caller's buffer base58btc gives the same answers. -/
theorem multibase_codec :
    (∀ base input outLen decodedLen text, (multibaseEncode base input outLen).1 = .ok text →
      input.length ≤ decodedLen → (multibaseDecode text decodedLen).1 = .ok input) ∧
    (∀ text, (∃ outLen bytes, (multibaseDecode text outLen).1 = .ok bytes) ↔
      ∃ base, MultibaseWellFormed base text) ∧
    (∀ text outLen bytes, (multibaseDecode text outLen).1 = .ok bytes →
      ∃ base, MultibaseWellFormed base text ∧
        ∀ textLen, text.length ≤ textLen → (multibaseEncode base bytes textLen).1 = .ok text) ∧
    (∀ base input outLen, (multibaseEncode base input outLen).1 =
      if (multibaseText base input).length ≤ outLen then .ok (multibaseText base input)
      else .error .bufTooSmall) ∧
    (∀ base bytes outLen, (multibaseDecode (multibaseText base bytes) outLen).1 =
      if bytes.length ≤ outLen then .ok bytes else .error .bufTooSmall) ∧
    (∀ base (input : Bytes), (multibaseText base input).length ≤ sizeMax →
      (multibaseEncode base input (multibaseEncodedSize base input.length)).1 =
        .ok (multibaseText base input)) ∧
    (∀ base (input : Bytes), input.length < 2 ^ 63 →
      (multibaseText base input).length ≤ sizeMax) ∧
    (∀ base first (payload : Bytes), payload.length ≤ sizeMax →
      MultibaseWellFormed base (first :: payload) →
      ∃ bytes, (multibaseDecode (first :: payload)
        (multibaseMaxDecodedSize base payload.length)).1 = .ok bytes) ∧
    (∀ input out,
      (∀ text, (multibaseEncodeBase58btc input out.length).1 = .ok text →
        ∃ rest, encodeBase58btcAt input out = some (text.map UInt8.toNat ++ rest, text.length) ∧
          text.length + rest.length = out.length) ∧
      ∀ e, (multibaseEncodeBase58btc input out.length).1 = .error e →
        encodeBase58btcAt input out = none) ∧
    ∀ payload out,
      (∀ bytes, (multibaseDecodeBase58btc payload out.length).1 = .ok bytes →
        ∃ cells, decodeBase58btcAt payload out = .ok (cells, bytes.length) ∧
          (cells.take bytes.length).map UInt8.ofNat = bytes) ∧
      ∀ e, (multibaseDecodeBase58btc payload out.length).1 = .error e →
        decodeBase58btcAt payload out = .error e := by
  refine ⟨?_, ?_, ?_, multibaseEncode_eq, multibaseDecode_text, ?_,
    fun base _ h => multibaseText_length_le base h, ?_, encodeBase58btcAt_eq, decodeBase58btcAt_eq⟩
  · intro base input outLen decodedLen text h hlen
    rw [multibaseEncode_eq] at h
    split at h
    · cases h
      rw [multibaseDecode_text, if_pos hlen]
    · cases h
  · intro text
    constructor
    · intro h
      obtain ⟨outLen, bytes, hdecode⟩ := h
      obtain ⟨base, rfl⟩ := multibaseText_iff.mp (multibaseDecode_ok_iff.mp hdecode).1
      exact ⟨base, (multibaseWellFormed_iff base _).mpr ⟨bytes, rfl⟩⟩
    · intro h
      obtain ⟨base, hformed⟩ := h
      obtain ⟨bytes, rfl⟩ := (multibaseWellFormed_iff base text).mp hformed
      exact ⟨bytes.length, bytes, by rw [multibaseDecode_text, if_pos (Nat.le_refl _)]⟩
  · intro text outLen bytes h
    obtain ⟨base, rfl⟩ := multibaseText_iff.mp (multibaseDecode_ok_iff.mp h).1
    refine ⟨base, (multibaseWellFormed_iff base _).mpr ⟨bytes, rfl⟩, fun textLen hlen => ?_⟩
    rw [multibaseEncode_eq, if_pos hlen]
  · intro base input hlen
    have henough := multibaseEncodedSize_enough base input
    rw [Nat.min_eq_left hlen] at henough
    rw [multibaseEncode_eq, if_pos henough]
  · intro base first payload hlen hformed
    obtain ⟨bytes, hbytes⟩ := (multibaseWellFormed_iff base _).mp hformed
    have henough := multibaseMaxDecodedSize_enough base hlen hbytes
    exact ⟨bytes, by rw [hbytes, multibaseDecode_text, if_pos henough]⟩

end LeanLibp2p
