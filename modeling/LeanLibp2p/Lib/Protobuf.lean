import Mathlib.Data.List.Basic
import Mathlib.Data.Nat.Init

/-!
# Protobuf field lists

The wire level of protobuf over an arbitrary varint code: a message is a list of fields,
each a number and a payload of one of the wire types varint, fixed64, length-delimited,
group and fixed32. `parse` reads a byte string as such a list or refuses it, `writeAll`
writes one without groups, and `lens`/`varints` select the payloads that a schema reads from
a field of one number.
-/

namespace LeanLibp2p.Lib.Protobuf

/-- A prefix code for the naturals below `bound`. -/
structure VarintCode where
  read : List UInt8 → Option (Nat × List UInt8)
  write : Nat → List UInt8
  bound : Nat
  read_write : ∀ v rest, v < bound → read (write v ++ rest) = some (v, rest)
  read_length : ∀ bs v rest, read bs = some (v, rest) → rest.length < bs.length

/-- The payload of a field. A group is passed over by every schema, so its content is not
    kept. -/
inductive Payload where
  | varint (value : Nat)
  | fixed64 (bytes : List UInt8)
  | len (bytes : List UInt8)
  | group
  | fixed32 (bytes : List UInt8)
  deriving DecidableEq, Repr

/-- A field as it stands on the wire. -/
structure Field where
  number : Nat
  payload : Payload
  deriving DecidableEq, Repr

variable (code : VarintCode)

/-- The next `n` bytes. -/
def readBytes (n : Nat) (bs : List UInt8) : Option (List UInt8 × List UInt8) :=
  if bs.length < n then none else some (bs.take n, bs.drop n)

/-- Read a payload of the given wire type, other than a group. -/
def readScalar (wire : Nat) (bs : List UInt8) : Option (Payload × List UInt8) :=
  if wire = 0 then (code.read bs).map fun (v, rest) => (.varint v, rest)
  else if wire = 2 then do
    let (n, rest) ← code.read bs
    let (b, rest) ← readBytes n rest
    return (.len b, rest)
  else if wire = 1 then (readBytes 8 bs).map fun (b, rest) => (.fixed64 b, rest)
  else if wire = 5 then (readBytes 4 bs).map fun (b, rest) => (.fixed32 b, rest)
  else none

/-- Pass over the fields of a group up to the end tag with its number. Every tag takes a
    byte, so the length of the input is enough fuel. -/
def skipGroup : Nat → Nat → List UInt8 → Option (List UInt8)
  | 0, _, _ => none
  | fuel + 1, number, bs => do
    let (key, rest) ← code.read bs
    if key / 8 = 0 then none
    else if key % 8 = 4 then
      if key / 8 = number then some rest else none
    else if key % 8 = 3 then do
      let rest ← skipGroup fuel (key / 8) rest
      skipGroup fuel number rest
    else do
      let (_, rest) ← readScalar code (key % 8) rest
      skipGroup fuel number rest

/-- Read the payload of a field. -/
def readPayload (number wire : Nat) (bs : List UInt8) : Option (Payload × List UInt8) :=
  if wire = 3 then (skipGroup code bs.length number bs).map fun rest => (.group, rest)
  else readScalar code wire bs

/-- Read a key, then the payload its wire type announces. -/
def readField (bs : List UInt8) : Option (Field × List UInt8) := do
  let (key, rest) ← code.read bs
  let (payload, rest) ← readPayload code (key / 8) (key % 8) rest
  return (⟨key / 8, payload⟩, rest)

/-- Read fields until the input ends; `fuel` bounds their number. -/
def parseFuel : Nat → List UInt8 → Option (List Field)
  | 0, bs => if bs = [] then some [] else none
  | fuel + 1, bs =>
    if bs = [] then some []
    else do
      let (field, rest) ← readField code bs
      let fields ← parseFuel fuel rest
      return field :: fields

/-- The fields of a byte string. -/
def parse (bs : List UInt8) : Option (List Field) := parseFuel code bs.length bs

theorem readBytes_length {n : Nat} {bs b rest : List UInt8} (h : readBytes n bs = some (b, rest)) :
    rest.length ≤ bs.length := by
  unfold readBytes at h
  split at h
  · cases h
  · simp only [Option.some.injEq, Prod.mk.injEq] at h
    rw [← h.2, List.length_drop]
    omega

theorem readScalar_length {wire : Nat} {bs rest : List UInt8} {payload : Payload}
    (h : readScalar code wire bs = some (payload, rest)) : rest.length ≤ bs.length := by
  unfold readScalar at h
  split at h
  · simp only [Option.map_eq_some_iff, Prod.exists, Prod.mk.injEq] at h
    obtain ⟨v, r, hr, -, rfl⟩ := h
    exact Nat.le_of_lt (code.read_length _ _ _ hr)
  split at h
  · simp only [Option.bind_eq_bind, Option.pure_def, Option.bind_eq_some_iff, Prod.exists,
      Option.some.injEq, Prod.mk.injEq] at h
    obtain ⟨n, r, hr, b, r', hb, -, rfl⟩ := h
    exact Nat.le_trans (readBytes_length hb) (Nat.le_of_lt (code.read_length _ _ _ hr))
  split at h
  · simp only [Option.map_eq_some_iff, Prod.exists, Prod.mk.injEq] at h
    obtain ⟨b, r, hb, -, rfl⟩ := h
    exact readBytes_length hb
  split at h
  · simp only [Option.map_eq_some_iff, Prod.exists, Prod.mk.injEq] at h
    obtain ⟨b, r, hb, -, rfl⟩ := h
    exact readBytes_length hb
  · cases h

theorem skipGroup_length {fuel number : Nat} {bs rest : List UInt8}
    (h : skipGroup code fuel number bs = some rest) : rest.length ≤ bs.length := by
  induction fuel generalizing number bs rest with
  | zero => cases h
  | succ fuel ih =>
    simp only [skipGroup, Option.bind_eq_bind, Option.bind_eq_some_iff, Prod.exists] at h
    obtain ⟨key, r, hr, h⟩ := h
    have hlt := code.read_length _ _ _ hr
    split at h
    · cases h
    split at h
    · split at h
      · cases h
        omega
      · cases h
    split at h
    · rw [Option.bind_eq_some_iff] at h
      obtain ⟨r', hinner, h⟩ := h
      have hle := ih hinner
      have := ih h
      omega
    · simp only [Option.bind_eq_some_iff, Prod.exists] at h
      obtain ⟨payload, r', hscalar, h⟩ := h
      have hle := readScalar_length code hscalar
      have := ih h
      omega

theorem readPayload_length {number wire : Nat} {bs rest : List UInt8} {payload : Payload}
    (h : readPayload code number wire bs = some (payload, rest)) : rest.length ≤ bs.length := by
  unfold readPayload at h
  split at h
  · simp only [Option.map_eq_some_iff, Prod.mk.injEq] at h
    obtain ⟨r, hskip, -, rfl⟩ := h
    exact skipGroup_length code hskip
  · exact readScalar_length code h

theorem readField_length {bs rest : List UInt8} {field : Field}
    (h : readField code bs = some (field, rest)) : rest.length < bs.length := by
  simp only [readField, Option.bind_eq_bind, Option.pure_def, Option.bind_eq_some_iff, Prod.exists,
    Option.some.injEq, Prod.mk.injEq] at h
  obtain ⟨key, r, hr, payload, r', hp, -, rfl⟩ := h
  exact Nat.lt_of_le_of_lt (readPayload_length code hp) (code.read_length _ _ _ hr)

/-- Fuel beyond the length of the input changes nothing. -/
theorem parseFuel_of_le :
    ∀ (fuel : Nat) (bs : List UInt8), bs.length ≤ fuel → parseFuel code fuel bs = parse code bs := by
  intro fuel
  induction fuel using Nat.strong_induction_on with
  | _ fuel ih =>
    intro bs h
    by_cases hnil : bs = []
    · subst hnil
      cases fuel <;> simp [parse, parseFuel]
    obtain ⟨fuel, rfl⟩ : ∃ m, fuel = m + 1 :=
      ⟨fuel - 1, by have := List.length_pos_iff.mpr hnil; omega⟩
    obtain ⟨n, hn⟩ : ∃ n, bs.length = n + 1 :=
      ⟨bs.length - 1, by have := List.length_pos_iff.mpr hnil; omega⟩
    rw [parse, hn, parseFuel, parseFuel, if_neg hnil, if_neg hnil]
    cases hf : readField code bs with
    | none => rfl
    | some p =>
      obtain ⟨field, rest⟩ := p
      have hlt := readField_length code hf
      simp only [Option.bind_eq_bind, Option.bind_some]
      rw [ih fuel (by omega) rest (by omega)]
      by_cases hfn : fuel = n
      · rw [← hfn, ih fuel (by omega) rest (by omega)]
      · rw [ih n (by omega) rest (by omega)]

@[simp] theorem parse_nil : parse code [] = some [] := rfl

/-- The fields of a non-empty string are its first field and those of what follows. -/
theorem parse_eq {bs : List UInt8} (h : bs ≠ []) :
    parse code bs = (readField code bs).bind fun p => (parse code p.2).map (p.1 :: ·) := by
  obtain ⟨n, hn⟩ : ∃ n, bs.length = n + 1 :=
    ⟨bs.length - 1, by have := List.length_pos_iff.mpr h; omega⟩
  rw [parse, hn, parseFuel, if_neg h]
  cases hf : readField code bs with
  | none => rfl
  | some p =>
    obtain ⟨field, rest⟩ := p
    have hlt := readField_length code hf
    simp only [Option.bind_eq_bind, Option.bind_some]
    rw [parseFuel_of_le code n rest (by omega)]
    cases parse code rest <;> rfl

/-! ## Writing -/

/-- The wire type of a payload. -/
def Payload.wire : Payload → Nat
  | .varint _ => 0
  | .fixed64 _ => 1
  | .len _ => 2
  | .group => 3
  | .fixed32 _ => 5

/-- The bytes of a payload; groups are not written. -/
def Payload.write : Payload → List UInt8
  | .varint v => code.write v
  | .fixed64 b => b
  | .len b => code.write b.length ++ b
  | .group => []
  | .fixed32 b => b

/-- The key of a field, then its payload. -/
def Field.write (f : Field) : List UInt8 :=
  code.write (f.number * 8 + f.payload.wire) ++ f.payload.write code

/-- The fields one after the other. -/
def writeAll (fs : List Field) : List UInt8 := fs.flatMap (Field.write code)

/-- The numbers of a field are within the code's bound, a fixed payload has its width, and
    the field is not a group. -/
def Field.Fits (f : Field) : Prop :=
  f.number * 8 + f.payload.wire < code.bound ∧
    match f.payload with
    | .varint v => v < code.bound
    | .fixed64 b => b.length = 8
    | .len b => b.length < code.bound
    | .group => False
    | .fixed32 b => b.length = 4

/-- The payload that is read is of the wire type that was announced. -/
theorem readScalar_wire {wire : Nat} {bs rest : List UInt8} {payload : Payload}
    (h : readScalar code wire bs = some (payload, rest)) : payload.wire = wire := by
  unfold readScalar at h
  split at h
  · rename_i hw
    simp only [Option.map_eq_some_iff, Prod.exists, Prod.mk.injEq] at h
    obtain ⟨v, r, -, rfl, -⟩ := h
    exact hw.symm
  split at h
  · rename_i hw
    simp only [Option.bind_eq_bind, Option.pure_def, Option.bind_eq_some_iff, Prod.exists,
      Option.some.injEq, Prod.mk.injEq] at h
    obtain ⟨n, r, -, b, r', -, rfl, -⟩ := h
    exact hw.symm
  split at h
  · rename_i hw
    simp only [Option.map_eq_some_iff, Prod.exists, Prod.mk.injEq] at h
    obtain ⟨b, r, -, rfl, -⟩ := h
    exact hw.symm
  split at h
  · rename_i hw
    simp only [Option.map_eq_some_iff, Prod.exists, Prod.mk.injEq] at h
    obtain ⟨b, r, -, rfl, -⟩ := h
    exact hw.symm
  · cases h

theorem readPayload_wire {number wire : Nat} {bs rest : List UInt8} {payload : Payload}
    (h : readPayload code number wire bs = some (payload, rest)) : payload.wire = wire := by
  unfold readPayload at h
  split at h
  · rename_i hw
    simp only [Option.map_eq_some_iff, Prod.mk.injEq] at h
    obtain ⟨r, -, rfl, -⟩ := h
    exact hw.symm
  · exact readScalar_wire code h

/-- The strict reader reads what the reader of all payloads reads, but for groups. -/
theorem readScalar_eq (number wire : Nat) (bs : List UInt8) :
    readScalar code wire bs =
      (readPayload code number wire bs).filter fun p => p.1 ≠ .group := by
  unfold readPayload
  split
  · rename_i hw
    rw [hw]
    cases skipGroup code bs.length number bs <;> rfl
  · rename_i hw
    cases h : readScalar code wire bs with
    | none => rfl
    | some p =>
      obtain ⟨payload, rest⟩ := p
      have hwire := readScalar_wire code h
      have hne : payload ≠ .group := by
        rintro rfl
        exact hw hwire.symm
      rw [Option.filter_some, if_pos (by simpa using hne)]

theorem Payload.wire_lt (p : Payload) : p.wire < 8 := by cases p <;> simp [Payload.wire]

theorem readBytes_append (b rest : List UInt8) :
    readBytes b.length (b ++ rest) = some (b, rest) := by
  simp [readBytes]

theorem readField_write {f : Field} (hf : f.Fits code) (rest : List UInt8) :
    readField code (f.write code ++ rest) = some (f, rest) := by
  obtain ⟨number, payload⟩ := f
  obtain ⟨hkey, hpay⟩ := hf
  have hwire := payload.wire_lt
  have hmod : (number * 8 + payload.wire) % 8 = payload.wire := by omega
  have hdiv : (number * 8 + payload.wire) / 8 = number := by omega
  simp only [readField, Field.write, List.append_assoc, code.read_write _ _ hkey,
    Option.bind_eq_bind, Option.bind_some, hmod, hdiv]
  cases payload with
  | varint v =>
    simp only at hpay
    simp [Payload.wire, Payload.write, readPayload, readScalar, code.read_write _ _ hpay]
  | fixed64 b =>
    simp only at hpay
    simp [Payload.wire, Payload.write, readPayload, readScalar, ← hpay, readBytes_append]
  | len b =>
    simp only at hpay
    simp [Payload.wire, Payload.write, readPayload, readScalar, code.read_write _ _ hpay, readBytes_append]
  | group => exact hpay.elim
  | fixed32 b =>
    simp only at hpay
    simp [Payload.wire, Payload.write, readPayload, readScalar, ← hpay, readBytes_append]

theorem Field.write_ne_nil {f : Field} (hf : f.Fits code) : f.write code ≠ [] := by
  intro h
  have := readField_length code (readField_write code hf [])
  simp [h] at this

@[simp] theorem writeAll_nil : writeAll code [] = [] := rfl

@[simp] theorem writeAll_cons (f : Field) (fs : List Field) :
    writeAll code (f :: fs) = f.write code ++ writeAll code fs := rfl

@[simp] theorem writeAll_append (fs gs : List Field) :
    writeAll code (fs ++ gs) = writeAll code fs ++ writeAll code gs := by
  simp [writeAll]

/-- What was written is read back. -/
theorem parse_writeAll {fs : List Field} (h : ∀ f ∈ fs, f.Fits code) :
    parse code (writeAll code fs) = some fs := by
  induction fs with
  | nil => rfl
  | cons f fs ih =>
    have hf := h f (by simp)
    rw [writeAll_cons, parse_eq code (by simp [Field.write_ne_nil code hf]),
      readField_write code hf, Option.bind_some, ih fun g hg => h g (by simp [hg])]
    rfl

/-! ## Schema access -/

variable (n m : Nat) (b : List UInt8) (fs : List Field)

/-- The length-delimited payloads of field `n`, in order. -/
def lens (n : Nat) (fs : List Field) : List (List UInt8) :=
  fs.filterMap fun f =>
    match f.payload with
    | .len b => if f.number = n then some b else none
    | _ => none

/-- The varint payloads of field `n`, in order. -/
def varints (n : Nat) (fs : List Field) : List Nat :=
  fs.filterMap fun f =>
    match f.payload with
    | .varint v => if f.number = n then some v else none
    | _ => none

@[simp] theorem lens_nil (n : Nat) : lens n [] = [] := rfl

@[simp] theorem varints_nil (n : Nat) : varints n [] = [] := rfl

@[simp] theorem lens_append (n : Nat) (fs gs : List Field) :
    lens n (fs ++ gs) = lens n fs ++ lens n gs := by
  simp [lens]

@[simp] theorem varints_append (n : Nat) (fs gs : List Field) :
    varints n (fs ++ gs) = varints n fs ++ varints n gs := by
  simp [varints]

@[simp] theorem lens_cons_len :
    lens n (⟨m, .len b⟩ :: fs) = if m = n then b :: lens n fs else lens n fs := by
  by_cases h : m = n <;> simp [lens, h]

@[simp] theorem lens_cons_varint (n m v : Nat) (fs : List Field) :
    lens n (⟨m, .varint v⟩ :: fs) = lens n fs := by
  simp [lens]

@[simp] theorem lens_cons_fixed64 : lens n (⟨m, .fixed64 b⟩ :: fs) = lens n fs := by
  simp [lens]

@[simp] theorem lens_cons_group : lens n (⟨m, .group⟩ :: fs) = lens n fs := by
  simp [lens]

@[simp] theorem lens_cons_fixed32 : lens n (⟨m, .fixed32 b⟩ :: fs) = lens n fs := by
  simp [lens]

@[simp] theorem varints_cons_varint (n m v : Nat) (fs : List Field) :
    varints n (⟨m, .varint v⟩ :: fs) = if m = n then v :: varints n fs else varints n fs := by
  by_cases h : m = n <;> simp [varints, h]

@[simp] theorem varints_cons_len : varints n (⟨m, .len b⟩ :: fs) = varints n fs := by
  simp [varints]

@[simp] theorem varints_cons_fixed64 : varints n (⟨m, .fixed64 b⟩ :: fs) = varints n fs := by
  simp [varints]

@[simp] theorem varints_cons_group : varints n (⟨m, .group⟩ :: fs) = varints n fs := by
  simp [varints]

@[simp] theorem varints_cons_fixed32 : varints n (⟨m, .fixed32 b⟩ :: fs) = varints n fs := by
  simp [varints]

end LeanLibp2p.Lib.Protobuf
