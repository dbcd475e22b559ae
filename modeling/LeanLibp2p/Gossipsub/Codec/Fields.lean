import LeanLibp2p.Lib.Protobuf
import LeanLibp2p.Gossipsub.Codec.Rpc

/-!
# The field loop reads protobuf fields

Every decoder of the module is `fieldLoop` with its own body. A body that reads exactly
the payload its key announces turns the loop into a fold over the parsed fields, whose
numbers the loop has cut to 32 bits.
-/

namespace LeanLibp2p.Gossipsub

open LeanLibp2p.Lib.Protobuf

variable {σ : Type} {step : Field → σ → Option σ}
variable {ε α : Type}

/-- A bind succeeds when both halves do. -/
theorem bind_eq_ok {ε α β : Type} {x : Except ε α} {f : α → Except ε β} {b : β} :
    x >>= f = .ok b ↔ ∃ a, x = .ok a ∧ f a = .ok b := by
  cases x with
  | error e => simp [bind, Except.bind]
  | ok a => simp [bind, Except.bind]

theorem toOption_bind {ε α β : Type} (x : Except ε α) (f : α → Except ε β) :
    (x >>= f).toOption = x.toOption.bind fun a => (f a).toOption := by
  cases x <;> rfl

theorem toOption_eq_some {x : Except ε α} {a : α} : x.toOption = some a ↔ x = .ok a := by
  cases x <;> simp [Except.toOption]

theorem toOption_ite {p : Prop} [Decidable p] (x y : Except ε α) :
    (if p then x else y).toOption = if p then x.toOption else y.toOption := by
  split <;> rfl

@[simp] theorem toOption_ok (a : α) : (Except.ok a : Except ε α).toOption = some a :=
  rfl

@[simp] theorem toOption_error (e : ε) :
    (Except.error e : Except ε α).toOption = none := rfl

@[simp] theorem toOption_throw (e : ε) :
    (throw e : Except ε α).toOption = none := rfl

@[simp] theorem toOption_map {ε α β : Type} (f : α → β) (x : Except ε α) :
    (f <$> x).toOption = x.toOption.map f := by
  cases x <;> rfl

theorem toOption_throw_bind {ε α β : Type} (e : ε) (f : α → Except ε β) :
    ((throw e : Except ε α) >>= f).toOption = none := rfl

@[simp] theorem toOption_pure (a : α) :
    (pure a : Except ε α).toOption = some a := rfl

theorem readUvarint_eq_ok {bs rest : Bytes} {value : Nat} :
    readUvarint bs = .ok (value, rest) ↔
      ∃ read, uvarintDecode bs = .ok (value, read) ∧ rest = bs.drop read := by
  unfold readUvarint
  rcases uvarintDecode bs with e | ⟨v, read⟩
  · simp
  · constructor
    · intro h
      simp only [Except.ok.injEq, Prod.mk.injEq] at h
      exact ⟨read, by rw [h.1], h.2.symm⟩
    · rintro ⟨r, hr, rfl⟩
      simp only [Except.ok.injEq, Prod.mk.injEq] at hr
      rw [hr.1, hr.2]

theorem readUvarint_length {bs rest : Bytes} {value : Nat} (h : readUvarint bs = .ok (value, rest)) :
    rest.length < bs.length := by
  obtain ⟨read, hread, rfl⟩ := readUvarint_eq_ok.mp h
  have := uvarintDecode_bounds hread
  rw [List.length_drop]
  omega

theorem readUvarint_encode {value : Nat} (h : value < 2 ^ 63) (rest : Bytes) :
    readUvarint (uvarintEncodeLoop 9 value ++ rest) = .ok (value, rest) := by
  have hdec := uvarintDecode_encode (uvarintEncode_ok h (Nat.le_refl _)) rest
  simp [readUvarint, hdec]

/-- The module's varints as a code for protobuf keys, lengths and values. -/
def uvarintCode : VarintCode where
  read bs := (readUvarint bs).toOption
  write value := uvarintEncodeLoop 9 value
  bound := 2 ^ 63
  read_write v rest h := by rw [readUvarint_encode h]; rfl
  read_length _ _ _ h := readUvarint_length (toOption_eq_some.mp h)

theorem uvarintCode_read (bs : Bytes) : uvarintCode.read bs = (readUvarint bs).toOption := rfl

theorem uvarintCode_write_length (value : Nat) :
    (uvarintCode.write value).length = uvarintSize value :=
  uvarintEncodeLoop_length 9 value

theorem key_number (key : Nat) : key >>> 3 = key / 8 := Nat.shiftRight_eq_div_pow key 3

theorem key_wire (key : Nat) : key &&& 7 = key % 8 := Nat.and_two_pow_sub_one_eq_mod key 3

theorem fieldKey_eq {wire : Nat} (field : Nat) (h : wire < 8) :
    fieldKey field wire = field * 8 + wire := by
  rw [fieldKey, Nat.or_comm, or_shiftLeft (by simpa using h)]
  omega

/-! ## Reading a payload -/

theorem readBytes_toOption (n : Nat) (bs : Bytes) (e : GossipsubErr) :
    (if bs.length < n then Except.error e else Except.ok (bs.drop n)).toOption =
      (readBytes n bs).map Prod.snd := by
  unfold readBytes
  split <;> rfl

/-- `gossipsub_read_uvarint` reads a varint payload. -/
theorem readUvarint_toOption (bs : Bytes) :
    ((readUvarint bs).toOption).map (fun p => (Payload.varint p.1, p.2)) =
      readScalar uvarintCode wireVarint bs := by
  simp only [readScalar, wireVarint, if_pos, uvarintCode]

/-- `gossipsub_read_len_span` reads a length-delimited payload. -/
theorem readLenSpan_toOption (bs : Bytes) :
    (readLenSpan bs).toOption.map (fun p => (Payload.len p.1.bytes, p.2)) =
      readScalar uvarintCode wireLen bs := by
  simp only [readLenSpan, readScalar, wireLen, toOption_bind, uvarintCode]
  rcases readUvarint bs with e | ⟨n, rest⟩
  · rfl
  · simp only [toOption_ok, Option.bind_some, readBytes]
    by_cases h : rest.length < n
    · simp [h]
    · simp [h]

theorem readLenSpan_ptr {bs rest : Bytes} {span : Span} (h : readLenSpan bs = .ok (span, rest)) :
    span = .ptr span.bytes := by
  simp only [readLenSpan, bind_eq_ok, Prod.exists] at h
  obtain ⟨n, r, -, h⟩ := h
  split at h
  · cases h
  · simp only [pure, Except.pure, Except.ok.injEq, Prod.mk.injEq] at h
    rw [← h.1, Span.bytes_ptr]

/-- `gossipsub_skip_field` passes over one payload of any wire type. -/
theorem skipField_toOption (wire : Nat) (bs : Bytes) :
    (skipField wire bs).toOption = (readScalar uvarintCode wire bs).map Prod.snd := by
  unfold skipField
  by_cases h0 : wire = wireVarint
  · subst h0
    rw [if_pos rfl, ← readUvarint_toOption, toOption_bind]
    cases readUvarint bs <;> rfl
  rw [if_neg h0]
  by_cases h2 : wire = wireLen
  · subst h2
    rw [if_pos rfl, ← readLenSpan_toOption, readLenSpan, toOption_bind, toOption_bind]
    rcases readUvarint bs with e | ⟨n, rest⟩
    · rfl
    · simp only [toOption_ok, Option.bind_some]
      by_cases h : rest.length < n
      · simp [h]
      · simp [h]
  rw [if_neg h2]
  have h0' : ¬ wire = 0 := h0
  have h2' : ¬ wire = 2 := h2
  unfold readScalar
  rw [if_neg h0', if_neg h2']
  by_cases h1 : wire = wireFixed64
  · have h1' : wire = 1 := h1
    rw [if_pos h1, readBytes_toOption, if_pos h1']
    cases readBytes 8 bs <;> rfl
  have h1' : ¬ wire = 1 := h1
  rw [if_neg h1, if_neg h1']
  by_cases h5 : wire = wireFixed32
  · have h5' : wire = 5 := h5
    rw [if_pos h5, readBytes_toOption, if_pos h5']
    cases readBytes 4 bs <;> rfl
  have h5' : ¬ wire = 5 := h5
  rw [if_neg h5, if_neg h5']
  rfl

/-! ## The loop as a fold -/

/-- `body` reads the payload its wire type announces and then acts on the field as `step`. -/
def Interprets {σ : Type} (body : Nat → Nat → Bytes → σ → Except GossipsubErr (Bytes × σ))
    (step : Field → σ → Option σ) : Prop :=
  ∀ number wire rest s, (body number wire rest s).toOption =
    (readScalar uvarintCode wire rest).bind fun p =>
      (step ⟨number, p.1⟩ s).map fun s' => (p.2, s')

/-- A skipped field is one on which the step does nothing. -/
theorem skip_interprets {number wire : Nat} {rest : Bytes}
    {s : σ} (h : ∀ payload : Payload, payload.wire = wire → step ⟨number, payload⟩ s = some s) :
    (skipField wire rest >>= fun rest => pure (rest, s)).toOption =
      (readScalar uvarintCode wire rest).bind fun p =>
        (step ⟨number, p.1⟩ s).map fun s' => (p.2, s') := by
  rw [toOption_bind, skipField_toOption]
  cases hp : readScalar uvarintCode wire rest with
  | none => rfl
  | some p => simp [h p.1 (readScalar_wire uvarintCode hp)]

/-- A body that reads a span acts on a length-delimited payload. -/
theorem span_interprets {number : Nat} {rest : Bytes}
    {s : σ} {body : Span × Bytes → Except GossipsubErr (Bytes × σ)}
    (h : ∀ b rest, (body (.ptr b, rest)).toOption =
      (step ⟨number, .len b⟩ s).map fun s' => (rest, s')) :
    (readLenSpan rest >>= body).toOption =
      (readScalar uvarintCode wireLen rest).bind fun p =>
        (step ⟨number, p.1⟩ s).map fun s' => (p.2, s') := by
  rw [toOption_bind, ← readLenSpan_toOption]
  cases hr : readLenSpan rest with
  | error e => rfl
  | ok p =>
    obtain ⟨span, rest'⟩ := p
    rw [readLenSpan_ptr hr]
    simp [h]

/-- A body that reads a varint acts on a varint payload. -/
theorem varint_interprets {number : Nat} {rest : Bytes}
    {s : σ} {body : Nat × Bytes → Except GossipsubErr (Bytes × σ)}
    (h : ∀ v rest, (body (v, rest)).toOption =
      (step ⟨number, .varint v⟩ s).map fun s' => (rest, s')) :
    (readUvarint rest >>= body).toOption =
      (readScalar uvarintCode wireVarint rest).bind fun p =>
        (step ⟨number, p.1⟩ s).map fun s' => (p.2, s') := by
  rw [toOption_bind, ← readUvarint_toOption]
  cases readUvarint rest with
  | error e => rfl
  | ok p => simp [h]

/-- The field as the loop sees it: its number modulo 2^32. -/
def cutNumber (f : Field) : Field := { f with number := f.number % 2 ^ 32 }

/-- The decoders refuse a group whatever its number is. -/
def ungrouped (step : Field → σ → Option σ) (f : Field) (s : σ) : Option σ :=
  if f.payload = .group then none else step f s

/-- Run `step` over the fields in order. -/
def foldFields {σ : Type} (step : Field → σ → Option σ) (fs : List Field) (s : σ) : Option σ :=
  fs.foldlM (fun s f => step f s) s

@[simp] theorem foldFields_nil (step : Field → σ → Option σ) (s : σ) :
    foldFields step [] s = some s := rfl

@[simp] theorem foldFields_cons (step : Field → σ → Option σ) (f : Field)
    (fs : List Field) (s : σ) :
    foldFields step (f :: fs) s = (step f s).bind (foldFields step fs) := rfl

theorem foldFields_append (step : Field → σ → Option σ) (fs gs : List Field) (s : σ) :
    foldFields step (fs ++ gs) s = (foldFields step fs s).bind (foldFields step gs) := by
  rw [foldFields, List.foldlM_append]
  rfl

/-- The decode loop is the parse followed by the fold over the fields. -/
theorem fieldLoop_toOption {body : Nat → Nat → Bytes → σ → Except GossipsubErr (Bytes × σ)}
    {step : Field → σ → Option σ} (hbody : Interprets body step) :
    ∀ (fuel : Nat) (bs : Bytes) (s : σ), bs.length ≤ fuel →
      (fieldLoop body fuel bs s).toOption =
        (parse uvarintCode bs).bind fun fs => foldFields (ungrouped step) (fs.map cutNumber) s := by
  intro fuel
  induction fuel with
  | zero =>
    intro bs s h
    obtain rfl : bs = [] := List.length_eq_zero_iff.mp (by omega)
    rfl
  | succ fuel ih =>
    intro bs s h
    by_cases hnil : bs = []
    · subst hnil; rfl
    rw [fieldLoop, if_neg hnil, parse_eq uvarintCode hnil, toOption_bind]
    unfold readField
    simp only [uvarintCode_read, Option.bind_eq_bind]
    cases hkey : readUvarint bs with
    | error e => rfl
    | ok p =>
      obtain ⟨key, rest⟩ := p
      have hlt := readUvarint_length hkey
      simp only [toOption_ok, Option.bind_some]
      rw [toOption_bind, hbody, key_number, key_wire]
      rw [readScalar_eq uvarintCode (key / 8)]
      cases hp : readPayload uvarintCode (key / 8) (key % 8) rest with
      | none => rfl
      | some q =>
        obtain ⟨payload, rest'⟩ := q
        have hle := readPayload_length uvarintCode hp
        have hcut : ungrouped step (cutNumber ⟨key / 8, payload⟩) s =
            if payload = .group then none else step ⟨key / 8 % 2 ^ 32, payload⟩ s := rfl
        simp only [Option.bind_some, Option.pure_def]
        by_cases hgroup : payload = .group
        · rw [if_pos hgroup] at hcut
          subst hgroup
          rw [Option.filter_some, if_neg (by simp)]
          cases parse uvarintCode rest' <;> simp [hcut]
        rw [if_neg hgroup] at hcut
        rw [Option.filter_some, if_pos (by simpa using hgroup), Option.bind_some, ← hcut]
        cases hs : ungrouped step (cutNumber ⟨key / 8, payload⟩) s with
        | none => cases parse uvarintCode rest' <;> simp [hs]
        | some s' =>
          simp only [Option.map_some, Option.bind_some]
          rw [ih rest' s' (by omega)]
          cases parse uvarintCode rest' <;> simp [hs]

end LeanLibp2p.Gossipsub
