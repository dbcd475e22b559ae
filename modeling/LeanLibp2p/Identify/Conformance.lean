import LeanLibp2p.Identify.Codec
import LeanLibp2p.Gossipsub.Codec.RoundTrip

/-!
# The identify codec against its schema

The three traversals of the codec all run over one list of fields: measuring adds up its
lengths, writing concatenates its bytes, reading folds over what was parsed. The schema is
stated on the parsed fields, independent of the loop that reads them.
-/

namespace LeanLibp2p.Identify

open LeanLibp2p.Gossipsub
open LeanLibp2p.Lib.Protobuf

variable (message : Message)
variable {fs : List Field}

/-! ## Writing -/

/-- The fields of a scalar that may be absent. -/
def presentEntry (field : Nat) (data : Span) : List (Nat × Span) :=
  if data.present then [(field, data)] else []

/-- What the codec writes, in its order. -/
def Message.entries : List (Nat × Span) :=
  presentEntry fieldPublicKey message.publicKey ++
    (message.listenAddrs.map (Prod.mk fieldListenAddrs) ++
      (message.protocols.map (Prod.mk fieldProtocols) ++
        (presentEntry fieldObservedAddr message.observedAddr ++
          (presentEntry fieldProtocolVersion message.protocolVersion ++
            presentEntry fieldAgentVersion message.agentVersion))))

/-- The protobuf field of an entry. -/
def entryField (entry : Nat × Span) : Field := spanField entry.1 entry.2

/-- The fields of a message. -/
def Message.fields : List Field := message.entries.map entryField

theorem presentSize_entries (field : Nat) (data : Span) :
    presentSize field data =
      fun total => (presentEntry field data).foldlM (fun n e => elementSize e.1 n e.2) total := by
  funext total
  unfold presentSize presentEntry
  by_cases h : data.present = true
  · simp [h, elementSize]
  · simp [h, pure, Except.pure]

theorem writePresent_entries (field cap : Nat) (data : Span) :
    writePresent field data cap =
      fun out => (presentEntry field data).foldlM (fun o e => writeField e.1 e.2 cap o) out := by
  funext out
  unfold writePresent presentEntry
  by_cases h : data.present = true
  · simp [h]
  · simp [h, pure, Except.pure]

/-- Measuring runs over the entries. -/
theorem messageSize_entries :
    messageSize message =
      if maxListenAddrs < message.listenAddrs.length ∨
          maxProtocols < message.protocols.length then .error .invalidArg
      else message.entries.foldlM (fun n e => elementSize e.1 n e.2) 0 := by
  unfold messageSize
  simp only [presentSize_entries, Message.entries, List.foldlM_append, List.foldlM_map]
  split <;> rfl

/-- Writing runs over the entries. -/
theorem writeMessage_entries (cap : Nat) :
    writeMessage message cap = message.entries.foldlM (fun o e => writeField e.1 e.2 cap o) [] := by
  unfold writeMessage
  simp only [writePresent_entries, Message.entries, List.foldlM_append, List.foldlM_map]

/-- An entry is measured when it is present and the sum fits in a `size_t`. -/
theorem elementSize_eq_ok {field total t : Nat} {data : Span} (htotal : total ≤ sizeMax) :
    elementSize field total data = .ok t ↔
      data.present = true ∧
        t = total + ((entryField (field, data)).write uvarintCode).length ∧ t ≤ sizeMax := by
  unfold elementSize
  by_cases h : data.present = true
  · have hlen := Span.len_eq (Span.isNull_of_present h)
    have hw : ((entryField (field, data)).write uvarintCode).length =
        uvarintSize (lenKey field) + uvarintSize data.len + data.len := by
      rw [entryField, spanField, lenField_write, List.length_append, List.length_append,
        uvarintCode_write_length, uvarintCode_write_length, hlen]
      rfl
    rw [if_pos h, hw]
    unfold fieldSize sizeAdd
    by_cases h₁ : sizeMax - total < uvarintSize (lenKey field) + uvarintSize data.len
    · rw [if_pos h₁]
      constructor
      · intro hok; cases hok
      · rintro ⟨-, ht, hle⟩; omega
    · rw [if_neg h₁]
      by_cases h₂ : sizeMax - (total + (uvarintSize (lenKey field) + uvarintSize data.len)) <
          data.len
      · simp only [if_pos h₂]
        constructor
        · intro hok; cases hok
        · rintro ⟨-, ht, hle⟩; omega
      · simp only [if_neg h₂, Except.ok.injEq]
        constructor
        · intro ht
          exact ⟨h, by omega, by omega⟩
        · rintro ⟨-, ht, -⟩
          omega
  · rw [if_neg h]
    constructor
    · intro hok; cases hok
    · rintro ⟨hp, -⟩; exact absurd hp h

/-- The measured size of a list of entries is the length of their bytes. -/
theorem entriesSize_eq_ok {entries : List (Nat × Span)} :
    ∀ {total t : Nat}, total ≤ sizeMax →
      (entries.foldlM (fun n e => elementSize e.1 n e.2) total = Except.ok t ↔
        (∀ e ∈ entries, e.2.present = true) ∧
          t = total + (writeAll uvarintCode (entries.map entryField)).length ∧ t ≤ sizeMax) := by
  induction entries with
  | nil =>
    intro total t htotal
    simp only [List.foldlM_nil, pure, Except.pure, Except.ok.injEq, List.not_mem_nil,
      false_implies, implies_true, List.map_nil, writeAll_nil, List.length_nil, Nat.add_zero,
      true_and]
    omega
  | cons e entries ih =>
    intro total t htotal
    rw [List.foldlM_cons, bind_eq_ok, List.map_cons, writeAll_cons, List.length_append]
    constructor
    · rintro ⟨mid, hmid, hrest⟩
      obtain ⟨hp, hsum, hle⟩ := (elementSize_eq_ok htotal).mp hmid
      obtain ⟨hall, ht, htle⟩ := (ih hle).mp hrest
      rw [Prod.mk.eta] at hsum
      exact ⟨List.forall_mem_cons.mpr ⟨hp, hall⟩, by omega, htle⟩
    · rintro ⟨hall, ht, htle⟩
      obtain ⟨hp, hall⟩ := List.forall_mem_cons.mp hall
      have hle : total + ((entryField e).write uvarintCode).length ≤ sizeMax := by omega
      exact ⟨_, (elementSize_eq_ok htotal).mpr ⟨hp, rfl, hle⟩,
        (ih hle).mpr ⟨hall, by omega, htle⟩⟩

/-- `libp2p_identify_message_size` measures the fields of the message. -/
theorem messageSize_eq_ok {message : Message} {n : Nat} :
    messageSize message = .ok n ↔
      (message.listenAddrs.length ≤ maxListenAddrs ∧ message.protocols.length ≤ maxProtocols) ∧
        (∀ e ∈ message.entries, e.2.present = true) ∧
          n = (writeAll uvarintCode message.fields).length ∧ n ≤ sizeMax := by
  rw [messageSize_entries]
  by_cases h : maxListenAddrs < message.listenAddrs.length ∨
      maxProtocols < message.protocols.length
  · rw [if_pos h]
    constructor
    · intro hok; cases hok
    · rintro ⟨⟨h₁, h₂⟩, -⟩; omega
  · rw [if_neg h, entriesSize_eq_ok (Nat.zero_le _), Nat.zero_add]
    constructor
    · intro hok
      exact ⟨by omega, hok⟩
    · intro hok
      exact hok.2

/-- The identify writer accepts and writes what the gossipsub writer does. -/
theorem writeUvarint_toOption (value cap : Nat) (out : Bytes) :
    (writeUvarint value cap out).toOption = (Gossipsub.writeUvarint value cap out).toOption := by
  unfold writeUvarint Gossipsub.writeUvarint
  split
  · rfl
  · cases uvarintEncode value (cap - out.length) <;> rfl

theorem writeUvarint_eq_ok {value cap : Nat} {out out' : Bytes} (hout : out.length ≤ cap) :
    writeUvarint value cap out = .ok out' ↔
      out.length + (uvarintCode.write value).length ≤ cap ∧ value < 2 ^ 63 ∧
        out' = out ++ uvarintCode.write value := by
  rw [← toOption_eq_some, writeUvarint_toOption, toOption_eq_some]
  exact writeUvarint_writes value cap out hout out'

/-- A field is written when it is not NULL, fits the varint code and there is room. -/
theorem writeField_eq_ok {field cap : Nat} {data : Span} {out out' : Bytes}
    (hdata : data.isNull = false) (hout : out.length ≤ cap) :
    writeField field data cap out = .ok out' ↔
      out.length + ((entryField (field, data)).write uvarintCode).length ≤ cap ∧
        (entryField (field, data)).Fits uvarintCode ∧
          out' = out ++ (entryField (field, data)).write uvarintCode := by
  have hlen := Span.len_eq hdata
  have hw : (entryField (field, data)).write uvarintCode =
      (uvarintCode.write (lenKey field) ++ uvarintCode.write data.len) ++ data.bytes := by
    rw [entryField, spanField, lenField_write, hlen]
    rfl
  have hf : (entryField (field, data)).Fits uvarintCode ↔ lenKey field < 2 ^ 63 ∧
      data.len < 2 ^ 63 := by
    rw [entryField, spanField, lenField_fits, hlen]
    rfl
  rw [hw, hf]
  unfold writeField
  rw [hdata, if_neg (by decide)]
  simp only [bind_eq_ok, List.length_append]
  constructor
  · rintro ⟨mid, hmid, mid', hmid', hrest⟩
    obtain ⟨hroom, hkey, rfl⟩ := (writeUvarint_eq_ok hout).mp hmid
    obtain ⟨hroom', hdlen, rfl⟩ :=
      (writeUvarint_eq_ok (by rw [List.length_append]; omega)).mp hmid'
    simp only [List.length_append] at hroom' hrest
    split at hrest
    · cases hrest
    · simp only [pure, Except.pure, Except.ok.injEq] at hrest
      refine ⟨by omega, ⟨hkey, hdlen⟩, ?_⟩
      rw [← hrest]
      simp only [List.append_assoc]
  · rintro ⟨hroom, ⟨hkey, hdlen⟩, rfl⟩
    refine ⟨_, (writeUvarint_eq_ok hout).mpr ⟨by omega, hkey, rfl⟩, _,
      (writeUvarint_eq_ok (by rw [List.length_append]; omega)).mpr
        ⟨by rw [List.length_append]; omega, hdlen, rfl⟩, ?_⟩
    simp only [List.length_append]
    rw [if_neg (by omega)]
    simp [pure, Except.pure]

/-- What a list of entries is written as. -/
theorem writeEntries_eq_ok {cap : Nat} {entries : List (Nat × Span)} :
    ∀ {out out' : Bytes}, (∀ e ∈ entries, e.2.present = true) → out.length ≤ cap →
      (entries.foldlM (fun o e => writeField e.1 e.2 cap o) out = Except.ok out' ↔
        out.length + (writeAll uvarintCode (entries.map entryField)).length ≤ cap ∧
          AllFit (entries.map entryField) ∧
            out' = out ++ writeAll uvarintCode (entries.map entryField)) := by
  induction entries with
  | nil =>
    intro out out' _ hout
    simp only [List.foldlM_nil, pure, Except.pure, Except.ok.injEq, List.map_nil, writeAll_nil,
      List.length_nil, Nat.add_zero, allFit_nil, List.append_nil, hout, true_and]
    exact eq_comm
  | cons e entries ih =>
    intro out out' hall hout
    obtain ⟨hp, hall⟩ := List.forall_mem_cons.mp hall
    have hnull := Span.isNull_of_present hp
    rw [List.foldlM_cons, bind_eq_ok, List.map_cons, writeAll_cons, List.length_append,
      allFit_cons]
    constructor
    · rintro ⟨mid, hmid, hrest⟩
      obtain ⟨hroom, hfit, rfl⟩ := (writeField_eq_ok hnull hout).mp hmid
      rw [Prod.mk.eta] at hroom hfit hrest
      obtain ⟨hroom', hfits, rfl⟩ :=
        (ih hall (by rw [List.length_append]; exact hroom)).mp hrest
      rw [List.length_append] at hroom'
      exact ⟨by omega, ⟨hfit, hfits⟩, by rw [List.append_assoc]⟩
    · rintro ⟨hroom, ⟨hfit, hfits⟩, rfl⟩
      have hle : out.length + ((entryField e).write uvarintCode).length ≤ cap := by omega
      refine ⟨_, (writeField_eq_ok hnull hout).mpr ⟨hle, hfit, rfl⟩, ?_⟩
      rw [Prod.mk.eta]
      refine (ih hall (by rw [List.length_append]; exact hle)).mpr ⟨?_, hfits, ?_⟩
      · rw [List.length_append]; omega
      · rw [List.append_assoc]

/-- With room for the measured size, encoding writes the fields of the message when each of
    them fits the varint code. -/
theorem messageEncode_eq_ok {message : Message} {n cap : Nat} {out : Bytes}
    (hsize : messageSize message = .ok n) (hcap : n ≤ cap) :
    messageEncode message (some cap) = .ok out ↔
      AllFit message.fields ∧ out = writeAll uvarintCode message.fields := by
  obtain ⟨-, hall, hn, -⟩ := messageSize_eq_ok.mp hsize
  unfold messageEncode
  rw [hsize]
  simp only [if_neg (Nat.not_lt.mpr hcap), mapError_eq_ok]
  rw [writeMessage_entries, writeEntries_eq_ok hall (Nat.zero_le cap), List.length_nil,
    Nat.zero_add, List.nil_append]
  constructor
  · rintro ⟨-, hfit, hout⟩
    exact ⟨hfit, hout⟩
  · rintro ⟨hfit, hout⟩
    exact ⟨by rw [← Message.fields]; omega, hfit, hout⟩

/-! ## Reading -/

/-- What the decode loop does with a field whose number it has cut. -/
def lenStep (f : Field) (out : Message) : Option Message :=
  match f.payload with
  | .len b => if f.number = 0 then none else (storeField f.number (.ptr b) out).toOption
  | _ => none

theorem lenStep_cut_len (n : Nat) (b : Bytes) (out : Message) :
    lenStep (cutNumber ⟨n, .len b⟩) out =
      if n % 2 ^ 32 = 0 then none else (storeField (n % 2 ^ 32) (.ptr b) out).toOption := rfl

theorem readUvarint_toOption (bs : Bytes) :
    (readUvarint bs).toOption = (Gossipsub.readUvarint bs).toOption := by
  unfold readUvarint Gossipsub.readUvarint
  cases uvarintDecode bs <;> rfl

/-- One round reads one field and stores it. -/
theorem decodeField_toOption (bs : Bytes) (out : Message) :
    (decodeField bs out).toOption =
      (readField uvarintCode bs).bind fun p =>
        (lenStep (cutNumber p.1) out).map fun out' => (p.2, out') := by
  unfold decodeField readField
  simp only [toOption_bind, readUvarint_toOption, uvarintCode_read, Option.bind_eq_bind,
    Option.bind_assoc]
  cases (Gossipsub.readUvarint bs).toOption with
  | none => rfl
  | some p =>
    obtain ⟨key, rest⟩ := p
    simp only [Option.bind_some, key_number, key_wire]
    by_cases hwire : key % 8 = wireLen
    · have hpay : readPayload uvarintCode (key / 8) (key % 8) rest =
          (Gossipsub.readUvarint rest).toOption.bind fun q =>
            (readBytes q.1 q.2).map fun r => (Payload.len r.1, r.2) := by
        rw [hwire]
        simp only [readPayload, readScalar, wireLen, uvarintCode_read, Option.bind_eq_bind, if_true,
          OfNat.ofNat_ne_zero, Nat.reduceEqDiff, if_false]
        cases (Gossipsub.readUvarint rest).toOption with
        | none => rfl
        | some q => cases hb : readBytes q.1 q.2 <;> simp [hb]
      rw [hpay]
      simp only [toOption_ite, toOption_bind, readUvarint_toOption, toOption_pure]
      by_cases hnum : key / 8 % 2 ^ 32 = 0
      · rw [if_pos (Or.inl hnum)]
        cases (Gossipsub.readUvarint rest).toOption with
        | none => rfl
        | some q =>
          simp only [Option.bind_some]
          cases readBytes q.1 q.2 with
          | none => rfl
          | some r =>
            simp only [Option.map_some, Option.bind_some, Option.pure_def, toOption_throw,
              Option.bind_none]
            rw [lenStep_cut_len, if_pos hnum]
            rfl
      · rw [if_neg (by simp only [hnum, hwire, ne_eq, not_true_eq_false, or_self,
          not_false_eq_true])]
        cases (Gossipsub.readUvarint rest).toOption with
        | none => rfl
        | some q =>
          obtain ⟨len, rest'⟩ := q
          simp only [Option.bind_some, readBytes]
          by_cases hlen : rest'.length < len
          · rw [if_pos hlen, if_pos hlen]
            rfl
          · rw [if_neg hlen, if_neg hlen]
            simp only [Option.map_some, Option.bind_some, Option.pure_def]
            rw [lenStep_cut_len, if_neg hnum]
            cases storeField (key / 8 % 2 ^ 32) (Span.ptr (rest'.take len)) out <;> rfl
    · rw [if_pos (Or.inr hwire)]
      cases hp : readPayload uvarintCode (key / 8) (key % 8) rest with
      | none => rfl
      | some r =>
        have hw := readPayload_wire uvarintCode hp
        obtain ⟨payload, rest'⟩ := r
        cases payload with
        | len b => exact absurd hw.symm hwire
        | _ => rfl

/-- The decode loop is the parse followed by the fold over the fields. -/
theorem decodeLoop_toOption :
    ∀ (fuel : Nat) (bs : Bytes) (out : Message), bs.length ≤ fuel →
      (decodeLoop fuel bs out).toOption =
        (parse uvarintCode bs).bind fun fs => foldFields lenStep (fs.map cutNumber) out := by
  intro fuel
  induction fuel with
  | zero =>
    intro bs out h
    obtain rfl : bs = [] := List.length_eq_zero_iff.mp (by omega)
    rfl
  | succ fuel ih =>
    intro bs out h
    by_cases hnil : bs = []
    · subst hnil; rfl
    rw [decodeLoop, if_neg hnil, parse_eq uvarintCode hnil, toOption_bind, decodeField_toOption]
    cases hf : readField uvarintCode bs with
    | none => rfl
    | some p =>
      obtain ⟨f, rest⟩ := p
      have hlt := readField_length uvarintCode hf
      simp only [Option.bind_some]
      cases hs : lenStep (cutNumber f) out with
      | none => cases parse uvarintCode rest <;> simp [hs]
      | some out' =>
        simp only [Option.map_some, Option.bind_some]
        rw [ih rest out' (by omega)]
        cases parse uvarintCode rest <;> simp [hs]

/-! ## The schema -/

/-- The numbers of the fields are legal and the lists are within their bounds. -/
structure SchemaValid (fs : List Field) : Prop where
  numbers : ∀ f ∈ fs, f.number ≠ 0
  listenAddrs : (lens fieldListenAddrs fs).length ≤ maxListenAddrs
  protocols : (lens fieldProtocols fs).length ≤ maxProtocols

instance (fs : List Field) : Decidable (SchemaValid fs) :=
  decidable_of_iff ((∀ f ∈ fs, f.number ≠ 0) ∧ (lens fieldListenAddrs fs).length ≤ maxListenAddrs ∧
      (lens fieldProtocols fs).length ≤ maxProtocols)
    ⟨fun h => ⟨h.1, h.2.1, h.2.2⟩, fun h => ⟨h.1, h.2, h.3⟩⟩

/-- The message that the fields mean: a scalar is its last occurrence, a list all of its
    occurrences, and a field of another number or wire type is skipped. -/
def schemaMessage (fs : List Field) : Message :=
  { protocolVersion := lastSpan fieldProtocolVersion fs
    agentVersion := lastSpan fieldAgentVersion fs
    publicKey := lastSpan fieldPublicKey fs
    observedAddr := lastSpan fieldObservedAddr fs
    listenAddrs := (lens fieldListenAddrs fs).map .ptr
    protocols := (lens fieldProtocols fs).map .ptr }

/-- The reference parse of an identify message. -/
def referenceDecode (bs : Bytes) : Option Message :=
  (parse uvarintCode bs).bind fun fs => if SchemaValid fs then some (schemaMessage fs) else none

/-- Every field is length-delimited. -/
def LenOnly (fs : List Field) : Prop := ∀ f ∈ fs, f.payload.wire = wireLen

instance (fs : List Field) : Decidable (LenOnly fs) :=
  inferInstanceAs (Decidable (∀ f ∈ fs, f.payload.wire = wireLen))

theorem schemaValid_snoc_len (fs : List Field) (n : Nat) (b : Bytes) :
    SchemaValid (fs ++ [⟨n, .len b⟩]) ↔
      SchemaValid fs ∧ n ≠ 0 ∧
        (n = fieldListenAddrs → (lens fieldListenAddrs fs).length ≠ maxListenAddrs) ∧
        (n = fieldProtocols → (lens fieldProtocols fs).length ≠ maxProtocols) := by
  constructor
  · rintro ⟨hnum, haddr, hproto⟩
    simp only [lens_append, lens_cons_len, lens_nil, List.length_append] at haddr hproto
    refine ⟨⟨fun f hf => hnum f (by simp [hf]), by omega, by omega⟩, hnum ⟨n, .len b⟩ (by simp),
      ?_, ?_⟩
    · rintro rfl
      simp only [if_true, List.length_cons, List.length_nil] at haddr
      omega
    · rintro rfl
      simp only [if_true, List.length_cons, List.length_nil] at hproto
      omega
  · rintro ⟨⟨hnum, haddr, hproto⟩, hn, hroom, hroom'⟩
    refine ⟨?_, ?_, ?_⟩
    · intro f hf
      rcases List.mem_append.mp hf with hf | hf
      · exact hnum f hf
      · rw [List.mem_singleton.mp hf]
        exact hn
    · simp only [lens_append, lens_cons_len, lens_nil, List.length_append]
      split
      · rename_i h
        have := hroom h
        simp only [List.length_cons, List.length_nil]
        omega
      · exact haddr
    · simp only [lens_append, lens_cons_len, lens_nil, List.length_append]
      split
      · rename_i h
        have := hroom' h
        simp only [List.length_cons, List.length_nil]
        omega
      · exact hproto

/-- Storing one field more is the schema of one field more. -/
theorem storeField_schema {n : Nat} (b : Bytes) (hv : SchemaValid fs) (hn : n ≠ 0) :
    (storeField n (.ptr b) (schemaMessage fs)).toOption =
      if SchemaValid (fs ++ [⟨n, .len b⟩]) then some (schemaMessage (fs ++ [⟨n, .len b⟩]))
      else none := by
  simp only [schemaValid_snoc_len, hv, hn, true_and, ne_eq, not_false_eq_true]
  unfold storeField
  by_cases h₁ : n = fieldPublicKey
  · subst h₁
    simp [schemaMessage, fieldPublicKey, fieldListenAddrs, fieldProtocols, fieldObservedAddr,
      fieldProtocolVersion, fieldAgentVersion]
  by_cases h₂ : n = fieldListenAddrs
  · subst h₂
    by_cases hroom : (lens fieldListenAddrs fs).length = maxListenAddrs
    · simp [schemaMessage, fieldPublicKey, fieldListenAddrs] at hroom ⊢
      simp [hroom]
    · simp [schemaMessage, fieldPublicKey, fieldListenAddrs, fieldProtocols, fieldObservedAddr,
        fieldProtocolVersion, fieldAgentVersion] at hroom ⊢
      simp [hroom]
  by_cases h₃ : n = fieldProtocols
  · subst h₃
    by_cases hroom : (lens fieldProtocols fs).length = maxProtocols
    · simp [schemaMessage, fieldPublicKey, fieldListenAddrs, fieldProtocols] at hroom ⊢
      simp [hroom]
    · simp [schemaMessage, fieldPublicKey, fieldListenAddrs, fieldProtocols, fieldObservedAddr,
        fieldProtocolVersion, fieldAgentVersion] at hroom ⊢
      simp [hroom]
  by_cases h₄ : n = fieldObservedAddr
  · subst h₄
    simp [schemaMessage, fieldPublicKey, fieldListenAddrs, fieldProtocols, fieldObservedAddr,
      fieldProtocolVersion, fieldAgentVersion]
  by_cases h₅ : n = fieldProtocolVersion
  · subst h₅
    simp [schemaMessage, fieldPublicKey, fieldListenAddrs, fieldProtocols, fieldObservedAddr,
      fieldProtocolVersion, fieldAgentVersion]
  by_cases h₆ : n = fieldAgentVersion
  · subst h₆
    simp [schemaMessage, fieldPublicKey, fieldListenAddrs, fieldProtocols, fieldObservedAddr,
      fieldProtocolVersion, fieldAgentVersion]
  · simp [schemaMessage, h₁, h₂, h₃, h₄, h₅, h₆]

theorem lenOnly_snoc (fs : List Field) (f : Field) :
    LenOnly (fs ++ [f]) ↔ LenOnly fs ∧ f.payload.wire = wireLen := by
  simp [LenOnly, or_imp, forall_and]

theorem SchemaValid.of_snoc {f : Field} (h : SchemaValid (fs ++ [f])) : SchemaValid fs := by
  obtain ⟨hnum, haddr, hproto⟩ := h
  simp only [lens_append, List.length_append] at haddr hproto
  exact ⟨fun g hg => hnum g (by simp [hg]), by omega, by omega⟩

/-- The fold over length-delimited fields computes the schema. -/
theorem foldFields_schema (fs : List Field) :
    foldFields lenStep fs .zero =
      if LenOnly fs ∧ SchemaValid fs then some (schemaMessage fs) else none := by
  induction fs using List.reverseRecOn with
  | nil =>
    have h : LenOnly [] ∧ SchemaValid [] := by decide
    rw [if_pos h]
    rfl
  | append_singleton fs f ih =>
    rw [foldFields_append, ih]
    simp only [lenOnly_snoc]
    by_cases hfs : LenOnly fs ∧ SchemaValid fs
    · rw [if_pos hfs, Option.bind_some, foldFields_cons]
      obtain ⟨n, payload⟩ := f
      cases payload with
      | len b =>
        by_cases hn : n = 0
        · rw [if_neg]
          · simp [lenStep, hn]
          · rintro ⟨-, hv⟩
            exact hv.numbers ⟨n, .len b⟩ (by simp) hn
        · have hstep : lenStep ⟨n, .len b⟩ (schemaMessage fs) =
              (storeField n (.ptr b) (schemaMessage fs)).toOption := if_neg hn
          rw [hstep, storeField_schema b hfs.2 hn]
          by_cases hv : SchemaValid (fs ++ [⟨n, .len b⟩])
          · rw [if_pos hv, if_pos ⟨⟨hfs.1, rfl⟩, hv⟩]
            rfl
          · rw [if_neg hv, if_neg (fun h => hv h.2)]
            rfl
      | _ =>
        rw [if_neg (fun h => absurd h.1.2 (by simp [Payload.wire, wireLen]))]
        rfl
    · rw [if_neg hfs, if_neg (fun h => hfs ⟨h.1.1, h.2.of_snoc⟩)]
      rfl

/-! ## The decoder against the reference -/

/-- The decoder accepts exactly what the reference accepts, with the same message. -/
def Conforms (bs : Bytes) : Prop := (messageDecode bs).toOption = referenceDecode bs

instance (bs : Bytes) : Decidable (Conforms bs) := inferInstanceAs (Decidable (_ = _))

/-- Cutting the field numbers to 32 bits makes none of them zero and changes neither the two
    lists nor the last occurrence of a scalar. -/
structure CutHarmless (fs : List Field) : Prop where
  numbers : ∀ f ∈ fs, f.number % 2 ^ 32 ≠ 0
  listenAddrs : lens fieldListenAddrs (fs.map cutNumber) = lens fieldListenAddrs fs
  protocols : lens fieldProtocols (fs.map cutNumber) = lens fieldProtocols fs
  scalars : ∀ n ∈ [fieldPublicKey, fieldObservedAddr, fieldProtocolVersion, fieldAgentVersion],
    lastSpan n (fs.map cutNumber) = lastSpan n fs

instance (fs : List Field) : Decidable (CutHarmless fs) :=
  decidable_of_iff ((∀ f ∈ fs, f.number % 2 ^ 32 ≠ 0) ∧
      lens fieldListenAddrs (fs.map cutNumber) = lens fieldListenAddrs fs ∧
      lens fieldProtocols (fs.map cutNumber) = lens fieldProtocols fs ∧
      ∀ n ∈ [fieldPublicKey, fieldObservedAddr, fieldProtocolVersion, fieldAgentVersion],
        lastSpan n (fs.map cutNumber) = lastSpan n fs)
    ⟨fun h => ⟨h.1, h.2.1, h.2.2.1, h.2.2.2⟩, fun h => ⟨h.1, h.2, h.3, h.4⟩⟩

/-- The input is not empty and, where it is an encoding of the schema, has only
    length-delimited fields with numbers that may be cut. -/
def ReadPlain (bs : Bytes) : Prop :=
  bs ≠ [] ∧ ∀ fs, parse uvarintCode bs = some fs → SchemaValid fs → LenOnly fs ∧ CutHarmless fs

theorem lenOnly_cut (fs : List Field) : LenOnly (fs.map cutNumber) ↔ LenOnly fs := by
  simp [LenOnly, cutNumber]

/-- Cutting the numbers loses no occurrence of a known field. -/
theorem lens_cut_length {n : Nat} (hn : n < 2 ^ 32) (fs : List Field) :
    (lens n fs).length ≤ (lens n (fs.map cutNumber)).length := by
  induction fs with
  | nil => exact Nat.le_refl _
  | cons f fs ih =>
    obtain ⟨m, payload⟩ := f
    cases payload with
    | len b =>
      rw [List.map_cons, lens_cons_len]
      show _ ≤ (lens n (⟨m % 2 ^ 32, .len b⟩ :: fs.map cutNumber)).length
      rw [lens_cons_len]
      by_cases hm : m = n
      · rw [if_pos hm, if_pos (by rw [hm, Nat.mod_eq_of_lt hn])]
        simpa using ih
      · rw [if_neg hm]
        split
        · rw [List.length_cons]
          omega
        · exact ih
    | varint v => simpa [cutNumber] using ih
    | group => simpa [cutNumber] using ih
    | fixed64 b => simpa [cutNumber] using ih
    | fixed32 b => simpa [cutNumber] using ih

/-- What the cut fields validate, the fields validate. -/
theorem SchemaValid.of_cut (h : SchemaValid (fs.map cutNumber)) : SchemaValid fs := by
  refine ⟨?_, ?_, ?_⟩
  · intro f hf hzero
    apply h.numbers (cutNumber f) (List.mem_map_of_mem hf)
    simp [cutNumber, hzero]
  · exact Nat.le_trans (lens_cut_length (by decide) fs) h.listenAddrs
  · exact Nat.le_trans (lens_cut_length (by decide) fs) h.protocols

/-- The decoder computes the schema of the cut fields when all are length-delimited. -/
theorem messageDecode_toOption {bs : Bytes} (hbs : bs ≠ []) :
    (messageDecode bs).toOption =
      (parse uvarintCode bs).bind fun fs =>
        if LenOnly fs ∧ SchemaValid (fs.map cutNumber) then some (schemaMessage (fs.map cutNumber))
        else none := by
  unfold messageDecode
  rw [if_neg hbs, decodeLoop_toOption _ bs _ (Nat.le_refl _)]
  congr 1
  funext fs
  rw [foldFields_schema]
  simp only [lenOnly_cut]

theorem ptr_injective : Function.Injective Span.ptr := fun _ _ h => by injection h

/-- Harmless cuts leave the schema as it is. -/
theorem CutHarmless.schema (h : CutHarmless fs) :
    schemaMessage (fs.map cutNumber) = schemaMessage fs := by
  unfold schemaMessage
  rw [h.listenAddrs, h.protocols, h.scalars fieldPublicKey (by decide),
    h.scalars fieldObservedAddr (by decide), h.scalars fieldProtocolVersion (by decide),
    h.scalars fieldAgentVersion (by decide)]

theorem CutHarmless.valid (h : CutHarmless fs) (hv : SchemaValid fs) :
    SchemaValid (fs.map cutNumber) := by
  refine ⟨?_, ?_, ?_⟩
  · intro f hf
    obtain ⟨g, hg, rfl⟩ := List.mem_map.mp hf
    exact h.numbers g hg
  · rw [h.listenAddrs]
    exact hv.listenAddrs
  · rw [h.protocols]
    exact hv.protocols

/-- Only harmless cuts leave the schema as it is. -/
theorem cutHarmless_of_schema (hv : SchemaValid (fs.map cutNumber))
    (h : schemaMessage (fs.map cutNumber) = schemaMessage fs) : CutHarmless fs := by
  simp only [schemaMessage, Message.mk.injEq] at h
  obtain ⟨hversion, hagent, hkey, hobserved, haddrs, hprotocols⟩ := h
  refine ⟨?_, List.map_injective_iff.mpr ptr_injective haddrs,
    List.map_injective_iff.mpr ptr_injective hprotocols, ?_⟩
  · intro f hf
    exact hv.numbers (cutNumber f) (List.mem_map_of_mem hf)
  · intro n hn
    simp only [List.mem_cons, List.not_mem_nil, or_false] at hn
    rcases hn with rfl | rfl | rfl | rfl
    · exact hkey
    · exact hobserved
    · exact hversion
    · exact hagent

/-- The decoder reads an input as the schema does exactly when it is read plainly. -/
theorem conforms_iff_readPlain (bs : Bytes) : Conforms bs ↔ ReadPlain bs := by
  unfold Conforms ReadPlain referenceDecode
  by_cases hbs : bs = []
  · subst hbs
    have hv : SchemaValid [] := by decide
    simp [messageDecode, hv]
  rw [messageDecode_toOption hbs]
  cases parse uvarintCode bs with
  | none => simp [hbs]
  | some fs =>
    simp only [Option.bind_some, ne_eq, hbs, not_false_eq_true, Option.some.injEq,
      forall_eq', true_and]
    by_cases hv : SchemaValid fs
    · rw [if_pos hv]
      constructor
      · intro h _
        split at h
        · rename_i hcut
          injection h with h
          exact ⟨hcut.1, cutHarmless_of_schema hcut.2 h⟩
        · cases h
      · intro h
        obtain ⟨hlen, hcut⟩ := h hv
        rw [if_pos ⟨hlen, hcut.valid hv⟩, hcut.schema]
    · rw [if_neg hv, if_neg (fun h => hv h.2.of_cut)]
      simp [hv]

/-! ## The round trip -/

/-- Absent and empty scalars are read back as absent. -/
def Message.normalForm : Message :=
  { message with
    protocolVersion := message.protocolVersion.normal
    agentVersion := message.agentVersion.normal
    publicKey := message.publicKey.normal
    observedAddr := message.observedAddr.normal }

/-- Once the message is measured, encoding writes that many bytes into any buffer that has
    them, and decoding reads the message back. -/
def RoundTrips : Prop :=
  ∀ n, messageSize message = .ok n → ∀ cap, n ≤ cap →
    ∃ bytes, messageEncode message (some cap) = .ok bytes ∧ bytes.length = n ∧
      messageDecode bytes = .ok message.normalForm

/-- Something is there to be written and every field has a length below 2^63. -/
def Writable : Prop :=
  message.entries ≠ [] ∧ ∀ e ∈ message.entries, e.2.len < 2 ^ 63

instance : Decidable (Writable message) :=
  inferInstanceAs (Decidable (_ ∧ _))

theorem presentEntry_fields (field : Nat) (data : Span) :
    (presentEntry field data).map entryField = presentFields field data := by
  unfold presentEntry presentFields
  split <;> rfl

theorem listEntries_fields (field : Nat) (xs : List Span) :
    (xs.map (Prod.mk field)).map entryField = idFields field xs := by
  rw [List.map_map]
  rfl

theorem Message.fields_eq :
    message.fields = presentFields fieldPublicKey message.publicKey ++
      (idFields fieldListenAddrs message.listenAddrs ++
        (idFields fieldProtocols message.protocols ++
          (presentFields fieldObservedAddr message.observedAddr ++
            (presentFields fieldProtocolVersion message.protocolVersion ++
              presentFields fieldAgentVersion message.agentVersion)))) := by
  simp only [Message.fields, Message.entries, List.map_append, presentEntry_fields,
    listEntries_fields]

theorem mem_presentEntry {field : Nat} {data : Span} {e : Nat × Span}
    (h : e ∈ presentEntry field data) : e.1 = field := by
  unfold presentEntry at h
  split at h
  · rw [List.mem_singleton.mp h]
  · cases h

/-- The codec writes known field numbers only. -/
theorem Message.entries_number {message : Message} {e : Nat × Span} (h : e ∈ message.entries) :
    0 < e.1 ∧ e.1 < 7 := by
  have hlist : ∀ {field : Nat} {xs : List Span}, e ∈ xs.map (Prod.mk field) → e.1 = field := by
    rintro field xs hmem
    obtain ⟨x, -, rfl⟩ := List.mem_map.mp hmem
    rfl
  simp only [Message.entries, List.mem_append] at h
  rcases h with h | h | h | h | h | h
  · rw [mem_presentEntry h]; decide
  · rw [hlist h]; decide
  · rw [hlist h]; decide
  · rw [mem_presentEntry h]; decide
  · rw [mem_presentEntry h]; decide
  · rw [mem_presentEntry h]; decide

theorem Message.fields_number {message : Message} {f : Field} (h : f ∈ message.fields) :
    0 < f.number ∧ f.number < 7 := by
  obtain ⟨e, he, rfl⟩ := List.mem_map.mp h
  exact entries_number he

theorem Message.fields_cut : message.fields.map cutNumber = message.fields := by
  have hself : ∀ f ∈ message.fields, cutNumber f = f := by
    intro f hf
    have hlt := (fields_number hf).2
    unfold cutNumber
    rw [Nat.mod_eq_of_lt (by omega)]
  rw [List.map_congr_left hself, List.map_id']

theorem Message.fields_lenOnly : LenOnly message.fields := by
  intro f hf
  obtain ⟨e, -, rfl⟩ := List.mem_map.mp hf
  rfl

theorem Message.lens_listenAddrs :
    lens fieldListenAddrs message.fields = message.listenAddrs.map Span.bytes := by
  rw [fields_eq]
  simp [fieldPublicKey, fieldListenAddrs, fieldProtocols, fieldObservedAddr,
    fieldProtocolVersion, fieldAgentVersion]

theorem Message.lens_protocols :
    lens fieldProtocols message.fields = message.protocols.map Span.bytes := by
  rw [fields_eq]
  simp [fieldPublicKey, fieldListenAddrs, fieldProtocols, fieldObservedAddr,
    fieldProtocolVersion, fieldAgentVersion]

/-- A measured message satisfies the schema. -/
theorem Message.fields_valid {message : Message} {n : Nat} (h : messageSize message = .ok n) :
    SchemaValid message.fields := by
  obtain ⟨⟨haddrs, hprotocols⟩, -⟩ := messageSize_eq_ok.mp h
  refine ⟨?_, ?_, ?_⟩
  · intro f hf
    have hpos := (fields_number hf).1
    omega
  · rw [lens_listenAddrs, List.length_map]
    exact haddrs
  · rw [lens_protocols, List.length_map]
    exact hprotocols

theorem map_ptr_bytes {xs : List Span} (h : ∀ x ∈ xs, x.present = true) :
    (xs.map Span.bytes).map Span.ptr = xs := by
  rw [List.map_map]
  conv_rhs => rw [← List.map_id xs]
  apply List.map_congr_left
  intro x hx
  exact (Span.eq_ptr_of_present (h x hx)).1.symm

/-- The schema of what is written for a message is its normal form. -/
theorem Message.schema_fields {message : Message}
    (h : ∀ e ∈ message.entries, e.2.present = true) :
    schemaMessage message.fields = message.normalForm := by
  have haddrs : ∀ x ∈ message.listenAddrs, x.present = true := by
    intro x hx
    exact h (fieldListenAddrs, x) (by simp [Message.entries, hx])
  have hprotocols : ∀ x ∈ message.protocols, x.present = true := by
    intro x hx
    exact h (fieldProtocols, x) (by simp [Message.entries, hx])
  unfold schemaMessage Message.normalForm
  rw [lens_listenAddrs, lens_protocols, map_ptr_bytes haddrs, map_ptr_bytes hprotocols]
  congr 1 <;> apply lastSpan_presentFields <;> rw [fields_eq] <;>
    simp [fieldPublicKey, fieldListenAddrs, fieldProtocols, fieldObservedAddr,
      fieldProtocolVersion, fieldAgentVersion]

/-- Where every length is below 2^63 the fields fit the varint code. -/
theorem Message.fields_fit {message : Message} (h : ∀ e ∈ message.entries, e.2.present = true) :
    AllFit message.fields ↔ ∀ e ∈ message.entries, e.2.len < 2 ^ 63 := by
  simp only [AllFit, Message.fields, List.forall_mem_map]
  apply forall₂_congr
  intro e he
  have hnum := entries_number he
  have hkey : fieldKey e.1 Gossipsub.wireLen < 2 ^ 63 := by
    rw [fieldKey_eq e.1 (by decide), Gossipsub.wireLen]
    omega
  rw [entryField, spanField, lenField_fits, Span.len_eq (Span.isNull_of_present (h e he))]
  exact and_iff_right hkey

/-- What was written is not empty and is read as the schema of the fields. -/
theorem messageDecode_written {message : Message} {n : Nat} (hsize : messageSize message = .ok n)
    (hfit : AllFit message.fields) (hne : message.entries ≠ []) :
    messageDecode (writeAll uvarintCode message.fields) = .ok message.normalForm := by
  obtain ⟨-, hall, -⟩ := messageSize_eq_ok.mp hsize
  have hparse := parse_writeAll uvarintCode hfit
  have hbytes : writeAll uvarintCode message.fields ≠ [] := by
    intro hnil
    rw [hnil, parse_nil, Option.some.injEq] at hparse
    exact hne (List.map_eq_nil_iff.mp hparse.symm)
  rw [← toOption_eq_some, messageDecode_toOption hbytes, hparse, Option.bind_some,
    Message.fields_cut, if_pos ⟨message.fields_lenOnly, Message.fields_valid hsize⟩,
    Message.schema_fields hall]

/-- A measured message makes the round trip exactly when it is writable. -/
theorem roundTrips_iff_writable {message : Message} {n : Nat}
    (hsize : messageSize message = .ok n) : RoundTrips message ↔ Writable message := by
  obtain ⟨-, hall, hn, -⟩ := messageSize_eq_ok.mp hsize
  constructor
  · intro h
    obtain ⟨bytes, hencode, -, hdecode⟩ := h n hsize n (Nat.le_refl n)
    obtain ⟨hfit, rfl⟩ := (messageEncode_eq_ok hsize (Nat.le_refl n)).mp hencode
    refine ⟨?_, (Message.fields_fit hall).mp hfit⟩
    intro hnil
    rw [Message.fields, hnil] at hdecode
    cases hdecode
  · rintro ⟨hne, hlen⟩ n' hsize' cap hcap
    obtain rfl : n' = n := by rw [hsize] at hsize'; injection hsize' with h; exact h.symm
    have hfit := (Message.fields_fit hall).mpr hlen
    exact ⟨_, (messageEncode_eq_ok hsize hcap).mpr ⟨hfit, rfl⟩, hn.symm,
      messageDecode_written hsize hfit hne⟩

/-- The identify codec: a message that was measured makes the round trip exactly when it is
    writable, and an input is decoded as the schema says exactly when it is read plainly. -/
theorem messageCodec_conforms (message : Message) (bs : Bytes) :
    (RoundTrips message ↔ ((∃ n, messageSize message = .ok n) → Writable message)) ∧
      (Conforms bs ↔ ReadPlain bs) := by
  refine ⟨?_, conforms_iff_readPlain bs⟩
  constructor
  · rintro h ⟨n, hsize⟩
    exact (roundTrips_iff_writable hsize).mp h
  · intro h n hsize
    exact (roundTrips_iff_writable hsize).mpr (h ⟨n, hsize⟩) n hsize

/-- Four inputs with one field each that the schema accepts: a varint, a group, a field whose
    number is cut to that of the public key, and one whose number is cut to zero. The empty
    message is measured and not read back. -/
theorem messageCodec_not_conforms :
    ¬ Conforms [56, 1] ∧ ¬ Conforms [59, 60] ∧ ¬ Conforms [138, 128, 128, 128, 128, 1, 1, 7] ∧
      ¬ Conforms [130, 128, 128, 128, 128, 1, 0] ∧ messageSize .zero = .ok 0 ∧
      ¬ RoundTrips .zero := by
  refine ⟨by decide +kernel, by decide +kernel, by decide +kernel, by decide +kernel, by decide, ?_⟩
  intro h
  obtain ⟨bytes, hencode, -, hdecode⟩ := h 0 (by decide) 0 (Nat.le_refl 0)
  have hnil : messageEncode .zero (some 0) = .ok [] := by decide
  rw [hnil] at hencode
  injection hencode with hbytes
  rw [← hbytes] at hdecode
  cases hdecode

end LeanLibp2p.Identify
