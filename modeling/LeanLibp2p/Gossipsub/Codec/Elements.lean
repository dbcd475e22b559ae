import Mathlib.Data.List.Induction
import LeanLibp2p.Gossipsub.Codec.Reference

/-!
# The element decoders against the schema

For each kind of sub-message: what its loop does with one field, and that the fold over all
fields is the schema's reading of them. The loops see field numbers modulo 2^32, so every
statement asks that no key of 2^32 or more coincides with a field that the element reads.
-/

namespace LeanLibp2p.Gossipsub

open LeanLibp2p.Lib.Protobuf

variable (limits : Limits) (storage : DecodeStorage) (start : Nat)
variable (f : Field)
variable (cursor : DecodeCursor)

attribute [local simp] Payload.wire wireVarint wireLen fieldMsgFrom fieldMsgData fieldMsgSeqno
  fieldMsgTopic fieldMsgSignature fieldMsgKey fieldIhaveTopic fieldIhaveMessageIds fieldPruneTopic
  fieldPrunePeers fieldPruneBackoff fieldPeerInfoPeerId fieldPeerInfoSignedPeerRecord

/-- No field number of 2^32 or more is cut to one of the `known` (number, wire type) pairs. -/
def KeysExact (known : List (Nat × Nat)) (fs : List Field) : Prop :=
  ∀ f ∈ fs, (f.number % 2 ^ 32, f.payload.wire) ∈ known → f.number < 2 ^ 32

instance (known : List (Nat × Nat)) (fs : List Field) : Decidable (KeysExact known fs) :=
  inferInstanceAs (Decidable (∀ f ∈ fs, _ → _))

/-- `P` holds of the fields of `bs`, if it has any. -/
def OfParse (P : List Field → Prop) (bs : Bytes) : Prop := ∀ fs, parse uvarintCode bs = some fs → P fs

/-- A field that an element decoder reads as the schema does: its number is not zero, it is
    not a group, and where it is cut to a `known` pair nothing was cut. -/
def FieldExact (known : List (Nat × Nat)) (f : Field) : Prop :=
  f.number ≠ 0 ∧ f.payload ≠ .group ∧
    ((f.number % 2 ^ 32, f.payload.wire) ∈ known → f.number < 2 ^ 32)

/-- Every field is `good` that is reached before the first error: the fields before it are
    accepted `soFar`. -/
def Upto (soFar : List Field → Prop) (good : Field → Prop) (fs : List Field) : Prop :=
  ∀ pre f post, fs = pre ++ f :: post → soFar pre → good f

section Upto

variable {soFar : List Field → Prop} {good : Field → Prop} {fs gs : List Field}

theorem Upto.of_forall (h : ∀ f ∈ fs, good f) : Upto soFar good fs := by
  rintro pre f post rfl _
  exact h f (by simp)

theorem Upto.left (h : Upto soFar good (fs ++ gs)) : Upto soFar good fs := by
  rintro pre f post rfl hsofar
  exact h pre f (post ++ gs) (by simp) hsofar

theorem Upto.last {f : Field} (h : Upto soFar good (fs ++ [f])) (hsofar : soFar fs) : good f :=
  h fs f [] rfl hsofar

/-- Without an error every field is reached. -/
theorem Upto.all (h : Upto soFar good fs) (hsofar : ∀ pre post, fs = pre ++ post → soFar pre) :
    ∀ f ∈ fs, good f := by
  intro f hf
  obtain ⟨pre, post, rfl⟩ := List.append_of_mem hf
  exact h pre f post rfl (hsofar pre (f :: post) rfl)

end Upto

theorem cutNumber_of_lt {f : Field} (h : f.number < 2 ^ 32) : cutNumber f = f := by
  rw [cutNumber, Nat.mod_eq_of_lt h]

section Read

variable {σ : Type} {step : Field → σ → Option σ} {known : List (Nat × Nat)}
variable {soFar : List Field → Prop} {s : σ}

/-- A step that only acts on the `known` fields does not notice the cut. -/
theorem FieldExact.step_cut {f : Field} (h : FieldExact known f)
    (hstep : ∀ f s, (f.number, f.payload.wire) ∉ known → step f s = some s)
    (hknown : ∀ p ∈ known, p.1 < 2 ^ 32) (s : σ) :
    ungrouped step (cutNumber f) s = step f s := by
  rw [ungrouped, if_neg (show (cutNumber f).payload ≠ .group from h.2.1)]
  by_cases hlt : f.number < 2 ^ 32
  · rw [cutNumber_of_lt hlt]
  · have hcut : (f.number % 2 ^ 32, f.payload.wire) ∉ known := fun hmem => hlt (h.2.2 hmem)
    have hfull : (f.number, f.payload.wire) ∉ known := fun hmem => hlt (hknown _ hmem)
    rw [hstep f s hfull, hstep (cutNumber f) s hcut]

/-- Up to the first error the loop's fold is the fold over the fields as they stand. -/
theorem foldFields_read {fs : List Field}
    (hstep : ∀ f s, (f.number, f.payload.wire) ∉ known → step f s = some s)
    (hknown : ∀ p ∈ known, p.1 < 2 ^ 32)
    (hsofar : ∀ pre post, fs = pre ++ post → (foldFields step pre s).isSome → soFar pre)
    (h : Upto soFar (FieldExact known) fs) :
    foldFields (ungrouped step) (fs.map cutNumber) s = foldFields step fs s := by
  induction fs using List.reverseRecOn with
  | nil => rfl
  | append_singleton fs f ih =>
    have ih := ih (fun pre post hpre => hsofar pre (post ++ [f]) (by rw [hpre]; simp)) h.left
    rw [List.map_append, foldFields_append, ih, foldFields_append]
    cases hfold : foldFields step fs s with
    | none => rfl
    | some t =>
      have hexact := h.last (hsofar fs [f] rfl (by rw [hfold]; rfl))
      simp only [Option.bind_some, List.map_cons, List.map_nil, foldFields_cons,
        hexact.step_cut hstep hknown]
      cases step f t <;> rfl

/-- Decoding an element is folding its fields, and then its closing check. -/
theorem fieldLoop_read {body : Nat → Nat → Bytes → σ → Except GossipsubErr (Bytes × σ)}
    {bs : Bytes} (hbody : Interprets body step)
    (hstep : ∀ f s, (f.number, f.payload.wire) ∉ known → step f s = some s)
    (hknown : ∀ p ∈ known, p.1 < 2 ^ 32)
    (hsofar : OfParse (fun fs => ∀ pre post, fs = pre ++ post →
      (foldFields step pre s).isSome → soFar pre) bs)
    (h : OfParse (Upto soFar (FieldExact known)) bs) :
    (fieldLoop body bs.length bs s).toOption =
      (legalFields bs).bind fun fs => foldFields step fs s := by
  rw [fieldLoop_toOption hbody bs.length bs s (Nat.le_refl _), legalFields]
  cases hp : parse uvarintCode bs with
  | none => rfl
  | some fs =>
    rw [Option.bind_some, foldFields_read hstep hknown (hsofar fs hp) (h fs hp)]
    by_cases hlegal : Legal fs
    · rw [Option.filter_some, if_pos (by simpa using hlegal), Option.bind_some]
    rw [Option.filter_some, if_neg (by simpa using hlegal), Option.bind_none]
    cases hfold : foldFields step fs s with
    | none => rfl
    | some t =>
      refine absurd (fun f hf => ?_) hlegal
      have hall := (h fs hp).all fun pre post hpre => hsofar fs hp pre post hpre <| by
        rw [hpre, foldFields_append] at hfold
        obtain ⟨u, hu, -⟩ := Option.bind_eq_some_iff.mp hfold
        rw [hu]
        rfl
      exact (hall f hf).1

end Read

/-! ## Subscription -/

def subStep (f : Field) (out : RpcSubscription) : Option RpcSubscription :=
  match f.payload with
  | .varint v =>
    if f.number = fieldSubSubscribe then some { out with subscribe := if v ≠ 0 then 1 else 0 }
    else some out
  | .len b =>
    if f.number = fieldSubTopic then
      if limits.maxTopicBytes < b.length then none else some { out with topic := .ptr b }
    else some out
  | _ => some out

/-- The (number, wire type) pairs that `gossipsub_sub_decode` reads. -/
def subKeys : List (Nat × Nat) := [(fieldSubSubscribe, wireVarint), (fieldSubTopic, wireLen)]

theorem subField_interprets : Interprets (subField limits) (subStep limits) := by
  intro number wire rest s
  unfold subField
  by_cases h1 : number = fieldSubSubscribe ∧ wire = wireVarint
  · obtain ⟨rfl, rfl⟩ := h1
    rw [if_pos ⟨rfl, rfl⟩]
    exact varint_interprets fun v rest => by simp [subStep]
  rw [if_neg h1]
  by_cases h2 : number = fieldSubTopic ∧ wire = wireLen
  · obtain ⟨rfl, rfl⟩ := h2
    rw [if_pos ⟨rfl, rfl⟩]
    refine span_interprets fun b rest => ?_
    by_cases hl : limits.maxTopicBytes < b.length <;> simp [subStep, hl]
  rw [if_neg h2]
  refine skip_interprets fun payload hw => ?_
  cases payload <;> simp_all [subStep, Payload.wire, wireVarint, wireLen]

theorem subStep_skip (s : RpcSubscription)
    (h : (f.number, f.payload.wire) ∉ subKeys) : subStep limits f s = some s := by
  obtain ⟨number, payload⟩ := f
  cases payload <;> simp_all [subStep, subKeys, Payload.wire, wireVarint, wireLen]

theorem subFold (fs : List Field) :
    foldFields (subStep limits) fs ⟨.zero, 0⟩ =
      if LensAtMost fieldSubTopic limits.maxTopicBytes fs then
        some ⟨lastSpan fieldSubTopic fs, if lastVarint fieldSubSubscribe fs ≠ 0 then 1 else 0⟩
      else none := by
  induction fs using List.reverseRecOn with
  | nil => rfl
  | append_singleton fs f ih =>
    rw [foldFields_append, ih]
    by_cases hk : LensAtMost fieldSubTopic limits.maxTopicBytes fs
    · obtain ⟨number, payload⟩ := f
      cases payload with
      | varint v => by_cases hn : number = fieldSubSubscribe <;> simp [subStep, hk, hn]
      | len b =>
        by_cases hn : number = fieldSubTopic
        · by_cases hl : limits.maxTopicBytes < b.length
          · simp [subStep, hk, hn, hl]
          · simp [subStep, hk, hn, hl, Nat.not_lt.mp hl]
        · simp [subStep, hk, hn]
      | _ => simp [subStep, hk]
    · rw [if_neg hk, if_neg fun h => hk (lensAtMost_of_snoc h)]
      rfl

/-- Up to the first topic that is too long, the fields of a subscription are exact. -/
def SubRead : List Field → Prop :=
  Upto (LensAtMost fieldSubTopic limits.maxTopicBytes) (FieldExact subKeys)

/-- `gossipsub_sub_decode` reads `RPC.SubOpts`. -/
theorem subDecode_schema {bs : Bytes} (h : OfParse (SubRead limits) bs) :
    (subDecode limits (.ptr bs)).toOption = nestedMessage (schemaSub limits) bs := by
  have hsofar : OfParse (fun fs => ∀ pre post, fs = pre ++ post →
      (foldFields (subStep limits) pre ⟨.zero, 0⟩).isSome →
        LensAtMost fieldSubTopic limits.maxTopicBytes pre) bs := by
    intro fs _ pre _ _ hsome
    rwa [subFold, Option.isSome_ite] at hsome
  rw [subDecode, toOption_bind, fieldLoop_read (subField_interprets limits)
    (subStep_skip limits) (by decide) hsofar h, nestedMessage]
  cases legalFields bs with
  | none => rfl
  | some fs =>
    simp only [Option.bind_some, subFold, schemaSub]
    by_cases hk : LensAtMost fieldSubTopic limits.maxTopicBytes fs
    · simp only [hk, if_true, true_and, Option.bind_some]
      by_cases hp : (lastSpan fieldSubTopic fs).present = true
      · rw [if_neg (Span.present_iff.mp hp), if_pos hp]
        rfl
      · rw [if_pos (Classical.not_not.mp (mt Span.present_iff.mpr hp)), if_neg hp]
        rfl
    · simp [hk]

/-! ## Publish message -/

def messageStep (f : Field) (out : Message) : Option Message :=
  match f.payload with
  | .len b =>
    if f.number = fieldMsgFrom then some { out with fromPeer := .ptr b }
    else if f.number = fieldMsgData then
      if limits.maxMessageDataBytes < b.length then none else some { out with data := .ptr b }
    else if f.number = fieldMsgSeqno then some { out with seqno := .ptr b }
    else if f.number = fieldMsgTopic then
      if limits.maxTopicBytes < b.length then none else some { out with topic := .ptr b }
    else if f.number = fieldMsgSignature then some { out with signature := .ptr b }
    else if f.number = fieldMsgKey then some { out with key := .ptr b }
    else some out
  | _ => some out

/-- The pairs that `gossipsub_message_decode` reads. -/
def messageKeys : List (Nat × Nat) :=
  [(fieldMsgFrom, wireLen), (fieldMsgData, wireLen), (fieldMsgSeqno, wireLen),
    (fieldMsgTopic, wireLen), (fieldMsgSignature, wireLen), (fieldMsgKey, wireLen)]

theorem messageField_interprets : Interprets (messageField limits) (messageStep limits) := by
  intro number wire rest s
  unfold messageField
  by_cases hw : wire = wireLen
  · subst hw
    rw [if_neg (by simp)]
    by_cases h1 : number = fieldMsgFrom
    · rw [if_pos h1]
      exact span_interprets fun b rest => by simp [messageStep, h1]
    rw [if_neg h1]
    by_cases h2 : number = fieldMsgData
    · rw [if_pos h2]
      refine span_interprets fun b rest => ?_
      by_cases hl : limits.maxMessageDataBytes < b.length <;>
        simp [messageStep, h2, hl]
    rw [if_neg h2]
    by_cases h3 : number = fieldMsgSeqno
    · rw [if_pos h3]
      exact span_interprets fun b rest => by
        simp [messageStep, h3]
    rw [if_neg h3]
    by_cases h4 : number = fieldMsgTopic
    · rw [if_pos h4]
      refine span_interprets fun b rest => ?_
      by_cases hl : limits.maxTopicBytes < b.length <;>
        simp [messageStep, h4, hl]
    rw [if_neg h4]
    by_cases h5 : number = fieldMsgSignature
    · rw [if_pos h5]
      exact span_interprets fun b rest => by
        simp [messageStep, h5]
    rw [if_neg h5]
    by_cases h6 : number = fieldMsgKey
    · rw [if_pos h6]
      exact span_interprets fun b rest => by
        simp [messageStep, h6]
    rw [if_neg h6]
    refine skip_interprets fun payload hw => ?_
    cases payload <;> simp_all [messageStep]
  · rw [if_pos hw]
    refine skip_interprets fun payload hp => ?_
    cases payload <;> simp_all [messageStep]

theorem messageStep_skip (s : Message)
    (h : (f.number, f.payload.wire) ∉ messageKeys) : messageStep limits f s = some s := by
  obtain ⟨number, payload⟩ := f
  cases payload <;> simp_all [messageStep, messageKeys]

theorem messageFold (raw : Span) (fs : List Field) :
    foldFields (messageStep limits) fs { Message.zero with rawMessage := raw } =
      if LensAtMost fieldMsgData limits.maxMessageDataBytes fs ∧
          LensAtMost fieldMsgTopic limits.maxTopicBytes fs then
        some ⟨lastSpan fieldMsgFrom fs, lastSpan fieldMsgData fs, lastSpan fieldMsgSeqno fs,
          lastSpan fieldMsgTopic fs, lastSpan fieldMsgSignature fs, lastSpan fieldMsgKey fs, raw⟩
      else none := by
  induction fs using List.reverseRecOn with
  | nil => rfl
  | append_singleton fs f ih =>
    rw [foldFields_append, ih]
    by_cases hk : LensAtMost fieldMsgData limits.maxMessageDataBytes fs ∧
        LensAtMost fieldMsgTopic limits.maxTopicBytes fs
    · rw [if_pos hk]
      simp only [fieldMsgData, fieldMsgTopic] at hk
      obtain ⟨number, payload⟩ := f
      cases payload with
      | len b =>
        by_cases h1 : number = fieldMsgFrom
        · simp [messageStep, hk, h1]
        by_cases h2 : number = fieldMsgData
        · by_cases hl : limits.maxMessageDataBytes < b.length
          · simp [messageStep, h2, hl]
          · simp [messageStep, hk, h2, hl, Nat.not_lt.mp hl]
        by_cases h3 : number = fieldMsgSeqno
        · simp [messageStep, hk, h3]
        by_cases h4 : number = fieldMsgTopic
        · by_cases hl : limits.maxTopicBytes < b.length
          · simp [messageStep, h4, hl]
          · simp [messageStep, hk, h4, hl, Nat.not_lt.mp hl]
        by_cases h5 : number = fieldMsgSignature
        · simp [messageStep, hk, h5]
        by_cases h6 : number = fieldMsgKey
        · simp [messageStep, hk, h6]
        · simp_all [messageStep]
      | _ => simp [messageStep, hk]
    · rw [if_neg hk, if_neg fun h => hk ⟨lensAtMost_of_snoc h.1, lensAtMost_of_snoc h.2⟩]
      rfl

/-- Up to the first data or topic that is too long, the fields of a message are exact. -/
def MessageRead : List Field → Prop :=
  Upto (fun fs => LensAtMost fieldMsgData limits.maxMessageDataBytes fs ∧
    LensAtMost fieldMsgTopic limits.maxTopicBytes fs) (FieldExact messageKeys)

/-- `gossipsub_message_decode` reads `Message`. -/
theorem messageDecode_schema {bs : Bytes} (h : OfParse (MessageRead limits) bs) :
    (messageDecode limits (.ptr bs)).toOption = nestedMessage (schemaMessage limits bs) bs := by
  have hsofar : OfParse (fun fs => ∀ pre post, fs = pre ++ post →
      (foldFields (messageStep limits) pre { Message.zero with rawMessage := .ptr bs }).isSome →
        LensAtMost fieldMsgData limits.maxMessageDataBytes pre ∧
          LensAtMost fieldMsgTopic limits.maxTopicBytes pre) bs := by
    intro fs _ pre _ _ hsome
    rwa [messageFold, Option.isSome_ite] at hsome
  rw [messageDecode, toOption_bind, fieldLoop_read (messageField_interprets limits)
    (messageStep_skip limits) (by decide) hsofar h, nestedMessage]
  cases legalFields bs with
  | none => rfl
  | some fs =>
    simp only [Option.bind_some, messageFold, schemaMessage]
    by_cases hk : LensAtMost fieldMsgData limits.maxMessageDataBytes fs ∧
        LensAtMost fieldMsgTopic limits.maxTopicBytes fs
    · rw [if_pos hk, Option.bind_some]
      by_cases hp : (lastSpan fieldMsgTopic fs).present = true
      · rw [if_neg (Span.present_iff.mp hp), if_pos ⟨hk.1, hk.2, hp⟩]
        rfl
      · rw [if_pos (Classical.not_not.mp (mt Span.present_iff.mpr hp)), if_neg fun h => hp h.2.2]
        rfl
    · rw [if_neg hk, if_neg fun h => hk ⟨h.1, h.2.1⟩]
      rfl

/-! ## IHAVE, IWANT and IDONTWANT -/

/-- One message id into the shared pool, whose cursor stood at `start` for the first. -/
def idStep (b : Bytes) (ids : List Span) : Option (List Span) :=
  if storage.messageIdCapacity ≤ start + ids.length ∨ limits.maxMessageIdBytes < b.length then none
  else some (ids ++ [.ptr b])

theorem readMessageId_toOption (rest : Bytes) (ids : List Span) :
    (readMessageId limits storage start rest ids).toOption =
      (readScalar uvarintCode wireLen rest).bind fun p =>
        match p.1 with
        | .len b => (idStep limits storage start b ids).map fun ids => (p.2, ids)
        | _ => none := by
  rw [← readLenSpan_toOption]
  unfold readMessageId
  by_cases hc : storage.messageIdCapacity ≤ start + ids.length
  · rw [if_pos hc, toOption_throw_bind]
    cases readLenSpan rest <;> simp [idStep, hc]
  · rw [if_neg hc, toOption_bind]
    cases hr : readLenSpan rest with
    | error e => rfl
    | ok p =>
      obtain ⟨span, rest'⟩ := p
      rw [readLenSpan_ptr hr]
      by_cases hl : limits.maxMessageIdBytes < span.bytes.length <;> simp [idStep, hc, hl]

def ihaveStep (f : Field) (out : ControlIhave) : Option ControlIhave :=
  match f.payload with
  | .len b =>
    if f.number = fieldIhaveTopic then some { out with topic := .ptr b }
    else if f.number = fieldIhaveMessageIds then
      (idStep limits storage start b out.messageIds).map fun ids => { out with messageIds := ids }
    else some out
  | _ => some out

/-- The pairs that `gossipsub_ihave_decode` reads. -/
def ihaveKeys : List (Nat × Nat) := [(fieldIhaveTopic, wireLen), (fieldIhaveMessageIds, wireLen)]

theorem ihaveField_interprets :
    Interprets (ihaveField limits storage start) (ihaveStep limits storage start) := by
  intro number wire rest s
  unfold ihaveField
  by_cases h1 : number = fieldIhaveTopic ∧ wire = wireLen
  · obtain ⟨rfl, rfl⟩ := h1
    rw [if_pos ⟨rfl, rfl⟩]
    exact span_interprets fun b rest => by simp [ihaveStep]
  rw [if_neg h1]
  by_cases h2 : number = fieldIhaveMessageIds ∧ wire = wireLen
  · obtain ⟨rfl, rfl⟩ := h2
    rw [if_pos ⟨rfl, rfl⟩, toOption_bind, readMessageId_toOption]
    cases hp : readScalar uvarintCode wireLen rest with
    | none => rfl
    | some p =>
      obtain ⟨payload, rest'⟩ := p
      have hw := readScalar_wire uvarintCode hp
      cases payload with
      | len b => cases hi : idStep limits storage start b s.messageIds <;> simp [ihaveStep, hi]
      | _ => simp at hw
  rw [if_neg h2]
  refine skip_interprets fun payload hw => ?_
  cases payload <;> simp_all [ihaveStep]

theorem ihaveStep_skip (s : ControlIhave) (h : (f.number, f.payload.wire) ∉ ihaveKeys) :
    ihaveStep limits storage start f s = some s := by
  obtain ⟨number, payload⟩ := f
  cases payload <;> simp_all [ihaveStep, ihaveKeys]

/-- The ids that the pool can still take. -/
def idsFit (start field : Nat) (fs : List Field) : Prop :=
  LensAtMost field limits.maxMessageIdBytes fs ∧
    start + (lens field fs).length ≤ storage.messageIdCapacity

instance (start field : Nat) (fs : List Field) :
    Decidable (idsFit limits storage start field fs) := inferInstanceAs (Decidable (_ ∧ _))

theorem idsFit_of_snoc {limits : Limits} {storage : DecodeStorage} {start field : Nat}
    {fs : List Field} {f : Field} (h : idsFit limits storage start field (fs ++ [f])) :
    idsFit limits storage start field fs := by
  refine ⟨lensAtMost_of_snoc h.1, Nat.le_trans ?_ h.2⟩
  rw [lens_append, List.length_append]
  omega

theorem idStep_snoc {limits : Limits} {storage : DecodeStorage} {start field : Nat}
    {fs : List Field} (h : idsFit limits storage start field fs) (b : Bytes) :
    idStep limits storage start b ((lens field fs).map .ptr) =
      if idsFit limits storage start field (fs ++ [⟨field, .len b⟩]) then
        some ((lens field (fs ++ [⟨field, .len b⟩])).map .ptr)
      else none := by
  have hfit : idsFit limits storage start field (fs ++ [⟨field, .len b⟩]) ↔
      ¬ (storage.messageIdCapacity ≤ start + (lens field fs).length ∨
        limits.maxMessageIdBytes < b.length) := by
    simp only [idsFit, lensAtMost_snoc_len, h.1, true_and, true_implies, lens_append,
      lens_cons_len, if_true, lens_nil, List.length_append, List.length_singleton]
    omega
  unfold idStep
  rw [List.length_map]
  by_cases hc : storage.messageIdCapacity ≤ start + (lens field fs).length ∨
      limits.maxMessageIdBytes < b.length
  · rw [if_pos hc, if_neg fun hn => hfit.mp hn hc]
  · rw [if_neg hc, if_pos (hfit.mpr hc)]
    simp

/-- A field that is not an id changes nothing about the ids. -/
theorem idsFit_snoc_of_lens {limits : Limits} {storage : DecodeStorage} {start field : Nat}
    {fs : List Field} {f : Field} (h : lens field (fs ++ [f]) = lens field fs) :
    idsFit limits storage start field (fs ++ [f]) ↔ idsFit limits storage start field fs := by
  simp only [idsFit, LensAtMost, h]

theorem ihaveFold (hstart : start ≤ storage.messageIdCapacity) (fs : List Field) :
    foldFields (ihaveStep limits storage start) fs ⟨.zero, []⟩ =
      if idsFit limits storage start fieldIhaveMessageIds fs then
        some ⟨lastSpan fieldIhaveTopic fs, (lens fieldIhaveMessageIds fs).map .ptr⟩
      else none := by
  induction fs using List.reverseRecOn with
  | nil => simp [idsFit, LensAtMost, hstart]
  | append_singleton fs f ih =>
    rw [foldFields_append, ih]
    by_cases hk : idsFit limits storage start fieldIhaveMessageIds fs
    · rw [if_pos hk, Option.bind_some, foldFields_cons]
      obtain ⟨number, payload⟩ := f
      by_cases hid : (number, payload.wire) = (fieldIhaveMessageIds, wireLen)
      · cases payload with
        | len b =>
          obtain rfl : number = fieldIhaveMessageIds := by simpa using hid
          have hstep : ihaveStep limits storage start ⟨fieldIhaveMessageIds, .len b⟩
              ⟨lastSpan fieldIhaveTopic fs, (lens fieldIhaveMessageIds fs).map .ptr⟩ =
              (idStep limits storage start b ((lens fieldIhaveMessageIds fs).map .ptr)).map
                fun ids => ⟨lastSpan fieldIhaveTopic fs, ids⟩ := by
            simp [ihaveStep]
          rw [hstep, idStep_snoc hk]
          split <;> simp [foldFields]
        | _ => simp at hid
      · have hlens : lens fieldIhaveMessageIds (fs ++ [⟨number, payload⟩]) =
            lens fieldIhaveMessageIds fs := by
          cases payload <;> simp_all
        rw [if_pos ((idsFit_snoc_of_lens hlens).mpr hk), hlens]
        cases payload with
        | len b => by_cases hn : number = fieldIhaveTopic <;> simp_all [ihaveStep, foldFields]
        | _ => simp [ihaveStep, foldFields]
    · rw [if_neg hk, if_neg fun h => hk (idsFit_of_snoc h)]
      rfl

/-- Up to the first id that is too long, the fields of an IHAVE are exact. -/
def IhaveRead : List Field → Prop :=
  Upto (LensAtMost fieldIhaveMessageIds limits.maxMessageIdBytes) (FieldExact ihaveKeys)

/-- `gossipsub_ihave_decode` reads `ControlIHave`, as far as the pool of ids reaches. -/
theorem ihaveDecode_schema (hcursor : cursor.messageIdNext ≤ storage.messageIdCapacity) {bs : Bytes}
    (h : OfParse (IhaveRead limits) bs) :
    (ihaveDecode limits storage (.ptr bs) cursor).toOption =
      (nestedMessage (schemaIhave limits) bs).bind fun x =>
        if cursor.messageIdNext + x.messageIds.length ≤ storage.messageIdCapacity then
          some (x, { cursor with messageIdNext := cursor.messageIdNext + x.messageIds.length })
        else none := by
  have hsofar : OfParse (fun fs => ∀ pre post, fs = pre ++ post →
      (foldFields (ihaveStep limits storage cursor.messageIdNext) pre ⟨.zero, []⟩).isSome →
        LensAtMost fieldIhaveMessageIds limits.maxMessageIdBytes pre) bs := by
    intro fs _ pre _ _ hsome
    rw [ihaveFold limits storage _ hcursor, Option.isSome_ite] at hsome
    exact hsome.1
  rw [ihaveDecode, toOption_bind, fieldLoop_read (ihaveField_interprets limits storage _)
    (ihaveStep_skip limits storage _) (by decide) hsofar h, nestedMessage]
  cases legalFields bs with
  | none => rfl
  | some fs =>
    simp only [Option.bind_some, ihaveFold limits storage _ hcursor, schemaIhave, idsFit]
    by_cases hl : LensAtMost fieldIhaveMessageIds limits.maxMessageIdBytes fs
    · by_cases hf : cursor.messageIdNext + (lens fieldIhaveMessageIds fs).length ≤
          storage.messageIdCapacity
      · by_cases ht : topicRefused limits (lastSpan fieldIhaveTopic fs)
        · simp only [hl, hf, ht, and_self, if_true, Option.bind_some, true_or, not_true,
            false_and, if_false]
          rfl
        · by_cases hn : (lens fieldIhaveMessageIds fs).length ≤ limits.maxMessageIdsPerRpc
          · simp [-fieldIhaveTopic, -fieldIhaveMessageIds, hl, hf, ht, hn, Nat.not_lt.mpr hn]
          · simp [-fieldIhaveTopic, -fieldIhaveMessageIds, hl, hf, ht, hn, Nat.not_le.mp hn]
      · simp only [hf, and_false, if_false, Option.bind_none]
        split <;> simp [-fieldIhaveTopic, -fieldIhaveMessageIds, hf]
    · simp [-fieldIhaveTopic, -fieldIhaveMessageIds, hl]

def iwantStep (f : Field) (out : ControlIwant) : Option ControlIwant :=
  match f.payload with
  | .len b =>
    if f.number = fieldIwantMessageIds then
      (idStep limits storage start b out.messageIds).map .mk
    else some out
  | _ => some out

/-- The pair that `gossipsub_iwant_decode` reads, for IWANT and for IDONTWANT. -/
def iwantKeys : List (Nat × Nat) := [(fieldIwantMessageIds, wireLen)]

theorem iwantField_interprets :
    Interprets (iwantField limits storage start) (iwantStep limits storage start) := by
  intro number wire rest s
  unfold iwantField
  by_cases h2 : number = fieldIwantMessageIds ∧ wire = wireLen
  · obtain ⟨rfl, rfl⟩ := h2
    rw [if_pos ⟨rfl, rfl⟩, toOption_bind, readMessageId_toOption]
    cases hp : readScalar uvarintCode wireLen rest with
    | none => rfl
    | some p =>
      obtain ⟨payload, rest'⟩ := p
      have hw := readScalar_wire uvarintCode hp
      cases payload with
      | len b => cases hi : idStep limits storage start b s.messageIds <;> simp [iwantStep, hi]
      | _ => simp at hw
  rw [if_neg h2]
  refine skip_interprets fun payload hw => ?_
  cases payload <;> simp_all [iwantStep]

theorem iwantStep_skip (s : ControlIwant) (h : (f.number, f.payload.wire) ∉ iwantKeys) :
    iwantStep limits storage start f s = some s := by
  obtain ⟨number, payload⟩ := f
  cases payload <;> simp_all [iwantStep, iwantKeys]

theorem iwantFold (hstart : start ≤ storage.messageIdCapacity) (fs : List Field) :
    foldFields (iwantStep limits storage start) fs ⟨[]⟩ =
      if idsFit limits storage start fieldIwantMessageIds fs then
        some ⟨(lens fieldIwantMessageIds fs).map .ptr⟩
      else none := by
  induction fs using List.reverseRecOn with
  | nil => simp [idsFit, LensAtMost, hstart]
  | append_singleton fs f ih =>
    rw [foldFields_append, ih]
    by_cases hk : idsFit limits storage start fieldIwantMessageIds fs
    · rw [if_pos hk, Option.bind_some, foldFields_cons]
      obtain ⟨number, payload⟩ := f
      by_cases hid : (number, payload.wire) = (fieldIwantMessageIds, wireLen)
      · cases payload with
        | len b =>
          obtain rfl : number = fieldIwantMessageIds := by simpa using hid
          have hstep : iwantStep limits storage start ⟨fieldIwantMessageIds, .len b⟩
              ⟨(lens fieldIwantMessageIds fs).map .ptr⟩ =
              (idStep limits storage start b ((lens fieldIwantMessageIds fs).map .ptr)).map .mk := by
            simp [iwantStep]
          rw [hstep, idStep_snoc hk]
          split <;> simp [foldFields]
        | _ => simp at hid
      · have hlens : lens fieldIwantMessageIds (fs ++ [⟨number, payload⟩]) =
            lens fieldIwantMessageIds fs := by
          cases payload <;> simp_all
        rw [if_pos ((idsFit_snoc_of_lens hlens).mpr hk), hlens]
        cases payload <;> simp_all [iwantStep, foldFields]
    · rw [if_neg hk, if_neg fun h => hk (idsFit_of_snoc h)]
      rfl

/-- Up to the first id that is too long, the fields of an IWANT or IDONTWANT are exact. -/
def IwantRead : List Field → Prop :=
  Upto (LensAtMost fieldIwantMessageIds limits.maxMessageIdBytes) (FieldExact iwantKeys)

/-- `gossipsub_iwant_decode` reads `ControlIWant`, as far as the pool of ids reaches. -/
theorem iwantDecode_schema (hcursor : cursor.messageIdNext ≤ storage.messageIdCapacity) {bs : Bytes}
    (h : OfParse (IwantRead limits) bs) :
    (iwantDecode limits storage (.ptr bs) cursor).toOption =
      (nestedMessage (schemaIds fieldIwantMessageIds limits) bs).bind fun ids =>
        if cursor.messageIdNext + ids.length ≤ storage.messageIdCapacity then
          some (⟨ids⟩, { cursor with messageIdNext := cursor.messageIdNext + ids.length })
        else none := by
  have hsofar : OfParse (fun fs => ∀ pre post, fs = pre ++ post →
      (foldFields (iwantStep limits storage cursor.messageIdNext) pre ⟨[]⟩).isSome →
        LensAtMost fieldIwantMessageIds limits.maxMessageIdBytes pre) bs := by
    intro fs _ pre _ _ hsome
    rw [iwantFold limits storage _ hcursor, Option.isSome_ite] at hsome
    exact hsome.1
  rw [iwantDecode, toOption_bind, fieldLoop_read (iwantField_interprets limits storage _)
    (iwantStep_skip limits storage _) (by decide) hsofar h, nestedMessage]
  cases legalFields bs with
  | none => rfl
  | some fs =>
    simp only [Option.bind_some, iwantFold limits storage _ hcursor, schemaIds, idsFit]
    by_cases hl : LensAtMost fieldIwantMessageIds limits.maxMessageIdBytes fs
    · by_cases hf : cursor.messageIdNext + (lens fieldIwantMessageIds fs).length ≤
          storage.messageIdCapacity
      · by_cases hn : (lens fieldIwantMessageIds fs).length ≤ limits.maxMessageIdsPerRpc
        · simp [hl, hf, hn, Nat.not_lt.mpr hn]
        · simp [hl, hf, hn, Nat.not_le.mp hn]
      · simp only [hf, and_false, if_false, Option.bind_none]
        split <;> simp [hf]
    · simp [hl]

/-- `gossipsub_idontwant_decode` reads `ControlIDontWant` with the IWANT decoder. -/
theorem idontwantDecode_schema (hcursor : cursor.messageIdNext ≤ storage.messageIdCapacity) {bs : Bytes}
    (h : OfParse (IwantRead limits) bs) :
    (idontwantDecode limits storage (.ptr bs) cursor).toOption =
      (nestedMessage (schemaIds fieldIdontwantMessageIds limits) bs).bind fun ids =>
        if cursor.messageIdNext + ids.length ≤ storage.messageIdCapacity then
          some (⟨ids⟩, { cursor with messageIdNext := cursor.messageIdNext + ids.length })
        else none := by
  rw [idontwantDecode, toOption_bind, iwantDecode_schema limits storage cursor hcursor h]
  change ((nestedMessage (schemaIds fieldIwantMessageIds limits) bs).bind _).bind _ =
    (nestedMessage (schemaIds fieldIwantMessageIds limits) bs).bind _
  cases nestedMessage (schemaIds fieldIwantMessageIds limits) bs with
  | none => rfl
  | some ids =>
    simp only [Option.bind_some]
    split <;> rfl

/-! ## GRAFT and PRUNE -/

def graftStep (f : Field) (out : ControlGraft) : Option ControlGraft :=
  match f.payload with
  | .len b => if f.number = fieldGraftTopic then some ⟨.ptr b⟩ else some out
  | _ => some out

/-- The pair that `gossipsub_graft_decode` reads. -/
def graftKeys : List (Nat × Nat) := [(fieldGraftTopic, wireLen)]

theorem graftField_interprets : Interprets graftField graftStep := by
  intro number wire rest s
  unfold graftField
  by_cases h1 : number = fieldGraftTopic ∧ wire = wireLen
  · obtain ⟨rfl, rfl⟩ := h1
    rw [if_pos ⟨rfl, rfl⟩]
    exact span_interprets fun b rest => by simp [graftStep]
  rw [if_neg h1]
  refine skip_interprets fun payload hw => ?_
  cases payload <;> simp_all [graftStep]

theorem graftStep_skip (s : ControlGraft)
    (h : (f.number, f.payload.wire) ∉ graftKeys) : graftStep f s = some s := by
  obtain ⟨number, payload⟩ := f
  cases payload <;> simp_all [graftStep, graftKeys]

theorem graftFold (fs : List Field) :
    foldFields graftStep fs ⟨.zero⟩ = some ⟨lastSpan fieldGraftTopic fs⟩ := by
  induction fs using List.reverseRecOn with
  | nil => rfl
  | append_singleton fs f ih =>
    rw [foldFields_append, ih]
    obtain ⟨number, payload⟩ := f
    cases payload with
    | len b => by_cases hn : number = fieldGraftTopic <;> simp [graftStep, hn]
    | _ => simp [graftStep]

/-- The fields of a GRAFT are exact. -/
def GraftRead : List Field → Prop := Upto (fun _ => True) (FieldExact graftKeys)

/-- `gossipsub_graft_decode` reads `ControlGraft`. -/
theorem graftDecode_schema {bs : Bytes} (h : OfParse GraftRead bs) :
    (graftDecode limits (.ptr bs)).toOption = nestedMessage (schemaGraft limits) bs := by
  rw [graftDecode, toOption_bind, fieldLoop_read graftField_interprets graftStep_skip
    (by decide) (fun _ _ _ _ _ _ => trivial) h, nestedMessage]
  cases legalFields bs with
  | none => rfl
  | some fs =>
    simp only [Option.bind_some, graftFold, schemaGraft]
    split <;> rfl

def peerInfoStep (f : Field) (out : PeerInfo) : Option PeerInfo :=
  match f.payload with
  | .len b =>
    if f.number = fieldPeerInfoPeerId then some { out with peerId := .ptr b }
    else if f.number = fieldPeerInfoSignedPeerRecord then
      if limits.maxSignedPeerRecordBytes < b.length then none
      else some { out with signedPeerRecord := .ptr b }
    else some out
  | _ => some out

/-- The pairs that `gossipsub_peer_info_decode` reads. -/
def peerInfoKeys : List (Nat × Nat) :=
  [(fieldPeerInfoPeerId, wireLen), (fieldPeerInfoSignedPeerRecord, wireLen)]

theorem peerInfoField_interprets : Interprets (peerInfoField limits) (peerInfoStep limits) := by
  intro number wire rest s
  unfold peerInfoField
  by_cases h1 : number = fieldPeerInfoPeerId ∧ wire = wireLen
  · obtain ⟨rfl, rfl⟩ := h1
    rw [if_pos ⟨rfl, rfl⟩]
    exact span_interprets fun b rest => by simp [peerInfoStep]
  rw [if_neg h1]
  by_cases h2 : number = fieldPeerInfoSignedPeerRecord ∧ wire = wireLen
  · obtain ⟨rfl, rfl⟩ := h2
    rw [if_pos ⟨rfl, rfl⟩]
    refine span_interprets fun b rest => ?_
    by_cases hl : limits.maxSignedPeerRecordBytes < b.length <;> simp [peerInfoStep, hl]
  rw [if_neg h2]
  refine skip_interprets fun payload hw => ?_
  cases payload <;> simp_all [peerInfoStep]

theorem peerInfoStep_skip (s : PeerInfo)
    (h : (f.number, f.payload.wire) ∉ peerInfoKeys) : peerInfoStep limits f s = some s := by
  obtain ⟨number, payload⟩ := f
  cases payload <;> simp_all [peerInfoStep, peerInfoKeys]

theorem peerInfoFold (fs : List Field) :
    foldFields (peerInfoStep limits) fs ⟨.zero, .zero⟩ = schemaPeerInfo limits fs := by
  unfold schemaPeerInfo
  induction fs using List.reverseRecOn with
  | nil => rfl
  | append_singleton fs f ih =>
    rw [foldFields_append, ih]
    by_cases hk : LensAtMost fieldPeerInfoSignedPeerRecord limits.maxSignedPeerRecordBytes fs
    · rw [if_pos hk]
      simp only [fieldPeerInfoSignedPeerRecord] at hk
      obtain ⟨number, payload⟩ := f
      cases payload with
      | len b =>
        by_cases h1 : number = fieldPeerInfoPeerId
        · simp [peerInfoStep, hk, h1]
        by_cases h2 : number = fieldPeerInfoSignedPeerRecord
        · by_cases hl : limits.maxSignedPeerRecordBytes < b.length
          · simp [peerInfoStep, h2, hl]
          · simp [peerInfoStep, hk, h2, hl, Nat.not_lt.mp hl]
        · simp_all [peerInfoStep]
      | _ => simp [peerInfoStep, hk]
    · rw [if_neg hk, if_neg fun h => hk (lensAtMost_of_snoc h)]
      rfl

/-- Up to the first record that is too long, the fields of a PX peer are exact. -/
def PeerInfoRead : List Field → Prop :=
  Upto (LensAtMost fieldPeerInfoSignedPeerRecord limits.maxSignedPeerRecordBytes)
    (FieldExact peerInfoKeys)

/-- `gossipsub_peer_info_decode` reads `PeerInfo`. -/
theorem peerInfoDecode_schema {bs : Bytes} (h : OfParse (PeerInfoRead limits) bs) :
    (peerInfoDecode limits (.ptr bs)).toOption = nestedMessage (schemaPeerInfo limits) bs := by
  have hsofar : OfParse (fun fs => ∀ pre post, fs = pre ++ post →
      (foldFields (peerInfoStep limits) pre ⟨.zero, .zero⟩).isSome →
        LensAtMost fieldPeerInfoSignedPeerRecord limits.maxSignedPeerRecordBytes pre) bs := by
    intro fs _ pre _ _ hsome
    rwa [peerInfoFold, schemaPeerInfo, Option.isSome_ite] at hsome
  rw [peerInfoDecode, fieldLoop_read (peerInfoField_interprets limits)
    (peerInfoStep_skip limits) (by decide) hsofar h, nestedMessage]
  simp only [peerInfoFold]

def pruneStep (f : Field) (out : ControlPrune) : Option ControlPrune :=
  match f.payload with
  | .varint v =>
    if f.number = fieldPruneBackoff then some { out with backoffSeconds := v } else some out
  | .len b =>
    if f.number = fieldPruneTopic then some { out with topic := .ptr b }
    else if f.number = fieldPrunePeers then
      if storage.peerInfoCapacity ≤ start + out.peers.length then none
      else (peerInfoDecode limits (.ptr b)).toOption.map fun peer =>
        { out with peers := out.peers ++ [peer] }
    else some out
  | _ => some out

/-- The pairs that `gossipsub_prune_decode` reads. -/
def pruneKeys : List (Nat × Nat) :=
  [(fieldPruneTopic, wireLen), (fieldPrunePeers, wireLen), (fieldPruneBackoff, wireVarint)]

theorem pruneField_interprets :
    Interprets (pruneField limits storage start) (pruneStep limits storage start) := by
  intro number wire rest s
  unfold pruneField
  by_cases h1 : number = fieldPruneTopic ∧ wire = wireLen
  · obtain ⟨rfl, rfl⟩ := h1
    rw [if_pos ⟨rfl, rfl⟩]
    exact span_interprets fun b rest => by simp [pruneStep]
  rw [if_neg h1]
  by_cases h2 : number = fieldPrunePeers ∧ wire = wireLen
  · obtain ⟨rfl, rfl⟩ := h2
    rw [if_pos ⟨rfl, rfl⟩]
    by_cases hc : storage.peerInfoCapacity ≤ start + s.peers.length
    · rw [if_pos hc, toOption_throw_bind]
      cases hp : readScalar uvarintCode wireLen rest with
      | none => rfl
      | some p =>
        obtain ⟨payload, rest'⟩ := p
        have hw := readScalar_wire uvarintCode hp
        cases payload with
        | len b => simp [pruneStep, hc]
        | _ => simp at hw
    · rw [if_neg hc]
      refine span_interprets fun b rest => ?_
      rw [toOption_bind]
      cases hd : (peerInfoDecode limits (.ptr b)).toOption <;> simp [pruneStep, hc, hd]
  rw [if_neg h2]
  by_cases h3 : number = fieldPruneBackoff ∧ wire = wireVarint
  · obtain ⟨rfl, rfl⟩ := h3
    rw [if_pos ⟨rfl, rfl⟩]
    exact varint_interprets fun v rest => by simp [pruneStep]
  rw [if_neg h3]
  refine skip_interprets fun payload hw => ?_
  cases payload <;> simp_all [pruneStep]

theorem pruneStep_skip (s : ControlPrune) (h : (f.number, f.payload.wire) ∉ pruneKeys) :
    pruneStep limits storage start f s = some s := by
  obtain ⟨number, payload⟩ := f
  cases payload <;> simp_all [pruneStep, pruneKeys]

/-- The PX peers of a PRUNE are accepted so far. -/
def prunePeersSoFar (fs : List Field) : Prop :=
  ((lens fieldPrunePeers fs).mapM (nestedMessage (schemaPeerInfo limits))).isSome

/-- A PX peer is read as the schema does. -/
def prunePeerRead (f : Field) : Prop :=
  ∀ b, f = ⟨fieldPrunePeers, .len b⟩ → OfParse (PeerInfoRead limits) b

/-- Up to the first PX peer that is refused, the fields of a PRUNE are exact and its PX peers
    are read as the schema does. -/
def PruneRead (fs : List Field) : Prop :=
  Upto (prunePeersSoFar limits) (FieldExact pruneKeys) fs ∧
    Upto (prunePeersSoFar limits) (prunePeerRead limits) fs

theorem pruneFold (hstart : start ≤ storage.peerInfoCapacity) (fs : List Field)
    (hpeers : Upto (prunePeersSoFar limits) (prunePeerRead limits) fs) :
    foldFields (pruneStep limits storage start) fs ⟨.zero, [], 0⟩ =
      ((lens fieldPrunePeers fs).mapM (nestedMessage (schemaPeerInfo limits))).bind fun peers =>
        if start + peers.length ≤ storage.peerInfoCapacity then
          some ⟨lastSpan fieldPruneTopic fs, peers, lastVarint fieldPruneBackoff fs⟩
        else none := by
  induction fs using List.reverseRecOn with
  | nil => simp [hstart, lastVarint]
  | append_singleton fs f ih =>
    rw [foldFields_append, ih hpeers.left]
    obtain ⟨number, payload⟩ := f
    by_cases hid : (number, payload.wire) = (fieldPrunePeers, wireLen)
    · cases payload with
      | len b =>
        obtain rfl : number = fieldPrunePeers := by simpa using hid
        have hlens : lens fieldPrunePeers (fs ++ [⟨fieldPrunePeers, .len b⟩]) =
            lens fieldPrunePeers fs ++ [b] := by simp
        rw [hlens, mapM_snoc_eq]
        cases hsofar : (lens fieldPrunePeers fs).mapM (nestedMessage (schemaPeerInfo limits)) with
        | none => rfl
        | some peers =>
          have hb : (peerInfoDecode limits (.ptr b)).toOption =
              nestedMessage (schemaPeerInfo limits) b :=
            peerInfoDecode_schema limits
              (hpeers.last (by rw [prunePeersSoFar, hsofar]; rfl) b rfl)
          simp only [Option.bind_some]
          by_cases hc : start + peers.length ≤ storage.peerInfoCapacity
          · by_cases hlast : storage.peerInfoCapacity ≤ start + peers.length
            · cases nestedMessage (schemaPeerInfo limits) b <;>
                simp [hc, hlast, pruneStep, foldFields, show
                  ¬ start + (peers.length + 1) ≤ storage.peerInfoCapacity by omega]
            · cases hn : nestedMessage (schemaPeerInfo limits) b <;>
                simp [hc, hlast, pruneStep, foldFields, hb, hn, show
                  start + (peers.length + 1) ≤ storage.peerInfoCapacity by omega]
          · cases nestedMessage (schemaPeerInfo limits) b <;>
              simp [hc, show ¬ start + (peers.length + 1) ≤ storage.peerInfoCapacity by omega]
      | _ => simp at hid
    · have hlens : lens fieldPrunePeers (fs ++ [⟨number, payload⟩]) = lens fieldPrunePeers fs := by
        cases payload <;> simp_all
      rw [hlens]
      cases (lens fieldPrunePeers fs).mapM (nestedMessage (schemaPeerInfo limits)) with
      | none => rfl
      | some peers =>
        simp only [Option.bind_some]
        by_cases hc : start + peers.length ≤ storage.peerInfoCapacity
        · cases payload with
          | varint v =>
            by_cases hn : number = fieldPruneBackoff <;> simp_all [pruneStep, foldFields]
          | len b =>
            by_cases hn : number = fieldPruneTopic <;> simp_all [pruneStep, foldFields]
          | _ => simp [hc, pruneStep, foldFields]
        · simp [hc]

/-- `gossipsub_prune_decode` reads `ControlPrune`, as far as the pool of peers reaches. -/
theorem pruneDecode_schema (hcursor : cursor.peerInfoNext ≤ storage.peerInfoCapacity) {bs : Bytes}
    (h : OfParse (PruneRead limits) bs) :
    (pruneDecode limits storage (.ptr bs) cursor).toOption =
      (nestedMessage (schemaPrune limits) bs).bind fun x =>
        if cursor.peerInfoNext + x.peers.length ≤ storage.peerInfoCapacity then
          some (x, { cursor with peerInfoNext := cursor.peerInfoNext + x.peers.length })
        else none := by
  have hsofar : OfParse (fun fs => ∀ pre post, fs = pre ++ post →
      (foldFields (pruneStep limits storage cursor.peerInfoNext) pre ⟨.zero, [], 0⟩).isSome →
        prunePeersSoFar limits pre) bs := by
    rintro fs hfs pre post rfl hsome
    rw [pruneFold limits storage _ hcursor pre (h _ hfs).2.left, Option.isSome_bind,
      Option.any_eq_true] at hsome
    obtain ⟨peers, hpeers, -⟩ := hsome
    rw [prunePeersSoFar, hpeers]
    rfl
  rw [pruneDecode, toOption_bind, fieldLoop_read (pruneField_interprets limits storage _)
    (pruneStep_skip limits storage _) (by decide) hsofar fun fs hfs => (h fs hfs).1, nestedMessage]
  cases hp : legalFields bs with
  | none => rfl
  | some fs =>
    have hparse := (legalFields_eq_some.mp hp).1
    simp only [Option.bind_some, pruneFold limits storage _ hcursor fs (h fs hparse).2, schemaPrune,
      Option.bind_eq_bind]
    cases (lens fieldPrunePeers fs).mapM (nestedMessage (schemaPeerInfo limits)) with
    | none => rfl
    | some peers =>
      simp only [Option.bind_some]
      by_cases hf : cursor.peerInfoNext + peers.length ≤ storage.peerInfoCapacity
      · rw [if_pos hf, Option.bind_some]
        by_cases ht : topicRefused limits (lastSpan fieldPruneTopic fs) ∨
            limits.maxPxPeersPerRpc < peers.length
        · rw [if_pos ht, if_pos ht]
          rfl
        · rw [if_neg ht, if_neg ht, Option.bind_some, if_pos hf]
          rfl
      · rw [if_neg hf, Option.bind_none]
        split
        · rfl
        · rw [Option.bind_some, if_neg hf]

end LeanLibp2p.Gossipsub
