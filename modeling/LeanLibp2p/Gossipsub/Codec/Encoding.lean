import LeanLibp2p.Gossipsub.Codec.Reference

/-!
# What the encoders write

Each encoder writes the fields of its element in protobuf form, and its size function
measures exactly them. `Writes` and `Measures` say so for a step that appends to a buffer
or adds to a total; both compose, so an encoder is read off from the steps it is made of.
-/

namespace LeanLibp2p.Gossipsub

open LeanLibp2p.Lib.Protobuf

variable (version : ProtocolVersion) (limits : Limits) (rpc : Rpc)
variable (field : Nat)
variable {m : Nat → Except GossipsubErr Nat}
variable (field value : Nat)

/-- The step succeeds exactly when there is room and `P` holds, and then appends `bytes`. -/
def Writes (w : Nat → Bytes → Except GossipsubErr Bytes) (P : Prop) (bytes : Bytes) : Prop :=
  ∀ cap out, out.length ≤ cap → ∀ out',
    w cap out = .ok out' ↔ out.length + bytes.length ≤ cap ∧ P ∧ out' = out ++ bytes

/-- The step succeeds exactly when `P` holds and the sum fits, and then adds `n`. -/
def Measures (m : Nat → Except GossipsubErr Nat) (P : Prop) (n : Nat) : Prop :=
  ∀ total, total ≤ sizeMax → ∀ t, m total = .ok t ↔ P ∧ t = total + n ∧ total + n ≤ sizeMax

theorem Writes.bind {w₁ w₂ : Nat → Bytes → Except GossipsubErr Bytes} {P₁ P₂ : Prop}
    {b₁ b₂ : Bytes} (h₁ : Writes w₁ P₁ b₁) (h₂ : Writes w₂ P₂ b₂) :
    Writes (fun cap out => w₁ cap out >>= w₂ cap) (P₁ ∧ P₂) (b₁ ++ b₂) := by
  intro cap out hout out'
  simp only [bind_eq_ok, List.length_append]
  constructor
  · rintro ⟨mid, hmid, hrest⟩
    obtain ⟨hroom, hP₁, rfl⟩ := (h₁ cap out hout mid).mp hmid
    obtain ⟨hroom₂, hP₂, rfl⟩ := (h₂ cap (out ++ b₁) (by simpa using hroom) out').mp hrest
    rw [List.length_append] at hroom₂
    exact ⟨by omega, ⟨hP₁, hP₂⟩, by simp⟩
  · rintro ⟨hroom, ⟨hP₁, hP₂⟩, rfl⟩
    refine ⟨out ++ b₁, (h₁ cap out hout _).mpr ⟨by omega, hP₁, rfl⟩, ?_⟩
    refine (h₂ cap (out ++ b₁) ?_ _).mpr ⟨?_, hP₂, by simp⟩
    · rw [List.length_append]; omega
    · rw [List.length_append]; omega

theorem Writes.congr {w : Nat → Bytes → Except GossipsubErr Bytes} {P Q : Prop} {b c : Bytes}
    (h : Writes w P b) (hPQ : P ↔ Q) (hbc : b = c) : Writes w Q c := by
  subst hbc
  intro cap out hout out'
  rw [h cap out hout out', hPQ]

theorem Writes.none : Writes (fun _ out => .ok out) True [] := by
  intro cap out hout out'
  simp only [Except.ok.injEq, List.length_nil, Nat.add_zero, hout, true_and, List.append_nil]
  exact eq_comm

/-- A loop that writes one element after the other. -/
theorem Writes.foldlM {α : Type} {w : α → Nat → Bytes → Except GossipsubErr Bytes}
    {P : α → Prop} {b : α → Bytes} {xs : List α} (h : ∀ x ∈ xs, Writes (w x) (P x) (b x)) :
    Writes (fun cap out => xs.foldlM (fun out x => w x cap out) out) (∀ x ∈ xs, P x)
      (xs.flatMap b) := by
  induction xs with
  | nil => exact Writes.none.congr (by simp) rfl
  | cons x xs ih =>
    refine ((h x (by simp)).bind (ih fun y hy => h y (by simp [hy]))).congr (by simp) (by simp)

theorem Measures.bind {m₁ m₂ : Nat → Except GossipsubErr Nat} {P₁ P₂ : Prop} {n₁ n₂ : Nat}
    (h₁ : Measures m₁ P₁ n₁) (h₂ : Measures m₂ P₂ n₂) :
    Measures (fun total => m₁ total >>= m₂) (P₁ ∧ P₂) (n₁ + n₂) := by
  intro total htotal t
  simp only [bind_eq_ok]
  constructor
  · rintro ⟨mid, hmid, hrest⟩
    obtain ⟨hP₁, rfl, hle₁⟩ := (h₁ total htotal mid).mp hmid
    obtain ⟨hP₂, rfl, hle₂⟩ := (h₂ _ hle₁ t).mp hrest
    exact ⟨⟨hP₁, hP₂⟩, by omega, by omega⟩
  · rintro ⟨⟨hP₁, hP₂⟩, rfl, hle⟩
    exact ⟨total + n₁, (h₁ total htotal _).mpr ⟨hP₁, rfl, by omega⟩,
      (h₂ _ (by omega) _).mpr ⟨hP₂, by omega, by omega⟩⟩

theorem Measures.congr {P Q : Prop} {n k : Nat}
    (h : Measures m P n) (hPQ : P ↔ Q) (hnk : n = k) : Measures m Q k := by
  subst hnk
  intro total htotal t
  rw [h total htotal t, hPQ]

theorem Measures.none : Measures (fun total => .ok total) True 0 := by
  intro total htotal t
  simp only [Except.ok.injEq, Nat.add_zero, htotal, true_and, and_true]
  exact eq_comm

/-- A step that is only taken when a check passes. -/
theorem Measures.guard {P : Prop} {n : Nat} {c : Prop}
    [Decidable c] {e : GossipsubErr} (h : ¬ c → Measures m P n) :
    Measures (fun total => if c then .error e else m total) (¬ c ∧ P) n := by
  intro total htotal t
  beta_reduce
  by_cases hc : c
  · simp [hc]
  · rw [if_neg hc, h hc total htotal t]
    simp [hc]

theorem Measures.foldlM {α : Type} {m : α → Nat → Except GossipsubErr Nat} {P : α → Prop}
    {n : α → Nat} {xs : List α} (h : ∀ x ∈ xs, Measures (m x) (P x) (n x)) :
    Measures (fun total => xs.foldlM (fun total x => m x total) total) (∀ x ∈ xs, P x)
      (xs.map n).sum := by
  induction xs with
  | nil => exact Measures.none.congr (by simp) rfl
  | cons x xs ih =>
    refine ((h x (by simp)).bind (ih fun y hy => h y (by simp [hy]))).congr (by simp) (by simp)

/-! ## The wire primitives -/

theorem writeUvarint_writes (value : Nat) :
    Writes (writeUvarint value) (value < 2 ^ 63) (uvarintCode.write value) := by
  intro cap out hout out'
  rw [uvarintCode_write_length]
  unfold writeUvarint
  rw [if_neg (Nat.not_lt.mpr hout)]
  by_cases hv : value < 2 ^ 63
  · by_cases hroom : uvarintSize value ≤ cap - out.length
    · rw [uvarintEncode_ok hv hroom]
      simp only [Except.ok.injEq]
      constructor
      · rintro rfl
        exact ⟨by omega, hv, rfl⟩
      · rintro ⟨-, -, rfl⟩
        rfl
    · have : uvarintEncode value (cap - out.length) = .error .bufTooSmall := by
        unfold uvarintEncode
        rw [if_neg (by omega), if_pos (by omega)]
      rw [this]
      constructor
      · intro h; cases h
      · rintro ⟨h, -, -⟩; omega
  · have : uvarintEncode value (cap - out.length) = .error .overflow := by
      unfold uvarintEncode
      rw [if_pos (by omega)]
    rw [this]
    constructor
    · intro h; cases h
    · rintro ⟨-, h, -⟩; exact absurd h hv

/-- The field that a present span makes. -/
def spanField (field : Nat) (span : Span) : Field := ⟨field, .len span.bytes⟩

theorem lenField_write (bytes : Bytes) :
    (⟨field, .len bytes⟩ : Field).write uvarintCode =
      (uvarintCode.write (fieldKey field wireLen) ++ uvarintCode.write bytes.length) ++ bytes := by
  rw [fieldKey_eq field (by decide)]
  simp [Field.write, Payload.write, Payload.wire, wireLen]

theorem varintField_write :
    (⟨field, .varint value⟩ : Field).write uvarintCode =
      uvarintCode.write (fieldKey field wireVarint) ++ uvarintCode.write value := by
  rw [fieldKey_eq field (by decide)]
  rfl

theorem lenField_fits (bytes : Bytes) :
    (⟨field, .len bytes⟩ : Field).Fits uvarintCode ↔
      fieldKey field wireLen < 2 ^ 63 ∧ bytes.length < 2 ^ 63 := by
  rw [fieldKey_eq field (by decide)]
  rfl

theorem varintField_fits :
    (⟨field, .varint value⟩ : Field).Fits uvarintCode ↔
      fieldKey field wireVarint < 2 ^ 63 ∧ value < 2 ^ 63 := by
  rw [fieldKey_eq field (by decide)]
  rfl

theorem writeLenPrefix_writes (field len : Nat) :
    Writes (writeLenPrefix field len) (fieldKey field wireLen < 2 ^ 63 ∧ len < 2 ^ 63)
      (uvarintCode.write (fieldKey field wireLen) ++ uvarintCode.write len) :=
  (writeUvarint_writes _).bind (writeUvarint_writes _)

theorem writeVarintField_writes :
    Writes (writeVarintField field value) ((⟨field, .varint value⟩ : Field).Fits uvarintCode)
      ((⟨field, .varint value⟩ : Field).write uvarintCode) :=
  ((writeUvarint_writes _).bind (writeUvarint_writes _)).congr
    (varintField_fits field value).symm (varintField_write field value).symm

theorem Writes.append (bytes : Bytes) :
    Writes (fun cap out => if cap - out.length < bytes.length then .error .bufTooSmall
      else .ok (out ++ bytes)) True bytes := by
  intro cap out hout out'
  beta_reduce
  by_cases h : cap - out.length < bytes.length
  · rw [if_pos h]
    constructor
    · intro h; cases h
    · rintro ⟨h', -⟩; omega
  · rw [if_neg h, Except.ok.injEq]
    constructor
    · rintro rfl
      exact ⟨by omega, trivial, rfl⟩
    · rintro ⟨-, -, rfl⟩
      rfl

theorem writeLenField_writes {span : Span} (hspan : span.isNull = false) :
    Writes (writeLenField field span) ((spanField field span).Fits uvarintCode)
      ((spanField field span).write uvarintCode) := by
  obtain ⟨bytes, rfl⟩ : ∃ bytes, span = .ptr bytes := by
    cases span with
    | null n => simp at hspan
    | ptr bytes => exact ⟨bytes, rfl⟩
  have h := ((writeLenPrefix_writes field bytes.length).bind (Writes.append bytes)).congr
    (Q := (spanField field (.ptr bytes)).Fits uvarintCode)
    (by rw [and_true, spanField, Span.bytes_ptr, lenField_fits])
    (lenField_write field bytes).symm
  intro cap out hout out'
  refine Iff.trans ?_ (h cap out hout out')
  have heq : writeLenField field (.ptr bytes) cap out =
      writeLenPrefix field bytes.length cap out >>= fun out =>
        if cap - out.length < bytes.length then .error .bufTooSmall else .ok (out ++ bytes) := by
    simp only [writeLenField, writeLenPrefix, bind_assoc, Span.isNull_ptr, Bool.false_eq_true,
      false_and, if_false, Span.len_ptr, Span.bytes_ptr]
    rfl
  rw [heq]

/-- The fields of `writePresent` and `presentSize`. -/
def presentFields (field : Nat) (span : Span) : List Field :=
  if span.present then [spanField field span] else []

/-- Every field of a list fits the varint code. -/
def AllFit (fs : List Field) : Prop := ∀ f ∈ fs, f.Fits uvarintCode

@[simp] theorem allFit_nil : AllFit [] := fun _ h => by cases h

@[simp] theorem allFit_cons (f : Field) (fs : List Field) :
    AllFit (f :: fs) ↔ f.Fits uvarintCode ∧ AllFit fs := by
  simp [AllFit]

@[simp] theorem allFit_append (fs gs : List Field) : AllFit (fs ++ gs) ↔ AllFit fs ∧ AllFit gs := by
  simp [AllFit, or_imp, forall_and]

theorem Span.isNull_of_present {span : Span} (h : span.present = true) : span.isNull = false := by
  cases span with
  | null n => simp at h
  | ptr bytes => rfl

theorem Span.len_eq {span : Span} (h : span.isNull = false) : span.len = span.bytes.length := by
  cases span with
  | null n => simp at h
  | ptr bytes => rfl

theorem writePresent_writes (span : Span) :
    Writes (writePresent field span) (AllFit (presentFields field span))
      (writeAll uvarintCode (presentFields field span)) := by
  unfold presentFields
  by_cases h : span.present = true
  · have hw := writeLenField_writes field (Span.isNull_of_present h)
    have heq : writePresent field span = writeLenField field span := by
      funext cap out
      rw [writePresent, if_pos h]
    rw [if_pos h, heq]
    exact hw.congr (by simp) (by simp)
  · have heq : writePresent field span = fun _ out => .ok out := by
      funext cap out
      rw [writePresent, if_neg h]
    rw [if_neg h, heq]
    exact Writes.none.congr (by simp) rfl

theorem fieldSize_measures_len (bytes : Bytes) :
    Measures (fieldSize field wireLen bytes.length) True
      ((⟨field, .len bytes⟩ : Field).write uvarintCode).length := by
  intro total htotal t
  rw [lenField_write]
  simp only [fieldSize, sizeAdd, List.length_append, uvarintCode_write_length, true_and]
  by_cases h₁ : sizeMax - total < uvarintSize (fieldKey field wireLen) + uvarintSize bytes.length
  · rw [if_pos h₁]
    constructor
    · intro h; cases h
    · rintro ⟨-, h⟩; omega
  · rw [if_neg h₁]
    simp only [if_true]
    by_cases h₂ : sizeMax - (total + (uvarintSize (fieldKey field wireLen) +
        uvarintSize bytes.length)) < bytes.length
    · rw [if_pos h₂]
      constructor
      · intro h; cases h
      · rintro ⟨-, h⟩; omega
    · rw [if_neg h₂]
      simp only [Except.ok.injEq]
      omega

theorem fieldSize_measures_varint :
    Measures (fieldSize field wireVarint value) True
      ((⟨field, .varint value⟩ : Field).write uvarintCode).length := by
  intro total htotal t
  rw [varintField_write]
  simp only [fieldSize, sizeAdd, List.length_append, uvarintCode_write_length, true_and]
  by_cases h₁ : sizeMax - total < uvarintSize (fieldKey field wireVarint) + uvarintSize value
  · rw [if_pos h₁]
    constructor
    · intro h; cases h
    · rintro ⟨-, h⟩; omega
  · rw [if_neg h₁]
    simp only []
    rw [if_neg (show ¬ wireVarint = wireLen by decide), Except.ok.injEq]
    omega

theorem fieldSize_measures_span {span : Span} (h : span.isNull = false) :
    Measures (fieldSize field wireLen span.len) True
      ((spanField field span).write uvarintCode).length := by
  rw [Span.len_eq h]
  exact fieldSize_measures_len field span.bytes

theorem presentSize_measures (span : Span) :
    Measures (presentSize field span) True
      (writeAll uvarintCode (presentFields field span)).length := by
  unfold presentFields
  by_cases h : span.present = true
  · have heq : presentSize field span = fieldSize field wireLen span.len := by
      funext total
      rw [presentSize, if_pos h]
    rw [if_pos h, heq]
    exact (fieldSize_measures_span field (Span.isNull_of_present h)).congr Iff.rfl (by simp)
  · have heq : presentSize field span = fun total => .ok total := by
      funext total
      rw [presentSize, if_neg h]
    rw [if_neg h, heq]
    exact Measures.none

/-! ## Elements -/

/-- An encoder and its size function: both accept exactly the valid elements, whose encoding
    is `bytes`; the encoder moreover needs the room, and numbers that a varint can hold. -/
structure Encodes (size : Except GossipsubErr Nat) (encode : Nat → Except EncodeErr Bytes)
    (valid fits : Prop) (bytes : Bytes) : Prop where
  size_ok : ∀ n, size = .ok n ↔ valid ∧ n = bytes.length ∧ bytes.length ≤ sizeMax
  encode_ok : ∀ cap out, encode cap = .ok out ↔
    valid ∧ bytes.length ≤ sizeMax ∧ bytes.length ≤ cap ∧ fits ∧ out = bytes

theorem mapError_eq_ok {ε ε' α : Type} {f : ε → ε'} {x : Except ε α} {a : α} :
    x.mapError f = .ok a ↔ x = .ok a := by
  cases x <;> simp [Except.mapError]

/-- The shape that all encoders share: measure, check the room, write. -/
theorem encodes_of_size {size : Except GossipsubErr Nat}
    {w : Nat → Bytes → Except GossipsubErr Bytes} {valid fits : Prop} {bytes : Bytes}
    (hsize : ∀ n, size = .ok n ↔ valid ∧ n = bytes.length ∧ bytes.length ≤ sizeMax)
    (hw : valid → Writes w fits bytes) :
    Encodes size (fun cap => encodeChecked size cap (w cap [])) valid fits bytes := by
  refine ⟨hsize, fun cap out => ?_⟩
  unfold encodeChecked
  cases hs : size with
  | error e =>
    constructor
    · intro h; cases h
    · rintro ⟨hv, hmax, -⟩
      rw [(hsize bytes.length).mpr ⟨hv, rfl, hmax⟩] at hs
      cases hs
  | ok required =>
    obtain ⟨hv, rfl, hmax⟩ := (hsize required).mp hs
    simp only []
    by_cases hcap : cap < bytes.length
    · rw [if_pos hcap]
      constructor
      · intro h; cases h
      · rintro ⟨-, -, h, -⟩; omega
    · rw [if_neg hcap, mapError_eq_ok, hw hv cap [] (Nat.zero_le _) out]
      simp only [List.length_nil, Nat.zero_add, List.nil_append, hv, hmax, true_and]

theorem encodes_checked {w : Nat → Bytes → Except GossipsubErr Bytes} {valid fits : Prop} {bytes : Bytes}
    (hm : Measures m valid bytes.length) (hw : valid → Writes w fits bytes) :
    Encodes (m 0) (fun cap => encodeChecked (m 0) cap (w cap [])) valid fits bytes :=
  encodes_of_size (fun n => by simpa using hm 0 (Nat.zero_le _) n) hw

/-- An element inside another one. -/
theorem writeNested_writes {size : Except GossipsubErr Nat}
    {encode : Nat → Except EncodeErr Bytes} {valid fits : Prop} {bytes : Bytes}
    (h : Encodes size encode valid fits bytes) :
    Writes (writeNested field size encode)
      ((valid ∧ bytes.length ≤ sizeMax ∧ fits) ∧
        (⟨field, .len bytes⟩ : Field).Fits uvarintCode)
      ((⟨field, .len bytes⟩ : Field).write uvarintCode) := by
  intro cap out hout out'
  rw [lenField_fits, lenField_write]
  unfold writeNested
  simp only [bind_eq_ok]
  constructor
  · rintro ⟨n, hn, mid, hmid, inner, hinner, hlast⟩
    obtain ⟨hv, rfl, hmax⟩ := (h.size_ok n).mp hn
    obtain ⟨hroom, ⟨hk, hl⟩, rfl⟩ := (writeLenPrefix_writes field _ cap out hout mid).mp hmid
    obtain ⟨-, -, hcap, hf, rfl⟩ := (h.encode_ok _ inner).mp (mapError_eq_ok.mp hinner)
    simp only [pure, Except.pure, Except.ok.injEq] at hlast
    refine ⟨?_, ⟨⟨hv, hmax, hf⟩, hk, hl⟩, by rw [← hlast]; simp⟩
    simp only [List.length_append] at hcap hroom ⊢
    omega
  · rintro ⟨hroom, ⟨⟨hv, hmax, hf⟩, hk, hl⟩, rfl⟩
    simp only [List.length_append] at hroom
    refine ⟨bytes.length, (h.size_ok _).mpr ⟨hv, rfl, hmax⟩, _,
      (writeLenPrefix_writes field _ cap out hout _).mpr ⟨?_, ⟨hk, hl⟩, rfl⟩, bytes,
      mapError_eq_ok.mpr ((h.encode_ok _ _).mpr ⟨hv, hmax, ?_, hf, rfl⟩), by simp [pure, Except.pure]⟩
    · rw [List.length_append]; omega
    · simp only [List.length_append]; omega

theorem nestedSize_measures {size : Except GossipsubErr Nat}
    {encode : Nat → Except EncodeErr Bytes} {valid fits : Prop} {bytes : Bytes}
    (h : Encodes size encode valid fits bytes) :
    Measures (fun total => size >>= fun nested => fieldSize field wireLen nested total)
      (valid ∧ bytes.length ≤ sizeMax) ((⟨field, .len bytes⟩ : Field).write uvarintCode).length := by
  intro total htotal t
  simp only [bind_eq_ok]
  constructor
  · rintro ⟨n, hn, ht⟩
    obtain ⟨hv, rfl, hmax⟩ := (h.size_ok n).mp hn
    obtain ⟨-, rfl, hle⟩ := (fieldSize_measures_len field bytes total htotal t).mp ht
    exact ⟨⟨hv, hmax⟩, rfl, hle⟩
  · rintro ⟨⟨hv, hmax⟩, rfl, hle⟩
    exact ⟨bytes.length, (h.size_ok _).mpr ⟨hv, rfl, hmax⟩,
      (fieldSize_measures_len field bytes total htotal _).mpr ⟨trivial, rfl, hle⟩⟩

theorem not_topicRefused {limits : Limits} {topic : Span} (h : ¬ topicRefused limits topic) :
    topic.isNull = false := by
  cases topic with
  | null n => exact absurd (Or.inl rfl) h
  | ptr bytes => rfl

/-- The fields of a subscription. -/
def subFields (sub : RpcSubscription) : List Field :=
  [⟨fieldSubSubscribe, .varint (subscribeFlag sub.subscribe)⟩, spanField fieldSubTopic sub.topic]

theorem subEncode_encodes (sub : RpcSubscription) :
    Encodes (subSize limits sub) (subEncode limits sub) (¬ topicRefused limits sub.topic)
      (AllFit (subFields sub)) (writeAll uvarintCode (subFields sub)) :=
  encodes_checked (m := fun total => if topicRefused limits sub.topic then .error .limit
      else fieldSize fieldSubSubscribe wireVarint (subscribeFlag sub.subscribe) total >>=
        fieldSize fieldSubTopic wireLen sub.topic.len)
    (w := fun cap out => writeVarintField fieldSubSubscribe (subscribeFlag sub.subscribe) cap out >>=
      writeLenField fieldSubTopic sub.topic cap)
    ((Measures.guard fun hc => (fieldSize_measures_varint _ _).bind
        (fieldSize_measures_span _ (not_topicRefused hc))).congr
      (by simp) (by simp [subFields]))
    fun hv => ((writeVarintField_writes _ _).bind
      (writeLenField_writes _ (not_topicRefused hv))).congr (by simp [subFields]) (by simp [subFields])

/-- The fields of a message, in the order in which they are written. -/
def messageFields (message : Message) : List Field :=
  presentFields fieldMsgFrom message.fromPeer ++ presentFields fieldMsgData message.data ++
    presentFields fieldMsgSeqno message.seqno ++ [spanField fieldMsgTopic message.topic] ++
    presentFields fieldMsgSignature message.signature ++ presentFields fieldMsgKey message.key

/-- The message is one that `gossipsub_message_size` accepts. -/
def messageValid (message : Message) : Prop :=
  ¬ (topicRefused limits message.topic ∨ limits.maxMessageDataBytes < message.data.len)

theorem messageEncode_encodes (message : Message) :
    Encodes (messageSize limits message) (messageEncode limits message)
      (messageValid limits message) (AllFit (messageFields message))
      (writeAll uvarintCode (messageFields message)) :=
  encodes_checked (m := fun total => if topicRefused limits message.topic ∨
        limits.maxMessageDataBytes < message.data.len then .error .limit
      else presentSize fieldMsgFrom message.fromPeer total >>= fun total =>
        presentSize fieldMsgData message.data total >>= fun total =>
        presentSize fieldMsgSeqno message.seqno total >>= fun total =>
        fieldSize fieldMsgTopic wireLen message.topic.len total >>= fun total =>
        presentSize fieldMsgSignature message.signature total >>=
        presentSize fieldMsgKey message.key)
    (w := fun cap out => writePresent fieldMsgFrom message.fromPeer cap out >>= fun out =>
      writePresent fieldMsgData message.data cap out >>= fun out =>
      writePresent fieldMsgSeqno message.seqno cap out >>= fun out =>
      writeLenField fieldMsgTopic message.topic cap out >>= fun out =>
      writePresent fieldMsgSignature message.signature cap out >>=
      writePresent fieldMsgKey message.key cap)
    ((Measures.guard fun hc => (presentSize_measures _ _).bind <| (presentSize_measures _ _).bind <|
        (presentSize_measures _ _).bind <|
        (fieldSize_measures_span _ (not_topicRefused fun h => hc (.inl h))).bind <|
        (presentSize_measures _ _).bind (presentSize_measures _ _)).congr
      (by simp [messageValid]) (by simp [messageFields]))
    fun hv => ((writePresent_writes _ _).bind <| (writePresent_writes _ _).bind <|
      (writePresent_writes _ _).bind <|
      (writeLenField_writes _ (not_topicRefused fun h => hv (.inl h))).bind <|
      (writePresent_writes _ _).bind (writePresent_writes _ _)).congr
      (by simp [messageFields]) (by simp [messageFields])

/-! ## Lists of message ids -/

/-- The fields of a list of ids. -/
def idFields (field : Nat) (ids : List Span) : List Field := ids.map (spanField field)

/-- An id that the size functions accept. -/
def idValid (id : Span) : Prop :=
  ¬ (id.isNull = true ∨ id.len = 0 ∨ limits.maxMessageIdBytes < id.len)

/-- The list of ids is one that the size functions accept. -/
def idsValid (ids : List Span) : Prop :=
  ids.length ≤ limits.maxMessageIdsPerRpc ∧ ∀ id ∈ ids, idValid limits id

theorem idValid_isNull {limits : Limits} {id : Span} (h : idValid limits id) :
    id.isNull = false := by
  cases id with
  | null n => exact absurd (Or.inl rfl) h
  | ptr bytes => rfl

theorem messageIdListSize_measures (limits : Limits) (ids : List Span) :
    Measures (messageIdListSize field limits ids) (idsValid limits ids)
      (writeAll uvarintCode (idFields field ids)).length := by
  have hid : ∀ id ∈ ids, Measures (fun total =>
      if id.isNull ∨ id.len = 0 ∨ limits.maxMessageIdBytes < id.len then .error .limit
      else fieldSize field wireLen id.len total) (idValid limits id)
      ((spanField field id).write uvarintCode).length := by
    intro id _
    refine (Measures.guard fun hc => fieldSize_measures_span field (idValid_isNull hc)).congr ?_ rfl
    simp [idValid]
  refine (Measures.guard fun _ => Measures.foldlM hid).congr ?_ ?_
  · simp [idsValid]
  · rw [idFields, writeAll]
    simp [Function.comp_def]

theorem messageIdListEncode_writes {limits : Limits} {ids : List Span} (h : idsValid limits ids) :
    Writes (messageIdListEncode field ids) (AllFit (idFields field ids))
      (writeAll uvarintCode (idFields field ids)) := by
  refine (Writes.foldlM fun id hid => writeLenField_writes field (idValid_isNull (h.2 id hid))).congr
    ?_ ?_
  · simp [AllFit, idFields]
  · rw [idFields, writeAll, List.flatMap_map]

/-- The fields of an IHAVE. -/
def ihaveFields (ihave : ControlIhave) : List Field :=
  spanField fieldIhaveTopic ihave.topic :: idFields fieldIhaveMessageIds ihave.messageIds

theorem ihaveEncode_encodes (ihave : ControlIhave) :
    Encodes (ihaveSize limits ihave) (ihaveEncode limits ihave)
      (¬ topicRefused limits ihave.topic ∧ idsValid limits ihave.messageIds)
      (AllFit (ihaveFields ihave)) (writeAll uvarintCode (ihaveFields ihave)) :=
  encodes_checked (m := fun total => if topicRefused limits ihave.topic then .error .limit
      else fieldSize fieldIhaveTopic wireLen ihave.topic.len total >>=
        messageIdListSize fieldIhaveMessageIds limits ihave.messageIds)
    (w := fun cap out => writeLenField fieldIhaveTopic ihave.topic cap out >>=
      messageIdListEncode fieldIhaveMessageIds ihave.messageIds cap)
    ((Measures.guard fun hc => (fieldSize_measures_span _ (not_topicRefused hc)).bind
      (messageIdListSize_measures _ _ _)).congr (by simp) (by simp [ihaveFields]))
    fun hv => ((writeLenField_writes _ (not_topicRefused hv.1)).bind
      (messageIdListEncode_writes _ hv.2)).congr (by simp [ihaveFields]) (by simp [ihaveFields])

/-- The fields of an IWANT. -/
def iwantFields (iwant : ControlIwant) : List Field :=
  idFields fieldIwantMessageIds iwant.messageIds

/-- The fields of an IDONTWANT. -/
def idontwantFields (idontwant : ControlIdontwant) : List Field :=
  idFields fieldIdontwantMessageIds idontwant.messageIds

theorem iwantEncode_encodes (iwant : ControlIwant) :
    Encodes (iwantSize limits iwant) (iwantEncode limits iwant) (idsValid limits iwant.messageIds)
      (AllFit (iwantFields iwant)) (writeAll uvarintCode (iwantFields iwant)) :=
  encodes_checked (m := messageIdListSize fieldIwantMessageIds limits iwant.messageIds)
    (w := messageIdListEncode fieldIwantMessageIds iwant.messageIds)
    (messageIdListSize_measures _ _ _) (messageIdListEncode_writes _)

theorem idontwantEncode_encodes (idontwant : ControlIdontwant) :
    Encodes (idontwantSize version limits idontwant) (idontwantEncode version limits idontwant)
      (¬ version ≠ .v12 ∧ idsValid limits idontwant.messageIds)
      (AllFit (idontwantFields idontwant)) (writeAll uvarintCode (idontwantFields idontwant)) :=
  encodes_checked (m := fun total => if version ≠ .v12 then .error .unsupportedVersion
      else messageIdListSize fieldIdontwantMessageIds limits idontwant.messageIds total)
    (w := messageIdListEncode fieldIdontwantMessageIds idontwant.messageIds)
    (Measures.guard fun _ => messageIdListSize_measures _ _ _)
    fun hv => messageIdListEncode_writes _ hv.2

/-- The fields of a GRAFT. -/
def graftFields (graft : ControlGraft) : List Field := [spanField fieldGraftTopic graft.topic]

theorem topicControlEncode_encodes (graft : ControlGraft) :
    Encodes (topicControlSize limits graft.topic)
      (topicControlEncode limits graft.topic fieldGraftTopic)
      (¬ topicRefused limits graft.topic) (AllFit (graftFields graft))
      (writeAll uvarintCode (graftFields graft)) :=
  encodes_checked (m := fun total => if topicRefused limits graft.topic then .error .limit
      else fieldSize fieldGraftTopic wireLen graft.topic.len total)
    (w := writeLenField fieldGraftTopic graft.topic)
    ((Measures.guard fun hc => fieldSize_measures_span _ (not_topicRefused hc)).congr
      (by simp) (by simp [graftFields]))
    fun hv => (writeLenField_writes _ (not_topicRefused hv)).congr
      (by simp [graftFields]) (by simp [graftFields])

/-- The fields of a PRUNE: a zero backoff is left out, PX peers always. -/
def pruneFields (prune : ControlPrune) : List Field :=
  spanField fieldPruneTopic prune.topic ::
    if prune.backoffSeconds ≠ 0 then [⟨fieldPruneBackoff, .varint prune.backoffSeconds⟩] else []

theorem pruneEncode_encodes (prune : ControlPrune) :
    Encodes (pruneSize limits prune) (pruneEncode limits prune)
      (¬ topicRefused limits prune.topic) (AllFit (pruneFields prune))
      (writeAll uvarintCode (pruneFields prune)) := by
  have hm : Measures (fun total => if prune.backoffSeconds ≠ 0 then
        fieldSize fieldPruneBackoff wireVarint prune.backoffSeconds total
      else .ok total) True (writeAll uvarintCode (if prune.backoffSeconds ≠ 0 then
        [⟨fieldPruneBackoff, .varint prune.backoffSeconds⟩] else [])).length := by
    by_cases hb : prune.backoffSeconds ≠ 0
    · simp only [if_pos hb]
      exact (fieldSize_measures_varint _ _).congr Iff.rfl (by simp)
    · simp only [if_neg hb]
      exact Measures.none
  have hw : Writes (fun cap out => if prune.backoffSeconds ≠ 0 then
        writeVarintField fieldPruneBackoff prune.backoffSeconds cap out
      else .ok out) (AllFit (if prune.backoffSeconds ≠ 0 then
        [⟨fieldPruneBackoff, .varint prune.backoffSeconds⟩] else []))
      (writeAll uvarintCode (if prune.backoffSeconds ≠ 0 then
        [⟨fieldPruneBackoff, .varint prune.backoffSeconds⟩] else [])) := by
    by_cases hb : prune.backoffSeconds ≠ 0
    · simp only [if_pos hb]
      exact (writeVarintField_writes _ _).congr (by simp) (by simp)
    · simp only [if_neg hb]
      exact Writes.none.congr (by simp) rfl
  exact encodes_checked (m := fun total => if topicRefused limits prune.topic then .error .limit
      else fieldSize fieldPruneTopic wireLen prune.topic.len total >>= fun total =>
        if prune.backoffSeconds ≠ 0 then
          fieldSize fieldPruneBackoff wireVarint prune.backoffSeconds total
        else .ok total)
    (w := fun cap out => writeLenField fieldPruneTopic prune.topic cap out >>= fun out =>
      if prune.backoffSeconds ≠ 0 then
        writeVarintField fieldPruneBackoff prune.backoffSeconds cap out
      else .ok out)
    ((Measures.guard fun hc => (fieldSize_measures_span _ (not_topicRefused hc)).bind hm).congr
      (by simp) (by rw [pruneFields, writeAll_cons, List.length_append]))
    fun hv => ((writeLenField_writes _ (not_topicRefused hv)).bind hw).congr
      (by rw [pruneFields, allFit_cons]) (by rw [pruneFields, writeAll_cons])

/-! ## Sections of elements -/

/-- Elements as length-delimited fields of one number. -/
def nestedFields {α : Type} (field : Nat) (fields : α → List Field) (xs : List α) : List Field :=
  xs.map fun x => ⟨field, .len (writeAll uvarintCode (fields x))⟩

/-- The elements are valid, and not longer than a size can count. -/
def AllValid {α : Type} (valid : α → Prop) (fields : α → List Field) (xs : List α) : Prop :=
  ∀ x ∈ xs, valid x ∧ (writeAll uvarintCode (fields x)).length ≤ sizeMax

/-- The elements fit, inside and out. -/
def NestedFit {α : Type} (field : Nat) (fits : α → Prop) (fields : α → List Field)
    (xs : List α) : Prop :=
  (∀ x ∈ xs, fits x) ∧ AllFit (nestedFields field fields xs)

theorem nestedSizes_measures {α : Type} (field : Nat) {size : α → Except GossipsubErr Nat}
    {encode : α → Nat → Except EncodeErr Bytes} {valid fits : α → Prop} {fields : α → List Field}
    (h : ∀ x, Encodes (size x) (encode x) (valid x) (fits x) (writeAll uvarintCode (fields x)))
    (xs : List α) :
    Measures (nestedSizes field size xs) (AllValid valid fields xs)
      (writeAll uvarintCode (nestedFields field fields xs)).length := by
  refine (Measures.foldlM fun x _ => nestedSize_measures field (h x)).congr Iff.rfl ?_
  rw [nestedFields, writeAll]
  simp [Function.comp_def]

theorem writeNesteds_writes {α : Type} (field : Nat) {size : α → Except GossipsubErr Nat}
    {encode : α → Nat → Except EncodeErr Bytes} {valid fits : α → Prop} {fields : α → List Field}
    (h : ∀ x, Encodes (size x) (encode x) (valid x) (fits x) (writeAll uvarintCode (fields x)))
    {xs : List α} (hv : AllValid valid fields xs) :
    Writes (writeNesteds field size encode xs) (NestedFit field fits fields xs)
      (writeAll uvarintCode (nestedFields field fields xs)) := by
  refine (Writes.foldlM fun x _ => writeNested_writes field (h x)).congr ?_ ?_
  · constructor
    · intro hall
      refine ⟨fun x hx => (hall x hx).1.2.2, fun f hf => ?_⟩
      obtain ⟨x, hx, rfl⟩ := List.mem_map.mp hf
      exact (hall x hx).2
    · rintro ⟨hin, hout⟩ x hx
      exact ⟨⟨(hv x hx).1, (hv x hx).2, hin x hx⟩, hout _ (List.mem_map_of_mem hx)⟩
  · rw [nestedFields, writeAll, List.flatMap_map]

/-- The fields of a control section, in the order in which they are written. -/
def controlFields (control : RpcControl) : List Field :=
  nestedFields fieldControlIhave ihaveFields control.ihave ++
    nestedFields fieldControlIwant iwantFields control.iwant ++
    nestedFields fieldControlGraft graftFields control.graft ++
    nestedFields fieldControlPrune pruneFields control.prune ++
    nestedFields fieldControlIdontwant idontwantFields control.idontwant

/-- The elements of a control section are ones that the size functions accept. -/
structure ControlValid (version : ProtocolVersion) (limits : Limits) (control : RpcControl) :
    Prop where
  counts : controlCounts limits control
  version_ok : control.idontwant = [] ∨ version = .v12
  ihave : AllValid (fun x => ¬ topicRefused limits x.topic ∧ idsValid limits x.messageIds)
    ihaveFields control.ihave
  iwant : AllValid (fun x => idsValid limits x.messageIds) iwantFields control.iwant
  graft : AllValid (fun x => ¬ topicRefused limits x.topic) graftFields control.graft
  prune : AllValid (fun x => ¬ topicRefused limits x.topic) pruneFields control.prune
  idontwant : AllValid (fun x => ¬ version ≠ .v12 ∧ idsValid limits x.messageIds)
    idontwantFields control.idontwant

/-- Every number in a control section fits the varint code. -/
structure ControlFit (control : RpcControl) : Prop where
  ihave : NestedFit fieldControlIhave (fun x => AllFit (ihaveFields x)) ihaveFields control.ihave
  iwant : NestedFit fieldControlIwant (fun x => AllFit (iwantFields x)) iwantFields control.iwant
  graft : NestedFit fieldControlGraft (fun x => AllFit (graftFields x)) graftFields control.graft
  prune : NestedFit fieldControlPrune (fun x => AllFit (pruneFields x)) pruneFields control.prune
  idontwant : NestedFit fieldControlIdontwant (fun x => AllFit (idontwantFields x))
    idontwantFields control.idontwant

theorem ControlFit.allFit {control : RpcControl} (h : ControlFit control) :
    AllFit (controlFields control) := by
  simp only [controlFields, allFit_append]
  exact ⟨⟨⟨⟨h.ihave.2, h.iwant.2⟩, h.graft.2⟩, h.prune.2⟩, h.idontwant.2⟩

theorem controlEncode_encodes (control : RpcControl) :
    Encodes (controlSize version limits control) (controlEncode version limits control)
      (ControlValid version limits control) (ControlFit control)
      (writeAll uvarintCode (controlFields control)) := by
  refine encodes_checked (m := fun total =>
      if limits.maxIhavePerRpc < control.ihave.length ∨
        limits.maxIwantPerRpc < control.iwant.length ∨
        limits.maxGraftPerRpc < control.graft.length ∨
        limits.maxPrunePerRpc < control.prune.length ∨
        limits.maxIdontwantPerRpc < control.idontwant.length then .error .limit
      else if control.idontwant.length ≠ 0 ∧ version ≠ .v12 then .error .unsupportedVersion
      else nestedSizes fieldControlIhave (ihaveSize limits) control.ihave total >>= fun total =>
        nestedSizes fieldControlIwant (iwantSize limits) control.iwant total >>= fun total =>
        nestedSizes fieldControlGraft (fun g => topicControlSize limits g.topic) control.graft
          total >>= fun total =>
        nestedSizes fieldControlPrune (pruneSize limits) control.prune total >>=
        nestedSizes fieldControlIdontwant (idontwantSize version limits) control.idontwant)
    (w := fun cap out =>
      writeNesteds fieldControlIhave (ihaveSize limits) (ihaveEncode limits) control.ihave cap out >>=
        fun out =>
      writeNesteds fieldControlIwant (iwantSize limits) (iwantEncode limits) control.iwant cap out >>=
        fun out =>
      writeNesteds fieldControlGraft (fun g => topicControlSize limits g.topic)
        (fun g => topicControlEncode limits g.topic fieldGraftTopic) control.graft cap out >>=
        fun out =>
      writeNesteds fieldControlPrune (pruneSize limits) (pruneEncode limits) control.prune cap out >>=
      writeNesteds fieldControlIdontwant (idontwantSize version limits)
        (idontwantEncode version limits) control.idontwant cap) ?_ fun hv => ?_
  · refine (Measures.guard fun _ => Measures.guard fun _ =>
      (nestedSizes_measures _ (ihaveEncode_encodes limits) _).bind <|
      (nestedSizes_measures _ (iwantEncode_encodes limits) _).bind <|
      (nestedSizes_measures _ (topicControlEncode_encodes limits) _).bind <|
      (nestedSizes_measures _ (pruneEncode_encodes limits) _).bind
      (nestedSizes_measures _ (idontwantEncode_encodes version limits) _)).congr ?_ ?_
    · constructor
      · rintro ⟨hcount, hversion, h₁, h₂, h₃, h₄, h₅⟩
        refine ⟨?_, ?_, h₁, h₂, h₃, h₄, h₅⟩
        · simp only [controlCounts]
          omega
        · rw [← List.length_eq_zero_iff]
          by_contra hno
          exact hversion (not_or.mp hno)
      · rintro ⟨hcount, hversion, h₁, h₂, h₃, h₄, h₅⟩
        refine ⟨?_, ?_, h₁, h₂, h₃, h₄, h₅⟩
        · simp only [controlCounts] at hcount
          omega
        · rw [← List.length_eq_zero_iff] at hversion
          exact not_and_or.mpr (hversion.imp not_not.mpr not_not.mpr)
    · simp only [controlFields, writeAll_append, List.length_append, Nat.add_assoc]
  · refine ((writeNesteds_writes _ (ihaveEncode_encodes limits) hv.ihave).bind <|
      (writeNesteds_writes _ (iwantEncode_encodes limits) hv.iwant).bind <|
      (writeNesteds_writes _ (topicControlEncode_encodes limits) hv.graft).bind <|
      (writeNesteds_writes _ (pruneEncode_encodes limits) hv.prune).bind
      (writeNesteds_writes _ (idontwantEncode_encodes version limits) hv.idontwant)).congr ?_ ?_
    · exact ⟨fun ⟨h₁, h₂, h₃, h₄, h₅⟩ => ⟨h₁, h₂, h₃, h₄, h₅⟩,
        fun ⟨h₁, h₂, h₃, h₄, h₅⟩ => ⟨h₁, h₂, h₃, h₄, h₅⟩⟩
    · simp only [controlFields, writeAll_append, List.append_assoc]

/-! ## RPC body and frame -/

/-- The control section that the encoder writes. -/
def writtenControl : List RpcControl :=
  if rpc.control.isEmpty then [] else [rpc.control]

/-- The fields of an RPC body, in the order in which they are written. -/
def rpcFields : List Field :=
  nestedFields fieldRpcSubscriptions subFields rpc.subscriptions ++
    nestedFields fieldRpcPublish messageFields rpc.publish ++
    nestedFields fieldRpcControl controlFields (writtenControl rpc)

/-- The RPC is one that `libp2p_gossipsub_rpc_body_size` accepts. -/
structure RpcValid (version : ProtocolVersion) (limits : Limits) (rpc : Rpc) : Prop where
  version_ok : versionValidate version = .ok ()
  limits_ok : limitsValidate limits = .ok ()
  subscriptions_le : rpc.subscriptions.length ≤ limits.maxSubscriptionsPerRpc
  publish_le : rpc.publish.length ≤ limits.maxPublishPerRpc
  subscriptions : AllValid (fun x => ¬ topicRefused limits x.topic) subFields rpc.subscriptions
  publish : AllValid (messageValid limits) messageFields rpc.publish
  control : AllValid (ControlValid version limits) controlFields (writtenControl rpc)
  body_le : (writeAll uvarintCode (rpcFields rpc)).length ≤ limits.maxRpcBytes

/-- Every number in an RPC fits the varint code. -/
structure RpcFit (rpc : Rpc) : Prop where
  subscriptions : NestedFit fieldRpcSubscriptions (fun x => AllFit (subFields x)) subFields
    rpc.subscriptions
  publish : NestedFit fieldRpcPublish (fun x => AllFit (messageFields x)) messageFields rpc.publish
  control : NestedFit fieldRpcControl ControlFit controlFields (writtenControl rpc)

theorem RpcFit.allFit {rpc : Rpc} (h : RpcFit rpc) : AllFit (rpcFields rpc) := by
  simp only [rpcFields, allFit_append]
  exact ⟨⟨h.subscriptions.2, h.publish.2⟩, h.control.2⟩

theorem writtenControl_measures :
    Measures (fun total => if rpc.control.isEmpty then .ok total
        else nestedSizes fieldRpcControl (controlSize version limits) [rpc.control] total)
      (AllValid (ControlValid version limits) controlFields (writtenControl rpc))
      (writeAll uvarintCode (nestedFields fieldRpcControl controlFields
        (writtenControl rpc))).length := by
  unfold writtenControl
  by_cases h : rpc.control.isEmpty = true
  · simp only [if_pos h]
    exact Measures.none.congr (by simp [AllValid]) rfl
  · simp only [if_neg h]
    exact nestedSizes_measures _ (controlEncode_encodes version limits) _

theorem writtenControl_writes {version : ProtocolVersion} {limits : Limits} {rpc : Rpc}
    (hv : AllValid (ControlValid version limits) controlFields (writtenControl rpc)) :
    Writes (fun cap out => if rpc.control.isEmpty then .ok out
        else writeNesteds fieldRpcControl (controlSize version limits)
          (controlEncode version limits) [rpc.control] cap out)
      (NestedFit fieldRpcControl ControlFit controlFields (writtenControl rpc))
      (writeAll uvarintCode (nestedFields fieldRpcControl controlFields (writtenControl rpc))) := by
  unfold writtenControl at hv ⊢
  by_cases h : rpc.control.isEmpty = true
  · simp only [if_pos h]
    exact Writes.none.congr (by simp [NestedFit, nestedFields]) rfl
  · simp only [if_neg h] at hv ⊢
    exact writeNesteds_writes _ (controlEncode_encodes version limits) hv

theorem rpcBodySize_eq_ok (n : Nat) :
    rpcBodySize version limits rpc = .ok n ↔ RpcValid version limits rpc ∧
      n = (writeAll uvarintCode (rpcFields rpc)).length ∧
      (writeAll uvarintCode (rpcFields rpc)).length ≤ sizeMax := by
  have hsections := ((nestedSizes_measures fieldRpcSubscriptions (subEncode_encodes limits)
      rpc.subscriptions).bind <|
    (nestedSizes_measures fieldRpcPublish (messageEncode_encodes limits) rpc.publish).bind
    (writtenControl_measures version limits rpc)).congr Iff.rfl
      (k := (writeAll uvarintCode (rpcFields rpc)).length)
      (by simp only [rpcFields, writeAll_append, List.length_append, Nat.add_assoc])
  have heq : rpcBodySize version limits rpc = versionValidate version >>= fun _ =>
      limitsValidate limits >>= fun _ =>
      if limits.maxSubscriptionsPerRpc < rpc.subscriptions.length ∨
        limits.maxPublishPerRpc < rpc.publish.length then .error .limit
      else (nestedSizes fieldRpcSubscriptions (subSize limits) rpc.subscriptions 0 >>= fun total =>
        nestedSizes fieldRpcPublish (messageSize limits) rpc.publish total >>= fun total =>
        if rpc.control.isEmpty then .ok total
        else nestedSizes fieldRpcControl (controlSize version limits) [rpc.control] total) >>=
        fun total => if limits.maxRpcBytes < total then .error .limit else .ok total := by
    unfold rpcBodySize
    by_cases hempty : rpc.control.isEmpty = true
    · simp only [if_pos hempty, bind_assoc]
      rfl
    · simp only [if_neg hempty, bind_assoc]
      rfl
  have hat := hsections 0 (Nat.zero_le _)
  simp only [Nat.zero_add] at hat
  rw [heq]
  constructor
  · intro h
    obtain ⟨⟨⟩, hversion, h⟩ := bind_eq_ok.mp h
    obtain ⟨⟨⟩, hlimits, h⟩ := bind_eq_ok.mp h
    split at h
    · cases h
    rename_i hcounts
    obtain ⟨total, htotal, h⟩ := bind_eq_ok.mp h
    obtain ⟨⟨hsub, hpub, hcontrol⟩, rfl, hmax⟩ := (hat total).mp htotal
    split at h
    · cases h
    rename_i hle
    rw [Except.ok.injEq] at h
    exact ⟨⟨hversion, hlimits, by omega, by omega, hsub, hpub, hcontrol, by omega⟩, h.symm, hmax⟩
  · rintro ⟨hv, rfl, hmax⟩
    rw [hv.version_ok, hv.limits_ok]
    simp only [bind, Except.bind]
    have hsubs := hv.subscriptions_le
    have hpubs := hv.publish_le
    rw [if_neg (by omega)]
    have htotal := (hat _).mpr ⟨⟨hv.subscriptions, hv.publish, hv.control⟩, rfl, hmax⟩
    simp only [bind, Except.bind] at htotal
    rw [htotal]
    simp only [if_neg (Nat.not_lt.mpr hv.body_le)]

theorem rpcBodyEncode_encodes :
    Encodes (rpcBodySize version limits rpc) (rpcBodyEncode version limits rpc)
      (RpcValid version limits rpc) (RpcFit rpc) (writeAll uvarintCode (rpcFields rpc)) := by
  refine encodes_of_size (w := fun cap out =>
      writeNesteds fieldRpcSubscriptions (subSize limits) (subEncode limits) rpc.subscriptions
        cap out >>= fun out =>
      writeNesteds fieldRpcPublish (messageSize limits) (messageEncode limits) rpc.publish
        cap out >>= fun out =>
      if rpc.control.isEmpty then .ok out
      else writeNesteds fieldRpcControl (controlSize version limits)
        (controlEncode version limits) [rpc.control] cap out)
    (rpcBodySize_eq_ok version limits rpc) fun hv => ?_
  refine ((writeNesteds_writes _ (subEncode_encodes limits) hv.subscriptions).bind <|
    (writeNesteds_writes _ (messageEncode_encodes limits) hv.publish).bind
    (writtenControl_writes hv.control)).congr ?_ ?_
  · exact ⟨fun ⟨h₁, h₂, h₃⟩ => ⟨h₁, h₂, h₃⟩, fun ⟨h₁, h₂, h₃⟩ => ⟨h₁, h₂, h₃⟩⟩
  · simp only [rpcFields, writeAll_append, List.append_assoc]

/-- The bytes of a frame. -/
def frameBytes : Bytes :=
  uvarintCode.write (writeAll uvarintCode (rpcFields rpc)).length ++
    writeAll uvarintCode (rpcFields rpc)

theorem rpcFrameSize_eq_ok (n : Nat) :
    rpcFrameSize version limits rpc = .ok n ↔ RpcValid version limits rpc ∧
      n = (frameBytes rpc).length ∧ (frameBytes rpc).length ≤ sizeMax := by
  simp only [rpcFrameSize, bind_eq_ok, frameBytes, List.length_append, uvarintCode_write_length]
  constructor
  · rintro ⟨body, hbody, h⟩
    obtain ⟨hv, rfl, hmax⟩ := (rpcBodySize_eq_ok version limits rpc body).mp hbody
    unfold sizeAdd at h
    split at h
    · cases h
    · rename_i htotal
      split at htotal
      · cases htotal
      · rename_i hle
        simp only [Option.some.injEq] at htotal
        simp only [pure, Except.pure, Except.ok.injEq] at h
        have hprefix := uvarintSize_le (writeAll uvarintCode (rpcFields rpc)).length
        rw [sizeMax] at hle ⊢
        exact ⟨hv, by omega, by omega⟩
  · rintro ⟨hv, rfl, hmax⟩
    refine ⟨_, (rpcBodySize_eq_ok version limits rpc _).mpr ⟨hv, rfl, by omega⟩, ?_⟩
    rw [sizeAdd, if_neg (by omega)]
    rfl

/-- No frame is empty. -/
theorem rpcFrameSize_pos {version : ProtocolVersion} {limits : Limits} {rpc : Rpc} {n : Nat}
    (h : rpcFrameSize version limits rpc = .ok n) : 0 < n := by
  rw [((rpcFrameSize_eq_ok _ _ _ _).mp h).2.1, frameBytes, List.length_append,
    uvarintCode_write_length]
  have := uvarintSize_pos (writeAll uvarintCode (rpcFields rpc)).length
  omega

/-- A successful frame encoding is the frame of a valid RPC. -/
theorem rpcFrameEncode_encodes :
    Encodes (rpcFrameSize version limits rpc) (rpcFrameEncode version limits rpc)
      (RpcValid version limits rpc)
      (RpcFit rpc ∧ (writeAll uvarintCode (rpcFields rpc)).length < 2 ^ 63) (frameBytes rpc) := by
  have hbody := rpcBodyEncode_encodes version limits rpc
  refine encodes_of_size (w := fun cap out => rpcBodySize version limits rpc >>= fun bodyLen =>
      writeUvarint bodyLen cap out >>= fun out =>
      (rpcBodyEncode version limits rpc (cap - out.length)).mapError EncodeErr.code >>= fun body =>
      .ok (out ++ body))
    (rpcFrameSize_eq_ok version limits rpc) fun hv cap out hout out' => ?_
  simp only [bind_eq_ok, frameBytes, List.length_append]
  constructor
  · rintro ⟨n, hn, mid, hmid, body, hencode, hlast⟩
    obtain ⟨-, rfl, hmax⟩ := (hbody.size_ok n).mp hn
    obtain ⟨hroom, hlt, rfl⟩ := (writeUvarint_writes _ cap out hout mid).mp hmid
    obtain ⟨-, -, hcap, hfit, rfl⟩ := (hbody.encode_ok _ body).mp (mapError_eq_ok.mp hencode)
    rw [Except.ok.injEq] at hlast
    rw [List.length_append] at hcap
    exact ⟨by omega, ⟨hfit, hlt⟩, by rw [← hlast, List.append_assoc]⟩
  · rintro ⟨hroom, ⟨hfit, hlt⟩, rfl⟩
    have hmax : (writeAll uvarintCode (rpcFields rpc)).length ≤ sizeMax := by
      rw [sizeMax]
      omega
    refine ⟨_, (hbody.size_ok _).mpr ⟨hv, rfl, hmax⟩, _,
      (writeUvarint_writes _ cap out hout _).mpr ⟨by omega, hlt, rfl⟩, _,
      mapError_eq_ok.mpr ((hbody.encode_ok _ _).mpr ⟨hv, hmax, ?_, hfit, rfl⟩), ?_⟩
    · rw [List.length_append]
      omega
    · rw [List.append_assoc]

end LeanLibp2p.Gossipsub
