import LeanLibp2p.Gossipsub.Codec.Fields

/-!
# The RPC schema

What an RPC body means as a protobuf message, stated on its field list and independent of
the decode loops: a scalar field is its last occurrence, a repeated field is all of its
occurrences in order, a sub-message that occurs several times is the merge of its
occurrences, and a field of another number or wire type is skipped, a group as a whole. No
field has the number zero. The limits of the
module that bound a single field or list are part of what is accepted.
-/

namespace LeanLibp2p.Gossipsub

open LeanLibp2p.Lib.Protobuf

variable (limits : Limits)
variable (n m : Nat) (b : Bytes) (fs : List Field)
variable {α β : Type} {f : α → Option β}

/-- The last length-delimited occurrence of field `n`. -/
def lastSpan (n : Nat) (fs : List Field) : Span :=
  match (lens n fs).getLast? with
  | some b => .ptr b
  | none => .zero

/-- The last varint occurrence of field `n`, or zero. -/
def lastVarint (n : Nat) (fs : List Field) : Nat := ((varints n fs).getLast?).getD 0

/-- Every occurrence of field `n` has at most `k` bytes. -/
def LensAtMost (n k : Nat) (fs : List Field) : Prop := ∀ b ∈ lens n fs, b.length ≤ k

instance (n k : Nat) (fs : List Field) : Decidable (LensAtMost n k fs) :=
  inferInstanceAs (Decidable (∀ b ∈ lens n fs, b.length ≤ k))

/-- Field numbers start at one. -/
def Legal (fs : List Field) : Prop := ∀ f ∈ fs, f.number ≠ 0

instance (fs : List Field) : Decidable (Legal fs) :=
  inferInstanceAs (Decidable (∀ f ∈ fs, f.number ≠ 0))

/-- The fields of a message: its bytes parse and their numbers are legal. -/
def legalFields (bs : Bytes) : Option (List Field) :=
  (parse uvarintCode bs).filter fun fs => Legal fs

theorem legalFields_eq_some {bs : Bytes} {fs : List Field} :
    legalFields bs = some fs ↔ parse uvarintCode bs = some fs ∧ Legal fs := by
  simp [legalFields, Option.filter_eq_some_iff]

/-- A sub-message: its bytes are those of a message and its fields are accepted. -/
def nestedMessage {α : Type} (accept : List Field → Option α) (bs : Bytes) : Option α :=
  (legalFields bs).bind accept

/-- `RPC.SubOpts`. -/
def schemaSub : Option RpcSubscription :=
  if LensAtMost fieldSubTopic limits.maxTopicBytes fs ∧ (lastSpan fieldSubTopic fs).present then
    some ⟨lastSpan fieldSubTopic fs, if lastVarint fieldSubSubscribe fs ≠ 0 then 1 else 0⟩
  else none

/-- `Message`, with the bytes it was read from. -/
def schemaMessage (raw : Bytes) (fs : List Field) : Option Message :=
  if LensAtMost fieldMsgData limits.maxMessageDataBytes fs ∧
      LensAtMost fieldMsgTopic limits.maxTopicBytes fs ∧ (lastSpan fieldMsgTopic fs).present then
    some ⟨lastSpan fieldMsgFrom fs, lastSpan fieldMsgData fs, lastSpan fieldMsgSeqno fs,
      lastSpan fieldMsgTopic fs, lastSpan fieldMsgSignature fs, lastSpan fieldMsgKey fs, .ptr raw⟩
  else none

/-- `ControlIHave`. -/
def schemaIhave : Option ControlIhave :=
  if ¬ topicRefused limits (lastSpan fieldIhaveTopic fs) ∧
      LensAtMost fieldIhaveMessageIds limits.maxMessageIdBytes fs ∧
      (lens fieldIhaveMessageIds fs).length ≤ limits.maxMessageIdsPerRpc then
    some ⟨lastSpan fieldIhaveTopic fs, (lens fieldIhaveMessageIds fs).map .ptr⟩
  else none

/-- `ControlIWant`, and `ControlIDontWant` with its field number. -/
def schemaIds (field : Nat) (limits : Limits) (fs : List Field) : Option (List Span) :=
  if LensAtMost field limits.maxMessageIdBytes fs ∧
      (lens field fs).length ≤ limits.maxMessageIdsPerRpc then
    some ((lens field fs).map .ptr)
  else none

/-- `ControlGraft`. -/
def schemaGraft : Option ControlGraft :=
  if topicRefused limits (lastSpan fieldGraftTopic fs) then none
  else some ⟨lastSpan fieldGraftTopic fs⟩

/-- `PeerInfo`. -/
def schemaPeerInfo : Option PeerInfo :=
  if LensAtMost fieldPeerInfoSignedPeerRecord limits.maxSignedPeerRecordBytes fs then
    some ⟨lastSpan fieldPeerInfoPeerId fs, lastSpan fieldPeerInfoSignedPeerRecord fs⟩
  else none

/-- `ControlPrune`. -/
def schemaPrune : Option ControlPrune := do
  let peers ← (lens fieldPrunePeers fs).mapM (nestedMessage (schemaPeerInfo limits))
  if topicRefused limits (lastSpan fieldPruneTopic fs) ∨
      limits.maxPxPeersPerRpc < peers.length then none
  else some ⟨lastSpan fieldPruneTopic fs, peers, lastVarint fieldPruneBackoff fs⟩

/-- The count limits of one control section. -/
def controlCounts (control : RpcControl) : Prop :=
  control.ihave.length ≤ limits.maxIhavePerRpc ∧ control.iwant.length ≤ limits.maxIwantPerRpc ∧
    control.graft.length ≤ limits.maxGraftPerRpc ∧ control.prune.length ≤ limits.maxPrunePerRpc ∧
    control.idontwant.length ≤ limits.maxIdontwantPerRpc

instance (control : RpcControl) : Decidable (controlCounts limits control) :=
  inferInstanceAs (Decidable (_ ∧ _ ∧ _ ∧ _ ∧ _))

/-- The five repeated fields of `ControlMessage`. -/
def schemaControlLists : Option RpcControl := do
  let ihave ← (lens fieldControlIhave fs).mapM (nestedMessage (schemaIhave limits))
  let iwant ← (lens fieldControlIwant fs).mapM
    (nestedMessage (schemaIds fieldIwantMessageIds limits))
  let graft ← (lens fieldControlGraft fs).mapM (nestedMessage (schemaGraft limits))
  let prune ← (lens fieldControlPrune fs).mapM (nestedMessage (schemaPrune limits))
  let idontwant ← (lens fieldControlIdontwant fs).mapM
    (nestedMessage (schemaIds fieldIdontwantMessageIds limits))
  return ⟨ihave, iwant.map (⟨·⟩), graft, prune, idontwant.map (⟨·⟩)⟩

/-- `ControlMessage`. -/
def schemaControl : Option RpcControl := do
  let control ← schemaControlLists limits fs
  if controlCounts limits control then some control else none

/-- `RPC`: occurrences of the control section are merged, that is, their fields are read as
    one message. -/
def schemaRpc : Option Rpc := do
  let subscriptions ← (lens fieldRpcSubscriptions fs).mapM (nestedMessage (schemaSub limits))
  let publish ← (lens fieldRpcPublish fs).mapM fun b =>
    nestedMessage (schemaMessage limits b) b
  let sections ← (lens fieldRpcControl fs).mapM legalFields
  let control ← schemaControl limits sections.flatten
  if subscriptions.length ≤ limits.maxSubscriptionsPerRpc ∧
      publish.length ≤ limits.maxPublishPerRpc then
    some ⟨subscriptions, publish, control⟩
  else none

/-- The reference parse of an RPC body. -/
def referenceDecode (bs : Bytes) : Option Rpc :=
  nestedMessage (schemaRpc limits) bs

/-! ## One field more -/

@[simp] theorem lastSpan_nil (n : Nat) : lastSpan n [] = .zero := rfl

@[simp] theorem lastSpan_snoc_len :
    lastSpan n (fs ++ [⟨m, .len b⟩]) = if m = n then .ptr b else lastSpan n fs := by
  by_cases h : m = n <;> simp [lastSpan, h]

@[simp] theorem lastVarint_snoc_varint (n m v : Nat) (fs : List Field) :
    lastVarint n (fs ++ [⟨m, .varint v⟩]) = if m = n then v else lastVarint n fs := by
  by_cases h : m = n <;> simp [lastVarint, h]

@[simp] theorem lensAtMost_snoc_len (n k m : Nat) (b : Bytes) (fs : List Field) :
    LensAtMost n k (fs ++ [⟨m, .len b⟩]) ↔ LensAtMost n k fs ∧ (m = n → b.length ≤ k) := by
  by_cases h : m = n
  · simp only [LensAtMost, lens_append, lens_cons_len, h, if_true, lens_nil, List.mem_append,
      List.mem_singleton, true_implies]
    constructor
    · intro hall
      exact ⟨fun c hc => hall c (.inl hc), hall b (.inr rfl)⟩
    · rintro ⟨hall, hlast⟩ c (hc | rfl)
      · exact hall c hc
      · exact hlast
  · simp [LensAtMost, h]

theorem lensAtMost_of_snoc {n k : Nat} {fs : List Field} {f : Field}
    (h : LensAtMost n k (fs ++ [f])) : LensAtMost n k fs := by
  intro b hb
  exact h b (by rw [lens_append]; exact List.mem_append_left _ hb)

/-! A field of another wire type adds nothing. -/

@[simp] theorem lastSpan_snoc_varint (n m v : Nat) (fs : List Field) :
    lastSpan n (fs ++ [⟨m, .varint v⟩]) = lastSpan n fs := by simp [lastSpan]

@[simp] theorem lastSpan_snoc_fixed64 :
    lastSpan n (fs ++ [⟨m, .fixed64 b⟩]) = lastSpan n fs := by simp [lastSpan]

@[simp] theorem lastSpan_snoc_group :
    lastSpan n (fs ++ [⟨m, .group⟩]) = lastSpan n fs := by simp [lastSpan]

@[simp] theorem lastSpan_snoc_fixed32 :
    lastSpan n (fs ++ [⟨m, .fixed32 b⟩]) = lastSpan n fs := by simp [lastSpan]

@[simp] theorem lensAtMost_snoc_varint (n k m v : Nat) (fs : List Field) :
    LensAtMost n k (fs ++ [⟨m, .varint v⟩]) ↔ LensAtMost n k fs := by simp [LensAtMost]

@[simp] theorem lensAtMost_snoc_fixed64 (n k m : Nat) (b : Bytes) (fs : List Field) :
    LensAtMost n k (fs ++ [⟨m, .fixed64 b⟩]) ↔ LensAtMost n k fs := by simp [LensAtMost]

@[simp] theorem lensAtMost_snoc_group (n k m : Nat) (fs : List Field) :
    LensAtMost n k (fs ++ [⟨m, .group⟩]) ↔ LensAtMost n k fs := by simp [LensAtMost]

@[simp] theorem lensAtMost_snoc_fixed32 (n k m : Nat) (b : Bytes) (fs : List Field) :
    LensAtMost n k (fs ++ [⟨m, .fixed32 b⟩]) ↔ LensAtMost n k fs := by simp [LensAtMost]

@[simp] theorem lastVarint_snoc_len :
    lastVarint n (fs ++ [⟨m, .len b⟩]) = lastVarint n fs := by simp [lastVarint]

@[simp] theorem lastVarint_snoc_fixed64 :
    lastVarint n (fs ++ [⟨m, .fixed64 b⟩]) = lastVarint n fs := by simp [lastVarint]

@[simp] theorem lastVarint_snoc_group :
    lastVarint n (fs ++ [⟨m, .group⟩]) = lastVarint n fs := by simp [lastVarint]

@[simp] theorem lastVarint_snoc_fixed32 :
    lastVarint n (fs ++ [⟨m, .fixed32 b⟩]) = lastVarint n fs := by simp [lastVarint]

theorem lens_flatten (n : Nat) (sections : List (List Field)) :
    lens n sections.flatten = (sections.map (lens n)).flatten := by
  induction sections with
  | nil => rfl
  | cons fs sections ih => simp [ih]

theorem mapM_snoc (f : α → Option β) (xs : List α) (x : α) (ys : List β) :
    (xs ++ [x]).mapM f = some ys ↔
      ∃ zs y, xs.mapM f = some zs ∧ f x = some y ∧ ys = zs ++ [y] := by
  simp only [List.mapM_append, List.mapM_cons, List.mapM_nil, Option.bind_eq_bind,
    Option.pure_def, Option.bind_eq_some_iff, Option.some.injEq]
  constructor
  · rintro ⟨zs, hzs, ws, ⟨y, hy, t, rfl, rfl⟩, rfl⟩
    exact ⟨zs, y, hzs, hy, rfl⟩
  · rintro ⟨zs, y, hzs, hy, rfl⟩
    exact ⟨zs, hzs, [y], ⟨y, hy, [], rfl, rfl⟩, rfl⟩

theorem mapM_snoc_eq (f : α → Option β) (xs : List α) (x : α) :
    (xs ++ [x]).mapM f = (xs.mapM f).bind fun ys => (f x).map fun y => ys ++ [y] := by
  simp only [List.mapM_append, List.mapM_cons, List.mapM_nil, Option.bind_eq_bind,
    Option.pure_def]
  cases xs.mapM f with
  | none => rfl
  | some ys => cases f x <;> rfl

theorem mapM_length :
    ∀ {xs : List α} {ys : List β}, xs.mapM f = some ys → ys.length = xs.length := by
  intro xs
  induction xs with
  | nil => rintro ys h; simp only [List.mapM_nil, Option.pure_def, Option.some.injEq] at h; simp [← h]
  | cons x xs ih =>
    rintro ys h
    simp only [List.mapM_cons, Option.bind_eq_bind, Option.pure_def, Option.bind_eq_some_iff,
      Option.some.injEq] at h
    obtain ⟨y, -, zs, hzs, rfl⟩ := h
    simp [ih hzs]

theorem mapM_mem :
    ∀ {xs : List α} {ys : List β}, xs.mapM f = some ys → ∀ y ∈ ys, ∃ x ∈ xs, f x = some y := by
  intro xs
  induction xs with
  | nil =>
    rintro ys h y hy
    simp only [List.mapM_nil, Option.pure_def, Option.some.injEq] at h
    simp [← h] at hy
  | cons x xs ih =>
    rintro ys h y hy
    simp only [List.mapM_cons, Option.bind_eq_bind, Option.pure_def, Option.bind_eq_some_iff,
      Option.some.injEq] at h
    obtain ⟨z, hz, zs, hzs, rfl⟩ := h
    rcases List.mem_cons.mp hy with rfl | hy
    · exact ⟨x, by simp, hz⟩
    · obtain ⟨w, hw, hwy⟩ := ih hzs y hy
      exact ⟨w, by simp [hw], hwy⟩

theorem mem_of_mapM :
    ∀ {xs : List α} {ys : List β}, xs.mapM f = some ys →
      ∀ x ∈ xs, ∀ y, f x = some y → y ∈ ys := by
  intro xs
  induction xs with
  | nil => intro ys _ x hx; cases hx
  | cons x xs ih =>
    rintro ys h w hw y hy
    simp only [List.mapM_cons, Option.bind_eq_bind, Option.pure_def, Option.bind_eq_some_iff,
      Option.some.injEq] at h
    obtain ⟨z, hz, zs, hzs, rfl⟩ := h
    rcases List.mem_cons.mp hw with rfl | hw
    · rw [hz, Option.some.injEq] at hy
      simp [hy]
    · exact List.mem_cons_of_mem _ (ih hzs w hw y hy)

end LeanLibp2p.Gossipsub
