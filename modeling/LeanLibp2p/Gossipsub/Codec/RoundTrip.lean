import LeanLibp2p.Gossipsub.Codec.Conformance
import LeanLibp2p.Gossipsub.Codec.Encoding

/-!
# Round trip

A frame that `libp2p_gossipsub_rpc_frame_encode` wrote is read back as the RPC it was written
from, in normal form. The encoder's fields are input of the schema that none of the decoder's
defects touches, so the decoder reads them as the schema does.
-/

namespace LeanLibp2p.Gossipsub

open LeanLibp2p.Lib.Protobuf

variable {version : ProtocolVersion} {limits : Limits}

/-- Spans that are not present are absent; the bytes a message was read from are left out. -/
def Message.normalForm (message : Message) : Message :=
  ⟨message.fromPeer.normal, message.data.normal, message.seqno.normal, message.topic.normal,
    message.signature.normal, message.key.normal, .zero⟩

/-- The flag is one or zero. -/
def RpcSubscription.normalForm (sub : RpcSubscription) : RpcSubscription :=
  ⟨sub.topic, if sub.subscribe ≠ 0 then 1 else 0⟩

/-- PX peers are not written. -/
def RpcControl.normalForm (control : RpcControl) : RpcControl :=
  { control with prune := control.prune.map fun prune => { prune with peers := [] } }

/-- The normal form that encoding and decoding keeps. -/
def Rpc.normalForm (rpc : Rpc) : Rpc :=
  ⟨rpc.subscriptions.map RpcSubscription.normalForm, rpc.publish.map Message.normalForm,
    rpc.control.normalForm⟩

/-- `raw_message` left out of every message. -/
def Rpc.withoutRaw (rpc : Rpc) : Rpc :=
  { rpc with publish := rpc.publish.map fun message => { message with rawMessage := .zero } }

/-! ## The written fields under the schema -/

/-- All numbers are legal and below 2^32, so that no key is cut. -/
def SmallNumbers (fs : List Field) : Prop := ∀ f ∈ fs, f.number ≠ 0 ∧ f.number < 2 ^ 32

@[simp] theorem smallNumbers_nil : SmallNumbers [] := fun _ h => by cases h

@[simp] theorem smallNumbers_cons (f : Field) (fs : List Field) :
    SmallNumbers (f :: fs) ↔ (f.number ≠ 0 ∧ f.number < 2 ^ 32) ∧ SmallNumbers fs := by
  simp [SmallNumbers]

@[simp] theorem smallNumbers_append (fs gs : List Field) :
    SmallNumbers (fs ++ gs) ↔ SmallNumbers fs ∧ SmallNumbers gs :=
  List.forall_mem_append

@[simp] theorem spanField_number (field : Nat) (span : Span) :
    (spanField field span).number = field := rfl

theorem smallNumbers_presentFields {n : Nat} (h : n ≠ 0 ∧ n < 2 ^ 32) (span : Span) :
    SmallNumbers (presentFields n span) := by
  unfold presentFields
  split
  · simpa using h
  · exact smallNumbers_nil

theorem smallNumbers_idFields {n : Nat} (h : n ≠ 0 ∧ n < 2 ^ 32) (ids : List Span) :
    SmallNumbers (idFields n ids) := by
  intro f hf
  obtain ⟨id, -, rfl⟩ := List.mem_map.mp hf
  exact h

theorem subFields_small (sub : RpcSubscription) : SmallNumbers (subFields sub) := by
  simp [subFields, fieldSubSubscribe, fieldSubTopic]

theorem messageFields_small (message : Message) : SmallNumbers (messageFields message) := by
  simp only [messageFields, smallNumbers_append, smallNumbers_cons, spanField_number,
    smallNumbers_nil, and_true]
  exact ⟨⟨⟨⟨⟨smallNumbers_presentFields (by decide) _, smallNumbers_presentFields (by decide) _⟩,
    smallNumbers_presentFields (by decide) _⟩, by decide⟩,
    smallNumbers_presentFields (by decide) _⟩, smallNumbers_presentFields (by decide) _⟩

theorem ihaveFields_small (ihave : ControlIhave) : SmallNumbers (ihaveFields ihave) := by
  simp only [ihaveFields, smallNumbers_cons, spanField_number]
  exact ⟨by decide, smallNumbers_idFields (by decide) _⟩

theorem pruneFields_small (prune : ControlPrune) : SmallNumbers (pruneFields prune) := by
  by_cases hb : prune.backoffSeconds = 0 <;>
    simp [pruneFields, hb, fieldPruneTopic, fieldPruneBackoff]

theorem graftFields_small (graft : ControlGraft) : SmallNumbers (graftFields graft) := by
  simp [graftFields, fieldGraftTopic]

theorem nestedFields_small {α : Type} {n : Nat} (h : n ≠ 0 ∧ n < 2 ^ 32) (fields : α → List Field)
    (xs : List α) : SmallNumbers (nestedFields n fields xs) := by
  intro f hf
  obtain ⟨x, -, rfl⟩ := List.mem_map.mp hf
  exact h

theorem controlFields_small (control : RpcControl) : SmallNumbers (controlFields control) := by
  simp only [controlFields, smallNumbers_append]
  exact ⟨⟨⟨⟨nestedFields_small (by decide) _ _, nestedFields_small (by decide) _ _⟩,
    nestedFields_small (by decide) _ _⟩, nestedFields_small (by decide) _ _⟩,
    nestedFields_small (by decide) _ _⟩

theorem rpcFields_small (rpc : Rpc) : SmallNumbers (rpcFields rpc) := by
  simp only [rpcFields, smallNumbers_append]
  exact ⟨⟨nestedFields_small (by decide) _ _, nestedFields_small (by decide) _ _⟩,
    nestedFields_small (by decide) _ _⟩

theorem legalFields_writeAll {fs : List Field} (h : AllFit fs) (hsmall : SmallNumbers fs) :
    legalFields (writeAll uvarintCode fs) = some fs :=
  legalFields_eq_some.mpr ⟨parse_writeAll uvarintCode h, fun f hf => (hsmall f hf).1⟩

theorem nestedMessage_writeAll {α : Type} (accept : List Field → Option α) {fs : List Field}
    (h : AllFit fs) (hsmall : SmallNumbers fs) :
    nestedMessage accept (writeAll uvarintCode fs) = accept fs := by
  rw [nestedMessage, legalFields_writeAll h hsmall, Option.bind_some]

theorem mapM_written {α β : Type} {read : Bytes → Option β} {fields : α → List Field} {g : α → β}
    {xs : List α} (h : ∀ x ∈ xs, read (writeAll uvarintCode (fields x)) = some (g x)) :
    (xs.map fun x => writeAll uvarintCode (fields x)).mapM read = some (xs.map g) := by
  induction xs with
  | nil => rfl
  | cons x xs ih =>
    rw [List.map_cons, List.mapM_cons, h x (by simp), ih fun y hy => h y (by simp [hy])]
    rfl

@[simp] theorem lens_spanField (n m : Nat) (span : Span) (fs : List Field) :
    lens n (spanField m span :: fs) = if m = n then span.bytes :: lens n fs else lens n fs :=
  lens_cons_len n m span.bytes fs

@[simp] theorem varints_spanField (n m : Nat) (span : Span) (fs : List Field) :
    varints n (spanField m span :: fs) = varints n fs :=
  varints_cons_len n m span.bytes fs

@[simp] theorem lens_presentFields (n m : Nat) (span : Span) :
    lens n (presentFields m span) = if m = n ∧ span.present = true then [span.bytes] else [] := by
  by_cases hp : span.present = true <;> by_cases hm : m = n <;> simp [presentFields, hp, hm]

@[simp] theorem lens_idFields (n m : Nat) (ids : List Span) :
    lens n (idFields m ids) = if m = n then ids.map Span.bytes else [] := by
  induction ids with
  | nil => simp [idFields]
  | cons id ids ih =>
    rw [idFields] at ih ⊢
    rw [List.map_cons, lens_spanField, ih]
    split <;> rfl

@[simp] theorem lens_nestedFields {α : Type} (n m : Nat) (fields : α → List Field) (xs : List α) :
    lens n (nestedFields m fields xs) =
      if m = n then xs.map (fun x => writeAll uvarintCode (fields x)) else [] := by
  induction xs with
  | nil => simp [nestedFields]
  | cons x xs ih =>
    rw [nestedFields] at ih ⊢
    rw [List.map_cons, lens_cons_len, ih]
    split <;> rfl

theorem not_topicRefused_present {topic : Span} (h : ¬ topicRefused limits topic) :
    topic = .ptr topic.bytes ∧ topic.bytes ≠ [] ∧ topic.bytes.length ≤ limits.maxTopicBytes := by
  cases topic with
  | null n => exact absurd (Or.inl rfl) h
  | ptr bytes =>
    simp only [topicRefused, Span.isNull_ptr, Bool.false_eq_true, Span.len_ptr, false_or, not_or,
      List.length_eq_zero_iff] at h
    exact ⟨rfl, h.1, Nat.not_lt.mp h.2⟩

theorem idValid_ptr {id : Span} (h : idValid limits id) :
    Span.ptr id.bytes = id ∧ id.bytes.length ≤ limits.maxMessageIdBytes := by
  cases id with
  | null n => exact absurd (Or.inl rfl) h
  | ptr bytes =>
    simp only [idValid, not_or, Span.len_ptr] at h
    exact ⟨rfl, Nat.not_lt.mp h.2.2⟩

theorem ids_written {ids : List Span} (h : idsValid limits ids) :
    (ids.map Span.bytes).map Span.ptr = ids ∧
      (∀ b ∈ ids.map Span.bytes, b.length ≤ limits.maxMessageIdBytes) ∧
      (ids.map Span.bytes).length ≤ limits.maxMessageIdsPerRpc := by
  refine ⟨?_, fun b hb => ?_, by simpa using h.1⟩
  · rw [List.map_map]
    exact (List.map_congr_left fun id hid => (idValid_ptr (h.2 id hid)).1).trans (List.map_id _)
  · obtain ⟨id, hid, rfl⟩ := List.mem_map.mp hb
    exact (idValid_ptr (h.2 id hid)).2

theorem schemaSub_written {sub : RpcSubscription} (hv : ¬ topicRefused limits sub.topic) :
    schemaSub limits (subFields sub) = some sub.normalForm := by
  obtain ⟨hptr, hne, hle⟩ := not_topicRefused_present hv
  have hspan : lastSpan fieldSubTopic (subFields sub) = sub.topic := by
    simp [lastSpan, subFields, fieldSubTopic, ← hptr]
  have hatMost : LensAtMost fieldSubTopic limits.maxTopicBytes (subFields sub) := by
    intro b hb
    simp [subFields, fieldSubTopic] at hb
    rwa [hb]
  have hflag : lastVarint fieldSubSubscribe (subFields sub) = subscribeFlag sub.subscribe := by
    simp [lastVarint, subFields, fieldSubSubscribe]
  rw [schemaSub, hspan, hflag, if_pos ⟨hatMost, by rw [hptr, Span.present_ptr]; simpa using hne⟩]
  unfold subscribeFlag RpcSubscription.normalForm
  by_cases h : sub.subscribe = 0 <;> simp [h]

theorem lastSpan_presentFields {n : Nat} {span : Span} {fs : List Field}
    (h : lens n fs = lens n (presentFields n span)) : lastSpan n fs = span.normal := by
  rw [lastSpan, h, lens_presentFields, Span.normal]
  by_cases hp : span.present = true <;> simp [hp]

theorem schemaMessage_written {message : Message} {raw : Bytes} (hv : messageValid limits message) :
    schemaMessage limits raw (messageFields message) =
      some { message.normalForm with rawMessage := .ptr raw } := by
  obtain ⟨htopic, hdata⟩ := not_or.mp hv
  obtain ⟨hptr, hne, hle⟩ := not_topicRefused_present htopic
  have hpresent : message.topic.present = true := by
    rw [hptr, Span.present_ptr]
    simpa using hne
  have hspan : lastSpan fieldMsgTopic (messageFields message) = message.topic.normal := by
    refine lastSpan_presentFields ?_
    simp [messageFields, hpresent, fieldMsgTopic, fieldMsgFrom, fieldMsgData, fieldMsgSeqno,
      fieldMsgSignature, fieldMsgKey]
  have hdataMost : LensAtMost fieldMsgData limits.maxMessageDataBytes (messageFields message) := by
    intro b hb
    by_cases hp : message.data.present = true
    · simp [messageFields, hp, fieldMsgTopic, fieldMsgFrom, fieldMsgData, fieldMsgSeqno,
        fieldMsgSignature, fieldMsgKey] at hb
      rw [hb, ← Span.len_eq (Span.isNull_of_present hp)]
      exact Nat.not_lt.mp hdata
    · simp [messageFields, hp, fieldMsgTopic, fieldMsgFrom, fieldMsgData, fieldMsgSeqno,
        fieldMsgSignature, fieldMsgKey] at hb
  have htopicMost : LensAtMost fieldMsgTopic limits.maxTopicBytes (messageFields message) := by
    intro b hb
    simp [messageFields, fieldMsgTopic, fieldMsgFrom, fieldMsgData, fieldMsgSeqno,
      fieldMsgSignature, fieldMsgKey] at hb
    rwa [hb]
  have hnormal : message.topic.normal.present = true := by
    rw [Span.normal, if_pos hpresent, Span.present_ptr]
    simpa using hne
  rw [schemaMessage, hspan, if_pos ⟨hdataMost, htopicMost, hnormal⟩]
  congr 1
  simp only [Message.normalForm, Message.mk.injEq, and_true]
  refine ⟨lastSpan_presentFields ?_, lastSpan_presentFields ?_, lastSpan_presentFields ?_, trivial,
    lastSpan_presentFields ?_, lastSpan_presentFields ?_⟩ <;>
  simp [messageFields, fieldMsgTopic, fieldMsgFrom, fieldMsgData, fieldMsgSeqno,
    fieldMsgSignature, fieldMsgKey]

theorem schemaIhave_written {ihave : ControlIhave}
    (hv : ¬ topicRefused limits ihave.topic ∧ idsValid limits ihave.messageIds) :
    schemaIhave limits (ihaveFields ihave) = some ihave := by
  obtain ⟨hptr, -, -⟩ := not_topicRefused_present hv.1
  obtain ⟨hids, hle, hcount⟩ := ids_written hv.2
  have hspan : lastSpan fieldIhaveTopic (ihaveFields ihave) = ihave.topic := by
    simp [lastSpan, ihaveFields, fieldIhaveTopic, fieldIhaveMessageIds, ← hptr]
  have hlens : lens fieldIhaveMessageIds (ihaveFields ihave) = ihave.messageIds.map Span.bytes := by
    simp [ihaveFields, fieldIhaveTopic, fieldIhaveMessageIds]
  have hmost : LensAtMost fieldIhaveMessageIds limits.maxMessageIdBytes (ihaveFields ihave) := by
    intro b hb
    exact hle b (hlens ▸ hb)
  rw [schemaIhave, hspan, if_pos ⟨hv.1, hmost, hlens ▸ hcount⟩, hlens, hids]

theorem schemaIds_written {field : Nat} {limits : Limits} {ids : List Span}
    (hv : idsValid limits ids) : schemaIds field limits (idFields field ids) = some ids := by
  obtain ⟨hids, hle, hcount⟩ := ids_written hv
  have hlens : lens field (idFields field ids) = ids.map Span.bytes := by simp
  have hmost : LensAtMost field limits.maxMessageIdBytes (idFields field ids) := by
    intro b hb
    exact hle b (hlens ▸ hb)
  rw [schemaIds, if_pos ⟨hmost, hlens ▸ hcount⟩, hlens, hids]

theorem schemaGraft_written {graft : ControlGraft} (hv : ¬ topicRefused limits graft.topic) :
    schemaGraft limits (graftFields graft) = some graft := by
  obtain ⟨hptr, -, -⟩ := not_topicRefused_present hv
  have hspan : lastSpan fieldGraftTopic (graftFields graft) = graft.topic := by
    simp [lastSpan, graftFields, ← hptr]
  rw [schemaGraft, hspan, if_neg hv]

theorem schemaPrune_written {prune : ControlPrune} (hv : ¬ topicRefused limits prune.topic) :
    schemaPrune limits (pruneFields prune) = some { prune with peers := [] } := by
  obtain ⟨hptr, -, -⟩ := not_topicRefused_present hv
  have hspan : lastSpan fieldPruneTopic (pruneFields prune) = prune.topic := by
    by_cases hb : prune.backoffSeconds = 0 <;>
      simp [lastSpan, pruneFields, hb, ← hptr]
  have hpeers : lens fieldPrunePeers (pruneFields prune) = [] := by
    by_cases hb : prune.backoffSeconds = 0 <;>
      simp [pruneFields, hb, fieldPruneTopic, fieldPrunePeers]
  have hbackoff : lastVarint fieldPruneBackoff (pruneFields prune) = prune.backoffSeconds := by
    by_cases hb : prune.backoffSeconds = 0 <;> simp [lastVarint, pruneFields, hb]
  rw [schemaPrune, hspan, hpeers, hbackoff]
  simp [hv]

/-- The elements of one kind, when they are exactly the fields of that number. -/
theorem nested_written {α β : Type} (n : Nat) (fs : List Field) {accept : List Field → Option β}
    {fields : α → List Field} {g : α → β} {xs : List α}
    (hlens : lens n fs = xs.map fun x => writeAll uvarintCode (fields x))
    (hfit : ∀ x ∈ xs, AllFit (fields x)) (hsmall : ∀ x, SmallNumbers (fields x))
    (h : ∀ x ∈ xs, accept (fields x) = some (g x)) :
    (lens n fs).mapM (nestedMessage accept) = some (xs.map g) := by
  rw [hlens]
  refine mapM_written fun x hx => ?_
  rw [nestedMessage_writeAll _ (hfit x hx) (hsmall x)]
  exact h x hx

theorem controlLists_written {control : RpcControl}
    (hv : ControlValid version limits control) (hf : ControlFit control) :
    schemaControlLists limits (controlFields control) = some control.normalForm := by
  have hihave := nested_written fieldControlIhave (controlFields control)
    (g := id) (by simp [controlFields, fieldControlIhave, fieldControlIwant, fieldControlGraft,
      fieldControlPrune, fieldControlIdontwant])
    hf.ihave.1 ihaveFields_small fun x hx => schemaIhave_written (hv.ihave x hx).1
  have hiwant := nested_written fieldControlIwant (controlFields control)
    (g := ControlIwant.messageIds) (by simp [controlFields, fieldControlIhave, fieldControlIwant,
      fieldControlGraft, fieldControlPrune, fieldControlIdontwant])
    hf.iwant.1 (fun _ => smallNumbers_idFields (by decide) _) fun x hx => schemaIds_written (hv.iwant x hx).1
  have hgraft := nested_written fieldControlGraft (controlFields control)
    (g := id) (by simp [controlFields, fieldControlIhave, fieldControlIwant, fieldControlGraft,
      fieldControlPrune, fieldControlIdontwant])
    hf.graft.1 graftFields_small fun x hx => schemaGraft_written (hv.graft x hx).1
  have hprune := nested_written fieldControlPrune (controlFields control)
    (g := fun prune => { prune with peers := [] })
    (by simp [controlFields, fieldControlIhave, fieldControlIwant, fieldControlGraft,
      fieldControlPrune, fieldControlIdontwant])
    hf.prune.1 pruneFields_small fun x hx => schemaPrune_written (hv.prune x hx).1
  have hidontwant := nested_written fieldControlIdontwant (controlFields control)
    (g := ControlIdontwant.messageIds) (by simp [controlFields, fieldControlIhave,
      fieldControlIwant, fieldControlGraft, fieldControlPrune, fieldControlIdontwant])
    hf.idontwant.1 (fun _ => smallNumbers_idFields (by decide) _) fun x hx => schemaIds_written (hv.idontwant x hx).1.2
  rw [schemaControlLists, hihave, hiwant, hgraft, hprune, hidontwant]
  simp [RpcControl.normalForm, Function.comp_def]

theorem schemaControl_written {control : RpcControl}
    (hv : ControlValid version limits control) (hf : ControlFit control) :
    schemaControl limits (controlFields control) = some control.normalForm := by
  have hcounts : controlCounts limits control.normalForm := by
    simpa [controlCounts, RpcControl.normalForm] using hv.counts
  rw [schemaControl, controlLists_written hv hf]
  simp [hcounts]

/-- A message as the decoder returns it. -/
def Message.decoded (message : Message) : Message :=
  { message.normalForm with rawMessage := .ptr (writeAll uvarintCode (messageFields message)) }

/-- The RPC as the decoder returns it. -/
def Rpc.decoded (rpc : Rpc) : Rpc := { rpc.normalForm with publish := rpc.publish.map .decoded }

theorem Rpc.decoded_withoutRaw (rpc : Rpc) : rpc.decoded.withoutRaw = rpc.normalForm := by
  simp [Rpc.withoutRaw, Rpc.decoded, Rpc.normalForm, Message.decoded, Message.normalForm,
    Function.comp_def]

theorem RpcControl.eq_zero_of_isEmpty {control : RpcControl} (h : control.isEmpty = true) :
    control = .zero := by
  obtain ⟨a, b, c, d, e⟩ := control
  simp only [RpcControl.isEmpty, Bool.and_eq_true, List.isEmpty_iff] at h
  obtain ⟨⟨⟨⟨rfl, rfl⟩, rfl⟩, rfl⟩, rfl⟩ := h
  rfl

/-- The schema reads the written fields as the RPC in normal form. -/
theorem referenceDecode_written {rpc : Rpc} (hv : RpcValid version limits rpc) (hf : RpcFit rpc) :
    referenceDecode limits (writeAll uvarintCode (rpcFields rpc)) = some rpc.decoded := by
  have hsub := nested_written fieldRpcSubscriptions (rpcFields rpc)
    (g := RpcSubscription.normalForm)
    (by simp [rpcFields, fieldRpcSubscriptions, fieldRpcPublish, fieldRpcControl])
    hf.subscriptions.1 subFields_small fun x hx => schemaSub_written (hv.subscriptions x hx).1
  have hpub : ((lens fieldRpcPublish (rpcFields rpc)).mapM fun b =>
      nestedMessage (schemaMessage limits b) b) = some (rpc.publish.map Message.decoded) := by
    have hlens : lens fieldRpcPublish (rpcFields rpc) =
        rpc.publish.map fun x => writeAll uvarintCode (messageFields x) := by
      simp [rpcFields, fieldRpcSubscriptions, fieldRpcPublish, fieldRpcControl]
    rw [hlens]
    refine mapM_written fun x hx => ?_
    rw [nestedMessage_writeAll _ (hf.publish.1 x hx) (messageFields_small x)]
    exact schemaMessage_written (hv.publish x hx).1
  have hsections : (lens fieldRpcControl (rpcFields rpc)).mapM legalFields =
      some ((writtenControl rpc).map controlFields) := by
    have hlens : lens fieldRpcControl (rpcFields rpc) =
        (writtenControl rpc).map fun x => writeAll uvarintCode (controlFields x) := by
      simp [rpcFields, fieldRpcSubscriptions, fieldRpcPublish, fieldRpcControl]
    rw [hlens]
    exact mapM_written fun x hx =>
      legalFields_writeAll (hf.control.1 x hx).allFit (controlFields_small x)
  have hcontrol : schemaControl limits ((writtenControl rpc).map controlFields).flatten =
      some rpc.control.normalForm := by
    unfold writtenControl
    by_cases h : rpc.control.isEmpty = true
    · rw [if_pos h, RpcControl.eq_zero_of_isEmpty h]
      simp [schemaControl, schemaControlLists, controlCounts, RpcControl.normalForm,
        RpcControl.zero]
    · have hmem : rpc.control ∈ writtenControl rpc := by simp [writtenControl, h]
      rw [if_neg h]
      simpa using schemaControl_written (hv.control _ hmem).1 (hf.control.1 _ hmem)
  rw [referenceDecode, nestedMessage_writeAll _ hf.allFit (rpcFields_small rpc), schemaRpc, hsub, hpub, hsections]
  simp only [Option.bind_eq_bind, Option.bind_some, hcontrol, List.length_map]
  rw [if_pos ⟨hv.subscriptions_le, hv.publish_le⟩]
  rfl

/-! ## The written fields have none of the decoder's defects -/

theorem ofParse_written {P : List Field → Prop} {fs : List Field} (hfit : AllFit fs) (h : P fs) :
    OfParse P (writeAll uvarintCode fs) :=
  ofParse_of_eq (parse_writeAll uvarintCode hfit) h

theorem pruneFields_peers (prune : ControlPrune) : lens fieldPrunePeers (pruneFields prune) = [] := by
  by_cases hb : prune.backoffSeconds = 0 <;>
    simp [pruneFields, hb, fieldPruneTopic, fieldPrunePeers]

/-- Fields that are elements of one kind. -/
theorem mem_nestedFields {α : Type} {field : Nat} {fields : α → List Field} {xs : List α}
    {f : Field} (h : f ∈ nestedFields field fields xs) :
    ∃ x ∈ xs, f = ⟨field, .len (writeAll uvarintCode (fields x))⟩ := by
  obtain ⟨x, hx, rfl⟩ := List.mem_map.mp h
  exact ⟨x, hx, rfl⟩

/-- What was written for an element is exact whatever its decoder reads. -/
theorem exact_written {known : List (Nat × Nat)} {soFar : List Field → Prop} {fs : List Field}
    (hfit : AllFit fs) (hsmall : SmallNumbers fs) :
    OfParse (Upto soFar (FieldExact known)) (writeAll uvarintCode fs) := by
  refine ofParse_written hfit (Upto.of_forall fun f hf => ⟨(hsmall f hf).1, ?_,
    fun _ => (hsmall f hf).2⟩)
  intro hgroup
  have := (hfit f hf).2
  rw [hgroup] at this
  exact this

theorem controlFields_plain {control : RpcControl} (hf : ControlFit control) :
    ControlPlain limits (controlFields control) := by
  refine Upto.of_forall fun f hmem => ?_
  simp only [controlFields, List.mem_append] at hmem
  rcases hmem with (((h | h) | h) | h) | h <;>
    obtain ⟨x, hx, rfl⟩ := mem_nestedFields h <;>
    unfold FieldPlain <;> dsimp only <;>
    refine ⟨by decide, by rintro ⟨⟩, fun _ => ⟨by decide, _, rfl, ?_⟩⟩ <;>
    unfold elementPlain
  · rw [if_pos rfl]
    exact exact_written (hf.ihave.1 x hx) (ihaveFields_small x)
  · rw [if_neg (by decide), if_neg (by decide), if_neg (by decide)]
    exact exact_written (hf.iwant.1 x hx) (smallNumbers_idFields (by decide) _)
  · rw [if_neg (by decide), if_pos rfl]
    exact exact_written (hf.graft.1 x hx) (graftFields_small x)
  · rw [if_neg (by decide), if_neg (by decide), if_pos rfl]
    have hexact : OfParse (Upto (prunePeersSoFar limits) (FieldExact pruneKeys))
        (writeAll uvarintCode (pruneFields x)) :=
      exact_written (hf.prune.1 x hx) (pruneFields_small x)
    refine fun fs hfs => ⟨hexact fs hfs, Upto.of_forall ?_⟩
    rintro g hg b rfl
    rw [parse_writeAll uvarintCode (hf.prune.1 x hx), Option.some.injEq] at hfs
    have hpeer := mem_lens.mpr (hfs ▸ hg)
    rw [pruneFields_peers] at hpeer
    cases hpeer
  · rw [if_neg (by decide), if_neg (by decide), if_neg (by decide)]
    exact exact_written (hf.idontwant.1 x hx) (smallNumbers_idFields (by decide) _)

theorem rpcFields_plain {rpc : Rpc} (hf : RpcFit rpc) : RpcPlain limits (rpcFields rpc) := by
  refine Upto.of_forall fun f hmem => ?_
  simp only [rpcFields, List.mem_append] at hmem
  rcases hmem with (h | h) | h <;>
    obtain ⟨x, hx, rfl⟩ := mem_nestedFields h <;>
    unfold FieldPlain <;> dsimp only <;>
    refine ⟨by decide, by rintro ⟨⟩, fun _ => ⟨by decide, _, rfl, ?_⟩⟩ <;>
    unfold sectionPlain
  · rw [if_pos rfl]
    exact exact_written (hf.subscriptions.1 x hx) (subFields_small x)
  · rw [if_neg (by decide), if_pos rfl]
    exact exact_written (hf.publish.1 x hx) (messageFields_small x)
  · rw [if_neg (by decide), if_neg (by decide)]
    exact ofParse_written (hf.control.1 x hx).allFit (controlFields_plain (hf.control.1 x hx))

/-- At most one control section is written. -/
theorem rpcFields_noLostControl (rpc : Rpc) : NoLostControl limits (rpcFields rpc) := by
  have hlens : (lens fieldRpcControl (rpcFields rpc)).length ≤ 1 := by
    unfold rpcFields
    by_cases h : rpc.control.isEmpty = true <;>
      simp [writtenControl, h, fieldRpcSubscriptions, fieldRpcPublish, fieldRpcControl]
  intro pre b post hfs _ c hc
  rw [hfs, lens_append, lens_cons_len, if_pos rfl, List.length_append, List.length_cons] at hlens
  have := List.length_pos_of_mem hc
  omega

/-! ## The result -/

theorem rpcBodyDecode_written {storage : DecodeStorage} {rpc : Rpc} (hv : RpcValid version limits rpc) (hf : RpcFit rpc)
    (hroom : rpcFits storage rpc.decoded) :
    rpcBodyDecode version limits storage (writeAll uvarintCode (rpcFields rpc)) =
      .ok rpc.decoded := by
  rw [← toOption_eq_some, rpcBodyDecode_plain hv.version_ok hv.limits_ok hv.body_le
    (ofParse_written hf.allFit (rpcFields_plain hf))
    (ofParse_written hf.allFit (rpcFields_noLostControl rpc)), referenceDecode_written hv hf,
    Option.bind_some, if_pos hroom]

theorem rpcFits_decoded {storage : DecodeStorage} {rpc : Rpc} (h : rpcFits storage rpc.normalForm) :
    rpcFits storage rpc.decoded := by
  obtain ⟨hbody, hcontrol⟩ := h
  exact ⟨by simpa [bodyFits, Rpc.decoded, Rpc.normalForm] using hbody, hcontrol⟩

/-- The frame decoder reads back what the frame encoder wrote, with the bytes of each message. -/
theorem rpcFrameDecode_written {storage : DecodeStorage} {rpc : Rpc} {cap : Nat} {frame : Bytes}
    (hencode : rpcFrameEncode version limits rpc cap = .ok frame)
    (hroom : rpcFits storage rpc.normalForm) :
    rpcFrameDecode version limits storage frame = .ok rpc.decoded := by
  obtain ⟨hv, -, -, ⟨hf, hlt⟩, rfl⟩ :=
    ((rpcFrameEncode_encodes version limits rpc).encode_ok cap frame).mp hencode
  have hread := readUvarint_encode hlt (writeAll uvarintCode (rpcFields rpc))
  have hframe : frameBytes rpc = uvarintEncodeLoop 9 (writeAll uvarintCode (rpcFields rpc)).length ++
      writeAll uvarintCode (rpcFields rpc) := rfl
  unfold rpcFrameDecode
  rw [hv.version_ok, hv.limits_ok, hframe, hread]
  simp only [bind, Except.bind]
  have hle := hv.body_le
  rw [if_neg (by omega), if_neg (by simp)]
  exact rpcBodyDecode_written hv hf (rpcFits_decoded hroom)

/-- What the frame encoder wrote, the frame decoder reads back in normal form. -/
theorem rpcFrameDecode_encode (version : ProtocolVersion) (limits : Limits)
    (storage : DecodeStorage) (rpc : Rpc) (cap : Nat) (frame : Bytes)
    (hencode : rpcFrameEncode version limits rpc cap = .ok frame)
    (hroom : rpcFits storage rpc.normalForm) :
    ∃ rpc', rpcFrameDecode version limits storage frame = .ok rpc' ∧
      rpc'.withoutRaw = rpc.normalForm :=
  ⟨rpc.decoded, rpcFrameDecode_written hencode hroom, rpc.decoded_withoutRaw⟩

set_option maxRecDepth 8000 in
/-- A subscription, a message with an empty key and a PRUNE with a PX peer: the key and the
    peer are left out. -/
theorem rpcFrameDecode_encode_mixed :
    ∃ rpc', rpcFrameDecode .v12 defaultLimits smallStorage
        [24, 10, 5, 8, 1, 18, 1, 7, 18, 6, 18, 1, 9, 34, 1, 7, 26, 7, 34, 5, 10, 1, 7, 24, 60] =
          .ok rpc' ∧
      rpc'.withoutRaw = ⟨[⟨.ptr [7], 1⟩],
        [⟨.zero, .ptr [9], .zero, .ptr [7], .zero, .zero, .zero⟩],
        ⟨[], [], [], [⟨.ptr [7], [], 60⟩], []⟩⟩ :=
  rpcFrameDecode_encode .v12 defaultLimits smallStorage
    ⟨[⟨.ptr [7], 5⟩], [⟨.zero, .ptr [9], .zero, .ptr [7], .zero, .ptr [], .zero⟩],
      ⟨[], [], [], [⟨.ptr [7], [⟨.ptr [1], .zero⟩], 60⟩], []⟩⟩ 64 _ (by decide) (by decide)

end LeanLibp2p.Gossipsub
