import LeanLibp2p.Gossipsub.Codec.RoundTrip

/-!
# What the encoder refuses

The size functions refuse what is too large or too long, and what has the wrong version, and for the
former their error is always `LIMIT`. An RPC whose size they do find is then written, unless a number
in it is too large for a varint.
-/

namespace LeanLibp2p.Gossipsub

open LeanLibp2p.Lib.Protobuf

variable {version : ProtocolVersion}

/-! ## Errors of the size functions -/

/-- The only error is `LIMIT`. -/
structure LimitOnly {α : Type} (x : Except GossipsubErr α) : Prop where
  eq : ∀ e, x = .error e → e = .limit

namespace LimitOnly

variable {α β : Type}

theorem ok (a : α) : LimitOnly (.ok a) := ⟨fun _ h => nomatch h⟩

theorem limit : LimitOnly (.error .limit : Except GossipsubErr α) := by
  constructor
  intro e h
  cases h
  rfl

theorem bind {x : Except GossipsubErr α} {f : α → Except GossipsubErr β} (hx : LimitOnly x)
    (hf : ∀ a, LimitOnly (f a)) : LimitOnly (x >>= f) := by
  cases x with
  | error e =>
    constructor
    intro e' h
    cases h
    exact hx.eq _ rfl
  | ok a => exact hf a

theorem ite {c : Prop} [Decidable c] {x y : Except GossipsubErr α} (hx : c → LimitOnly x)
    (hy : ¬ c → LimitOnly y) : LimitOnly (if c then x else y) := by
  by_cases hc : c
  · rw [if_pos hc]
    exact hx hc
  · rw [if_neg hc]
    exact hy hc

theorem foldlM {f : β → α → Except GossipsubErr β} {xs : List α} (h : ∀ b, ∀ x ∈ xs, LimitOnly (f b x))
    (b : β) : LimitOnly (xs.foldlM f b) := by
  induction xs generalizing b with
  | nil => exact ok b
  | cons x xs ih =>
    rw [List.foldlM_cons]
    refine bind (h b x (List.mem_cons_self ..)) fun b' => ih ?_ b'
    exact fun b y hy => h b y (List.mem_cons_of_mem x hy)

end LimitOnly

theorem fieldSize_limitOnly (field wire dataLen total : Nat) :
    LimitOnly (fieldSize field wire dataLen total) := by
  unfold fieldSize
  dsimp only
  cases sizeAdd total (uvarintSize (fieldKey field wire) + uvarintSize dataLen) with
  | none => exact .limit
  | some next =>
    refine .ite (fun _ => ?_) fun _ => .ok _
    cases sizeAdd next dataLen with
    | none => exact .limit
    | some total => exact .ok _

theorem presentSize_limitOnly (field : Nat) (span : Span) (total : Nat) :
    LimitOnly (presentSize field span total) :=
  .ite (fun _ => fieldSize_limitOnly ..) fun _ => .ok _

theorem nestedSizes_limitOnly {α : Type} (field : Nat) {size : α → Except GossipsubErr Nat}
    {xs : List α} (h : ∀ x ∈ xs, LimitOnly (size x)) (total : Nat) :
    LimitOnly (nestedSizes field size xs total) :=
  .foldlM (fun _ x hx => .bind (h x hx) fun _ => fieldSize_limitOnly ..) total

theorem messageIdListSize_limitOnly (field : Nat) (limits : Limits) (ids : List Span)
    (total : Nat) : LimitOnly (messageIdListSize field limits ids total) :=
  .ite (fun _ => .limit) fun _ =>
    .foldlM (fun _ _ _ => .ite (fun _ => .limit) fun _ => fieldSize_limitOnly ..) total

theorem subSize_limitOnly (limits : Limits) (sub : RpcSubscription) :
    LimitOnly (subSize limits sub) :=
  .ite (fun _ => .limit) fun _ => .bind (fieldSize_limitOnly ..) fun _ => fieldSize_limitOnly ..

theorem messageSize_limitOnly (limits : Limits) (message : Message) :
    LimitOnly (messageSize limits message) := by
  refine .ite (fun _ => .limit) fun _ => ?_
  refine .bind (presentSize_limitOnly ..) fun _ => .bind (presentSize_limitOnly ..) fun _ => ?_
  refine .bind (presentSize_limitOnly ..) fun _ => .bind (fieldSize_limitOnly ..) fun _ => ?_
  exact .bind (presentSize_limitOnly ..) fun _ => presentSize_limitOnly ..

theorem ihaveSize_limitOnly (limits : Limits) (ihave : ControlIhave) :
    LimitOnly (ihaveSize limits ihave) :=
  .ite (fun _ => .limit) fun _ =>
    .bind (fieldSize_limitOnly ..) fun _ => messageIdListSize_limitOnly ..

theorem pruneSize_limitOnly (limits : Limits) (prune : ControlPrune) :
    LimitOnly (pruneSize limits prune) :=
  .ite (fun _ => .limit) fun _ => .bind (fieldSize_limitOnly ..) fun _ =>
    .ite (fun _ => fieldSize_limitOnly ..) fun _ => .ok _

/-- The version allows the RPC: an IDONTWANT needs version 1.2. -/
structure Rpc.Allowed (version : ProtocolVersion) (rpc : Rpc) : Prop where
  version_ok : versionValidate version = .ok ()
  idontwant : rpc.control.idontwant ≠ [] → version = .v12

theorem controlSize_limitOnly (limits : Limits) {control : RpcControl}
    (h : control.idontwant ≠ [] → version = .v12) :
    LimitOnly (controlSize version limits control) := by
  refine .ite (fun _ => .limit) fun _ => .ite (fun hversion => ?_) fun _ => ?_
  · rcases hversion with ⟨hsome, hne⟩
    exact absurd (h fun hnil => hsome (by simp [hnil])) hne
  refine .bind (nestedSizes_limitOnly _ (fun x _ => ihaveSize_limitOnly limits x) 0) fun _ => ?_
  refine .bind (nestedSizes_limitOnly _ (fun x _ => messageIdListSize_limitOnly ..) _) fun _ => ?_
  refine .bind (nestedSizes_limitOnly _ (fun x _ => .ite (fun _ => .limit) fun _ =>
    fieldSize_limitOnly ..) _) fun _ => ?_
  refine .bind (nestedSizes_limitOnly _ (fun x _ => pruneSize_limitOnly limits x) _) fun _ => ?_
  refine nestedSizes_limitOnly _ (fun x hx => .ite (fun hne => ?_) fun _ =>
    messageIdListSize_limitOnly ..) _
  exact absurd (h (List.ne_nil_of_mem hx)) hne

/-- A frame that the version allows is refused for its size only. -/
theorem rpcFrameSize_limitOnly {limits : Limits} {rpc : Rpc}
    (hlimits : limitsValidate limits = .ok ()) (h : rpc.Allowed version) :
    LimitOnly (rpcFrameSize version limits rpc) := by
  have hbody : LimitOnly (rpcBodySize version limits rpc) := by
    unfold rpcBodySize
    rw [h.version_ok, hlimits]
    refine .bind (.ok _) fun _ => .bind (.ok _) fun _ => .ite (fun _ => .limit) fun _ => ?_
    refine .bind (nestedSizes_limitOnly _ (fun x _ => subSize_limitOnly limits x) 0) fun _ => ?_
    refine .bind (nestedSizes_limitOnly _ (fun x _ => messageSize_limitOnly limits x) _) fun _ => ?_
    have hend : ∀ total, LimitOnly (if limits.maxRpcBytes < total then .error .limit else
        .ok total : Except GossipsubErr Nat) :=
      fun total => .ite (fun _ => .limit) fun _ => .ok _
    refine .ite (fun _ => .bind (.ok _) hend) fun _ => .bind (nestedSizes_limitOnly _ ?_ _) hend
    intro control hcontrol
    rw [List.mem_singleton.mp hcontrol]
    exact controlSize_limitOnly limits h.idontwant
  refine .bind hbody fun bodyLen => ?_
  split
  · exact .limit
  · exact .ok _

/-! ## Numbers that fit -/

/-- The field has a number and a kind that the encoder writes. -/
def WritableField (f : Field) : Prop :=
  f.number < 2 ^ 32 ∧ ((∃ b, f.payload = .len b) ∨ ∃ v, f.payload = .varint v ∧ v < 2 ^ 63)

theorem writableField_len {n : Nat} (hn : n < 2 ^ 32) (b : Bytes) : WritableField ⟨n, .len b⟩ :=
  ⟨hn, .inl ⟨b, rfl⟩⟩

theorem writableField_varint {n v : Nat} (hn : n < 2 ^ 32) (hv : v < 2 ^ 63) :
    WritableField ⟨n, .varint v⟩ := ⟨hn, .inr ⟨v, rfl, hv⟩⟩

def Writable (fs : List Field) : Prop := ∀ f ∈ fs, WritableField f

@[simp] theorem writable_nil : Writable [] := fun _ h => nomatch h

@[simp] theorem writable_cons (f : Field) (fs : List Field) :
    Writable (f :: fs) ↔ WritableField f ∧ Writable fs := by
  simp [Writable]

@[simp] theorem writable_append (fs gs : List Field) :
    Writable (fs ++ gs) ↔ Writable fs ∧ Writable gs := by
  simp [Writable, or_imp, forall_and]

/-- A payload is not longer than the fields that it is written with. -/
theorem length_le_writeAll {fs : List Field} {f : Field} {b : Bytes} (hf : f ∈ fs)
    (hb : f.payload = .len b) : b.length ≤ (writeAll uvarintCode fs).length := by
  rcases List.append_of_mem hf with ⟨xs, ys, rfl⟩
  have hfield : f = ⟨f.number, .len b⟩ := by
    rw [← hb]
  rw [writeAll_append, writeAll_cons, hfield, lenField_write]
  simp only [List.length_append]
  omega

/-- In a short encoding everything fits. -/
theorem allFit_of_short {fs : List Field} (h : Writable fs)
    (hshort : (writeAll uvarintCode fs).length < 2 ^ 63) : AllFit fs := by
  intro f hf
  rcases h f hf with ⟨hnumber, ⟨b, hb⟩ | ⟨v, hv, hlt⟩⟩
  · have hle := length_le_writeAll hf hb
    unfold Field.Fits
    rw [hb]
    refine ⟨?_, Nat.lt_of_le_of_lt hle hshort⟩
    simp only [Payload.wire, uvarintCode]
    omega
  · unfold Field.Fits
    rw [hv]
    refine ⟨?_, hlt⟩
    simp only [Payload.wire, uvarintCode]
    omega

theorem writable_presentFields {n : Nat} (hn : n < 2 ^ 32) (span : Span) :
    Writable (presentFields n span) := by
  unfold presentFields
  split
  · rw [writable_cons]
    exact ⟨writableField_len hn _, writable_nil⟩
  · exact writable_nil

theorem writable_idFields {n : Nat} (hn : n < 2 ^ 32) (ids : List Span) :
    Writable (idFields n ids) := by
  intro f hf
  rcases List.mem_map.mp hf with ⟨id, -, rfl⟩
  exact writableField_len hn _

theorem writable_nestedFields {α : Type} {n : Nat} (hn : n < 2 ^ 32) (fields : α → List Field)
    (xs : List α) : Writable (nestedFields n fields xs) := by
  intro f hf
  rcases List.mem_map.mp hf with ⟨x, -, rfl⟩
  exact writableField_len hn _

theorem subFields_writable (sub : RpcSubscription) : Writable (subFields sub) := by
  have hflag : subscribeFlag sub.subscribe < 2 ^ 63 := by
    unfold subscribeFlag
    split <;> decide
  simp only [subFields, writable_cons, writable_nil, and_true]
  exact ⟨writableField_varint (by decide) hflag, writableField_len (by decide) _⟩

theorem messageFields_writable (message : Message) : Writable (messageFields message) := by
  simp only [messageFields, writable_append, writable_cons, writable_nil, and_true]
  refine ⟨⟨⟨⟨⟨?_, ?_⟩, ?_⟩, ?_⟩, ?_⟩, ?_⟩
  · exact writable_presentFields (by decide) _
  · exact writable_presentFields (by decide) _
  · exact writable_presentFields (by decide) _
  · exact writableField_len (by decide) _
  · exact writable_presentFields (by decide) _
  · exact writable_presentFields (by decide) _

theorem ihaveFields_writable (ihave : ControlIhave) : Writable (ihaveFields ihave) := by
  rw [ihaveFields, writable_cons]
  exact ⟨writableField_len (by decide) _, writable_idFields (by decide) _⟩

theorem graftFields_writable (graft : ControlGraft) : Writable (graftFields graft) := by
  rw [graftFields, writable_cons]
  exact ⟨writableField_len (by decide) _, writable_nil⟩

theorem pruneFields_writable {prune : ControlPrune} (h : prune.backoffSeconds < 2 ^ 63) :
    Writable (pruneFields prune) := by
  rw [pruneFields, writable_cons]
  refine ⟨writableField_len (by decide) _, ?_⟩
  split
  · rw [writable_cons]
    exact ⟨writableField_varint (by decide) h, writable_nil⟩
  · exact writable_nil

theorem nestedFit_of_short {α : Type} {n : Nat} (hn : n < 2 ^ 32) {fits : α → Prop}
    {fields : α → List Field} {xs : List α}
    (hx : ∀ x ∈ xs, (writeAll uvarintCode (fields x)).length < 2 ^ 63 → fits x)
    (hshort : (writeAll uvarintCode (nestedFields n fields xs)).length < 2 ^ 63) :
    NestedFit n fits fields xs := by
  constructor
  · intro x hmem
    apply hx x hmem
    have hfield : (⟨n, .len (writeAll uvarintCode (fields x))⟩ : Field) ∈ nestedFields n fields xs :=
      List.mem_map.mpr ⟨x, hmem, rfl⟩
    exact Nat.lt_of_le_of_lt (length_le_writeAll hfield rfl) hshort
  · exact allFit_of_short (writable_nestedFields hn fields xs) hshort

theorem controlFit_of_short {control : RpcControl}
    (hbackoff : ∀ prune ∈ control.prune, prune.backoffSeconds < 2 ^ 63)
    (hshort : (writeAll uvarintCode (controlFields control)).length < 2 ^ 63) :
    ControlFit control := by
  simp only [controlFields, writeAll_append, List.length_append] at hshort
  constructor
  · exact nestedFit_of_short (by decide) (fun x _ h => allFit_of_short (ihaveFields_writable x) h)
      (by omega)
  · exact nestedFit_of_short (by decide)
      (fun x _ h => allFit_of_short (writable_idFields (by decide) _) h) (by omega)
  · exact nestedFit_of_short (by decide) (fun x _ h => allFit_of_short (graftFields_writable x) h)
      (by omega)
  · exact nestedFit_of_short (by decide)
      (fun x hx h => allFit_of_short (pruneFields_writable (hbackoff x hx)) h) (by omega)
  · exact nestedFit_of_short (by decide)
      (fun x _ h => allFit_of_short (writable_idFields (by decide) _) h) (by omega)

/-- An RPC of less than 2^63 bytes can be written, if its backoffs can. -/
theorem rpcFit_of_short {rpc : Rpc}
    (hbackoff : ∀ prune ∈ rpc.control.prune, prune.backoffSeconds < 2 ^ 63)
    (hshort : (writeAll uvarintCode (rpcFields rpc)).length < 2 ^ 63) : RpcFit rpc := by
  simp only [rpcFields, writeAll_append, List.length_append] at hshort
  constructor
  · exact nestedFit_of_short (by decide) (fun x _ h => allFit_of_short (subFields_writable x) h)
      (by omega)
  · exact nestedFit_of_short (by decide) (fun x _ h => allFit_of_short (messageFields_writable x) h)
      (by omega)
  · refine nestedFit_of_short (by decide) (fun x hx h => controlFit_of_short ?_ h) (by omega)
    unfold writtenControl at hx
    split at hx
    · cases hx
    · rw [List.mem_singleton.mp hx]
      exact hbackoff

/-- A frame whose size was found is written, into a buffer of that size. -/
theorem rpcFrameEncode_of_size {limits : Limits} {rpc : Rpc} {n : Nat}
    (hbackoff : ∀ prune ∈ rpc.control.prune, prune.backoffSeconds < 2 ^ 63)
    (hsize : rpcFrameSize version limits rpc = .ok n) (hn : n < 2 ^ 63) :
    rpcFrameEncode version limits rpc n = .ok (frameBytes rpc) ∧ (frameBytes rpc).length = n := by
  rcases (rpcFrameSize_eq_ok version limits rpc n).mp hsize with ⟨hv, hlen, hmax⟩
  have hbody : (writeAll uvarintCode (rpcFields rpc)).length < 2 ^ 63 := by
    rw [frameBytes, List.length_append] at hlen
    omega
  refine ⟨((rpcFrameEncode_encodes version limits rpc).encode_ok n _).mpr ?_, hlen.symm⟩
  exact ⟨hv, hmax, Nat.le_of_eq hlen.symm, ⟨rpcFit_of_short hbackoff hbody, hbody⟩, rfl⟩

end LeanLibp2p.Gossipsub
