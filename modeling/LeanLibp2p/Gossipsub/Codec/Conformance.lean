import LeanLibp2p.Gossipsub.Codec.Sections

/-!
# The RPC decoder against the schema

`libp2p_gossipsub_rpc_body_decode` reads an RPC body as the schema does unless one of five
things happens before the first error: a field has the number zero, a field is a group, a key
of 2^32 or more is cut to a known number, a known field of the RPC or of a control section
comes with another wire type, or a control section with elements is followed by another
control section.
-/

namespace LeanLibp2p.Gossipsub

open LeanLibp2p.Lib.Protobuf

variable {limits : Limits} {storage : DecodeStorage}
variable {version : ProtocolVersion}

/-- The decode storage has room for the elements of an RPC. -/
def rpcFits (storage : DecodeStorage) (rpc : Rpc) : Prop :=
  bodyFits storage rpc ∧ controlFits storage rpc.control

instance (storage : DecodeStorage) (rpc : Rpc) : Decidable (rpcFits storage rpc) :=
  inferInstanceAs (Decidable (_ ∧ _))

/-- The decoder accepts exactly what the reference accepts, with the same value. -/
def Conforms (version : ProtocolVersion) (limits : Limits) (storage : DecodeStorage)
    (bs : Bytes) : Prop :=
  (rpcBodyDecode version limits storage bs).toOption = referenceDecode limits bs

instance (version : ProtocolVersion) (limits : Limits) (storage : DecodeStorage) (bs : Bytes) :
    Decidable (Conforms version limits storage bs) := inferInstanceAs (Decidable (_ = _))

/-- Up to the first sub-message that is refused, no control section with elements is followed
    by another control section. -/
def NoLostControl (limits : Limits) (fs : List Field) : Prop :=
  ∀ pre b post, fs = pre ++ ⟨fieldRpcControl, .len b⟩ :: post → sectionsSoFar limits pre →
    ∀ c ∈ lens fieldRpcControl pre, OfParse NoElements c

variable {fs : List Field}

theorem mem_lens {n : Nat} {b : Bytes} :
    b ∈ lens n fs ↔ ⟨n, .len b⟩ ∈ fs := by
  simp only [lens, List.mem_filterMap]
  constructor
  · rintro ⟨⟨m, payload⟩, hf, hb⟩
    cases payload with
    | len c =>
      by_cases hm : m = n
      · subst hm
        simp only [if_true, Option.some.injEq] at hb
        rwa [hb] at hf
      · simp [hm] at hb
    | _ => simp at hb
  · intro hf
    exact ⟨_, hf, by simp⟩

/-- Where the last occurrence of a field stands. -/
theorem lens_concat {n : Nat} {init : List Bytes} {last : Bytes} (h : lens n fs = init ++ [last]) :
    ∃ pre post, fs = pre ++ ⟨n, .len last⟩ :: post ∧ lens n pre = init := by
  induction fs using List.reverseRecOn with
  | nil => simp at h
  | append_singleton fs f ih =>
    by_cases hf : lens n [f] = []
    · rw [lens_append, hf, List.append_nil] at h
      obtain ⟨pre, post, rfl, hpre⟩ := ih h
      exact ⟨pre, post ++ [f], by simp, hpre⟩
    · obtain ⟨b, hb⟩ := List.exists_mem_of_ne_nil _ hf
      obtain rfl := List.mem_singleton.mp (mem_lens.mp hb)
      rw [lens_append, lens_cons_len, if_pos rfl, lens_nil] at h
      obtain ⟨hinit, hlast⟩ := List.append_inj' h rfl
      cases hlast
      exact ⟨fs, [], rfl, hinit⟩

/-! ## What the reference accepts -/

/-- The number of elements of one kind. -/
def elementCount (n : Nat) (c : RpcControl) : Nat :=
  if n = fieldControlIhave then c.ihave.length
  else if n = fieldControlIwant then c.iwant.length
  else if n = fieldControlGraft then c.graft.length
  else if n = fieldControlPrune then c.prune.length
  else c.idontwant.length

theorem schemaControlLists_count {c : RpcControl} (h : schemaControlLists limits fs = some c)
    {n : Nat} (hn : n ∈ controlNumbers) :
    elementCount n c = (lens n fs).length := by
  simp only [schemaControlLists, Option.bind_eq_bind, Option.pure_def, Option.bind_eq_some_iff,
    Option.some.injEq] at h
  obtain ⟨a1, h1, a2, h2, a3, h3, a4, h4, a5, h5, rfl⟩ := h
  simp only [controlNumbers, List.mem_cons, List.not_mem_nil, or_false] at hn
  rcases hn with rfl | rfl | rfl | rfl | rfl <;>
    simp [elementCount, fieldControlIhave, fieldControlIwant, fieldControlGraft,
      fieldControlPrune, fieldControlIdontwant]
  · exact mapM_length h1
  · exact mapM_length h2
  · exact mapM_length h3
  · exact mapM_length h4
  · exact mapM_length h5

theorem schemaControl_eq_some {c : RpcControl} :
    schemaControl limits fs = some c ↔
      schemaControlLists limits fs = some c ∧ controlCounts limits c := by
  simp only [schemaControl, Option.bind_eq_bind, Option.bind_eq_some_iff]
  constructor
  · rintro ⟨d, hd, h⟩
    split at h
    · cases h
      exact ⟨hd, ‹_›⟩
    · cases h
  · rintro ⟨hc, hcounts⟩
    exact ⟨c, hc, if_pos hcounts⟩

theorem controlCounts_iff {c : RpcControl} :
    controlCounts limits c ↔ elementCount fieldControlIhave c ≤ limits.maxIhavePerRpc ∧
      elementCount fieldControlIwant c ≤ limits.maxIwantPerRpc ∧
      elementCount fieldControlGraft c ≤ limits.maxGraftPerRpc ∧
      elementCount fieldControlPrune c ≤ limits.maxPrunePerRpc ∧
      elementCount fieldControlIdontwant c ≤ limits.maxIdontwantPerRpc :=
  Iff.rfl

/-- A part of an accepted control section is accepted. -/
theorem schemaControl_sublist {fs gs : List Field} {c : RpcControl} (h : gs.Sublist fs)
    (hfs : schemaControl limits fs = some c) : (schemaControl limits gs).isSome := by
  obtain ⟨hlists, hcounts⟩ := schemaControl_eq_some.mp hfs
  obtain ⟨d, hd⟩ := Option.isSome_iff_exists.mp
    (elementsSoFar_sublist h (by rw [elementsSoFar, hlists]; rfl))
  have hle : ∀ n ∈ controlNumbers, elementCount n d ≤ elementCount n c := by
    intro n hn
    rw [schemaControlLists_count hd hn, schemaControlLists_count hlists hn]
    exact (lens_sublist h n).length_le
  simp only [controlNumbers, List.forall_mem_cons, List.not_mem_nil, false_implies,
    implies_true, and_true] at hle
  obtain ⟨h1, h2, h3, h4, h5⟩ := hle
  obtain ⟨k1, k2, k3, k4, k5⟩ := controlCounts_iff.mp hcounts
  rw [schemaControl_eq_some.mpr ⟨hd, controlCounts_iff.mpr ⟨h1.trans k1, h2.trans k2,
    h3.trans k3, h4.trans k4, h5.trans k5⟩⟩]
  rfl

/-- An accepted body has only accepted sub-messages. -/
theorem sectionsSoFar_of_schemaRpc {rpc : Rpc} (h : schemaRpc limits fs = some rpc) :
    sectionsSoFar limits fs := by
  simp only [schemaRpc, Option.bind_eq_bind, Option.bind_eq_some_iff] at h
  obtain ⟨subs, hsubs, pubs, hpubs, sections, hsections, control, hcontrol, -⟩ := h
  refine ⟨mapM_isSome.mp (by rw [hsubs]; rfl), mapM_isSome.mp (by rw [hpubs]; rfl), ?_⟩
  intro b hb
  obtain ⟨gs, hgs⟩ := Option.isSome_iff_exists.mp
    (mapM_isSome.mp (by rw [hsections]; rfl) b hb)
  rw [nestedMessage, hgs, Option.bind_some]
  exact schemaControl_sublist
    (List.sublist_flatten_of_mem (mem_of_mapM hsections b hb gs hgs)) hcontrol

theorem sectionsSoFar_sublist {fs gs : List Field} (h : gs.Sublist fs)
    (hfs : sectionsSoFar limits fs) : sectionsSoFar limits gs :=
  ⟨fun b hb => hfs.1 b ((lens_sublist h _).subset hb),
    fun b hb => hfs.2.1 b ((lens_sublist h _).subset hb),
    fun b hb => hfs.2.2 b ((lens_sublist h _).subset hb)⟩

/-- In a body without an error every field is plain. -/
theorem RpcPlain.all (h : RpcPlain limits fs) (hsofar : sectionsSoFar limits fs) :
    ∀ f ∈ fs, FieldPlain rpcNumbers (sectionPlain limits) f :=
  Upto.all h fun pre post hpre =>
    sectionsSoFar_sublist (List.sublist_append_left pre post) (hpre ▸ hsofar)

/-- In a body without an error only the last control section has elements. -/
theorem NoLostControl.dropLast (h : NoLostControl limits fs) (hsofar : sectionsSoFar limits fs) :
    ∀ b ∈ (lens fieldRpcControl fs).dropLast, OfParse NoElements b := by
  rcases List.eq_nil_or_concat (lens fieldRpcControl fs) with hnil | ⟨init, last, hsnoc⟩
  · simp [hnil]
  rw [List.concat_eq_append] at hsnoc
  obtain ⟨pre, post, rfl, hpre⟩ := lens_concat hsnoc
  rw [hsnoc, List.dropLast_concat, ← hpre]
  exact h pre last post rfl (sectionsSoFar_sublist (List.sublist_append_left _ _) hsofar)

/-! ## The decoder up to its first error -/

/-- The body decoder is the fold over the parsed fields, and then the count check. -/
theorem rpcBodyDecode_toOption {limits : Limits}
    {storage : DecodeStorage} {bs : Bytes} (hv : versionValidate version = .ok ())
    (hl : limitsValidate limits = .ok ()) (hlen : bs.length ≤ limits.maxRpcBytes) :
    (rpcBodyDecode version limits storage bs).toOption =
      ((parse uvarintCode bs).bind fun fs =>
        foldFields (ungrouped (rpcStep limits storage)) (fs.map cutNumber) .zero).bind fun out =>
          if out.subscriptions.length ≤ limits.maxSubscriptionsPerRpc ∧
              out.publish.length ≤ limits.maxPublishPerRpc then some out
          else none := by
  rw [← fieldLoop_toOption (rpcField_interprets limits storage) bs.length bs .zero (Nat.le_refl _)]
  unfold rpcBodyDecode
  rw [hv, hl]
  simp only [bind, Except.bind]
  rw [if_neg (Nat.not_lt.mpr hlen)]
  cases fieldLoop (rpcField limits storage) bs.length bs .zero with
  | error e => rfl
  | ok out =>
    simp only [toOption_ok, Option.bind_some]
    by_cases h : out.subscriptions.length ≤ limits.maxSubscriptionsPerRpc ∧
        out.publish.length ≤ limits.maxPublishPerRpc
    · rw [if_pos h, if_neg (by omega)]
      rfl
    · rw [if_neg h, if_pos (by omega)]
      rfl

/-- Where only the last control section has elements, what the loop collects is what the
    schema reads, as far as the storage reaches. -/
theorem collectedRpc_schema {storage : DecodeStorage}
    (hlost : ∀ b ∈ (lens fieldRpcControl fs).dropLast, OfParse NoElements b) :
    (((collectedRpc limits storage fs).bind fun out =>
        if bodyFits storage out then some out else none).bind fun out =>
          if out.subscriptions.length ≤ limits.maxSubscriptionsPerRpc ∧
              out.publish.length ≤ limits.maxPublishPerRpc then some out
          else none) =
      (schemaRpc limits fs).bind fun rpc => if rpcFits storage rpc then some rpc else none := by
  have hmerge := lastSection_merge limits storage (lens fieldRpcControl fs) hlost
  simp only [collectedRpc, schemaRpc, Option.bind_eq_bind, Option.pure_def]
  cases hsub : (lens fieldRpcSubscriptions fs).mapM (nestedMessage (schemaSub limits)) with
  | none => rfl
  | some subscriptions =>
  cases hpub : (lens fieldRpcPublish fs).mapM
      (fun b => nestedMessage (schemaMessage limits b) b) with
  | none => rfl
  | some publish =>
  simp only [Option.bind_some]
  cases hsec : (lens fieldRpcControl fs).mapM legalFields with
  | none =>
    rw [hsec] at hmerge
    simp only [Option.bind_none, Option.map_eq_none_iff] at hmerge
    rw [hmerge]
    rfl
  | some sections =>
  rw [hsec] at hmerge
  simp only [Option.bind_some] at hmerge ⊢
  cases hc : schemaControl limits sections.flatten with
  | none =>
    rw [hc] at hmerge
    simp only [Option.bind_none, Option.map_eq_none_iff] at hmerge
    rw [hmerge]
    rfl
  | some control =>
  rw [hc] at hmerge
  simp only [Option.bind_some] at hmerge ⊢
  by_cases hfit : controlFits storage control
  · rw [if_pos hfit, Option.map_eq_some_iff] at hmerge
    obtain ⟨controls, hcontrols, rfl⟩ := hmerge
    rw [hcontrols]
    simp only [Option.bind_some]
    by_cases hb : bodyFits storage ⟨subscriptions, publish, controls.getLast?.getD .zero⟩
    · rw [if_pos hb, Option.bind_some]
      split
      · rw [Option.bind_some, if_pos (show rpcFits storage _ from ⟨hb, hfit⟩)]
      · rfl
    · rw [if_neg hb, Option.bind_none]
      split
      · rw [Option.bind_some, if_neg fun h => hb h.1]
      · rfl
  · rw [if_neg hfit, Option.map_eq_none_iff] at hmerge
    rw [hmerge, Option.bind_none, Option.bind_none, Option.bind_none]
    split
    · rw [Option.bind_some, if_neg fun h => hfit h.2]
    · rfl

/-- Up to the first error a plain body without a lost control section is read as the schema
    reads it, as far as the storage reaches. -/
theorem rpcBodyDecode_plain {storage : DecodeStorage} {bs : Bytes}
    (hv : versionValidate version = .ok ()) (hl : limitsValidate limits = .ok ())
    (hlen : bs.length ≤ limits.maxRpcBytes) (hplain : OfParse (RpcPlain limits) bs)
    (hlost : OfParse (NoLostControl limits) bs) :
    (rpcBodyDecode version limits storage bs).toOption =
      (referenceDecode limits bs).bind fun rpc =>
        if rpcFits storage rpc then some rpc else none := by
  rw [rpcBodyDecode_toOption hv hl hlen, referenceDecode, nestedMessage, legalFields]
  cases hp : parse uvarintCode bs with
  | none => rfl
  | some fs =>
    rw [Option.bind_some, rpcFold limits storage fs (hplain fs hp), Option.filter_some]
    by_cases hsofar : sectionsSoFar limits fs
    · have hlegal : Legal fs := fun f hf => ((hplain fs hp).all hsofar f hf).1
      rw [if_pos (by simpa using hlegal), Option.bind_some]
      exact collectedRpc_schema ((hlost fs hp).dropLast hsofar)
    · -- a sub-message is refused: neither side has a value
      have hcode : collectedRpc limits storage fs = none := by
        by_contra hne
        exact hsofar (sectionsSoFar_of_collected (Option.isSome_iff_ne_none.mpr hne))
      have href : schemaRpc limits fs = none := by
        by_contra hne
        obtain ⟨rpc, hrpc⟩ := Option.ne_none_iff_exists'.mp hne
        exact hsofar (sectionsSoFar_of_schemaRpc hrpc)
      rw [hcode]
      split <;> simp [href]

/-! ## The converse -/

/-- The keys of a PRUNE and of its PX peers are exact. -/
def PruneKeys (fs : List Field) : Prop :=
  KeysExact pruneKeys fs ∧ ∀ b ∈ lens fieldPrunePeers fs, OfParse (KeysExact peerInfoKeys) b

/-- In the element behind a known number of a section, no key of 2^32 or more is cut to one
    that is read there. -/
def elementNoAliases (number : Nat) (b : Bytes) : Prop :=
  if number = fieldControlIhave then OfParse (KeysExact ihaveKeys) b
  else if number = fieldControlGraft then OfParse (KeysExact graftKeys) b
  else if number = fieldControlPrune then OfParse PruneKeys b
  else OfParse (KeysExact iwantKeys) b

/-- The same for a control section and its elements. -/
def ControlNoAliases (fs : List Field) : Prop :=
  ∀ f ∈ fs, f.number % 2 ^ 32 ∈ controlNumbers →
    f.number < 2 ^ 32 ∧ ∀ b, f.payload = .len b → elementNoAliases f.number b

/-- Nowhere in the body is a key of 2^32 or more cut to a number that is read there. -/
def NoAliases (fs : List Field) : Prop :=
  ∀ f ∈ fs, f.number % 2 ^ 32 ∈ rpcNumbers →
    f.number < 2 ^ 32 ∧ ∀ b, f.payload = .len b →
      if f.number = fieldRpcSubscriptions then OfParse (KeysExact subKeys) b
      else if f.number = fieldRpcPublish then OfParse (KeysExact messageKeys) b
      else OfParse ControlNoAliases b

theorem wire_len {p : Payload} (h : p.wire = wireLen) : ∃ b, p = .len b := by
  cases p with
  | len b => exact ⟨b, rfl⟩
  | _ => cases h

/-- In a fold that succeeds every field was accepted in some state, so it is no group. -/
theorem foldFields_mem {σ : Type} {step : Field → σ → Option σ} {s s' : σ}
    (h : foldFields (ungrouped step) (fs.map cutNumber) s = some s') {f : Field} (hf : f ∈ fs) :
    f.payload ≠ .group ∧ ∃ t t', step (cutNumber f) t = some t' := by
  induction fs generalizing s with
  | nil => cases hf
  | cons g fs ih =>
    rw [List.map_cons, foldFields_cons, Option.bind_eq_some_iff] at h
    obtain ⟨t, ht, hrest⟩ := h
    rcases List.mem_cons.mp hf with rfl | hf
    · unfold ungrouped at ht
      split at ht
      · cases ht
      · exact ⟨‹_›, s, t, ht⟩
    · exact ih hrest hf

/-- An element whose keys are exact is plain once the reference and the loop accept it. -/
theorem read_of_accepted {σ : Type} {step : Field → σ → Option σ}
    {body : Nat → Nat → Bytes → σ → Except GossipsubErr (Bytes × σ)} {known : List (Nat × Nat)}
    {soFar : List Field → Prop} {bs : Bytes} {s s' : σ} (hbody : Interprets body step)
    (hkeys : OfParse (KeysExact known) bs) (hlegal : OfParse Legal bs)
    (hloop : (fieldLoop body bs.length bs s).toOption = some s') :
    OfParse (Upto soFar (FieldExact known)) bs := by
  intro fs hfs
  rw [fieldLoop_toOption hbody _ _ _ (Nat.le_refl _), hfs, Option.bind_some] at hloop
  exact Upto.of_forall fun f hf =>
    ⟨hlegal fs hfs f hf, (foldFields_mem hloop hf).1, hkeys fs hfs f hf⟩

/-- The loop before a closing check that passes. -/
theorem loop_of_bind {ε α β : Type} {x : Except ε α} {k : α → Except ε β} {b : β}
    (h : (x >>= k).toOption = some b) : ∃ a, x.toOption = some a := by
  rw [toOption_bind, Option.bind_eq_some_iff] at h
  obtain ⟨a, ha, -⟩ := h
  exact ⟨a, ha⟩

theorem legal_of_nested {α : Type} {accept : List Field → Option α} {bs : Bytes}
    (h : (nestedMessage accept bs).isSome) : OfParse Legal bs := by
  intro fs hfs
  obtain ⟨gs, hgs⟩ : ∃ gs, legalFields bs = some gs := by
    rw [nestedMessage, Option.isSome_bind] at h
    exact Option.isSome_iff_exists.mp (Option.isSome_of_any h)
  obtain ⟨hparse, hlegal⟩ := legalFields_eq_some.mp hgs
  rw [hparse, Option.some.injEq] at hfs
  exact hfs ▸ hlegal

/-- A PRUNE whose keys are exact is plain once the reference and the decoder accept it. -/
theorem pruneRead_of_accepted {bs : Bytes} {cursor : DecodeCursor}
    {p : ControlPrune × DecodeCursor} (hkeys : OfParse PruneKeys bs)
    (href : (nestedMessage (schemaPrune limits) bs).isSome)
    (hcode : (pruneDecode limits storage (.ptr bs) cursor).toOption = some p) :
    OfParse (PruneRead limits) bs := by
  obtain ⟨s, hloop⟩ := loop_of_bind hcode
  have hlegal := legal_of_nested href
  have hread : OfParse (Upto (prunePeersSoFar limits) (FieldExact pruneKeys)) bs :=
    read_of_accepted (pruneField_interprets limits storage _) (fun fs hfs => (hkeys fs hfs).1)
      hlegal hloop
  refine fun fs hfs => ⟨hread fs hfs, Upto.of_forall ?_⟩
  rintro f hf b rfl
  rw [fieldLoop_toOption (pruneField_interprets limits storage _) _ _ _ (Nat.le_refl _), hfs,
    Option.bind_some] at hloop
  obtain ⟨-, t, t', ht⟩ := foldFields_mem hloop hf
  have hpeer : (nestedMessage (schemaPeerInfo limits) b).isSome := by
    rw [nestedMessage, legalFields_eq_some.mpr ⟨hfs, hlegal fs hfs⟩, Option.bind_some,
      schemaPrune, Option.bind_eq_bind, Option.isSome_bind] at href
    exact mapM_isSome.mp (Option.isSome_of_any href) b (mem_lens.mpr hf)
  have hdecode : ∃ x, (peerInfoDecode limits (.ptr b)).toOption = some x := by
    simp only [pruneStep, cutNumber, fieldPrunePeers, fieldPruneTopic, Nat.reducePow, Nat.reduceMod,
      Nat.reduceEqDiff, if_false, if_true] at ht
    split at ht
    · cases ht
    · obtain ⟨x, hx, -⟩ := Option.map_eq_some_iff.mp ht
      exact ⟨x, hx⟩
  obtain ⟨x, hx⟩ := hdecode
  exact read_of_accepted (peerInfoField_interprets limits)
    ((hkeys fs hfs).2 b (mem_lens.mpr hf)) (legal_of_nested hpeer) hx

theorem nestedSpan_eq_zero {p : Payload} (h : p.wire ≠ wireLen) : nestedSpan p = .zero := by
  cases p with
  | len b => exact absurd rfl h
  | _ => rfl

/-- A known field of another wire type stops the control decoder. -/
theorem controlStep_wrongWire {f : Field}
    {s s' : RpcControl × DecodeCursor} (hn : f.number ∈ controlNumbers)
    (h : controlStep limits storage f s = some s') : f.payload.wire = wireLen := by
  by_contra hw
  obtain ⟨out, cursor⟩ := s
  simp only [controlNumbers, List.mem_cons, List.not_mem_nil, or_false] at hn
  simp only [controlStep, nestedSpan_eq_zero hw] at h
  rcases hn with h1 | h1 | h1 | h1 | h1 <;> rw [h1] at h <;>
    simp [fieldControlIhave, fieldControlIwant, fieldControlGraft, fieldControlPrune,
      fieldControlIdontwant, Span.zero, ihaveDecode, iwantDecode, graftDecode, pruneDecode,
      idontwantDecode, bind, Except.bind] at h

/-- A known field of another wire type stops the RPC decoder. -/
theorem rpcStep_wrongWire {f : Field} {s s' : Rpc}
    (hn : f.number ∈ rpcNumbers) (h : rpcStep limits storage f s = some s') :
    f.payload.wire = wireLen := by
  by_contra hw
  simp only [rpcNumbers, List.mem_cons, List.not_mem_nil, or_false] at hn
  simp only [rpcStep, nestedSpan_eq_zero hw] at h
  rcases hn with h1 | h1 | h1 <;> rw [h1] at h <;>
    simp [fieldRpcSubscriptions, fieldRpcPublish, fieldRpcControl, Span.zero, subDecode,
      messageDecode, controlDecode] at h

/-- An element whose keys are exact is plain once the reference and the decoder accept it. -/
theorem elementPlain_of_accepted {n : Nat} {b : Bytes} {c : RpcControl}
    {s s' : RpcControl × DecodeCursor} (hn : n ∈ controlNumbers) (hkeys : elementNoAliases n b)
    (href : (controlElement limits ⟨n, .len b⟩ c).isSome)
    (hcode : controlStep limits storage ⟨n, .len b⟩ s = some s') : elementPlain limits n b := by
  obtain ⟨out, cursor⟩ := s
  simp only [controlNumbers, List.mem_cons, List.not_mem_nil, or_false] at hn
  rcases hn with rfl | rfl | rfl | rfl | rfl <;>
    simp only [controlStep, nestedSpan, controlElement, elementPlain, elementNoAliases,
      fieldControlIhave, fieldControlIwant, fieldControlGraft, fieldControlPrune,
      fieldControlIdontwant, Nat.reduceEqDiff, if_false, if_true, Option.isSome_map,
      Option.ite_none_left_eq_some, Option.map_eq_some_iff] at href hcode hkeys ⊢
  · obtain ⟨-, x, hx, -⟩ := hcode
    obtain ⟨s, hloop⟩ := loop_of_bind hx
    exact read_of_accepted (ihaveField_interprets limits storage _) hkeys (legal_of_nested href)
      hloop
  · obtain ⟨-, x, hx, -⟩ := hcode
    obtain ⟨s, hloop⟩ := loop_of_bind hx
    exact read_of_accepted (iwantField_interprets limits storage _) hkeys (legal_of_nested href)
      hloop
  · obtain ⟨-, x, hx, -⟩ := hcode
    obtain ⟨s, hloop⟩ := loop_of_bind hx
    exact read_of_accepted graftField_interprets hkeys (legal_of_nested href) hloop
  · obtain ⟨-, x, hx, -⟩ := hcode
    exact pruneRead_of_accepted hkeys href hx
  · obtain ⟨-, x, hx, -⟩ := hcode
    obtain ⟨y, hy⟩ := loop_of_bind hx
    obtain ⟨s, hloop⟩ := loop_of_bind hy
    exact read_of_accepted (iwantField_interprets limits storage _) hkeys (legal_of_nested href)
      hloop

/-- The same for a control section. -/
theorem controlPlain_of_accepted {bs : Bytes} {c : RpcControl}
    (hkeys : OfParse ControlNoAliases bs) (href : (nestedMessage (schemaControl limits) bs).isSome)
    (hcode : (controlDecode limits storage (.ptr bs)).toOption = some c) :
    OfParse (ControlPlain limits) bs := by
  have hlegal := legal_of_nested href
  obtain ⟨s, hloop⟩ := loop_of_bind hcode
  refine fun fs hfs => Upto.of_forall fun f hf => ?_
  rw [fieldLoop_toOption (controlField_interprets limits storage) _ _ _ (Nat.le_refl _), hfs,
    Option.bind_some] at hloop
  obtain ⟨hgroup, t, t', ht⟩ := foldFields_mem hloop hf
  refine ⟨hlegal fs hfs f hf, hgroup, fun hknown => ?_⟩
  obtain ⟨hlt, helement⟩ := hkeys fs hfs f hf hknown
  rw [Nat.mod_eq_of_lt hlt] at hknown
  rw [cutNumber_of_lt hlt] at ht
  obtain ⟨b, hb⟩ := wire_len (controlStep_wrongWire hknown ht)
  have haccepted : elementsSoFar limits [f] := by
    obtain ⟨d, hd⟩ := Option.isSome_iff_exists.mp href
    rw [nestedMessage, legalFields_eq_some.mpr ⟨hfs, hlegal fs hfs⟩, Option.bind_some] at hd
    refine elementsSoFar_sublist (List.singleton_sublist.mpr hf) ?_
    rw [elementsSoFar, (schemaControl_eq_some.mp hd).1]
    rfl
  obtain ⟨number, payload⟩ := f
  subst hb
  rw [elementsSoFar, ← List.nil_append [_], schemaControlLists_snoc, schemaControlLists_nil,
    Option.bind_some] at haccepted
  exact ⟨hlt, b, rfl, elementPlain_of_accepted hknown (helement b rfl) haccepted ht⟩

/-- The same for a body. -/
theorem rpcPlain_of_accepted {rpc out : Rpc} (hkeys : NoAliases fs) (hlegal : Legal fs)
    (href : schemaRpc limits fs = some rpc)
    (hcode : foldFields (ungrouped (rpcStep limits storage)) (fs.map cutNumber) .zero = some out) :
    RpcPlain limits fs := by
  refine Upto.of_forall fun f hf => ?_
  obtain ⟨hgroup, t, t', ht⟩ := foldFields_mem hcode hf
  refine ⟨hlegal f hf, hgroup, fun hknown => ?_⟩
  obtain ⟨hlt, hsection⟩ := hkeys f hf hknown
  rw [Nat.mod_eq_of_lt hlt] at hknown
  rw [cutNumber_of_lt hlt] at ht
  obtain ⟨b, hb⟩ := wire_len (rpcStep_wrongWire hknown ht)
  have hsofar := sectionsSoFar_of_schemaRpc href
  have hsection := hsection b hb
  obtain ⟨number, payload⟩ := f
  subst hb
  refine ⟨hlt, b, rfl, ?_⟩
  simp only [rpcNumbers, List.mem_cons, List.not_mem_nil, or_false] at hknown
  rcases hknown with rfl | rfl | rfl <;>
    simp only [rpcStep, nestedSpan, sectionPlain, fieldRpcSubscriptions, fieldRpcPublish,
      fieldRpcControl, Nat.reduceEqDiff, if_false, if_true, Option.ite_none_left_eq_some,
      Option.map_eq_some_iff] at ht hsection ⊢
  · obtain ⟨-, x, hx, -⟩ := ht
    obtain ⟨s, hloop⟩ := loop_of_bind hx
    exact read_of_accepted (subField_interprets limits) hsection
      (legal_of_nested (hsofar.1 b (mem_lens.mpr hf))) hloop
  · obtain ⟨-, x, hx, -⟩ := ht
    obtain ⟨s, hloop⟩ := loop_of_bind hx
    exact read_of_accepted (messageField_interprets limits) hsection
      (legal_of_nested (hsofar.2.1 b (mem_lens.mpr hf))) hloop
  · obtain ⟨x, hx, -⟩ := ht
    exact controlPlain_of_accepted hsection (hsofar.2.2 b (mem_lens.mpr hf)) hx

/-- If the last section alone already is the merge, the others have no elements. -/
theorem noLostControl_of_merge {init : List (List Field)} {last : List Field}
    {c : RpcControl} (hall : schemaControl limits (init ++ [last]).flatten = some c)
    (hlast : schemaControl limits last = some c) : ∀ fs ∈ init, NoElements fs := by
  intro fs hfs n hn
  have hcount := schemaControlLists_count (schemaControl_eq_some.mp hall).1 hn
  rw [schemaControlLists_count (schemaControl_eq_some.mp hlast).1 hn, List.flatten_append, lens_append,
    List.length_append] at hcount
  have hnil : lens n init.flatten = [] := by
    rw [← List.length_eq_zero_iff]
    simp at hcount
    simpa using hcount
  rw [lens_flatten, List.flatten_eq_nil_iff] at hnil
  exact hnil _ (List.mem_map_of_mem hfs)

theorem noLostControl_of_accepted {rpc : Rpc} (href : schemaRpc limits fs = some rpc)
    (hcode : collectedRpc limits storage fs = some rpc) :
    NoLostControl limits fs := by
  simp only [collectedRpc, Option.bind_eq_bind, Option.pure_def, Option.bind_eq_some_iff,
    Option.some.injEq] at hcode
  obtain ⟨subs, _, pubs, _, controls, hcontrols, rfl⟩ := hcode
  simp only [schemaRpc, Option.bind_eq_bind, Option.bind_eq_some_iff] at href
  obtain ⟨_, -, _, -, sections, hsections, control, hcontrol, href⟩ := href
  split at href
  swap
  · cases href
  simp only [Option.some.injEq, Rpc.mk.injEq] at href
  obtain ⟨-, -, rfl⟩ := href
  rintro pre b post rfl -
  rcases List.eq_nil_or_concat (b :: lens fieldRpcControl post) with hnil | ⟨init, last, hsnoc⟩
  · cases hnil
  rw [List.concat_eq_append] at hsnoc
  rw [lens_append, lens_cons_len, if_pos rfl, hsnoc, ← List.append_assoc] at hcontrols hsections
  obtain ⟨cs, clast, -, hclast, rfl⟩ := (mapM_snoc _ _ _ _).mp hcontrols
  obtain ⟨secs, flast, hsecs, hflast, rfl⟩ := (mapM_snoc _ _ _ _).mp hsections
  have hlast : schemaControl limits flast = some clast := by
    rw [controlSection, nestedMessage, hflast, Option.bind_some, Option.bind_eq_some_iff] at hclast
    obtain ⟨c, hc, hfits⟩ := hclast
    split at hfits
    · rwa [← hfits]
    · cases hfits
  rw [List.getLast?_concat, Option.getD_some] at hcontrol
  have hnone := noLostControl_of_merge hcontrol hlast
  intro c hc gs hgs
  obtain ⟨ws, hws⟩ := mapM_sublist (List.sublist_append_left _ init) hsecs
  have hlegal := mapM_isSome.mp (by rw [hsecs]; rfl) c (List.mem_append_left init hc)
  obtain ⟨ks, hks⟩ := Option.isSome_iff_exists.mp hlegal
  have hparse := (legalFields_eq_some.mp hks).1
  rw [hparse, Option.some.injEq] at hgs
  exact hnone gs (mem_of_mapM hsecs c (List.mem_append_left init hc) gs (hgs ▸ hks))

/-! ## The result -/

/-- Up to the first error the input has none of the things that the decoder reads otherwise:
    a field with the number zero, a group, a key of 2^32 or more that is cut to a known number,
    a known field of another wire type, and a control section with elements before another. -/
def SchemaInput (limits : Limits) (bs : Bytes) : Prop :=
  OfParse (fun fs => RpcPlain limits fs ∧ NoLostControl limits fs) bs

/-- Within the limits and with room in the storage, every input that reaches none of the
    defects is read as the schema reads it; and where no key is cut to a known number, an input
    that the schema accepts is read so only then. -/
theorem rpcBodyDecode_conforms (version : ProtocolVersion) (limits : Limits)
    (storage : DecodeStorage) (bs : Bytes) (hv : versionValidate version = .ok ())
    (hl : limitsValidate limits = .ok ()) (hlen : bs.length ≤ limits.maxRpcBytes)
    (hroom : ∀ rpc, referenceDecode limits bs = some rpc → rpcFits storage rpc) :
    (SchemaInput limits bs → Conforms version limits storage bs) ∧
      (OfParse NoAliases bs → (referenceDecode limits bs).isSome →
        (Conforms version limits storage bs ↔ SchemaInput limits bs)) := by
  have hsound : SchemaInput limits bs → Conforms version limits storage bs := by
    intro h
    rw [Conforms, rpcBodyDecode_plain hv hl hlen (fun fs hfs => (h fs hfs).1)
      fun fs hfs => (h fs hfs).2]
    cases href : referenceDecode limits bs with
    | none => rfl
    | some rpc => rw [Option.bind_some, if_pos (hroom rpc href)]
  refine ⟨hsound, fun ha hsome => ⟨fun hconf fs hfs => ?_, hsound⟩⟩
  have hlegal := legal_of_nested hsome fs hfs
  obtain ⟨rpc, href⟩ := Option.isSome_iff_exists.mp hsome
  rw [Conforms, href, rpcBodyDecode_toOption hv hl hlen, hfs, Option.bind_some,
    Option.bind_eq_some_iff] at hconf
  rw [referenceDecode, nestedMessage, legalFields_eq_some.mpr ⟨hfs, hlegal⟩,
    Option.bind_some] at href
  obtain ⟨out, hfold, hout⟩ := hconf
  have hplain := rpcPlain_of_accepted (ha fs hfs) hlegal href hfold
  rw [rpcFold limits storage fs hplain, Option.bind_eq_some_iff] at hfold
  obtain ⟨out', hcollected, hfit⟩ := hfold
  split at hfit
  swap
  · cases hfit
  cases hfit
  split at hout
  swap
  · cases hout
  cases hout
  exact ⟨hplain, noLostControl_of_accepted href hcollected⟩

/-- Decode storage with eight entries of each kind. -/
def smallStorage : DecodeStorage := ⟨8, 8, 8, 8, 8, 8, 8, 8, 8⟩

theorem ofParse_of_eq {P : List Field → Prop} {bs : Bytes} (h : parse uvarintCode bs = some fs)
    (hP : P fs) : OfParse P bs := by
  intro gs hgs
  rw [h, Option.some.injEq] at hgs
  rwa [← hgs]

set_option maxRecDepth 4000 in
/-- One subscription to the topic `7` is such an input. -/
theorem rpcBodyDecode_conforms_subscription :
    Conforms .v12 defaultLimits smallStorage [10, 3, 18, 1, 7] := by
  have hparse : parse uvarintCode [10, 3, 18, 1, 7] = some [⟨1, .len [18, 1, 7]⟩] := by decide
  have hnested : parse uvarintCode [18, 1, 7] = some [⟨2, .len [7]⟩] := by decide
  have href : referenceDecode defaultLimits [10, 3, 18, 1, 7] = some ⟨[⟨.ptr [7], 0⟩], [], .zero⟩ := by
    decide
  refine (rpcBodyDecode_conforms .v12 defaultLimits smallStorage [10, 3, 18, 1, 7] (by decide)
    (by decide) (by decide) fun rpc hrpc => ?_).1 (ofParse_of_eq hparse ⟨?_, ?_⟩)
  · rw [href, Option.some.injEq] at hrpc
    rw [← hrpc]
    decide
  · refine Upto.of_forall fun f hf => ?_
    obtain rfl := List.mem_singleton.mp hf
    refine ⟨by decide, by decide, fun _ => ⟨by decide, _, rfl, ?_⟩⟩
    refine ofParse_of_eq hnested (Upto.of_forall fun g hg => ?_)
    obtain rfl := List.mem_singleton.mp hg
    exact ⟨by decide, by decide, fun _ => by decide⟩
  · intro pre b post hfs
    have hmem : (⟨fieldRpcControl, .len b⟩ : Field) ∈ [⟨1, .len [18, 1, 7]⟩] := by simp [hfs]
    simp [fieldRpcControl] at hmem

set_option maxRecDepth 4000 in
/-- A subscription number with a varint, a key of 2^32 + 1, an empty group, and a GRAFT in each
    of two control sections: the schema accepts all four within the limits, the decoder refuses
    the first three and drops the first GRAFT of the last. A field with the number zero is no
    protobuf, and the decoder passes over it. -/
theorem rpcBodyDecode_not_conforms :
    versionValidate .v12 = .ok () ∧ limitsValidate defaultLimits = .ok () ∧
    (referenceDecode defaultLimits [8, 1] = some .zero ∧
      ¬ Conforms .v12 defaultLimits smallStorage [8, 1]) ∧
    (referenceDecode defaultLimits [138, 128, 128, 128, 128, 1, 0] = some .zero ∧
      ¬ Conforms .v12 defaultLimits smallStorage [138, 128, 128, 128, 128, 1, 0]) ∧
    (referenceDecode defaultLimits [35, 36] = some .zero ∧
      ¬ Conforms .v12 defaultLimits smallStorage [35, 36]) ∧
    (referenceDecode defaultLimits [0, 0] = none ∧
      rpcBodyDecode .v12 defaultLimits smallStorage [0, 0] = .ok .zero) ∧
    referenceDecode defaultLimits [26, 5, 26, 3, 10, 1, 7, 26, 5, 26, 3, 10, 1, 8] =
      some ⟨[], [], ⟨[], [], [⟨.ptr [7]⟩, ⟨.ptr [8]⟩], [], []⟩⟩ ∧
    rpcBodyDecode .v12 defaultLimits smallStorage [26, 5, 26, 3, 10, 1, 7, 26, 5, 26, 3, 10, 1, 8] =
      .ok ⟨[], [], ⟨[], [], [⟨.ptr [8]⟩], [], []⟩⟩ ∧
    ¬ Conforms .v12 defaultLimits smallStorage [26, 5, 26, 3, 10, 1, 7, 26, 5, 26, 3, 10, 1, 8] := by
  decide

end LeanLibp2p.Gossipsub
