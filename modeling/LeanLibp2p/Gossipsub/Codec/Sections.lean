import LeanLibp2p.Gossipsub.Codec.Elements

/-!
# The control section and the RPC body against the schema

The outer two loops read every field of another wire type as a NULL span and then still
look at its number, and the control decoder starts its section from zero. So their fold is
the schema's reading only on a plain input: one in which, up to the first error, no field is
a group or has the number zero, and each key that is cut to a known number is that number, is
length-delimited, and holds a plain element.
-/

namespace LeanLibp2p.Gossipsub

open LeanLibp2p.Lib.Protobuf

variable (limits : Limits) (storage : DecodeStorage)
variable (c : RpcControl)

attribute [local simp] fieldControlIhave fieldControlIwant fieldControlGraft fieldControlPrune
  fieldControlIdontwant fieldRpcSubscriptions fieldRpcPublish fieldRpcControl

/-- The span that `nested` holds after a payload was read. -/
def nestedSpan : Payload → Span
  | .len b => .ptr b
  | _ => .zero

theorem readNested_toOption (wire : Nat) (rest : Bytes) :
    (readNested wire rest).toOption =
      (readScalar uvarintCode wire rest).map fun p => (nestedSpan p.1, p.2) := by
  unfold readNested
  by_cases hw : wire = wireLen
  · subst hw
    rw [if_neg (by simp), ← readLenSpan_toOption]
    cases hr : readLenSpan rest with
    | error e => rfl
    | ok p =>
      obtain ⟨span, rest'⟩ := p
      rw [readLenSpan_ptr hr]
      rfl
  · rw [if_pos hw, toOption_bind, skipField_toOption]
    cases hp : readScalar uvarintCode wire rest with
    | none => rfl
    | some p =>
      obtain ⟨payload, rest'⟩ := p
      have hpw := readScalar_wire uvarintCode hp
      cases payload with
      | len b => exact absurd hpw.symm hw
      | _ => rfl

/-- A body that starts with `readNested` acts on the span of the payload. -/
theorem nested_interprets {σ : Type} {step : Field → σ → Option σ} {number wire : Nat}
    {rest : Bytes} {s : σ} {body : Span × Bytes → Except GossipsubErr (Bytes × σ)}
    (h : ∀ payload rest, (body (nestedSpan payload, rest)).toOption =
      (step ⟨number, payload⟩ s).map fun s' => (rest, s')) :
    (readNested wire rest >>= body).toOption =
      (readScalar uvarintCode wire rest).bind fun p =>
        (step ⟨number, p.1⟩ s).map fun s' => (p.2, s') := by
  rw [toOption_bind, readNested_toOption]
  cases readScalar uvarintCode wire rest with
  | none => rfl
  | some p => simp [h]

/-! ## The control section -/

def controlStep (f : Field) (s : RpcControl × DecodeCursor) : Option (RpcControl × DecodeCursor) :=
  let (out, cursor) := s
  let nested := nestedSpan f.payload
  if f.number = fieldControlIhave then
    if storage.ihaveCapacity ≤ out.ihave.length then none
    else (ihaveDecode limits storage nested cursor).toOption.map fun p =>
      ({ out with ihave := out.ihave ++ [p.1] }, p.2)
  else if f.number = fieldControlIwant then
    if storage.iwantCapacity ≤ out.iwant.length then none
    else (iwantDecode limits storage nested cursor).toOption.map fun p =>
      ({ out with iwant := out.iwant ++ [p.1] }, p.2)
  else if f.number = fieldControlGraft then
    if storage.graftCapacity ≤ out.graft.length then none
    else (graftDecode limits nested).toOption.map fun x =>
      ({ out with graft := out.graft ++ [x] }, cursor)
  else if f.number = fieldControlPrune then
    if storage.pruneCapacity ≤ out.prune.length then none
    else (pruneDecode limits storage nested cursor).toOption.map fun p =>
      ({ out with prune := out.prune ++ [p.1] }, p.2)
  else if f.number = fieldControlIdontwant then
    if storage.idontwantCapacity ≤ out.idontwant.length then none
    else (idontwantDecode limits storage nested cursor).toOption.map fun p =>
      ({ out with idontwant := out.idontwant ++ [p.1] }, p.2)
  else some (out, cursor)

theorem controlField_interprets :
    Interprets (controlField limits storage) (controlStep limits storage) := by
  intro number wire rest s
  obtain ⟨out, cursor⟩ := s
  unfold controlField
  refine nested_interprets fun payload rest => ?_
  simp only [controlStep]
  by_cases h1 : number = fieldControlIhave
  · simp only [if_pos h1]
    split
    · rfl
    · cases ihaveDecode limits storage (nestedSpan payload) cursor <;> rfl
  by_cases h2 : number = fieldControlIwant
  · simp only [if_neg h1, if_pos h2]
    split
    · rfl
    · cases iwantDecode limits storage (nestedSpan payload) cursor <;> rfl
  by_cases h3 : number = fieldControlGraft
  · simp only [if_neg h1, if_neg h2, if_pos h3]
    split
    · rfl
    · cases graftDecode limits (nestedSpan payload) <;> rfl
  by_cases h4 : number = fieldControlPrune
  · simp only [if_neg h1, if_neg h2, if_neg h3, if_pos h4]
    split
    · rfl
    · cases pruneDecode limits storage (nestedSpan payload) cursor <;> rfl
  by_cases h5 : number = fieldControlIdontwant
  · simp only [if_neg h1, if_neg h2, if_neg h3, if_neg h4, if_pos h5]
    split
    · rfl
    · cases idontwantDecode limits storage (nestedSpan payload) cursor <;> rfl
  · simp only [if_neg h1, if_neg h2, if_neg h3, if_neg h4, if_neg h5]
    rfl

/-- The pool cursor after the elements of a section. -/
def cursorOf (c : RpcControl) : DecodeCursor :=
  ⟨(c.ihave.map fun x => x.messageIds.length).sum + (c.iwant.map fun x => x.messageIds.length).sum +
      (c.idontwant.map fun x => x.messageIds.length).sum,
    (c.prune.map fun x => x.peers.length).sum⟩

/-- The decode storage has room for the elements of a section. -/
def controlFits (c : RpcControl) : Prop :=
  c.ihave.length ≤ storage.ihaveCapacity ∧ c.iwant.length ≤ storage.iwantCapacity ∧
    c.graft.length ≤ storage.graftCapacity ∧ c.prune.length ≤ storage.pruneCapacity ∧
    c.idontwant.length ≤ storage.idontwantCapacity ∧
    (cursorOf c).messageIdNext ≤ storage.messageIdCapacity ∧
    (cursorOf c).peerInfoNext ≤ storage.peerInfoCapacity

instance (c : RpcControl) : Decidable (controlFits storage c) :=
  inferInstanceAs (Decidable (_ ∧ _ ∧ _ ∧ _ ∧ _ ∧ _ ∧ _))

/-- The schema's reading of one more field of a section. -/
def controlElement (f : Field) (c : RpcControl) : Option RpcControl :=
  match f.payload with
  | .len b =>
    if f.number = fieldControlIhave then
      (nestedMessage (schemaIhave limits) b).map fun x => { c with ihave := c.ihave ++ [x] }
    else if f.number = fieldControlIwant then
      (nestedMessage (schemaIds fieldIwantMessageIds limits) b).map fun ids =>
        { c with iwant := c.iwant ++ [⟨ids⟩] }
    else if f.number = fieldControlGraft then
      (nestedMessage (schemaGraft limits) b).map fun x => { c with graft := c.graft ++ [x] }
    else if f.number = fieldControlPrune then
      (nestedMessage (schemaPrune limits) b).map fun x => { c with prune := c.prune ++ [x] }
    else if f.number = fieldControlIdontwant then
      (nestedMessage (schemaIds fieldIdontwantMessageIds limits) b).map fun ids =>
        { c with idontwant := c.idontwant ++ [⟨ids⟩] }
    else some c
  | _ => some c

theorem schemaControlLists_nil : schemaControlLists limits [] = some .zero := by
  simp [schemaControlLists, RpcControl.zero]

theorem schemaControlLists_snoc (fs : List Field) (f : Field) :
    schemaControlLists limits (fs ++ [f]) =
      (schemaControlLists limits fs).bind (controlElement limits f) := by
  obtain ⟨number, payload⟩ := f
  cases payload with
  | len b =>
    by_cases h1 : number = fieldControlIhave
    · cases hn : nestedMessage (schemaIhave limits) b <;>
        simp [schemaControlLists, controlElement, h1, hn, Option.bind_assoc]
    by_cases h2 : number = fieldControlIwant
    · cases hn : nestedMessage (schemaIds fieldIwantMessageIds limits) b <;>
        simp [schemaControlLists, controlElement, h2, hn, Option.bind_assoc]
    by_cases h3 : number = fieldControlGraft
    · cases hn : nestedMessage (schemaGraft limits) b <;>
        simp [schemaControlLists, controlElement, h3, hn, Option.bind_assoc]
    by_cases h4 : number = fieldControlPrune
    · cases hn : nestedMessage (schemaPrune limits) b <;>
        simp [schemaControlLists, controlElement, h4, hn, Option.bind_assoc]
    by_cases h5 : number = fieldControlIdontwant
    · cases hn : nestedMessage (schemaIds fieldIdontwantMessageIds limits) b <;>
        simp [schemaControlLists, controlElement, h5, hn, Option.bind_assoc]
    · simp_all [schemaControlLists, controlElement, Option.bind_assoc]
  | _ => simp [schemaControlLists, controlElement, Option.bind_assoc]

theorem cursorOf_ihave (x : ControlIhave) :
    cursorOf { c with ihave := c.ihave ++ [x] } =
      { cursorOf c with messageIdNext := (cursorOf c).messageIdNext + x.messageIds.length } := by
  simp [cursorOf]; omega

theorem cursorOf_iwant (x : ControlIwant) :
    cursorOf { c with iwant := c.iwant ++ [x] } =
      { cursorOf c with messageIdNext := (cursorOf c).messageIdNext + x.messageIds.length } := by
  simp [cursorOf]; omega

theorem cursorOf_idontwant (x : ControlIdontwant) :
    cursorOf { c with idontwant := c.idontwant ++ [x] } =
      { cursorOf c with messageIdNext := (cursorOf c).messageIdNext + x.messageIds.length } := by
  simp [cursorOf]; omega

theorem cursorOf_graft (x : ControlGraft) :
    cursorOf { c with graft := c.graft ++ [x] } = cursorOf c := rfl

theorem cursorOf_prune (x : ControlPrune) :
    cursorOf { c with prune := c.prune ++ [x] } =
      { cursorOf c with peerInfoNext := (cursorOf c).peerInfoNext + x.peers.length } := by
  simp [cursorOf]

/-- The element behind a known number of the section is plain. -/
def elementPlain (number : Nat) (b : Bytes) : Prop :=
  if number = fieldControlIhave then OfParse (IhaveRead limits) b
  else if number = fieldControlGraft then OfParse GraftRead b
  else if number = fieldControlPrune then OfParse (PruneRead limits) b
  else OfParse (IwantRead limits) b

/-- The known numbers of a control section. -/
def controlNumbers : List Nat :=
  [fieldControlIhave, fieldControlIwant, fieldControlGraft, fieldControlPrune,
    fieldControlIdontwant]

/-- The number is not zero, the field not a group, and a key that is cut to one of the
    `numbers` is that number, length-delimited, its content plain. -/
def FieldPlain (numbers : List Nat) (plain : Nat → Bytes → Prop) (f : Field) : Prop :=
  f.number ≠ 0 ∧ f.payload ≠ .group ∧
    (f.number % 2 ^ 32 ∈ numbers → f.number < 2 ^ 32 ∧ ∃ b, f.payload = .len b ∧ plain f.number b)

theorem FieldPlain.step_ungrouped {σ : Type} (step : Field → σ → Option σ) {numbers : List Nat}
    {plain : Nat → Bytes → Prop} {f : Field} (h : FieldPlain numbers plain f) {s : σ} :
    ungrouped step (cutNumber f) s = step (cutNumber f) s :=
  if_neg h.2.1

/-- The elements of the section are accepted so far. -/
def elementsSoFar (fs : List Field) : Prop := (schemaControlLists limits fs).isSome

/-- Up to the first element that is refused, every field of the section is plain. -/
def ControlPlain : List Field → Prop :=
  Upto (elementsSoFar limits) (FieldPlain controlNumbers (elementPlain limits))

theorem controlFits_ihave {storage : DecodeStorage} {c : RpcControl} (hc : controlFits storage c)
    (x : ControlIhave) : controlFits storage { c with ihave := c.ihave ++ [x] } ↔
      c.ihave.length < storage.ihaveCapacity ∧
        (cursorOf c).messageIdNext + x.messageIds.length ≤ storage.messageIdCapacity := by
  obtain ⟨h1, h2, h3, h4, h5, h6, h7⟩ := hc
  simp only [controlFits, cursorOf_ihave, List.length_append, List.length_singleton]
  omega

theorem controlFits_iwant {storage : DecodeStorage} {c : RpcControl} (hc : controlFits storage c)
    (x : ControlIwant) : controlFits storage { c with iwant := c.iwant ++ [x] } ↔
      c.iwant.length < storage.iwantCapacity ∧
        (cursorOf c).messageIdNext + x.messageIds.length ≤ storage.messageIdCapacity := by
  obtain ⟨h1, h2, h3, h4, h5, h6, h7⟩ := hc
  simp only [controlFits, cursorOf_iwant, List.length_append, List.length_singleton]
  omega

theorem controlFits_graft {storage : DecodeStorage} {c : RpcControl} (hc : controlFits storage c)
    (x : ControlGraft) : controlFits storage { c with graft := c.graft ++ [x] } ↔
      c.graft.length < storage.graftCapacity := by
  obtain ⟨h1, h2, h3, h4, h5, h6, h7⟩ := hc
  simp only [controlFits, cursorOf_graft, List.length_append, List.length_singleton]
  omega

theorem controlFits_prune {storage : DecodeStorage} {c : RpcControl} (hc : controlFits storage c)
    (x : ControlPrune) : controlFits storage { c with prune := c.prune ++ [x] } ↔
      c.prune.length < storage.pruneCapacity ∧
        (cursorOf c).peerInfoNext + x.peers.length ≤ storage.peerInfoCapacity := by
  obtain ⟨h1, h2, h3, h4, h5, h6, h7⟩ := hc
  simp only [controlFits, cursorOf_prune, List.length_append, List.length_singleton]
  omega

theorem controlFits_idontwant {storage : DecodeStorage} {c : RpcControl}
    (hc : controlFits storage c) (x : ControlIdontwant) :
    controlFits storage { c with idontwant := c.idontwant ++ [x] } ↔
      c.idontwant.length < storage.idontwantCapacity ∧
        (cursorOf c).messageIdNext + x.messageIds.length ≤ storage.messageIdCapacity := by
  obtain ⟨h1, h2, h3, h4, h5, h6, h7⟩ := hc
  simp only [controlFits, cursorOf_idontwant, List.length_append, List.length_singleton]
  omega

/-- On a plain field the loop adds the schema's element, as far as the storage reaches. -/
theorem controlStep_plain {f : Field} {c : RpcControl}
    (hf : FieldPlain controlNumbers (elementPlain limits) f) (hc : controlFits storage c) :
    controlStep limits storage (cutNumber f) (c, cursorOf c) =
      (controlElement limits f c).bind fun c' =>
        if controlFits storage c' then some (c', cursorOf c') else none := by
  have hids : (cursorOf c).messageIdNext ≤ storage.messageIdCapacity := hc.2.2.2.2.2.1
  have hpeers : (cursorOf c).peerInfoNext ≤ storage.peerInfoCapacity := hc.2.2.2.2.2.2
  by_cases hknown : f.number % 2 ^ 32 ∈ controlNumbers
  · obtain ⟨hlt, b, hb, hplain⟩ := hf.2.2 hknown
    rw [cutNumber_of_lt hlt]
    obtain ⟨number, payload⟩ := f
    subst hb
    rw [Nat.mod_eq_of_lt hlt] at hknown
    simp only [controlNumbers, List.mem_cons, List.not_mem_nil, or_false] at hknown
    rcases hknown with rfl | rfl | rfl | rfl | rfl
    · have hdec := ihaveDecode_schema limits storage (cursorOf c) hids hplain
      cases hn : nestedMessage (schemaIhave limits) b with
      | none => simp [controlStep, nestedSpan, hdec, controlElement, hn]
      | some x =>
        by_cases hl : c.ihave.length < storage.ihaveCapacity
        · by_cases hp : (cursorOf c).messageIdNext + x.messageIds.length ≤ storage.messageIdCapacity
          · simp [controlStep, nestedSpan, hdec, controlElement, hn, controlFits_ihave hc,
              cursorOf_ihave, hl, hp, Nat.not_le.mpr hl]
          · simp [controlStep, nestedSpan, hdec, controlElement, hn, controlFits_ihave hc, hp]
        · simp [controlStep, controlElement, hn, controlFits_ihave hc, hl, Nat.not_lt.mp hl]
    · have hdec := iwantDecode_schema limits storage (cursorOf c) hids hplain
      cases hn : nestedMessage (schemaIds fieldIwantMessageIds limits) b with
      | none => simp [controlStep, nestedSpan, hdec, controlElement, hn]
      | some x =>
        by_cases hl : c.iwant.length < storage.iwantCapacity
        · by_cases hp : (cursorOf c).messageIdNext + x.length ≤ storage.messageIdCapacity
          · simp [controlStep, nestedSpan, hdec, controlElement, hn, controlFits_iwant hc,
              cursorOf_iwant, hl, hp, Nat.not_le.mpr hl]
          · simp [controlStep, nestedSpan, hdec, controlElement, hn, controlFits_iwant hc, hp]
        · simp [controlStep, controlElement, hn, controlFits_iwant hc, hl, Nat.not_lt.mp hl]
    · have hdec := graftDecode_schema limits (show OfParse GraftRead b from hplain)
      cases hn : nestedMessage (schemaGraft limits) b with
      | none => simp [controlStep, nestedSpan, hdec, controlElement, hn]
      | some x =>
        by_cases hl : c.graft.length < storage.graftCapacity
        · simp [controlStep, nestedSpan, hdec, controlElement, hn, controlFits_graft hc,
            cursorOf_graft, hl, Nat.not_le.mpr hl]
        · simp [controlStep, controlElement, hn, controlFits_graft hc, hl, Nat.not_lt.mp hl]
    · have hdec := pruneDecode_schema limits storage (cursorOf c) hpeers hplain
      cases hn : nestedMessage (schemaPrune limits) b with
      | none => simp [controlStep, nestedSpan, hdec, controlElement, hn]
      | some x =>
        by_cases hl : c.prune.length < storage.pruneCapacity
        · by_cases hp : (cursorOf c).peerInfoNext + x.peers.length ≤ storage.peerInfoCapacity
          · simp [controlStep, nestedSpan, hdec, controlElement, hn, controlFits_prune hc,
              cursorOf_prune, hl, hp, Nat.not_le.mpr hl]
          · simp [controlStep, nestedSpan, hdec, controlElement, hn, controlFits_prune hc, hp]
        · simp [controlStep, controlElement, hn, controlFits_prune hc, hl, Nat.not_lt.mp hl]
    · have hdec := idontwantDecode_schema limits storage (cursorOf c) hids hplain
      cases hn : nestedMessage (schemaIds fieldIdontwantMessageIds limits) b with
      | none => simp [controlStep, nestedSpan, hdec, controlElement, hn]
      | some x =>
        by_cases hl : c.idontwant.length < storage.idontwantCapacity
        · by_cases hp : (cursorOf c).messageIdNext + x.length ≤ storage.messageIdCapacity
          · simp [controlStep, nestedSpan, hdec, controlElement, hn, controlFits_idontwant hc,
              cursorOf_idontwant, hl, hp, Nat.not_le.mpr hl]
          · simp [controlStep, nestedSpan, hdec, controlElement, hn, controlFits_idontwant hc, hp]
        · simp [controlStep, controlElement, hn, controlFits_idontwant hc, hl, Nat.not_lt.mp hl]
  · have hnot : f.number ∉ controlNumbers := by
      intro hmem
      have hlt : f.number < 2 ^ 32 := by
        simp only [controlNumbers, List.mem_cons, List.not_mem_nil, or_false] at hmem
        rcases hmem with h | h | h | h | h <;> rw [h] <;> decide
      exact hknown (by rwa [Nat.mod_eq_of_lt hlt])
    have helem : controlElement limits f c = some c := by
      obtain ⟨number, payload⟩ := f
      cases payload <;> simp_all [controlElement, controlNumbers]
    have hstep : controlStep limits storage (cutNumber f) (c, cursorOf c) =
        some (c, cursorOf c) := by
      simp_all [controlStep, cutNumber, controlNumbers]
    rw [hstep, helem, Option.bind_some, if_pos hc]

/-- One more element never makes room. -/
theorem controlFits_of_element {limits : Limits} {storage : DecodeStorage} {f : Field}
    {c c' : RpcControl} (h : controlElement limits f c = some c') (hc : controlFits storage c') :
    controlFits storage c := by
  obtain ⟨h1, h2, h3, h4, h5, h6, h7⟩ := hc
  obtain ⟨number, payload⟩ := f
  cases payload with
  | len b =>
    simp only [controlElement] at h
    split at h
    · obtain ⟨x, -, rfl⟩ := Option.map_eq_some_iff.mp h
      simp only [cursorOf_ihave, List.length_append] at h1 h6 h7
      exact ⟨by omega, h2, h3, h4, h5, by omega, h7⟩
    split at h
    · obtain ⟨x, -, rfl⟩ := Option.map_eq_some_iff.mp h
      simp only [cursorOf_iwant, List.length_append] at h2 h6 h7
      exact ⟨h1, by omega, h3, h4, h5, by omega, h7⟩
    split at h
    · obtain ⟨x, -, rfl⟩ := Option.map_eq_some_iff.mp h
      simp only [cursorOf_graft, List.length_append] at h3 h6 h7
      exact ⟨h1, h2, by omega, h4, h5, h6, h7⟩
    split at h
    · obtain ⟨x, -, rfl⟩ := Option.map_eq_some_iff.mp h
      simp only [cursorOf_prune, List.length_append] at h4 h6 h7
      exact ⟨h1, h2, h3, by omega, h5, h6, by omega⟩
    split at h
    · obtain ⟨x, -, rfl⟩ := Option.map_eq_some_iff.mp h
      simp only [cursorOf_idontwant, List.length_append] at h5 h6 h7
      exact ⟨h1, h2, h3, h4, by omega, by omega, h7⟩
    · cases h
      exact ⟨h1, h2, h3, h4, h5, h6, h7⟩
  | _ =>
    cases h
    exact ⟨h1, h2, h3, h4, h5, h6, h7⟩

theorem controlFits_zero : controlFits storage .zero := by
  simp [controlFits, RpcControl.zero, cursorOf]

theorem controlFold (fs : List Field) (h : ControlPlain limits fs) :
    foldFields (ungrouped (controlStep limits storage)) (fs.map cutNumber) (.zero, ⟨0, 0⟩) =
      (schemaControlLists limits fs).bind fun c =>
        if controlFits storage c then some (c, cursorOf c) else none := by
  induction fs using List.reverseRecOn with
  | nil =>
    rw [schemaControlLists_nil, Option.bind_some, if_pos (controlFits_zero storage)]
    rfl
  | append_singleton fs f ih =>
    rw [List.map_append, foldFields_append, ih h.left, schemaControlLists_snoc]
    cases hlists : schemaControlLists limits fs with
    | none => rfl
    | some c =>
      simp only [Option.bind_some]
      by_cases hc : controlFits storage c
      · have hplain := h.last (by rw [elementsSoFar, hlists]; rfl)
        rw [if_pos hc, Option.bind_some, ← controlStep_plain limits storage hplain hc,
          ← FieldPlain.step_ungrouped (controlStep limits storage) hplain]
        simp [foldFields]
      · rw [if_neg hc, Option.bind_none]
        cases he : controlElement limits f c with
        | none => rfl
        | some c' => rw [Option.bind_some, if_neg fun hf => hc (controlFits_of_element he hf)]

theorem mapM_isSome {α β : Type} {f : α → Option β} {xs : List α} :
    (xs.mapM f).isSome ↔ ∀ x ∈ xs, (f x).isSome := by
  induction xs with
  | nil => simp
  | cons x xs ih => cases hx : f x <;> cases hxs : xs.mapM f <;> simp_all

theorem mapM_sublist {α β : Type} {f : α → Option β} {xs ys : List α} {zs : List β}
    (h : ys.Sublist xs) (hx : xs.mapM f = some zs) : ∃ ws, ys.mapM f = some ws := by
  rw [← Option.isSome_iff_exists, mapM_isSome]
  exact fun y hy => mapM_isSome.mp (by rw [hx]; rfl) y (h.subset hy)

theorem lens_sublist {fs gs : List Field} (h : gs.Sublist fs) (n : Nat) :
    (lens n gs).Sublist (lens n fs) :=
  h.filterMap _

/-- A part of an accepted list of fields is accepted. -/
theorem elementsSoFar_sublist {limits : Limits} {fs gs : List Field} (h : gs.Sublist fs)
    (hfs : elementsSoFar limits fs) : elementsSoFar limits gs := by
  obtain ⟨c, hc⟩ := Option.isSome_iff_exists.mp hfs
  simp only [schemaControlLists, Option.bind_eq_bind, Option.bind_eq_some_iff] at hc
  obtain ⟨_, h1, _, h2, _, h3, _, h4, _, h5, -⟩ := hc
  obtain ⟨_, k1⟩ := mapM_sublist (lens_sublist h _) h1
  obtain ⟨_, k2⟩ := mapM_sublist (lens_sublist h _) h2
  obtain ⟨_, k3⟩ := mapM_sublist (lens_sublist h _) h3
  obtain ⟨_, k4⟩ := mapM_sublist (lens_sublist h _) h4
  obtain ⟨_, k5⟩ := mapM_sublist (lens_sublist h _) h5
  unfold elementsSoFar schemaControlLists
  rw [k1, k2, k3, k4, k5]
  rfl

/-- In a section without an error every field is plain. -/
theorem ControlPlain.all {limits : Limits} {fs : List Field} (h : ControlPlain limits fs)
    (hsofar : elementsSoFar limits fs) :
    ∀ f ∈ fs, FieldPlain controlNumbers (elementPlain limits) f :=
  Upto.all h fun pre post hpre =>
    elementsSoFar_sublist (List.sublist_append_left pre post) (hpre ▸ hsofar)

/-- `gossipsub_control_decode` reads a plain `ControlMessage`, as far as the storage reaches. -/
theorem controlDecode_schema {bs : Bytes} (h : OfParse (ControlPlain limits) bs) :
    (controlDecode limits storage (.ptr bs)).toOption =
      (nestedMessage (schemaControl limits) bs).bind fun c =>
        if controlFits storage c then some c else none := by
  rw [controlDecode, toOption_bind, fieldLoop_toOption (controlField_interprets limits storage) _ _
    _ (Nat.le_refl _), nestedMessage, legalFields]
  cases hp : parse uvarintCode bs with
  | none => rfl
  | some fs =>
    rw [Option.bind_some, controlFold limits storage fs (h fs hp), Option.filter_some]
    cases hlists : schemaControlLists limits fs with
    | none => split <;> simp [schemaControl, hlists]
    | some c =>
      have hlegal : Legal fs := fun f hf =>
        ((h fs hp).all (by rw [elementsSoFar, hlists]; rfl) f hf).1
      rw [if_pos (by simpa using hlegal)]
      simp only [Option.bind_some, schemaControl, hlists, Option.bind_eq_bind]
      by_cases hc : controlFits storage c
      · rw [if_pos hc, Option.bind_some]
        by_cases hn : controlCounts limits c
        · rw [if_pos hn, Option.bind_some, if_pos hc]
          unfold controlCounts at hn
          simp only []
          rw [if_neg (by omega)]
          rfl
        · rw [if_neg hn, Option.bind_none]
          unfold controlCounts at hn
          simp only []
          rw [if_pos (by omega)]
          rfl
      · rw [if_neg hc, Option.bind_none]
        split
        · rw [Option.bind_some, if_neg hc]
        · rfl

/-! ## The RPC body -/

def rpcStep (f : Field) (out : Rpc) : Option Rpc :=
  let nested := nestedSpan f.payload
  if f.number = fieldRpcSubscriptions then
    if storage.subscriptionCapacity ≤ out.subscriptions.length then none
    else (subDecode limits nested).toOption.map fun x =>
      { out with subscriptions := out.subscriptions ++ [x] }
  else if f.number = fieldRpcPublish then
    if storage.publishCapacity ≤ out.publish.length then none
    else (messageDecode limits nested).toOption.map fun x =>
      { out with publish := out.publish ++ [x] }
  else if f.number = fieldRpcControl then
    (controlDecode limits storage nested).toOption.map fun control => { out with control := control }
  else some out

theorem rpcField_interprets : Interprets (rpcField limits storage) (rpcStep limits storage) := by
  intro number wire rest out
  unfold rpcField
  refine nested_interprets fun payload rest => ?_
  simp only [rpcStep]
  by_cases h1 : number = fieldRpcSubscriptions
  · simp only [if_pos h1]
    split
    · rfl
    · cases subDecode limits (nestedSpan payload) <;> rfl
  by_cases h2 : number = fieldRpcPublish
  · simp only [if_neg h1, if_pos h2]
    split
    · rfl
    · cases messageDecode limits (nestedSpan payload) <;> rfl
  by_cases h3 : number = fieldRpcControl
  · simp only [if_neg h1, if_neg h2, if_pos h3]
    cases controlDecode limits storage (nestedSpan payload) <;> rfl
  · simp only [if_neg h1, if_neg h2, if_neg h3]
    rfl

/-- The known numbers of an RPC. -/
def rpcNumbers : List Nat := [fieldRpcSubscriptions, fieldRpcPublish, fieldRpcControl]

/-- The sub-message behind a known number of the RPC is plain. -/
def sectionPlain (number : Nat) (b : Bytes) : Prop :=
  if number = fieldRpcSubscriptions then OfParse (SubRead limits) b
  else if number = fieldRpcPublish then OfParse (MessageRead limits) b
  else OfParse (ControlPlain limits) b

/-- The sub-messages of the RPC are accepted so far. -/
def sectionsSoFar (fs : List Field) : Prop :=
  (∀ b ∈ lens fieldRpcSubscriptions fs, (nestedMessage (schemaSub limits) b).isSome) ∧
    (∀ b ∈ lens fieldRpcPublish fs, (nestedMessage (schemaMessage limits b) b).isSome) ∧
    ∀ b ∈ lens fieldRpcControl fs, (nestedMessage (schemaControl limits) b).isSome

/-- Up to the first sub-message that is refused, every field of the RPC is plain. -/
def RpcPlain : List Field → Prop :=
  Upto (sectionsSoFar limits) (FieldPlain rpcNumbers (sectionPlain limits))

/-- A control section on its own, as far as the storage reaches. -/
def controlSection (b : Bytes) : Option RpcControl :=
  (nestedMessage (schemaControl limits) b).bind fun c =>
    if controlFits storage c then some c else none

/-- What the loop collects: of the control sections it keeps the last. -/
def collectedRpc (fs : List Field) : Option Rpc := do
  let subscriptions ← (lens fieldRpcSubscriptions fs).mapM (nestedMessage (schemaSub limits))
  let publish ← (lens fieldRpcPublish fs).mapM fun b =>
    nestedMessage (schemaMessage limits b) b
  let controls ← (lens fieldRpcControl fs).mapM (controlSection limits storage)
  return ⟨subscriptions, publish, controls.getLast?.getD .zero⟩

theorem sectionsSoFar_of_collected {limits : Limits} {storage : DecodeStorage} {fs : List Field}
    (h : (collectedRpc limits storage fs).isSome) : sectionsSoFar limits fs := by
  obtain ⟨out, hout⟩ := Option.isSome_iff_exists.mp h
  simp only [collectedRpc, Option.bind_eq_bind, Option.bind_eq_some_iff] at hout
  obtain ⟨subs, hsubs, pubs, hpubs, controls, hcontrols, -⟩ := hout
  refine ⟨mapM_isSome.mp (by rw [hsubs]; rfl), mapM_isSome.mp (by rw [hpubs]; rfl), ?_⟩
  intro b hb
  have hsection := mapM_isSome.mp (by rw [hcontrols]; rfl) b hb
  rw [controlSection, Option.isSome_bind] at hsection
  exact Option.isSome_of_any hsection

/-- The storage has room for the subscriptions and messages. -/
def bodyFits (out : Rpc) : Prop :=
  out.subscriptions.length ≤ storage.subscriptionCapacity ∧
    out.publish.length ≤ storage.publishCapacity

instance (out : Rpc) : Decidable (bodyFits storage out) :=
  inferInstanceAs (Decidable (_ ∧ _))

/-- The loop's handling of one more plain field. -/
def collectedElement (f : Field) (out : Rpc) : Option Rpc :=
  match f.payload with
  | .len b =>
    if f.number = fieldRpcSubscriptions then
      (nestedMessage (schemaSub limits) b).map fun x =>
        { out with subscriptions := out.subscriptions ++ [x] }
    else if f.number = fieldRpcPublish then
      (nestedMessage (schemaMessage limits b) b).map fun x =>
        { out with publish := out.publish ++ [x] }
    else if f.number = fieldRpcControl then
      (controlSection limits storage b).map fun c => { out with control := c }
    else some out
  | _ => some out

theorem collectedRpc_snoc (fs : List Field) (f : Field) :
    collectedRpc limits storage (fs ++ [f]) =
      (collectedRpc limits storage fs).bind (collectedElement limits storage f) := by
  obtain ⟨number, payload⟩ := f
  cases payload with
  | len b =>
    by_cases h1 : number = fieldRpcSubscriptions
    · cases hn : nestedMessage (schemaSub limits) b <;>
        simp [collectedRpc, collectedElement, h1, hn, Option.bind_assoc]
    by_cases h2 : number = fieldRpcPublish
    · cases hn : nestedMessage (schemaMessage limits b) b <;>
        simp [collectedRpc, collectedElement, h2, hn, Option.bind_assoc]
    by_cases h3 : number = fieldRpcControl
    · cases hn : controlSection limits storage b <;>
        simp [collectedRpc, collectedElement, h3, hn, Option.bind_assoc]
    · simp_all [collectedRpc, collectedElement, Option.bind_assoc]
  | _ => simp [collectedRpc, collectedElement, Option.bind_assoc]

theorem bodyFits_of_element {limits : Limits} {storage storage' : DecodeStorage} {f : Field}
    {out out' : Rpc} (h : collectedElement limits storage f out = some out')
    (hf : bodyFits storage' out') : bodyFits storage' out := by
  obtain ⟨h1, h2⟩ := hf
  obtain ⟨number, payload⟩ := f
  cases payload with
  | len b =>
    simp only [collectedElement] at h
    split at h
    · obtain ⟨x, -, rfl⟩ := Option.map_eq_some_iff.mp h
      simp only [List.length_append] at h1
      exact ⟨by omega, h2⟩
    split at h
    · obtain ⟨x, -, rfl⟩ := Option.map_eq_some_iff.mp h
      simp only [List.length_append] at h2
      exact ⟨h1, by omega⟩
    split at h
    · obtain ⟨x, -, rfl⟩ := Option.map_eq_some_iff.mp h
      exact ⟨h1, h2⟩
    · cases h
      exact ⟨h1, h2⟩
  | _ =>
    cases h
    exact ⟨h1, h2⟩

theorem rpcStep_plain {f : Field} {out : Rpc}
    (hf : FieldPlain rpcNumbers (sectionPlain limits) f) (hout : bodyFits storage out) :
    rpcStep limits storage (cutNumber f) out =
      (collectedElement limits storage f out).bind fun out' =>
        if bodyFits storage out' then some out' else none := by
  by_cases hknown : f.number % 2 ^ 32 ∈ rpcNumbers
  · obtain ⟨hlt, b, hb, hplain⟩ := hf.2.2 hknown
    rw [cutNumber_of_lt hlt]
    obtain ⟨number, payload⟩ := f
    subst hb
    rw [Nat.mod_eq_of_lt hlt] at hknown
    simp only [rpcNumbers, List.mem_cons, List.not_mem_nil, or_false] at hknown
    rcases hknown with rfl | rfl | rfl
    · have hdec := subDecode_schema limits (show OfParse (SubRead limits) b from hplain)
      have hfit : ∀ x, bodyFits storage { out with subscriptions := out.subscriptions ++ [x] } ↔
          out.subscriptions.length < storage.subscriptionCapacity := by
        intro x
        simp only [bodyFits, List.length_append, List.length_singleton] at hout ⊢
        omega
      cases hn : nestedMessage (schemaSub limits) b with
      | none => simp [rpcStep, nestedSpan, hdec, collectedElement, hn]
      | some x =>
        by_cases hl : out.subscriptions.length < storage.subscriptionCapacity
        · simp [rpcStep, nestedSpan, hdec, collectedElement, hn, hfit, hl, Nat.not_le.mpr hl]
        · simp [rpcStep, collectedElement, hn, hfit, hl, Nat.not_lt.mp hl]
    · have hdec := messageDecode_schema limits (show OfParse (MessageRead limits) b from hplain)
      have hfit : ∀ x, bodyFits storage { out with publish := out.publish ++ [x] } ↔
          out.publish.length < storage.publishCapacity := by
        intro x
        simp only [bodyFits, List.length_append, List.length_singleton] at hout ⊢
        omega
      cases hn : nestedMessage (schemaMessage limits b) b with
      | none => simp [rpcStep, nestedSpan, hdec, collectedElement, hn]
      | some x =>
        by_cases hl : out.publish.length < storage.publishCapacity
        · simp [rpcStep, nestedSpan, hdec, collectedElement, hn, hfit, hl, Nat.not_le.mpr hl]
        · simp [rpcStep, collectedElement, hn, hfit, hl, Nat.not_lt.mp hl]
    · have hfit : ∀ c, bodyFits storage { out with control := c } := fun c => hout
      have hdec : (controlDecode limits storage (.ptr b)).toOption = controlSection limits storage b :=
        controlDecode_schema limits storage (show OfParse (ControlPlain limits) b from hplain)
      cases hn : controlSection limits storage b <;>
        simp [rpcStep, nestedSpan, hdec, collectedElement, hn, hfit]
  · have hnot : f.number ∉ rpcNumbers := by
      intro hmem
      have hlt : f.number < 2 ^ 32 := by
        simp only [rpcNumbers, List.mem_cons, List.not_mem_nil, or_false] at hmem
        rcases hmem with h | h | h <;> rw [h] <;> decide
      exact hknown (by rwa [Nat.mod_eq_of_lt hlt])
    have helem : collectedElement limits storage f out = some out := by
      obtain ⟨number, payload⟩ := f
      cases payload <;> simp_all [collectedElement, rpcNumbers]
    have hstep : rpcStep limits storage (cutNumber f) out = some out := by
      simp_all [rpcStep, cutNumber, rpcNumbers]
    rw [hstep, helem, Option.bind_some, if_pos hout]

theorem rpcFold (fs : List Field) (h : RpcPlain limits fs) :
    foldFields (ungrouped (rpcStep limits storage)) (fs.map cutNumber) .zero =
      (collectedRpc limits storage fs).bind fun out =>
        if bodyFits storage out then some out else none := by
  induction fs using List.reverseRecOn with
  | nil => simp [collectedRpc, bodyFits, Rpc.zero]
  | append_singleton fs f ih =>
    rw [List.map_append, foldFields_append, ih h.left, collectedRpc_snoc]
    cases hcollected : collectedRpc limits storage fs with
    | none => rfl
    | some out =>
      simp only [Option.bind_some]
      by_cases hc : bodyFits storage out
      · have hplain := h.last (sectionsSoFar_of_collected (by rw [hcollected]; rfl))
        rw [if_pos hc, Option.bind_some, ← rpcStep_plain limits storage hplain hc,
          ← FieldPlain.step_ungrouped (rpcStep limits storage) hplain]
        simp [foldFields]
      · rw [if_neg hc, Option.bind_none]
        cases he : collectedElement limits storage f out with
        | none => rfl
        | some out' => rw [Option.bind_some, if_neg fun hf => hc (bodyFits_of_element he hf)]

/-! ## Several control sections -/

/-- A control section that holds no element. -/
def NoElements (fs : List Field) : Prop := ∀ n ∈ controlNumbers, lens n fs = []

theorem schemaControlLists_congr {limits : Limits} {fs gs : List Field}
    (h : ∀ n ∈ controlNumbers, lens n fs = lens n gs) :
    schemaControlLists limits fs = schemaControlLists limits gs := by
  have h1 := h fieldControlIhave (by simp [controlNumbers])
  have h2 := h fieldControlIwant (by simp [controlNumbers])
  have h3 := h fieldControlGraft (by simp [controlNumbers])
  have h4 := h fieldControlPrune (by simp [controlNumbers])
  have h5 := h fieldControlIdontwant (by simp [controlNumbers])
  simp only [schemaControlLists, h1, h2, h3, h4, h5]

theorem schemaControl_congr {limits : Limits} {fs gs : List Field}
    (h : ∀ n ∈ controlNumbers, lens n fs = lens n gs) :
    schemaControl limits fs = schemaControl limits gs := by
  rw [schemaControl, schemaControl, schemaControlLists_congr h]

theorem schemaControl_nil : schemaControl limits [] = some .zero := by
  simp [schemaControl, schemaControlLists_nil, controlCounts, RpcControl.zero]

/-- Sections without elements are read as empty ones. -/
theorem mapM_noElements (bs : List Bytes) (hnone : ∀ b ∈ bs, OfParse NoElements b) :
    bs.mapM (controlSection limits storage) =
      (bs.mapM legalFields).map fun sections => sections.map fun _ => .zero := by
  induction bs with
  | nil => rfl
  | cons b bs ih =>
    have ih' := ih fun c hc => hnone c (by simp [hc])
    simp only [List.mapM_cons, ih', controlSection]
    cases hp : legalFields b with
    | none => simp [nestedMessage, hp]
    | some fs =>
      have hfs : schemaControl limits fs = some .zero := by
        rw [← schemaControl_nil limits]
        exact schemaControl_congr (hnone b (by simp) fs (legalFields_eq_some.mp hp).1)
      cases bs.mapM legalFields <;>
        simp [nestedMessage, hp, hfs, controlFits_zero, List.replicate_succ]

theorem lens_flatten_noElements {sections : List (List Field)}
    (h : ∀ fs ∈ sections, NoElements fs) : ∀ n ∈ controlNumbers, lens n sections.flatten = [] := by
  intro n hn
  rw [lens_flatten]
  simp only [List.flatten_eq_nil_iff, List.mem_map, forall_exists_index, and_imp,
    forall_apply_eq_imp_iff₂]
  exact fun fs hfs => h fs hfs n hn

/-- If only the last section has elements, keeping the last section is merging them all. -/
theorem lastSection_merge (bs : List Bytes) (hnone : ∀ b ∈ bs.dropLast, OfParse NoElements b) :
    ((bs.mapM (controlSection limits storage)).map fun cs => cs.getLast?.getD .zero) =
      ((bs.mapM legalFields).bind fun sections => schemaControl limits sections.flatten).bind
        fun c => if controlFits storage c then some c else none := by
  rcases List.eq_nil_or_concat bs with rfl | ⟨init, b, rfl⟩
  · simp [schemaControl_nil, controlFits_zero]
  rw [List.concat_eq_append] at *
  rw [List.dropLast_concat] at hnone
  rw [mapM_snoc_eq, mapM_snoc_eq, mapM_noElements limits storage init hnone, controlSection]
  cases hi : init.mapM legalFields with
  | none => rfl
  | some sections =>
    cases hp : legalFields b with
    | none => simp [nestedMessage, hp]
    | some fs =>
      have hsec : ∀ gs ∈ sections, NoElements gs := by
        intro gs hgs
        obtain ⟨c, hc, hcg⟩ := mapM_mem hi gs hgs
        exact hnone c hc gs (legalFields_eq_some.mp hcg).1
      have hmerge : schemaControl limits (sections ++ [fs]).flatten = schemaControl limits fs := by
        refine schemaControl_congr fun n hn => ?_
        rw [List.flatten_append, lens_append, lens_flatten_noElements hsec n hn]
        simp
      simp only [nestedMessage, hp, Option.map_some, Option.bind_some, hmerge]
      cases schemaControl limits fs with
      | none => rfl
      | some c =>
        simp only [Option.bind_some]
        split <;> simp

end LeanLibp2p.Gossipsub
