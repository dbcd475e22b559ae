import LeanLibp2p.Multiaddr.Binary

/-!
# Encapsulation and decapsulation

`multiaddr.c`: two multiaddrs behind each other, and what is in front of the last occurrence of one in
another. The code compares bytes where components start; since a component is read off the front of
its bytes in one way only, it finds the occurrences in the lists of components and no others.
-/

namespace LeanLibp2p

/-- `multiaddr_add_overflow` (`multiaddr.c:39-53`). -/
def multiaddrAddOverflow (a b : Nat) : Option Nat :=
  if sizeMax - a < b then none else some (a + b)

/-- `libp2p_multiaddr_encapsulate` (`multiaddr.c:1430-1485`) into a buffer (`none` for NULL, or its
    length): the bytes, and what `*written` is. -/
def multiaddrEncapsulate (a b : Bytes) (out : Option Nat) : Except MultiaddrErr Bytes × Nat :=
  match multiaddrValidate a with
  | .error e => (.error e, 0)
  | .ok () =>
    match multiaddrValidate b with
    | .error e => (.error e, 0)
    | .ok () =>
      let total := (multiaddrAddOverflow a.length b.length).getD sizeMax
      if out.all (· < total) then (.error .bufTooSmall, total) else (.ok (a ++ b), total)

/-- The loop of `libp2p_multiaddr_decapsulate` over the components that are left of `outer`: where the
    last match starts, `none` for the `SIZE_MAX` of no match. -/
def decapsulateLoop (outer inner : Bytes) :
    (fuel : Nat) → Bytes → Option Nat → Except MultiaddrErr (Option Nat)
  | 0, _, _ => .error .malformed
  | fuel + 1, left, matchOffset =>
    match nextComponent left with
    | .error e => if e = .atEnd then .ok matchOffset else .error e
    | .ok (_, _, next) =>
      decapsulateLoop outer inner fuel next
        (if inner.length ≤ left.length ∧ left.take inner.length = inner then
          some (outer.length - left.length)
        else matchOffset)

/-- `libp2p_multiaddr_decapsulate` (`multiaddr.c:1487-1590`). A component takes at least one byte. -/
def multiaddrDecapsulate (outer inner : Bytes) (out : Option Nat) :
    Except MultiaddrErr Bytes × Nat :=
  match multiaddrValidate outer with
  | .error e => (.error e, 0)
  | .ok () =>
    match multiaddrValidate inner with
    | .error e => (.error e, 0)
    | .ok () =>
      if inner = [] then
        if out.all (· < outer.length) then (.error .bufTooSmall, outer.length)
        else (.ok outer, outer.length)
      else
        match decapsulateLoop outer inner (outer.length + 1) outer none with
        | .error e => (.error e, 0)
        | .ok none => (.error .notFound, 0)
        | .ok (some matchOffset) =>
          if out.all (· < matchOffset) then (.error .bufTooSmall, matchOffset)
          else (.ok (outer.take matchOffset), matchOffset)

/-! ## The last occurrence in a list -/

section LastMatch

variable {α : Type} [DecidableEq α]

/-- What is in front of the last occurrence of `inner`. -/
def lastMatch (inner : List α) : List α → Option (List α)
  | [] => none
  | c :: cs =>
    match lastMatch inner cs with
    | some pre => some (c :: pre)
    | none => if inner <+: c :: cs then some [] else none

theorem lastMatch_none {inner : List α} (hinner : inner ≠ []) :
    ∀ {cs : List α}, lastMatch inner cs = none → ¬ inner <:+: cs := by
  intro cs
  induction cs with
  | nil =>
    intro _ h
    exact hinner (List.infix_nil.mp h)
  | cons c cs ih =>
    intro h
    unfold lastMatch at h
    cases hrest : lastMatch inner cs with
    | some pre => simp [hrest] at h
    | none =>
      rw [List.infix_cons_iff]
      rintro (hstart | hoccurs)
      · simp [hrest, hstart] at h
      · exact ih hrest hoccurs

theorem lastMatch_some {inner : List α} :
    ∀ {cs pre : List α}, lastMatch inner cs = some pre → ∃ post, cs = pre ++ (inner ++ post) := by
  intro cs
  induction cs with
  | nil =>
    intro pre h
    cases h
  | cons c cs ih =>
    intro pre h
    unfold lastMatch at h
    cases hrest : lastMatch inner cs with
    | some pre' =>
      rw [hrest] at h
      cases h
      obtain ⟨post, hpost⟩ := ih hrest
      exact ⟨post, by rw [List.cons_append, ← hpost]⟩
    | none =>
      rw [hrest] at h
      by_cases hstart : inner <+: c :: cs
      · simp only [if_pos hstart, Option.some.injEq] at h
        subst h
        obtain ⟨post, hpost⟩ := hstart
        exact ⟨post, hpost.symm⟩
      · simp [hstart] at h

/-- No occurrence starts behind the one that is found. -/
theorem lastMatch_last {inner : List α} (hinner : inner ≠ []) :
    ∀ {cs pre pre' post : List α}, lastMatch inner cs = some pre → cs = pre' ++ (inner ++ post) →
      pre'.length ≤ pre.length := by
  intro cs
  induction cs with
  | nil =>
    intro pre pre' post h
    cases h
  | cons c cs ih =>
    intro pre pre' post h hcs
    unfold lastMatch at h
    cases pre' with
    | nil => exact Nat.zero_le _
    | cons c' pre' =>
      obtain ⟨rfl, htail⟩ := List.cons.inj hcs
      cases hrest : lastMatch inner cs with
      | some found =>
        rw [hrest] at h
        cases h
        exact Nat.succ_le_succ (ih hrest htail)
      | none =>
        exact absurd ⟨pre', post, by rw [List.append_assoc]; exact htail.symm⟩
          (lastMatch_none hinner hrest)

theorem lastMatch_append {inner : List α} (hinner : inner ≠ []) (pre : List α) :
    lastMatch inner (pre ++ inner) = some pre := by
  cases h : lastMatch inner (pre ++ inner) with
  | none => exact absurd (List.suffix_append pre inner).isInfix (lastMatch_none hinner h)
  | some found =>
    obtain ⟨post, hpost⟩ := lastMatch_some h
    have hle := @lastMatch_last _ _ _ hinner _ _ pre [] h (by rw [List.append_nil])
    have hlen := congrArg List.length hpost
    simp only [List.length_append] at hlen
    have hnil : post = [] := List.eq_nil_of_length_eq_zero (by omega)
    rw [hnil, List.append_nil] at hpost
    rw [List.append_cancel_right hpost]

end LastMatch

/-! ## One list of components -/

/-- A multiaddr with its components. -/
structure Components (buf : Bytes) (components : List (MultiaddrProtocolEntry × Bytes)) : Prop where
  valid : ∀ c ∈ components, ValidComponent c
  bytes : buf = multiaddrBytes components

theorem multiaddrValidate_iff {buf : Bytes} :
    multiaddrValidate buf = .ok () ↔ ∃ components, Components buf components := by
  rw [multiaddrValidate_ok_iff]
  exact exists_congr fun components => ⟨fun h => ⟨h.1, h.2⟩, fun h => ⟨h.valid, h.bytes⟩⟩

theorem code_injective {p q : MultiaddrProtocolEntry} (hp : p ∈ multiaddrProtocolTable)
    (hq : q ∈ multiaddrProtocolTable) (h : p.code = q.code) : p = q := by
  have hfound := findProtocolByCode_mem hp
  rw [h, findProtocolByCode_mem hq] at hfound
  exact (Option.some.inj hfound).symm

theorem multiaddrBytes_cons (c : MultiaddrProtocolEntry × Bytes)
    (cs : List (MultiaddrProtocolEntry × Bytes)) :
    multiaddrBytes (c :: cs) = componentBytes c.1 c.2 ++ multiaddrBytes cs := rfl

theorem multiaddrBytes_append (cs ds : List (MultiaddrProtocolEntry × Bytes)) :
    multiaddrBytes (cs ++ ds) = multiaddrBytes cs ++ multiaddrBytes ds :=
  List.flatMap_append

/-- A component that is read back from its bytes. -/
structure ReadComponent (component : MultiaddrProtocolEntry × Bytes) : Prop where
  mem : component.1 ∈ multiaddrProtocolTable
  sized : component.1.Sized component.2

theorem ValidComponent.read {c : MultiaddrProtocolEntry × Bytes} (h : ValidComponent c) :
    ReadComponent c := ⟨h.mem, h.sized⟩

/-- A component of the table is one of the five protocols. -/
theorem ReadComponent.protocol_cases {c : MultiaddrProtocolEntry × Bytes} (h : ReadComponent c) :
    c.1 = multiaddrIp4 ∨ c.1 = multiaddrIp6 ∨ c.1 = multiaddrUdp ∨ c.1 = multiaddrQuicV1 ∨
      c.1 = multiaddrP2p := by
  simpa [multiaddrProtocolTable] using h.mem

/-- Bytes that begin with a component are those of one component and what follows it. -/
theorem componentBytes_inj {c d : MultiaddrProtocolEntry × Bytes} (hc : ReadComponent c)
    (hd : ReadComponent d) {rest rest' : Bytes}
    (h : componentBytes c.1 c.2 ++ rest = componentBytes d.1 d.2 ++ rest') : c = d ∧ rest = rest' := by
  have hnext := nextComponent_componentBytes hc.mem hc.sized rest
  rw [h, nextComponent_componentBytes hd.mem hd.sized rest'] at hnext
  simp only [Except.ok.injEq, Prod.mk.injEq] at hnext
  exact ⟨Prod.ext (code_injective hd.mem hc.mem hnext.1).symm hnext.2.1.symm, hnext.2.2.symm⟩

/-- Where components start, a match of the bytes is a match of the components. -/
theorem prefix_of_bytes {ds : List (MultiaddrProtocolEntry × Bytes)} :
    ∀ {cs : List (MultiaddrProtocolEntry × Bytes)}, (∀ d ∈ ds, ReadComponent d) →
      (∀ c ∈ cs, ReadComponent c) → multiaddrBytes ds <+: multiaddrBytes cs → ds <+: cs := by
  induction ds with
  | nil => exact fun _ _ _ => List.nil_prefix
  | cons d ds ih =>
    intro cs hds hcs h
    rw [List.forall_mem_cons] at hds
    obtain ⟨rest, hrest⟩ := h
    rw [multiaddrBytes_cons, List.append_assoc] at hrest
    cases cs with
    | nil =>
      have hnil := (List.append_eq_nil_iff.mp hrest).1
      exact absurd hnil (componentBytes_ne_nil d.1 d.2)
    | cons c cs =>
      rw [List.forall_mem_cons] at hcs
      rw [multiaddrBytes_cons] at hrest
      obtain ⟨rfl, htail⟩ := componentBytes_inj hds.1 hcs.1 hrest
      exact List.cons_prefix_cons.mpr ⟨rfl, ih hds.2 hcs.2 ⟨rest, htail⟩⟩

variable {cs ds : List (MultiaddrProtocolEntry × Bytes)}

theorem multiaddrBytes_injective (hcs : ∀ c ∈ cs, ReadComponent c) (hds : ∀ d ∈ ds, ReadComponent d)
    (h : multiaddrBytes cs = multiaddrBytes ds) : cs = ds := by
  have hstart := prefix_of_bytes hcs hds (h ▸ List.prefix_rfl)
  have hback := prefix_of_bytes hds hcs (h ▸ List.prefix_rfl)
  exact hstart.eq_of_length (Nat.le_antisymm hstart.length_le hback.length_le)

theorem bytes_prefix_iff (hds : ∀ d ∈ ds, ValidComponent d) (hcs : ∀ c ∈ cs, ValidComponent c) :
    ((multiaddrBytes ds).length ≤ (multiaddrBytes cs).length ∧
      (multiaddrBytes cs).take (multiaddrBytes ds).length = multiaddrBytes ds) ↔ ds <+: cs := by
  constructor
  · intro h
    exact prefix_of_bytes (fun d hd => (hds d hd).read) (fun c hc => (hcs c hc).read)
      (h.2 ▸ List.take_prefix _ _)
  · intro h
    obtain ⟨post, rfl⟩ := h
    rw [multiaddrBytes_append, List.length_append, List.take_left]
    exact ⟨Nat.le_add_right _ _, rfl⟩

theorem Components.unique {buf : Bytes} (hcs : Components buf cs) (hds : Components buf ds) :
    cs = ds :=
  multiaddrBytes_injective (fun c hc => (hcs.valid c hc).read) (fun d hd => (hds.valid d hd).read)
    (hcs.bytes.symm.trans hds.bytes)

theorem Components.append {a b : Bytes} (ha : Components a cs) (hb : Components b ds) :
    Components (a ++ b) (cs ++ ds) := by
  refine ⟨fun c hc => ?_, by rw [ha.bytes, hb.bytes, multiaddrBytes_append]⟩
  exact (List.mem_append.mp hc).elim (ha.valid c) (hb.valid c)

theorem Components.validate {buf : Bytes} {cs : List (MultiaddrProtocolEntry × Bytes)}
    (h : Components buf cs) : multiaddrValidate buf = .ok () :=
  multiaddrValidate_iff.mpr ⟨cs, h⟩

theorem Components.ne_nil {buf : Bytes} {cs : List (MultiaddrProtocolEntry × Bytes)}
    (h : Components buf cs) : buf = [] ↔ cs = [] := by
  rw [h.bytes]
  cases cs with
  | nil => exact ⟨fun _ => rfl, fun _ => rfl⟩
  | cons c cs => simp [multiaddrBytes_cons, componentBytes_ne_nil]

/-! ## What the two functions do to the components -/

/-- The loop finds the last match in what is left, or keeps the one it had. -/
theorem decapsulateLoop_eq {outer : Bytes} {ds : List (MultiaddrProtocolEntry × Bytes)}
    (hds : ∀ d ∈ ds, ValidComponent d) :
    ∀ (cs : List (MultiaddrProtocolEntry × Bytes)) (fuel : Nat) (matchOffset : Option Nat),
      (∀ c ∈ cs, ValidComponent c) → (multiaddrBytes cs).length < fuel →
      (multiaddrBytes cs).length ≤ outer.length →
      decapsulateLoop outer (multiaddrBytes ds) fuel (multiaddrBytes cs) matchOffset =
        .ok (((lastMatch ds cs).map fun pre =>
          outer.length - (multiaddrBytes cs).length + (multiaddrBytes pre).length).or matchOffset) := by
  intro cs
  induction cs with
  | nil =>
    intro fuel matchOffset _ hfuel _
    obtain ⟨fuel, rfl⟩ := Nat.exists_eq_succ_of_ne_zero (Nat.ne_of_gt hfuel)
    rfl
  | cons c cs ih =>
    intro fuel matchOffset hcs hfuel houter
    have hpos := List.length_pos_of_ne_nil (componentBytes_ne_nil c.1 c.2)
    have hlen : (multiaddrBytes (c :: cs)).length =
        (componentBytes c.1 c.2).length + (multiaddrBytes cs).length := by
      rw [multiaddrBytes_cons, List.length_append]
    obtain ⟨fuel, rfl⟩ := Nat.exists_eq_succ_of_ne_zero (show fuel ≠ 0 by omega)
    have hmatch := bytes_prefix_iff hds hcs
    have hvalid := List.forall_mem_cons.mp hcs
    have hnext := nextComponent_componentBytes hvalid.1.mem hvalid.1.sized (multiaddrBytes cs)
    rw [← multiaddrBytes_cons] at hnext
    rw [decapsulateLoop, hnext]
    simp only [hmatch]
    rw [ih fuel _ hvalid.2 (by omega) (by omega), lastMatch]
    cases hrest : lastMatch ds cs with
    | some pre =>
      simp only [Option.map_some, Option.some_or, multiaddrBytes_cons, List.length_append,
        Except.ok.injEq, Option.some.injEq]
      omega
    | none =>
      by_cases hstart : ds <+: c :: cs
      · simp [if_pos hstart, multiaddrBytes]
      · simp [if_neg hstart]

theorem multiaddrEncapsulate_eq {a b : Bytes} (ha : Components a cs) (hb : Components b ds)
    {outLen : Nat} (hroom : a.length + b.length ≤ outLen) :
    (multiaddrEncapsulate a b (some outLen)).1 = .ok (a ++ b) := by
  have htotal : ¬ outLen < (multiaddrAddOverflow a.length b.length).getD sizeMax := by
    unfold multiaddrAddOverflow
    split
    · rw [Option.getD_none]
      omega
    · rw [Option.getD_some]
      omega
  unfold multiaddrEncapsulate
  rw [ha.validate, hb.validate]
  simp [htotal]

theorem multiaddrEncapsulate_ok {a b ab : Bytes} {out : Option Nat}
    (h : (multiaddrEncapsulate a b out).1 = .ok ab) : ab = a ++ b := by
  unfold multiaddrEncapsulate at h
  split at h
  · cases h
  split at h
  · cases h
  dsimp only at h
  split at h
  · cases h
  · exact (Except.ok.inj h).symm

section

variable {outer inner : Bytes} {cs ds : List (MultiaddrProtocolEntry × Bytes)}

/-- What decapsulation does, by the last match in the list of components. -/
theorem multiaddrDecapsulate_loop (houter : Components outer cs) (hinner : Components inner ds)
    (hne : ds ≠ []) :
    inner ≠ [] ∧ decapsulateLoop outer inner (outer.length + 1) outer none =
      .ok ((lastMatch ds cs).map fun pre => (multiaddrBytes pre).length) := by
  have hloop := @decapsulateLoop_eq outer _ hinner.valid cs (outer.length + 1) none
    houter.valid (by rw [← houter.bytes]; exact Nat.lt_succ_self _)
    (by rw [← houter.bytes])
  rw [← houter.bytes, ← hinner.bytes, Nat.sub_self, Option.or_none] at hloop
  simp only [Nat.zero_add] at hloop
  exact ⟨fun hnil => hne (hinner.ne_nil.mp hnil), hloop⟩

theorem multiaddrDecapsulate_some (houter : Components outer cs) (hinner : Components inner ds)
    (hne : ds ≠ []) {pre : List (MultiaddrProtocolEntry × Bytes)} (hmatch : lastMatch ds cs = some pre)
    (out : Option Nat) :
    (multiaddrDecapsulate outer inner out).1 =
      if out.all (· < (multiaddrBytes pre).length) then .error .bufTooSmall
      else .ok (multiaddrBytes pre) := by
  obtain ⟨hinnerNe, hloop⟩ := multiaddrDecapsulate_loop houter hinner hne
  obtain ⟨post, hpost⟩ := lastMatch_some hmatch
  have htake : outer.take (multiaddrBytes pre).length = multiaddrBytes pre := by
    rw [houter.bytes, hpost, multiaddrBytes_append, List.take_left]
  rw [hmatch, Option.map_some] at hloop
  unfold multiaddrDecapsulate
  rw [houter.validate, hinner.validate]
  simp only [if_neg hinnerNe, hloop, htake]
  split <;> rfl

theorem multiaddrDecapsulate_none (houter : Components outer cs) (hinner : Components inner ds)
    (hne : ds ≠ []) (hmatch : lastMatch ds cs = none) (out : Option Nat) :
    (multiaddrDecapsulate outer inner out).1 = .error .notFound := by
  obtain ⟨hinnerNe, hloop⟩ := multiaddrDecapsulate_loop houter hinner hne
  rw [hmatch, Option.map_none] at hloop
  unfold multiaddrDecapsulate
  rw [houter.validate, hinner.validate]
  simp only [if_neg hinnerNe, hloop]

/-- NOT_FOUND is the answer exactly when the components of `inner` occur nowhere. -/
theorem multiaddrDecapsulate_notFound_iff (houter : Components outer cs)
    (hinner : Components inner ds) (hne : ds ≠ []) (out : Option Nat) :
    (multiaddrDecapsulate outer inner out).1 = .error .notFound ↔ ¬ ds <:+: cs := by
  cases hmatch : lastMatch ds cs with
  | none =>
    exact ⟨fun _ => lastMatch_none hne hmatch,
      fun _ => multiaddrDecapsulate_none houter hinner hne hmatch out⟩
  | some pre =>
    obtain ⟨post, hpost⟩ := lastMatch_some hmatch
    have hoccurs : ds <:+: cs := ⟨pre, post, by rw [hpost, List.append_assoc]⟩
    rw [multiaddrDecapsulate_some houter hinner hne hmatch]
    refine ⟨fun h => ?_, fun h => absurd hoccurs h⟩
    split at h <;> cases h

/-- The components in front of the last occurrence are what is left. -/
theorem multiaddrDecapsulate_last (houter : Components outer cs) (hinner : Components inner ds)
    (hne : ds ≠ []) {pre post : List (MultiaddrProtocolEntry × Bytes)}
    (hocc : cs = pre ++ (ds ++ post))
    (hlast : ∀ pre' post', cs = pre' ++ (ds ++ post') → pre'.length ≤ pre.length) {outLen : Nat}
    (hroom : (multiaddrBytes pre).length ≤ outLen) :
    (multiaddrDecapsulate outer inner (some outLen)).1 = .ok (multiaddrBytes pre) := by
  cases hmatch : lastMatch ds cs with
  | none =>
    exact absurd ⟨pre, post, by rw [hocc, List.append_assoc]⟩ (lastMatch_none hne hmatch)
  | some found =>
    obtain ⟨post', hpost'⟩ := lastMatch_some hmatch
    have hle := hlast found post' hpost'
    have hge := lastMatch_last hne hmatch hocc
    have hfound : found = pre :=
      (List.append_inj (hpost'.symm.trans hocc) (Nat.le_antisymm hle hge)).1
    rw [multiaddrDecapsulate_some houter hinner hne hmatch, hfound]
    simp [hroom]

end

/-- Encapsulation appends the lists of components, and decapsulation cuts the list at the last
    occurrence; every valid multiaddr has one such list. -/
theorem multiaddr_encapsulation :
    (∀ buf, multiaddrValidate buf = .ok () ↔ ∃! cs, Components buf cs) ∧
    (∀ a b cs ds outLen, Components a cs → Components b ds → a.length + b.length ≤ outLen →
      ∃ ab, (multiaddrEncapsulate a b (some outLen)).1 = .ok ab ∧ multiaddrValidate ab = .ok () ∧
        Components ab (cs ++ ds)) ∧
    (∀ a b ab out outLen, multiaddrValidate a = .ok () → multiaddrValidate b = .ok () → b ≠ [] →
      (multiaddrEncapsulate a b out).1 = .ok ab → a.length ≤ outLen →
      (multiaddrDecapsulate ab b (some outLen)).1 = .ok a) ∧
    (∀ outer inner cs ds, Components outer cs → Components inner ds → inner ≠ [] →
      (∀ out, (multiaddrDecapsulate outer inner out).1 = .error .notFound ↔ ¬ ds <:+: cs) ∧
      ∀ pre post, cs = pre ++ (ds ++ post) →
        (∀ pre' post', cs = pre' ++ (ds ++ post') → pre'.length ≤ pre.length) →
        ∃ rest, Components rest pre ∧ ∀ outLen, rest.length ≤ outLen →
          (multiaddrDecapsulate outer inner (some outLen)).1 = .ok rest) ∧
    ∀ a b c outLen, multiaddrValidate a = .ok () → multiaddrValidate b = .ok () →
      multiaddrValidate c = .ok () → a.length + b.length + c.length ≤ outLen →
      ∃ ab bc abc, (multiaddrEncapsulate a b (some outLen)).1 = .ok ab ∧
        (multiaddrEncapsulate b c (some outLen)).1 = .ok bc ∧
        (multiaddrEncapsulate ab c (some outLen)).1 = .ok abc ∧
        (multiaddrEncapsulate a bc (some outLen)).1 = .ok abc := by
  refine ⟨?_, ?_, ?_, ?_, ?_⟩
  · intro buf
    rw [multiaddrValidate_iff]
    constructor
    · intro h
      obtain ⟨cs, hcs⟩ := h
      exact ⟨cs, hcs, fun ds hds => hds.unique hcs⟩
    · exact fun h => h.exists
  · intro a b cs ds outLen ha hb hroom
    have happend := ha.append hb
    exact ⟨a ++ b, multiaddrEncapsulate_eq ha hb hroom, happend.validate, happend⟩
  · intro a b ab out outLen hva hvb hne hab hroom
    obtain ⟨cs, ha⟩ := multiaddrValidate_iff.mp hva
    obtain ⟨ds, hb⟩ := multiaddrValidate_iff.mp hvb
    have hds : ds ≠ [] := fun hnil => hne (hb.ne_nil.mpr hnil)
    rw [multiaddrEncapsulate_ok hab, multiaddrDecapsulate_some (ha.append hb) hb hds
      (lastMatch_append hds cs), ← ha.bytes]
    simp [hroom]
  · intro outer inner cs ds houter hinner hne
    have hds : ds ≠ [] := fun hnil => hne (hinner.ne_nil.mpr hnil)
    refine ⟨multiaddrDecapsulate_notFound_iff houter hinner hds, fun pre post hocc hlast => ?_⟩
    have hvalid : Components (multiaddrBytes pre) pre :=
      ⟨fun c hc => houter.valid c (by rw [hocc]; exact List.mem_append_left _ hc), rfl⟩
    exact ⟨multiaddrBytes pre, hvalid, fun outLen hroom =>
      multiaddrDecapsulate_last houter hinner hds hocc hlast hroom⟩
  · intro a b c outLen hva hvb hvc hroom
    obtain ⟨as, ha⟩ := multiaddrValidate_iff.mp hva
    obtain ⟨bs, hb⟩ := multiaddrValidate_iff.mp hvb
    obtain ⟨cs, hc⟩ := multiaddrValidate_iff.mp hvc
    have hassoc := @multiaddrEncapsulate_eq _ _ _ _ ha (hb.append hc) outLen
      (by rw [List.length_append]; omega)
    rw [← List.append_assoc] at hassoc
    exact ⟨a ++ b, b ++ c, a ++ b ++ c, multiaddrEncapsulate_eq ha hb (by omega),
      multiaddrEncapsulate_eq hb hc (by omega),
      multiaddrEncapsulate_eq (ha.append hb) hc (by rw [List.length_append]; omega), hassoc⟩

end LeanLibp2p
