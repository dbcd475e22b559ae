import LeanLibp2p.Multiformats.Multibase
import LeanLibp2p.Multiformats.Multihash

/-!
# Binary multiaddrs

`multiaddr.c`: a multiaddr is a sequence of components, each the code of a protocol, for a value of
variable size its length, and the value. A cursor is the bytes behind its offset.
-/

namespace LeanLibp2p

/-- `libp2p_multiaddr_err_t` without `OK`. -/
inductive MultiaddrErr where
  | bufTooSmall
  | malformed
  | unsupportedProtocol
  | invalidValue
  | truncated
  | notFound
  | atEnd
  deriving DecidableEq, Repr

/-- `libp2p_multiaddr_value_class_t`. -/
inductive MultiaddrValueClass where
  | valueNone
  | valueFixed
  | valueVariable
  deriving DecidableEq, Repr

/-- `libp2p_multiaddr_protocol_entry_t`. -/
structure MultiaddrProtocolEntry where
  code : Nat
  name : Bytes
  valueClass : MultiaddrValueClass
  fixedSize : Nat
  deriving DecidableEq, Repr

variable {protocol : MultiaddrProtocolEntry}

/-- `LIBP2P_MULTIADDR_CODE_IP4`. -/
def multiaddrCodeIp4 : Nat := 0x04
/-- `LIBP2P_MULTIADDR_CODE_IP6`. -/
def multiaddrCodeIp6 : Nat := 0x29
/-- `LIBP2P_MULTIADDR_CODE_UDP`. -/
def multiaddrCodeUdp : Nat := 0x0111
/-- `LIBP2P_MULTIADDR_CODE_P2P`. -/
def multiaddrCodeP2p : Nat := 0x01a5
/-- `LIBP2P_MULTIADDR_CODE_QUIC_V1`. -/
def multiaddrCodeQuicV1 : Nat := 0x01cd

def multiaddrIp4 : MultiaddrProtocolEntry :=
  ⟨multiaddrCodeIp4, List.map ascii ['i', 'p', '4'], .valueFixed, 4⟩
def multiaddrIp6 : MultiaddrProtocolEntry :=
  ⟨multiaddrCodeIp6, List.map ascii ['i', 'p', '6'], .valueFixed, 16⟩
def multiaddrUdp : MultiaddrProtocolEntry :=
  ⟨multiaddrCodeUdp, List.map ascii ['u', 'd', 'p'], .valueFixed, 2⟩
def multiaddrQuicV1 : MultiaddrProtocolEntry :=
  ⟨multiaddrCodeQuicV1, List.map ascii ['q', 'u', 'i', 'c', '-', 'v', '1'], .valueNone, 0⟩
def multiaddrP2p : MultiaddrProtocolEntry :=
  ⟨multiaddrCodeP2p, List.map ascii ['p', '2', 'p'], .valueVariable, 0⟩

/-- `multiaddr_protocol_table` (`multiaddr.c:32-37`). -/
def multiaddrProtocolTable : List MultiaddrProtocolEntry :=
  [multiaddrIp4, multiaddrIp6, multiaddrUdp, multiaddrQuicV1, multiaddrP2p]

/-- `multiaddr_find_protocol_by_code` (`multiaddr.c:115-132`). -/
def findProtocolByCode (code : Nat) : Option MultiaddrProtocolEntry :=
  multiaddrProtocolTable.find? fun entry => entry.code = code

/-- `multiaddr_find_protocol_by_name` (`multiaddr.c:134-157`). -/
def findProtocolByName (name : Bytes) : Option MultiaddrProtocolEntry :=
  multiaddrProtocolTable.find? fun entry => entry.name = name

/-- `multiaddr_map_varint_err` (`multiaddr.c:173-199`). -/
def multiaddrMapVarintErr : UvarintErr → MultiaddrErr
  | .truncated => .truncated
  | .bufTooSmall | .nonMinimal | .overflow => .malformed

/-- `multiaddr_validate_p2p_value` (`multiaddr.c:703-732`). -/
def validateP2pValue (value : Bytes) : Bool :=
  match multihashDecode value with
  | .error _ => false
  | .ok (_, _, read) => read = value.length

/-- `libp2p_multiaddr_next_component` (`multiaddr.c:1136-1262`): the code, the value and what is left.
    A declared length is below `2 ^ 63`, so it fits a `size_t`. -/
def nextComponent (buf : Bytes) : Except MultiaddrErr (Nat × Bytes × Bytes) :=
  if buf = [] then .error .atEnd
  else
    match uvarintDecode buf with
    | .error e => .error (multiaddrMapVarintErr e)
    | .ok (code, codeRead) =>
      let rest := buf.drop codeRead
      match findProtocolByCode code with
      | none => .error .unsupportedProtocol
      | some protocol =>
        match protocol.valueClass with
        | .valueNone => .ok (code, [], rest)
        | .valueFixed =>
          if rest.length < protocol.fixedSize then .error .truncated
          else .ok (code, rest.take protocol.fixedSize, rest.drop protocol.fixedSize)
        | .valueVariable =>
          match uvarintDecode rest with
          | .error e => .error (multiaddrMapVarintErr e)
          | .ok (declaredLen, lengthRead) =>
            let rest := rest.drop lengthRead
            if rest.length < declaredLen then .error .truncated
            else .ok (code, rest.take declaredLen, rest.drop declaredLen)

/-- The loop of `libp2p_multiaddr_validate`; a component takes at least one byte. -/
def validateLoop : (fuel : Nat) → Bytes → Except MultiaddrErr Unit
  | 0, _ => .error .malformed
  | fuel + 1, buf =>
    match nextComponent buf with
    | .error e => if e = .atEnd then .ok () else .error e
    | .ok (code, value, rest) =>
      if code = multiaddrCodeP2p ∧ ¬ validateP2pValue value then .error .malformed
      else validateLoop fuel rest

/-- `libp2p_multiaddr_validate` (`multiaddr.c:1100-1134`). -/
def multiaddrValidate (buf : Bytes) : Except MultiaddrErr Unit := validateLoop (buf.length + 1) buf

/-- `libp2p_multiaddr_append_component` (`multiaddr.c:1264-1428`) into a buffer (`none` for NULL, or
    its length) at a position: the bytes it stores there, and the position behind them even where they
    do not fit. Positions stay far below `SIZE_MAX`, so sums do not overflow. -/
def appendComponent (code : Nat) (value : Bytes) (buf : Option Nat) (pos : Nat) :
    Except MultiaddrErr Bytes × Nat :=
  match findProtocolByCode code with
  | none => (.error .unsupportedProtocol, pos)
  | some protocol =>
    let legal : Bool :=
      match protocol.valueClass with
      | .valueNone => value.length = 0
      | .valueFixed => value.length = protocol.fixedSize
      | .valueVariable => value.length ≤ 0x7FFFFFFFFFFFFFFF ∧ validateP2pValue value
    if ¬ legal then (.error .invalidValue, pos)
    else
      let total := pos + (uvarintSize code +
        (if protocol.valueClass = .valueVariable then uvarintSize value.length else 0) + value.length)
      match uvarintEncode code 10 with
      | .error _ => (.error .invalidValue, total)
      | .ok codeBuf =>
        if buf.all (· < total) then (.error .bufTooSmall, total)
        else if protocol.valueClass = .valueVariable then
          match uvarintEncode value.length 10 with
          | .error _ => (.error .invalidValue, total)
          | .ok lengthBuf => (.ok (codeBuf ++ lengthBuf ++ value), total)
        else (.ok (codeBuf ++ value), total)

/-! ## Components -/

/-- The size of a value that a protocol has. -/
def MultiaddrProtocolEntry.Sized (protocol : MultiaddrProtocolEntry) (value : Bytes) : Prop :=
  match protocol.valueClass with
  | .valueNone => value = []
  | .valueFixed => value.length = protocol.fixedSize
  | .valueVariable => value.length < 2 ^ 63

/-- The bytes of a component. -/
def componentBytes (protocol : MultiaddrProtocolEntry) (value : Bytes) : Bytes :=
  uvarintEncodeLoop 9 protocol.code ++
    ((if protocol.valueClass = .valueVariable then uvarintEncodeLoop 9 value.length else []) ++ value)

/-- A component of a protocol in the table, whose value is a multihash where it is a peer id. -/
structure ValidComponent (component : MultiaddrProtocolEntry × Bytes) : Prop where
  mem : component.1 ∈ multiaddrProtocolTable
  sized : component.1.Sized component.2
  multihash : component.1 = multiaddrP2p → validateP2pValue component.2 = true

/-- The bytes of some components. -/
def multiaddrBytes (components : List (MultiaddrProtocolEntry × Bytes)) : Bytes :=
  components.flatMap fun component => componentBytes component.1 component.2

theorem findProtocolByCode_mem (h : protocol ∈ multiaddrProtocolTable) : findProtocolByCode protocol.code = some protocol := by
  have hall : ∀ entry ∈ multiaddrProtocolTable, findProtocolByCode entry.code = some entry := by
    decide
  exact hall protocol h

theorem findProtocolByCode_some {code : Nat} {protocol : MultiaddrProtocolEntry}
    (h : findProtocolByCode code = some protocol) :
    protocol ∈ multiaddrProtocolTable ∧ protocol.code = code :=
  ⟨List.mem_of_find?_eq_some h, by simpa using List.find?_some h⟩

theorem code_lt (h : protocol ∈ multiaddrProtocolTable) : protocol.code < 2 ^ 63 := by
  have hall : ∀ entry ∈ multiaddrProtocolTable, entry.code < 2 ^ 63 := by decide
  exact hall protocol h

theorem code_p2p (h : protocol ∈ multiaddrProtocolTable) :
    (protocol.code = multiaddrCodeP2p ↔ protocol = multiaddrP2p) ∧
      (protocol.valueClass = .valueVariable ↔ protocol = multiaddrP2p) := by
  have hall : ∀ entry ∈ multiaddrProtocolTable,
      (entry.code = multiaddrCodeP2p ↔ entry = multiaddrP2p) ∧
        (entry.valueClass = .valueVariable ↔ entry = multiaddrP2p) := by decide
  exact hall protocol h

theorem componentBytes_ne_nil (protocol : MultiaddrProtocolEntry) (value : Bytes) :
    componentBytes protocol value ≠ [] := by
  have hcode := uvarintEncodeLoop_ne_nil 9 protocol.code
  simp [componentBytes, hcode]

/-- A component is read off the front of the bytes. -/
theorem nextComponent_componentBytes (hmem : protocol ∈ multiaddrProtocolTable) {value : Bytes} (hsized : protocol.Sized value)
    (rest : Bytes) :
    nextComponent (componentBytes protocol value ++ rest) = .ok (protocol.code, value, rest) := by
  have hne : componentBytes protocol value ++ rest ≠ [] := by simp [componentBytes_ne_nil]
  unfold nextComponent
  rw [if_neg hne, componentBytes, List.append_assoc, uvarintDecode_encodeLoop (code_lt hmem)]
  dsimp only
  rw [findProtocolByCode_mem hmem, List.drop_left]
  dsimp only
  unfold MultiaddrProtocolEntry.Sized at hsized
  cases hclass : protocol.valueClass with
  | valueNone =>
    rw [hclass] at hsized
    rw [if_neg (by decide), show value = [] from hsized]
    rfl
  | valueFixed =>
    simp only [hclass] at hsized
    rw [if_neg (by decide), List.nil_append]
    dsimp only
    rw [if_neg (by rw [List.length_append]; omega), ← hsized, List.take_left, List.drop_left]
  | valueVariable =>
    simp only [hclass] at hsized
    rw [if_pos rfl]
    dsimp only
    rw [List.append_assoc, uvarintDecode_encodeLoop hsized]
    dsimp only
    rw [List.drop_left, if_neg (by rw [List.length_append]; omega), List.take_left, List.drop_left]

/-- What is read off the front of the bytes is a component. -/
theorem nextComponent_ok {buf value rest : Bytes} {code : Nat}
    (h : nextComponent buf = .ok (code, value, rest)) :
    ∃ protocol ∈ multiaddrProtocolTable, protocol.code = code ∧ protocol.Sized value ∧
      buf = componentBytes protocol value ++ rest := by
  unfold nextComponent at h
  split at h
  · cases h
  cases hcode : uvarintDecode buf with
  | error e => simp [hcode] at h
  | ok found =>
    obtain ⟨foundCode, codeRead⟩ := found
    simp only [hcode] at h
    cases hfind : findProtocolByCode foundCode with
    | none => simp [hfind] at h
    | some protocol =>
      obtain ⟨hmem, rfl⟩ := findProtocolByCode_some hfind
      have hbuf := uvarintDecode_canonical hcode
      simp only [hfind] at h
      cases hclass : protocol.valueClass with
      | valueNone =>
        simp only [hclass, Except.ok.injEq, Prod.mk.injEq] at h
        obtain ⟨rfl, rfl, rfl⟩ := h
        refine ⟨protocol, hmem, rfl, by simp [MultiaddrProtocolEntry.Sized, hclass], ?_⟩
        rw [componentBytes, hclass, if_neg (by decide), List.append_nil, List.append_nil, ← hbuf]
      | valueFixed =>
        simp only [hclass] at h
        split at h
        · cases h
        rename_i hroom
        simp only [Except.ok.injEq, Prod.mk.injEq] at h
        obtain ⟨rfl, rfl, rfl⟩ := h
        refine ⟨protocol, hmem, rfl, ?_, ?_⟩
        · simp only [MultiaddrProtocolEntry.Sized, hclass]
          rw [List.length_take]
          omega
        · rw [componentBytes, hclass, if_neg (by decide), List.nil_append, List.append_assoc,
            List.take_append_drop, ← hbuf]
      | valueVariable =>
        simp only [hclass] at h
        cases hlength : uvarintDecode (buf.drop codeRead) with
        | error e => simp [hlength] at h
        | ok length =>
          obtain ⟨declaredLen, lengthRead⟩ := length
          simp only [hlength] at h
          split at h
          · cases h
          rename_i hroom
          simp only [Except.ok.injEq, Prod.mk.injEq] at h
          obtain ⟨rfl, rfl, rfl⟩ := h
          have hrest := uvarintDecode_canonical hlength
          have htake : (((buf.drop codeRead).drop lengthRead).take declaredLen).length =
              declaredLen := by
            rw [List.length_take]
            omega
          refine ⟨protocol, hmem, rfl, ?_, ?_⟩
          · simp only [MultiaddrProtocolEntry.Sized, hclass]
            rw [htake]
            exact uvarintDecode_value_lt hlength
          · rw [componentBytes, hclass, if_pos rfl, htake, List.append_assoc, List.append_assoc,
              List.take_append_drop, ← hrest, ← hbuf]

theorem nextComponent_atEnd {buf : Bytes} (h : nextComponent buf = .error .atEnd) : buf = [] := by
  have hmap (err : UvarintErr) : multiaddrMapVarintErr err ≠ .atEnd := by
    cases err <;> simp [multiaddrMapVarintErr]
  unfold nextComponent at h
  split at h
  · assumption
  split at h
  · exact absurd (Except.error.inj h) (hmap _)
  dsimp only at h
  split at h
  · cases h
  split at h
  · cases h
  · split at h <;> cases h
  · split at h
    · exact absurd (Except.error.inj h) (hmap _)
    · split at h <;> cases h

/-- The bytes that validate are those of valid components. -/
theorem validateLoop_ok_iff {fuel : Nat} {buf : Bytes} (hfuel : buf.length < fuel) :
    validateLoop fuel buf = .ok () ↔
      ∃ components, (∀ c ∈ components, ValidComponent c) ∧ buf = multiaddrBytes components := by
  induction fuel generalizing buf with
  | zero => omega
  | succ fuel ih =>
    unfold validateLoop
    constructor
    · intro h
      split at h
      · split at h
        · rename_i hnext hend
          subst hend
          exact ⟨[], by simp, nextComponent_atEnd hnext⟩
        · cases h
      · rename_i code value rest hnext
        split at h
        · cases h
        rename_i hp2p
        obtain ⟨protocol, hmem, rfl, hsized, rfl⟩ := nextComponent_ok hnext
        have hpos := List.length_pos_of_ne_nil (componentBytes_ne_nil protocol value)
        rw [List.length_append] at hfuel
        obtain ⟨components, hvalid, rfl⟩ := (ih (by omega)).mp h
        refine ⟨(protocol, value) :: components, List.forall_mem_cons.mpr ⟨⟨hmem, hsized, ?_⟩, hvalid⟩,
          rfl⟩
        intro heq
        by_contra hvalue
        exact hp2p ⟨(code_p2p hmem).1.mpr heq, hvalue⟩
    · rintro ⟨components, hvalid, rfl⟩
      cases components with
      | nil => rfl
      | cons component components =>
        obtain ⟨protocol, value⟩ := component
        rw [List.forall_mem_cons] at hvalid
        have hpos := List.length_pos_of_ne_nil (componentBytes_ne_nil protocol value)
        have hbytes : multiaddrBytes ((protocol, value) :: components) =
            componentBytes protocol value ++ multiaddrBytes components := rfl
        rw [hbytes, List.length_append] at hfuel
        rw [hbytes, nextComponent_componentBytes hvalid.1.mem hvalid.1.sized]
        dsimp only
        rw [if_neg, (ih (by omega)).mpr ⟨components, hvalid.2, rfl⟩]
        rintro ⟨hcode, hvalue⟩
        exact hvalue (hvalid.1.multihash ((code_p2p hvalid.1.mem).1.mp hcode))

theorem multiaddrValidate_ok_iff {buf : Bytes} :
    multiaddrValidate buf = .ok () ↔
      ∃ components, (∀ c ∈ components, ValidComponent c) ∧ buf = multiaddrBytes components :=
  validateLoop_ok_iff (Nat.lt_succ_self _)

/-- A valid component is appended: its bytes where they fit, and the position behind them. -/
theorem appendComponent_valid {value : Bytes}
    (hvalid : ValidComponent (protocol, value)) (buf : Option Nat) (pos : Nat) :
    appendComponent protocol.code value buf pos =
      (if buf.all (· < pos + (componentBytes protocol value).length) then .error .bufTooSmall
        else .ok (componentBytes protocol value), pos + (componentBytes protocol value).length) := by
  obtain ⟨hmem, hsized, hmultihash⟩ := hvalid
  have hcode := uvarintEncode_ok (code_lt hmem) (uvarintSize_le protocol.code)
  have hcodeLen : (uvarintEncodeLoop 9 protocol.code).length = uvarintSize protocol.code :=
    uvarintEncodeLoop_length 9 _
  unfold MultiaddrProtocolEntry.Sized at hsized
  dsimp only at hmem hsized hmultihash
  unfold appendComponent componentBytes
  rw [findProtocolByCode_mem hmem]
  dsimp only
  cases hclass : protocol.valueClass with
  | valueNone =>
    rw [hclass] at hsized
    obtain rfl : value = [] := hsized
    simp [hcode, hcodeLen]
    split <;> rfl
  | valueFixed =>
    simp only [hclass] at hsized
    simp [hsized, hcode, hcodeLen]
    split <;> rfl
  | valueVariable =>
    simp only [hclass] at hsized
    have hvalue := hmultihash ((code_p2p hmem).2.mp hclass)
    have hlength := uvarintEncode_ok hsized (uvarintSize_le value.length)
    have hlengthLen : (uvarintEncodeLoop 9 value.length).length = uvarintSize value.length :=
      uvarintEncodeLoop_length 9 _
    have hle : value.length ≤ 0x7FFFFFFFFFFFFFFF := by omega
    simp [hvalue, hle, hcode, hcodeLen, hlength, hlengthLen, Nat.add_assoc]
    split <;> rfl

end LeanLibp2p
