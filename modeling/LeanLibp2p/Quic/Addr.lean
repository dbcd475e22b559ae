import LeanLibp2p.Multiaddr.Agreement
import LeanLibp2p.Multiaddr.Encapsulation
import LeanLibp2p.Multiformats.MultibaseCodec
import LeanLibp2p.PeerId.Agreement
import LeanLibp2p.Quic.Endpoint

/-!
# QUIC addresses as multiaddrs

`quic_addr.c`: an address is written as an IP, a UDP and a QUIC component with a peer id behind them
where it has one, and read back from such components. The reader lets peer ids without bytes pass.
-/

namespace LeanLibp2p.Quic

variable (lib : Secp256k1)
variable {multiaddr : Bytes}

/-- `quic_addr_peer_id_is_valid` (`quic_addr.c:12-29`). -/
def quicAddrPeerIdIsValid (peerId : Bytes) : Except QuicErr Unit :=
  if peerId = [] ∨ peerIdMaxBytes < peerId.length then .error .invalidArg
  else
    match (lib.peerIdToString peerId 0).1 with
    | .error .bufTooSmall => .ok ()
    | _ => .error .addr

/-- The test of `libp2p_quic_addr_validate` for a peer id. -/
def peerIdIsValid (peerId : Bytes) : Bool := (quicAddrPeerIdIsValid lib peerId).isOk

namespace QuicAddr

/-- `quic_addr_clear` (`quic_addr.c:31-34`); the family of zero is IP4. -/
def cleared : QuicAddr where
  family := .ip4
  ip := List.replicate 16 0
  port := 0
  hasPeerId := false
  peerId := []

/-- `libp2p_quic_addr_set_peer_id` (`quic_addr.c:110-139`). -/
def setPeerId (addr : QuicAddr) (peerId : Bytes) : Except QuicErr QuicAddr :=
  if peerId = [] then .ok { addr with hasPeerId := false, peerId := [] }
  else
    match quicAddrPeerIdIsValid lib peerId with
    | .error e => .error e
    | .ok () => .ok { addr with hasPeerId := true, peerId := peerId }

/-- `libp2p_quic_addr_equal` (`quic_addr.c:392-428`). -/
def equal (a b : QuicAddr) (comparePeerId : Bool) : Bool :=
  if a.family ≠ b.family ∨ a.port ≠ b.port then false
  else
    let ipLen := if a.family = .ip4 then 4 else 16
    if a.ip.take ipLen ≠ b.ip.take ipLen then false
    else if comparePeerId then
      if a.hasPeerId ≠ b.hasPeerId ∨ a.peerId.length ≠ b.peerId.length then false
      else ¬ (a.hasPeerId ∧ a.peerId ≠ b.peerId)
    else true

end QuicAddr

/-- The flags of `libp2p_quic_addr_from_multiaddr` and the address it fills. -/
structure AddrScan where
  parsed : QuicAddr
  sawIp : Bool
  sawUdp : Bool
  sawQuic : Bool
  deriving DecidableEq, Repr

variable {scan scan' : AddrScan} {cs : List (MultiaddrProtocolEntry × Bytes)}

/-- What the loop of `libp2p_quic_addr_from_multiaddr` does with a component. -/
def addrComponent (scan : AddrScan) (code : Nat) (value : Bytes) : Except QuicErr AddrScan :=
  if code = multiaddrCodeIp4 then
    if scan.sawIp ∨ scan.sawUdp ∨ scan.sawQuic ∨ value.length ≠ 4 then .error .addr
    else
      .ok { scan with
        parsed := { scan.parsed with family := .ip4, ip := value ++ scan.parsed.ip.drop 4 }
        sawIp := true }
  else if code = multiaddrCodeIp6 then
    if scan.sawIp ∨ scan.sawUdp ∨ scan.sawQuic ∨ value.length ≠ 16 then .error .addr
    else
      .ok { scan with
        parsed := { scan.parsed with family := .ip6, ip := value ++ scan.parsed.ip.drop 16 }
        sawIp := true }
  else if code = multiaddrCodeUdp then
    if ¬ scan.sawIp ∨ scan.sawUdp ∨ scan.sawQuic ∨ value.length ≠ 2 then .error .addr
    else
      .ok { scan with
        parsed := { scan.parsed with port := (value.getD 0 0).toNat <<< 8 ||| (value.getD 1 0).toNat }
        sawUdp := true }
  else if code = multiaddrCodeQuicV1 then
    if ¬ scan.sawIp ∨ ¬ scan.sawUdp ∨ scan.sawQuic ∨ value.length ≠ 0 then .error .addr
    else .ok { scan with sawQuic := true }
  else if code = multiaddrCodeP2p then
    if ¬ scan.sawQuic ∨ scan.parsed.hasPeerId then .error .addr
    else
      match scan.parsed.setPeerId lib value with
      | .error _ => .error .addr
      | .ok parsed => .ok { scan with parsed := parsed }
  else .error .addr

/-- The loop of `libp2p_quic_addr_from_multiaddr`; a component takes at least one byte. -/
def addrLoop (lib : Secp256k1) : (fuel : Nat) → Bytes → AddrScan → Except QuicErr AddrScan
  | 0, _, _ => .error .addr
  | fuel + 1, buf, scan =>
    match nextComponent buf with
    | .error e => if e = .atEnd then .ok scan else .error .addr
    | .ok (code, value, rest) =>
      match addrComponent lib scan code value with
      | .error e => .error e
      | .ok scan => addrLoop lib fuel rest scan

/-- The address that `libp2p_quic_addr_from_multiaddr` reads. -/
def parseMultiaddr (multiaddr : Bytes) : Except QuicErr QuicAddr :=
  if multiaddr = [] then .error .invalidArg
  else
    match addrLoop lib (multiaddr.length + 1) multiaddr ⟨.cleared, false, false, false⟩ with
    | .error e => .error e
    | .ok scan =>
      if ¬ scan.sawIp ∨ ¬ scan.sawUdp ∨ ¬ scan.sawQuic then .error .addr else .ok scan.parsed

/-- `libp2p_quic_addr_from_multiaddr` (`quic_addr.c:190-304`): the result and what `*out` is then. -/
def fromMultiaddr (multiaddr : Bytes) (out : QuicAddr) : Except QuicErr Unit × QuicAddr :=
  match parseMultiaddr lib multiaddr with
  | .error e => (.error e, out)
  | .ok parsed => (.ok (), parsed)

/-- The variables of `libp2p_quic_addr_to_multiaddr`, with the bytes it stored. -/
structure AddrWriter where
  stored : Bytes
  pos : Nat
  tooSmall : Bool
  result : Except QuicErr Unit

/-- `quic_addr_append_component` (`quic_addr.c:36-64`) behind the test of `result`. -/
def AddrWriter.append (out : Option Nat) (writer : AddrWriter) (code : Nat) (value : Bytes) :
    AddrWriter :=
  match writer.result with
  | .error _ => writer
  | .ok () =>
    let appended := appendComponent code value out writer.pos
    match appended.1 with
    | .ok bytes => { writer with stored := writer.stored ++ bytes, pos := appended.2 }
    | .error .bufTooSmall => { writer with tooSmall := true, pos := appended.2 }
    | .error _ => { writer with result := .error .addr, pos := appended.2 }

/-- The end of `libp2p_quic_addr_to_multiaddr`. -/
def AddrWriter.finish (writer : AddrWriter) : Except QuicErr Bytes × Nat :=
  match writer.result with
  | .error e => (.error e, writer.pos)
  | .ok () =>
    if writer.tooSmall then (.error .bufTooSmall, writer.pos) else (.ok writer.stored, writer.pos)

/-- `libp2p_quic_addr_to_multiaddr` (`quic_addr.c:306-390`) into a buffer (`none` for NULL, or its
    length): the bytes, and what `*written` is. -/
def toMultiaddr (addr : QuicAddr) (out : Option Nat) : Except QuicErr Bytes × Nat :=
  match addr.validate (peerIdIsValid lib) with
  | .error e => (.error e, 0)
  | .ok () =>
    let ip4 := addr.family = .ip4
    let writer : AddrWriter := ⟨[], 0, false, .ok ()⟩
    let writer := writer.append out (if ip4 then multiaddrCodeIp4 else multiaddrCodeIp6)
      (addr.ip.take (if ip4 then 4 else 16))
    let writer := writer.append out multiaddrCodeUdp
      [UInt8.ofNat (addr.port >>> 8), UInt8.ofNat (addr.port &&& 0xff)]
    let writer := writer.append out multiaddrCodeQuicV1 []
    let writer := if addr.hasPeerId then writer.append out multiaddrCodeP2p addr.peerId else writer
    writer.finish

/-! ## Peer ids -/

theorem multihashDecode_multihash {code : Nat} {digest : Bytes} (hlen : digest.length < 128)
    (hcode : code = multihashCodeIdentity ∨ code = multihashCodeSha2_256 ∧ digest.length = 32) :
    multihashDecode (multihash code digest) = .ok (code, digest, (multihash code digest).length) := by
  have hidentity : multihashCodeIdentity = 0 := rfl
  have hsha : multihashCodeSha2_256 = 18 := rfl
  have hheader : multihashReadHeader (multihash code digest) = .ok (code, digest.length, 2) :=
    (multihashReadHeader_small (by omega) hlen).mpr ⟨rfl, digest, rfl⟩
  have hchecked : multihashValidateCodeAndLength code digest.length = .ok () := by
    unfold multihashValidateCodeAndLength
    rw [if_neg (by omega)]
    obtain rfl | ⟨rfl, hdigest⟩ := hcode
    · rw [if_pos rfl]
    · rw [if_neg (by decide), if_pos rfl, hdigest]
      rfl
  rw [multihashDecode, hheader]
  dsimp only
  rw [hchecked]
  simp only [multihash, List.length_cons, List.drop_succ_cons, List.drop_zero, List.take_length]
  rw [if_neg (by omega), Nat.add_comm 2]

variable {lib : Secp256k1}

/-- A valid peer id is a multihash. -/
theorem validPeerId_p2pValue {id : Bytes} (h : lib.ValidPeerId id) :
    validateP2pValue id = true := by
  have hid := h.length_le
  have hmax : peerIdMaxBytes = 39 := rfl
  refine validateP2pValue_iff.mpr ?_
  obtain ⟨key, -, hkey, rfl⟩ | ⟨digest, hdigest, rfl⟩ := h.cases
  · have hlen := keyMessage_length key
    exact ⟨_, _, multihashDecode_multihash (by omega) (.inl rfl)⟩
  · exact ⟨_, _, multihashDecode_multihash (by omega) (.inr ⟨rfl, hdigest⟩)⟩

theorem validPeerId_ne_nil {id : Bytes} (h : lib.ValidPeerId id) : id ≠ [] := by
  obtain ⟨key, -, -, rfl⟩ | ⟨digest, -, rfl⟩ := h.cases <;> simp [multihash]

/-- The test of an address accepts the valid peer ids. -/
theorem quicAddrPeerIdIsValid_iff {id : Bytes} :
    quicAddrPeerIdIsValid lib id = .ok () ↔ lib.ValidPeerId id := by
  unfold quicAddrPeerIdIsValid
  constructor
  · intro h
    split at h
    · cases h
    cases hvalid : lib.validateBinaryPeerId id with
    | ok _ => exact hvalid
    | error e =>
      have hne := Secp256k1.validateBinaryPeerId_error hvalid
      simp only [Secp256k1.peerIdToString, hvalid] at h
      split at h
      · rename_i heq
        exact absurd (Except.error.inj heq) hne
      · cases h
  · intro h
    have hlen := h.length_le
    have hpos := List.length_pos_of_ne_nil (validPeerId_ne_nil h)
    have htext := base58Text_length_ge id
    rw [if_neg (by rw [← List.length_eq_zero_iff]; omega), Secp256k1.peerIdToString_valid h,
      if_neg (by omega)]

theorem peerIdIsValid_iff {id : Bytes} : peerIdIsValid lib id = true ↔ lib.ValidPeerId id := by
  rw [← quicAddrPeerIdIsValid_iff, peerIdIsValid]
  cases quicAddrPeerIdIsValid lib id with
  | ok _ => exact iff_of_true rfl rfl
  | error e => exact iff_of_false Bool.false_ne_true (by simp)

theorem setPeerId_ok_iff {addr addr' : QuicAddr} {id : Bytes} :
    addr.setPeerId lib id = .ok addr' ↔
      (id = [] ∧ addr' = { addr with hasPeerId := false, peerId := [] }) ∨
        (lib.ValidPeerId id ∧ addr' = { addr with hasPeerId := true, peerId := id }) := by
  unfold QuicAddr.setPeerId
  by_cases hnil : id = []
  · subst hnil
    have hne : ¬ lib.ValidPeerId [] := fun h => validPeerId_ne_nil h rfl
    simp only [if_true, Except.ok.injEq, true_and, hne, false_and, or_false]
    exact eq_comm
  · rw [if_neg hnil]
    cases hvalid : quicAddrPeerIdIsValid lib id with
    | ok _ =>
      simp only [hnil, false_and, false_or, quicAddrPeerIdIsValid_iff.mp hvalid, true_and,
        Except.ok.injEq]
      exact eq_comm
    | error e =>
      have hne : ¬ lib.ValidPeerId id := by
        rw [← quicAddrPeerIdIsValid_iff, hvalid]
        simp
      simp [hnil, hne]

/-! ## What the reader accepts -/

/-- The components that an address is read from: an IP address, the bytes of a port and a peer id. -/
@[ext]
structure AddrParts where
  ip : MultiaddrProtocolEntry × Bytes
  udp : Bytes
  peer : Option Bytes

namespace AddrParts

/-- The sizes of the components, and a valid peer id. -/
structure Valid (lib : Secp256k1) (parts : AddrParts) : Prop where
  ip : parts.ip.1 = multiaddrIp4 ∧ parts.ip.2.length = 4 ∨
    parts.ip.1 = multiaddrIp6 ∧ parts.ip.2.length = 16
  udp : parts.udp.length = 2
  peer : ∀ id ∈ parts.peer, lib.ValidPeerId id

/-- The components behind `quic-v1`: some peer ids without bytes and the peer id. -/
def peers (empty : Nat) (peer : Option Bytes) : List (MultiaddrProtocolEntry × Bytes) :=
  List.replicate empty (multiaddrP2p, []) ++ peer.toList.map fun id => (multiaddrP2p, id)

/-- The components in their order. -/
def components (parts : AddrParts) (empty : Nat) : List (MultiaddrProtocolEntry × Bytes) :=
  parts.ip :: (multiaddrUdp, parts.udp) :: (multiaddrQuicV1, []) :: peers empty parts.peer

/-- The address that the components say. -/
def addr (parts : AddrParts) : QuicAddr where
  family := if parts.ip.1 = multiaddrIp4 then .ip4 else .ip6
  ip := parts.ip.2 ++ List.replicate (16 - parts.ip.2.length) 0
  port := (parts.udp.getD 0 0).toNat <<< 8 ||| (parts.udp.getD 1 0).toNat
  hasPeerId := parts.peer.isSome
  peerId := parts.peer.getD []

end AddrParts

/-- The steps of the loop over some components. -/
def scanComponents (lib : Secp256k1) (scan : AddrScan)
    (cs : List (MultiaddrProtocolEntry × Bytes)) : Except QuicErr AddrScan :=
  cs.foldlM (fun scan c => addrComponent lib scan c.1.code c.2) scan

theorem scanComponents_cons {c : MultiaddrProtocolEntry × Bytes}
    {cs : List (MultiaddrProtocolEntry × Bytes)} :
    scanComponents lib scan (c :: cs) = .ok scan' ↔
      ∃ next, addrComponent lib scan c.1.code c.2 = .ok next ∧
        scanComponents lib next cs = .ok scan' := by
  rw [scanComponents, List.foldlM_cons]
  cases addrComponent lib scan c.1.code c.2 with
  | error e => simp [bind, Except.bind]
  | ok next => simp [bind, Except.bind, scanComponents]

/-- The loop accepts the bytes of components whose steps it accepts. -/
theorem addrLoop_ok_iff {fuel : Nat} {buf : Bytes} {scan scan' : AddrScan}
    (hfuel : buf.length < fuel) :
    addrLoop lib fuel buf scan = .ok scan' ↔
      ∃ cs, (∀ c ∈ cs, ReadComponent c) ∧ buf = multiaddrBytes cs ∧
        scanComponents lib scan cs = .ok scan' := by
  induction fuel generalizing buf scan with
  | zero => omega
  | succ fuel ih =>
    unfold addrLoop
    constructor
    · intro h
      split at h
      · split at h
        · rename_i hnext hend
          subst hend
          exact ⟨[], by simp, nextComponent_atEnd hnext, h⟩
        · cases h
      · rename_i code value rest hnext
        obtain ⟨protocol, hmem, rfl, hsized, rfl⟩ := nextComponent_ok hnext
        have hpos := List.length_pos_of_ne_nil (componentBytes_ne_nil protocol value)
        rw [List.length_append] at hfuel
        split at h
        · cases h
        rename_i next hstep
        obtain ⟨cs, hread, rfl, hscan⟩ := (ih (by omega)).mp h
        exact ⟨(protocol, value) :: cs, List.forall_mem_cons.mpr ⟨⟨hmem, hsized⟩, hread⟩, rfl,
          scanComponents_cons.mpr ⟨next, hstep, hscan⟩⟩
    · intro h
      obtain ⟨cs, hread, rfl, hscan⟩ := h
      cases cs with
      | nil => exact hscan
      | cons c cs =>
        rw [List.forall_mem_cons] at hread
        obtain ⟨next, hstep, hrest⟩ := scanComponents_cons.mp hscan
        have hpos := List.length_pos_of_ne_nil (componentBytes_ne_nil c.1 c.2)
        rw [multiaddrBytes_cons, List.length_append] at hfuel
        rw [multiaddrBytes_cons, nextComponent_componentBytes hread.1.mem hread.1.sized]
        dsimp only
        rw [hstep]
        exact (ih (by omega)).mpr ⟨cs, hread.2, rfl, hrest⟩

theorem addrComponent_ip4 (scan : AddrScan) (value : Bytes) :
    addrComponent lib scan multiaddrIp4.code value =
      if scan.sawIp ∨ scan.sawUdp ∨ scan.sawQuic ∨ value.length ≠ 4 then .error .addr
      else
        .ok { scan with
          parsed := { scan.parsed with family := .ip4, ip := value ++ scan.parsed.ip.drop 4 }
          sawIp := true } := by
  rw [addrComponent, if_pos (by rfl)]

theorem addrComponent_ip6 (scan : AddrScan) (value : Bytes) :
    addrComponent lib scan multiaddrIp6.code value =
      if scan.sawIp ∨ scan.sawUdp ∨ scan.sawQuic ∨ value.length ≠ 16 then .error .addr
      else
        .ok { scan with
          parsed := { scan.parsed with family := .ip6, ip := value ++ scan.parsed.ip.drop 16 }
          sawIp := true } := by
  rw [addrComponent, if_neg (by decide), if_pos (by rfl)]

theorem addrComponent_udp (scan : AddrScan) (value : Bytes) :
    addrComponent lib scan multiaddrUdp.code value =
      if ¬ scan.sawIp ∨ scan.sawUdp ∨ scan.sawQuic ∨ value.length ≠ 2 then .error .addr
      else
        .ok { scan with
          parsed := { scan.parsed with
            port := (value.getD 0 0).toNat <<< 8 ||| (value.getD 1 0).toNat }
          sawUdp := true } := by
  rw [addrComponent, if_neg (by decide), if_neg (by decide), if_pos (by rfl)]

theorem addrComponent_quicV1 (scan : AddrScan) (value : Bytes) :
    addrComponent lib scan multiaddrQuicV1.code value =
      if ¬ scan.sawIp ∨ ¬ scan.sawUdp ∨ scan.sawQuic ∨ value.length ≠ 0 then .error .addr
      else .ok { scan with sawQuic := true } := by
  rw [addrComponent, if_neg (by decide), if_neg (by decide), if_neg (by decide), if_pos (by rfl)]

theorem addrComponent_p2p_ok_iff {value : Bytes} :
    addrComponent lib scan multiaddrP2p.code value = .ok scan' ↔
      (scan.sawQuic = true ∧ scan.parsed.hasPeerId = false) ∧
        ∃ parsed, scan.parsed.setPeerId lib value = .ok parsed ∧
          scan' = { scan with parsed := parsed } := by
  rw [addrComponent, if_neg (by decide), if_neg (by decide), if_neg (by decide),
    if_neg (by decide), if_pos (by rfl)]
  by_cases hearly : ¬ scan.sawQuic ∨ scan.parsed.hasPeerId
  · rw [if_pos hearly]
    simp only [Bool.not_eq_true] at hearly
    refine iff_of_false (by simp) fun h => ?_
    obtain hquic | hpeer := hearly
    · rw [hquic] at h
      exact Bool.false_ne_true h.1.1
    · rw [hpeer] at h
      exact Bool.false_ne_true h.1.2.symm
  · rw [if_neg hearly]
    simp only [not_or, Bool.not_eq_true] at hearly
    cases scan.parsed.setPeerId lib value with
    | error e => simp
    | ok parsed => simp [hearly, eq_comm]

/-- After a peer id nothing is accepted. -/
theorem scan_peer (hread : ∀ c ∈ cs, ReadComponent c) (hquic : scan.sawQuic = true)
    (hpeer : scan.parsed.hasPeerId = true) :
    scanComponents lib scan cs = .ok scan' ↔ cs = [] ∧ scan' = scan := by
  cases cs with
  | nil => simp [scanComponents, pure, Except.pure, eq_comm]
  | cons c cs =>
    rw [List.forall_mem_cons] at hread
    refine iff_of_false (fun h => ?_) (by simp)
    obtain ⟨next, hstep, -⟩ := scanComponents_cons.mp h
    obtain hp | hp | hp | hp | hp := hread.1.protocol_cases
    · simp [hp, addrComponent_ip4, hquic] at hstep
    · simp [hp, addrComponent_ip6, hquic] at hstep
    · simp [hp, addrComponent_udp, hquic] at hstep
    · simp [hp, addrComponent_quicV1, hquic] at hstep
    · rw [hp, addrComponent_p2p_ok_iff, hpeer] at hstep
      cases hstep.1.2

/-- After `quic-v1`: peer ids without bytes, and at most one with some. -/
theorem scan_quic :
    ∀ {scan scan' : AddrScan}, (∀ c ∈ cs, ReadComponent c) → scan.sawQuic = true →
      scan.parsed.hasPeerId = false → scan.parsed.peerId = [] →
      (scanComponents lib scan cs = .ok scan' ↔
        ∃ empty peer, (∀ id ∈ peer, lib.ValidPeerId id) ∧ cs = AddrParts.peers empty peer ∧
          scan' = { scan with
            parsed := { scan.parsed with hasPeerId := peer.isSome, peerId := peer.getD [] } }) := by
  induction cs with
  | nil =>
    intro scan scan' _ _ hpeer hid
    have hscan : { scan with
        parsed := { scan.parsed with hasPeerId := false, peerId := [] } } = scan := by
      rw [← hpeer, ← hid]
    constructor
    · intro h
      cases h
      exact ⟨0, none, by simp, rfl, hscan.symm⟩
    · intro h
      obtain ⟨empty, peer, -, hcs, rfl⟩ := h
      cases peer with
      | none => exact congrArg Except.ok hscan.symm
      | some id => simp [AddrParts.peers] at hcs
  | cons c cs ih =>
    intro scan scan' hread hquic hpeer hid
    rw [List.forall_mem_cons] at hread
    have hscan : { scan with
        parsed := { scan.parsed with hasPeerId := false, peerId := [] } } = scan := by
      rw [← hpeer, ← hid]
    rw [scanComponents_cons]
    constructor
    · intro h
      obtain ⟨next, hstep, hrest⟩ := h
      obtain hp | hp | hp | hp | hp := hread.1.protocol_cases
      · simp [hp, addrComponent_ip4, hquic] at hstep
      · simp [hp, addrComponent_ip6, hquic] at hstep
      · simp [hp, addrComponent_udp, hquic] at hstep
      · simp [hp, addrComponent_quicV1, hquic] at hstep
      · rw [hp, addrComponent_p2p_ok_iff] at hstep
        obtain ⟨-, parsed, hparsed, rfl⟩ := hstep
        obtain ⟨hnil, rfl⟩ | ⟨hvalid, rfl⟩ := setPeerId_ok_iff.mp hparsed
        · rw [hscan] at hrest
          obtain ⟨empty, peer, hpeers, rfl, rfl⟩ := (ih hread.2 hquic hpeer hid).mp hrest
          refine ⟨empty + 1, peer, hpeers, ?_, rfl⟩
          rw [AddrParts.peers, AddrParts.peers, List.replicate_succ, List.cons_append, ← hp, ← hnil]
        · obtain ⟨rfl, rfl⟩ := (scan_peer hread.2 (by exact hquic) rfl).mp hrest
          refine ⟨0, some c.2, by simpa using hvalid, ?_, rfl⟩
          simp [AddrParts.peers, ← hp]
    · intro h
      obtain ⟨empty, peer, hpeers, hcs, rfl⟩ := h
      cases empty with
      | zero =>
        cases peer with
        | none => simp [AddrParts.peers] at hcs
        | some id =>
          simp only [AddrParts.peers, List.replicate_zero, List.nil_append, Option.toList_some,
            List.map_cons, List.map_nil, List.cons.injEq] at hcs
          obtain ⟨rfl, rfl⟩ := hcs
          refine ⟨_, addrComponent_p2p_ok_iff.mpr ⟨⟨hquic, hpeer⟩, _,
            setPeerId_ok_iff.mpr (.inr ⟨hpeers id rfl, rfl⟩), rfl⟩, ?_⟩
          exact (scan_peer (by simp) (by exact hquic) rfl).mpr ⟨rfl, rfl⟩
      | succ empty =>
        rw [AddrParts.peers, List.replicate_succ, List.cons_append] at hcs
        obtain ⟨rfl, rfl⟩ := List.cons.inj hcs
        refine ⟨scan, addrComponent_p2p_ok_iff.mpr ⟨⟨hquic, hpeer⟩, _,
          setPeerId_ok_iff.mpr (.inl ⟨rfl, rfl⟩), hscan.symm⟩, ?_⟩
        exact (ih hread.2 hquic hpeer hid).mpr ⟨empty, peer, hpeers, rfl, rfl⟩

/-- After the port: `quic-v1` and what may follow it. -/
theorem scan_udp (hread : ∀ c ∈ cs, ReadComponent c) (hip : scan.sawIp = true) (hudp : scan.sawUdp = true)
    (hquic : scan.sawQuic = false) (hpeer : scan.parsed.hasPeerId = false)
    (hid : scan.parsed.peerId = []) :
    scanComponents lib scan cs = .ok scan' ∧ scan'.sawQuic = true ↔
      ∃ empty peer, (∀ id ∈ peer, lib.ValidPeerId id) ∧
        cs = (multiaddrQuicV1, []) :: AddrParts.peers empty peer ∧
        scan' = { scan with
          parsed := { scan.parsed with hasPeerId := peer.isSome, peerId := peer.getD [] }
          sawQuic := true } := by
  cases cs with
  | nil =>
    refine iff_of_false (fun h => ?_) (by simp)
    obtain ⟨hscan, hsaw⟩ := h
    cases hscan
    exact Bool.false_ne_true (hquic.symm.trans hsaw)
  | cons c cs =>
    rw [List.forall_mem_cons] at hread
    rw [scanComponents_cons]
    constructor
    · intro h
      obtain ⟨⟨next, hstep, hrest⟩, -⟩ := h
      obtain hp | hp | hp | hp | hp := hread.1.protocol_cases
      · simp [hp, addrComponent_ip4, hip] at hstep
      · simp [hp, addrComponent_ip6, hip] at hstep
      · simp [hp, addrComponent_udp, hudp] at hstep
      · rw [hp, addrComponent_quicV1] at hstep
        split at hstep
        · cases hstep
        · rename_i hok
          simp only [not_or, not_not] at hok
          cases hstep
          obtain ⟨empty, peer, hpeers, rfl, rfl⟩ :=
            (scan_quic hread.2 (by rfl) (by exact hpeer) (by exact hid)).mp hrest
          refine ⟨empty, peer, hpeers, ?_, rfl⟩
          rw [← hp, ← List.length_eq_zero_iff.mp hok.2.2.2]
      · rw [hp, addrComponent_p2p_ok_iff, hquic] at hstep
        cases hstep.1.1
    · intro h
      obtain ⟨empty, peer, hpeers, hcs, rfl⟩ := h
      obtain ⟨rfl, rfl⟩ := List.cons.inj hcs
      refine ⟨⟨{ scan with sawQuic := true }, ?_, ?_⟩, rfl⟩
      · simp [addrComponent_quicV1, hip, hudp, hquic]
      · exact (scan_quic hread.2 (by rfl) (by exact hpeer) (by exact hid)).mpr
          ⟨empty, peer, hpeers, rfl, rfl⟩

/-- After the IP address: a port, `quic-v1` and what may follow. -/
theorem scan_ip (hread : ∀ c ∈ cs, ReadComponent c) (hip : scan.sawIp = true) (hudp : scan.sawUdp = false)
    (hquic : scan.sawQuic = false) (hpeer : scan.parsed.hasPeerId = false)
    (hid : scan.parsed.peerId = []) :
    scanComponents lib scan cs = .ok scan' ∧ scan'.sawUdp = true ∧ scan'.sawQuic = true ↔
      ∃ udp empty peer, udp.length = 2 ∧ (∀ id ∈ peer, lib.ValidPeerId id) ∧
        cs = (multiaddrUdp, udp) :: (multiaddrQuicV1, []) :: AddrParts.peers empty peer ∧
        scan' = { scan with
          parsed := { scan.parsed with
            port := (udp.getD 0 0).toNat <<< 8 ||| (udp.getD 1 0).toNat
            hasPeerId := peer.isSome
            peerId := peer.getD [] }
          sawUdp := true
          sawQuic := true } := by
  cases cs with
  | nil =>
    refine iff_of_false (fun h => ?_) (by simp)
    obtain ⟨hscan, hsaw, -⟩ := h
    cases hscan
    exact Bool.false_ne_true (hudp.symm.trans hsaw)
  | cons c cs =>
    rw [List.forall_mem_cons] at hread
    rw [scanComponents_cons]
    constructor
    · intro h
      obtain ⟨⟨next, hstep, hrest⟩, -, hsaw⟩ := h
      obtain hp | hp | hp | hp | hp := hread.1.protocol_cases
      · simp [hp, addrComponent_ip4, hip] at hstep
      · simp [hp, addrComponent_ip6, hip] at hstep
      · rw [hp, addrComponent_udp] at hstep
        split at hstep
        · cases hstep
        · rename_i hok
          simp only [not_or, not_not] at hok
          cases hstep
          obtain ⟨empty, peer, hpeers, rfl, rfl⟩ := (scan_udp hread.2 (by exact hip) (by rfl)
            (by exact hquic) (by exact hpeer) (by exact hid)).mp ⟨hrest, hsaw⟩
          exact ⟨c.2, empty, peer, hok.2.2.2, hpeers, by rw [← hp], rfl⟩
      · simp [hp, addrComponent_quicV1, hudp] at hstep
      · rw [hp, addrComponent_p2p_ok_iff, hquic] at hstep
        cases hstep.1.1
    · intro h
      obtain ⟨udp, empty, peer, hlen, hpeers, hcs, rfl⟩ := h
      obtain ⟨rfl, rfl⟩ := List.cons.inj hcs
      refine ⟨⟨{ scan with
        parsed := { scan.parsed with
          port := (udp.getD 0 0).toNat <<< 8 ||| (udp.getD 1 0).toNat }
        sawUdp := true }, ?_, ?_⟩, rfl, rfl⟩
      · simp [addrComponent_udp, hip, hudp, hquic, hlen]
      · exact ((scan_udp hread.2 (by exact hip) (by rfl) (by exact hquic) (by exact hpeer)
          (by exact hid)).mpr ⟨empty, peer, hpeers, rfl, rfl⟩).1

/-- From the start: the components of an address. -/
theorem scan_start {scan' : AddrScan} {cs : List (MultiaddrProtocolEntry × Bytes)}
    (hread : ∀ c ∈ cs, ReadComponent c) :
    (scanComponents lib ⟨.cleared, false, false, false⟩ cs = .ok scan' ∧
        scan'.sawIp = true ∧ scan'.sawUdp = true ∧ scan'.sawQuic = true) ↔
      ∃ parts empty, AddrParts.Valid lib parts ∧ cs = parts.components empty ∧
        scan' = ⟨parts.addr, true, true, true⟩ := by
  cases cs with
  | nil =>
    refine iff_of_false (fun h => ?_) (by simp [AddrParts.components])
    obtain ⟨hscan, hsaw, -⟩ := h
    cases hscan
    exact Bool.false_ne_true hsaw
  | cons c cs =>
    rw [List.forall_mem_cons] at hread
    rw [scanComponents_cons]
    constructor
    · intro h
      obtain ⟨⟨next, hstep, hrest⟩, -, hudp, hquic⟩ := h
      obtain hp | hp | hp | hp | hp := hread.1.protocol_cases
      · rw [hp, addrComponent_ip4] at hstep
        split at hstep
        · cases hstep
        · rename_i hok
          simp only [not_or, not_not] at hok
          cases hstep
          obtain ⟨udp, empty, peer, hlen, hpeers, rfl, rfl⟩ := (scan_ip hread.2 (by rfl) (by rfl)
            (by rfl) (by rfl) (by rfl)).mp ⟨hrest, hudp, hquic⟩
          refine ⟨⟨c, udp, peer⟩, empty, ⟨.inl ⟨hp, hok.2.2.2⟩, hlen, hpeers⟩, rfl, ?_⟩
          simp [AddrParts.addr, hp, hok.2.2.2, QuicAddr.cleared]
      · rw [hp, addrComponent_ip6] at hstep
        split at hstep
        · cases hstep
        · rename_i hok
          simp only [not_or, not_not] at hok
          cases hstep
          obtain ⟨udp, empty, peer, hlen, hpeers, rfl, rfl⟩ := (scan_ip hread.2 (by rfl) (by rfl)
            (by rfl) (by rfl) (by rfl)).mp ⟨hrest, hudp, hquic⟩
          refine ⟨⟨c, udp, peer⟩, empty, ⟨.inr ⟨hp, hok.2.2.2⟩, hlen, hpeers⟩, rfl, ?_⟩
          simp [AddrParts.addr, hp, hok.2.2.2, QuicAddr.cleared, multiaddrIp4, multiaddrIp6,
            multiaddrCodeIp4, multiaddrCodeIp6]
      · simp [hp, addrComponent_udp] at hstep
      · simp [hp, addrComponent_quicV1] at hstep
      · rw [hp, addrComponent_p2p_ok_iff] at hstep
        cases hstep.1.1
    · intro h
      obtain ⟨parts, empty, hvalid, hcs, rfl⟩ := h
      obtain ⟨rfl, rfl⟩ := List.cons.inj hcs
      refine ⟨?_, rfl, rfl, rfl⟩
      obtain ⟨hp, hlen⟩ | ⟨hp, hlen⟩ := hvalid.ip
      · refine ⟨⟨{ QuicAddr.cleared with family := .ip4, ip := parts.ip.2 ++ List.replicate 12 0 },
          true, false, false⟩, ?_, ?_⟩
        · simp [hp, addrComponent_ip4, hlen, QuicAddr.cleared]
        · refine ((scan_ip hread.2 (by rfl) (by rfl) (by rfl) (by rfl) (by rfl)).mpr
            ⟨parts.udp, empty, parts.peer, hvalid.udp, hvalid.peer, rfl, ?_⟩).1
          simp [AddrParts.addr, hp, hlen]
      · refine ⟨⟨{ QuicAddr.cleared with family := .ip6, ip := parts.ip.2 }, true, false, false⟩,
          ?_, ?_⟩
        · simp [hp, addrComponent_ip6, hlen, QuicAddr.cleared]
        · refine ((scan_ip hread.2 (by rfl) (by rfl) (by rfl) (by rfl) (by rfl)).mpr
            ⟨parts.udp, empty, parts.peer, hvalid.udp, hvalid.peer, rfl, ?_⟩).1
          simp [AddrParts.addr, hp, hlen, multiaddrIp4, multiaddrIp6, multiaddrCodeIp4,
            multiaddrCodeIp6]

namespace AddrParts

theorem peers_read {empty : Nat} {peer : Option Bytes} (hpeer : ∀ id ∈ peer, lib.ValidPeerId id) :
    ∀ c ∈ peers empty peer, ReadComponent c := by
  intro c hc
  obtain hc | hc := List.mem_append.mp hc
  · rw [(List.mem_replicate.mp hc).2]
    exact ⟨by simp [multiaddrProtocolTable], show ([] : Bytes).length < 2 ^ 63 by simp⟩
  · obtain ⟨id, hid, rfl⟩ := List.mem_map.mp hc
    have hlen := (hpeer id (by simpa using hid)).length_le
    have hmax : peerIdMaxBytes = 39 := rfl
    exact ⟨by simp [multiaddrProtocolTable], show id.length < 2 ^ 63 by omega⟩

theorem Valid.read {parts : AddrParts} (h : parts.Valid lib) (empty : Nat) :
    ∀ c ∈ parts.components empty, ReadComponent c := by
  simp only [components, List.forall_mem_cons]
  refine ⟨?_, ⟨by simp [multiaddrProtocolTable], h.udp⟩, ⟨by simp [multiaddrProtocolTable], rfl⟩,
    peers_read h.peer⟩
  obtain ⟨hp, hlen⟩ | ⟨hp, hlen⟩ := h.ip
  · refine ⟨by simp [hp, multiaddrProtocolTable], ?_⟩
    rw [hp]
    exact hlen
  · refine ⟨by simp [hp, multiaddrProtocolTable], ?_⟩
    rw [hp]
    exact hlen

end AddrParts

/-- What is read as an address are the components of one, and peer ids without bytes among them. -/
theorem parseMultiaddr_ok_iff {addr : QuicAddr} :
    parseMultiaddr lib multiaddr = .ok addr ↔
      ∃ parts empty, AddrParts.Valid lib parts ∧
        multiaddr = multiaddrBytes (parts.components empty) ∧ addr = parts.addr := by
  unfold parseMultiaddr
  constructor
  · intro h
    split at h
    · cases h
    split at h
    · cases h
    rename_i scan hloop
    split at h
    · cases h
    rename_i hsaw
    simp only [not_or, not_not] at hsaw
    cases h
    obtain ⟨cs, hread, rfl, hscan⟩ := (addrLoop_ok_iff (Nat.lt_succ_self _)).mp hloop
    obtain ⟨parts, empty, hvalid, rfl, rfl⟩ := (scan_start hread).mp ⟨hscan, hsaw⟩
    exact ⟨parts, empty, hvalid, rfl, rfl⟩
  · intro h
    obtain ⟨parts, empty, hvalid, rfl, rfl⟩ := h
    have hne : multiaddrBytes (parts.components empty) ≠ [] := by
      simp [AddrParts.components, multiaddrBytes_cons, componentBytes_ne_nil]
    have hscan := ((scan_start (hvalid.read empty)).mpr ⟨parts, empty, hvalid, rfl, rfl⟩).1
    have hloop := (addrLoop_ok_iff (Nat.lt_succ_self _)).mpr ⟨_, hvalid.read empty, rfl, hscan⟩
    rw [if_neg hne, hloop]
    rfl

/-! ## What the writer writes -/

/-- A writer whose variables are those after some bytes. -/
structure AddrWriter.After (out : Option Nat) (writer : AddrWriter) (bytes : Bytes) : Prop where
  result : writer.result = .ok ()
  pos : writer.pos = bytes.length
  stored : writer.tooSmall = false → writer.stored = bytes
  tooSmall : bytes ≠ [] → (writer.tooSmall = true ↔ out.all (· < bytes.length) = true)

theorem AddrWriter.After.start (out : Option Nat) :
    AddrWriter.After out ⟨[], 0, false, .ok ()⟩ [] :=
  ⟨rfl, rfl, fun _ => rfl, fun h => absurd rfl h⟩

/-- A component behind others: once there is no room there is none any more. -/
theorem AddrWriter.After.append {out : Option Nat} {writer : AddrWriter} {bytes : Bytes}
    (h : writer.After out bytes) {c : MultiaddrProtocolEntry × Bytes} (hc : ValidComponent c)
    (hstart : writer.tooSmall = true → bytes ≠ []) :
    (writer.append out c.1.code c.2).After out (bytes ++ componentBytes c.1 c.2) ∧
      bytes ++ componentBytes c.1 c.2 ≠ [] := by
  have hne : bytes ++ componentBytes c.1 c.2 ≠ [] := by simp [componentBytes_ne_nil]
  have happend := appendComponent_valid hc out writer.pos
  have hlen : (bytes ++ componentBytes c.1 c.2).length =
      writer.pos + (componentBytes c.1 c.2).length := by
    rw [List.length_append, h.pos]
  refine ⟨?_, hne⟩
  unfold AddrWriter.append
  rw [h.result]
  dsimp only
  rw [happend]
  by_cases hroom : out.all (· < writer.pos + (componentBytes c.1 c.2).length) = true
  · simp only [if_pos hroom]
    exact ⟨rfl, hlen.symm, fun hsmall => (by cases hsmall),
      fun _ => iff_of_true rfl (by rw [hlen]; exact hroom)⟩
  · simp only [if_neg hroom]
    have hbefore : ¬ writer.tooSmall = true := by
      intro hsmall
      refine hroom ?_
      have hall := (h.tooSmall (hstart hsmall)).mp hsmall
      cases out with
      | none => rfl
      | some outLen =>
        simp only [Option.all_some, decide_eq_true_eq] at hall ⊢
        rw [h.pos]
        omega
    refine ⟨rfl, hlen.symm, fun hsmall => ?_, fun _ => ?_⟩
    · rw [← h.stored hsmall]
    · rw [hlen]
      exact iff_of_false hbefore hroom

theorem AddrWriter.After.finish {out : Option Nat} {writer : AddrWriter} {bytes : Bytes}
    (h : writer.After out bytes) (hne : bytes ≠ []) :
    writer.finish =
      (if out.all (· < bytes.length) then .error .bufTooSmall else .ok bytes, bytes.length) := by
  unfold AddrWriter.finish
  rw [h.result, h.pos]
  by_cases hsmall : writer.tooSmall = true
  · rw [if_pos ((h.tooSmall hne).mp hsmall)]
    simp [hsmall]
  · rw [if_neg fun hall => hsmall ((h.tooSmall hne).mpr hall)]
    simp [hsmall, h.stored (by simpa using hsmall)]

/-- The bytes of a port in network order. -/
def portValue (port : Nat) : Bytes := [UInt8.ofNat (port >>> 8), UInt8.ofNat (port &&& 0xff)]

namespace QuicAddr

/-- An address within the types of its fields. -/
structure WellTyped (addr : QuicAddr) : Prop where
  ip : addr.ip.length = 16
  port : addr.port < 2 ^ 16

/-- The parts that an address is written as. -/
def parts (addr : QuicAddr) : AddrParts where
  ip := if addr.family = .ip4 then (multiaddrIp4, addr.ip.take 4) else (multiaddrIp6, addr.ip.take 16)
  udp := portValue addr.port
  peer := if addr.hasPeerId then some addr.peerId else none

variable {addr : QuicAddr}

/-- What the validation of an address says. -/
theorem validate_ok_iff :
    addr.validate (peerIdIsValid lib) = .ok () ↔
      (addr.family = .ip4 ∧ (addr.ip.drop 4).all (· = 0) = true ∨ addr.family = .ip6) ∧
        (addr.hasPeerId = true → lib.ValidPeerId addr.peerId) ∧
        (addr.hasPeerId = false → addr.peerId = []) := by
  have hany : (addr.ip.drop 4).any (· ≠ 0) = true ↔ ¬ (addr.ip.drop 4).all (· = 0) = true := by
    simp
  have hid := @peerIdIsValid_iff lib addr.peerId
  unfold QuicAddr.validate
  simp only [hany]
  cases addr.family with
  | none => simp
  | ip4 =>
    by_cases hzero : (addr.ip.drop 4).all (· = 0) = true
    · cases hpeer : addr.hasPeerId <;> simp [hzero, hid]
    · simp [hzero]
  | ip6 => cases hpeer : addr.hasPeerId <;> simp [hid]

theorem parts_valid (hvalid : addr.validate (peerIdIsValid lib) = .ok ()) (htyped : addr.WellTyped) :
    addr.parts.Valid lib := by
  obtain ⟨hfamily, hpeer, -⟩ := validate_ok_iff.mp hvalid
  have hip := htyped.ip
  refine ⟨?_, rfl, ?_⟩
  · obtain ⟨h, -⟩ | h := hfamily
    · exact .inl (by simp [parts, h, hip])
    · exact .inr (by simp [parts, h, hip])
  · intro id hid
    simp only [parts] at hid
    split at hid
    · rename_i hhas
      cases hid
      exact hpeer hhas
    · cases hid

theorem all_zero {bytes : Bytes} (h : bytes.all (· = 0) = true) :
    bytes = List.replicate bytes.length 0 := by
  rw [List.eq_replicate_iff]
  exact ⟨rfl, fun b hb => by simpa using List.all_eq_true.mp h b hb⟩

theorem portValue_port {port : Nat} (h : port < 2 ^ 16) :
    ((portValue port).getD 0 0).toNat <<< 8 ||| ((portValue port).getD 1 0).toNat = port := by
  have hlow : port &&& 0xff = port % 256 := Nat.and_two_pow_sub_one_eq_mod port 8
  have hhigh : port >>> 8 = port / 256 := Nat.shiftRight_eq_div_pow port 8
  simp only [portValue, hlow, hhigh, List.getD_cons_zero, List.getD_cons_succ]
  rw [ofNat_toNat_lt (by omega), ofNat_toNat_lt (by omega),
    ← Nat.shiftLeft_add_eq_or_of_lt (by omega : port % 256 < 2 ^ 8), Nat.shiftLeft_eq]
  omega

/-- The parts of a valid address say the address. -/
theorem parts_addr (hvalid : addr.validate (peerIdIsValid lib) = .ok ()) (htyped : addr.WellTyped) :
    addr.parts.addr = addr := by
  obtain ⟨hfamily, -, hnone⟩ := validate_ok_iff.mp hvalid
  have hip := htyped.ip
  have hport := portValue_port htyped.port
  have hpeer : (addr.parts.peer.isSome, addr.parts.peer.getD []) = (addr.hasPeerId, addr.peerId) := by
    cases h : addr.hasPeerId with
    | true => simp [parts, h]
    | false => simp [parts, h, hnone h]
  obtain ⟨hsome, hid⟩ := Prod.mk.inj hpeer
  have hne : multiaddrIp6 ≠ multiaddrIp4 := by decide
  unfold AddrParts.addr
  rw [hsome, hid]
  obtain ⟨h, hzero⟩ | h := hfamily
  · have hlen : (addr.ip.take 4).length = 4 := by
      rw [List.length_take]
      omega
    have hsplit : addr.ip.take 4 ++ List.replicate (16 - (addr.ip.take 4).length) 0 = addr.ip := by
      have hzeros := all_zero hzero
      rw [List.length_drop, hip] at hzeros
      rw [hlen, ← hzeros, List.take_append_drop]
    have hparts : addr.parts.ip = (multiaddrIp4, addr.ip.take 4) := by simp [parts, h]
    have hudp : addr.parts.udp = portValue addr.port := rfl
    rw [hparts, hudp, hport]
    simp only [hsplit, if_true, ← h]
  · have hsplit : addr.ip.take 16 = addr.ip := List.take_of_length_le (by omega)
    have hparts : addr.parts.ip = (multiaddrIp6, addr.ip) := by simp [parts, h, hsplit]
    have hudp : addr.parts.udp = portValue addr.port := rfl
    rw [hparts, hudp, hport]
    simp only [if_neg hne, hip, Nat.sub_self, List.replicate_zero, List.append_nil, ← h]

theorem validComponent_of_sized {protocol : MultiaddrProtocolEntry} {value : Bytes}
    (hmem : protocol ∈ multiaddrProtocolTable) (hsized : protocol.Sized value)
    (hp2p : protocol ≠ multiaddrP2p) : ValidComponent (protocol, value) :=
  ⟨hmem, hsized, fun h => absurd h hp2p⟩

theorem validComponent_peer {id : Bytes} (h : lib.ValidPeerId id) :
    ValidComponent (multiaddrP2p, id) := by
  have hlen := h.length_le
  have hmax : peerIdMaxBytes = 39 := rfl
  exact ⟨by simp [multiaddrProtocolTable], show id.length < 2 ^ 63 by omega,
    fun _ => validPeerId_p2pValue h⟩

/-- The writer writes the parts of the address, or says how many bytes they take. -/
theorem toMultiaddr_eq (hvalid : addr.validate (peerIdIsValid lib) = .ok ())
    (htyped : addr.WellTyped) (out : Option Nat) :
    toMultiaddr lib addr out =
      (if out.all (· < (multiaddrBytes (addr.parts.components 0)).length) then .error .bufTooSmall
        else .ok (multiaddrBytes (addr.parts.components 0)),
        (multiaddrBytes (addr.parts.components 0)).length) := by
  have hparts := parts_valid hvalid htyped
  have hpeerValid := (validate_ok_iff.mp hvalid).2.1
  -- the IP component, whichever of the two it is
  have hip : ∃ c, ValidComponent c ∧ c = addr.parts.ip ∧
      c.1.code = (if addr.family = .ip4 then multiaddrCodeIp4 else multiaddrCodeIp6) ∧
      c.2 = addr.ip.take (if addr.family = .ip4 then 4 else 16) := by
    refine ⟨addr.parts.ip, ?_, rfl, ?_, ?_⟩
    · obtain ⟨hp, hlen⟩ | ⟨hp, hlen⟩ := hparts.ip
      · rw [← Prod.mk.eta (p := addr.parts.ip), hp]
        exact validComponent_of_sized (by simp [multiaddrProtocolTable]) hlen (by decide)
      · rw [← Prod.mk.eta (p := addr.parts.ip), hp]
        exact validComponent_of_sized (by simp [multiaddrProtocolTable]) hlen (by decide)
    · simp only [parts]
      split <;> rfl
    · simp only [parts]
      split <;> rfl
  obtain ⟨c, hc, hcParts, hcode, hvalue⟩ := hip
  have hudp : ValidComponent (multiaddrUdp, portValue addr.port) :=
    validComponent_of_sized (by simp [multiaddrProtocolTable]) rfl (by decide)
  have hquic : ValidComponent (multiaddrQuicV1, []) :=
    validComponent_of_sized (by simp [multiaddrProtocolTable]) rfl (by decide)
  obtain ⟨h1, hne1⟩ := (AddrWriter.After.start out).append hc (fun h => by cases h)
  obtain ⟨h2, hne2⟩ := h1.append hudp (fun _ => hne1)
  obtain ⟨h3, hne3⟩ := h2.append hquic (fun _ => hne2)
  have hne : multiaddrBytes (addr.parts.components 0) ≠ [] := by
    simp [AddrParts.components, multiaddrBytes_cons, componentBytes_ne_nil]
  unfold toMultiaddr
  rw [hvalid]
  refine AddrWriter.After.finish ?_ hne
  simp only [← hcode, ← hvalue]
  cases hhas : addr.hasPeerId with
  | false =>
    have hbytes : multiaddrBytes (addr.parts.components 0) =
        ([] ++ componentBytes c.1 c.2 ++ componentBytes multiaddrUdp (portValue addr.port)) ++
          componentBytes multiaddrQuicV1 [] := by
      rw [hcParts]
      simp [AddrParts.components, AddrParts.peers, multiaddrBytes, parts, hhas]
    rw [hbytes]
    exact h3
  | true =>
    have hpeer := validComponent_peer (hpeerValid hhas)
    have hbytes : multiaddrBytes (addr.parts.components 0) =
        ([] ++ componentBytes c.1 c.2 ++ componentBytes multiaddrUdp (portValue addr.port)) ++
          componentBytes multiaddrQuicV1 [] ++ componentBytes multiaddrP2p addr.peerId := by
      rw [hcParts]
      simp [AddrParts.components, AddrParts.peers, multiaddrBytes, parts, hhas]
    rw [hbytes]
    exact (h3.append hpeer fun _ => hne3).1

end QuicAddr

/-! ## The correspondence -/

theorem AddrParts.Valid.udp_eq {parts : AddrParts} (h : parts.Valid lib) :
    parts.addr.port < 2 ^ 16 ∧ portValue parts.addr.port = parts.udp := by
  obtain ⟨high, low, hudp⟩ := List.length_eq_two.mp h.udp
  have hhigh := high.toNat_lt
  have hlow := low.toNat_lt
  have hport : parts.addr.port = high.toNat * 256 + low.toNat := by
    simp only [AddrParts.addr, hudp, List.getD_cons_zero, List.getD_cons_succ]
    rw [← Nat.shiftLeft_add_eq_or_of_lt (by omega : low.toNat < 2 ^ 8), Nat.shiftLeft_eq]
  have hlowByte : parts.addr.port &&& 0xff = low.toNat := by
    rw [Nat.and_two_pow_sub_one_eq_mod parts.addr.port 8, hport]
    omega
  have hhighByte : parts.addr.port >>> 8 = high.toNat := by
    rw [Nat.shiftRight_eq_div_pow, hport]
    omega
  refine ⟨by omega, ?_⟩
  rw [portValue, hhighByte, hlowByte, hudp, UInt8.ofNat_toNat, UInt8.ofNat_toNat]

/-- The address of valid parts is valid, and has these parts. -/
theorem AddrParts.Valid.addr {parts : AddrParts} (h : parts.Valid lib) :
    parts.addr.validate (peerIdIsValid lib) = .ok () ∧ parts.addr.WellTyped ∧
      parts.addr.parts = parts := by
  obtain ⟨hport, hudp⟩ := h.udp_eq
  have hne : multiaddrIp6 ≠ multiaddrIp4 := by decide
  have hpeer : parts.addr.parts.peer = parts.peer := by
    cases hsome : parts.peer <;> simp [QuicAddr.parts, AddrParts.addr, hsome]
  have hid : (parts.addr.hasPeerId = true → lib.ValidPeerId parts.addr.peerId) ∧
      (parts.addr.hasPeerId = false → parts.addr.peerId = []) := by
    simp only [AddrParts.addr]
    cases hsome : parts.peer with
    | none => simp
    | some id => exact ⟨fun _ => h.peer id hsome, fun hnone => by cases hnone⟩
  rw [QuicAddr.validate_ok_iff]
  obtain ⟨ip, udp, peer⟩ := parts
  obtain ⟨protocol, value⟩ := ip
  obtain ⟨rfl, hlen⟩ | ⟨rfl, hlen⟩ := h.ip
  · refine ⟨⟨.inl ⟨by simp [AddrParts.addr], ?_⟩, hid⟩, ⟨?_, hport⟩, ?_⟩
    · simp [AddrParts.addr, List.drop_left' hlen]
    · simp [AddrParts.addr, hlen]
    · have hip : (AddrParts.addr ⟨(multiaddrIp4, value), udp, peer⟩).parts.ip =
          (multiaddrIp4, value) := by
        simp [QuicAddr.parts, AddrParts.addr, List.take_left' hlen]
      exact AddrParts.ext hip hudp hpeer
  · refine ⟨⟨.inr (by simp [AddrParts.addr, hne]), hid⟩, ⟨?_, hport⟩, ?_⟩
    · simp [AddrParts.addr, hlen]
    · have hip : (AddrParts.addr ⟨(multiaddrIp6, value), udp, peer⟩).parts.ip =
          (multiaddrIp6, value) := by
        simp [QuicAddr.parts, AddrParts.addr, hne, List.take_left' hlen]
      exact AddrParts.ext hip hudp hpeer

/-- What holds of an address: its multiaddr is read back as the address, and a buffer that is too
    short for it is told the exact size. -/
structure AddrCorresponds (lib : Secp256k1) (addr : QuicAddr) : Prop where
  back : ∀ buf bytes out, (toMultiaddr lib addr buf).1 = .ok bytes →
    (fromMultiaddr lib bytes out).1 = .ok () ∧
      (fromMultiaddr lib bytes out).2.equal addr true = true
  size : ∃ total,
    (∀ outLen, total ≤ outLen → ∃ bytes, bytes.length = total ∧
      toMultiaddr lib addr (some outLen) = (.ok bytes, total)) ∧
    ∀ outLen, outLen < total → toMultiaddr lib addr (some outLen) = (.error .bufTooSmall, total)

/-- What should hold of a multiaddr: exactly the components of an address are accepted, a refusal
    leaves the output, and the address is written as the same bytes. -/
structure MultiaddrCorresponds (lib : Secp256k1) (multiaddr : Bytes) : Prop where
  accepts : ∀ out, (fromMultiaddr lib multiaddr out).1 = .ok () ↔
    ∃ parts, AddrParts.Valid lib parts ∧ multiaddr = multiaddrBytes (parts.components 0)
  refuses : ∀ out e, (fromMultiaddr lib multiaddr out).1 = .error e →
    (fromMultiaddr lib multiaddr out).2 = out
  back : ∀ out outLen, (fromMultiaddr lib multiaddr out).1 = .ok () → multiaddr.length ≤ outLen →
    (toMultiaddr lib (fromMultiaddr lib multiaddr out).2 (some outLen)).1 = .ok multiaddr

/-- A multiaddr of an address with a peer id of no bytes behind `quic-v1`. -/
def HasEmptyPeerId (lib : Secp256k1) (multiaddr : Bytes) : Prop :=
  ∃ parts empty, AddrParts.Valid lib parts ∧
    multiaddr = multiaddrBytes (parts.components (empty + 1))

theorem QuicAddr.equal_self (addr : QuicAddr) : addr.equal addr true = true := by
  simp [QuicAddr.equal]

theorem fromMultiaddr_ok_iff {out : QuicAddr} :
    (fromMultiaddr lib multiaddr out).1 = .ok () ↔
      ∃ addr, parseMultiaddr lib multiaddr = .ok addr ∧
        (fromMultiaddr lib multiaddr out).2 = addr := by
  unfold fromMultiaddr
  cases parseMultiaddr lib multiaddr with
  | error e => simp
  | ok addr => simp

theorem addrCorresponds {addr : QuicAddr} (hvalid : addr.validate (peerIdIsValid lib) = .ok ())
    (htyped : addr.WellTyped) : AddrCorresponds lib addr := by
  have hwrites := QuicAddr.toMultiaddr_eq hvalid htyped
  constructor
  · intro buf bytes out h
    rw [hwrites] at h
    dsimp only at h
    split at h
    · cases h
    · cases h
      have hparse := parseMultiaddr_ok_iff.mpr
        ⟨addr.parts, 0, QuicAddr.parts_valid hvalid htyped, rfl, rfl⟩
      rw [QuicAddr.parts_addr hvalid htyped] at hparse
      unfold fromMultiaddr
      rw [hparse]
      exact ⟨rfl, addr.equal_self⟩
  · refine ⟨(multiaddrBytes (addr.parts.components 0)).length, fun outLen hroom => ?_,
      fun outLen hroom => ?_⟩
    · refine ⟨multiaddrBytes (addr.parts.components 0), rfl, ?_⟩
      rw [hwrites, if_neg (by simpa using hroom)]
    · rw [hwrites, if_pos (by simpa using hroom)]

/-- Peer ids without bytes are accepted, and are not those of an address. -/
theorem HasEmptyPeerId.not_corresponds (h : HasEmptyPeerId lib multiaddr) :
    ¬ MultiaddrCorresponds lib multiaddr := by
  intro hcorresponds
  obtain ⟨parts, empty, hvalid, rfl⟩ := h
  have hparse := parseMultiaddr_ok_iff.mpr ⟨parts, empty + 1, hvalid, rfl, rfl⟩
  have haccepted : (fromMultiaddr lib (multiaddrBytes (parts.components (empty + 1)))
      .cleared).1 = .ok () := by
    unfold fromMultiaddr
    rw [hparse]
  obtain ⟨parts', hvalid', hbytes⟩ := (hcorresponds.accepts .cleared).mp haccepted
  have hlists := multiaddrBytes_injective (hvalid.read _) (hvalid'.read _) hbytes
  simp only [AddrParts.components, List.cons.injEq] at hlists
  have hpeers := hlists.2.2.2
  rw [AddrParts.peers, AddrParts.peers, List.replicate_succ, List.cons_append, List.replicate_zero,
    List.nil_append] at hpeers
  cases hsome : parts'.peer with
  | none => simp [hsome] at hpeers
  | some id =>
    simp only [hsome, Option.toList_some, List.map_cons, List.map_nil, List.cons.injEq,
      Prod.mk.injEq, true_and] at hpeers
    exact validPeerId_ne_nil (hvalid'.peer id hsome) hpeers.1.symm

theorem multiaddrCorresponds (h : ¬ HasEmptyPeerId lib multiaddr) :
    MultiaddrCorresponds lib multiaddr := by
  have hparts : ∀ addr, parseMultiaddr lib multiaddr = .ok addr →
      ∃ parts, AddrParts.Valid lib parts ∧ multiaddr = multiaddrBytes (parts.components 0) ∧
        addr = parts.addr := by
    intro addr haddr
    obtain ⟨parts, empty, hvalid, hbytes, haddr⟩ := parseMultiaddr_ok_iff.mp haddr
    cases empty with
    | zero => exact ⟨parts, hvalid, hbytes, haddr⟩
    | succ empty => exact absurd ⟨parts, empty, hvalid, hbytes⟩ h
  constructor
  · intro out
    rw [fromMultiaddr_ok_iff]
    constructor
    · intro hok
      obtain ⟨addr, haddr, -⟩ := hok
      obtain ⟨parts, hvalid, hbytes, -⟩ := hparts addr haddr
      exact ⟨parts, hvalid, hbytes⟩
    · intro hok
      obtain ⟨parts, hvalid, hbytes⟩ := hok
      have hparse := parseMultiaddr_ok_iff.mpr ⟨parts, 0, hvalid, hbytes, rfl⟩
      exact ⟨parts.addr, hparse, by unfold fromMultiaddr; rw [hparse]⟩
  · intro out e herr
    unfold fromMultiaddr at herr ⊢
    cases hparse : parseMultiaddr lib multiaddr with
    | error e' => rfl
    | ok addr =>
      rw [hparse] at herr
      cases herr
  · intro out outLen hok hroom
    obtain ⟨addr, haddr, hout⟩ := fromMultiaddr_ok_iff.mp hok
    obtain ⟨parts, hvalid, hbytes, rfl⟩ := hparts addr haddr
    obtain ⟨hvalidated, htyped, hback⟩ := hvalid.addr
    rw [hout, QuicAddr.toMultiaddr_eq hvalidated htyped, hback, ← hbytes,
      if_neg (by simpa using hroom)]

/-- QUIC addresses and multiaddrs correspond but for the multiaddrs with a peer id of no bytes. -/
theorem quicAddr_multiaddr (lib : Secp256k1) :
    (∀ addr : QuicAddr, addr.WellTyped → addr.validate (peerIdIsValid lib) = .ok () →
      AddrCorresponds lib addr) ∧
    ∀ multiaddr, MultiaddrCorresponds lib multiaddr ↔ ¬ HasEmptyPeerId lib multiaddr :=
  ⟨fun _ htyped hvalid => addrCorresponds hvalid htyped, fun _ =>
    ⟨fun hcorresponds h => h.not_corresponds hcorresponds, multiaddrCorresponds⟩⟩

/-- `/ip4/1.2.3.4/udp/1/quic-v1` and a `p2p` component of no bytes. -/
def emptyPeerIdMultiaddr : Bytes :=
  [0x04, 1, 2, 3, 4, 0x91, 0x02, 0, 1, 0xcd, 0x03, 0xa5, 0x03, 0]

theorem not_multiaddrCorresponds_emptyPeerId :
    ¬ ∃ lib : Secp256k1, MultiaddrCorresponds lib emptyPeerIdMultiaddr := by
  intro h
  obtain ⟨lib, hcorresponds⟩ := h
  have hempty : HasEmptyPeerId lib emptyPeerIdMultiaddr :=
    ⟨⟨(multiaddrIp4, [1, 2, 3, 4]), [0, 1], none⟩, 0, ⟨.inl ⟨rfl, rfl⟩, rfl, by simp⟩, by decide⟩
  exact hempty.not_corresponds hcorresponds

end LeanLibp2p.Quic
