import LeanLibp2p.Gossipsub.Codec.Wire

/-!
# The identify codec

The message of `identify.h` and the three traversals of `identify.c`: measuring, writing
and reading. `libp2p_identify_bytes_t` is a pointer and a length, so it is a `Span`; an
array with its count is a list; result codes leave out `OK`.
-/

namespace LeanLibp2p.Identify

open LeanLibp2p.Gossipsub (Span)

/-- `libp2p_identify_err_t` without `OK` (`identify.h:46-56`). -/
inductive IdentifyErr where
  | invalidArg
  | bufTooSmall
  | malformed
  | truncated
  | limit
  | state
  | host
  deriving DecidableEq, Repr

/-- `LIBP2P_IDENTIFY_MAX_LISTEN_ADDRS`. -/
def maxListenAddrs : Nat := 8
/-- `LIBP2P_IDENTIFY_MAX_PROTOCOLS`. -/
def maxProtocols : Nat := 16

/-! The field numbers of `identify.c:7-13`. -/

def fieldPublicKey : Nat := 1
def fieldListenAddrs : Nat := 2
def fieldProtocols : Nat := 3
def fieldObservedAddr : Nat := 4
def fieldProtocolVersion : Nat := 5
def fieldAgentVersion : Nat := 6
def wireLen : Nat := 2

/-- `libp2p_identify_message_t` (`identify.h:64-74`). -/
structure Message where
  protocolVersion : Span
  agentVersion : Span
  publicKey : Span
  observedAddr : Span
  listenAddrs : List Span
  protocols : List Span
  deriving DecidableEq, Repr

/-- The zeroed message. -/
def Message.zero : Message := ⟨.zero, .zero, .zero, .zero, [], []⟩

/-- `identify_size_add` (`identify.c:16-32`); `none` is its non-zero return. -/
def sizeAdd (a b : Nat) : Option Nat := if sizeMax - a < b then none else some (a + b)

/-- `identify_uvarint_err` (`identify.c:46-71`). -/
def uvarintErr : UvarintErr → IdentifyErr
  | .bufTooSmall => .bufTooSmall
  | .truncated => .truncated
  | .nonMinimal => .malformed
  | .overflow => .malformed

/-- The key of a length-delimited field: `(field << 3) | IDENTIFY_WIRE_LEN`. -/
def lenKey (field : Nat) : Nat := (field <<< 3) ||| wireLen

/-- `identify_field_size` (`identify.c:146-175`). -/
def fieldSize (field dataLen total : Nat) : Except IdentifyErr Nat :=
  match sizeAdd total (uvarintSize (lenKey field) + uvarintSize dataLen) with
  | none => .error .limit
  | some next =>
    match sizeAdd next dataLen with
    | none => .error .limit
    | some total => .ok total

/-- `identify_write_uvarint` (`identify.c:219-242`). -/
def writeUvarint (value cap : Nat) (out : Bytes) : Except IdentifyErr Bytes :=
  if cap < out.length then .error .invalidArg
  else
    match uvarintEncode value (cap - out.length) with
    | .error e => .error (uvarintErr e)
    | .ok bytes => .ok (out ++ bytes)

/-- `identify_write_field` (`identify.c:244-282`). -/
def writeField (field : Nat) (data : Span) (cap : Nat) (out : Bytes) : Except IdentifyErr Bytes := do
  if data.isNull then throw .invalidArg
  let out ← writeUvarint (lenKey field) cap out
  let out ← writeUvarint data.len cap out
  if cap - out.length < data.len then throw .bufTooSmall
  return out ++ data.bytes

/-- A field of `libp2p_identify_message_size` that may be absent. -/
def presentSize (field : Nat) (data : Span) (total : Nat) : Except IdentifyErr Nat :=
  if data.present then fieldSize field data.len total else .ok total

/-- An element of a list of `libp2p_identify_message_size`, which has to be present. -/
def elementSize (field : Nat) (total : Nat) (data : Span) : Except IdentifyErr Nat :=
  if data.present then fieldSize field data.len total else .error .invalidArg

/-- `libp2p_identify_message_size` (`identify.c:1218-1304`). -/
def messageSize (message : Message) : Except IdentifyErr Nat := do
  if maxListenAddrs < message.listenAddrs.length ∨ maxProtocols < message.protocols.length then
    throw .invalidArg
  let total ← presentSize fieldPublicKey message.publicKey 0
  let total ← message.listenAddrs.foldlM (elementSize fieldListenAddrs) total
  let total ← message.protocols.foldlM (elementSize fieldProtocols) total
  let total ← presentSize fieldObservedAddr message.observedAddr total
  let total ← presentSize fieldProtocolVersion message.protocolVersion total
  presentSize fieldAgentVersion message.agentVersion total

/-- A field of `libp2p_identify_message_encode` that may be absent. -/
def writePresent (field : Nat) (data : Span) (cap : Nat) (out : Bytes) : Except IdentifyErr Bytes :=
  if data.present then writeField field data cap out else .ok out

/-- The failure of `libp2p_identify_message_encode`: its result code and `*written`. -/
structure EncodeErr where
  code : IdentifyErr
  written : Nat
  deriving DecidableEq, Repr

/-- The writes of `libp2p_identify_message_encode` (`identify.c:1338-1398`). -/
def writeMessage (message : Message) (cap : Nat) : Except IdentifyErr Bytes := do
  let out ← writePresent fieldPublicKey message.publicKey cap []
  let out ← message.listenAddrs.foldlM (fun out addr => writeField fieldListenAddrs addr cap out) out
  let out ← message.protocols.foldlM (fun out id => writeField fieldProtocols id cap out) out
  let out ← writePresent fieldObservedAddr message.observedAddr cap out
  let out ← writePresent fieldProtocolVersion message.protocolVersion cap out
  writePresent fieldAgentVersion message.agentVersion cap out

/-- `libp2p_identify_message_encode` (`identify.c:1309-1401`) into a buffer of so many bytes, or
    into NULL, which is too small for every message. -/
def messageEncode (message : Message) (buffer : Option Nat) : Except EncodeErr Bytes :=
  match messageSize message with
  | .error e => .error ⟨e, 0⟩
  | .ok required =>
    match buffer with
    | none => .error ⟨.bufTooSmall, required⟩
    | some cap =>
      if cap < required then .error ⟨.bufTooSmall, required⟩
      else (writeMessage message cap).mapError fun e => ⟨e, required⟩

/-- `libp2p_uvarint_decode` at `&in[pos]`, and `pos += read`. -/
def readUvarint (rest : Bytes) : Except IdentifyErr (Nat × Bytes) :=
  match uvarintDecode rest with
  | .error e => .error (uvarintErr e)
  | .ok (value, read) => .ok (value, rest.drop read)

/-- Where the decode loop puts the bytes of a field (`identify.c:1449-1498`). -/
def storeField (field : Nat) (bytes : Span) (out : Message) : Except IdentifyErr Message :=
  if field = fieldPublicKey then .ok { out with publicKey := bytes }
  else if field = fieldListenAddrs then
    if out.listenAddrs.length = maxListenAddrs then .error .limit
    else .ok { out with listenAddrs := out.listenAddrs ++ [bytes] }
  else if field = fieldProtocols then
    if out.protocols.length = maxProtocols then .error .limit
    else .ok { out with protocols := out.protocols ++ [bytes] }
  else if field = fieldObservedAddr then .ok { out with observedAddr := bytes }
  else if field = fieldProtocolVersion then .ok { out with protocolVersion := bytes }
  else if field = fieldAgentVersion then .ok { out with agentVersion := bytes }
  else .ok out

/-- One round of the decode loop (`identify.c:1419-1501`). The key is cut to a `uint32_t`. -/
def decodeField (rest : Bytes) (out : Message) : Except IdentifyErr (Bytes × Message) := do
  let (key, rest) ← readUvarint rest
  let field := (key >>> 3) % 2 ^ 32
  if field = 0 ∨ key &&& 7 ≠ wireLen then throw .malformed
  let (len, rest) ← readUvarint rest
  if rest.length < len then throw .truncated
  let out ← storeField field (.ptr (rest.take len)) out
  return (rest.drop len, out)

/-- The decode loop; each round reads at least one byte. -/
def decodeLoop : Nat → Bytes → Message → Except IdentifyErr Message
  | 0, _, out => .ok out
  | fuel + 1, rest, out =>
    if rest = [] then .ok out
    else do
      let (rest, out) ← decodeField rest out
      decodeLoop fuel rest out

/-- `libp2p_identify_message_decode` (`identify.c:1403-1505`). -/
def messageDecode (input : Bytes) : Except IdentifyErr Message :=
  if input = [] then .error .invalidArg else decodeLoop input.length input .zero

end LeanLibp2p.Identify
