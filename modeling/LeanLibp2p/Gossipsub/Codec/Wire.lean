import LeanLibp2p.Gossipsub.Types

/-!
# Gossipsub wire primitives

`gossipsub_codec_wire.c` and the size arithmetic of `gossipsub_util.c`. A writer is the
capacity of the output buffer and the bytes written to its front, so `*pos` is the number
of bytes written; a reader is what remains of the input after `*pos`.
-/

namespace LeanLibp2p.Gossipsub

/-- `GOSSIPSUB_WIRE_VARINT`. -/
def wireVarint : Nat := 0
/-- `GOSSIPSUB_WIRE_FIXED64`. -/
def wireFixed64 : Nat := 1
/-- `GOSSIPSUB_WIRE_LEN`. -/
def wireLen : Nat := 2
/-- `GOSSIPSUB_WIRE_FIXED32`. -/
def wireFixed32 : Nat := 5

/-! The field numbers of `gossipsub_internal.h:18-52`. -/

def fieldRpcSubscriptions : Nat := 1
def fieldRpcPublish : Nat := 2
def fieldRpcControl : Nat := 3
def fieldSubSubscribe : Nat := 1
def fieldSubTopic : Nat := 2
def fieldMsgFrom : Nat := 1
def fieldMsgData : Nat := 2
def fieldMsgSeqno : Nat := 3
def fieldMsgTopic : Nat := 4
def fieldMsgSignature : Nat := 5
def fieldMsgKey : Nat := 6
def fieldControlIhave : Nat := 1
def fieldControlIwant : Nat := 2
def fieldControlGraft : Nat := 3
def fieldControlPrune : Nat := 4
def fieldControlIdontwant : Nat := 5
def fieldIhaveTopic : Nat := 1
def fieldIhaveMessageIds : Nat := 2
def fieldIwantMessageIds : Nat := 1
def fieldGraftTopic : Nat := 1
def fieldPruneTopic : Nat := 1
def fieldPrunePeers : Nat := 2
def fieldPruneBackoff : Nat := 3
def fieldPeerInfoPeerId : Nat := 1
def fieldPeerInfoSignedPeerRecord : Nat := 2
def fieldIdontwantMessageIds : Nat := 1

/-- `gossipsub_size_add` (`gossipsub_util.c:6-25`); `none` is its non-zero return. -/
def sizeAdd (a b : Nat) : Option Nat := if sizeMax - a < b then none else some (a + b)

/-- `gossipsub_uvarint_err` (`gossipsub_util.c:180-202`). -/
def uvarintErr : UvarintErr → GossipsubErr
  | .bufTooSmall => .bufTooSmall
  | .truncated => .truncated
  | .nonMinimal => .malformed
  | .overflow => .malformed

/-- `gossipsub_write_uvarint` (`gossipsub_codec_wire.c:6-30`). -/
def writeUvarint (value cap : Nat) (out : Bytes) : Except GossipsubErr Bytes :=
  if cap < out.length then .error .invalidArg
  else match uvarintEncode value (cap - out.length) with
    | .error e => .error (uvarintErr e)
    | .ok bytes => .ok (out ++ bytes)

/-- `gossipsub_read_uvarint` (`gossipsub_codec_wire.c:32-56`). -/
def readUvarint (rest : Bytes) : Except GossipsubErr (Nat × Bytes) :=
  match uvarintDecode rest with
  | .error e => .error (uvarintErr e)
  | .ok (value, read) => .ok (value, rest.drop read)

/-- The key of a field: `(field << 3) | wire`. -/
def fieldKey (field wire : Nat) : Nat := (field <<< 3) ||| wire

/-- `gossipsub_field_size` (`gossipsub_codec_wire.c:58-102`). -/
def fieldSize (field wire dataLen total : Nat) : Except GossipsubErr Nat :=
  let header := uvarintSize (fieldKey field wire) + uvarintSize dataLen
  match sizeAdd total header with
  | none => .error .limit
  | some next =>
    if wire = wireLen then
      match sizeAdd next dataLen with
      | none => .error .limit
      | some total => .ok total
    else .ok next

/-- `gossipsub_write_len_field` (`gossipsub_codec_wire.c:104-144`). -/
def writeLenField (field : Nat) (data : Span) (cap : Nat) (out : Bytes) :
    Except GossipsubErr Bytes := do
  if data.isNull ∧ data.len ≠ 0 then throw .invalidArg
  let out ← writeUvarint (fieldKey field wireLen) cap out
  let out ← writeUvarint data.len cap out
  if cap - out.length < data.len then throw .bufTooSmall
  return out ++ data.bytes

/-- `gossipsub_write_varint_field` (`gossipsub_codec_wire.c:146-170`). -/
def writeVarintField (field value cap : Nat) (out : Bytes) : Except GossipsubErr Bytes := do
  let out ← writeUvarint (fieldKey field wireVarint) cap out
  writeUvarint value cap out

/-- `gossipsub_write_len_prefix` (`gossipsub_codec_wire.c:172-196`). -/
def writeLenPrefix (field dataLen cap : Nat) (out : Bytes) : Except GossipsubErr Bytes := do
  let out ← writeUvarint (fieldKey field wireLen) cap out
  writeUvarint dataLen cap out

/-- `gossipsub_skip_field` (`gossipsub_codec_wire.c:198-258`). -/
def skipField (wire : Nat) (rest : Bytes) : Except GossipsubErr Bytes :=
  if wire = wireVarint then do
    let (_, rest) ← readUvarint rest
    return rest
  else if wire = wireLen then do
    let (ignored, rest) ← readUvarint rest
    if rest.length < ignored then throw .truncated
    return rest.drop ignored
  else if wire = wireFixed64 then
    if rest.length < 8 then .error .truncated else .ok (rest.drop 8)
  else if wire = wireFixed32 then
    if rest.length < 4 then .error .truncated else .ok (rest.drop 4)
  else .error .malformed

/-- `gossipsub_read_len_span` (`gossipsub_codec_wire.c:260-292`). -/
def readLenSpan (rest : Bytes) : Except GossipsubErr (Span × Bytes) := do
  let (len, rest) ← readUvarint rest
  if rest.length < len then throw .truncated
  return (.ptr (rest.take len), rest.drop len)

/-- `LIBP2P_GOSSIPSUB_DEFAULT_MAX_TOPIC_BYTES`. -/
def defaultMaxTopicBytes : Nat := 256
/-- `LIBP2P_GOSSIPSUB_DEFAULT_MAX_MESSAGE_ID_BYTES`. -/
def defaultMaxMessageIdBytes : Nat := 128
/-- `LIBP2P_GOSSIPSUB_DEFAULT_MAX_SIGNED_PEER_REC_BYTES`. -/
def defaultMaxSignedPeerRecBytes : Nat := 512

/-- `gossipsub_limits_validate` (`gossipsub_codec_wire.c:294-323`). -/
def limitsValidate (limits : Limits) : Except GossipsubErr Unit :=
  if limits.maxRpcBytes = 0 ∨ limits.maxRpcBytes < limits.maxMessageDataBytes ∨
      limits.maxTopicBytes = 0 ∨ defaultMaxTopicBytes < limits.maxTopicBytes ∨
      limits.maxMessageIdBytes = 0 ∨ defaultMaxMessageIdBytes < limits.maxMessageIdBytes ∨
      defaultMaxSignedPeerRecBytes < limits.maxSignedPeerRecordBytes ∨
      limits.maxSubscriptionsPerRpc = 0 ∨ limits.maxPublishPerRpc = 0 ∨
      limits.maxIhavePerRpc = 0 ∨ limits.maxIwantPerRpc = 0 ∨ limits.maxGraftPerRpc = 0 ∨
      limits.maxPrunePerRpc = 0 ∨ limits.maxIdontwantPerRpc = 0 ∨
      limits.maxMessageIdsPerRpc = 0 then
    .error .limit
  else .ok ()

/-- The default wire limits (`gossipsub.h:52-78`). -/
def defaultLimits : Limits :=
  { maxRpcBytes := 1048576
    maxMessageDataBytes := 1048576
    maxTopicBytes := defaultMaxTopicBytes
    maxMessageIdBytes := defaultMaxMessageIdBytes
    maxSignedPeerRecordBytes := defaultMaxSignedPeerRecBytes
    maxSubscriptionsPerRpc := 64
    maxPublishPerRpc := 16
    maxIhavePerRpc := 32
    maxIwantPerRpc := 32
    maxGraftPerRpc := 32
    maxPrunePerRpc := 32
    maxIdontwantPerRpc := 32
    maxMessageIdsPerRpc := 1024
    maxPxPeersPerRpc := 32 }

/-- `gossipsub_version_validate` (`gossipsub_codec_wire.c:325-335`). -/
def versionValidate (version : ProtocolVersion) : Except GossipsubErr Unit :=
  if version ≠ .v11 ∧ version ≠ .v12 then .error .unsupportedVersion else .ok ()

/-! ## The shape shared by the encoders -/

/-- An encoder's failure: its result code, and `*written` where it was set. -/
structure EncodeErr where
  code : GossipsubErr
  written : Option Nat
  deriving DecidableEq, Repr

/-- Every encoder measures first, answers `BUF_TOO_SMALL` with the size needed, and only
    then writes its fields. -/
def encodeChecked (size : Except GossipsubErr Nat) (cap : Nat)
    (fields : Except GossipsubErr Bytes) : Except EncodeErr Bytes :=
  match size with
  | .error e => .error ⟨e, none⟩
  | .ok required =>
    if cap < required then .error ⟨.bufTooSmall, some required⟩
    else fields.mapError fun e => ⟨e, none⟩

/-- A nested element: its length prefix, then its encoding in what is left of the buffer. -/
def writeNested (field : Nat) (size : Except GossipsubErr Nat)
    (encode : Nat → Except EncodeErr Bytes) (cap : Nat) (out : Bytes) :
    Except GossipsubErr Bytes := do
  let nested ← size
  let out ← writeLenPrefix field nested cap out
  let bytes ← (encode (cap - out.length)).mapError EncodeErr.code
  return out ++ bytes

/-! ## The loop shared by the decoders -/

/-- `while ((result == OK) && (pos < in_len))`: read a key, split it into the 32-bit field
    number and the wire type, and hand both to the body. Each round reads at least one
    byte, so the length of the input bounds the rounds. -/
def fieldLoop {σ : Type} (body : Nat → Nat → Bytes → σ → Except GossipsubErr (Bytes × σ)) :
    Nat → Bytes → σ → Except GossipsubErr σ
  | 0, _, s => .ok s
  | fuel + 1, rest, s =>
    if rest = [] then .ok s
    else do
      let (key, rest) ← readUvarint rest
      let field := (key >>> 3) % 2 ^ 32
      let wire := key &&& 7
      let (rest, s) ← body field wire rest s
      fieldLoop body fuel rest s

end LeanLibp2p.Gossipsub
