import LeanLibp2p.Gossipsub.Codec.Wire

/-!
# Message and subscription codec

`gossipsub_codec_message.c`: the publish message and the subscription element of an RPC.
NULL arguments that a caller cannot pass are left out; a NULL nested span is kept, because
the RPC decoder does pass one.
-/

namespace LeanLibp2p.Gossipsub

variable (limits : Limits)

/-- The checks of `gossipsub_message_size` and `gossipsub_sub_size` on a topic. -/
def topicRefused (topic : Span) : Prop :=
  topic.isNull = true ∨ topic.len = 0 ∨ limits.maxTopicBytes < topic.len

instance (topic : Span) : Decidable (topicRefused limits topic) :=
  inferInstanceAs (Decidable (_ ∨ _ ∨ _))

/-- `if (present) result = gossipsub_field_size(..)`. -/
def presentSize (field : Nat) (span : Span) (total : Nat) : Except GossipsubErr Nat :=
  if span.present then fieldSize field wireLen span.len total else .ok total

/-- `if (present) result = gossipsub_write_len_field(..)`. -/
def writePresent (field : Nat) (span : Span) (cap : Nat) (out : Bytes) :
    Except GossipsubErr Bytes :=
  if span.present then writeLenField field span cap out else .ok out

/-- `gossipsub_message_size` (`gossipsub_codec_message.c:6-82`). -/
def messageSize (message : Message) : Except GossipsubErr Nat := do
  if topicRefused limits message.topic ∨ limits.maxMessageDataBytes < message.data.len then
    throw .limit
  let total ← presentSize fieldMsgFrom message.fromPeer 0
  let total ← presentSize fieldMsgData message.data total
  let total ← presentSize fieldMsgSeqno message.seqno total
  let total ← fieldSize fieldMsgTopic wireLen message.topic.len total
  let total ← presentSize fieldMsgSignature message.signature total
  presentSize fieldMsgKey message.key total

/-- `gossipsub_message_encode` (`gossipsub_codec_message.c:84-177`). -/
def messageEncode (message : Message) (cap : Nat) : Except EncodeErr Bytes :=
  encodeChecked (messageSize limits message) cap do
    let out ← writePresent fieldMsgFrom message.fromPeer cap []
    let out ← writePresent fieldMsgData message.data cap out
    let out ← writePresent fieldMsgSeqno message.seqno cap out
    let out ← writeLenField fieldMsgTopic message.topic cap out
    let out ← writePresent fieldMsgSignature message.signature cap out
    writePresent fieldMsgKey message.key cap out

/-- One field of `gossipsub_message_decode`: the wire type is checked before the number. -/
def messageField (field wire : Nat) (rest : Bytes) (out : Message) :
    Except GossipsubErr (Bytes × Message) :=
  if wire ≠ wireLen then do
    let rest ← skipField wire rest
    return (rest, out)
  else if field = fieldMsgFrom then do
    let (span, rest) ← readLenSpan rest
    return (rest, { out with fromPeer := span })
  else if field = fieldMsgData then do
    let (span, rest) ← readLenSpan rest
    if limits.maxMessageDataBytes < span.len then throw .limit
    return (rest, { out with data := span })
  else if field = fieldMsgSeqno then do
    let (span, rest) ← readLenSpan rest
    return (rest, { out with seqno := span })
  else if field = fieldMsgTopic then do
    let (span, rest) ← readLenSpan rest
    if limits.maxTopicBytes < span.len then throw .limit
    return (rest, { out with topic := span })
  else if field = fieldMsgSignature then do
    let (span, rest) ← readLenSpan rest
    return (rest, { out with signature := span })
  else if field = fieldMsgKey then do
    let (span, rest) ← readLenSpan rest
    return (rest, { out with key := span })
  else do
    let rest ← skipField wire rest
    return (rest, out)

/-- `gossipsub_message_decode` (`gossipsub_codec_message.c:179-256`). -/
def messageDecode (input : Span) : Except GossipsubErr Message :=
  match input with
  | .null _ => .error .invalidArg
  | .ptr bytes => do
    let out ← fieldLoop (messageField limits) bytes.length bytes
      { Message.zero with rawMessage := input }
    if out.topic.isNull ∨ out.topic.len = 0 then throw .malformed
    return out

/-- `(sub->subscribe != 0U) ? 1ULL : 0ULL`. -/
def subscribeFlag (subscribe : UInt8) : Nat := if subscribe ≠ 0 then 1 else 0

/-- `gossipsub_sub_size` (`gossipsub_codec_message.c:258-298`). -/
def subSize (sub : RpcSubscription) : Except GossipsubErr Nat := do
  if topicRefused limits sub.topic then throw .limit
  let total ← fieldSize fieldSubSubscribe wireVarint (subscribeFlag sub.subscribe) 0
  fieldSize fieldSubTopic wireLen sub.topic.len total

/-- `gossipsub_sub_encode` (`gossipsub_codec_message.c:300-349`). -/
def subEncode (sub : RpcSubscription) (cap : Nat) : Except EncodeErr Bytes :=
  encodeChecked (subSize limits sub) cap do
    let out ← writeVarintField fieldSubSubscribe (subscribeFlag sub.subscribe) cap []
    writeLenField fieldSubTopic sub.topic cap out

/-- One field of `gossipsub_sub_decode`. -/
def subField (field wire : Nat) (rest : Bytes) (out : RpcSubscription) :
    Except GossipsubErr (Bytes × RpcSubscription) :=
  if field = fieldSubSubscribe ∧ wire = wireVarint then do
    let (subscribe, rest) ← readUvarint rest
    return (rest, { out with subscribe := if subscribe ≠ 0 then 1 else 0 })
  else if field = fieldSubTopic ∧ wire = wireLen then do
    let (span, rest) ← readLenSpan rest
    if limits.maxTopicBytes < span.len then throw .limit
    return (rest, { out with topic := span })
  else do
    let rest ← skipField wire rest
    return (rest, out)

/-- `gossipsub_sub_decode` (`gossipsub_codec_message.c:351-407`). -/
def subDecode (input : Span) : Except GossipsubErr RpcSubscription :=
  match input with
  | .null _ => .error .invalidArg
  | .ptr bytes => do
    let out ← fieldLoop (subField limits) bytes.length bytes ⟨.zero, 0⟩
    if out.topic.isNull ∨ out.topic.len = 0 then throw .malformed
    return out

end LeanLibp2p.Gossipsub
