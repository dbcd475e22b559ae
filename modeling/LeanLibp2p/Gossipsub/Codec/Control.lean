import LeanLibp2p.Gossipsub.Codec.Message

/-!
# Control codec

`gossipsub_codec_control.c`, `gossipsub_codec_control_advert.c` and
`gossipsub_codec_control_payload.c`: the IHAVE, IWANT, GRAFT, PRUNE and IDONTWANT elements
and the control section around them. The decoders of one section share the cursor of the
message-id and peer-info pools.
-/

namespace LeanLibp2p.Gossipsub

variable (limits : Limits) (storage : DecodeStorage)

/-- `gossipsub_decode_cursor_t`. -/
structure DecodeCursor where
  messageIdNext : Nat
  peerInfoNext : Nat
  deriving DecidableEq, Repr

/-- `gossipsub_message_id_list_size` (`gossipsub_codec_control_advert.c:6-43`). -/
def messageIdListSize (field : Nat) (limits : Limits) (messageIds : List Span) (total : Nat) :
    Except GossipsubErr Nat :=
  if limits.maxMessageIdsPerRpc < messageIds.length then .error .limit
  else messageIds.foldlM (fun total id =>
    if id.isNull ∨ id.len = 0 ∨ limits.maxMessageIdBytes < id.len then .error .limit
    else fieldSize field wireLen id.len total) total

/-- `gossipsub_message_id_list_encode` (`gossipsub_codec_control_advert.c:45-75`). -/
def messageIdListEncode (field : Nat) (messageIds : List Span) (cap : Nat) (out : Bytes) :
    Except GossipsubErr Bytes :=
  messageIds.foldlM (fun out id => writeLenField field id cap out) out

/-- `gossipsub_ihave_size` (`gossipsub_codec_control_advert.c:77-118`). -/
def ihaveSize (ihave : ControlIhave) : Except GossipsubErr Nat := do
  if topicRefused limits ihave.topic then throw .limit
  let total ← fieldSize fieldIhaveTopic wireLen ihave.topic.len 0
  messageIdListSize fieldIhaveMessageIds limits ihave.messageIds total

/-- `gossipsub_ihave_encode` (`gossipsub_codec_control_advert.c:120-170`). -/
def ihaveEncode (ihave : ControlIhave) (cap : Nat) : Except EncodeErr Bytes :=
  encodeChecked (ihaveSize limits ihave) cap do
    let out ← writeLenField fieldIhaveTopic ihave.topic cap []
    messageIdListEncode fieldIhaveMessageIds ihave.messageIds cap out

/-- The branch of `gossipsub_ihave_decode` and `gossipsub_iwant_decode` that takes one id
    from the shared pool. `start` is the pool cursor at the element's first id. -/
def readMessageId (start : Nat) (rest : Bytes)
    (ids : List Span) : Except GossipsubErr (Bytes × List Span) := do
  if storage.messageIdCapacity ≤ start + ids.length then throw .limit
  let (span, rest) ← readLenSpan rest
  if limits.maxMessageIdBytes < span.len then throw .limit
  return (rest, ids ++ [span])

/-- One field of `gossipsub_ihave_decode`. -/
def ihaveField (start field wire : Nat)
    (rest : Bytes) (out : ControlIhave) : Except GossipsubErr (Bytes × ControlIhave) :=
  if field = fieldIhaveTopic ∧ wire = wireLen then do
    let (span, rest) ← readLenSpan rest
    return (rest, { out with topic := span })
  else if field = fieldIhaveMessageIds ∧ wire = wireLen then do
    let (rest, ids) ← readMessageId limits storage start rest out.messageIds
    return (rest, { out with messageIds := ids })
  else do
    let rest ← skipField wire rest
    return (rest, out)

/-- `gossipsub_ihave_decode` (`gossipsub_codec_control_advert.c:172-250`). -/
def ihaveDecode (input : Span)
    (cursor : DecodeCursor) : Except GossipsubErr (ControlIhave × DecodeCursor) :=
  match input with
  | .null _ => .error .invalidArg
  | .ptr bytes => do
    let out ← fieldLoop (ihaveField limits storage cursor.messageIdNext) bytes.length bytes
      ⟨.zero, []⟩
    if topicRefused limits out.topic ∨ limits.maxMessageIdsPerRpc < out.messageIds.length then
      throw .limit
    return (out, { cursor with messageIdNext := cursor.messageIdNext + out.messageIds.length })

/-- `gossipsub_iwant_size` (`gossipsub_codec_control_advert.c:252-279`). -/
def iwantSize (iwant : ControlIwant) : Except GossipsubErr Nat :=
  messageIdListSize fieldIwantMessageIds limits iwant.messageIds 0

/-- `gossipsub_iwant_encode` (`gossipsub_codec_control_advert.c:281-321`). -/
def iwantEncode (iwant : ControlIwant) (cap : Nat) : Except EncodeErr Bytes :=
  encodeChecked (iwantSize limits iwant) cap
    (messageIdListEncode fieldIwantMessageIds iwant.messageIds cap [])

/-- One field of `gossipsub_iwant_decode`. -/
def iwantField (start field wire : Nat)
    (rest : Bytes) (out : ControlIwant) : Except GossipsubErr (Bytes × ControlIwant) :=
  if field = fieldIwantMessageIds ∧ wire = wireLen then do
    let (rest, ids) ← readMessageId limits storage start rest out.messageIds
    return (rest, ⟨ids⟩)
  else do
    let rest ← skipField wire rest
    return (rest, out)

/-- `gossipsub_iwant_decode` (`gossipsub_codec_control_advert.c:323-395`). -/
def iwantDecode (input : Span)
    (cursor : DecodeCursor) : Except GossipsubErr (ControlIwant × DecodeCursor) :=
  match input with
  | .null _ => .error .invalidArg
  | .ptr bytes => do
    let out ← fieldLoop (iwantField limits storage cursor.messageIdNext) bytes.length bytes ⟨[]⟩
    if limits.maxMessageIdsPerRpc < out.messageIds.length then throw .limit
    return (out, { cursor with messageIdNext := cursor.messageIdNext + out.messageIds.length })

/-- `gossipsub_topic_control_size` (`gossipsub_codec_control_payload.c:6-36`). -/
def topicControlSize (topic : Span) : Except GossipsubErr Nat :=
  if topicRefused limits topic then .error .limit
  else fieldSize fieldGraftTopic wireLen topic.len 0

/-- `gossipsub_topic_control_encode` (`gossipsub_codec_control_payload.c:38-73`). -/
def topicControlEncode (topic : Span) (field cap : Nat) : Except EncodeErr Bytes :=
  encodeChecked (topicControlSize limits topic) cap (writeLenField field topic cap [])

/-- One field of `gossipsub_graft_decode`. -/
def graftField (field wire : Nat) (rest : Bytes) (out : ControlGraft) :
    Except GossipsubErr (Bytes × ControlGraft) :=
  if field = fieldGraftTopic ∧ wire = wireLen then do
    let (span, rest) ← readLenSpan rest
    return (rest, ⟨span⟩)
  else do
    let rest ← skipField wire rest
    return (rest, out)

/-- `gossipsub_graft_decode` (`gossipsub_codec_control_payload.c:75-118`). -/
def graftDecode (input : Span) : Except GossipsubErr ControlGraft :=
  match input with
  | .null _ => .error .invalidArg
  | .ptr bytes => do
    let out ← fieldLoop graftField bytes.length bytes ⟨.zero⟩
    if topicRefused limits out.topic then throw .limit
    return out

/-- One field of `gossipsub_peer_info_decode`. -/
def peerInfoField (field wire : Nat) (rest : Bytes) (out : PeerInfo) :
    Except GossipsubErr (Bytes × PeerInfo) :=
  if field = fieldPeerInfoPeerId ∧ wire = wireLen then do
    let (span, rest) ← readLenSpan rest
    return (rest, { out with peerId := span })
  else if field = fieldPeerInfoSignedPeerRecord ∧ wire = wireLen then do
    let (span, rest) ← readLenSpan rest
    if limits.maxSignedPeerRecordBytes < span.len then throw .limit
    return (rest, { out with signedPeerRecord := span })
  else do
    let rest ← skipField wire rest
    return (rest, out)

/-- `gossipsub_peer_info_decode` (`gossipsub_codec_control_payload.c:120-169`). -/
def peerInfoDecode (input : Span) : Except GossipsubErr PeerInfo :=
  match input with
  | .null _ => .error .invalidArg
  | .ptr bytes => fieldLoop (peerInfoField limits) bytes.length bytes ⟨.zero, .zero⟩

/-- `gossipsub_prune_size` (`gossipsub_codec_control_payload.c:171-211`). -/
def pruneSize (prune : ControlPrune) : Except GossipsubErr Nat := do
  if topicRefused limits prune.topic then throw .limit
  let total ← fieldSize fieldPruneTopic wireLen prune.topic.len 0
  if prune.backoffSeconds ≠ 0 then
    fieldSize fieldPruneBackoff wireVarint prune.backoffSeconds total
  else
    return total

/-- `gossipsub_prune_encode` (`gossipsub_codec_control_payload.c:213-262`): PX peers are
    never written. -/
def pruneEncode (prune : ControlPrune) (cap : Nat) : Except EncodeErr Bytes :=
  encodeChecked (pruneSize limits prune) cap do
    let out ← writeLenField fieldPruneTopic prune.topic cap []
    if prune.backoffSeconds ≠ 0 then
      writeVarintField fieldPruneBackoff prune.backoffSeconds cap out
    else
      return out

/-- One field of `gossipsub_prune_decode`. `start` is the pool cursor at the element's
    first peer. -/
def pruneField (start field wire : Nat)
    (rest : Bytes) (out : ControlPrune) : Except GossipsubErr (Bytes × ControlPrune) :=
  if field = fieldPruneTopic ∧ wire = wireLen then do
    let (span, rest) ← readLenSpan rest
    return (rest, { out with topic := span })
  else if field = fieldPrunePeers ∧ wire = wireLen then do
    if storage.peerInfoCapacity ≤ start + out.peers.length then throw .limit
    let (span, rest) ← readLenSpan rest
    let peer ← peerInfoDecode limits span
    return (rest, { out with peers := out.peers ++ [peer] })
  else if field = fieldPruneBackoff ∧ wire = wireVarint then do
    let (seconds, rest) ← readUvarint rest
    return (rest, { out with backoffSeconds := seconds })
  else do
    let rest ← skipField wire rest
    return (rest, out)

/-- `gossipsub_prune_decode` (`gossipsub_codec_control_payload.c:264-351`). -/
def pruneDecode (input : Span)
    (cursor : DecodeCursor) : Except GossipsubErr (ControlPrune × DecodeCursor) :=
  match input with
  | .null _ => .error .invalidArg
  | .ptr bytes => do
    let out ← fieldLoop (pruneField limits storage cursor.peerInfoNext) bytes.length bytes
      ⟨.zero, [], 0⟩
    if topicRefused limits out.topic ∨ limits.maxPxPeersPerRpc < out.peers.length then
      throw .limit
    return (out, { cursor with peerInfoNext := cursor.peerInfoNext + out.peers.length })

/-- `gossipsub_idontwant_size` (`gossipsub_codec_control_payload.c:353-385`). -/
def idontwantSize (version : ProtocolVersion) (limits : Limits) (idontwant : ControlIdontwant) :
    Except GossipsubErr Nat :=
  if version ≠ .v12 then .error .unsupportedVersion
  else messageIdListSize fieldIdontwantMessageIds limits idontwant.messageIds 0

/-- `gossipsub_idontwant_encode` (`gossipsub_codec_control_payload.c:387-428`). -/
def idontwantEncode (version : ProtocolVersion) (limits : Limits) (idontwant : ControlIdontwant)
    (cap : Nat) : Except EncodeErr Bytes :=
  encodeChecked (idontwantSize version limits idontwant) cap
    (messageIdListEncode fieldIdontwantMessageIds idontwant.messageIds cap [])

/-- `gossipsub_idontwant_decode` (`gossipsub_codec_control.c:282-311`): the IWANT decoder,
    whatever the version. -/
def idontwantDecode (input : Span)
    (cursor : DecodeCursor) : Except GossipsubErr (ControlIdontwant × DecodeCursor) := do
  let (iwant, cursor) ← iwantDecode limits storage input cursor
  return (⟨iwant.messageIds⟩, cursor)

/-- The loop of `gossipsub_control_size` over the elements of one kind. -/
def nestedSizes {α : Type} (field : Nat) (size : α → Except GossipsubErr Nat) (xs : List α)
    (total : Nat) : Except GossipsubErr Nat :=
  xs.foldlM (fun total x => do
    let nested ← size x
    fieldSize field wireLen nested total) total

/-- The loop of `gossipsub_control_encode` over the elements of one kind. -/
def writeNesteds {α : Type} (field : Nat) (size : α → Except GossipsubErr Nat)
    (encode : α → Nat → Except EncodeErr Bytes) (xs : List α) (cap : Nat) (out : Bytes) :
    Except GossipsubErr Bytes :=
  xs.foldlM (fun out x => writeNested field (size x) (encode x) cap out) out

/-- `gossipsub_control_size` (`gossipsub_codec_control.c:6-108`). -/
def controlSize (version : ProtocolVersion) (limits : Limits) (control : RpcControl) :
    Except GossipsubErr Nat := do
  if limits.maxIhavePerRpc < control.ihave.length ∨ limits.maxIwantPerRpc < control.iwant.length ∨
      limits.maxGraftPerRpc < control.graft.length ∨
      limits.maxPrunePerRpc < control.prune.length ∨
      limits.maxIdontwantPerRpc < control.idontwant.length then
    throw .limit
  if control.idontwant.length ≠ 0 ∧ version ≠ .v12 then throw .unsupportedVersion
  let total ← nestedSizes fieldControlIhave (ihaveSize limits) control.ihave 0
  let total ← nestedSizes fieldControlIwant (iwantSize limits) control.iwant total
  let total ← nestedSizes fieldControlGraft (fun g => topicControlSize limits g.topic)
    control.graft total
  let total ← nestedSizes fieldControlPrune (pruneSize limits) control.prune total
  nestedSizes fieldControlIdontwant (idontwantSize version limits) control.idontwant total

/-- `gossipsub_control_encode` (`gossipsub_codec_control.c:110-280`). -/
def controlEncode (version : ProtocolVersion) (limits : Limits) (control : RpcControl)
    (cap : Nat) : Except EncodeErr Bytes :=
  encodeChecked (controlSize version limits control) cap do
    let out ← writeNesteds fieldControlIhave (ihaveSize limits) (ihaveEncode limits)
      control.ihave cap []
    let out ← writeNesteds fieldControlIwant (iwantSize limits) (iwantEncode limits)
      control.iwant cap out
    let out ← writeNesteds fieldControlGraft (fun g => topicControlSize limits g.topic)
      (fun g => topicControlEncode limits g.topic fieldGraftTopic) control.graft cap out
    let out ← writeNesteds fieldControlPrune (pruneSize limits) (pruneEncode limits)
      control.prune cap out
    writeNesteds fieldControlIdontwant (idontwantSize version limits)
      (idontwantEncode version limits) control.idontwant cap out

/-- The read of `gossipsub_control_decode` and `libp2p_gossipsub_rpc_body_decode` before they
    look at the field number: a field of another wire type leaves `nested` zeroed. -/
def readNested (wire : Nat) (rest : Bytes) : Except GossipsubErr (Span × Bytes) :=
  if wire ≠ wireLen then do
    let rest ← skipField wire rest
    return (.zero, rest)
  else readLenSpan rest

/-- One field of `gossipsub_control_decode`. -/
def controlField (field wire : Nat) (rest : Bytes) (s : RpcControl × DecodeCursor) :
    Except GossipsubErr (Bytes × RpcControl × DecodeCursor) := do
  let (out, cursor) := s
  let (nested, rest) ← readNested wire rest
  if field = fieldControlIhave then
    if storage.ihaveCapacity ≤ out.ihave.length then throw .limit
    let (x, cursor) ← ihaveDecode limits storage nested cursor
    return (rest, { out with ihave := out.ihave ++ [x] }, cursor)
  else if field = fieldControlIwant then
    if storage.iwantCapacity ≤ out.iwant.length then throw .limit
    let (x, cursor) ← iwantDecode limits storage nested cursor
    return (rest, { out with iwant := out.iwant ++ [x] }, cursor)
  else if field = fieldControlGraft then
    if storage.graftCapacity ≤ out.graft.length then throw .limit
    let x ← graftDecode limits nested
    return (rest, { out with graft := out.graft ++ [x] }, cursor)
  else if field = fieldControlPrune then
    if storage.pruneCapacity ≤ out.prune.length then throw .limit
    let (x, cursor) ← pruneDecode limits storage nested cursor
    return (rest, { out with prune := out.prune ++ [x] }, cursor)
  else if field = fieldControlIdontwant then
    if storage.idontwantCapacity ≤ out.idontwant.length then throw .limit
    let (x, cursor) ← idontwantDecode limits storage nested cursor
    return (rest, { out with idontwant := out.idontwant ++ [x] }, cursor)
  else
    return (rest, out, cursor)

/-- `gossipsub_control_decode` (`gossipsub_codec_control.c:313-479`): both the section and
    the pool cursor start from zero. -/
def controlDecode (input : Span) : Except GossipsubErr RpcControl :=
  match input with
  | .null _ => .error .invalidArg
  | .ptr bytes => do
    let (out, _) ← fieldLoop (controlField limits storage) bytes.length bytes (.zero, ⟨0, 0⟩)
    if limits.maxIhavePerRpc < out.ihave.length ∨ limits.maxIwantPerRpc < out.iwant.length ∨
        limits.maxGraftPerRpc < out.graft.length ∨ limits.maxPrunePerRpc < out.prune.length ∨
        limits.maxIdontwantPerRpc < out.idontwant.length then
      throw .limit
    return out

end LeanLibp2p.Gossipsub
