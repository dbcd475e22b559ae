import LeanLibp2p.Gossipsub.Codec.Control

/-!
# RPC codec

`gossipsub_codec_rpc.c`: the RPC body, and the frame around it, which is the length of the
body as a varint and then the body.
-/

namespace LeanLibp2p.Gossipsub

variable (version : ProtocolVersion) (limits : Limits)

/-- `ihave_count`, `iwant_count`, .. all zero: the control section is left out. -/
def RpcControl.isEmpty (control : RpcControl) : Bool :=
  control.ihave.isEmpty && control.iwant.isEmpty && control.graft.isEmpty &&
    control.prune.isEmpty && control.idontwant.isEmpty

/-- `libp2p_gossipsub_rpc_body_size` (`gossipsub_codec_rpc.c:6-86`). -/
def rpcBodySize (rpc : Rpc) :
    Except GossipsubErr Nat := do
  versionValidate version
  limitsValidate limits
  if limits.maxSubscriptionsPerRpc < rpc.subscriptions.length ∨
      limits.maxPublishPerRpc < rpc.publish.length then
    throw .limit
  let total ← nestedSizes fieldRpcSubscriptions (subSize limits) rpc.subscriptions 0
  let total ← nestedSizes fieldRpcPublish (messageSize limits) rpc.publish total
  let total ←
    if rpc.control.isEmpty then pure total
    else nestedSizes fieldRpcControl (controlSize version limits) [rpc.control] total
  if limits.maxRpcBytes < total then throw .limit
  return total

/-- `libp2p_gossipsub_rpc_body_encode` (`gossipsub_codec_rpc.c:88-196`). -/
def rpcBodyEncode (rpc : Rpc) (cap : Nat) : Except EncodeErr Bytes :=
  encodeChecked (rpcBodySize version limits rpc) cap do
    let out ← writeNesteds fieldRpcSubscriptions (subSize limits) (subEncode limits)
      rpc.subscriptions cap []
    let out ← writeNesteds fieldRpcPublish (messageSize limits) (messageEncode limits)
      rpc.publish cap out
    if rpc.control.isEmpty then
      return out
    else
      writeNesteds fieldRpcControl (controlSize version limits) (controlEncode version limits)
        [rpc.control] cap out

/-- One field of `libp2p_gossipsub_rpc_body_decode`. -/
def rpcField (storage : DecodeStorage) (field wire : Nat) (rest : Bytes)
    (out : Rpc) : Except GossipsubErr (Bytes × Rpc) := do
  let (nested, rest) ← readNested wire rest
  if field = fieldRpcSubscriptions then
    if storage.subscriptionCapacity ≤ out.subscriptions.length then throw .limit
    let x ← subDecode limits nested
    return (rest, { out with subscriptions := out.subscriptions ++ [x] })
  else if field = fieldRpcPublish then
    if storage.publishCapacity ≤ out.publish.length then throw .limit
    let x ← messageDecode limits nested
    return (rest, { out with publish := out.publish ++ [x] })
  else if field = fieldRpcControl then
    let control ← controlDecode limits storage nested
    return (rest, { out with control := control })
  else
    return (rest, out)

/-- `libp2p_gossipsub_rpc_body_decode` (`gossipsub_codec_rpc.c:198-313`). -/
def rpcBodyDecode (storage : DecodeStorage) (input : Bytes) : Except GossipsubErr Rpc := do
  versionValidate version
  limitsValidate limits
  if limits.maxRpcBytes < input.length then throw .limit
  let out ← fieldLoop (rpcField limits storage) input.length input .zero
  if limits.maxSubscriptionsPerRpc < out.subscriptions.length ∨
      limits.maxPublishPerRpc < out.publish.length then
    throw .limit
  return out

/-- `libp2p_gossipsub_rpc_frame_size` (`gossipsub_codec_rpc.c:315-344`). -/
def rpcFrameSize (rpc : Rpc) :
    Except GossipsubErr Nat := do
  let bodyLen ← rpcBodySize version limits rpc
  match sizeAdd (uvarintSize bodyLen) bodyLen with
  | none => throw .limit
  | some total => return total

/-- `libp2p_gossipsub_rpc_frame_encode` (`gossipsub_codec_rpc.c:346-397`). -/
def rpcFrameEncode (rpc : Rpc) (cap : Nat) : Except EncodeErr Bytes :=
  encodeChecked (rpcFrameSize version limits rpc) cap do
    let bodyLen ← rpcBodySize version limits rpc
    let out ← writeUvarint bodyLen cap []
    let body ← (rpcBodyEncode version limits rpc (cap - out.length)).mapError EncodeErr.code
    return out ++ body

/-- `libp2p_gossipsub_rpc_frame_decode` (`gossipsub_codec_rpc.c:399-447`). -/
def rpcFrameDecode (storage : DecodeStorage) (input : Bytes) : Except GossipsubErr Rpc := do
  versionValidate version
  limitsValidate limits
  let (bodyLen, rest) ← readUvarint input
  if limits.maxRpcBytes < bodyLen ∨ rest.length < bodyLen then throw .truncated
  if bodyLen ≠ rest.length then throw .malformed
  rpcBodyDecode version limits storage rest

end LeanLibp2p.Gossipsub
