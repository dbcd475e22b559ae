import LeanLibp2p.Multiformats.Varint

/-!
# Gossipsub values

The public types of `gossipsub.h` that the codec and the router share: result codes,
borrowed byte spans, wire limits, and the RPC with its message, subscription and
control elements. An array with its count is a list; result codes leave out `OK`,
which is the `Except.ok` side of a call.
-/

namespace LeanLibp2p.Gossipsub

/-- `libp2p_gossipsub_err_t` without `OK`. -/
inductive GossipsubErr where
  | invalidArg
  | bufTooSmall
  | wouldBlock
  | malformed
  | truncated
  | limit
  | state
  | unsupportedVersion
  | notFound
  | duplicate
  | host
  | random
  | internal
  deriving DecidableEq, Repr

/-- `libp2p_gossipsub_protocol_version_t`. -/
inductive ProtocolVersion where
  | none
  | v11
  | v12
  deriving DecidableEq, Repr

/-- `libp2p_gossipsub_bytes_t`: a NULL pointer beside some length, or the bytes pointed to. -/
inductive Span where
  | null (len : Nat)
  | ptr (bytes : Bytes)
  deriving DecidableEq, Repr

namespace Span

/-- The zeroed span. -/
def zero : Span := .null 0

/-- `span.len`. -/
def len : Span → Nat
  | .null n => n
  | .ptr bytes => bytes.length

/-- `span.data == NULL`. -/
def isNull : Span → Bool
  | .null _ => true
  | .ptr _ => false

/-- What a reader of `span.len` bytes at a non-NULL `span.data` sees. -/
def bytes : Span → Bytes
  | .null _ => []
  | .ptr bytes => bytes

/-- `gossipsub_bytes_present` (`gossipsub_util.c:149-159`). -/
def present (span : Span) : Bool := !span.isNull && span.len ≠ 0

@[simp] theorem len_ptr (bs : Bytes) : (ptr bs).len = bs.length := rfl

@[simp] theorem isNull_ptr (bs : Bytes) : (ptr bs).isNull = false := rfl

@[simp] theorem bytes_ptr (bs : Bytes) : (ptr bs).bytes = bs := rfl

@[simp] theorem isNull_null (n : Nat) : (null n).isNull = true := rfl

@[simp] theorem present_ptr (bs : Bytes) : (ptr bs).present = decide (bs ≠ []) := by
  cases bs <;> simp [present, len, isNull]

@[simp] theorem present_null (n : Nat) : (null n).present = false := rfl

/-- A present span is kept, any other is absent. -/
def normal (span : Span) : Span := if span.present then .ptr span.bytes else .zero

theorem eq_ptr_of_present {span : Span} (h : span.present = true) :
    span = .ptr span.bytes ∧ span.bytes ≠ [] := by
  cases span with
  | null n => simp at h
  | ptr bs => simpa using h

theorem present_iff {span : Span} :
    span.present = true ↔ ¬ (span.isNull = true ∨ span.len = 0) := by
  simp [present]

/-- A span that is not NULL, or is empty, has the length of its bytes. -/
theorem length_bytes {span : Span} (h : span.isNull = true → span.len = 0) :
    span.bytes.length = span.len := by
  cases span with
  | null n => exact (h rfl).symm
  | ptr bs => rfl

end Span

/-- `libp2p_gossipsub_limits_t`. -/
structure Limits where
  maxRpcBytes : Nat
  maxMessageDataBytes : Nat
  maxTopicBytes : Nat
  maxMessageIdBytes : Nat
  maxSignedPeerRecordBytes : Nat
  maxSubscriptionsPerRpc : Nat
  maxPublishPerRpc : Nat
  maxIhavePerRpc : Nat
  maxIwantPerRpc : Nat
  maxGraftPerRpc : Nat
  maxPrunePerRpc : Nat
  maxIdontwantPerRpc : Nat
  maxMessageIdsPerRpc : Nat
  maxPxPeersPerRpc : Nat
  deriving DecidableEq, Repr

/-- `libp2p_gossipsub_message_t`. -/
structure Message where
  fromPeer : Span
  data : Span
  seqno : Span
  topic : Span
  signature : Span
  key : Span
  rawMessage : Span
  deriving DecidableEq, Repr

/-- A zeroed message. -/
def Message.zero : Message := ⟨.zero, .zero, .zero, .zero, .zero, .zero, .zero⟩

/-- `libp2p_gossipsub_rpc_subscription_t`. -/
structure RpcSubscription where
  topic : Span
  subscribe : UInt8
  deriving DecidableEq, Repr

/-- `libp2p_gossipsub_peer_info_t`. -/
structure PeerInfo where
  peerId : Span
  signedPeerRecord : Span
  deriving DecidableEq, Repr

/-- `libp2p_gossipsub_control_ihave_t`. -/
structure ControlIhave where
  topic : Span
  messageIds : List Span
  deriving DecidableEq, Repr

/-- `libp2p_gossipsub_control_iwant_t`. -/
structure ControlIwant where
  messageIds : List Span
  deriving DecidableEq, Repr

/-- `libp2p_gossipsub_control_graft_t`. -/
structure ControlGraft where
  topic : Span
  deriving DecidableEq, Repr

/-- `libp2p_gossipsub_control_prune_t`. -/
structure ControlPrune where
  topic : Span
  peers : List PeerInfo
  backoffSeconds : Nat
  deriving DecidableEq, Repr

/-- `libp2p_gossipsub_control_idontwant_t`. -/
structure ControlIdontwant where
  messageIds : List Span
  deriving DecidableEq, Repr

/-- `libp2p_gossipsub_rpc_control_t`. -/
structure RpcControl where
  ihave : List ControlIhave
  iwant : List ControlIwant
  graft : List ControlGraft
  prune : List ControlPrune
  idontwant : List ControlIdontwant
  deriving DecidableEq, Repr

/-- A control section without elements. -/
def RpcControl.zero : RpcControl := ⟨[], [], [], [], []⟩

/-- `libp2p_gossipsub_rpc_t`. -/
structure Rpc where
  subscriptions : List RpcSubscription
  publish : List Message
  control : RpcControl
  deriving DecidableEq, Repr

/-- A zeroed RPC. -/
def Rpc.zero : Rpc := ⟨[], [], .zero⟩

/-- The capacities of `libp2p_gossipsub_rpc_decode_storage_t`; a NULL array has capacity 0. -/
structure DecodeStorage where
  subscriptionCapacity : Nat
  publishCapacity : Nat
  ihaveCapacity : Nat
  iwantCapacity : Nat
  graftCapacity : Nat
  pruneCapacity : Nat
  idontwantCapacity : Nat
  messageIdCapacity : Nat
  peerInfoCapacity : Nat
  deriving DecidableEq, Repr

end LeanLibp2p.Gossipsub
