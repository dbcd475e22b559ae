import LeanLibp2p.Gossipsub.Codec.Wire

/-!
# Router configuration

`libp2p_gossipsub_config_t` and its checks (`gossipsub_config.c:6-54`). A router runs under a
`RouterConfig`: a configuration that `libp2p_gossipsub_init` accepts, whose tables fit into
one object of the address space.
-/

namespace LeanLibp2p.Gossipsub

/-- `libp2p_gossipsub_mesh_params_t`, less the parameters that no code reads (`d_out`,
    `fanout_ttl_us`, `enable_px`). -/
structure MeshParams where
  d : Nat
  dLow : Nat
  dHigh : Nat
  dLazy : Nat
  mcacheLen : Nat
  mcacheGossip : Nat
  gossipFactorPpm : Nat
  heartbeatIntervalUs : Nat
  seenTtlUs : Nat
  pruneBackoffUs : Nat
  unsubscribeBackoffUs : Nat
  backoffSlackUs : Nat
  iwantFollowupUs : Nat
  enableFloodPublish : Bool
  deriving DecidableEq, Repr

/-- `libp2p_gossipsub_capacity_t`, less `max_fanout_edges` and `max_pending_opens`, which no
    code reads. -/
structure Capacity where
  maxTopics : Nat
  maxPeers : Nat
  maxPeerTopics : Nat
  maxMeshEdges : Nat
  maxBackoffEntries : Nat
  maxStreams : Nat
  maxPeerTxQueue : Nat
  maxTxRpcQueue : Nat
  txBufferBytes : Nat
  mcacheSlots : Nat
  mcacheBytes : Nat
  seenEntries : Nat
  pendingValidations : Nat
  idontwantEntries : Nat
  eventCapacity : Nat
  maxDriveSteps : Nat
  deriving DecidableEq, Repr

/-- `libp2p_gossipsub_message_id_fn_t`: the call that measures, where `OK` and
    `ERR_BUF_TOO_SMALL` both report the size, and the call that writes into a buffer of the
    given length. -/
structure MessageIdFn where
  measure : Message → Except GossipsubErr Nat
  write : Message → Nat → Except GossipsubErr Bytes

/-- `libp2p_gossipsub_config_t`. The random callback is the sequence of its answers. -/
structure Config where
  limits : Limits
  mesh : MeshParams
  capacity : Capacity
  randomFn : Nat → Except GossipsubErr UInt64
  messageIdFn : MessageIdFn
  protocolMask : UInt32
  enableIdontwant : Bool
  idontwantMinMessageBytes : Nat
  maxIdontwantMessagesPerPeerPerHeartbeat : Nat
  idontwantTtlUs : Nat

/-- `LIBP2P_GOSSIPSUB_PROTOCOL_MASK_ALL`. -/
def protocolMaskAll : UInt32 := 3

/-- `gossipsub_config_validate_storage` (`gossipsub_config.c:6-41`), and so
    `gossipsub_config_validate_init`: both callbacks are there. -/
def configValidate (config : Config) : Except GossipsubErr Unit := do
  limitsValidate config.limits
  if config.capacity.maxTopics = 0 ∨ config.capacity.maxPeers = 0 ∨
      config.capacity.maxPeerTopics = 0 ∨ config.capacity.maxStreams = 0 ∨
      config.capacity.maxMeshEdges = 0 ∨ config.capacity.maxBackoffEntries = 0 ∨
      config.capacity.maxPeerTxQueue = 0 ∨ config.capacity.maxTxRpcQueue = 0 ∨
      config.capacity.txBufferBytes = 0 ∨ config.capacity.mcacheSlots = 0 ∨
      config.capacity.mcacheBytes = 0 ∨ config.capacity.seenEntries = 0 ∨
      config.capacity.pendingValidations = 0 ∨ config.capacity.idontwantEntries = 0 ∨
      config.capacity.eventCapacity = 0 ∨ config.capacity.maxDriveSteps = 0 ∨
      config.mesh.mcacheLen = 0 ∨ 255 < config.mesh.mcacheLen ∨
      config.mesh.mcacheLen < config.mesh.mcacheGossip ∨ config.protocolMask = 0 ∨
      config.protocolMask &&& ~~~protocolMaskAll ≠ 0 ∨
      config.limits.maxMessageDataBytes < config.idontwantMinMessageBytes then
    throw .limit

/-- The mesh parameters of `libp2p_gossipsub_config_default` (`gossipsub_config.c:351-426`). -/
def defaultMesh : MeshParams :=
  { d := 8
    dLow := 6
    dHigh := 12
    dLazy := 6
    mcacheLen := 6
    mcacheGossip := 3
    gossipFactorPpm := 250000
    heartbeatIntervalUs := 700000
    seenTtlUs := 120000000
    pruneBackoffUs := 60000000
    unsubscribeBackoffUs := 10000000
    backoffSlackUs := 1000000
    iwantFollowupUs := 3000000
    enableFloodPublish := true }

/-- The capacities of `libp2p_gossipsub_config_default`. -/
def defaultCapacity : Capacity :=
  { maxTopics := 128
    maxPeers := 128
    maxPeerTopics := 4096
    maxMeshEdges := 1536
    maxBackoffEntries := 2048
    maxStreams := 128
    maxPeerTxQueue := 32
    maxTxRpcQueue := 1024
    txBufferBytes := 2097152
    mcacheSlots := 1024
    mcacheBytes := 4194304
    seenEntries := 8192
    pendingValidations := 256
    idontwantEntries := 4096
    eventCapacity := 256
    maxDriveSteps := 256 }

/-- `libp2p_gossipsub_config_default`, with the two callbacks that the application adds. -/
def configDefault (randomFn : Nat → Except GossipsubErr UInt64) (messageIdFn : MessageIdFn) :
    Config :=
  { limits := defaultLimits
    mesh := defaultMesh
    capacity := defaultCapacity
    randomFn := randomFn
    messageIdFn := messageIdFn
    protocolMask := protocolMaskAll
    enableIdontwant := true
    idontwantMinMessageBytes := 1024
    maxIdontwantMessagesPerPeerPerHeartbeat := 64
    idontwantTtlUs := 3000000 }

/-! ## Storage layout

The receive areas of `gossipsub_storage_layout` (`gossipsub_config.c:56-349`): every stream has
a small buffer, and a few large ones share a pool. -/

/-- `layout->stream_rx_max_cap`. -/
def streamRxMaxCap (config : Config) : Nat := config.limits.maxRpcBytes + 10

/-- `layout->stream_rx_stride`. -/
def streamRxSmallStride (config : Config) : Nat := min 4096 (streamRxMaxCap config)

/-- `layout->stream_rx_buffer_cap`. -/
def streamRxBufferCap (config : Config) : Nat :=
  if streamRxSmallStride config < streamRxMaxCap config then
    min config.capacity.maxStreams 6 * streamRxMaxCap config
  else 0

/-- `PTRDIFF_MAX` of a 64-bit target, the size that no object exceeds. -/
def ptrdiffMax : Nat := 9223372036854775807

/-- A lower bound of `layout->total`: a byte for each table entry, and the byte areas. -/
def storageLowerBound (config : Config) : Nat :=
  let capacity := config.capacity
  capacity.maxTopics + capacity.maxPeers + capacity.maxPeerTopics + capacity.maxMeshEdges +
    capacity.maxBackoffEntries + capacity.maxStreams + capacity.maxTxRpcQueue +
    capacity.txBufferBytes + capacity.mcacheSlots + capacity.mcacheBytes + capacity.seenEntries +
    capacity.pendingValidations + capacity.idontwantEntries + capacity.eventCapacity +
    capacity.maxStreams * streamRxSmallStride config + streamRxBufferCap config

/-- A configuration that a router can run under. -/
structure RouterConfig extends Config where
  valid : configValidate toConfig = .ok ()
  storage_le : storageLowerBound toConfig ≤ ptrdiffMax
  pruneBackoffUs_le : toConfig.mesh.pruneBackoffUs ≤ uint64Max

namespace RouterConfig

variable (config : RouterConfig)

theorem limits_valid : limitsValidate config.limits = .ok () := by
  have h := config.valid
  unfold configValidate at h
  cases hl : limitsValidate config.limits with
  | error e =>
    rw [hl] at h
    cases h
  | ok u => rfl

theorem txBufferBytes_le : config.capacity.txBufferBytes ≤ ptrdiffMax := by
  have h := config.storage_le
  unfold storageLowerBound at h
  dsimp only at h
  omega

/-- The tables that a valid configuration must not leave empty. -/
theorem capacity_pos : 0 < config.capacity.maxPeers ∧ 0 < config.capacity.maxBackoffEntries ∧
    0 < config.capacity.eventCapacity := by
  have h := config.valid
  unfold configValidate at h
  rw [config.limits_valid] at h
  by_contra hzero
  change (if _ then _ else _ : Except GossipsubErr Unit) = .ok () at h
  rw [if_pos (by omega)] at h
  cases h

/-- The default configuration passes its own checks. -/
def default (randomFn : Nat → Except GossipsubErr UInt64) (messageIdFn : MessageIdFn) :
    RouterConfig where
  toConfig := configDefault randomFn messageIdFn
  valid := by
    have hlimits : limitsValidate defaultLimits = .ok () := rfl
    unfold configValidate
    simp only [configDefault, hlimits]
    exact if_neg (by decide)
  storage_le := by
    change storageLowerBound (configDefault (fun _ => .error .state) ⟨fun _ => .error .state,
      fun _ _ => .error .state⟩) ≤ ptrdiffMax
    decide
  pruneBackoffUs_le := by
    change (configDefault (fun _ => .error .state) ⟨fun _ => .error .state,
      fun _ _ => .error .state⟩).mesh.pruneBackoffUs ≤ uint64Max
    decide

/-- The default configuration with tables of a few entries, where the id of a message is its
    topic followed by its data. -/
def small : RouterConfig where
  toConfig := { configDefault (fun n => .ok (UInt64.ofNat n))
      { measure := fun m => .ok (m.topic.bytes ++ m.data.bytes).length
        write := fun m _ => .ok (m.topic.bytes ++ m.data.bytes) } with
    capacity :=
      { maxTopics := 2
        maxPeers := 3
        maxPeerTopics := 4
        maxMeshEdges := 4
        maxBackoffEntries := 4
        maxStreams := 4
        maxPeerTxQueue := 4
        maxTxRpcQueue := 4
        txBufferBytes := 64
        mcacheSlots := 2
        mcacheBytes := 64
        seenEntries := 4
        pendingValidations := 2
        idontwantEntries := 2
        eventCapacity := 8
        maxDriveSteps := 8 } }
  valid := by rfl
  storage_le := by
    unfold storageLowerBound streamRxBufferCap streamRxSmallStride streamRxMaxCap ptrdiffMax
    decide
  pruneBackoffUs_le := by
    unfold uint64Max
    decide

end RouterConfig

end LeanLibp2p.Gossipsub
