import LeanLibp2p.Lib.Placement
import LeanLibp2p.Gossipsub.Config

/-!
# Storage layout

`gossipsub_storage_layout` (`gossipsub_config.c:56-349`) cuts the caller's storage into the router
and its sixteen tables, on `size_t` arithmetic that is checked before it is done
(`gossipsub_util.c:6-111`). The layout either fails, because the configuration is invalid or a
number passes `SIZE_MAX`, or is the one of unbounded arithmetic.
-/

namespace LeanLibp2p.Gossipsub

open Lib

/-- The `sizeof` of the router and of the table entries. -/
structure ElementSizes where
  router : Nat
  topicState : Nat
  peerState : Nat
  peerTopicState : Nat
  meshEdgeState : Nat
  backoffState : Nat
  streamState : Nat
  txItem : Nat
  mcacheEntry : Nat
  seenEntry : Nat
  validation : Nat
  idontwantEntry : Nat
  event : Nat
  deriving DecidableEq, Repr

variable (sizes : ElementSizes)

/-- `gossipsub_storage_layout_t` (`gossipsub_internal.h:266-289`). -/
structure StorageLayout where
  routerOffset : Nat
  topicsOffset : Nat
  peersOffset : Nat
  peerTopicsOffset : Nat
  meshEdgesOffset : Nat
  backoffOffset : Nat
  streamsOffset : Nat
  streamRxOffset : Nat
  streamRxBufferOffset : Nat
  txQueueOffset : Nat
  txBufferOffset : Nat
  mcacheOffset : Nat
  mcacheDataOffset : Nat
  seenOffset : Nat
  validationsOffset : Nat
  idontwantOffset : Nat
  eventsOffset : Nat
  streamRxStride : Nat
  streamRxMaxCap : Nat
  streamRxBufferCap : Nat
  total : Nat
  deriving DecidableEq, Repr

/-- `GOSSIPSUB_STORAGE_ALIGN`. -/
def storageAlign : Nat := 8

/-- What a `size_t` keeps of a number. -/
def sizeWord (n : Nat) : Nat := n % (sizeMax + 1)

/-- `gossipsub_size_mul` (`gossipsub_util.c:27-46`); `none` is its non-zero return. -/
def sizeMul (a b : Nat) : Option Nat :=
  if a ≠ 0 ∧ sizeMax / a < b then none else some (sizeWord (a * b))

/-- `gossipsub_align_up` (`gossipsub_util.c:48-79`). -/
def alignUp (value alignment : Nat) : Except GossipsubErr Nat :=
  if alignment = 0 then .error .invalidArg
  else if value % alignment = 0 then .ok value
  else if sizeMax - value < alignment - value % alignment then .error .limit
  else .ok (sizeWord (value + (alignment - value % alignment)))

/-- `gossipsub_reserve` (`gossipsub_util.c:81-111`), on the cursor. -/
def reserve (alignment size : Nat) : StateT Nat (Except GossipsubErr) Nat := fun cursor =>
  match alignUp cursor alignment with
  | .error e => .error e
  | .ok aligned =>
    match sizeAdd aligned size with
    | none => .error .limit
    | some next => .ok (aligned, sizeWord next)

/-- The step that `gossipsub_storage_layout` takes for a table: `gossipsub_size_mul`, then
    `gossipsub_reserve`. -/
def reserveTable (count size : Nat) : StateT Nat (Except GossipsubErr) Nat :=
  match sizeMul count size with
  | none => throw .limit
  | some bytes => reserve storageAlign bytes

/-- `layout->stream_rx_max_cap` (`gossipsub_config.c:174-181`). -/
def reserveRxMaxCap (config : Config) : StateT Nat (Except GossipsubErr) Nat :=
  match sizeAdd config.limits.maxRpcBytes 10 with
  | none => throw .limit
  | some maxCap => pure (sizeWord maxCap)

/-- The pool of large receive buffers (`gossipsub_config.c:207-229`): `layout->stream_rx_buffer_cap`
    and the offset, both zero when the small buffers are large enough. -/
def reserveRxPool (config : Config) (stride maxCap : Nat) :
    StateT Nat (Except GossipsubErr) (Nat × Nat) :=
  if stride < maxCap then
    match sizeMul (if 6 < config.capacity.maxStreams then 6 else config.capacity.maxStreams)
        maxCap with
    | none => throw .limit
    | some bytes => do
      let offset ← reserve storageAlign bytes
      return (bytes, offset)
  else pure (0, 0)

/-- The reservations of `gossipsub_storage_layout`, in their order. -/
def layoutTables (config : Config) :
    StateT Nat (Except GossipsubErr) StorageLayout := do
  let routerOffset ← reserve storageAlign sizes.router
  let topicsOffset ← reserveTable config.capacity.maxTopics sizes.topicState
  let peersOffset ← reserveTable config.capacity.maxPeers sizes.peerState
  let peerTopicsOffset ← reserveTable config.capacity.maxPeerTopics sizes.peerTopicState
  let meshEdgesOffset ← reserveTable config.capacity.maxMeshEdges sizes.meshEdgeState
  let backoffOffset ← reserveTable config.capacity.maxBackoffEntries sizes.backoffState
  let streamsOffset ← reserveTable config.capacity.maxStreams sizes.streamState
  let maxCap ← reserveRxMaxCap config
  let stride := if maxCap < 4096 then maxCap else 4096
  let streamRxOffset ← reserveTable config.capacity.maxStreams stride
  let pool ← reserveRxPool config stride maxCap
  let txQueueOffset ← reserveTable config.capacity.maxTxRpcQueue sizes.txItem
  let txBufferOffset ← reserve storageAlign config.capacity.txBufferBytes
  let mcacheOffset ← reserveTable config.capacity.mcacheSlots sizes.mcacheEntry
  let mcacheDataOffset ← reserve storageAlign config.capacity.mcacheBytes
  let seenOffset ← reserveTable config.capacity.seenEntries sizes.seenEntry
  let validationsOffset ← reserveTable config.capacity.pendingValidations sizes.validation
  let idontwantOffset ← reserveTable config.capacity.idontwantEntries sizes.idontwantEntry
  let eventsOffset ← reserveTable config.capacity.eventCapacity sizes.event
  let cursor ← get
  return {
    routerOffset := routerOffset
    topicsOffset := topicsOffset
    peersOffset := peersOffset
    peerTopicsOffset := peerTopicsOffset
    meshEdgesOffset := meshEdgesOffset
    backoffOffset := backoffOffset
    streamsOffset := streamsOffset
    streamRxOffset := streamRxOffset
    streamRxBufferOffset := pool.2
    txQueueOffset := txQueueOffset
    txBufferOffset := txBufferOffset
    mcacheOffset := mcacheOffset
    mcacheDataOffset := mcacheDataOffset
    seenOffset := seenOffset
    validationsOffset := validationsOffset
    idontwantOffset := idontwantOffset
    eventsOffset := eventsOffset
    streamRxStride := stride
    streamRxMaxCap := maxCap
    streamRxBufferCap := pool.1
    total := cursor }

/-- `gossipsub_storage_layout` (`gossipsub_config.c:56-349`). -/
def storageLayout (config : Config) : Except GossipsubErr StorageLayout :=
  match configValidate config with
  | .error e => .error e
  | .ok () => (layoutTables sizes config).run' 0

/-! ## Checked arithmetic -/

theorem sizeWord_of_le {n : Nat} (h : n ≤ sizeMax) : sizeWord n = n :=
  Nat.mod_eq_of_lt (Nat.lt_succ_of_le h)

/-- The product is refused exactly when it does not fit, and never wraps. -/
theorem sizeMul_eq (a b : Nat) :
    sizeMul a b = if a * b ≤ sizeMax then some (a * b) else none := by
  have hfits : (a ≠ 0 ∧ sizeMax / a < b) ↔ sizeMax < a * b := by
    obtain rfl | hpos := Nat.eq_zero_or_pos a
    · simp
    · rw [Nat.div_lt_iff_lt_mul hpos, Nat.mul_comm b a]
      exact and_iff_right hpos.ne'
  unfold sizeMul
  by_cases hle : a * b ≤ sizeMax
  · rw [if_neg (by rw [hfits]; exact Nat.not_lt.mpr hle), if_pos hle, sizeWord_of_le hle]
  · rw [if_pos (by rw [hfits]; exact Nat.not_le.mp hle), if_neg hle]

/-- So is the sum of two words. -/
theorem sizeAdd_eq {a : Nat} (ha : a ≤ sizeMax) (b : Nat) :
    sizeAdd a b = if a + b ≤ sizeMax then some (a + b) else none := by
  unfold sizeAdd
  by_cases hle : a + b ≤ sizeMax
  · rw [if_neg (by omega), if_pos hle]
  · rw [if_pos (by omega), if_neg hle]

theorem alignUp_eq {value : Nat} (hvalue : value ≤ sizeMax) : alignUp value storageAlign =
    if roundUp storageAlign value ≤ sizeMax then .ok (roundUp storageAlign value)
    else .error .limit := by
  have halign : 0 < storageAlign := by decide
  unfold alignUp
  rw [if_neg halign.ne']
  by_cases hrem : value % storageAlign = 0
  · rw [if_pos hrem, roundUp_of_dvd halign hrem, if_pos hvalue]
  · rw [if_neg hrem, roundUp_of_not_dvd halign hrem]
    by_cases hle : value + (storageAlign - value % storageAlign) ≤ sizeMax
    · rw [if_neg (by omega), if_pos hle, sizeWord_of_le hle]
    · rw [if_pos (by omega), if_neg hle]

/-- `gossipsub_reserve` allocates as the library's allocators do. -/
theorem reserve_places : Places storageAlign sizeMax .limit (reserve storageAlign) := by
  intro size cursor hcursor
  change reserve storageAlign size cursor = _
  unfold reserve
  rw [alignUp_eq hcursor]
  by_cases hup : roundUp storageAlign cursor ≤ sizeMax
  · rw [if_pos hup]
    dsimp only
    rw [sizeAdd_eq hup]
    by_cases hend : roundUp storageAlign cursor + size ≤ sizeMax
    · rw [if_pos hend, if_pos hend]
      dsimp only
      rw [sizeWord_of_le hend]
    · rw [if_neg hend, if_neg hend]
  · rw [if_neg hup, if_neg (by omega)]

/-- A region of more bytes than there are addresses is refused at every cursor. -/
theorem reserve_of_lt {size : Nat} (h : sizeMax < size) :
    reserve storageAlign size = throw .limit := by
  funext cursor
  change reserve storageAlign size cursor = .error .limit
  have halign : 0 < storageAlign := by decide
  unfold reserve alignUp
  rw [if_neg halign.ne']
  split_ifs with hrem hroom
  · have hnone : sizeAdd cursor size = none := if_pos (by omega)
    simp only [hnone]
  · rfl
  · generalize sizeWord (cursor + (storageAlign - cursor % storageAlign)) = aligned
    have hnone : sizeAdd aligned size = none := if_pos (by omega)
    simp only [hnone]

/-- A table is a region of its product, whether that fits or not. -/
theorem reserveTable_eq (count size : Nat) :
    reserveTable count size = reserve storageAlign (count * size) := by
  unfold reserveTable
  rw [sizeMul_eq]
  by_cases hle : count * size ≤ sizeMax
  · rw [if_pos hle]
  · rw [if_neg hle, reserve_of_lt (Nat.not_le.mp hle)]

/-! ## The layout in unbounded arithmetic -/

/-- The bytes of the router and of the tables before the pool. -/
def frontBytes (config : Config) : List Nat :=
  [sizes.router, config.capacity.maxTopics * sizes.topicState,
    config.capacity.maxPeers * sizes.peerState,
    config.capacity.maxPeerTopics * sizes.peerTopicState,
    config.capacity.maxMeshEdges * sizes.meshEdgeState,
    config.capacity.maxBackoffEntries * sizes.backoffState,
    config.capacity.maxStreams * sizes.streamState,
    config.capacity.maxStreams * streamRxSmallStride config]

/-- The bytes of the pool, if there is one. -/
def poolBytes (config : Config) : List Nat :=
  if streamRxSmallStride config < streamRxMaxCap config then [streamRxBufferCap config] else []

/-- The bytes of the tables after the pool. -/
def backBytes (config : Config) : List Nat :=
  [config.capacity.maxTxRpcQueue * sizes.txItem, config.capacity.txBufferBytes,
    config.capacity.mcacheSlots * sizes.mcacheEntry, config.capacity.mcacheBytes,
    config.capacity.seenEntries * sizes.seenEntry,
    config.capacity.pendingValidations * sizes.validation,
    config.capacity.idontwantEntries * sizes.idontwantEntry,
    config.capacity.eventCapacity * sizes.event]

/-- Every region that the layout asks for, in order. -/
def layoutBytes (config : Config) : List Nat :=
  frontBytes sizes config ++ poolBytes config ++ backBytes sizes config

/-- The layout with the given offsets before the pool, of the pool, and after it. -/
def layoutOfOffsets (config : Config) (front : List Nat) (pool : Nat) (back : List Nat)
    (total : Nat) : StorageLayout where
  routerOffset := front.getD 0 0
  topicsOffset := front.getD 1 0
  peersOffset := front.getD 2 0
  peerTopicsOffset := front.getD 3 0
  meshEdgesOffset := front.getD 4 0
  backoffOffset := front.getD 5 0
  streamsOffset := front.getD 6 0
  streamRxOffset := front.getD 7 0
  streamRxBufferOffset := pool
  txQueueOffset := back.getD 0 0
  txBufferOffset := back.getD 1 0
  mcacheOffset := back.getD 2 0
  mcacheDataOffset := back.getD 3 0
  seenOffset := back.getD 4 0
  validationsOffset := back.getD 5 0
  idontwantOffset := back.getD 6 0
  eventsOffset := back.getD 7 0
  streamRxStride := streamRxSmallStride config
  streamRxMaxCap := streamRxMaxCap config
  streamRxBufferCap := streamRxBufferCap config
  total := total

@[simp] theorem layoutOfOffsets_total (config : Config) (front : List Nat) (pool : Nat)
    (back : List Nat) (total : Nat) :
    (layoutOfOffsets config front pool back total).total = total := rfl

theorem reserveRxMaxCap_eq {config : Config} (hcap : streamRxMaxCap config ≤ sizeMax) :
    reserveRxMaxCap config = pure (streamRxMaxCap config) := by
  unfold streamRxMaxCap at hcap ⊢
  unfold reserveRxMaxCap
  rw [sizeAdd_eq (by omega), if_pos hcap]
  dsimp only
  rw [sizeWord_of_le hcap]

theorem reserveRxPool_eq {config : Config} :
    reserveRxPool config (streamRxSmallStride config) (streamRxMaxCap config) = do
      let pool ← (poolBytes config).mapM (reserve storageAlign)
      return (streamRxBufferCap config, pool.getD 0 0) := by
  unfold reserveRxPool poolBytes streamRxBufferCap
  have hstreams : (if 6 < config.capacity.maxStreams then 6 else config.capacity.maxStreams) =
      min config.capacity.maxStreams 6 := by
    split_ifs <;> omega
  rw [hstreams, sizeMul_eq]
  by_cases hpool : streamRxSmallStride config < streamRxMaxCap config
  · simp only [if_pos hpool, List.mapM_cons, List.mapM_nil, bind_assoc, pure_bind,
      List.getD_cons_zero]
    by_cases hle : min config.capacity.maxStreams 6 * streamRxMaxCap config ≤ sizeMax
    · rw [if_pos hle]
    · rw [if_neg hle, reserve_of_lt (Nat.not_le.mp hle)]
      rfl
  · simp only [if_neg hpool, List.mapM_nil, pure_bind]
    rfl

/-- The reservations, with those before the pool and after it taken together. -/
theorem layoutTables_eq {config : Config}
    (hcap : streamRxMaxCap config ≤ sizeMax) : layoutTables sizes config = do
      let front ← (frontBytes sizes config).mapM (reserve storageAlign)
      let pool ← (poolBytes config).mapM (reserve storageAlign)
      let back ← (backBytes sizes config).mapM (reserve storageAlign)
      let cursor ← get
      return layoutOfOffsets config front (pool.getD 0 0) back cursor := by
  have hstride : (if streamRxMaxCap config < 4096 then streamRxMaxCap config else 4096) =
      streamRxSmallStride config := by
    unfold streamRxSmallStride
    split_ifs <;> omega
  unfold layoutTables frontBytes backBytes layoutOfOffsets
  rw [reserveRxMaxCap_eq hcap]
  simp only [reserveTable_eq, pure_bind, hstride, reserveRxPool_eq, List.mapM_cons, List.mapM_nil,
    bind_assoc, List.getD_cons_zero, List.getD_cons_succ]

/-- A computation fails when what it ends in does. -/
theorem fails_bind {α β : Type} {x : StateT Nat (Except GossipsubErr) α}
    {k : α → StateT Nat (Except GossipsubErr) β} (hk : ∀ a c, ∃ e, (k a).run c = .error e)
    (c : Nat) : ∃ e, (x >>= k).run c = .error e := by
  rw [StateT.run_bind]
  cases hx : x.run c with
  | error e => exact ⟨e, rfl⟩
  | ok p => exact hk p.1 p.2

/-- A frame length that does not fit stops the layout before the receive areas. -/
theorem layoutTables_of_lt {config : Config}
    (hcap : sizeMax < streamRxMaxCap config) (cursor : Nat) :
    ∃ e, (layoutTables sizes config).run cursor = .error e := by
  have hmax : reserveRxMaxCap config = throw .limit := by
    unfold streamRxMaxCap at hcap
    have hnone : sizeAdd config.limits.maxRpcBytes 10 = none := if_pos (by omega)
    unfold reserveRxMaxCap
    rw [hnone]
  unfold layoutTables
  rw [hmax]
  iterate 7 refine fails_bind (fun _ _ => ?_) _
  exact ⟨.limit, rfl⟩

section Result

variable (sizes : ElementSizes) (config : Config)

/-- Where the cursor stands before the pool, and after it. -/
def frontEnd : Nat := placedEnd storageAlign 0 (frontBytes sizes config)
def poolEnd : Nat := placedEnd storageAlign (frontEnd sizes config) (poolBytes config)

/-- The regions before the pool, the pool, and the regions after it. -/
def frontRegions : List Region := placed storageAlign 0 (frontBytes sizes config)
def poolRegions : List Region := placed storageAlign (frontEnd sizes config) (poolBytes config)
def backRegions : List Region := placed storageAlign (poolEnd sizes config) (backBytes sizes config)

/-- The layout of unbounded arithmetic. -/
def idealLayout : StorageLayout :=
  layoutOfOffsets config ((frontRegions sizes config).map Region.offset)
    (((poolRegions sizes config).map Region.offset).getD 0 0)
    ((backRegions sizes config).map Region.offset)
    (placedEnd storageAlign 0 (layoutBytes sizes config))

theorem placed_layoutBytes : placed storageAlign 0 (layoutBytes sizes config) =
    frontRegions sizes config ++ poolRegions sizes config ++ backRegions sizes config := by
  unfold layoutBytes
  rw [placed_append, placed_append, placedEnd_append]
  rfl

theorem placedEnd_layoutBytes : placedEnd storageAlign 0 (layoutBytes sizes config) =
    placedEnd storageAlign (poolEnd sizes config) (backBytes sizes config) := by
  unfold layoutBytes
  rw [placedEnd_append, placedEnd_append]
  rfl

/-- On words the reservations make the same layout, unless it passes `SIZE_MAX`. -/
theorem layoutTables_run (hcap : streamRxMaxCap config ≤ sizeMax) :
    (layoutTables sizes config).run 0 =
      if placedEnd storageAlign 0 (layoutBytes sizes config) ≤ sizeMax then
        .ok (idealLayout sizes config, placedEnd storageAlign 0 (layoutBytes sizes config))
      else .error .limit := by
  have halign : 0 < storageAlign := by decide
  have hback : poolEnd sizes config ≤ placedEnd storageAlign (poolEnd sizes config)
      (backBytes sizes config) := le_placedEnd halign
  have hpool : frontEnd sizes config ≤ poolEnd sizes config := le_placedEnd halign
  rw [layoutTables_eq sizes hcap, placedEnd_layoutBytes,
    reserve_places.mapM_bind halign (Nat.zero_le _)]
  change (if frontEnd sizes config ≤ sizeMax then _ else _) = _
  by_cases hfront : frontEnd sizes config ≤ sizeMax
  · rw [if_pos hfront]
    change (_ >>= _ : StateT Nat (Except GossipsubErr) _).run (frontEnd sizes config) = _
    rw [reserve_places.mapM_bind halign hfront]
    change (if poolEnd sizes config ≤ sizeMax then _ else _) = _
    by_cases hmiddle : poolEnd sizes config ≤ sizeMax
    · rw [if_pos hmiddle]
      change (_ >>= _ : StateT Nat (Except GossipsubErr) _).run (poolEnd sizes config) = _
      rw [reserve_places.mapM_bind halign hmiddle, idealLayout, placedEnd_layoutBytes]
      rfl
    · rw [if_neg hmiddle, if_neg (by omega)]
  · rw [if_neg hfront, if_neg (by omega)]

/-- The router and its sixteen tables under a layout, each with the bytes of its entries. -/
def StorageLayout.regions (layout : StorageLayout) : List Region :=
  [⟨layout.routerOffset, sizes.router⟩,
    ⟨layout.topicsOffset, config.capacity.maxTopics * sizes.topicState⟩,
    ⟨layout.peersOffset, config.capacity.maxPeers * sizes.peerState⟩,
    ⟨layout.peerTopicsOffset, config.capacity.maxPeerTopics * sizes.peerTopicState⟩,
    ⟨layout.meshEdgesOffset, config.capacity.maxMeshEdges * sizes.meshEdgeState⟩,
    ⟨layout.backoffOffset, config.capacity.maxBackoffEntries * sizes.backoffState⟩,
    ⟨layout.streamsOffset, config.capacity.maxStreams * sizes.streamState⟩,
    ⟨layout.streamRxOffset, config.capacity.maxStreams * layout.streamRxStride⟩,
    ⟨layout.streamRxBufferOffset, layout.streamRxBufferCap⟩,
    ⟨layout.txQueueOffset, config.capacity.maxTxRpcQueue * sizes.txItem⟩,
    ⟨layout.txBufferOffset, config.capacity.txBufferBytes⟩,
    ⟨layout.mcacheOffset, config.capacity.mcacheSlots * sizes.mcacheEntry⟩,
    ⟨layout.mcacheDataOffset, config.capacity.mcacheBytes⟩,
    ⟨layout.seenOffset, config.capacity.seenEntries * sizes.seenEntry⟩,
    ⟨layout.validationsOffset, config.capacity.pendingValidations * sizes.validation⟩,
    ⟨layout.idontwantOffset, config.capacity.idontwantEntries * sizes.idontwantEntry⟩,
    ⟨layout.eventsOffset, config.capacity.eventCapacity * sizes.event⟩]

/-- The pool's region is the one placed for it, or empty when none is. -/
theorem regions_idealLayout : (idealLayout sizes config).regions sizes config =
    frontRegions sizes config ++
      ⟨((poolRegions sizes config).map Region.offset).getD 0 0, streamRxBufferCap config⟩ ::
        backRegions sizes config := by
  rfl

/-- A number of the layout passes `SIZE_MAX`: the capacity of a receive buffer, the bytes of a
    region, where it starts, or where it ends. -/
def PassesSizeMax : Prop :=
  sizeMax < streamRxMaxCap config ∨ ∃ r ∈ placed storageAlign 0 (layoutBytes sizes config),
    sizeMax < r.bytes ∨ sizeMax < r.offset ∨ sizeMax < r.stop

/-- `gossipsub_storage_layout` is the layout of unbounded arithmetic, where that fits. -/
theorem storageLayout_of_fits (hvalid : configValidate config = .ok ())
    (hfits : ¬ PassesSizeMax sizes config) :
    storageLayout sizes config = .ok (idealLayout sizes config) ∧
      placedEnd storageAlign 0 (layoutBytes sizes config) ≤ sizeMax := by
  have hcap : streamRxMaxCap config ≤ sizeMax := Nat.not_lt.mp fun h => hfits (.inl h)
  have hend : placedEnd storageAlign 0 (layoutBytes sizes config) ≤ sizeMax := by
    refine Nat.not_lt.mp fun h => hfits (.inr ?_)
    exact (lt_placedEnd_iff (by decide) (Nat.zero_le _)).mp h
  refine ⟨?_, hend⟩
  unfold storageLayout
  rw [hvalid]
  dsimp only
  rw [StateT.run'_eq, layoutTables_run sizes config hcap, if_pos hend]
  rfl

theorem storageLayout_of_invalid (h : configValidate config ≠ .ok ()) :
    ∃ e, storageLayout sizes config = .error e := by
  unfold storageLayout
  cases hvalid : configValidate config with
  | error e => exact ⟨e, rfl⟩
  | ok _ => exact absurd hvalid h

theorem storageLayout_of_passes (hpass : PassesSizeMax sizes config) :
    ∃ e, storageLayout sizes config = .error e := by
  unfold storageLayout
  cases hvalid : configValidate config with
  | error e => exact ⟨e, rfl⟩
  | ok _ =>
    dsimp only
    rw [StateT.run'_eq]
    by_cases hcap : streamRxMaxCap config ≤ sizeMax
    · have hend : sizeMax < placedEnd storageAlign 0 (layoutBytes sizes config) := by
        rw [lt_placedEnd_iff (by decide) (Nat.zero_le _)]
        exact hpass.resolve_left (Nat.not_lt.mpr hcap)
      rw [layoutTables_run sizes config hcap, if_neg (Nat.not_le.mpr hend)]
      exact ⟨_, rfl⟩
    · obtain ⟨e, he⟩ := layoutTables_of_lt sizes (Nat.not_le.mp hcap) 0
      rw [he]
      exact ⟨e, rfl⟩

/-- A layout that is returned is the one of unbounded arithmetic, and fits. -/
theorem storageLayout_of_ok {layout : StorageLayout}
    (hok : storageLayout sizes config = .ok layout) : layout = idealLayout sizes config ∧
      placedEnd storageAlign 0 (layoutBytes sizes config) ≤ sizeMax := by
  have hvalid : configValidate config = .ok () := by
    by_contra h
    obtain ⟨e, he⟩ := storageLayout_of_invalid sizes config h
    rw [he] at hok
    cases hok
  have hfits : ¬ PassesSizeMax sizes config := by
    intro h
    obtain ⟨e, he⟩ := storageLayout_of_passes sizes config h
    rw [he] at hok
    cases hok
  obtain ⟨hideal, hend⟩ := storageLayout_of_fits sizes config hvalid hfits
  rw [hideal] at hok
  cases hok
  exact ⟨rfl, hend⟩

/-- What a layout owes to the router: aligned regions of their own inside the storage, whose
    receive buffers have the sizes that the configuration asks for, up to a total that is a
    word. -/
structure StorageLayout.Sound (layout : StorageLayout) : Prop where
  aligned : ∀ r ∈ layout.regions sizes config, 8 ∣ r.offset
  apart : (layout.regions sizes config).Pairwise Region.Apart
  inside : ∀ r ∈ layout.regions sizes config, r.stop ≤ layout.total
  stride : layout.streamRxStride = Gossipsub.streamRxSmallStride config
  maxCap : layout.streamRxMaxCap = Gossipsub.streamRxMaxCap config
  bufferCap : layout.streamRxBufferCap = Gossipsub.streamRxBufferCap config
  word : layout.total ≤ sizeMax

/-- With a pool, the regions of the layout are those placed. -/
theorem regions_of_pool (h : streamRxSmallStride config < streamRxMaxCap config) :
    (idealLayout sizes config).regions sizes config =
      placed storageAlign 0 (layoutBytes sizes config) := by
  have hpool : poolBytes config = [streamRxBufferCap config] := if_pos h
  rw [regions_idealLayout, placed_layoutBytes, poolRegions, hpool]
  simp

/-- Without one, there is an empty region besides. -/
theorem regions_of_no_pool (h : ¬ streamRxSmallStride config < streamRxMaxCap config) :
    (idealLayout sizes config).regions sizes config =
        frontRegions sizes config ++ ⟨0, 0⟩ :: backRegions sizes config ∧
      placed storageAlign 0 (layoutBytes sizes config) =
        frontRegions sizes config ++ backRegions sizes config := by
  have hpool : poolBytes config = [] := if_neg h
  have hcap : streamRxBufferCap config = 0 := if_neg h
  rw [regions_idealLayout, placed_layoutBytes, poolRegions, hpool, hcap]
  simp

theorem mem_regions_idealLayout {r : Region}
    (h : r ∈ (idealLayout sizes config).regions sizes config) :
    r = ⟨0, 0⟩ ∨ r ∈ placed storageAlign 0 (layoutBytes sizes config) := by
  by_cases hpool : streamRxSmallStride config < streamRxMaxCap config
  · rw [regions_of_pool sizes config hpool] at h
    exact .inr h
  · obtain ⟨hregions, hplaced⟩ := regions_of_no_pool sizes config hpool
    rw [hregions, List.mem_append, List.mem_cons] at h
    rw [hplaced, List.mem_append]
    obtain hfront | rfl | hback := h
    · exact .inr (.inl hfront)
    · exact .inl rfl
    · exact .inr (.inr hback)

theorem pairwise_regions_idealLayout : ((idealLayout sizes config).regions sizes config).Pairwise
    Region.Apart := by
  have hplaced : (placed storageAlign 0 (layoutBytes sizes config)).Pairwise Region.Apart :=
    (placed_pairwise (by decide)).imp Region.apart_of_stop_le
  by_cases hpool : streamRxSmallStride config < streamRxMaxCap config
  · rw [regions_of_pool sizes config hpool]
    exact hplaced
  · obtain ⟨hregions, happend⟩ := regions_of_no_pool sizes config hpool
    have hsymm : ∀ {r s : Region}, r.Apart s → s.Apart r := Region.Apart.symm
    rw [hregions, List.pairwise_middle hsymm, List.pairwise_cons, ← happend]
    refine ⟨?_, hplaced⟩
    intro r _
    exact Region.apart_of_bytes_zero rfl

theorem idealLayout_total : (idealLayout sizes config).total =
    placedEnd storageAlign 0 (layoutBytes sizes config) := by
  rw [idealLayout, layoutOfOffsets_total]

/-- The layout of unbounded arithmetic is sound when it fits. -/
theorem idealLayout_sound
    (hfits : placedEnd storageAlign 0 (layoutBytes sizes config) ≤ sizeMax) :
    (idealLayout sizes config).Sound sizes config where
  aligned r hr := by
    obtain rfl | hmem := mem_regions_idealLayout sizes config hr
    · exact Nat.dvd_zero 8
    · have halign : storageAlign ∣ r.offset := placed_dvd hmem
      exact halign
  apart := pairwise_regions_idealLayout sizes config
  inside r hr := by
    rw [idealLayout_total]
    obtain rfl | hmem := mem_regions_idealLayout sizes config hr
    · exact Nat.zero_le _
    · exact placed_stop_le (by decide) hmem
  stride := rfl
  maxCap := rfl
  bufferCap := rfl
  word := by
    rw [idealLayout_total]
    exact hfits

/-- `gossipsub_storage_layout` fails exactly for an invalid configuration and when a number
    passes `SIZE_MAX`; otherwise its layout is the one of unbounded arithmetic, and sound. -/
theorem storageLayout_sound :
    ((∃ e, storageLayout sizes config = .error e) ↔
      configValidate config ≠ .ok () ∨ PassesSizeMax sizes config) ∧
    ∀ layout, storageLayout sizes config = .ok layout →
      layout.Sound sizes config ∧ layout = idealLayout sizes config := by
  constructor
  · constructor
    · intro ⟨e, he⟩
      by_contra hnone
      obtain ⟨hvalid, hfits⟩ := not_or.mp hnone
      have hok := (storageLayout_of_fits sizes config (not_not.mp hvalid) hfits).1
      rw [he] at hok
      cases hok
    · intro h
      exact h.elim (storageLayout_of_invalid sizes config) (storageLayout_of_passes sizes config)
  · intro layout hok
    obtain ⟨rfl, hend⟩ := storageLayout_of_ok sizes config hok
    exact ⟨idealLayout_sound sizes config hend, rfl⟩

/-- No entry is empty. -/
structure ElementSizes.Positive : Prop where
  topicState : 0 < sizes.topicState
  peerState : 0 < sizes.peerState
  peerTopicState : 0 < sizes.peerTopicState
  meshEdgeState : 0 < sizes.meshEdgeState
  backoffState : 0 < sizes.backoffState
  streamState : 0 < sizes.streamState
  txItem : 0 < sizes.txItem
  mcacheEntry : 0 < sizes.mcacheEntry
  seenEntry : 0 < sizes.seenEntry
  validation : 0 < sizes.validation
  idontwantEntry : 0 < sizes.idontwantEntry
  event : 0 < sizes.event

/-- The bound that a `RouterConfig` relies on holds when the layout fits into an object. -/
theorem storageLowerBound_le {sizes : ElementSizes} {config : Config} {layout : StorageLayout}
    (hpos : sizes.Positive) (hlayout : storageLayout sizes config = .ok layout)
    (hobject : layout.total ≤ ptrdiffMax) : storageLowerBound config ≤ ptrdiffMax := by
  obtain ⟨rfl, -⟩ := storageLayout_of_ok sizes config hlayout
  have hsum : (layoutBytes sizes config).sum ≤ ptrdiffMax := by
    have hend := @add_sum_le_placedEnd storageAlign 0 (layoutBytes sizes config) (by decide)
    rw [idealLayout_total] at hobject
    omega
  have hpool : (poolBytes config).sum = streamRxBufferCap config := by
    unfold poolBytes streamRxBufferCap
    split_ifs <;> simp
  have htopics := Nat.le_mul_of_pos_right config.capacity.maxTopics hpos.topicState
  have hpeers := Nat.le_mul_of_pos_right config.capacity.maxPeers hpos.peerState
  have hpeerTopics := Nat.le_mul_of_pos_right config.capacity.maxPeerTopics hpos.peerTopicState
  have hmesh := Nat.le_mul_of_pos_right config.capacity.maxMeshEdges hpos.meshEdgeState
  have hbackoff := Nat.le_mul_of_pos_right config.capacity.maxBackoffEntries hpos.backoffState
  have hstreams := Nat.le_mul_of_pos_right config.capacity.maxStreams hpos.streamState
  have htx := Nat.le_mul_of_pos_right config.capacity.maxTxRpcQueue hpos.txItem
  have hmcache := Nat.le_mul_of_pos_right config.capacity.mcacheSlots hpos.mcacheEntry
  have hseen := Nat.le_mul_of_pos_right config.capacity.seenEntries hpos.seenEntry
  have hpending := Nat.le_mul_of_pos_right config.capacity.pendingValidations hpos.validation
  have hdontwant := Nat.le_mul_of_pos_right config.capacity.idontwantEntries hpos.idontwantEntry
  have hevents := Nat.le_mul_of_pos_right config.capacity.eventCapacity hpos.event
  rw [layoutBytes, List.sum_append, List.sum_append, hpool] at hsum
  simp only [frontBytes, backBytes, List.sum_cons, List.sum_nil] at hsum
  unfold storageLowerBound
  dsimp only
  omega

end Result

end LeanLibp2p.Gossipsub
