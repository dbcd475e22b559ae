import LeanLibp2p.Gossipsub.Rx.Read
import LeanLibp2p.Gossipsub.Rx.Operations
import Mathlib.Algebra.Order.BigOperators.Group.List
import Mathlib.Algebra.Order.Ring.Nat
import Mathlib.Algebra.Group.Action.Defs

/-!
# The load of the shared receive buffer

The shared buffer has the bytes for as many regions of the largest size as the pool is made for. A
region that is not the last one grows by a copy behind all others, so for a moment the bytes of both
are needed.
-/

namespace LeanLibp2p.Gossipsub

open LeanLibp2p.Lib

variable {config : Config}

namespace Rx

/-! ## Layouts

Where the regions are depends neither on the bytes in them nor on how many those are. -/

/-- The buffers without what they hold. -/
def layout (rx : Rx) : Rx where
  stream := fun i => { rx.stream i with len := 0 }
  small := fun _ => 0
  buffer := fun _ => 0
  used := rx.used

variable {rx rx' : Rx} {i : Nat}

@[simp] theorem layout_stream (rx : Rx) (i : Nat) :
    rx.layout.stream i = { rx.stream i with len := 0 } := rfl

@[simp] theorem layout_used (rx : Rx) : rx.layout.used = rx.used := rfl

theorem layout_ext (hstream : ∀ j, (rx'.stream j).cap = (rx.stream j).cap ∧
    (rx'.stream j).offset = (rx.stream j).offset) (hused : rx'.used = rx.used) :
    rx'.layout = rx.layout := by
  unfold layout
  simp only [hused, mk.injEq, and_true]
  funext j
  obtain ⟨hcap, hoffset⟩ := hstream j
  simp [hcap, hoffset]

/-- A slot changes alike in the buffers and their layout. -/
theorem layout_setStream (rx : Rx) (i : Nat) (stream : StreamRx) :
    (rx.setStream i stream).layout = rx.layout.setStream i { stream with len := 0 } := by
  unfold layout setStream
  simp only [mk.injEq, and_true]
  funext j
  by_cases hj : j = i
  · subst hj
    simp
  · simp [hj]

theorem move_empty (dst src len : Nat) :
    Memory.move (fun _ => 0) dst src len = fun _ => 0 := by
  funext a
  unfold Memory.move
  split <;> rfl

theorem store_nil (mem : Memory) (off : Nat) : mem.store off [] = mem := by
  funext a
  unfold Memory.store
  rw [if_neg (by simp)]

theorem rxMoveLarge_layout (i cursor : Nat) (rx : Rx) :
    rxMoveLarge config i cursor rx.layout =
      ((rxMoveLarge config i cursor rx).1.layout, (rxMoveLarge config i cursor rx).2) := by
  unfold rxMoveLarge
  have hoffset : (rx.layout.stream i).offset = (rx.stream i).offset := rfl
  rw [hoffset]
  cases (rx.stream i).offset with
  | none => rfl
  | some offset =>
    dsimp only
    by_cases hguard : streamRxBufferCap config ≠ 0 ∧ cursor ≤ streamRxBufferCap config ∧
        offset ≤ streamRxBufferCap config ∧ (rx.stream i).cap ≤ streamRxBufferCap config - offset ∧
        (rx.stream i).cap ≤ streamRxBufferCap config - cursor
    · rw [if_pos hguard]
      refine (if_pos hguard).trans (Prod.ext ?_ rfl)
      have hmoved := layout_setStream rx i { rx.stream i with offset := some cursor }
      change Rx.mk _ _ (if _ then _ else _) _ = Rx.mk _ _ _ _
      rw [mk.injEq]
      refine ⟨(congrArg Rx.stream hmoved).symm, rfl, ?_, rfl⟩
      split
      · exact move_empty ..
      · rfl
    · rw [if_neg hguard]
      exact if_neg hguard

theorem rxLowestStream_layout (tailIndex searchOffset : Nat) (rx : Rx) :
    rxLowestStream config tailIndex rx.layout searchOffset =
      rxLowestStream config tailIndex rx searchOffset := rfl

theorem rxCompactLoop_layout (tailIndex fuel cursor searchOffset : Nat) (rx : Rx) :
    rxCompactLoop config tailIndex fuel cursor searchOffset rx.layout =
      ((rxCompactLoop config tailIndex fuel cursor searchOffset rx).1.layout,
        (rxCompactLoop config tailIndex fuel cursor searchOffset rx).2) := by
  induction fuel generalizing cursor searchOffset rx with
  | zero => rfl
  | succ fuel ih =>
    rw [rxCompactLoop, rxCompactLoop, rxLowestStream_layout]
    cases (rxLowestStream config tailIndex rx searchOffset).1 with
    | none => rfl
    | some j =>
      simp only [rxMoveLarge_layout, layout_stream]
      exact ih ..

theorem rxCompact_layout (tailIndex : Nat) (rx : Rx) :
    rxCompact config tailIndex rx.layout = (rxCompact config tailIndex rx).layout := by
  unfold rxCompact
  have hcount : rxActiveCount config tailIndex rx.layout = rxActiveCount config tailIndex rx := rfl
  simp only [hcount, rxCompactLoop_layout]
  split
  · split
    · simp only [rxMoveLarge_layout]
      rfl
    · rfl
  · rfl

theorem rxRelocate_layout (i newCap : Nat) (rx : Rx) :
    rxRelocate config i newCap rx.layout = (rxRelocate config i newCap rx).layout := by
  have hcontent : rx.layout.content config i = [] := by
    apply List.length_eq_zero_iff.mp
    simp
  have hstored := layout_setStream rx i ⟨(rx.stream i).len, newCap, some rx.used⟩
  unfold rxRelocate
  rw [hcontent, store_nil]
  simpa [layout, setStream] using hstored.symm

/-- A branch on the layout is one on the buffers. -/
theorem layout_ite {α : Type} {c c' : Prop} [Decidable c] [Decidable c'] (hc : c ↔ c')
    {x y x' y' : α × Rx} (hx : x' = (x.1, x.2.layout)) (hy : y' = (y.1, y.2.layout)) :
    (if c then x' else y') = ((if c' then x else y).1, (if c' then x else y).2.layout) := by
  by_cases h : c'
  · rw [if_pos h, if_pos (hc.mpr h), hx]
  · rw [if_neg h, if_neg fun hpos => h (hc.mp hpos), hy]

/-- A request for room is answered by the layout alone. -/
theorem rxGrow_layout (i newCap : Nat) (rx : Rx) :
    rxGrow config i newCap rx.layout =
      ((rxGrow config i newCap rx).1, (rxGrow config i newCap rx).2.layout) := by
  unfold rxGrow
  dsimp only
  rw [rxCompact_layout]
  generalize rxCompact config config.capacity.maxStreams rx = compacted
  refine layout_ite Iff.rfl (layout_ite Iff.rfl rfl (layout_ite Iff.rfl (layout_ite Iff.rfl ?_ rfl)
    (layout_ite Iff.rfl ?_ rfl))) (layout_ite Iff.rfl ?_ rfl)
  · have hstored := layout_setStream compacted i { compacted.stream i with cap := newCap }
    refine Prod.ext rfl ?_
    exact congrArg (fun rx : Rx => Rx.mk rx.stream rx.small rx.buffer
      ((compacted.stream i).offset.getD sizeMax + newCap)) hstored.symm
  · rw [rxRelocate_layout, rxCompact_layout]
  · rw [rxRelocate_layout]

theorem rxReserve_layout (i required : Nat) (rx : Rx) :
    rxReserve config i required rx.layout =
      ((rxReserve config i required rx).1, (rxReserve config i required rx).2.layout) := by
  unfold rxReserve
  refine layout_ite Iff.rfl rfl (layout_ite Iff.rfl rfl ?_)
  exact layout_ite Iff.rfl rfl (rxGrow_layout ..)

end Rx

/-! ## Runs of the pool -/

/-- The slot that an operation is about. -/
def RxOp.slot : RxOp → Nat
  | .reset i | .reserve i _ | .shrink i | .write i _ | .advance i _ | .consume i _ => i

namespace Rx

variable {rx : Rx} {i : Nat}

/-- The buffers after operations in any order. -/
def run (config : Config) (ops : List RxOp) : Rx :=
  runFrom (fun rx op => (op.comp config rx).2) (init config) ops

theorem rxReset_layout (i : Nat) (rx : Rx) :
    rxReset config i rx.layout = (rxReset config i rx).layout := by
  have hfresh := layout_setStream rx i (.fresh config)
  unfold rxReset
  rw [← rxCompact_layout, hfresh]
  rfl

/-- Shrinking a layout, which holds nothing, may shrink more than the buffers would. -/
theorem rxShrink_layout (i : Nat) (rx : Rx) :
    (rxShrink config i rx).layout = rx.layout ∨
      (rxShrink config i rx).layout = rxShrink config i rx.layout := by
  by_cases hshrink : i < config.capacity.maxStreams ∧ (rx.stream i).isLarge ∧
      (rx.stream i).len ≤ streamRxSmallStride config
  · right
    have hempty : i < config.capacity.maxStreams ∧ (rx.layout.stream i).isLarge ∧
        (rx.layout.stream i).len ≤ streamRxSmallStride config :=
      ⟨hshrink.1, hshrink.2.1, Nat.zero_le _⟩
    have hcontent : rx.layout.content config i = [] := by
      apply List.length_eq_zero_iff.mp
      simp
    have hsmall := layout_setStream rx i ⟨(rx.stream i).len, streamRxSmallStride config, none⟩
    unfold rxShrink
    rw [if_pos hshrink, if_pos hempty, ← rxCompact_layout, hcontent, store_nil]
    exact congrArg (rxCompact config config.capacity.maxStreams) hsmall
  · left
    unfold rxShrink
    rw [if_neg hshrink]

/-- Writing, adding to the length and consuming leave the layout as it is. -/
theorem write_layout (i pos : Nat) (data : Bytes) (rx : Rx) :
    (rx.write config i pos data).layout = rx.layout := by
  unfold write
  split <;> rfl

theorem setLen_layout (i len : Nat) (rx : Rx) :
    (rx.setStream i { rx.stream i with len := len }).layout = rx.layout := by
  apply layout_ext
  · intro j
    by_cases hj : j = i
    · subst hj
      simp
    · simp [hj]
  · rfl

theorem rxConsume_layout (i pos : Nat) (rx : Rx) :
    (rxConsume config i pos rx).layout = rx.layout := by
  unfold rxConsume
  dsimp only
  split
  · have hstream : (rx.write config i 0
        (rx.bytes config i pos ((rx.stream i).len - pos))).stream i = rx.stream i :=
      congrFun (write_stream ..).1 i
    have hset := setLen_layout i ((rx.stream i).len - pos)
      (rx.write config i 0 (rx.bytes config i pos ((rx.stream i).len - pos)))
    rw [hstream] at hset
    rw [hset, write_layout]
  · rw [setLen_layout]

/-- Every operation on a slot of the table keeps the layout well-formed. -/
theorem layout_step (hbuffer : streamRxBufferCap config < sizeMax) (h : rx.layout.WellFormed config)
    {op : RxOp} (hslot : op.slot < config.capacity.maxStreams) :
    (op.comp config rx).2.layout.WellFormed config := by
  cases op with
  | reset i =>
    change (rxReset config i rx).layout.WellFormed config
    rw [← rxReset_layout]
    exact (reset_spec hbuffer h i).1
  | reserve i required =>
    change (rxReserve config i required rx).2.layout.WellFormed config
    have hsnd := congrArg Prod.snd (@rxReserve_layout config i required rx)
    dsimp only at hsnd
    rw [← hsnd]
    by_cases hrequired : required ≤ streamRxMaxCap config
    · exact (reserve_spec hbuffer h hslot hrequired).wellFormed
    · unfold rxReserve
      rw [if_pos (by omega)]
      exact h
  | shrink i =>
    change (rxShrink config i rx).layout.WellFormed config
    rcases @rxShrink_layout config i rx with hsame | hshrunk
    · rwa [hsame]
    · rw [hshrunk]
      exact (shrink_spec hbuffer h i).1
  | write i data =>
    change (rx.write config i (rx.stream i).len data).layout.WellFormed config
    rwa [write_layout]
  | advance i n =>
    change (rx.setStream i { rx.stream i with len := (rx.stream i).len + n }).layout.WellFormed config
    rwa [setLen_layout]
  | consume i pos =>
    change (rxConsume config i pos rx).layout.WellFormed config
    rwa [rxConsume_layout]

/-- The layout is well-formed after every run, whatever the lengths are. -/
theorem layout_run (config : RouterConfig) {ops : List RxOp}
    (hslots : ∀ op ∈ ops, op.slot < config.capacity.maxStreams) :
    (run config.toConfig ops).layout.WellFormed config.toConfig := by
  have hall : ∀ rx : Rx, rx.layout.WellFormed config.toConfig →
      (runFrom (fun rx op => (op.comp config.toConfig rx).2) rx ops).layout.WellFormed
        config.toConfig := by
    induction ops with
    | nil => exact fun _ h => h
    | cons op ops ih =>
      intro rx h
      refine ih (fun op hop => hslots op (List.mem_cons_of_mem _ hop)) _ ?_
      exact layout_step config.streamRxBufferCap_lt h (hslots op List.mem_cons_self)
  exact hall (init config.toConfig) (init_wellFormed config.toConfig)

/-! ## Load -/

/-- The slots with a region once slot `i` has one. -/
def loading (config : Config) (rx : Rx) (i : Nat) : List Nat :=
  (List.range config.capacity.maxStreams).filter fun j => decide (j = i) || (rx.stream j).isLarge

/-- What keeps a request for room from WOULD_BLOCK: the stream needs no more room, it has no region
    yet, no region lies behind its own, or there is room for its region twice. -/
def HasRoom (config : Config) (rx : Rx) (i required : Nat) : Prop :=
  required ≤ (rx.stream i).cap ∨ (rx.stream i).isLarge = false ∨
  (∀ j ∈ rx.large config, rx.arena.offset j ≤ rx.arena.offset i) ∨
  ((rx.large config).map rx.cap).sum +
    rxNextCap (rx.stream i).cap required (streamRxMaxCap config) ≤ streamRxBufferCap config

/-- `GOSSIPSUB_STREAM_RX_LARGE_POOL_STREAMS`. -/
def largePoolStreams : Nat := 6

/-- The regions of the other streams leave room for one of the largest size. -/
theorem others_le (h : rx.WellFormed config) (hi : i < config.capacity.maxStreams)
    (hlarge : streamRxSmallStride config < streamRxMaxCap config)
    (hload : (rx.loading config i).length ≤ largePoolStreams) :
    (((rx.loading config i).erase i).map rx.cap).sum + streamRxMaxCap config ≤
      streamRxBufferCap config := by
  have hmem : i ∈ rx.loading config i := by
    simp [loading, hi]
  have hnodup : (rx.loading config i).Nodup := List.nodup_range.filter _
  have hlen : (rx.loading config i).length ≤ config.capacity.maxStreams := by
    have hle := List.length_filter_le
      (fun j => decide (j = i) || (rx.stream j).isLarge) (List.range config.capacity.maxStreams)
    rwa [List.length_range] at hle
  have hothers := List.length_erase_of_mem hmem
  have hpos := List.length_pos_of_mem hmem
  have hcaps : ∀ n ∈ ((rx.loading config i).erase i).map rx.cap, n ≤ streamRxMaxCap config := by
    intro n hn
    obtain ⟨j, hj, rfl⟩ := List.mem_map.mp hn
    obtain ⟨hne, hj⟩ := (hnodup.mem_erase_iff).mp hj
    simp only [loading, List.mem_filter, List.mem_range, Bool.or_eq_true, decide_eq_true_eq] at hj
    obtain ⟨o, ho⟩ := Option.isSome_iff_exists.mp (hj.2.resolve_left hne)
    exact (h.inside j hj.1 o ho).cap_le
  have hsum := List.sum_le_card_nsmul _ _ hcaps
  have hcap : streamRxBufferCap config =
      min config.capacity.maxStreams largePoolStreams * streamRxMaxCap config := by
    unfold streamRxBufferCap
    rw [if_pos hlarge]
    rfl
  rw [List.length_map, hothers, smul_eq_mul] at hsum
  have hmul : ((rx.loading config i).length - 1) * streamRxMaxCap config + streamRxMaxCap config ≤
      min config.capacity.maxStreams largePoolStreams * streamRxMaxCap config := by
    rw [← Nat.succ_mul]
    exact Nat.mul_le_mul_right _ (by omega)
  omega

/-- The regions there are, when the stream has one and when it has none. -/
theorem sum_large (rx : Rx) (hi : i < config.capacity.maxStreams) :
    ((rx.large config).map rx.cap).sum =
      (((rx.loading config i).erase i).map rx.cap).sum +
        if (rx.stream i).isLarge then (rx.stream i).cap else 0 := by
  have hnodup : (rx.loading config i).Nodup := List.nodup_range.filter _
  split
  · rename_i hlarge
    have hsame : rx.large config = rx.loading config i := by
      unfold large loading
      apply List.filter_congr
      intro j _
      by_cases hj : j = i
      · simp [hj, hlarge]
      · simp [hj]
    have hmem : i ∈ rx.loading config i := by
      simp [loading, hi]
    rw [hsame, ((List.perm_cons_erase hmem).map rx.cap).sum_nat, List.map_cons, List.sum_cons,
      Nat.add_comm]
    rfl
  · rename_i hsmall
    have hsame : rx.large config = (rx.loading config i).erase i := by
      rw [hnodup.erase_eq_filter]
      unfold large loading
      rw [List.filter_filter]
      apply List.filter_congr
      intro j _
      by_cases hj : j = i
      · simp [hj, hsmall]
      · simp [hj]
    rw [hsame, Nat.add_zero]

/-- A stream asks for more than it has. -/
theorem grow_ok_iff (hbuffer : streamRxBufferCap config < sizeMax) (h : rx.WellFormed config)
    (hi : i < config.capacity.maxStreams)
    (hlarge : streamRxSmallStride config < streamRxMaxCap config)
    (hload : (rx.loading config i).length ≤ largePoolStreams) {newCap : Nat}
    (hcap : (rx.stream i).cap ≤ newCap) (hmax : newCap ≤ streamRxMaxCap config) :
    (rxGrow config i newCap rx).1 = .ok () ↔
      (rx.stream i).isLarge = false ∨
      (∀ j ∈ rx.large config, rx.arena.offset j ≤ rx.arena.offset i) ∨
      ((rx.large config).map rx.cap).sum + newCap ≤ streamRxBufferCap config := by
  have hothers := others_le h hi hlarge hload
  have hsum := sum_large rx hi
  have hcompacted := compact_compacted hbuffer h
  have hused := hcompacted.used_eq
  have hwf := hcompacted.wellFormed
  have hlast := @compact_last config rx i hbuffer h
  have hbound := hwf.used_le
  unfold rxGrow
  dsimp only
  generalize rxCompact config config.capacity.maxStreams rx = compacted at *
  have hcap' : (compacted.stream i).cap = (rx.stream i).cap := hcompacted.cap_eq i
  by_cases hregion : (rx.stream i).isLarge = true
  · rw [if_pos hregion] at hsum ⊢
    have hmem : i ∈ rx.large config := mem_large.mpr ⟨hi, hregion⟩
    have hregion' := (hcompacted.isLarge_eq i).trans hregion
    obtain ⟨o, ho⟩ := Option.isSome_iff_exists.mp hregion'
    have hend := (hwf.inside i hi o ho).end_le
    have hoffset : (compacted.stream i).offset.getD sizeMax = o := arena_offset ho
    have hlast := hlast hmem
    rw [arena_offset ho] at hlast
    change o + (rx.stream i).cap = compacted.used ↔ _ at hlast
    rw [hoffset, hcap', if_neg (by omega), ← hlast, hregion]
    by_cases htail : o + (rx.stream i).cap = compacted.used
    · rw [if_pos htail, if_pos (by omega)]
      simp [htail]
    · rw [if_neg htail]
      by_cases hroom : newCap ≤ streamRxBufferCap config - compacted.used
      · rw [if_pos hroom]
        have hfits : ((rx.large config).map rx.cap).sum + newCap ≤ streamRxBufferCap config := by
          omega
        simp [hfits]
      · rw [if_neg hroom]
        have hblocked : ¬ ((rx.large config).map rx.cap).sum + newCap ≤ streamRxBufferCap config := by
          omega
        simp [htail, hblocked]
  · rw [if_neg hregion] at hsum ⊢
    rw [if_pos (by omega)]
    simp [hregion]

/-- `gossipsub_stream_rx_reserve` for well-formed buffers. -/
theorem reserve_ok_iff_of_wellFormed (hbuffer : streamRxBufferCap config < sizeMax)
    (h : rx.WellFormed config) (hi : i < config.capacity.maxStreams) {required : Nat}
    (hrequired : required ≤ streamRxMaxCap config)
    (hload : (rx.loading config i).length ≤ largePoolStreams) :
    (rxReserve config i required rx).1 = .ok () ↔ HasRoom config rx i required := by
  unfold rxReserve HasRoom
  rw [if_neg (by omega)]
  by_cases hfits : required ≤ (rx.stream i).cap
  · rw [if_pos hfits]
    simp [hfits]
  · rw [if_neg hfits]
    have hcap : (rx.stream i).cap ≤ streamRxMaxCap config ∧
        streamRxSmallStride config ≤ (rx.stream i).cap := by
      cases ho : (rx.stream i).offset with
      | none =>
        rw [h.small i hi ho]
        exact ⟨streamRxSmallStride_le config, Nat.le_refl _⟩
      | some o =>
        have hin := h.inside i hi o ho
        exact ⟨hin.cap_le, Nat.le_of_lt hin.stride_lt⟩
    obtain ⟨hcurrent, hnew, hlimit⟩ := rxNextCap_spec hcap.1 hrequired
    have hroom : streamRxMaxCap config ≤ streamRxBufferCap config := by
      rcases streamRxMaxCap_le (Nat.zero_lt_of_lt hi) with hroom | ⟨-, hstride⟩
      · exact hroom
      · omega
    dsimp only
    rw [if_neg (by omega), grow_ok_iff hbuffer h hi (by omega) hload hcurrent hlimit]
    simp [hfits]

/-- Whenever the regions of at most `GOSSIPSUB_STREAM_RX_LARGE_POOL_STREAMS` streams, with the one that
    asks, are in use, the request succeeds exactly if there is room for it. -/
theorem reserve_ok_iff (config : RouterConfig) {ops : List RxOp}
    (hslots : ∀ op ∈ ops, op.slot < config.capacity.maxStreams) {i required : Nat}
    (hi : i < config.capacity.maxStreams) (hrequired : required ≤ streamRxMaxCap config.toConfig)
    (hload : ((run config.toConfig ops).loading config.toConfig i).length ≤ largePoolStreams) :
    (rxReserve config.toConfig i required (run config.toConfig ops)).1 = .ok () ↔
      HasRoom config.toConfig (run config.toConfig ops) i required := by
  have hlayout := reserve_ok_iff_of_wellFormed config.streamRxBufferCap_lt
    (layout_run config hslots) hi hrequired hload
  rw [rxReserve_layout] at hlayout
  exact hlayout

/-! ## Four streams with long frames -/

/-- A stream that asks for room whenever its buffer is full, up to half of the largest size. -/
def growHalf (i : Nat) : List RxOp :=
  [.advance i 4096, .reserve i 69632, .advance i 126976, .reserve i 196608, .advance i 131072,
    .reserve i 327680, .advance i 262144]

/-- The same up to the largest size. -/
def growFull (i : Nat) : List RxOp :=
  growHalf i ++ [.reserve i 589824, .advance i 524288, .reserve i 1048586]

/-- While the other streams wait for their bytes, the half of the first one can still grow. -/
theorem reserve_behind_one :
    (rxReserve RouterConfig.small.toConfig 0 589824
      (run RouterConfig.small.toConfig (growHalf 0 ++ growFull 1))).1 = .ok () :=
  (@reserve_ok_iff RouterConfig.small (growHalf 0 ++ growFull 1) (by decide) 0 589824 (by decide)
    (by decide) (by decide +kernel)).mpr (.inr (.inr (.inr (by decide +kernel))))

/-- Four streams are within the load of the pool, but the first one cannot grow behind the others. -/
theorem reserve_behind_three :
    ((run RouterConfig.small.toConfig
      (growHalf 0 ++ growFull 1 ++ growFull 2 ++ growFull 3)).loading
        RouterConfig.small.toConfig 0).length ≤ largePoolStreams ∧
    589824 ≤ streamRxMaxCap RouterConfig.small.toConfig ∧
    (rxReserve RouterConfig.small.toConfig 0 589824 (run RouterConfig.small.toConfig
      (growHalf 0 ++ growFull 1 ++ growFull 2 ++ growFull 3))).1 ≠ .ok () := by
  refine ⟨?_, ?_, ?_⟩ <;> decide +kernel

end Rx

end LeanLibp2p.Gossipsub
