import LeanLibp2p.Gossipsub.Rx.Pool

/-!
# Well-formed receive buffers

The regions of the shared buffer do not overlap and lie in its used part, and a stream holds no
more than its capacity. The guard of `gossipsub_stream_rx_move_large` never fails then, so that
compaction is the generic one and loses no byte.
-/

namespace LeanLibp2p.Gossipsub

open LeanLibp2p.Lib

variable {config : Config}
variable {rx : Rx}

theorem streamRxSmallStride_pos (config : Config) : 0 < streamRxSmallStride config := by
  unfold streamRxSmallStride streamRxMaxCap
  omega

theorem streamRxSmallStride_le (config : Config) :
    streamRxSmallStride config ≤ streamRxMaxCap config := Nat.min_le_right ..

/-- The shared buffer is one object. -/
theorem RouterConfig.streamRxBufferCap_lt (config : RouterConfig) :
    streamRxBufferCap config.toConfig < sizeMax := by
  have h := config.storage_le
  unfold storageLowerBound ptrdiffMax at h
  unfold sizeMax
  dsimp only at h
  omega

/-- A region lies inside the used part of the shared buffer, and is larger than a small buffer. -/
structure StreamRx.Inside (config : Config) (used : Nat) (stream : StreamRx) (offset : Nat) :
    Prop where
  stride_lt : streamRxSmallStride config < stream.cap
  cap_le : stream.cap ≤ streamRxMaxCap config
  end_le : offset + stream.cap ≤ used

/-- What holds of the receive buffers. -/
structure Rx.WellFormed (config : Config) (rx : Rx) : Prop where
  used_le : rx.used ≤ streamRxBufferCap config
  len_le : ∀ i < config.capacity.maxStreams, (rx.stream i).len ≤ (rx.stream i).cap
  small : ∀ i < config.capacity.maxStreams, (rx.stream i).offset = none →
    (rx.stream i).cap = streamRxSmallStride config
  inside : ∀ i < config.capacity.maxStreams, ∀ o, (rx.stream i).offset = some o →
    (rx.stream i).Inside config rx.used o
  apart : ∀ i < config.capacity.maxStreams, ∀ j < config.capacity.maxStreams, i ≠ j →
    ∀ o o', (rx.stream i).offset = some o → (rx.stream j).offset = some o' →
      o + (rx.stream i).cap ≤ o' ∨ o' + (rx.stream j).cap ≤ o

namespace Rx

theorem init_wellFormed (config : Config) : (Rx.init config).WellFormed config where
  used_le := Nat.zero_le _
  len_le := fun _ _ => Nat.zero_le _
  small := fun _ _ _ => rfl
  inside := fun _ _ _ h => absurd h (by simp [Rx.init, StreamRx.fresh])
  apart := fun _ _ _ _ _ _ _ h => absurd h (by simp [Rx.init, StreamRx.fresh])

@[simp] theorem bytes_length (rx : Rx) (i pos n : Nat) : (rx.bytes config i pos n).length = n := by
  unfold bytes
  split <;> simp

@[simp] theorem content_length (rx : Rx) (i : Nat) :
    (rx.content config i).length = (rx.stream i).len := by
  simp [content]

/-- The shared buffer, cut into the regions of the streams. -/
def arena (rx : Rx) : Arena := ⟨rx.buffer, fun i => (rx.stream i).offset.getD sizeMax⟩

theorem arena_offset {i o : Nat} (h : (rx.stream i).offset = some o) : rx.arena.offset i = o := by
  change (rx.stream i).offset.getD sizeMax = o
  rw [h]
  rfl

/-- The length of a region. -/
def cap (rx : Rx) (i : Nat) : Nat := (rx.stream i).cap

/-- The slots with a region. -/
def large (config : Config) (rx : Rx) : List Nat :=
  (List.range config.capacity.maxStreams).filter fun i => (rx.stream i).isLarge

theorem mem_large {i : Nat} : i ∈ rx.large config ↔
    i < config.capacity.maxStreams ∧ (rx.stream i).isLarge = true := by
  simp [large]

theorem large_nodup (rx : Rx) : (rx.large config).Nodup := List.nodup_range.filter _

theorem activeCount_eq (rx : Rx) :
    rxActiveCount config config.capacity.maxStreams rx = (rx.large config).length := by
  unfold rxActiveCount large
  rw [List.countP_eq_length_filter]
  congr 1
  apply List.filter_congr
  intro i hi
  have hlt := List.mem_range.mp hi
  have hne : i ≠ config.capacity.maxStreams := by omega
  simp [hne]

/-- What compaction leaves alone: everything but where the regions are. -/
structure Compacts (rx rx' : Rx) : Prop where
  small : rx'.small = rx.small
  streams : ∀ j, ∃ n, rx'.stream j =
    { rx.stream j with offset := (rx.stream j).offset.map fun _ => n }

namespace Compacts

variable {rx rx' : Rx}

theorem refl (rx : Rx) : Compacts rx rx := by
  refine ⟨rfl, ?_⟩
  intro j
  rcases hj : rx.stream j with ⟨len, cap, offset⟩
  cases offset with
  | none => exact ⟨0, rfl⟩
  | some o => exact ⟨o, rfl⟩

theorem len_eq (h : Compacts rx rx') (j : Nat) : (rx'.stream j).len = (rx.stream j).len := by
  rcases h.streams j with ⟨n, hn⟩
  rw [hn]

theorem cap_eq (h : Compacts rx rx') (j : Nat) : (rx'.stream j).cap = (rx.stream j).cap := by
  rcases h.streams j with ⟨n, hn⟩
  rw [hn]

theorem isLarge_eq (h : Compacts rx rx') (j : Nat) :
    (rx'.stream j).isLarge = (rx.stream j).isLarge := by
  rcases h.streams j with ⟨n, hn⟩
  rw [hn]
  simp [StreamRx.isLarge]

theorem offset_eq_none (h : Compacts rx rx') {j : Nat} :
    (rx'.stream j).offset = none ↔ (rx.stream j).offset = none := by
  rcases h.streams j with ⟨n, hn⟩
  rw [hn]
  simp

end Compacts

/-- One round of the loop slides the region that lies lowest. -/
theorem compactLoop_round {rx rx₀ : Rx} {i cursor search : Nat} (fuel : Nat)
    (hbuffer : streamRxBufferCap config < sizeMax) (hkeeps : Compacts rx₀ rx)
    (hlow : Arena.Lowest
      (fun j => j < config.capacity.maxStreams ∧ (rx₀.stream j).isLarge = true)
      rx.arena.offset search i)
    (hpos : 0 < rx₀.cap i) (hcursor : cursor ≤ search)
    (hend : rx.arena.offset i + rx₀.cap i ≤ streamRxBufferCap config) :
    ∃ rx', rxCompactLoop config config.capacity.maxStreams (fuel + 1) cursor search rx =
        rxCompactLoop config config.capacity.maxStreams fuel (cursor + rx₀.cap i)
          (rx.arena.offset i + rx₀.cap i) rx' ∧
      rx'.arena = Arena.slide rx₀.cap rx.arena i cursor ∧ Compacts rx₀ rx' := by
  have hlow' : Arena.Lowest (fun j => j < config.capacity.maxStreams ∧
      (j ≠ config.capacity.maxStreams ∧ (rx.stream j).isLarge = true))
      rx.arena.offset search i := by
    refine ⟨?_, hlow.from_search, ?_⟩
    · rw [hkeeps.isLarge_eq]
      exact ⟨hlow.is_live.1, Nat.ne_of_lt hlow.is_live.1, hlow.is_live.2⟩
    · rintro j ⟨hlt, -, hlarge⟩
      rw [hkeeps.isLarge_eq] at hlarge
      exact hlow.below j ⟨hlt, hlarge⟩
  have hfound : (rxLowestStream config config.capacity.maxStreams rx search).1 = some i :=
    hlow'.found (by omega)
  have hcap : (rx.stream i).cap = rx₀.cap i := hkeeps.cap_eq i
  obtain ⟨offset, hoffset⟩ : ∃ offset, (rx.stream i).offset = some offset :=
    Option.isSome_iff_exists.mp hlow'.is_live.2.2
  have harena := arena_offset hoffset
  have hsearch := hlow.from_search
  rw [harena] at hend hsearch ⊢
  have hmove : rxMoveLarge config i cursor rx =
      ({ rx.setStream i { rx.stream i with offset := some cursor } with
          buffer := rx.buffer.move cursor offset (rx₀.cap i) }, cursor + rx₀.cap i) := by
    unfold rxMoveLarge
    rw [hoffset, hcap]
    dsimp only
    rw [if_pos (by omega)]
    split
    · rfl
    · rename_i hself
      have hoff : offset = cursor := by omega
      rw [hoff, Memory.move_self]
  refine ⟨{ rx.setStream i { rx.stream i with offset := some cursor } with
    buffer := rx.buffer.move cursor offset (rx₀.cap i) }, ?_, ?_, ?_⟩
  · rw [rxCompactLoop, hfound]
    dsimp only
    rw [hmove]
    dsimp only
    have hfits : rx₀.cap i ≤ sizeMax - offset := by omega
    have hmoved : ¬ (offset + rx₀.cap i = offset ∧ offset + rx₀.cap i < sizeMax) := by omega
    simp only [setStream_self, hoffset, Option.getD_some, hcap, if_pos hfits, if_neg hmoved]
  · unfold Arena.slide
    rw [harena]
    unfold arena
    congr 1
    funext j
    by_cases hj : j = i
    · subst hj
      rw [Function.update_self]
      exact congrArg (fun s : StreamRx => s.offset.getD sizeMax) (setStream_self ..)
    · rw [Function.update_of_ne hj]
      exact congrArg (fun s : StreamRx => s.offset.getD sizeMax) (setStream_of_ne _ _ hj)
  · refine ⟨hkeeps.small, ?_⟩
    intro j
    rcases hkeeps.streams j with ⟨n, hn⟩
    by_cases hj : j = i
    · subst hj
      refine ⟨cursor, (setStream_self ..).trans ?_⟩
      have hlarge := hlow.is_live.2
      unfold StreamRx.isLarge at hlarge
      rw [Option.isSome_iff_exists] at hlarge
      rcases hlarge with ⟨o, ho⟩
      rw [hn, ho]
      rfl
    · exact ⟨n, (setStream_of_ne _ _ hj).trans hn⟩

/-- What compaction does to well-formed buffers. -/
structure Compacted (config : Config) (rx rx' : Rx) : Prop extends Compacts rx rx' where
  wellFormed : rx'.WellFormed config
  content : ∀ j < config.capacity.maxStreams, rx'.content config j = rx.content config j
  used_eq : rx'.used = ((rx.large config).map rx.cap).sum

/-- The bytes that a stream with a region holds are the first bytes of the region. -/
theorem content_of_large {i : Nat} (hlarge : (rx.stream i).isLarge = true)
    (hlen : (rx.stream i).len ≤ (rx.stream i).cap) :
    rx.content config i = (Arena.content rx.cap rx.arena i).take (rx.stream i).len := by
  obtain ⟨offset, hoffset⟩ : ∃ offset, (rx.stream i).offset = some offset :=
    Option.isSome_iff_exists.mp hlarge
  unfold Arena.content cap
  rw [Memory.slice_take _ _ hlen, arena_offset hoffset]
  unfold content bytes
  rw [hoffset]
  rfl

theorem wellFormed_of_compacts {rx rx' : Rx} (h : rx.WellFormed config) (hkeeps : Compacts rx rx')
    (hused : rx'.used ≤ streamRxBufferCap config)
    (hinside : ∀ i ∈ rx.large config, rx'.arena.offset i + rx.cap i ≤ rx'.used)
    (hapart : ∀ i ∈ rx.large config, ∀ j ∈ rx.large config, i ≠ j →
      Arena.Apart rx.cap rx'.arena i j) : rx'.WellFormed config := by
  have hlarge : ∀ i < config.capacity.maxStreams, ∀ o, (rx'.stream i).offset = some o →
      i ∈ rx.large config := by
    intro i hi o ho
    rw [mem_large, ← hkeeps.isLarge_eq]
    exact ⟨hi, by rw [StreamRx.isLarge, ho]; rfl⟩
  constructor
  · exact hused
  · intro i hi
    rw [hkeeps.len_eq, hkeeps.cap_eq]
    exact h.len_le i hi
  · intro i hi ho
    rw [hkeeps.cap_eq]
    exact h.small i hi (hkeeps.offset_eq_none.mp ho)
  · intro i hi o ho
    have hmem := hlarge i hi o ho
    obtain ⟨o', ho'⟩ := Option.isSome_iff_exists.mp (mem_large.mp hmem).2
    have hold := h.inside i hi o' ho'
    have hend := hinside i hmem
    rw [arena_offset ho] at hend
    refine ⟨?_, ?_, ?_⟩
    · rw [hkeeps.cap_eq]
      exact hold.stride_lt
    · rw [hkeeps.cap_eq]
      exact hold.cap_le
    · rw [hkeeps.cap_eq]
      exact hend
  · intro i hi j hj hij o o' ho ho'
    have h := hapart i (hlarge i hi o ho) j (hlarge j hj o' ho') hij
    unfold Arena.Apart at h
    rw [arena_offset ho, arena_offset ho'] at h
    rw [hkeeps.cap_eq, hkeeps.cap_eq]
    exact h

/-- A region is not empty and lies in the shared buffer. -/
theorem WellFormed.region (h : rx.WellFormed config) :
    ∀ i ∈ rx.large config, 0 < rx.cap i ∧
      rx.arena.offset i + rx.cap i ≤ streamRxBufferCap config := by
  intro i hi
  rcases mem_large.mp hi with ⟨hlt, hlarge⟩
  obtain ⟨o, ho⟩ := Option.isSome_iff_exists.mp hlarge
  have hin := h.inside i hlt o ho
  have hstride := hin.stride_lt
  have hend := hin.end_le
  have hused := h.used_le
  rw [arena_offset ho]
  change 0 < (rx.stream i).cap ∧ o + (rx.stream i).cap ≤ _
  omega

/-- Compaction slides the regions in the order of their offsets. -/
theorem compact_slides (hbuffer : streamRxBufferCap config < sizeMax)
    (h : rx.WellFormed config) (hcap : streamRxBufferCap config ≠ 0) :
    ∃ order, order.Perm (rx.large config) ∧ Arena.Sorted rx.cap rx.arena 0 order ∧
      (rxCompact config config.capacity.maxStreams rx).arena =
        (Arena.slideAll rx.cap order 0 rx.arena).1 ∧
      (rxCompact config config.capacity.maxStreams rx).used =
        (Arena.slideAll rx.cap order 0 rx.arena).2 ∧
      Compacts rx (rxCompact config config.capacity.maxStreams rx) := by
  obtain ⟨order, hperm, hsorted⟩ : ∃ order, order.Perm (rx.large config) ∧
      Arena.Sorted rx.cap rx.arena 0 order := by
    refine Arena.exists_sorted rx.arena rx.large_nodup ?_ fun i hi => (h.region i hi).1
    intro i hi j hj hij
    rcases mem_large.mp hi with ⟨hilt, hilarge⟩
    rcases mem_large.mp hj with ⟨hjlt, hjlarge⟩
    obtain ⟨o, ho⟩ := Option.isSome_iff_exists.mp hilarge
    obtain ⟨o', ho'⟩ := Option.isSome_iff_exists.mp hjlarge
    unfold Arena.Apart
    rw [arena_offset ho, arena_offset ho']
    exact h.apart i hilt j hjlt hij o o' ho ho'
  have hnd : order.Nodup := hperm.nodup_iff.mpr rx.large_nodup
  have hloop := Arena.slideAll_of_rounds (rxCompactLoop config config.capacity.maxStreams)
    (fun i => i < config.capacity.maxStreams ∧ (rx.stream i).isLarge = true) (fun _ _ _ => rfl)
    (fun s i fuel cursor search hs hlow hpos hcursor hbound =>
      compactLoop_round fuel hbuffer hs hlow hpos hcursor hbound)
    (Compacts.refl rx) hsorted hnd (Nat.le_refl 0)
    (fun i => by rw [hperm.mem_iff, mem_large]; simp)
    (fun i hi => (h.region i (hperm.mem_iff.mp hi)).1)
    (fun i hi => (h.region i (hperm.mem_iff.mp hi)).2)
  rw [hperm.length_eq, ← activeCount_eq] at hloop
  rcases hloop with ⟨harena, hcursor, hkeeps⟩
  refine ⟨order, hperm, hsorted, ?_⟩
  unfold rxCompact
  rw [if_pos hcap]
  generalize rxCompactLoop config config.capacity.maxStreams
    (rxActiveCount config config.capacity.maxStreams rx) 0 0 rx = res at harena hcursor hkeeps
  rcases res with ⟨rx', cursor⟩
  dsimp only at harena hcursor hkeeps ⊢
  rw [if_neg (Nat.lt_irrefl _)]
  exact ⟨harena, hcursor, hkeeps.small, hkeeps.streams⟩

/-- The region that ends the used part after compaction is the one that lies highest. -/
theorem compact_last {i : Nat} (hbuffer : streamRxBufferCap config < sizeMax)
    (h : rx.WellFormed config) (hi : i ∈ rx.large config) :
    (rxCompact config config.capacity.maxStreams rx).arena.offset i + rx.cap i =
        (rxCompact config config.capacity.maxStreams rx).used ↔
      ∀ j ∈ rx.large config, rx.arena.offset j ≤ rx.arena.offset i := by
  have hcap : streamRxBufferCap config ≠ 0 := by
    have hregion := h.region i hi
    omega
  obtain ⟨order, hperm, hsorted, harena, hused, -⟩ := compact_slides hbuffer h hcap
  have hnd : order.Nodup := hperm.nodup_iff.mpr rx.large_nodup
  have hlast := Arena.slideAll_last hsorted hnd
    (fun j hj => (h.region j (hperm.mem_iff.mp hj)).1) (hperm.mem_iff.mpr hi)
  rw [harena, hused, hlast]
  constructor
  · intro hall j hj
    exact hall j (hperm.mem_iff.mpr hj)
  · intro hall j hj
    exact hall j (hperm.mem_iff.mp hj)

/-- Compaction keeps the buffers well-formed, and every byte. -/
theorem compact_compacted (hbuffer : streamRxBufferCap config < sizeMax)
    (h : rx.WellFormed config) :
    Compacted config rx (rxCompact config config.capacity.maxStreams rx) := by
  by_cases hcap : streamRxBufferCap config ≠ 0
  · obtain ⟨order, hperm, hsorted, harena, hcursor, hkeeps⟩ := compact_slides hbuffer h hcap
    have hnd : order.Nodup := hperm.nodup_iff.mpr rx.large_nodup
    generalize rxCompact config config.capacity.maxStreams rx = rx' at harena hcursor hkeeps ⊢
    rcases Arena.slideAll_spec hsorted hnd with ⟨hall, hpairs, hend⟩
    have hsum := hsorted.sum_le (Nat.zero_le (streamRxBufferCap config))
      fun i hi => (h.region i (hperm.mem_iff.mp hi)).2
    rw [← harena, ← hcursor] at hall
    rw [← harena] at hpairs
    rw [← hcursor] at hend
    refine ⟨hkeeps, ?_, ?_, ?_⟩
    · refine wellFormed_of_compacts h hkeeps ?_ ?_ ?_
      · omega
      · intro i hi
        exact (hall i (hperm.mem_iff.mpr hi)).2.2
      · intro i hi j hj hij
        exact Arena.apart_of_pairwise hpairs (hperm.mem_iff.mpr hi) (hperm.mem_iff.mpr hj) hij
    · intro i hi
      by_cases hlarge : (rx.stream i).isLarge = true
      · have hlarge' : (rx'.stream i).isLarge = true := (hkeeps.isLarge_eq i).trans hlarge
        have hcontent := (hall i (hperm.mem_iff.mpr (mem_large.mpr ⟨hi, hlarge⟩))).1
        have hlen := h.len_le i hi
        have hcap : rx'.cap = rx.cap := funext hkeeps.cap_eq
        rw [content_of_large hlarge hlen, content_of_large hlarge'
          (by rw [hkeeps.len_eq, hkeeps.cap_eq]; exact hlen), hcap, hkeeps.len_eq, hcontent]
      · have hoff : (rx.stream i).offset = none := by
          simpa [StreamRx.isLarge] using hlarge
        have hoff' : (rx'.stream i).offset = none := hkeeps.offset_eq_none.mpr hoff
        unfold content bytes
        rw [hoff, hoff', hkeeps.len_eq]
        dsimp only
        rw [hkeeps.small]
    · rw [hend, Nat.zero_add, (hperm.map rx.cap).sum_nat]
  · have hused := h.used_le
    have hempty : rx.large config = [] := by
      apply List.eq_nil_iff_forall_not_mem.mpr
      intro i hi
      have hregion := h.region i hi
      omega
    have hsame : rxCompact config config.capacity.maxStreams rx = rx := by
      unfold rxCompact
      rw [if_neg hcap]
    rw [hsame]
    refine ⟨.refl rx, h, fun _ _ => rfl, ?_⟩
    rw [hempty, List.map_nil, List.sum_nil]
    omega

end Rx

end LeanLibp2p.Gossipsub
