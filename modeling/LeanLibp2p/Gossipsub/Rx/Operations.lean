import LeanLibp2p.Gossipsub.Rx.Compact

/-!
# Operations on the receive buffers

What each operation does to well-formed buffers: they stay well-formed, and every stream keeps its
bytes, but for the one that is reset, written to or consumed from.
-/

namespace LeanLibp2p.Gossipsub

open LeanLibp2p.Lib

variable {config : Config}

namespace Rx

variable {rx rx' : Rx} {i : Nat}

/-- Every stream keeps the bytes that it holds. -/
def Keeps (config : Config) (rx rx' : Rx) : Prop :=
  ∀ j < config.capacity.maxStreams, rx'.content config j = rx.content config j

/-- Every other stream keeps the bytes that it holds. -/
def KeepsOthers (config : Config) (i : Nat) (rx rx' : Rx) : Prop :=
  ∀ j < config.capacity.maxStreams, j ≠ i → rx'.content config j = rx.content config j

theorem Keeps.others (h : Keeps config rx rx') (i : Nat) : KeepsOthers config i rx rx' :=
  fun j hj _ => h j hj

theorem Keeps.trans {rx'' : Rx} (h : Keeps config rx rx') (h' : Keeps config rx' rx'') :
    Keeps config rx rx'' := fun j hj => (h' j hj).trans (h j hj)

/-- What a stream reads depends on its slot and on the bytes that the slot points to. -/
theorem bytes_congr {pos n : Nat} (hoffset : (rx'.stream i).offset = (rx.stream i).offset)
    (hsmall : (rx.stream i).offset = none →
      rx'.small.slice (i * streamRxSmallStride config + pos) n =
        rx.small.slice (i * streamRxSmallStride config + pos) n)
    (hlarge : ∀ o, (rx.stream i).offset = some o →
      rx'.buffer.slice (o + pos) n = rx.buffer.slice (o + pos) n) :
    rx'.bytes config i pos n = rx.bytes config i pos n := by
  unfold bytes
  rw [hoffset]
  cases ho : (rx.stream i).offset with
  | none => exact hsmall ho
  | some o => exact hlarge o ho

theorem content_congr (hstream : rx'.stream i = rx.stream i)
    (hsmall : (rx.stream i).offset = none →
      rx'.small.slice (i * streamRxSmallStride config) (rx.stream i).len =
        rx.small.slice (i * streamRxSmallStride config) (rx.stream i).len)
    (hlarge : ∀ o, (rx.stream i).offset = some o →
      rx'.buffer.slice o (rx.stream i).len = rx.buffer.slice o (rx.stream i).len) :
    rx'.content config i = rx.content config i := by
  unfold content
  rw [hstream]
  exact bytes_congr (congrArg _ hstream) hsmall hlarge

/-! ## Small buffers -/

/-- The small buffers of two slots do not overlap. -/
theorem small_apart {j stride n m : Nat} (hij : i ≠ j) (hn : n ≤ stride) (hm : m ≤ stride) :
    i * stride + n ≤ j * stride ∨ j * stride + m ≤ i * stride := by
  rcases Nat.lt_or_gt_of_ne hij with h | h
  · left
    have := Nat.mul_le_mul_right stride (Nat.succ_le_of_lt h)
    rw [Nat.succ_mul] at this
    omega
  · right
    have := Nat.mul_le_mul_right stride (Nat.succ_le_of_lt h)
    rw [Nat.succ_mul] at this
    omega

/-- A stream goes back to its small buffer. -/
theorem WellFormed.toSmall (h : rx.WellFormed config) (i : Nat) {len : Nat}
    (hlen : len ≤ streamRxSmallStride config) (small : Memory) :
    ({ rx.setStream i ⟨len, streamRxSmallStride config, none⟩ with small := small } :
      Rx).WellFormed config := by
  have hother : ∀ j o, (Function.update rx.stream i ⟨len, streamRxSmallStride config, none⟩
      j).offset = some o → j ≠ i := by
    rintro j o ho rfl
    rw [Function.update_self] at ho
    cases ho
  constructor
  · exact h.used_le
  · intro j hj
    by_cases hji : j = i
    · subst hji
      simpa using hlen
    · simpa [hji] using h.len_le j hj
  · intro j hj
    by_cases hji : j = i
    · subst hji
      simp
    · simpa [hji] using h.small j hj
  · intro j hj o ho
    have hji := hother j o ho
    simp only [setStream_of_ne _ _ hji] at ho ⊢
    exact h.inside j hj o ho
  · intro j hj k hk hjk o o' ho ho'
    have hji := hother j o ho
    have hki := hother k o' ho'
    simp only [setStream_of_ne _ _ hji, setStream_of_ne _ _ hki] at ho ho' ⊢
    exact h.apart j hj k hk hjk o o' ho ho'

/-- `gossipsub_stream_rx_reset` empties one stream and keeps the others. -/
theorem reset_spec (hbuffer : streamRxBufferCap config < sizeMax) (h : rx.WellFormed config)
    (i : Nat) : (rxReset config i rx).WellFormed config ∧
      KeepsOthers config i rx (rxReset config i rx) ∧
      (i < config.capacity.maxStreams → (rxReset config i rx).content config i = []) := by
  have hfresh := compact_compacted hbuffer (h.toSmall i (Nat.zero_le _) rx.small)
  refine ⟨hfresh.wellFormed, ?_, ?_⟩
  · intro j hj hji
    refine (hfresh.content j hj).trans (content_congr ?_ (fun _ => rfl) fun _ _ => rfl)
    exact setStream_of_ne _ _ hji
  · intro hi
    refine (hfresh.content i hi).trans (List.length_eq_zero_iff.mp ?_)
    rw [content_length]
    exact congrArg StreamRx.len (setStream_self ..)

/-- `gossipsub_stream_rx_shrink` moves the bytes of one stream, and keeps them. -/
theorem shrink_spec (hbuffer : streamRxBufferCap config < sizeMax) (h : rx.WellFormed config)
    (i : Nat) : (rxShrink config i rx).WellFormed config ∧ Keeps config rx (rxShrink config i rx) := by
  unfold rxShrink
  split
  · rename_i hlarge
    rcases hlarge with ⟨hi, hlarge, hlen⟩
    have hshrunk := compact_compacted hbuffer
      (h.toSmall i hlen (rx.small.store (i * streamRxSmallStride config) (rx.content config i)))
    refine ⟨hshrunk.wellFormed, fun j hj => (hshrunk.content j hj).trans ?_⟩
    by_cases hji : j = i
    · subst hji
      have hstored := Memory.slice_store rx.small (j * streamRxSmallStride config)
        (rx.content config j)
      rw [content_length] at hstored
      conv_lhs => unfold content bytes
      simp only [setStream_self, Nat.add_zero]
      exact hstored
    · refine content_congr (setStream_of_ne _ _ hji) ?_ fun _ _ => rfl
      intro hsmall
      apply Memory.slice_store_of_disjoint
      rw [content_length]
      apply small_apart hji _ hlen
      rw [← h.small j hj hsmall]
      exact h.len_le j hj
  · exact ⟨h, fun _ _ => rfl⟩

/-! ## Reserving -/

theorem le_rxNextCapLoop (required limit fuel cap : Nat) (hcap : cap ≤ limit) :
    cap ≤ rxNextCapLoop required limit fuel cap := by
  induction fuel generalizing cap with
  | zero => exact Nat.le_refl _
  | succ fuel ih =>
    rw [rxNextCapLoop]
    split
    · refine Nat.le_trans ?_ (ih _ ?_)
      · split <;> omega
      · split <;> omega
    · exact Nat.le_refl _

/-- The next capacity is at least what is required and what there is. -/
theorem rxNextCap_spec {current required limit : Nat} (hcurrent : current ≤ limit)
    (hrequired : required ≤ limit) :
    current ≤ rxNextCap current required limit ∧ required ≤ rxNextCap current required limit ∧
      rxNextCap current required limit ≤ limit := by
  unfold rxNextCap
  dsimp only
  have := le_rxNextCapLoop required limit limit (max current (min 4096 limit)) (by omega)
  omega

/-- A stream gets a region behind the used part of the shared buffer. -/
theorem relocate_spec (h : rx.WellFormed config) {newCap : Nat}
    (hlen : (rx.stream i).len ≤ newCap) (hstride : streamRxSmallStride config < newCap)
    (hmax : newCap ≤ streamRxMaxCap config) (hroom : rx.used + newCap ≤ streamRxBufferCap config) :
    (rxRelocate config i newCap rx).WellFormed config ∧
      Keeps config rx (rxRelocate config i newCap rx) := by
  have hself : (rxRelocate config i newCap rx).stream i =
      ⟨(rx.stream i).len, newCap, some rx.used⟩ := setStream_self ..
  have hother : ∀ j, j ≠ i → (rxRelocate config i newCap rx).stream j = rx.stream j :=
    fun j hj => setStream_of_ne _ _ hj
  refine ⟨⟨?_, ?_, ?_, ?_, ?_⟩, ?_⟩
  · exact hroom
  · intro j hj
    by_cases hji : j = i
    · rw [hji, hself]
      exact hlen
    · rw [hother j hji]
      exact h.len_le j hj
  · intro j hj ho
    by_cases hji : j = i
    · rw [hji, hself] at ho
      cases ho
    · rw [hother j hji] at ho ⊢
      exact h.small j hj ho
  · intro j hj o ho
    by_cases hji : j = i
    · rw [hji, hself] at ho ⊢
      cases ho
      exact ⟨hstride, hmax, Nat.le_refl _⟩
    · rw [hother j hji] at ho ⊢
      have hin := h.inside j hj o ho
      exact ⟨hin.stride_lt, hin.cap_le, Nat.le_trans hin.end_le (Nat.le_add_right ..)⟩
  · intro j hj k hk hjk o o' ho ho'
    by_cases hji : j = i
    · have hki : k ≠ i := fun hki => hjk (hji.trans hki.symm)
      rw [hji, hself] at ho
      rw [hother k hki] at ho' ⊢
      cases ho
      exact .inr (h.inside k hk o' ho').end_le
    · rw [hother j hji] at ho ⊢
      by_cases hki : k = i
      · rw [hki, hself] at ho'
        cases ho'
        exact .inl (h.inside j hj o ho).end_le
      · rw [hother k hki] at ho' ⊢
        exact h.apart j hj k hk hjk o o' ho ho'
  · intro j hj
    by_cases hji : j = i
    · subst hji
      have hstored := Memory.slice_store rx.buffer rx.used (rx.content config j)
      rw [content_length] at hstored
      conv_lhs => unfold content bytes
      simp only [hself, Nat.add_zero]
      exact hstored
    · refine content_congr (hother j hji) (fun _ => rfl) ?_
      intro o ho
      apply Memory.slice_store_of_disjoint
      have := (h.inside j hj o ho).end_le
      have := h.len_le j hj
      omega

/-- The last region grows in place. -/
theorem extend_spec (h : rx.WellFormed config) (hi : i < config.capacity.maxStreams) {o newCap : Nat}
    (ho : (rx.stream i).offset = some o) (hend : o + (rx.stream i).cap = rx.used)
    (hle : (rx.stream i).cap ≤ newCap) (hmax : newCap ≤ streamRxMaxCap config)
    (hroom : o + newCap ≤ streamRxBufferCap config) :
    ({ rx.setStream i { rx.stream i with cap := newCap } with used := o + newCap } :
      Rx).WellFormed config := by
  have hself : (rx.setStream i { rx.stream i with cap := newCap }).stream i =
      { rx.stream i with cap := newCap } := setStream_self ..
  have hother : ∀ j, j ≠ i →
      (rx.setStream i { rx.stream i with cap := newCap }).stream j = rx.stream j :=
    fun j hj => setStream_of_ne _ _ hj
  -- every other region ends where this one starts
  have hbefore : ∀ j < config.capacity.maxStreams, j ≠ i → ∀ o', (rx.stream j).offset = some o' →
      o' + (rx.stream j).cap ≤ o := by
    intro j hj hji o' ho'
    have hin := (h.inside j hj o' ho').end_le
    have hstride := (h.inside j hj o' ho').stride_lt
    rcases h.apart j hj i hi hji o' o ho' ho with hle | hle
    · exact hle
    · omega
  refine ⟨hroom, ?_, ?_, ?_, ?_⟩
  · intro j hj
    by_cases hji : j = i
    · have hlen := h.len_le j hj
      subst hji
      simp only [hself]
      omega
    · simpa only [hother j hji] using h.len_le j hj
  · intro j hj hnone
    by_cases hji : j = i
    · subst hji
      simp only [hself] at hnone
      cases ho.symm.trans hnone
    · simp only [hother j hji] at hnone ⊢
      exact h.small j hj hnone
  · intro j hj o' ho'
    by_cases hji : j = i
    · have hin := h.inside j hj
      subst hji
      simp only [hself] at ho' ⊢
      cases ho.symm.trans ho'
      exact ⟨Nat.lt_of_lt_of_le (hin o ho).stride_lt hle, hmax, Nat.le_refl _⟩
    · simp only [hother j hji] at ho' ⊢
      have hin := h.inside j hj o' ho'
      have hlast := hbefore j hj hji o' ho'
      exact ⟨hin.stride_lt, hin.cap_le, by omega⟩
  · intro j hj k hk hjk o₁ o₂ ho₁ ho₂
    by_cases hji : j = i
    · have hki : k ≠ i := fun hki => hjk (hji.trans hki.symm)
      subst hji
      simp only [hself, hother k hki] at ho₁ ho₂ ⊢
      cases ho.symm.trans ho₁
      exact .inr (hbefore k hk hki o₂ ho₂)
    · simp only [hother j hji] at ho₁ ⊢
      by_cases hki : k = i
      · subst hki
        simp only [hself] at ho₂ ⊢
        cases ho.symm.trans ho₂
        exact .inl (hbefore j hj hji o₁ ho₁)
      · simp only [hother k hki] at ho₂ ⊢
        exact h.apart j hj k hk hjk o₁ o₂ ho₁ ho₂

/-- What a request for room leaves: enough of it, or `WOULD_BLOCK`, and every byte. -/
structure Reserved (config : Config) (i required : Nat) (rx : Rx)
    (res : Except GossipsubErr Unit × Rx) : Prop where
  wellFormed : res.2.WellFormed config
  keeps : Keeps config rx res.2
  result : res.1 = .ok () ∧ required ≤ (res.2.stream i).cap ∨ res.1 = .error .wouldBlock

theorem grow_spec (hbuffer : streamRxBufferCap config < sizeMax) (h : rx.WellFormed config)
    (hi : i < config.capacity.maxStreams) {newCap : Nat} (hcap : (rx.stream i).cap ≤ newCap)
    (hstride : streamRxSmallStride config < newCap) (hmax : newCap ≤ streamRxMaxCap config) :
    Reserved config i newCap rx (rxGrow config i newCap rx) := by
  have hcompacted := compact_compacted hbuffer h
  unfold rxGrow
  dsimp only
  generalize rxCompact config config.capacity.maxStreams rx = compacted at hcompacted ⊢
  have hwf := hcompacted.wellFormed
  have hused := hwf.used_le
  have hcap' : (compacted.stream i).cap ≤ newCap := by
    rw [hcompacted.cap_eq]
    exact hcap
  have hblocked : Reserved config i newCap rx (.error .wouldBlock, compacted) :=
    ⟨hwf, hcompacted.content, .inr rfl⟩
  have hrelocate := fun hroom => relocate_spec (i := i) hwf
    (Nat.le_trans (hwf.len_le i hi) hcap') hstride hmax hroom
  have hrelocated : (rxRelocate config i newCap compacted).stream i =
      ⟨(compacted.stream i).len, newCap, some compacted.used⟩ := setStream_self ..
  split
  · rename_i hlarge
    rw [← hcompacted.isLarge_eq] at hlarge
    obtain ⟨o, ho⟩ := Option.isSome_iff_exists.mp hlarge
    have hend := (hwf.inside i hi o ho).end_le
    have hoffset : (compacted.stream i).offset.getD sizeMax = o := arena_offset ho
    rw [hoffset, if_neg (by omega)]
    split
    · rename_i hlast
      split
      · refine ⟨extend_spec hwf hi ho hlast hcap' hmax (by omega), ?_, .inl ⟨rfl, ?_⟩⟩
        · intro j hj
          refine Eq.trans ?_ (hcompacted.content j hj)
          by_cases hji : j = i
          · subst hji
            unfold content bytes
            simp only [setStream_self, setStream_small, setStream_buffer]
          · exact content_congr (setStream_of_ne _ _ hji) (fun _ => rfl) fun _ _ => rfl
        · show newCap ≤ ((compacted.setStream i { compacted.stream i with cap := newCap }).stream i).cap
          simp
      · exact hblocked
    · split
      · rcases hrelocate (by omega) with ⟨hwf', hkeeps⟩
        have hagain := compact_compacted hbuffer hwf'
        refine ⟨hagain.wellFormed, ?_, .inl ⟨rfl, ?_⟩⟩
        · exact (Keeps.trans hcompacted.content hkeeps).trans hagain.content
        · rw [hagain.cap_eq, hrelocated]
      · exact hblocked
  · split
    · rcases hrelocate (by omega) with ⟨hwf', hkeeps⟩
      refine ⟨hwf', Keeps.trans hcompacted.content hkeeps, .inl ⟨rfl, ?_⟩⟩
      rw [hrelocated]
    · exact hblocked

/-- The shared buffer has room for a region of any size, if there is one. -/
theorem streamRxMaxCap_le (hstreams : 0 < config.capacity.maxStreams) :
    streamRxMaxCap config ≤ streamRxBufferCap config ∨
      streamRxBufferCap config = 0 ∧ streamRxSmallStride config = streamRxMaxCap config := by
  have hle := streamRxSmallStride_le config
  unfold streamRxBufferCap
  split
  · left
    exact Nat.le_mul_of_pos_left _ (by omega)
  · right
    exact ⟨rfl, by omega⟩

/-- `gossipsub_stream_rx_reserve` gives the room or answers `WOULD_BLOCK`, and keeps every byte. -/
theorem reserve_spec (hbuffer : streamRxBufferCap config < sizeMax) (h : rx.WellFormed config)
    (hi : i < config.capacity.maxStreams) {required : Nat}
    (hrequired : required ≤ streamRxMaxCap config) :
    Reserved config i required rx (rxReserve config i required rx) := by
  unfold rxReserve
  rw [if_neg (by omega)]
  split
  · rename_i hfits
    exact ⟨h, fun _ _ => rfl, .inl ⟨rfl, hfits⟩⟩
  · rename_i hlacks
    have hcap : streamRxSmallStride config ≤ (rx.stream i).cap ∧
        (rx.stream i).cap ≤ streamRxMaxCap config := by
      cases ho : (rx.stream i).offset with
      | none =>
        rw [h.small i hi ho]
        exact ⟨Nat.le_refl _, streamRxSmallStride_le config⟩
      | some o =>
        have hin := h.inside i hi o ho
        exact ⟨Nat.le_of_lt hin.stride_lt, hin.cap_le⟩
    obtain ⟨hcurrent, hnew, hlimit⟩ := rxNextCap_spec hcap.2 hrequired
    rcases streamRxMaxCap_le (Nat.zero_lt_of_lt hi) with hroom | ⟨-, hstride⟩
    · have hpos : streamRxBufferCap config ≠ 0 := by
        have := streamRxSmallStride_pos config
        omega
      dsimp only
      rw [if_neg (by omega)]
      have hgrow := grow_spec hbuffer h hi hcurrent (by omega) hlimit
      refine ⟨hgrow.wellFormed, hgrow.keeps, ?_⟩
      rcases hgrow.result with ⟨hok, hge⟩ | hblocked
      · exact .inl ⟨hok, by omega⟩
      · exact .inr hblocked
    · omega

/-! ## Writing and consuming -/

/-- A slot whose length changes. -/
theorem WellFormed.setLen (h : rx.WellFormed config) {len : Nat}
    (hlen : len ≤ (rx.stream i).cap) :
    (rx.setStream i { rx.stream i with len := len }).WellFormed config := by
  have hstream : ∀ j, ((rx.setStream i { rx.stream i with len := len }).stream j).cap =
        (rx.stream j).cap ∧
      ((rx.setStream i { rx.stream i with len := len }).stream j).offset =
        (rx.stream j).offset := by
    intro j
    by_cases hji : j = i
    · subst hji
      simp
    · simp [hji]
  refine ⟨h.used_le, ?_, ?_, ?_, ?_⟩
  · intro j hj
    by_cases hji : j = i
    · subst hji
      simpa using hlen
    · simpa [hji] using h.len_le j hj
  · intro j hj ho
    rw [(hstream j).2] at ho
    exact (hstream j).1.trans (h.small j hj ho)
  · intro j hj o ho
    rw [(hstream j).2] at ho
    have hin := h.inside j hj o ho
    refine ⟨?_, ?_, ?_⟩ <;> rw [(hstream j).1]
    · exact hin.stride_lt
    · exact hin.cap_le
    · exact hin.end_le
  · intro j hj k hk hjk o o' ho ho'
    rw [(hstream j).2] at ho
    rw [(hstream k).2] at ho'
    rw [(hstream j).1, (hstream k).1]
    exact h.apart j hj k hk hjk o o' ho ho'

/-- Writing bytes changes no slot. -/
theorem write_stream (i pos : Nat) (data : Bytes) (rx : Rx) :
    (rx.write config i pos data).stream = rx.stream ∧
      (rx.write config i pos data).used = rx.used := by
  unfold write
  split <;> exact ⟨rfl, rfl⟩

theorem WellFormed.write (h : rx.WellFormed config) (i pos : Nat) (data : Bytes) :
    (rx.write config i pos data).WellFormed config := by
  rcases @write_stream config i pos data rx with ⟨hstream, hused⟩
  constructor
  · rw [hused]
    exact h.used_le
  · rw [hstream]
    exact h.len_le
  · rw [hstream]
    exact h.small
  · rw [hstream, hused]
    exact h.inside
  · rw [hstream]
    exact h.apart

/-- What is written is read back. -/
theorem write_bytes (i pos : Nat) (data : Bytes) (rx : Rx) :
    (rx.write config i pos data).bytes config i pos data.length = data := by
  unfold write bytes
  cases ho : (rx.stream i).offset with
  | none =>
    simp only [ho]
    exact Memory.slice_store ..
  | some o =>
    simp only [ho]
    exact Memory.slice_store ..

/-- Bytes of a stream before the written ones stay. -/
theorem write_bytes_before {pos n m : Nat} (i : Nat) (data : Bytes) (rx : Rx) (h : n + m ≤ pos) :
    (rx.write config i pos data).bytes config i n m = rx.bytes config i n m := by
  refine bytes_congr (congrArg StreamRx.offset (congrFun (write_stream i pos data rx).1 i)) ?_ ?_
  · intro ho
    unfold write
    rw [ho]
    exact Memory.slice_store_of_disjoint _ (by omega)
  · intro o ho
    unfold write
    rw [ho]
    exact Memory.slice_store_of_disjoint _ (by omega)

/-- Bytes written within the capacity of a stream leave the other streams alone. -/
theorem write_others (h : rx.WellFormed config) (hi : i < config.capacity.maxStreams) {pos : Nat}
    {data : Bytes} (hfits : pos + data.length ≤ (rx.stream i).cap) :
    KeepsOthers config i rx (rx.write config i pos data) := by
  intro j hj hji
  have hlen := h.len_le j hj
  refine content_congr (congrFun (write_stream i pos data rx).1 j) ?_ ?_
  · intro hjo
    unfold write
    split
    · rename_i hio
      apply Memory.slice_store_of_disjoint
      have hcap := h.small i hi hio
      have hcap' := h.small j hj hjo
      have hapart := @small_apart j i (streamRxSmallStride config) (rx.stream j).len
        (pos + data.length) hji (by omega) (by omega)
      omega
    · rfl
  · intro o hjo
    unfold write
    split
    · rfl
    · rename_i o' hio
      apply Memory.slice_store_of_disjoint
      have hapart := h.apart j hj i hi hji o o' hjo hio
      omega

/-- A slot whose length changes reads the same bytes. -/
theorem bytes_setLen (rx : Rx) (i len pos n : Nat) :
    (rx.setStream i { rx.stream i with len := len }).bytes config i pos n =
      rx.bytes config i pos n := by
  refine bytes_congr ?_ (fun _ => rfl) fun _ _ => rfl
  rw [setStream_self]

theorem setLen_others (rx : Rx) (i len : Nat) :
    KeepsOthers config i rx (rx.setStream i { rx.stream i with len := len }) :=
  fun _ _ hji => content_congr (setStream_of_ne _ _ hji) (fun _ => rfl) fun _ _ => rfl

theorem bytes_append (rx : Rx) (i pos m n : Nat) :
    rx.bytes config i pos (m + n) = rx.bytes config i pos m ++ rx.bytes config i (pos + m) n := by
  unfold bytes
  cases (rx.stream i).offset with
  | none =>
    dsimp only
    rw [Memory.slice_append, Nat.add_assoc]
  | some o =>
    dsimp only
    rw [Memory.slice_append, Nat.add_assoc]

/-- What a stream holds behind its first bytes. -/
theorem content_drop (rx : Rx) (i : Nat) {pos : Nat} (h : pos ≤ (rx.stream i).len) :
    (rx.content config i).drop pos = rx.bytes config i pos ((rx.stream i).len - pos) := by
  have happend := @bytes_append config rx i 0 pos ((rx.stream i).len - pos)
  rw [Nat.zero_add, Nat.add_sub_of_le h] at happend
  unfold content
  rw [happend, List.drop_left' (bytes_length ..)]

/-- `rx_len += n` takes the bytes in that stand behind those that are held. -/
theorem advance_spec (h : rx.WellFormed config) {n : Nat}
    (hfits : (rx.stream i).len + n ≤ (rx.stream i).cap) :
    (rx.setStream i { rx.stream i with len := (rx.stream i).len + n }).WellFormed config ∧
      (rx.setStream i { rx.stream i with len := (rx.stream i).len + n }).content config i =
        rx.content config i ++ rx.bytes config i (rx.stream i).len n := by
  refine ⟨h.setLen hfits, ?_⟩
  have happend := @bytes_append config rx i 0 (rx.stream i).len n
  rw [Nat.zero_add] at happend
  unfold content
  rw [bytes_setLen, setStream_self]
  exact happend

/-- A frame is taken off the front of a buffer. -/
theorem consume_spec (h : rx.WellFormed config) (hi : i < config.capacity.maxStreams) (pos : Nat) :
    (rxConsume config i pos rx).WellFormed config ∧
      (rxConsume config i pos rx).content config i = (rx.content config i).drop pos ∧
      KeepsOthers config i rx (rxConsume config i pos rx) := by
  have hlen := h.len_le i hi
  unfold rxConsume
  dsimp only
  split
  · rename_i hpos
    have hdrop := @content_drop config rx i pos (Nat.le_of_lt hpos)
    generalize hdata : rx.bytes config i pos ((rx.stream i).len - pos) = data at hdrop
    have hdatalen : data.length = (rx.stream i).len - pos := by
      rw [← hdata, bytes_length]
    have hstream := congrFun (@write_stream config i 0 data rx).1 i
    have hwritten := h.write i 0 data
    have hread := @write_bytes config i 0 data rx
    have hothers := @write_others config rx i h hi 0 data (by omega)
    generalize rx.write config i 0 data = moved at *
    rw [hdrop, ← hstream]
    refine ⟨hwritten.setLen ?_, ?_, ?_⟩
    · rw [hstream]
      omega
    · unfold content
      rw [bytes_setLen, setStream_self, hstream]
      dsimp only
      rw [← hdatalen, hread]
    · intro j hj hji
      exact (setLen_others moved i _ j hj hji).trans (hothers j hj hji)
  · refine ⟨h.setLen (Nat.zero_le _), ?_, setLen_others rx i 0⟩
    rw [List.drop_eq_nil_of_le (by rw [content_length]; omega)]
    refine List.length_eq_zero_iff.mp ?_
    rw [content_length, setStream_self]

end Rx

end LeanLibp2p.Gossipsub
