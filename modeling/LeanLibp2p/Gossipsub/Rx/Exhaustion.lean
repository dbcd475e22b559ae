import LeanLibp2p.Gossipsub.Rx.Safety

/-!
# A full shared buffer

Streams that each hold the front of a frame longer than a small buffer take the whole shared buffer
between them. The next such stream gets no room in the second round of its read, and its `rx_len`
grows by what the first round read although nothing was read since.
-/

namespace LeanLibp2p.Gossipsub

open LeanLibp2p.Lib

variable {config : Config}

namespace Receiver

variable {s : Receiver} {i k : Nat}

/-! ## Operations without an effect on the frames -/

/-- Decoding takes nothing off a buffer without a complete frame. -/
theorem decodeAvailable_incomplete
    (h : (rpcFrames config).next (s.rx.content config i) = .incomplete) :
    decodeAvailable config i s = (.ok (), s.moveRx (.shrink i) (rxShrink config i s.rx)) := by
  have hloop : decodeLoop config i (s.rx.stream i).len s = (.ok (), s) := by
    cases (s.rx.stream i).len with
    | zero => rfl
    | succ len =>
      rcases decodeLoop_cases config i len s with ⟨-, hrun⟩ | ⟨e, hbad, -⟩ | ⟨body, rest, hframe, -⟩
      · exact hrun
      · rw [h] at hbad
        cases hbad
      · rw [h] at hframe
        cases hframe
  unfold decodeAvailable
  rw [Comp.read_id_bind, Comp.bind_of_ok hloop]
  rfl

/-- A stream in its small buffer is not shrunk. -/
theorem rxShrink_of_small {rx : Rx} (h : (rx.stream i).offset = none) : rxShrink config i rx = rx := by
  unfold rxShrink
  rw [if_neg]
  rintro ⟨-, hlarge, -⟩
  unfold StreamRx.isLarge at hlarge
  rw [h] at hlarge
  cases hlarge

/-- A stream in its small buffer gets a region, if one of the largest size is left. -/
theorem rxReserve_of_small {rx : Rx} (hwf : rx.WellFormed config)
    (hi : i < config.capacity.maxStreams) (hsmall : (rx.stream i).offset = none)
    (hlarge : streamRxSmallStride config < streamRxMaxCap config) :
    rxReserve config i (streamRxMaxCap config) rx =
      let compacted := rxCompact config config.capacity.maxStreams rx
      if streamRxMaxCap config ≤ streamRxBufferCap config - compacted.used then
        (.ok (), rxRelocate config i (streamRxMaxCap config) compacted)
      else (.error .wouldBlock, compacted) := by
  have hcap := hwf.small i hi hsmall
  have hroom : streamRxMaxCap config ≤ streamRxBufferCap config := by
    rcases Rx.streamRxMaxCap_le (Nat.zero_lt_of_lt hi) with hroom | ⟨-, hstride⟩
    · exact hroom
    · omega
  have hnew := @Rx.rxNextCap_spec (rx.stream i).cap (streamRxMaxCap config) (streamRxMaxCap config)
    (by omega) (Nat.le_refl _)
  have hnewCap : rxNextCap (rx.stream i).cap (streamRxMaxCap config) (streamRxMaxCap config) =
      streamRxMaxCap config := Nat.le_antisymm hnew.2.2 hnew.2.1
  have hnotLarge : (rx.stream i).isLarge = false := by
    unfold StreamRx.isLarge
    rw [hsmall]
    rfl
  unfold rxReserve rxGrow
  dsimp only
  rw [hnewCap, hnotLarge, if_neg (by omega), if_neg (by omega), if_neg (by omega)]
  rfl

/-! ## Streams that wait for long frames -/

/-- The streams below `k` have regions of the largest size, the others are idle. -/
structure Crowded (config : Config) (k : Nat) (s : Receiver) : Prop extends Sound config s where
  opened : ∀ i < config.capacity.maxStreams, (s.node.router.streams i).isOpen = true
  region : ∀ i < k, (s.rx.stream i).isLarge = true ∧ (s.rx.stream i).cap = streamRxMaxCap config
  idle : ∀ i < config.capacity.maxStreams, k ≤ i →
    s.rx.stream i = .fresh config ∧ s.log i = .fresh

theorem filter_range_lt (n k : Nat) :
    (List.range n).filter (fun i => decide (i < k)) = List.range (min n k) := by
  induction n with
  | zero => simp
  | succ n ih =>
    rw [List.range_succ, List.filter_append, ih]
    by_cases hn : n < k
    · have hmin : min (n + 1) k = min n k + 1 := by omega
      have heq : min n k = n := by omega
      rw [hmin, List.range_succ, heq]
      simp [hn]
    · have hmin : min (n + 1) k = min n k := by omega
      rw [hmin]
      simp [hn]

/-- The regions take `k` times the largest size. -/
theorem Crowded.used (hbuffer : streamRxBufferCap config < sizeMax) (h : Crowded config k s)
    (hk : k ≤ config.capacity.maxStreams) {rx : Rx} (hwf : rx.WellFormed config)
    (hsame : ∀ j < config.capacity.maxStreams, (rx.stream j).isLarge = (s.rx.stream j).isLarge ∧
      (rx.stream j).cap = (s.rx.stream j).cap) :
    (rxCompact config config.capacity.maxStreams rx).used = k * streamRxMaxCap config := by
  have hlarge : rx.large config = List.range k := by
    unfold Rx.large
    rw [show List.range k = List.range (min config.capacity.maxStreams k) by
      rw [Nat.min_eq_right hk], ← filter_range_lt]
    apply List.filter_congr
    intro j hj
    have hlt := List.mem_range.mp hj
    rw [(hsame j hlt).1]
    by_cases hjk : j < k
    · simp [hjk, (h.region j hjk).1]
    · rw [(h.idle j hlt (by omega)).1]
      simp [hjk, StreamRx.isLarge, StreamRx.fresh]
  rw [(Rx.compact_compacted hbuffer hwf).used_eq, hlarge]
  have hcaps : (List.range k).map rx.cap = (List.range k).map fun _ => streamRxMaxCap config := by
    apply List.map_congr_left
    intro j hj
    have hjk := List.mem_range.mp hj
    exact (hsame j (by omega)).2.trans (h.region j hjk).2
  rw [hcaps]
  simp

/-- What the transport holds for a stream on which `bytes` came in. -/
def arrived (bytes : Bytes) : Host.StreamInput := ⟨[], { Host.QuicStream.fresh with rx := bytes }⟩

/-- The receiver after the first round of a read that fills the small buffer of an idle stream. -/
def filled (config : Config) (i : Nat) (front : Bytes) (s : Receiver) : Receiver :=
  (appended config i front s).moveRx (.shrink i) (appended config i front s).rx

theorem hostSource_read_arrived {front : Bytes} (more : Bytes) {room : Nat}
    (hlen : front.length = room) (hroom : 0 < room) :
    hostSource.read room (arrived (front ++ more)) = (.data front false, arrived more) := by
  have hfront : front ≠ [] := by
    rintro rfl
    simp at hlen
    omega
  subst hlen
  have hread : (arrived (front ++ more)).read front.length =
      (.ok (front, false), arrived more) := by
    unfold Host.StreamInput.read Host.quicStreamRead arrived Host.QuicStream.fresh
    simp [hfront]
  show (ReadResult.ofHost ((arrived (front ++ more)).read front.length).1, _) = _
  rw [hread]
  rfl

theorem hostSource_read_nothing (room : Nat) :
    hostSource.read room (arrived []) = (.wouldBlock, arrived []) := by
  show (ReadResult.ofHost ((arrived []).read room).1, ((arrived []).read room).2) = _
  have hread : (arrived []).read room = (.error .wouldBlock, arrived []) := by
    unfold Host.StreamInput.read Host.quicStreamRead arrived Host.QuicStream.fresh
    simp [Host.hostQuicErr]
  rw [hread]
  rfl

/-- The largest frame takes no more than one read beyond the small buffer. -/
structure OneRead (config : Config) : Prop where
  buffer_lt : streamRxBufferCap config < sizeMax
  stride_lt : streamRxSmallStride config < streamRxMaxCap config
  maxCap_le : streamRxMaxCap config ≤ streamRxSmallStride config + 65536

/-- What is known of the receiver after the first round. -/
structure Filled (config : Config) (i k : Nat) (front : Bytes) (s s' : Receiver) : Prop where
  sound : s'.Sound config
  node : s'.node = s.node
  streams : ∀ j, j ≠ i → s'.rx.stream j = s.rx.stream j ∧ s'.log j = s.log j
  stream : s'.rx.stream i = ⟨streamRxSmallStride config, streamRxSmallStride config, none⟩
  log : s'.log i = ⟨front, [], false, none⟩
  content : s'.rx.content config i = front

/-- A stream with room needs none. -/
theorem ensureRoom_of_room (hlen : (s.rx.stream i).len < streamRxMaxCap config)
    (hroom : sizeSub (s.rx.stream i).cap (s.rx.stream i).len ≠ 0) :
    ensureRoom config i s = (.ok false, s) := by
  unfold ensureRoom
  rw [Comp.read_id_bind, if_neg (by omega), if_neg hroom]
  rfl

/-- The first round of a read that fills the small buffer of an idle stream. -/
theorem Crowded.readRound_fills (hconfig : OneRead config) (h : Crowded config k s)
    (hi : i < config.capacity.maxStreams) (hk : k ≤ i) {front : Bytes} (more : Bytes)
    (hlen : front.length = streamRxSmallStride config)
    (hnext : (rpcFrames config).next front = .incomplete) :
    ∃ s', readRound config hostSource i 0 (arrived (front ++ more)) s =
        (.ok (arrived more, front.length, true), s') ∧ Filled config i k front s s' := by
  rcases h.idle i hi hk with ⟨hstream, hlog⟩
  have hpos := streamRxSmallStride_pos config
  have hstride : streamRxSmallStride config ≤ 4096 := Nat.min_le_left ..
  have hlt := hconfig.stride_lt
  have hempty : s.rx.content config i = [] := by
    apply List.length_eq_zero_iff.mp
    rw [Rx.content_length, hstream]
    rfl
  have hprogress : Progress config i s s := by
    refine ⟨h.toSound, .refl i s, ?_, ?_, ?_, .refl i s⟩
    · rw [hlog]
      rfl
    · rw [hlog]
      rfl
    · rw [hlog, hempty]
      exact .nil []
  have hfits : (s.rx.stream i).len + front.length ≤ (s.rx.stream i).cap := by
    rw [hstream]
    show 0 + front.length ≤ streamRxSmallStride config
    omega
  rcases hprogress.appended hi hfits with ⟨happended, hcontent⟩
  rw [hempty, List.nil_append] at hcontent
  have hself : (appended config i front s).rx.stream i =
      ⟨streamRxSmallStride config, streamRxSmallStride config, none⟩ := by
    show (Rx.setStream _ i _).stream i = _
    rw [Rx.setStream_self, (Rx.write_stream ..).1, hstream]
    show (⟨0 + front.length, _, _⟩ : StreamRx) = _
    rw [Nat.zero_add, hlen]
    rfl
  have hdecode := decodeAvailable_incomplete (s := appended config i front s)
    (by rw [hcontent]; exact hnext)
  have hshrink : rxShrink config i (appended config i front s).rx = (appended config i front s).rx :=
    rxShrink_of_small (by rw [hself])
  rw [hshrink] at hdecode
  refine ⟨filled config i front s, ?_, ?_⟩
  · have hlen₀ : (s.rx.stream i).len = 0 := by
      rw [hstream]
      rfl
    have hcap₀ : (s.rx.stream i).cap = streamRxSmallStride config := by
      rw [hstream]
      rfl
    have hsub : sizeSub (s.rx.stream i).cap (s.rx.stream i).len = streamRxSmallStride config := by
      rw [sizeSub_of_le (by omega), hlen₀, hcap₀, Nat.sub_zero]
    have hensure : ensureRoom config i s = (.ok false, s) :=
      ensureRoom_of_room (by omega) (by omega)
    have hroom : min (sizeSub (s.rx.stream i).cap (s.rx.stream i).len) 65536 =
        streamRxSmallStride config := by omega
    have hnonempty : decide (front.length ≠ 0) = true := by
      simp only [decide_eq_true_eq]
      omega
    unfold readRound
    rw [Comp.bind_of_ok hensure, if_neg (by simp), Comp.read_id_bind, hroom,
      hostSource_read_arrived more hlen hpos]
    dsimp only
    have honly : Comp.onlyIf true (decodeAvailable config i) (appended config i front s) =
        (.ok (), filled config i front s) := hdecode
    rw [readRound_data, hnonempty, Comp.bind_of_ok honly]
    rfl
  · have hwrite := @Rx.write_stream config i (s.rx.stream i).len front s.rx
    refine ⟨?_, rfl, ?_, hself, ?_, hcontent⟩
    · exact happended.sound.pool happended.sound.wellFormed fun _ _ _ => rfl
    · intro j hji
      refine ⟨?_, Function.update_of_ne hji ..⟩
      exact (Rx.setStream_of_ne _ _ hji).trans (congrFun hwrite.1 j)
    · have hentry : (filled config i front s).log i =
          { s.log i with received := (s.log i).received ++ front } :=
        setLog_self i (fun log : StreamLog => { log with received := log.received ++ front }) s
      rw [hentry, hlog]
      rfl

/-- The second round asks for the limit, which is granted if the shared buffer has a region left. -/
theorem Filled.reserve (hconfig : OneRead config) (h : Crowded config k s)
    (hk : k ≤ config.capacity.maxStreams) (hi : i < config.capacity.maxStreams) {front : Bytes}
    {s' : Receiver} (hfilled : Filled config i k front s s') (hik : k ≤ i) :
    ∃ compacted, Rx.Compacted config s'.rx compacted ∧
      compacted.used = k * streamRxMaxCap config ∧
      (RxOp.reserve i (requiredRoom config (s'.rx.stream i).len)).comp config s'.rx =
        if streamRxMaxCap config ≤ streamRxBufferCap config - k * streamRxMaxCap config then
          (.ok (), rxRelocate config i (streamRxMaxCap config) compacted)
        else (.error .wouldBlock, compacted) := by
  have hstride := hconfig.stride_lt
  have hmax := hconfig.maxCap_le
  have hrequired : requiredRoom config (s'.rx.stream i).len = streamRxMaxCap config := by
    rw [hfilled.stream]
    unfold requiredRoom
    rw [if_neg]
    show ¬ 65536 < streamRxMaxCap config - streamRxSmallStride config
    omega
  have hused : (rxCompact config config.capacity.maxStreams s'.rx).used =
      k * streamRxMaxCap config := by
    refine h.used hconfig.buffer_lt hk hfilled.sound.wellFormed ?_
    intro j hj
    by_cases hji : j = i
    · subst hji
      rw [hfilled.stream, (h.idle j hj hik).1]
      exact ⟨rfl, rfl⟩
    · rw [(hfilled.streams j hji).1]
      exact ⟨rfl, rfl⟩
  refine ⟨rxCompact config config.capacity.maxStreams s'.rx,
    Rx.compact_compacted hconfig.buffer_lt hfilled.sound.wellFormed, hused, ?_⟩
  rw [hrequired]
  show rxReserve config i (streamRxMaxCap config) s'.rx = _
  rw [rxReserve_of_small hfilled.sound.wellFormed hi (by rw [hfilled.stream]) hstride]
  dsimp only
  rw [hused]

/-- The start of the second round. -/
theorem Filled.ensureRoom (hconfig : OneRead config) {front : Bytes} {s' : Receiver}
    (hfilled : Filled config i k front s s') {granted : Bool} {rx : Rx}
    (hreserve : (RxOp.reserve i (requiredRoom config (s'.rx.stream i).len)).comp config s'.rx =
      (if granted then .ok () else .error .wouldBlock, rx)) :
    Receiver.ensureRoom config i s' =
      (.ok (!granted), s'.moveRx (.reserve i (requiredRoom config (s'.rx.stream i).len)) rx) := by
  have hstride := hconfig.stride_lt
  have hlen : (s'.rx.stream i).len = streamRxSmallStride config := by rw [hfilled.stream]
  have hcap : (s'.rx.stream i).cap = streamRxSmallStride config := by rw [hfilled.stream]
  have hfull : sizeSub (s'.rx.stream i).cap (s'.rx.stream i).len = 0 := by
    rw [sizeSub_of_le (by omega)]
    omega
  have hresult : Comp.result
      (pool config (.reserve i (requiredRoom config (s'.rx.stream i).len))) s' =
        (.ok (if granted then .ok () else .error .wouldBlock),
          s'.moveRx (.reserve i (requiredRoom config (s'.rx.stream i).len)) rx) := by
    unfold Comp.result
    rw [pool_of_eq hreserve]
  unfold Receiver.ensureRoom
  rw [Comp.read_id_bind, if_neg (by omega), if_pos hfull, Comp.bind_of_ok hresult]
  cases granted <;> rfl

/-- A callback of two rounds. -/
theorem step_readable_of_rounds (hi : i < config.capacity.maxStreams)
    (hopen : (s.node.router.streams i).isOpen = true) (herror : (s.log i).error = none)
    {s₁ s₂ : Receiver} {host host₁ host₂ : Host.StreamInput} {readLen readLen₂ : Nat}
    (hsize : hostSource.size host ≠ 0)
    (hround : readRound config hostSource i 0 host s = (.ok (host₁, readLen, true), s₁))
    (hround₂ : readRound config hostSource i readLen host₁ s₁ =
      (.ok (host₂, readLen₂, false), s₂)) :
    readable config hostSource i host s = (host₂, s₂) := by
  obtain ⟨size, hsize⟩ := Nat.exists_eq_succ_of_ne_zero hsize
  have hread : streamRead config hostSource i host s = (.ok host₂, s₂) := by
    unfold streamRead
    rw [hsize, streamReadLoop, Comp.bind_of_ok hround]
    show streamReadLoop config hostSource i (size + 1) readLen host₁ s₁ = _
    rw [streamReadLoop, Comp.bind_of_ok hround₂]
    rfl
  unfold readable
  rw [if_pos ⟨hi, hopen, herror⟩, hread]

/-- A round that gets room and finds nothing to read. -/
theorem readRound_nothing {readLen : Nat} {s' : Receiver}
    (hensure : Receiver.ensureRoom config i s = (.ok false, s')) :
    readRound config hostSource i readLen (arrived []) s =
      (.ok (arrived [], 0, false), s'.moveRx (.advance i 0) s'.rx) := by
  unfold readRound
  rw [Comp.bind_of_ok hensure, if_neg (by simp), Comp.read_id_bind, hostSource_read_nothing]
  show (addRead config i 0 >>= _) s' = _
  rw [Comp.bind_of_ok (addRead_nothing config i s')]
  rfl

/-- A round that gets no room adds `read_len` again. -/
theorem readRound_blocked {readLen : Nat} {host : Host.StreamInput} {s' s'' : Receiver}
    (hensure : Receiver.ensureRoom config i s = (.ok true, s'))
    (hadd : addRead config i readLen s' = (.ok (), s'')) :
    readRound config hostSource i readLen host s = (.ok (host, readLen, false), s'') := by
  unfold readRound
  rw [Comp.bind_of_ok hensure, if_pos rfl, Comp.bind_of_ok hadd]
  rfl

theorem arrived_size {front : Bytes} (more : Bytes)
    (hlen : front.length = streamRxSmallStride config) :
    hostSource.size (arrived (front ++ more)) ≠ 0 := by
  have hpos := streamRxSmallStride_pos config
  show ([] ++ (front ++ more)).length ≠ 0
  rw [List.nil_append, List.length_append]
  omega

/-- A stream that gets a region is one more stream with one. -/
theorem Crowded.fill (hconfig : OneRead config) (h : Crowded config i s)
    (hi : i < config.capacity.maxStreams) (hroom : i < 6) {front : Bytes}
    (hlen : front.length = streamRxSmallStride config)
    (hnext : (rpcFrames config).next front = .incomplete) :
    Crowded config (i + 1) (s.step config hostSource (.readable i (arrived front))) := by
  obtain ⟨s₁, hround, hfilled⟩ := h.readRound_fills hconfig hi (Nat.le_refl i) [] hlen hnext
  have hsize := @arrived_size config front [] hlen
  rw [List.append_nil] at hround hsize
  have hstride := hconfig.stride_lt
  obtain ⟨compacted, hcompacted, hused, hreserve⟩ :=
    hfilled.reserve hconfig h (Nat.le_of_lt hi) hi (Nat.le_refl i)
  have hbuffer : streamRxBufferCap config =
      min config.capacity.maxStreams 6 * streamRxMaxCap config := by
    unfold streamRxBufferCap
    rw [if_pos hstride]
  have hfits : i * streamRxMaxCap config + streamRxMaxCap config ≤ streamRxBufferCap config := by
    rw [hbuffer, ← Nat.succ_mul]
    exact Nat.mul_le_mul_right _ (by omega)
  rw [if_pos (by omega)] at hreserve
  have hensure := @Filled.ensureRoom config s i i hconfig front s₁ hfilled true _ hreserve
  have hlen₁ : (compacted.stream i).len = streamRxSmallStride config := by
    rw [hcompacted.len_eq, hfilled.stream]
  rcases @Rx.relocate_spec config compacted i hcompacted.wellFormed (streamRxMaxCap config)
    (by omega) hstride (Nat.le_refl _) (by omega) with ⟨hwf, hkeeps⟩
  have hself : (rxRelocate config i (streamRxMaxCap config) compacted).stream i =
      ⟨streamRxSmallStride config, streamRxMaxCap config, some compacted.used⟩ := by
    show (Rx.setStream _ i _).stream i = _
    rw [Rx.setStream_self, hlen₁]
  have hother : ∀ j, j ≠ i → (rxRelocate config i (streamRxMaxCap config) compacted).stream j =
      compacted.stream j := fun j hji => Rx.setStream_of_ne _ _ hji
  have hrounds := step_readable_of_rounds hi (h.opened i hi)
    (by rw [(h.idle i hi (Nat.le_refl i)).2]; rfl) hsize hround (readRound_nothing hensure)
  show Crowded config (i + 1) (readable config hostSource i (arrived front) s).2
  rw [hrounds]
  refine ⟨?_, ?_, ?_, ?_⟩
  · refine (hfilled.sound.pool hwf ?_).pool hwf fun _ _ _ => rfl
    intro j hj _
    exact (hkeeps j hj).trans (hcompacted.content j hj)
  · intro j hj
    show (s₁.node.router.streams j).isOpen = true
    rw [hfilled.node]
    exact h.opened j hj
  · intro j hj
    show ((rxRelocate config i (streamRxMaxCap config) compacted).stream j).isLarge = true ∧
      ((rxRelocate config i (streamRxMaxCap config) compacted).stream j).cap = _
    by_cases hji : j = i
    · subst hji
      rw [hself]
      exact ⟨rfl, rfl⟩
    · rw [hother j hji, hcompacted.isLarge_eq, hcompacted.cap_eq, (hfilled.streams j hji).1]
      exact h.region j (by omega)
  · intro j hj hij
    have hji : j ≠ i := by omega
    rcases h.idle j hj (by omega) with ⟨hstream, hlog⟩
    refine ⟨?_, (hfilled.streams j hji).2.trans hlog⟩
    show (rxRelocate config i (streamRxMaxCap config) compacted).stream j = _
    rcases hcompacted.streams j with ⟨n, hn⟩
    rw [hother j hji, hn, (hfilled.streams j hji).1, hstream]
    rfl

/-- When the shared buffer is full, the bytes of the first round are counted twice. -/
theorem Crowded.overrun (hconfig : OneRead config) (h : Crowded config 6 s)
    (hstreams : 6 < config.capacity.maxStreams) {front : Bytes} (more : Bytes)
    (hlen : front.length = streamRxSmallStride config)
    (hnext : ∀ behind, behind.length < front.length + 1 →
      (rpcFrames config).next (front ++ behind) = .incomplete) :
    ∃ s', readable config hostSource 6 (arrived (front ++ more)) s = (arrived more, s') ∧
      (s'.rx.stream 6).len = streamRxSmallStride config + streamRxSmallStride config ∧
      (s'.rx.stream 6).cap = streamRxSmallStride config ∧
      s'.log 6 = ⟨front, [], false, none⟩ := by
  have hfront := hnext [] (by simp)
  rw [List.append_nil] at hfront
  obtain ⟨s₁, hround, hfilled⟩ :=
    h.readRound_fills hconfig hstreams (Nat.le_refl 6) more hlen hfront
  obtain ⟨compacted, hcompacted, hused, hreserve⟩ :=
    hfilled.reserve hconfig h (Nat.le_of_lt hstreams) hstreams (Nat.le_refl 6)
  have hbuffer : streamRxBufferCap config = 6 * streamRxMaxCap config := by
    unfold streamRxBufferCap
    rw [if_pos hconfig.stride_lt, Nat.min_eq_right (Nat.le_of_lt hstreams)]
  have hstride := hconfig.stride_lt
  rw [if_neg (by omega)] at hreserve
  have hensure := @Filled.ensureRoom config s 6 6 hconfig front s₁ hfilled false _ hreserve
  have hstream : compacted.stream 6 =
      ⟨streamRxSmallStride config, streamRxSmallStride config, none⟩ := by
    rcases hcompacted.streams 6 with ⟨n, hn⟩
    rw [hn, hfilled.stream]
    rfl
  generalize hs₂ : s₁.moveRx (.reserve 6 (requiredRoom config (s₁.rx.stream 6).len)) compacted = s₂
    at hensure
  have hrx₂ : s₂.rx = compacted := by rw [← hs₂, moveRx_rx]
  have hlog₂ : s₂.log 6 = ⟨front, [], false, none⟩ := by rw [← hs₂, moveRx_log, hfilled.log]
  -- The stale `read_len` is what the first round read.
  let doubled : StreamRx := ⟨streamRxSmallStride config + front.length,
    streamRxSmallStride config, none⟩
  let s₃ := s₂.moveRx (.advance 6 front.length) (s₂.rx.setStream 6 doubled)
  have hpool : pool config (.advance 6 front.length) s₂ = (.ok (), s₃) := by
    apply pool_of_eq
    show (Except.ok (), s₂.rx.setStream 6 { s₂.rx.stream 6 with
      len := (s₂.rx.stream 6).len + front.length }) = (Except.ok (), s₂.rx.setStream 6 doubled)
    rw [hrx₂, hstream]
  have hdoubled : s₃.rx.stream 6 = doubled := Rx.setStream_self ..
  have hcontent : s₃.rx.content config 6 =
      front ++ compacted.bytes config 6 front.length front.length := by
    have hold : compacted.bytes config 6 0 front.length = front := by
      have hkept := (hcompacted.content 6 hstreams).trans hfilled.content
      unfold Rx.content at hkept
      rw [hstream] at hkept
      rw [hlen]
      exact hkept
    unfold Rx.content
    rw [hdoubled]
    show (s₂.rx.setStream 6 doubled).bytes config 6 0 (streamRxSmallStride config + front.length) = _
    have hbytes : (s₂.rx.setStream 6 doubled).bytes config 6 0
        (streamRxSmallStride config + front.length) =
        compacted.bytes config 6 0 (front.length + front.length) := by
      unfold Rx.bytes
      rw [Rx.setStream_self, hstream, hrx₂, hlen]
      rfl
    rw [hbytes, Rx.bytes_append, hold, Nat.zero_add]
  have hincomplete : (rpcFrames config).next (s₃.rx.content config 6) = .incomplete := by
    rw [hcontent]
    exact hnext _ (by simp)
  have hdecode := decodeAvailable_incomplete hincomplete
  rw [rxShrink_of_small (by rw [hdoubled])] at hdecode
  have hadd : addRead config 6 front.length s₂ = (.ok (), s₃.moveRx (.shrink 6) s₃.rx) := by
    have hpos := streamRxSmallStride_pos config
    have hnonempty : decide (front.length ≠ 0) = true := by
      simp only [decide_eq_true_eq]
      omega
    unfold addRead
    rw [Comp.bind_of_ok hpool, hnonempty]
    exact hdecode
  refine ⟨s₃.moveRx (.shrink 6) s₃.rx, ?_, ?_, ?_, hlog₂⟩
  · exact step_readable_of_rounds hstreams (h.opened 6 hstreams)
      (by rw [(h.idle 6 hstreams (Nat.le_refl 6)).2]; rfl) (arrived_size more hlen) hround
      (readRound_blocked hensure hadd)
  · show (s₃.rx.stream 6).len = _
    rw [hdoubled]
    show streamRxSmallStride config + front.length = _
    rw [hlen]
  · show (s₃.rx.stream 6).cap = _
    rw [hdoubled]

end Receiver

/-! ## A run -/

/-- Seven streams and frames of up to 20000 bytes; the shared buffer has room for six of them. -/
def RouterConfig.crowded : RouterConfig where
  toConfig := { RouterConfig.small.toConfig with
    limits := { defaultLimits with maxRpcBytes := 20000, maxMessageDataBytes := 4096 }
    capacity := { RouterConfig.small.capacity with maxStreams := 7 } }
  valid := by rfl
  storage_le := by
    unfold storageLowerBound streamRxBufferCap streamRxSmallStride streamRxMaxCap ptrdiffMax
    decide
  pruneBackoffUs_le := by
    unfold uint64Max
    decide

theorem crowded_oneRead : Receiver.OneRead RouterConfig.crowded.toConfig where
  buffer_lt := RouterConfig.crowded.streamRxBufferCap_lt
  stride_lt := by decide
  maxCap_le := by decide

/-- The first 4096 bytes of a frame with a body of 20000 bytes. -/
def longFront : Bytes := [0xa0, 0x9c, 0x01] ++ List.replicate 4093 0

theorem longFront_length : longFront.length = streamRxSmallStride RouterConfig.crowded.toConfig := by
  unfold longFront
  rw [List.length_append, List.length_replicate]
  rfl

/-- It takes more than as much again to complete the frame. -/
theorem longFront_incomplete (behind : Bytes) (h : behind.length < longFront.length + 1) :
    (rpcFrames RouterConfig.crowded.toConfig).next (longFront ++ behind) = .incomplete := by
  have hlen := longFront_length
  have hstride : streamRxSmallStride RouterConfig.crowded.toConfig = 4096 := rfl
  have hdecode : uvarintDecode (longFront ++ behind) = .ok (20000, 3) := by
    unfold longFront
    rw [List.append_assoc, uvarintDecode_append _ (by decide)]
    decide
  have hhead : (rpcFrames RouterConfig.crowded.toConfig).head (longFront ++ behind) =
      .header 3 20000 := by
    show rpcHead 20000 (longFront ++ behind) = _
    unfold rpcHead
    rw [hdecode]
    rfl
  unfold FrameFormat.next
  rw [hhead]
  dsimp only
  rw [List.length_append, if_pos (by omega)]

/-- Seven streams of one peer open. -/
def openSeven : List (ReceiverAction Host.StreamInput) :=
  (List.range 7).map fun n => .node (.streamOpen n 0 (.ok [1]) .inbound .v11) rfl

/-- A READABLE callback for each of the first six brings the front of a long frame. -/
def crowd : List (ReceiverAction Host.StreamInput) :=
  (List.range 6).map fun i => .readable i (Receiver.arrived longFront)

namespace Receiver

/-- The receiver once the first six streams wait for the rest of their frames. -/
def crowdedState : Receiver :=
  runFrom (step RouterConfig.crowded.toConfig hostSource) (init RouterConfig.crowded.toConfig)
    (openSeven ++ crowd)

theorem openSeven_crowded : Crowded RouterConfig.crowded.toConfig 0
    (runFrom (step RouterConfig.crowded.toConfig hostSource) (init RouterConfig.crowded.toConfig)
      openSeven) := by
  have hmeets : RunMeets (step RouterConfig.crowded.toConfig hostSource)
      (AddsOnce RouterConfig.crowded.toConfig hostSource) (init RouterConfig.crowded.toConfig)
      openSeven := ⟨trivial, trivial, trivial, trivial, trivial, trivial, trivial, trivial⟩
  refine ⟨(run_framed RouterConfig.crowded hostSource hmeets).toSound, ?_, ?_, ?_⟩
  · decide +kernel
  · intro i hi
    omega
  · intro i hi _
    revert i
    decide +kernel

theorem crowdedState_crowded : Crowded RouterConfig.crowded.toConfig 6 crowdedState := by
  have hfront := longFront_incomplete [] (by simp)
  rw [List.append_nil] at hfront
  have hfill : ∀ i, i < 6 → ∀ s, Crowded RouterConfig.crowded.toConfig i s →
      Crowded RouterConfig.crowded.toConfig (i + 1)
        (s.step RouterConfig.crowded.toConfig hostSource (.readable i (arrived longFront))) := by
    intro i hi s hs
    exact hs.fill crowded_oneRead (by show i < 7; omega) hi longFront_length hfront
  unfold crowdedState
  rw [runFrom_append]
  exact hfill 5 (by omega) _ (hfill 4 (by omega) _ (hfill 3 (by omega) _ (hfill 2 (by omega) _
    (hfill 1 (by omega) _ (hfill 0 (by omega) _ openSeven_crowded)))))

/-- The receiver once the seventh stream was read, too. -/
def overrunState : Receiver :=
  runFrom (step RouterConfig.crowded.toConfig hostSource) (init RouterConfig.crowded.toConfig)
    (openSeven ++ crowd ++ [.readable 6 (arrived longFront)])

theorem overrunState_spec :
    (overrunState.rx.stream 6).len = 8192 ∧ (overrunState.rx.stream 6).cap = 4096 ∧
      overrunState.log 6 = ⟨longFront, [], false, none⟩ := by
  obtain ⟨s', hread, hlen, hcap, hlog⟩ := crowdedState_crowded.overrun crowded_oneRead (by decide) []
    longFront_length longFront_incomplete
  rw [List.append_nil] at hread
  have hstate : overrunState = s' := by
    unfold overrunState
    rw [runFrom_append]
    exact congrArg Prod.snd hread
  rw [hstate]
  exact ⟨hlen, hcap, hlog⟩

/-- A stream holds more bytes than its buffer has. -/
theorem overrun_breaks_buffers : ¬ overrunState.rx.WellFormed RouterConfig.crowded.toConfig := by
  intro h
  have hlen := h.len_le 6 (by decide)
  rw [overrunState_spec.1, overrunState_spec.2.1] at hlen
  omega

/-- What a stream holds is not what it received. -/
theorem overrun_breaks_framing :
    ¬ (overrunState.log 6).Parsed RouterConfig.crowded.toConfig 6 hostSource.Fails
      (overrunState.rx.content RouterConfig.crowded.toConfig 6) := by
  have hfront := longFront_incomplete [] (by simp)
  rw [List.append_nil] at hfront
  have hlen : (overrunState.rx.content RouterConfig.crowded.toConfig 6).length = 8192 := by
    rw [Rx.content_length]
    exact overrunState_spec.1
  rw [overrunState_spec.2.2]
  intro h
  cases h with
  | reading _ hparse =>
    rw [FrameFormat.parse_incomplete hfront] at hparse
    have hpending := FrameEnd.incomplete.inj (Prod.mk.inj hparse).2
    rw [← hpending, longFront_length] at hlen
    exact absurd hlen (by decide)
  | malformed herror => cases herror
  | refused _ herror => cases herror
  | unreadable herror => cases herror

end Receiver

end LeanLibp2p.Gossipsub
