import LeanLibp2p.Quic.TxIntegrity

/-!
# Acknowledgement accounting

Calls of `quic_backend_stream_record_acked_range` one after the other, with the ranges they were
called with. The ranges that the stream records are compared with the union of those.
-/

namespace LeanLibp2p.Quic

open LeanLibp2p.Lib TxRun

variable {ranges : List AckRange}

/-- The arguments of a call. -/
structure AckCall where
  offset : Nat
  dataLen : Nat
  deriving DecidableEq, Repr

/-- A stream, the ranges that were acknowledged, and what the last call set `*out_sent_window_acked`
    to. -/
structure AckRun where
  stream : Stream
  acked : List AckRange := []
  windowAcked : Bool := false
  deriving DecidableEq, Repr

variable (run : AckRun) (call : AckCall)

namespace AckRun

/-- One call. A callback failure leaves the stream alone. -/
def step : AckRun :=
  let acked := run.acked ++ [⟨call.offset, call.offset + call.dataLen⟩]
  match run.stream.recordAckedRange call.offset call.dataLen with
  | none => ⟨run.stream, acked, false⟩
  | some (stream, windowAcked) => ⟨stream, acked, windowAcked⟩

/-- The offset is in `[tx_base_offset, tx_base_offset + tx_sent_len)`. -/
def InWindow (stream : Stream) (k : Nat) : Prop :=
  stream.txBaseOffset ≤ k ∧ k < stream.txBaseOffset + stream.txSentLen

/-- The recorded ranges are sorted, disjoint and non-adjacent, and their union is that of the
    acknowledged ranges, cut to the sent window. -/
structure Exact (run : AckRun) : Prop where
  separated : run.stream.txAckRanges.Pairwise fun range range' => range.stop < range'.start
  nonempty : ∀ range ∈ run.stream.txAckRanges, range.start < range.stop
  union : ∀ k, Covers run.stream.txAckRanges k ↔ InWindow run.stream k ∧ Covers run.acked k

/-- The whole sent window was acknowledged. -/
def Complete : Prop := ∀ k, InWindow run.stream k → Covers run.acked k

/-- The call that completes the window reports it, and none before. -/
def Signals : Prop :=
  ((run.step call).windowAcked = true → (run.step call).Complete) ∧
    ((run.step call).Complete → ¬ run.Complete → (run.step call).windowAcked = true)

/-- Where the part of a call in the window starts and ends. -/
def partStart : Nat := max call.offset run.stream.txBaseOffset

def partEnd : Nat :=
  min (call.offset + call.dataLen) (run.stream.txBaseOffset + run.stream.txSentLen)

/-- The call has nothing in the window that is not recorded already, or its end and the window's are 64-bit
    numbers and what is to be recorded joins a recorded range or finds a free entry. -/
def Fits : Prop :=
  run.partEnd call ≤ run.partStart call ∨
    (∃ range ∈ run.stream.txAckRanges,
      range.start ≤ run.partStart call ∧ run.partEnd call ≤ range.stop) ∨
    (call.dataLen ≤ sizeMax - call.offset ∧ run.stream.txSentLen ≤ run.stream.txLen ∧
      run.stream.txSentLen ≤ sizeMax - run.stream.txBaseOffset ∧
      (run.stream.txAckRanges.length < streamAckRangeCap ∨
        ∃ range ∈ run.stream.txAckRanges,
          range.start ≤ run.partEnd call ∧ run.partStart call ≤ range.stop))

instance : Decidable (run.Fits call) :=
  inferInstanceAs (Decidable (_ ∨ _ ∨ _))

/-! ## Merging -/

theorem mergeAckRange_cons (start stop : Nat) (range : AckRange) (ranges : List AckRange) :
    Stream.mergeAckRange start stop (range :: ranges) =
      if range.stop < start then
        (range :: (Stream.mergeAckRange start stop ranges).1,
          (Stream.mergeAckRange start stop ranges).2.1,
          (Stream.mergeAckRange start stop ranges).2.2)
      else if stop < range.start then ([], ⟨start, stop⟩, range :: ranges)
      else Stream.mergeAckRange (min range.start start) (max range.stop stop) ranges := rfl

/-- What lies above a bound stays above it. -/
theorem mergeAckRange_above {bound : Nat} :
    ∀ {start stop : Nat}, bound < start → (∀ range ∈ ranges, bound < range.start) →
      ∀ range ∈ (Stream.mergeAckRange start stop ranges).1 ++
        (Stream.mergeAckRange start stop ranges).2.1 ::
          (Stream.mergeAckRange start stop ranges).2.2, bound < range.start := by
  induction ranges with
  | nil => simp [Stream.mergeAckRange]
  | cons first ranges ih =>
    intro start stop hstart hranges
    obtain ⟨hfirst, hrest⟩ := List.forall_mem_cons.mp hranges
    rw [mergeAckRange_cons]
    split
    · rw [List.cons_append]
      exact List.forall_mem_cons.mpr ⟨hfirst, ih hstart hrest⟩
    · split
      · simp only [List.nil_append, List.mem_cons, forall_eq_or_imp]
        exact ⟨hstart, hfirst, hrest⟩
      · exact ih (lt_min hfirst hstart) hrest

/-- Merging a range into separate ranges leaves separate ranges. -/
theorem mergeAckRange_separated (hsep : ranges.Pairwise fun range range' => range.stop < range'.start)
    (hne : ∀ range ∈ ranges, range.start < range.stop) :
    ∀ {start stop : Nat}, start < stop →
      ((Stream.mergeAckRange start stop ranges).1 ++
        (Stream.mergeAckRange start stop ranges).2.1 ::
          (Stream.mergeAckRange start stop ranges).2.2).Pairwise
        (fun range range' => range.stop < range'.start) ∧
      ∀ range ∈ (Stream.mergeAckRange start stop ranges).1 ++
        (Stream.mergeAckRange start stop ranges).2.1 ::
          (Stream.mergeAckRange start stop ranges).2.2, range.start < range.stop := by
  induction ranges with
  | nil => simp [Stream.mergeAckRange]
  | cons first ranges ih =>
    intro start stop hlt
    obtain ⟨hfirst, hsep⟩ := List.pairwise_cons.mp hsep
    obtain ⟨hne₁, hne⟩ := List.forall_mem_cons.mp hne
    rw [mergeAckRange_cons]
    split
    · rename_i hbelow
      obtain ⟨hsep', hne'⟩ := ih hsep hne hlt
      rw [List.cons_append]
      exact ⟨List.pairwise_cons.mpr ⟨mergeAckRange_above hbelow hfirst, hsep'⟩,
        List.forall_mem_cons.mpr ⟨hne₁, hne'⟩⟩
    · split
      · rename_i habove
        simp only [List.nil_append]
        refine ⟨List.pairwise_cons.mpr ⟨?_, List.pairwise_cons.mpr ⟨hfirst, hsep⟩⟩,
          List.forall_mem_cons.mpr ⟨hlt, List.forall_mem_cons.mpr ⟨hne₁, hne⟩⟩⟩
        intro range hrange
        rcases List.mem_cons.mp hrange with rfl | hrange
        · exact habove
        · have hgap := hfirst range hrange
          dsimp only
          omega
      · exact ih hsep hne (by omega)

/-- Merging covers what was covered, and the new range. -/
theorem mergeAckRange_covers_iff {k : Nat} :
    ∀ {start stop : Nat},
      Covers ((Stream.mergeAckRange start stop ranges).1 ++
        (Stream.mergeAckRange start stop ranges).2.1 ::
          (Stream.mergeAckRange start stop ranges).2.2) k ↔
        (start ≤ k ∧ k < stop) ∨ Covers ranges k := by
  intro start stop
  refine ⟨mergeAckRange_covers, ?_⟩
  induction ranges generalizing start stop with
  | nil =>
    intro h
    simpa [Stream.mergeAckRange, Covers] using h
  | cons first ranges ih =>
    intro h
    rw [covers_cons] at h
    rw [mergeAckRange_cons]
    split
    · rw [List.cons_append, covers_cons]
      rcases h with h | h | h
      · exact .inr (ih (.inl h))
      · exact .inl h
      · exact .inr (ih (.inr h))
    · split
      · rw [List.nil_append, covers_cons, covers_cons]
        exact h
      · refine ih ?_
        rcases h with h | h | h
        · left
          omega
        · left
          omega
        · exact .inr h

/-- A range that joins another one takes no further entry. -/
theorem mergeAckRange_length : ∀ {start stop : Nat},
    (Stream.mergeAckRange start stop ranges).1.length +
        (Stream.mergeAckRange start stop ranges).2.2.length ≤ ranges.length ∧
      ((∃ range ∈ ranges, range.start ≤ stop ∧ start ≤ range.stop) →
        (∀ range ∈ ranges, range.start < range.stop) →
        ranges.Pairwise (fun range range' => range.stop < range'.start) →
        (Stream.mergeAckRange start stop ranges).1.length +
          (Stream.mergeAckRange start stop ranges).2.2.length < ranges.length) := by
  induction ranges with
  | nil => simp [Stream.mergeAckRange]
  | cons first ranges ih =>
    intro start stop
    rw [mergeAckRange_cons]
    split
    · rename_i hbelow
      obtain ⟨hle, hlt⟩ := @ih start stop
      simp only [List.length_cons]
      refine ⟨by omega, ?_⟩
      rintro ⟨range, hmem, htouch⟩ hne hsep
      rcases List.mem_cons.mp hmem with rfl | hmem
      · omega
      · have hlt := hlt ⟨range, hmem, htouch⟩ (fun range h => hne range (List.mem_cons_of_mem _ h))
          hsep.of_cons
        omega
    · split
      · rename_i habove
        refine ⟨by simp, ?_⟩
        rintro ⟨range, hmem, htouch⟩ hne hsep
        rcases List.mem_cons.mp hmem with rfl | hmem
        · omega
        · have hgap := (List.pairwise_cons.mp hsep).1 range hmem
          have hfirst := hne first List.mem_cons_self
          omega
      · obtain ⟨hle, -⟩ := @ih (min first.start start) (max first.stop stop)
        rw [List.length_cons]
        exact ⟨by omega, fun _ _ _ => by omega⟩

/-- A range without room is lost; any other is recorded. -/
theorem insertAckRange_cases (start stop : Nat) (ranges : List AckRange) :
    Stream.insertAckRange start stop ranges =
      if (Stream.mergeAckRange start stop ranges).1.length +
          (Stream.mergeAckRange start stop ranges).2.2.length < streamAckRangeCap then
        (Stream.mergeAckRange start stop ranges).1 ++
          (Stream.mergeAckRange start stop ranges).2.1 ::
            (Stream.mergeAckRange start stop ranges).2.2
      else (Stream.mergeAckRange start stop ranges).1 ++
        (Stream.mergeAckRange start stop ranges).2.2 := rfl

/-- A range that joins none takes an entry of its own. -/
theorem mergeAckRange_apart : ∀ {start stop : Nat},
    (∀ range ∈ ranges, ¬ (range.start ≤ stop ∧ start ≤ range.stop)) →
      (Stream.mergeAckRange start stop ranges).1 ++ (Stream.mergeAckRange start stop ranges).2.2 =
        ranges := by
  induction ranges with
  | nil => simp [Stream.mergeAckRange]
  | cons first ranges ih =>
    intro start stop h
    obtain ⟨hfirst, hrest⟩ := List.forall_mem_cons.mp h
    rw [mergeAckRange_cons]
    split
    · rw [List.cons_append, ih hrest]
    · split
      · rfl
      · omega

/-- Separate ranges that cover a stretch cover it with one of them. -/
theorem exists_range_of_covers {start stop : Nat} (hlt : start < stop)
    (hsep : ranges.Pairwise fun range range' => range.stop < range'.start)
    (hcovers : ∀ k, start ≤ k → k < stop → Covers ranges k) :
    ∃ range ∈ ranges, range.start ≤ start ∧ stop ≤ range.stop := by
  obtain ⟨range, hmem, hstart, hstop⟩ := hcovers start (Nat.le_refl start) hlt
  refine ⟨range, hmem, hstart, ?_⟩
  by_contra hshort
  obtain ⟨other, hother, hle, hgt⟩ := hcovers range.stop (by omega) (by omega)
  have hne : range ≠ other := by
    rintro rfl
    omega
  have hapart : range.stop < other.start ∨ other.stop < range.start :=
    List.Pairwise.forall_of_forall_of_flip
      (R := fun range range' => range = range' ∨ range.stop < range'.start ∨
        range'.stop < range.start) (fun _ _ => .inl rfl)
      (hsep.imp fun h => .inr (.inl h)) (hsep.imp fun h => .inr (.inr h)) hmem hother
      |>.resolve_left hne
  omega

/-! ## One call -/

variable {run : AckRun} {call : AckCall}

/-- A call changes nothing but the recorded ranges. -/
theorem step_window (run : AckRun) (call : AckCall) :
    (run.step call).stream = { run.stream with txAckRanges := (run.step call).stream.txAckRanges } ∧
      (run.step call).acked = run.acked ++ [⟨call.offset, call.offset + call.dataLen⟩] := by
  have hrecord : ∀ {stream acked}, run.stream.recordAckedRange call.offset call.dataLen =
      some (stream, acked) → stream = { run.stream with txAckRanges := stream.txAckRanges } := by
    intro stream acked h
    unfold Stream.recordAckedRange at h
    split at h
    · cases h
    · split at h
      · cases h
        rfl
      · dsimp only at h
        split at h <;> cases h <;> rfl
  unfold step
  rcases hcall : run.stream.recordAckedRange call.offset call.dataLen with _ | ⟨stream, acked⟩
  · exact ⟨rfl, rfl⟩
  · exact ⟨hrecord hcall, rfl⟩

theorem step_inWindow {k : Nat} : InWindow (run.step call).stream k ↔ InWindow run.stream k := by
  rw [(step_window run call).1]
  exact Iff.rfl

theorem step_txSentLen : (run.step call).stream.txSentLen = run.stream.txSentLen := by
  rw [(step_window run call).1]

/-- What a call adds to the acknowledged part of the window. -/
theorem step_covers {k : Nat} : InWindow run.stream k ∧ Covers (run.step call).acked k ↔
    (InWindow run.stream k ∧ Covers run.acked k) ∨
      (run.partStart call ≤ k ∧ k < run.partEnd call) := by
  rw [(step_window run call).2, covers_append, and_or_left, covers_cons]
  simp only [InWindow, partStart, partEnd, Covers, List.not_mem_nil, false_and, exists_false, or_false]
  constructor
  · rintro (h | ⟨h, h'⟩)
    · exact .inl h
    · right
      omega
  · rintro (h | h)
    · exact .inl h
    · right
      omega

/-- The window is complete when the recorded ranges cover it. -/
theorem Exact.complete_iff (h : run.Exact) :
    run.Complete ↔ ∀ k, InWindow run.stream k → Covers run.stream.txAckRanges k :=
  forall₂_congr fun k hk => ⟨fun hcov => (h.union k).mpr ⟨hk, hcov⟩, fun hcov => ((h.union k).mp hcov).2⟩

/-- The test of `quic_backend_stream_record_acked_range` for the whole window. -/
theorem Exact.complete_iff_first (h : run.Exact) (hsent : 0 < run.stream.txSentLen) :
    run.Complete ↔ ∃ first rest, run.stream.txAckRanges = first :: rest ∧
      first.start ≤ run.stream.txBaseOffset ∧
        run.stream.txBaseOffset + run.stream.txSentLen ≤ first.stop := by
  rw [h.complete_iff]
  constructor
  · intro hall
    obtain ⟨range, hmem, hstart, hstop⟩ := exists_range_of_covers
      (Nat.lt_add_of_pos_right hsent) h.separated fun k hk hk' => hall k ⟨hk, hk'⟩
    rcases hranges : run.stream.txAckRanges with _ | ⟨first, rest⟩
    · rw [hranges] at hmem
      cases hmem
    · refine ⟨first, rest, rfl, ?_⟩
      have hfirst : first ∈ run.stream.txAckRanges := hranges ▸ List.mem_cons_self
      have hlow : InWindow run.stream first.start :=
        ((h.union first.start).mp ⟨first, hfirst, Nat.le_refl _, h.nonempty first hfirst⟩).1
      have hne := h.nonempty first hfirst
      rw [hranges] at hmem
      rcases List.mem_cons.mp hmem with rfl | hmem
      · exact ⟨hstart, hstop⟩
      · have hsep := h.separated
        rw [hranges] at hsep
        have hgap := (List.pairwise_cons.mp hsep).1 range hmem
        have hbase := hlow.1
        omega
  · rintro ⟨first, rest, hranges, hstart, hstop⟩ k ⟨hk, hk'⟩
    refine ⟨first, hranges ▸ List.mem_cons_self, ?_⟩
    omega

/-- A call that records nothing keeps the accounting exact where it has nothing new. -/
theorem Exact.of_same (h : run.Exact)
    (hsame : (run.step call).stream.txAckRanges = run.stream.txAckRanges)
    (hpart : ∀ k, run.partStart call ≤ k → k < run.partEnd call →
      Covers run.stream.txAckRanges k) :
    (run.step call).Exact ∧ ((run.step call).Complete ↔ run.Complete) := by
  have hunion : ∀ k, Covers run.stream.txAckRanges k ↔
      InWindow run.stream k ∧ Covers (run.step call).acked k := by
    intro k
    rw [step_covers, ← h.union k]
    exact ⟨.inl, fun hk => hk.elim id fun hk => hpart k hk.1 hk.2⟩
  have hexact : (run.step call).Exact := by
    refine ⟨hsame ▸ h.separated, hsame ▸ h.nonempty, fun k => ?_⟩
    rw [hsame, step_inWindow]
    exact hunion k
  refine ⟨hexact, ?_⟩
  rw [hexact.complete_iff, h.complete_iff, hsame]
  exact forall_congr' fun k => by rw [step_inWindow]

/-- The arguments and the window pass the checks of `quic_backend_stream_record_acked_range`. -/
def Accepted (run : AckRun) (call : AckCall) : Prop :=
  call.dataLen ≤ sizeMax - call.offset ∧ run.stream.txSentLen ≤ run.stream.txLen ∧
    run.stream.txSentLen ≤ sizeMax - run.stream.txBaseOffset

theorem step_refused (h : ¬ run.Accepted call) :
    (run.step call).stream.txAckRanges = run.stream.txAckRanges ∧
      (run.step call).windowAcked = false := by
  have hrecord : run.stream.recordAckedRange call.offset call.dataLen = none := by
    unfold Stream.recordAckedRange
    refine if_pos ?_
    unfold Accepted at h
    omega
  unfold step
  rw [hrecord]
  exact ⟨rfl, rfl⟩

theorem step_idle (h : run.partEnd call ≤ run.partStart call) :
    (run.step call).stream.txAckRanges = run.stream.txAckRanges ∧
      (run.step call).windowAcked = false := by
  have hnone : ¬ max call.offset run.stream.txBaseOffset <
      min (call.offset + call.dataLen) (run.stream.txBaseOffset + run.stream.txSentLen) :=
    Nat.not_lt.mpr h
  unfold step Stream.recordAckedRange
  by_cases hrefused : sizeMax - call.offset < call.dataLen ∨ run.stream.txLen < run.stream.txSentLen ∨
      sizeMax - run.stream.txBaseOffset < run.stream.txSentLen
  · rw [if_pos hrefused]
    exact ⟨rfl, rfl⟩
  · rw [if_neg hrefused]
    by_cases hempty : call.dataLen = 0 ∨ run.stream.txSentLen = 0
    · rw [if_pos hempty]
      exact ⟨rfl, rfl⟩
    · rw [if_neg hempty]
      dsimp only
      rw [if_neg hnone]
      exact ⟨rfl, rfl⟩

theorem step_records (h : run.Accepted call) (hsent : 0 < run.stream.txSentLen)
    (hpart : run.partStart call < run.partEnd call) :
    (run.step call).stream.txAckRanges =
        Stream.insertAckRange (run.partStart call) (run.partEnd call) run.stream.txAckRanges ∧
      ((run.step call).windowAcked = true ↔
        ∃ first rest, (run.step call).stream.txAckRanges = first :: rest ∧
          first.start ≤ run.stream.txBaseOffset ∧
            run.stream.txBaseOffset + run.stream.txSentLen ≤ first.stop) := by
  have hlen : ¬ (call.dataLen = 0 ∨ run.stream.txSentLen = 0) := by
    unfold partStart partEnd at hpart
    omega
  have hsome : max call.offset run.stream.txBaseOffset <
      min (call.offset + call.dataLen) (run.stream.txBaseOffset + run.stream.txSentLen) := hpart
  unfold step Stream.recordAckedRange
  rw [if_neg (by unfold Accepted at h; omega), if_neg hlen]
  dsimp only
  rw [if_pos hsome]
  refine ⟨rfl, ?_⟩
  dsimp only
  split
  · rename_i hnil
    simp [hnil]
  · rename_i first rest hcons
    simp [hcons]

/-- The fixed array of ranges is never overrun. -/
theorem step_bounded (hcap : run.stream.txAckRanges.length ≤ streamAckRangeCap)
    (hsent : 0 < run.stream.txSentLen) :
    (run.step call).stream.txAckRanges.length ≤ streamAckRangeCap := by
  by_cases hpart : run.partEnd call ≤ run.partStart call
  · rw [(step_idle hpart).1]
    exact hcap
  by_cases haccepted : run.Accepted call
  · rw [(step_records haccepted hsent (Nat.not_le.mp hpart)).1, insertAckRange_cases]
    obtain ⟨hle, -⟩ := @mergeAckRange_length run.stream.txAckRanges (run.partStart call)
      (run.partEnd call)
    split
    · rw [List.length_append, List.length_cons]
      omega
    · rw [List.length_append]
      omega
  · rw [(step_refused haccepted).1]
    exact hcap

/-- A call that fits finds an entry for what is to be recorded. -/
theorem Fits.room (h : run.Exact) (hcap : run.stream.txAckRanges.length ≤ streamAckRangeCap)
    (hpart : run.partStart call < run.partEnd call) (hfits : run.Fits call) :
    (Stream.mergeAckRange (run.partStart call) (run.partEnd call) run.stream.txAckRanges).1.length +
        (Stream.mergeAckRange (run.partStart call) (run.partEnd call)
          run.stream.txAckRanges).2.2.length < streamAckRangeCap := by
  obtain ⟨hle, hjoin⟩ := @mergeAckRange_length run.stream.txAckRanges (run.partStart call)
    (run.partEnd call)
  have hjoins : (∃ range ∈ run.stream.txAckRanges,
      range.start ≤ run.partEnd call ∧ run.partStart call ≤ range.stop) →
      (Stream.mergeAckRange (run.partStart call) (run.partEnd call)
          run.stream.txAckRanges).1.length + (Stream.mergeAckRange (run.partStart call)
            (run.partEnd call) run.stream.txAckRanges).2.2.length < streamAckRangeCap :=
    fun htouch => Nat.lt_of_lt_of_le (hjoin htouch h.nonempty h.separated) hcap
  rcases hfits with hfits | ⟨range, hmem, hrange⟩ | ⟨-, -, -, hfree | htouch⟩
  · omega
  · exact hjoins ⟨range, hmem, by omega⟩
  · omega
  · exact hjoins htouch

/-- A call that fits is accounted for. -/
theorem Exact.step (h : run.Exact) (hcap : run.stream.txAckRanges.length ≤ streamAckRangeCap)
    (hsent : 0 < run.stream.txSentLen) (hfits : run.Fits call) :
    (run.step call).Exact ∧ run.Signals call := by
  have hquiet : (run.step call).stream.txAckRanges = run.stream.txAckRanges →
      (run.step call).windowAcked = false →
      (∀ k, run.partStart call ≤ k → k < run.partEnd call → Covers run.stream.txAckRanges k) →
      (run.step call).Exact ∧ run.Signals call := by
    intro hsame hflag hpart
    obtain ⟨hexact, hcomplete⟩ := h.of_same hsame hpart
    refine ⟨hexact, ?_, fun hafter hbefore => absurd (hcomplete.mp hafter) hbefore⟩
    intro htrue
    rw [hflag] at htrue
    cases htrue
  by_cases hpart : run.partEnd call ≤ run.partStart call
  · obtain ⟨hsame, hflag⟩ := step_idle hpart
    exact hquiet hsame hflag fun k hk hk' => by omega
  rw [Nat.not_le] at hpart
  by_cases haccepted : run.Accepted call
  · obtain ⟨hranges, hflag⟩ := step_records haccepted hsent hpart
    rw [insertAckRange_cases, if_pos (hfits.room h hcap hpart)] at hranges
    obtain ⟨hsep, hne⟩ := mergeAckRange_separated h.separated h.nonempty hpart
    have hexact : (run.step call).Exact := by
      refine ⟨hranges ▸ hsep, hranges ▸ hne, fun k => ?_⟩
      rw [hranges, mergeAckRange_covers_iff, step_inWindow, step_covers, h.union k, or_comm]
    have hreports : (run.step call).windowAcked = true ↔ (run.step call).Complete := by
      rw [hflag, hexact.complete_iff_first (by rwa [step_txSentLen]), (step_window run call).1]
    exact ⟨hexact, hreports.mp, fun hafter _ => hreports.mpr hafter⟩
  · obtain ⟨hsame, hflag⟩ := step_refused haccepted
    refine hquiet hsame hflag ?_
    rcases hfits with hfits | ⟨range, hmem, hrange⟩ | ⟨h₁, h₂, h₃, -⟩
    · omega
    · exact fun k hk hk' => ⟨range, hmem, by omega⟩
    · exact absurd ⟨h₁, h₂, h₃⟩ haccepted

/-- A call that is accounted for fits. -/
theorem Exact.fits (h : run.Exact) (hsent : 0 < run.stream.txSentLen)
    (hexact : (run.step call).Exact) : run.Fits call := by
  by_contra hfits
  unfold Fits at hfits
  simp only [not_or] at hfits
  obtain ⟨hpart, hnew, hfull⟩ := hfits
  rw [Nat.not_le] at hpart
  -- the recorded ranges are as before, but would have to cover the part of the call
  have hsame : (run.step call).stream.txAckRanges = run.stream.txAckRanges := by
    by_cases haccepted : run.Accepted call
    · have hfull : ¬ (run.stream.txAckRanges.length < streamAckRangeCap ∨
          ∃ range ∈ run.stream.txAckRanges,
            range.start ≤ run.partEnd call ∧ run.partStart call ≤ range.stop) :=
        fun hroom => hfull ⟨haccepted.1, haccepted.2.1, haccepted.2.2, hroom⟩
      obtain ⟨hcount, hapart⟩ := not_or.mp hfull
      have hmerge := @mergeAckRange_apart run.stream.txAckRanges (run.partStart call)
        (run.partEnd call) fun range hmem htouch => hapart ⟨range, hmem, htouch⟩
      have hlen := congrArg List.length hmerge
      rw [List.length_append] at hlen
      rw [(step_records haccepted hsent hpart).1, insertAckRange_cases, if_neg (by omega), hmerge]
    · exact (step_refused haccepted).1
  refine hnew (exists_range_of_covers hpart h.separated fun k hk hk' => ?_)
  have hcovers : InWindow run.stream k ∧ Covers (run.step call).acked k := step_covers.mpr (.inr ⟨hk, hk'⟩)
  rw [← hsame]
  exact (hexact.union k).mpr ⟨step_inWindow.mpr hcovers.1, hcovers.2⟩

/-- The calls are accounted for one after the other exactly as long as they fit. -/
theorem runMeets_exact_iff {calls : List AckCall} : ∀ {run : AckRun}, run.Exact →
    run.stream.txAckRanges.length ≤ streamAckRangeCap → 0 < run.stream.txSentLen →
    (RunMeets step (fun run call => (run.step call).Exact ∧ run.Signals call) run calls ↔
      RunMeets step Fits run calls) := by
  induction calls with
  | nil => exact fun _ _ _ => Iff.rfl
  | cons call calls ih =>
    intro run h hcap hsent
    have hnext : (run.step call).Exact →
        (RunMeets step (fun run call => (run.step call).Exact ∧ run.Signals call)
          (run.step call) calls ↔ RunMeets step Fits (run.step call) calls) :=
      fun hexact => ih hexact (step_bounded hcap hsent) (by rwa [step_txSentLen])
    constructor
    · rintro ⟨⟨hexact, _⟩, hrest⟩
      exact ⟨h.fits hsent hexact, (hnext hexact).mp hrest⟩
    · rintro ⟨hfits, hrest⟩
      obtain ⟨hexact, hsignals⟩ := h.step hcap hsent hfits
      exact ⟨⟨hexact, hsignals⟩, (hnext hexact).mpr hrest⟩

/-- The accounting of a stream with nothing recorded is exact. -/
theorem exact_start {stream : Stream} (h : stream.txAckRanges = []) : Exact ⟨stream, [], false⟩ := by
  constructor <;> simp [h, Covers]

/-- Any calls on a stream that has sent something are accounted for exactly if each of them fits. -/
theorem acked_exact_iff (stream : Stream) (calls : List AckCall) (hsent : 0 < stream.txSentLen)
    (hranges : stream.txAckRanges = []) :
    RunMeets step (fun run call => (run.step call).Exact ∧ run.Signals call) ⟨stream, [], false⟩
        calls ↔
      RunMeets step Fits ⟨stream, [], false⟩ calls :=
  runMeets_exact_iff (exact_start hranges) (by simp [hranges]) hsent

/-- A stream with 65 bytes in flight. -/
def sentStream : Stream := { txBytes := List.replicate 65 0, txSentLen := 65, txCap := 65 }

theorem acked_exact_iff_sentStream :
    RunMeets step (fun run call => (run.step call).Exact ∧ run.Signals call) ⟨sentStream, [], false⟩
        [⟨32, 33⟩, ⟨0, 40⟩] ↔
      RunMeets step Fits ⟨sentStream, [], false⟩ [⟨32, 33⟩, ⟨0, 40⟩] :=
  acked_exact_iff sentStream [⟨32, 33⟩, ⟨0, 40⟩] (by decide) rfl

/-- Of 33 bytes with gaps between them, the last one is not recorded. -/
theorem acked_not_exact : ¬ ∀ (stream : Stream) (calls : List AckCall), 0 < stream.txSentLen →
    stream.txAckRanges = [] →
    RunMeets step (fun run call => (run.step call).Exact ∧ run.Signals call) ⟨stream, [], false⟩
      calls := by
  intro hall
  have hfits := (runMeets_exact_iff (exact_start rfl) (by decide) (by decide)).mp
    (hall sentStream ((List.range 33).map fun i => ⟨2 * i, 1⟩) (by decide) rfl)
  revert hfits
  decide +kernel

end AckRun

end LeanLibp2p.Quic
