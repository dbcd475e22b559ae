import LeanLibp2p.Lib.Run
import LeanLibp2p.Quic.StreamTx

/-!
# Transmit data integrity

A stream between the application, the peer and ngtcp2, with the history of what was accepted from
the one and handed to the other. A byte that was handed over is remembered with the place in memory
it was handed over from, since ngtcp2 keeps a pointer to it until it is acknowledged.
-/

namespace LeanLibp2p.Quic

open LeanLibp2p.Lib

/-- A byte in ngtcp2's keeping: its value and the place the pointer leads to. -/
structure Handed where
  byte : UInt8
  data : Option Nat
  index : Nat
  deriving DecidableEq, Repr

/-- What was offered to ngtcp2 at a stream offset, and how many bytes it took with the packet;
    `none` where the packet was not written or had nothing of the stream. -/
structure Offer where
  offset : Nat
  bytes : Bytes
  fin : Bool
  taken : Option Nat
  deriving DecidableEq, Repr

/-- A stream and its history. `shut` is set once the write side is shut down by a reset, `gone` once
    ngtcp2 has closed the stream. -/
structure TxRun where
  stream : Stream := {}
  allocs : Nat := 0
  accepted : Bytes := []
  offers : List Offer := []
  taken : List Handed := []
  acked : List AckRange := []
  shut : Bool := false
  gone : Bool := false
  deriving DecidableEq, Repr

/-- What can happen to a stream. The answers of the allocator and of the event queue come with it. -/
inductive TxAction where
  | write (data : Bytes) (fin allocated pushed : Bool)
  | datagram (taken : Option Nat) (pushed : Bool)
  | ack (offset dataLen : Nat) (allocated pushed : Bool)
  | reset (shut pushed : Bool)
  | close (appError : Bool)
  | remoteReset
  | receive (data : Bytes) (fin : Bool)
  deriving DecidableEq, Repr

namespace TxRun

/-- The next allocation, where there is memory. -/
def alloc (run : TxRun) (allocated : Bool) : Option Nat := if allocated then some run.allocs else none

/-- The places of the next `n` bytes to be handed over. -/
def handed (run : TxRun) (n : Nat) : List Handed :=
  (run.stream.offeredBytes.take n).mapIdx fun j byte =>
    ⟨byte, run.stream.txData, run.stream.txSentLen + j⟩

/-- One thing happens, in a stream with the given initial window. -/
def step (window : Nat) (run : TxRun) : TxAction → TxRun
  | .write data fin allocated pushed =>
    let written := run.stream.write window data fin (run.alloc allocated) pushed
    { run with
      stream := written.stream
      allocs := run.allocs + 1
      accepted := run.accepted ++ data.take written.accepted }
  | .datagram taken pushed =>
    if run.stream.wantsTx then
      let run := { run with
        offers := run.offers ++
          [⟨run.taken.length, run.stream.offeredBytes, run.stream.offeredFin, taken⟩] }
      match taken with
      | none => run
      | some n =>
        { run with
          taken := run.taken ++ run.handed n
          stream := run.stream.sent n run.stream.offeredFin pushed }
    else run
  | .ack offset dataLen allocated pushed =>
    { run with
      stream := (run.stream.reclaimAcked offset dataLen (run.alloc allocated) pushed).1
      allocs := run.allocs + 1
      acked := run.acked ++ [⟨offset, offset + dataLen⟩] }
  | .reset shut pushed =>
    { run with
      stream := (run.stream.resetStream (if shut then .ok () else .error .backend) pushed).2
      shut := run.shut || (run.stream.state.live && shut) }
  | .close appError => { run with stream := run.stream.closeCb appError, gone := true }
  | .remoteReset => { run with stream := run.stream.resetCb }
  | .receive data fin => { run with stream := run.stream.recvData data fin }

/-- What ngtcp2 promises: it takes at most what it is offered, and nothing once the write side is
    shut down or the stream closed; a closed stream has no more callbacks. Acknowledgements may come
    in any order, overlap and repeat. -/
def Allows (run : TxRun) : TxAction → Prop
  | .datagram (some n) _ =>
    n ≤ run.stream.offeredBytes.length ∧ run.shut = false ∧ run.gone = false
  | .ack .. | .close .. | .remoteReset | .receive .. => run.gone = false
  | _ => True

instance (run : TxRun) (action : TxAction) : Decidable (run.Allows action) := by
  unfold Allows
  split <;> infer_instance

/-- The byte at this stream offset was acknowledged. -/
def Acked (run : TxRun) (k : Nat) : Prop := ∃ range ∈ run.acked, range.start ≤ k ∧ k < range.stop

/-- The integrity of the transmit data, for a given retained limit. -/
structure Integrity (limit : Nat) (run : TxRun) : Prop where
  /-- What is offered at a stream offset are the accepted bytes from there on. -/
  offered : ∀ o ∈ run.offers, o.bytes <+: run.accepted.drop o.offset
  /-- What ngtcp2 took is a prefix of what was accepted, at its own offset. -/
  taken : run.taken.map Handed.byte <+: run.accepted
  /-- A byte that was handed over is where it was and what it was until it is acknowledged. -/
  retained : run.shut = false → run.gone = false → ∀ (k : Nat) (h : Handed),
    run.taken[k]? = some h → ¬ run.Acked k →
      h.data = run.stream.txData ∧ run.stream.txBytes[h.index]? = some h.byte
  sentLen : run.stream.txSentLen ≤ run.stream.txLen
  len : run.stream.txLen ≤ run.stream.txCap
  limit : run.stream.txLen ≤ limit
  /-- A FIN is offered after the last accepted byte. -/
  fin : ∀ o ∈ run.offers, o.fin = true → o.bytes = [] ∧ o.offset = run.accepted.length
  /-- After a FIN was taken, nothing is offered. -/
  finOnce : run.offers.Pairwise fun o _ => ¬ (o.fin = true ∧ o.taken.isSome)

/-! ## One function at a time -/

/-- The offset is in one of the ranges. -/
def Covers (ranges : List AckRange) (k : Nat) : Prop :=
  ∃ range ∈ ranges, range.start ≤ k ∧ k < range.stop

theorem covers_append {ranges ranges' : List AckRange} {k : Nat} :
    Covers (ranges ++ ranges') k ↔ Covers ranges k ∨ Covers ranges' k := by
  simp [Covers, or_and_right, exists_or]

theorem covers_cons {range : AckRange} {ranges : List AckRange} {k : Nat} :
    Covers (range :: ranges) k ↔ (range.start ≤ k ∧ k < range.stop) ∨ Covers ranges k := by
  simp [Covers]

/-- Merging covers nothing new. -/
theorem mergeAckRange_covers {ranges : List AckRange} {k : Nat} :
    ∀ {start stop : Nat},
      Covers ((Stream.mergeAckRange start stop ranges).1 ++
        (Stream.mergeAckRange start stop ranges).2.1 ::
          (Stream.mergeAckRange start stop ranges).2.2) k →
        (start ≤ k ∧ k < stop) ∨ Covers ranges k := by
  induction ranges with
  | nil =>
    intro start stop h
    simp only [Stream.mergeAckRange, List.nil_append, covers_cons] at h
    exact h
  | cons range ranges ih =>
    intro start stop h
    unfold Stream.mergeAckRange at h
    rw [covers_cons]
    split at h
    · rw [List.cons_append, covers_cons] at h
      rcases h with h | h
      · exact .inr (.inl h)
      · exact (ih h).imp_right .inr
    · rename_i hbelow
      split at h
      · rw [List.nil_append, covers_cons, covers_cons] at h
        exact h
      · rename_i habove
        rcases ih h with h | h
        · by_cases hin : range.start ≤ k ∧ k < range.stop
          · exact .inr (.inl hin)
          · left
            omega
        · exact .inr (.inr h)

theorem insertAckRange_covers {start stop k : Nat} {ranges : List AckRange}
    (h : Covers (Stream.insertAckRange start stop ranges) k) :
    (start ≤ k ∧ k < stop) ∨ Covers ranges k := by
  unfold Stream.insertAckRange at h
  apply mergeAckRange_covers
  dsimp only at h
  split at h
  · exact h
  · rw [covers_append] at h ⊢
    rw [covers_cons]
    exact h.imp_right .inr

/-- The capacity that is asked for is enough and within the limit. -/
theorem nextTxCap_bounds {required limit : Nat} (currentCap : Nat) (h : required ≤ limit) :
    required ≤ Stream.nextTxCap currentCap required limit ∧
      Stream.nextTxCap currentCap required limit ≤ limit := by
  unfold Stream.nextTxCap
  dsimp only
  omega

/-- A buffer is only given up while nothing of it is in ngtcp2's keeping. -/
theorem reserveTx_spec {required limit : Nat} {alloc : Option Nat} {s s' : Stream}
    (h : s.reserveTx required limit alloc = .ok s') :
    ∃ data cap, s' = { s with txData := data, txCap := cap } ∧ required ≤ cap ∧
      (data = s.txData ∨ s.txSentLen = 0) := by
  unfold Stream.reserveTx at h
  split at h
  · split at h
    · cases h
    · rename_i hsent
      dsimp only at h
      split at h
      · cases h
      · rename_i hcap
        cases alloc with
        | none => cases h
        | some data =>
          injection h with h
          exact ⟨some data, _, h.symm, by omega, .inr (by omega)⟩
  · rename_i hcap
    injection h with h
    exact ⟨s.txData, s.txCap, h.symm, by omega, .inl rfl⟩

theorem shrinkTx_spec (alloc : Option Nat) {s : Stream} (hlen : s.txLen ≤ s.txCap) :
    ∃ data cap, s.shrinkTx alloc = { s with txData := data, txCap := cap } ∧ s.txLen ≤ cap ∧
      (data = s.txData ∨ s.txSentLen = 0) := by
  unfold Stream.shrinkTx
  split
  · rename_i hsent
    split
    · rename_i hzero
      exact ⟨none, 0, rfl, by omega, .inr hsent⟩
    · split
      · dsimp only
        split
        · cases alloc with
          | none => exact ⟨s.txData, s.txCap, rfl, hlen, .inl rfl⟩
          | some data =>
            exact ⟨some data, _, rfl, (nextTxCap_bounds 0 hlen).1, .inr hsent⟩
        · exact ⟨s.txData, s.txCap, rfl, hlen, .inl rfl⟩
      · exact ⟨s.txData, s.txCap, rfl, hlen, .inl rfl⟩
  · exact ⟨s.txData, s.txCap, rfl, hlen, .inl rfl⟩

/-- What is taken of a write fits behind what is there. -/
theorem reserveWrite_spec {window dataLen n : Nat} {alloc : Option Nat} {s s' : Stream}
    (h : s.reserveWrite window dataLen alloc = .ok (n, s')) :
    (s.state.live = true ∧ s.localFinQueued = false ∧ s.localReset = false) ∧
      ∃ data cap, s' = { s with txData := data, txCap := cap } ∧ n ≤ dataLen ∧
        s.txLen + n ≤ cap ∧ s.txLen + n ≤ Stream.retainedLimit window ∧
        (data = s.txData ∨ s.txSentLen = 0) := by
  simp only [Stream.reserveWrite, Stream.validate, bind, Except.bind, pure, Except.pure, throw,
    throwThe, MonadExceptOf.throw] at h
  by_cases hlive : s.state.live = true
  · rw [if_pos hlive] at h
    by_cases hfin : s.localFinQueued = true ∨ s.localReset = true
    · simp [hfin] at h
    · simp only [hfin, if_false] at h
      repeat (split at h; · cases h)
      rename_i hlimit
      have hfacts : s.state.live = true ∧ s.localFinQueued = false ∧ s.localReset = false := by
        simpa [hlive] using hfin
      split at h
      · cases hreserve : s.reserveTx (s.txLen + min dataLen (Stream.retainedLimit window - s.txLen))
          (Stream.retainedLimit window) alloc with
        | error e => rw [hreserve] at h; cases h
        | ok reserved =>
          rw [hreserve] at h
          simp only [Except.ok.injEq, Prod.mk.injEq] at h
          obtain ⟨rfl, rfl⟩ := h
          obtain ⟨data, cap, hs', hcap, hdata⟩ := reserveTx_spec hreserve
          exact ⟨hfacts, data, cap, hs', Nat.min_le_left _ _, hcap, by omega, hdata⟩
      · rename_i hcap
        simp only [Except.ok.injEq, Prod.mk.injEq] at h
        obtain ⟨rfl, rfl⟩ := h
        exact ⟨hfacts, s.txData, s.txCap, rfl, Nat.min_le_left _ _, by omega, by omega, .inl rfl⟩
  · simp [hlive] at h

/-- A write takes nothing, or appends a prefix of its bytes to a live stream that is not finished. -/
theorem write_spec (window : Nat) (data : Bytes) (fin : Bool) (alloc : Option Nat) (pushed : Bool)
    (s : Stream) :
    (∃ blocked, (s.write window data fin alloc pushed).accepted = 0 ∧
        (s.write window data fin alloc pushed).stream = { s with writeBlocked := blocked }) ∨
      (s.state.live = true ∧ s.localFinQueued = false ∧ s.localReset = false) ∧
        ∃ n txData cap queued blocked,
          (s.write window data fin alloc pushed).accepted = n ∧
          (s.write window data fin alloc pushed).stream =
            { s with
              txData := txData
              txCap := cap
              txBytes := s.txBytes ++ data.take n
              localFinQueued := queued
              writeBlocked := blocked } ∧
          s.txLen + (data.take n).length ≤ cap ∧
          s.txLen + (data.take n).length ≤ Stream.retainedLimit window ∧
          (txData = s.txData ∨ s.txSentLen = 0) := by
  unfold Stream.write
  cases hreserve : s.reserveWrite window data.length alloc with
  | error e => cases e <;> exact .inl ⟨_, rfl, rfl⟩
  | ok p =>
    obtain ⟨n, s'⟩ := p
    obtain ⟨hfacts, txData, cap, rfl, hn, hcap, hlimit, hdata⟩ := reserveWrite_spec hreserve
    have hlen : (data.take n).length = n := by simp [hn]
    right
    cases pushed
    · exact ⟨hfacts, n, txData, cap, _, _, rfl, rfl, by omega, by omega, hdata⟩
    · exact ⟨hfacts, n, txData, cap, _, _, rfl, rfl, by omega, by omega, hdata⟩

theorem wakeBlockedWriter_spec (pushed : Bool) (s : Stream) :
    ∃ blocked, (Stream.wakeBlockedWriter pushed s).1 = { s with writeBlocked := blocked } := by
  unfold Stream.wakeBlockedWriter
  split
  · split
    · exact ⟨false, rfl⟩
    · exact ⟨s.writeBlocked, rfl⟩
  · exact ⟨s.writeBlocked, rfl⟩

theorem reclaimed_len {s : Stream} (ranges : List AckRange) (hlen : s.txLen ≤ s.txCap) :
    ({ s with
      txBaseOffset := s.txBaseOffset + s.txSentLen
      txBytes := s.txBytes.drop s.txSentLen
      txSentLen := 0
      txAckRanges := ranges } : Stream).txLen ≤ s.txCap := by
  show (s.txBytes.drop s.txSentLen).length ≤ s.txCap
  unfold Stream.txLen at hlen
  rw [List.length_drop]
  omega

/-- An acknowledgement may add to the ranges; once they cover all that was sent, the window moves
    behind it. -/
theorem reclaimAcked_spec {offset dataLen : Nat} {alloc : Option Nat} {pushed : Bool} {s : Stream}
    (hlen : s.txLen ≤ s.txCap) :
    (∃ ranges blocked,
      (s.reclaimAcked offset dataLen alloc pushed).1 =
        { s with txAckRanges := ranges, writeBlocked := blocked } ∧
      ∀ k, Covers ranges k → (offset ≤ k ∧ k < offset + dataLen) ∨ Covers s.txAckRanges k) ∨
    ∃ txData cap blocked,
      (s.reclaimAcked offset dataLen alloc pushed).1 =
        { s with
          txData := txData
          txCap := cap
          txBaseOffset := s.txBaseOffset + s.txSentLen
          txBytes := s.txBytes.drop s.txSentLen
          txSentLen := 0
          txAckRanges := []
          writeBlocked := blocked } ∧
      s.txLen - s.txSentLen ≤ cap ∧
      ∀ k, s.txBaseOffset ≤ k → k < s.txBaseOffset + s.txSentLen →
        (offset ≤ k ∧ k < offset + dataLen) ∨ Covers s.txAckRanges k := by
  unfold Stream.reclaimAcked
  cases hrecord : s.recordAckedRange offset dataLen with
  | none => exact .inl ⟨s.txAckRanges, s.writeBlocked, rfl, fun _ h => .inr h⟩
  | some p =>
    obtain ⟨s', acked⟩ := p
    unfold Stream.recordAckedRange at hrecord
    split at hrecord
    · cases hrecord
    · rename_i hsane
      split at hrecord
      · injection hrecord with h
        obtain ⟨rfl, rfl⟩ := Prod.mk.inj h
        exact .inl ⟨s.txAckRanges, s.writeBlocked, rfl, fun _ h => .inr h⟩
      · dsimp only at hrecord
        split at hrecord
        · injection hrecord with h
          obtain ⟨rfl, hacked⟩ := Prod.mk.inj h
          have hnew : ∀ k, Covers (Stream.insertAckRange (max offset s.txBaseOffset)
              (min (offset + dataLen) (s.txBaseOffset + s.txSentLen)) s.txAckRanges) k →
              (offset ≤ k ∧ k < offset + dataLen) ∨ Covers s.txAckRanges k := by
            intro k hk
            rcases insertAckRange_covers hk with hk | hk
            · left
              omega
            · exact .inr hk
          cases acked with
          | false => exact .inl ⟨_, s.writeBlocked, rfl, hnew⟩
          | true =>
            right
            obtain ⟨txData, cap, hshrink, hcap, -⟩ := shrinkTx_spec alloc (reclaimed_len
              (Stream.insertAckRange (max offset s.txBaseOffset)
                (min (offset + dataLen) (s.txBaseOffset + s.txSentLen)) s.txAckRanges) hlen)
            obtain ⟨blocked, hwake⟩ := wakeBlockedWriter_spec pushed { s with
              txData := txData
              txCap := cap
              txBaseOffset := s.txBaseOffset + s.txSentLen
              txBytes := s.txBytes.drop s.txSentLen
              txSentLen := 0
              txAckRanges := [] }
            refine ⟨txData, cap, blocked, ?_, ?_, ?_⟩
            · rw [← hwake]
              dsimp only
              rw [hshrink]
            · simpa [Stream.txLen] using hcap
            · intro k hbase hsent
              apply hnew
              cases hranges : Stream.insertAckRange (max offset s.txBaseOffset)
                (min (offset + dataLen) (s.txBaseOffset + s.txSentLen)) s.txAckRanges with
              | nil => simp [hranges] at hacked
              | cons first ranges =>
                simp only [hranges, decide_eq_true_eq] at hacked
                exact ⟨first, by simp, by omega, by omega⟩
        · injection hrecord with h
          obtain ⟨rfl, rfl⟩ := Prod.mk.inj h
          exact .inl ⟨s.txAckRanges, s.writeBlocked, rfl, fun _ h => .inr h⟩

theorem discardTx_eq (s : Stream) :
    s.discardTx =
      { s with
        txData := none
        txCap := 0
        txBaseOffset := min (s.txBaseOffset + s.txSentLen) sizeMax
        txBytes := []
        txSentLen := 0
        txAckRanges := []
        localFinQueued := false
        localFinSent := false
        writeBlocked := false } := rfl

theorem wakeAfterTxDrain_spec (pushed : Bool) (s : Stream) :
    ∃ blocked, s.wakeAfterTxDrain pushed = { s with writeBlocked := blocked } := by
  unfold Stream.wakeAfterTxDrain
  split
  · exact ⟨false, rfl⟩
  · exact ⟨s.writeBlocked, rfl⟩

/-- After a packet the sent part has grown; a FIN that went with it is sent. -/
theorem sent_spec (n : Nat) (fin pushed : Bool) (s : Stream) :
    ∃ blocked finSent state,
      s.sent n fin pushed =
        { s with
          txSentLen := s.txSentLen + n
          localFinSent := finSent
          state := state
          writeBlocked := blocked } ∧
      (finSent = s.localFinSent ∨ finSent = true ∧ fin = true ∧ s.txSentLen + n = s.txLen) ∧
      (fin = true → s.txSentLen + n = s.txLen → finSent = true) := by
  obtain ⟨blocked, hwake⟩ :=
    wakeAfterTxDrain_spec pushed { s with txSentLen := s.txSentLen + n }
  unfold Stream.sent
  rw [hwake]
  dsimp only
  split
  · rename_i hfin
    exact ⟨blocked, true, _, rfl, .inr ⟨rfl, hfin⟩, fun _ _ => rfl⟩
  · rename_i hfin
    exact ⟨blocked, s.localFinSent, s.state, rfl, .inl rfl, fun h h' => absurd ⟨h, h'⟩ hfin⟩

/-! ## The invariant -/

/-- The buffer is the window of the accepted bytes that starts at the base offset, and ngtcp2 holds
    pointers into its sent part. -/
structure InWindow (run : TxRun) : Prop where
  base : run.stream.txBaseOffset + run.stream.txSentLen = run.taken.length
  bytes : run.accepted.drop run.stream.txBaseOffset = run.stream.txBytes
  placed : ∀ (k : Nat) (h : Handed), run.taken[k]? = some h → run.stream.txBaseOffset ≤ k →
    h.data = run.stream.txData ∧ h.index = k - run.stream.txBaseOffset
  acked : ∀ k < run.stream.txBaseOffset, run.Acked k
  ranges : ∀ k, Covers run.stream.txAckRanges k → run.Acked k

/-- What every state of a stream satisfies. -/
structure Buffered (limit : Nat) (run : TxRun) : Prop where
  sentLen : run.stream.txSentLen ≤ run.stream.txLen
  len : run.stream.txLen ≤ run.stream.txCap
  limit : run.stream.txLen ≤ limit
  takenLen : run.taken.length ≤ run.accepted.length
  taken : run.taken.map Handed.byte = run.accepted.take run.taken.length
  window : run.shut = false → run.gone = false → InWindow run
  shut : run.shut = true → run.stream.localReset = true
  gone : run.gone = true → run.stream.state.live = false
  ended : run.shut = true ∨ run.gone = true →
    run.stream.txBytes = [] ∧ run.stream.localFinQueued = false
  finSent : run.stream.localFinSent = true →
    run.stream.localFinQueued = true ∧ run.stream.txSentLen = run.stream.txLen
  offered : ∀ o ∈ run.offers, o.bytes <+: run.accepted.drop o.offset
  fin : ∀ o ∈ run.offers, o.fin = true → (o.bytes = [] ∧ o.offset = run.accepted.length) ∧
    (run.stream.localFinQueued = true ∨ run.shut = true ∨ run.gone = true)
  finTaken : ∀ o ∈ run.offers, o.fin = true → o.taken.isSome = true →
    run.stream.localFinSent = true ∨ run.shut = true ∨ run.gone = true
  finOnce : run.offers.Pairwise fun o _ => ¬ (o.fin = true ∧ o.taken.isSome)

variable {limit window : Nat} {run : TxRun}

variable (h : Buffered limit run)

include h

/-- A stream whose write side is over has nothing to send. -/
theorem Buffered.live_of_wantsTx (hwants : run.stream.wantsTx = true) :
    run.shut = false ∧ run.gone = false ∧ run.stream.localFinSent = false := by
  have hover : ¬ (run.shut = true ∨ run.gone = true) := by
    intro hover
    obtain ⟨hbytes, hqueued⟩ := h.ended hover
    simp [Stream.wantsTx, Stream.txLen, hbytes, hqueued] at hwants
  have hsent : run.stream.localFinSent ≠ true := by
    intro hsent
    have hlen := (h.finSent hsent).2
    simp [Stream.wantsTx, hsent, hlen] at hwants
  simp only [not_or, Bool.not_eq_true] at hover hsent
  exact ⟨hover.1, hover.2, hsent⟩

/-- Where a write was taken, nothing was finished before. -/
theorem Buffered.open_of_writable (hlive : run.stream.state.live = true)
    (hqueued : run.stream.localFinQueued = false) (hreset : run.stream.localReset = false) :
    run.shut = false ∧ run.gone = false ∧ run.stream.localFinSent = false := by
  refine ⟨?_, ?_, ?_⟩
  · cases hshut : run.shut with
    | false => rfl
    | true => rw [h.shut hshut] at hreset; cases hreset
  · cases hgone : run.gone with
    | false => rfl
    | true => rw [h.gone hgone] at hlive; cases hlive
  · cases hsent : run.stream.localFinSent with
    | false => rfl
    | true => rw [(h.finSent hsent).1] at hqueued; cases hqueued

omit h in
theorem Buffered.write (h : Buffered (Stream.retainedLimit window) run) (data : Bytes)
    (fin allocated pushed : Bool) :
    Buffered (Stream.retainedLimit window) (run.step window (.write data fin allocated pushed)) := by
  rcases write_spec window data fin (run.alloc allocated) pushed run.stream with
    ⟨blocked, hnone, hstream⟩ | ⟨⟨hlive, hqueued, hreset⟩, n, txData, cap, queued, blocked, hn,
      hstream, hcap, hlimit, hdata⟩
  · have hstep : run.step window (.write data fin allocated pushed) =
        { run with
          stream := { run.stream with writeBlocked := blocked }
          allocs := run.allocs + 1 } := by
      simp only [step, hnone, hstream, List.take_zero, List.append_nil]
    rw [hstep]
    exact ⟨h.sentLen, h.len, h.limit, h.takenLen, h.taken,
      fun hs hg => ⟨(h.window hs hg).base, (h.window hs hg).bytes, (h.window hs hg).placed,
        (h.window hs hg).acked, (h.window hs hg).ranges⟩,
      h.shut, h.gone, h.ended, h.finSent, h.offered, h.fin, h.finTaken, h.finOnce⟩
  · obtain ⟨hshut, hgone, hsent⟩ := h.open_of_writable hlive hqueued hreset
    have hwindow := h.window hshut hgone
    have hstep : run.step window (.write data fin allocated pushed) =
        { run with
          stream := { run.stream with
            txData := txData
            txCap := cap
            txBytes := run.stream.txBytes ++ data.take n
            localFinQueued := queued
            writeBlocked := blocked }
          allocs := run.allocs + 1
          accepted := run.accepted ++ data.take n } := by
      simp only [step, hn, hstream]
    have hnofin : ∀ o ∈ run.offers, o.fin = true → False := by
      intro o ho hofin
      rcases (h.fin o ho hofin).2 with hq | hs | hg
      · rw [hqueued] at hq; cases hq
      · rw [hshut] at hs; cases hs
      · rw [hgone] at hg; cases hg
    have hlen := h.sentLen
    have htaken := h.takenLen
    have hbase := hwindow.base
    rw [hstep]
    refine ⟨?_, ?_, ?_, ?_, ?_, ?_, ?_, ?_, ?_, ?_, ?_, ?_, ?_, h.finOnce⟩
    · simp only [Stream.txLen, List.length_append] at hlen ⊢
      omega
    · simp only [Stream.txLen, List.length_append] at hcap ⊢
      exact hcap
    · simp only [Stream.txLen, List.length_append] at hlimit ⊢
      exact hlimit
    · simp only [List.length_append]
      omega
    · rw [h.taken, List.take_append_of_le_length htaken]
    · intro _ _
      refine ⟨hwindow.base, ?_, ?_, hwindow.acked, hwindow.ranges⟩
      · have hle : run.stream.txBaseOffset ≤ run.accepted.length := by omega
        show (run.accepted ++ data.take n).drop run.stream.txBaseOffset = _
        rw [List.drop_append_of_le_length hle, hwindow.bytes]
      · intro k hd hk hle
        obtain ⟨hsame, hindex⟩ := hwindow.placed k hd hk hle
        refine ⟨?_, hindex⟩
        rcases hdata with hdata | hzero
        · rw [hsame, hdata]
        · have hlt : k < run.taken.length := (List.getElem?_eq_some_iff.mp hk).1
          have hle' : run.stream.txBaseOffset ≤ k := hle
          omega
    · intro hs; rw [hshut] at hs; cases hs
    · intro hg; rw [hgone] at hg; cases hg
    · rintro (hs | hg)
      · rw [hshut] at hs; cases hs
      · rw [hgone] at hg; cases hg
    · intro hs; rw [hsent] at hs; cases hs
    · intro o ho
      exact (h.offered o ho).trans (by
        rw [List.drop_append]
        exact List.prefix_append _ _)
    · intro o ho hofin; exact (hnofin o ho hofin).elim
    · intro o ho hofin; exact (hnofin o ho hofin).elim

/-- What is offered is what was accepted and not taken; a FIN is offered behind all of it. -/
theorem Buffered.offer (hwindow : InWindow run) :
    run.stream.offeredBytes = run.accepted.drop run.taken.length ∧
      (run.stream.offeredFin = true → run.stream.offeredBytes = [] ∧
        run.taken.length = run.accepted.length ∧ run.stream.localFinQueued = true ∧
          run.stream.txSentLen = run.stream.txLen) := by
  have hoffered : run.stream.offeredBytes = run.accepted.drop run.taken.length := by
    unfold Stream.offeredBytes
    rw [← hwindow.bytes, List.drop_drop, hwindow.base]
  refine ⟨hoffered, ?_⟩
  intro hfin
  simp only [Stream.offeredFin, Bool.and_eq_true, decide_eq_true_eq] at hfin
  have hnil : run.stream.offeredBytes = [] := by
    unfold Stream.offeredBytes
    rw [hfin.2]
    exact List.drop_length
  refine ⟨hnil, ?_, hfin.1.1, hfin.2⟩
  rw [hoffered, List.drop_eq_nil_iff] at hnil
  have htaken := h.takenLen
  omega

/-- No FIN was taken before an offer. -/
theorem Buffered.finOnce_offer (hwants : run.stream.wantsTx = true) (o : Offer) :
    (run.offers ++ [o]).Pairwise fun o _ => ¬ (o.fin = true ∧ o.taken.isSome) := by
  obtain ⟨hshut, hgone, hsent⟩ := h.live_of_wantsTx hwants
  refine List.pairwise_append.mpr ⟨h.finOnce, List.pairwise_singleton _ _, ?_⟩
  rintro old hold _ - ⟨hfin, htaken⟩
  rcases h.finTaken old hold hfin htaken with hs | hs | hg
  · rw [hsent] at hs; cases hs
  · rw [hshut] at hs; cases hs
  · rw [hgone] at hg; cases hg

theorem Buffered.datagram_none (pushed : Bool) :
    Buffered limit (run.step window (.datagram none pushed)) := by
  by_cases hwants : run.stream.wantsTx = true
  · obtain ⟨hshut, hgone, hsent⟩ := h.live_of_wantsTx hwants
    have hwindow := h.window hshut hgone
    obtain ⟨hoffered, hfin⟩ := h.offer hwindow
    have hstep : run.step window (.datagram none pushed) =
        { run with offers := run.offers ++
            [⟨run.taken.length, run.stream.offeredBytes, run.stream.offeredFin, none⟩] } := by
      simp only [step, if_pos hwants]
    rw [hstep]
    refine ⟨h.sentLen, h.len, h.limit, h.takenLen, h.taken,
      fun hs hg => ⟨(h.window hs hg).base, (h.window hs hg).bytes, (h.window hs hg).placed,
        (h.window hs hg).acked, (h.window hs hg).ranges⟩,
      h.shut, h.gone, h.ended, h.finSent, ?_, ?_, ?_, h.finOnce_offer hwants _⟩
    · intro o ho
      rcases List.mem_append.mp ho with ho | ho
      · exact h.offered o ho
      · have hnew := List.mem_singleton.mp ho
        refine ⟨[], ?_⟩
        rw [List.append_nil, hnew]
        exact hoffered
    · intro o ho hofin
      rcases List.mem_append.mp ho with ho | ho
      · exact h.fin o ho hofin
      · rw [List.mem_singleton.mp ho] at hofin ⊢
        obtain ⟨hnil, hend, hqueued, -⟩ := hfin hofin
        exact ⟨⟨hnil, hend⟩, .inl hqueued⟩
    · intro o ho hofin htaken
      rcases List.mem_append.mp ho with ho | ho
      · exact h.finTaken o ho hofin htaken
      · rw [List.mem_singleton.mp ho] at htaken
        cases htaken
  · have hstep : run.step window (.datagram none pushed) = run := by
      simp only [step, if_neg hwants]
    rw [hstep]
    exact h

omit h

theorem handed_byte (run : TxRun) (n : Nat) :
    (run.handed n).map Handed.byte = run.stream.offeredBytes.take n := by
  unfold handed
  apply List.ext_getElem?
  intro j
  simp only [List.getElem?_map, List.getElem?_mapIdx, Option.map_map]
  exact congrFun Option.map_id _

theorem handed_length {n : Nat} (hn : n ≤ run.stream.offeredBytes.length) :
    (run.handed n).length = n := by
  simp [handed, hn]

theorem handed_place {n j : Nat} {hd : Handed} (h : (run.handed n)[j]? = some hd) :
    hd.data = run.stream.txData ∧ hd.index = run.stream.txSentLen + j := by
  unfold handed at h
  rw [List.getElem?_mapIdx, Option.map_eq_some_iff] at h
  obtain ⟨byte, -, rfl⟩ := h
  exact ⟨rfl, rfl⟩

include h

theorem Buffered.datagram_some {n : Nat} {pushed : Bool}
    (hallows : run.Allows (.datagram (some n) pushed)) :
    Buffered limit (run.step window (.datagram (some n) pushed)) := by
  obtain ⟨hn, hshut, hgone⟩ := hallows
  by_cases hwants : run.stream.wantsTx = true
  · have hwindow := h.window hshut hgone
    obtain ⟨-, -, hsent⟩ := h.live_of_wantsTx hwants
    obtain ⟨hoffered, hfin⟩ := h.offer hwindow
    obtain ⟨blocked, finSent, state, hstream, hfinSent, hfinSent'⟩ :=
      sent_spec n run.stream.offeredFin pushed run.stream
    have hstep : run.step window (.datagram (some n) pushed) =
        { run with
          offers := run.offers ++
            [⟨run.taken.length, run.stream.offeredBytes, run.stream.offeredFin, some n⟩]
          taken := run.taken ++ run.handed n
          stream := { run.stream with
            txSentLen := run.stream.txSentLen + n
            localFinSent := finSent
            state := state
            writeBlocked := blocked } } := by
      simp only [step, if_pos hwants]
      rw [hstream]
      rfl
    have hhanded := handed_length hn
    have hroom : run.stream.txSentLen + n ≤ run.stream.txLen := by
      have hlen := h.sentLen
      simp only [Stream.offeredBytes, List.length_drop] at hn
      unfold Stream.txLen at hlen ⊢
      omega
    have hleft : run.taken.length + n ≤ run.accepted.length := by
      have htaken := h.takenLen
      rw [hoffered, List.length_drop] at hn
      omega
    rw [hstep]
    refine ⟨hroom, h.len, h.limit, ?_, ?_, ?_, h.shut, ?_, h.ended, ?_, ?_, ?_, ?_,
      h.finOnce_offer hwants _⟩
    · simp only [List.length_append, hhanded]
      exact hleft
    · simp only [List.length_append, hhanded, List.map_append, handed_byte, h.taken, hoffered]
      exact (List.take_add ..).symm
    · intro _ _
      refine ⟨?_, hwindow.bytes, ?_, hwindow.acked, hwindow.ranges⟩
      · simp only [List.length_append, hhanded, ← hwindow.base]
        omega
      · intro k hd hk hle
        have hk' : (run.taken ++ run.handed n)[k]? = some hd := hk
        by_cases hlt : k < run.taken.length
        · rw [List.getElem?_append_left hlt] at hk'
          exact hwindow.placed k hd hk' hle
        · rw [List.getElem?_append_right (by omega)] at hk'
          obtain ⟨hdata, hindex⟩ := handed_place hk'
          have hbase := hwindow.base
          exact ⟨hdata, by show hd.index = k - run.stream.txBaseOffset; omega⟩
    · intro hg; rw [hgone] at hg; cases hg
    · intro hs
      rcases hfinSent with hold | ⟨-, hofin, hall⟩
      · rw [show finSent = true from hs, hsent] at hold
        cases hold
      · exact ⟨(hfin hofin).2.2.1, hall⟩
    · intro o ho
      rcases List.mem_append.mp ho with ho | ho
      · exact h.offered o ho
      · have hnew := List.mem_singleton.mp ho
        refine ⟨[], ?_⟩
        rw [List.append_nil, hnew]
        exact hoffered
    · intro o ho hofin
      rcases List.mem_append.mp ho with ho | ho
      · exact h.fin o ho hofin
      · rw [List.mem_singleton.mp ho] at hofin ⊢
        obtain ⟨hnil, hend, hqueued, -⟩ := hfin hofin
        exact ⟨⟨hnil, hend⟩, .inl hqueued⟩
    · intro o ho hofin htaken
      rcases List.mem_append.mp ho with ho | ho
      · rcases h.finTaken o ho hofin htaken with hs | hs | hg
        · rw [hsent] at hs; cases hs
        · exact .inr (.inl hs)
        · exact .inr (.inr hg)
      · rw [List.mem_singleton.mp ho] at hofin
        obtain ⟨hnil, -, -, hall⟩ := hfin hofin
        rw [hnil, List.length_nil, Nat.le_zero] at hn
        exact .inl (hfinSent' hofin (by omega))
  · have hstep : run.step window (.datagram (some n) pushed) = run := by
      simp only [step, if_neg hwants]
    rw [hstep]
    exact h

theorem Buffered.ack {offset dataLen : Nat} {allocated pushed : Bool} :
    Buffered limit (run.step window (.ack offset dataLen allocated pushed)) := by
  have hacked : ∀ k, run.Acked k ∨ (offset ≤ k ∧ k < offset + dataLen) →
      Covers (run.acked ++ [⟨offset, offset + dataLen⟩]) k := by
    intro k hk
    rw [covers_append, covers_cons]
    exact hk.imp_right .inl
  rcases @reclaimAcked_spec offset dataLen (run.alloc allocated) pushed run.stream h.len with
    ⟨ranges, blocked, hstream, hcovers⟩ | ⟨txData, cap, blocked, hstream, hcap, hcovers⟩
  · have hstep : run.step window (.ack offset dataLen allocated pushed) =
        { run with
          stream := { run.stream with txAckRanges := ranges, writeBlocked := blocked }
          allocs := run.allocs + 1
          acked := run.acked ++ [⟨offset, offset + dataLen⟩] } := by
      simp only [step, hstream]
    rw [hstep]
    refine ⟨h.sentLen, h.len, h.limit, h.takenLen, h.taken, ?_, h.shut, h.gone, h.ended, h.finSent,
      h.offered, h.fin, h.finTaken, h.finOnce⟩
    intro hs hg
    have hwindow := h.window hs hg
    refine ⟨hwindow.base, hwindow.bytes, hwindow.placed, ?_, ?_⟩
    · intro k hk
      exact hacked k (.inl (hwindow.acked k hk))
    · intro k hk
      exact hacked k ((hcovers k hk).symm.imp_left (hwindow.ranges k))
  · have hstep : run.step window (.ack offset dataLen allocated pushed) =
        { run with
          stream := { run.stream with
            txData := txData
            txCap := cap
            txBaseOffset := run.stream.txBaseOffset + run.stream.txSentLen
            txBytes := run.stream.txBytes.drop run.stream.txSentLen
            txSentLen := 0
            txAckRanges := []
            writeBlocked := blocked }
          allocs := run.allocs + 1
          acked := run.acked ++ [⟨offset, offset + dataLen⟩] } := by
      simp only [step, hstream]
    have hlen : (run.stream.txBytes.drop run.stream.txSentLen).length =
        run.stream.txLen - run.stream.txSentLen := List.length_drop
    rw [hstep]
    refine ⟨Nat.zero_le _, ?_, ?_, h.takenLen, h.taken, ?_, h.shut, h.gone, ?_, ?_, h.offered, h.fin,
      h.finTaken, h.finOnce⟩
    · show (run.stream.txBytes.drop run.stream.txSentLen).length ≤ cap
      omega
    · show (run.stream.txBytes.drop run.stream.txSentLen).length ≤ limit
      have hlimit := h.limit
      omega
    · intro hs hg
      have hwindow := h.window hs hg
      have hbase := hwindow.base
      refine ⟨hwindow.base, ?_, ?_, ?_, ?_⟩
      · show run.accepted.drop (run.stream.txBaseOffset + run.stream.txSentLen) =
          run.stream.txBytes.drop run.stream.txSentLen
        rw [← hwindow.bytes, List.drop_drop]
      · intro k hd hk hle
        have hlt : k < run.taken.length := (List.getElem?_eq_some_iff.mp hk).1
        have hle' : run.stream.txBaseOffset + run.stream.txSentLen ≤ k := hle
        omega
      · intro k hk
        have hk' : k < run.stream.txBaseOffset + run.stream.txSentLen := hk
        apply hacked
        by_cases hbelow : k < run.stream.txBaseOffset
        · exact .inl (hwindow.acked k hbelow)
        · exact (hcovers k (by omega) hk').symm.imp_left (hwindow.ranges k)
      · rintro k ⟨range, hmem, -⟩
        cases hmem
    · intro hover
      obtain ⟨hbytes, hqueued⟩ := h.ended hover
      refine ⟨?_, hqueued⟩
      show run.stream.txBytes.drop run.stream.txSentLen = []
      rw [hbytes, List.drop_nil]
    · intro hs
      obtain ⟨hqueued, hall⟩ := h.finSent hs
      refine ⟨hqueued, ?_⟩
      show 0 = (run.stream.txBytes.drop run.stream.txSentLen).length
      omega

/-- Discarding the buffer is sound once ngtcp2 has let go of it. -/
theorem Buffered.discard {stream : Stream} {shut gone : Bool} (hover : shut = true ∨ gone = true)
    (hbytes : stream.txBytes = []) (hsent : stream.txSentLen = 0)
    (hqueued : stream.localFinQueued = false) (hfinSent : stream.localFinSent = false)
    (hshut : shut = true → stream.localReset = true)
    (hgone : gone = true → stream.state.live = false) :
    Buffered limit { run with stream := stream, shut := shut, gone := gone } := by
  have hlen : stream.txLen = 0 := by rw [Stream.txLen, hbytes, List.length_nil]
  refine ⟨?_, ?_, ?_, h.takenLen, h.taken, ?_, hshut, hgone, fun _ => ⟨hbytes, hqueued⟩, ?_,
    h.offered, ?_, fun _ _ _ _ => .inr hover, h.finOnce⟩
  · show stream.txSentLen ≤ stream.txLen
    omega
  · show stream.txLen ≤ stream.txCap
    omega
  · show stream.txLen ≤ limit
    omega
  · intro hs hg
    have hs' : shut = false := hs
    have hg' : gone = false := hg
    rw [hs', hg'] at hover
    simp at hover
  · intro hs
    have hs' : stream.localFinSent = true := hs
    rw [hfinSent] at hs'
    cases hs'
  · intro o ho hofin
    exact ⟨(h.fin o ho hofin).1, .inr hover⟩

theorem Buffered.reset (shut pushed : Bool) :
    Buffered limit (run.step window (.reset shut pushed)) := by
  unfold step Stream.resetStream Stream.validate
  by_cases hlive : run.stream.state.live = true
  · cases shut with
    | false => simpa [hlive] using h
    | true =>
      simp only [hlive, if_true, Bool.and_self, Bool.or_true]
      refine h.discard (.inl rfl) rfl rfl rfl rfl (fun _ => rfl) ?_
      intro hg
      rw [h.gone hg] at hlive
      cases hlive
  · simpa [hlive] using h

theorem Buffered.close (appError : Bool) :
    Buffered limit (run.step window (.close appError)) := by
  unfold step Stream.closeCb
  refine h.discard (.inr rfl) rfl rfl rfl rfl h.shut ?_
  intro _
  cases appError <;> rfl

/-- What the peer does to an open stream leaves its transmit side alone. -/
theorem Buffered.remote (hgone : run.gone = false) {action : TxAction}
    (haction : action = .remoteReset ∨ ∃ data fin, action = .receive data fin) :
    Buffered limit (run.step window action) := by
  have hkept : ∃ stream, run.step window action = { run with stream := stream } ∧
      stream = { run.stream with
        state := stream.state
        remoteFin := stream.remoteFin
        remoteReset := stream.remoteReset
        rx := stream.rx
        rxNextOffset := stream.rxNextOffset } := by
    rcases haction with rfl | ⟨data, fin, rfl⟩
    · exact ⟨_, rfl, rfl⟩
    · cases fin <;> exact ⟨_, rfl, rfl⟩
  obtain ⟨stream, hstep, hstream⟩ := hkept
  rw [hstep, hstream]
  exact ⟨h.sentLen, h.len, h.limit, h.takenLen, h.taken,
    fun hs hg => ⟨(h.window hs hg).base, (h.window hs hg).bytes, (h.window hs hg).placed,
      (h.window hs hg).acked, (h.window hs hg).ranges⟩,
    h.shut, fun hg => absurd (hgone.symm.trans hg) Bool.false_ne_true, h.ended, h.finSent,
    h.offered, h.fin, h.finTaken, h.finOnce⟩

omit h in
/-- Every step that ngtcp2 allows keeps the invariant. -/
theorem Buffered.step (h : Buffered (Stream.retainedLimit window) run) (action : TxAction)
    (hallows : run.Allows action) :
    Buffered (Stream.retainedLimit window) (run.step window action) := by
  cases action with
  | write data fin allocated pushed => exact h.write data fin allocated pushed
  | datagram taken pushed =>
    cases taken with
    | none => exact h.datagram_none pushed
    | some n => exact h.datagram_some hallows
  | ack offset dataLen allocated pushed => exact h.ack
  | reset shut pushed => exact h.reset shut pushed
  | close appError => exact h.close appError
  | remoteReset => exact h.remote hallows (.inl rfl)
  | receive data fin => exact h.remote hallows (.inr ⟨data, fin, rfl⟩)

omit h in
theorem buffered_new : Buffered limit {} where
  sentLen := Nat.le_refl _
  len := Nat.le_refl _
  limit := Nat.zero_le _
  takenLen := Nat.le_refl _
  taken := rfl
  window _ _ := ⟨rfl, rfl, by simp, by simp, by simp [Covers]⟩
  shut := by simp
  gone := by simp
  ended := by simp
  finSent := by simp
  offered := by simp
  fin := by simp
  finTaken := by simp
  finOnce := .nil

/-- The invariant says that the transmit data is intact. -/
theorem Buffered.integrity : Integrity limit run where
  offered := h.offered
  taken := h.taken ▸ List.take_prefix _ _
  retained := by
    intro hs hg k hd hk hacked
    have hwindow := h.window hs hg
    have hbase := hwindow.base
    have hle : run.stream.txBaseOffset ≤ k := by
      by_contra hlt
      exact hacked (hwindow.acked k (by omega))
    have hlt := (List.getElem?_eq_some_iff.mp hk).1
    obtain ⟨hdata, hindex⟩ := hwindow.placed k hd hk hle
    have hbyte : (run.accepted.take run.taken.length)[k]? = some hd.byte := by
      rw [← h.taken, List.getElem?_map, hk]
      rfl
    rw [List.getElem?_take_of_lt hlt] at hbyte
    refine ⟨hdata, ?_⟩
    rw [← hwindow.bytes, hindex, List.getElem?_drop, Nat.add_sub_cancel' hle]
    exact hbyte
  sentLen := h.sentLen
  len := h.len
  limit := h.limit
  fin o ho hofin := (h.fin o ho hofin).1
  finOnce := h.finOnce

omit h

/-- Transmit data integrity: whatever the application writes, however the packets cut it, in whatever
    order acknowledgements come and however the stream ends. -/
theorem txRun_integrity (window : Nat) (actions : List TxAction)
    (hallows : RunMeets (step window) Allows {} actions) :
    Integrity (Stream.retainedLimit window) (runFrom (step window) {} actions) :=
  (run_keeps hallows buffered_new fun _ action ha h => h.step action ha).integrity

/-- Two writes, two packets, acknowledgements out of order and twice, a FIN and the close. -/
theorem txRun_integrity_twoWrites :
    Integrity 16 (runFrom (step 8) {}
      [.write [1, 2, 3] false true true, .datagram (some 2) true, .write [4] true true false,
        .ack 1 1 true true, .datagram (some 2) true, .ack 1 3 true true, .datagram (some 0) true,
        .ack 0 2 true true, .close false]) :=
  txRun_integrity 8 _ (by decide +kernel)

end TxRun

end LeanLibp2p.Quic
