import LeanLibp2p.Quic.StreamObjects

/-!
# The receive side of a QUIC stream

`quic_backend_stream_rx_append` and `quic_backend_stream_read` on the buffer with its read position.
The bytes come out as they went in, the FIN once behind them, and the end of a stream is reported
when nothing is left to read, but for two kinds of reads.
-/

namespace LeanLibp2p.Quic

open LeanLibp2p.Lib

/-! ## The buffer -/

/-- `rx_data[0..rx_len)`, `rx_read_offset` and `rx_cap` of `libp2p_quic_stream_t`. -/
structure RxBuffer where
  bytes : Bytes := []
  readOffset : Nat := 0
  cap : Nat := 0
  deriving DecidableEq, Repr

namespace RxBuffer

/-- `quic_backend_stream_rx_append` (`quic_backend_ngtcp2_callbacks.c:238-297`); `allocated` says
    whether `realloc` succeeds. -/
def append (data : Bytes) (allocated : Bool) (buffer : RxBuffer) : Except QuicErr RxBuffer :=
  if data.length = 0 then .ok buffer
  else if buffer.cap - buffer.bytes.length < data.length then
    if sizeMax - buffer.bytes.length < data.length then .error .limit
    else
      let required := buffer.bytes.length + data.length
      let doubled := buffer.cap * 2 % (sizeMax + 1)
      let required := if required < doubled then doubled else required
      let required := if required < 1024 then 1024 else required
      if allocated then .ok { buffer with bytes := buffer.bytes ++ data, cap := required }
      else .error .noMemory
  else .ok { buffer with bytes := buffer.bytes ++ data }

/-- What was stored and not read. -/
def unread (buffer : RxBuffer) : Bytes := buffer.bytes.drop buffer.readOffset

/-- The copy of `quic_backend_stream_read` (`quic_backend_ngtcp2_stream.c:232-257`) into `outLen`
    bytes: the bytes, and the buffer. -/
def take (outLen : Nat) (buffer : RxBuffer) : Bytes × RxBuffer :=
  let available := buffer.bytes.length - buffer.readOffset
  if available ≠ 0 then
    let copied := min outLen available
    let out := (buffer.bytes.drop buffer.readOffset).take copied
    let readOffset := buffer.readOffset + copied
    if readOffset = buffer.bytes.length then (out, { buffer with bytes := [], readOffset := 0 })
    else (out, { buffer with readOffset := readOffset })
  else ([], buffer)

/-- The read position is inside the bytes, and they are dropped when all are read. -/
structure WellFormed (buffer : RxBuffer) : Prop where
  offset : buffer.readOffset ≤ buffer.bytes.length
  whole : buffer.readOffset = buffer.bytes.length → buffer.bytes = []
  cap : buffer.bytes.length ≤ buffer.cap

variable {buffer buffer' : RxBuffer} {data : Bytes}

theorem WellFormed.append (h : buffer.WellFormed) {allocated : Bool}
    (happend : buffer.append data allocated = .ok buffer') :
    buffer'.WellFormed ∧ buffer'.unread = buffer.unread ++ data := by
  obtain ⟨hoffset, hwhole, hcap⟩ := h
  have hstored : ∀ cap, buffer.bytes.length + data.length ≤ cap → data.length ≠ 0 →
      WellFormed { buffer with bytes := buffer.bytes ++ data, cap := cap } ∧
        unread { buffer with bytes := buffer.bytes ++ data, cap := cap } =
          buffer.unread ++ data := by
    intro cap hfits hdata
    refine ⟨⟨?_, ?_, ?_⟩, ?_⟩
    · show buffer.readOffset ≤ (buffer.bytes ++ data).length
      rw [List.length_append]
      omega
    · intro hend
      change buffer.readOffset = (buffer.bytes ++ data).length at hend
      rw [List.length_append] at hend
      omega
    · show (buffer.bytes ++ data).length ≤ cap
      rwa [List.length_append]
    · exact List.drop_append_of_le_length hoffset
  unfold RxBuffer.append at happend
  split at happend
  · rename_i hempty
    cases happend
    rw [List.length_eq_zero_iff.mp hempty, List.append_nil]
    exact ⟨⟨hoffset, hwhole, hcap⟩, rfl⟩
  rename_i hdata
  split at happend
  · split at happend
    · cases happend
    dsimp only at happend
    generalize buffer.cap * 2 % (sizeMax + 1) = doubled at happend
    split at happend
    · cases happend
      refine hstored _ ?_ hdata
      split_ifs <;> omega
    · cases happend
  · cases happend
    exact hstored _ (by omega) hdata

theorem WellFormed.take (h : buffer.WellFormed) (outLen : Nat) :
    (buffer.take outLen).2.WellFormed ∧ (buffer.take outLen).1 = buffer.unread.take outLen ∧
      (buffer.take outLen).2.unread = buffer.unread.drop outLen := by
  obtain ⟨hoffset, hwhole, hcap⟩ := h
  have hlen : buffer.unread.length = buffer.bytes.length - buffer.readOffset := List.length_drop
  unfold RxBuffer.take
  dsimp only
  by_cases havailable : buffer.bytes.length - buffer.readOffset = 0
  · have hnil := List.length_eq_zero_iff.mp (hlen.trans havailable)
    rw [if_neg (not_not.mpr havailable), hnil]
    rw [List.take_nil, List.drop_nil]
    exact ⟨⟨hoffset, hwhole, hcap⟩, rfl, rfl⟩
  rw [if_pos havailable]
  have hout : (buffer.bytes.drop buffer.readOffset).take
      (min outLen (buffer.bytes.length - buffer.readOffset)) = buffer.unread.take outLen := by
    rw [← hlen]
    exact List.take_eq_take_min.symm
  by_cases hend : buffer.readOffset + min outLen (buffer.bytes.length - buffer.readOffset) =
      buffer.bytes.length
  · rw [if_pos hend]
    refine ⟨⟨Nat.zero_le _, fun _ => rfl, Nat.zero_le _⟩, hout, ?_⟩
    exact (List.drop_eq_nil_of_le (by omega)).symm
  · rw [if_neg hend]
    refine ⟨⟨by dsimp only; omega, fun h => absurd h hend, hcap⟩, hout, ?_⟩
    have hcopied : min outLen (buffer.bytes.length - buffer.readOffset) = outLen := by omega
    rw [hcopied]
    exact List.drop_drop.symm

/-- `rx_read_offset == rx_len` says that nothing is unread. -/
theorem WellFormed.unread_nil (h : buffer.WellFormed) :
    buffer.unread = [] ↔ buffer.readOffset = buffer.bytes.length := by
  have hoffset := h.offset
  rw [unread, List.drop_eq_nil_iff]
  omega

/-- So does `rx_len == 0`. -/
theorem WellFormed.unread_nil_iff (h : buffer.WellFormed) :
    buffer.unread = [] ↔ buffer.bytes.length = 0 := by
  rw [h.unread_nil]
  have hoffset := h.offset
  constructor
  · exact fun heq => congrArg List.length (h.whole heq)
  · omega

end RxBuffer

/-! ## A read -/

/-- What a call of `quic_backend_stream_read` returns: its result, the bytes, `*fin`, and by how much
    it extends the windows of the stream and the connection. -/
structure RxCall where
  result : Except QuicErr Unit
  bytes : Bytes := []
  fin : Bool := false
  credit : Nat := 0

namespace Stream

/-- The two checks of `quic_backend_stream_read` for a stream that is over
    (`quic_backend_ngtcp2_stream.c:206-220`). -/
def readOver (buffer : RxBuffer) (stream : Stream) : Bool :=
  (buffer.readOffset = buffer.bytes.length &&
    (stream.remoteReset || (stream.remoteFin && stream.remoteFinDelivered))) ||
  (stream.state = .closed && buffer.readOffset = buffer.bytes.length &&
    (!stream.remoteFin || stream.remoteFinDelivered))

/-- `quic_backend_stream_read` (`quic_backend_ngtcp2_stream.c:184-273`) into `outLen` bytes. -/
def read (outLen : Nat) (stream : Stream) (buffer : RxBuffer) : RxCall × Stream × RxBuffer :=
  if stream.readOver buffer then (⟨.error .closed, [], false, 0⟩, stream, buffer)
  else
    let taken := buffer.take outLen
    let fin := stream.remoteFin && taken.2.bytes.length = 0 && !stream.remoteFinDelivered
    let result := if taken.1.length = 0 ∧ ¬ fin then .error .wouldBlock else .ok ()
    (⟨result, taken.1, fin, taken.1.length⟩,
      { stream with
        rx := stream.rx.drop outLen
        remoteFinDelivered := stream.remoteFinDelivered || fin },
      taken.2)

/-- The receiving side as the host sees it. -/
def toHost (stream : Stream) : Host.QuicStream where
  state := stream.state
  remoteFin := stream.remoteFin
  remoteFinDelivered := stream.remoteFinDelivered
  remoteReset := stream.remoteReset
  localFinSent := stream.localFinSent
  localReset := stream.localReset
  rx := stream.rx

/-- The read on the buffer is the read that the host's transport makes of the unread bytes. -/
theorem read_toHost {stream : Stream} {buffer : RxBuffer} (hbuffer : buffer.WellFormed)
    (hrx : stream.rx = buffer.unread) (outLen : Nat) :
    Host.quicStreamRead outLen stream.toHost =
      ((stream.read outLen buffer).1.result.map fun _ =>
        ((stream.read outLen buffer).1.bytes, (stream.read outLen buffer).1.fin),
        (stream.read outLen buffer).2.1.toHost) := by
  obtain ⟨hwell, hbytes, hleft⟩ := hbuffer.take outLen
  have hover : stream.readOver buffer = true ↔ stream.toHost.Terminal := by
    simp only [readOver, Host.QuicStream.Terminal, toHost, hrx, hbuffer.unread_nil,
      Bool.or_eq_true, Bool.and_eq_true, decide_eq_true_eq, Bool.not_eq_true', Bool.not_eq_true]
    tauto
  unfold read
  by_cases hterminal : stream.toHost.Terminal
  · rw [if_pos (hover.mpr hterminal), Host.quicStreamRead_of_terminal hterminal]
    rfl
  · have hfin : stream.toHost.endsAt outLen = (stream.remoteFin &&
        decide ((buffer.take outLen).2.bytes.length = 0) && !stream.remoteFinDelivered) := by
      have hdrained := hwell.unread_nil_iff
      rw [hleft, ← hrx] at hdrained
      have hempty : (stream.rx.drop outLen).isEmpty =
          decide ((buffer.take outLen).2.bytes.length = 0) := by
        rw [Bool.eq_iff_iff, List.isEmpty_iff, hdrained, decide_eq_true_eq]
      rw [Host.QuicStream.endsAt, toHost, hempty]
    rw [if_neg (mt hover.mp hterminal), Host.quicStreamRead_eq hterminal]
    dsimp only
    rw [← hfin, hbytes, ← hrx]
    by_cases hnone : stream.toHost.rx.take outLen = [] ∧ stream.toHost.endsAt outLen = false
    · rw [if_pos hnone, if_pos ⟨List.length_eq_zero_iff.mpr hnone.1, by simp [hnone.2]⟩]
      rfl
    · rw [if_neg hnone, if_neg]
      · rfl
      · rintro ⟨hlength, hend⟩
        exact hnone ⟨List.length_eq_zero_iff.mp hlength, by simpa using hend⟩

end Stream

/-! ## Runs -/

/-- A read that was made. `isOver` says that there was nothing left to read and the end was reached
    before it, `finReceived` that the FIN had been received; `whole` and `finReturned` that all
    bytes and the FIN have been read with it. -/
structure RxRead where
  call : RxCall
  isOver : Bool
  finReceived : Bool
  whole : Bool
  finReturned : Bool

/-- A stream with its receive buffer, what was received on it and the reads. `closed` is the flag of
    the last `quic_backend_stream_close_cb`. -/
structure RxRun where
  stream : Stream := {}
  buffer : RxBuffer := {}
  received : Bytes := []
  finReceived : Bool := false
  wasReset : Bool := false
  closed : Option Bool := none
  reads : List RxRead := []

/-- What can happen to the stream. -/
inductive RxAction where
  | receive (offset : Nat) (data : Bytes) (fin allocated : Bool)
  | remoteReset
  | close (appError : Bool)
  | read (outLen : Nat)
  | write (window : Nat) (data : Bytes) (fin : Bool) (alloc : Option Nat) (pushed : Bool)
  | datagram (dataLen : Nat) (pushed : Bool)
  | ack (offset dataLen : Nat) (alloc : Option Nat) (pushed : Bool)
  | reset (shut pushed : Bool)
  deriving DecidableEq, Repr

namespace RxRun

/-- The bytes that were read. -/
def readBytes (run : RxRun) : Bytes := run.reads.flatMap fun read => read.call.bytes

/-- A read returned `*fin = 1`. -/
def finReturned (run : RxRun) : Bool := run.reads.any fun read => read.call.fin

/-- Nothing is left to read, the FIN included, and no more will come. -/
def Over (run : RxRun) : Prop :=
  run.readBytes = run.received ∧ (run.finReceived = true → run.finReturned = true) ∧
    (run.finReturned = true ∨ run.wasReset = true ∨ run.closed.isSome = true)

instance (run : RxRun) : Decidable run.Over := inferInstanceAs (Decidable (_ ∧ _ ∧ _))

/-- A read with its result. -/
def note (run : RxRun) (call : RxCall) : RxRead where
  call := call
  isOver := run.Over
  finReceived := run.finReceived
  whole := run.readBytes ++ call.bytes = run.received
  finReturned := run.finReturned || call.fin

/-- One thing happens. The callback for received bytes fails where the offset is not the next one or
    the bytes cannot be stored. -/
def step (run : RxRun) : RxAction → RxRun
  | .receive offset data fin allocated =>
    if offset ≠ run.stream.rxNextOffset then run
    else
      match run.buffer.append data allocated with
      | .error _ => run
      | .ok buffer =>
        { run with
          stream := run.stream.recvData data fin
          buffer := buffer
          received := run.received ++ data
          finReceived := run.finReceived || fin }
  | .remoteReset => { run with stream := run.stream.resetCb, wasReset := true }
  | .close appError => { run with stream := run.stream.closeCb appError, closed := some appError }
  | .read outLen =>
    let (call, stream, buffer) := run.stream.read outLen run.buffer
    { run with stream := stream, buffer := buffer, reads := run.reads ++ [run.note call] }
  | .write window data fin alloc pushed =>
    { run with stream := (run.stream.write window data fin alloc pushed).stream }
  | .datagram dataLen pushed =>
    if run.stream.wantsTx then
      { run with stream := run.stream.sent dataLen run.stream.offeredFin pushed }
    else run
  | .ack offset dataLen alloc pushed =>
    { run with stream := (run.stream.reclaimAcked offset dataLen alloc pushed).1 }
  | .reset shut pushed =>
    { run with stream :=
        (run.stream.resetStream (if shut then .ok () else .error .backend) pushed).2 }

/-- What a stream promises: the FIN is its end, and no bytes come behind it. -/
def InOrder (run : RxRun) : RxAction → Prop
  | .receive _ data _ _ => run.finReceived = true → data = []
  | _ => True

/-- The reads that are answered as they should be: not when all bytes are read and the FIN is not, and
    the peer has reset the stream; and not when all bytes are read and the stream was closed with an
    application error, without a FIN or a reset. -/
def Answered (run : RxRun) : RxAction → Prop
  | .read _ =>
    ¬ (run.readBytes = run.received ∧ run.wasReset = true ∧ run.finReceived = true ∧
        run.finReturned = false) ∧
      ¬ (run.readBytes = run.received ∧ run.closed = some true ∧ run.finReceived = false ∧
        run.wasReset = false)
  | _ => True

instance (run : RxRun) (action : RxAction) : Decidable (run.InOrder action) := by
  unfold InOrder
  split <;> infer_instance

instance (run : RxRun) (action : RxAction) : Decidable (run.Answered action) := by
  unfold Answered
  split <;> infer_instance

/-- What a read must be: `CLOSED` exactly when all is over, `*fin` only for a received FIN with the
    last byte or behind it, and then without fail. -/
structure Conforms (read : RxRead) : Prop where
  closed : read.call.result = .error .closed ↔ read.isOver = true
  fin : read.call.fin = true → read.finReceived = true ∧ read.whole = true
  last : read.whole = true → read.finReceived = true → read.finReturned = true

/-- The stream is a queue of bytes with one FIN. -/
structure Fifo (run : RxRun) : Prop where
  /-- What was read is a prefix of what was received. -/
  bytes : run.readBytes <+: run.received
  /-- When everything is read, it is all that was received. -/
  all : run.buffer.unread = [] → run.readBytes = run.received
  /-- The windows are extended by what was read. -/
  credit : (run.reads.map fun read => read.call.credit).sum = run.readBytes.length
  /-- `*fin` is returned once. -/
  finOnce : (run.reads.countP fun read => read.call.fin) ≤ 1
  /-- Behind it, every read is `CLOSED`. -/
  finLast : run.reads.Pairwise fun read next =>
    read.call.fin = true → next.call.result = .error .closed
  reads : ∀ read ∈ run.reads, Conforms read

/-! ## What the stream keeps -/

/-- What the transmit side leaves alone. -/
structure SameRx (stream stream' : Stream) : Prop where
  rx : stream'.rx = stream.rx
  fin : stream'.remoteFin = stream.remoteFin
  delivered : stream'.remoteFinDelivered = stream.remoteFinDelivered
  reset : stream'.remoteReset = stream.remoteReset
  ended : stream.state.live = false → stream'.state = stream.state
  closed : stream'.state = .closed →
    stream.state = .closed ∨ stream.remoteFin = true ∨ stream.remoteReset = true

theorem sameRx_write (window : Nat) (data : Bytes) (fin : Bool) (alloc : Option Nat)
    (pushed : Bool) (stream : Stream) :
    SameRx stream (stream.write window data fin alloc pushed).stream := by
  obtain ⟨blocked, _, hstream⟩ | ⟨_, n, txData, cap, queued, blocked, _, hstream, _⟩ :=
    TxRun.write_spec window data fin alloc pushed stream
  · rw [hstream]
    exact ⟨rfl, rfl, rfl, rfl, fun _ => rfl, .inl⟩
  · rw [hstream]
    exact ⟨rfl, rfl, rfl, rfl, fun _ => rfl, .inl⟩

theorem sameRx_sent {stream : Stream} (h : stream.wantsTx = true) (dataLen : Nat)
    (fin pushed : Bool) : SameRx stream (stream.sent dataLen fin pushed) := by
  have hlive : stream.state.live = true := by
    rw [Stream.wantsTx, Bool.and_eq_true] at h
    exact h.1
  obtain ⟨blocked, hwake⟩ := TxRun.wakeAfterTxDrain_spec pushed
    { stream with txSentLen := stream.txSentLen + dataLen }
  have hended : stream.state.live = false → False := by simp [hlive]
  unfold Stream.sent
  rw [hwake]
  dsimp only
  split
  · refine ⟨rfl, rfl, rfl, rfl, fun h => (hended h).elim, fun hclosed => ?_⟩
    by_cases hpeer : stream.remoteFin = true ∨ stream.remoteReset = true
    · exact .inr hpeer
    · simp [hpeer] at hclosed
  · exact ⟨rfl, rfl, rfl, rfl, fun _ => rfl, .inl⟩

theorem sameRx_ack (offset dataLen : Nat) (alloc : Option Nat) (pushed : Bool)
    (stream : Stream) : SameRx stream (stream.reclaimAcked offset dataLen alloc pushed).1 := by
  unfold Stream.reclaimAcked
  split
  · exact ⟨rfl, rfl, rfl, rfl, fun _ => rfl, .inl⟩
  · rename_i hrecord
    obtain ⟨ranges, rfl⟩ := ConnRun.recordAckedRange_kept hrecord
    exact ⟨rfl, rfl, rfl, rfl, fun _ => rfl, .inl⟩
  · rename_i hrecord
    obtain ⟨ranges, rfl⟩ := ConnRun.recordAckedRange_kept hrecord
    dsimp only
    obtain ⟨data, cap, hshrink⟩ := ConnRun.shrinkTx_kept alloc
      { stream with
        txAckRanges := ranges
        txBaseOffset := stream.txBaseOffset + stream.txSentLen
        txBytes := stream.txBytes.drop stream.txSentLen
        txSentLen := 0 }
    rw [hshrink]
    obtain ⟨blocked, hwake⟩ := TxRun.wakeBlockedWriter_spec pushed _
    rw [hwake]
    exact ⟨rfl, rfl, rfl, rfl, fun _ => rfl, .inl⟩

theorem sameRx_reset (shut : Except QuicErr Unit) (pushed : Bool) (stream : Stream) :
    SameRx stream (stream.resetStream shut pushed).2 := by
  by_cases hlive : stream.state.live = true
  · unfold Stream.resetStream Stream.validate
    rw [if_pos hlive]
    cases shut with
    | error e => exact ⟨rfl, rfl, rfl, rfl, fun _ => rfl, .inl⟩
    | ok =>
      rw [TxRun.discardTx_eq]
      refine ⟨rfl, rfl, rfl, rfl, fun h => by simp [hlive] at h, fun hclosed => ?_⟩
      dsimp only at hclosed
      split at hclosed <;> cases hclosed
  · rw [ConnRun.resetStream_of_ended (Bool.eq_false_iff.mpr hlive)]
    exact ⟨rfl, rfl, rfl, rfl, fun _ => rfl, .inl⟩

/-! ## The invariant -/

/-- What holds in every run: the buffer holds what was received and not read, and the flags of the
    stream say what happened. -/
structure Tracks (run : RxRun) : Prop where
  wellFormed : run.buffer.WellFormed
  rx : run.stream.rx = run.buffer.unread
  received : run.received = run.readBytes ++ run.buffer.unread
  fin : run.stream.remoteFin = run.finReceived
  delivered : run.stream.remoteFinDelivered = run.finReturned
  reset : run.stream.remoteReset = run.wasReset
  /-- The FIN is returned when all bytes are read, and none come behind it. -/
  returned : run.finReturned = true → run.finReceived = true ∧ run.buffer.unread = []
  closed : run.stream.state = .closed →
    run.closed.isSome = true ∨ run.finReceived = true ∨ run.wasReset = true
  /-- A stream that was closed without an error stays so until the FIN or a reset. -/
  stays : run.closed = some false → run.finReceived = false → run.wasReset = false →
    run.stream.state = .closed
  /-- One that was closed with an error is reset until then. -/
  fails : run.closed = some true → run.finReceived = false → run.wasReset = false →
    run.stream.state = .reset
  credit : (run.reads.map fun read => read.call.credit).sum = run.readBytes.length
  finOnce : (run.reads.countP fun read => read.call.fin) ≤ 1
  finLast : run.reads.Pairwise fun read next =>
    read.call.fin = true → next.call.result = .error .closed

variable {run : RxRun}

variable (h : Tracks run)

include h

theorem Tracks.all_read :
    run.readBytes = run.received ↔ run.buffer.unread = [] := by
  rw [h.received]
  simp

/-- The transmit side keeps the invariant. -/
theorem Tracks.same {stream : Stream} (hsame : SameRx run.stream stream) :
    Tracks { run with stream := stream } where
  wellFormed := h.wellFormed
  rx := hsame.rx.trans h.rx
  received := h.received
  fin := hsame.fin.trans h.fin
  delivered := hsame.delivered.trans h.delivered
  reset := hsame.reset.trans h.reset
  returned := h.returned
  closed hclosed := by
    obtain hwas | hfin | hreset := hsame.closed hclosed
    · exact h.closed hwas
    · exact .inr (.inl (h.fin.symm.trans hfin))
    · exact .inr (.inr (h.reset.symm.trans hreset))
  stays hclosed hfin hreset := by
    have hstate := h.stays hclosed hfin hreset
    have hended := hsame.ended (by rw [hstate]; rfl)
    exact hended.trans hstate
  fails hclosed hfin hreset := by
    have hstate := h.fails hclosed hfin hreset
    have hended := hsame.ended (by rw [hstate]; rfl)
    exact hended.trans hstate
  credit := h.credit
  finOnce := h.finOnce
  finLast := h.finLast

theorem Tracks.receive {offset : Nat} {data : Bytes} {fin allocated : Bool}
    (horder : run.finReceived = true → data = []) :
    Tracks (run.step (.receive offset data fin allocated)) := by
  dsimp only [step]
  split
  · exact h
  split
  · exact h
  rename_i buffer happend
  obtain ⟨hwell, hunread⟩ := h.wellFormed.append happend
  have hrx : (run.stream.recvData data fin).rx = run.stream.rx ++ data := by cases fin <;> rfl
  have hfin : (run.stream.recvData data fin).remoteFin = (run.finReceived || fin) := by
    cases fin
    · exact h.fin.trans (Bool.or_false _).symm
    · exact (Bool.or_true _).symm
  have hdelivered : (run.stream.recvData data fin).remoteFinDelivered =
      run.stream.remoteFinDelivered := by cases fin <;> rfl
  have hreset : (run.stream.recvData data fin).remoteReset = run.stream.remoteReset := by
    cases fin <;> rfl
  have hstate : fin = false → (run.stream.recvData data fin).state = run.stream.state := by
    rintro rfl
    rfl
  exact {
    wellFormed := hwell
    rx := by rw [hrx, h.rx, hunread]
    received := by
      rw [hunread, ← List.append_assoc]
      exact congrArg (· ++ data) h.received
    fin := hfin
    delivered := hdelivered.trans h.delivered
    reset := hreset.trans h.reset
    returned := fun hreturned => by
      obtain ⟨hfinReceived, hempty⟩ := h.returned hreturned
      rw [hunread, hempty, horder hfinReceived]
      exact ⟨by simp [hfinReceived], rfl⟩
    closed := fun hclosed => by
      cases fin with
      | true => exact .inr (.inl (Bool.or_true _))
      | false =>
        rw [hstate rfl] at hclosed
        simpa using h.closed hclosed
    stays := fun hclosed hnone hnoreset => by
      rw [Bool.or_eq_false_iff] at hnone
      exact (hstate hnone.2).trans (h.stays hclosed hnone.1 hnoreset)
    fails := fun hclosed hnone hnoreset => by
      rw [Bool.or_eq_false_iff] at hnone
      exact (hstate hnone.2).trans (h.fails hclosed hnone.1 hnoreset)
    credit := h.credit
    finOnce := h.finOnce
    finLast := h.finLast }

theorem Tracks.remoteReset : Tracks (run.step .remoteReset) where
  wellFormed := h.wellFormed
  rx := h.rx
  received := h.received
  fin := h.fin
  delivered := h.delivered
  reset := rfl
  returned := h.returned
  closed _ := .inr (.inr rfl)
  stays _ _ hreset := by cases hreset
  fails _ _ hreset := by cases hreset
  credit := h.credit
  finOnce := h.finOnce
  finLast := h.finLast

theorem Tracks.close (appError : Bool) :
    Tracks (run.step (.close appError)) := by
  have hclose : run.stream.closeCb appError =
      { run.stream.discardTx with state := if appError then .reset else .closed } := rfl
  rw [TxRun.discardTx_eq] at hclose
  dsimp only [step]
  rw [hclose]
  exact {
    wellFormed := h.wellFormed
    rx := h.rx
    received := h.received
    fin := h.fin
    delivered := h.delivered
    reset := h.reset
    returned := h.returned
    closed := fun _ => .inl rfl
    stays := fun hclosed _ _ => by cases hclosed; rfl
    fails := fun hclosed _ _ => by cases hclosed; rfl
    credit := h.credit
    finOnce := h.finOnce
    finLast := h.finLast }

/-! ## A read -/

/-- The checks of the code, as what has happened. -/
theorem Tracks.readOver_iff : run.stream.readOver run.buffer = true ↔
    run.buffer.unread = [] ∧ (run.wasReset = true ∨
      (run.finReceived = true ∧ run.finReturned = true) ∨
      (run.stream.state = .closed ∧ (run.finReceived = false ∨ run.finReturned = true))) := by
  unfold Stream.readOver
  rw [h.wellFormed.unread_nil, h.reset, h.fin, h.delivered]
  simp only [Bool.or_eq_true, Bool.and_eq_true, decide_eq_true_eq, Bool.not_eq_true']
  tauto

/-- All is over. -/
theorem Tracks.over_iff : run.Over ↔ run.buffer.unread = [] ∧
    (run.finReceived = true → run.finReturned = true) ∧
    (run.finReturned = true ∨ run.wasReset = true ∨ run.closed.isSome = true) := by
  unfold Over
  rw [h.all_read]

/-- A read finds the stream over when it is, but for the two kinds of reads. -/
theorem Tracks.readOver_iff_over (outLen : Nat) :
    (run.stream.readOver run.buffer = true ↔ run.Over) ↔ run.Answered (.read outLen) := by
  have hreturned := h.returned
  have hclosed := h.closed
  have hstays := h.stays
  have hfails := h.fails
  rw [h.readOver_iff, h.over_iff, Answered, h.all_read]
  cases hflag : run.closed with
  | none =>
    cases hfin : run.finReceived <;> cases hreset : run.wasReset <;>
      cases hret : run.finReturned <;> simp_all
  | some appError =>
    cases appError <;> cases hfin : run.finReceived <;> cases hreset : run.wasReset <;>
      cases hret : run.finReturned <;> simp_all

omit h in
theorem readBytes_read (run : RxRun) (stream : Stream) (buffer : RxBuffer) (call : RxCall) :
    readBytes { run with stream := stream, buffer := buffer, reads := run.reads ++ [run.note call] } =
      run.readBytes ++ call.bytes := by
  simp [readBytes, note]

omit h in
theorem finReturned_read (run : RxRun) (stream : Stream) (buffer : RxBuffer) (call : RxCall) :
    finReturned { run with stream := stream, buffer := buffer, reads := run.reads ++ [run.note call] } =
      (run.finReturned || call.fin) := by
  simp [finReturned, note]

/-- A read is noted. -/
theorem Tracks.noted {stream : Stream} {buffer : RxBuffer} {call : RxCall}
    (hwell : buffer.WellFormed) (hrx : stream.rx = buffer.unread)
    (hbytes : run.buffer.unread = call.bytes ++ buffer.unread) (hstream : stream = { run.stream with
      rx := stream.rx
      remoteFinDelivered := run.stream.remoteFinDelivered || call.fin })
    (hcredit : call.credit = call.bytes.length) (hfin : call.fin = true →
      run.finReceived = true ∧ buffer.unread = [] ∧ run.finReturned = false)
    (hclosed : run.finReturned = true → call.result = .error .closed) :
    Tracks { run with stream := stream, buffer := buffer, reads := run.reads ++ [run.note call] } where
  wellFormed := hwell
  rx := hrx
  received := by
    rw [readBytes_read, List.append_assoc]
    exact h.received.trans (by rw [hbytes])
  fin := by
    rw [hstream]
    exact h.fin
  delivered := by
    rw [finReturned_read, hstream, ← h.delivered]
  reset := by
    rw [hstream]
    exact h.reset
  returned hreturned := by
    rw [finReturned_read, Bool.or_eq_true] at hreturned
    obtain hreturned | hnew := hreturned
    · obtain ⟨hreceived, hempty⟩ := h.returned hreturned
      rw [hempty] at hbytes
      exact ⟨hreceived, (List.append_eq_nil_iff.mp hbytes.symm).2⟩
    · obtain ⟨hreceived, hempty, _⟩ := hfin hnew
      exact ⟨hreceived, hempty⟩
  closed hstate := by
    rw [hstream] at hstate
    exact h.closed hstate
  stays hflag hnofin hnoreset := by
    rw [hstream]
    exact h.stays hflag hnofin hnoreset
  fails hflag hnofin hnoreset := by
    rw [hstream]
    exact h.fails hflag hnofin hnoreset
  credit := by
    rw [readBytes_read, List.map_append, List.sum_append, h.credit, List.length_append, ← hcredit]
    simp [note]
  finOnce := by
    have honce := h.finOnce
    rw [List.countP_append]
    by_cases hnew : call.fin = true
    · obtain ⟨_, _, hnone⟩ := hfin hnew
      have hzero : (run.reads.countP fun read => read.call.fin) = 0 := by
        rw [List.countP_eq_zero]
        intro read hread hcall
        have hsome : run.finReturned = true := List.any_eq_true.mpr ⟨read, hread, hcall⟩
        rw [hnone] at hsome
        cases hsome
      rw [hzero, Nat.zero_add]
      exact List.countP_le_length
    · simpa [note, hnew] using honce
  finLast := by
    refine List.pairwise_append.mpr ⟨h.finLast, List.pairwise_singleton _ _, ?_⟩
    intro read hread next hnext hcall
    rw [List.mem_singleton.mp hnext]
    exact hclosed (List.any_eq_true.mpr ⟨read, hread, hcall⟩)

/-- A read keeps the invariant, and is right exactly when it is answered as it should be. -/
theorem Tracks.read (outLen : Nat) :
    Tracks (run.step (.read outLen)) ∧ ∃ call,
      (run.step (.read outLen)).reads = run.reads ++ [run.note call] ∧
      (Conforms (run.note call) ↔ run.Answered (.read outLen)) := by
  have hover := h.readOver_iff_over outLen
  dsimp only [step, Stream.read]
  by_cases hclosed : run.stream.readOver run.buffer = true
  · rw [if_pos hclosed]
    have hsame : run.stream = { run.stream with
        rx := run.stream.rx
        remoteFinDelivered := run.stream.remoteFinDelivered || false } := by
      rw [Bool.or_false]
    refine ⟨h.noted h.wellFormed h.rx rfl hsame rfl (fun hfin => by cases hfin) fun _ => rfl,
      _, rfl, ?_⟩
    rw [← hover, iff_true_left hclosed]
    constructor
    · intro hconforms
      exact of_decide_eq_true (hconforms.closed.mp rfl)
    · intro hall
      refine ⟨iff_of_true rfl (decide_eq_true hall), fun hfin => (by cases hfin),
        fun _ hreceived => ?_⟩
      rw [show (run.note _).finReturned = (run.finReturned || false) from rfl, Bool.or_false]
      exact hall.2.1 hreceived
  · rw [if_neg hclosed]
    obtain ⟨hwell, hbytes, hunread⟩ := h.wellFormed.take outLen
    generalize run.buffer.take outLen = taken at hwell hbytes hunread ⊢
    have hnotReturned : run.finReturned = false := by
      by_contra hreturned
      rw [Bool.not_eq_false] at hreturned
      obtain ⟨hreceived, hempty⟩ := h.returned hreturned
      exact hclosed (h.readOver_iff.mpr ⟨hempty, .inr (.inl ⟨hreceived, hreturned⟩)⟩)
    have hsplit : run.buffer.unread = taken.1 ++ taken.2.unread := by
      rw [hbytes, hunread, List.take_append_drop]
    have hfin : (run.stream.remoteFin && decide (taken.2.bytes.length = 0) &&
        !run.stream.remoteFinDelivered) = true ↔
          run.finReceived = true ∧ taken.2.unread = [] := by
      rw [hwell.unread_nil_iff, h.fin, h.delivered, hnotReturned]
      simp
    have hresult : (if taken.1.length = 0 ∧ ¬ (run.stream.remoteFin &&
        decide (taken.2.bytes.length = 0) && !run.stream.remoteFinDelivered) = true
        then (.error .wouldBlock : Except QuicErr Unit) else .ok ()) ≠
          .error .closed := by
      split <;> simp
    generalize hflag : (run.stream.remoteFin && decide (taken.2.bytes.length = 0) &&
      !run.stream.remoteFinDelivered) = fin at hfin hresult ⊢
    refine ⟨h.noted hwell ?_ hsplit rfl rfl (fun hnew => ?_) (fun hreturned => ?_), _, rfl, ?_⟩
    · rw [hunread]
      exact congrArg (List.drop outLen) h.rx
    · obtain ⟨hreceived, hempty⟩ := hfin.mp hnew
      exact ⟨hreceived, hempty, hnotReturned⟩
    · rw [hnotReturned] at hreturned
      cases hreturned
    · have hwhole : run.readBytes ++ taken.1 = run.received ↔ taken.2.unread = [] := by
        rw [h.received, hsplit]
        simp
      rw [← hover, iff_false_left hclosed]
      constructor
      · intro hconforms hall
        exact hresult (hconforms.closed.mpr (decide_eq_true hall))
      · intro hnot
        refine ⟨iff_of_false hresult (by rw [Bool.not_eq_true]; exact decide_eq_false hnot),
          fun hnew => ?_, fun hread hreceived => ?_⟩
        · obtain ⟨hreceived, hempty⟩ := hfin.mp hnew
          exact ⟨hreceived, decide_eq_true (hwhole.mpr hempty)⟩
        · rw [show (run.note _).finReturned = (run.finReturned || fin) from rfl, Bool.or_eq_true]
          exact .inr (hfin.mpr ⟨hreceived, hwhole.mp (of_decide_eq_true hread)⟩)

/-! ## All runs -/

/-- Every step keeps the invariant. -/
theorem Tracks.step {action : RxAction} (horder : run.InOrder action) :
    Tracks (run.step action) := by
  cases action with
  | receive offset data fin allocated => exact h.receive horder
  | remoteReset => exact h.remoteReset
  | close appError => exact h.close appError
  | read outLen => exact (h.read outLen).1
  | write window data fin alloc pushed => exact h.same (sameRx_write ..)
  | datagram dataLen pushed =>
    dsimp only [RxRun.step]
    split
    · rename_i hwants
      exact h.same (sameRx_sent hwants ..)
    · exact h
  | ack offset dataLen alloc pushed => exact h.same (sameRx_ack ..)
  | reset shut pushed => exact h.same (sameRx_reset ..)

omit h in
/-- A step that is no read makes none. -/
theorem step_reads {action : RxAction} (h : ∀ outLen, action ≠ .read outLen) :
    (run.step action).reads = run.reads := by
  cases action with
  | read outLen => exact absurd rfl (h outLen)
  | receive offset data fin allocated =>
    dsimp only [step]
    split
    · rfl
    · split <;> rfl
  | datagram dataLen pushed =>
    dsimp only [step]
    split <;> rfl
  | _ => rfl

/-- With a step, all reads are right as long as it is answered as it should be. -/
theorem Tracks.conforms_step (action : RxAction) :
    (∀ read ∈ (run.step action).reads, Conforms read) ↔
      (∀ read ∈ run.reads, Conforms read) ∧ run.Answered action := by
  by_cases hread : ∃ outLen, action = .read outLen
  · obtain ⟨outLen, rfl⟩ := hread
    obtain ⟨_, call, hreads, hiff⟩ := h.read outLen
    rw [hreads, ← hiff, List.forall_mem_append, List.forall_mem_singleton]
  · have hreads := @step_reads run action fun outLen heq => hread ⟨outLen, heq⟩
    rw [hreads]
    have hanswered : run.Answered action := by
      cases action with
      | read outLen => exact absurd ⟨outLen, rfl⟩ hread
      | _ => trivial
    exact (and_iff_left hanswered).symm

/-- A stream as `quic_backend_stream_new` makes it. -/
def start (streamId : Int) (incoming : Bool) : RxRun :=
  { stream := { streamId := streamId, incoming := incoming } }

omit h in
theorem tracks_start (streamId : Int) (incoming : Bool) : Tracks (start streamId incoming) where
  wellFormed := ⟨Nat.le_refl _, fun _ => rfl, Nat.le_refl _⟩
  rx := rfl
  received := rfl
  fin := rfl
  delivered := rfl
  reset := rfl
  returned h := by cases h
  closed h := by cases h
  stays h := by cases h
  fails h := by cases h
  credit := rfl
  finOnce := Nat.zero_le _
  finLast := .nil

theorem Tracks.fifo_iff : Fifo run ↔ ∀ read ∈ run.reads, Conforms read := by
  constructor
  · exact fun hfifo => hfifo.reads
  · intro hreads
    refine ⟨?_, h.all_read.mpr, h.credit, h.finOnce, h.finLast, hreads⟩
    rw [h.received]
    exact List.prefix_append _ _

omit h

theorem runFrom_fifo_iff (actions : List RxAction) {run : RxRun} (h : Tracks run)
    (horder : RunMeets step InOrder run actions) :
    (∀ read ∈ (runFrom step run actions).reads, Conforms read) ↔
      (∀ read ∈ run.reads, Conforms read) ∧ RunMeets step Answered run actions := by
  induction actions generalizing run with
  | nil => exact (and_iff_left trivial).symm
  | cons action actions ih =>
    obtain ⟨haction, hrest⟩ := horder
    rw [runFrom_cons, ih (h.step haction) hrest, h.conforms_step, and_assoc]
    rfl

/-- The stream is a queue with one FIN exactly in the runs whose reads are all answered as they
    should be. -/
theorem fifo_iff_answered (streamId : Int) (incoming : Bool) (actions : List RxAction)
    (horder : RunMeets step InOrder (start streamId incoming) actions) :
    Fifo (runFrom step (start streamId incoming) actions) ↔
      RunMeets step Answered (start streamId incoming) actions := by
  have htracks : Tracks (runFrom step (start streamId incoming) actions) :=
    run_keeps horder (tracks_start streamId incoming) fun _ _ haction h => h.step haction
  rw [htracks.fifo_iff, runFrom_fifo_iff actions (tracks_start streamId incoming) horder]
  exact and_iff_right fun _ hread => by cases hread

/-- Two bytes, the FIN behind them and the close of the stream, read in pieces. -/
theorem fifo_iff_answered_pieces :
    RunMeets step InOrder (start 4 true) [.receive 0 [1, 2] false true, .read 0, .read 1,
        .receive 2 [] true true, .close false, .read 8, .read 8] ∧
      Fifo (runFrom step (start 4 true) [.receive 0 [1, 2] false true, .read 0, .read 1,
        .receive 2 [] true true, .close false, .read 8, .read 8]) :=
  ⟨by decide, (fifo_iff_answered 4 true _ (by decide)).mpr (by decide)⟩

/-- The FIN is lost when the peer resets the stream before it is returned, and a stream that is closed
    with an application error is never reported as closed. -/
theorem not_fifo_reset_close :
    (RunMeets step InOrder (start 4 true) [.receive 0 [1] false true, .read 8,
        .receive 1 [] true true, .remoteReset, .read 8] ∧
      ¬ Fifo (runFrom step (start 4 true) [.receive 0 [1] false true, .read 8,
        .receive 1 [] true true, .remoteReset, .read 8])) ∧
    (RunMeets step InOrder (start 4 true) [.receive 0 [1] false true, .read 8, .close true,
        .read 8] ∧
      ¬ Fifo (runFrom step (start 4 true) [.receive 0 [1] false true, .read 8, .close true,
        .read 8])) := by
  refine ⟨⟨by decide, fun h => ?_⟩, ⟨by decide, fun h => ?_⟩⟩
  · have hanswered := ((runFrom_fifo_iff _ (tracks_start 4 true) (by decide)).mp h.reads).2
    revert hanswered
    decide
  · have hanswered := ((runFrom_fifo_iff _ (tracks_start 4 true) (by decide)).mp h.reads).2
    revert hanswered
    decide

end RxRun

end LeanLibp2p.Quic
