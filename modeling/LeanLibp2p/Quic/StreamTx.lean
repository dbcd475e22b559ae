import LeanLibp2p.Quic.Types

/-!
# The transmit side of a QUIC stream

`quic_backend_ngtcp2_stream.c` and the callbacks of `quic_backend_ngtcp2_callbacks.c` and
`quic_backend_ngtcp2_conn.c` that touch a stream's transmit buffer. What the allocator and the
endpoint's event queue answer are arguments: `alloc` is the allocation that `realloc` returns, or
`none` for NULL, and `pushed` says whether `quic_backend_event_push` had room.
-/

namespace LeanLibp2p.Quic

namespace Stream

/-- `stream->tx_len`. -/
def txLen (stream : Stream) : Nat := stream.txBytes.length

/-- The state check of `quic_backend_validate_stream` (`quic_backend_ngtcp2_util.c:65-85`). -/
def validate (stream : Stream) : Except QuicErr Unit :=
  if stream.state.live then .ok () else .error .closed

/-- The doubling loop of `quic_backend_stream_next_tx_cap`. A capacity is positive and a
    `size_t`, so it doubles at most 64 times. -/
def nextTxCapLoop (required retainedLimit : Nat) : Nat → Nat → Nat
  | 0, result => result
  | fuel + 1, result =>
    if result < required ∧ result < retainedLimit then
      nextTxCapLoop required retainedLimit fuel
        (if retainedLimit / 2 < result then retainedLimit else result * 2)
    else result

/-- `quic_backend_stream_next_tx_cap` (`quic_backend_ngtcp2_stream.c:249-282`). -/
def nextTxCap (currentCap required retainedLimit : Nat) : Nat :=
  let minCap := min streamSendMinCap retainedLimit
  let result := nextTxCapLoop required retainedLimit 64 (max currentCap minCap)
  min (max result required) retainedLimit

/-- `quic_backend_stream_reserve_tx` (`quic_backend_ngtcp2_stream.c:284-331`). -/
def reserveTx (required retainedLimit : Nat) (alloc : Option Nat) (stream : Stream) :
    Except QuicErr Stream :=
  if stream.txCap < required then
    if stream.txSentLen ≠ 0 then .error .wouldBlock
    else
      let newCap := nextTxCap stream.txCap required retainedLimit
      if newCap < required then .error .limit
      else
        match alloc with
        | none => .error .noMemory
        | some data => .ok { stream with txData := some data, txCap := newCap }
  else .ok stream

/-- `quic_backend_stream_shrink_tx` (`quic_backend_ngtcp2_stream.c:333-370`). -/
def shrinkTx (alloc : Option Nat) (stream : Stream) : Stream :=
  if stream.txSentLen = 0 then
    if stream.txLen = 0 then { stream with txData := none, txCap := 0 }
    else if stream.txLen < stream.txCap then
      let newCap := nextTxCap 0 stream.txLen stream.txCap
      if newCap < stream.txCap then
        match alloc with
        | none => stream
        | some data => { stream with txData := some data, txCap := newCap }
      else stream
    else stream
  else stream

/-- What `quic_backend_stream_write` returns, and `*accepted`. -/
structure WriteResult where
  result : Except QuicErr Unit
  accepted : Nat
  stream : Stream

/-- The retained limit of a write. -/
def retainedLimit (window : Nat) : Nat := window * streamSendMultiplier

/-- The first half of `quic_backend_stream_write` (`quic_backend_ngtcp2_stream.c:372-442`): how many
    of `dataLen` bytes are taken, in a buffer that has room for them. -/
def reserveWrite (window dataLen : Nat) (alloc : Option Nat) (stream : Stream) :
    Except QuicErr (Nat × Stream) := do
  stream.validate
  if stream.localFinQueued ∨ stream.localReset then throw .closed
  if sizeMax / streamSendMultiplier < window then throw .limit
  let limit := retainedLimit window
  if stream.txLen < stream.txSentLen then throw .state
  if limit ≤ stream.txLen ∧ dataLen ≠ 0 then throw .wouldBlock
  let acceptLen := min dataLen (limit - stream.txLen)
  let required := stream.txLen + acceptLen
  if limit < required then throw .wouldBlock
  let stream ← if stream.txCap < required then stream.reserveTx required limit alloc else .ok stream
  return (acceptLen, stream)

/-- `quic_backend_stream_write` (`quic_backend_ngtcp2_stream.c:372-496`). A refused event leaves the
    bytes in the buffer and `*accepted` set. -/
def write (window : Nat) (data : Bytes) (fin : Bool) (alloc : Option Nat) (pushed : Bool)
    (stream : Stream) : WriteResult :=
  match stream.reserveWrite window data.length alloc with
  | .error .wouldBlock => ⟨.error .wouldBlock, 0, { stream with writeBlocked := true }⟩
  | .error e => ⟨.error e, 0, stream⟩
  | .ok (acceptLen, stream) =>
    let stream := { stream with
      txBytes := stream.txBytes ++ data.take acceptLen
      localFinQueued := stream.localFinQueued || (fin && acceptLen = data.length) }
    if pushed then ⟨.ok (), acceptLen, { stream with writeBlocked := false }⟩
    else ⟨.error .limit, acceptLen, stream⟩

/-- `quic_backend_stream_finish` (`quic_backend_ngtcp2_stream.c:498-504`). -/
def finish (window : Nat) (alloc : Option Nat) (pushed : Bool) (stream : Stream) : WriteResult :=
  stream.write window [] true alloc pushed

/-! ## Acknowledgements -/

/-- The merging loop of `quic_backend_stream_insert_ack_range`: the ranges before the merged one,
    the merged one, and those after it. -/
def mergeAckRange : Nat → Nat → List AckRange → List AckRange × AckRange × List AckRange
  | start, stop, [] => ([], ⟨start, stop⟩, [])
  | start, stop, range :: ranges =>
    if range.stop < start then
      let (before, merged, after) := mergeAckRange start stop ranges
      (range :: before, merged, after)
    else if stop < range.start then ([], ⟨start, stop⟩, range :: ranges)
    else mergeAckRange (min range.start start) (max range.stop stop) ranges

/-- `quic_backend_stream_insert_ack_range` (`quic_backend_ngtcp2_stream.c:532-582`); without room
    the merged range is lost. -/
def insertAckRange (start stop : Nat) (ranges : List AckRange) : List AckRange :=
  let (before, merged, after) := mergeAckRange start stop ranges
  if before.length + after.length < streamAckRangeCap then before ++ merged :: after
  else before ++ after

/-- `quic_backend_stream_record_acked_range` (`quic_backend_ngtcp2_stream.c:584-649`): the stream,
    and whether all that was sent is now acknowledged; `none` is a callback failure. -/
def recordAckedRange (offset dataLen : Nat) (stream : Stream) : Option (Stream × Bool) :=
  if sizeMax - offset < dataLen ∨ stream.txLen < stream.txSentLen ∨
      sizeMax - stream.txBaseOffset < stream.txSentLen then none
  else if dataLen = 0 ∨ stream.txSentLen = 0 then some (stream, false)
  else
    let sentEnd := stream.txBaseOffset + stream.txSentLen
    let start := max offset stream.txBaseOffset
    let stop := min (offset + dataLen) sentEnd
    if start < stop then
      let ranges := insertAckRange start stop stream.txAckRanges
      let acked := match ranges with
        | [] => false
        | first :: _ => first.start ≤ stream.txBaseOffset ∧ sentEnd ≤ first.stop
      some ({ stream with txAckRanges := ranges }, acked)
    else some (stream, false)

/-- `quic_backend_wake_blocked_writer` (`quic_backend_ngtcp2_callbacks.c:541-586`), with the return
    value zero. -/
def wakeBlockedWriter (pushed : Bool) (stream : Stream) : Stream × Bool :=
  if stream.state.live ∧ ¬ stream.localFinQueued then
    if pushed then ({ stream with writeBlocked := false }, true) else (stream, false)
  else (stream, true)

/-- `quic_backend_reclaim_acked_stream_data` (`quic_backend_ngtcp2_callbacks.c:588-631`). -/
def reclaimAcked (offset dataLen : Nat) (alloc : Option Nat) (pushed : Bool) (stream : Stream) :
    Stream × Bool :=
  match stream.recordAckedRange offset dataLen with
  | none => (stream, false)
  | some (stream, false) => (stream, true)
  | some (stream, true) =>
    let stream := { stream with
      txBaseOffset := stream.txBaseOffset + stream.txSentLen
      txBytes := stream.txBytes.drop stream.txSentLen
      txSentLen := 0 }
    wakeBlockedWriter pushed { stream.shrinkTx alloc with txAckRanges := [] }

/-! ## The end of a stream -/

/-- `quic_backend_stream_discard_tx` (`quic_backend_ngtcp2_stream.c:651-684`). -/
def discardTx (stream : Stream) : Stream :=
  let stream := { stream with
    txBaseOffset := min (stream.txBaseOffset + stream.txSentLen) sizeMax
    txBytes := []
    txSentLen := 0 }
  { stream.shrinkTx none with
    txAckRanges := []
    localFinQueued := false
    localFinSent := false
    writeBlocked := false }

/-- `quic_backend_stream_reset` (`quic_backend_ngtcp2_stream.c:686-719`); `shut` is what
    `ngtcp2_conn_shutdown_stream_write` answers. -/
def resetStream (shut : Except QuicErr Unit) (pushed : Bool) (stream : Stream) :
    Except QuicErr Unit × Stream :=
  match stream.validate with
  | .error e => (.error e, stream)
  | .ok () =>
    match shut with
    | .error e => (.error e, stream)
    | .ok () =>
      let stream := { stream.discardTx with
        localReset := true
        state := if stream.remoteFin ∨ stream.remoteReset then .reset else .halfClosedLocal }
      (if pushed then .ok () else .error .limit, stream)

/-- What `quic_backend_stream_close_cb` does to the stream (`quic_backend_ngtcp2_callbacks.c:438-455`);
    `appError` is its flag for an application error code. -/
def closeCb (appError : Bool) (stream : Stream) : Stream :=
  { stream.discardTx with state := if appError then .reset else .closed }

/-- What `quic_backend_stream_reset_cb` does to the stream
    (`quic_backend_ngtcp2_callbacks.c:519-525`). -/
def resetCb (stream : Stream) : Stream :=
  { stream with
    remoteReset := true
    state := if stream.localFinSent ∨ stream.localReset then .reset else .halfClosedRemote }

/-- What `quic_backend_recv_stream_data_cb` does to the stream once the bytes are stored
    (`quic_backend_ngtcp2_callbacks.c:345-372`). -/
def recvData (data : Bytes) (fin : Bool) (stream : Stream) : Stream :=
  let stream := { stream with
    rx := stream.rx ++ data
    rxNextOffset := stream.rxNextOffset + data.length }
  if fin then
    { stream with
      remoteFin := true
      state := if stream.localFinSent ∨ stream.localReset then
          if stream.localReset then .reset else .closed
        else .halfClosedRemote }
  else stream

/-! ## Handing bytes over -/

/-- The stream has something for `quic_backend_conn_next_tx_stream` to pick
    (`quic_backend_ngtcp2_conn.c:796-800`). -/
def wantsTx (stream : Stream) : Bool :=
  stream.state.live &&
    (decide (stream.txSentLen < stream.txLen) || (stream.localFinQueued && !stream.localFinSent))

/-- What `quic_backend_write_conn_datagram` offers of the stream
    (`quic_backend_ngtcp2_conn.c:975-992`): the bytes at `&tx_data[tx_sent_len]` and the FIN flag. -/
def offeredBytes (stream : Stream) : Bytes := stream.txBytes.drop stream.txSentLen

def offeredFin (stream : Stream) : Bool :=
  stream.localFinQueued && !stream.localFinSent && stream.txSentLen = stream.txLen

/-- `quic_backend_maybe_wake_stream_after_tx_drain` (`quic_backend_ngtcp2_conn.c:810-842`). -/
def wakeAfterTxDrain (pushed : Bool) (stream : Stream) : Stream :=
  if stream.txLen ≠ 0 ∧ stream.state.live ∧ ¬ stream.localFinQueued ∧
      stream.txSentLen = stream.txLen ∧ pushed then { stream with writeBlocked := false }
  else stream

/-- What follows a packet with `dataLen` bytes of the stream
    (`quic_backend_ngtcp2_conn.c:1033-1058`); `fin` is the flag it was offered with. -/
def sent (dataLen : Nat) (fin pushed : Bool) (stream : Stream) : Stream :=
  let stream := wakeAfterTxDrain pushed { stream with txSentLen := stream.txSentLen + dataLen }
  if fin ∧ stream.txSentLen = stream.txLen then
    { stream with
      localFinSent := true
      state := if stream.remoteFin ∨ stream.remoteReset then
          if stream.remoteReset then .reset else .closed
        else .halfClosedLocal }
  else stream

end Stream

end LeanLibp2p.Quic
