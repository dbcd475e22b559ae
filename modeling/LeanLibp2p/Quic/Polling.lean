import LeanLibp2p.Quic.Authenticated
import LeanLibp2p.Quic.StreamObjects

/-!
# Timers and turns of the QUIC endpoint

`quic_backend_endpoint_poll`, `quic_backend_endpoint_next_deadline` and
`quic_backend_endpoint_next_datagram` of `quic_backend_ngtcp2_endpoint.c`, with the clock of
`quic_backend_ngtcp2_util.c` that they read. The expiries and what ngtcp2 answers are arguments. `Listed`
is what every run of an endpoint keeps of its array of connections.
-/

namespace LeanLibp2p.Quic

open LeanLibp2p.Lib

/-! ## The clock -/

/-- `UINT64_MAX` as a time, which ngtcp2 uses for none. -/
def timeMax : UInt64 := 18446744073709551615

/-- `NGTCP2_MICROSECONDS`, in nanoseconds. -/
def microseconds : UInt64 := 1000

/-- The clock fields of `libp2p_quic_endpoint_t`. -/
structure EndpointClock where
  hasTimeOrigin : Bool := false
  timeOriginUs : UInt64 := 0
  lastObservedNowUs : UInt64 := 0
  deriving DecidableEq

/-- `quic_backend_time_to_ngtcp2` (`quic_backend_ngtcp2_util.c:87-101`). -/
def timeToNgtcp2 (nowUs : UInt64) : UInt64 :=
  if timeMax / microseconds < nowUs then timeMax else nowUs * microseconds

/-- `quic_backend_time_from_ngtcp2` (`quic_backend_ngtcp2_util.c:103-106`). -/
def timeFromNgtcp2 (ts : UInt64) : UInt64 := ts / microseconds

namespace EndpointClock

/-- What `quic_backend_endpoint_time_to_ngtcp2` (`quic_backend_ngtcp2_util.c:114-137`) does to the
    clock. -/
def observe (nowUs : UInt64) (clock : EndpointClock) : EndpointClock :=
  { hasTimeOrigin := true
    timeOriginUs := if clock.hasTimeOrigin then clock.timeOriginUs else nowUs
    lastObservedNowUs :=
      if clock.lastObservedNowUs < nowUs then nowUs else clock.lastObservedNowUs }

/-- What `quic_backend_endpoint_time_to_ngtcp2` returns. -/
def toNgtcp2 (clock : EndpointClock) (nowUs : UInt64) : UInt64 :=
  let origin := (clock.observe nowUs).timeOriginUs
  timeToNgtcp2 (if origin ≤ nowUs then nowUs - origin else 0)

/-- `quic_backend_endpoint_time_from_ngtcp2` (`quic_backend_ngtcp2_util.c:139-158`). -/
def fromNgtcp2 (clock : EndpointClock) (ts : UInt64) : UInt64 :=
  let relativeUs := timeFromNgtcp2 ts
  if clock.hasTimeOrigin then
    if timeMax - clock.timeOriginUs < relativeUs then timeMax else clock.timeOriginUs + relativeUs
  else relativeUs

end EndpointClock

/-! ## Timers -/

/-- `ngtcp2_conn_get_expiry2` of each connection, and what `ngtcp2_conn_handle_expiry` answers at a
    time. -/
structure Timers where
  expiry : Nat → UInt64
  handleExpiry : UInt64 → Nat → Except ConnError Unit

/-- Whether a connection's expiry is to be handled. -/
def Timers.due (timers : Timers) (now : UInt64) (c : Nat) : Bool :=
  timers.expiry c ≠ timeMax ∧ timers.expiry c ≤ now

/-- Neither `CLOSED` nor `DRAINED`. -/
def ConnState.live (state : ConnState) : Bool := state ≠ .closed && state ≠ .drained

/-- What a loop over the connections returns and leaves, and the connections that it called ngtcp2
    for, in order. -/
structure SweepRun where
  result : Except QuicErr Unit
  endpoint : Endpoint
  visited : List Nat

/-- A loop that called ngtcp2 for one connection before. -/
def SweepRun.after (c : Nat) (run : SweepRun) : SweepRun := { run with visited := c :: run.visited }

namespace Endpoint

/-- The expiry of a connection is handled (`quic_backend_ngtcp2_endpoint.c:522-538`). -/
def pollTurn (timers : Timers) (now : UInt64) (c : Nat) (endpoint : Endpoint) :
    Except QuicErr Unit × Endpoint :=
  match timers.handleExpiry now c with
  | .ok () => (.ok (), (endpoint.eventPush .txDatagramReady c).2)
  | .error e =>
    match endpoint.handleConnError c e with
    | (.ok (), endpoint) => (.ok (), (endpoint.eventPush .txDatagramReady c).2)
    | (.error e, endpoint) => (.error e, endpoint)

/-- The loop of `quic_backend_endpoint_poll`. The array does not grow meanwhile, so `rounds` is its
    length at first. -/
def pollLoop (timers : Timers) (now : UInt64) : (rounds index : Nat) → Endpoint → SweepRun
  | 0, _, endpoint => ⟨.ok (), endpoint, []⟩
  | rounds + 1, index, endpoint =>
    match endpoint.connections[index]? with
    | none => ⟨.ok (), endpoint, []⟩
    | some c =>
      if (endpoint.conn c).state.live ∧ timers.due now c then
        match endpoint.pollTurn timers now c with
        | (.ok (), endpoint) => (endpoint.pollLoop timers now rounds (index + 1)).after c
        | (.error e, endpoint) => ⟨.error e, endpoint, [c]⟩
      else endpoint.pollLoop timers now rounds (index + 1)

/-- `quic_backend_endpoint_poll` (`quic_backend_ngtcp2_endpoint.c:505-543`), with the time as ngtcp2
    is told it. -/
def poll (timers : Timers) (now : UInt64) (endpoint : Endpoint) : SweepRun :=
  match endpoint.validate with
  | .error e => ⟨.error e, endpoint, []⟩
  | .ok () => endpoint.pollLoop timers now endpoint.connections.length 0

/-- `quic_backend_endpoint_next_deadline` (`quic_backend_ngtcp2_endpoint.c:545-586`). -/
def nextDeadline (timers : Timers) (clock : EndpointClock) (endpoint : Endpoint) :
    Except QuicErr UInt64 :=
  let best := endpoint.connections.foldl (fun best c =>
    if (endpoint.conn c).state.live ∧ timers.expiry c < best then timers.expiry c else best) timeMax
  if best = timeMax then .error .wouldBlock else .ok (clock.fromNgtcp2 best)

end Endpoint

/-! ## Turns -/

/-- `quic_backend_conn_next_tx_stream` (`quic_backend_ngtcp2_conn.c:778-808`): the first stream from
    the cursor on that has something to send, behind which the cursor moves. -/
def Conn.nextTx (conn : Conn) : Option Nat × Conn :=
  let start := if conn.nextTxStream < conn.streams.length then conn.nextTxStream else 0
  let pick (index : Nat) := conn.streams.getD ((start + index) % conn.streams.length) 0
  match (List.range conn.streams.length).find? fun index => (conn.object (pick index)).wantsTx with
  | none => (none, conn)
  | some index =>
    (some (pick index),
      { conn with nextTxStream := ((start + index) % conn.streams.length + 1) %
        conn.streams.length })

/-- What `ngtcp2_conn_writev_stream` answers: it wrote a datagram, with so many bytes of the stream if
    it has data of the stream; it has nothing to write, or cannot for now; or it fails. -/
inductive WriteAnswer where
  | written (dataLen : Option Nat)
  | blocked
  | failed (error : ConnError)
  deriving DecidableEq

/-- What ngtcp2 answers for each connection: `ngtcp2_conn_write_connection_close`, whether it wrote
    something, and `ngtcp2_conn_writev_stream` on a stream or on none. -/
structure Writes where
  close : Nat → Except QuicErr Bool
  stream : Nat → Option Nat → WriteAnswer

/-- The check of `quic_backend_maybe_wake_stream_after_tx_drain` (`quic_backend_ngtcp2_conn.c:812-815`). -/
def Stream.drained (stream : Stream) : Bool :=
  stream.txLen ≠ 0 ∧ stream.state.live ∧ ¬ stream.localFinQueued ∧ stream.txSentLen = stream.txLen

namespace Endpoint

/-- What follows a packet with `dataLen` bytes of a stream (`quic_backend_ngtcp2_conn.c:1033-1058`). -/
def noteSent (c stream dataLen : Nat) (endpoint : Endpoint) : Endpoint :=
  let object := (endpoint.conn c).object stream
  let sent := { object with txSentLen := object.txSentLen + dataLen }
  let (pushed, endpoint) :=
    if sent.drained then endpoint.eventPush (.stream ⟨.streamWritable, stream⟩) c
    else (.error .wouldBlock, endpoint)
  endpoint.update c fun conn =>
    conn.update stream fun object => object.sent dataLen object.offeredFin (pushed = .ok ())

/-- `quic_backend_write_conn_datagram` (`quic_backend_ngtcp2_conn.c:900-1110`). -/
def writeConnDatagram (writes : Writes) (c : Nat) (endpoint : Endpoint) :
    Except QuicErr Unit × Endpoint :=
  if (endpoint.conn c).closeRequested then
    match writes.close c with
    | .ok true => (.ok (), (endpoint.markClosed c).2)
    | .ok false => (.error .wouldBlock, endpoint)
    | .error e => (.error e, endpoint)
  else
    let pick := (endpoint.conn c).nextTx.1
    let endpoint := endpoint.update c fun conn => conn.nextTx.2
    match writes.stream c pick with
    | .written dataLen =>
      match pick, dataLen with
      | some stream, some dataLen => (.ok (), endpoint.noteSent c stream dataLen)
      | _, _ => (.ok (), endpoint)
    | .blocked => (.error .wouldBlock, endpoint)
    | .failed error =>
      match endpoint.handleConnError c error with
      | (.ok (), endpoint) => (.error .wouldBlock, endpoint)
      | (.error e, endpoint) => (.error e, endpoint)

/-- A datagram was written for the connection at `index`
    (`quic_backend_ngtcp2_endpoint.c:447-456`). -/
def noteTx (index c : Nat) (endpoint : Endpoint) : Endpoint :=
  { endpoint with
    lastTxConn := some c
    nextTxConnection :=
      if (endpoint.conn c).endpointRegistered ∧ endpoint.connections.length ≠ 0 then
        (index + 1) % endpoint.connections.length
      else endpoint.nextTxConnection }

/-- The loop of `quic_backend_endpoint_next_datagram`; `rounds` as for `pollLoop`. -/
def datagramLoop (writes : Writes) (start : Nat) : (rounds index : Nat) → Endpoint → SweepRun
  | 0, _, endpoint => ⟨.error .wouldBlock, endpoint, []⟩
  | rounds + 1, index, endpoint =>
    if endpoint.connections.length ≤ index then ⟨.error .wouldBlock, endpoint, []⟩
    else
      let connIndex := (start + index) % endpoint.connections.length
      let c := endpoint.connections.getD connIndex 0
      if (endpoint.conn c).state.live then
        match endpoint.writeConnDatagram writes c with
        | (.ok (), endpoint) => ⟨.ok (), endpoint.noteTx connIndex c, [c]⟩
        | (.error .wouldBlock, endpoint) =>
          (endpoint.datagramLoop writes start rounds (index + 1)).after c
        | (.error e, endpoint) => ⟨.error e, endpoint, [c]⟩
      else endpoint.datagramLoop writes start rounds (index + 1)

/-- `LIBP2P_QUIC_MIN_INITIAL_DATAGRAM_BYTES`. -/
def minInitialDatagramBytes : Nat := 1200

/-- Where `quic_backend_endpoint_next_datagram` starts. -/
def firstTurn (endpoint : Endpoint) : Nat :=
  if endpoint.nextTxConnection < endpoint.connections.length then endpoint.nextTxConnection else 0

/-- `quic_backend_endpoint_next_datagram` (`quic_backend_ngtcp2_endpoint.c:393-463`) into `dataCap`
    bytes. -/
def nextDatagram (writes : Writes) (dataCap : Nat) (endpoint : Endpoint) : SweepRun :=
  let endpoint := { endpoint with lastTxConn := none }
  match endpoint.validate with
  | .error e => ⟨.error e, endpoint, []⟩
  | .ok () =>
    if dataCap < minInitialDatagramBytes then ⟨.error .bufTooSmall, endpoint, []⟩
    else endpoint.datagramLoop writes endpoint.firstTurn endpoint.connections.length 0

end Endpoint

/-! ## Runs -/

/-- An endpoint with its clock. -/
structure TimedEndpoint where
  endpoint : Endpoint
  clock : EndpointClock := {}

/-- What happens on a connection, as far as its streams go. Its application holds them all, and ngtcp2
    has them open. -/
def Conn.onStreams (action : ConnAction) (conn : Conn) : Conn :=
  let run : ConnRun :=
    { conn := conn
      ngStreams := conn.streams.map fun stream => ((conn.object stream).streamId, some stream)
      held := conn.streams }
  let after := (run.step action).conn
  { conn with streams := after.streams, objects := after.objects }

/-- A call of the endpoint or one of its callbacks: `streams` is one on a connection's streams, and
    `observe` is any call that is told the time. -/
inductive TimedAction where
  | call (action : AuthAction)
  | streams (c : Nat) (action : ConnAction)
  | observe (nowUs : UInt64)
  | poll (timers : Timers) (nowUs : UInt64)
  | nextDatagram (writes : Writes) (dataCap : Nat)

namespace TimedEndpoint

/-- `quic_backend_endpoint_poll` at a time of the caller. -/
def poll (timers : Timers) (nowUs : UInt64) (timed : TimedEndpoint) : SweepRun :=
  timed.endpoint.poll timers (timed.clock.toNgtcp2 nowUs)

variable (peerIdValid : Bytes → Bool)

/-- One thing happens. -/
def step (timed : TimedEndpoint) : TimedAction → TimedEndpoint
  | .call action =>
    { timed with endpoint := AuthRun.endpointStep peerIdValid timed.endpoint action }
  | .streams c action =>
    { timed with endpoint := timed.endpoint.update c (Conn.onStreams action) }
  | .observe nowUs => { timed with clock := timed.clock.observe nowUs }
  | .poll timers nowUs =>
    { endpoint := (timed.poll timers nowUs).endpoint
      clock := timed.clock.observe nowUs }
  | .nextDatagram writes dataCap =>
    { timed with endpoint := (timed.endpoint.nextDatagram writes dataCap).endpoint }

/-- An endpoint that was just initialized. -/
def start (config : EndpointConfig) (eventCap : Nat) : TimedEndpoint where
  endpoint := { config := config, eventCap := eventCap }

/-- An endpoint that some run leads to. -/
def Reachable (timed : TimedEndpoint) : Prop :=
  ∃ config eventCap actions, runFrom (step peerIdValid) (start config eventCap) actions = timed

end TimedEndpoint

end LeanLibp2p.Quic
