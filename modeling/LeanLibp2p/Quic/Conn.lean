import LeanLibp2p.Quic.StreamTx

/-!
# The streams of a QUIC connection

The stream vector of `libp2p_quic_conn_t` and the functions and ngtcp2 callbacks that look a stream
up, make one or end one. A stream pointer is the number of its allocation. What the allocator,
ngtcp2 and the endpoint's event queue answer are arguments, as for one stream.
-/

namespace LeanLibp2p.Quic

/-- The `libp2p_quic_event_type_t` of the events that carry a stream. -/
inductive StreamEventType where
  | streamIncoming
  | streamReadable
  | streamWritable
  | streamReset
  | streamClosed
  | txDatagramReady
  deriving DecidableEq, Repr

/-- A `libp2p_quic_event_t` with a stream. -/
structure StreamEvent where
  type : StreamEventType
  stream : Nat
  deriving DecidableEq, Repr

/-- `LIBP2P_QUIC_ROLE_CLIENT` or `LIBP2P_QUIC_ROLE_SERVER`. -/
inductive Role where
  | client
  | server
  deriving DecidableEq, Repr

/-- The part of `libp2p_quic_conn_t` (`quic_backend_ngtcp2_internal.h`) that concerns its endpoint and
    its streams: `streams` is `streams.items[0..len)`, and `objects` holds every stream object that was ever
    allocated for the connection, in the order of the allocations. -/
structure Conn where
  role : Role := .server
  state : ConnState := .handshaking
  endpointRegistered : Bool := false
  closeRequested : Bool := false
  streams : List Nat := []
  objects : List Stream := []
  nextTxStream : Nat := 0
  deriving DecidableEq, Repr

variable (conn : Conn) (userData : Option Nat) (streamId : Int)

namespace Conn

/-- The stream object at a pointer. -/
def object (stream : Nat) : Stream := conn.objects.getD stream {}

/-- Write to the stream object at a pointer. -/
def update (stream : Nat) (f : Stream → Stream) : Conn :=
  { conn with objects := conn.objects.modify stream f }

/-- `quic_backend_conn_find_stream` (`quic_backend_ngtcp2_stream.c:21-41`). -/
def findStream : Option Nat :=
  conn.streams.find? fun stream => (conn.object stream).streamId = streamId

/-- `quic_backend_stream_new` (`quic_backend_ngtcp2_stream.c:101-131`); `allocated` says whether the
    object and its place in the vector could be allocated. -/
def streamNew (incoming allocated : Bool) : Option (Nat × Conn) :=
  if allocated then
    some (conn.objects.length,
      { conn with
        streams := conn.streams ++ [conn.objects.length]
        objects := conn.objects ++ [{ streamId := streamId, incoming := incoming }] })
  else none

/-- What the callbacks do first: ngtcp2's pointer, or the stream with that id, or a new one. -/
def resolveStream (allocated : Bool) : Option (Nat × Conn) :=
  match userData with
  | some stream => some (stream, conn)
  | none =>
    match conn.findStream streamId with
    | some stream => some (stream, conn)
    | none => conn.streamNew streamId true allocated

/-- `quic_backend_conn_open_bidi_stream` (`quic_backend_ngtcp2_conn.c:1233-1278`); `opened` is what
    `ngtcp2_conn_open_bidi_stream` answers. -/
def openBidiStream (allocated : Bool) (opened : Except QuicErr Int) : Except QuicErr Nat × Conn :=
  if conn.state ≠ .established then (.error .state, conn)
  else
    match conn.streamNew (-1) false allocated with
    | none => (.error .noMemory, conn)
    | some (stream, conn) =>
      match opened with
      | .error e => (.error e, { conn with streams := conn.streams.dropLast })
      | .ok streamId =>
        (.ok stream, conn.update stream fun object => { object with streamId := streamId })

/-- `quic_backend_conn_accept_stream` (`quic_backend_ngtcp2_conn.c:1280-1313`). -/
def acceptStream : Except QuicErr Nat × Conn :=
  let waiting (stream : Nat) := (conn.object stream).incoming ∧ ¬ (conn.object stream).accepted
  match conn.streams.find? fun stream => waiting stream with
  | none => (.error .wouldBlock, conn)
  | some stream =>
    (.ok stream, conn.update stream fun object => { object with accepted := true })

end Conn

/-! ## The callbacks -/

/-- What a callback is answered: whether a new stream object could be allocated, whether ngtcp2 took
    the stream's user data, and whether there was room for the two events. -/
structure CallbackAnswers where
  allocated : Bool := true
  userDataSet : Bool := true
  incomingPushed : Bool := true
  pushed : Bool := true
  deriving DecidableEq, Repr

/-- A callback's effects: the connection, the user data that ngtcp2 has for the stream, the events
    that were queued, and whether it returns zero. -/
structure CallbackResult where
  conn : Conn
  userData : Option Nat
  events : List StreamEvent
  ok : Bool
  deriving DecidableEq, Repr

/-- An event that is queued where there is room. -/
def pushEvent (pushed : Bool) (type : StreamEventType) (stream : Nat) : List StreamEvent :=
  if pushed then [⟨type, stream⟩] else []

namespace Conn

/-- What the stream callbacks have in common. A stream without user data is looked up or made, and
    ngtcp2 is told; `announce` says that it is then announced as incoming. `f` is what happens to the
    stream object, `none` a failure, and `type` the event that reports it. -/
def streamCallback (announce : Bool)
    (f : Stream → Option Stream) (type : StreamEventType) (answers : CallbackAnswers) :
    CallbackResult :=
  match conn.resolveStream userData streamId answers.allocated with
  | none => ⟨conn, userData, [], false⟩
  | some (stream, conn) =>
    if userData.isNone ∧ ¬ answers.userDataSet then ⟨conn, none, [], false⟩
    else
      let announced := announce && userData.isNone
      if announced ∧ ¬ answers.incomingPushed then ⟨conn, some stream, [], false⟩
      else
        let events := pushEvent announced .streamIncoming stream
        match f (conn.object stream) with
        | none => ⟨conn, some stream, events, false⟩
        | some object =>
          ⟨conn.update stream fun _ => object, some stream,
            events ++ pushEvent answers.pushed type stream, answers.pushed⟩

/-- `quic_backend_stream_open_cb` (`quic_backend_ngtcp2_callbacks.c:195-237`). -/
def streamOpenCb (answers : CallbackAnswers) : CallbackResult :=
  conn.streamCallback none streamId false some .streamIncoming answers

/-- `quic_backend_recv_stream_data_cb` (`quic_backend_ngtcp2_callbacks.c:299-385`); `stored` says
    whether the bytes could be stored. -/
def recvStreamDataCb (offset : Nat)
    (data : Bytes) (fin stored : Bool) (answers : CallbackAnswers) : CallbackResult :=
  conn.streamCallback userData streamId false
    (fun stream =>
      if offset ≠ stream.rxNextOffset ∨ ¬ stored then none else some (stream.recvData data fin))
    .streamReadable answers

/-- `quic_backend_stream_close_cb` (`quic_backend_ngtcp2_callbacks.c:387-469`). -/
def streamCloseCb (appError : Bool) (answers : CallbackAnswers) : CallbackResult :=
  conn.streamCallback userData streamId true (fun stream => some (stream.closeCb appError))
    .streamClosed answers

/-- `quic_backend_stream_reset_cb` (`quic_backend_ngtcp2_callbacks.c:471-539`). -/
def streamResetCb (answers : CallbackAnswers) : CallbackResult :=
  conn.streamCallback userData streamId true (fun stream => some stream.resetCb) .streamReset
    answers

end Conn

end LeanLibp2p.Quic
