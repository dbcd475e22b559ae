import LeanLibp2p.Host.Transport

/-!
# The QUIC backend's values

The result codes and states of `quic_types.h` and the stream of
`quic_backend_ngtcp2_internal.h`. Result codes leave out `OK`. A pointer to a buffer is the
number of its allocation: an allocation that succeeds gets a number that was not used before,
so two equal numbers are one buffer that was neither moved nor freed in between.
-/

namespace LeanLibp2p.Quic

/-- `libp2p_quic_err_t` without `OK` (`quic_types.h:57-80`). -/
abbrev QuicErr : Type := Host.QuicErr

/-- `libp2p_quic_conn_state_t`. -/
inductive ConnState where
  | idle
  | handshaking
  | established
  | closing
  | closed
  | drained
  deriving DecidableEq, Repr

/-- `libp2p_quic_stream_state_t`. -/
abbrev StreamState : Type := Host.QuicStreamState

/-- Neither `CLOSED` nor `RESET`. -/
def StreamState.live (state : StreamState) : Bool := state ≠ .closed && state ≠ .reset

/-- `QUIC_BACKEND_STREAM_SEND_MIN_CAP`. -/
def streamSendMinCap : Nat := 4096
/-- `QUIC_BACKEND_STREAM_SEND_MULTIPLIER`. -/
def streamSendMultiplier : Nat := 2
/-- `QUIC_BACKEND_STREAM_ACK_RANGE_CAP`. -/
def streamAckRangeCap : Nat := 32

/-- `quic_backend_ack_range_t`: the stream offsets from `start` up to `stop`. -/
structure AckRange where
  start : Nat
  stop : Nat
  deriving DecidableEq, Repr

/-- `libp2p_quic_stream_t` (`quic_backend_ngtcp2_internal.h:53-81`). `rx` is what was received and
    not read, `txBytes` is `tx_data[0..tx_len)`, and the ranges are those below their count. -/
structure Stream where
  streamId : Int := -1
  state : StreamState := .opened
  incoming : Bool := false
  accepted : Bool := false
  remoteFin : Bool := false
  remoteFinDelivered : Bool := false
  remoteReset : Bool := false
  localFinQueued : Bool := false
  localFinSent : Bool := false
  localReset : Bool := false
  rx : Bytes := []
  rxNextOffset : Nat := 0
  txData : Option Nat := none
  txBytes : Bytes := []
  txSentLen : Nat := 0
  txCap : Nat := 0
  txBaseOffset : Nat := 0
  txAckRanges : List AckRange := []
  writeBlocked : Bool := false
  deriving DecidableEq, Repr

end LeanLibp2p.Quic
