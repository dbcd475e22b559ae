import LeanLibp2p.Multiformats.Varint

/-!
# Streams of the QUIC transport

The receiving side of a QUIC stream (`quic_backend_ngtcp2_stream.c`), and how the host reads it
(`libp2p_host_streams.c`): bytes that came in with the negotiation frames are kept by the host and
are served first.
-/

namespace LeanLibp2p.Host

/-- `libp2p_quic_err_t` without `OK`. -/
inductive QuicErr where
  | invalidArg
  | bufTooSmall
  | unsupported
  | noMemory
  | state
  | wouldBlock
  | limit
  | notFound
  | closed
  | addr
  | version
  | tls
  | certificate
  | certificateChain
  | certificateTime
  | certificateSignature
  | certificateExtension
  | peerIdMismatch
  | backend
  | internal
  deriving DecidableEq, Repr

/-- `libp2p_host_err_t` without `OK`. -/
inductive HostErr where
  | invalidArg
  | bufTooSmall
  | unsupported
  | state
  | wouldBlock
  | limit
  | notFound
  | closed
  | addr
  | identity
  | transport
  | negotiation
  | protocol
  | internal
  deriving DecidableEq, Repr

/-- `host_quic_err` (`libp2p_host_quic_transport.c:9-56`). -/
def hostQuicErr : QuicErr → HostErr
  | .invalidArg => .invalidArg
  | .bufTooSmall => .bufTooSmall
  | .unsupported => .unsupported
  | .state => .state
  | .wouldBlock => .wouldBlock
  | .limit | .noMemory => .limit
  | .notFound => .notFound
  | .closed => .closed
  | .addr => .addr
  | .peerIdMismatch => .identity
  | _ => .transport

/-- `libp2p_quic_stream_state_t`. -/
inductive QuicStreamState where
  | opened
  | halfClosedLocal
  | halfClosedRemote
  | closed
  | reset
  deriving DecidableEq, Repr

/-- The receiving side of `libp2p_quic_stream_t`; `rx` are the bytes `rx_data[rx_read_offset ..
    rx_len)`. -/
structure QuicStream where
  state : QuicStreamState
  remoteFin : Bool
  remoteFinDelivered : Bool
  remoteReset : Bool
  localFinSent : Bool
  localReset : Bool
  rx : Bytes
  deriving DecidableEq, Repr

/-- A stream that just opened. -/
def QuicStream.fresh : QuicStream := ⟨.opened, false, false, false, false, false, []⟩

/-- `quic_backend_stream_read` (`quic_backend_ngtcp2_stream.c:184-273`): the bytes copied to the output, and
    whether the stream ends behind them. -/
def quicStreamRead (outLen : Nat) (s : QuicStream) : Except QuicErr (Bytes × Bool) × QuicStream :=
  if s.rx = [] ∧ (s.remoteReset ∨ s.remoteFin ∧ s.remoteFinDelivered) then (.error .closed, s)
  else if s.state = .closed ∧ s.rx = [] ∧ (¬ s.remoteFin ∨ s.remoteFinDelivered) then
    (.error .closed, s)
  else
    let bytes := s.rx.take outLen
    let rx := s.rx.drop outLen
    let fin := s.remoteFin && rx.isEmpty && !s.remoteFinDelivered
    let s := { s with rx := rx, remoteFinDelivered := s.remoteFinDelivered || fin }
    if bytes = [] ∧ ¬ fin then (.error .wouldBlock, s) else (.ok (bytes, fin), s)

/-- There is nothing left to read, and the peer will send nothing more. -/
def QuicStream.Terminal (s : QuicStream) : Prop :=
  s.rx = [] ∧ (s.remoteReset ∨ s.remoteFin ∧ s.remoteFinDelivered ∨
    s.state = .closed ∧ (¬ s.remoteFin ∨ s.remoteFinDelivered))

instance (s : QuicStream) : Decidable s.Terminal := by
  unfold QuicStream.Terminal
  infer_instance

/-- A terminal stream answers `CLOSED`, any other one bytes, its end or `WOULD_BLOCK`. -/
theorem quicStreamRead_of_terminal {s : QuicStream} (h : s.Terminal) (outLen : Nat) :
    quicStreamRead outLen s = (.error .closed, s) := by
  unfold quicStreamRead
  by_cases hreset : s.rx = [] ∧ (s.remoteReset = true ∨ s.remoteFin = true ∧
      s.remoteFinDelivered = true)
  · rw [if_pos hreset]
  · rw [if_neg hreset, if_pos]
    refine ⟨?_, h.1, ?_⟩
    · rcases h.2 with hr | hr | hr
      · exact absurd ⟨h.1, .inl hr⟩ hreset
      · exact absurd ⟨h.1, .inr hr⟩ hreset
      · exact hr.1
    · rcases h.2 with hr | hr | hr
      · exact absurd ⟨h.1, .inl hr⟩ hreset
      · exact absurd ⟨h.1, .inr hr⟩ hreset
      · exact hr.2

/-- The end of the stream is delivered with a read of up to `outLen` bytes. -/
def QuicStream.endsAt (outLen : Nat) (s : QuicStream) : Bool :=
  s.remoteFin && (s.rx.drop outLen).isEmpty && !s.remoteFinDelivered

/-- The stream after a read of up to `outLen` bytes. -/
def QuicStream.after (outLen : Nat) (s : QuicStream) : QuicStream :=
  { s with
    rx := s.rx.drop outLen
    remoteFinDelivered := s.remoteFinDelivered || s.endsAt outLen }

theorem quicStreamRead_eq {s : QuicStream} (h : ¬ s.Terminal) (outLen : Nat) :
    quicStreamRead outLen s =
      (if s.rx.take outLen = [] ∧ s.endsAt outLen = false then .error .wouldBlock
        else .ok (s.rx.take outLen, s.endsAt outLen), s.after outLen) := by
  unfold quicStreamRead QuicStream.endsAt QuicStream.after QuicStream.endsAt
  rw [if_neg, if_neg]
  · simp only [Bool.not_eq_true]
    split <;> rfl
  · rintro ⟨hstate, hempty, hfin⟩
    exact h ⟨hempty, .inr (.inr ⟨hstate, hfin⟩)⟩
  · rintro ⟨hempty, hreset | hfin⟩
    · exact h ⟨hempty, .inl hreset⟩
    · exact h ⟨hempty, .inr (.inl hfin)⟩

/-- `quic_backend_recv_stream_data_cb` (`quic_backend_ngtcp2_callbacks.c:300-385`) for a stream that is known,
    less the READABLE event that it pushes. -/
def quicRecvStreamData (data : Bytes) (fin : Bool) (s : QuicStream) : QuicStream :=
  { s with
    rx := s.rx ++ data
    remoteFin := s.remoteFin || fin
    state := if fin then
        if s.localFinSent ∨ s.localReset then
          if s.localReset then .reset else .closed
        else .halfClosedRemote
      else s.state }

/-- `quic_backend_stream_reset_cb` (`quic_backend_ngtcp2_callbacks.c:471-539`) for a stream that is known, less
    the RESET event that it pushes. -/
def quicStreamReset (s : QuicStream) : QuicStream :=
  { s with
    remoteReset := true
    state := if s.localFinSent ∨ s.localReset then .reset else .halfClosedRemote }

/-- A stream closes in both directions only behind the end of what the peer sent. -/
def QuicStream.Orderly (s : QuicStream) : Prop := s.state = .closed → s.remoteFin = true

instance (s : QuicStream) : Decidable s.Orderly := by
  unfold QuicStream.Orderly
  infer_instance

theorem QuicStream.fresh_orderly : QuicStream.fresh.Orderly := by
  intro hstate
  cases hstate

theorem quicRecvStreamData_orderly {s : QuicStream} (h : s.Orderly) (data : Bytes) (fin : Bool) :
    (quicRecvStreamData data fin s).Orderly := by
  intro hstate
  unfold quicRecvStreamData at hstate ⊢
  cases fin with
  | true => exact Bool.or_true _
  | false => exact (Bool.or_false _).trans (h hstate)

theorem quicStreamReset_orderly (s : QuicStream) : (quicStreamReset s).Orderly := by
  intro hstate
  unfold quicStreamReset at hstate
  dsimp only at hstate
  split at hstate <;> cases hstate

/-- The peer neither reset the stream nor was its end delivered to a read. -/
def QuicStream.Live (s : QuicStream) : Prop :=
  s.remoteReset = false ∧ s.remoteFinDelivered = false

instance (s : QuicStream) : Decidable s.Live := by
  unfold QuicStream.Live
  infer_instance

theorem QuicStream.Live.not_terminal {s : QuicStream} (h : s.Live) (horderly : s.Orderly) :
    ¬ s.Terminal := by
  rintro ⟨-, hreset | ⟨-, hfin⟩ | ⟨hstate, hfin⟩⟩
  · rw [h.1] at hreset
    cases hreset
  · rw [h.2] at hfin
    cases hfin
  · rw [horderly hstate, h.2] at hfin
    simp at hfin

/-- The bytes of a stream that the host has for `libp2p_host_stream_read`: those left in `in_frame`,
    and the transport's. -/
structure StreamInput where
  inFrame : Bytes
  quic : QuicStream
  deriving DecidableEq, Repr

namespace StreamInput

/-- `libp2p_host_stream_read` (`libp2p_host_streams.c:1386-1441`) for an open stream. -/
def read (outLen : Nat) (s : StreamInput) : Except HostErr (Bytes × Bool) × StreamInput :=
  if s.inFrame ≠ [] then
    (.ok (s.inFrame.take outLen, false), { s with inFrame := s.inFrame.drop outLen })
  else
    match quicStreamRead outLen s.quic with
    | (.ok res, quic) => (.ok res, { s with quic := quic })
    | (.error e, quic) => (.error (hostQuicErr e), { s with quic := quic })

/-- The bytes that were received and not read. -/
def unread (s : StreamInput) : Bytes := s.inFrame ++ s.quic.rx

/-- A read is served from `in_frame`, meets the end of the stream, or goes to the transport. -/
theorem read_cases (outLen : Nat) (s : StreamInput) :
    (s.inFrame ≠ [] ∧ s.read outLen =
      (.ok (s.inFrame.take outLen, false), { s with inFrame := s.inFrame.drop outLen })) ∨
    (s.inFrame = [] ∧ s.quic.Terminal ∧ s.read outLen = (.error .closed, s)) ∨
    (s.inFrame = [] ∧ ¬ s.quic.Terminal ∧ s.read outLen =
      (if s.quic.rx.take outLen = [] ∧ s.quic.endsAt outLen = false then .error .wouldBlock
        else .ok (s.quic.rx.take outLen, s.quic.endsAt outLen),
        { s with quic := s.quic.after outLen })) := by
  by_cases hframe : s.inFrame = []
  · right
    by_cases hterminal : s.quic.Terminal
    · refine .inl ⟨hframe, hterminal, ?_⟩
      unfold read
      rw [if_neg (not_not_intro hframe), quicStreamRead_of_terminal hterminal]
      rfl
    · refine .inr ⟨hframe, hterminal, ?_⟩
      unfold read
      rw [if_neg (not_not_intro hframe), quicStreamRead_eq hterminal]
      by_cases hnone : s.quic.rx.take outLen = [] ∧ s.quic.endsAt outLen = false
      · rw [if_pos hnone, if_pos hnone]
        rfl
      · rw [if_neg hnone, if_neg hnone]
  · left
    refine ⟨hframe, ?_⟩
    unfold read
    rw [if_pos hframe]

/-- What was read and what is left are what there was. -/
theorem read_unread {outLen : Nat} {s s' : StreamInput} {bytes : Bytes} {fin : Bool}
    (h : s.read outLen = (.ok (bytes, fin), s')) :
    bytes.length ≤ outLen ∧ bytes ++ s'.unread = s.unread := by
  rcases s.read_cases outLen with ⟨-, hread⟩ | ⟨-, -, hread⟩ | ⟨hframe, -, hread⟩
  · rw [h] at hread
    cases hread
    refine ⟨List.length_take_le .., ?_⟩
    show _ ++ (_ ++ _) = _ ++ _
    rw [← List.append_assoc, List.take_append_drop]
  · rw [h] at hread
    cases hread
  · rw [h] at hread
    rcases Prod.mk.inj hread with ⟨hres, rfl⟩
    split at hres
    · cases hres
    · cases hres
      refine ⟨List.length_take_le .., ?_⟩
      show _ ++ (s.inFrame ++ s.quic.rx.drop outLen) = s.inFrame ++ s.quic.rx
      rw [hframe]
      exact List.take_append_drop ..

end StreamInput

end LeanLibp2p.Host
