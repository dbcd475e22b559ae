import LeanLibp2p.Quic.Endpoint
import LeanLibp2p.Quic.TxIntegrity

/-!
# Writes that report what they did

`quic_backend_stream_write` with the event queue of the stream's endpoint. The bytes and the FIN are
in the stream before the event is pushed, and a refused event does not take them out again.
-/

namespace LeanLibp2p.Quic

open TxRun

/-- `quic_backend_stream_write` (`quic_backend_ngtcp2_stream.c:402-518`) on a stream of the connection
    `c` of an endpoint. -/
def Endpoint.streamWrite (c s window : Nat) (data : Bytes) (fin : Bool) (alloc : Option Nat)
    (endpoint : Endpoint) (stream : Stream) : Stream.WriteResult × Endpoint :=
  match stream.reserveWrite window data.length alloc with
  | .error _ => (stream.write window data fin alloc true, endpoint)
  | .ok _ =>
    match endpoint.eventPush (.stream ⟨.txDatagramReady, s⟩) c with
    | (.ok (), endpoint) => (stream.write window data fin alloc true, endpoint)
    | (.error e, endpoint) =>
      ({ stream.write window data fin alloc false with result := .error e }, endpoint)

/-- The endpoint's event queue has room for one more event. -/
def Endpoint.HasRoom (endpoint : Endpoint) : Prop :=
  endpoint.eventCap ≠ 0 ∧ endpoint.events.length ≠ endpoint.eventCap

instance (endpoint : Endpoint) : Decidable endpoint.HasRoom :=
  inferInstanceAs (Decidable (_ ∧ _))

theorem Endpoint.eventPush_room {endpoint : Endpoint} (h : endpoint.HasRoom) (type : EventType)
    (c : Nat) : endpoint.eventPush type c =
      (.ok (), { endpoint with events := endpoint.events ++ [⟨type, c⟩] }) := by
  unfold Endpoint.eventPush
  rw [if_neg h.1, if_neg h.2]

theorem Endpoint.eventPush_full {endpoint : Endpoint} (h : ¬ endpoint.HasRoom) (type : EventType)
    (c : Nat) : ∃ e, endpoint.eventPush type c = (.error e, endpoint) := by
  unfold Endpoint.eventPush
  by_cases hcap : endpoint.eventCap = 0
  · rw [if_pos hcap]
    exact ⟨_, rfl⟩
  · rw [if_neg hcap, if_pos (by_contra fun hlen => h ⟨hcap, hlen⟩)]
    exact ⟨_, rfl⟩

namespace Stream

/-- A write is refused for what the stream, the window or the allocator says: the stream is over or
    finished, its window is too large to double or full, or its buffer is in use or cannot grow. -/
def Refuses (window dataLen : Nat) (alloc : Option Nat) (stream : Stream) : Prop :=
  stream.state.live = false ∨ stream.localFinQueued = true ∨ stream.localReset = true ∨
    sizeMax / streamSendMultiplier < window ∨ stream.txLen < stream.txSentLen ∨
    (retainedLimit window ≤ stream.txLen ∧ dataLen ≠ 0) ∨ retainedLimit window < stream.txLen ∨
    (stream.txCap < stream.txLen + min dataLen (retainedLimit window - stream.txLen) ∧
      (stream.txSentLen ≠ 0 ∨ alloc = none))

instance (window dataLen : Nat) (alloc : Option Nat) (stream : Stream) :
    Decidable (stream.Refuses window dataLen alloc) := inferInstanceAs (Decidable (_ ∨ _))

/-- A write reports what it did: after an error the stream is as before, and after `OK` exactly the
    first `*accepted` bytes are appended, and the FIN is queued only behind all of them. -/
structure Honest (before : Stream) (data : Bytes) (fin : Bool) (written : WriteResult) : Prop where
  failed : written.result ≠ .ok () → written.accepted = 0 ∧
    written.stream.txBytes = before.txBytes ∧
    written.stream.localFinQueued = before.localFinQueued ∧
    written.stream.txSentLen = before.txSentLen ∧
    written.stream.txBaseOffset = before.txBaseOffset
  appended : written.result = .ok () → written.accepted ≤ data.length ∧
    written.stream.txBytes = before.txBytes ++ data.take written.accepted
  finQueued : written.result = .ok () →
    (written.stream.localFinQueued = true ↔ fin = true ∧ written.accepted = data.length)

variable {window dataLen : Nat} {alloc : Option Nat} {stream : Stream}

/-- The capacity that is asked for is enough. -/
theorem reserveTx_error_iff {required limit : Nat} (hcap : stream.txCap < required)
    (hle : required ≤ limit) : (∃ e, stream.reserveTx required limit alloc = .error e) ↔
      stream.txSentLen ≠ 0 ∨ alloc = none := by
  unfold reserveTx
  rw [if_pos hcap]
  by_cases hsent : stream.txSentLen ≠ 0
  · rw [if_pos hsent]
    exact ⟨fun _ => .inl hsent, fun _ => ⟨_, rfl⟩⟩
  · have hbound := (nextTxCap_bounds stream.txCap hle).1
    rw [if_neg hsent]
    dsimp only
    rw [if_neg (Nat.not_lt.mpr hbound)]
    cases alloc with
    | none => exact ⟨fun _ => .inr rfl, fun _ => ⟨_, rfl⟩⟩
    | some data =>
      constructor
      · rintro ⟨e, h⟩
        cases h
      · rintro (h | h)
        · exact absurd h hsent
        · cases h

/-- `Refuses` says when the first half of a write fails, and what it takes otherwise. -/
theorem reserveWrite_cases :
    (stream.Refuses window dataLen alloc ∧
        ∃ e, stream.reserveWrite window dataLen alloc = .error e) ∨
      (¬ stream.Refuses window dataLen alloc ∧ ∃ reserved,
        stream.reserveWrite window dataLen alloc =
          .ok (min dataLen (retainedLimit window - stream.txLen), reserved) ∧
        (dataLen ≠ 0 → stream.txLen < retainedLimit window)) := by
  simp only [reserveWrite, validate, bind, Except.bind, pure, Except.pure, throw, throwThe,
    MonadExceptOf.throw]
  by_cases hlive : stream.state.live = true
  swap
  · left
    rw [if_neg hlive]
    exact ⟨.inl (Bool.eq_false_iff.mpr hlive), _, rfl⟩
  rw [if_pos hlive]
  by_cases hfin : stream.localFinQueued = true ∨ stream.localReset = true
  · left
    simp only [if_pos hfin]
    exact ⟨.inr (hfin.imp id .inl), _, rfl⟩
  simp only [if_neg hfin]
  by_cases hwindow : sizeMax / streamSendMultiplier < window
  · left
    simp only [if_pos hwindow]
    exact ⟨.inr (.inr (.inr (.inl hwindow))), _, rfl⟩
  simp only [if_neg hwindow]
  by_cases hsent : stream.txLen < stream.txSentLen
  · left
    simp only [if_pos hsent]
    exact ⟨.inr (.inr (.inr (.inr (.inl hsent)))), _, rfl⟩
  simp only [if_neg hsent]
  by_cases hfull : retainedLimit window ≤ stream.txLen ∧ dataLen ≠ 0
  · left
    simp only [if_pos hfull]
    exact ⟨.inr (.inr (.inr (.inr (.inr (.inl hfull))))), _, rfl⟩
  simp only [if_neg hfull]
  by_cases hover : retainedLimit window < stream.txLen + min dataLen (retainedLimit window - stream.txLen)
  · left
    simp only [if_pos hover]
    have hlimit : retainedLimit window < stream.txLen := by omega
    exact ⟨.inr (.inr (.inr (.inr (.inr (.inr (.inl hlimit)))))), _, rfl⟩
  simp only [if_neg hover]
  have hroom : dataLen ≠ 0 → stream.txLen < retainedLimit window := by omega
  have hlimit : ¬ retainedLimit window < stream.txLen := by omega
  -- everything but the buffer is as it should be
  have hrefuses : stream.Refuses window dataLen alloc →
      stream.txCap < stream.txLen + min dataLen (retainedLimit window - stream.txLen) ∧
        (stream.txSentLen ≠ 0 ∨ alloc = none) := by
    rintro (h | h | h | h | h | h | h | h)
    · rw [h] at hlive
      cases hlive
    · exact absurd (.inl h) hfin
    · exact absurd (.inr h) hfin
    · exact absurd h hwindow
    · exact absurd h hsent
    · exact absurd h hfull
    · exact absurd h hlimit
    · exact h
  by_cases hcap : stream.txCap < stream.txLen + min dataLen (retainedLimit window - stream.txLen)
  · simp only [if_pos hcap]
    have hreserve := @reserveTx_error_iff alloc stream _ _ hcap (Nat.not_lt.mp hover)
    by_cases hgrow : stream.txSentLen ≠ 0 ∨ alloc = none
    · left
      obtain ⟨e, he⟩ := hreserve.mpr hgrow
      rw [he]
      exact ⟨.inr (.inr (.inr (.inr (.inr (.inr (.inr ⟨hcap, hgrow⟩)))))), _, rfl⟩
    · right
      refine ⟨fun h => hgrow (hrefuses h).2, ?_⟩
      cases hrun : stream.reserveTx (stream.txLen + min dataLen (retainedLimit window - stream.txLen))
          (retainedLimit window) alloc with
      | error e => exact absurd (hreserve.mp ⟨e, hrun⟩) hgrow
      | ok reserved => exact ⟨reserved, rfl, hroom⟩
  · right
    simp only [if_neg hcap]
    exact ⟨fun h => hcap (hrefuses h).1, stream, rfl, hroom⟩

/-- A refused write leaves the stream as it was. -/
theorem write_refused {data : Bytes} {fin pushed : Bool}
    (h : ∃ e, stream.reserveWrite window data.length alloc = .error e) :
    Honest stream data fin (stream.write window data fin alloc pushed) := by
  obtain ⟨e, he⟩ := h
  have hfailed : ∀ e blocked, Honest stream data fin
      ⟨.error e, 0, { stream with writeBlocked := blocked }⟩ := by
    intro e blocked
    exact ⟨fun _ => ⟨rfl, rfl, rfl, rfl, rfl⟩, fun h => (by cases h), fun h => (by cases h)⟩
  unfold write
  rw [he]
  cases e <;> exact hfailed _ _

/-- What a write does once there is room for its bytes. -/
theorem write_taken {data : Bytes} {fin pushed : Bool} {n : Nat} {reserved : Stream}
    (h : stream.reserveWrite window data.length alloc = .ok (n, reserved)) :
    (stream.write window data fin alloc pushed).accepted = n ∧ n ≤ data.length ∧
      (stream.write window data fin alloc pushed).stream.txBytes =
        stream.txBytes ++ data.take n ∧
      ((stream.write window data fin alloc pushed).stream.localFinQueued = true ↔
        fin = true ∧ n = data.length) ∧
      stream.localFinQueued = false ∧
      (stream.write window data fin alloc pushed).stream.txSentLen = stream.txSentLen ∧
      (stream.write window data fin alloc pushed).stream.txBaseOffset = stream.txBaseOffset := by
  obtain ⟨⟨-, hqueued, -⟩, txData, cap, rfl, hn, -⟩ := reserveWrite_spec h
  unfold write
  rw [h]
  cases pushed <;> simp [hqueued, hn]

end Stream

open LeanLibp2p.Quic.Stream

/-- A write is honest exactly if it is refused at once, or its event finds room, or it has nothing to
    write. -/
theorem Endpoint.streamWrite_honest_iff (c s window : Nat) (data : Bytes) (fin : Bool)
    (alloc : Option Nat) (endpoint : Endpoint) (stream : Stream) :
    Honest stream data fin (endpoint.streamWrite c s window data fin alloc stream).1 ↔
      stream.Refuses window data.length alloc ∨ endpoint.HasRoom ∨ (data = [] ∧ fin = false) := by
  unfold Endpoint.streamWrite
  rcases @reserveWrite_cases window data.length alloc stream with
    ⟨hrefuses, e, he⟩ | ⟨hrefuses, reserved, hreserved, hpos⟩
  · rw [he]
    exact ⟨fun _ => .inl hrefuses, fun _ => write_refused ⟨e, he⟩⟩
  obtain ⟨haccepted, hle, hbytes, hfin, hqueued, hsent, hbase⟩ :=
    @write_taken window alloc stream data fin true _ _ hreserved
  rw [hreserved]
  dsimp only
  by_cases hroom : endpoint.HasRoom
  · rw [Endpoint.eventPush_room hroom]
    refine ⟨fun _ => .inr (.inl hroom), fun _ => ⟨?_, fun _ => ⟨?_, ?_⟩, fun _ => ?_⟩⟩
    · intro hfailed
      exact absurd (by rw [write, hreserved]; rfl) hfailed
    · rw [haccepted]
      exact hle
    · rw [haccepted, hbytes]
    · rw [hfin, haccepted]
  · obtain ⟨e, hpush⟩ := Endpoint.eventPush_full hroom (.stream ⟨.txDatagramReady, s⟩) c
    obtain ⟨haccepted, hle, hbytes, hfin, hqueued, hsent, hbase⟩ :=
      @write_taken window alloc stream data fin false _ _ hreserved
    rw [hpush]
    constructor
    · intro hhonest
      obtain ⟨hnone, -, hsame, -⟩ := hhonest.failed (fun h => by cases h)
      have hzero : min data.length (retainedLimit window - stream.txLen) = 0 := haccepted.symm.trans hnone
      have hempty : data = [] := by
        by_contra hdata
        have hlen : data.length ≠ 0 := fun h => hdata (List.length_eq_zero_iff.mp h)
        have := hpos hlen
        omega
      refine .inr (.inr ⟨hempty, ?_⟩)
      rw [Bool.eq_false_iff]
      intro htrue
      have hset := hfin.mpr ⟨htrue, by simp [hempty]⟩
      rw [hsame, hqueued] at hset
      cases hset
    · rintro (h | h | ⟨rfl, rfl⟩)
      · exact absurd h hrefuses
      · exact absurd h hroom
      · refine ⟨fun _ => ⟨?_, ?_, ?_, hsent, hbase⟩, fun h => (by cases h), fun h => (by cases h)⟩
        · exact haccepted.trans (Nat.min_eq_left (Nat.zero_le _))
        · rw [hbytes, List.take_nil, List.append_nil]
        · rw [hqueued]
          exact Bool.eq_false_iff.mpr fun h => absurd (hfin.mp h).1 (by decide)

/-- With one event queued where only one fits, a write of two bytes fails and takes both of them. -/
theorem Endpoint.streamWrite_not_honest : ¬ ∀ (c s window : Nat) (data : Bytes) (fin : Bool)
    (alloc : Option Nat) (endpoint : Endpoint) (stream : Stream),
    Honest stream data fin (endpoint.streamWrite c s window data fin alloc stream).1 := by
  intro hall
  have hfailed := (hall 0 0 8 [1, 2] false (some 0)
    { config := ⟨true, false, 1, 0, 1⟩, events := [⟨.txDatagramReady, 0⟩], eventCap := 1 } {}).failed
      (by decide)
  exact absurd hfailed.1 (by decide)

end LeanLibp2p.Quic
