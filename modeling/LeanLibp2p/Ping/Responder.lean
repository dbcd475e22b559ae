import LeanLibp2p.Ping.Streams

/-!
# The echo of the ping responder

A peer sends bytes on an inbound ping stream and finishes, or not. The transport cuts them as it likes
and takes what is written in parts, and other streams come and go beside it.
-/

namespace LeanLibp2p.Ping

open LeanLibp2p.Lib
open LeanLibp2p.Host (HostErr EventKind StreamInput quicRecvStreamData)

namespace Line

variable (line : Line)

/-- No callback is owed, and none will follow from what was written. -/
def Still : Prop :=
  line.opened = true ∧ line.readable = false ∧ line.writable = false ∧ line.fate.reset = false ∧
    line.fate.closed = false ∧ line.blocked = false

instance : Decidable line.Still := by
  unfold Still
  infer_instance

/-- How many bytes the whole payloads of the peer have. -/
def wholeBytes : Nat := payloadBytes * (line.received.length / payloadBytes)

/-- The responder echoes: what it wrote is the beginning of what the peer sent, and where nothing is
    owed all whole payloads are written; a peer that finished behind a whole payload sees the
    responder finish and the application one `CLOSED`, otherwise the application sees one `ERROR`. -/
structure Echoes (line : Line) : Prop where
  begins : line.written <+: line.received
  whole : line.Still → line.written = line.received.take line.wholeBytes
  finished : line.Still → line.input.quic.remoteFin = true →
    line.received.length = line.wholeBytes →
    line.fate.ending = some .finish ∧ line.fate.events = [.closed]
  failed : line.Still → line.input.quic.remoteFin = true →
    line.received.length ≠ line.wholeBytes → ∃ reason, line.fate.events = [.error reason]

/-- Nothing of the stream is left to read. -/
def Drained : Prop :=
  line.input.unread = [] ∧
    (line.input.quic.remoteFin = true → line.input.quic.remoteFinDelivered = true)

/-- A read takes all that there is, and the end of the stream does not come with the last bytes of a
    payload. -/
def TakesAll (slot : Slot) (line : Line) : Prop :=
  (line.input.inFrame = [] ∨ line.input.quic.rx = [] ∧ line.input.quic.remoteFin = false) ∧
    slot.rx.length + line.input.unread.length ≤ payloadBytes ∧
    (line.input.quic.remoteFin = true →
      slot.rx.length + line.input.unread.length < payloadBytes)

instance : Decidable line.Drained := by
  unfold Drained
  infer_instance

instance (slot : Slot) : Decidable (TakesAll slot line) := by
  unfold TakesAll
  infer_instance

end Line

namespace Service

variable (p : Nat) (s : Service)

/-- The peer of the stream only sends and finishes, the transport closes the stream behind the end that
    the responder gave it, and no other stream gets the object. -/
def OnlySends : Action → Prop
  | .begins q _ _ | .peerReset q => q ≠ p
  | .streamClosed q => q = p → (s.lines p).fate.ending ≠ none
  | _ => True

/-- A callback about the stream finds the slot that was taken for it. A READABLE finds the slot
    reading, and the read takes all there is and not the end together with the last bytes of a payload,
    and the event queue has room for the event at the end; or there is nothing to read. The stream is
    closed only after the application took the event, and it takes no event that carries the number of
    the slot from before. -/
def EchoMeets : Action → Prop
  | .callback q kind _ _ => q = p → s.findStream p = (s.lines p).slot ∧
    match kind with
    | .readable => ∀ k ∈ (s.lines p).slot,
      ((s.slots k).state = .responderReading → (s.lines p).TakesAll (s.slots k) ∧
        ((s.lines p).input.quic.remoteFin = true → s.events.length < eventCapacity)) ∧
      ((s.slots k).state = .responderWriting → (s.lines p).Drained)
    | .closed => (s.lines p).slot = none
    | .writable | .reset => True
  | .nextEvent => ∀ first ∈ s.events.head?, first.2.isEnd = true →
    (s.lines p).slot = some first.1 → (s.slots first.1).state = .evented
  | _ => True

instance (action : Action) : Decidable (s.Allows action) := by
  cases action <;> (dsimp only [Allows]; infer_instance)

instance (action : Action) : Decidable (OnlySends p s action) := by
  cases action <;> (dsimp only [OnlySends]; infer_instance)

instance (action : Action) : Decidable (EchoMeets p s action) := by
  cases action with
  | callback q kind write now =>
    dsimp only [EchoMeets]
    cases kind <;> infer_instance
  | _ =>
    dsimp only [EchoMeets]
    infer_instance

/-! ## The invariant -/

/-- Nothing was reported of the stream, and the end of what the peer sends was not read. -/
structure Quiet (line : Line) : Prop where
  fate : line.fate = {}
  live : line.input.quic.Live
  orderly : line.input.quic.Orderly

/-- The stream is not open yet. -/
structure Waiting (line : Line) : Prop extends Quiet line where
  opened : line.opened = false
  slot : line.slot = none
  direction : line.direction = .inbound
  written : line.written = []
  received : line.received = line.input.unread

/-- The stream is open in its slot. -/
structure Attached (slot : Slot) (line : Line) : Prop extends Quiet line where
  opened : line.opened = true
  drained : line.readable = false → line.Drained
  direction : slot.direction = .inbound

/-- The slot collects a payload; all before it is written. -/
structure Listening (slot : Slot) (line : Line) : Prop extends Attached slot line where
  state : slot.state = .responderReading
  txPos : slot.txPos = 0
  part : slot.rx.length < payloadBytes
  whole : payloadBytes ∣ line.written.length
  received : line.received = line.written ++ (slot.rx ++ line.input.unread)

/-- The slot has a payload to write; all before it is written. -/
structure Copying (slot : Slot) (line : Line) : Prop extends Attached slot line where
  state : slot.state = .responderWriting
  payload : slot.tx.length = payloadBytes
  part : slot.txPos < payloadBytes
  split : ∃ done, payloadBytes ∣ done.length ∧ line.written = done ++ slot.tx.take slot.txPos ∧
    line.received = done ++ (slot.tx ++ line.input.unread)

/-- The slot waits to write the rest of a payload. -/
structure Echoing (slot : Slot) (line : Line) : Prop extends Copying slot line where
  owed : line.blocked = true ∨ line.writable = true

/-- The stream was ended. -/
structure Over (line : Line) : Prop where
  opened : line.opened = true
  reset : line.fate.reset = false
  remoteFin : line.input.quic.remoteFin = true
  written : line.written = line.received.take line.wholeBytes
  finished : line.received.length = line.wholeBytes →
    line.fate.ending = some .finish ∧ line.fate.events = [.closed]
  failed : line.received.length ≠ line.wholeBytes → ∃ reason, line.fate.events = [.error reason]

/-- The slot serves the stream object. -/
def Serves (slot : Slot) (line : Line) : Prop :=
  Listening slot line ∨ Echoing slot line ∨ slot.state = .evented ∧ Over line

/-- What every state of an inbound stream satisfies. -/
structure Served (p : Nat) (s : Service) : Prop where
  own : ∀ k, (s.lines p).slot = some k →
    (s.slots k).stream = some p ∧ Serves (s.slots k) (s.lines p)
  loose : (s.lines p).slot = none → Waiting (s.lines p) ∨ Over (s.lines p)

/-! ## Payloads -/

variable {p s} {line : Line} {slot : Slot} {action : Action}

theorem take_whole {done rest : Bytes} (hdone : payloadBytes ∣ done.length)
    (hrest : rest.length < payloadBytes) :
    (done ++ rest).take (payloadBytes * ((done ++ rest).length / payloadBytes)) = done ∧
      payloadBytes * ((done ++ rest).length / payloadBytes) = done.length := by
  obtain ⟨n, hn⟩ := hdone
  have hpos : 0 < payloadBytes := by decide
  rw [List.length_append, hn, Nat.mul_add_div hpos, Nat.div_eq_of_lt hrest, Nat.add_zero, ← hn,
    List.take_left]
  exact ⟨rfl, rfl⟩

theorem Attached.read (h : Attached slot line) (hread : line.readable = false) :
    line.input.unread = [] ∧ line.input.quic.remoteFin = false := by
  obtain ⟨hunread, hfin⟩ := h.drained hread
  refine ⟨hunread, ?_⟩
  rw [h.live.2] at hfin
  simpa using hfin

theorem Over.echoes (h : Over line) : line.Echoes where
  begins := by
    rw [h.written]
    exact List.take_prefix _ _
  whole _ := h.written
  finished _ _ := h.finished
  failed _ _ := h.failed

theorem Waiting.echoes (h : Waiting line) : line.Echoes := by
  have hopen : ¬ line.Still := fun hstill => by cases h.opened.symm.trans hstill.1
  refine ⟨?_, fun hstill => absurd hstill hopen, fun hstill => absurd hstill hopen,
    fun hstill => absurd hstill hopen⟩
  rw [h.written]
  exact List.nil_prefix

theorem Listening.echoes (h : Listening slot line) : line.Echoes where
  begins := ⟨_, h.received.symm⟩
  whole hstill := by
    have hreceived := h.received
    rw [(h.toAttached.read hstill.2.1).1, List.append_nil] at hreceived
    unfold Line.wholeBytes
    rw [hreceived, (take_whole h.whole h.part).1]
  finished hstill hfin := by cases (h.toAttached.read hstill.2.1).2.symm.trans hfin
  failed hstill hfin := by cases (h.toAttached.read hstill.2.1).2.symm.trans hfin

theorem Echoing.echoes (h : Echoing slot line) : line.Echoes := by
  have howed : ¬ line.Still := by
    rintro ⟨-, -, hwritable, -, -, hblocked⟩
    rcases h.owed with howed | howed
    · cases hblocked.symm.trans howed
    · cases hwritable.symm.trans howed
  refine ⟨?_, fun hstill => absurd hstill howed, fun hstill => absurd hstill howed,
    fun hstill => absurd hstill howed⟩
  obtain ⟨done, -, hwritten, hreceived⟩ := h.split
  rw [hwritten, hreceived]
  exact (List.prefix_append_right_inj done).mpr ((List.take_prefix _ _).trans
    (List.prefix_append _ _))

theorem Served.echoes (h : Served p s) : (s.lines p).Echoes := by
  cases hslot : (s.lines p).slot with
  | none => exact (h.loose hslot).elim Waiting.echoes Over.echoes
  | some k =>
    rcases (h.own k hslot).2 with h | h | ⟨-, h⟩
    · exact h.echoes
    · exact h.echoes
    · exact h.echoes

/-! ## A stream is left alone -/

/-- What a slot that serves a stream is not. -/
theorem Serves.state (h : Serves slot line) :
    slot.state ≠ .free ∧ slot.state ≠ .opening ∧ slot.state ≠ .initiatorIdle := by
  rcases h with h | h | ⟨h, -⟩
  · simp [h.state]
  · simp [h.state]
  · simp [h]

/-- What happens to other streams and slots. -/
theorem Served.frame (h : Served p s) {s' : Service} (hline : s'.lines p = s.lines p)
    (hslot : ∀ k, (s.lines p).slot = some k → s'.slots k = s.slots k) : Served p s' := by
  constructor
  · intro k hk
    rw [hline] at hk ⊢
    rw [hslot k hk]
    exact h.own k hk
  · rw [hline]
    exact h.loose

/-- A slot that is not the stream's changes. -/
theorem Served.setSlot (h : Served p s) {j : Nat} {slot : Slot}
    (hother : (s.lines p).slot ≠ some j) : Served p (s.setSlot j slot) := by
  apply h.frame
  · rfl
  · intro k hk
    refine Function.update_of_ne ?_ ..
    rintro rfl
    exact hother hk

theorem Served.not_free (h : Served p s) {j : Nat}
    (hj : (s.slots j).state = .free ∨ (s.slots j).state = .opening) :
    (s.lines p).slot ≠ some j := by
  intro hslot
  have hstate := (h.own j hslot).2.state
  rcases hj with hj | hj
  · exact hstate.1 hj
  · exact hstate.2.1 hj

theorem allocSlot_free {k : Nat} (h : s.allocSlot = some k) : (s.slots k).state = .free := by
  have hfound := (findSlot_some h).2
  simpa using hfound

theorem findStream_stream {k q : Nat} (h : s.findStream q = some k) :
    (s.slots k).stream = some q := by
  have hfound := (findSlot_some h).2
  simp at hfound
  exact hfound.2

/-- The slot that `ping_on_open` takes serves no stream. -/
theorem Served.openSlot (h : Served p s) {direction : Host.Direction} {payload : Option Bytes}
    {k : Nat} {slot : Slot} (hopen : s.openSlot direction payload = some (k, slot)) :
    (s.lines p).slot ≠ some k := by
  apply h.not_free
  unfold Service.openSlot at hopen
  split at hopen
  · split at hopen
    · rename_i hfind
      cases hopen
      exact .inr (by simpa using (findSlot_some hfind).2)
    · split at hopen
      · rename_i halloc
        cases hopen
        exact .inl (allocSlot_free halloc)
      · cases hopen
  · obtain ⟨j, halloc, heq⟩ := Option.map_eq_some_iff.mp hopen
    cases heq
    exact .inl (allocSlot_free halloc)

/-- A call about another stream object. -/
theorem Served.call (h : Served p s) {q k : Nat} (hq : q ≠ p) (hk : (s.lines p).slot ≠ some k)
    (slot : Slot) (line : Line) (write : Except HostErr Nat) (now : Except PingErr Nat)
    (run : Answers → Slot → Outcome) : Served p (s.call q k slot line write now run) := by
  apply h.frame
  · exact Function.update_of_ne hq.symm ..
  · intro j hj
    refine Function.update_of_ne ?_ ..
    rintro rfl
    exact hk hj

/-! ## Calls of the slot -/

variable {k room : Nat} {write : Except HostErr Nat} {now : Except PingErr Nat}

@[simp] theorem accepted_nil (write : Except HostErr Nat) : accepted [] write = [] := by
  cases write with
  | ok n => exact List.take_nil
  | error e => rfl

/-- A call that only changes the slot. -/
theorem settle_slot (hstream : slot.stream ≠ none) :
    line.settle k room write { slot := slot } = line := by
  simp [Line.settle, hstream]

/-- A call that reads first. -/
theorem settle_read {answer : Except HostErr (Bytes × Bool)} {input : StreamInput}
    (hread : line.input.read room = (answer, input)) (outcome : Outcome)
    (h : outcome.hasRead = false) :
    line.settle k room write { outcome with hasRead := true } =
      { line with input := input }.settle k room write outcome := by
  simp [Line.settle, h, hread]

/-- What a call leaves of the stream that it was about. -/
theorem Served.of_call {run : Answers → Slot → Outcome} (hslot : line.slot = some k)
    (h : let outcome := run (s.answers slot line write now) slot
      let settled := line.settle k (readRoom slot) write outcome
      outcome.slot.stream = some p ∧ Serves outcome.slot settled ∨
        outcome.slot.stream = none ∧ Over settled) :
    Served p (s.call p k slot line write now run) := by
  have hline : (s.call p k slot line write now run).lines p = line.settle k (readRoom slot) write
      (run (s.answers slot line write now) slot) := Function.update_self ..
  have hself : (s.call p k slot line write now run).slots k =
      (run (s.answers slot line write now) slot).slot := Function.update_self ..
  dsimp only at h
  rcases h with ⟨hstream, hserves⟩ | ⟨hstream, hover⟩
  · have hsettled : (line.settle k (readRoom slot) write
        (run (s.answers slot line write now) slot)).slot = some k := by
      simp [Line.settle, hstream, hslot]
    constructor
    · intro j hj
      rw [hline, hsettled, Option.some.injEq] at hj
      rw [← hj, hself, hline]
      exact ⟨hstream, hserves⟩
    · intro hnone
      rw [hline, hsettled] at hnone
      cases hnone
  · have hsettled : (line.settle k (readRoom slot) write
        (run (s.answers slot line write now) slot)).slot = none := by
      simp [Line.settle, hstream, hslot]
    constructor
    · intro j hj
      rw [hline, hsettled] at hj
      cases hj
    · intro _
      rw [hline]
      exact .inr hover

/-- What is known of the stream changes, and its slot stays. -/
theorem Served.setLine (h : Served p s) (hslot : line.slot = (s.lines p).slot)
    (hserves : ∀ slot, Serves slot (s.lines p) → Serves slot line)
    (hloose : Waiting (s.lines p) ∨ Over (s.lines p) → Waiting line ∨ Over line) :
    Served p (s.setLine p line) := by
  have hline : (s.setLine p line).lines p = line := Function.update_self ..
  constructor
  · intro k hk
    rw [hline, hslot] at hk
    rw [hline]
    exact ⟨(h.own k hk).1, hserves _ (h.own k hk).2⟩
  · intro hnone
    rw [hline] at hnone ⊢
    exact hloose (h.loose (hslot ▸ hnone))

/-! ### Writing -/

/-- A write of the responder goes on behind what is written. -/
theorem Copying.writes (h : Copying slot line) {answers : Answers}
    (hanswer : answers.write = write) (hwrites : Writes slot line write) :
    (slot.writeStream answers).slot.stream = slot.stream ∧
      Serves (slot.writeStream answers).slot
        (line.settle k room write (slot.writeStream answers)) := by
  have hroom : ¬ payloadBytes ≤ slot.txPos := Nat.not_le.mpr h.part
  have hinbound : ¬ slot.direction = .outbound := by simp [h.direction]
  obtain ⟨done, hdone, hwritten, hreceived⟩ := h.split
  have hoffered : (slot.tx.drop slot.txPos).length = payloadBytes - slot.txPos := by
    rw [List.length_drop, h.payload]
  have hnonempty : slot.tx.drop slot.txPos ≠ [] := by
    intro hnil
    rw [hnil, List.length_nil] at hoffered
    omega
  cases write with
  | error e =>
    obtain rfl : e = .wouldBlock := by
      rcases hwrites with hblock | hgone
      · exact hblock
      · rw [h.fate] at hgone
        cases hgone
    have hrun : slot.writeStream answers = { slot := slot, offered := slot.tx.drop slot.txPos } := by
      simp [Slot.writeStream, hroom, hanswer]
    rw [hrun]
    refine ⟨rfl, .inr (.inl ⟨⟨⟨⟨?_, h.live, h.orderly⟩, h.opened, h.drained, h.direction⟩, h.state,
      h.payload, h.part, done, hdone, ?_, hreceived⟩, .inl ?_⟩)⟩
    · simp [Line.settle, h.fate]
    · simpa [Line.settle, accepted] using hwritten
    · simpa [Line.settle, accepted, hnonempty, hoffered] using Nat.sub_pos_of_lt h.part
  | ok n =>
    have hle : n ≤ payloadBytes - slot.txPos := hwrites
    have hrun : slot.writeStream answers =
        { slot := slot.advance n, offered := slot.tx.drop slot.txPos } := by
      simp [Slot.writeStream, hroom, hanswer, hinbound]
    rw [hrun]
    have hfate : (line.settle k room (.ok n)
        { slot := slot.advance n, offered := slot.tx.drop slot.txPos }).fate = {} := by
      simp [Line.settle, h.fate]
    by_cases hfull : slot.txPos + n = payloadBytes
    · have hadvance : slot.advance n =
          { slot with txPos := 0, state := .responderReading, rx := [] } := by
        simp [Slot.advance, hfull, hinbound]
      have hall : line.written ++ (slot.tx.drop slot.txPos).take n = done ++ slot.tx := by
        have htake : (slot.tx.drop slot.txPos).take n = slot.tx.drop slot.txPos :=
          List.take_of_length_le (by omega)
        rw [hwritten, List.append_assoc, htake, List.take_append_drop]
      rw [hadvance] at hfate ⊢
      refine ⟨rfl, .inl ⟨⟨⟨hfate, h.live, h.orderly⟩, h.opened, h.drained, h.direction⟩, rfl, rfl,
        ?_, ?_, ?_⟩⟩
      · show 0 < payloadBytes
        decide
      · show payloadBytes ∣ (line.written ++ (slot.tx.drop slot.txPos).take n).length
        rw [hall, List.length_append, h.payload]
        exact (Nat.dvd_add_right hdone).mpr dvd_rfl
      · show line.received = line.written ++ (slot.tx.drop slot.txPos).take n ++
          ([] ++ line.input.unread)
        rw [hall]
        simpa using hreceived
    · have hadvance : slot.advance n = { slot with txPos := slot.txPos + n } := by
        simp [Slot.advance, hfull]
      have hmore : n < payloadBytes - slot.txPos := by omega
      rw [hadvance] at hfate ⊢
      refine ⟨rfl, .inr (.inl ⟨⟨⟨⟨hfate, h.live, h.orderly⟩, h.opened, h.drained, h.direction⟩,
        h.state, h.payload, ?_, done, hdone, ?_, hreceived⟩, .inl ?_⟩)⟩
      · show slot.txPos + n < payloadBytes
        omega
      · show line.written ++ _ = done ++ slot.tx.take (slot.txPos + n)
        rw [hwritten, List.append_assoc, List.take_add]
        rfl
      · simp [Line.settle, accepted, hnonempty, hoffered]
        omega

/-! ### Reading -/

/-- What a read that takes all leaves. -/
structure TookAll (before after : StreamInput) : Prop where
  unread : after.unread = []
  remoteFin : after.quic.remoteFin = before.quic.remoteFin
  orderly : after.quic.Orderly
  delivered : after.quic.remoteFinDelivered = before.quic.remoteFin
  remoteReset : after.quic.remoteReset = false

/-- A read that takes all gives all, with the end of the stream if it has come. -/
theorem Quiet.read (h : Quiet line) (htakes : line.TakesAll slot) :
    ∃ input, TookAll line.input input ∧
      (line.input.read (readRoom slot) = (.error .wouldBlock, input) ∧ line.input.unread = [] ∧
          line.input.quic.remoteFin = false ∨
        line.input.read (readRoom slot) =
          (.ok (line.input.unread, line.input.quic.remoteFin), input)) := by
  obtain ⟨hkinds, hroom, -⟩ := htakes
  have hlen : line.input.unread.length ≤ readRoom slot := by
    unfold readRoom
    omega
  rcases line.input.read_cases (readRoom slot) with ⟨hframe, hread⟩ | ⟨-, hterminal, -⟩ |
      ⟨hframe, -, hread⟩
  · obtain ⟨hrx, hfin⟩ := hkinds.resolve_left hframe
    have hunread : line.input.unread = line.input.inFrame := by
      simp [StreamInput.unread, hrx]
    rw [hunread] at hlen
    rw [List.take_of_length_le hlen, List.drop_of_length_le hlen] at hread
    refine ⟨{ line.input with inFrame := [] },
      ⟨by simp [StreamInput.unread, hrx], rfl, h.orderly, h.live.2.trans hfin.symm, h.live.1⟩, .inr ?_⟩
    rw [hread, hunread, hfin]
  · exact absurd hterminal (h.live.not_terminal h.orderly)
  · have hunread : line.input.unread = line.input.quic.rx := by
      simp [StreamInput.unread, hframe]
    rw [hunread] at hlen
    have hends : line.input.quic.endsAt (readRoom slot) = line.input.quic.remoteFin := by
      simp [Host.QuicStream.endsAt, List.drop_of_length_le hlen, h.live.2]
    rw [hends, List.take_of_length_le hlen] at hread
    refine ⟨{ line.input with quic := line.input.quic.after (readRoom slot) },
      ⟨?_, rfl, h.orderly, ?_, h.live.1⟩, ?_⟩
    · simp [StreamInput.unread, hframe, Host.QuicStream.after, List.drop_of_length_le hlen]
    · simp [Host.QuicStream.after, hends, h.live.2]
    · rw [hunread]
      by_cases hnone : line.input.quic.rx = [] ∧ line.input.quic.remoteFin = false
      · rw [if_pos hnone] at hread
        exact .inl ⟨hread, hnone⟩
      · rw [if_neg hnone] at hread
        exact .inr hread

/-- A stream whose end was not read goes on behind a read that took all. -/
theorem Attached.took (h : Attached slot line) {input : StreamInput} (htook : TookAll line.input input)
    (hfin : line.input.quic.remoteFin = false) {slot' : Slot} (hdirection : slot'.direction = .inbound) :
    Attached slot' { line.served .readable with input := input } where
  fate := h.fate
  live := ⟨htook.remoteReset, htook.delivered.trans hfin⟩
  orderly := htook.orderly
  opened := h.opened
  drained _ := ⟨htook.unread, fun hremote =>
    (htook.delivered.trans htook.remoteFin.symm).trans hremote⟩
  direction := hdirection

/-- Where the payload is complete the end has not come. -/
theorem not_fin (htakes : line.TakesAll slot)
    (hfull : (slot.rx ++ line.input.unread).length = payloadBytes) :
    line.input.quic.remoteFin = false := by
  rw [← Bool.not_eq_true]
  intro hremote
  have hlt := htakes.2.2 hremote
  rw [List.length_append] at hfull
  omega

theorem Slot.writeStream_hasRead (answers : Answers) (slot : Slot) :
    (slot.writeStream answers).hasRead = false := by
  unfold Slot.writeStream Slot.failStream
  repeat' split
  all_goals rfl

/-- The stream is over when the end was read and the slot reported it. -/
theorem Listening.over (h : Listening slot line) (hfin : line.input.quic.remoteFin = true)
    (hshort : (slot.rx ++ line.input.unread).length < payloadBytes) {input : StreamInput}
    {answer : Except HostErr (Bytes × Bool)}
    (hread : line.input.read (readRoom slot) = (answer, input)) (htook : TookAll line.input input)
    {outcome : Outcome} (hasRead : outcome.hasRead = true) (hoffered : outcome.offered = [])
    (hevent : if slot.rx ++ line.input.unread = [] then
        outcome.ending = some .finish ∧ outcome.event = some .closed
      else ∃ reason, outcome.event = some (.error reason)) :
    Over ((line.served .readable).settle k (readRoom slot) write outcome) := by
  obtain ⟨htake, hwhole⟩ := take_whole h.whole hshort
  rw [← h.received] at htake hwhole
  have hwritten : line.written ++ accepted outcome.offered write = line.written := by
    rw [hoffered, accepted_nil, List.append_nil]
  have hlen := congrArg List.length h.received
  rw [List.length_append] at hlen
  refine ⟨h.opened, ?_, ?_, ?_, fun heq => ?_, fun hne => ?_⟩
  · simp [Line.settle, Line.served, h.fate]
  · simp only [Line.settle, Line.served, hasRead, hread]
    exact htook.remoteFin.trans hfin
  · exact hwritten.trans htake.symm
  · have hnil : slot.rx ++ line.input.unread = [] :=
      List.eq_nil_of_length_eq_zero (by
        have heq' : line.received.length = line.written.length := heq.trans hwhole
        omega)
    rw [if_pos hnil] at hevent
    simp [Line.settle, Line.served, h.fate, hevent]
  · have hcons : slot.rx ++ line.input.unread ≠ [] := by
      intro hnil
      rw [hnil, List.length_nil, Nat.add_zero] at hlen
      exact hne (hlen.trans hwhole.symm)
    rw [if_neg hcons] at hevent
    obtain ⟨reason, hevent⟩ := hevent
    exact ⟨reason, by simp [Line.settle, Line.served, h.fate, hevent]⟩

/-- A slot that collects a payload reads. -/
theorem Listening.readable (h : Listening slot line) (htakes : line.TakesAll slot)
    (hqueue : line.input.quic.remoteFin = true → s.events.length < eventCapacity)
    (hwrites : Writes slot line write) (hstream : slot.stream = some p) :
    let outcome := slot.onEvent (s.answers slot (line.served .readable) write now) .readable
    let settled := (line.served .readable).settle k (readRoom slot) write outcome
    outcome.slot.stream = some p ∧ Serves outcome.slot settled ∨
      outcome.slot.stream = none ∧ Over settled := by
  have hsome : slot.stream ≠ none := by simp [hstream]
  have honEvent : slot.onEvent (s.answers slot (line.served .readable) write now) .readable =
      slot.readResponder (s.answers slot (line.served .readable) write now) := by
    simp [Slot.onEvent, h.state]
  rw [honEvent]
  intro outcome settled
  obtain ⟨input, htook, hread⟩ := h.toQuiet.read htakes
  rcases hread with ⟨hread, hunread, hfin⟩ | hread
  · -- nothing has come
    have houtcome : outcome = { slot := slot, hasRead := true } := by
      simp [outcome, Slot.readResponder, answers, Line.served, hread]
    have hsettled : settled = { line.served .readable with input := input } := by
      simp only [settled]
      rw [houtcome, @settle_read (line.served .readable) k _ write _ _ hread { slot := slot } rfl,
        settle_slot hsome]
    rw [hsettled, houtcome]
    refine .inl ⟨hstream, .inl ⟨h.toAttached.took htook hfin h.direction, h.state, h.txPos, h.part,
      h.whole, ?_⟩⟩
    show line.received = line.written ++ (slot.rx ++ input.unread)
    rw [h.received, hunread, htook.unread]
  by_cases hfull : (slot.rx ++ line.input.unread).length = payloadBytes
  · -- the payload is complete, and the slot starts to write it
    have hfin := not_fin htakes hfull
    let filled : Slot := { slot with
      rx := slot.rx ++ line.input.unread
      tx := slot.rx ++ line.input.unread
      txPos := 0
      state := .responderWriting }
    have houtcome : outcome = { filled.writeStream (s.answers slot (line.served .readable) write now)
        with hasRead := true } := by
      simp [outcome, Slot.readResponder, answers, Line.served, hread, hfull, filled]
    have hcopying : Copying filled { line.served .readable with input := input } := by
      refine ⟨h.toAttached.took htook hfin h.direction, rfl, hfull,
        (show 0 < payloadBytes by decide), line.written, h.whole, (List.append_nil _).symm, ?_⟩
      show line.received = line.written ++ ((slot.rx ++ line.input.unread) ++ input.unread)
      rw [htook.unread, List.append_nil]
      exact h.received
    have hwrites' : Writes filled { line.served .readable with input := input } write := by
      cases write with
      | error e => exact hwrites
      | ok n => exact le_of_le_of_eq hwrites (by rw [h.txPos])
    have hsettled : settled = { line.served .readable with input := input }.settle k (readRoom slot)
        write (filled.writeStream (s.answers slot (line.served .readable) write now)) := by
      simp only [settled]
      rw [houtcome]
      exact @settle_read (line.served .readable) k _ write _ _ hread _
        (Slot.writeStream_hasRead _ filled)
    obtain ⟨hkept, hserves⟩ := @Copying.writes _ _ k (readRoom slot) write hcopying
      (s.answers slot (line.served .readable) write now) rfl hwrites'
    rw [hsettled, houtcome]
    exact .inl ⟨hkept.trans hstream, hserves⟩
  have hshort : (slot.rx ++ line.input.unread).length < payloadBytes := by
    have hle := htakes.2.1
    rw [List.length_append] at hfull ⊢
    omega
  cases hfin : line.input.quic.remoteFin with
  | false =>
    let more : Slot := { slot with rx := slot.rx ++ line.input.unread }
    have houtcome : outcome = { slot := more, hasRead := true } := by
      simp only [outcome, Slot.readResponder, answers, Line.served, hread, hfin, if_neg hfull,
        Bool.false_eq_true, if_false, more]
    have hsettled : settled = { line.served .readable with input := input } := by
      simp only [settled]
      rw [houtcome, @settle_read (line.served .readable) k _ write _ _ hread { slot := more } rfl,
        settle_slot (show more.stream ≠ none from hsome)]
    rw [hsettled, houtcome]
    refine .inl ⟨hstream, .inl ⟨h.toAttached.took htook hfin h.direction, h.state, h.txPos, hshort,
      h.whole, ?_⟩⟩
    show line.received = line.written ++ ((slot.rx ++ line.input.unread) ++ input.unread)
    rw [htook.unread, List.append_nil]
    exact h.received
  | true =>
    have hpush : s.events.length < eventCapacity := hqueue hfin
    by_cases hnone : slot.rx ++ line.input.unread = []
    · let closed : Outcome := {
        slot := { slot with rx := [], conn := none, state := .evented }
        event := some .closed
        hasRead := true
        ending := some .finish }
      have houtcome : outcome = closed := by
        simp [closed, outcome, Slot.readResponder, answers, Line.served, hread, hfin, hnone, Slot.emitClosed,
          Slot.push, Slot.pushError, payloadBytes, hpush]
      refine .inl ⟨by rw [houtcome]; exact hstream, .inr (.inr ⟨by rw [houtcome], ?_⟩)⟩
      simp only [settled]
      rw [houtcome]
      refine h.over hfin hshort hread htook rfl rfl ?_
      rw [if_pos hnone]
      exact ⟨rfl, rfl⟩
    · let failed : Outcome := {
        slot := { slot with
          rx := slot.rx ++ line.input.unread
          conn := none
          state := .evented
          stream := none }
        event := some (.error .state)
        hasRead := true
        ending := some .reset }
      have houtcome : outcome = failed := by
        simp only [failed, outcome, Slot.readResponder, answers, Line.served, hread, hfin, if_neg hfull,
          if_true, if_neg hnone, Slot.failStream, Slot.push, Slot.pushError, if_neg hsome, hpush,
          decide_true]
      refine .inr ⟨by rw [houtcome], ?_⟩
      simp only [settled]
      rw [houtcome]
      refine h.over hfin hshort hread htook rfl rfl ?_
      rw [if_neg hnone]
      exact ⟨.state, rfl⟩

/-! ## One step -/

theorem Quiet.arrive (h : Quiet line) (data : Bytes) (fin : Bool) : Quiet (line.arrive data fin) :=
  ⟨h.fate, h.live, Host.quicRecvStreamData_orderly h.orderly data fin⟩

theorem unread_arrive (data : Bytes) (fin : Bool) :
    (line.arrive data fin).input.unread = line.input.unread ++ data := (List.append_assoc ..).symm

theorem Attached.arrive (h : Attached slot line) (data : Bytes) (fin : Bool) :
    Attached slot (line.arrive data fin) :=
  ⟨h.toQuiet.arrive data fin, h.opened, (fun hread => by cases hread), h.direction⟩

/-- What the peer sends goes behind what is there. -/
theorem Served.arrive (h : Served p s) {data : Bytes} {fin : Bool}
    (hremote : (s.lines p).input.quic.remoteFin = false) :
    Served p (s.setLine p ((s.lines p).arrive data fin)) := by
  have hover : ¬ Over (s.lines p) := fun hover => by cases hremote.symm.trans hover.remoteFin
  refine h.setLine rfl ?_ ?_
  · rintro slot (h | h | ⟨-, h⟩)
    · refine .inl ⟨h.toAttached.arrive data fin, h.state, h.txPos, h.part, h.whole, ?_⟩
      rw [unread_arrive]
      show (s.lines p).received ++ data = (s.lines p).written ++ (slot.rx ++ (_ ++ data))
      rw [h.received, List.append_assoc, List.append_assoc]
    · obtain ⟨done, hdone, hwritten, hreceived⟩ := h.split
      refine .inr (.inl ⟨⟨h.toAttached.arrive data fin, h.state, h.payload, h.part, done, hdone,
        hwritten, ?_⟩, h.owed⟩)
      rw [unread_arrive]
      show (s.lines p).received ++ data = done ++ (slot.tx ++ (_ ++ data))
      rw [hreceived, List.append_assoc, List.append_assoc]
    · exact absurd h hover
  · rintro (h | h)
    · refine .inl ⟨h.toQuiet.arrive data fin, h.opened, h.slot, h.direction, h.written, ?_⟩
      rw [unread_arrive]
      exact congrArg (· ++ data) h.received
    · exact absurd h hover

theorem Served.drain (h : Served p s) (last : Bool) :
    Served p (s.setLine p ((s.lines p).drain last)) := by
  refine h.setLine rfl ?_ ?_
  · rintro slot (h | h | ⟨hstate, h⟩)
    · exact .inl ⟨⟨⟨h.fate, h.live, h.orderly⟩, h.opened, h.drained, h.direction⟩, h.state, h.txPos,
        h.part, h.whole, h.received⟩
    · exact .inr (.inl ⟨⟨⟨⟨h.fate, h.live, h.orderly⟩, h.opened, h.drained, h.direction⟩, h.state,
        h.payload, h.part, h.split⟩, .inr rfl⟩)
    · exact .inr (.inr ⟨hstate, h.opened, h.reset, h.remoteFin, h.written, h.finished, h.failed⟩)
  · rintro (h | h)
    · exact .inl ⟨⟨h.fate, h.live, h.orderly⟩, h.opened, h.slot, h.direction, h.written, h.received⟩
    · exact .inr ⟨h.opened, h.reset, h.remoteFin, h.written, h.finished, h.failed⟩

/-- The transport closes the stream only behind its end. -/
theorem Served.closes (h : Served p s) (hending : (s.lines p).fate.ending ≠ none) :
    Served p (s.setLine p { s.lines p with
      fate := { (s.lines p).fate with closed := true, gone := true } }) := by
  have hquiet : ¬ Quiet (s.lines p) := fun hquiet => hending (by rw [hquiet.fate])
  refine h.setLine rfl ?_ ?_
  · rintro slot (h | h | ⟨hstate, h⟩)
    · exact absurd h.toQuiet hquiet
    · exact absurd h.toQuiet hquiet
    · exact .inr (.inr ⟨hstate, h.opened, h.reset, h.remoteFin, h.written, h.finished, h.failed⟩)
  · rintro (h | h)
    · exact absurd h.toQuiet hquiet
    · exact .inr ⟨h.opened, h.reset, h.remoteFin, h.written, h.finished, h.failed⟩

/-- The slot that `ping_on_open` takes for an inbound stream listens. -/
theorem Served.opens (h : Served p s) (hopened : (s.lines p).opened = false)
    (payload : Option Bytes) (write : Except HostErr Nat) (now : Except PingErr Nat) :
    Served p (s.step (.opens p payload write now)) := by
  have hwaiting : Waiting (s.lines p) := by
    have hover : ¬ Over (s.lines p) := fun hover => by cases hopened.symm.trans hover.opened
    cases hslot : (s.lines p).slot with
    | none => exact (h.loose hslot).resolve_right hover
    | some j =>
      rcases (h.own j hslot).2 with h | h | ⟨-, h⟩
      · cases hopened.symm.trans h.opened
      · cases hopened.symm.trans h.opened
      · exact absurd h hover
  have hopen : s.openSlot (s.lines p).direction payload = s.allocSlot.map fun k => (k, {}) := by
    unfold Service.openSlot
    rw [if_neg (by simp [hwaiting.direction])]
  simp only [Service.step, hopen]
  cases s.allocSlot with
  | none => exact h
  | some k =>
    refine Served.of_call rfl (.inl ?_)
    have hrun (answers : Answers) : Slot.onOpen answers p (s.lines p).direction {} =
        { slot := Slot.setUp p .inbound {} } := by
      rw [hwaiting.direction]
      rfl
    simp only [hrun]
    rw [settle_slot (by simp [Slot.setUp])]
    refine ⟨rfl, .inl ⟨⟨⟨hwaiting.fate, hwaiting.live, hwaiting.orderly⟩, rfl,
      (fun hread => by cases hread), rfl⟩, rfl, rfl, (show 0 < payloadBytes by decide), ?_, ?_⟩⟩
    · simp [hwaiting.written]
    · simp [hwaiting.written, hwaiting.received, Slot.setUp]

/-- A callback changes nothing of a stream that is over. -/
theorem Over.served (h : Over line) (kind : EventKind) : Over (line.served kind) := by
  cases kind with
  | readable | writable =>
    exact ⟨h.opened, h.reset, h.remoteFin, h.written, h.finished, h.failed⟩
  | reset | closed => exact ⟨h.opened, rfl, h.remoteFin, h.written, h.finished, h.failed⟩

/-- A callback that the slot does not handle. -/
theorem settle_idle {kind : EventKind} {answers : Answers} (hstream : slot.stream = some p)
    (hidle : slot.onEvent answers kind = { slot := slot }) (hserves : Serves slot line) :
    (slot.onEvent answers kind).slot.stream = some p ∧ Serves (slot.onEvent answers kind).slot
      (line.settle k room write (slot.onEvent answers kind)) := by
  rw [hidle, settle_slot (by simp [hstream])]
  exact ⟨hstream, hserves⟩

/-- A callback about the stream. -/
theorem Served.callback (h : Served p s) {kind : EventKind}
    (hallows : s.Allows (.callback p kind write now))
    (hmeets : EchoMeets p s (.callback p kind write now)) :
    Served p (s.step (.callback p kind write now)) := by
  obtain ⟨hopened, howes, hwrites⟩ := hallows
  obtain ⟨hfind, hkind⟩ := hmeets rfl
  rw [hfind] at hwrites
  simp only [Service.step, hfind]
  cases hslot : (s.lines p).slot with
  | none =>
    have hover : Over (s.lines p) := (h.loose hslot).resolve_left fun hwaiting => by
      cases hopened.symm.trans hwaiting.opened
    have hline : (s.setLine p ((s.lines p).served kind)).lines p = (s.lines p).served kind :=
      Function.update_self ..
    constructor
    · intro k hk
      rw [hline] at hk
      cases kind <;> cases hslot.symm.trans hk
    · intro _
      rw [hline]
      exact .inr (hover.served kind)
  | some k =>
    obtain ⟨hstream, hserves⟩ := h.own k hslot
    have hsome : (s.slots k).stream ≠ none := by simp [hstream]
    rw [hslot] at hkind hwrites
    have hwrite := hwrites k rfl
    have hkept : ((s.lines p).served kind).slot = some k := by
      cases kind <;> exact hslot
    refine Served.of_call hkept ?_
    cases kind with
    | closed => cases hkind
    | reset =>
      -- the peer does not reset the stream
      have hreset : (s.lines p).fate.reset = false := by
        rcases hserves with h | h | ⟨-, h⟩
        · rw [h.fate]
        · rw [h.fate]
        · exact h.reset
      cases hreset.symm.trans howes
    | readable =>
      rcases hserves with h | h | ⟨hstate, h⟩
      · obtain ⟨htakes, hqueue⟩ := (hkind k rfl).1 h.state
        exact h.readable htakes hqueue hwrite hstream
      · -- the READABLE is lost, but there is nothing to read
        refine .inl (settle_idle hstream (by simp [Slot.onEvent, h.state]) (.inr (.inl ?_)))
        exact ⟨⟨⟨⟨h.fate, h.live, h.orderly⟩, h.opened, (fun _ => (hkind k rfl).2 h.state),
          h.direction⟩, h.state, h.payload, h.part, h.split⟩, h.owed⟩
      · refine .inl (settle_idle hstream (by simp [Slot.onEvent, hstate]) ?_)
        exact .inr (.inr ⟨hstate, h.served .readable⟩)
    | writable =>
      rcases hserves with h | h | ⟨hstate, h⟩
      · refine .inl (settle_idle hstream (by simp [Slot.onEvent, h.state]) (.inl ?_))
        exact ⟨⟨⟨h.fate, h.live, h.orderly⟩, h.opened, h.drained, h.direction⟩, h.state, h.txPos,
          h.part, h.whole, h.received⟩
      · have hcopying : Copying (s.slots k) ((s.lines p).served .writable) :=
          ⟨⟨⟨h.fate, h.live, h.orderly⟩, h.opened, h.drained, h.direction⟩, h.state, h.payload,
            h.part, h.split⟩
        have hrun (answers : Answers) : (s.slots k).onEvent answers .writable =
            (s.slots k).writeStream answers := by
          simp [Slot.onEvent, h.state]
        simp only [hrun]
        obtain ⟨hsame, hserves⟩ := @Copying.writes _ _ k (readRoom (s.slots k)) write hcopying
          (s.answers (s.slots k) ((s.lines p).served .writable) write now) rfl hwrite
        exact .inl ⟨hsame.trans hstream, hserves⟩
      · refine .inl (settle_idle hstream (by simp [Slot.onEvent, hstate]) ?_)
        exact .inr (.inr ⟨hstate, h.served .writable⟩)

/-- The application takes an event, and the slot with its number is cleared. -/
theorem Served.nextEvent (h : Served p s) (hmeets : EchoMeets p s .nextEvent) :
    Served p (s.step .nextEvent) := by
  simp only [Service.step]
  cases hevents : s.events with
  | nil => exact h
  | cons first rest =>
    obtain ⟨k, event⟩ := first
    dsimp only
    split
    · rename_i hend
      have hevented := hmeets (k, event) (by rw [hevents]; rfl) hend
      constructor
      · intro j hj
        dsimp only at hj ⊢
        split at hj
        · cases hj
        · rename_i hother
          have hne : j ≠ k := by
            rintro rfl
            exact hother hj
          rw [if_neg hother, Function.update_of_ne hne]
          exact h.own j hj
      · intro hnone
        dsimp only at hnone ⊢
        split at hnone
        · rename_i hslot
          rw [if_pos hslot]
          have hstate := hevented hslot
          rcases (h.own k hslot).2 with h | h | ⟨-, h⟩
          · cases h.state.symm.trans hstate
          · cases h.state.symm.trans hstate
          · exact .inr ⟨h.opened, h.reset, h.remoteFin, h.written, h.finished, h.failed⟩
        · rename_i hother
          rw [if_neg hother]
          exact h.loose hnone
    · exact h.frame rfl fun _ _ => rfl

theorem Served.begins (s : Service) (leftover : Bytes) :
    Served p (s.step (.begins p .inbound leftover)) := by
  have hline : (s.step (.begins p .inbound leftover)).lines p =
      { input := ⟨leftover, .fresh⟩, received := leftover } :=
    Function.update_self ..
  constructor
  · intro k hk
    rw [hline] at hk
    cases hk
  · intro _
    rw [hline]
    exact .inl ⟨⟨rfl, ⟨rfl, rfl⟩, Host.QuicStream.fresh_orderly⟩, rfl, rfl, rfl, rfl,
      (List.append_nil leftover).symm⟩

/-- What happens to another stream object. -/
theorem Served.setLine_other (h : Served p s) {q : Nat} (hq : q ≠ p) (line : Line) :
    Served p (s.setLine q line) :=
  h.frame (Function.update_of_ne hq.symm ..) fun _ _ => rfl

/-- A slot that another stream object finds is not the stream's. -/
theorem Served.found_other (h : Served p s) {q k : Nat} (hq : q ≠ p)
    (hfind : s.findStream q = some k) : (s.lines p).slot ≠ some k := by
  intro hslot
  have hstream := (h.own k hslot).1
  rw [findStream_stream hfind, Option.some.injEq] at hstream
  exact hq hstream

theorem Served.step (h : Served p s) (hallows : s.Allows action) (honly : OnlySends p s action)
    (hmeets : EchoMeets p s action) : Served p (s.step action) := by
  cases action with
  | begins q direction leftover => exact h.setLine_other honly _
  | arrive q data fin =>
    by_cases hq : q = p
    · subst hq
      exact h.arrive hallows.1
    · exact h.setLine_other hq _
  | drain q last =>
    by_cases hq : q = p
    · subst hq
      exact h.drain last
    · exact h.setLine_other hq _
  | peerReset q => exact h.setLine_other honly _
  | streamClosed q =>
    by_cases hq : q = p
    · subst hq
      exact h.closes (honly rfl)
    · exact h.setLine_other hq _
  | initiate conn userData payload opens =>
    simp only [Service.step]
    split
    · exact h
    · cases halloc : s.allocSlot with
      | none => exact h
      | some k =>
        have hother := h.not_free (.inl (allocSlot_free halloc))
        cases payload with
        | none => exact h.setSlot hother
        | some bytes => exact h.setSlot hother
  | opens q payload write now =>
    by_cases hq : q = p
    · subst hq
      exact h.opens hallows.1 payload write now
    · simp only [Service.step]
      split
      · rename_i hopen
        exact h.call hq (h.openSlot hopen) ..
      · exact h
  | callback q kind write now =>
    by_cases hq : q = p
    · subst hq
      exact h.callback hallows hmeets
    · simp only [Service.step]
      split
      · rename_i hfind
        exact h.call hq (h.found_other hq hfind) ..
      · exact h.setLine_other hq _
  | send q payload =>
    simp only [Service.step]
    split
    · rename_i k bytes hfind
      split
      · rename_i slot hsend
        apply h.setSlot
        intro hslot
        have hidle := (h.own k hslot).2.state.2.2
        unfold Slot.send at hsend
        split at hsend
        · rename_i hstate
          exact hidle hstate.2
        · cases hsend
      · exact h
    · exact h
  | nextEvent => exact h.nextEvent hmeets

/-- The host gives the stream object to a new inbound stream, after some other steps. -/
def inbound (p : Nat) (before : List Action) (leftover : Bytes) : Service :=
  (runFrom step init before).step (.begins p .inbound leftover)

/-- A stream that finishes with nothing sent. -/
def echoedBefore : List Action :=
  [.begins 5 .inbound [], .opens 5 none (.error .wouldBlock) (.ok 0), .arrive 5 [] true,
    .callback 5 .readable (.error .wouldBlock) (.ok 0), .nextEvent, .streamClosed 5,
    .callback 5 .closed (.error .wouldBlock) (.ok 0)]

/-- A payload in two parts and the end behind it, and an outbound stream between them. -/
def echoed : List Action :=
  [.opens 5 none (.error .wouldBlock) (.ok 0), .callback 5 .readable (.error .wouldBlock) (.ok 0),
    .initiate 1 0 (some (List.replicate 32 4)) true, .begins 6 .outbound [],
    .opens 6 none (.ok 32) (.ok 0), .arrive 5 (List.replicate 30 3) false,
    .callback 5 .readable (.ok 20) (.ok 0), .callback 5 .writable (.error .wouldBlock) (.ok 0),
    .drain 5 true, .callback 5 .writable (.ok 12) (.ok 0), .arrive 5 [] true,
    .callback 5 .readable (.error .wouldBlock) (.ok 0), .nextEvent, .streamClosed 5,
    .callback 5 .closed (.error .wouldBlock) (.ok 0)]

end Service

end LeanLibp2p.Ping
