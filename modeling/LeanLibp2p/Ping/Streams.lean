import LeanLibp2p.Lib.Run
import LeanLibp2p.Ping.Slot

/-!
# The slots and streams of the ping protocol

The table of slots of `ping.c` with its event queue, and the stream objects of the host: what the
transport has of each, which callbacks the host owes, and what the application does. A stream object
is given to one stream after the other, a slot too; a slot is found by the stream object that it
remembers, and an event clears the slot whose number it carries.
-/

namespace LeanLibp2p.Ping

open LeanLibp2p.Lib
open LeanLibp2p.Host (HostErr Direction EventKind StreamInput quicRecvStreamData quicStreamReset)

/-- `LIBP2P_PING_MAX_STREAMS`. -/
def maxStreams : Nat := 16

/-- `LIBP2P_PING_EVENT_CAPACITY`. -/
def eventCapacity : Nat := 16

/-- What became of a stream: the RESET and CLOSED callbacks that are owed, whether a write may fail,
    how a slot ended it, and the events that were queued about it. -/
structure Fate where
  reset : Bool := false
  closed : Bool := false
  gone : Bool := false
  ending : Option Ending := none
  events : List SlotEvent := []
  deriving DecidableEq, Repr

/-- A stream object of the host with its present stream: `readable` and `writable` are callbacks that
    are owed, `blocked` says that the last write was refused or cut short and no WRITABLE was reported
    since, `unacked` that accepted bytes are still on their way. -/
structure Line where
  direction : Direction := .inbound
  input : StreamInput := ⟨[], .fresh⟩
  received : Bytes := []
  written : Bytes := []
  opened : Bool := false
  readable : Bool := false
  writable : Bool := false
  blocked : Bool := false
  unacked : Bool := false
  fate : Fate := {}
  /-- For the history: the slot that `ping_on_open` took for the stream, while it is the stream's. -/
  slot : Option Nat := none
  deriving DecidableEq, Repr

/-- `libp2p_ping_t` with the stream objects of its host; the events are those in the queue. -/
structure Service where
  slots : Nat → Slot
  events : List (Nat × SlotEvent)
  lines : Nat → Line

/-- What a write took of the bytes that were offered. -/
def accepted (offered : Bytes) : Except HostErr Nat → Bytes
  | .ok n => offered.take n
  | .error _ => []

namespace Line

/-- What came of a call of slot `k`, which had room to read `room` bytes. -/
def settle (k room : Nat) (write : Except HostErr Nat) (outcome : Outcome) (line : Line) : Line :=
  { line with
    input := if outcome.hasRead then (line.input.read room).2 else line.input
    written := line.written ++ accepted outcome.offered write
    blocked := if outcome.offered = [] then line.blocked
      else decide ((accepted outcome.offered write).length < outcome.offered.length)
    unacked := line.unacked || decide (accepted outcome.offered write ≠ [])
    fate := { line.fate with
      ending := outcome.ending.or line.fate.ending
      events := line.fate.events ++ outcome.event.toList }
    slot := if line.slot = some k ∧ outcome.slot.stream = none then none else line.slot }

/-- The callback is owed. -/
def owes (line : Line) : EventKind → Bool
  | .readable => line.readable
  | .writable => line.writable
  | .reset => line.fate.reset
  | .closed => line.fate.closed

/-- The callback is not owed any more; behind CLOSED the host releases the stream object. -/
def served (line : Line) : EventKind → Line
  | .readable => { line with readable := false }
  | .writable => { line with writable := false }
  | .reset => { line with fate := { line.fate with reset := false } }
  | .closed =>
    { line with
      readable := false
      writable := false
      fate := { line.fate with reset := false, closed := false } }

/-- Bytes of the peer come in, perhaps with the end of what it sends. -/
def arrive (data : Bytes) (fin : Bool) (line : Line) : Line :=
  { line with
    input := { line.input with quic := quicRecvStreamData data fin line.input.quic }
    received := line.received ++ data
    readable := true }

/-- Bytes were sent or acknowledged, and the transport reports WRITABLE. -/
def drain (last : Bool) (line : Line) : Line :=
  { line with writable := true, blocked := false, unacked := line.unacked && !last }

end Line

/-- What happens to the service and to a stream object. -/
inductive Action where
  /-- The host gives the object to a new stream, with what came behind the negotiation. -/
  | begins (p : Nat) (direction : Direction) (leftover : Bytes)
  | arrive (p : Nat) (data : Bytes) (fin : Bool)
  | drain (p : Nat) (last : Bool)
  /-- The peer resets the stream. -/
  | peerReset (p : Nat)
  /-- The stream is closed. -/
  | streamClosed (p : Nat)
  /-- `libp2p_ping_initiate`, with the answer of the source of randomness and whether the host opens
      a stream. -/
  | initiate (conn userData : Nat) (payload : Option Bytes) (opens : Bool)
  /-- `ping_on_open`. -/
  | opens (p : Nat) (payload : Option Bytes) (write : Except HostErr Nat) (now : Except PingErr Nat)
  /-- `ping_on_event`. -/
  | callback (p : Nat) (kind : EventKind) (write : Except HostErr Nat) (now : Except PingErr Nat)
  /-- `libp2p_ping_send`. -/
  | send (p : Nat) (payload : Option Bytes)
  /-- `libp2p_ping_next_event`. -/
  | nextEvent
  deriving DecidableEq, Repr

namespace Service

/-- `libp2p_ping_init`. -/
def init : Service := ⟨fun _ => {}, [], fun _ => {}⟩

variable (s : Service)

/-- `ping_alloc_slot` (`ping.c:138-158`); the slot is cleared. -/
def allocSlot : Option Nat := findSlot maxStreams fun k => (s.slots k).state = .free

/-- `ping_find_stream` (`ping.c:160-185`). -/
def findStream (p : Nat) : Option Nat :=
  findSlot maxStreams fun k => (s.slots k).state ≠ .free ∧ (s.slots k).stream = some p

/-- `ping_find_opening` (`ping.c:187-211`). -/
def findOpening : Option Nat := findSlot maxStreams fun k => (s.slots k).state = .opening

/-- `ping_conn_has_outbound` (`ping.c:213-236`). -/
def connHasOutbound (conn : Nat) : Bool :=
  (findSlot maxStreams fun k => (s.slots k).state ≠ .free ∧ (s.slots k).state ≠ .evented ∧
    (s.slots k).direction = .outbound ∧ (s.slots k).conn = some conn).isSome

/-- The slot that `ping_on_open` finds or takes (`ping.c:589-604`). -/
def openSlot (direction : Direction) (payload : Option Bytes) : Option (Nat × Slot) :=
  if direction = .outbound then
    match s.findOpening with
    | some k => some (k, s.slots k)
    | none =>
      match s.allocSlot, payload with
      | some k, some bytes => some (k, Slot.preparePayload bytes {})
      | _, _ => none
  else s.allocSlot.map fun k => (k, {})

/-- Replace a slot. -/
def setSlot (k : Nat) (slot : Slot) : Service :=
  { s with slots := Function.update s.slots k slot }

/-- Replace what is known of a stream object. -/
def setLine (p : Nat) (line : Line) : Service :=
  { s with lines := Function.update s.lines p line }

/-- How much a slot has room to read. -/
def readRoom (slot : Slot) : Nat := payloadBytes - slot.rx.length

/-- What the host answers to a slot that calls it about a stream. -/
def answers (slot : Slot) (line : Line) (write : Except HostErr Nat) (now : Except PingErr Nat) :
    Answers where
  read := (line.input.read (readRoom slot)).1
  write := write
  now := now
  room := decide (s.events.length < eventCapacity)

/-- Slot `k`, which holds `slot`, is called about the stream object `p`. -/
def call (p k : Nat) (slot : Slot) (line : Line) (write : Except HostErr Nat)
    (now : Except PingErr Nat) (run : Answers → Slot → Outcome) : Service :=
  let outcome := run (s.answers slot line write now) slot
  { slots := Function.update s.slots k outcome.slot
    events := s.events ++ outcome.event.toList.map (Prod.mk k)
    lines := Function.update s.lines p (line.settle k (readRoom slot) write outcome) }

/-- One step. -/
def step : Action → Service
  | .begins p direction leftover =>
    s.setLine p { direction := direction, input := ⟨leftover, .fresh⟩, received := leftover }
  | .arrive p data fin => s.setLine p ((s.lines p).arrive data fin)
  | .drain p last => s.setLine p ((s.lines p).drain last)
  | .peerReset p =>
    let line := s.lines p
    s.setLine p { line with
      input := { line.input with quic := quicStreamReset line.input.quic }
      fate := { line.fate with reset := true, gone := true } }
  | .streamClosed p =>
    let line := s.lines p
    s.setLine p { line with fate := { line.fate with closed := true, gone := true } }
  | .initiate conn userData payload opens =>
    if s.connHasOutbound conn then s
    else
      match s.allocSlot, payload with
      | some k, some bytes =>
        s.setSlot k (if opens then
          { Slot.preparePayload bytes {} with
            state := .opening, direction := .outbound, conn := some conn, userData := userData }
          else {})
      | some k, none => s.setSlot k {}
      | none, _ => s
  | .opens p payload write now =>
    match s.openSlot (s.lines p).direction payload with
    | some (k, slot) =>
      let line := { s.lines p with opened := true, readable := true, writable := true, slot := some k }
      s.call p k slot line write now fun answers slot => slot.onOpen answers p line.direction
    | none => s
  | .callback p kind write now =>
    match s.findStream p with
    | some k =>
      s.call p k (s.slots k) ((s.lines p).served kind) write now fun answers slot =>
        slot.onEvent answers kind
    | none => s.setLine p ((s.lines p).served kind)
  | .send p payload =>
    match s.findStream p, payload with
    | some k, some bytes =>
      match (s.slots k).send bytes with
      | some slot => s.setSlot k slot
      | none => s
    | _, _ => s
  | .nextEvent =>
    match s.events with
    | [] => s
    | (k, event) :: rest =>
      if event.isEnd then
        { slots := Function.update s.slots k {}
          events := rest
          lines := fun p =>
            if (s.lines p).slot = some k then { s.lines p with slot := none } else s.lines p }
      else { s with events := rest }

/-- A write takes no more than the slot offers, and fails only where the stream is gone. -/
def Writes (slot : Slot) (line : Line) : Except HostErr Nat → Prop
  | .ok n => n ≤ payloadBytes - slot.txPos
  | .error e => e = .wouldBlock ∨ line.fate.gone = true

instance (slot : Slot) (line : Line) (write : Except HostErr Nat) :
    Decidable (Writes slot line write) := by
  cases write <;> (dsimp only [Writes]; infer_instance)

/-- What the transport and the host promise: the peer sends nothing behind the end; WRITABLE is
    reported only for bytes that were refused, sent or acknowledged; callbacks follow the opening, one
    for each report. -/
def Allows : Action → Prop
  | .arrive p data fin =>
    (s.lines p).input.quic.remoteFin = false ∧ (s.lines p).input.quic.remoteReset = false ∧
      (data ≠ [] ∨ fin = true)
  | .drain p _ => (s.lines p).blocked = true ∨ (s.lines p).unacked = true
  | .opens p payload write _ => (s.lines p).opened = false ∧
    ∀ found ∈ s.openSlot (s.lines p).direction payload, Writes found.2 (s.lines p) write
  | .callback p kind write _ => (s.lines p).opened = true ∧ (s.lines p).owes kind = true ∧
    ∀ k ∈ s.findStream p, Writes (s.slots k) (s.lines p) write
  | .begins .. | .peerReset _ | .streamClosed _ | .initiate .. | .send .. | .nextEvent => True

end Service

end LeanLibp2p.Ping
