import LeanLibp2p.Host.Types

/-!
# A stream slot of the ping protocol

What `ping.c` does with the stream of one slot when the host opens it or calls back. What the host
and the clock answer is an argument; what the slot asks of the host comes back with it.
-/

namespace LeanLibp2p.Ping

open LeanLibp2p.Host (HostErr Direction EventKind)

/-- `LIBP2P_PING_PAYLOAD_BYTES`. -/
def payloadBytes : Nat := 32

/-- `libp2p_ping_err_t` without `OK`. -/
inductive PingErr where
  | invalidArg
  | bufTooSmall
  | limit
  | state
  | mismatch
  | host
  | random
  deriving DecidableEq, Repr

/-- `ping_host_err` (`ping.c:5-35`). -/
def pingHostErr : PingErr → HostErr
  | .invalidArg => .invalidArg
  | .bufTooSmall => .bufTooSmall
  | .limit => .limit
  | .state => .state
  | _ => .protocol

/-- `ping_host_to_err` (`ping.c:37-67`). -/
def hostToErr : HostErr → PingErr
  | .invalidArg => .invalidArg
  | .bufTooSmall => .bufTooSmall
  | .limit => .limit
  | .state => .state
  | _ => .host

/-- `libp2p_ping_slot_state_t`. -/
inductive SlotState where
  | free
  | opening
  | initiatorWriting
  | initiatorReading
  | initiatorIdle
  | responderReading
  | responderWriting
  | evented
  deriving DecidableEq, Repr

/-- A `libp2p_ping_event_t` by its type, less the fields that are those of the slot. -/
inductive SlotEvent where
  | pong (payload : Bytes) (rttUs : Nat)
  | closed
  | error (reason : PingErr)
  deriving DecidableEq, Repr

/-- The event ends the stream; `libp2p_ping_next_event` clears the slot behind it. -/
def SlotEvent.isEnd : SlotEvent → Bool
  | .pong _ _ => false
  | .closed | .error _ => true

/-- `libp2p_ping_stream_state_t`; `rx` is `rx[0..rx_len)`. -/
structure Slot where
  state : SlotState := .free
  direction : Direction := .inbound
  conn : Option Nat := none
  stream : Option Nat := none
  userData : Nat := 0
  tx : Bytes := []
  rx : Bytes := []
  txPos : Nat := 0
  timerStarted : Bool := false
  startedUs : Nat := 0
  deriving DecidableEq, Repr

/-- What is answered while a callback runs: `libp2p_host_stream_read`, `libp2p_host_stream_write`, the
    configured clock, and whether `ping_event_push` finds room. -/
structure Answers where
  read : Except HostErr (Bytes × Bool) := .error .wouldBlock
  write : Except HostErr Nat := .error .wouldBlock
  now : Except PingErr Nat := .ok 0
  room : Bool := true

/-- What a slot asks the host to do with its stream in the end. -/
inductive Ending where
  | finish
  | reset
  deriving DecidableEq, Repr

/-- What came of a call: the slot, the event that was queued, whether the slot read, what it offered
    to a write, how it ended its stream, and what it returned. -/
structure Outcome where
  slot : Slot
  event : Option SlotEvent := none
  hasRead : Bool := false
  offered : Bytes := []
  ending : Option Ending := none
  error : Option HostErr := none
  deriving DecidableEq, Repr

namespace Slot

variable (answers : Answers)

/-- `ping_event_push` (`ping.c:98-124`) for an event of the slot. -/
def push (event : SlotEvent) : Option SlotEvent := if answers.room then some event else none

/-- What `ping_event_push` returns, to the host. -/
def pushError : Option HostErr := if answers.room then none else some (pingHostErr .limit)

/-- `ping_prepare_payload` (`ping.c:245-270`), with what the configured source of randomness gave. -/
def preparePayload (payload : Bytes) (slot : Slot) : Slot :=
  { slot with tx := payload, txPos := 0, rx := [], timerStarted := false }

/-- `ping_fail_stream` (`ping.c:272-304`). -/
def failStream (reason : PingErr) (slot : Slot) : Outcome where
  slot := { slot with conn := none, state := .evented, stream := none }
  event := push answers (.error reason)
  ending := if slot.stream = none then none else some .reset
  error := pushError answers

/-- `ping_emit_closed` (`ping.c:306-331`). -/
def emitClosed (slot : Slot) : Outcome where
  slot := { slot with conn := none, state := .evented }
  event := push answers .closed
  error := pushError answers

/-- `ping_emit_pong` (`ping.c:333-367`). -/
def emitPong (nowUs : Nat) (slot : Slot) : Outcome where
  slot := if answers.room then
      { slot with state := .initiatorIdle, rx := [], txPos := 0, timerStarted := false }
    else slot
  event := push answers (.pong slot.rx (nowUs - slot.startedUs))
  error := pushError answers

/-- The slot behind a write that took `accepted` bytes (`ping.c:412-428`). -/
def advance (accepted : Nat) (slot : Slot) : Slot :=
  if slot.txPos + accepted = payloadBytes then
    if slot.direction = .outbound then
      { slot with txPos := payloadBytes, state := .initiatorReading, rx := [] }
    else { slot with txPos := 0, state := .responderReading, rx := [] }
  else { slot with txPos := slot.txPos + accepted }

/-- `ping_write_stream` (`ping.c:369-438`). -/
def writeStream (slot : Slot) : Outcome :=
  if payloadBytes ≤ slot.txPos then { slot := slot }
  else
    let offered := slot.tx.drop slot.txPos
    match answers.write with
    | .error .wouldBlock => { slot := slot, offered := offered }
    | .error e => { slot.failStream answers (hostToErr e) with offered := offered }
    | .ok accepted =>
      if accepted ≠ 0 ∧ slot.timerStarted = false ∧ slot.direction = .outbound then
        match answers.now with
        | .ok nowUs =>
          { slot := { slot with startedUs := nowUs, timerStarted := true }.advance accepted
            offered := offered }
        | .error e => { slot := slot, offered := offered, error := some (pingHostErr e) }
      else { slot := slot.advance accepted, offered := offered }

/-- `ping_read_responder` (`ping.c:440-501`). -/
def readResponder (slot : Slot) : Outcome :=
  match answers.read with
  | .error .wouldBlock => { slot := slot, hasRead := true }
  | .error e => { slot.failStream answers (hostToErr e) with hasRead := true }
  | .ok (bytes, fin) =>
    let slot := { slot with rx := slot.rx ++ bytes }
    if slot.rx.length = payloadBytes then
      { { slot with tx := slot.rx, txPos := 0, state := .responderWriting }.writeStream answers with
        hasRead := true }
    else if fin then
      if slot.rx = [] then
        { slot.emitClosed answers with hasRead := true, ending := some .finish }
      else { slot.failStream answers .state with hasRead := true }
    else { slot := slot, hasRead := true }

/-- `ping_read_initiator` (`ping.c:503-571`). -/
def readInitiator (slot : Slot) : Outcome :=
  match answers.read with
  | .error .wouldBlock => { slot := slot, hasRead := true }
  | .error e => { slot.failStream answers (hostToErr e) with hasRead := true }
  | .ok (bytes, fin) =>
    let slot := { slot with rx := slot.rx ++ bytes }
    if slot.rx.length = payloadBytes then
      if slot.rx = slot.tx then
        match answers.now with
        | .ok nowUs => { slot.emitPong answers nowUs with hasRead := true }
        | .error e => { slot.failStream answers e with hasRead := true }
      else { slot.failStream answers .mismatch with hasRead := true }
    else if fin then { slot.failStream answers .state with hasRead := true }
    else { slot := slot, hasRead := true }

/-- The slot that `ping_on_open` found or took, as it sets it up for the stream (`ping.c:609-617`). -/
def setUp (stream : Nat) (direction : Direction) (slot : Slot) : Slot :=
  { slot with
    stream := some stream
    direction := direction
    state := if direction = .outbound then .initiatorWriting else .responderReading }

/-- `ping_on_open` (`ping.c:573-629`) for the slot: it writes at once where it is the initiator. -/
def onOpen (stream : Nat) (direction : Direction) (slot : Slot) : Outcome :=
  if direction = .outbound then (slot.setUp stream direction).writeStream answers
  else { slot := slot.setUp stream direction }

/-- `ping_on_event` (`ping.c:631-695`) for the slot of the stream. -/
def onEvent (kind : EventKind) (slot : Slot) : Outcome :=
  match kind with
  | .readable =>
    if slot.state = .initiatorReading then slot.readInitiator answers
    else if slot.state = .responderReading then slot.readResponder answers
    else { slot := slot }
  | .writable =>
    if slot.state = .initiatorWriting ∨ slot.state = .responderWriting then
      slot.writeStream answers
    else { slot := slot }
  | .reset => slot.failStream answers .host
  | .closed => slot.emitClosed answers

/-- `libp2p_ping_send` (`ping.c:805-833`) on the slot of the stream; `none` is an error. -/
def send (payload : Bytes) (slot : Slot) : Option Slot :=
  if slot.direction = .outbound ∧ slot.state = .initiatorIdle then
    some { slot.preparePayload payload with state := .initiatorWriting }
  else none

end Slot

end LeanLibp2p.Ping
