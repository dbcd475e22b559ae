import LeanLibp2p.Gossipsub.Router.Run
import LeanLibp2p.Gossipsub.Rx.Pool
import LeanLibp2p.Lib.Framing

/-!
# Reading a stream

`gossipsub_stream_read` (`gossipsub_rx.c:868-958`) moves bytes from the host into the receive buffer of
a stream, and `gossipsub_stream_decode_available` (`gossipsub_rx.c:749-866`) takes complete frames off
its front. A receiver is a node with its receive buffers. Beside them it keeps, for statements
about runs, what was read from each stream and every state that the buffers came through.
-/

namespace LeanLibp2p.Gossipsub

open LeanLibp2p.Lib

variable (config : Config)

/-- What `libp2p_host_stream_read` answers, its error as `gossipsub_host_to_err` maps it. -/
inductive ReadResult where
  | data (bytes : Bytes) (fin : Bool)
  | wouldBlock
  | fail (e : GossipsubErr)
  deriving DecidableEq, Repr

/-- The host side of the reads of one callback: it answers with no more bytes than there is room
    for, and holds finitely many. -/
structure ReadSource (τ : Type) where
  read : Nat → τ → ReadResult × τ
  size : τ → Nat
  length_le : ∀ room host bytes fin host', read room host = (.data bytes fin, host') →
    bytes.length ≤ room
  size_lt : ∀ room host bytes fin host', read room host = (.data bytes fin, host') → bytes ≠ [] →
    size host' < size host

/-- A read may fail with `e`. -/
def ReadSource.Fails {τ : Type} (source : ReadSource τ) (e : GossipsubErr) : Prop :=
  ∃ room host, (source.read room host).1 = .fail e

/-- `gossipsub_host_to_err` (`gossipsub_util.c:236-270`). -/
def hostToErr : Host.HostErr → GossipsubErr
  | .invalidArg => .invalidArg
  | .bufTooSmall => .bufTooSmall
  | .limit => .limit
  | .wouldBlock => .wouldBlock
  | .notFound => .notFound
  | _ => .host

/-- What a read of a stream gives. -/
def ReadResult.ofHost : Except Host.HostErr (Bytes × Bool) → ReadResult
  | .ok (bytes, fin) => .data bytes fin
  | .error e => if hostToErr e = .wouldBlock then .wouldBlock else .fail (hostToErr e)

theorem ReadResult.ofHost_eq_data {res : Except Host.HostErr (Bytes × Bool)} {bytes : Bytes}
    {fin : Bool} (h : ReadResult.ofHost res = .data bytes fin) : res = .ok (bytes, fin) := by
  unfold ReadResult.ofHost at h
  split at h
  · cases h
    rfl
  · split at h <;> cases h

/-- The reads of a stream of the QUIC transport. -/
def hostSource : ReadSource Host.StreamInput where
  read room host := (.ofHost (host.read room).1, (host.read room).2)
  size host := host.unread.length
  length_le := by
    intro room host bytes fin host' h
    rcases Prod.mk.inj h with ⟨hres, hhost⟩
    exact (Host.StreamInput.read_unread (Prod.ext (ReadResult.ofHost_eq_data hres) hhost)).1
  size_lt := by
    intro room host bytes fin host' h hbytes
    rcases Prod.mk.inj h with ⟨hres, hhost⟩
    have hunread := (Host.StreamInput.read_unread
      (Prod.ext (ReadResult.ofHost_eq_data hres) hhost)).2
    have hpos := List.length_pos_iff.mpr hbytes
    rw [← hunread, List.length_append]
    omega

/-! ## Steps of the buffers -/

/-- The ways in which the receive buffers change. -/
inductive RxOp where
  /-- `gossipsub_stream_rx_reset`. -/
  | reset (i : Nat)
  /-- `gossipsub_stream_rx_reserve`. -/
  | reserve (i required : Nat)
  /-- `gossipsub_stream_rx_shrink`. -/
  | shrink (i : Nat)
  /-- The host writes to `&rx[rx_len]`. -/
  | write (i : Nat) (data : Bytes)
  /-- `rx_len += n`. -/
  | advance (i n : Nat)
  /-- The bytes from `pos` on are moved to the front (`gossipsub_rx.c:843-853`). -/
  | consume (i pos : Nat)
  deriving DecidableEq, Repr

/-- What an operation does to the buffers. -/
def RxOp.comp : RxOp → Comp Rx GossipsubErr Unit
  | .reset i => Comp.update (rxReset config i)
  | .reserve i required => rxReserve config i required
  | .shrink i => Comp.update (rxShrink config i)
  | .write i data => Comp.update fun rx => rx.write config i (rx.stream i).len data
  | .advance i n => Comp.update fun rx =>
      rx.setStream i { rx.stream i with len := (rx.stream i).len + n }
  | .consume i pos => Comp.update (rxConsume config i pos)

/-- The buffers around one operation. -/
structure RxTransition where
  op : RxOp
  before : Rx
  after : Rx

/-! ## Receivers -/

/-- What happened on the stream of a slot since it opened. -/
structure StreamLog where
  /-- The bytes that the host handed over. -/
  received : Bytes
  /-- The frame bodies that went to `libp2p_gossipsub_rpc_body_decode`. -/
  handed : List Bytes
  /-- The last of them was not an RPC that the router could process. -/
  refused : Bool
  /-- The error that a callback returned; the host has released the stream then. -/
  error : Option GossipsubErr
  deriving DecidableEq, Repr

/-- A stream that just opened. -/
def StreamLog.fresh : StreamLog := ⟨[], [], false, none⟩

/-- A node with its receive buffers. -/
structure Receiver where
  node : Node
  rx : Rx
  log : Nat → StreamLog
  transitions : List RxTransition

variable (i : Nat) (f : StreamLog → StreamLog) (s : Receiver)

/-- A computation of a receiver. -/
abbrev ReceiverM (α : Type) := Comp Receiver GossipsubErr α

namespace Receiver

/-- A receiver after `libp2p_gossipsub_init`. -/
def init : Receiver := ⟨.init, .init config, fun _ => .fresh, []⟩

/-- The buffers became `rx` by an operation. -/
def moveRx (op : RxOp) (rx : Rx) (s : Receiver) : Receiver :=
  { s with rx := rx, transitions := s.transitions ++ [⟨op, s.rx, rx⟩] }

@[simp] theorem moveRx_rx (op : RxOp) (rx : Rx) (s : Receiver) : (s.moveRx op rx).rx = rx := rfl

@[simp] theorem moveRx_log (op : RxOp) (rx : Rx) (s : Receiver) : (s.moveRx op rx).log = s.log := rfl

@[simp] theorem moveRx_node (op : RxOp) (rx : Rx) (s : Receiver) : (s.moveRx op rx).node = s.node :=
  rfl

/-- An operation on the buffers. -/
def pool (op : RxOp) : ReceiverM Unit := fun s =>
  ((op.comp config s.rx).1, s.moveRx op (op.comp config s.rx).2)

theorem pool_of_eq {config : Config} {op : RxOp} {s : Receiver} {res : Except GossipsubErr Unit}
    {rx : Rx} (h : op.comp config s.rx = (res, rx)) :
    pool config op s = (res, s.moveRx op rx) := by
  unfold pool
  rw [h]

/-- Enter something into the log of a stream. -/
def setLog (i : Nat) (f : StreamLog → StreamLog) (s : Receiver) : Receiver :=
  { s with log := Function.update s.log i (f (s.log i)) }

@[simp] theorem setLog_rx :
    (s.setLog i f).rx = s.rx := rfl

@[simp] theorem setLog_node :
    (s.setLog i f).node = s.node := rfl

@[simp] theorem setLog_self :
    (s.setLog i f).log i = f (s.log i) := Function.update_self ..

/-- The body of a frame is decoded and processed. -/
def process (i : Nat) (body : Bytes) : ReceiverM Unit := fun s =>
  let res := receive config i body s.node.router
  (res.1, { s with node := { s.node with router := res.2 } }.setLog i fun log =>
    { log with handed := log.handed ++ [body], refused := res.1 matches .error _ })

/-! ## Decoding -/

/-- The loop of `gossipsub_stream_decode_available`; a frame takes at least one byte. -/
def decodeLoop (config : Config) (i : Nat) : Nat → ReceiverM Unit
  | 0 => pure ()
  | fuel + 1 => do
    let s ← Comp.read id
    let rx := s.rx.content config i
    let rxLen := (s.rx.stream i).len
    if rxLen = 0 then pure ()
    else
      match uvarintDecode rx with
      | .error e => if uvarintErr e = .truncated then pure () else Comp.fail (uvarintErr e)
      | .ok (bodyLen, headerLen) =>
        if config.limits.maxRpcBytes < bodyLen then Comp.fail .limit
        else if rxLen - headerLen < bodyLen then pure ()
        else do
          process config i ((rx.drop headerLen).take bodyLen)
          pool config (.consume i (headerLen + bodyLen))
          decodeLoop config i fuel

/-- `gossipsub_stream_decode_available` (`gossipsub_rx.c:749-866`). -/
def decodeAvailable (i : Nat) : ReceiverM Unit := do
  let s ← Comp.read id
  decodeLoop config i (s.rx.stream i).len
  pool config (.shrink i)

/-! ## Reading -/

/-- `a - b` of `size_t`. -/
def sizeSub (a b : Nat) : Nat := if b ≤ a then a - b else a + (sizeMax + 1) - b

/-- The room that `gossipsub_stream_read` asks for when there is none. -/
def requiredRoom (rxLen : Nat) : Nat :=
  if 65536 < streamRxMaxCap config - rxLen then rxLen + 65536 else streamRxMaxCap config

/-- Whether the shared buffer is too full for the next read of a stream that has no room. -/
def blocked (i : Nat) (s : Receiver) : Bool :=
  let stream := s.rx.stream i
  stream.len < streamRxMaxCap config && sizeSub stream.cap stream.len = 0 &&
    (rxReserve config i (requiredRoom config stream.len) s.rx).1 matches .error .wouldBlock

/-- The start of a round of `gossipsub_stream_read`: whether the round stops because
    `gossipsub_stream_rx_reserve` answered `WOULD_BLOCK`. -/
def ensureRoom (i : Nat) : ReceiverM Bool := do
  let s ← Comp.read id
  let stream := s.rx.stream i
  if streamRxMaxCap config ≤ stream.len then Comp.fail .limit
  else if sizeSub stream.cap stream.len = 0 then
    match ← Comp.result (pool config (.reserve i (requiredRoom config stream.len))) with
    | .ok _ => return false
    | .error .wouldBlock => return true
    | .error e => Comp.fail e
  else return false

/-- The end of a round: `read_len` bytes were added. -/
def addRead (i readLen : Nat) : ReceiverM Unit := do
  pool config (.advance i readLen)
  Comp.onlyIf (decide (readLen ≠ 0)) (decodeAvailable config i)

/-- One round of `gossipsub_stream_read`, where `readLen` is what the round before read: what the
    host is left with, what this round read and whether the loop goes on. When the round gets no
    room, `read_len` still is what it was. -/
def readRound {τ : Type} (config : Config) (source : ReadSource τ) (i readLen : Nat) (host : τ) :
    ReceiverM (τ × Nat × Bool) := do
  if ← ensureRoom config i then
    addRead config i readLen
    return (host, readLen, false)
  else
    let s ← Comp.read id
    let room := min (sizeSub (s.rx.stream i).cap (s.rx.stream i).len) 65536
    match source.read room host with
    | (.fail e, _) => Comp.fail e
    | (.wouldBlock, host) =>
      addRead config i 0
      return (host, 0, false)
    | (.data bytes fin, host) =>
      pool config (.write i bytes)
      Comp.update (setLog i fun log => { log with received := log.received ++ bytes })
      addRead config i bytes.length
      return (host, bytes.length, !fin && bytes.length ≠ 0)

/-- The loop of `gossipsub_stream_read`; `fuel` exceeds the number of bytes that the host holds. -/
def streamReadLoop {τ : Type} (config : Config) (source : ReadSource τ) (i : Nat) :
    Nat → Nat → τ → ReceiverM τ
  | 0, _, _ => Comp.fail .internal
  | fuel + 1, readLen, host => do
    let (host, readLen, keepReading) ← readRound config source i readLen host
    if keepReading then streamReadLoop config source i fuel readLen host else return host

/-- `gossipsub_stream_read` (`gossipsub_rx.c:868-958`), where `host` is what the host holds for the stream;
    the result is what it is left with. -/
def streamRead {τ : Type} (config : Config) (source : ReadSource τ) (i : Nat) (host : τ) :
    ReceiverM τ := streamReadLoop config source i (source.size host + 1) 0 host

/-- A READABLE callback for the stream of a slot; one that returned an error gets no further
    callback. -/
def readable {τ : Type} (config : Config) (source : ReadSource τ) (i : Nat) (host : τ)
    (s : Receiver) : τ × Receiver :=
  if i < config.capacity.maxStreams ∧ (s.node.router.streams i).isOpen ∧
      (s.log i).error = none then
    match streamRead config source i host s with
    | (.ok host, s) => (host, s)
    | (.error e, s) => (host, s.setLog i fun log => { log with error := some e })
  else (host, s)

end Receiver

end LeanLibp2p.Gossipsub
