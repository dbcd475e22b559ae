import LeanLibp2p.Gossipsub.Config
import LeanLibp2p.Lib.Arena
import LeanLibp2p.Lib.Comp

/-!
# Receive buffers

`gossipsub_rx.c:1-328`: the bytes that were received on a stream and not yet consumed. Every
stream slot has a small buffer of its own; a stream that needs more gets a region of a buffer that
all streams share, and regions are moved together when one of them is given back.
-/

namespace LeanLibp2p.Gossipsub

open LeanLibp2p.Lib

variable (config : Config)

/-- The receive fields of `gossipsub_stream_state_t`, less `rx`, which points at the small buffer of
    the slot when `rx_offset` is `GOSSIPSUB_RX_NO_OFFSET` (here `none`), else at `rx_offset` in the
    shared buffer. -/
structure StreamRx where
  len : Nat
  cap : Nat
  offset : Option Nat
  deriving DecidableEq, Repr

/-- A stream slot as `gossipsub_stream_rx_reset` leaves it. -/
def StreamRx.fresh : StreamRx := ⟨0, streamRxSmallStride config, none⟩

/-- `gossipsub_stream_rx_is_large` (`gossipsub_rx.c:24-34`). -/
def StreamRx.isLarge (stream : StreamRx) : Bool := stream.offset.isSome

/-- The receive fields of `libp2p_gossipsub_t`. -/
structure Rx where
  stream : Nat → StreamRx
  small : Memory
  buffer : Memory
  used : Nat

variable (rx : Rx) (i : Nat) (stream : StreamRx)

namespace Rx

/-- Replace the receive fields of one stream. -/
def setStream (rx : Rx) (i : Nat) (stream : StreamRx) : Rx :=
  { rx with stream := Function.update rx.stream i stream }

@[simp] theorem setStream_self :
    (rx.setStream i stream).stream i = stream := Function.update_self ..

@[simp] theorem setStream_of_ne {i j : Nat} (stream : StreamRx) (h : j ≠ i) :
    (rx.setStream i stream).stream j = rx.stream j := Function.update_of_ne h ..

@[simp] theorem setStream_small :
    (rx.setStream i stream).small = rx.small := rfl

@[simp] theorem setStream_buffer :
    (rx.setStream i stream).buffer = rx.buffer := rfl

@[simp] theorem setStream_used :
    (rx.setStream i stream).used = rx.used := rfl

/-- The bytes `rx[pos .. pos + n)` of a stream. -/
def bytes (rx : Rx) (i pos n : Nat) : Bytes :=
  match (rx.stream i).offset with
  | none => rx.small.slice (i * streamRxSmallStride config + pos) n
  | some offset => rx.buffer.slice (offset + pos) n

/-- The bytes `rx[0 .. rx_len)` of a stream. -/
def content (rx : Rx) (i : Nat) : Bytes := rx.bytes config i 0 (rx.stream i).len

/-- Write `data` to `rx[pos ..)` of a stream. -/
def write (i pos : Nat) (data : Bytes) (rx : Rx) : Rx :=
  match (rx.stream i).offset with
  | none => { rx with small := rx.small.store (i * streamRxSmallStride config + pos) data }
  | some offset => { rx with buffer := rx.buffer.store (offset + pos) data }

/-- The receive fields that `libp2p_gossipsub_init` leaves. -/
def init : Rx := ⟨fun _ => .fresh config, fun _ => 0, fun _ => 0, 0⟩

end Rx

/-- The loop of `gossipsub_stream_rx_next_cap`, which at least doubles the capacity up to the limit. -/
def rxNextCapLoop (required retainedLimit : Nat) : Nat → Nat → Nat
  | 0, cap => cap
  | fuel + 1, cap =>
    if cap < required ∧ cap < retainedLimit then
      rxNextCapLoop required retainedLimit fuel
        (if retainedLimit / 2 < cap then retainedLimit else cap * 2)
    else cap

/-- `gossipsub_stream_rx_next_cap` (`gossipsub_rx.c:36-72`). -/
def rxNextCap (currentCap required retainedLimit : Nat) : Nat :=
  let minCap := min 4096 retainedLimit
  let cap := rxNextCapLoop required retainedLimit retainedLimit (max currentCap minCap)
  min (max cap required) retainedLimit

/-! ## Compaction -/

/-- `gossipsub_stream_rx_active_count` (`gossipsub_rx.c:74-94`). -/
def rxActiveCount (tailIndex : Nat) (rx : Rx) : Nat :=
  (List.range config.capacity.maxStreams).countP fun i => i ≠ tailIndex && (rx.stream i).isLarge

/-- `gossipsub_stream_rx_move_large` (`gossipsub_rx.c:96-124`), with the cursor it moves on; the
    shared buffer is NULL when it has no bytes. -/
def rxMoveLarge (i cursor : Nat) (rx : Rx) : Rx × Nat :=
  let cap := (rx.stream i).cap
  match (rx.stream i).offset with
  | none => (rx, cursor)
  | some offset =>
    if streamRxBufferCap config ≠ 0 ∧ cursor ≤ streamRxBufferCap config ∧
        offset ≤ streamRxBufferCap config ∧ cap ≤ streamRxBufferCap config - offset ∧
        cap ≤ streamRxBufferCap config - cursor then
      let buffer := if cap ≠ 0 ∧ offset ≠ cursor then rx.buffer.move cursor offset cap
        else rx.buffer
      ({ rx.setStream i { rx.stream i with offset := some cursor } with buffer := buffer },
        cursor + cap)
    else (rx, cursor)

/-- The search of `gossipsub_stream_rx_compact`: the region with the lowest offset that is not
    below `searchOffset`. -/
def rxLowestStream (tailIndex : Nat) (rx : Rx) (searchOffset : Nat) : Option Nat × Nat :=
  (List.range config.capacity.maxStreams).foldl (fun best i =>
    if (i ≠ tailIndex ∧ (rx.stream i).isLarge) ∧ searchOffset ≤ (rx.stream i).offset.getD sizeMax ∧
        (rx.stream i).offset.getD sizeMax < best.2 then
      (some i, (rx.stream i).offset.getD sizeMax)
    else best) (none, sizeMax)

/-- The outer loop of `gossipsub_stream_rx_compact`; `fuel` is `active_count` less `moved`. -/
def rxCompactLoop (config : Config) (tailIndex : Nat) : Nat → Nat → Nat → Rx → Rx × Nat
  | 0, cursor, _, rx => (rx, cursor)
  | fuel + 1, cursor, searchOffset, rx =>
    match (rxLowestStream config tailIndex rx searchOffset).1 with
    | none => (rx, cursor)
    | some i =>
      let oldOffset := (rx.stream i).offset.getD sizeMax
      let (rx, cursor) := rxMoveLarge config i cursor rx
      let searchOffset := if (rx.stream i).cap ≤ sizeMax - oldOffset then
          oldOffset + (rx.stream i).cap
        else sizeMax
      let searchOffset := if searchOffset = oldOffset ∧ searchOffset < sizeMax then
          searchOffset + 1
        else searchOffset
      rxCompactLoop config tailIndex fuel cursor searchOffset rx

/-- `gossipsub_stream_rx_compact` (`gossipsub_rx.c:126-182`). -/
def rxCompact (tailIndex : Nat) (rx : Rx) : Rx :=
  if streamRxBufferCap config ≠ 0 then
    let (rx, cursor) := rxCompactLoop config tailIndex (rxActiveCount config tailIndex rx) 0 0 rx
    let (rx, cursor) := if tailIndex < config.capacity.maxStreams then
        rxMoveLarge config tailIndex cursor rx
      else (rx, cursor)
    { rx with used := cursor }
  else rx

/-! ## Operations -/

/-- `gossipsub_stream_rx_reset` (`gossipsub_rx.c:184-198`). -/
def rxReset (i : Nat) (rx : Rx) : Rx :=
  rxCompact config config.capacity.maxStreams (rx.setStream i (.fresh config))

/-- The part of `gossipsub_stream_rx_reserve` that gives a stream a region of `newCap` bytes at the
    end of the used part of the shared buffer, and copies what the stream holds there. -/
def rxRelocate (i newCap : Nat) (rx : Rx) : Rx :=
  { rx.setStream i ⟨(rx.stream i).len, newCap, some rx.used⟩ with
    buffer := rx.buffer.store rx.used (rx.content config i)
    used := rx.used + newCap }

/-- The part of `gossipsub_stream_rx_reserve` for a stream that needs more than it has. -/
def rxGrow (i newCap : Nat) : Comp Rx GossipsubErr Unit := fun rx =>
  let compacted := rxCompact config config.capacity.maxStreams rx
  let room := streamRxBufferCap config - compacted.used
  if (rx.stream i).isLarge then
    let stream := compacted.stream i
    let offset := stream.offset.getD sizeMax
    if streamRxBufferCap config < offset ∨ streamRxBufferCap config - offset < stream.cap ∨
        newCap < stream.cap then
      (.error .internal, compacted)
    else if offset + stream.cap = compacted.used then
      if newCap - stream.cap ≤ room then
        (.ok (), { compacted.setStream i { stream with cap := newCap } with
          used := offset + newCap })
      else (.error .wouldBlock, compacted)
    else if newCap ≤ room then
      (.ok (), rxCompact config config.capacity.maxStreams (rxRelocate config i newCap compacted))
    else (.error .wouldBlock, compacted)
  else if newCap ≤ room then (.ok (), rxRelocate config i newCap compacted)
  else (.error .wouldBlock, compacted)

/-- `gossipsub_stream_rx_reserve` (`gossipsub_rx.c:200-303`). -/
def rxReserve (i required : Nat) : Comp Rx GossipsubErr Unit := fun rx =>
  if streamRxMaxCap config < required then (.error .limit, rx)
  else if required ≤ (rx.stream i).cap then (.ok (), rx)
  else
    let newCap := rxNextCap (rx.stream i).cap required (streamRxMaxCap config)
    if streamRxBufferCap config = 0 ∨ newCap < required ∨ streamRxBufferCap config < newCap then
      (.error .limit, rx)
    else rxGrow config i newCap rx

/-- `gossipsub_stream_rx_shrink` (`gossipsub_rx.c:305-328`). -/
def rxShrink (i : Nat) (rx : Rx) : Rx :=
  if i < config.capacity.maxStreams ∧ (rx.stream i).isLarge ∧
      (rx.stream i).len ≤ streamRxSmallStride config then
    rxCompact config config.capacity.maxStreams
      { rx.setStream i ⟨(rx.stream i).len, streamRxSmallStride config, none⟩ with
        small := rx.small.store (i * streamRxSmallStride config) (rx.content config i) }
  else rx

/-- The end of a round of `gossipsub_stream_decode_available` (`gossipsub_rx.c:839-853`): the bytes behind
    a frame that ends at `pos` move to the front. -/
def rxConsume (i pos : Nat) (rx : Rx) : Rx :=
  let stream := rx.stream i
  if pos < stream.len then
    let moved := rx.write config i 0 (rx.bytes config i pos (stream.len - pos))
    moved.setStream i { stream with len := stream.len - pos }
  else rx.setStream i { stream with len := 0 }

end LeanLibp2p.Gossipsub
