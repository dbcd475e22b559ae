import LeanLibp2p.Gossipsub.Router.State

/-!
# Message tables

The part of `gossipsub_state.c` about single messages: their ids, the ids seen lately, the message
cache, what peers do not want, and the tokens of messages that the application validates.
-/

namespace LeanLibp2p.Gossipsub

open LeanLibp2p.Lib

variable (config : Config)

/-- Addition of `uint64_t` values. -/
def u64Add (a b : Nat) : Nat := (a + b) % (uint64Max + 1)

/-- `gossipsub_compute_message_id` (`gossipsub_state.c:1406-1456`); the callers give a buffer of
    `LIBP2P_GOSSIPSUB_DEFAULT_MAX_MESSAGE_ID_BYTES`. -/
def computeMessageId (message : Message) : Except GossipsubErr Bytes := do
  let required ← config.messageIdFn.measure message
  if required = 0 ∨ config.limits.maxMessageIdBytes < required then throw .limit
  if defaultMaxMessageIdBytes < required then throw .bufTooSmall
  config.messageIdFn.write message defaultMaxMessageIdBytes

/-- `gossipsub_seen_contains` (`gossipsub_state.c:1458-1485`). -/
def seenContains (r : Router) (messageId : Span) (nowUs : Nat) : Bool :=
  !messageId.isNull && (findSlot config.capacity.seenEntries fun i =>
    (r.seen i).used && decide (nowUs ≤ (r.seen i).expiresUs) &&
      (r.seen i).messageId = messageId.bytes).isSome

/-- `gossipsub_seen_add` (`gossipsub_state.c:1487-1518`). -/
def seenAdd (messageId : Bytes) (nowUs : Nat) (r : Router) : Router :=
  if config.capacity.seenEntries ≠ 0 ∧ messageId.length ≤ config.limits.maxMessageIdBytes then
    let target := (findSlot config.capacity.seenEntries fun i =>
      !(r.seen i).used || decide ((r.seen i).expiresUs < nowUs)).getD
        (r.mcache.next % config.capacity.seenEntries)
    { r.setSeen target ⟨true, messageId, u64Add nowUs config.mesh.seenTtlUs⟩ with
      history := { r.history with accepted := r.history.accepted ++ [⟨messageId, r.lastDriveUs⟩] } }
  else r

/-! ## Message cache -/

/-- `gossipsub_mcache_find` (`gossipsub_state.c:1520-1545`). -/
def mcacheFind (r : Router) (messageId : Span) : Option Nat :=
  if messageId.isNull then none
  else findSlot config.capacity.mcacheSlots fun i =>
    (r.mcache.entries i).used && (r.mcache.entries i).messageId = messageId.bytes

/-- The part of `gossipsub_mcache_store` that wipes the cache when the data does not fit behind
    the data in use. -/
def Mcache.makeRoom (dataLen : Nat) (mcache : Mcache) : Mcache :=
  if config.capacity.mcacheBytes - mcache.dataUsed < dataLen then
    { mcache with entries := fun _ => .free, dataUsed := 0 }
  else mcache

/-- The part of `gossipsub_mcache_store` that fills the next slot, for the message with number
    `origin`. -/
def Mcache.insert (messageId topic data : Bytes) (origin : Nat) (mcache : Mcache) : Mcache where
  entries := Function.update mcache.entries (mcache.next % config.capacity.mcacheSlots)
    { used := true
      window := 0
      messageId := messageId
      topic := topic
      dataOffset := mcache.dataUsed
      dataLen := data.length
      origin := origin }
  data := mcache.data.store mcache.dataUsed data
  dataUsed := mcache.dataUsed + data.length
  next := u64Add mcache.next 1

/-- `gossipsub_mcache_store` (`gossipsub_state.c:1547-1605`), which returns the slot; `source` and
    `gated` are for the history. -/
def mcacheStore (source : Option (Nat × Message)) (gated : Bool) (messageId : Bytes)
    (topic data : Span) : RouterM Nat := fun r =>
  if topic.isNull ∨ data.isNull ∧ data.len ≠ 0 then (.error .invalidArg, r)
  else if messageId.length = 0 ∨ config.limits.maxMessageIdBytes < messageId.length ∨
      topic.len = 0 ∨ config.limits.maxTopicBytes < topic.len ∨
      config.capacity.mcacheBytes < data.len then
    (.error .limit, r)
  else
    let mcache := r.mcache.makeRoom config data.len
    (.ok (mcache.next % config.capacity.mcacheSlots),
      { r with
        mcache := mcache.insert config messageId topic.bytes data.bytes r.history.messages.length
        history := { r.history with
          messages := r.history.messages ++ [⟨source, gated, messageId, topic.bytes, data.bytes⟩] } })

/-- The data of an entry. -/
def Mcache.content (mcache : Mcache) (entry : McacheEntry) : Bytes :=
  mcache.data.slice entry.dataOffset entry.dataLen

/-- `gossipsub_entry_message` (`gossipsub_state.c:1607-1620`). -/
def entryMessage (mcache : Mcache) (entry : McacheEntry) : Message :=
  { Message.zero with
    topic := .ptr entry.topic
    data := .ptr (mcache.content entry) }

/-- The ageing of one entry in `gossipsub_heartbeat`. -/
def McacheEntry.age (entry : McacheEntry) : McacheEntry :=
  if entry.used then
    if config.mesh.mcacheLen ≤ entry.window then { entry with used := false }
    else { entry with window := entry.window + 1 }
  else entry

/-! ## Unwanted messages -/

/-- `gossipsub_peer_idontwant_contains` (`gossipsub_state.c:1622-1651`). -/
def peerIdontwantContains (r : Router) (p : Nat) (messageId : Bytes) (nowUs : Nat) : Bool :=
  (findSlot config.capacity.idontwantEntries fun i =>
    (r.idontwant i).used && (r.idontwant i).peerIndex = p &&
      decide (nowUs ≤ (r.idontwant i).expiresUs) && (r.idontwant i).messageId = messageId).isSome

/-- `gossipsub_peer_idontwant_add` (`gossipsub_state.c:1653-1687`). -/
def peerIdontwantAdd (p : Nat) (messageId : Span) (nowUs : Nat) (r : Router) : Router :=
  if messageId.isNull = false ∧ config.capacity.idontwantEntries ≠ 0 ∧
      messageId.len ≤ config.limits.maxMessageIdBytes then
    let target := (findSlot config.capacity.idontwantEntries fun i =>
      !(r.idontwant i).used || decide ((r.idontwant i).expiresUs < nowUs)).getD
        (r.mcache.next % config.capacity.idontwantEntries)
    r.setIdontwant target ⟨true, messageId.bytes, p, u64Add nowUs config.idontwantTtlUs⟩
  else r

/-! ## Validation tokens -/

/-- `gossipsub_alloc_validation` (`gossipsub_tx.c:1616-1641`) for the message with number
    `origin`. -/
def allocValidation (p mcacheIndex nowUs origin : Nat) :
    RouterM (Option Nat) := fun r =>
  match findSlot config.capacity.pendingValidations fun v => !(r.validations v).pending with
  | none => (.ok none, r)
  | some v =>
    (.ok (some v), r.setValidation v
      ⟨true, p, mcacheIndex, u64Add nowUs config.mesh.iwantFollowupUs, origin⟩)

end LeanLibp2p.Gossipsub
