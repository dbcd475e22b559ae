import LeanLibp2p.Gossipsub.Tx.Queue
import LeanLibp2p.Lib.RingBuffer

/-!
# Router state

`libp2p_gossipsub_t` (`gossipsub_internal.h:71-257`): tables of fixed size for topics, peers and
what the router knows about them, the message cache, and the events that wait for the
application. A pointer into a table is the index of its slot. Beside the fields of the code a
router keeps a `History`, which no code reads: it numbers the messages that entered the cache, so
that statements about runs can say which message a slot, a token or a frame is about.
-/

namespace LeanLibp2p.Gossipsub

open LeanLibp2p.Lib

variable (config : Config)

/-- `libp2p_gossipsub_validation_mode_t`. -/
inductive ValidationMode where
  | acceptAll
  | requireApp
  deriving DecidableEq, Repr

/-- `libp2p_gossipsub_validation_result_t`. -/
inductive ValidationResult where
  | accept
  | reject
  | ignore
  deriving DecidableEq, Repr

/-- `gossipsub_topic_state_t`. -/
structure Topic where
  used : Bool
  localSubscribed : Bool
  enableIdontwant : Bool
  validationMode : ValidationMode
  idontwantMinMessageBytes : Nat
  topic : Bytes
  deriving DecidableEq, Repr

/-- A zeroed topic slot. -/
def Topic.free : Topic := ⟨false, false, false, .acceptAll, 0, []⟩

/-- `gossipsub_peer_topic_state_t`. -/
structure PeerTopic where
  used : Bool
  peerIndex : Nat
  topicIndex : Nat
  subscribed : UInt8
  deriving DecidableEq, Repr

def PeerTopic.free : PeerTopic := ⟨false, 0, 0, 0⟩

/-- `gossipsub_mesh_edge_state_t`. -/
structure MeshEdge where
  used : Bool
  peerIndex : Nat
  topicIndex : Nat
  deriving DecidableEq, Repr

def MeshEdge.free : MeshEdge := ⟨false, 0, 0⟩

/-- The mesh edges and the counter that `libp2p_gossipsub_mesh_peer_count` reads. -/
structure Mesh where
  edges : Nat → MeshEdge
  peerCount : Nat

/-- `gossipsub_backoff_state_t`. -/
structure Backoff where
  used : Bool
  peerIndex : Nat
  topicIndex : Nat
  expiresUs : Nat
  deriving DecidableEq, Repr

def Backoff.free : Backoff := ⟨false, 0, 0, 0⟩

/-- `gossipsub_mcache_entry_t`, and the number of the message that it holds. -/
structure McacheEntry where
  used : Bool
  window : Nat
  messageId : Bytes
  topic : Bytes
  dataOffset : Nat
  dataLen : Nat
  /-- For the history: the number of the message. -/
  origin : Nat
  deriving DecidableEq, Repr

def McacheEntry.free : McacheEntry := ⟨false, 0, [], [], 0, 0, 0⟩

/-- The message cache: entries in slots, and their data one after the other in `data`. -/
structure Mcache where
  entries : Nat → McacheEntry
  data : Memory
  dataUsed : Nat
  next : Nat

/-- `gossipsub_seen_entry_t`. -/
structure Seen where
  used : Bool
  messageId : Bytes
  expiresUs : Nat
  deriving DecidableEq, Repr

def Seen.free : Seen := ⟨false, [], 0⟩

/-- `gossipsub_idontwant_entry_t`. -/
structure IdontwantEntry where
  used : Bool
  messageId : Bytes
  peerIndex : Nat
  expiresUs : Nat
  deriving DecidableEq, Repr

def IdontwantEntry.free : IdontwantEntry := ⟨false, [], 0, 0⟩

/-- `libp2p_gossipsub_validation_t`, and the number of the message that it was allocated for. -/
structure Validation where
  pending : Bool
  peerIndex : Nat
  mcacheIndex : Nat
  expiresUs : Nat
  /-- For the history: the number of the message. -/
  origin : Nat
  deriving DecidableEq, Repr

/-- `gossipsub_release_validation` (`gossipsub_tx.c:1643-1652`). -/
def Validation.free : Validation := ⟨false, 0, 0, 0, 0⟩

/-- `gossipsub_stream_state_t`, less its receive fields. -/
structure StreamState where
  isOpen : Bool
  stream : Option Nat
  conn : Option Nat
  direction : Host.Direction
  version : ProtocolVersion
  peerIndex : Nat
  deriving DecidableEq, Repr

def StreamState.free : StreamState := ⟨false, none, none, .inbound, .none, 0⟩

/-! ## Events -/

/-- `libp2p_gossipsub_event_type_t`, of which `NONE` and `ERROR` are never pushed. -/
inductive EventType where
  | peerOpened
  | peerClosed
  | peerFailed
  | subscription
  | message
  | idontwant
  | dropped
  deriving DecidableEq, Repr

/-- The values of `libp2p_gossipsub_drop_reason_t` that are set, the first as the zero value. -/
inductive DropReason where
  | rpcLimit
  | duplicateMessage
  | unsubscribedTopic
  | idontwantTxQueueFull
  deriving DecidableEq, Repr

/-- A span of an event: it points at a slot of a table or into the cached data, or at bytes that
    the call that pushed the event was working on. -/
inductive EventSpan where
  | absent
  | topic (index len : Nat)
  | entryTopic (slot len : Nat)
  | entryId (slot len : Nat)
  | entryData (offset len : Nat)
  | borrowed (span : Span)
  deriving DecidableEq, Repr

/-- `libp2p_gossipsub_event_t`, less `user_data`; of `message` only the topic and the data are
    ever set. -/
structure Event where
  type : EventType
  peer : Bytes
  conn : Option Nat
  stream : Option Nat
  direction : Host.Direction
  protocolVersion : ProtocolVersion
  topic : EventSpan
  messageTopic : EventSpan
  messageData : EventSpan
  messageId : EventSpan
  idontwant : Option ControlIdontwant
  validation : Option Nat
  dropReason : DropReason
  reason : Option GossipsubErr
  txQueueDepth : Nat
  txQueueCapacity : Nat
  /-- For the history: the number of the message of a MESSAGE event. -/
  origin : Nat
  deriving DecidableEq, Repr

/-- A zeroed event of some type. -/
def Event.zero (type : EventType) : Event :=
  ⟨type, [], none, none, .inbound, .none, .absent, .absent, .absent, .absent, none, none, .rpcLimit,
    none, 0, 0, 0⟩

/-- `gossipsub_peer_to_event` (`gossipsub_state.c:57-72`). -/
def Event.ofPeer (event : Event) (peer : Peer) : Event :=
  { event with
    conn := peer.conn
    stream := peer.stream
    direction := peer.direction
    protocolVersion := peer.version
    peer := peer.peerId }

/-! ## History -/

/-- A message that entered the cache: the peer it came from and what it was when it arrived, or
    `none` when it was published here, and whether its topic required a validation by the
    application. -/
structure StoredMessage where
  source : Option (Nat × Message)
  gated : Bool
  messageId : Bytes
  topic : Bytes
  data : Bytes
  deriving DecidableEq, Repr

/-- A message that was queued for a peer as a whole, or by its id in an IHAVE or IDONTWANT. -/
structure QueuedMessage where
  origin : Nat
  messageId : Bytes
  carried : Option Message
  deriving DecidableEq, Repr

/-- A message id that entered the table of seen ids at time `atUs`. -/
structure AcceptedId where
  messageId : Bytes
  atUs : Nat
  deriving DecidableEq, Repr

/-- What the spans of an event show to one who reads them, `none` where the memory they point to is
    not the router's any more. -/
structure EventView where
  topic : Option Bytes
  messageTopic : Option Bytes
  messageData : Option Bytes
  messageId : Option Bytes
  idontwant : Option (List Bytes)
  deriving DecidableEq, Repr

/-- An event that was pushed, and what its spans showed then. -/
structure PushedEvent where
  event : Event
  shown : EventView
  deriving DecidableEq, Repr

/-- A GRAFT that was queued, and whether the pair was in backoff then. -/
structure QueuedGraft where
  peerIndex : Nat
  topicIndex : Nat
  inBackoff : Bool
  deriving DecidableEq, Repr

/-- An IDONTWANT that was queued: the peer that it is for, and the number of the message. -/
structure QueuedIdontwant where
  peerIndex : Nat
  origin : Nat
  deriving DecidableEq, Repr

/-- What happened so far. -/
structure History where
  /-- The messages that entered the cache; a message is known by its number here. -/
  messages : List StoredMessage
  /-- The messages that were queued for a peer or advertised to one. -/
  queued : List QueuedMessage
  /-- The messages that peers were told not to send. -/
  unwanted : List QueuedMessage
  /-- The IDONTWANTs that were queued. -/
  idontwants : List QueuedIdontwant
  /-- The message ids that entered the table of seen ids. -/
  accepted : List AcceptedId
  /-- The GRAFTs that were queued. -/
  grafts : List QueuedGraft
  /-- The frames that were written in full to the writer that each peer has now. -/
  sent : Nat → List Bytes
  /-- The events that entered the queue. -/
  pushed : List PushedEvent

/-! ## The router -/

/-- `libp2p_gossipsub_t`, less its receive buffers, and the number of calls of the random
    callback so far. -/
structure Router where
  started : Bool
  closing : Bool
  nextHeartbeatUs : Nat
  lastDriveUs : Nat
  topics : Nat → Topic
  peers : Nat → Peer
  peerTopics : Nat → PeerTopic
  mesh : Mesh
  backoff : Nat → Backoff
  streams : Nat → StreamState
  tx : Tx
  mcache : Mcache
  seen : Nat → Seen
  validations : Nat → Validation
  idontwant : Nat → IdontwantEntry
  events : RingBuffer Event
  randomCalls : Nat
  history : History

namespace Router

/-- The router that `libp2p_gossipsub_init` leaves. -/
def init : Router where
  started := false
  closing := false
  nextHeartbeatUs := 0
  lastDriveUs := 0
  topics := fun _ => .free
  peers := fun _ => .free
  peerTopics := fun _ => .free
  mesh := ⟨fun _ => .free, 0⟩
  backoff := fun _ => .free
  streams := fun _ => .free
  tx := .init
  mcache := ⟨fun _ => .free, fun _ => 0, 0, 0⟩
  seen := fun _ => .free
  validations := fun _ => .free
  idontwant := fun _ => .free
  events := ⟨fun _ => .zero .dropped, 0, 0⟩
  randomCalls := 0
  history := ⟨[], [], [], [], [], [], fun _ => [], []⟩

def setTopic (r : Router) (t : Nat) (topic : Topic) : Router :=
  { r with topics := Function.update r.topics t topic }

def setPeer (r : Router) (p : Nat) (peer : Peer) : Router :=
  { r with peers := Function.update r.peers p peer }

def setPeerTopic (r : Router) (i : Nat) (edge : PeerTopic) : Router :=
  { r with peerTopics := Function.update r.peerTopics i edge }

def setStream (r : Router) (i : Nat) (stream : StreamState) : Router :=
  { r with streams := Function.update r.streams i stream }

def setValidation (r : Router) (v : Nat) (validation : Validation) : Router :=
  { r with validations := Function.update r.validations v validation }

def setSeen (r : Router) (i : Nat) (seen : Seen) : Router :=
  { r with seen := Function.update r.seen i seen }

def setIdontwant (r : Router) (i : Nat) (entry : IdontwantEntry) : Router :=
  { r with idontwant := Function.update r.idontwant i entry }

def setBackoff (r : Router) (i : Nat) (backoff : Backoff) : Router :=
  { r with backoff := Function.update r.backoff i backoff }

/-- `gossipsub_release_validation`, where the token may be NULL. -/
def releaseValidation (r : Router) : Option Nat → Router
  | none => r
  | some v => r.setValidation v .free

end Router

/-- The peer has a writer stream. -/
def Router.isWriter (r : Router) (p : Nat) : Bool := (r.peers p).used && (r.peers p).stream.isSome

/-- A computation of the router. -/
abbrev RouterM (α : Type) := Comp Router GossipsubErr α

/-- `gossipsub_continue_after_local_limit` (`gossipsub_state.c:52-55`) around a computation. -/
def continueAfterLocalLimit (c : RouterM Unit) : RouterM Unit := Comp.absorb (fun e => e = .limit) c

/-- The first `len` bytes of an array that holds `bytes` and is zero behind them. -/
def arrayPrefix (len : Nat) (bytes : Bytes) : Bytes := (bytes ++ List.replicate len 0).take len

/-- What a span of an event shows; `live` says that the call that pushed the event has not
    returned. -/
def EventSpan.view (r : Router) (live : Bool) : EventSpan → Option Bytes
  | .absent => some []
  | .topic t len => some (arrayPrefix len (r.topics t).topic)
  | .entryTopic slot len => some (arrayPrefix len (r.mcache.entries slot).topic)
  | .entryId slot len => some (arrayPrefix len (r.mcache.entries slot).messageId)
  | .entryData offset len => some (r.mcache.data.slice offset len)
  | .borrowed span => if live then some span.bytes else none

/-- What an event shows. -/
def Event.view (r : Router) (live : Bool) (event : Event) : EventView where
  topic := event.topic.view r live
  messageTopic := event.messageTopic.view r live
  messageData := event.messageData.view r live
  messageId := event.messageId.view r live
  idontwant :=
    match event.idontwant with
    | none => some []
    | some idontwant => if live then some (idontwant.messageIds.map Span.bytes) else none

/-- `gossipsub_event_push` (`gossipsub_state.c:11-35`). -/
def eventPush (event : Event) : RouterM Unit := fun r =>
  match r.events.push config.capacity.eventCapacity event with
  | none => (.error .wouldBlock, r)
  | some events =>
    (.ok (), { r with
      events := events
      history := { r.history with pushed := r.history.pushed ++ [⟨event, event.view r true⟩] } })

/-- `gossipsub_push_event_or_drop` (`gossipsub_state.c:37-50`). -/
def pushEventOrDrop (event : Event) : RouterM Unit := fun r =>
  match eventPush config event r with
  | (.error e, r) => if e = .wouldBlock then (.ok (), r.releaseValidation event.validation)
      else (.error e, r)
  | res => res

/-- The result of a table search whose NULL the callers turn into an error. -/
def orFail {α : Type} (e : GossipsubErr) : Option α → RouterM α
  | none => Comp.fail e
  | some a => pure a

@[simp] theorem orFail_some {α : Type} (e : GossipsubErr) (a : α) (r : Router) :
    orFail e (some a) r = (.ok a, r) := rfl

/-! ## Topics and peers -/

/-- `gossipsub_find_topic` (`gossipsub_state.c:74-105`). -/
def findTopic (r : Router) (topic : Span) : Option Nat :=
  if topic.isNull then none
  else findSlot config.capacity.maxTopics fun t =>
    (r.topics t).used && (r.topics t).topic = topic.bytes

/-- The topic that it finds is in use. -/
theorem findTopic_some {config : Config} {r : Router} {topic : Span} {t : Nat}
    (h : findTopic config r topic = some t) :
    t < config.capacity.maxTopics ∧ (r.topics t).used = true ∧
      (r.topics t).topic = topic.bytes := by
  unfold findTopic at h
  split at h
  · cases h
  · rcases findSlot_some h with ⟨hlt, hfound⟩
    exact ⟨hlt, by simpa using hfound⟩

/-- `gossipsub_find_or_add_topic` (`gossipsub_state.c:107-146`). -/
def findOrAddTopic (topic : Span) : RouterM (Option Nat) := fun r =>
  if topic.isNull ∨ config.limits.maxTopicBytes < topic.len then (.ok none, r)
  else
    match findTopic config r topic with
    | some t => (.ok (some t), r)
    | none =>
      match findSlot config.capacity.maxTopics fun t => !(r.topics t).used with
      | none => (.ok none, r)
      | some t =>
        (.ok (some t), r.setTopic t
          { used := true
            localSubscribed := false
            enableIdontwant := config.enableIdontwant
            validationMode := .acceptAll
            idontwantMinMessageBytes := config.idontwantMinMessageBytes
            topic := topic.bytes })

/-- What `gossipsub_find_or_add_topic` leaves: the topics as they were, or one more, in a free
    slot and not locally subscribed. -/
theorem findOrAddTopic_spec (topic : Span) (r : Router) :
    (findOrAddTopic config topic r).2 = r ∨
    ∃ t added, t < config.capacity.maxTopics ∧ (r.topics t).used = false ∧
      (findOrAddTopic config topic r).2 = r.setTopic t added ∧ added.used = true ∧
      added.localSubscribed = false ∧ added.topic = topic.bytes ∧
      added.validationMode = .acceptAll := by
  unfold findOrAddTopic
  split
  · exact .inl rfl
  · split
    · exact .inl rfl
    · split
      · exact .inl rfl
      · rename_i t ht
        rcases findSlot_some ht with ⟨hlt, hfree⟩
        exact .inr ⟨t, _, hlt, by simpa using hfree, rfl, rfl, rfl, rfl, rfl⟩

/-- The topic that it returns is in use. -/
theorem findOrAddTopic_some {config : Config} {topic : Span} {r r' : Router} {t : Nat}
    (h : findOrAddTopic config topic r = (.ok (some t), r')) :
    t < config.capacity.maxTopics ∧ (r'.topics t).used = true ∧
      (r'.topics t).topic = topic.bytes := by
  unfold findOrAddTopic at h
  split at h
  · cases h
  · rename_i hpresent
    split at h
    · rename_i u hu
      cases h
      exact findTopic_some hu
    · split at h
      · cases h
      · rename_i u hu
        cases h
        refine ⟨(findSlot_some hu).1, ?_⟩
        simp [Router.setTopic]

/-- `gossipsub_find_peer` (`gossipsub_state.c:148-176`). -/
def findPeer (r : Router) (peerId : Bytes) : Option Nat :=
  findSlot config.capacity.maxPeers fun p => (r.peers p).used && (r.peers p).peerId = peerId

/-- The slot of `gossipsub_peer_from_conn` for a peer id: the peer's own, or a free one. -/
def findOrAddPeer (peerId : Bytes) : RouterM (Option Nat) := fun r =>
  match findPeer config r peerId with
  | some p => (.ok (some p), r)
  | none =>
    match findSlot config.capacity.maxPeers fun p => !(r.peers p).used with
    | none => (.ok none, r)
    | some p =>
      (.ok (some p), { r.setPeer p { Peer.free with used := true, peerId := peerId } with
        tx := r.tx.setPeer p .fresh })

/-- `gossipsub_peer_from_conn` (`gossipsub_state.c:208-266`); `peerId` is the answer of
    `libp2p_host_conn_peer_id`. -/
def peerFromConn (conn : Nat) (peerId : Except GossipsubErr Bytes) :
    RouterM Nat := do
  let peerId ← Comp.ofResult peerId
  let p ← (← findOrAddPeer config peerId) |> orFail .limit
  Comp.update fun r => r.setPeer p { r.peers p with conn := some conn }
  return p

/-- `gossipsub_alloc_stream` (`gossipsub_state.c:268-292`), less the reset of its receive
    buffer. -/
def allocStream : RouterM (Option Nat) := fun r =>
  match findSlot config.capacity.maxStreams fun i => !(r.streams i).isOpen with
  | none => (.ok none, r)
  | some i => (.ok (some i), r.setStream i { r.streams i with isOpen := true })

/-- `gossipsub_find_peer_topic` (`gossipsub_state.c:294-316`). -/
def findPeerTopic (r : Router) (p t : Nat) : Option Nat :=
  findSlot config.capacity.maxPeerTopics fun i =>
    (r.peerTopics i).used && (r.peerTopics i).peerIndex = p && (r.peerTopics i).topicIndex = t

/-- `gossipsub_find_or_add_peer_topic` (`gossipsub_state.c:318-346`). -/
def findOrAddPeerTopic (p t : Nat) : RouterM (Option Nat) := fun r =>
  match findPeerTopic config r p t with
  | some i => (.ok (some i), r)
  | none =>
    match findSlot config.capacity.maxPeerTopics fun i => !(r.peerTopics i).used with
    | none => (.ok none, r)
    | some i => (.ok (some i), r.setPeerTopic i ⟨true, p, t, 0⟩)

/-- `gossipsub_peer_subscribed` (`gossipsub_state.c:348-371`). -/
def peerSubscribed (r : Router) (p t : Nat) : Bool :=
  (findSlot config.capacity.maxPeerTopics fun i =>
    (r.peerTopics i).used && (r.peerTopics i).peerIndex = p && (r.peerTopics i).topicIndex = t &&
      (r.peerTopics i).subscribed ≠ 0).isSome

end LeanLibp2p.Gossipsub
