import LeanLibp2p.Gossipsub.Codec.RoundTrip
import LeanLibp2p.Gossipsub.Router.Queued

/-!
# Message ids along the path

The id of a message is computed when it arrives, from all its fields. The cache keeps its topic and
its data only, and a peer that gets it from the router computes its id from these.
-/

namespace LeanLibp2p.Gossipsub

open LeanLibp2p.Lib

/-- An RPC with one message. -/
def Rpc.ofMessage (message : Message) : Rpc := { Rpc.zero with publish := [message] }

/-- What is left of the message for the next hop: its topic and its data. -/
def Message.forwarded (message : Message) : Message :=
  { Message.zero with
    topic := .ptr message.topic.bytes
    data := .ptr message.data.bytes }.decoded

/-- The router knows the message with number `n` under the id: it stands in a slot of the cache, or
    it was queued for a peer with the message or in an IHAVE or IDONTWANT. -/
inductive Router.Names (r : Router) (n : Nat) (messageId : Bytes) : Prop where
  | cached (slot : Nat) (hused : (r.mcache.entries slot).used = true)
      (horigin : (r.mcache.entries slot).origin = n)
      (hid : (r.mcache.entries slot).messageId = messageId)
  | queued (q : QueuedMessage) (hmem : q ∈ r.history.queued) (horigin : q.origin = n)
      (hid : q.messageId = messageId)
  | unwanted (q : QueuedMessage) (hmem : q ∈ r.history.unwanted) (horigin : q.origin = n)
      (hid : q.messageId = messageId)

/-- The router sends the message with number `n` as `message`: it was queued so for a peer, or would
    be from the slot of the cache that holds it. -/
inductive Router.Sends (r : Router) (n : Nat) (message : Message) : Prop where
  | cached (slot : Nat) (hused : (r.mcache.entries slot).used = true)
      (horigin : (r.mcache.entries slot).origin = n)
      (hmessage : entryMessage r.mcache (r.mcache.entries slot) = message)
  | queued (q : QueuedMessage) (hmem : q ∈ r.history.queued) (horigin : q.origin = n)
      (hmessage : q.carried = some message)

section Reachable

variable {config : Config} {allowed : Nat → StoredMessage → Prop} {r : Router} {n : Nat}
  {m : StoredMessage}

/-- Under whatever id a message is known, it is the id that it entered the cache with. -/
theorem SentInvariant.names (h : SentInvariant config allowed r) {messageId : Bytes}
    (hm : r.history.messages[n]? = some m) (hnames : r.Names n messageId) :
    messageId = m.messageId := by
  cases hnames with
  | cached slot hused horigin hid =>
    rcases h.cache.holds slot hused with ⟨m', hm', hholds⟩
    rw [horigin, hm, Option.some_inj] at hm'
    rw [← hid, hholds.messageId, hm']
  | queued q hmem horigin hid =>
    rcases h.queued q hmem with ⟨m', hm', hshows, -⟩
    rw [horigin, hm, Option.some_inj] at hm'
    rw [← hid, hshows.messageId, hm']
  | unwanted q hmem horigin hid =>
    rcases h.unwanted q hmem with ⟨m', hm', hshows⟩
    rw [horigin, hm, Option.some_inj] at hm'
    rw [← hid, hshows.messageId, hm']

/-- In whatever way a message is sent, it is sent with its topic and its data. -/
theorem SentInvariant.sends (h : SentInvariant config allowed r) {message : Message}
    (hm : r.history.messages[n]? = some m) (hsends : r.Sends n message) : message = m.wire := by
  cases hsends with
  | cached slot hused horigin hmessage =>
    rcases h.cache.holds slot hused with ⟨m', hm', hholds⟩
    rw [horigin, hm, Option.some_inj] at hm'
    rw [← hmessage, hholds.entryMessage, hm']
  | queued q hmem horigin hmessage =>
    rcases h.queued q hmem with ⟨m', hm', hshows, -⟩
    rw [horigin, hm, Option.some_inj] at hm'
    rw [hshows.carried message hmessage, hm']

end Reachable

/-- A message alone in an RPC is read back. -/
theorem rpcFrameDecode_ofMessage {version : ProtocolVersion} {limits : Limits} {message : Message}
    {cap : Nat} {frame : Bytes}
    (hencode : rpcFrameEncode version limits (.ofMessage message) cap = .ok frame) :
    rpcFrameDecode version limits decodeStorage frame = .ok (.ofMessage message.decoded) := by
  have hroom : rpcFits decodeStorage (Rpc.ofMessage message).normalForm := by
    have hcontrol : controlFits decodeStorage RpcControl.zero.normalForm := by decide
    exact ⟨by simp [bodyFits, Rpc.ofMessage, Rpc.normalForm, Rpc.zero, decodeStorage], hcontrol⟩
  exact rpcFrameDecode_written hencode hroom

/-- The next hop computes the id under which the router knows a message that was received if and
    only if the callback gives the same id for what is left of the message. -/
theorem messageIds_consistent (config : RouterConfig) (actions : List Action) (n p cap : Nat)
    (m : StoredMessage) (received message : Message) (version : ProtocolVersion)
    (messageId frame : Bytes) :
    let r := (Node.init.run config.toConfig actions).router
    r.history.messages[n]? = some m → m.source = some (p, received) → r.Names n messageId →
    r.Sends n message → rpcFrameEncode version config.limits (.ofMessage message) cap = .ok frame →
    ∃ next, rpcFrameDecode version config.limits decodeStorage frame = .ok (.ofMessage next) ∧
      (computeMessageId config.toConfig next = .ok messageId ↔
        computeMessageId config.toConfig received.forwarded =
          computeMessageId config.toConfig received) := by
  intro r hm hsource hnames hsends hencode
  have h : SentInvariant config.toConfig (fun _ _ => True) r := SentInvariant.run actions
  rcases (h.cache.messages m (List.mem_of_getElem? hm)).2 p received hsource with
    ⟨hid, htopic, hdata⟩
  have hwire : message.decoded = received.forwarded := by
    rw [h.sends hm hsends, StoredMessage.wire, htopic, hdata]
    rfl
  refine ⟨message.decoded, rpcFrameDecode_ofMessage hencode, ?_⟩
  rw [hwire, hid, h.names hm hnames]

/-- A message with a topic and data arrives and is cached. -/
def cachedRun : List Action :=
  [.subscribe ⟨.ptr [7], .acceptAll, false, 0⟩,
   .streamOpen 1 1 (.ok [1]) .inbound .v11,
   .receive 0 [0x12, 6, 0x12, 1, 9, 0x22, 1, 7]]

theorem messageIds_consistent_cachedRun :
    ∃ next, rpcFrameDecode .v11 RouterConfig.small.limits decodeStorage
        [8, 0x12, 6, 0x12, 1, 9, 0x22, 1, 7] = .ok (.ofMessage next) ∧
      (computeMessageId RouterConfig.small.toConfig next = .ok [7, 9] ↔
        computeMessageId RouterConfig.small.toConfig (Message.forwarded ⟨.zero, .ptr [9], .zero,
          .ptr [7], .zero, .zero, .ptr [0x12, 1, 9, 0x22, 1, 7]⟩) =
        computeMessageId RouterConfig.small.toConfig ⟨.zero, .ptr [9], .zero, .ptr [7], .zero, .zero,
          .ptr [0x12, 1, 9, 0x22, 1, 7]⟩) := by
  apply messageIds_consistent RouterConfig.small cachedRun 0 0 64
    ⟨some (0, ⟨.zero, .ptr [9], .zero, .ptr [7], .zero, .zero, .ptr [0x12, 1, 9, 0x22, 1, 7]⟩), false,
      [7, 9], [7], [9]⟩ _ { Message.zero with topic := .ptr [7], data := .ptr [9] }
  · decide +kernel
  · rfl
  · exact .cached 0 (by decide +kernel) (by decide +kernel) (by decide +kernel)
  · exact .cached 0 (by decide +kernel) (by decide +kernel) (by decide +kernel)
  · decide +kernel

/-- A small configuration where the id of a message is its topic, its data and its number. -/
def RouterConfig.numbered : RouterConfig where
  toConfig := { small.toConfig with
    messageIdFn :=
      { measure := fun m => .ok (m.topic.bytes ++ m.data.bytes ++ m.seqno.bytes).length
        write := fun m _ => .ok (m.topic.bytes ++ m.data.bytes ++ m.seqno.bytes) } }
  valid := small.valid
  storage_le := small.storage_le
  pruneBackoffUs_le := small.pruneBackoffUs_le

/-- A message with a number arrives. -/
def numberedRun : List Action :=
  [.subscribe ⟨.ptr [7], .acceptAll, false, 0⟩,
   .streamOpen 1 1 (.ok [1]) .inbound .v11,
   .receive 0 [0x12, 9, 0x12, 1, 9, 0x1a, 1, 5, 0x22, 1, 7]]

set_option maxRecDepth 4000 in
/-- The number is part of its id, and it is not forwarded. -/
theorem messageIds_inconsistent : ¬ ∀ (config : RouterConfig) (actions : List Action)
    (n p cap : Nat) (m : StoredMessage) (received message : Message) (version : ProtocolVersion)
    (messageId frame : Bytes),
    let r := (Node.init.run config.toConfig actions).router
    r.history.messages[n]? = some m → m.source = some (p, received) → r.Names n messageId →
    r.Sends n message → rpcFrameEncode version config.limits (.ofMessage message) cap = .ok frame →
    ∃ next, rpcFrameDecode version config.limits decodeStorage frame = .ok (.ofMessage next) ∧
      computeMessageId config.toConfig next = .ok messageId := by
  intro h
  rcases h RouterConfig.numbered numberedRun 0 0 64
    ⟨some (0, ⟨.zero, .ptr [9], .ptr [5], .ptr [7], .zero, .zero,
      .ptr [0x12, 1, 9, 0x1a, 1, 5, 0x22, 1, 7]⟩), false, [7, 9, 5], [7], [9]⟩ _
    { Message.zero with topic := .ptr [7], data := .ptr [9] } .v11 [7, 9, 5]
    [8, 0x12, 6, 0x12, 1, 9, 0x22, 1, 7] (by decide +kernel) rfl
    (.cached 0 (by decide +kernel) (by decide +kernel) (by decide +kernel))
    (.cached 0 (by decide +kernel) (by decide +kernel) (by decide +kernel))
    (by decide +kernel) with ⟨next, hdecode, hid⟩
  have hnext : rpcFrameDecode .v11 RouterConfig.numbered.limits decodeStorage
      [8, 0x12, 6, 0x12, 1, 9, 0x22, 1, 7] = .ok (.ofMessage ⟨.zero, .ptr [9], .zero, .ptr [7], .zero,
        .zero, .ptr [0x12, 1, 9, 0x22, 1, 7]⟩) := by decide +kernel
  cases hnext.symm.trans hdecode
  exact absurd hid (by decide +kernel)

end LeanLibp2p.Gossipsub
