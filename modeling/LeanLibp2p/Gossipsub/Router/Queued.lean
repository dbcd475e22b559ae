import LeanLibp2p.Gossipsub.Router.CacheInvariant

/-!
# What is queued for the peers

Every RPC that carries a message, and every IHAVE, is built from entries of the cache at that time.
So what it shows is a message of the history, and where the router sends only entries of some kind
all that was ever queued is of that kind.
-/

namespace LeanLibp2p.Gossipsub

open LeanLibp2p.Lib

/-- The message as the router sends it. -/
def StoredMessage.wire (m : StoredMessage) : Message :=
  { Message.zero with
    topic := .ptr m.topic
    data := .ptr m.data }

theorem McacheEntry.Holds.entryMessage {entry : McacheEntry} {mcache : Mcache} {m : StoredMessage}
    (h : entry.Holds mcache m) : entryMessage mcache entry = m.wire := by
  unfold Gossipsub.entryMessage StoredMessage.wire
  rw [h.topic, h.content]

/-- What was queued shows the message: its id, and where it was queued as a whole its topic and
    its data. -/
structure QueuedMessage.Shows (q : QueuedMessage) (m : StoredMessage) : Prop where
  messageId : q.messageId = m.messageId
  carried : ∀ message, q.carried = some message → message = m.wire

/-- The entry holds a message of the history that may be sent; `allowed` says which may. -/
def Held (allowed : Nat → StoredMessage → Prop) (r : Router) (entry : McacheEntry) : Prop :=
  ∃ m, r.history.messages[entry.origin]? = some m ∧ entry.Holds r.mcache m ∧
    allowed entry.origin m

/-- The entry has the id of a message of the history. -/
def Known (r : Router) (entry : McacheEntry) : Prop :=
  ∃ m, r.history.messages[entry.origin]? = some m ∧ entry.messageId = m.messageId

/-- Everything that was queued shows a message of the history that may be sent; the ids of other
    messages too may stand in an IDONTWANT. -/
structure SentInvariant (config : Config) (allowed : Nat → StoredMessage → Prop) (r : Router) :
    Prop where
  cache : CacheInvariant config r
  queued : ∀ q ∈ r.history.queued, ∃ m, r.history.messages[q.origin]? = some m ∧ q.Shows m ∧
    allowed q.origin m
  unwanted : ∀ q ∈ r.history.unwanted, ∃ m, r.history.messages[q.origin]? = some m ∧ q.Shows m

/-- The invariant while peers are told not to send a message. -/
structure Telling (config : Config) (allowed : Nat → StoredMessage → Prop) (entry : McacheEntry)
    (r : Router) : Prop where
  invariant : SentInvariant config allowed r
  known : Known r entry

/-- The invariant while some entries are sent. -/
structure Sending (config : Config) (allowed : Nat → StoredMessage → Prop)
    (entries : List McacheEntry) (r : Router) : Prop where
  invariant : SentInvariant config allowed r
  held : ∀ entry ∈ entries, Held allowed r entry

variable {config : Config} {allowed : Nat → StoredMessage → Prop} {entries : List McacheEntry}
  {entry : McacheEntry} {r r' : Router}

theorem Held.of_agrees {touched : List Part} (h : Held allowed r entry)
    (hagrees : Router.Agrees touched r r')
    (hdisjoint : ∀ part ∈ [Part.mcache, .messages], part ∉ touched) : Held allowed r' entry := by
  have hmcache : r'.mcache = r.mcache := hagrees.eq .mcache (hdisjoint _ (by decide))
  have hmessages : r'.history.messages = r.history.messages :=
    hagrees.eq .messages (hdisjoint _ (by decide))
  unfold Held
  rw [hmcache, hmessages]
  exact h

theorem Held.known (h : Held allowed r entry) : Known r entry := by
  rcases h with ⟨m, hm, hholds, -⟩
  exact ⟨m, hm, hholds.messageId⟩

theorem Known.of_agrees {touched : List Part} (h : Known r entry)
    (hagrees : Router.Agrees touched r r') (hdisjoint : Part.messages ∉ touched) :
    Known r' entry := by
  have hmessages : r'.history.messages = r.history.messages := hagrees.eq .messages hdisjoint
  unfold Known
  rw [hmessages]
  exact h

namespace SentInvariant

theorem of_agrees {touched : List Part} (h : SentInvariant config allowed r)
    (hagrees : Router.Agrees touched r r')
    (hdisjoint : ∀ part ∈ [Part.mcache, .messages, .queued, .unwanted], part ∉ touched) :
    SentInvariant config allowed r' := by
  have hmessages : r'.history.messages = r.history.messages :=
    hagrees.eq .messages (hdisjoint _ (by decide))
  have hqueued : r'.history.queued = r.history.queued :=
    hagrees.eq .queued (hdisjoint _ (by decide))
  have hunwanted : r'.history.unwanted = r.history.unwanted :=
    congrArg Prod.fst (hagrees.eq .unwanted (hdisjoint _ (by decide)))
  refine ⟨h.cache.of_agrees hagrees fun part hpart => hdisjoint part ?_, ?_, ?_⟩
  · exact List.mem_append_left [Part.queued, .unwanted] hpart
  · rw [hmessages, hqueued]
    exact h.queued
  · rw [hmessages, hunwanted]
    exact h.unwanted

theorem of_touches {α : Type} {touched : List Part} {c : RouterM α} (hc : Touches touched c)
    (hdisjoint : ∀ part ∈ [Part.mcache, .messages, .queued, .unwanted], part ∉ touched) :
    Comp.Keeps (SentInvariant config allowed) c :=
  hc.keeps fun _ _ hagrees h => h.of_agrees hagrees hdisjoint

theorem mono {allowed' : Nat → StoredMessage → Prop} (h : SentInvariant config allowed r)
    (himp : ∀ n m, allowed n m → allowed' n m) : SentInvariant config allowed' r := by
  refine ⟨h.cache, fun q hq => ?_, h.unwanted⟩
  rcases h.queued q hq with ⟨m, hm, hshows, hallowed⟩
  exact ⟨m, hm, hshows, himp _ _ hallowed⟩

end SentInvariant

namespace Telling

theorem of_touches {α : Type} {touched : List Part} {c : RouterM α} (hc : Touches touched c)
    (hdisjoint : ∀ part ∈ [Part.mcache, .messages, .queued, .unwanted], part ∉ touched) :
    Comp.Keeps (Telling config allowed entry) c :=
  hc.keeps fun _ _ hagrees h =>
    ⟨h.invariant.of_agrees hagrees hdisjoint, h.known.of_agrees hagrees (hdisjoint _ (by decide))⟩

theorem recordUnwanted (p : Nat) (h : Telling config allowed entry r) :
    Telling config allowed entry (recordUnwanted p ⟨entry.origin, entry.messageId, none⟩ r) := by
  have hagrees := recordUnwanted_agrees p ⟨entry.origin, entry.messageId, none⟩ r
  refine ⟨⟨?_, h.invariant.queued, ?_⟩, h.known⟩
  · exact h.invariant.cache.of_agrees hagrees (by decide)
  · intro q hq
    rcases List.mem_append.mp hq with hold | hadded
    · exact h.invariant.unwanted q hold
    · rw [List.mem_singleton.mp hadded]
      rcases h.known with ⟨m, hm, hid⟩
      exact ⟨m, hm, hid, fun _ hnone => nomatch hnone⟩

theorem enqueueIdontwantForEntry (p : Nat) (topic : Topic) :
    Comp.Keeps (Telling config allowed entry) (enqueueIdontwantForEntry config p topic entry) := by
  refine .bind (.read _) fun r => .ite (fun _ => .fail _) fun _ => .ite (fun _ => ?_) fun _ => .pure _
  refine .bind (of_touches (enqueueIdontwant_touches ..) (by decide)) fun _ => ?_
  refine .update fun r h => recordUnwanted p ⟨?_, ?_⟩
  · exact h.invariant.of_agrees (setPeer_counter_agrees p r _) (by decide)
  · exact h.known.of_agrees (setPeer_counter_agrees p r _) (by decide)

theorem enqueueIdontwantForReceivedEntry (topic : Topic) (slot : Nat) :
    Comp.Keeps (Telling config allowed entry)
      (enqueueIdontwantForReceivedEntry config topic slot entry) := by
  refine .bind (.read _) fun r => .bind (of_touches (orFail_touches [] ..) (by decide)) fun t => ?_
  refine .forOk fun p _ => .bind (.read _) fun r => .ite (fun _ => ?_) fun _ => .pure _
  refine .bind (.result (enqueueIdontwantForEntry p topic)) fun res => ?_
  cases res with
  | ok _ => exact .pure _
  | error e =>
    exact .ite (fun _ => of_touches (reportTxQueueLimit_touches ..) (by decide)) fun _ => .fail _

end Telling

namespace Sending

theorem of_touches {α : Type} {touched : List Part} {c : RouterM α} (hc : Touches touched c)
    (hdisjoint : ∀ part ∈ [Part.mcache, .messages, .queued, .unwanted], part ∉ touched) :
    Comp.Keeps (Sending config allowed entries) c := by
  refine hc.keeps fun _ _ hagrees h => ⟨h.invariant.of_agrees hagrees hdisjoint, ?_⟩
  intro entry hentry
  refine (h.held entry hentry).of_agrees hagrees fun part hpart => hdisjoint part ?_
  exact List.mem_append_left [Part.queued, .unwanted] hpart

/-- Entering what shows held entries into the history. -/
theorem recordQueued (h : Sending config allowed entries r) {messages : List QueuedMessage}
    (hnew : ∀ q ∈ messages, ∃ m, r.history.messages[q.origin]? = some m ∧ q.Shows m ∧
      allowed q.origin m) :
    Sending config allowed entries (recordQueued messages r) := by
  refine ⟨⟨?_, ?_, h.invariant.unwanted⟩, h.held⟩
  · exact h.invariant.cache.of_agrees (recordQueued_agrees messages r) (by decide)
  · intro q hq
    rcases List.mem_append.mp hq with hold | hadded
    · exact h.invariant.queued q hold
    · exact hnew q hadded

/-- An entry that is held may be sent as a whole. -/
theorem enqueuePublishEntryWithLifetime (hentry : entry ∈ entries) (p lifetimeUs : Nat)
    (priority : Bool) : Comp.Keeps (Sending config allowed entries)
      (enqueuePublishEntryWithLifetime config p entry lifetimeUs priority) := by
  intro r h
  have htx : ∀ tx : Tx, Sending config allowed entries { r with tx := tx } := by
    intro tx
    refine ⟨h.invariant.of_agrees (setTx_agrees r tx) (by decide), ?_⟩
    exact h.held
  unfold Gossipsub.enqueuePublishEntryWithLifetime
  split
  · exact htx _
  · refine (htx _).recordQueued fun q hq => ?_
    rw [List.mem_singleton.mp hq]
    rcases h.held entry hentry with ⟨m, hm, hholds, hallowed⟩
    refine ⟨m, hm, ⟨hholds.messageId, ?_⟩, hallowed⟩
    intro message hmessage
    cases hmessage
    exact hholds.entryMessage

/-- The ids of entries that are held may be advertised. -/
theorem enqueueIhave (p : Nat) (topic : Topic) :
    Comp.Keeps (Sending config allowed entries) (enqueueIhave config p topic entries) := by
  refine .ite (fun _ => .fail _) fun _ => .bind ?_ fun _ => .update fun r h => ?_
  · exact of_touches (enqueueRpc_touches ..) (by decide)
  · refine h.recordQueued fun q hq => ?_
    rcases List.mem_map.mp hq with ⟨entry, hentry, rfl⟩
    rcases h.held entry hentry with ⟨m, hm, hholds, hallowed⟩
    exact ⟨m, hm, ⟨hholds.messageId, fun _ hnone => nomatch hnone⟩, hallowed⟩

/-- What peers are told about an entry that is held leaves all entries as they are. -/
theorem of_telling {α : Type} {touched : List Part} {c : RouterM α} (hentry : entry ∈ entries)
    (hc : Comp.Keeps (Telling config allowed entry) c) (htouches : Touches touched c)
    (hdisjoint : ∀ part ∈ [Part.mcache, .messages], part ∉ touched) :
    Comp.Keeps (Sending config allowed entries) c := by
  intro r h
  have htold := hc r ⟨h.invariant, (h.held entry hentry).known⟩
  exact ⟨htold.invariant, fun other hother =>
    (h.held other hother).of_agrees (htouches.agrees r) hdisjoint⟩

theorem sendEntry (hentry : entry ∈ entries) (p : Nat) (topic : Topic) {publish : RouterM Unit}
    (hpublish : Comp.Keeps (Sending config allowed entries) publish) :
    Comp.Keeps (Sending config allowed entries) (sendEntry config p topic entry publish) := by
  refine .absorb (.bind (.absorb ?_) fun _ => hpublish)
  exact of_telling hentry (Telling.enqueueIdontwantForEntry p topic)
    (enqueueIdontwantForEntry_touches ..) (by decide)

theorem forwardEntry (hentry : entry ∈ entries) (source : Nat) :
    Comp.Keeps (Sending config allowed entries) (forwardEntry config source entry) := by
  refine .bind (.read _) fun r => .bind (of_touches (orFail_touches [] ..) (by decide)) fun t => ?_
  refine .forOk fun p _ => .bind (.read _) fun r => .ite (fun _ => ?_) fun _ => .pure _
  exact sendEntry hentry _ _ (enqueuePublishEntryWithLifetime hentry _ _ _)

theorem publishEntry (hentry : entry ∈ entries) (t : Nat) :
    Comp.Keeps (Sending config allowed entries) (publishEntry config t entry) := by
  refine .forOk fun p _ => .bind (.read _) fun r => .ite (fun _ => ?_) fun _ => .pure _
  exact sendEntry hentry _ _ (enqueuePublishEntryWithLifetime hentry _ _ _)

theorem emitTopicGossipLoop (t : Nat) (salt : UInt64) (fuel : Nat) (previous : Option Nat) :
    Comp.Keeps (Sending config allowed entries)
      (emitTopicGossipLoop config t salt entries fuel previous) := by
  induction fuel generalizing previous with
  | zero => exact .pure _
  | succ fuel ih =>
    refine .bind (.read _) fun r => ?_
    split
    · exact .pure _
    · exact .bind (enqueueIhave _ _) fun _ => ih _

end Sending

/-! ## Which entries are sent -/

/-- The message of the entry may be sent. -/
def Permitted (allowed : Nat → StoredMessage → Prop) (r : Router) (entry : McacheEntry) : Prop :=
  ∀ m, r.history.messages[entry.origin]? = some m → allowed entry.origin m

/-- An IWANT of a peer with a writer is for a message that may be sent, if it is for a cached one. -/
def IwantPermitted (config : Config) (allowed : Nat → StoredMessage → Prop) (p : Nat)
    (messageId : Span) (r : Router) : Prop :=
  r.isWriter p = true → ∀ slot, mcacheFind config r messageId = some slot →
    Permitted allowed r (r.mcache.entries slot)

/-- The gossip about the topic, if there is anybody to gossip to, is about messages that may be
    sent. -/
def GossipPermitted (config : Config) (allowed : Nat → StoredMessage → Prop) (t : Nat)
    (r : Router) : Prop :=
  (r.topics t).used = true → (r.topics t).localSubscribed = true →
    gossipTarget config (gossipEligibleCount config r t) ≠ 0 →
    ∀ entry ∈ collectGossipIds config r (r.topics t), Permitted allowed r entry

/-- The requests of an RPC are for messages that may be sent, once its other elements are done. -/
def IwantsPermitted (config : Config) (allowed : Nat → StoredMessage → Prop) (p : Nat) (rpc : Rpc)
    (nowUs : Nat) (r : Router) : Prop :=
  ∀ r', processRpcElements config p rpc nowUs r = (.ok (), r') →
    ∀ iwant ∈ rpc.control.iwant, ∀ messageId ∈ iwant.messageIds,
      IwantPermitted config allowed p messageId r'

/-- A heartbeat that is due gossips about messages that may be sent. -/
def DrivePermitted (config : Config) (allowed : Nat → StoredMessage → Prop) (nowUs : Nat)
    (r : Router) : Prop :=
  r.started = true → r.nextHeartbeatUs ≤ nowUs →
    ∀ t, GossipPermitted config allowed t (heartbeatMesh config nowUs
      { r with tx := txDropStale config r.peers nowUs r.tx, lastDriveUs := nowUs })

/-- The slot of a pending token, if it is in use, is that of a message that may be sent. -/
def ReportPermitted (config : Config) (allowed : Nat → StoredMessage → Prop) (v : Nat)
    (r : Router) : Prop :=
  (r.validations v).pending = true → (r.validations v).mcacheIndex < config.capacity.mcacheSlots →
    (r.mcache.entries (r.validations v).mcacheIndex).used = true →
    Permitted allowed r (r.mcache.entries (r.validations v).mcacheIndex)

/-- The action sends only messages that may be sent. -/
def Action.Permitted (config : Config) (allowed : Nat → StoredMessage → Prop) (s : Node) :
    Action → Prop
  | .drive nowUs _ => DrivePermitted config allowed nowUs s.router
  | .report k value => value = .accept → ∀ v, reportedToken s.received k = some v →
      ReportPermitted config allowed v s.router
  | .receive i body => i < config.capacity.maxStreams → (s.router.streams i).isOpen = true →
      ∀ rpc, rpcBodyDecode (s.router.streams i).version config.limits decodeStorage body = .ok rpc →
        IwantsPermitted config allowed (s.router.streams i).peerIndex rpc s.router.lastDriveUs
          s.router
  | _ => True

theorem Action.permitted_of_forall (h : ∀ n m, allowed n m) {s : Node} {action : Action} :
    action.Permitted config allowed s := by
  cases action with
  | drive nowUs answers => exact fun _ _ t _ _ _ entry _ m _ => h _ _
  | report k value => exact fun _ v _ _ _ _ m _ => h _ _
  | receive i body => exact fun _ _ rpc _ r' _ iwant _ messageId _ _ slot _ m _ => h _ _
  | _ => trivial

/-- A used slot of the cache with a message that may be sent is held. -/
theorem CacheInvariant.held (h : CacheInvariant config r) {slot : Nat}
    (hused : (r.mcache.entries slot).used = true)
    (hpermitted : Permitted allowed r (r.mcache.entries slot)) :
    Held allowed r (r.mcache.entries slot) := by
  rcases h.holds slot hused with ⟨m, hm, hholds⟩
  exact ⟨m, hm, hholds, hpermitted m hm⟩

theorem mem_collectGossipIds {topic : Topic} (h : entry ∈ collectGossipIds config r topic) :
    ∃ slot, r.mcache.entries slot = entry ∧ entry.used = true := by
  unfold collectGossipIds at h
  split at h
  · rcases List.mem_filter.mp (List.mem_of_mem_take h) with ⟨hmem, hgossips⟩
    rcases List.mem_map.mp hmem with ⟨slot, -, hslot⟩
    unfold gossips at hgossips
    simp only [Bool.and_eq_true] at hgossips
    exact ⟨slot, hslot, hgossips.1.1⟩
  · cases h

/-- The question whom to gossip to depends on the peers, their subscriptions and the mesh. -/
theorem gossipEligibleCount_congr {touched : List Part} (hagrees : Router.Agrees touched r r')
    (hdisjoint : ∀ part ∈ [Part.peers, .peerTopics, .mesh], part ∉ touched) (t : Nat) :
    gossipEligibleCount config r' t = gossipEligibleCount config r t := by
  have hpeerTopics : r'.peerTopics = r.peerTopics := hagrees.eq .peerTopics (hdisjoint _ (by decide))
  have hmesh : r'.mesh = r.mesh := hagrees.eq .mesh (hdisjoint _ (by decide))
  have hpart : Part.peers ∉ touched := hdisjoint _ (by decide)
  unfold gossipEligibleCount
  apply List.countP_congr
  intro p _
  unfold peerGossipEligible Router.isWriter peerSubscribed meshContains
  rw [hpeerTopics, hmesh, hagrees.peer hpart p Peer.used fun _ => rfl,
    hagrees.peer hpart p Peer.stream fun _ => rfl,
    hagrees.peer hpart p Peer.explicitPeer fun _ => rfl]

theorem IwantPermitted.of_agrees {touched : List Part} {p : Nat} {messageId : Span}
    (h : IwantPermitted config allowed p messageId r) (hagrees : Router.Agrees touched r r')
    (hdisjoint : ∀ part ∈ [Part.peers, .mcache, .messages], part ∉ touched) :
    IwantPermitted config allowed p messageId r' := by
  have hmcache : r'.mcache = r.mcache := hagrees.eq .mcache (hdisjoint _ (by decide))
  have hmessages : r'.history.messages = r.history.messages :=
    hagrees.eq .messages (hdisjoint _ (by decide))
  have hpart : Part.peers ∉ touched := hdisjoint _ (by decide)
  unfold IwantPermitted Permitted Router.isWriter mcacheFind at h ⊢
  rw [hmcache, hmessages, hagrees.peer hpart p Peer.used fun _ => rfl,
    hagrees.peer hpart p Peer.stream fun _ => rfl]
  exact h

theorem GossipPermitted.of_agrees {touched : List Part} {t : Nat}
    (h : GossipPermitted config allowed t r) (hagrees : Router.Agrees touched r r')
    (hdisjoint : ∀ part ∈ [Part.topics, .peers, .peerTopics, .mesh, .mcache, .messages],
      part ∉ touched) : GossipPermitted config allowed t r' := by
  have htopics : r'.topics = r.topics := hagrees.eq .topics (hdisjoint _ (by decide))
  have hmcache : r'.mcache = r.mcache := hagrees.eq .mcache (hdisjoint _ (by decide))
  have hmessages : r'.history.messages = r.history.messages :=
    hagrees.eq .messages (hdisjoint _ (by decide))
  have hcount := @gossipEligibleCount_congr config _ _ _ hagrees
    (fun part hpart => hdisjoint part (by revert hpart; cases part <;> decide)) t
  unfold GossipPermitted Permitted collectGossipIds at h ⊢
  rw [htopics, hcount, hmcache, hmessages]
  exact h

namespace SentInvariant

/-! ## Heartbeat -/

theorem emitTopicGossip {t : Nat} (h : SentInvariant config allowed r)
    (hused : (r.topics t).used = true) (hlocal : (r.topics t).localSubscribed = true)
    (hpermitted : GossipPermitted config allowed t r) :
    SentInvariant config allowed (emitTopicGossip config t r).2 := by
  unfold Gossipsub.emitTopicGossip
  rw [Comp.read_id_bind]
  dsimp only
  by_cases htarget : gossipTarget config (gossipEligibleCount config r t) = 0
  · rw [if_neg fun hneeds => hneeds.2.1 htarget, htarget]
    exact h
  · have hsending : Sending config allowed (collectGossipIds config r (r.topics t)) r := by
      refine ⟨h, fun entry hentry => ?_⟩
      rcases mem_collectGossipIds hentry with ⟨slot, rfl, hslot⟩
      exact h.cache.held hslot (hpermitted hused hlocal htarget _ hentry)
    have hrandom : Comp.Keeps (Sending config allowed (collectGossipIds config r (r.topics t)))
        (randomU64 config) := Sending.of_touches (randomU64_touches config) (by decide)
    split
    · apply Sending.invariant
      exact Comp.Keeps.bind hrandom (fun salt => Sending.emitTopicGossipLoop t salt _ none) r hsending
    · apply Sending.invariant
      exact Comp.Keeps.bind (.pure _) (fun salt => Sending.emitTopicGossipLoop t salt _ none) r hsending

/-- What is permitted before the first topic is permitted before the others. -/
theorem emitGossip (h : SentInvariant config allowed r)
    (hpermitted : ∀ t, GossipPermitted config allowed t r) :
    SentInvariant config allowed (emitGossip config r).2 := by
  have hloop : Comp.Keeps
      (fun r => SentInvariant config allowed r ∧ ∀ t, GossipPermitted config allowed t r)
      (Gossipsub.emitGossip config) := by
    refine .forOk fun t _ => .read_bind fun r ⟨hr, hgossip⟩ => ?_
    rw [id]
    split
    · rename_i htopic
      refine ⟨hr.emitTopicGossip htopic.1 htopic.2 (hgossip t), fun u => ?_⟩
      exact (hgossip u).of_agrees ((emitTopicGossip_touches config t).agrees r) (by decide)
    · exact ⟨hr, hgossip⟩
  exact (hloop r ⟨h, hpermitted⟩).1

theorem heartbeat (h : SentInvariant config allowed r) (nowUs : Nat)
    (hpermitted : ∀ t, GossipPermitted config allowed t (heartbeatMesh config nowUs r)) :
    SentInvariant config allowed (heartbeat config nowUs r) := by
  have hmesh : SentInvariant config allowed (heartbeatMesh config nowUs r) := by
    apply of_touches (meshHeartbeat_touches config) (by decide)
    apply of_agrees _ (backoffClearExpired_agrees config nowUs _) (by decide)
    exact h.of_agrees (resetIdontwantSent_agrees config r) (by decide)
  have hgossip := hmesh.emitGossip hpermitted
  exact ⟨hgossip.cache.expireTables nowUs, hgossip.queued, hgossip.unwanted⟩

/-! ## Messages -/

/-- A message that enters the cache changes nothing about those that were queued. -/
theorem mcacheStore {source : Option (Nat × Message)} (gated : Bool) {messageId : Bytes}
    {topic data : Span}
    (hsource : ∀ p message, source = some (p, message) →
      computeMessageId config message = .ok messageId ∧ topic = message.topic ∧
        data = message.data) :
    Comp.Keeps (SentInvariant config allowed)
      (mcacheStore config source gated messageId topic data) := by
  intro r h
  have hcache : CacheInvariant config
      (Gossipsub.mcacheStore config source gated messageId topic data r).2 :=
    CacheInvariant.mcacheStore hsource r h.cache
  have hagrees := (mcacheStore_touches config source gated messageId topic data).agrees r
  rcases CacheInvariant.mcacheStore_messages config source gated messageId topic data r with
    ⟨added, hadded⟩
  generalize (Gossipsub.mcacheStore config source gated messageId topic data r).2 = r' at *
  have hqueued : r'.history.queued = r.history.queued := hagrees.eq .queued (by decide)
  have hunwanted : r'.history.unwanted = r.history.unwanted :=
    congrArg Prod.fst (hagrees.eq .unwanted (by decide))
  have hkept : ∀ (n : Nat) (m : StoredMessage), r.history.messages[n]? = some m →
      r'.history.messages[n]? = some m := by
    intro n m hm
    rw [hadded, List.getElem?_append_left (List.getElem?_eq_some_iff.mp hm).1]
    exact hm
  refine ⟨hcache, fun q hq => ?_, fun q hq => ?_⟩
  · rcases h.queued q (hqueued ▸ hq) with ⟨m, hm, hshows⟩
    exact ⟨m, hkept _ m hm, hshows⟩
  · rcases h.unwanted q (hunwanted ▸ hq) with ⟨m, hm, hshows⟩
    exact ⟨m, hkept _ m hm, hshows⟩

/-- A message that entered the cache is held if it may be sent. -/
theorem held_of_mcacheStore {source : Option (Nat × Message)} {gated : Bool} {messageId : Bytes}
    {topic data : Span} {slot : Nat}
    (hstore : Gossipsub.mcacheStore config source gated messageId topic data r = (.ok slot, r'))
    (hallowed : ∀ n m, m.gated = gated → allowed n m) :
    Held allowed r' (r'.mcache.entries slot) := by
  rcases CacheInvariant.mcacheStore_ok hstore with ⟨hmessages, horigin, -, hholds⟩
  refine ⟨_, ?_, hholds, hallowed _ _ rfl⟩
  rw [hmessages, horigin, List.getElem?_concat_length]

/-- Only a topic without validation forwards what arrives. -/
theorem deliverEntry {p t slot nowUs : Nat} (h : SentInvariant config allowed r)
    (hknown : Known r (r.mcache.entries slot))
    (hheld : (r.topics t).validationMode = .acceptAll → Held allowed r (r.mcache.entries slot)) :
    SentInvariant config allowed (deliverEntry config p t slot nowUs r).2 := by
  unfold Gossipsub.deliverEntry
  rw [Comp.read_id_bind]
  dsimp only
  cases hmode : (r.topics t).validationMode with
  | requireApp =>
    apply @Telling.invariant config allowed (r.mcache.entries slot) _
    refine Comp.Keeps.bind ?_ (fun _ => .bind (.read _) fun r => ?_) r ⟨h, hknown⟩
    · exact Telling.enqueueIdontwantForReceivedEntry _ slot
    · refine .bind (Telling.of_touches (allocValidation_touches ..) (by decide)) fun o => ?_
      cases o with
      | none => exact .pure _
      | some v => exact Telling.of_touches (pushEventOrDrop_touches ..) (by decide)
  | acceptAll =>
    apply @Sending.invariant config allowed [r.mcache.entries slot] _
    refine Comp.Keeps.bind ?_ (fun _ => .bind (.read _) fun r => .bind ?_ fun _ => ?_) r
      ⟨h, fun entry hentry => List.mem_singleton.mp hentry ▸ hheld hmode⟩
    · exact Sending.of_telling (List.mem_singleton_self _)
        (Telling.enqueueIdontwantForReceivedEntry _ slot)
        (enqueueIdontwantForReceivedEntry_touches ..) (by decide)
    · exact Sending.of_touches (pushEventOrDrop_touches ..) (by decide)
    · exact Sending.forwardEntry (List.mem_singleton_self _) p

section Ungated

variable (hungated : ∀ n m, m.gated = false → allowed n m)

include hungated

theorem acceptMessage {p : Nat} {message : Message} {messageId : Bytes} (nowUs : Nat)
    (hid : computeMessageId config message = .ok messageId) :
    Comp.Keeps (SentInvariant config allowed)
      (acceptMessage config p message messageId nowUs) := by
  refine .read_bind fun r h => ?_
  rw [id]
  cases (findTopic config r message.topic).filter fun t => (r.topics t).localSubscribed with
  | none => exact of_touches (pushEventOrDrop_touches ..) (by decide) r h
  | some t =>
    have hstores : Comp.Keeps (SentInvariant config allowed) (Gossipsub.mcacheStore config
        (some (p, message)) ((r.topics t).validationMode = .requireApp) messageId message.topic
        message.data) := by
      refine mcacheStore _ fun q m hsome => ?_
      cases hsome
      exact ⟨hid, rfl, rfl⟩
    refine Comp.after_bind (fun e r' hrun => ?_) fun slot r' hrun => ?_
    · have hstored := hstores r h
      rwa [hrun] at hstored
    · have hstored := hstores r h
      rw [hrun] at hstored
      have hagrees := (mcacheStore_touches ..).of_run hrun
      have htopics : r'.topics = r.topics := hagrees.eq .topics (by decide)
      have hheld : Held (fun _ _ => True) r' (r'.mcache.entries slot) :=
        held_of_mcacheStore hrun fun _ _ _ => trivial
      refine hstored.deliverEntry hheld.known fun hmode => held_of_mcacheStore hrun fun n m hgated => ?_
      rw [htopics] at hmode
      exact hungated n m (by simp [hgated, hmode])

theorem processMessage (p : Nat) (message : Message) (nowUs : Nat) :
    Comp.Keeps (SentInvariant config allowed) (processMessage config p message nowUs) := by
  refine .absorb (.ite (fun _ => .fail _) fun _ => .ofResult_bind fun messageId hid => ?_)
  refine .bind (.read _) fun r => .ite (fun _ => .bind ?_ fun _ => .fail _) fun _ => .bind ?_ fun _ => ?_
  · exact of_touches (pushEventOrDrop_touches ..) (by decide)
  · exact .update fun r h => h.of_agrees (seenAdd_agrees ..) (by decide)
  · exact acceptMessage hungated nowUs hid

theorem processRpcElements (p : Nat) (rpc : Rpc) (nowUs : Nat) :
    Comp.Keeps (SentInvariant config allowed) (processRpcElements config p rpc nowUs) := by
  refine .bind (.forOk fun sub _ => ?_) fun _ => .bind (.forOk fun message _ => ?_) fun _ =>
    .bind (.forOk fun x _ => ?_) fun _ => .bind (.forOk fun graft _ => ?_) fun _ =>
      .forOk fun prune _ => ?_
  · exact of_touches (processSubscription_touches ..) (by decide)
  · exact .absorb (processMessage hungated p message nowUs)
  · exact of_touches (processIdontwant_touches ..) (by decide)
  · exact of_touches (processGraft_touches ..) (by decide)
  · exact of_touches (processPrune_touches ..) (by decide)

theorem publish (request : Publish) (outLen : Option Nat) :
    Comp.Keeps (SentInvariant config allowed) (publish config request outLen) := by
  refine .ite (fun _ => .fail _) fun _ => .bind (.ofResult _) fun messageId => ?_
  refine .ite (fun _ => .fail _) fun _ => .bind ?_ fun o => ?_
  · exact of_touches (findOrAddTopic_touches ..) (by decide)
  refine .bind (of_touches (orFail_touches [] ..) (by decide)) fun t r h => ?_
  have hstores : Comp.Keeps (SentInvariant config allowed)
      (Gossipsub.mcacheStore config none false messageId request.topic request.data) :=
    mcacheStore false fun _ _ hsome => nomatch hsome
  refine Comp.after_bind (fun e r' hrun => ?_) fun slot r' hrun => ?_
  · have hstored := hstores r h
    rwa [hrun] at hstored
  · have hstored := hstores r h
    rw [hrun] at hstored
    have hheld : Held allowed r' (r'.mcache.entries slot) :=
      held_of_mcacheStore hrun hungated
    have hagrees := seenAdd_agrees config messageId r'.nextHeartbeatUs r'
    rw [Comp.bind_of_ok (Comp.update_apply ..), Comp.read_id_bind]
    apply @Sending.invariant config allowed [r'.mcache.entries slot] _
    refine Comp.Keeps.bind ?_ (fun _ => .pure _) _
      ⟨hstored.of_agrees hagrees (by decide), fun entry hentry => ?_⟩
    · have hmcache : (seenAdd config messageId r'.nextHeartbeatUs r').mcache = r'.mcache :=
        hagrees.eq .mcache (by decide)
      rw [hmcache]
      exact Sending.publishEntry (List.mem_singleton_self _) t
    · rw [List.mem_singleton.mp hentry]
      exact hheld.of_agrees hagrees (by decide)

end Ungated

/-! ## Requests -/

/-- A peer without a writer gets no answer. -/
theorem enqueuePublishEntry_of_not_writer {p : Nat} (hp : p < config.capacity.maxPeers)
    (hwriter : r.isWriter p = false) (entry : McacheEntry) :
    enqueuePublishEntry config p entry r = (.error .state, r) := by
  have hnone : (r.peers p).used = false ∨ (r.peers p).stream = none := by
    rw [Router.isWriter, Bool.and_eq_false_iff, Option.isSome_eq_false_iff, Option.isNone_iff_eq_none]
      at hwriter
    exact hwriter
  unfold enqueuePublishEntry Gossipsub.enqueuePublishEntryWithLifetime enqueuePublishWithLifetime
    enqueueRpcWithLifetime
  rw [if_neg (Nat.not_le.mpr hp), if_pos hnone]

theorem processIwantId {p : Nat} (hp : p < config.capacity.maxPeers) {messageId : Span}
    (h : SentInvariant config allowed r)
    (hpermitted : IwantPermitted config allowed p messageId r) :
    SentInvariant config allowed (processIwantId config p messageId r).2 := by
  unfold Gossipsub.processIwantId
  rw [Comp.read_id_bind]
  cases hfind : mcacheFind config r messageId with
  | none => exact h
  | some slot =>
    dsimp only
    rw [continueAfterLocalLimit, Comp.absorb_state]
    cases hwriter : r.isWriter p with
    | false =>
      rw [enqueuePublishEntry_of_not_writer hp hwriter]
      exact h
    | true =>
      have hused : (r.mcache.entries slot).used = true := by
        unfold mcacheFind at hfind
        split at hfind
        · cases hfind
        · have hfound := (findSlot_some hfind).2
          simp only [Bool.and_eq_true] at hfound
          exact hfound.1
      have hheld := h.cache.held hused (hpermitted hwriter slot hfind)
      apply @Sending.invariant config allowed [r.mcache.entries slot] _
      refine Sending.enqueuePublishEntryWithLifetime (List.mem_singleton_self _) p _ _ r
        ⟨h, fun entry hentry => ?_⟩
      rw [List.mem_singleton.mp hentry]
      exact hheld

theorem processRpc {p : Nat} {rpc : Rpc} {nowUs : Nat}
    (hungated : ∀ n m, m.gated = false → allowed n m) (h : SentInvariant config allowed r)
    (hpermitted : IwantsPermitted config allowed p rpc nowUs r) :
    SentInvariant config allowed (processRpc config p rpc nowUs r).2 := by
  unfold Gossipsub.processRpc
  split
  · exact h
  · rename_i hp
    have helements := processRpcElements hungated p rpc nowUs r h
    refine Comp.after_bind (fun e r' hrun => ?_) fun a r' hrun => ?_
    · rwa [hrun] at helements
    · rw [hrun] at helements
      have hiwants : Comp.Keeps (fun r => SentInvariant config allowed r ∧
          ∀ iwant ∈ rpc.control.iwant, ∀ messageId ∈ iwant.messageIds,
            IwantPermitted config allowed p messageId r)
          (Comp.forOk (fun iwant => Comp.forOk (Gossipsub.processIwantId config p) iwant.messageIds)
            rpc.control.iwant) := by
        refine .forOk fun iwant hiwant => .forOk fun messageId hmem r ⟨hr, hall⟩ => ?_
        refine ⟨hr.processIwantId (Nat.not_le.mp hp) (hall iwant hiwant messageId hmem), ?_⟩
        intro other hother id hid
        exact (hall other hother id hid).of_agrees ((processIwantId_touches ..).agrees r) (by decide)
      have hafter := hiwants r' ⟨helements, hpermitted r' hrun⟩
      refine Comp.after_bind (fun e r'' hrun' => ?_) fun a r'' hrun' => ?_
      · rw [hrun'] at hafter
        exact hafter.1
      · rw [hrun'] at hafter
        exact of_touches (.forOk fun _ => .forOk fun _ => processIhaveId_touches ..) (by decide) r''
          hafter.1

/-! ## Reports -/

theorem reportValidation {v : Nat} {value : ValidationResult} (h : SentInvariant config allowed r)
    (hpermitted : value = .accept → ReportPermitted config allowed v r) :
    SentInvariant config allowed (reportValidation config v value r).2 := by
  have hrelease : ∀ r', SentInvariant config allowed r' →
      SentInvariant config allowed (r'.releaseValidation (some v)) :=
    fun r' hr' => hr'.of_agrees (releaseValidation_agrees r' (some v)) (by decide)
  unfold Gossipsub.reportValidation
  dsimp only
  split
  · exact h
  · rename_i hvalid
    simp only [not_or, Bool.not_eq_false, Nat.not_le] at hvalid
    split
    · exact hrelease r h
    · rename_i hused
      rw [Bool.not_eq_false] at hused
      split
      · rename_i haccept
        have hheld := h.cache.held hused (hpermitted haccept hvalid.1 hvalid.2 hused)
        apply hrelease
        apply @Sending.invariant config allowed [r.mcache.entries (r.validations v).mcacheIndex] _
        refine Sending.forwardEntry (List.mem_singleton_self _) _ r ⟨h, fun entry hentry => ?_⟩
        rw [List.mem_singleton.mp hentry]
        exact hheld
      · exact hrelease r h

theorem drive {nowUs : Nat} {answers : WriteAnswers} (h : SentInvariant config allowed r)
    (hpermitted : DrivePermitted config allowed nowUs r) :
    SentInvariant config allowed (drive config nowUs answers r).2 := by
  unfold Gossipsub.drive
  rw [Comp.bind_of_ok (Comp.update_apply ..), Comp.bind_of_ok (Comp.update_apply ..)]
  apply of_touches (flushReady_touches ..) (by decide)
  have hstart := h.of_agrees (setTime_agrees (txDropStale config r.peers nowUs r.tx) nowUs r)
    (by decide)
  split
  · rename_i hdue
    exact hstart.heartbeat nowUs (hpermitted hdue.1 hdue.2)
  · exact hstart

/-! ## Runs -/

/-- The messages of the history stay allowed, and the step sends only such. -/
theorem step {s : Node} {action : Action} (hungated : ∀ n m, m.gated = false → allowed n m)
    (h : SentInvariant config allowed s.router) (hpermitted : action.Permitted config allowed s) :
    SentInvariant config allowed (s.step config action).router := by
  have hagrees := s.step_agrees config action
  cases action with
  | drive nowUs answers => exact h.drive hpermitted
  | publish request outLen =>
    exact Comp.Keeps.bind (publish hungated request outLen) (fun _ => .pure _) _ h
  | report k value =>
    change SentInvariant config allowed (Action.comp config s.received (.report k value) s.router).2
    rw [Action.comp]
    cases htoken : reportedToken s.received k with
    | none => exact h
    | some v => exact h.reportValidation fun haccept => hpermitted haccept v htoken
  | receive i body =>
    change SentInvariant config allowed (receive config i body s.router).2
    rcases receive_cases config i body s.router with hsame | ⟨rpc, hopen, hdecode, hrpc⟩
    · rwa [hsame]
    · rw [hrpc]
      exact h.processRpc hungated (hpermitted hopen.1 hopen.2 rpc hdecode)
  | _ => exact h.of_agrees hagrees (by rw [Action.parts]; decide)

theorem init : SentInvariant config allowed .init :=
  ⟨.init, fun _ hmem => (nomatch hmem), fun _ hmem => (nomatch hmem)⟩

/-- Where every message may be sent, the invariant holds in every reachable state. -/
theorem run (actions : List Action) :
    SentInvariant config (fun _ _ => True) (Node.init.run config actions).router := by
  apply Lib.run_keeps (P := fun _ _ => True)
    (I := fun s : Node => SentInvariant config (fun _ _ => True) s.router)
  · exact runMeets_of_forall fun _ _ => trivial
  · exact init
  · intro s action _ h
    exact h.step (fun _ _ _ => trivial) (Action.permitted_of_forall fun _ _ => trivial)

end SentInvariant

end LeanLibp2p.Gossipsub
