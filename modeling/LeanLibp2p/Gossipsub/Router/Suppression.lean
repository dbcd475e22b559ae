import Mathlib.Data.List.Dedup
import LeanLibp2p.Gossipsub.Router.EventQueue
import LeanLibp2p.Gossipsub.Router.Ingress
import LeanLibp2p.Gossipsub.Router.TxSafety

/-!
# Messages that a peer does not want

What an IDONTWANT does (`gossipsub_rx.c:532-573`). It takes the copies of the messages that have not
started out of the queue of the peer, and enters the ids into a table that all peers share
(`gossipsub_state.c:1622-1687`); while an id is in the table, the message is not forwarded to the
peer. An id takes a slot each time it is entered, also when the peer has an entry for it, and a full
table loses an entry that has not expired.
-/

namespace LeanLibp2p.Gossipsub

open LeanLibp2p.Lib

/-! ## The table -/

/-- `gossipsub_peer_idontwant_add` takes this slot before it overwrites an entry that lasts. -/
def IdontwantEntry.spare (nowUs : Nat) (entry : IdontwantEntry) : Bool :=
  !entry.used || decide (entry.expiresUs < nowUs)

/-- The number of these slots. -/
def spareSlots (config : Config) (nowUs : Nat) (r : Router) : Nat :=
  (List.range config.capacity.idontwantEntries).countP fun i => (r.idontwant i).spare nowUs

/-- The table has an entry for the id that lasts until `expiresUs`. -/
def Remembers (config : Config) (p : Nat) (messageId : Bytes) (expiresUs : Nat) (r : Router) :
    Prop :=
  ∃ i < config.capacity.idontwantEntries, r.idontwant i = ⟨true, messageId, p, expiresUs⟩

variable {config : Config} {p nowUs expiresUs : Nat} {messageId : Bytes} {r r' : Router}

theorem Remembers.congr (h : Remembers config p messageId expiresUs r)
    (htable : r'.idontwant = r.idontwant) : Remembers config p messageId expiresUs r' := by
  unfold Remembers
  rwa [htable]

theorem spareSlots_congr (htable : r'.idontwant = r.idontwant) (nowUs : Nat) :
    spareSlots config nowUs r' = spareSlots config nowUs r := by
  unfold spareSlots
  rw [htable]

/-- The peer is passed over until the entry expires. -/
theorem Remembers.contains (h : Remembers config p messageId expiresUs r)
    (hnow : nowUs ≤ expiresUs) : peerIdontwantContains config r p messageId nowUs = true := by
  obtain ⟨i, hi, hentry⟩ := h
  obtain ⟨j, hj⟩ := @findSlot_isSome config.capacity.idontwantEntries i
    (fun i => (r.idontwant i).used && (r.idontwant i).peerIndex = p &&
      decide (nowUs ≤ (r.idontwant i).expiresUs) && (r.idontwant i).messageId = messageId) hi
    (by simp [hentry, hnow])
  unfold peerIdontwantContains
  rw [hj]
  rfl

/-- The search of `gossipsub_peer_idontwant_add` finds a spare slot if there is one. -/
theorem exists_spare (hspare : 0 < spareSlots config nowUs r) :
    ∃ i < config.capacity.idontwantEntries, (r.idontwant i).spare nowUs = true ∧
      findSlot config.capacity.idontwantEntries
        (fun i => !(r.idontwant i).used || decide ((r.idontwant i).expiresUs < nowUs)) =
          some i := by
  obtain ⟨i, hi, hfree⟩ := List.countP_pos_iff.mp hspare
  obtain ⟨j, hj⟩ := @findSlot_isSome _ i
    (fun i => !(r.idontwant i).used || decide ((r.idontwant i).expiresUs < nowUs))
    (List.mem_range.mp hi) hfree
  exact ⟨j, (findSlot_some hj).1, (findSlot_some hj).2, hj⟩

/-- With a spare slot, an id takes one of the spare slots. -/
theorem peerIdontwantAdd_spare (q : Nat) (span : Span) (hspare : 0 < spareSlots config nowUs r) :
    (peerIdontwantAdd config q span nowUs r).idontwant = r.idontwant ∨
      ∃ i < config.capacity.idontwantEntries, (r.idontwant i).spare nowUs = true ∧
        (peerIdontwantAdd config q span nowUs r).idontwant = Function.update r.idontwant i
          ⟨true, span.bytes, q, u64Add nowUs config.idontwantTtlUs⟩ := by
  unfold peerIdontwantAdd
  split
  · obtain ⟨i, hi, hfree, hfind⟩ := exists_spare hspare
    refine .inr ⟨i, hi, hfree, ?_⟩
    simp only [hfind, Option.getD_some]
    rfl
  · exact .inl rfl

/-- Entering an id uses up at most one spare slot. -/
theorem spareSlots_peerIdontwantAdd (q : Nat) (span : Span)
    (hspare : 0 < spareSlots config nowUs r) :
    spareSlots config nowUs r ≤
      spareSlots config nowUs (peerIdontwantAdd config q span nowUs r) + 1 := by
  rcases peerIdontwantAdd_spare q span hspare with hsame | ⟨i, hi, hfree, htable⟩
  · rw [spareSlots_congr hsame]
    exact Nat.le_succ _
  · have hcount := countP_update (fun entry : IdontwantEntry => entry.spare nowUs) r.idontwant
      ⟨true, span.bytes, q, u64Add nowUs config.idontwantTtlUs⟩ hi
    unfold spareSlots
    rw [htable]
    rw [hfree] at hcount
    simp only [Bool.toNat_true] at hcount
    omega

/-- An entry that lasts stays. -/
theorem Remembers.peerIdontwantAdd (h : Remembers config p messageId expiresUs r)
    (hlasts : nowUs ≤ expiresUs) (q : Nat) (span : Span)
    (hspare : 0 < spareSlots config nowUs r) :
    Remembers config p messageId expiresUs (peerIdontwantAdd config q span nowUs r) := by
  rcases peerIdontwantAdd_spare q span hspare with hsame | ⟨i, hi, hfree, htable⟩
  · exact h.congr hsame
  · obtain ⟨j, hj, hentry⟩ := h
    have hji : j ≠ i := by
      rintro rfl
      rw [hentry] at hfree
      simp only [IdontwantEntry.spare, Bool.not_true, Bool.false_or, decide_eq_true_eq] at hfree
      omega
    refine ⟨j, hj, ?_⟩
    rw [htable, Function.update_of_ne hji, hentry]

/-- The id itself is remembered. -/
theorem peerIdontwantAdd_remembers (hlen : messageId.length ≤ config.limits.maxMessageIdBytes)
    (hspare : 0 < spareSlots config nowUs r) :
    Remembers config p messageId (u64Add nowUs config.idontwantTtlUs)
      (peerIdontwantAdd config p (.ptr messageId) nowUs r) := by
  obtain ⟨i, hi, -, hfind⟩ := exists_spare hspare
  refine ⟨i, hi, ?_⟩
  unfold Gossipsub.peerIdontwantAdd
  rw [if_pos ⟨rfl, Nat.ne_of_gt (Nat.zero_lt_of_lt hi), hlen⟩]
  simp only [hfind, Option.getD_some]
  exact Function.update_self ..

/-! ## One list of ids -/

/-- One round of the loop of `gossipsub_process_idontwant`. -/
def processIdontwantId (config : Config) (p : Nat) (idontwant : ControlIdontwant) (nowUs : Nat)
    (messageId : Span) : RouterM Unit := do
  Comp.update (peerIdontwantAdd config p messageId nowUs)
  Comp.update fun r => { r with tx := dropQueuedPublish config r.peers p messageId r.tx }
  let r ← Comp.read id
  pushEventOrDrop config ({ Event.zero .idontwant with
    messageId := .borrowed messageId
    idontwant := some idontwant }.ofPeer (r.peers p))

theorem processIdontwant_eq (hp : p < config.capacity.maxPeers) (idontwant : ControlIdontwant)
    (nowUs : Nat) : processIdontwant config p idontwant nowUs =
      Comp.forOk (processIdontwantId config p idontwant nowUs) idontwant.messageIds :=
  if_neg (Nat.not_le_of_lt hp)

/-- A round succeeds; it enters the id and drops the queued copies. -/
theorem processIdontwantId_ok (idontwant : ControlIdontwant) (span : Span) (r : Router) :
    ∃ r', processIdontwantId config p idontwant nowUs span r = (.ok (), r') ∧
      r'.idontwant = (peerIdontwantAdd config p span nowUs r).idontwant ∧
      r'.tx = dropQueuedPublish config r.peers p span r.tx := by
  unfold processIdontwantId
  rw [Comp.bind_of_ok (Comp.update_apply ..), Comp.bind_of_ok (Comp.update_apply ..),
    Comp.read_id_bind]
  have hadd := peerIdontwantAdd_agrees config p span nowUs r
  have htx : (peerIdontwantAdd config p span nowUs r).tx = r.tx := hadd.eq .tx (by decide)
  have hpeers : (peerIdontwantAdd config p span nowUs r).peers = r.peers := by
    unfold Gossipsub.peerIdontwantAdd
    split <;> rfl
  generalize hr₁ : ({ peerIdontwantAdd config p span nowUs r with
    tx := dropQueuedPublish config (peerIdontwantAdd config p span nowUs r).peers p span
      (peerIdontwantAdd config p span nowUs r).tx } : Router) = r₁
  generalize hevent : Event.ofPeer _ _ = event
  obtain ⟨r', hpush⟩ : ∃ r', pushEventOrDrop config event r₁ = (.ok (), r') := by
    rcases pushEventOrDrop_cases config event r₁ with ⟨-, hdrop⟩ | ⟨events, -, hpush⟩
    · exact ⟨_, hdrop⟩
    · exact ⟨_, hpush⟩
  have hagrees := (pushEventOrDrop_touches config event).of_run hpush
  refine ⟨r', hpush, (hagrees.eq .idontwant (by decide)).trans ?_,
    (hagrees.eq .tx (by decide)).trans ?_⟩
  · subst hr₁
    rfl
  · subst hr₁
    dsimp only
    rw [htx, hpeers]
    rfl

/-- The ids of a list that fits into the spare slots are remembered, and entries that last stay. -/
theorem processIdontwantIds_remembers (idontwant : ControlIdontwant) (ids : List Span) {n : Nat}
    (hspare : ids.length + n ≤ spareSlots config nowUs r)
    (hrun : Comp.forOk (processIdontwantId config p idontwant nowUs) ids r = (.ok (), r')) :
    n ≤ spareSlots config nowUs r' ∧
      (∀ q messageId expiresUs, nowUs ≤ expiresUs → Remembers config q messageId expiresUs r →
        Remembers config q messageId expiresUs r') ∧
      (∀ messageId, .ptr messageId ∈ ids →
        messageId.length ≤ config.limits.maxMessageIdBytes →
        nowUs ≤ u64Add nowUs config.idontwantTtlUs →
          Remembers config p messageId (u64Add nowUs config.idontwantTtlUs) r') := by
  induction ids generalizing r with
  | nil =>
    cases hrun
    exact ⟨by simpa using hspare, fun _ _ _ _ h => h, by simp⟩
  | cons span ids ih =>
    rw [Comp.forOk_cons] at hrun
    obtain ⟨⟨⟩, r₁, hround, hrest⟩ := Comp.ok_of_bind hrun
    obtain ⟨r₁', hround', htable, -⟩ := @processIdontwantId_ok config p nowUs idontwant span r
    rw [hround'] at hround
    cases hround
    have hpos : 0 < spareSlots config nowUs r := by
      rw [List.length_cons] at hspare
      omega
    have hless := spareSlots_peerIdontwantAdd p span hpos
    rw [← spareSlots_congr htable] at hless
    have hroom : ids.length + n ≤ spareSlots config nowUs r₁ := by
      rw [List.length_cons] at hspare
      omega
    obtain ⟨hleft, hkept, hnew⟩ := ih hroom hrest
    refine ⟨hleft, fun q messageId expiresUs hlasts h => ?_, fun messageId hmem hlen hlasts => ?_⟩
    · exact hkept q messageId expiresUs hlasts
        ((h.peerIdontwantAdd hlasts p span hpos).congr htable)
    · rcases List.mem_cons.mp hmem with hspan | hmem
      · subst hspan
        exact hkept p messageId _ hlasts ((peerIdontwantAdd_remembers hlen hpos).congr htable)
      · exact hnew messageId hmem hlen hlasts

/-- One of the ids is that of the message in the item, which has not started. -/
def TxItem.unwanted (ids : List Span) (item : TxItem) : Bool :=
  item.publish && item.pos = 0 &&
    ids.any fun span => !span.isNull && item.messageId = span.bytes

section Queue

variable {config : RouterConfig} {p nowUs : Nat} {r r' : Router}

theorem processIdontwantId_transmits (idontwant : ControlIdontwant) (span : Span) :
    Comp.Keeps (Transmits config.toConfig)
      (processIdontwantId config.toConfig p idontwant nowUs span) := by
  refine .bind (.update fun r h => h.of_agrees (peerIdontwantAdd_agrees ..) rfl) fun _ => ?_
  refine .bind (.update fun r h => ?_) fun _ => .bind (.read _) fun r =>
    Transmits.pushEventOrDrop _
  obtain ⟨written, h⟩ := h
  exact ⟨written, h.dropQueuedPublish rfl p span⟩

/-- One id. -/
theorem dropUnwanted_drops (h : Transmits config.toConfig r) (hp : p < config.capacity.maxPeers)
    (span : Span) :
    Tx.Drops config.toConfig r.tx (dropQueuedPublish config.toConfig r.peers p span r.tx) p
      ((r.tx.items config.toConfig p).filter fun i => !(r.tx.queue i).unwanted [span]) := by
  obtain ⟨written, h⟩ := h
  unfold dropQueuedPublish TxItem.unwanted
  cases hnull : span.isNull with
  | true =>
    rw [if_neg (by simp)]
    exact .refl (by simp [hnull])
  | false =>
    rw [if_pos ⟨rfl, hp⟩]
    simp only [List.any_cons, List.any_nil, Bool.or_false, hnull, Bool.not_false, Bool.true_and]
    exact h.walks_queue (TxReachable.dropQueuedPublishLoop_walks r.peers span.bytes) rfl hp

/-- The unsent copies of the messages leave the queue of the peer, and nothing else changes. -/
theorem processIdontwantIds_drops (h : Transmits config.toConfig r)
    (hp : p < config.capacity.maxPeers) (idontwant : ControlIdontwant) (ids : List Span)
    (hrun : Comp.forOk (processIdontwantId config.toConfig p idontwant nowUs) ids r =
      (.ok (), r')) :
    Tx.Drops config.toConfig r.tx r'.tx p
      ((r.tx.items config.toConfig p).filter fun i => !(r.tx.queue i).unwanted ids) := by
  induction ids generalizing r with
  | nil =>
    cases hrun
    exact .refl (by simp [TxItem.unwanted])
  | cons span ids ih =>
    rw [Comp.forOk_cons] at hrun
    obtain ⟨⟨⟩, r₁, hround, hrest⟩ := Comp.ok_of_bind hrun
    have h₁ : Transmits config.toConfig r₁ :=
      (processIdontwantId_transmits idontwant span).of_run h hround
    have htx : r₁.tx = Gossipsub.dropQueuedPublish config.toConfig r.peers p span r.tx := by
      obtain ⟨r₂, hround₂, -, htx⟩ :=
        @processIdontwantId_ok config.toConfig p nowUs idontwant span r
      rw [hround₂] at hround
      cases hround
      exact htx
    have hfirst := dropUnwanted_drops h hp span
    rw [← htx] at hfirst
    have hlater := ih h₁ hrest
    have hsame : ((r₁.tx.items config.toConfig p).filter fun i =>
        !(r₁.tx.queue i).unwanted ids) =
        (r.tx.items config.toConfig p).filter fun i => !(r.tx.queue i).unwanted (span :: ids) := by
      have hqueue : ∀ i ∈ r₁.tx.items config.toConfig p,
          (!(r₁.tx.queue i).unwanted ids) = !(r.tx.queue i).unwanted ids := by
        intro i hi
        obtain ⟨written, hreached⟩ := h₁
        have hused := (hreached.transmitInv.queues.queued p hp i hi).1
        rw [(hfirst.kept i hused).field_eq (TxItem.unwanted ids) fun _ => rfl]
      rw [List.filter_congr hqueue, hfirst.self, List.filter_filter]
      apply List.filter_congr
      intro i _
      simp only [TxItem.unwanted, List.any_cons, List.any_nil, Bool.or_false]
      cases (r.tx.queue i).publish && decide ((r.tx.queue i).pos = 0) with
      | false => simp
      | true => simp [Bool.and_comm]
    rw [hsame] at hlater
    exact hfirst.trans hlater

end Queue

/-! ## Forwarding -/

/-- The queue of the peer is the same. -/
structure Tx.SameQueue (config : Config) (tx tx' : Tx) (p : Nat) : Prop where
  items : tx'.items config p = tx.items config p
  kept : ∀ i ∈ tx.items config p, Tx.Keeps tx tx' i

theorem Tx.SameQueue.refl (config : Config) (tx : Tx) (p : Nat) : tx.SameQueue config tx p :=
  ⟨rfl, fun i _ => .refl tx i⟩

theorem Tx.SameQueue.trans {config : Config} {tx tx' tx'' : Tx} {p : Nat}
    (h : tx.SameQueue config tx' p) (h' : tx'.SameQueue config tx'' p) :
    tx.SameQueue config tx'' p where
  items := h'.items.trans h.items
  kept i hi := (h.kept i hi).trans (h'.kept i (h.items ▸ hi))

/-- The peer is passed over, and its queue has not changed since the transmit state was `tx`. -/
structure PassedOver (config : Config) (p : Nat) (messageId : Bytes) (tx : Tx) (r : Router) :
    Prop where
  transmits : Transmits config r
  contains : peerIdontwantContains config r p messageId (txEffectiveNowUs r) = true
  same : tx.SameQueue config r.tx p

namespace PassedOver

variable {config : RouterConfig} {p q : Nat} {messageId : Bytes} {tx : Tx} {r r' : Router}

/-- The lookup depends on the table and the clock. -/
theorem contains_congr {nowUs nowUs' : Nat} (htable : r'.idontwant = r.idontwant)
    (hnow : nowUs' = nowUs) : peerIdontwantContains config.toConfig r' p messageId nowUs' =
      peerIdontwantContains config.toConfig r p messageId nowUs := by
  unfold peerIdontwantContains
  rw [htable, hnow]

theorem of_agrees {touched : List Part} (h : PassedOver config.toConfig p messageId tx r)
    (hagrees : Router.Agrees touched r r')
    (huntouched : Part.untouched [.tx, .peers, .idontwant, .clock] touched = true) :
    PassedOver config.toConfig p messageId tx r' := by
  have hnot : ∀ part ∈ [Part.tx, .peers, .idontwant, .clock], part ∉ touched :=
    fun part hpart => Part.not_mem_of_untouched huntouched hpart
  have htx : r'.tx = r.tx := hagrees.eq .tx (hnot _ (by simp))
  have hclock := hagrees.eq .clock (hnot _ (by simp))
  have hnow : txEffectiveNowUs r' = txEffectiveNowUs r := by
    have hlast : r'.lastDriveUs = r.lastDriveUs := congrArg (fun x => x.2.2.2) hclock
    have hnext : r'.nextHeartbeatUs = r.nextHeartbeatUs := congrArg (fun x => x.2.2.1) hclock
    unfold txEffectiveNowUs
    rw [hlast, hnext]
  refine ⟨h.transmits.setPeers htx ?_ ?_, ?_, htx ▸ h.same⟩
  · exact fun p => hagrees.peer (hnot _ (by simp)) p Peer.used fun _ => rfl
  · exact fun p => hagrees.peer (hnot _ (by simp)) p Peer.stream fun _ => rfl
  · exact (contains_congr (hagrees.eq .idontwant (hnot _ (by simp))) hnow).trans h.contains

/-- An enqueue for another peer. -/
theorem enqueued {result : Except GossipsubErr Nat} {tx' : Tx} {rpc : Rpc} {lifetimeUs : Nat}
    {priority : Bool} (h : Transmits config.toConfig r) (hp : p < config.capacity.maxPeers)
    (hqp : q ≠ p)
    (hrun : enqueueRpcWithLifetime config.toConfig r.peers q rpc lifetimeUs priority
      (txEffectiveNowUs r) r.tx = (result, tx')) :
    r.tx.SameQueue config.toConfig tx' p ∧
      (∀ i, result = .ok i → ¬ r.tx.Used config.toConfig i) := by
  obtain ⟨written, hreached⟩ := h
  have hqueues : TxInv config.toConfig r.tx (r.tx.items config.toConfig) none :=
    hreached.transmitInv.queues
  have hchanged := hreached.enqueue_queues rfl hrun
  obtain ⟨herror, hok⟩ := enqueueRpcWithLifetime_spec hqueues config.txBufferBytes_le hrun
  have hused : ∀ i ∈ r.tx.items config.toConfig p, r.tx.Used config.toConfig i :=
    fun i hi => (hqueues.queued p hp i hi).1
  cases result with
  | error e =>
    refine ⟨⟨hchanged p hp, fun i hi => (herror e rfl).2 i (hused i hi)⟩, fun i hi => ?_⟩
    cases hi
  | ok j =>
    obtain ⟨-, hfree, -, hothers⟩ := hchanged
    refine ⟨⟨hothers p hp hqp.symm, fun i hi => (hok j rfl).2.keeps i (hused i hi)⟩, fun i hi => ?_⟩
    cases hi
    exact hfree

variable (hp : p < config.capacity.maxPeers)

include hp

theorem enqueueRpc (hqp : q ≠ p) (rpc : Rpc) (lifetimeUs : Nat) (priority : Bool) :
    Comp.Keeps (PassedOver config.toConfig p messageId tx)
      (enqueueRpc config.toConfig q rpc lifetimeUs priority) := by
  intro r h
  have htransmits := Transmits.enqueueRpc q rpc lifetimeUs priority r h.transmits
  unfold Gossipsub.enqueueRpc at htransmits ⊢
  rcases hrun : enqueueRpcWithLifetime config.toConfig r.peers q rpc lifetimeUs priority
    (txEffectiveNowUs r) r.tx with ⟨result, tx'⟩
  rw [hrun] at htransmits
  exact ⟨htransmits, h.contains, h.same.trans (enqueued h.transmits hp hqp hrun).1⟩

theorem enqueuePublishEntry (hqp : q ≠ p) (entry : McacheEntry) :
    Comp.Keeps (PassedOver config.toConfig p messageId tx)
      (enqueuePublishEntry config.toConfig q entry) := by
  intro r h
  have htransmits := Transmits.enqueuePublishEntryWithLifetime q entry txForwardLifetimeUs false
    r h.transmits
  unfold Gossipsub.enqueuePublishEntry
  unfold enqueuePublishEntryWithLifetime enqueuePublishWithLifetime at htransmits ⊢
  rcases hrun : enqueueRpcWithLifetime config.toConfig r.peers q (entryRpc r.mcache entry)
    txForwardLifetimeUs false (txEffectiveNowUs r) r.tx with ⟨e | i, tx'⟩
  · rw [hrun] at htransmits
    exact ⟨htransmits, h.contains, h.same.trans (enqueued h.transmits hp hqp hrun).1⟩
  · rw [hrun] at htransmits
    obtain ⟨hsame, hfree⟩ := enqueued h.transmits hp hqp hrun
    have hlabel : tx'.SameQueue config.toConfig (tx'.setItem i { tx'.queue i with
        publish := true, messageId := entry.messageId }) p := by
      refine ⟨Tx.items_congr rfl ?_, fun j hj => ?_⟩
      · rw [Tx.next_setItem]
        exact Function.update_eq_self i tx'.next
      · have hji : j ≠ i := by
          rintro rfl
          obtain ⟨written, hreached⟩ := h.transmits
          rw [hsame.items] at hj
          exact hfree j rfl (hreached.transmitInv.queues.queued p hp j hj).1
        unfold Tx.Keeps Tx.content
        rw [Tx.setItem_of_ne _ _ hji, Tx.setItem_buffer]
        exact ⟨rfl, rfl⟩
    exact ⟨htransmits, h.contains, h.same.trans (hsame.trans hlabel)⟩

theorem enqueueIdontwantForEntry (hqp : q ≠ p) (topic : Topic) (entry : McacheEntry) :
    Comp.Keeps (PassedOver config.toConfig p messageId tx)
      (enqueueIdontwantForEntry config.toConfig q topic entry) := by
  refine .bind (.read _) fun r => .ite (fun _ => .fail _) fun _ =>
    .ite (fun _ => ?_) fun _ => .pure _
  refine .bind (enqueueRpc hp hqp _ _ _) fun _ => .update fun r h => ?_
  exact of_agrees (h.of_agrees (setPeer_counter_agrees q r _) rfl) (recordUnwanted_agrees q _ _) rfl

/-- While the table has the id, a message with it is not forwarded to the peer. -/
theorem forwardEntry (source : Nat) {entry : McacheEntry} (hentry : entry.messageId = messageId) :
    Comp.Keeps (PassedOver config.toConfig p messageId tx)
      (forwardEntry config.toConfig source entry) := by
  refine .bind (.read _) fun r => .bind ?_ fun t => .forOk fun q _ => .read_bind fun r h => ?_
  · exact (orFail_touches [] _ _).keeps fun r r' hagrees h => h.of_agrees hagrees rfl
  dsimp only [id]
  by_cases hqp : q = p
  · rw [if_neg]
    · exact h
    · rw [hqp, hentry, h.contains]
      simp
  · split
    · exact Comp.Keeps.absorb (.bind (.absorb (enqueueIdontwantForEntry hp hqp _ entry)) fun _ =>
        enqueuePublishEntry hp hqp entry) r h
    · exact h

end PassedOver

/-! ## RPCs -/

/-- The ids of the IDONTWANTs of an RPC. -/
def Rpc.declined (rpc : Rpc) : List Span :=
  rpc.control.idontwant.flatMap ControlIdontwant.messageIds

section Table

variable {config : Config} {p q nowUs expiresUs : Nat} {messageId : Bytes} {r r' : Router}

/-- What leaves the table alone. -/
theorem remembers_of_touches {α : Type} {touched : List Part} {c : RouterM α} {n : Nat}
    (hc : Touches touched c) (hnot : Part.idontwant ∉ touched) :
    Comp.Keeps (fun r => Remembers config p messageId expiresUs r ∧
      n ≤ spareSlots config nowUs r) c :=
  hc.keeps fun _ _ hagrees h => by
    have htable := hagrees.eq .idontwant hnot
    exact ⟨h.1.congr htable, (spareSlots_congr htable nowUs).symm ▸ h.2⟩

theorem processIdontwantIds_ok (idontwant : ControlIdontwant) (ids : List Span) (r : Router) :
    ∃ r', Comp.forOk (processIdontwantId config q idontwant nowUs) ids r = (.ok (), r') := by
  induction ids generalizing r with
  | nil => exact ⟨r, rfl⟩
  | cons span ids ih =>
    obtain ⟨r₁, hround, -⟩ := @processIdontwantId_ok config q nowUs idontwant span r
    rw [Comp.forOk_cons, Comp.bind_of_ok hround]
    exact ih r₁

/-- The lists of an RPC. -/
theorem processIdontwants_remembers (hq : q < config.capacity.maxPeers)
    (hlasts : nowUs ≤ expiresUs) (idontwants : List ControlIdontwant)
    (h : Remembers config p messageId expiresUs r ∧
      (idontwants.flatMap ControlIdontwant.messageIds).length ≤ spareSlots config nowUs r) :
    Remembers config p messageId expiresUs
      (Comp.forOk (fun x => processIdontwant config q x nowUs) idontwants r).2 := by
  induction idontwants generalizing r with
  | nil => exact h.1
  | cons idontwant idontwants ih =>
    obtain ⟨r₁, hlist⟩ :=
      @processIdontwantIds_ok config q nowUs idontwant idontwant.messageIds r
    have hroom := h.2
    rw [List.flatMap_cons, List.length_append] at hroom
    obtain ⟨hleft, hkept, -⟩ := processIdontwantIds_remembers idontwant _ hroom hlist
    rw [Comp.forOk_cons, processIdontwant_eq hq, Comp.bind_of_ok hlist]
    exact ih ⟨hkept p messageId expiresUs hlasts h.1, hleft⟩

/-- An RPC with no more ids than spare slots leaves the entries that last. -/
theorem processRpc_remembers {rpc : Rpc} (hlasts : nowUs ≤ expiresUs)
    (h : Remembers config p messageId expiresUs r)
    (hroom : rpc.declined.length ≤ spareSlots config nowUs r) :
    Remembers config p messageId expiresUs (processRpc config q rpc nowUs r).2 := by
  have hkeeps {c : RouterM Unit} {touched : List Part} (hc : Touches touched c)
      (hnot : Part.idontwant ∉ touched) : Comp.Keeps (Remembers config p messageId expiresUs) c :=
    hc.keeps fun _ _ hagrees h => h.congr (hagrees.eq .idontwant hnot)
  by_cases hq : config.capacity.maxPeers ≤ q
  · unfold Gossipsub.processRpc
    rw [if_pos hq]
    exact h
  rw [Nat.not_le] at hq
  have hsubs : Comp.Keeps (fun r => Remembers config p messageId expiresUs r ∧
      rpc.declined.length ≤ spareSlots config nowUs r)
      (Comp.forOk (processSubscription config q) rpc.subscriptions) :=
    .forOk fun sub _ => remembers_of_touches (processSubscription_touches ..) (by decide)
  have hmessages : Comp.Keeps (fun r => Remembers config p messageId expiresUs r ∧
      rpc.declined.length ≤ spareSlots config nowUs r) (Comp.forOk (fun message =>
        Comp.absorb (fun e => e = .duplicate) (processMessage config q message nowUs))
          rpc.publish) :=
    .forOk fun message _ => .absorb (remembers_of_touches (processMessage_touches ..) (by decide))
  rw [processRpc_eq config hq]
  refine Comp.keeps_bind ?_ fun _ r' _ h' =>
    hkeeps (processFromGrafts_touches ..) (by decide) r' h'
  refine Comp.after_bind (fun e r₁ hrun => (hsubs.of_run ⟨h, hroom⟩ hrun).1) fun _ r₁ hrun => ?_
  have h₁ := hsubs.of_run ⟨h, hroom⟩ hrun
  refine Comp.after_bind (fun e r₂ hrun => (hmessages.of_run h₁ hrun).1) fun _ r₂ hrun => ?_
  exact processIdontwants_remembers hq hlasts _ (hmessages.of_run h₁ hrun)

end Table

/-! ## Runs -/

/-- The table has the id, or the time until which it was to stay there has passed. -/
def Lasts (p : Nat) (messageId : Bytes) (expiresUs : Nat) (config : Config) (r : Router) : Prop :=
  Remembers config p messageId expiresUs r ∨ expiresUs < r.lastDriveUs

/-- An RPC brings no more ids than the table has spare slots. -/
def Action.LeavesRoom (config : Config) (s : Node) : Action → Prop
  | .receive i body => ∀ rpc,
      rpcBodyDecode (s.router.streams i).version config.limits decodeStorage body = .ok rpc →
      rpc.declined.length ≤ spareSlots config s.router.lastDriveUs s.router
  | _ => True

namespace Lasts

variable {config : Config} {p expiresUs : Nat} {messageId : Bytes} {r r' : Router}

theorem of_agrees {touched : List Part} (h : Lasts p messageId expiresUs config r)
    (hagrees : Router.Agrees touched r r')
    (huntouched : Part.untouched [.idontwant, .clock] touched = true) :
    Lasts p messageId expiresUs config r' := by
  have hnot : ∀ part ∈ [Part.idontwant, .clock], part ∉ touched :=
    fun part hpart => Part.not_mem_of_untouched huntouched hpart
  rcases h with h | h
  · exact .inl (h.congr (hagrees.eq .idontwant (hnot _ (by simp))))
  · exact .inr (by rwa [hagrees.lastDriveUs (hnot _ (by simp))])

/-- The clock goes on. -/
theorem of_later {touched : List Part} (h : Lasts p messageId expiresUs config r)
    (hagrees : Router.Agrees touched r r') (hnot : Part.idontwant ∉ touched)
    (hclock : r.lastDriveUs ≤ r'.lastDriveUs) : Lasts p messageId expiresUs config r' := by
  rcases h with h | h
  · exact .inl (h.congr (hagrees.eq .idontwant hnot))
  · exact .inr (Nat.lt_of_lt_of_le h hclock)

/-- A heartbeat drops what has expired. -/
theorem heartbeat (h : Lasts p messageId expiresUs config r) :
    Lasts p messageId expiresUs config (heartbeat config r.lastDriveUs r) := by
  have hmesh := h.of_agrees (heartbeatMesh_agrees config r.lastDriveUs r) (by decide)
  have hgossip := hmesh.of_agrees ((emitGossip_touches config).agrees _) (by decide)
  have hmeshClock := (heartbeatMesh_agrees config r.lastDriveUs r).lastDriveUs (by decide)
  have hgossipClock := ((emitGossip_touches config).agrees
    (heartbeatMesh config r.lastDriveUs r)).lastDriveUs (by decide)
  unfold Gossipsub.heartbeat
  generalize (emitGossip config (heartbeatMesh config r.lastDriveUs r)).2 = r₂
    at hgossip hgossipClock
  have hclock : r₂.lastDriveUs = r.lastDriveUs := hgossipClock.trans hmeshClock
  rcases hgossip with ⟨i, hi, hentry⟩ | hpast
  · by_cases hexpired : expiresUs < r.lastDriveUs
    · exact .inr (hclock ▸ hexpired)
    · refine .inl ⟨i, hi, ?_⟩
      unfold expireTables
      dsimp only
      rw [hentry, if_neg fun hold => hexpired hold.2.2]
  · exact .inr hpast

theorem drive (h : Lasts p messageId expiresUs config r) (nowUs : Nat) (answers : WriteAnswers)
    (hclock : r.lastDriveUs ≤ nowUs) :
    Lasts p messageId expiresUs config (drive config nowUs answers r).2 := by
  unfold Gossipsub.drive
  rw [Comp.bind_of_ok (Comp.update_apply ..), Comp.bind_of_ok (Comp.update_apply ..)]
  have hlater : Lasts p messageId expiresUs config
      { r with tx := txDropStale config r.peers nowUs r.tx, lastDriveUs := nowUs } :=
    h.of_later (setTime_agrees ..) (by decide) hclock
  have hbeat := hlater.heartbeat
  refine of_agrees ?_ ((flushReady_touches config nowUs answers).agrees _) (by decide)
  split
  · exact hbeat
  · exact hlater

theorem receive {s : Node} {i : Nat} {body : Bytes}
    (h : Lasts p messageId expiresUs config s.router)
    (hroom : (Action.receive i body).LeavesRoom config s) :
    Lasts p messageId expiresUs config (receive config i body s.router).2 := by
  have hclock : (Gossipsub.receive config i body s.router).2.lastDriveUs = s.router.lastDriveUs :=
    ((receive_touches config i body).agrees s.router).lastDriveUs (by rw [Action.parts]; decide)
  by_cases hpast : expiresUs < s.router.lastDriveUs
  · exact .inr (hclock ▸ hpast)
  have hremembers := h.resolve_right hpast
  refine .inl ?_
  rcases receive_cases config i body s.router with hsame | ⟨rpc, -, hdecode, hrpc⟩
  · rwa [hsame]
  · rw [hrpc]
    exact processRpc_remembers (Nat.not_lt.mp hpast) hremembers (hroom rpc hdecode)

/-- One step. -/
theorem step {s : Node} {action : Action} (h : Lasts p messageId expiresUs config s.router)
    (hordered : action.Ordered s) (hroom : action.LeavesRoom config s) :
    Lasts p messageId expiresUs config (s.step config action).router := by
  have hagrees := s.step_agrees config action
  cases action with
  | start nowUs => exact h.of_later (start_agrees ..) (by decide) (hordered nowUs rfl)
  | close => exact h.of_later (close_agrees _) (by decide) (Nat.le_refl _)
  | drive nowUs answers => exact h.drive nowUs answers (hordered nowUs rfl)
  | receive i body => exact h.receive hroom
  | _ => exact h.of_agrees hagrees (by rw [Action.parts]; decide)

end Lasts

/-! ## Suppression -/

/-- What an IDONTWANT does to the queues: the copies of the messages that have not started are gone
    from the queue of the peer, and the other items keep their places. -/
structure TakenBack (config : Config) (p : Nat) (ids : List Span) (tx tx' : Tx) : Prop where
  drops : Tx.Drops config tx tx' p ((tx.items config p).filter fun i => !(tx.queue i).unwanted ids)
  gone : ∀ i ∈ tx'.items config p, (tx'.queue i).unwanted ids = false

/-- `gossipsub_forward_entry` queues nothing for the peer when the entry has the id, in any sound
    state with the table and the clock of `r`. -/
def NotForwarded (config : Config) (p : Nat) (messageId : Bytes) (r : Router) : Prop :=
  ∀ r', r'.idontwant = r.idontwant → txEffectiveNowUs r' = txEffectiveNowUs r →
    Transmits config r' → CacheInvariant config r' → ∀ source slot,
      (r'.mcache.entries slot).used = true → (r'.mcache.entries slot).messageId = messageId →
        r'.tx.SameQueue config (forwardEntry config source (r'.mcache.entries slot) r').2.tx p

section Runs

variable {config : RouterConfig} {p nowUs : Nat} {r r' : Router}

theorem processIdontwant_takesBack (h : Transmits config.toConfig r)
    (hp : p < config.capacity.maxPeers) (idontwant : ControlIdontwant)
    (hrun : processIdontwant config.toConfig p idontwant nowUs r = (.ok (), r')) :
    TakenBack config.toConfig p idontwant.messageIds r.tx r'.tx := by
  rw [processIdontwant_eq hp] at hrun
  have hdrops := processIdontwantIds_drops h hp idontwant idontwant.messageIds hrun
  refine ⟨hdrops, fun i hi => ?_⟩
  have hused : r'.tx.Used config.toConfig i := by
    have hkeeps : Comp.Keeps (Transmits config.toConfig) (Comp.forOk
        (processIdontwantId config.toConfig p idontwant nowUs) idontwant.messageIds) :=
      .forOk fun span _ => processIdontwantId_transmits idontwant span
    obtain ⟨written, hreached⟩ := hkeeps.of_run h hrun
    exact (hreached.transmitInv.queues.queued p hp i hi).1
  have hmem := hi
  rw [hdrops.self, List.mem_filter, Bool.not_eq_true'] at hmem
  rw [(hdrops.kept i hused).field_eq (TxItem.unwanted idontwant.messageIds) fun _ => rfl]
  exact hmem.2

/-- A peer is passed over while its entry is in the table. -/
theorem Lasts.notForwarded {expiresUs : Nat} {messageId : Bytes} (hp : p < config.capacity.maxPeers)
    (h : Lasts p messageId expiresUs config.toConfig r)
    (hnow : txEffectiveNowUs r ≤ expiresUs) : NotForwarded config.toConfig p messageId r := by
  intro r' htable hclock htransmits _ source slot _ hentry
  have hremembers : Remembers config.toConfig p messageId expiresUs r := by
    refine h.resolve_right fun hpast => ?_
    unfold txEffectiveNowUs at hnow
    rw [if_neg (by omega)] at hnow
    omega
  have hcontains := (hremembers.congr htable).contains (hclock ▸ hnow)
  exact (PassedOver.forwardEntry hp source hentry r'
    ⟨htransmits, hcontains, .refl config.toConfig r'.tx p⟩).same

/-- No message with an id that is too long is ever forwarded. -/
theorem notForwarded_of_long {messageId : Bytes}
    (hlen : config.limits.maxMessageIdBytes < messageId.length) (r : Router) :
    NotForwarded config.toConfig p messageId r := by
  intro r' _ _ _ hcache source slot hused hentry
  obtain ⟨m, hm, hholds⟩ := hcache.holds slot hused
  have hle := (hcache.messages m (List.mem_of_getElem? hm)).1.messageId_le
  rw [← hholds.messageId, hentry] at hle
  omega

end Runs

/-- The node after `gossipsub_process_idontwant`. -/
def Node.processIdontwant (config : Config) (p nowUs : Nat) (idontwant : ControlIdontwant)
    (s : Node) : Node :=
  { s with router := (Gossipsub.processIdontwant config p idontwant nowUs s.router).2 }

/-- What an IDONTWANT is for, when the node has run on: the queue has lost the copies of the
    messages, and until `idontwant_ttl_us` later none is forwarded to the peer. -/
structure IdontwantHonored (config : Config) (p nowUs : Nat) (idontwant : ControlIdontwant)
    (s : Node) (later : List Action) : Prop where
  takenBack : TakenBack config p idontwant.messageIds s.router.tx
    (s.processIdontwant config p nowUs idontwant).router.tx
  sound : Transmits config
      ((s.processIdontwant config p nowUs idontwant).run config later).router ∧
    CacheInvariant config ((s.processIdontwant config p nowUs idontwant).run config later).router
  notForwarded : ∀ messageId, .ptr messageId ∈ idontwant.messageIds →
    txEffectiveNowUs ((s.processIdontwant config p nowUs idontwant).run config later).router ≤
      nowUs + config.idontwantTtlUs →
    NotForwarded config p messageId
      ((s.processIdontwant config p nowUs idontwant).run config later).router

/-- After an IDONTWANT whose ids fit into the spare slots of the table, the unsent copies of the
    messages are gone from the queue of the peer, and as long as the RPCs that follow leave room as
    well, the messages are not forwarded to it until the entries expire. -/
theorem idontwant_suppresses (config : RouterConfig) (actions later : List Action) (p nowUs : Nat)
    (idontwant : ControlIdontwant) (hp : p < config.capacity.maxPeers)
    (hroom : idontwant.messageIds.length ≤
      spareSlots config.toConfig nowUs (Node.init.run config.toConfig actions).router)
    (hmax : nowUs + config.idontwantTtlUs ≤ uint64Max)
    (hlater : ((Node.init.run config.toConfig actions).processIdontwant config.toConfig p nowUs
      idontwant).Meets config.toConfig
        (fun s action => action.Ordered s ∧ action.LeavesRoom config.toConfig s) later) :
    IdontwantHonored config.toConfig p nowUs idontwant (Node.init.run config.toConfig actions)
      later := by
  have htransmits := Transmits.run config actions
  have hcache := @CacheInvariant.run config.toConfig actions
  generalize Node.init.run config.toConfig actions = s at hroom hlater htransmits hcache ⊢
  have hrun : processIdontwant config.toConfig p idontwant nowUs s.router =
      (.ok (), (s.processIdontwant config.toConfig p nowUs idontwant).router) := by
    obtain ⟨r', hids⟩ := @processIdontwantIds_ok config.toConfig p nowUs idontwant
      idontwant.messageIds s.router
    unfold Node.processIdontwant
    rw [processIdontwant_eq hp, hids]
  have hsound : Transmits config.toConfig
        (s.processIdontwant config.toConfig p nowUs idontwant).router ∧
      CacheInvariant config.toConfig
        (s.processIdontwant config.toConfig p nowUs idontwant).router :=
    ⟨(Transmits.processIdontwant _ _ _).of_run htransmits hrun,
      hcache.of_agrees ((processIdontwant_touches ..).of_run hrun) (by decide)⟩
  refine ⟨processIdontwant_takesBack htransmits hp idontwant hrun, ?_,
    fun messageId hmem hnow => ?_⟩
  · apply Lib.run_keeps (I := fun s : Node => Transmits config.toConfig s.router ∧
      CacheInvariant config.toConfig s.router) hlater hsound
    exact fun s action _ h => ⟨Transmits.comp s.received action s.router h.1, h.2.step⟩
  · by_cases hlen : messageId.length ≤ config.limits.maxMessageIdBytes
    · have hexpires : u64Add nowUs config.idontwantTtlUs = nowUs + config.idontwantTtlUs :=
        Nat.mod_eq_of_lt (Nat.lt_succ_of_le hmax)
      rw [processIdontwant_eq hp] at hrun
      obtain ⟨-, -, hnew⟩ := @processIdontwantIds_remembers _ _ _ _ _ idontwant _ 0 hroom hrun
      have hentered := hnew messageId hmem hlen (hexpires ▸ Nat.le_add_right _ _)
      rw [hexpires] at hentered
      refine Lasts.notForwarded hp ?_ hnow
      apply Lib.run_keeps (I := fun s : Node => Lasts p messageId (nowUs + config.idontwantTtlUs)
        config.toConfig s.router) hlater (.inl hentered)
      exact fun s action hmeets h => h.step hmeets.1 hmeets.2
    · exact notForwarded_of_long (Nat.not_le.mp hlen) _

/-- A message in the cache that waits for a report, while a peer is in the mesh of its topic. -/
def suppressionRun : List Action :=
  [.subscribe ⟨.ptr [7], .requireApp, true, 1⟩,
   .streamOpen 1 1 (.ok [1]) .outbound .v12,
   .streamOpen 2 2 (.ok [2]) .outbound .v12,
   .receive 1 [0x1a, 5, 0x1a, 3, 0x0a, 1, 7],
   .drive 1 fun _ => .ok 100,
   .receive 0 [0x12, 6, 0x12, 1, 9, 0x22, 1, 7]]

set_option maxRecDepth 8000 in
/-- The peer does not want two messages, one of which is in the cache; then the host drives the
    router. -/
theorem idontwant_suppresses_suppressionRun :
    IdontwantHonored RouterConfig.small.toConfig 1 1 ⟨[.ptr [1], .ptr [7, 9]]⟩
      (Node.init.run RouterConfig.small.toConfig suppressionRun) [.drive 2 fun _ => .ok 100] := by
  apply idontwant_suppresses RouterConfig.small suppressionRun
  · decide
  · decide +kernel
  · decide
  · exact ⟨⟨by decide +kernel, trivial⟩, trivial⟩

/-- The peers and ids of the entries that have not expired. -/
def unexpiredPairs (config : Config) (nowUs : Nat) (r : Router) : List (Nat × Bytes) :=
  ((List.range config.capacity.idontwantEntries).filter fun i => !(r.idontwant i).spare nowUs).map
    fun i => ((r.idontwant i).peerIndex, (r.idontwant i).messageId)

/-- The table has room for all these pairs and those of the ids, each counted once. -/
def RoomForPairs (config : Config) (p nowUs : Nat) (ids : List Span) (r : Router) : Prop :=
  (unexpiredPairs config nowUs r ++ ids.map fun span => (p, span.bytes)).dedup.length ≤
    config.capacity.idontwantEntries

instance (config : Config) (p nowUs : Nat) (ids : List Span) (r : Router) :
    Decidable (RoomForPairs config p nowUs ids r) :=
  inferInstanceAs (Decidable
    ((unexpiredPairs config nowUs r ++ ids.map fun span => (p, span.bytes)).dedup.length ≤
      config.capacity.idontwantEntries))

/-- The entries of the table have room. -/
theorem roomForPairs_nil (config : Config) (p nowUs : Nat) (r : Router) :
    RoomForPairs config p nowUs [] r := by
  unfold RoomForPairs unexpiredPairs
  rw [List.map_nil, List.append_nil]
  refine (List.Sublist.length_le (List.dedup_sublist _)).trans ?_
  rw [List.length_map]
  exact (List.length_filter_le ..).trans_eq List.length_range

/-- An RPC leaves the table with room for all pairs. -/
def Action.RoomForPairs (config : Config) (s : Node) : Action → Prop
  | .receive i body => ∀ rpc,
      rpcBodyDecode (s.router.streams i).version config.limits decodeStorage body = .ok rpc →
      Gossipsub.RoomForPairs config (s.router.streams i).peerIndex s.router.lastDriveUs rpc.declined
        s.router
  | _ => True

set_option maxRecDepth 8000 in
/-- An id that is twice in the list takes two slots of a table of two; the second one was that of
    the message in the cache, which is forwarded. -/
theorem idontwant_not_suppresses : ¬ ∀ (config : RouterConfig) (actions later : List Action)
    (p nowUs : Nat) (idontwant : ControlIdontwant), p < config.capacity.maxPeers →
      Node.init.Meets config.toConfig
        (fun s action => action.Ordered s ∧ action.RoomForPairs config.toConfig s) actions →
      (Node.init.run config.toConfig actions).router.lastDriveUs ≤ nowUs →
      RoomForPairs config.toConfig p nowUs idontwant.messageIds
        (Node.init.run config.toConfig actions).router →
      ((Node.init.run config.toConfig actions).processIdontwant config.toConfig p nowUs
        idontwant).Meets config.toConfig
          (fun s action => action.Ordered s ∧ action.RoomForPairs config.toConfig s) later →
      IdontwantHonored config.toConfig p nowUs idontwant (Node.init.run config.toConfig actions)
        later := by
  intro h
  have hsuppressed := h RouterConfig.small suppressionRun [] 1 1
    ⟨[.ptr [1], .ptr [7, 9], .ptr [1]]⟩ (by decide) ?_ (by decide +kernel) (by decide +kernel)
    trivial
  · have hsame := (hsuppressed.notForwarded [7, 9] (by decide) (by decide +kernel)) _ rfl rfl
      hsuppressed.sound.1 hsuppressed.sound.2 0 0 (by decide +kernel) (by decide +kernel)
    have hitems := hsame.items
    revert hitems
    decide +kernel
  · -- The two RPCs of the run bring no ids.
    have hnone (version : ProtocolVersion) :
        ((rpcBodyDecode version RouterConfig.small.limits decodeStorage
          [0x1a, 5, 0x1a, 3, 0x0a, 1, 7]).toOption.map Rpc.declined).getD [] = [] ∧
        ((rpcBodyDecode version RouterConfig.small.limits decodeStorage
          [0x12, 6, 0x12, 1, 9, 0x22, 1, 7]).toOption.map Rpc.declined).getD [] = [] := by
      cases version <;> decide +kernel
    have hreceive (s : Node) (i : Nat) (body : Bytes) (hbody : ∀ version,
        ((rpcBodyDecode version RouterConfig.small.limits decodeStorage body).toOption.map
          Rpc.declined).getD [] = []) : (Action.receive i body).Ordered s ∧
            (Action.receive i body).RoomForPairs RouterConfig.small.toConfig s := by
      refine ⟨nofun, fun rpc hdecode => ?_⟩
      have hids := hbody (s.router.streams i).version
      rw [hdecode] at hids
      change rpc.declined = [] at hids
      rw [hids]
      exact roomForPairs_nil _ _ _ _
    exact ⟨⟨nofun, trivial⟩, ⟨nofun, trivial⟩, ⟨nofun, trivial⟩,
      hreceive _ _ _ fun v => (hnone v).1, ⟨by decide +kernel, trivial⟩,
      hreceive _ _ _ fun v => (hnone v).2, trivial⟩

end LeanLibp2p.Gossipsub
