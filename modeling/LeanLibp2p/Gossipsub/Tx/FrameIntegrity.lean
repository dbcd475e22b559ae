import LeanLibp2p.Gossipsub.Tx.Frames

/-!
# Frames on a writer stream

Every action on the transmit side keeps the invariant of the frames, unless it puts a frame in
front of one that is half written; so a run without such an action leaves whole frames on every
stream.
-/

namespace LeanLibp2p.Gossipsub

open LeanLibp2p.Lib

variable {config : Config} {s : TxSystem}
variable (peers : Nat → Peer)

/-! ## Flushing -/

/-- Frames wait only for peers with a writer. -/
def Silent (config : Config) (peers : Nat → Peer) (q : Nat → List Nat) : Prop :=
  ∀ p < config.capacity.maxPeers, (peers p).stream = none → q p = []

theorem Silent.erase {peers : Nat → Peer} {q : Nat → List Nat}
    (h : Silent config peers q) (i : Nat) : Silent config peers fun p => (q p).erase i := by
  intro p hp hnone
  dsimp only
  rw [h p hp hnone, List.erase_nil]

/-- The invariant between two actions. -/
def SystemInv (config : Config) (s : TxSystem) : Prop :=
  ∃ q, FrameInv config s q ∧ Silent config s.peers q

/-- The invariant while frames are written. -/
def FlushInv (config : Config) (s : TxSystem) (f : FlushState) : Prop :=
  SystemInv config (s.during f)

/-- A step of a flush that writes nothing. -/
theorem FlushInv.of_frameInv {f f' : FlushState}
    {q : Nat → List Nat} (h : FrameInv config { s.during f with tx := f'.tx } q)
    (hsilent : Silent config s.peers q) (hwrites : f'.writes = f.writes) :
    FlushInv config s f' := by
  refine ⟨q, ?_, hsilent⟩
  have hduring : s.during f' = { s.during f with tx := f'.tx } := by
    unfold TxSystem.during
    rw [hwrites]
  rw [hduring]
  exact h

theorem FlushInv.schedules {f f' : FlushState}
    (h : FlushInv config s f) (hs : Tx.Schedules f.tx f'.tx) (hwrites : f'.writes = f.writes) :
    FlushInv config s f' := by
  rcases h with ⟨q, hq, hsilent⟩
  exact FlushInv.of_frameInv (hq.schedules hs) hsilent hwrites

theorem FlushState.block_schedules (config : Config) (peers : Nat → Peer) (p : Nat)
    (f : FlushState) : Tx.Schedules f.tx (f.block config peers p).tx :=
  (Tx.Schedules.setPeer f.tx p (f.tx.peer p).queueLimitReported (f.tx.peer p).ready true).trans
    (txSetPeerReady_schedules ..)

/-- What the host takes of the frame at the head is the next part of that frame. -/
theorem FrameInv.during_accept {f : FlushState}
    {q : Nat → List Nat} (h : FrameInv config (s.during f) q) {p stream i n : Nat}
    (hp : (s.peers p).stream = some stream) (hhead : (q p).head? = some i)
    (hn : n ≤ (f.tx.queue i).len - (f.tx.queue i).pos) :
    FrameInv config (s.during (f.accept stream i n)) q := by
  unfold FlushState.accept
  split
  · have hused : f.tx.Used config i :=
      (h.tx.queued p (h.inside p stream hp) i (List.mem_of_head? hhead)).1
    have hpos : (f.tx.queue i).pos ≤ (f.tx.queue i).len := h.tx.buffer.pos_le i hused
    refine h.accept hp hhead (n := n) ?_ ?_
    · change (f.tx.queue i).pos + n ≤ (f.tx.queue i).len
      omega
    · intro r
      by_cases hr : r = stream
      · subst hr
        simp [TxSystem.during, TxSystem.sentBytes]
      · have hne : stream ≠ r := fun heq => hr heq.symm
        simp [TxSystem.during, TxSystem.sentBytes, hr, hne]
  · exact h

theorem flushItem_inv {f f' : FlushState} {q : Nat → List Nat}
    (h : FrameInv config (s.during f) q) (hsilent : Silent config s.peers q)
    {answers : WriteAnswers} {p stream i : Nat} (hp : (s.peers p).stream = some stream)
    (hhead : (q p).head? = some i) {result : Except GossipsubErr Bool}
    (hstep : flushItem config s.peers answers p stream i f = (result, f')) :
    FlushInv config s f' := by
  unfold flushItem at hstep
  dsimp only at hstep
  split at hstep
  · split at hstep
    · cases hstep
      exact FlushInv.schedules ⟨q, h, hsilent⟩ (FlushState.block_schedules config s.peers p f) rfl
    · cases hstep
      exact ⟨q, h, hsilent⟩
  · rename_i n _
    let f₁ : FlushState := { f with calls := f.calls + 1 }
    have h₁ : FrameInv config (s.during f₁) q := h
    have haccept := h₁.during_accept (n := min n ((f.tx.queue i).len - (f.tx.queue i).pos)) hp hhead
      (Nat.min_le_right ..)
    change (if ((f₁.accept stream i _).tx.queue i).pos = ((f₁.accept stream i _).tx.queue i).len then
      _ else _) = _ at hstep
    generalize f₁.accept stream i (min n ((f.tx.queue i).len - (f.tx.queue i).pos)) = f₂
      at hstep haccept
    have hmem : i ∈ q p := List.mem_of_head? hhead
    rcases haccept.tx.queued p (haccept.inside p stream hp) i hmem with ⟨hused, hpeer, -⟩
    split at hstep
    · rename_i hdone
      cases hstep
      refine FlushInv.of_frameInv (f := f₂) (haccept.remove s.peers hused (.inr (.inr ⟨?_, hdone⟩)))
        (hsilent.erase i) rfl
      rw [hpeer]
      exact hhead
    · split at hstep
      · cases hstep
        exact FlushInv.schedules ⟨q, haccept, hsilent⟩ (FlushState.block_schedules config s.peers p f₂) rfl
      · cases hstep
        exact ⟨q, haccept, hsilent⟩

/-- One round of the loop of `gossipsub_flush_peer`. -/
theorem flushStep_keeps (answers : WriteAnswers) {p stream : Nat}
    (nowUs : Nat) (hp : (s.peers p).stream = some stream) :
    Comp.Keeps (FlushInv config s) (flushStep config s.peers answers p stream nowUs) := by
  intro f h
  rcases hstep : flushStep config s.peers answers p stream nowUs f with ⟨result, f'⟩
  change FlushInv config s f'
  unfold flushStep at hstep
  split at hstep
  · cases hstep
    exact h
  rcases h with ⟨q, hq, hsilent⟩
  have hqueue := hq.tx.queue p (hq.inside p stream hp)
  split at hstep
  · cases hstep
    exact FlushInv.schedules ⟨q, hq, hsilent⟩ (txSetPeerReady_schedules ..) rfl
  · rename_i i hi
    have hhead : (q p).head? = some i := by
      rw [← hqueue.head_eq]
      exact hi
    split at hstep
    · cases hstep
      exact FlushInv.schedules ⟨q, hq, hsilent⟩ (txSetPeerReady_schedules ..) rfl
    · split at hstep
      · rename_i hstale
        cases hstep
        have hused : f.tx.Used config i :=
          (hq.tx.queued p (hq.inside p stream hp) i (List.mem_of_head? hhead)).1
        have hzero : (f.tx.queue i).pos = 0 := by
          simp only [txItemStale, Bool.and_eq_true, decide_eq_true_eq] at hstale
          exact hstale.1.2
        exact FlushInv.of_frameInv (f := f) (hq.remove s.peers hused (.inl hzero))
          (hsilent.erase i) rfl
      · exact flushItem_inv hq hsilent hp hhead hstep

theorem flushLoop_keeps (config : Config) {s : TxSystem} (answers : WriteAnswers) {p stream : Nat}
    (nowUs : Nat) (hp : (s.peers p).stream = some stream) (fuel : Nat) :
    Comp.Keeps (FlushInv config s) (flushLoop config s.peers answers p stream nowUs fuel) := by
  induction fuel with
  | zero => exact Comp.Keeps.pure ()
  | succ fuel ih =>
    refine Comp.Keeps.bind (flushStep_keeps answers nowUs hp) fun keepWriting => ?_
    exact Comp.Keeps.ite (fun _ => ih) fun _ => Comp.Keeps.pure ()

theorem flushPeer_keeps (config : Config) (s : TxSystem) (answers : WriteAnswers) (p nowUs : Nat) :
    Comp.Keeps (FlushInv config s) (flushPeer config s.peers answers p nowUs) := by
  intro f h
  unfold flushPeer
  split
  · exact h
  · split
    · exact h.schedules (txSetPeerReady_schedules ..) rfl
    · rename_i stream hp
      have hloop := flushLoop_keeps config answers nowUs hp
        (f.tx.queueLen + f.tx.bufferUsed + 1) { f with bytesWritten := 0, peerBlocked := false } h
      dsimp only at hloop ⊢
      generalize (flushLoop config s.peers answers p stream nowUs _ _).2 = f' at hloop
      unfold flushSettle
      split
      · exact hloop.schedules (txSetPeerReady_schedules ..) rfl
      · exact hloop

theorem flushReadyLoop_keeps (config : Config) (s : TxSystem) (answers : WriteAnswers)
    (nowUs fuel : Nat) :
    Comp.Keeps (FlushInv config s) (flushReadyLoop config s.peers answers nowUs fuel) := by
  induction fuel with
  | zero => exact Comp.Keeps.pure ()
  | succ fuel ih =>
    intro f h
    rw [flushReadyLoop]
    dsimp only
    split
    · exact h
    · have hnext : FlushInv config s { f with tx := { f.tx with
          nextPeer := (f.tx.nextPeer + 1) % config.capacity.maxPeers } } :=
        h.schedules ⟨rfl, rfl, rfl, rfl, fun _ => ⟨_, _, _, rfl⟩⟩ rfl
      split
      · exact Comp.Keeps.bind (flushPeer_keeps config s answers _ nowUs) (fun _ => ih) _ hnext
      · exact ih _ hnext

theorem FlushInv.start (h : SystemInv config s) : FlushInv config s s.flushState := by
  have hduring : s.during s.flushState = s := by
    unfold TxSystem.during TxSystem.flushState
    simp [TxSystem.sentBytes]
  unfold FlushInv
  rw [hduring]
  exact h

/-! ## Dropping -/

theorem txRemove_of_unused {tx : Tx} {i : Nat}
    (hi : ¬ tx.Used config i) : txRemove config peers tx i = tx := by
  unfold txRemove
  exact if_neg hi

/-- A frame of which nothing was accepted may be dropped. -/
theorem SystemInv.drop {tx : Tx}
    (h : SystemInv config { s with tx := tx }) (peers : Nat → Peer) {i : Nat}
    (hpos : (tx.queue i).pos = 0) :
    SystemInv config { s with tx := txRemove config peers tx i } := by
  rcases h with ⟨q, hq, hsilent⟩
  by_cases hi : tx.Used config i
  · exact ⟨_, hq.remove peers hi (.inl hpos), hsilent.erase i⟩
  · rw [txRemove_of_unused peers hi]
    exact ⟨q, hq, hsilent⟩

theorem txDropStaleLoop_drops (nowUs : Nat)
    (fuel : Nat) (start : Option Nat) {tx : Tx} (h : SystemInv config { s with tx := tx }) :
    SystemInv config
      { s with tx := txDropStaleLoop config peers nowUs fuel start tx } := by
  induction fuel generalizing start tx with
  | zero => exact h
  | succ fuel ih =>
    cases start with
    | none => exact h
    | some i =>
      rw [txDropStaleLoop]
      split
      · exact h
      · apply ih
        split
        · rename_i hstale
          simp only [txItemStale, Bool.and_eq_true, decide_eq_true_eq] at hstale
          exact h.drop peers hstale.1.2
        · exact h

theorem txDropStale_drops (nowUs : Nat) {tx : Tx} (h : SystemInv config { s with tx := tx }) :
    SystemInv config { s with tx := txDropStale config peers nowUs tx } := by
  unfold txDropStale
  generalize List.range config.capacity.maxPeers = ps
  induction ps generalizing tx with
  | nil => exact h
  | cons p ps ih => exact ih (txDropStaleLoop_drops peers nowUs _ _ h)

theorem dropQueuedPublishLoop_drops (messageId : Bytes) (fuel : Nat) (start : Option Nat) {tx : Tx}
    (h : SystemInv config { s with tx := tx }) :
    SystemInv config
      { s with tx := dropQueuedPublishLoop config peers messageId fuel start tx } := by
  induction fuel generalizing start tx with
  | zero => exact h
  | succ fuel ih =>
    cases start with
    | none => exact h
    | some i =>
      rw [dropQueuedPublishLoop]
      apply ih
      split
      · rename_i hmatch
        exact h.drop peers hmatch.2.1
      · exact h

theorem dropQueuedPublish_drops (p : Nat)
    (messageId : Span) {tx : Tx} (h : SystemInv config { s with tx := tx }) :
    SystemInv config { s with tx := dropQueuedPublish config peers p messageId tx } := by
  unfold dropQueuedPublish
  split
  · exact dropQueuedPublishLoop_drops peers _ _ _ h
  · exact h

/-! ## Writers come and go -/

theorem FrameInv.openWriter {q : Nat → List Nat}
    (h : FrameInv config s q) {p stream : Nat} (hp : p < config.capacity.maxPeers)
    (hfresh : stream ∉ s.writers) (hempty : q p = []) {peer : Peer}
    (hpeer : peer.stream = some stream) :
    FrameInv config { s with
      peers := Function.update s.peers p peer
      writers := stream :: s.writers } q := by
  have hself : (Function.update s.peers p peer p).stream = some stream := by
    rw [Function.update_self, hpeer]
  have hother : ∀ r, r ≠ p → (Function.update s.peers p peer r).stream = (s.peers r).stream := by
    intro r hr
    rw [Function.update_of_ne hr]
  have hnew : ∀ r, (s.peers r).stream ≠ some stream := fun r hr => hfresh (h.known r stream hr)
  refine { h with
    tx := h.tx
    known := ?_
    own := ?_
    unused := ?_
    inside := ?_
    current := ?_
    past := ?_ }
  · intro r st hr
    by_cases hrp : r = p
    · subst hrp
      rw [hself] at hr
      simp [Option.some.inj hr]
    · rw [hother r hrp] at hr
      exact List.mem_cons_of_mem _ (h.known r st hr)
  · intro r r' st hr hr'
    by_cases hrp : r = p
    · by_cases hrp' : r' = p
      · rw [hrp, hrp']
      · rw [hrp, hself] at hr
        rw [hother r' hrp', ← hr] at hr'
        exact absurd hr' (hnew r')
    · by_cases hrp' : r' = p
      · rw [hrp', hself] at hr'
        rw [hother r hrp, ← hr'] at hr
        exact absurd hr (hnew r)
      · rw [hother r hrp] at hr
        rw [hother r' hrp'] at hr'
        exact h.own r r' st hr hr'
  · intro st hst
    exact h.unused st fun hmem => hst (List.mem_cons_of_mem _ hmem)
  · intro r st hr
    by_cases hrp : r = p
    · rw [hrp]
      exact hp
    · rw [hother r hrp] at hr
      exact h.inside r st hr
  · intro r st hr
    by_cases hrp : r = p
    · subst hrp
      rw [hself] at hr
      obtain rfl : stream = st := Option.some.inj hr
      refine ⟨[], ⟨List.nodup_nil, by simp, by simp⟩, ?_⟩
      rw [hempty]
      exact h.unused stream hfresh
    · rw [hother r hrp] at hr
      rcases h.current r st hr with ⟨done, hdone, hsent⟩
      exact ⟨done, ⟨hdone.nodup, hdone.known, hdone.gone⟩, hsent⟩
  · intro st hst
    exact h.integrity st

/-- A peer whose writer is gone keeps its frames for a moment. -/
theorem FrameInv.loseWriter {q : Nat → List Nat}
    (h : FrameInv config s q) (p : Nat) {peer : Peer} (hpeer : peer.stream = none) :
    FrameInv config { s with peers := Function.update s.peers p peer } q := by
  have hold : ∀ r st, (Function.update s.peers p peer r).stream = some st →
      (s.peers r).stream = some st := by
    intro r st hr
    by_cases hrp : r = p
    · rw [hrp, Function.update_self, hpeer] at hr
      cases hr
    · rw [Function.update_of_ne hrp] at hr
      exact hr
  refine { h with
    tx := h.tx
    known := fun r st hr => h.known r st (hold r st hr)
    own := fun r r' st hr hr' => h.own r r' st (hold r st hr) (hold r' st hr')
    inside := fun r st hr => h.inside r st (hold r st hr)
    current := ?_
    past := fun st _ => h.integrity st }
  intro r st hr
  rcases h.current r st (hold r st hr) with ⟨done, hdone, hsent⟩
  exact ⟨done, ⟨hdone.nodup, hdone.known, hdone.gone⟩, hsent⟩

/-- `gossipsub_drop_queued_peer` empties the queue of the peer. -/
theorem dropQueuedPeerLoop_empties {p : Nat}
    (hp : p < config.capacity.maxPeers) (hnone : (s.peers p).stream = none) (fuel : Nat) {tx : Tx}
    {q : Nat → List Nat} (h : FrameInv config { s with tx := tx } q)
    (hfuel : (q p).length ≤ fuel) :
    ∃ q', FrameInv config { s with tx := dropQueuedPeerLoop config peers p fuel tx } q' ∧
      q' p = [] ∧ ∀ r, q r = [] → q' r = [] := by
  induction fuel generalizing tx q with
  | zero => exact ⟨q, h, List.eq_nil_of_length_eq_zero (Nat.le_zero.mp hfuel), fun _ hr => hr⟩
  | succ fuel ih =>
    rw [dropQueuedPeerLoop]
    have hqueue := h.tx.queue p hp
    split
    · rename_i hhead
      refine ⟨q, h, ?_, fun _ hr => hr⟩
      exact hqueue.linked.eq_nil_iff.mp hhead
    · rename_i i hhead
      have hhead' : (q p).head? = some i := by
        rw [← hqueue.head_eq]
        exact hhead
      have hmem : i ∈ q p := List.mem_of_head? hhead'
      rcases h.tx.queued p hp i hmem with ⟨hused, hpeer, -⟩
      have hremove := h.remove peers hused (.inr (.inl (by rw [hpeer]; exact hnone)))
      have hlen : ((q p).erase i).length ≤ fuel := by
        rw [List.length_erase_of_mem hmem]
        omega
      rcases ih hremove hlen with ⟨q', hq', hempty, hothers⟩
      refine ⟨q', hq', hempty, fun r hr => hothers r ?_⟩
      rw [hr, List.erase_nil]

theorem SystemInv.closeWriter (h : SystemInv config s) {p : Nat}
    (hp : p < config.capacity.maxPeers) {peer : Peer} (hpeer : peer.stream = none) :
    SystemInv config { s with
      peers := Function.update s.peers p peer
      tx := dropQueuedPeer config s.peers p s.tx } := by
  rcases h with ⟨q, hq, hsilent⟩
  have hlost := hq.loseWriter p hpeer
  have hlen := (hq.tx.live hp).length_le (hq.tx.queue p hp).nodup
  have hnone : (Function.update s.peers p peer p).stream = none := by
    rw [Function.update_self, hpeer]
  rcases dropQueuedPeerLoop_empties (s := { s with peers := Function.update s.peers p peer })
    s.peers hp hnone config.capacity.maxTxRpcQueue hlost hlen with ⟨q', hq', hempty, hothers⟩
  unfold dropQueuedPeer
  rw [if_pos hp]
  refine ⟨q', hq'.schedules ((txSetPeerReady_schedules ..).trans (Tx.Schedules.setPeer _ p _ _ _)),
    ?_⟩
  intro r hr hstream
  by_cases hrp : r = p
  · rw [hrp]
    exact hempty
  · dsimp only at hstream
    rw [Function.update_of_ne hrp] at hstream
    exact hothers r (hsilent r hr hstream)

/-! ## Runs -/

/-- An accepted frame with priority does not come before a normal frame that is half written. -/
def TxAction.Allowed (config : Config) (s : TxSystem) : TxAction → Prop
  | .enqueue p rpc lifetimeUs priority nowUs =>
    priority = true → (∃ i, (enqueueRpcWithLifetime config s.peers p rpc lifetimeUs priority nowUs
      s.tx).1 = .ok i) → s.PriorityMayEnter p
  | .enqueuePublish p rpc messageId lifetimeUs priority nowUs =>
    priority = true → (∃ i, (enqueuePublishWithLifetime config s.peers p rpc messageId lifetimeUs
      priority nowUs s.tx).1 = .ok i) → s.PriorityMayEnter p
  | _ => True

/-- Every step of a run is allowed. -/
abbrev TxSystem.AllowedRun (config : Config) (s : TxSystem) (actions : List TxAction) : Prop :=
  Lib.RunMeets (TxSystem.step config) (fun s action => action.Allowed config s) s actions

theorem SystemInv.enqueue (h : SystemInv config s)
    (hfits : config.capacity.txBufferBytes ≤ ptrdiffMax) {p lifetimeUs nowUs : Nat} {rpc : Rpc}
    {priority : Bool} (hallowed : priority = true → (∃ i, (enqueueRpcWithLifetime config s.peers p
      rpc lifetimeUs priority nowUs s.tx).1 = .ok i) → s.PriorityMayEnter p) :
    SystemInv config
      (s.enqueued (enqueueRpcWithLifetime config s.peers p rpc lifetimeUs priority nowUs s.tx)) := by
  rcases h with ⟨q, hq, hsilent⟩
  rcases hres : enqueueRpcWithLifetime config s.peers p rpc lifetimeUs priority nowUs s.tx with
    ⟨result, tx⟩
  rw [hres] at hallowed
  have hspec := enqueueRpcWithLifetime_spec hq.tx hfits hres
  cases result with
  | error e =>
    rcases hspec.1 e rfl with ⟨htx, hkeeps⟩
    exact ⟨q, hq.keeps htx fun i hi => ⟨(hkeeps i hi).pos_eq, (hkeeps i hi).2⟩, hsilent⟩
  | ok i =>
    rcases hspec.2 i rfl with ⟨htx, henq⟩
    refine ⟨_, hq.enqueue htx henq fun hprio => hallowed hprio ⟨i, rfl⟩, ?_⟩
    intro r hr hstream
    by_cases hrp : r = p
    · subst hrp
      exact absurd hstream henq.writer
    · rw [Function.update_of_ne hrp]
      exact hsilent r hr hstream

theorem SystemInv.enqueuePublish (h : SystemInv config s)
    (hfits : config.capacity.txBufferBytes ≤ ptrdiffMax) {p lifetimeUs nowUs : Nat} {rpc : Rpc}
    {messageId : Bytes} {priority : Bool}
    (hallowed : priority = true → (∃ i, (enqueuePublishWithLifetime config s.peers p rpc messageId
      lifetimeUs priority nowUs s.tx).1 = .ok i) → s.PriorityMayEnter p) :
    SystemInv config (s.enqueued (enqueuePublishWithLifetime config s.peers p rpc messageId
      lifetimeUs priority nowUs s.tx)) := by
  unfold enqueuePublishWithLifetime at hallowed ⊢
  rcases hres : enqueueRpcWithLifetime config s.peers p rpc lifetimeUs priority nowUs s.tx with
    ⟨result, tx⟩
  rw [hres] at hallowed
  have henqueue := @SystemInv.enqueue config s h hfits p lifetimeUs nowUs rpc priority
  rw [hres] at henqueue
  cases result with
  | error e => exact henqueue fun _ hok => nomatch hok
  | ok i =>
    rcases henqueue fun hprio _ => hallowed hprio ⟨i, rfl⟩ with ⟨q, hq, hsilent⟩
    let item : TxItem := { tx.queue i with publish := true, messageId := messageId }
    have hinv : TxInv config (tx.setItem i item) q none :=
      hq.tx.setItem _ rfl rfl rfl rfl rfl rfl fun hused => hq.tx.buffer.pos_le i hused
    have hitem : ∀ j, ((tx.setItem i item).queue j).pos = (tx.queue j).pos ∧
        (tx.setItem i item).content j = tx.content j := by
      intro j
      unfold Tx.content
      by_cases hj : j = i
      · rw [hj, Tx.setItem_self]
        exact ⟨rfl, rfl⟩
      · rw [Tx.setItem_of_ne _ _ hj]
        exact ⟨rfl, rfl⟩
    have hframe : s.enqueued (.ok i, tx.setItem i item) =
        { s.enqueued (.ok i, tx) with tx := tx.setItem i item } := by
      unfold TxSystem.enqueued
      simp only [(hitem i).2]
    change SystemInv config (s.enqueued (.ok i, tx.setItem i item))
    rw [hframe]
    exact ⟨q, hq.keeps hinv fun j _ => hitem j, hsilent⟩

/-- Every allowed step keeps the invariant. -/
theorem SystemInv.step {config : RouterConfig} {s : TxSystem} (h : SystemInv config.toConfig s)
    {action : TxAction} (hallowed : action.Allowed config.toConfig s) :
    SystemInv config.toConfig (s.step config.toConfig action) := by
  cases action with
  | enqueue p rpc lifetimeUs priority nowUs => exact h.enqueue config.txBufferBytes_le hallowed
  | enqueuePublish p rpc messageId lifetimeUs priority nowUs =>
    exact h.enqueuePublish config.txBufferBytes_le hallowed
  | dropPublish p messageId => exact dropQueuedPublish_drops s.peers p messageId h
  | dropStale nowUs => exact txDropStale_drops s.peers nowUs h
  | flushPeer p nowUs answers =>
    exact flushPeer_keeps config.toConfig s answers p nowUs _ (FlushInv.start h)
  | flushReadyPeers nowUs answers =>
    exact flushReadyLoop_keeps config.toConfig s answers nowUs _ _ (FlushInv.start h)
  | markReady p =>
    rcases h with ⟨q, hq, hsilent⟩
    exact ⟨q, hq.schedules (txMarkPeerReady_schedules ..), hsilent⟩
  | openWriter p stream version =>
    rw [TxSystem.step]
    split
    · rename_i hguard
      rcases hguard with ⟨hp, hnone, hfresh⟩
      rcases h with ⟨q, hq, hsilent⟩
      refine ⟨q, (hq.openWriter hp hfresh (hsilent p hp hnone) rfl).schedules
        (Tx.Schedules.setPeer s.tx p _ _ _), ?_⟩
      intro r hr hstream
      by_cases hrp : r = p
      · subst hrp
        exact hsilent r hr hnone
      · dsimp only at hstream
        rw [Function.update_of_ne hrp] at hstream
        exact hsilent r hr hstream
    · exact h
  | closeWriter p =>
    rw [TxSystem.step]
    split
    · rename_i hp
      exact h.closeWriter hp rfl
    · exact h

theorem SystemInv.init (config : Config) : SystemInv config TxSystem.init := by
  have hunused : ∀ i, ¬ TxSystem.init.tx.Used config i := by
    intro i hi
    cases hi.2
  have hslots : TxSystem.init.tx.usedSlots config = [] := by
    rw [List.eq_nil_iff_forall_not_mem]
    intro i hi
    exact hunused i (Tx.mem_usedSlots.mp hi)
  refine ⟨fun _ => [], ⟨⟨?_, ?_, ?_, ?_, ?_, ?_⟩, ?_, ?_, ?_, ?_, ?_, ?_, ?_, ?_, ?_, ?_⟩, ?_⟩
  · exact fun p _ => PeerQueue.of_empty rfl rfl rfl rfl rfl
  · exact fun i hi => absurd hi (hunused i)
  · intro p _ i hi
    cases hi
  · intro i hi
    cases hi
  · rw [hslots]
    rfl
  · exact ⟨fun i hi => absurd hi (hunused i), fun i hi => absurd hi (hunused i),
      fun i _ hi => absurd hi (hunused i), Nat.zero_le _⟩
  · intro p _ i hi
    cases hi
  · exact fun i hi => absurd hi (hunused i)
  · exact fun i _ hi => absurd hi (hunused i)
  · intro frame hframe
    cases hframe
  · intro p stream hp
    cases hp
  · intro p r stream hp
    cases hp
  · intro stream _
    rfl
  · intro p stream hp
    cases hp
  · intro p stream hp
    cases hp
  · intro stream _
    refine ⟨by simp [TxSystem.init], [], 0, [], by simp, by simp, List.nil_prefix, rfl⟩
  · intro p _ _
    rfl

theorem SystemInv.run {config : RouterConfig} {s : TxSystem} {actions : List TxAction}
    (h : SystemInv config.toConfig s) (hallowed : s.AllowedRun config.toConfig actions) :
    SystemInv config.toConfig (s.run config.toConfig actions) :=
  Lib.run_keeps hallowed h fun _ _ hstep hs => hs.step hstep

/-- In a run that never puts a priority frame before a normal frame that is half written, every
    writer stream carries whole frames one after the other. A moment within a flush is the end of
    the run whose last flush meets an error at that point. -/
theorem frameIntegrity_of_allowedRun (config : RouterConfig) (actions : List TxAction)
    (hallowed : TxSystem.init.AllowedRun config.toConfig actions) (stream : Nat) :
    FrameIntegrity config.toConfig (TxSystem.init.run config.toConfig actions) stream := by
  rcases (SystemInv.init config.toConfig).run hallowed with ⟨q, hq, -⟩
  exact hq.integrity stream

/-- A subscription to the topic with the one byte `topic`. -/
def subscriptionRpc (topic : UInt8) : Rpc := ⟨[⟨.ptr [topic], 1⟩], [], .zero⟩

/-- A host that takes the first `n` bytes and no more. -/
def takesFirst (n : Nat) : WriteAnswers := fun call => if call = 0 then .ok n else .error .wouldBlock

/-- A normal frame is written in part, a frame with priority passes it, and the rest is written. -/
def overtakingRun : List TxAction :=
  [.openWriter 0 5 .v11, .enqueue 0 (subscriptionRpc 7) 0 false 1, .flushPeer 0 2 (takesFirst 2),
    .enqueue 0 (subscriptionRpc 8) 0 true 3, .markReady 0, .flushPeer 0 4 fun _ => .ok 100]

/-- What the host took in the overtaking run: two bytes of the first frame, the second frame, and
    the rest of the first. -/
theorem overtakingRun_sent :
    (TxSystem.init.run RouterConfig.small.toConfig overtakingRun).sent 5 =
      [(0, 7), (0, 10), (1, 7), (1, 10), (1, 5), (1, 8), (1, 1), (1, 18), (1, 1), (1, 8), (0, 5),
        (0, 8), (0, 1), (0, 18), (0, 1), (0, 7)] := by
  decide

/-- The overtaking run mixes the bytes of two frames. -/
theorem frameIntegrity_overtaken : ¬ ∀ (config : RouterConfig) (actions : List TxAction)
    (stream : Nat),
    FrameIntegrity config.toConfig (TxSystem.init.run config.toConfig actions) stream := by
  intro h
  rcases h .small overtakingRun 5 with ⟨-, done, last, rest, -, hknown, hrest, hsent⟩
  have hframes : (TxSystem.init.run RouterConfig.small.toConfig overtakingRun).frames =
      [[7, 10, 5, 8, 1, 18, 1, 7], [7, 10, 5, 8, 1, 18, 1, 8]] := by decide
  rw [overtakingRun_sent] at hsent
  generalize TxSystem.init.run RouterConfig.small.toConfig overtakingRun = s at *
  -- the first eight bytes belong to two frames, whatever frame comes first
  have htags : ∀ t n, (s.tagged t).take n ≠ [(0, 7), (0, 10), (1, 7)] := by
    intro t n heq
    have htag : ∀ x ∈ (s.tagged t).take n, x.1 = t := by
      intro x hx
      rcases List.mem_map.mp (List.mem_of_mem_take hx) with ⟨b, -, rfl⟩
      rfl
    rw [heq] at htag
    have h0 := htag (0, 7) (by simp)
    have h1 := htag (1, 7) (by simp)
    omega
  cases done with
  | nil =>
    rcases hrest with ⟨tail, htail⟩
    apply htags last 3
    rw [← htail, ← List.nil_append rest]
    change List.take 3 (List.flatMap s.tagged [] ++ rest ++ tail) = _
    rw [← hsent]
    rfl
  | cons t done =>
    apply htags t 3
    have hlen : 3 ≤ (s.tagged t).length := by
      have ht := hknown t (by simp)
      rw [TxSystem.tagged_length, TxSystem.frame, hframes]
      rw [hframes] at ht
      have htwo : t = 0 ∨ t = 1 := by
        change t < 2 at ht
        omega
      rcases htwo with rfl | rfl <;> decide
    rw [List.flatMap_cons, List.append_assoc] at hsent
    rw [← List.take_append_of_le_length hlen, ← hsent]
    rfl

/-- A frame is written in two parts, and then a frame with priority comes. -/
def twoPartRun : List TxAction :=
  [.openWriter 0 5 .v11, .enqueue 0 (subscriptionRpc 7) 0 false 1, .flushPeer 0 2 (takesFirst 2),
    .markReady 0, .flushPeer 0 3 fun _ => .ok 100, .enqueue 0 (subscriptionRpc 8) 0 true 4]

theorem frameIntegrity_twoPartRun :
    FrameIntegrity RouterConfig.small.toConfig
      (TxSystem.init.run RouterConfig.small.toConfig twoPartRun) 5 := by
  refine frameIntegrity_of_allowedRun .small twoPartRun ?_ 5
  refine ⟨trivial, ?_, trivial, trivial, trivial, ?_, trivial⟩
  · intro hprio
    cases hprio
  · intro _ _ i hi
    have hempty : ((TxSystem.init.run RouterConfig.small.toConfig
      (twoPartRun.take 5)).tx.peer 0).head = none := by decide
    cases hempty.symm.trans hi

end LeanLibp2p.Gossipsub
