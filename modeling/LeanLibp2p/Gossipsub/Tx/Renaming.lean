import LeanLibp2p.Gossipsub.Tx.Queue

/-!
# The transmit queues under a renaming of the peers

A permutation of the peer slots takes the queues along with it. What is queued for a renamed peer
is what was queued for the peer before, so every operation of `gossipsub_tx.c` on the queues
commutes with the renaming, byte for byte.
-/

namespace LeanLibp2p.Gossipsub

open LeanLibp2p.Lib

/-- The permutation moves the slots below `n` among themselves. -/
def Permutes (σ : Equiv.Perm Nat) (n : Nat) : Prop := ∀ p, σ p < n ↔ p < n

/-- An item for the renamed peer; a free item names no peer. -/
def TxItem.rename (σ : Equiv.Perm Nat) (item : TxItem) : TxItem :=
  if item.used then { item with peerIndex := σ item.peerIndex } else item

/-- The queues of the renamed peers, and any peer to start the next flush with. -/
def Tx.rename (σ : Equiv.Perm Nat) (nextPeer : Nat) (tx : Tx) : Tx where
  peer := fun p => tx.peer (σ.symm p)
  queue := fun i => (tx.queue i).rename σ
  buffer := tx.buffer
  bufferUsed := tx.bufferUsed
  queueLen := tx.queueLen
  readyCount := tx.readyCount
  nextPeer := nextPeer

section Items

variable (σ : Equiv.Perm Nat) (item : TxItem)

@[simp] theorem TxItem.rename_used : (item.rename σ).used = item.used := by
  unfold rename
  split <;> rfl

@[simp] theorem TxItem.rename_priority : (item.rename σ).priority = item.priority := by
  unfold rename
  split <;> rfl

@[simp] theorem TxItem.rename_offset : (item.rename σ).offset = item.offset := by
  unfold rename
  split <;> rfl

@[simp] theorem TxItem.rename_len : (item.rename σ).len = item.len := by
  unfold rename
  split <;> rfl

@[simp] theorem TxItem.rename_pos : (item.rename σ).pos = item.pos := by
  unfold rename
  split <;> rfl

@[simp] theorem TxItem.rename_next : (item.rename σ).next = item.next := by
  unfold rename
  split <;> rfl

theorem TxItem.rename_peerIndex (h : item.used = true) :
    (item.rename σ).peerIndex = σ item.peerIndex := by
  rw [rename, if_pos h]

@[simp] theorem TxItem.rename_free : TxItem.free.rename σ = .free := rfl

theorem TxItem.rename_withPriority (priority : Bool) :
    { item.rename σ with priority := priority } = { item with priority := priority }.rename σ := by
  unfold rename
  split <;> rfl

theorem TxItem.rename_withNext (next : Option Nat) :
    { item.rename σ with next := next } = { item with next := next }.rename σ := by
  unfold rename
  split <;> rfl

theorem TxItem.rename_withOffset (offset : Nat) :
    { item.rename σ with offset := offset } = { item with offset := offset }.rename σ := by
  unfold rename
  split <;> rfl

end Items

namespace Tx

variable (σ : Equiv.Perm Nat) (n : Nat) (tx : Tx)

@[simp] theorem rename_peer (p : Nat) : (tx.rename σ n).peer (σ p) = tx.peer p := by
  simp [rename]

@[simp] theorem rename_queue (i : Nat) : (tx.rename σ n).queue i = (tx.queue i).rename σ := rfl

@[simp] theorem rename_buffer : (tx.rename σ n).buffer = tx.buffer := rfl

@[simp] theorem rename_bufferUsed : (tx.rename σ n).bufferUsed = tx.bufferUsed := rfl

@[simp] theorem rename_queueLen : (tx.rename σ n).queueLen = tx.queueLen := rfl

@[simp] theorem rename_readyCount : (tx.rename σ n).readyCount = tx.readyCount := rfl

theorem rename_setPeer (p : Nat) (peer : PeerTx) :
    (tx.rename σ n).setPeer (σ p) peer = (tx.setPeer p peer).rename σ n := by
  have hpeer : Function.update (fun q => tx.peer (σ.symm q)) (σ p) peer =
      fun q => Function.update tx.peer p peer (σ.symm q) := by
    funext q
    by_cases hq : q = σ p
    · subst hq
      simp
    · have hne : σ.symm q ≠ p := fun heq => hq (by rw [← heq, Equiv.apply_symm_apply])
      rw [Function.update_of_ne hq, Function.update_of_ne hne]
  unfold setPeer rename
  rw [hpeer]

theorem rename_setItem (i : Nat) (item : TxItem) :
    (tx.rename σ n).setItem i (item.rename σ) = (tx.setItem i item).rename σ n := by
  have hqueue : Function.update (fun j => (tx.queue j).rename σ) i (item.rename σ) =
      fun j => (Function.update tx.queue i item j).rename σ := by
    funext j
    by_cases hj : j = i
    · subst hj
      simp
    · rw [Function.update_of_ne hj, Function.update_of_ne hj]
  unfold setItem rename
  rw [hqueue]

end Tx

section Operations

variable {config : Config} {σ : Equiv.Perm Nat} {n : Nat} {peers peers' : Nat → Peer}

variable (hσ : Permutes σ config.capacity.maxPeers)

include hσ

theorem txSetPeerReady_rename (hpeers : ∀ p, peers' (σ p) = peers p) (tx : Tx) (p : Nat)
    (ready : Bool) :
    txSetPeerReady config peers' (tx.rename σ n) (σ p) ready =
      (txSetPeerReady config peers tx p ready).rename σ n := by
  unfold txSetPeerReady
  simp only [hσ p, hpeers, Tx.rename_peer, Tx.rename_setPeer, Tx.rename_readyCount]
  split
  · split
    · rfl
    · split <;> rfl
  · rfl

omit hσ in
theorem txFindFree_rename (tx : Tx) : txFindFree config (tx.rename σ n) = txFindFree config tx := by
  simp [txFindFree]

omit hσ in
theorem txRecountLoop_rename (tx : Tx) (fuel : Nat) (current : Option Nat) (c : Recount) :
    txRecountLoop config (tx.rename σ n) fuel current c =
      txRecountLoop config tx fuel current c := by
  induction fuel generalizing current c with
  | zero => rfl
  | succ fuel ih =>
    cases current with
    | none => rfl
    | some current => simp [txRecountLoop, ih]

theorem txRecountPeerQueue_rename (tx : Tx) (p : Nat) :
    txRecountPeerQueue config (tx.rename σ n) (σ p) =
      (txRecountPeerQueue config tx p).rename σ n := by
  unfold txRecountPeerQueue
  simp only [hσ p, Tx.rename_peer, txRecountLoop_rename, Tx.rename_setPeer]
  split <;> rfl

omit hσ in
theorem txLinkPeerItem_rename (tx : Tx) (p i : Nat) (priority : Bool) :
    txLinkPeerItem (tx.rename σ n) (σ p) i priority =
      (txLinkPeerItem tx p i priority).rename σ n := by
  unfold txLinkPeerItem
  simp only [Tx.rename_peer]
  split
  · rw [Tx.rename_setPeer]
  · split
    · cases (tx.peer p).tail with
      | none => rfl
      | some tail =>
        simp only [Tx.rename_queue, TxItem.rename_withNext, Tx.rename_setItem, Tx.rename_setPeer]
    · cases (tx.peer p).priorityTail with
      | none =>
        simp only [Tx.rename_queue, TxItem.rename_withNext, Tx.rename_setItem, Tx.rename_setPeer]
      | some last =>
        simp only [Tx.rename_queue, TxItem.rename_next, TxItem.rename_withNext, Tx.rename_setItem,
          Tx.rename_setPeer]

theorem txAppendPeerItem_rename (hpeers : ∀ p, peers' (σ p) = peers p) (tx : Tx) (p i : Nat)
    (priority : Bool) :
    txAppendPeerItem config peers' (tx.rename σ n) (σ p) i priority =
      (txAppendPeerItem config peers tx p i priority).rename σ n := by
  unfold txAppendPeerItem
  simp only [Tx.rename_peer, Tx.rename_queue, TxItem.rename_withPriority, Tx.rename_setItem,
    txLinkPeerItem_rename, Tx.rename_setPeer, txSetPeerReady_rename hσ hpeers]
  split <;> rfl

theorem txCommitReserved_rename (hpeers : ∀ p, peers' (σ p) = peers p) (p i : Nat) (priority : Bool)
    (tx : Tx) :
    txCommitReserved config peers' (σ p) i priority (tx.rename σ n) =
      ((txCommitReserved config peers p i priority tx).1,
        (txCommitReserved config peers p i priority tx).2.rename σ n) := by
  have hrange : config.capacity.maxPeers ≤ σ p ↔ config.capacity.maxPeers ≤ p := by
    rw [← not_lt, ← not_lt, hσ p]
  have howner : (tx.queue i).used = true →
      (((tx.queue i).rename σ).peerIndex ≠ σ p ↔ (tx.queue i).peerIndex ≠ p) := by
    intro hused
    rw [TxItem.rename_peerIndex _ _ hused, Ne, σ.injective.eq_iff]
  unfold txCommitReserved
  simp only [hrange, Tx.rename_queue, TxItem.rename_used, TxItem.rename_pos,
    txAppendPeerItem_rename hσ hpeers]
  by_cases hused : (tx.queue i).used = true
  · simp only [howner hused]
    split
    · rfl
    · split <;> rfl
  · split
    · rfl
    · simp [hused]

omit hσ

theorem txLowestItem_rename (tx : Tx) (searchOffset : Nat) :
    txLowestItem config (tx.rename σ n) searchOffset = txLowestItem config tx searchOffset := by
  simp [txLowestItem]

theorem txCompactLoop_rename (fuel cursor searchOffset : Nat) (tx : Tx) :
    txCompactLoop config fuel cursor searchOffset (tx.rename σ n) =
      ((txCompactLoop config fuel cursor searchOffset tx).1.rename σ n,
        (txCompactLoop config fuel cursor searchOffset tx).2) := by
  induction fuel generalizing cursor searchOffset tx with
  | zero => rfl
  | succ fuel ih =>
    rw [txCompactLoop, txCompactLoop, txLowestItem_rename]
    cases (txLowestItem config tx searchOffset).1 with
    | none => rfl
    | some i =>
      have hmoved : (tx.rename σ n).setItem i { (tx.queue i).rename σ with offset := cursor } =
          (tx.setItem i { tx.queue i with offset := cursor }).rename σ n := by
        rw [TxItem.rename_withOffset, Tx.rename_setItem]
      dsimp only [Tx.rename_queue]
      rw [hmoved, TxItem.rename_len, TxItem.rename_offset, Tx.rename_buffer]
      generalize tx.setItem i { tx.queue i with offset := cursor } = moved
      generalize (if (tx.queue i).len ≠ 0 ∧ (tx.queue i).offset ≠ cursor then
        tx.buffer.move cursor (tx.queue i).offset (tx.queue i).len else tx.buffer) = buffer
      exact ih _ _ { moved with buffer := buffer }

theorem txCompactBuffer_rename (tx : Tx) :
    txCompactBuffer config (tx.rename σ n) = (txCompactBuffer config tx).rename σ n := by
  unfold txCompactBuffer
  rw [Tx.rename_queueLen, txCompactLoop_rename]
  split <;> rfl

theorem txMakeRoom_rename (frameLen : Nat) (tx : Tx) :
    txMakeRoom config frameLen (tx.rename σ n) = (txMakeRoom config frameLen tx).rename σ n := by
  unfold txMakeRoom
  by_cases hempty : config.capacity.txBufferBytes - tx.bufferUsed < frameLen ∧ tx.queueLen = 0
  · have hempty' : config.capacity.txBufferBytes - (tx.rename σ n).bufferUsed < frameLen ∧
        (tx.rename σ n).queueLen = 0 := hempty
    simp only [if_pos hempty, if_pos hempty']
    rw [if_neg fun h => h.2 hempty.2, if_neg fun h => h.2 hempty.2]
    rfl
  · have hempty' : ¬ (config.capacity.txBufferBytes - (tx.rename σ n).bufferUsed < frameLen ∧
        (tx.rename σ n).queueLen = 0) := hempty
    simp only [if_neg hempty, if_neg hempty', txCompactBuffer_rename]
    exact (apply_ite (Tx.rename σ n) _ _ _).symm

include hσ

theorem txReserve_rename (p frameLen lifetimeUs nowUs : Nat) (tx : Tx) :
    txReserve config (σ p) frameLen lifetimeUs nowUs (tx.rename σ n) =
      ((txReserve config p frameLen lifetimeUs nowUs tx).1,
        (txReserve config p frameLen lifetimeUs nowUs tx).2.rename σ n) := by
  have hrange : config.capacity.maxPeers ≤ σ p ↔ config.capacity.maxPeers ≤ p := by
    rw [← not_lt, ← not_lt, hσ p]
  unfold txReserve
  simp only [hrange, Tx.rename_peer, Tx.rename_queueLen, txMakeRoom_rename, Tx.rename_bufferUsed,
    txFindFree_rename]
  split
  · rfl
  · split
    · rfl
    · split
      · rfl
      · split
        · rfl
        · cases txFindFree config (txMakeRoom config frameLen tx) with
          | none => rfl
          | some i =>
            generalize txMakeRoom config frameLen tx = tx
            have hinsert := Tx.rename_setItem σ n tx i { TxItem.free with
              used := true
              peerIndex := p
              offset := tx.bufferUsed
              len := frameLen
              deadlineUs := txDeadline nowUs lifetimeUs }
            rw [TxItem.rename, if_pos rfl] at hinsert
            dsimp only
            rw [hinsert]
            rfl

omit hσ in
theorem txFindPrevious_rename (tx : Tx) (index fuel : Nat) (previous current : Option Nat) :
    txFindPrevious (tx.rename σ n) index fuel previous current =
      txFindPrevious tx index fuel previous current := by
  induction fuel generalizing previous current with
  | zero => rfl
  | succ fuel ih =>
    cases current with
    | none => rfl
    | some current => simp [txFindPrevious, ih]

theorem txUnlink_rename (tx : Tx) (p index : Nat) :
    txUnlink config (tx.rename σ n) (σ p) index = (txUnlink config tx p index).rename σ n := by
  unfold txUnlink
  rw [Tx.rename_peer, txFindPrevious_rename]
  cases txFindPrevious tx index config.capacity.maxTxRpcQueue none (tx.peer p).head with
  | none => rfl
  | some previous =>
    cases previous with
    | none =>
      simp only [Tx.rename_peer, Tx.rename_queue, TxItem.rename_next, Tx.rename_setPeer,
        txRecountPeerQueue_rename hσ]
      split <;> rfl
    | some previous =>
      simp only [Tx.rename_peer, Tx.rename_queue, TxItem.rename_next, TxItem.rename_withNext,
        Tx.rename_setItem, Tx.rename_setPeer, txRecountPeerQueue_rename hσ]
      split <;> rfl

theorem txRemove_rename (hpeers : ∀ p, peers' (σ p) = peers p) (tx : Tx) (index : Nat) :
    txRemove config peers' (tx.rename σ n) index =
      (txRemove config peers tx index).rename σ n := by
  have hclear (tx : Tx) :
      (tx.rename σ n).setItem index .free = (tx.setItem index .free).rename σ n :=
    Tx.rename_setItem σ n tx index .free
  unfold txRemove
  by_cases hindex : index < config.capacity.maxTxRpcQueue ∧ (tx.queue index).used
  · have howner := TxItem.rename_peerIndex σ _ hindex.2
    rw [if_pos hindex, if_pos (by simpa using hindex)]
    simp only [Tx.rename_queue, howner, hσ (tx.queue index).peerIndex, txUnlink_rename hσ,
      Tx.rename_peer, Tx.rename_setPeer, txSetPeerReady_rename hσ hpeers,
      ← apply_ite (Tx.rename σ n), hclear, Tx.rename_queueLen, Tx.rename_bufferUsed]
    rfl
  · rw [if_neg hindex, if_neg (by simpa using hindex)]

/-- Queueing an RPC for the renamed peer. -/
theorem enqueueRpcWithLifetime_rename (hpeers : ∀ p, peers' (σ p) = peers p) (p : Nat) (rpc : Rpc)
    (lifetimeUs : Nat) (priority : Bool) (nowUs : Nat) (tx : Tx) :
    enqueueRpcWithLifetime config peers' (σ p) rpc lifetimeUs priority nowUs (tx.rename σ n) =
      ((enqueueRpcWithLifetime config peers p rpc lifetimeUs priority nowUs tx).1,
        (enqueueRpcWithLifetime config peers p rpc lifetimeUs priority nowUs tx).2.rename σ n) := by
  have hrange : config.capacity.maxPeers ≤ σ p ↔ config.capacity.maxPeers ≤ p := by
    rw [← not_lt, ← not_lt, hσ p]
  unfold enqueueRpcWithLifetime
  simp only [hrange, hpeers]
  split
  · rfl
  split
  · rfl
  cases rpcFrameSize (peers p).version config.limits rpc with
  | error e => rfl
  | ok frameLen =>
    dsimp only
    rw [txReserve_rename hσ]
    rcases txReserve config p frameLen lifetimeUs nowUs tx with ⟨e | i, tx⟩
    · rfl
    dsimp only
    cases rpcFrameEncode (peers p).version config.limits rpc frameLen with
    | error e =>
      dsimp only
      rw [txRemove_rename hσ hpeers]
    | ok frame =>
      dsimp only
      split
      · rw [txRemove_rename hσ hpeers]
      have hstore : { tx.rename σ n with
          buffer := tx.buffer.store ((tx.queue i).rename σ).offset frame } =
          { tx with buffer := tx.buffer.store (tx.queue i).offset frame }.rename σ n := by
        rw [TxItem.rename_offset]
        rfl
      simp only [Tx.rename_buffer, Tx.rename_queue, hstore, txCommitReserved_rename hσ hpeers]
      rcases txCommitReserved config peers p i priority
        { tx with buffer := tx.buffer.store (tx.queue i).offset frame } with ⟨e | ⟨⟩, tx'⟩
      · dsimp only
        rw [txRemove_rename hσ hpeers]
      · rfl

end Operations

end LeanLibp2p.Gossipsub
