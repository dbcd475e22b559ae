import LeanLibp2p.Gossipsub.Tx.Queue

/-!
# Compaction of the transmit buffer

`gossipsub_tx_compact_buffer` looks for the items in the order of their offsets and slides each
one down, so that it is the generic compaction of an area cut into regions.
-/

namespace LeanLibp2p.Gossipsub

open LeanLibp2p.Lib

/-- The buffer, cut into the ranges of the items. -/
def Tx.arena (tx : Tx) : Arena := ⟨tx.buffer, fun i => (tx.queue i).offset⟩

/-- The length of the range of an item. -/
def Tx.len (tx : Tx) (i : Nat) : Nat := (tx.queue i).len

/-- The bytes in the range of an item. -/
def Tx.content (tx : Tx) (i : Nat) : Bytes := tx.buffer.slice (tx.queue i).offset (tx.queue i).len

/-- An item without its link and without its place in the buffer. -/
def TxItem.core (item : TxItem) : TxItem := { item with next := none, offset := 0 }

/-- A slot that the search of the compaction considers. -/
def Tx.Candidate (config : Config) (tx : Tx) (searchOffset i : Nat) : Prop :=
  i < config.capacity.maxTxRpcQueue ∧ (tx.queue i).used = true ∧ searchOffset ≤ (tx.queue i).offset

/-- Moving one item of the buffer is a slide. -/
theorem compact_move (tx : Tx) (i cursor : Nat) :
    (if (tx.queue i).len ≠ 0 ∧ (tx.queue i).offset ≠ cursor then
        tx.buffer.move cursor (tx.queue i).offset (tx.queue i).len
      else tx.buffer) = tx.buffer.move cursor (tx.queue i).offset (tx.queue i).len := by
  split
  · rfl
  · rename_i h
    by_cases hlen : (tx.queue i).len = 0
    · rw [hlen, Memory.move_zero]
    · have hoff : (tx.queue i).offset = cursor := by
        by_contra hne
        exact h ⟨hlen, hne⟩
      rw [hoff, Memory.move_self]

/-- What compaction leaves alone. -/
structure Tx.Compacts (tx tx' : Tx) : Prop where
  peer : tx'.peer = tx.peer
  queueLen : tx'.queueLen = tx.queueLen
  items : ∀ j, ∃ n, tx'.queue j = { tx.queue j with offset := n }

/-- One round of the loop slides the item that lies lowest. -/
theorem txCompactLoop_round {config : Config} {tx tx₀ : Tx} {i cursor search : Nat} (fuel : Nat)
    (hkeeps : Tx.Compacts tx₀ tx)
    (hlow : Arena.Lowest (fun j => j < config.capacity.maxTxRpcQueue ∧ (tx₀.queue j).used = true)
      tx.arena.offset search i)
    (hpos : 0 < tx₀.len i) (hmax : tx.arena.offset i < sizeMax) :
    ∃ tx', txCompactLoop config (fuel + 1) cursor search tx =
        txCompactLoop config fuel (cursor + tx₀.len i) (tx.arena.offset i + tx₀.len i) tx' ∧
      tx'.arena = Arena.slide tx₀.len tx.arena i cursor ∧ Tx.Compacts tx₀ tx' := by
  have hitem : ∀ j, (tx.queue j).len = tx₀.len j ∧ (tx.queue j).used = (tx₀.queue j).used := by
    intro j
    rcases hkeeps.items j with ⟨n, hn⟩
    rw [hn]
    exact ⟨rfl, rfl⟩
  have hlow' : Arena.Lowest (fun j => j < config.capacity.maxTxRpcQueue ∧
      (tx.queue j).used = true) (fun j => (tx.queue j).offset) search i := by
    refine ⟨?_, hlow.from_search, ?_⟩
    · exact ⟨hlow.is_live.1, (hitem i).2.trans hlow.is_live.2⟩
    · intro j hlive
      exact hlow.below j ⟨hlive.1, (hitem j).2.symm.trans hlive.2⟩
  have hfound : (txLowestItem config tx search).1 = some i := hlow'.found hmax
  have hlen : (tx.queue i).len = tx₀.len i := (hitem i).1
  refine ⟨{ tx.setItem i { tx.queue i with offset := cursor } with
    buffer := tx.buffer.move cursor (tx.queue i).offset (tx.queue i).len }, ?_, ?_, ?_⟩
  · rw [txCompactLoop, hfound]
    dsimp only
    rw [compact_move, if_neg (by omega), hlen]
    rfl
  · unfold Tx.arena Arena.slide
    rw [hlen]
    congr 1
    funext j
    by_cases hj : j = i
    · rw [hj, Function.update_self]
      exact congrArg TxItem.offset (Tx.setItem_self ..)
    · rw [Function.update_of_ne hj]
      exact congrArg TxItem.offset (Tx.setItem_of_ne _ _ hj)
  · refine ⟨hkeeps.peer, hkeeps.queueLen, ?_⟩
    intro j
    rcases hkeeps.items j with ⟨n, hn⟩
    by_cases hj : j = i
    · subst hj
      refine ⟨cursor, (Tx.setItem_self ..).trans ?_⟩
      rw [hn]
    · exact ⟨n, (Tx.setItem_of_ne _ _ hj).trans hn⟩

/-- The loop slides the items that are left, in the order of their offsets. -/
theorem txCompactLoop_eq {config : Config} {tx : Tx} {order : List Nat} {cursor searchOffset : Nat}
    (hsorted : Arena.Sorted tx.len tx.arena searchOffset order) (hnd : order.Nodup)
    (hcursor : cursor ≤ searchOffset)
    (horder : ∀ i, tx.Candidate config searchOffset i ↔ i ∈ order)
    (hpos : ∀ i ∈ order, 0 < tx.len i)
    (hmax : ∀ i ∈ order, (tx.queue i).offset + tx.len i ≤ sizeMax) :
    let res := txCompactLoop config order.length cursor searchOffset tx
    res.1.arena = (Arena.slideAll tx.len order cursor tx.arena).1 ∧
      res.2 = (Arena.slideAll tx.len order cursor tx.arena).2 ∧ Tx.Compacts tx res.1 := by
  refine Arena.slideAll_of_rounds (txCompactLoop config)
    (fun i => i < config.capacity.maxTxRpcQueue ∧ (tx.queue i).used = true) (fun _ _ _ => rfl) ?_ ⟨rfl, rfl, fun _ => ⟨_, rfl⟩⟩ hsorted hnd hcursor ?_ hpos hmax
  · intro s i fuel cursor search hs hlow hpos _ hbound
    exact txCompactLoop_round fuel hs hlow hpos (by omega)
  · intro i
    rw [← horder i]
    exact and_assoc

end LeanLibp2p.Gossipsub
