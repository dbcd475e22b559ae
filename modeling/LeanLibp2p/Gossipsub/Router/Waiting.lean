import LeanLibp2p.Gossipsub.Router.Transmit
import LeanLibp2p.Gossipsub.Tx.Queues

/-!
# The frames that wait

The queue of a peer as two lists of frames, those with priority and the others. An enqueue that
succeeds puts the frame of its RPC behind the frames of its class, and no other queue changes.
-/

namespace LeanLibp2p.Gossipsub

open LeanLibp2p.Lib

/-- The frames of one class that wait for the writer of a peer, in their order. -/
def Tx.waiting (config : Config) (tx : Tx) (p : Nat) (priority : Bool) : List Bytes :=
  ((tx.items config p).filter fun i => (tx.queue i).priority = priority).map tx.content

/-- Each peer gets some frames of each class, behind those that waited for it. -/
def Tx.Gains (config : Config) (tx tx' : Tx) (gain : Nat → Bool → List Bytes) : Prop :=
  ∀ p < config.capacity.maxPeers, ∀ priority,
    tx'.waiting config p priority = tx.waiting config p priority ++ gain p priority

/-- Frames for one class of one peer. -/
def gainOf (p : Nat) (priority : Bool) (frames : List Bytes) (q : Nat) (kind : Bool) :
    List Bytes :=
  if q = p ∧ kind = priority then frames else []

/-- One frame for each of some peers, all of one class. -/
def gainEach (peers : List Nat) (priority : Bool) (frame : Nat → Bytes) (q : Nat) (kind : Bool) :
    List Bytes :=
  if q ∈ peers ∧ kind = priority then [frame q] else []

namespace Tx.Gains

variable {config : Config} {tx tx' tx'' : Tx} {gain gain' : Nat → Bool → List Bytes}

theorem refl (config : Config) (tx : Tx) : Tx.Gains config tx tx fun _ _ => [] :=
  fun _ _ _ => (List.append_nil _).symm

theorem trans (h : Tx.Gains config tx tx' gain) (h' : Tx.Gains config tx' tx'' gain') :
    Tx.Gains config tx tx'' fun p priority => gain p priority ++ gain' p priority := by
  intro p hp priority
  rw [h' p hp priority, h p hp priority, List.append_assoc]

theorem congr (h : Tx.Gains config tx tx' gain) (heq : ∀ p < config.capacity.maxPeers, ∀ priority,
    gain p priority = gain' p priority) : Tx.Gains config tx tx' gain' := by
  intro p hp priority
  rw [h p hp priority, heq p hp priority]

end Tx.Gains

/-- Items that are kept are the same frames in the same class. -/
theorem Tx.waiting_congr {tx tx' : Tx} {l : List Nat} {priority : Bool}
    (hkeeps : ∀ i ∈ l, Tx.Keeps tx tx' i) :
    (l.filter fun i => (tx'.queue i).priority = priority).map tx'.content =
      (l.filter fun i => (tx.queue i).priority = priority).map tx.content := by
  have hfilter : (l.filter fun i => (tx'.queue i).priority = priority) =
      l.filter fun i => (tx.queue i).priority = priority := by
    apply List.filter_congr
    intro i hi
    rw [(hkeeps i hi).priority_eq]
  rw [hfilter]
  apply List.map_congr_left
  intro i hi
  exact (hkeeps i (List.mem_of_mem_filter hi)).2

section Enqueue

variable {config : RouterConfig} {peers : Nat → Peer} {tx tx' : Tx} {q : Nat → List Nat}
  {p lifetimeUs nowUs : Nat} {rpc : Rpc} {priority : Bool}

/-- A new item is behind those of its class. -/
theorem TxInv.gains_insert {i : Nat} {frame : Bytes} (h : TxInv config.toConfig tx q none)
    (h' : TxInv config.toConfig tx' (Function.update q p (tx.insertItem (q p) i priority)) none)
    (hp : p < config.capacity.maxPeers)
    (hkeeps : ∀ i, tx.Used config.toConfig i → Tx.Keeps tx tx' i)
    (hpriority : (tx'.queue i).priority = priority) (hcontent : tx'.content i = frame) :
    Tx.Gains config.toConfig tx tx' (gainOf p priority [frame]) := by
  intro r hr kind
  have hold : ∀ j ∈ q r, Tx.Keeps tx tx' j := fun j hj => hkeeps j (h.queued r hr j hj).1
  unfold Tx.waiting gainOf
  rw [h.items_eq hr, h'.items_eq hr]
  by_cases hrp : r = p
  · subst hrp
    have hinsert : tx.insertItem (q r) i priority = tx'.insertItem (q r) i priority :=
      Tx.insertItem_congr (fun j hj => (hold j hj).priority_eq.symm) priority
    obtain ⟨hprio, hnormal⟩ := tx'.insertItem_classes (q r) hpriority
    rw [Function.update_self, hinsert, ← Tx.waiting_congr hold]
    unfold Tx.priorityItems at hprio
    unfold Tx.normalItems at hnormal
    cases kind with
    | true =>
      cases priority with
      | true => simpa [hcontent] using congrArg (List.map tx'.content) hprio
      | false => simpa using congrArg (List.map tx'.content) hprio
    | false =>
      cases priority with
      | true => simpa using congrArg (List.map tx'.content) hnormal
      | false => simpa [hcontent] using congrArg (List.map tx'.content) hnormal
  · rw [Function.update_of_ne hrp, if_neg (by simp [hrp]), List.append_nil]
    exact Tx.waiting_congr hold

end Enqueue

namespace Transmits

variable {config : RouterConfig} {r r' : Router} {p lifetimeUs : Nat} {rpc : Rpc} {priority : Bool}

/-- What an enqueue that succeeds does to the queues. -/
theorem enqueueRpc_gains (h : Transmits config.toConfig r)
    (hrun : Gossipsub.enqueueRpc config.toConfig p rpc lifetimeUs priority r = (.ok (), r')) :
    Tx.Gains config.toConfig r.tx r'.tx (gainOf p priority [frameBytes rpc]) := by
  rcases h with ⟨written, h⟩
  have hqueues := h.transmitInv.queues
  rcases henqueue : enqueueRpcWithLifetime config.toConfig r.peers p rpc lifetimeUs priority
    (txEffectiveNowUs r) r.tx with ⟨e | i, tx⟩
  · unfold Gossipsub.enqueueRpc at hrun
    rw [henqueue] at hrun
    cases hrun
  · unfold Gossipsub.enqueueRpc at hrun
    rw [henqueue] at hrun
    cases hrun
    rcases (enqueueRpcWithLifetime_spec hqueues config.txBufferBytes_le henqueue).2 i rfl with
      ⟨hinv, henqueued⟩
    obtain ⟨cap, hencoded⟩ := henqueued.encoded
    have hframe : tx.content i = frameBytes rpc :=
      (((rpcFrameEncode_encodes _ _ _).encode_ok cap _).mp hencoded).2.2.2.2
    exact hqueues.gains_insert hinv henqueued.peer_lt henqueued.keeps henqueued.priority hframe

/-- A loop that enqueues one frame for each peer of a list. -/
theorem forOk_gains {body : Nat → RouterM Unit} {frame : Nat → Bytes}
    (hkeeps : ∀ p, Comp.Keeps (Transmits config.toConfig) (body p))
    (hbody : ∀ p r r', Transmits config.toConfig r → body p r = (.ok (), r') →
      Tx.Gains config.toConfig r.tx r'.tx (gainOf p priority [frame p]))
    {ps : List Nat} (hnodup : ps.Nodup) (h : Transmits config.toConfig r)
    (hrun : Comp.forOk body ps r = (.ok (), r')) :
    Tx.Gains config.toConfig r.tx r'.tx (gainEach ps priority frame) := by
  induction ps generalizing r with
  | nil =>
    cases hrun
    exact (Tx.Gains.refl config.toConfig _).congr fun q _ kind => by simp [gainEach]
  | cons p ps ih =>
    rw [Comp.forOk_cons] at hrun
    obtain ⟨⟨⟩, r₁, hp, hps⟩ := Comp.ok_of_bind hrun
    have h₁ : Transmits config.toConfig r₁ := (hkeeps p).of_run h hp
    obtain ⟨hnotin, hnodup⟩ := List.nodup_cons.mp hnodup
    refine ((hbody p r r₁ h hp).trans (ih hnodup h₁ hps)).congr fun q _ kind => ?_
    unfold gainOf gainEach
    by_cases hq : q = p
    · subst hq
      simp [hnotin]
    · simp [hq]

end Transmits

end LeanLibp2p.Gossipsub
