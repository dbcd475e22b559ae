import LeanLibp2p.Gossipsub.Router.Footprint

/-!
# What a heartbeat queues

A heartbeat fills and trims the mesh and advertises cached messages. It changes the transmit state
by `gossipsub_enqueue_rpc_with_lifetime` alone, so an invariant that this call keeps, and that does
not depend on the tables of the mesh, holds until the tables expire.
-/

namespace LeanLibp2p.Gossipsub

open LeanLibp2p.Lib

/-- The tables that a heartbeat changes before they expire. -/
def heartbeatTables : List Part := [.idontwantSent, .backoff, .grafts, .mesh, .random, .queued]

/-- An invariant that enqueueing keeps and that does not depend on these tables. -/
structure Queueing (config : Config) (I : Router → Prop) : Prop where
  tables : ∀ {r r' : Router}, I r → Router.Agrees heartbeatTables r r' → I r'
  enqueue : ∀ (p : Nat) (rpc : Rpc) (lifetimeUs : Nat) (priority : Bool),
    Comp.Keeps I (enqueueRpc config p rpc lifetimeUs priority)

namespace Queueing

variable {config : Config} {I : Router → Prop}

variable (h : Queueing config I)

include h

theorem of_touches {α : Type} {touched : List Part} {c : RouterM α} (hc : Touches touched c)
    (hsub : ∀ part ∈ touched, part ∈ heartbeatTables) : Comp.Keeps I c :=
  hc.keeps fun _ _ hagrees hr => h.tables hr (hagrees.mono hsub)

theorem of_agrees {touched : List Part} {f : Router → Router}
    (hf : ∀ r, Router.Agrees touched r (f r)) (hsub : ∀ part ∈ touched, part ∈ heartbeatTables) :
    Comp.Keeps I (Comp.update f : RouterM Unit) :=
  .update fun r hr => h.tables hr ((hf r).mono hsub)

theorem enqueueGraft (p t : Nat) :
    Comp.Keeps I (enqueueGraft config p t) := by
  refine .bind (.read _) fun r => .bind (h.enqueue _ _ _ _) fun _ => ?_
  exact h.of_agrees (fun r => recordGraft_agrees config p t r) (by decide)

theorem enqueueIhave (p : Nat) (topic : Topic) (entries : List McacheEntry) :
    Comp.Keeps I (enqueueIhave config p topic entries) := by
  refine .ite (fun _ => .fail _) fun _ => .bind (h.enqueue _ _ _ _) fun _ => ?_
  exact h.of_agrees (fun r => recordQueued_agrees _ r) (by decide)

/-! ## Mesh -/

theorem meshFillPeer (t p : Nat) (queueGraft : Bool) :
    Comp.Keeps I (meshFillPeer config t p queueGraft) := by
  refine .bind (h.of_touches (meshAdd_touches ..) (by decide)) fun _ => ?_
  refine .ite (fun _ => .bind (.result (h.enqueueGraft p t)) fun res => ?_) fun _ => .pure _
  cases res with
  | ok _ => exact .pure _
  | error e =>
    exact .bind (h.of_agrees (fun r => meshRemove_agrees ..) (by decide)) fun _ => .fail _

theorem meshFillTopic (t target : Nat) (queueGraft : Bool) :
    Comp.Keeps I (meshFillTopic config t target queueGraft) := by
  have hloop : ∀ (salt : UInt64) (fuel : Nat),
      Comp.Keeps I (meshFillLoop config t salt queueGraft fuel) := by
    intro salt fuel
    induction fuel with
    | zero => exact .pure _
    | succ fuel ih =>
      refine .bind (.read _) fun r => ?_
      split
      · exact .pure _
      · exact .bind (h.meshFillPeer t _ queueGraft) fun _ => ih
  refine .bind (.read _) fun r => .ite (fun _ => .fail _) fun _ => ?_
  refine .ite (fun _ => .fail _) fun _ => .ite (fun _ => ?_) fun _ => .pure _
  exact .bind (h.of_touches (randomU64_touches _) (by decide)) fun salt => hloop salt _

theorem meshTrimPeer (t p : Nat) (queuePrune : Bool) :
    Comp.Keeps I (meshTrimPeer config t p queuePrune) := by
  have hremove := h.of_agrees (fun r => meshRemove_agrees config p t r) (by decide)
  refine .ite (fun _ => ?_) fun _ => hremove
  refine .bind (.read _) fun r => .bind (h.enqueue _ _ _ _) fun _ => ?_
  exact .bind (h.of_touches (backoffAdd_touches ..) (by decide)) fun _ => hremove

theorem meshTrimTopic (t target : Nat) (queuePrune : Bool) :
    Comp.Keeps I (meshTrimTopic config t target queuePrune) := by
  have hloop : ∀ (salt : UInt64) (fuel : Nat),
      Comp.Keeps I (meshTrimLoop config t salt queuePrune fuel) := by
    intro salt fuel
    induction fuel with
    | zero => exact .pure _
    | succ fuel ih =>
      refine .bind (.read _) fun r => ?_
      split
      · exact .pure _
      · exact .bind (h.meshTrimPeer _ _ _) fun _ => ih
  refine .bind (.read _) fun r => .ite (fun _ => .fail _) fun _ => ?_
  refine .ite (fun _ => ?_) fun _ => .pure _
  exact .bind (h.of_touches (randomU64_touches _) (by decide)) fun salt => hloop salt _

theorem meshHeartbeat : Comp.Keeps I (meshHeartbeat config) := by
  refine .forOk fun t _ => .bind (.read _) fun r => .ite (fun _ => ?_) fun _ => .pure _
  refine .ite (fun _ => h.meshFillTopic _ _ _) fun _ => ?_
  exact .ite (fun _ => h.meshTrimTopic _ _ _) fun _ => .pure _

/-! ## Gossip -/

theorem emitTopicGossip (t : Nat) :
    Comp.Keeps I (emitTopicGossip config t) := by
  have hloop : ∀ (salt : UInt64) (entries : List McacheEntry) (fuel : Nat) (previous : Option Nat),
      Comp.Keeps I (emitTopicGossipLoop config t salt entries fuel previous) := by
    intro salt entries fuel
    induction fuel with
    | zero => exact fun _ => .pure _
    | succ fuel ih =>
      intro previous
      refine .bind (.read _) fun r => ?_
      split
      · exact .pure _
      · exact .bind (h.enqueueIhave _ _ _) fun _ => ih _
  refine .bind (.read _) fun r => .ite (fun _ => ?_) fun _ => .bind (.pure _) fun _ => hloop _ _ _ _
  exact .bind (h.of_touches (randomU64_touches _) (by decide)) fun salt => hloop _ _ _ _

theorem emitGossip : Comp.Keeps I (emitGossip config) := by
  refine .forOk fun t _ => .bind (.read _) fun r => .ite (fun _ => ?_) fun _ => .pure _
  exact h.emitTopicGossip t

/-! ## Heartbeat -/

/-- The heartbeat up to the point where the tables expire. -/
theorem heartbeat {r : Router} (hr : I r) (nowUs : Nat) :
    I (Gossipsub.emitGossip config (heartbeatMesh config nowUs r)).2 := by
  have hreset : I (resetIdontwantSent config r) :=
    h.tables hr ((resetIdontwantSent_agrees config r).mono (by decide))
  have hready : I (backoffClearExpired config nowUs (resetIdontwantSent config r)) :=
    h.tables hreset ((backoffClearExpired_agrees config nowUs _).mono (by decide))
  exact h.emitGossip _ (h.meshHeartbeat _ hready)

end Queueing

end LeanLibp2p.Gossipsub
