import LeanLibp2p.Gossipsub.Router.Queued

/-!
# Validation by the application

A message of a topic with validation is cached when it arrives and waits for the report of the
application. Until then it may be forwarded to nobody; a token says which message a report is
about.
-/

namespace LeanLibp2p.Gossipsub

open LeanLibp2p.Lib

/-! ## Gating -/

/-- The message needed no validation, or the application accepted it. -/
def Node.Allows (s : Node) (n : Nat) (m : StoredMessage) : Prop := m.gated = false ∨ n ∈ s.accepted

theorem Node.Allows.step {s : Node} {n : Nat} {m : StoredMessage} (h : s.Allows n m)
    (config : Config) (action : Action) : (s.step config action).Allows n m :=
  h.imp_right fun hmem => List.mem_append_left _ hmem

/-- The action sends no message that waits for the application: a heartbeat does not advertise
    one, an IWANT does not ask for one, and a report with a token that is used again is not about
    one. -/
def Action.Gates (config : Config) (s : Node) (action : Action) : Prop :=
  action.Permitted config (s.step config action).Allows s

/-- When no step sends a message that waits for the application, whatever was queued for a peer, as
    a whole or by its id, is a message that needed no validation or was accepted. -/
theorem validation_gates (config : RouterConfig) (actions : List Action)
    (hgates : Node.init.Meets config.toConfig (Action.Gates config.toConfig) actions) :
    let s := Node.init.run config.toConfig actions
    ∀ q ∈ s.router.history.queued, ∃ m, s.router.history.messages[q.origin]? = some m ∧
      q.Shows m ∧ (m.gated = true → q.origin ∈ s.accepted) := by
  intro s q hq
  have h : SentInvariant config.toConfig s.Allows s.router := by
    apply Lib.run_keeps (I := fun s : Node => SentInvariant config.toConfig s.Allows s.router) hgates
    · exact SentInvariant.init
    · intro s action hstep hs
      have hlater : SentInvariant config.toConfig (s.step config.toConfig action).Allows s.router :=
        hs.mono fun _ _ hallowed => hallowed.step _ _
      exact hlater.step (fun _ _ hgated => .inl hgated) hstep
  rcases h.queued q hq with ⟨m, hm, hshows, hallowed⟩
  refine ⟨m, hm, hshows, fun hgated => ?_⟩
  rcases hallowed with hfree | haccepted
  · exact absurd hgated (by simp [hfree])
  · exact haccepted

/-- A message for a topic with validation is accepted and so forwarded to a mesh peer. -/
def acceptRun : List Action :=
  [.subscribe ⟨.ptr [7], .requireApp, false, 0⟩,
   .streamOpen 1 1 (.ok [1]) .outbound .v11,
   .streamOpen 2 2 (.ok [2]) .outbound .v11,
   .receive 1 [0x1a, 5, 0x1a, 3, 0x0a, 1, 7],
   .receive 0 [0x12, 6, 0x12, 1, 9, 0x22, 1, 7],
   .nextEvent, .nextEvent, .nextEvent,
   .report 2 .accept]

set_option maxRecDepth 4000 in
theorem validation_gates_acceptRun :
    let s := Node.init.run RouterConfig.small.toConfig acceptRun
    ∀ q ∈ s.router.history.queued, ∃ m, s.router.history.messages[q.origin]? = some m ∧
      q.Shows m ∧ (m.gated = true → q.origin ∈ s.accepted) := by
  apply validation_gates RouterConfig.small acceptRun
  refine ⟨trivial, trivial, trivial, ?_, ?_, trivial, trivial, trivial, ?_, trivial⟩
  · intro _ _ rpc hdecode r' _ iwant hiwant
    have hrpc : rpcBodyDecode .v11 RouterConfig.small.limits decodeStorage
        [0x1a, 5, 0x1a, 3, 0x0a, 1, 7] =
          .ok (.ofControl { RpcControl.zero with graft := [⟨.ptr [7]⟩] }) := by decide
    cases hrpc.symm.trans hdecode
    cases hiwant
  · intro _ _ rpc hdecode r' _ iwant hiwant
    have hrpc : rpcBodyDecode .v11 RouterConfig.small.limits decodeStorage
        [0x12, 6, 0x12, 1, 9, 0x22, 1, 7] =
          .ok { Rpc.zero with publish := [{ Message.zero with
            data := .ptr [9]
            topic := .ptr [7]
            rawMessage := .ptr [0x12, 1, 9, 0x22, 1, 7] }] } := by decide
    cases hrpc.symm.trans hdecode
    cases hiwant
  · intro _ v htoken _ _ _ m _
    have hv : v = 0 := by
      apply Option.some_inj.mp
      rw [← htoken]
      decide +kernel
    subst hv
    exact .inr (by decide +kernel)

/-- A peer asks for a message that waits for the application. -/
def iwantRun : List Action :=
  [.subscribe ⟨.ptr [7], .requireApp, false, 0⟩,
   .streamOpen 1 1 (.ok [1]) .outbound .v11,
   .receive 0 [0x12, 6, 0x12, 1, 9, 0x22, 1, 7],
   .receive 0 [0x1a, 6, 0x12, 4, 0x0a, 2, 7, 9]]

/-- It gets the message. -/
theorem validation_bypassed : ¬ ∀ (config : RouterConfig) (actions : List Action),
    let s := Node.init.run config.toConfig actions
    ∀ q ∈ s.router.history.queued, ∃ m, s.router.history.messages[q.origin]? = some m ∧
      q.Shows m ∧ (m.gated = true → q.origin ∈ s.accepted) := by
  intro h
  have hqueued : (Node.init.run RouterConfig.small.toConfig iwantRun).router.history.queued =
      [⟨0, [7, 9], some { Message.zero with topic := .ptr [7], data := .ptr [9] }⟩] := by
    decide +kernel
  have hmessages : (Node.init.run RouterConfig.small.toConfig iwantRun).router.history.messages[0]?.map
      StoredMessage.gated = some true := by
    decide +kernel
  rcases h RouterConfig.small iwantRun _ (hqueued ▸ List.mem_singleton_self _) with
    ⟨m, hm, -, haccepted⟩
  rw [hm] at hmessages
  have hmem := haccepted (Option.some_inj.mp hmessages)
  exact absurd hmem (by decide +kernel)

end LeanLibp2p.Gossipsub
