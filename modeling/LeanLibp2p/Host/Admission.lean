import LeanLibp2p.Host.Script

/-!
# What the transport brings in

Connections and streams that come in from the network. Drive only fails for them when the tables of
the host do not fit: a connection is established where no slot is free, or a stream comes in on a
connection that the host does not know.
-/

namespace LeanLibp2p.Host

open LeanLibp2p.Lib

variable {τ : Type} {config : HostConfig τ} {host : LeanLibp2p.Host} {w w' : World τ}

/-! ## One event -/

/-- The event is processed, and leaves nothing behind that the host does not know: the connection has a
    slot; the stream has one, or it was reset and nothing else was done. -/
def Received (config : HostConfig τ) (w : World τ) : TransportEvent → Prop
  | .connEstablished conn attempt userData =>
    ∃ w', hostTransportEventConnEstablished config conn attempt userData w = (.ok (), w') ∧
      hostConnFind config conn w'.host ≠ none
  | .streamIncoming conn stream =>
    ∃ w', hostTransportEventStreamIncoming config conn stream w = (.ok (), w') ∧
      (hostStreamFind config stream w'.host ≠ none ∨
        w' = { w with env := (config.transport.streamReset stream 0 w.env).2 })
  | _ => True

/-- The connection is found in the slot that `host_conn_alloc` gave it. -/
theorem ConnSlot.found {conn i : Nat} {notes : List Note} {host' : LeanLibp2p.Host}
    (h : ConnSlot config conn host i notes host') : hostConnFind config conn host' ≠ none := by
  cases h with
  | known hfind =>
    rw [hfind]
    rintro ⟨⟩
  | new _ hfree =>
    intro hnone
    have hslot := findSlot_none.mp hnone i (findSlot_some hfree).1
    rw [show (setConn i { transportConn := conn, active := true } host).conns i =
      { transportConn := conn, active := true } from Function.update_self ..] at hslot
    simp at hslot

theorem hostConnFind_congr {host' : LeanLibp2p.Host} (h : host'.conns = host.conns) (conn : Nat) :
    hostConnFind config conn host' = hostConnFind config conn host := by
  unfold hostConnFind
  rw [h]

/-- An established connection that finds a slot is received. -/
theorem connEstablished_received {conn userData : Nat} {attempt : Option Nat}
    (hfits : Fits config w.host (.connEstablished conn attempt userData))
    (hroom : Room config 1 w.host) :
    Received config w (.connEstablished conn attempt userData) := by
  rcases hostConnAlloc_cases config conn w with
    ⟨i, notes, host', hslot, halloc⟩ | ⟨hfind, hfree, -⟩
  · rcases answerDial_cases config conn i userData attempt
      { w with host := host', trace := w.trace ++ notes }
      with ⟨dial, host'', userData', hdial, -, hrun⟩
    have hroom' : Room config 1 host'' := by
      unfold Room
      cases hslot <;> cases hdial <;> exact hroom
    have hpush := @hostEventPush_run τ config
      { w with host := host'', trace := w.trace ++ notes } hroom' (.connEstablished i dial userData')
    refine ⟨_, (Comp.bind_of_ok halloc).trans (hrun.trans hpush), ?_⟩
    have hconns : (pushEvent (.connEstablished i dial userData') host'').conns = host'.conns := by
      cases hdial <;> rfl
    rw [hostConnFind_congr hconns]
    exact hslot.found
  · exact (hfits.elim (absurd hfind) (absurd hfree))

/-- A stream that comes in on a known connection is received. -/
theorem streamIncoming_received {conn stream : Nat}
    (hfits : Fits config w.host (.streamIncoming conn stream)) :
    Received config w (.streamIncoming conn stream) := by
  unfold Received
  dsimp only
  unfold hostTransportEventStreamIncoming
  rw [Comp.read_id_bind]
  cases hfind : hostConnFind config conn w.host with
  | none => exact absurd hfind hfits
  | some i =>
    dsimp only
    cases hostConnValidateUsable i w.host with
    | error e => exact ⟨_, transport_bind .., .inr rfl⟩
    | ok _ =>
      dsimp only
      rcases hostStreamAlloc_cases config i stream .inbound none none w with
        ⟨halloc, -⟩ | ⟨s, -, hfree, halloc⟩
      · exact ⟨_, (Comp.bind_of_ok (Comp.result_of_run halloc)).trans (transport_bind ..), .inr rfl⟩
      · refine ⟨_, Comp.bind_of_ok (Comp.result_of_run halloc), .inl fun hnone => ?_⟩
        have hslot := findSlot_none.mp hnone s (findSlot_some hfree).1
        dsimp only [setConn, setStream] at hslot
        rw [Function.update_self] at hslot
        simp [freshStream] at hslot

/-- Every event that fits is received. -/
theorem event_received {event : TransportEvent}
    (hcapacity : hostTransportEventCapacityAvailable config w.host)
    (hfits : Fits config w.host event) : Received config w event := by
  cases event with
  | connEstablished conn attempt userData =>
    refine connEstablished_received hfits ?_
    unfold hostTransportEventCapacityAvailable at hcapacity
    unfold Room
    omega
  | streamIncoming conn stream => exact streamIncoming_received hfits
  | _ => trivial

/-! ## Runs -/

/-- The tables fit the events of the transport, and no callback fails. -/
def Tolerable (config : HostConfig τ) : Note → Prop
  | .took host event => Fits config host event
  | .called _ (.onEvent _) (.error _) => False
  | _ => True

instance (n : Note) : Decidable (Tolerable config n) := by
  cases n with
  | took host event => exact inferInstanceAs (Decidable (Fits config host event))
  | called s call res =>
    cases call with
    | onEvent kind =>
      cases res with
      | ok _ => exact isTrue trivial
      | error _ => exact isFalse id
    | _ => exact isTrue trivial
  | _ => exact isTrue trivial

/-- A started host that is driven with bits of `LIBP2P_HOST_READY_ALL` returns OK. -/
def DriveOk (config : HostConfig τ) (w : World τ) (call : HostCall τ) : Prop :=
  ∀ now ready, call = .drive now ready → hostValidateStarted w.host = .ok () → ready ≤ hostReadyAll →
    (hostDrive config now ready w).1 = .ok ()

/-- A drive fails only for a reason. -/
theorem drive_ok (htransport : ¬ TransportFails config) (hw : Consistent config w.host)
    {call : HostCall τ} (hnotes : ∀ n ∈ (call.step config w).trace, Tolerable config n) :
    DriveOk config w call := by
  rintro now ready rfl hvalid hready
  rcases hostDrive_refines now ready hw with ⟨-, -, -, -, hblamed⟩
  cases hres : (hostDrive config now ready w).1 with
  | ok _ => rfl
  | error e =>
    rcases hblamed ⟨hvalid, hready⟩ e hres with hfails | ⟨s, kind, e', hfailed⟩ | ⟨k, event, hlast, hnot⟩
    · exact absurd hfails htransport
    · exact (hnotes _ hfailed).elim
    · exact absurd (hnotes _ (List.mem_of_getLast? hlast)) hnot

/-- Every drive of a run returns OK. -/
theorem run_drives_ok (htransport : ¬ TransportFails config) {calls : List (HostCall τ)}
    (hw : Consistent config w.host)
    (hnotes : ∀ n ∈ (runFrom (HostCall.step config) w calls).trace, Tolerable config n) :
    RunMeets (HostCall.step config) (DriveOk config) w calls := by
  induction calls generalizing w with
  | nil => exact trivial
  | cons call calls ih =>
    rcases call.step_extends hw with ⟨added, hextends⟩
    rcases @run_extends τ config (call.step config w) calls hextends.consistent with ⟨notes, hrest⟩
    refine ⟨drive_ok htransport hw fun n hn => ?_, ih hextends.consistent hnotes⟩
    refine hnotes n ?_
    rw [runFrom_cons, hrest.trace]
    exact List.mem_append_left _ hn

/-- Remote connections do not break the drive: it returns OK throughout the run, and every event of the
    transport is received where it is taken, which is with room in the queue. -/
structure Undisturbed (config : HostConfig τ) (env : τ) (calls : List (HostCall τ)) : Prop where
  drives : RunMeets (HostCall.step config) (DriveOk config) (World.start env) calls
  received : ∀ w event, .took w.host event ∈ (hostRun config env calls).trace →
    hostTransportEventCapacityAvailable config w.host → Received config w event

namespace Script

/-- The transport of a script does not fail by itself. -/
theorem not_transportFails : ¬ TransportFails narrow := by
  rintro (⟨now, ready, env, e, he⟩ | ⟨env, e, he, hne⟩ | ⟨connRelease, conn, env, e, hsome, -⟩)
  · cases he
  · change (nextEvent env).1 = .error e at he
    unfold nextEvent at he
    split at he
    · cases he
      exact hne rfl
    · cases he
  · cases hsome

end Script

/-- A connection is established, closed, and handed over, and another one is established. -/
def orderlyCalls : List (HostCall Script) :=
  [.outside { events := [.connEstablished 1 none 0, .connClosed 1 none none 0 0] }, .drive 0 0,
    .nextEvent, .nextEvent, .drive 0 0, .outside { events := [.connEstablished 2 none 0] },
    .drive 0 0]

/-- Another one is established while the slot of the first is in use. -/
def crowdedCalls : List (HostCall Script) :=
  [.outside { events := [.connEstablished 1 none 0, .connEstablished 2 none 0] }, .drive 0 0]

end LeanLibp2p.Host
