import LeanLibp2p.Host.Calls

/-!
# Runs of the host

A host that was started, and what happens to it: the application drives it and makes its calls, in any
order, and between the calls the transport and the application change by themselves. Every run is a
path of the steps of the host, and leaves its tables consistent.
-/

namespace LeanLibp2p.Host

open LeanLibp2p.Lib

variable {τ : Type}

/-- What happens to a host. -/
inductive HostCall (τ : Type) where
  | drive (now ready : Nat)
  | nextEvent
  | dial (multiaddr : Bytes) (userData : Nat)
  | openStream (conn : Nat) (protocolId : Bytes) (fallbackId : Option Bytes) (userData : Nat)
  | cancelOpen (streamOpen expectedUserData : Nat)
  | close (appErrorCode : Nat)
  | connClose (conn appErrorCode : Nat)
  | streamRead (stream outLen : Nat)
  | streamWrite (stream : Nat) (data : Bytes) (fin : Bool)
  | streamFinish (stream : Nat)
  | streamReset (stream appErrorCode : Nat)
  | streamStopSending (stream appErrorCode : Nat)
  | streamSetUserData (stream userData : Nat)
  /-- Whatever happens outside of the host. -/
  | outside (env : τ)

/-- What a call leaves behind. -/
def HostCall.step (config : HostConfig τ) (w : World τ) : HostCall τ → World τ
  | .drive now ready => (hostDrive config now ready w).2
  | .nextEvent => (hostNextEvent config w).2
  | .dial multiaddr userData => (hostDial config multiaddr userData w).2
  | .openStream conn protocolId fallbackId userData =>
    (hostOpenStream config conn protocolId fallbackId userData w).2
  | .cancelOpen streamOpen expectedUserData =>
    (hostStreamOpenCancel config streamOpen expectedUserData w).2
  | .close appErrorCode => (hostClose config appErrorCode w).2
  | .connClose conn appErrorCode => (hostConnClose config conn appErrorCode w).2
  | .streamRead stream outLen => (hostStreamRead config stream outLen w).2
  | .streamWrite stream data fin => (hostStreamWrite config stream data fin w).2
  | .streamFinish stream => (hostStreamFinish config stream w).2
  | .streamReset stream appErrorCode => (hostStreamReset config stream appErrorCode w).2
  | .streamStopSending stream appErrorCode =>
    (hostStreamStopSending config stream appErrorCode w).2
  | .streamSetUserData stream userData => (hostStreamSetUserData stream userData w).2
  | .outside env => { w with env := env }

/-- A host behind `libp2p_host_start`. -/
def World.start (env : τ) : World τ := ⟨started, {}, env, []⟩

/-- A run of the host. -/
def hostRun (config : HostConfig τ) (env : τ) (calls : List (HostCall τ)) : World τ :=
  runFrom (HostCall.step config) (World.start env) calls

variable {config : HostConfig τ} {w : World τ}

/-- A call is a path of steps. -/
structure Extends (config : HostConfig τ) (w w' : World τ) (notes : List Note) : Prop where
  trace : w'.trace = w.trace ++ notes
  path : Lib.Path (HostStep config) w.host notes w'.host
  consistent : Consistent config w'.host

theorem Refines.extends {α : Type} {c : HostM τ α} {Q : Except HostErr α → World τ → Prop}
    (h : Refines config c w Q) (hw : Consistent config w.host) :
    ∃ notes, Extends config w (c w).2 notes := by
  rcases h hw with ⟨notes, htrace, hpath, hconsistent, -⟩
  exact ⟨notes, htrace, hpath, hconsistent⟩

/-- Every call does steps of the host. -/
theorem HostCall.step_extends (call : HostCall τ) (hw : Consistent config w.host) :
    ∃ notes, Extends config w (call.step config w) notes := by
  cases call with
  | drive now ready => exact (hostDrive_refines now ready).extends hw
  | nextEvent => exact hostNextEvent_refines.extends hw
  | dial multiaddr userData => exact (hostDial_refines multiaddr userData).extends hw
  | openStream conn protocolId fallbackId userData =>
    exact (hostOpenStream_refines conn protocolId fallbackId userData).extends hw
  | cancelOpen streamOpen expectedUserData =>
    exact (hostStreamOpenCancel_refines streamOpen expectedUserData).extends hw
  | close appErrorCode => exact (hostClose_refines appErrorCode).extends hw
  | connClose conn appErrorCode => exact (hostConnClose_refines conn appErrorCode).extends hw
  | streamRead stream outLen => exact (hostStreamRead_refines stream outLen).extends hw
  | streamWrite stream data fin => exact (hostStreamWrite_refines stream data fin).extends hw
  | streamFinish stream => exact (hostStreamCall_refines stream _).extends hw
  | streamReset stream appErrorCode => exact (hostStreamCall_refines stream _).extends hw
  | streamStopSending stream appErrorCode => exact (hostStreamCall_refines stream _).extends hw
  | streamSetUserData stream userData =>
    exact (hostStreamSetUserData_refines stream userData).extends hw
  | outside env => exact ⟨[], (List.append_nil _).symm, .nil _, hw⟩

/-- Every run does steps of the host. -/
theorem run_extends (calls : List (HostCall τ)) (hw : Consistent config w.host) :
    ∃ notes, Extends config w (runFrom (HostCall.step config) w calls) notes := by
  induction calls generalizing w with
  | nil => exact ⟨[], (List.append_nil _).symm, .nil _, hw⟩
  | cons call calls ih =>
    rcases call.step_extends hw with ⟨notes, hstep⟩
    rcases ih hstep.consistent with ⟨notes', hrest⟩
    refine ⟨notes ++ notes', ?_, hstep.path.append hrest.path, hrest.consistent⟩
    rw [runFrom_cons, hrest.trace, hstep.trace, List.append_assoc]

/-- From the start the trace of a run is that of its steps. -/
theorem hostRun_path (config : HostConfig τ) (env : τ) (calls : List (HostCall τ)) :
    Lib.Path (HostStep config) started (hostRun config env calls).trace
      (hostRun config env calls).host := by
  rcases @run_extends τ config (World.start env) calls .started with ⟨notes, hrun⟩
  have htrace : (hostRun config env calls).trace = notes := hrun.trace
  rw [htrace]
  exact hrun.path

theorem hostRun_consistent (config : HostConfig τ) (env : τ) (calls : List (HostCall τ)) :
    Consistent config (hostRun config env calls).host := by
  rcases @run_extends τ config (World.start env) calls .started with ⟨notes, hrun⟩
  exact hrun.consistent

end LeanLibp2p.Host
