import LeanLibp2p.Gossipsub.Codec.Refusal
import LeanLibp2p.Gossipsub.Config

/-!
# Measuring an RPC and then writing it

The size functions accept every 64-bit number, the writers only those below `2^63`. The lengths in an
RPC stay below that in any buffer, so what is measured is written unless the backoff of a PRUNE is
larger.
-/

namespace LeanLibp2p.Gossipsub

open LeanLibp2p.Lib.Protobuf

/-- What is measured is written: with room for `n` bytes the encoder writes exactly `n`, with less it
    says `BUF_TOO_SMALL` and that it needs `n`, and where the size function fails it fails alike. No
    buffer is larger than `PTRDIFF_MAX`. -/
structure MeasuresThenWrites (size : Except GossipsubErr Nat) (encode : Nat → Except EncodeErr Bytes) :
    Prop where
  written : ∀ n cap, size = .ok n → cap ≤ ptrdiffMax → n ≤ cap →
    ∃ bytes, encode cap = .ok bytes ∧ bytes.length = n
  tooSmall : ∀ n cap, size = .ok n → cap < n → encode cap = .error ⟨.bufTooSmall, some n⟩
  fails : ∀ e cap, size = .error e → encode cap = .error ⟨e, none⟩

/-- The RPC is refused by the size function or larger than any buffer, or its backoffs are below
    `2^63` seconds. -/
def BackoffsFit (size : Except GossipsubErr Nat) (rpc : Rpc) : Prop :=
  ∀ n, size = .ok n → n ≤ ptrdiffMax → ∀ prune ∈ rpc.control.prune, prune.backoffSeconds < 2 ^ 63

/-- A short RPC can be written exactly if the backoffs of its PRUNEs can. -/
theorem rpcFit_iff {rpc : Rpc} (hshort : (writeAll uvarintCode (rpcFields rpc)).length < 2 ^ 63) :
    RpcFit rpc ↔ ∀ prune ∈ rpc.control.prune, prune.backoffSeconds < 2 ^ 63 := by
  refine ⟨fun hfit prune hmem => ?_, fun hbackoffs => rpcFit_of_short hbackoffs hshort⟩
  have hcontrol : rpc.control ∈ writtenControl rpc := by
    unfold writtenControl
    rw [if_neg]
    · exact List.mem_singleton_self _
    · intro hempty
      simp only [RpcControl.isEmpty, Bool.and_eq_true, List.isEmpty_iff] at hempty
      rw [hempty.1.2] at hmem
      cases hmem
  have hprune := (hfit.control.1 rpc.control hcontrol).prune.1 prune hmem
  by_cases hzero : prune.backoffSeconds = 0
  · omega
  · refine ((varintField_fits fieldPruneBackoff prune.backoffSeconds).mp (hprune _ ?_)).2
    unfold pruneFields
    rw [if_pos hzero]
    exact List.mem_cons_of_mem _ (List.mem_singleton_self _)

/-! ## The encoders -/

/-- What the shape that all encoders share gives: only the writing itself can still go wrong. -/
theorem measuresThenWrites_iff {size : Except GossipsubErr Nat} {fields : Nat → Except GossipsubErr Bytes}
    {valid fits : Prop} {bytes : Bytes}
    (h : Encodes size (fun cap => encodeChecked size cap (fields cap)) valid fits bytes) :
    MeasuresThenWrites size (fun cap => encodeChecked size cap (fields cap)) ↔
      ∀ n, size = .ok n → n ≤ ptrdiffMax → fits := by
  constructor
  · intro hmeasures n hn hle
    obtain ⟨out, hout, -⟩ := hmeasures.written n n hn hle (Nat.le_refl n)
    exact ((h.encode_ok n out).mp hout).2.2.2.1
  · intro hfits
    refine ⟨fun n cap hn hcap hle => ?_, fun n cap hn hlt => ?_, fun e cap he => ?_⟩
    · obtain ⟨hv, rfl, hmax⟩ := (h.size_ok n).mp hn
      exact ⟨bytes, (h.encode_ok cap bytes).mpr ⟨hv, hmax, hle, hfits _ hn (by omega), rfl⟩, rfl⟩
    · unfold encodeChecked
      rw [hn]
      exact if_pos hlt
    · unfold encodeChecked
      rw [he]

/-- The body of an RPC is written as it was measured exactly if the backoffs of its PRUNEs fit, and so is
    its frame. -/
theorem rpcEncode_measures_iff (version : ProtocolVersion) (limits : Limits) (rpc : Rpc) :
    (MeasuresThenWrites (rpcBodySize version limits rpc) (rpcBodyEncode version limits rpc) ↔
        BackoffsFit (rpcBodySize version limits rpc) rpc) ∧
      (MeasuresThenWrites (rpcFrameSize version limits rpc) (rpcFrameEncode version limits rpc) ↔
        BackoffsFit (rpcFrameSize version limits rpc) rpc) := by
  constructor
  · refine (measuresThenWrites_iff (rpcBodyEncode_encodes version limits rpc)).trans ?_
    refine forall₃_congr fun n hn hle => rpcFit_iff ?_
    have hlen := ((rpcBodySize_eq_ok version limits rpc n).mp hn).2.1
    unfold ptrdiffMax at hle
    omega
  · refine (measuresThenWrites_iff (rpcFrameEncode_encodes version limits rpc)).trans ?_
    refine forall₃_congr fun n hn hle => ?_
    have hlen := ((rpcFrameSize_eq_ok version limits rpc n).mp hn).2.1
    unfold frameBytes at hlen
    rw [List.length_append] at hlen
    unfold ptrdiffMax at hle
    have hshort : (writeAll uvarintCode (rpcFields rpc)).length < 2 ^ 63 := by omega
    rw [rpcFit_iff hshort]
    exact and_iff_left hshort

/-- A PRUNE with a backoff of `2^63` seconds. -/
def longPrune : Rpc := ⟨[], [], ⟨[], [], [], [⟨.ptr [7], [], 2 ^ 63⟩], []⟩⟩

/-- It is measured, and then cannot be written. -/
theorem rpcEncode_not_measures : ¬ ∀ (version : ProtocolVersion) (limits : Limits) (rpc : Rpc),
    MeasuresThenWrites (rpcBodySize version limits rpc) (rpcBodyEncode version limits rpc) ∧
      MeasuresThenWrites (rpcFrameSize version limits rpc) (rpcFrameEncode version limits rpc) := by
  intro hall
  obtain ⟨bytes, hbytes, -⟩ := (hall .v11 defaultLimits longPrune).1.written 18 18 (by decide +kernel)
    (by decide) (Nat.le_refl 18)
  have hmalformed : rpcBodyEncode .v11 defaultLimits longPrune 18 =
      .error ⟨.malformed, none⟩ := by decide +kernel
  rw [hmalformed] at hbytes
  cases hbytes

end LeanLibp2p.Gossipsub
