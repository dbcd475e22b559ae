import Mathlib.Data.Nat.Init

/-!
# Machine words

The largest values of the unsigned types of a 64-bit target. They are named without a prefix in the
whole development.
-/

namespace LeanLibp2p.Lib

/-- `UINT64_MAX`. -/
def uint64Max : Nat := 18446744073709551615

/-- `SIZE_MAX`. -/
def sizeMax : Nat := 18446744073709551615

end LeanLibp2p.Lib

namespace LeanLibp2p

export Lib (uint64Max sizeMax)

end LeanLibp2p
