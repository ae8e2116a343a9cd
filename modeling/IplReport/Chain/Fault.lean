import IplReport.Text.Numeral

/-!
# Faults on a walk

Why a walk along a chain of control blocks does not reach its end.
-/

namespace IplReport

/-- Why a link cannot be followed. -/
inductive LinkFault where
  /-- The link holds zero. -/
  | null
  /-- The block it leads to would end past the limit. -/
  | outOfRange (address limit : UInt64)
  /-- Bytes that are needed cannot be had. -/
  | unmapped (address size : UInt64)
  deriving DecidableEq, Repr

def LinkFault.message : LinkFault → String
  | null => "null pointer"
  | outOfRange address limit =>
    s!"address {hexLower address.toNat} is outside the addressable range "
      ++ s!"(limit {hexLower limit.toNat})"
  | unmapped address size => s!"{size} bytes at {hexLower address.toNat} are not accessible"

/-- Why a walk does not reach its end. -/
inductive WalkError where
  /-- Nobody knows where the chain starts. -/
  | noRoot
  | rootUnavailable (block : String) (address size : UInt64)
  /-- The link of a step cannot be followed; steps are counted from zero. -/
  | brokenLink (step : Nat) (block link : String) (fault : LinkFault)
  deriving DecidableEq, Repr

def WalkError.message : WalkError → String
  | noRoot => "no control-block root is available"
  | rootUnavailable block address size =>
    s!"root block {block} is not accessible at {hexLower address.toNat} ({size} bytes)"
  | brokenLink step block link fault =>
    s!"broken link at step {step}: {block}.{link}: {fault.message}"

end IplReport
