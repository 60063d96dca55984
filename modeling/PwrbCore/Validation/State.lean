/-
  Validation.State — HOW A CHECK FAILS (`CValidationState` of `consensus/validation.h`).

  A validation function returns a value or one of the failures below.  What the caller
  does with a failure depends on its kind: `state.IsInvalid()` is true for `invalid` only,
  and a block is marked permanently invalid unless corruption was possible.
-/
import PwrbCore.Lib.Checked

namespace PwrbCore

inductive ValidationError where
  /-- `state.DoS(nDoS, …, strRejectReason, corruptionPossible)` or `state.Invalid(…)` -/
  | invalid (nDoS : Nat) (strRejectReason : String) (corruptionPossible : Bool)
  /-- `state.Error(…)`: `AbortNode` -/
  | error (strRejectReason : String)
  /-- `return false` with the state left valid -/
  | returned
  /-- an exception or a failed assertion leaves the function -/
  | thrown
  deriving DecidableEq, Repr

abbrev Validated (α : Type) := Except ValidationError α

def dos (nDoS : Nat) (reason : String := "") : ValidationError := .invalid nDoS reason false

/-- `state.IsInvalid()` after the failure. -/
def ValidationError.isInvalid : ValidationError → Bool
  | .invalid _ _ _ => true
  | _ => false

/-- A failure on top of which the caller reports its own: penalties add up, reason and corruption flag are the
caller's, a system error stays. -/
def ValidationError.andDoS (e : ValidationError) (level : Nat) (reason : String := "")
    (corruption : Bool := false) : ValidationError :=
  match e with
  | .invalid nDoS _ _ => .invalid (nDoS + level) reason corruption
  | .error msg => .error msg
  | .returned => .invalid level reason corruption
  | .thrown => .thrown

end PwrbCore
