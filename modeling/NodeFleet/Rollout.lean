import NodeFleet.Text.Split
import NodeFleet.Text.Whole

/-!
# The rollout budget

How many members of a set may be taken down for an update at once.  All numbers
are 32-bit; the only difference that can leave that range is the last one of
`rolloutBudget`, and then the budget is a fault.
-/

namespace NodeFleet

open Text

/-- How many members may be unavailable: a number, or a text such as `25%`. -/
inductive IntOrText
  | number (value : Int)
  | text (value : String)
  deriving DecidableEq, Repr

/-- The percentage that a text states, if it states one. -/
def percentage? (text : String) : Option Int :=
  match stripLast? '%' (trim text.toList) with
  | none => none
  | some amount =>
      match readWhole .int64 (trim amount) with
      | .error _ => none
      | .ok percent => if percent < 0 then none else some percent

/-- A percentage of the desired members, rounded down, and at most all of
them.  The product stops at the bounds of 64 bits, and the share is cut down to
32 bits. -/
def shareOf (desired percent : Int) : Int :=
  let members := max desired 0
  let product := max Bounds.int64.low (min (members * percent) Bounds.int64.high)
  (max 0 (min (product.tdiv 100) members)).bmod 4294967296

/-- The number of members that may be unavailable, which is at least one. -/
def resolveMaxUnavailable (maxUnavailable : Option IntOrText) (desired : Int) : Int :=
  let resolved :=
    match maxUnavailable with
    | none => 1
    | some (.number value) => value
    | some (.text value) =>
        match percentage? value with
        | some percent => shareOf desired percent
        | none => 1
  max resolved 1

/-- Why there is no rollout budget. -/
inductive RolloutFault
  | noMembers (desired : Int)
  | negativeReady (ready : Int)
  | overflow
  deriving DecidableEq, Repr

def RolloutFault.message : RolloutFault → String
  | .noMembers desired => s!"desired replicas must be at least 1, got {desired}"
  | .negativeReady ready => s!"ready replicas must not be negative, got {ready}"
  | .overflow => "attempt to subtract with overflow"

/-- The number of members, taken from the head of the update queue, that may be
updated in this pass. -/
def rolloutBudget (maxUnavailable : Option IntOrText) (desired ready : Int) :
    Except RolloutFault Int :=
  if desired < 1 then .error (.noMembers desired)
  else if ready < 0 then .error (.negativeReady ready)
  else
    let unavailable := resolveMaxUnavailable maxUnavailable desired
    if ready ≤ desired - unavailable then .ok 0
    else
      let budget := unavailable - (desired - ready)
      if Bounds.int32.admits budget then .ok (max 0 (min budget desired)) else .error .overflow

end NodeFleet
