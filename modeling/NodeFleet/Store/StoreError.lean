import NodeFleet.Json.Parser
import NodeFleet.Text.Quoted

/-!
# Failed calls to the cluster

What the cluster answers to a call it refuses, and the errors that callers see.
-/

namespace NodeFleet.Store

open Text

inductive Verdict
  | success
  | failure
  deriving DecidableEq, Repr

/-- What the cluster answers to a call that it refuses. -/
structure ApiStatus where
  verdict : Option Verdict
  code : Nat
  reason : String
  message : String
  deriving DecidableEq, Repr

inductive ApiFailure
  | refused (status : ApiStatus)
  | unnamed
  | unreadable
  deriving DecidableEq, Repr

inductive ObjectError
  | noNamespace
  | internal (message : String)
  | json (cause : Json.SyntaxError)
  deriving DecidableEq, Repr

inductive StoreError
  | call (failure : ApiFailure)
  | event (failure : ApiFailure)
  | object (error : ObjectError)
  deriving DecidableEq, Repr

/-! ## Wording -/

def verdictText : Option Verdict → String
  | none => "None"
  | some .success => "Some(Success)"
  | some .failure => "Some(Failure)"

/-- The wording of a refusal, which gives its message and reason twice. -/
def ApiStatus.text (status : ApiStatus) : String :=
  s!"ApiError: {status.message}: {status.reason} (Status \x7b "
    ++ s!"status: {verdictText status.verdict}, "
    ++ s!"code: {status.code}, message: {quoted status.message}, metadata: None, "
    ++ s!"reason: {quoted status.reason}, details: None \x7d)"

def ApiFailure.message : ApiFailure → String
  | .refused status => status.text
  | .unnamed =>
      "Failed to build request: failed to validate request: A non-empty name is required"
  | .unreadable => "Error deserializing response"

def ObjectError.message : ObjectError → String
  | .noNamespace => "object has no namespace associated"
  | .internal message => s!"internal error: {message}"
  | .json cause => s!"serde_json error: {cause.message}"

def StoreError.message : StoreError → String
  | .call failure => s!"Kubernetes API error: {failure.message}"
  | .event failure => s!"record event error: {failure.message}"
  | .object error => error.message

/-! ## Classification -/

/-- The code of a refused call; of events no code is told. -/
def StoreError.code? : StoreError → Option Nat
  | .call (.refused status) => some status.code
  | _ => none

def StoreError.isNotFound (error : StoreError) : Bool := error.code? == some 404

def StoreError.isConflict (error : StoreError) : Bool := error.code? == some 409

/-- Whether an answer gives as its reason that the object is not there. -/
def ApiStatus.saysNotFound (status : ApiStatus) : Bool := status.reason == "NotFound"

end NodeFleet.Store
