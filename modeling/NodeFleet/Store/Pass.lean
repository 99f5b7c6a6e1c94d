import NodeFleet.Settings
import NodeFleet.Store.Exchange

/-!
# Passes

A pass carries a state and may halt early: with an error, because it broke down,
or because a call was not answered.  The state reached so far survives a halt.
A deadline turns a pass that waits for ever into one that failed.
-/

namespace NodeFleet.Store

open Calendar Resource

/-- Why there is no result. -/
inductive Halt (ε : Type)
  | failed (error : ε)
  | broken (message : String)
  | unanswered
  deriving Repr

/-- A program with a state of type `σ` that may halt. -/
abbrev Pass (σ : Type) : Type → Type := ExceptT (Halt PassError) (StateT σ Program)

/-- What a controller does with one object. -/
abbrev Control : Type → Type := ExceptT (Halt ControlError) Program

namespace Pass

variable {σ α : Type}

def perform (exchange : Exchange α) : Pass σ α := do
  match ← (exchange.run : Program (Option α)) with
  | some value => return value
  | none => throw .unanswered

/-- Fails with an error that may go away. -/
def failTransient (cause : Cause) : Pass σ α := throw (.failed (.transient cause))

/-- Fails with an error that someone must act on. -/
def failUnrecoverable (cause : Cause) : Pass σ α := throw (.failed (.unrecoverable cause))

/-- Takes part in an exchange whose errors may go away. -/
def attempt (exchange : Exchange (Except StoreError α)) : Pass σ α := do
  match ← perform exchange with
  | .ok value => return value
  | .error error => failTransient (.store error)

/-- The value, or an unrecoverable error if there is none. -/
def orUnrecoverable (cause : Cause) (value : Option α) : Pass σ α :=
  match value with
  | some value => return value
  | none => failUnrecoverable cause

/-- The namespace of an object, without which there can be no pass. -/
def namespaceOf (metadata : ObjectMeta) : Pass σ String :=
  orUnrecoverable (.object .noNamespace) metadata.namespaceName

/-- Publishes an event; failing to do so is no error. -/
def notify (reason note : String) : Pass σ Unit := do
  let _ ← perform (Exchange.record ⟨.normal, reason, note⟩)

end Pass

namespace Control

variable {σ α : Type}

def fail (error : ControlError) : Control α := throw (.failed error)

def perform (exchange : Exchange α) : Control α := do
  match ← (exchange.run : Program (Option α)) with
  | some value => return value
  | none => throw .unanswered

/-- Takes part in an exchange that has to succeed. -/
def attempt (exchange : Exchange (Except StoreError α)) : Control α := do
  match ← perform exchange with
  | .ok value => return value
  | .error error => fail (.store error)

/-- Runs a pass from a state; one that waits for an answer for ever fails when
its time is over. -/
def withDeadline (limit : Duration) (pass : Pass σ α) (state : σ) :
    Control (Except PassError α × σ) := do
  let (result, state) ← ((pass.run).run state : Program _)
  match result with
  | .ok value => return (.ok value, state)
  | .error (.failed error) => return (.error error, state)
  | .error .unanswered => return (.error (.transient (.deadline limit)), state)
  | .error (.broken message) => throw (.broken message)

/-- Runs a pass without a state, however long it waits. -/
def carryOut (pass : Pass Unit α) : Control (Except PassError α) := do
  let (result, _) ← ((pass.run).run () : Program _)
  match result with
  | .ok value => return .ok value
  | .error (.failed error) => return .error error
  | .error .unanswered => throw .unanswered
  | .error (.broken message) => throw (.broken message)

/-- Publishes a warning; failing to do so is no error. -/
def warn (message : String) : Control Unit := do
  let _ ← perform (Exchange.record ⟨.warning, "ReconcileFailed", message⟩)

/-- Publishes a warning of an error that someone must act on, and fails with
it. -/
def failPass (error : PassError) : Control α := do
  if !error.isTransient then warn error.message
  fail (.pass error)

end Control

end NodeFleet.Store
