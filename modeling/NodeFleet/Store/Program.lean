import NodeFleet.Store.Kind
import NodeFleet.Store.StoreError

/-!
# Programs over the cluster

A program is finished, or makes a call and goes on with the answer.  A call may
also never be answered.  Nothing here says what the cluster answers: a program
is run against any source of answers.
-/

namespace NodeFleet.Store

inductive Severity
  | normal
  | warning
  deriving DecidableEq, Repr

structure Event where
  severity : Severity
  reason : String
  note : String
  deriving DecidableEq, Repr

inductive Request
  | list (kind : Kind) (space selector : String)
  | get (kind : Kind) (space name : String)
  | create (kind : Kind) (space : String) (object : kind.Object)
  | delete (kind : Kind) (space name : String)
  | patch (kind : Kind) (space name : String) (patch : Json)
  | replaceStatus (kind : Kind) (space name : String) (object : kind.Object)
  | publish (event : Event)
  | findDefinition (kind : Kind)

/-- What the cluster gives for a call that succeeds. -/
@[reducible]
def Request.Reply : Request → Type
  | .list kind _ _ => List kind.Object
  | .get kind _ _ => kind.Object
  | .create kind _ _ => kind.Object
  | .delete _ _ _ => Unit
  | .patch kind _ _ _ => kind.Object
  | .replaceStatus kind _ _ _ => kind.Object
  | .publish _ => Unit
  | .findDefinition _ => Unit

/-- The answer to a call; there may be none. -/
abbrev Answer (request : Request) : Type := Option (Except ApiFailure request.Reply)

/-- A program that gives a value of type `α`. -/
inductive Program (α : Type)
  | done (value : α)
  | call (request : Request) (resume : Answer request → Program α)

namespace Program

variable {α β : Type}

/-- Goes on with the value of a program. -/
def bind (next : α → Program β) : Program α → Program β
  | .done value => next value
  | .call request resume => .call request fun answer => (resume answer).bind next

instance : Monad Program where
  pure := .done
  bind program next := program.bind next

def ask (request : Request) : Program (Answer request) := .call request .done

/-- Runs a program against answers that depend on a world, which calls may
change. -/
def run {World : Type} (serve : (request : Request) → World → Answer request × World) :
    Program α → World → α × World
  | .done value, world => (value, world)
  | .call request resume, world =>
      let (answer, world) := serve request world
      (resume answer).run serve world

@[simp] theorem bind_done (value : α) (next : α → Program β) :
    (Program.done value).bind next = next value := rfl

@[simp] theorem bind_call (request : Request) (resume : Answer request → Program α)
    (next : α → Program β) :
    (Program.call request resume).bind next =
      .call request fun answer => (resume answer).bind next := rfl

theorem bind_pure (program : Program α) : program.bind .done = program := by
  induction program with
  | done value => rfl
  | call request resume inductionHypothesis => simp [inductionHypothesis]

theorem bind_assoc {γ : Type} (program : Program α) (next : α → Program β)
    (last : β → Program γ) :
    (program.bind next).bind last = program.bind fun value => (next value).bind last := by
  induction program with
  | done value => rfl
  | call request resume inductionHypothesis => simp [inductionHypothesis]

instance : LawfulMonad Program :=
  LawfulMonad.mk' Program bind_pure (fun _ _ => rfl) bind_assoc

/-- A program and its continuation run one after the other. -/
theorem run_bind {World : Type} (serve : (request : Request) → World → Answer request × World)
    (program : Program α) (next : α → Program β) (world : World) :
    (program.bind next).run serve world =
      let finished := program.run serve world
      (next finished.1).run serve finished.2 := by
  induction program generalizing world with
  | done value => rfl
  | call request resume inductionHypothesis =>
      simp only [bind_call, run]
      exact inductionHypothesis _ _

end Program

end NodeFleet.Store
