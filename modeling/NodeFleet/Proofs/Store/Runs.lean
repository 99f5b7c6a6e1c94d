import NodeFleet.Proofs.Store.Service

/-!
# Runs of programs

A program runs against a server that answers as it may.  A run leaves a ledger:
what the server holds at its end, and every call that was made.  A program
ensures a statement when all of its runs end in it.
-/

namespace NodeFleet.Store

/-- A call that was made, with its answer and with what the server held before
and afterwards. -/
structure Call where
  request : Request
  answer : Answer request
  before : Registry
  after : Registry

/-- What a server holds, and the calls that have been made so far. -/
structure Ledger where
  registry : Registry
  calls : List Call

namespace Ledger

def opened (registry : Registry) : Ledger := ⟨registry, []⟩

def add (ledger : Ledger) (request : Request) (answer : Answer request) (after : Registry) :
    Ledger :=
  ⟨after, ledger.calls ++ [⟨request, answer, ledger.registry, after⟩]⟩

@[simp] theorem calls_opened (registry : Registry) : (opened registry).calls = [] := rfl

@[simp] theorem calls_add (ledger : Ledger) (request : Request) (answer : Answer request)
    (after : Registry) :
    (ledger.add request answer after).calls =
      ledger.calls ++ [⟨request, answer, ledger.registry, after⟩] := rfl

end Ledger

namespace Program

variable {α β : Type}

/-- A program may run from one ledger to a value and another ledger. -/
inductive Runs (mayFail : Request → Prop) : Program α → Ledger → α → Ledger → Prop
  | done (value : α) (ledger : Ledger) : Runs mayFail (.done value) ledger value ledger
  | call {request : Request} {resume : Answer request → Program α} {ledger final : Ledger}
      {answer : Answer request} {after : Registry} {value : α}
      (served : Serves mayFail request ledger.registry answer after)
      (rest : Runs mayFail (resume answer) (ledger.add request answer after) value final) :
      Runs mayFail (.call request resume) ledger value final

/-- Every run of a program from a ledger ends in a value and a ledger of which a
statement holds. -/
def Ensures (mayFail : Request → Prop) (program : Program α) (post : α → Ledger → Prop)
    (ledger : Ledger) : Prop :=
  ∀ value final, Runs mayFail program ledger value final → post value final

variable {mayFail : Request → Prop} {post : α → Ledger → Prop} {ledger : Ledger}

@[simp] theorem ensures_done_iff (value : α) :
    (Program.done value).Ensures mayFail post ledger ↔ post value ledger := by
  constructor
  · exact fun ensured => ensured value ledger (.done value ledger)
  · intro holds value' final runs
    cases runs
    exact holds

theorem ensures_call_iff {request : Request} {resume : Answer request → Program α} :
    (Program.call request resume).Ensures mayFail post ledger ↔
      ∀ answer after, Serves mayFail request ledger.registry answer after →
        (resume answer).Ensures mayFail post (ledger.add request answer after) := by
  constructor
  · exact fun ensured answer after served value final runs =>
      ensured value final (.call served runs)
  · intro holds value final runs
    cases runs with
    | call served rest => exact holds _ _ served value final rest

/-- What a program and its continuation ensure is what the program ensures of the
continuation. -/
theorem ensures_bind_iff {next : α → Program β} {post : β → Ledger → Prop}
    (program : Program α) :
    (program.bind next).Ensures mayFail post ledger ↔
      program.Ensures mayFail (fun value => (next value).Ensures mayFail post) ledger := by
  induction program generalizing ledger with
  | done value => rw [bind_done, ensures_done_iff]
  | call request resume inductionHypothesis =>
      simp only [bind_call, ensures_call_iff, inductionHypothesis]

theorem Runs.bind {program : Program α} {next : α → Program β} {middle final : Ledger} {value : α}
    {result : β} (first : program.Runs mayFail ledger value middle)
    (rest : (next value).Runs mayFail middle result final) :
    (program.bind next).Runs mayFail ledger result final := by
  induction first with
  | done value ledger => exact rest
  | call served _ inductionHypothesis => exact .call served (inductionHypothesis rest)

theorem Ensures.mono {program : Program α} {post' : α → Ledger → Prop}
    (ensured : program.Ensures mayFail post ledger)
    (weaker : ∀ value final, post value final → post' value final) :
    program.Ensures mayFail post' ledger :=
  fun value final runs => weaker value final (ensured value final runs)

theorem Ensures.and {program : Program α} {post' : α → Ledger → Prop}
    (left : program.Ensures mayFail post ledger)
    (right : program.Ensures mayFail post' ledger) :
    program.Ensures mayFail (fun value final => post value final ∧ post' value final) ledger :=
  fun value final runs => ⟨left value final runs, right value final runs⟩

/-- An answer to a call, with which a ledger goes on: some calls fail, and the others are
answered by a server that never fails. -/
def serve (fails : Request → Bool) (request : Request) (ledger : Ledger) :
    Answer request × Ledger :=
  if fails request then
    (some (.error .unreadable), ledger.add request (some (.error .unreadable)) ledger.registry)
  else
    let answered := respond request ledger.registry
    (answered.1, ledger.add request answered.1 answered.2)

/-- A program runs where the calls that fail may fail. -/
theorem runs_run {fails : Request → Bool} (may : ∀ request, fails request = true → mayFail request)
    (program : Program α) (ledger : Ledger) :
    Runs mayFail program ledger (program.run (serve fails) ledger).1
      (program.run (serve fails) ledger).2 := by
  induction program generalizing ledger with
  | done value => exact .done value ledger
  | call request resume inductionHypothesis =>
      simp only [run, serve]
      split
      · rename_i fault
        exact .call (.failed (may request fault) rfl) (inductionHypothesis _ _)
      · exact .call (serves_respond mayFail request ledger.registry) (inductionHypothesis _ _)

theorem exists_runs (mayFail : Request → Prop) (program : Program α) (ledger : Ledger) :
    ∃ value final, Runs mayFail program ledger value final := by
  have never : ∀ request, (fun _ : Request => false) request = true → mayFail request :=
    fun _ fails => nomatch fails
  exact ⟨_, _, runs_run never program ledger⟩

/-! ## The calls that a program can make -/

/-- Whatever the answers, a program makes no calls but allowed ones, and gives only values
of which a statement holds. -/
def Makes (allowed : Request → Prop) (gives : α → Prop) : Program α → Prop
  | .done value => gives value
  | .call request resume => allowed request ∧ ∀ answer, (resume answer).Makes allowed gives

variable {allowed : Request → Prop} {gives : α → Prop}

theorem makes_ask {request : Request} (permitted : allowed request) :
    (Program.ask request).Makes allowed fun _ => True :=
  ⟨permitted, fun _ => trivial⟩

theorem makes_bind {gives' : β → Prop} {program : Program α} {next : α → Program β}
    (first : program.Makes allowed gives)
    (rest : ∀ value, gives value → (next value).Makes allowed gives') :
    (program.bind next).Makes allowed gives' := by
  induction program with
  | done value => exact rest value first
  | call request resume inductionHypothesis =>
      exact ⟨first.1, fun answer => inductionHypothesis answer (first.2 answer)⟩

theorem Makes.mono {program : Program α} {allowed' : Request → Prop} {gives' : α → Prop}
    (makes : program.Makes allowed gives)
    (permits : ∀ request, allowed request → allowed' request)
    (weaker : ∀ value, gives value → gives' value) : program.Makes allowed' gives' := by
  induction program with
  | done value => exact weaker value makes
  | call request resume inductionHypothesis =>
      exact ⟨permits request makes.1, fun answer => inductionHypothesis answer (makes.2 answer)⟩

/-- What every allowed call keeps, a run that makes no other calls keeps. -/
theorem Makes.ensures (holds : Ledger → Prop)
    (kept : ∀ (ledger : Ledger) (request : Request) (answer : Answer request) (after : Registry),
      allowed request → Serves mayFail request ledger.registry answer after → holds ledger →
        holds (ledger.add request answer after))
    {program : Program α} (makes : program.Makes allowed gives) (start : holds ledger) :
    program.Ensures mayFail (fun value final => gives value ∧ holds final) ledger := by
  intro value final runs
  induction runs with
  | done value ledger => exact ⟨makes, start⟩
  | call served rest inductionHypothesis =>
      exact inductionHypothesis (makes.2 _) (kept _ _ _ _ makes.1 served start)

end Program

/-- Halts cannot be compared, but what a result gives can. -/
theorem eq_ok_of_toOption {ε α : Type} {result : Except ε α} {value : α}
    (gives : result.toOption = some value) : result = .ok value := by
  cases result with
  | ok other => exact congrArg Except.ok (Option.some.inj gives)
  | error error => cases gives

end NodeFleet.Store
