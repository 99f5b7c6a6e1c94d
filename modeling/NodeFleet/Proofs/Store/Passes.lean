import NodeFleet.Proofs.Store.Exchanges
import NodeFleet.Store.Pass

/-!
# What passes ensure

A pass ensures a statement of its value, its state and the ledger when it gets
to its end, and another statement when it halts.  The rules follow the forms of
which passes are made.
-/

namespace NodeFleet.Store

open Calendar Resource

variable {mayFail : Request → Prop} {σ α β : Type}

def haltOf : Option StoreError → Halt PassError
  | some error => .failed (.transient (.store error))
  | none => .unanswered

namespace Pass

/-- What is to hold of the outcome of a pass, by whether it got to its end. -/
def settles (done : α → σ → Ledger → Prop) (halted : Halt PassError → σ → Ledger → Prop) :
    Except (Halt PassError) α × σ → Ledger → Prop
  | (.ok value, state) => done value state
  | (.error halt, state) => halted halt state

/-- Every run of a pass ends, or halts, in a state and a ledger of which a
statement holds. -/
def Ensures (mayFail : Request → Prop) (pass : Pass σ α) (done : α → σ → Ledger → Prop)
    (halted : Halt PassError → σ → Ledger → Prop) (state : σ) (ledger : Ledger) : Prop :=
  Program.Ensures mayFail (pass.run.run state : Program _) (settles done halted) ledger

/-- A pass may run from a state and a ledger to a result with another state and
ledger. -/
def Runs (mayFail : Request → Prop) (pass : Pass σ α) (state : σ) (ledger : Ledger)
    (result : Except (Halt PassError) α) (state' : σ) (final : Ledger) : Prop :=
  Program.Runs mayFail (pass.run.run state : Program _) ledger (result, state') final

variable {done : α → σ → Ledger → Prop} {halted : Halt PassError → σ → Ledger → Prop}
  {state : σ} {ledger : Ledger}

theorem Ensures.settles {pass : Pass σ α} {result : Except (Halt PassError) α} {state' : σ}
    {final : Ledger} (ensured : Ensures mayFail pass done halted state ledger)
    (runs : Runs mayFail pass state ledger result state' final) :
    Pass.settles done halted (result, state') final :=
  ensured _ _ runs

/-- However a pass goes, a statement of its state and ledger holds in the end. -/
abbrev EnsuresAlways (mayFail : Request → Prop) (pass : Pass σ α) (holds : σ → Ledger → Prop)
    (state : σ) (ledger : Ledger) : Prop :=
  Ensures mayFail pass (fun _ => holds) (fun _ => holds) state ledger

theorem EnsuresAlways.of_runs {pass : Pass σ α} {holds : σ → Ledger → Prop}
    {result : Except (Halt PassError) α} {state' : σ} {final : Ledger}
    (always : EnsuresAlways mayFail pass holds state ledger)
    (runs : Runs mayFail pass state ledger result state' final) : holds state' final := by
  have settled := Ensures.settles always runs
  cases result with
  | ok value => exact settled
  | error halt => exact settled

theorem ensures_pure (value : α) (holds : done value state ledger) :
    Ensures mayFail (pure value) done halted state ledger :=
  (Program.ensures_done_iff _).2 holds

theorem ensures_throw (halt : Halt PassError) (holds : halted halt state ledger) :
    Ensures mayFail (throw halt) done halted state ledger :=
  (Program.ensures_done_iff _).2 holds

theorem ensures_bind {pass : Pass σ β} {next : β → Pass σ α}
    (first : Ensures mayFail pass (fun value => Ensures mayFail (next value) done halted)
      halted state ledger) :
    Ensures mayFail (pass >>= next) done halted state ledger := by
  refine (Program.ensures_bind_iff (pass.run.run state : Program _)).2
    (first.mono fun outcome final holds => ?_)
  obtain ⟨result, state'⟩ := outcome
  cases result with
  | ok value => exact holds
  | error halt => exact (Program.ensures_done_iff _).2 holds

theorem Runs.bind {pass : Pass σ β} {next : β → Pass σ α} {middle final : Ledger} {value : β}
    {state' state'' : σ} {result : Except (Halt PassError) α}
    (first : pass.Runs mayFail state ledger (.ok value) state' middle)
    (rest : (next value).Runs mayFail state' middle result state'' final) :
    (pass >>= next).Runs mayFail state ledger result state'' final :=
  Program.Runs.bind first rest

theorem ensures_get {done : σ → σ → Ledger → Prop} (holds : done state state ledger) :
    Ensures mayFail (get : Pass σ σ) done halted state ledger :=
  (Program.ensures_done_iff _).2 holds

theorem ensures_modify {done : Unit → σ → Ledger → Prop} {change : σ → σ}
    (holds : done () (change state) ledger) :
    Ensures mayFail (modify change : Pass σ Unit) done halted state ledger :=
  (Program.ensures_done_iff _).2 holds

theorem Ensures.mono {pass : Pass σ α} {done' : α → σ → Ledger → Prop}
    {halted' : Halt PassError → σ → Ledger → Prop}
    (ensured : Ensures mayFail pass done halted state ledger)
    (weakerDone : ∀ value state final, done value state final → done' value state final)
    (weakerHalted : ∀ halt state final, halted halt state final → halted' halt state final) :
    Ensures mayFail pass done' halted' state ledger := by
  refine Program.Ensures.mono ensured fun outcome final holds => ?_
  obtain ⟨result, state'⟩ := outcome
  cases result with
  | ok value => exact weakerDone value state' final holds
  | error halt => exact weakerHalted halt state' final holds

theorem Ensures.and {pass : Pass σ α} {done' : α → σ → Ledger → Prop}
    {halted' : Halt PassError → σ → Ledger → Prop}
    (left : Ensures mayFail pass done halted state ledger)
    (right : Ensures mayFail pass done' halted' state ledger) :
    Ensures mayFail pass
      (fun value state final => done value state final ∧ done' value state final)
      (fun halt state final => halted halt state final ∧ halted' halt state final)
      state ledger := by
  refine (Program.Ensures.and left right).mono fun outcome final holds => ?_
  obtain ⟨result, state'⟩ := outcome
  cases result with
  | ok value => exact holds
  | error halt => exact holds

/-! ## Exchanges within passes -/

theorem ensures_lift {program : Program α}
    (ensured : program.Ensures mayFail (fun value => done value state) ledger) :
    Ensures mayFail (liftM program : Pass σ α) done halted state ledger := by
  refine (Program.ensures_bind_iff (program.bind fun value => .done (value, state))).2 ?_
  refine (Program.ensures_bind_iff program).2 (ensured.mono fun value final holds => ?_)
  exact (Program.ensures_done_iff _).2 ((Program.ensures_done_iff _).2 holds)

theorem ensures_perform {exchange : Exchange (Except StoreError α)}
    {done : Except StoreError α → σ → Ledger → Prop}
    (exchanged : Exchange.Ensures mayFail exchange (fun value => done (.ok value) state)
      (fun error final => match error with
        | some error => done (.error error) state final
        | none => halted .unanswered state final) ledger) :
    Ensures mayFail (perform exchange) done halted state ledger := by
  refine ensures_bind (ensures_lift (exchanged.mono fun result final holds => ?_))
  cases result with
  | none => exact ensures_throw _ holds
  | some result =>
      cases result with
      | ok value => exact ensures_pure _ holds
      | error error => exact ensures_pure _ holds

theorem ensures_attempt {exchange : Exchange (Except StoreError α)}
    (exchanged : Exchange.Ensures mayFail exchange (fun value => done value state)
      (fun error => halted (haltOf error) state) ledger) :
    Ensures mayFail (attempt exchange) done halted state ledger := by
  refine ensures_bind (ensures_perform (exchanged.mono fun result final holds => ?_))
  cases result with
  | none => exact holds
  | some result =>
      cases result with
      | ok value => exact ensures_pure _ holds
      | error error => exact ensures_throw _ holds

theorem ensures_notify {reason note : String} {done : Unit → σ → Ledger → Prop}
    (holds : ∀ answer, done () state
      (ledger.add (.publish ⟨.normal, reason, note⟩) answer ledger.registry))
    (unanswered : halted .unanswered state
      (ledger.add (.publish ⟨.normal, reason, note⟩) none ledger.registry)) :
    Ensures mayFail (notify reason note) done halted state ledger := by
  refine ensures_bind (ensures_perform (Exchange.ensures_record ?_ (fun failure => ?_) ?_))
  · exact ensures_pure _ (holds _)
  · exact ensures_pure _ (holds _)
  · exact unanswered

end Pass

namespace Control

/-- What is to hold of the outcome of a controller, by whether it got to its
end. -/
def settles (done : α → Ledger → Prop) (halted : Halt ControlError → Ledger → Prop) :
    Except (Halt ControlError) α → Ledger → Prop
  | .ok value => done value
  | .error halt => halted halt

/-- Every run of a controller ends, or halts, in a ledger of which a statement
holds. -/
def Ensures (mayFail : Request → Prop) (control : Control α) (done : α → Ledger → Prop)
    (halted : Halt ControlError → Ledger → Prop) (ledger : Ledger) : Prop :=
  Program.Ensures mayFail control.run (settles done halted) ledger

/-- A controller may run from a ledger to a result and another ledger. -/
def Runs (mayFail : Request → Prop) (control : Control α) (ledger : Ledger)
    (result : Except (Halt ControlError) α) (final : Ledger) : Prop :=
  Program.Runs mayFail control.run ledger result final

variable {done : α → Ledger → Prop} {halted : Halt ControlError → Ledger → Prop}
  {ledger : Ledger}

theorem Ensures.settles {control : Control α} {result : Except (Halt ControlError) α}
    {final : Ledger} (ensured : Ensures mayFail control done halted ledger)
    (runs : Runs mayFail control ledger result final) :
    Control.settles done halted result final :=
  ensured _ _ runs

/-- However a controller goes, a statement of its ledger holds in the end. -/
abbrev EnsuresAlways (mayFail : Request → Prop) (control : Control α) (holds : Ledger → Prop)
    (ledger : Ledger) : Prop :=
  Ensures mayFail control (fun _ => holds) (fun _ => holds) ledger

theorem EnsuresAlways.of_runs {control : Control α} {holds : Ledger → Prop}
    {result : Except (Halt ControlError) α} {final : Ledger}
    (always : EnsuresAlways mayFail control holds ledger)
    (runs : Runs mayFail control ledger result final) : holds final := by
  have settled := Ensures.settles always runs
  cases result with
  | ok value => exact settled
  | error halt => exact settled

theorem ensures_pure (value : α) (holds : done value ledger) :
    Ensures mayFail (pure value) done halted ledger :=
  (Program.ensures_done_iff _).2 holds

theorem ensures_throw (halt : Halt ControlError) (holds : halted halt ledger) :
    Ensures mayFail (throw halt) done halted ledger :=
  (Program.ensures_done_iff _).2 holds

theorem ensures_bind {control : Control β} {next : β → Control α}
    (first : Ensures mayFail control (fun value => Ensures mayFail (next value) done halted)
      halted ledger) :
    Ensures mayFail (control >>= next) done halted ledger := by
  refine (Program.ensures_bind_iff control.run).2 (first.mono fun result final holds => ?_)
  cases result with
  | ok value => exact holds
  | error halt => exact (Program.ensures_done_iff _).2 holds

theorem Ensures.mono {control : Control α} {done' : α → Ledger → Prop}
    {halted' : Halt ControlError → Ledger → Prop}
    (ensured : Ensures mayFail control done halted ledger)
    (weakerDone : ∀ value final, done value final → done' value final)
    (weakerHalted : ∀ halt final, halted halt final → halted' halt final) :
    Ensures mayFail control done' halted' ledger := by
  refine Program.Ensures.mono ensured fun result final holds => ?_
  cases result with
  | ok value => exact weakerDone value final holds
  | error halt => exact weakerHalted halt final holds

theorem ensures_lift {program : Program α} (ensured : program.Ensures mayFail done ledger) :
    Ensures mayFail (liftM program : Control α) done halted ledger := by
  refine (Program.ensures_bind_iff program).2 (ensured.mono fun value final holds => ?_)
  exact (Program.ensures_done_iff _).2 holds

theorem ensures_perform {exchange : Exchange (Except StoreError α)}
    {done : Except StoreError α → Ledger → Prop}
    (exchanged : Exchange.Ensures mayFail exchange (fun value => done (.ok value))
      (fun error final => match error with
        | some error => done (.error error) final
        | none => halted .unanswered final) ledger) :
    Ensures mayFail (perform exchange) done halted ledger := by
  refine ensures_bind (ensures_lift (exchanged.mono fun result final holds => ?_))
  cases result with
  | none => exact ensures_throw _ holds
  | some result =>
      cases result with
      | ok value => exact ensures_pure _ holds
      | error error => exact ensures_pure _ holds

/-- The rule for an exchange that has to succeed, where it does not matter how it
fails. -/
theorem ensures_attempt {exchange : Exchange (Except StoreError α)}
    (exchanged : Exchange.Ensures mayFail exchange done
      (fun _ final => ∀ halt, halted halt final) ledger) :
    Ensures mayFail (attempt exchange) done halted ledger := by
  refine ensures_bind (ensures_perform (exchanged.mono fun result final holds => ?_))
  cases result with
  | none => exact holds _
  | some result =>
      cases result with
      | ok value => exact ensures_pure _ holds
      | error error => exact ensures_throw _ (holds _)

/-- The rule for a pass with a deadline: a pass that halts without being broken
counts as one that failed. -/
theorem ensures_withDeadline {σ : Type} {limit : Duration} {pass : Pass σ α} {state : σ}
    {done : Except PassError α × σ → Ledger → Prop}
    (ensured : Pass.Ensures mayFail pass (fun value state' => done (.ok value, state'))
      (fun halt state' final => match halt with
        | .failed error => done (.error error, state') final
        | .unanswered => done (.error (.transient (.deadline limit)), state') final
        | .broken message => halted (.broken message) final) state ledger) :
    Ensures mayFail (withDeadline limit pass state) done halted ledger := by
  refine ensures_bind (ensures_lift (Program.Ensures.mono ensured fun outcome final holds => ?_))
  obtain ⟨result, state'⟩ := outcome
  cases result with
  | ok value => exact ensures_pure _ holds
  | error halt =>
      cases halt with
      | failed error => exact ensures_pure _ holds
      | unanswered => exact ensures_pure _ holds
      | broken message => exact ensures_throw _ holds

/-- The rule for a pass without a state: one that fails gives its error as a result. -/
theorem ensures_carryOut {pass : Pass Unit α} {done : Except PassError α → Ledger → Prop}
    (ensured : Pass.Ensures mayFail pass (fun value _ => done (.ok value))
      (fun halt _ final => match halt with
        | .failed error => done (.error error) final
        | .unanswered => halted .unanswered final
        | .broken message => halted (.broken message) final) () ledger) :
    Ensures mayFail (carryOut pass) done halted ledger := by
  refine ensures_bind (ensures_lift (Program.Ensures.mono ensured fun outcome final holds => ?_))
  obtain ⟨result, _⟩ := outcome
  cases result with
  | ok value => exact ensures_pure _ holds
  | error halt =>
      cases halt with
      | failed error => exact ensures_pure _ holds
      | unanswered => exact ensures_throw _ holds
      | broken message => exact ensures_throw _ holds

/-- A controller that fails with the error of a pass publishes at most one
warning before. -/
theorem ensures_failPass {error : PassError}
    (silent : ∀ halt, halted halt ledger)
    (warned : ∀ event answer halt,
      halted halt (ledger.add (.publish event) answer ledger.registry)) :
    Ensures mayFail (failPass error) done halted ledger := by
  unfold failPass
  split
  · refine ensures_bind (ensures_bind (ensures_perform
      (Exchange.ensures_record ?_ (fun failure => ?_) ?_)))
    · exact ensures_pure _ (ensures_throw _ (warned _ _ _))
    · exact ensures_pure _ (ensures_throw _ (warned _ _ _))
    · exact warned _ _ _
  · exact ensures_throw _ (silent _)

end Control

end NodeFleet.Store
