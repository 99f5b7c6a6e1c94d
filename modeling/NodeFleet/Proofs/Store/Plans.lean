import NodeFleet.Proofs.Store.Chains

/-!
# Passes that carry out a plan

Some passes know beforehand which calls they are going to make.  Such a pass
makes all of them, or breaks off at the first one that balks: all before it have
been carried out then, and the pass may be tried again.
-/

namespace NodeFleet.Store

variable {mayFail : Request → Prop} {σ α β γ : Type}

/-- Whether a call came to nothing; one that found its object missing did not. -/
def Call.Fails (call : Call) : Prop :=
  match call.answer with
  | none => True
  | some (.ok _) => False
  | some (.error failure) => failure.claimsMissing = false

/-- What comes to nothing lacks a name, or has a call that failed. -/
theorem Ledger.Fruitless.nameless_or_fails {request : Request} {ledger final : Ledger}
    {error : Option StoreError} (fruitless : ledger.Fruitless mayFail request error final) :
    request.target? = some "" ∨ ∃ call ∈ final.calls, call.Fails := by
  cases fruitless with
  | unmade nameless => exact Or.inl nameless
  | refused served honest =>
      exact Or.inr ⟨_, List.mem_append_right _ List.mem_cons_self, honest⟩
  | unanswered served =>
      exact Or.inr ⟨_, List.mem_append_right _ List.mem_cons_self, trivial⟩

/-- Whether a call had an effect, or found what it asked for. -/
def Call.Succeeds (call : Call) : Prop := ∃ reply, call.answer = some (.ok reply)

theorem Call.succeeds_iff (call : Call) :
    call.Succeeds ↔ (call.answer.any fun answer => answer.toOption.isSome) = true := by
  unfold Call.Succeeds
  cases call.answer with
  | none => simp
  | some answer => cases answer <;> simp [Except.toOption]

instance : DecidablePred Call.Succeeds := fun call => decidable_of_iff' _ call.succeeds_iff

/-- Whether a call keeps a pass from going on: it has no success, and not because it deletes
what has gone already. -/
def Call.Hinders (call : Call) : Prop :=
  match call.request with
  | .delete _ _ _ => call.Fails
  | _ => ¬ call.Succeeds

theorem Call.Fails.not_succeeds {call : Call} (fails : call.Fails) : ¬ call.Succeeds := by
  rintro ⟨reply, answered⟩
  unfold Call.Fails at fails
  rw [answered] at fails
  exact fails

theorem Call.Fails.hinders {call : Call} (fails : call.Fails) : call.Hinders := by
  unfold Call.Hinders
  split
  · exact fails
  · exact fails.not_succeeds

theorem Call.Hinders.not_succeeds {call : Call} (hinders : call.Hinders) : ¬ call.Succeeds := by
  unfold Call.Hinders at hinders
  split at hinders
  · exact hinders.not_succeeds
  · exact hinders

/-- Calls that make all requests of a plan in their order, and none of which
fails. -/
structure CarriesOut (plan : List Request) (calls : List Call) : Prop where
  requests_eq : calls.map (·.request) = plan
  none_fails : ∀ call ∈ calls, ¬ call.Fails

/-- Calls that make the requests of a plan in their order up to one of them, and
of which only the last one may fail. -/
structure BreaksOff (plan : List Request) (calls : List Call) : Prop where
  requests_prefix : calls.map (·.request) <+: plan
  only_last_fails : ∀ call ∈ calls.dropLast, ¬ call.Fails

theorem CarriesOut.nil : CarriesOut [] [] := ⟨rfl, by simp⟩

theorem CarriesOut.append {plan plan' : List Request} {calls calls' : List Call}
    (first : CarriesOut plan calls) (second : CarriesOut plan' calls') :
    CarriesOut (plan ++ plan') (calls ++ calls') where
  requests_eq := by rw [List.map_append, first.requests_eq, second.requests_eq]
  none_fails := by
    intro call member
    rcases List.mem_append.1 member with early | late
    · exact first.none_fails call early
    · exact second.none_fails call late

theorem BreaksOff.request_mem {plan : List Request} {calls : List Call} {call : Call}
    (broken : BreaksOff plan calls) (member : call ∈ calls) :
    call.request ∈ plan :=
  broken.requests_prefix.subset (List.mem_map_of_mem member)

theorem BreaksOff.weaken {plan : List Request} {calls : List Call} (plan' : List Request)
    (broken : BreaksOff plan calls) : BreaksOff (plan ++ plan') calls :=
  ⟨broken.requests_prefix.trans (List.prefix_append plan plan'), broken.only_last_fails⟩

theorem CarriesOut.then_breaksOff {plan plan' : List Request} {calls calls' : List Call}
    (first : CarriesOut plan calls) (second : BreaksOff plan' calls') :
    BreaksOff (plan ++ plan') (calls ++ calls') where
  requests_prefix := by
    rw [List.map_append, first.requests_eq]
    exact (List.prefix_append_right_inj plan).2 second.requests_prefix
  only_last_fails := by
    intro call member
    cases calls' with
    | nil =>
        rw [List.append_nil] at member
        exact first.none_fails call (List.dropLast_subset _ member)
    | cons head tail =>
        rw [List.dropLast_append_of_ne_nil (List.cons_ne_nil head tail)] at member
        rcases List.mem_append.1 member with early | late
        · exact first.none_fails call early
        · exact second.only_last_fails call late

theorem CarriesOut.breaksOff {plan : List Request} {calls : List Call}
    (carried : CarriesOut plan calls) : BreaksOff plan calls where
  requests_prefix := carried.requests_eq ▸ List.prefix_refl _
  only_last_fails := fun call member => carried.none_fails call (List.dropLast_subset _ member)

/-- What may hinder calls to carry out a plan: one of them, or one that cannot be made for
want of a name. -/
def Hindered (plan : List Request) (calls : List Call) : Prop :=
  (∃ call ∈ calls, call.Hinders) ∨ ∃ request ∈ plan, request.target? = some ""

theorem Hindered.weaken {plan : List Request} {calls : List Call} (plan' : List Request)
    (hindered : Hindered plan calls) : Hindered (plan ++ plan') calls := by
  refine hindered.imp id ?_
  rintro ⟨request, member, nameless⟩
  exact ⟨request, List.mem_append_left plan' member, nameless⟩

theorem Hindered.later {plan : List Request} {calls : List Call} (plan' : List Request)
    (calls' : List Call) (hindered : Hindered plan calls) :
    Hindered (plan' ++ plan) (calls' ++ calls) := by
  rcases hindered with ⟨call, member, fails⟩ | ⟨request, member, nameless⟩
  · exact Or.inl ⟨call, List.mem_append_right calls' member, fails⟩
  · exact Or.inr ⟨request, List.mem_append_right plan' member, nameless⟩

/-- Calls that follow a plan: they carry it out when they are finished, and break off
otherwise because something hinders them. -/
structure Adheres (plan : List Request) (calls : List Call) (finished : Prop) : Prop where
  breaksOff : BreaksOff plan calls
  carriesOut : finished → CarriesOut plan calls
  hindered : ¬ finished → Hindered plan calls

/-- Whether a pass halted because it broke down. -/
def Halt.isBroken {ε : Type} : Halt ε → Bool
  | .broken _ => true
  | _ => false

@[simp] theorem isBroken_haltOf (error : Option StoreError) :
    (haltOf error).isBroken = false := by
  cases error <;> rfl

/-- Whether what a pass halted for may go away. -/
def Halt.isTransient : Halt PassError → Bool
  | .failed error => error.isTransient
  | .broken _ => false
  | .unanswered => true

theorem isTransient_haltOf (error : Option StoreError) : (haltOf error).isTransient = true := by
  cases error <;> rfl

theorem Halt.isBroken_of_isTransient {halt : Halt PassError} (transient : halt.isTransient = true) :
    halt.isBroken = false := by
  cases halt with
  | failed error => rfl
  | broken message => cases transient
  | unanswered => rfl

namespace Ledger

/-- How a ledger goes on when a request balks: it is not made for want of a name, or its call
hinders the pass and has no effect. -/
inductive Balks (mayFail : Request → Prop) (request : Request) (ledger : Ledger) : Ledger → Prop
  | unmade (nameless : request.target? = some "") : Balks mayFail request ledger ledger
  | unsuccessful {answer : Answer request}
      (served : Serves mayFail request ledger.registry answer ledger.registry)
      (fails : Call.Hinders ⟨request, answer, ledger.registry, ledger.registry⟩) :
      Balks mayFail request ledger (ledger.add request answer ledger.registry)

theorem Fruitless.balks {request : Request} {ledger final : Ledger} {error : Option StoreError}
    (fruitless : ledger.Fruitless mayFail request error final) :
    ledger.Balks mayFail request final := by
  cases fruitless with
  | unmade nameless => exact .unmade nameless
  | refused served honest => exact .unsuccessful served (Call.Fails.hinders honest)
  | unanswered served => exact .unsuccessful served (Call.Fails.hinders trivial)

/-- A request that balks leaves what the server holds. -/
theorem Balks.chain {request : Request} {ledger final : Ledger} {registry : Registry}
    (balks : ledger.Balks mayFail request final)
    (chain : Chain mayFail registry final.calls final.registry) :
    Chain mayFail registry ledger.calls ledger.registry := by
  cases balks with
  | unmade => exact chain
  | unsuccessful =>
      rw [calls_add] at chain
      exact chain.before_eq.1

theorem Balks.registry_eq {request : Request} {ledger final : Ledger}
    (balks : ledger.Balks mayFail request final) : final.registry = ledger.registry := by
  cases balks <;> rfl

/-- A ledger goes on with calls that carry out a plan. -/
def Completes (plan : List Request) (ledger final : Ledger) : Prop :=
  ∃ calls, final.calls = ledger.calls ++ calls ∧ CarriesOut plan calls

/-- A ledger goes on with calls that carry out the beginning of a plan, and the next request
balks. -/
def Interrupted (mayFail : Request → Prop) (plan : List Request) (ledger final : Ledger) : Prop :=
  ∃ done request rest middle, plan = done ++ request :: rest ∧ ledger.Completes done middle ∧
    middle.Balks mayFail request final

variable {ledger middle final : Ledger} {plan plan' : List Request}

theorem completes_nil (ledger : Ledger) : ledger.Completes [] ledger :=
  ⟨[], (List.append_nil _).symm, .nil⟩

theorem Completes.trans (first : ledger.Completes plan middle)
    (second : middle.Completes plan' final) : ledger.Completes (plan ++ plan') final := by
  obtain ⟨calls, made, carried⟩ := first
  obtain ⟨later, madeThen, carriedThen⟩ := second
  exact ⟨calls ++ later, by rw [madeThen, made, List.append_assoc], carried.append carriedThen⟩

theorem Interrupted.weaken (plan' : List Request)
    (interrupted : ledger.Interrupted mayFail plan final) :
    ledger.Interrupted mayFail (plan ++ plan') final := by
  obtain ⟨done, request, rest, middle, rfl, completes, balks⟩ := interrupted
  exact ⟨done, request, rest ++ plan', middle, by simp, completes, balks⟩

theorem Completes.then_interrupted (first : ledger.Completes plan middle)
    (second : middle.Interrupted mayFail plan' final) :
    ledger.Interrupted mayFail (plan ++ plan') final := by
  obtain ⟨done, request, rest, last, rfl, completes, balks⟩ := second
  exact ⟨plan ++ done, request, rest, last, by rw [List.append_assoc], first.trans completes, balks⟩

theorem Interrupted.breaksOff (interrupted : ledger.Interrupted mayFail plan final) :
    ∃ calls, final.calls = ledger.calls ++ calls ∧ BreaksOff plan calls ∧ Hindered plan calls := by
  obtain ⟨done, request, rest, middle, rfl, ⟨calls, made, carried⟩, balks⟩ := interrupted
  cases balks with
  | unmade nameless =>
      exact ⟨calls, made, carried.breaksOff.weaken (request :: rest),
        Or.inr ⟨request, List.mem_append_right _ List.mem_cons_self, nameless⟩⟩
  | @unsuccessful answer served fails =>
      have last : BreaksOff (request :: rest)
          [⟨request, answer, middle.registry, middle.registry⟩] :=
        ⟨List.prefix_append [request] rest, by simp⟩
      exact ⟨_, by rw [calls_add, made, List.append_assoc], carried.then_breaksOff last,
        Or.inl ⟨_, List.mem_append_right _ List.mem_cons_self, fails⟩⟩

end Ledger

namespace Pass

/-- A pass completes a plan, or is interrupted by what may go away. -/
def Heeds (mayFail : Request → Prop) (pass : Pass σ α) (plan : List Request) : Prop :=
  ∀ state ledger, pass.Ensures mayFail
    (fun _ _ final => ledger.Completes plan final)
    (fun halt _ final => halt.isTransient = true ∧ ledger.Interrupted mayFail plan final)
    state ledger

/-- A pass carries out a plan, or breaks off because a call fails. -/
def Performs (mayFail : Request → Prop) (pass : Pass σ α) (plan : List Request) : Prop :=
  ∀ state ledger, pass.Ensures mayFail
    (fun _ _ final => ∃ calls, final.calls = ledger.calls ++ calls ∧ CarriesOut plan calls)
    (fun halt _ final => halt.isBroken = false ∧
      ∃ calls, final.calls = ledger.calls ++ calls ∧ BreaksOff plan calls ∧
        Hindered plan calls)
    state ledger

variable {plan : List Request}

theorem Heeds.performs {pass : Pass σ α} (heeds : pass.Heeds mayFail plan) :
    pass.Performs mayFail plan :=
  fun state ledger => (heeds state ledger).mono (fun _ _ _ completes => completes)
    fun _ _ _ halts => ⟨Halt.isBroken_of_isTransient halts.1, halts.2.breaksOff⟩

theorem heeds_pure (value : α) : (pure value : Pass σ α).Heeds mayFail [] :=
  fun _ ledger => ensures_pure value ledger.completes_nil

theorem heeds_bind {pass : Pass σ β} {next : β → Pass σ α} {plan' : List Request}
    (first : pass.Heeds mayFail plan) (rest : ∀ value, (next value).Heeds mayFail plan') :
    (pass >>= next).Heeds mayFail (plan ++ plan') := by
  intro state ledger
  refine ensures_bind ((first state ledger).mono ?_ ?_)
  · intro value state' middle completes
    exact (rest value state' middle).mono (fun _ _ _ later => completes.trans later)
      fun _ _ _ halts => ⟨halts.1, completes.then_interrupted halts.2⟩
  · exact fun _ _ _ halts => ⟨halts.1, halts.2.weaken plan'⟩

/-- What follows the last call of a plan makes no further one. -/
theorem heeds_bind_pure {pass : Pass σ β} {value : β → α} (first : pass.Heeds mayFail plan) :
    (pass >>= fun result => pure (value result)).Heeds mayFail plan := by
  simpa using heeds_bind first fun result => heeds_pure (value result)

theorem heeds_forM {body : γ → Pass σ PUnit} {request : γ → Request}
    (each : ∀ item, (body item).Heeds mayFail [request item]) (items : List γ) :
    (items.forM body).Heeds mayFail (items.map request) := by
  induction items with
  | nil => exact heeds_pure _
  | cons item items inductionHypothesis =>
      exact heeds_bind (each item) fun _ => inductionHypothesis

/-- A pass that makes one request and goes on when it does not balk. -/
theorem heeds_attempt {request : Request} {exchange : Exchange (Except StoreError α)}
    (exchanged : ∀ ledger, exchange.Ensures mayFail
      (fun _ final => ∃ answer after, final = ledger.add request answer after ∧
        ¬ Call.Fails ⟨request, answer, ledger.registry, after⟩)
      (fun _ final => ledger.Balks mayFail request final) ledger) :
    (attempt exchange : Pass σ α).Heeds mayFail [request] := by
  intro state ledger
  refine ensures_attempt (Program.Ensures.mono (exchanged ledger) fun result final holds => ?_)
  have stopped : ∀ error, ledger.Balks mayFail request final →
      (haltOf error).isTransient = true ∧ ledger.Interrupted mayFail [request] final :=
    fun error balks => ⟨isTransient_haltOf error,
      [], request, [], ledger, rfl, ledger.completes_nil, balks⟩
  cases result with
  | none => exact stopped none holds
  | some result =>
      cases result with
      | error error => exact stopped (some error) holds
      | ok value =>
          obtain ⟨answer, after, rfl, succeeds⟩ := holds
          exact ⟨[⟨request, answer, ledger.registry, after⟩], rfl, rfl, by simpa using succeeds⟩

theorem heeds_create (kind : Kind) (space : String) (object : kind.Object) :
    (attempt (Exchange.create kind space object) : Pass σ kind.Object).Heeds mayFail
      [.create kind space object] := by
  refine heeds_attempt fun ledger => Exchange.ensures_create ?_ fun _ _ nothing => nothing.balks
  intro name metadata after _ _ _ _
  exact ⟨_, after, rfl, id⟩

theorem heeds_delete (kind : Kind) (space name : String) :
    (attempt (Exchange.delete kind space name) : Pass σ Unit).Heeds mayFail
      [.delete kind space name] := by
  refine heeds_attempt fun ledger =>
    Exchange.ensures_delete ?_ ?_ fun _ _ nothing => nothing.balks
  · intro object after _ _ _
    exact ⟨_, after, rfl, id⟩
  · intro _ absent
    exact ⟨_, _, rfl, by simp [Call.Fails, claimsMissing_notFound]⟩

theorem heeds_patch (kind : Kind) (space name : String) (change : Json) :
    (attempt (Exchange.patch kind space name change) : Pass σ kind.Object).Heeds mayFail
      [.patch kind space name change] := by
  refine heeds_attempt fun ledger =>
    Exchange.ensures_patch ?_ ?_ fun _ _ nothing => nothing.balks
  · intro object changed after _ _
    exact ⟨_, after, rfl, id⟩
  · exact fun absent => .unsuccessful (.nothingToPatch absent)
      (by simp [Call.Hinders, Call.Succeeds])

end Pass

end NodeFleet.Store
