import NodeFleet.Proofs.Store.Passes

/-!
# Chains of calls

The calls of a run follow on each other: each finds what the one before it left.
Facts about a whole run are facts about chains, by induction on their calls.
-/

namespace NodeFleet.Store

variable {mayFail : Request → Prop} {α : Type}

/-- Calls that follow on each other, from what a server holds to what it holds
after them. -/
inductive Chain (mayFail : Request → Prop) : Registry → List Call → Registry → Prop
  | nil (registry : Registry) : Chain mayFail registry [] registry
  | cons {request : Request} {answer : Answer request} {before middle after : Registry}
      {rest : List Call} (served : Serves mayFail request before answer middle)
      (chain : Chain mayFail middle rest after) :
      Chain mayFail before (⟨request, answer, before, middle⟩ :: rest) after

namespace Chain

variable {before middle after : Registry} {calls later : List Call}

theorem served (chain : Chain mayFail before calls after) :
    ∀ call ∈ calls, Serves mayFail call.request call.before call.answer call.after := by
  induction chain with
  | nil registry => simp
  | cons served chain inductionHypothesis =>
      exact List.forall_mem_cons.2 ⟨served, inductionHypothesis⟩

theorem eq_of_nil (chain : Chain mayFail before [] after) : before = after := by
  cases chain
  rfl

theorem append (first : Chain mayFail before calls middle)
    (second : Chain mayFail middle later after) :
    Chain mayFail before (calls ++ later) after := by
  induction first with
  | nil registry => exact second
  | cons served chain inductionHypothesis => exact .cons served (inductionHypothesis second)

theorem split (chain : Chain mayFail before (calls ++ later) after) :
    ∃ middle, Chain mayFail before calls middle ∧ Chain mayFail middle later after := by
  induction calls generalizing before with
  | nil => exact ⟨before, .nil before, chain⟩
  | cons call calls inductionHypothesis =>
      cases chain with
      | cons served rest =>
          obtain ⟨middle, first, second⟩ := inductionHypothesis rest
          exact ⟨middle, .cons served first, second⟩

/-- A call of a chain finds what the calls before it have left. -/
theorem before_eq {call : Call}
    (chain : Chain mayFail before (calls ++ call :: later) after) :
    Chain mayFail before calls call.before ∧
      Serves mayFail call.request call.before call.answer call.after ∧
      Chain mayFail call.after later after := by
  obtain ⟨middle, first, second⟩ := chain.split
  cases second with
  | cons served rest => exact ⟨first, served, rest⟩

/-- A chain changes nothing but the places that its calls are for. -/
theorem find?_eq (chain : Chain mayFail before calls after) {kind : Kind} {space name : String}
    (others : ∀ call ∈ calls, call.request.place? ≠ some (kind, space, name)) :
    after.find? kind space name = before.find? kind space name := by
  induction chain with
  | nil registry => rfl
  | cons served chain inductionHypothesis =>
      rw [inductionHypothesis fun call member => others call (List.mem_cons_of_mem _ member)]
      exact served.find?_eq (others _ List.mem_cons_self)

/-- An object at which no call of a chain is aimed, but to create it, stays as it
is. -/
theorem find?_eq_some (chain : Chain mayFail before calls after) {kind : Kind}
    {space name : String} {object : kind.Object}
    (there : before.find? kind space name = some object)
    (spared : ∀ call ∈ calls, call.request.place? = some (kind, space, name) →
      ∃ written, call.request = .create kind space written) :
    after.find? kind space name = some object := by
  induction chain with
  | nil registry => exact there
  | @cons request answer before middle after rest served chain inductionHypothesis =>
      refine inductionHypothesis ?_ fun call member => spared call (List.mem_cons_of_mem _ member)
      by_cases aimed : request.place? = some (kind, space, name)
      · obtain ⟨written, rfl⟩ := spared _ List.mem_cons_self aimed
        cases served with
        | created named absent stamped sets =>
            simp only [Request.place?, named, Option.getD_some, Option.some.injEq,
              Prod.mk.injEq, true_and] at aimed
            subst aimed
            exact absurd (there.symm.trans absent) (by simp)
        | _ => exact there
      · rw [served.find?_eq aimed]
        exact there

/-- What is missing stays missing unless a call of a chain creates it. -/
theorem find?_eq_none (chain : Chain mayFail before calls after) {kind : Kind}
    {space name : String} (absent : before.find? kind space name = none)
    (uncreated : ∀ call ∈ calls, ∀ written, call.request = .create kind space written →
      (kind.metadata written).name ≠ some name) :
    after.find? kind space name = none := by
  induction chain with
  | nil registry => exact absent
  | @cons request answer before middle after rest served chain inductionHypothesis =>
      refine inductionHypothesis ?_ fun call member =>
        uncreated call (List.mem_cons_of_mem _ member)
      by_cases aimed : request.place? = some (kind, space, name)
      · cases served with
        | created named vacant stamped sets =>
            simp only [Request.place?, named, Option.getD_some, Option.some.injEq,
              Prod.mk.injEq] at aimed
            obtain ⟨rfl, rfl, rfl⟩ := aimed
            exact absurd named (uncreated _ List.mem_cons_self _ rfl)
        | removed there sets =>
            obtain ⟨rfl, rfl, rfl⟩ : _ = kind ∧ _ = space ∧ _ = name := by
              simpa [Request.place?] using aimed
            exact sets.here
        | doomed there sets =>
            obtain ⟨rfl, rfl, rfl⟩ : _ = kind ∧ _ = space ∧ _ = name := by
              simpa [Request.place?] using aimed
            exact absurd (there.symm.trans absent) (by simp)
        | patched there reads sets =>
            obtain ⟨rfl, rfl, rfl⟩ : _ = kind ∧ _ = space ∧ _ = name := by
              simpa [Request.place?] using aimed
            exact absurd (there.symm.trans absent) (by simp)
        | renewed there current fresh sets =>
            obtain ⟨rfl, rfl, rfl⟩ : _ = kind ∧ _ = space ∧ _ = name := by
              simpa [Request.place?] using aimed
            exact absurd (there.symm.trans absent) (by simp)
        | _ => exact absent
      · exact (served.find?_eq aimed).trans absent

/-- What the renewal of a status keeps, a chain keeps of an object that it writes in no
other way. -/
theorem holds_of_renewals (chain : Chain mayFail before calls after) (kind : Kind)
    {space name : String} (holds : kind.Object → Prop)
    (kept : ∀ version written stored, holds stored → holds (kind.renewed version written stored))
    (renews : ∀ call ∈ calls, call.request.place? = some (kind, space, name) →
      ∃ written, call.request = .replaceStatus kind space name written)
    (start : ∀ object, before.find? kind space name = some object → holds object) :
    ∀ object, after.find? kind space name = some object → holds object := by
  induction chain with
  | nil registry => exact start
  | @cons request answer before middle after rest served chain inductionHypothesis =>
      refine inductionHypothesis (fun call member => renews call (List.mem_cons_of_mem _ member)) ?_
      intro object found
      by_cases aimed : request.place? = some (kind, space, name)
      · obtain ⟨written, rfl⟩ := renews _ List.mem_cons_self aimed
        cases served with
        | renewed there current fresh sets =>
            rw [sets.here] at found
            obtain rfl := Option.some.inj found
            exact kept _ _ _ (start _ there)
        | _ => exact start _ found
      · rw [served.find?_eq aimed] at found
        exact start _ found

end Chain

namespace Program.Runs

variable {program : Program α} {value : α} {ledger final : Ledger}

/-- A run adds to the calls made before it, and what they were does not matter
to it. -/
theorem exists_since {past : List Call} (since : List Call)
    (runs : program.Runs mayFail ledger value final) (made : ledger.calls = past ++ since) :
    ∃ calls, final.calls = past ++ calls ∧
      program.Runs mayFail ⟨ledger.registry, since⟩ value ⟨final.registry, calls⟩ := by
  induction runs generalizing since with
  | done value ledger => exact ⟨since, made, .done value _⟩
  | @call request resume ledger final answer after value served rest inductionHypothesis =>
      obtain ⟨calls, sameCalls, runs⟩ := inductionHypothesis
        (since ++ [⟨request, answer, ledger.registry, after⟩]) (by simp [made])
      exact ⟨calls, sameCalls, .call served runs⟩

theorem exists_chain (runs : program.Runs mayFail ledger value final) :
    ∃ calls, final.calls = ledger.calls ++ calls ∧
      Chain mayFail ledger.registry calls final.registry := by
  induction runs with
  | done value ledger => exact ⟨[], by simp, .nil _⟩
  | @call request resume ledger final answer after value served rest inductionHypothesis =>
      obtain ⟨calls, sameCalls, chain⟩ := inductionHypothesis
      exact ⟨⟨request, answer, ledger.registry, after⟩ :: calls, by simp [sameCalls],
        .cons served chain⟩

theorem chain {registry : Registry} (runs : program.Runs mayFail (.opened registry) value final) :
    Chain mayFail registry final.calls final.registry := by
  obtain ⟨calls, sameCalls, chain⟩ := runs.exists_chain
  rw [Ledger.calls_opened, List.nil_append] at sameCalls
  rwa [sameCalls]

end Program.Runs

theorem Pass.ensures_chain {σ : Type} (pass : Pass σ α) (state : σ) (registry : Registry) :
    pass.EnsuresAlways mayFail (fun _ final => Chain mayFail registry final.calls final.registry)
      state (.opened registry) := by
  intro outcome final runs
  obtain ⟨result, state'⟩ := outcome
  cases result with
  | ok value => exact runs.chain
  | error halt => exact runs.chain

/-- The calls that a pass adds to a ledger follow on each other. -/
theorem Pass.ensures_added {σ : Type} (pass : Pass σ α) (state : σ) (ledger : Ledger) :
    pass.EnsuresAlways mayFail
      (fun _ final => ∃ calls, final.calls = ledger.calls ++ calls ∧
        Chain mayFail ledger.registry calls final.registry)
      state ledger := by
  intro outcome final runs
  obtain ⟨result, state'⟩ := outcome
  cases result with
  | ok value => exact runs.exists_chain
  | error halt => exact runs.exists_chain

/-- The ledger of what happened after another one. -/
def Ledger.since (ledger : Ledger) (past : List Call) : Ledger :=
  ⟨ledger.registry, past ++ ledger.calls⟩

/-- What a program ensures from a new ledger, it ensures of the calls that it adds
to an old one. -/
theorem Program.ensures_of_opened {program : Program α} {post : α → Ledger → Prop}
    {ledger : Ledger}
    (ensured : program.Ensures mayFail
      (fun value final => post value (final.since ledger.calls)) (.opened ledger.registry)) :
    program.Ensures mayFail post ledger := by
  intro value final runs
  obtain ⟨calls, sameCalls, since⟩ := runs.exists_since [] (List.append_nil _).symm
  have holds := ensured value _ since
  simpa only [Ledger.since, ← sameCalls] using holds

theorem Pass.ensures_of_opened {σ : Type} {pass : Pass σ α} {done : α → σ → Ledger → Prop}
    {halted : Halt PassError → σ → Ledger → Prop} {state : σ} {ledger : Ledger}
    (ensured : pass.Ensures mayFail
      (fun value state final => done value state (final.since ledger.calls))
      (fun halt state final => halted halt state (final.since ledger.calls))
      state (.opened ledger.registry)) :
    pass.Ensures mayFail done halted state ledger := by
  refine Program.ensures_of_opened (Program.Ensures.mono ensured fun outcome final holds => ?_)
  obtain ⟨result, state'⟩ := outcome
  cases result with
  | ok value => exact holds
  | error halt => exact holds

end NodeFleet.Store
