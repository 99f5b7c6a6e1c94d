import NodeFleet.Proofs.Store.Repertoire

/-!
# The conduct of a program

What holds of every call of a run, by what the server held before the call and afterwards.
Unlike a repertoire, a conduct may tie what is written to what was read.
-/

namespace NodeFleet.Store

variable {mayFail : Request → Prop} {fine : Call → Prop} {σ α β γ : Type}

/-- A ledger goes on with calls of which a statement holds. -/
inductive Ledger.Goes (fine : Call → Prop) (ledger : Ledger) : Ledger → Prop
  | refl : Goes fine ledger ledger
  | add {middle : Ledger} {request : Request} {answer : Answer request} {after : Registry}
      (goes : Goes fine ledger middle) (isFine : fine ⟨request, answer, middle.registry, after⟩) :
      Goes fine ledger (middle.add request answer after)

namespace Ledger.Goes

variable {ledger middle final : Ledger}

theorem trans (first : ledger.Goes fine middle) (second : middle.Goes fine final) :
    ledger.Goes fine final := by
  induction second with
  | refl => exact first
  | add goes isFine inductionHypothesis => exact inductionHypothesis.add isFine

theorem mono {fine' : Call → Prop} (goes : ledger.Goes fine final)
    (weaker : ∀ call, fine call → fine' call) : ledger.Goes fine' final := by
  induction goes with
  | refl => exact .refl
  | add goes isFine inductionHypothesis => exact inductionHypothesis.add (weaker _ isFine)

theorem exists_calls (goes : ledger.Goes fine final) :
    ∃ added, final.calls = ledger.calls ++ added ∧ ∀ call ∈ added, fine call := by
  induction goes with
  | refl => exact ⟨[], by simp, by simp⟩
  | @add middle request answer after goes isFine inductionHypothesis =>
      obtain ⟨added, made, allFine⟩ := inductionHypothesis
      refine ⟨added ++ [⟨request, answer, middle.registry, after⟩], by simp [made], ?_⟩
      intro call member
      rcases List.mem_append.1 member with early | late
      · exact allFine call early
      · obtain rfl := List.mem_singleton.1 late
        exact isFine

/-- The calls of a run are those that came before, and others of which the statement
holds. -/
theorem fine_or_mem {call : Call} (goes : ledger.Goes fine final) (member : call ∈ final.calls) :
    call ∈ ledger.calls ∨ fine call := by
  obtain ⟨added, made, allFine⟩ := goes.exists_calls
  rw [made] at member
  exact (List.mem_append.1 member).imp_right (allFine call)

theorem of_opened {registry : Registry} (goes : (Ledger.opened registry).Goes fine final) :
    ∀ call ∈ final.calls, fine call := by
  intro call member
  rcases goes.fine_or_mem member with old | isFine
  · cases old
  · exact isFine

theorem mem_of_mem {call : Call} (goes : ledger.Goes fine final) (member : call ∈ ledger.calls) :
    call ∈ final.calls := by
  obtain ⟨added, made, _⟩ := goes.exists_calls
  rw [made]
  exact List.mem_append_left _ member

/-- What every call keeps of the objects that the server holds holds in the end. -/
theorem keeps (goes : ledger.Goes fine final) (holds : Registry → Prop)
    (kept : ∀ call, fine call → holds call.before → holds call.after)
    (start : holds ledger.registry) : holds final.registry := by
  induction goes with
  | refl => exact start
  | add goes isFine inductionHypothesis => exact kept _ isFine inductionHypothesis

end Ledger.Goes

section Fruitless

variable {request : Request} {ledger final : Ledger} {error : Option StoreError}

theorem Ledger.Fruitless.goes_of_served
    (fruitless : ledger.Fruitless mayFail request error final)
    (follows : ∀ answer, Serves mayFail request ledger.registry answer ledger.registry →
      fine ⟨request, answer, ledger.registry, ledger.registry⟩) :
    ledger.Goes fine final := by
  cases fruitless with
  | unmade nameless => exact .refl
  | refused served honest => exact .add .refl (follows _ served)
  | unanswered served => exact .add .refl (follows _ served)

theorem Ledger.Fruitless.goes (fruitless : ledger.Fruitless mayFail request error final)
    (idle : ∀ answer registry, fine ⟨request, answer, registry, registry⟩) :
    ledger.Goes fine final :=
  fruitless.goes_of_served fun answer _ => idle answer _

end Fruitless

/-- A run with allowed calls only is of a conduct that follows from what is allowed. -/
theorem Program.Makes.ensures_goes {allowed : Request → Prop} {gives : α → Prop}
    {program : Program α} {ledger : Ledger} (makes : program.Makes allowed gives)
    (follows : ∀ call : Call, allowed call.request →
      Serves mayFail call.request call.before call.answer call.after → fine call) :
    program.Ensures mayFail (fun value final => gives value ∧ ledger.Goes fine final)
      ledger := by
  apply makes.ensures (ledger.Goes fine) _ .refl
  intro middle request answer after permitted served goes
  exact goes.add (follows ⟨request, answer, middle.registry, after⟩ permitted served)

namespace Exchange

/-- Every run of an exchange is of a conduct. -/
def Conducts (mayFail : Request → Prop) (fine : Call → Prop)
    (exchange : Exchange (Except StoreError α)) : Prop :=
  ∀ ledger, Ensures mayFail exchange (fun _ final => ledger.Goes fine final)
    (fun _ final => ledger.Goes fine final) ledger

theorem Makes.conducts {allowed : Request → Prop} {exchange : Exchange (Except StoreError α)}
    (makes : Exchange.Makes allowed exchange)
    (follows : ∀ call : Call, allowed call.request →
      Serves mayFail call.request call.before call.answer call.after → fine call) :
    exchange.Conducts mayFail fine := by
  intro ledger result final runs
  have goes := Program.Makes.ensures_goes makes follows result final runs
  cases result with
  | none => exact goes.2
  | some result =>
      cases result with
      | ok value => exact goes.2
      | error error => exact goes.2

/-- An update writes what it makes of the very object that it replaces. -/
theorem conducts_updateStatus {kind : Kind} {space name : String}
    {update : kind.Object → kind.Object}
    (keeps : ∀ object, kind.metadata (update object) = kind.metadata object)
    (reads : ∀ answer registry, fine ⟨.get kind space name, answer, registry, registry⟩)
    (idle : ∀ stored answer registry, registry.find? kind space name = some stored →
      fine ⟨.replaceStatus kind space name (update stored), answer, registry, registry⟩)
    (renews : ∀ stored version before after, before.find? kind space name = some stored →
      before.Sets kind space name (some (kind.renewed version (update stored) stored)) after →
        fine ⟨.replaceStatus kind space name (update stored),
          some (.ok (kind.renewed version (update stored) stored)), before, after⟩) :
    (updateStatus kind space name update).Conducts mayFail fine := by
  intro ledger
  have looked : ∀ answer, ledger.Goes fine
      (ledger.add (.get kind space name) answer ledger.registry) :=
    fun answer => .add .refl (reads answer ledger.registry)
  apply ensures_updateStatus keeps
  · intro stored version after found sets
    exact (looked _).add (renews stored version ledger.registry after found sets)
  · exact fun missing => looked _
  · exact fun error final nothing => nothing.goes reads
  · intro stored error final found nothing
    exact (looked _).trans (nothing.goes_of_served fun answer _ => idle stored answer _ found)

end Exchange

namespace Pass

/-- Every run of a pass is of a conduct. -/
def Conducts (mayFail : Request → Prop) (fine : Call → Prop) (pass : Pass σ α) : Prop :=
  ∀ state ledger, pass.EnsuresAlways mayFail (fun _ final => ledger.Goes fine final) state ledger

theorem Makes.conducts {allowed : Request → Prop} {pass : Pass σ α}
    (makes : pass.Makes allowed fun _ => True)
    (follows : ∀ call : Call, allowed call.request →
      Serves mayFail call.request call.before call.answer call.after → fine call) :
    pass.Conducts mayFail fine := by
  rintro state ledger ⟨result, state'⟩ final runs
  have goes := (makes state trivial).ensures_goes follows (result, state') final runs
  cases result with
  | ok value => exact goes.2
  | error halt => exact goes.2

/-- A part of a pass that leaves the state as it is, of a conduct. -/
theorem Conducts.ensures_still {allowed : Request → Prop} {pass : Pass σ α} {state : σ}
    {ledger : Ledger} (conducts : pass.Conducts mayFail fine)
    (still : pass.Makes allowed (· = state)) :
    pass.EnsuresAlways mayFail (fun state' final => state' = state ∧ ledger.Goes fine final)
      state ledger := by
  apply ((still.ensures_adds rfl).and (conducts state ledger)).mono
  · exact fun _ _ _ ⟨⟨same, _⟩, goes⟩ => ⟨same, goes⟩
  · exact fun _ _ _ ⟨⟨_, same, _⟩, goes⟩ => ⟨same, goes⟩

theorem conducts_pure (value : α) : (pure value : Pass σ α).Conducts mayFail fine :=
  fun _ _ => ensures_pure value .refl

theorem conducts_throw (halt : Halt PassError) : (throw halt : Pass σ α).Conducts mayFail fine :=
  fun _ _ => ensures_throw halt .refl

theorem conducts_get : (get : Pass σ σ).Conducts mayFail fine := fun _ _ => ensures_get .refl

theorem conducts_modify (change : σ → σ) :
    (modify change : Pass σ Unit).Conducts mayFail fine :=
  fun _ _ => ensures_modify .refl

theorem conducts_bind {pass : Pass σ β} {next : β → Pass σ α}
    (first : pass.Conducts mayFail fine) (rest : ∀ value, (next value).Conducts mayFail fine) :
    (pass >>= next).Conducts mayFail fine := by
  intro state ledger
  apply ensures_bind
  apply (first state ledger).mono
  · intro value state' middle goes
    exact (rest value state' middle).mono (fun _ _ _ later => goes.trans later)
      fun _ _ _ later => goes.trans later
  · exact fun _ _ _ goes => goes

theorem conducts_attempt {exchange : Exchange (Except StoreError α)}
    (conducts : exchange.Conducts mayFail fine) :
    (attempt exchange : Pass σ α).Conducts mayFail fine := by
  intro state ledger
  apply ensures_attempt
  exact conducts ledger

end Pass

end NodeFleet.Store
