import NodeFleet.Proofs.Store.Outcomes

/-!
# Programs in step

Two programs are in step when they make the same calls, whatever the answers, and end in values
that are related.  A pass from one state and a pass from another one are in step when their results
are the same, and their states related, so that they differ in nothing that a server can see.
-/

namespace NodeFleet.Store

variable {α β γ δ σ : Type}

namespace Program

/-- Two programs make the same calls, and give related values. -/
inductive InStep (related : α → β → Prop) : Program α → Program β → Prop
  | done {value : α} {value' : β} (holds : related value value') :
      InStep related (.done value) (.done value')
  | call {request : Request} {resume : Answer request → Program α}
      {resume' : Answer request → Program β}
      (rest : ∀ answer, InStep related (resume answer) (resume' answer)) :
      InStep related (.call request resume) (.call request resume')

variable {related : α → β → Prop} {program : Program α} {other : Program β}

theorem InStep.mono {related' : α → β → Prop} (inStep : InStep related program other)
    (weaker : ∀ value value', related value value' → related' value value') :
    InStep related' program other := by
  induction inStep with
  | done holds => exact .done (weaker _ _ holds)
  | call _ inductionHypothesis => exact .call inductionHypothesis

theorem InStep.bind {related' : γ → δ → Prop} {next : α → Program γ} {next' : β → Program δ}
    (inStep : InStep related program other)
    (rest : ∀ value value', related value value' → InStep related' (next value) (next' value')) :
    InStep related' (program.bind next) (other.bind next') := by
  induction inStep with
  | done holds => exact rest _ _ holds
  | call _ inductionHypothesis => exact .call inductionHypothesis

theorem inStep_refl {related : α → α → Prop} (program : Program α)
    (reflexive : ∀ value, related value value) : InStep related program program := by
  induction program with
  | done value => exact .done (reflexive value)
  | call request resume inductionHypothesis => exact .call inductionHypothesis

/-- What the values of one of two programs in step are known for may be used. -/
theorem InStep.and_makes {allowed : Request → Prop} {gives : α → Prop}
    (inStep : InStep related program other) (makes : program.Makes allowed gives) :
    InStep (fun value value' => related value value' ∧ gives value) program other := by
  induction inStep with
  | done holds => exact .done ⟨holds, makes⟩
  | call _ inductionHypothesis =>
      exact .call fun answer => inductionHypothesis answer (makes.2 answer)

/-- Programs in step leave the same world, whatever serves them. -/
theorem InStep.run {World : Type} (inStep : InStep related program other)
    (serve : (request : Request) → World → Answer request × World) (world : World) :
    related (program.run serve world).1 (other.run serve world).1 ∧
      (program.run serve world).2 = (other.run serve world).2 := by
  induction inStep generalizing world with
  | done holds => exact ⟨holds, rfl⟩
  | call _ inductionHypothesis => exact inductionHypothesis _ _

end Program

namespace Pass

/-- Two passes come to the same result, in states of which a statement holds. -/
def endsAlike (done : α → σ → σ → Prop) (halted : σ → σ → Prop) :
    Except (Halt PassError) α × σ → Except (Halt PassError) α × σ → Prop
  | (.ok value, state), (.ok value', state') => value = value' ∧ done value state state'
  | (.error halt, state), (.error halt', state') => halt = halt' ∧ halted state state'
  | _, _ => False

/-- Two passes, each from its state, make the same calls and end alike. -/
def InStep (done : α → σ → σ → Prop) (halted : σ → σ → Prop) (pass other : Pass σ α)
    (state state' : σ) : Prop :=
  Program.InStep (endsAlike done halted) (pass.run.run state : Program _)
    (other.run.run state' : Program _)

variable {done : α → σ → σ → Prop} {halted : σ → σ → Prop} {pass other : Pass σ α}
  {state state' : σ}

theorem InStep.mono {done' : α → σ → σ → Prop} {halted' : σ → σ → Prop}
    (inStep : InStep done halted pass other state state')
    (weaker : ∀ value state state', done value state state' → done' value state state')
    (weakerHalted : ∀ state state', halted state state' → halted' state state') :
    InStep done' halted' pass other state state' := by
  apply Program.InStep.mono inStep
  rintro ⟨result, left⟩ ⟨result', right⟩ alike
  cases result <;> cases result'
  · exact ⟨alike.1, weakerHalted _ _ alike.2⟩
  · exact alike
  · exact alike
  · exact ⟨alike.1, weaker _ _ _ alike.2⟩

theorem inStep_pure (value : α) (holds : done value state state') :
    InStep done halted (pure value) (pure value) state state' :=
  .done ⟨rfl, holds⟩

theorem inStep_throw (halt : Halt PassError) (holds : halted state state') :
    InStep done halted (throw halt) (throw halt) state state' :=
  .done ⟨rfl, holds⟩

/-- The rule for a pass that goes on with its state. -/
theorem inStep_get_bind {next next' : σ → Pass σ α}
    (rest : InStep done halted (next state) (next' state') state state') :
    InStep done halted (get >>= next) (get >>= next') state state' :=
  rest

/-- The rule for a pass that changes its state and goes on. -/
theorem inStep_modify_bind {change : σ → σ} {next next' : Unit → Pass σ α}
    (rest : InStep done halted (next ()) (next' ()) (change state) (change state')) :
    InStep done halted (modify change >>= next) (modify change >>= next') state state' :=
  rest

theorem inStep_bind {first first' : Pass σ β} {next next' : β → Pass σ α}
    (inStep : InStep (fun value => InStep done halted (next value) (next' value)) halted first
      first' state state') :
    InStep done halted (first >>= next) (first' >>= next') state state' := by
  apply Program.InStep.bind inStep
  rintro ⟨result, left⟩ ⟨result', right⟩ alike
  cases result <;> cases result'
  · exact .done alike
  · exact alike.elim
  · exact alike.elim
  · obtain ⟨rfl, rest⟩ := alike
    exact rest

theorem InStep.bind {done' : β → σ → σ → Prop} {first first' : Pass σ β}
    {next next' : β → Pass σ α} (inStep : InStep done' halted first first' state state')
    (rest : ∀ value left right, done' value left right →
      InStep done halted (next value) (next' value) left right) :
    InStep done halted (first >>= next) (first' >>= next') state state' :=
  inStep_bind (inStep.mono rest fun _ _ same => same)

/-- From one state, a pass is in step with itself. -/
theorem inStep_refl (pass : Pass σ α) (state : σ) (reflexive : ∀ state, halted state state) :
    InStep (fun _ left right => left = right) halted pass pass state state := by
  apply Program.inStep_refl
  rintro ⟨result, last⟩
  cases result with
  | ok value => exact ⟨rfl, rfl⟩
  | error halt => exact ⟨rfl, reflexive last⟩

theorem InStep.and_leads {ends : α → σ → Prop} {halts : Halt PassError → σ → Prop}
    (inStep : InStep done halted pass other state state')
    (leads : pass.Leads ends halts state) :
    InStep (fun value left right => done value left right ∧ ends value left) halted pass other
      state state' := by
  apply Program.InStep.mono (Program.InStep.and_makes inStep leads)
  rintro ⟨result, left⟩ ⟨result', right⟩ ⟨alike, comes⟩
  cases result <;> cases result'
  · exact alike
  · exact alike
  · exact alike
  · exact ⟨alike.1, alike.2, comes⟩

/-! ## Passes that have nothing to do with their state -/

/-- Whatever the states, a pass is in step with itself and leaves them as they are. -/
def Oblivious (pass : Pass σ α) : Prop :=
  ∀ state state', InStep (fun _ left right => left = state ∧ right = state')
    (fun left right => left = state ∧ right = state') pass pass state state'

/-- The rule for a part of a pass that has nothing to do with the state. -/
theorem Oblivious.inStep {first : Pass σ β} {next next' : β → Pass σ α}
    (oblivious : first.Oblivious) (halts : halted state state')
    (rest : ∀ value, InStep done halted (next value) (next' value) state state') :
    InStep done halted (first >>= next) (first >>= next') state state' := by
  apply inStep_bind
  apply (oblivious state state').mono
  · rintro value _ _ ⟨rfl, rfl⟩
    exact rest value
  · rintro _ _ ⟨rfl, rfl⟩
    exact halts

theorem oblivious_pure (value : α) : (pure value : Pass σ α).Oblivious :=
  fun _ _ => inStep_pure value ⟨rfl, rfl⟩

theorem oblivious_throw (halt : Halt PassError) : (throw halt : Pass σ α).Oblivious :=
  fun _ _ => inStep_throw halt ⟨rfl, rfl⟩

theorem oblivious_bind {first : Pass σ β} {next : β → Pass σ α} (oblivious : first.Oblivious)
    (rest : ∀ value, (next value).Oblivious) : (first >>= next).Oblivious :=
  fun state state' => oblivious.inStep ⟨rfl, rfl⟩ fun value => rest value state state'

theorem oblivious_perform (exchange : Exchange α) : (perform exchange : Pass σ α).Oblivious := by
  have lifted : (liftM (exchange.run : Program (Option α)) : Pass σ (Option α)).Oblivious := by
    intro state state'
    have carried : Program.InStep (fun outcome outcome' =>
        outcome.1 = outcome'.1 ∧ outcome.2 = state ∧ outcome'.2 = state')
        (Program.bind (fun value => .done (value, state)) exchange.run)
        (Program.bind (fun value => .done (value, state')) exchange.run) :=
      (Program.inStep_refl exchange.run fun value => (rfl : value = value)).bind
        fun value value' same => .done ⟨same, rfl, rfl⟩
    exact carried.bind fun outcome outcome' same => .done same
  apply oblivious_bind lifted
  intro result
  cases result with
  | some value => exact oblivious_pure value
  | none => exact oblivious_throw .unanswered

theorem oblivious_attempt (exchange : Exchange (Except StoreError α)) :
    (attempt exchange : Pass σ α).Oblivious := by
  apply oblivious_bind (oblivious_perform exchange)
  intro result
  cases result with
  | ok value => exact oblivious_pure value
  | error error => exact oblivious_throw _

theorem oblivious_notify (reason note : String) : (notify reason note : Pass σ Unit).Oblivious :=
  oblivious_bind (oblivious_perform _) fun _ => oblivious_pure ()

theorem oblivious_orUnrecoverable (cause : Cause) (value : Option α) :
    (orUnrecoverable cause value : Pass σ α).Oblivious := by
  cases value with
  | some value => exact oblivious_pure value
  | none => exact oblivious_throw _

theorem oblivious_forM {body : γ → Pass σ PUnit} (each : ∀ item, (body item).Oblivious)
    (items : List γ) : (items.forM body).Oblivious := by
  induction items with
  | nil => exact oblivious_pure _
  | cons item items inductionHypothesis =>
      exact oblivious_bind (each item) fun _ => inductionHypothesis

end Pass

end NodeFleet.Store
