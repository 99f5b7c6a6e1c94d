import NodeFleet.Proofs.Store.Repertoire

/-!
# The outcomes of a pass

What a pass comes to when nothing is known of the answers: each call may get any answer of
its form, or none.  This covers every cluster, every failure of a call and every deadline.
-/

namespace NodeFleet.Store

variable {σ α β γ : Type}

namespace Program

/-- Some answers lead a program to a value. -/
inductive MayGive : Program α → α → Prop
  | done (value : α) : MayGive (.done value) value
  | call {request : Request} {resume : Answer request → Program α} {value : α}
      (answer : Answer request) (rest : MayGive (resume answer) value) :
      MayGive (.call request resume) value

/-- Some answers lead a program to each value that a run gives. -/
theorem Runs.mayGive {mayFail : Request → Prop} {program : Program α} {ledger final : Ledger}
    {value : α} (runs : Runs mayFail program ledger value final) : program.MayGive value := by
  induction runs with
  | done value ledger => exact .done value
  | call served rest inductionHypothesis => exact .call _ inductionHypothesis

/-- The answers of a server that never fails lead a program to a value. -/
theorem mayGive_run (program : Program α) (ledger : Ledger) :
    program.MayGive (program.run (serve fun _ => false) ledger).1 := by
  have never : ∀ request, (fun _ : Request => false) request = true →
      (fun _ : Request => False) request := fun _ fails => nomatch fails
  exact (runs_run never program ledger).mayGive

theorem mayGive_done_iff {value other : α} :
    (Program.done value).MayGive other ↔ other = value := by
  constructor
  · rintro ⟨⟩
    rfl
  · rintro rfl
    exact .done other

/-- Some answers lead a program and its continuation to a value exactly if some lead the program
to a value with which the continuation goes on to it. -/
theorem mayGive_bind_iff {program : Program α} {next : α → Program β} {last : β} :
    (program.bind next).MayGive last ↔
      ∃ value, program.MayGive value ∧ (next value).MayGive last := by
  induction program with
  | done value => simp [mayGive_done_iff]
  | call request resume inductionHypothesis =>
      constructor
      · intro may
        cases may with
        | call answer rest =>
            obtain ⟨value, first, goesOn⟩ := (inductionHypothesis answer).1 rest
            exact ⟨value, .call answer first, goesOn⟩
      · rintro ⟨value, first, goesOn⟩
        cases first with
        | call answer rest =>
            exact .call answer ((inductionHypothesis answer).2 ⟨value, rest, goesOn⟩)

theorem Makes.of_mayGive {allowed : Request → Prop} {gives : α → Prop} {program : Program α}
    {value : α} (makes : program.Makes allowed gives) (may : program.MayGive value) :
    gives value := by
  induction may with
  | done value => exact makes
  | call answer rest inductionHypothesis => exact inductionHypothesis (makes.2 answer)

theorem makes_any (program : Program α) : program.Makes (fun _ => True) fun _ => True := by
  induction program with
  | done value => trivial
  | call request resume inductionHypothesis => exact ⟨trivial, inductionHypothesis⟩

end Program

namespace Pass

/-- Some answers lead a pass from a state to a result and another state. -/
def MayEnd (pass : Pass σ α) (state : σ) (result : Except (Halt PassError) α) (state' : σ) :
    Prop :=
  Program.MayGive (pass.run.run state : Program _) (result, state')

theorem Runs.mayEnd {mayFail : Request → Prop} {pass : Pass σ α} {state state' : σ}
    {ledger final : Ledger} {result : Except (Halt PassError) α}
    (runs : Runs mayFail pass state ledger result state' final) :
    pass.MayEnd state result state' :=
  Program.Runs.mayGive runs

theorem mayEnd_pure_iff {value : α} {state state' : σ} {result : Except (Halt PassError) α} :
    (pure value : Pass σ α).MayEnd state result state' ↔ result = .ok value ∧ state' = state :=
  Program.mayGive_done_iff.trans Prod.ext_iff

theorem mayEnd_get_bind_iff {next : σ → Pass σ α} {state state' : σ}
    {result : Except (Halt PassError) α} :
    (get >>= next : Pass σ α).MayEnd state result state' ↔
      (next state).MayEnd state result state' :=
  Iff.rfl

/-- A pass and its continuation end where the continuation does, or where the pass halts. -/
theorem mayEnd_bind_iff {pass : Pass σ β} {next : β → Pass σ α} {state state' : σ}
    {result : Except (Halt PassError) α} :
    (pass >>= next).MayEnd state result state' ↔
      (∃ value middle, pass.MayEnd state (.ok value) middle ∧
        (next value).MayEnd middle result state') ∨
      ∃ halt, pass.MayEnd state (.error halt) state' ∧ result = .error halt := by
  refine Program.mayGive_bind_iff.trans ⟨?_, ?_⟩
  · rintro ⟨⟨outcome, middle⟩, first, goesOn⟩
    cases outcome with
    | ok value => exact Or.inl ⟨value, middle, first, goesOn⟩
    | error halt =>
        obtain ⟨rfl, rfl⟩ := Prod.mk.inj (Program.mayGive_done_iff.1 goesOn)
        exact Or.inr ⟨halt, first, rfl⟩
  · rintro (⟨value, middle, first, goesOn⟩ | ⟨halt, first, rfl⟩)
    · exact ⟨(.ok value, middle), first, goesOn⟩
    · exact ⟨(.error halt, state'), first, .done _⟩

/-- What is to hold of a result and a state, by whether a pass got to its end. -/
def comesTo (done : α → σ → Prop) (halted : Halt PassError → σ → Prop) :
    Except (Halt PassError) α × σ → Prop
  | (.ok value, state) => done value state
  | (.error halt, state) => halted halt state

/-- Whatever the answers, a pass ends, or halts, as stated. -/
def Leads (done : α → σ → Prop) (halted : Halt PassError → σ → Prop) (pass : Pass σ α)
    (state : σ) : Prop :=
  Program.Makes (fun _ => True) (comesTo done halted) (pass.run.run state : Program _)

variable {done : α → σ → Prop} {halted : Halt PassError → σ → Prop} {state : σ}

theorem Leads.comesTo {pass : Pass σ α} {result : Except (Halt PassError) α} {state' : σ}
    (leads : pass.Leads done halted state) (may : pass.MayEnd state result state') :
    Pass.comesTo done halted (result, state') :=
  Program.Makes.of_mayGive leads may

theorem Leads.mono {pass : Pass σ α} {done' : α → σ → Prop}
    {halted' : Halt PassError → σ → Prop} (leads : pass.Leads done halted state)
    (weakerDone : ∀ value state, done value state → done' value state)
    (weakerHalted : ∀ halt state, halted halt state → halted' halt state) :
    pass.Leads done' halted' state := by
  apply Program.Makes.mono leads (fun _ permitted => permitted)
  intro outcome holds
  obtain ⟨result, state'⟩ := outcome
  cases result with
  | ok value => exact weakerDone value state' holds
  | error halt => exact weakerHalted halt state' holds

/-- What a pass leads to whatever the answers, all of its runs lead to. -/
theorem Leads.ensures {mayFail : Request → Prop} {pass : Pass σ α} {ledger : Ledger}
    (leads : pass.Leads done halted state) :
    pass.Ensures mayFail (fun value state' _ => done value state')
      (fun halt state' _ => halted halt state') state ledger := by
  rintro ⟨result, state'⟩ final runs
  have comesTo := Program.Makes.of_mayGive leads runs.mayGive
  cases result with
  | ok value => exact comesTo
  | error halt => exact comesTo

/-- What a pass keeps of its state, it leads to. -/
theorem Makes.leads {allowed : Request → Prop} {holds : σ → Prop} {pass : Pass σ α}
    (makes : pass.Makes allowed holds) (start : holds state) :
    pass.Leads (fun _ => holds) (fun _ => holds) state := by
  apply Program.Makes.mono (makes state start) (fun _ _ => trivial)
  rintro ⟨result, state'⟩ kept
  cases result with
  | ok value => exact kept
  | error halt => exact kept.2

theorem leads_pure {value : α} (holds : done value state) :
    (pure value : Pass σ α).Leads done halted state :=
  holds

theorem leads_get {done : σ → σ → Prop} (holds : done state state) :
    (get : Pass σ σ).Leads done halted state :=
  holds

theorem leads_modify {done : Unit → σ → Prop} {change : σ → σ}
    (holds : done () (change state)) :
    (modify change : Pass σ Unit).Leads done halted state :=
  holds

theorem leads_bind {pass : Pass σ β} {next : β → Pass σ α}
    (first : pass.Leads (fun value => (next value).Leads done halted) halted state) :
    (pass >>= next).Leads done halted state := by
  apply Program.makes_bind first
  intro outcome holds
  obtain ⟨result, state'⟩ := outcome
  cases result with
  | ok value => exact holds
  | error halt => exact holds

/-- Of what a pass leads to, when nothing is asked, there is nothing to show. -/
theorem leads_trivial (pass : Pass σ α) (state : σ) :
    pass.Leads (fun _ _ => True) (fun _ _ => True) state := by
  apply Program.Makes.mono (Program.makes_any _) (fun _ permitted => permitted)
  rintro ⟨result, state'⟩ _
  cases result with
  | ok value => trivial
  | error halt => trivial

/-- A value that is given after a pass does not depend on it. -/
theorem leads_bind_pure (pass : Pass σ β) (value : α) (state : σ) :
    (pass >>= fun _ => pure value).Leads (fun result _ => result = value) (fun _ _ => True)
      state := by
  apply leads_bind
  exact (leads_trivial pass state).mono (fun _ _ _ => leads_pure rfl) fun _ _ halts => halts

theorem leads_lift {program : Program α} (holds : ∀ value, done value state) :
    (liftM program : Pass σ α).Leads done halted state := by
  have carried : (program.bind fun value => .done (value, state)).Makes (fun _ => True)
      fun outcome => done outcome.1 outcome.2 :=
    Program.makes_bind program.makes_any fun value _ => holds value
  exact Program.makes_bind carried fun _ kept => kept

/-- The rule for an exchange of whose answer nothing is known. -/
theorem leads_perform {exchange : Exchange α} (answered : ∀ value, done value state)
    (unanswered : halted .unanswered state) :
    (perform exchange : Pass σ α).Leads done halted state := by
  apply leads_bind
  apply leads_lift
  intro result
  cases result with
  | some value => exact answered value
  | none => exact unanswered

theorem leads_attempt {exchange : Exchange (Except StoreError α)}
    (answered : ∀ value, done value state)
    (refused : ∀ error, halted (.failed (.transient (.store error))) state)
    (unanswered : halted .unanswered state) :
    (attempt exchange : Pass σ α).Leads done halted state := by
  apply leads_bind
  apply leads_perform _ unanswered
  intro result
  cases result with
  | ok value => exact answered value
  | error error => exact refused error

theorem leads_orUnrecoverable {cause : Cause} {value : Option α}
    (there : ∀ value, done value state)
    (missing : halted (.failed (.unrecoverable cause)) state) :
    (orUnrecoverable cause value : Pass σ α).Leads done halted state := by
  cases value with
  | some value => exact there value
  | none => exact missing

theorem leads_notify {reason note : String} {done : Unit → σ → Prop} (holds : done () state)
    (unanswered : halted .unanswered state) :
    (notify reason note : Pass σ Unit).Leads done halted state :=
  leads_bind (leads_perform (fun _ => holds) unanswered)

/-- A statement that every round of a loop keeps holds after the loop. -/
theorem leads_forM {body : γ → Pass σ PUnit} {holds : σ → Prop}
    (each : ∀ item state, holds state →
      (body item).Leads (fun _ => holds) halted state)
    (items : List γ) (start : holds state) :
    (items.forM body).Leads (fun _ => holds) halted state := by
  induction items generalizing state with
  | nil => exact start
  | cons item items inductionHypothesis =>
      apply leads_bind
      exact (each item state start).mono (fun _ _ kept => inductionHypothesis kept)
        fun _ _ halts => halts

end Pass

end NodeFleet.Store
