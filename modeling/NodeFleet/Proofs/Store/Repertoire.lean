import NodeFleet.Proofs.Store.Plans

/-!
# The repertoire of a program

Whatever the answers, some programs only ever make calls of some kinds.  The rules
follow the forms of which exchanges, passes and controllers are made.
-/

namespace NodeFleet.Store

variable {allowed : Request → Prop} {σ α β γ : Type}

/-- A ledger goes on with allowed calls only. -/
def Ledger.Adds (allowed : Request → Prop) (ledger final : Ledger) : Prop :=
  ∃ calls, final.calls = ledger.calls ++ calls ∧ ∀ call ∈ calls, allowed call.request

section Adds

variable {ledger middle final : Ledger}

theorem Ledger.adds_add {request : Request} (permitted : allowed request)
    (answer : Answer request) (after : Registry) :
    ledger.Adds allowed (ledger.add request answer after) := by
  refine ⟨[⟨request, answer, ledger.registry, after⟩], rfl, fun call member => ?_⟩
  obtain rfl := List.mem_singleton.1 member
  exact permitted

theorem Ledger.Adds.trans (first : ledger.Adds allowed middle)
    (second : middle.Adds allowed final) : ledger.Adds allowed final := by
  obtain ⟨calls, made, permitted⟩ := first
  obtain ⟨later, madeLater, permittedLater⟩ := second
  refine ⟨calls ++ later, by simp [madeLater, made], fun call member => ?_⟩
  exact (List.mem_append.1 member).elim (permitted call) (permittedLater call)

theorem Ledger.Adds.mono {allowed' : Request → Prop} (adds : ledger.Adds allowed final)
    (permits : ∀ request, allowed request → allowed' request) : ledger.Adds allowed' final := by
  obtain ⟨calls, made, permitted⟩ := adds
  exact ⟨calls, made, fun call member => permits _ (permitted call member)⟩

end Adds

theorem Program.Makes.ensures_adds {mayFail : Request → Prop} {gives : α → Prop}
    {program : Program α} {ledger : Ledger} (makes : program.Makes allowed gives) :
    program.Ensures mayFail (fun value final => gives value ∧ ledger.Adds allowed final)
      ledger := by
  refine makes.ensures (ledger.Adds allowed) (fun earlier request answer after permitted _ => ?_)
    ⟨[], by simp, by simp⟩
  rintro ⟨calls, made, allAllowed⟩
  refine ⟨calls ++ [⟨request, answer, earlier.registry, after⟩], by simp [made], ?_⟩
  intro call member
  rcases List.mem_append.1 member with early | late
  · exact allAllowed call early
  · obtain rfl := List.mem_singleton.1 late
    exact permitted

theorem Program.Makes.of_runs {mayFail : Request → Prop} {gives : α → Prop}
    {program : Program α} {registry : Registry} {value : α} {final : Ledger}
    (makes : program.Makes allowed gives)
    (runs : program.Runs mayFail (.opened registry) value final) :
    ∀ call ∈ final.calls, allowed call.request := by
  obtain ⟨_, calls, made, allAllowed⟩ := makes.ensures_adds value final runs
  rw [Ledger.calls_opened, List.nil_append] at made
  rwa [made]

namespace Exchange

/-- Whatever the answers, an exchange makes no calls but allowed ones. -/
def Makes (allowed : Request → Prop) (exchange : Exchange α) : Prop :=
  Program.Makes allowed (fun _ => True) exchange.run

theorem makes_pure (value : α) : Makes allowed (pure value : Exchange α) := trivial

theorem makes_bind {exchange : Exchange β} {next : β → Exchange α}
    (first : Makes allowed exchange) (rest : ∀ value, Makes allowed (next value)) :
    Makes allowed (exchange >>= next) := by
  refine Program.makes_bind first fun value _ => ?_
  cases value with
  | none => trivial
  | some value => exact rest value

theorem makes_ask {request : Request} (permitted : allowed request) :
    Makes allowed (ask request) :=
  Program.makes_ask permitted

theorem makes_call {request : Request} (permitted : allowed request) :
    Makes allowed (call request) :=
  makes_bind (makes_ask permitted) fun _ => makes_pure _

variable {kind : Kind} {space name : String}

theorem makes_list {selector : String} (permitted : allowed (.list kind space selector)) :
    Makes allowed (list kind space selector) :=
  makes_call permitted

theorem makes_get (permitted : allowed (.get kind space name)) :
    Makes allowed (get kind space name) := by
  unfold get
  split
  · exact makes_pure _
  · exact makes_call permitted

theorem makes_get? (permitted : allowed (.get kind space name)) :
    Makes allowed (get? kind space name) := by
  refine makes_bind (makes_get permitted) fun result => ?_
  split
  · exact makes_pure _
  · split <;> exact makes_pure _
  · exact makes_pure _

theorem makes_create {object : kind.Object} (permitted : allowed (.create kind space object)) :
    Makes allowed (create kind space object) :=
  makes_call permitted

theorem makes_delete (permitted : allowed (.delete kind space name)) :
    Makes allowed (delete kind space name) := by
  unfold delete
  split
  · exact makes_pure _
  · refine makes_bind (makes_call permitted) fun result => ?_
    split <;> exact makes_pure _

theorem makes_updateStatus {update : kind.Object → kind.Object}
    (reads : allowed (.get kind space name))
    (writes : ∀ object, allowed (.replaceStatus kind space name object)) :
    Makes allowed (updateStatus kind space name update) := by
  refine makes_bind (makes_get reads) fun result => ?_
  split
  · exact makes_pure _
  · exact makes_call (writes _)

theorem makes_record {event : Event} (permitted : allowed (.publish event)) :
    Makes allowed (record event) :=
  makes_bind (makes_ask permitted) fun _ => makes_pure _

theorem makes_isDefined (permitted : allowed (.findDefinition kind)) :
    Makes allowed (isDefined kind) := by
  refine makes_bind (makes_ask permitted) fun result => ?_
  split
  · exact makes_pure _
  · split <;> exact makes_pure _
  · exact makes_pure _

end Exchange

namespace Pass

/-- What is to hold of the outcome of a pass that keeps a statement of its state: it has
not broken down, and the statement holds. -/
def stays (holds : σ → Prop) : Except (Halt PassError) α × σ → Prop
  | (.ok _, state) => holds state
  | (.error halt, state) => halt.isBroken = false ∧ holds state

/-- Whatever the answers, a pass makes no calls but allowed ones, keeps a statement of its
state and does not break down. -/
def Makes (allowed : Request → Prop) (holds : σ → Prop) (pass : Pass σ α) : Prop :=
  ∀ state, holds state → Program.Makes allowed (stays holds) (pass.run.run state : Program _)

variable {holds : σ → Prop}

theorem makes_pure (value : α) : Makes allowed holds (pure value : Pass σ α) :=
  fun _ start => start

theorem makes_throw {halt : Halt PassError} (whole : halt.isBroken = false) :
    Makes allowed holds (throw halt : Pass σ α) :=
  fun _ start => ⟨whole, start⟩

theorem makes_state : Makes allowed holds (get : Pass σ σ) := fun _ start => start

theorem makes_modify {change : σ → σ} (keeps : ∀ state, holds state → holds (change state)) :
    Makes allowed holds (modify change : Pass σ Unit) :=
  keeps

theorem makes_bind {pass : Pass σ β} {next : β → Pass σ α} (first : Makes allowed holds pass)
    (rest : ∀ value, Makes allowed holds (next value)) : Makes allowed holds (pass >>= next) := by
  intro state start
  refine Program.makes_bind (first state start) fun outcome kept => ?_
  obtain ⟨result, state'⟩ := outcome
  cases result with
  | ok value => exact rest value state' kept
  | error halt => exact kept

theorem makes_lift {program : Program α} (makes : program.Makes allowed fun _ => True) :
    Makes allowed holds (liftM program : Pass σ α) := by
  intro state start
  have carried : (program.bind fun value => .done (value, state)).Makes allowed
      fun outcome => holds outcome.2 :=
    Program.makes_bind makes fun _ _ => start
  exact Program.makes_bind carried fun _ kept => kept

theorem makes_perform {exchange : Exchange α} (makes : exchange.Makes allowed) :
    Makes allowed holds (perform exchange : Pass σ α) := by
  refine makes_bind (makes_lift makes) fun result => ?_
  split
  · exact makes_pure _
  · exact makes_throw rfl

theorem makes_attempt {exchange : Exchange (Except StoreError α)}
    (makes : exchange.Makes allowed) : Makes allowed holds (attempt exchange : Pass σ α) := by
  refine makes_bind (makes_perform makes) fun result => ?_
  split
  · exact makes_pure _
  · exact makes_throw rfl

theorem makes_orUnrecoverable (cause : Cause) (value : Option α) :
    Makes allowed holds (orUnrecoverable cause value : Pass σ α) := by
  unfold orUnrecoverable
  split
  · exact makes_pure _
  · exact makes_throw rfl

theorem makes_notify {reason note : String}
    (permitted : allowed (.publish ⟨.normal, reason, note⟩)) :
    Makes allowed holds (notify reason note : Pass σ Unit) :=
  makes_bind (makes_perform (Exchange.makes_record permitted)) fun _ => makes_pure _

theorem makes_forM {body : γ → Pass σ PUnit} (items : List γ)
    (each : ∀ item ∈ items, Makes allowed holds (body item)) :
    Makes allowed holds (items.forM body) := by
  induction items with
  | nil => exact makes_pure _
  | cons item items inductionHypothesis =>
      exact makes_bind (each item List.mem_cons_self) fun _ =>
        inductionHypothesis fun other member => each other (List.mem_cons_of_mem _ member)

theorem Makes.mono {allowed' : Request → Prop} {pass : Pass σ α}
    (makes : pass.Makes allowed holds)
    (permits : ∀ request, allowed request → allowed' request) : pass.Makes allowed' holds :=
  fun state start => (makes state start).mono permits fun _ kept => kept

/-- A pass ends, or halts, with allowed calls only and in a state that it has kept. -/
theorem Makes.ensures_adds {mayFail : Request → Prop} {pass : Pass σ α} {state : σ}
    {ledger : Ledger} (makes : pass.Makes allowed holds) (start : holds state) :
    pass.Ensures mayFail (fun _ state' final => holds state' ∧ ledger.Adds allowed final)
      (fun halt state' final => halt.isBroken = false ∧ holds state' ∧
        ledger.Adds allowed final) state ledger := by
  refine Program.Ensures.mono (makes state start).ensures_adds fun outcome final holdsFinal => ?_
  obtain ⟨result, state'⟩ := outcome
  cases result with
  | ok value => exact holdsFinal
  | error halt => exact ⟨holdsFinal.1.1, holdsFinal.1.2, holdsFinal.2⟩

end Pass

namespace Control

/-- Whatever the answers, a controller makes no calls but allowed ones. -/
def Makes (allowed : Request → Prop) (control : Control α) : Prop :=
  Program.Makes allowed (fun _ => True) control.run

theorem makes_pure (value : α) : Makes allowed (pure value : Control α) := trivial

theorem makes_throw (halt : Halt ControlError) : Makes allowed (throw halt : Control α) :=
  trivial

theorem makes_bind {control : Control β} {next : β → Control α} (first : Makes allowed control)
    (rest : ∀ value, Makes allowed (next value)) : Makes allowed (control >>= next) := by
  refine Program.makes_bind first fun result _ => ?_
  cases result with
  | ok value => exact rest value
  | error halt => trivial

theorem makes_lift {gives : α → Prop} {program : Program α}
    (makes : program.Makes allowed gives) : Makes allowed (liftM program : Control α) :=
  Program.makes_bind makes fun _ _ => trivial

theorem makes_perform {exchange : Exchange α} (makes : exchange.Makes allowed) :
    Makes allowed (perform exchange) := by
  refine makes_bind (makes_lift makes) fun result => ?_
  split
  · exact makes_pure _
  · exact makes_throw _

theorem makes_attempt {exchange : Exchange (Except StoreError α)}
    (makes : exchange.Makes allowed) : Makes allowed (attempt exchange) := by
  refine makes_bind (makes_perform makes) fun result => ?_
  split
  · exact makes_pure _
  · exact makes_throw _

theorem makes_withDeadline {limit : Calendar.Duration} {holds : σ → Prop} {pass : Pass σ α}
    {state : σ} (makes : pass.Makes allowed holds) (start : holds state) :
    Makes allowed (withDeadline limit pass state) := by
  refine makes_bind (makes_lift (makes state start)) fun outcome => ?_
  obtain ⟨result, state'⟩ := outcome
  cases result with
  | ok value => exact makes_pure _
  | error halt =>
      cases halt with
      | failed error => exact makes_pure _
      | unanswered => exact makes_pure _
      | broken message => exact makes_throw _

theorem Makes.ensures_adds {mayFail : Request → Prop} {control : Control α} {ledger : Ledger}
    (makes : control.Makes allowed) :
    control.EnsuresAlways mayFail (ledger.Adds allowed) ledger := by
  refine Program.Ensures.mono (Program.Makes.ensures_adds makes) fun result final adds => ?_
  cases result with
  | ok value => exact adds.2
  | error halt => exact adds.2

theorem makes_failPass (error : PassError) (permitted : ∀ event, allowed (.publish event)) :
    Makes allowed (failPass error : Control α) := by
  unfold failPass
  split
  · refine makes_bind (makes_bind (makes_perform (Exchange.makes_record (permitted _))) fun _ =>
      makes_pure _) fun _ => makes_throw _
  · exact makes_throw _

end Control

end NodeFleet.Store
