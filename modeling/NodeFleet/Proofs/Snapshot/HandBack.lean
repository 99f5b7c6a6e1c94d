import NodeFleet.Proofs.Snapshot.Turns

/-!
# Handing the pod back

A scheduler that is suspended hands back the pod that its status names.  A pass registers a
pod before its status says so; when the status is lost, nothing but the entry tells of the
pod, and the scheduler may come to rest without it.
-/

namespace NodeFleet.Snapshot

open Calendar Resource Store

variable {mayFail : Request → Prop} {space name : String} {slot : Slot}
  {start before : Registry} {first : Scheduler} {turns : List Turn} {turn : Turn}

/-- The candidate of a scheduler as it is stored after a turn. -/
def Turn.candidate? (space name : String) (turn : Turn) : Option Candidate :=
  (turn.final.registry.find? .scheduler space name).bind fun scheduler : Scheduler =>
    (scheduler.status.getD .initial).candidate

/-- A turn has registered a pod in a slot, or the slot was filled from the start, and no
status that was stored from then on has a candidate.  The turns stand with the latest
first. -/
def Slot.Orphaned (space name : String) (slot : Slot) (start : Registry) : List Turn → Prop
  | [] => slot.held? start ≠ none
  | turn :: earlier =>
      turn.candidate? space name = none ∧
        (slot.TakesUp turn.final.calls ∨ slot.Orphaned space name start earlier)

/-- What holds within a pass of the entry in a slot and of the candidate, from those with
which the pass started: a pass that unsets the candidate registers no pod, and one that sets
it clears no entry. -/
structure Backed (round : Round) (candidate : Option Candidate) (entry : Option String)
    (ending : Ending) (status : SchedulerStatus) (ledger : Ledger) : Prop where
  idle : status.candidate = none → ¬ round.slot.TakesUp ledger.calls
  kept : status.candidate = none → candidate = none →
    round.slot.held? ledger.registry = entry
  cleared : status.candidate = none → candidate ≠ none →
    round.slot.held? ledger.registry = none
  filled : candidate = none → entry ≠ none ∨ round.slot.TakesUp ledger.calls →
    round.slot.held? ledger.registry ≠ none
  -- A pass that has registered a pod does not get as far as to hand it back.
  ahead : ending = .goesOn → status.candidate ≠ none →
    candidate = none ∨ round.slot.TakesUp ledger.calls →
      round.scheduler.isSuspended = false ∧ isTakingDown status.phase = true

section Moves

variable {round : Round} {candidate : Option Candidate} {entry : Option String}
  {status status' : SchedulerStatus} {ledger final : Ledger} {ending : Ending}

/-- Moves that spare the entry and keep the candidate keep a pass backed. -/
theorem Backed.of_spares {allowed : Request → Prop}
    (backed : Backed round candidate entry .goesOn status ledger)
    (spares : round.slot.Spares allowed ledger final)
    (same : status'.candidate = status.candidate)
    (ahead : ending = .goesOn → status.candidate ≠ none →
      round.scheduler.isSuspended = false → isTakingDown status.phase = true →
        isTakingDown status'.phase = true) :
    Backed round candidate entry ending status' final where
  idle := by
    rw [same, spares.takesUp_iff]
    exact backed.idle
  kept := by
    rw [same, spares.entry]
    exact backed.kept
  cleared := by
    rw [same, spares.entry]
    exact backed.cleared
  filled := by
    rw [spares.takesUp_iff, spares.entry]
    exact backed.filled
  ahead := by
    rw [same, spares.takesUp_iff]
    intro goesOn set started
    obtain ⟨awake, early⟩ := backed.ahead rfl set started
    exact ⟨awake, ahead goesOn set awake early⟩

/-- A move that fills the slot for a candidate keeps a pass backed. -/
theorem Backed.of_filled (set : status'.candidate ≠ none)
    (held : round.slot.held? final.registry ≠ none)
    (ahead : ending = .goesOn →
      round.scheduler.isSuspended = false ∧ isTakingDown status'.phase = true) :
    Backed round candidate entry ending status' final where
  idle := fun unset => absurd unset set
  kept := fun unset => absurd unset set
  cleared := fun unset => absurd unset set
  filled := fun _ _ => held
  ahead := fun goesOn _ _ => ahead goesOn

/-- Where a pod is handed back, the pass started with a candidate and has registered no
pod. -/
theorem Backed.of_due (backed : Backed round candidate entry .goesOn status ledger)
    (set : status.candidate ≠ none)
    (due : status.phase = .restoringPod ∨ round.scheduler.isSuspended = true) :
    candidate ≠ none ∧ ¬ round.slot.TakesUp ledger.calls := by
  by_contra started
  have early : candidate = none ∨ round.slot.TakesUp ledger.calls := by
    by_cases unset : candidate = none
    · exact Or.inl unset
    · exact Or.inr (not_not.1 fun idle => started ⟨unset, idle⟩)
  obtain ⟨awake, takingDown⟩ := backed.ahead rfl set early
  rcases due with phase | suspended
  · rw [phase] at takingDown
    cases takingDown
  · rw [awake] at suspended
    cases suspended

/-- A move that clears the slot keeps a pass backed. -/
theorem Backed.of_clears {allowed : Request → Prop}
    (backed : Backed round candidate entry .goesOn status ledger)
    (set : status.candidate ≠ none)
    (due : status.phase = .restoringPod ∨ round.scheduler.isSuspended = true)
    (clears : round.slot.Clears allowed ledger final) :
    Backed round candidate entry ending status' final := by
  obtain ⟨started, idle⟩ := backed.of_due set due
  have idleFinal : ¬ round.slot.TakesUp final.calls := by
    rw [clears.takesUp_iff]
    exact idle
  exact {
    idle := fun _ => idleFinal
    kept := fun _ unset => absurd unset started
    cleared := fun _ _ => clears.vacant
    filled := fun unset => absurd unset started
    ahead := fun _ _ early => early.elim (fun unset => absurd unset started)
      fun takes => absurd takes idleFinal }

/-- Every move keeps a pass backed. -/
theorem upholds_backed : round.Upholds mayFail (Backed round candidate entry) := by
  intro status status' ledger final ending backed moves
  cases moves with
  | looks spares akin shifts =>
      exact backed.of_spares spares akin.candidate fun goesOn set _ early =>
        shifts.isTakingDown_eq goesOn set early
  | chooses awake phase spares chosen startedAt phase' =>
      have set : status'.candidate ≠ none := by simp [chosen]
      exact {
        idle := fun unset => absurd unset set
        kept := fun unset => absurd unset set
        cleared := fun unset => absurd unset set
        filled := by
          rw [spares.takesUp_iff, spares.entry]
          exact backed.filled
        ahead := fun _ _ _ => ⟨awake, by rw [phase']; rfl⟩ }
  | takesDown awake phase chosen adds held touched akin phase' =>
      refine .of_filled ?_ ?_ fun _ => ⟨awake, ?_⟩
      · simp [akin.candidate, chosen]
      · simp [held]
      · rw [phase']
        rfl
  | failsToTakeDown phase chosen adds held =>
      exact .of_filled (by simp [chosen]) (by simp [held]) fun same => nomatch same
  | seesGone awake phase chosen spares akin phase' =>
      refine backed.of_spares spares akin.candidate fun _ _ _ _ => ?_
      rw [phase']
      rfl
  | seesPod phase spares akin phase' ended =>
      exact backed.of_spares spares akin.candidate fun goesOn => absurd goesOn ended
  | takesOver phase chosen spares same phase' =>
      exact backed.of_spares spares same fun goesOn => nomatch goesOn
  | creates awake phase chosen created succeeds same startedAt phase' =>
      exact backed.of_spares created.spares same fun goesOn => nomatch goesOn
  | failsToCreate awake phase chosen created cause =>
      exact backed.of_spares created.spares rfl fun goesOn => nomatch goesOn
  | losesSight due chosen clears nothing =>
      exact backed.of_clears (by simp [chosen]) due
        ((clears.mono fun _ _ => trivial).then_spares (spares_of_fruitless nothing trivial))
  | awaitsPod due chosen clears touched akin phase' =>
      exact backed.of_clears (by simp [chosen]) due clears
  | restores due chosen clears touched restored startedAt phase' =>
      exact backed.of_clears (by simp [chosen]) due clears

end Moves

/-! ## Whole turns -/

/-- What a whole pass ensures of the entry and the candidate. -/
theorem ensures_step_backed {scheduler : Scheduler} {status : SchedulerStatus}
    (settings : Settings) (now : Instant) (before : Registry) :
    (step scheduler settings now).Ensures mayFail
      (fun action => Round.Upheld (Backed (roundOf scheduler settings now) status.candidate
        ((slotOf scheduler).held? before)) (some action))
      (fun _ => Round.Upheld (Backed (roundOf scheduler settings now) status.candidate
        ((slotOf scheduler).held? before)) none)
      status (.opened before) := by
  have idle : ¬ (slotOf scheduler).TakesUp (Ledger.opened before).calls := by
    simp [Slot.TakesUp]
  have start : Backed (roundOf scheduler settings now) status.candidate
      ((slotOf scheduler).held? before) .goesOn status (.opened before) := {
    idle := fun _ => idle
    kept := fun _ _ => rfl
    cleared := fun unset set => absurd unset set
    filled := fun _ started => started.elim id fun takes => absurd takes idle
    ahead := fun _ set early => absurd early fun either =>
      either.elim set idle }
  refine ensures_step_of_upholds upholds_backed (fun final spares _ => ?_) start
  exact start.of_spares spares rfl fun goesOn => by cases goesOn

/-- After a turn an entry is orphaned exactly when the slot is filled though the stored status
has no candidate, if this was so before. -/
theorem Backed.orphaned_iff {round : Round} {candidate candidate' : Option Candidate}
    {entry : Option String} {ending : Ending} {status : SchedulerStatus}
    {middle final : Ledger} {orphaned : Prop}
    (backed : Backed round candidate entry ending status middle)
    (spares : round.slot.Spares SettlingCall middle final)
    (vacant : entry = none → ¬ round.slot.TakesUp final.calls →
      round.slot.held? final.registry = none)
    (stored : candidate' = status.candidate ∨ candidate' = candidate)
    (earlier : orphaned ↔ candidate = none ∧ entry ≠ none) :
    candidate' = none ∧ (round.slot.TakesUp final.calls ∨ orphaned) ↔
      candidate' = none ∧ round.slot.held? final.registry ≠ none := by
  refine and_congr_right fun unset => ?_
  rw [earlier]
  by_cases started : candidate = none
  · simp only [started, true_and]
    constructor
    · intro cause
      rw [spares.entry]
      refine backed.filled started ?_
      rwa [spares.takesUp_iff, or_comm] at cause
    · intro filled
      by_contra neither
      obtain ⟨idle, empty⟩ := not_or.1 neither
      exact filled (vacant (not_not.1 empty) idle)
  · have lastUnset : status.candidate = none := by
      rcases stored with last | old
      · exact last.symm.trans unset
      · exact absurd (old.symm.trans unset) started
    have idle : ¬ round.slot.TakesUp final.calls := by
      rw [spares.takesUp_iff]
      exact backed.idle lastUnset
    have cleared : round.slot.held? final.registry = none := by
      rw [spares.entry]
      exact backed.cleared lastUnset started
    simp [idle, cleared, started]

/-- Between turns an entry is orphaned exactly when the slot is filled though the stored
status has no candidate. -/
def OrphansKnown (space name : String) (slot : Slot) (start : Registry) (turns : List Turn)
    (status : SchedulerStatus) (entry : Option String) : Prop :=
  slot.Orphaned space name start turns ↔ status.candidate = none ∧ entry ≠ none

theorem Turn.exists_orphansKnown (runs : turn.Runs mayFail)
    (stored : turn.before.find? .scheduler space name = some turn.scheduler)
    (continues : Continues first turn.scheduler)
    (known : OrphansKnown space name (slotOf first) start turns
      (turn.scheduler.status.getD .initial) ((slotOf first).held? turn.before)) :
    ∃ latest, turn.final.registry.find? .scheduler space name = some latest ∧
      Continues first latest ∧
      OrphansKnown space name (slotOf first) start (turn :: turns)
        (latest.status.getD .initial) ((slotOf first).held? turn.final.registry) ∧
      (turn.result = .ok .awaitChange → (latest.status.getD .initial).candidate = none ∨
        (slotOf first).held? turn.final.registry = none) := by
  obtain rfl : turn.scheduler.name = name := (Registry.isPlaced_of_find? stored).shownName_eq
  obtain ⟨action?, status, middle, ⟨⟨⟨ending, backed⟩, rests⟩, settled⟩, acts⟩ :=
    turn.exists_comesOut _ runs stored (ensures_step_backed turn.settings turn.now turn.before)
  obtain ⟨latest, found, continuesLatest, outcome⟩ := settled.exists_latest stored continues
  have sameSlot := continues.slot_eq
  rw [← sameSlot] at known ⊢
  refine ⟨latest, found, continuesLatest, ?_, fun result => ?_⟩
  · have vacant : (slotOf turn.scheduler).held? turn.before = none →
        ¬ (slotOf turn.scheduler).TakesUp turn.final.calls →
          (slotOf turn.scheduler).held? turn.final.registry = none :=
      Slot.held?_eq_none_of_chain (Program.Runs.chain runs)
    have candidates : (latest.status.getD .initial).candidate = status.candidate ∨
        (latest.status.getD .initial).candidate =
          (turn.scheduler.status.getD .initial).candidate := by
      rcases outcome with ⟨akin, _⟩ | ⟨rfl, _⟩
      · exact Or.inl akin.candidate
      · exact Or.inr rfl
    have left : turn.candidate? space turn.scheduler.name =
        (latest.status.getD .initial).candidate := by
      simp [Turn.candidate?, found]
    unfold OrphansKnown Slot.Orphaned
    rw [left]
    exact backed.orphaned_iff settled.spares vacant candidates known
  · obtain ⟨_, unset⟩ := rests (acts _ result)
    rcases outcome with ⟨akin, _⟩ | ⟨rfl, _⟩
    · exact Or.inl (akin.candidate.trans unset)
    · by_cases started : (turn.scheduler.status.getD .initial).candidate = none
      · exact Or.inl started
      · right
        rw [settled.spares.entry]
        exact backed.cleared unset started

theorem Interleaves.orphansKnown
    (interleaves : Interleaves mayFail space name (slotOf first) start turns before)
    (begun : start.find? .scheduler space name = some first)
    (fresh : (first.status.getD .initial).candidate = none) :
    Stays space name first (OrphansKnown space name (slotOf first) start turns) before := by
  refine interleaves.stays (OrphansKnown space name (slotOf first) start) begun ?_ ?_
  · simp [OrphansKnown, Slot.Orphaned, fresh]
  · intro turn turns earlier stored runs continues known
    obtain ⟨latest, found, continuesLatest, knownLatest, _⟩ :=
      Turn.exists_orphansKnown runs stored continues known
    exact ⟨latest, found, continuesLatest, knownLatest⟩

/-- A scheduler that comes to rest has handed its pod back exactly when its entry is not
orphaned. -/
theorem rests_vacant_iff (begun : start.find? .scheduler space name = some first)
    (fresh : (first.status.getD .initial).candidate = none)
    (interleaves : Interleaves mayFail space name (slotOf first) start turns turn.before)
    (stored : turn.before.find? .scheduler space name = some turn.scheduler)
    (runs : turn.Runs mayFail) (rests : turn.result = .ok .awaitChange) :
    (slotOf first).held? turn.final.registry = none ↔
      ¬ (slotOf first).Orphaned space name start (turn :: turns) := by
  obtain ⟨scheduler, found, continues, known⟩ := interleaves.orphansKnown begun fresh
  obtain rfl := Option.some.inj (stored.symm.trans found)
  obtain ⟨latest, _, _, knownLatest, unset⟩ :=
    Turn.exists_orphansKnown runs stored continues known
  unfold OrphansKnown at knownLatest
  rw [knownLatest]
  rcases unset rests with without | vacant
  · simp [without]
  · simp [vacant]

/-! ## A status that is lost -/

/-- However the turns are interleaved, a scheduler that comes to rest has handed its pod
back. -/
def HandsBack (mayFail : Request → Prop) (space name : String) (start : Registry)
    (first : Scheduler) : Prop :=
  ∀ (turns : List Turn) (turn : Turn),
    Interleaves mayFail space name (slotOf first) start turns turn.before →
      turn.before.find? .scheduler space name = some turn.scheduler → turn.Runs mayFail →
        turn.result = .ok .awaitChange → (slotOf first).held? turn.final.registry = none

section Example

/-- The status of the turn is lost in which the pod is taken down. -/
def lostTurn : Turn :=
  turnAt "hourly" (.ofSeconds 3600) (fun request => decide (MayLoseStatus request)) sampleCluster

/-- The turn of the scheduler once it is suspended. -/
def restingTurn : Turn :=
  turnAt "hourly" (.ofSeconds 3660) (fun _ => false) (suspended true lostTurn.final.registry)

theorem interleaves_restingTurn :
    Interleaves MayLoseStatus "default" "hourly" (slotOf hourly) sampleCluster [lostTurn]
      restingTurn.before :=
  (Interleaves.turnAt .start find?_sampleCluster (fun _ => of_decide_eq_true) _).suspended
    find?_sampleCluster true

theorem find?_restingTurn :
    restingTurn.before.find? .scheduler "default" "hourly" = some restingTurn.scheduler :=
  interleaves_restingTurn.find?_turnAt find?_sampleCluster _ _

theorem runs_restingTurn : restingTurn.Runs MayLoseStatus :=
  runs_turnAt (fun _ fails => nomatch fails) _ _ _

theorem result_restingTurn : restingTurn.result = .ok .awaitChange :=
  Turn.result_eq_of_comesToRest (by decide +kernel)

/-- The scheduler comes to rest, and the condition for its slot to be empty is as stated. -/
theorem rests_vacant_iff_of_lostTurn :
    restingTurn.result = .ok .awaitChange ∧
      ((slotOf hourly).held? restingTurn.final.registry = none ↔
        ¬ (slotOf hourly).Orphaned "default" "hourly" sampleCluster [restingTurn, lostTurn]) :=
  ⟨result_restingTurn, rests_vacant_iff find?_sampleCluster rfl interleaves_restingTurn
    find?_restingTurn runs_restingTurn result_restingTurn⟩

/-- Once its status is lost, a suspended scheduler comes to rest and leaves the pod down. -/
theorem not_handsBack_of_lostTurn :
    ¬ HandsBack MayLoseStatus "default" "hourly" sampleCluster hourly := by
  intro handsBack
  have vacant := handsBack [lostTurn] restingTurn interleaves_restingTurn find?_restingTurn
    runs_restingTurn result_restingTurn
  have filled : (slotOf hourly).held? restingTurn.final.registry ≠ none := by decide +kernel
  exact filled vacant

end Example

end NodeFleet.Snapshot
