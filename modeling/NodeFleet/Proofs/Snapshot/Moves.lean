import NodeFleet.Proofs.Snapshot.Phases

/-!
# The moves of a pass

A pass of a scheduler makes one move after another, and every move is of one of a few
forms.  Each form says what becomes of the status, of the entry in the slot of the scheduler
and of the calls made so far.
-/

namespace NodeFleet.Snapshot

open Calendar Cron Resource Store

variable {mayFail : Request → Prop}

/-- The calls that are for one given pod. -/
def TouchesPod : Request → Prop
  | .get .pod _ _ | .delete .pod _ _ => True
  | _ => False

/-- The quiet calls that are not for one given pod. -/
def AsideCall (request : Request) : Prop := QuietCall request ∧ ¬ TouchesPod request

/-- Some of the calls are for one given pod. -/
def TouchedPod (calls : List Call) : Prop := ∃ call ∈ calls, TouchesPod call.request

@[simp] theorem not_touchedPod_nil : ¬ TouchedPod [] := by simp [TouchedPod]

section Calls

variable {slot : Slot} {allowed : Request → Prop} {ledger middle final : Ledger}

/-- A ledger goes on with allowed calls that leave the entry of a slot alone. -/
structure Slot.Spares (slot : Slot) (allowed : Request → Prop) (ledger final : Ledger) :
    Prop where
  entry : slot.held? final.registry = slot.held? ledger.registry
  calls : ∃ added, final.calls = ledger.calls ++ added ∧ ∀ call ∈ added,
    allowed call.request ∧ slot.held? call.after = slot.held? call.before

/-- A ledger goes on with allowed calls that register no pod in a slot, which is empty in the
end. -/
structure Slot.Clears (slot : Slot) (allowed : Request → Prop) (ledger final : Ledger) :
    Prop where
  vacant : slot.held? final.registry = none
  calls : ∃ added, final.calls = ledger.calls ++ added ∧
    (∀ call ∈ added, allowed call.request) ∧ ¬ slot.TakesUp added

theorem Slot.Spares.refl (slot : Slot) (allowed : Request → Prop) (ledger : Ledger) :
    slot.Spares allowed ledger ledger :=
  ⟨rfl, [], by simp, by simp⟩

theorem Slot.Spares.trans (first : slot.Spares allowed ledger middle)
    (second : slot.Spares allowed middle final) : slot.Spares allowed ledger final := by
  obtain ⟨sameEntry, added, made, idle⟩ := first
  obtain ⟨sameLater, addedLater, madeLater, idleLater⟩ := second
  refine ⟨sameLater.trans sameEntry, added ++ addedLater, by simp [madeLater, made], ?_⟩
  intro call member
  exact (List.mem_append.1 member).elim (idle call) (idleLater call)

theorem Slot.Spares.mono {allowed' : Request → Prop} (spares : slot.Spares allowed ledger final)
    (permits : ∀ request, allowed request → allowed' request) :
    slot.Spares allowed' ledger final := by
  obtain ⟨entry, added, made, idle⟩ := spares
  refine ⟨entry, added, made, fun call member => ?_⟩
  exact (idle call member).imp_left (permits call.request)

theorem Slot.Spares.takesUp_iff (spares : slot.Spares allowed ledger final) :
    slot.TakesUp final.calls ↔ slot.TakesUp ledger.calls := by
  obtain ⟨_, added, made, idle⟩ := spares
  rw [made, Slot.takesUp_append]
  exact or_iff_left (Slot.not_takesUp_of_still fun call member => (idle call member).2)

theorem Slot.Spares.adds (spares : slot.Spares allowed ledger final) :
    ledger.Adds allowed final := by
  obtain ⟨_, added, made, idle⟩ := spares
  exact ⟨added, made, fun call member => (idle call member).1⟩

theorem Slot.Spares.clears (spares : slot.Spares allowed ledger final)
    (vacant : slot.held? ledger.registry = none) : slot.Clears allowed ledger final := by
  obtain ⟨entry, added, made, idle⟩ := spares
  exact ⟨entry.trans vacant, added, made, fun call member => (idle call member).1,
    Slot.not_takesUp_of_still fun call member => (idle call member).2⟩

theorem Slot.Clears.then_spares (clears : slot.Clears allowed ledger middle)
    (spares : slot.Spares allowed middle final) : slot.Clears allowed ledger final := by
  obtain ⟨vacant, added, made, permitted, idle⟩ := clears
  obtain ⟨vacantLater, addedLater, madeLater, permittedLater, idleLater⟩ := spares.clears vacant
  refine ⟨vacantLater, added ++ addedLater, by simp [madeLater, made], ?_, ?_⟩
  · intro call member
    exact (List.mem_append.1 member).elim (permitted call) (permittedLater call)
  · rw [Slot.takesUp_append]
    exact fun takes => takes.elim idle idleLater

theorem Slot.Clears.mono {allowed' : Request → Prop} (clears : slot.Clears allowed ledger final)
    (permits : ∀ request, allowed request → allowed' request) :
    slot.Clears allowed' ledger final := by
  obtain ⟨vacant, added, made, permitted, idle⟩ := clears
  exact ⟨vacant, added, made, fun call member => permits _ (permitted call member), idle⟩

theorem Slot.Clears.takesUp_iff (clears : slot.Clears allowed ledger final) :
    slot.TakesUp final.calls ↔ slot.TakesUp ledger.calls := by
  obtain ⟨_, added, made, _, idle⟩ := clears
  rw [made, Slot.takesUp_append]
  exact or_iff_left idle

theorem Slot.Clears.adds (clears : slot.Clears allowed ledger final) :
    ledger.Adds allowed final := by
  obtain ⟨_, added, made, permitted, _⟩ := clears
  exact ⟨added, made, permitted⟩

theorem touchedPod_iff_of_adds (adds : ledger.Adds AsideCall final) :
    TouchedPod final.calls ↔ TouchedPod ledger.calls := by
  obtain ⟨added, made, aside⟩ := adds
  simp only [TouchedPod, made, List.mem_append, or_and_right, exists_or]
  refine or_iff_left ?_
  rintro ⟨call, member, touches⟩
  exact (aside call member).2 touches

theorem spares_of_reads (slot : Slot) (reads : ledger.Reads allowed final) :
    slot.Spares allowed ledger final := by
  obtain ⟨same, added, made, idle⟩ := reads
  refine ⟨by rw [same], added, made, fun call member => ?_⟩
  obtain ⟨permitted, sameBefore, sameAfter⟩ := idle call member
  exact ⟨permitted, by rw [sameBefore, sameAfter]⟩

theorem spares_add {request : Request} (permitted : allowed request) (answer : Answer request)
    {after : Registry} (same : slot.held? after = slot.held? ledger.registry) :
    slot.Spares allowed ledger (ledger.add request answer after) := by
  refine ⟨same, [⟨request, answer, ledger.registry, after⟩], rfl, fun call member => ?_⟩
  obtain rfl := List.mem_singleton.1 member
  exact ⟨permitted, same⟩

theorem spares_of_fruitless {request : Request} {error : Option StoreError}
    (nothing : ledger.Fruitless mayFail request error final) (permitted : allowed request) :
    slot.Spares allowed ledger final :=
  spares_of_reads slot (nothing.reads permitted (.refl allowed ledger))

/-- A pass that writes no full node leaves the entries of slots alone. -/
theorem ensures_spares_of_makes {σ α : Type} {holds : σ → Prop} {pass : Pass σ α} {state : σ}
    (makes : pass.Makes allowed holds) (start : holds state) (slot : Slot)
    (noNode : ∀ request, allowed request → ∀ space name,
      request.place? ≠ some (.fullNode, space, name)) :
    pass.Ensures mayFail (fun _ state' final => holds state' ∧ slot.Spares allowed ledger final)
      (fun _ state' final => holds state' ∧ slot.Spares allowed ledger final) state ledger := by
  refine Program.Ensures.mono ((makes state start).ensures (slot.Spares allowed ledger) ?_
    (.refl slot allowed ledger)) fun outcome final holdsFinal => ?_
  · intro earlier request answer after permitted served spares
    refine spares.trans (spares_add permitted answer ?_)
    unfold Slot.held?
    rw [served.find?_eq (noNode request permitted slot.space slot.nodeName)]
  · obtain ⟨result, state'⟩ := outcome
    cases result with
    | ok value => exact holdsFinal
    | error halt => exact ⟨holdsFinal.1.2, holdsFinal.2⟩

end Calls

/-! ## The forms of moves -/

/-- How a move ends: the pass goes on, or it is over and waits, or it halts. -/
inductive Ending
  | goesOn
  | waits
  | halts
  deriving DecidableEq

def Next.ending : Next → Ending
  | .proceed => .goesOn
  | .wait _ => .waits

/-- When the last snapshot of a status was started. -/
def startedAt? (status : SchedulerStatus) : Option Timestamp :=
  status.lastSnapshot.map (·.startedAt)

/-- Two statuses have the same candidate, and last snapshots that were started at the same
time. -/
structure Akin (before after : SchedulerStatus) : Prop where
  candidate : after.candidate = before.candidate
  startedAt : startedAt? after = startedAt? before

theorem Akin.refl (status : SchedulerStatus) : Akin status status := ⟨rfl, rfl⟩

theorem reference_eq (scheduler : Scheduler) (status : SchedulerStatus) (now : Instant) :
    reference scheduler status now =
      (((startedAt? status).or scheduler.metadata.creationTimestamp).bind
        Timestamp.instant?).getD now := by
  unfold reference startedAt?
  cases status.lastSnapshot <;> rfl

theorem reference_eq_of_akin (scheduler : Scheduler) (now : Instant)
    {before after : SchedulerStatus} (akin : Akin before after) :
    reference scheduler after now = reference scheduler before now := by
  rw [reference_eq, reference_eq, akin.startedAt]

/-- The phases of a pass from the choice of a candidate to the creation of its snapshot. -/
def isTakingDown : SnapshotPhase → Bool
  | .deletingPod | .waitingForPodDeletion | .creatingSnapshot => true
  | _ => false

namespace Round

/-- A time of the schedule has come since the last snapshot was started. -/
def IsDue (round : Round) (status : SchedulerStatus) : Prop :=
  ∃ schedule, Schedule.parse round.scheduler.spec.schedule = .ok schedule ∧
    schedule.untilNext round.scheduler.spec.schedule
      (reference round.scheduler status round.now) round.now = .ok .zero

/-- No snapshot of a volume that is not ready carries the labels of the scheduler. -/
def NoneInFlight (round : Round) (claimName : String) (registry : Registry) : Prop :=
  ∀ snapshot ∈ registry.selected .volumeSnapshot round.space round.scheduler.snapshotSelector,
    VolumeSnapshot.isReady snapshot = false →
      (VolumeSnapshot.spec snapshot).source.claimName ≠ some claimName

/-- The phases to which a pass shifts when it has but looked around. -/
inductive Shifts (round : Round) (status : SchedulerStatus) : Ending → SnapshotPhase → Prop
  | same (ending : Ending) : Shifts round status ending status.phase
  | due (phase : status.phase = .waitingForNext)
      (timely : round.settings.snapshotPoll = .zero ∨ round.IsDue status) :
      Shifts round status .goesOn .findingCandidate
  | unchosen (phase : status.phase = .deletingPod) (unset : status.candidate = none) :
      Shifts round status .goesOn .findingCandidate
  | seen (phase : status.phase = .waitingForSnapshotCreation) :
      Shifts round status .goesOn .restoringPod
  | vacant (phase : status.phase = .restoringPod) (unset : status.candidate = none) :
      Shifts round status .goesOn .waitingForNext
  | woken (phase : status.phase = .suspended ∨ status.phase = .missingDefinition) :
      Shifts round status .goesOn .waitingForNext
  | asleep (suspended : round.scheduler.isSuspended = true) (unset : status.candidate = none) :
      Shifts round status .waits .suspended

/-- A shift of a pass that takes a pod down is one within a phase. -/
theorem Shifts.isTakingDown_eq {round : Round} {status : SchedulerStatus} {ending : Ending}
    {phase : SnapshotPhase} (shifts : round.Shifts status ending phase)
    (goesOn : ending = .goesOn) (set : status.candidate ≠ none)
    (early : isTakingDown status.phase = true) : isTakingDown phase = true := by
  cases shifts with
  | same => exact early
  | due there => simp [there, isTakingDown] at early
  | unchosen _ unset => exact absurd unset set
  | seen there => simp [there, isTakingDown] at early
  | vacant _ unset => exact absurd unset set
  | woken there => rcases there with there | there <;> simp [there, isTakingDown] at early
  | asleep => cases goesOn

/-- A call asks for a snapshot of the volume of a candidate, while none is in flight.  All
other calls that are made look around. -/
structure Creates (round : Round) (candidate : Candidate) (call : Call) (ledger final : Ledger) :
    Prop where
  request_eq :
    call.request = .create .volumeSnapshot round.space (round.newSnapshot candidate)
  noneInFlight : round.NoneInFlight candidate.claimName call.before
  calls : ∃ earlier later, final.calls = ledger.calls ++ (earlier ++ call :: later) ∧
    ∀ other ∈ earlier ++ later, AsideCall other.request
  spares : round.slot.Spares (fun _ => True) ledger final

/-- The moves of a pass from a status and a ledger. -/
inductive Moves (mayFail : Request → Prop) (round : Round) (status : SchedulerStatus)
    (ledger : Ledger) : Ending → SchedulerStatus → Ledger → Prop
  | looks {ending : Ending} {status' : SchedulerStatus} {final : Ledger}
      (spares : round.slot.Spares AsideCall ledger final) (akin : Akin status status')
      (shifts : round.Shifts status ending status'.phase) :
      Moves mayFail round status ledger ending status' final
  | chooses {candidate : Candidate} {status' : SchedulerStatus} {final : Ledger}
      (awake : round.scheduler.isSuspended = false) (phase : status.phase = .findingCandidate)
      (spares : round.slot.Spares AsideCall ledger final)
      (chosen : status'.candidate = some candidate)
      (startedAt : startedAt? status' = startedAt? status)
      (phase' : status'.phase = .deletingPod) :
      Moves mayFail round status ledger .goesOn status' final
  | takesDown {candidate : Candidate} {status' : SchedulerStatus} {final : Ledger}
      (awake : round.scheduler.isSuspended = false) (phase : status.phase = .deletingPod)
      (chosen : status.candidate = some candidate) (adds : ledger.Adds QuietCall final)
      (held : round.slot.held? final.registry = some candidate.podName)
      (touched : TouchedPod final.calls) (akin : Akin status status')
      (phase' : status'.phase = .waitingForPodDeletion) :
      Moves mayFail round status ledger .goesOn status' final
  | failsToTakeDown {candidate : Candidate} {final : Ledger}
      (phase : status.phase = .deletingPod) (chosen : status.candidate = some candidate)
      (adds : ledger.Adds QuietCall final)
      (held : round.slot.held? final.registry = some candidate.podName) :
      Moves mayFail round status ledger .halts status final
  | seesGone {candidate : Candidate} {status' : SchedulerStatus} {final : Ledger}
      (awake : round.scheduler.isSuspended = false)
      (phase : status.phase = .waitingForPodDeletion)
      (chosen : status.candidate = some candidate)
      (spares : round.slot.Spares QuietCall ledger final) (akin : Akin status status')
      (phase' : status'.phase = .creatingSnapshot) :
      Moves mayFail round status ledger .goesOn status' final
  | seesPod {ending : Ending} {status' : SchedulerStatus} {final : Ledger}
      (phase : status.phase = .waitingForPodDeletion)
      (spares : round.slot.Spares QuietCall ledger final) (akin : Akin status status')
      (phase' : status'.phase = status.phase) (ended : ending ≠ .goesOn) :
      Moves mayFail round status ledger ending status' final
  | takesOver {candidate : Candidate} {status' : SchedulerStatus} {final : Ledger}
      (phase : status.phase = .creatingSnapshot) (chosen : status.candidate = some candidate)
      (spares : round.slot.Spares AsideCall ledger final)
      (same : status'.candidate = status.candidate)
      (phase' : status'.phase = .waitingForSnapshotCreation) :
      Moves mayFail round status ledger .waits status' final
  | creates {candidate : Candidate} {call : Call} {status' : SchedulerStatus} {final : Ledger}
      (awake : round.scheduler.isSuspended = false)
      (phase : status.phase = .creatingSnapshot) (chosen : status.candidate = some candidate)
      (created : round.Creates candidate call ledger final) (succeeds : call.Succeeds)
      (same : status'.candidate = status.candidate)
      (startedAt : startedAt? status' = Timestamp.ofInstant? round.now)
      (phase' : status'.phase = .waitingForSnapshotCreation) :
      Moves mayFail round status ledger .waits status' final
  | failsToCreate {candidate : Candidate} {call : Call} {final : Ledger}
      (awake : round.scheduler.isSuspended = false)
      (phase : status.phase = .creatingSnapshot) (chosen : status.candidate = some candidate)
      (created : round.Creates candidate call ledger final)
      (cause : call.Succeeds → Timestamp.ofInstant? round.now = none ∨
        ∃ other ∈ final.calls, other.answer = none) :
      Moves mayFail round status ledger .halts status final
  | losesSight {candidate : Candidate} {error : Option StoreError} {middle final : Ledger}
      (due : status.phase = .restoringPod ∨ round.scheduler.isSuspended = true)
      (chosen : status.candidate = some candidate)
      (clears : round.slot.Clears AsideCall ledger middle)
      (nothing : middle.Fruitless mayFail (.get .pod round.space candidate.podName) error final) :
      Moves mayFail round status ledger .halts status final
  | awaitsPod {candidate : Candidate} {status' : SchedulerStatus} {final : Ledger}
      (due : status.phase = .restoringPod ∨ round.scheduler.isSuspended = true)
      (chosen : status.candidate = some candidate)
      (clears : round.slot.Clears QuietCall ledger final) (touched : TouchedPod final.calls)
      (akin : Akin status status') (phase' : status'.phase = .restoringPod) :
      Moves mayFail round status ledger .waits status' final
  | restores {candidate : Candidate} {ending : Ending} {status' : SchedulerStatus}
      {final : Ledger}
      (due : status.phase = .restoringPod ∨ round.scheduler.isSuspended = true)
      (chosen : status.candidate = some candidate)
      (clears : round.slot.Clears QuietCall ledger final) (touched : TouchedPod final.calls)
      (restored : status'.candidate = none) (startedAt : startedAt? status' = startedAt? status)
      (phase' : status'.phase = .waitingForNext) :
      Moves mayFail round status ledger ending status' final

/-- A move adds calls to those made before it. -/
theorem Moves.adds {round : Round} {status status' : SchedulerStatus} {ledger final : Ledger}
    {ending : Ending} (moves : round.Moves mayFail status ledger ending status' final) :
    ledger.Adds (fun _ => True) final := by
  have weaken : ∀ {allowed : Request → Prop} {middle : Ledger}, ledger.Adds allowed middle →
      ledger.Adds (fun _ => True) middle := fun adds => adds.mono fun _ _ => trivial
  cases moves with
  | looks spares => exact weaken spares.adds
  | chooses _ _ spares => exact weaken spares.adds
  | takesDown _ _ _ adds => exact weaken adds
  | failsToTakeDown _ _ adds => exact weaken adds
  | seesGone _ _ _ spares => exact weaken spares.adds
  | seesPod _ spares => exact weaken spares.adds
  | takesOver _ _ spares => exact weaken spares.adds
  | creates _ _ _ created => exact created.spares.adds
  | failsToCreate _ _ _ created => exact created.spares.adds
  | losesSight _ _ clears nothing =>
      have looksUp : round.slot.Spares (fun _ => True) _ final :=
        spares_of_fruitless nothing trivial
      exact (weaken clears.adds).trans looksUp.adds
  | awaitsPod _ _ clears => exact weaken clears.adds
  | restores _ _ clears => exact weaken clears.adds

/-- A move creates no snapshot, or it asks for the one of the candidate and ends the pass. -/
theorem Moves.creation_cases {round : Round} {status status' : SchedulerStatus}
    {ledger final : Ledger} {ending : Ending}
    (moves : round.Moves mayFail status ledger ending status' final) :
    ledger.Adds QuietCall final ∨ ending ≠ .goesOn ∧
      round.scheduler.isSuspended = false ∧ status.phase = .creatingSnapshot ∧
        ∃ candidate call, status.candidate = some candidate ∧
          round.Creates candidate call ledger final := by
  have aside : ∀ {middle : Ledger}, ledger.Adds AsideCall middle → ledger.Adds QuietCall middle :=
    fun adds => adds.mono fun _ aside => aside.1
  cases moves with
  | looks spares => exact Or.inl (aside spares.adds)
  | chooses _ _ spares => exact Or.inl (aside spares.adds)
  | takesDown _ _ _ adds => exact Or.inl adds
  | failsToTakeDown _ _ adds => exact Or.inl adds
  | seesGone _ _ _ spares => exact Or.inl spares.adds
  | seesPod _ spares => exact Or.inl spares.adds
  | takesOver _ _ spares => exact Or.inl (aside spares.adds)
  | creates awake phase chosen created =>
      exact Or.inr ⟨(fun same => nomatch same), awake, phase, _, _, chosen, created⟩
  | failsToCreate awake phase chosen created =>
      exact Or.inr ⟨(fun same => nomatch same), awake, phase, _, _, chosen, created⟩
  | losesSight _ _ clears nothing =>
      have looksUp : round.slot.Spares QuietCall _ final := spares_of_fruitless nothing trivial
      exact Or.inl ((aside clears.adds).trans looksUp.adds)
  | awaitsPod _ _ clears => exact Or.inl clears.adds
  | restores _ _ clears => exact Or.inl clears.adds

end Round

end NodeFleet.Snapshot
