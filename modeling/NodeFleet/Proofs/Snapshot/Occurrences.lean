import Mathlib.Data.List.Forall2
import NodeFleet.Proofs.Calendar.Rfc3339
import NodeFleet.Proofs.Cron.Schedule
import NodeFleet.Proofs.Snapshot.Turns

/-!
# One snapshot for each occurrence

A scheduler starts to take a snapshot when an occurrence of its schedule has come since the
last one was started, or since it was created itself.  As the start is recorded to the second
and occurrences are whole seconds, no occurrence is ever met again.
-/

namespace NodeFleet.Snapshot

open Calendar Cron Resource Store

variable {mayFail : Request → Prop}

/-! ## What is due -/

/-- The instant since which a scheduler follows its schedule, if it has one. -/
def since? (scheduler : Scheduler) (status : SchedulerStatus) : Option Instant :=
  ((startedAt? status).or scheduler.metadata.creationTimestamp).bind Timestamp.instant?

theorem since?_eq_of_akin {scheduler : Scheduler} {before after : SchedulerStatus}
    (startedAt : startedAt? after = startedAt? before) :
    since? scheduler after = since? scheduler before := by
  rw [since?, startedAt, since?]

/-- A schedule has occurred since an instant. -/
def HasOccurred (schedule : Schedule) (since : Option Instant) (now : Instant) : Prop :=
  ∃ begun time, since = some begun ∧ schedule.Occurs time ∧ begun < time ∧ time ≤ now

theorem HasOccurred.mono {schedule : Schedule} {since : Option Instant} {now later : Instant}
    (occurred : HasOccurred schedule since now) (after : now ≤ later) :
    HasOccurred schedule since later := by
  obtain ⟨begun, time, known, occurs, past, come⟩ := occurred
  exact ⟨begun, time, known, occurs, past, Instant.le_trans come after⟩

/-- A scheduler that is due follows a schedule that has occurred. -/
theorem Round.IsDue.hasOccurred {round : Round} {status : SchedulerStatus} {schedule : Schedule}
    (due : round.IsDue status)
    (parsed : Schedule.parse round.scheduler.spec.schedule = .ok schedule) :
    HasOccurred schedule (since? round.scheduler status) round.now := by
  obtain ⟨other, parsedOther, due⟩ := due
  obtain rfl := Except.ok.inj (parsedOther.symm.trans parsed)
  obtain ⟨time, occurs, after, come⟩ := Schedule.exists_occurs_of_untilNext parsed due
  rw [reference_eq] at after
  change (since? round.scheduler status).getD round.now < time at after
  cases since : since? round.scheduler status with
  | none =>
      rw [since] at after
      exact absurd (Instant.lt_of_lt_of_le after come) (Int.lt_irrefl _)
  | some begun =>
      rw [since] at after
      exact ⟨begun, time, rfl, occurs, after, come⟩

/-- A scheduler has begun with no snapshot since an instant, or one is due since then. -/
def Heeds (scheduler : Scheduler) (schedule : Schedule) (since : Option Instant) (now : Instant)
    (status : SchedulerStatus) : Prop :=
  HasOccurred schedule since now ∨ status.phase ≠ .findingCandidate ∧
    isTakingDown status.phase = false ∧ since? scheduler status = since

/-- The calls that have created snapshots. -/
def creations (calls : List Call) : List Call :=
  calls.filter fun call => CreatingCall call.request ∧ call.Succeeds

theorem creations_append (calls later : List Call) :
    creations (calls ++ later) = creations calls ++ creations later :=
  List.filter_append ..

theorem creations_eq_nil {calls : List Call}
    (none : ∀ call ∈ calls, ¬ CreatingCall call.request) : creations calls = [] := by
  refine List.filter_eq_nil_iff.2 fun call member => ?_
  simp [none call member]

theorem creations_eq_of_adds {allowed : Request → Prop} {ledger final : Ledger}
    (adds : ledger.Adds allowed final)
    (none : ∀ request, allowed request → ¬ CreatingCall request) :
    creations final.calls = creations ledger.calls := by
  obtain ⟨added, made, permitted⟩ := adds
  rw [made, creations_append,
    creations_eq_nil fun call member => none _ (permitted call member), List.append_nil]

/-- How far a pass has come: it has created no snapshot, or one that was due, with which it
is over, and which is recorded if all calls were answered. -/
inductive Timely (round : Round) (schedule : Schedule) (since : Option Instant) :
    Ending → SchedulerStatus → Ledger → Prop
  | idle {ending : Ending} {status : SchedulerStatus} {ledger : Ledger}
      (created : creations ledger.calls = [])
      (heeds : Heeds round.scheduler schedule since round.now status) :
      Timely round schedule since ending status ledger
  | creates {ending : Ending} {status : SchedulerStatus} {ledger : Ledger} {call : Call}
      (ended : ending ≠ .goesOn) (created : creations ledger.calls = [call])
      (occurred : HasOccurred schedule since round.now)
      (recorded : (∀ call ∈ ledger.calls, call.answer ≠ none) →
        Heeds round.scheduler schedule (some (.ofSeconds round.now.seconds)) round.now status) :
      Timely round schedule since ending status ledger

section Moves

variable {round : Round} {schedule : Schedule} {since : Option Instant}
  {status status' : SchedulerStatus} {ledger final : Ledger} {ending : Ending}

/-- What follows a snapshot's creation in a pass is over before the last timestamp, so that
the start can be recorded. -/
theorem HasOccurred.ofInstant?_eq {now : Instant} {expression : String}
    (occurred : HasOccurred schedule since now)
    (parsed : Schedule.parse expression = .ok schedule)
    (representable : now.seconds ≤ Timestamp.bounds.high) :
    0 ≤ now.seconds ∧ Timestamp.ofInstant? now = some ⟨now.seconds⟩ := by
  obtain ⟨_, time, _, occurs, _, come⟩ := occurred
  have low : 0 ≤ now.seconds := by
    have first := occurs.seconds_nonneg parsed
    have come : time.nanos ≤ now.nanos := come
    unfold Instant.seconds at *
    omega
  exact ⟨low, Timestamp.ofInstant?_eq low representable⟩

theorem Heeds.of_akin {scheduler : Scheduler} {now : Instant}
    (heeds : Heeds scheduler schedule since now status)
    (startedAt : startedAt? status' = startedAt? status)
    (late : HasOccurred schedule since now ∨
      status'.phase ≠ .findingCandidate ∧ isTakingDown status'.phase = false) :
    Heeds scheduler schedule since now status' := by
  rcases heeds with occurred | ⟨_, _, same⟩
  · exact Or.inl occurred
  · refine late.imp_right fun ⟨notFinding, early⟩ => ⟨notFinding, early, ?_⟩
    rw [since?_eq_of_akin startedAt, same]

theorem Heeds.hasOccurred {scheduler : Scheduler} {now : Instant}
    (heeds : Heeds scheduler schedule since now status)
    (early : status.phase = .findingCandidate ∨ isTakingDown status.phase = true) :
    HasOccurred schedule since now := by
  rcases heeds with occurred | ⟨notFinding, notEarly, _⟩
  · exact occurred
  · rcases early with finding | early
    · exact absurd finding notFinding
    · simp [notEarly] at early

/-- A shift to a phase that takes a snapshot is one of a scheduler that is due. -/
theorem Heeds.of_shifts (heeds : Heeds round.scheduler schedule since round.now status)
    (polls : round.settings.snapshotPoll ≠ .zero)
    (parsed : Schedule.parse round.scheduler.spec.schedule = .ok schedule)
    (akin : Akin status status') (shifts : round.Shifts status ending status'.phase) :
    Heeds round.scheduler schedule since round.now status' := by
  refine heeds.of_akin akin.startedAt ?_
  generalize status'.phase = phase at shifts
  cases shifts with
  | same => exact heeds.imp_right fun ⟨notFinding, early, _⟩ => ⟨notFinding, early⟩
  | due waiting timely =>
      refine Or.inl ?_
      rcases heeds with occurred | ⟨_, _, same⟩
      · exact occurred
      · rw [← same]
        exact (timely.resolve_left polls).hasOccurred parsed
  | unchosen deleting => exact Or.inl (heeds.hasOccurred (Or.inr (by rw [deleting]; rfl)))
  | seen => exact Or.inr ⟨by decide, rfl⟩
  | vacant => exact Or.inr ⟨by decide, rfl⟩
  | woken => exact Or.inr ⟨by decide, rfl⟩
  | asleep => exact Or.inr ⟨by decide, rfl⟩

/-- Where a call asks for a snapshot, it alone may have created one. -/
theorem Round.Creates.creations_eq {candidate : Candidate} {call : Call}
    (asked : round.Creates candidate call ledger final) (none : creations ledger.calls = []) :
    (call.Succeeds → creations final.calls = [call]) ∧
      (¬ call.Succeeds → creations final.calls = []) := by
  obtain ⟨earlier, later, made, aside⟩ := asked.calls
  have idle : ∀ calls : List Call, calls ⊆ earlier ++ later → creations calls = [] :=
    fun calls among => creations_eq_nil fun other member =>
      not_creatingCall (aside other (among member)).1
  have made : creations final.calls = creations [call] := by
    rw [made, List.append_cons, creations_append, creations_append, creations_append, none,
      idle earlier (by simp), idle later (by simp), List.nil_append, List.nil_append,
      List.append_nil]
  have creating : CreatingCall call.request := by
    rw [asked.request_eq]
    trivial
  rw [made]
  constructor
  · intro succeeds
    simp [creations, creating, succeeds]
  · intro fails
    simp [creations, fails]

/-- Every move keeps a pass timely. -/
theorem Timely.of_moves (polls : round.settings.snapshotPoll ≠ .zero)
    (parsed : Schedule.parse round.scheduler.spec.schedule = .ok schedule)
    (representable : round.now.seconds ≤ Timestamp.bounds.high)
    (timely : Timely round schedule since .goesOn status ledger)
    (moves : round.Moves mayFail status ledger ending status' final) :
    Timely round schedule since ending status' final := by
  cases timely with
  | creates ended => exact absurd rfl ended
  | idle created heeds =>
      have quiet : ledger.Adds QuietCall final → creations final.calls = [] := fun adds =>
        (creations_eq_of_adds adds fun _ => not_creatingCall).trans created
      have occurred : (status.phase = .findingCandidate ∨ isTakingDown status.phase = true) →
          HasOccurred schedule since round.now := heeds.hasOccurred
      cases moves with
      | looks spares akin shifts =>
          refine .idle (quiet (spares.adds.mono fun _ aside => aside.1)) ?_
          exact heeds.of_shifts polls parsed akin shifts
      | chooses _ phase spares =>
          exact .idle (quiet (spares.adds.mono fun _ aside => aside.1))
            (Or.inl (occurred (Or.inl phase)))
      | takesDown _ phase _ adds =>
          exact .idle (quiet adds) (Or.inl (occurred (Or.inr (by rw [phase]; rfl))))
      | failsToTakeDown _ _ adds => exact .idle (quiet adds) heeds
      | seesGone _ phase _ spares =>
          exact .idle (quiet spares.adds) (Or.inl (occurred (Or.inr (by rw [phase]; rfl))))
      | seesPod phase spares =>
          exact .idle (quiet spares.adds) (Or.inl (occurred (Or.inr (by rw [phase]; rfl))))
      | takesOver phase _ spares =>
          exact .idle (quiet (spares.adds.mono fun _ aside => aside.1))
            (Or.inl (occurred (Or.inr (by rw [phase]; rfl))))
      | creates _ phase _ asked succeeds _ startedAt phase' =>
          have come := occurred (Or.inr (by rw [phase]; rfl))
          obtain ⟨low, representation⟩ := come.ofInstant?_eq parsed representable
          refine .creates (fun same => nomatch same) ((asked.creations_eq created).1 succeeds)
            come fun _ => Or.inr ⟨by rw [phase']; decide, by rw [phase']; rfl, ?_⟩
          rw [since?, startedAt, representation, Option.some_or, Option.bind_some]
          exact Timestamp.instant?_eq low representable
      | @failsToCreate _ call _ _ phase _ asked cause =>
          have come := occurred (Or.inr (by rw [phase]; rfl))
          obtain ⟨_, representation⟩ := come.ofInstant?_eq parsed representable
          by_cases succeeds : call.Succeeds
          · refine .creates (fun same => nomatch same) ((asked.creations_eq created).1 succeeds)
              come fun answered => ?_
            rcases cause succeeds with unknown | ⟨call, member, unanswered⟩
            · exact absurd (representation.symm.trans unknown) (by simp)
            · exact absurd unanswered (answered call member)
          · exact .idle ((asked.creations_eq created).2 succeeds) (Or.inl come)
      | losesSight _ _ clears nothing =>
          have looksUp : round.slot.Spares QuietCall _ final := spares_of_fruitless nothing trivial
          have adds := clears.adds.mono fun _ aside => aside.1
          exact .idle (quiet (adds.trans looksUp.adds)) heeds
      | awaitsPod _ _ clears _ akin phase' =>
          refine .idle (quiet clears.adds) (heeds.of_akin akin.startedAt (Or.inr ?_))
          rw [phase']
          exact ⟨by decide, rfl⟩
      | restores _ _ clears _ _ startedAt phase' =>
          refine .idle (quiet clears.adds) (heeds.of_akin startedAt (Or.inr ?_))
          rw [phase']
          exact ⟨by decide, rfl⟩

end Moves

/-! ## Whole turns -/

section Turns

variable {space name : String} {first scheduler : Scheduler} {schedule : Schedule}
  {since : Option Instant} {turn : Turn} {turns : List Turn}

theorem Heeds.mono {status : SchedulerStatus} {now later : Instant}
    (heeds : Heeds scheduler schedule since now status) (after : now ≤ later) :
    Heeds scheduler schedule since later status :=
  heeds.imp_left fun occurred => occurred.mono after

/-- What a scheduler heeds is said by its creation, its phase and its last snapshot. -/
theorem Heeds.congr {other : Scheduler} {status status' : SchedulerStatus} {now : Instant}
    (heeds : Heeds scheduler schedule since now status)
    (sameCreation : other.metadata.creationTimestamp = scheduler.metadata.creationTimestamp)
    (akin : Akin status status') (samePhase : status'.phase = status.phase) :
    Heeds other schedule since now status' := by
  have same : since? other status' = since? scheduler status := by
    rw [since?, since?, akin.startedAt, sameCreation]
  unfold Heeds
  rw [same, samePhase]
  exact heeds

/-- Whatever fails, a pass is timely. -/
theorem ensures_step_timely {settings : Settings} {now : Instant} {status : SchedulerStatus}
    (registry : Registry) (polls : settings.snapshotPoll ≠ .zero)
    (parsed : Schedule.parse scheduler.spec.schedule = .ok schedule)
    (representable : now.seconds ≤ Timestamp.bounds.high)
    (heeds : Heeds scheduler schedule since now status) :
    (step scheduler settings now).Ensures mayFail
      (fun action => Round.Upheld (Timely (roundOf scheduler settings now) schedule since)
        (some action))
      (fun _ => Round.Upheld (Timely (roundOf scheduler settings now) schedule since) none)
      status (.opened registry) := by
  refine ensures_step_of_upholds (fun timely moves =>
    Timely.of_moves polls parsed representable timely moves) (fun final spares _ => ?_)
    (.idle rfl heeds)
  have quiet : ∀ request, AsideCall request → ¬ CreatingCall request :=
    fun _ aside => not_creatingCall aside.1
  refine .idle (creations_eq_of_adds spares.adds quiet) (heeds.of_akin rfl (Or.inr ?_))
  exact ⟨(fun same => nomatch same), rfl⟩

/-- The snapshots that a turn creates and what its scheduler heeds afterwards: it creates
none, or one that is due, which its status records. -/
theorem Turn.creates_timely (named : name ≠ "")
    (stored : turn.before.find? .scheduler space name = some turn.scheduler)
    (runs : turn.Runs MayFail) (continues : Continues first turn.scheduler)
    (parsed : Schedule.parse first.spec.schedule = .ok schedule)
    (polls : turn.settings.snapshotPoll ≠ .zero)
    (representable : turn.now.seconds ≤ Timestamp.bounds.high)
    (answered : ∀ call ∈ turn.final.calls, call.answer ≠ none)
    (heeds : Heeds first schedule since turn.now (turn.scheduler.status.getD .initial)) :
    ∃ latest, turn.final.registry.find? .scheduler space name = some latest ∧
      Continues first latest ∧
      (creations turn.final.calls = [] ∧
          Heeds first schedule since turn.now (latest.status.getD .initial) ∨
        (∃ call, creations turn.final.calls = [call]) ∧ HasOccurred schedule since turn.now ∧
          Heeds first schedule (some (.ofSeconds turn.now.seconds)) turn.now
            (latest.status.getD .initial)) := by
  obtain rfl : turn.scheduler.name = name := (Registry.isPlaced_of_find? stored).shownName_eq
  have heedsToo : Heeds turn.scheduler schedule since turn.now
      (turn.scheduler.status.getD .initial) := heeds.congr continues.createdAt (.refl _) rfl
  obtain ⟨action?, status, middle, ⟨⟨⟨ending, timely⟩, _⟩, settled⟩, _⟩ :=
    turn.exists_comesOut _ runs stored (ensures_step_timely turn.before polls
      (by rw [continues.schedule]; exact parsed) representable heedsToo)
  obtain ⟨latest, found, continuesLatest, recorded⟩ := settled.exists_latest stored continues
  obtain ⟨akin, samePhase⟩ : Akin status (latest.status.getD .initial) ∧
      (latest.status.getD .initial).phase = status.phase := by
    refine recorded.resolve_right ?_
    rintro ⟨_, nameless | ⟨request, recording, may⟩⟩
    · exact named nameless
    · exact absurd may (not_mayFail_of_recording recording)
  have same : creations turn.final.calls = creations middle.calls :=
    creations_eq_of_adds settled.spares.adds fun _ => not_creatingCall_of_settling
  have answeredBefore : ∀ call ∈ middle.calls, call.answer ≠ none := by
    obtain ⟨added, made, _⟩ := settled.spares.adds
    intro call member
    exact answered call (by rw [made]; exact List.mem_append_left _ member)
  refine ⟨latest, found, continuesLatest, ?_⟩
  rw [same]
  cases timely with
  | idle created heeds =>
      exact Or.inl ⟨created, heeds.congr continues.createdAt.symm akin samePhase⟩
  | creates ended created occurred recorded =>
      exact Or.inr ⟨⟨_, created⟩, occurred,
        (recorded answeredBefore).congr continues.createdAt.symm akin samePhase⟩

end Turns

/-! ## Interleaved turns -/

/-- The times at which a turn has created snapshots. -/
def Turn.creationTimes (turn : Turn) : List Instant :=
  (creations turn.final.calls).map fun _ => turn.now

/-- The times at which turns have created snapshots, the earliest first. -/
def creationTimes : List Turn → List Instant
  | [] => []
  | turn :: earlier => creationTimes earlier ++ turn.creationTimes

/-- The clock never goes back from one turn to the next nor past a last second, waits for a
snapshot take time, and every call is answered before the deadline. -/
structure Regular (last : Int) (turns : List Turn) : Prop where
  ordered : turns.Pairwise fun later earlier => earlier.now ≤ later.now
  bounded : ∀ turn ∈ turns, turn.now.seconds ≤ last
  polls : ∀ turn ∈ turns, turn.settings.snapshotPoll ≠ .zero
  answered : ∀ turn ∈ turns, ∀ call ∈ turn.final.calls, call.answer ≠ none

/-- To each of some times there is an occurrence of a schedule of its own that has come by
then: the occurrences follow the creation of the scheduler and each other. -/
structure Justifies (schedule : Schedule) (createdAt : Option Timestamp)
    (occurrences times : List Instant) : Prop where
  occur : ∀ time ∈ occurrences, schedule.Occurs time
  increasing : occurrences.Pairwise (· < ·)
  afterCreation : ∀ time ∈ occurrences, ∃ created, createdAt = some created ∧
    Instant.ofSeconds created.seconds < time
  come : List.Forall₂ (· ≤ ·) occurrences times

/-- The occurrences that justify the snapshots of a run have all come by the instant since
which the scheduler follows its schedule, and that is not before its creation. -/
structure Covers (schedule : Schedule) (createdAt : Option Timestamp) (since : Option Instant)
    (occurrences times : List Instant) : Prop where
  justifies : Justifies schedule createdAt occurrences times
  past : ∀ time ∈ occurrences, ∃ begun, since = some begun ∧ time ≤ begun
  created : ∀ begun, since = some begun → ∃ created, createdAt = some created ∧
    Instant.ofSeconds created.seconds ≤ begun

section Runs

variable {space name : String} {first : Scheduler} {schedule : Schedule} {start after : Registry}
  {since : Option Instant} {turn : Turn} {turns : List Turn} {createdAt : Option Timestamp}
  {occurrences times : List Instant} {last : Int}

theorem Regular.of_cons (regular : Regular last (turn :: turns)) : Regular last turns where
  ordered := (List.pairwise_cons.1 regular.ordered).2
  bounded := fun other member => regular.bounded other (List.mem_cons_of_mem _ member)
  polls := fun other member => regular.polls other (List.mem_cons_of_mem _ member)
  answered := fun other member => regular.answered other (List.mem_cons_of_mem _ member)

theorem covers_nil (schedule : Schedule) (createdAt : Option Timestamp) :
    Covers schedule createdAt (createdAt.bind Timestamp.instant?) [] [] where
  justifies := ⟨by simp, .nil, by simp, .nil⟩
  past := by simp
  created := by
    intro begun known
    obtain ⟨created, there, known⟩ := Option.bind_eq_some_iff.1 known
    exact ⟨created, there, by rw [Timestamp.eq_of_instant? known]; exact Int.le_refl _⟩

/-- An occurrence that has come since the earlier ones justifies one more snapshot. -/
theorem Covers.exists_append {now : Instant}
    (covers : Covers schedule createdAt since occurrences times)
    (occurred : HasOccurred schedule since now) :
    ∃ time, Covers schedule createdAt (some (.ofSeconds now.seconds)) (occurrences ++ [time])
      (times ++ [now]) := by
  obtain ⟨begun, time, known, occurs, after, come⟩ := occurred
  obtain ⟨created, there, notBefore⟩ := covers.created begun known
  -- An occurrence is a whole second, so that it has come by the start of this one.
  have comeBySecond : time ≤ .ofSeconds now.seconds := by
    rw [occurs.1] at come ⊢
    exact Instant.ofSeconds_le_iff.1 come
  have earlier : ∀ other ∈ occurrences, other < time := by
    intro other member
    obtain ⟨begun', known', upTo⟩ := covers.past other member
    obtain rfl := Option.some.inj (known'.symm.trans known)
    exact Instant.lt_of_le_of_lt upTo after
  refine ⟨time, ⟨?_, ?_, ?_, ?_⟩, ?_, ?_⟩
  · intro other member
    rcases List.mem_append.1 member with old | new
    · exact covers.justifies.occur other old
    · obtain rfl := List.mem_singleton.1 new
      exact occurs
  · refine List.pairwise_append.2 ⟨covers.justifies.increasing, List.pairwise_singleton _ _, ?_⟩
    intro other member new same
    obtain rfl := List.mem_singleton.1 same
    exact earlier other member
  · intro other member
    rcases List.mem_append.1 member with old | new
    · exact covers.justifies.afterCreation other old
    · obtain rfl := List.mem_singleton.1 new
      exact ⟨created, there, Instant.lt_of_le_of_lt notBefore after⟩
  · exact List.rel_append covers.justifies.come (.cons come .nil)
  · intro other member
    refine ⟨_, rfl, ?_⟩
    rcases List.mem_append.1 member with old | new
    · exact Instant.le_trans (Int.le_of_lt (earlier other old)) comeBySecond
    · obtain rfl := List.mem_singleton.1 new
      exact comeBySecond
  · intro second known
    obtain rfl := Option.some.inj known
    exact ⟨created, there, Instant.le_trans notBefore
      (Instant.le_trans (Int.le_of_lt after) comeBySecond)⟩

/-- The snapshots of earlier turns are covered up to some instant, and from then on a
scheduler heeds its schedule. -/
def Follows (first : Scheduler) (schedule : Schedule) (turns : List Turn)
    (status : SchedulerStatus) : Prop :=
  ∃ since occurrences,
    Covers schedule first.metadata.creationTimestamp since occurrences (creationTimes turns) ∧
      ∀ now, (∀ turn ∈ turns, turn.now ≤ now) → Heeds first schedule since now status

/-- However turns are interleaved, regular ones follow the schedule. -/
theorem Interleaves.stays_follows (named : name ≠ "")
    (begun : start.find? .scheduler space name = some first)
    (fresh : first.status.getD .initial = .initial)
    (parsed : Schedule.parse first.spec.schedule = .ok schedule)
    (interleaves : Interleaves MayFail space name (slotOf first) start turns after) :
    Stays space name first (fun status _ => Regular Timestamp.bounds.high turns →
      Follows first schedule turns status) after := by
  refine interleaves.stays (fun turns status _ => Regular Timestamp.bounds.high turns →
    Follows first schedule turns status) begun (fun _ => ?_) ?_
  · refine ⟨_, _, covers_nil _ _, fun now _ => ?_⟩
    rw [fresh]
    exact Or.inr ⟨by decide, rfl, rfl⟩
  · intro turn turns earlier stored runs continues follows
    by_cases regular : Regular Timestamp.bounds.high (turn :: turns)
    · obtain ⟨since, occurrences, covers, heeds⟩ := follows regular.of_cons
      have here : turn ∈ turn :: turns := List.mem_cons_self
      have heedsNow := heeds turn.now (List.pairwise_cons.1 regular.ordered).1
      obtain ⟨latest, found, continuesLatest, created⟩ := Turn.creates_timely named stored runs
        continues parsed (regular.polls turn here) (regular.bounded turn here)
        (regular.answered turn here) heedsNow
      refine ⟨latest, found, continuesLatest, fun _ => ?_⟩
      rcases created with ⟨none, heedsLatest⟩ | ⟨⟨call, one⟩, occurred, heedsLatest⟩
      · refine ⟨since, occurrences, ?_, fun now upTo => heedsLatest.mono (upTo turn here)⟩
        simpa [creationTimes, Turn.creationTimes, none] using covers
      · obtain ⟨time, coversToo⟩ := covers.exists_append occurred
        refine ⟨_, occurrences ++ [time], ?_, fun now upTo => heedsLatest.mono (upTo turn here)⟩
        simpa [creationTimes, Turn.creationTimes, one] using coversToo
    · obtain ⟨latest, found, continuesLatest⟩ :=
        (Interleaves.schedulerPass earlier stored runs).exists_stored begun
      exact ⟨latest, found, continuesLatest, fun regular' => absurd regular' regular⟩

/-- The snapshots that a scheduler creates in the turns of a run have occurrences of its
schedule of their own, each of which has come by the time its snapshot is created. -/
theorem exists_occurrences (named : name ≠ "")
    (begun : start.find? .scheduler space name = some first)
    (fresh : first.status.getD .initial = .initial)
    (parsed : Schedule.parse first.spec.schedule = .ok schedule)
    (interleaves : Interleaves MayFail space name (slotOf first) start turns after)
    (regular : Regular Timestamp.bounds.high turns) :
    ∃ occurrences,
      Justifies schedule first.metadata.creationTimestamp occurrences (creationTimes turns) := by
  obtain ⟨_, _, _, follows⟩ := interleaves.stays_follows named begun fresh parsed
  obtain ⟨_, occurrences, covers, _⟩ := follows regular
  exact ⟨occurrences, covers.justifies⟩

end Runs

section Example

/-- The turn of the hourly scheduler at one o'clock. -/
def hourlyTurn : Turn := turnAt "hourly" (.ofSeconds 3600) (fun _ => false) sampleCluster

theorem exists_parse_hourly : ∃ schedule, Schedule.parse hourly.spec.schedule = .ok schedule := by
  have succeeds : (Schedule.parse hourly.spec.schedule).toOption.isSome = true := by
    decide +kernel
  cases parsed : Schedule.parse hourly.spec.schedule with
  | ok schedule => exact ⟨schedule, rfl⟩
  | error fault => simp [parsed, Except.toOption] at succeeds

/-- The turn a minute later, when that snapshot is ready. -/
def minuteTurn : Turn :=
  turnAt "hourly" (.ofSeconds 3660) (fun _ => false)
    (readied "hourly-19700101010000" hourlyTurn.final.registry)

/-- The full node of a cluster. -/
def heldNode (registry : Registry) : FullNode :=
  (registry.find? .fullNode "default" "cosmoshub").getD (FullNode.sample 1 .empty)

/-- What the controller of the full node leaves. -/
def afterNodePass (registry : Registry) : Ledger :=
  ((Fleet.syncFullNode (heldNode registry) .standard (.ofSeconds 3700)).run.run
    (Program.serve fun _ => false) (Ledger.opened registry)).2

/-- The turn at two o'clock, when the pod has been created again and is ready. -/
def nextTurn : Turn :=
  turnAt "hourly" (.ofSeconds 7200) (fun _ => false)
    (restated (some Fleet.readyStatus) (afterNodePass minuteTurn.final.registry).registry)

theorem nextTurn_creates :
    (minuteTurn.final.registry.find? .fullNode "default" "cosmoshub").isSome = true ∧
      (∀ turn ∈ [nextTurn, minuteTurn, hourlyTurn], ∀ call ∈ turn.final.calls,
        call.answer ≠ none) ∧
      creationTimes [nextTurn, minuteTurn, hourlyTurn] = [.ofSeconds 3600, .ofSeconds 7200] := by
  decide +kernel

theorem interleaves_nextTurn :
    Interleaves MayFail "default" "hourly" (slotOf hourly) sampleCluster
      [nextTurn, minuteTurn, hourlyTurn] nextTurn.final.registry := by
  have first : Interleaves MayFail "default" "hourly" (slotOf hourly) sampleCluster [hourlyTurn]
      hourlyTurn.final.registry :=
    Interleaves.turnAt .start find?_sampleCluster mayFail_of_false _
  have second := (first.progress (progresses_readied "hourly-19700101010000" _)).turnAt
    find?_sampleCluster mayFail_of_false (.ofSeconds 3660)
  have stored : minuteTurn.final.registry.find? .fullNode "default" "cosmoshub" =
      some (heldNode minuteTurn.final.registry) := by
    obtain ⟨node, found⟩ := Option.isSome_iff_exists.1 nextTurn_creates.1
    rw [heldNode, found, Option.getD_some]
  have runs : ∃ result, (Fleet.syncFullNode (heldNode minuteTurn.final.registry) .standard
      (.ofSeconds 3700)).Runs MayFail (.opened minuteTurn.final.registry) result
        (afterNodePass minuteTurn.final.registry) := ⟨_, Program.runs_run mayFail_of_false _ _⟩
  obtain ⟨_, runs⟩ := runs
  have passed := second.nodePass stored runs
  exact (passed.progress (progresses_restated (some Fleet.readyStatus) _)).turnAt
    find?_sampleCluster mayFail_of_false _

/-- Two of the turns create snapshots, each for an occurrence of its own. -/
theorem exists_occurrences_of_hourlyTurn :
    ∃ schedule, Schedule.parse hourly.spec.schedule = .ok schedule ∧
      creationTimes [nextTurn, minuteTurn, hourlyTurn] = [.ofSeconds 3600, .ofSeconds 7200] ∧
        ∃ occurrences, Justifies schedule hourly.metadata.creationTimestamp occurrences
          (creationTimes [nextTurn, minuteTurn, hourlyTurn]) := by
  obtain ⟨schedule, parsed⟩ := exists_parse_hourly
  obtain ⟨_, answered, created⟩ := nextTurn_creates
  have regular : Regular Timestamp.bounds.high [nextTurn, minuteTurn, hourlyTurn] :=
    ⟨by decide, by decide, by decide, answered⟩
  refine ⟨schedule, parsed, created, ?_⟩
  exact exists_occurrences (by decide) find?_sampleCluster rfl parsed interleaves_nextTurn regular

/-! ## After the last timestamp -/

/-- The snapshots with the labels of a scheduler that its turn finds. -/
def Turn.labelled (turn : Turn) : List VolumeSnapshot :=
  turn.before.selected .volumeSnapshot (slotOf turn.scheduler).space
    turn.scheduler.snapshotSelector

/-- No one else creates snapshots with the labels of a scheduler. -/
def AllOwn : List Turn → Prop
  | [] => True
  | turn :: earlier => AllOwn earlier ∧ ∀ snapshot ∈ turn.labelled, ∃ other ∈ earlier,
      ∃ call ∈ creations other.final.calls,
        (wantedSnapshot? call.request).bind (·.metadata.name) = snapshot.metadata.name

/-- A snapshot that is ready stays so. -/
def StayReady (turns : List Turn) : Prop :=
  turns.Pairwise fun later earlier => ∀ snapshot ∈ earlier.labelled, snapshot.isReady = true →
    ∀ other ∈ later.labelled, other.metadata.name = snapshot.metadata.name → other.isReady = true

/-- In turns up to a last second, the snapshots of every scheduler have occurrences of their
own. -/
def OneEach (last : Int) : Prop :=
  ∀ (space name : String) (first : Scheduler) (schedule : Schedule) (start after : Registry)
    (turns : List Turn), name ≠ "" → start.find? .scheduler space name = some first →
      first.status.getD .initial = .initial →
        Schedule.parse first.spec.schedule = .ok schedule →
          Interleaves MayFail space name (slotOf first) start turns after →
            Regular last turns → AllOwn turns → StayReady turns → ∃ occurrences,
              Justifies schedule first.metadata.creationTimestamp occurrences
                (creationTimes turns)

/-- The last second of the year 9999, which is later than any timestamp. -/
def lastSecond : Int := (Date.mk 10000 1 1).dayNumber * 86400 - 1

/-- A scheduler that is to take a single snapshot, on a day in 2030. -/
def onceOnly : Scheduler :=
  { hourly with spec := { hourly.spec with schedule := "0 0 13 1 1 * 2030" } }

/-- The schedule of that scheduler. -/
def onceOnlySchedule : Schedule :=
  ⟨[{ seconds := [0], minutes := [0], hours := [13], days := [1], months := [1],
      weekdays := Column.weekday.all, years := [2030] }]⟩

def onceOnlyCluster : Registry :=
  sampleCluster.put .scheduler "default" "hourly" onceOnly

/-- The turn that creates the snapshot, but cannot record when. -/
def lateTurn : Turn :=
  turnAt "hourly" (.ofSeconds (lastSecond - 1)) (fun _ => false) onceOnlyCluster

/-- The turn a second later, when that snapshot is ready. -/
def lastTurn : Turn :=
  turnAt "hourly" (.ofSeconds lastSecond) (fun _ => false)
    (readied "hourly-99991231235958" lateTurn.final.registry)

theorem parse_onceOnly : Schedule.parse onceOnly.spec.schedule = .ok onceOnlySchedule := by
  decide +kernel

theorem onceOnly_occurs_once {time other : Instant} (occurs : onceOnlySchedule.Occurs time)
    (occursToo : onceOnlySchedule.Occurs other) : time = other := by
  have civil : ∀ {time : Instant}, onceOnlySchedule.Occurs time →
      time.civil = ⟨⟨2030, 1, 1⟩, 13, 0, 0⟩ := by
    rintro time ⟨_, table, among, holds⟩
    obtain rfl := List.mem_singleton.1 among
    obtain ⟨second, minute, hour, day, month, _, year, named, inYear⟩ := holds
    obtain rfl := List.mem_singleton.1 named
    generalize time.civil = civil at *
    obtain ⟨⟨_, _, _⟩, _, _, _⟩ := civil
    simp_all
  have same : time.seconds = other.seconds := by
    rw [← Instant.seconds_civil time, ← Instant.seconds_civil other, civil occurs,
      civil occursToo]
  rw [occurs.1, occursToo.1, same]

theorem find?_onceOnlyCluster :
    onceOnlyCluster.find? .scheduler "default" "hourly" = some onceOnly :=
  (Registry.sets_put _ ⟨rfl, rfl⟩).here

theorem interleaves_lastTurn :
    Interleaves MayFail "default" "hourly" (slotOf onceOnly) onceOnlyCluster
      [lastTurn, lateTurn] lastTurn.final.registry := by
  have late : Interleaves MayFail "default" "hourly" (slotOf onceOnly) onceOnlyCluster [lateTurn]
      lateTurn.final.registry :=
    Interleaves.turnAt .start find?_onceOnlyCluster mayFail_of_false _
  have ripe := late.progress (progresses_readied "hourly-99991231235958" _)
  exact ripe.turnAt find?_onceOnlyCluster mayFail_of_false _

theorem regular_lastTurn : Regular lastSecond [lastTurn, lateTurn] where
  ordered := by decide
  bounded := by decide
  polls := by decide
  answered := by decide +kernel

theorem allOwn_lastTurn : AllOwn [lastTurn, lateTurn] :=
  ⟨⟨trivial, by decide +kernel⟩, by decide +kernel⟩

theorem stayReady_lastTurn : StayReady [lastTurn, lateTurn] :=
  List.pairwise_pair.2 (by decide +kernel)

theorem length_creationTimes_lastTurn : (creationTimes [lastTurn, lateTurn]).length = 2 := by
  decide +kernel

/-- Where the start of a snapshot cannot be recorded, its occurrence is met again. -/
theorem not_oneEach_of_lastTurn : ¬ OneEach lastSecond := by
  intro oneEach
  obtain ⟨occurrences, justifies⟩ := oneEach _ _ _ _ _ _ _ (by decide) find?_onceOnlyCluster rfl
    parse_onceOnly interleaves_lastTurn regular_lastTurn allOwn_lastTurn stayReady_lastTurn
  have length : occurrences.length = 2 :=
    justifies.come.length_eq.trans length_creationTimes_lastTurn
  obtain ⟨first, second, rfl⟩ := List.length_eq_two.1 length
  have before : first < second := by simpa using justifies.increasing
  have same := onceOnly_occurs_once (justifies.occur first (by simp))
    (justifies.occur second (by simp))
  rw [same] at before
  exact Int.lt_irrefl _ before

end Example

end NodeFleet.Snapshot
