import NodeFleet.Proofs.Snapshot.HandBack

/-!
# Outages

While the definition of snapshots is missing, the phase of a scheduler says so, and no longer
what the scheduler was about.  When the definition is back, the scheduler waits for its next
time, even if it holds a pod down.
-/

namespace NodeFleet.Snapshot

open Calendar Resource Store

variable {space name : String} {slot : Slot} {start before registry : Registry}
  {first : Scheduler} {turns : List Turn} {turn : Turn}

/-- Where no call fails. -/
def Faultless (_ : Request) : Prop := False

/-- The definition of snapshots is missing when the turn begins. -/
def Turn.MeetsOutage (turn : Turn) : Prop :=
  Kind.volumeSnapshot.definitionName ∉ turn.before.definitions

/-- A turn met an outage and left a candidate, or the slot was filled from the start, and no
turn since has made a call for a pod.  The turns stand with the latest first. -/
def Slot.Forsaken (space name : String) (slot : Slot) (start : Registry) : List Turn → Prop
  | [] => slot.held? start ≠ none
  | turn :: earlier =>
      ¬ TouchedPod turn.final.calls ∧
        (turn.MeetsOutage ∧ turn.candidate? space name ≠ none ∨
          slot.Forsaken space name start earlier)

/-- The phases in which a scheduler is not about to take a snapshot or to end one. -/
def isIdle : SnapshotPhase → Bool
  | .waitingForNext | .findingCandidate | .suspended | .missingDefinition => true
  | _ => false

/-- An idle scheduler has no candidate and no entry, and one that is not has a candidate. -/
structure Sound (status : SchedulerStatus) (entry : Option String) : Prop where
  idle : isIdle status.phase = true → status.candidate = none ∧ entry = none
  busy : isIdle status.phase = false → status.candidate ≠ none

/-- A scheduler that is idle, or about to take a pod down, has a candidate or an entry that it
has lost sight of. -/
structure Loose (status : SchedulerStatus) (entry : Option String) : Prop where
  left : ¬ (status.candidate = none ∧ entry = none)
  phase : isIdle status.phase = true ∨ status.phase = .deletingPod

/-- A status is loose where the scheduler is forsaken, and sound where it is not. -/
structure Tracks (forsaken : Prop) (status : SchedulerStatus) (entry : Option String) : Prop where
  loose : forsaken → Loose status entry
  sound : ¬ forsaken → Sound status entry

theorem Sound.of_unset {status : SchedulerStatus} {entry : Option String}
    (sound : Sound status entry) (unset : status.candidate = none) : entry = none := by
  by_contra filled
  cases idle : isIdle status.phase with
  | false => exact sound.busy idle unset
  | true => exact filled (sound.idle idle).2

theorem sound_of_busy {status : SchedulerStatus} (entry : Option String)
    (busy : isIdle status.phase = false) (set : status.candidate ≠ none) :
    Sound status entry :=
  ⟨fun idle => by simp [busy] at idle, fun _ => set⟩

section Moves

variable {mayFail : Request → Prop} {round : Round} {status status' : SchedulerStatus}
  {ledger final : Ledger} {ending : Ending}

/-- A move that looks around and spares the entry keeps a status sound. -/
theorem Sound.of_shifts {entry : Option String} (sound : Sound status entry)
    (akin : Akin status status') (shifts : round.Shifts status ending status'.phase) :
    Sound status' entry := by
  have busy : isIdle status'.phase = isIdle status.phase → Sound status' entry := by
    intro same
    exact ⟨fun idle => akin.candidate ▸ sound.idle (same ▸ idle), fun busy =>
      akin.candidate ▸ sound.busy (same ▸ busy)⟩
  generalize phase' : status'.phase = phase at shifts busy
  cases shifts with
  | same => exact busy rfl
  | due phase => exact busy (by rw [phase]; rfl)
  | unchosen phase unset => exact absurd unset (sound.busy (by rw [phase]; rfl))
  | seen phase => exact busy (by rw [phase]; rfl)
  | vacant phase unset => exact absurd unset (sound.busy (by rw [phase]; rfl))
  | woken phase => exact busy (by rcases phase with there | there <;> rw [there] <;> rfl)
  | asleep suspended unset =>
      refine ⟨fun _ => ⟨akin.candidate.trans unset, sound.of_unset unset⟩, fun busy => ?_⟩
      rw [phase'] at busy
      cases busy

/-- Every move keeps a status sound. -/
theorem Sound.of_moves (sound : Sound status (round.slot.held? ledger.registry))
    (moves : round.Moves mayFail status ledger ending status' final) :
    Sound status' (round.slot.held? final.registry) := by
  have stays : ∀ entry, isIdle status.phase = false → Sound status entry :=
    fun entry busy => sound_of_busy entry busy (sound.busy busy)
  cases moves with
  | looks spares akin shifts =>
      rw [spares.entry]
      exact sound.of_shifts akin shifts
  | chooses awake phase spares chosen startedAt phase' =>
      exact sound_of_busy _ (by rw [phase']; rfl) (by simp [chosen])
  | takesDown awake phase chosen adds held touched akin phase' =>
      exact sound_of_busy _ (by rw [phase']; rfl) (by simp [akin.candidate, chosen])
  | failsToTakeDown phase chosen adds held => exact stays _ (by rw [phase]; rfl)
  | seesGone awake phase chosen spares akin phase' =>
      exact sound_of_busy _ (by rw [phase']; rfl) (by simp [akin.candidate, chosen])
  | seesPod phase spares akin phase' ended =>
      have busy : isIdle status.phase = false := by rw [phase]; rfl
      refine sound_of_busy _ (by rw [phase']; exact busy) ?_
      rw [akin.candidate]
      exact sound.busy busy
  | takesOver phase chosen spares same phase' =>
      exact sound_of_busy _ (by rw [phase']; rfl) (by simp [same, chosen])
  | creates awake phase chosen created succeeds same startedAt phase' =>
      exact sound_of_busy _ (by rw [phase']; rfl) (by simp [same, chosen])
  | failsToCreate awake phase chosen created cause => exact stays _ (by rw [phase]; rfl)
  | losesSight due chosen clears nothing =>
      cases idle : isIdle status.phase with
      | false => exact stays _ idle
      | true => simp [(sound.idle idle).1] at chosen
  | awaitsPod due chosen clears touched akin phase' =>
      exact sound_of_busy _ (by rw [phase']; rfl) (by simp [akin.candidate, chosen])
  | restores due chosen clears touched restored startedAt phase' =>
      exact ⟨fun _ => ⟨restored, clears.vacant⟩, fun busy => by rw [phase'] at busy; cases busy⟩

/-- A move that looks around and spares the entry keeps a status loose. -/
theorem Loose.of_shifts {entry : Option String} (loose : Loose status entry)
    (akin : Akin status status') (shifts : round.Shifts status ending status'.phase) :
    Loose status' entry where
  left := by
    rw [akin.candidate]
    exact loose.left
  phase := by
    have before := loose.phase
    generalize status'.phase = phase at shifts
    cases shifts with
    | same => exact before
    | seen there => simp [there, isIdle] at before
    | vacant there => simp [there, isIdle] at before
    | _ => exact Or.inl rfl

/-- A look-up of a pod comes to nothing only for want of a name, where no call fails. -/
theorem eq_of_fruitless_get {kind : Kind} {podName : String} {error : Option StoreError}
    (nothing : ledger.Fruitless Faultless (.get kind space podName) error final) :
    final = ledger := by
  cases nothing with
  | unmade nameless => rfl
  | refused served honest =>
      cases served with
      | missing absent =>
          rw [claimsMissing_notFound] at honest
          cases honest
      | failed may honest => exact may.elim
  | unanswered served =>
      cases served with
      | unanswered may => exact may.elim

/-- Where no call fails, a move keeps a status loose, unless it makes a call for a pod: then
the status is sound afterwards. -/
theorem Loose.of_moves (loose : Loose status (round.slot.held? ledger.registry))
    (untouched : ¬ TouchedPod ledger.calls)
    (moves : round.Moves Faultless status ledger ending status' final) :
    Tracks (¬ TouchedPod final.calls) status' (round.slot.held? final.registry) := by
  have phase := loose.phase
  have staysLoose : Loose status' (round.slot.held? final.registry) →
      ledger.Adds AsideCall final →
        Tracks (¬ TouchedPod final.calls) status' (round.slot.held? final.registry) := by
    intro looseFinal adds
    refine ⟨fun _ => looseFinal, fun touched => absurd (not_not.1 touched) ?_⟩
    rw [touchedPod_iff_of_adds adds]
    exact untouched
  have getsSound : Sound status' (round.slot.held? final.registry) →
      TouchedPod final.calls →
        Tracks (¬ TouchedPod final.calls) status' (round.slot.held? final.registry) :=
    fun sound touched => ⟨fun idle => absurd touched idle, fun _ => sound⟩
  cases moves with
  | looks spares akin shifts =>
      refine staysLoose ?_ spares.adds
      rw [spares.entry]
      exact loose.of_shifts akin shifts
  | chooses awake there spares chosen startedAt phase' =>
      exact staysLoose ⟨by simp [chosen], Or.inr phase'⟩ spares.adds
  | takesDown awake there chosen adds held touched akin phase' =>
      exact getsSound (sound_of_busy _ (by rw [phase']; rfl) (by simp [akin.candidate, chosen]))
        touched
  | failsToTakeDown there chosen adds held =>
      exact ⟨fun _ => ⟨by simp [chosen], phase⟩, fun _ =>
        sound_of_busy _ (by rw [there]; rfl) (by simp [chosen])⟩
  | seesGone awake there => simp [there, isIdle] at phase
  | seesPod there => simp [there, isIdle] at phase
  | takesOver there => simp [there, isIdle] at phase
  | creates awake there => simp [there, isIdle] at phase
  | failsToCreate awake there => simp [there, isIdle] at phase
  | losesSight due chosen clears nothing =>
      obtain rfl := eq_of_fruitless_get nothing
      exact staysLoose ⟨by simp [chosen], phase⟩ clears.adds
  | awaitsPod due chosen clears touched akin phase' =>
      exact getsSound (sound_of_busy _ (by rw [phase']; rfl) (by simp [akin.candidate, chosen]))
        touched
  | restores due chosen clears touched restored startedAt phase' =>
      exact getsSound ⟨fun _ => ⟨restored, clears.vacant⟩, fun busy => by
        rw [phase'] at busy; cases busy⟩ touched

theorem touchedPod_of_adds {allowed : Request → Prop} (adds : ledger.Adds allowed final)
    (touched : TouchedPod ledger.calls) : TouchedPod final.calls := by
  obtain ⟨_, made, _⟩ := adds
  obtain ⟨call, member, touches⟩ := touched
  exact ⟨call, by simp [made, member], touches⟩

/-- What a pass tracks of the status and the entry from move to move. -/
abbrev TracksMoves (forsaken : Prop) (round : Round) (_ : Ending) (status : SchedulerStatus)
    (ledger : Ledger) : Prop :=
  Tracks (¬ TouchedPod ledger.calls ∧ forsaken) status (round.slot.held? ledger.registry)

theorem upholds_tracks (forsaken : Prop) :
    round.Upholds Faultless (TracksMoves forsaken round) := by
  intro status status' ledger final ending tracks moves
  by_cases lost : ¬ TouchedPod ledger.calls ∧ forsaken
  · have after := (tracks.loose lost).of_moves lost.1 moves
    refine ⟨fun still => after.loose still.1, fun found => after.sound fun untouched => ?_⟩
    exact found ⟨untouched, lost.2⟩
  · have sound := (tracks.sound lost).of_moves moves
    refine ⟨fun still => absurd ⟨fun touched => ?_, still.2⟩ lost, fun _ => sound⟩
    exact still.1 (touchedPod_of_adds moves.adds touched)

end Moves

/-! ## Whole turns -/

/-- Where the definition of snapshots is missing and no call fails, a pass changes nothing but
the phase. -/
theorem ensures_step_of_missing {scheduler : Scheduler} {settings : Settings} {now : Instant}
    {status : SchedulerStatus} {ledger : Ledger}
    (missing : Kind.volumeSnapshot.definitionName ∉ ledger.registry.definitions) :
    (step scheduler settings now).EnsuresAlways Faultless
      (fun status' final => status' = { status with phase := .missingDefinition } ∧
        (slotOf scheduler).Spares AsideCall ledger final) status ledger := by
  refine Pass.ensures_bind (Pass.ensures_bind (Pass.ensures_attempt (Exchange.ensures_isDefined
    (fun answer => ?_) fun error final nothing => ?_)))
  · simp only [missing, decide_false]
    exact Pass.ensures_bind (Pass.ensures_modify (Pass.ensures_throw _
      ⟨rfl, spares_add ⟨trivial, id⟩ answer rfl⟩))
  · cases nothing with
    | unmade nameless => cases nameless
    | refused served honest =>
        cases served with
        | undefined unknown =>
            rw [claimsMissing_notFound] at honest
            cases honest
        | failed may honest => exact may.elim
    | unanswered served =>
        cases served with
        | unanswered may => exact may.elim

/-- A status that shows an outage is loose where there was a candidate, or where it was
loose. -/
theorem Tracks.of_missing {forsaken : Prop} {status : SchedulerStatus} {entry : Option String}
    (tracks : Tracks forsaken status entry) :
    Tracks (status.candidate ≠ none ∨ forsaken)
      { status with phase := .missingDefinition } entry where
  loose := by
    rintro (set | lost)
    · exact ⟨fun empty => set empty.1, Or.inl rfl⟩
    · exact ⟨(tracks.loose lost).left, Or.inl rfl⟩
  sound := by
    intro found
    obtain ⟨unset, known⟩ := not_or.1 found
    have sound := tracks.sound known
    exact ⟨fun _ => ⟨not_not.1 unset, sound.of_unset (not_not.1 unset)⟩, fun busy => nomatch busy⟩

theorem Tracks.congr {forsaken forsaken' : Prop} {status : SchedulerStatus}
    {entry : Option String} (tracks : Tracks forsaken status entry)
    (same : forsaken' ↔ forsaken) : Tracks forsaken' status entry :=
  ⟨fun lost => tracks.loose (same.1 lost), fun found => tracks.sound (same.not.1 found)⟩

/-- Only the phase and the candidate of a status matter. -/
theorem Tracks.of_akin {forsaken : Prop} {status status' : SchedulerStatus}
    {entry : Option String} (tracks : Tracks forsaken status entry) (akin : Akin status status')
    (phase : status'.phase = status.phase) : Tracks forsaken status' entry where
  loose := by
    intro lost
    obtain ⟨left, there⟩ := tracks.loose lost
    exact ⟨akin.candidate ▸ left, phase ▸ there⟩
  sound := by
    intro found
    obtain ⟨idle, busy⟩ := tracks.sound found
    constructor
    · rw [phase, akin.candidate]
      exact idle
    · rw [phase, akin.candidate]
      exact busy

/-- A whole pass tracks whether its scheduler is forsaken. -/
theorem ensures_step_tracks {scheduler : Scheduler} (settings : Settings) (now : Instant)
    {status : SchedulerStatus} {forsaken : Prop}
    (tracks : Tracks forsaken status ((slotOf scheduler).held? before)) :
    (step scheduler settings now).EnsuresAlways Faultless
      (fun status' final => Tracks (¬ TouchedPod final.calls ∧
          (Kind.volumeSnapshot.definitionName ∉ before.definitions ∧ status'.candidate ≠ none ∨
            forsaken))
        status' ((slotOf scheduler).held? final.registry))
      status (.opened before) := by
  by_cases missing : Kind.volumeSnapshot.definitionName ∈ before.definitions
  · have finishes : ∀ action? status' final, Round.Upheld
        (TracksMoves forsaken (roundOf scheduler settings now)) action? status' final →
          Tracks (¬ TouchedPod final.calls ∧
              (Kind.volumeSnapshot.definitionName ∉ before.definitions ∧
                status'.candidate ≠ none ∨ forsaken))
            status' ((slotOf scheduler).held? final.registry) := by
      rintro action? status' final ⟨⟨ending, tracked⟩, _⟩
      exact tracked.congr (by simp [missing])
    refine (ensures_step_of_upholds (upholds_tracks forsaken)
      (fun final _ unknown => absurd missing unknown) (tracks.congr ?_)).mono
        (fun action => finishes (some action)) fun _ => finishes none
    simp
  · refine (ensures_step_of_missing missing).mono ?_ ?_ <;>
    · rintro _ status' final ⟨rfl, spares⟩
      rw [spares.entry]
      refine tracks.of_missing.congr ?_
      simp [touchedPod_iff_of_adds spares.adds, missing]

theorem touchedPod_iff_of_settling {middle final : Ledger}
    (spares : slot.Spares SettlingCall middle final) :
    TouchedPod final.calls ↔ TouchedPod middle.calls := by
  obtain ⟨_, added, made, idle⟩ := spares
  simp only [TouchedPod, made, List.mem_append, or_and_right, exists_or]
  refine or_iff_left ?_
  rintro ⟨call, member, touches⟩
  have settling := (idle call member).1
  generalize call.request = request at touches settling
  cases request with
  | get kind space name => cases kind <;> first | exact settling | exact touches
  | delete kind space name => exact settling
  | _ => exact touches

/-- Where no call fails, the status of a scheduler tracks whether it is forsaken. -/
theorem Interleaves.tracks
    (interleaves : Interleaves Faultless space name (slotOf first) start turns registry)
    (named : name ≠ "") (begun : start.find? .scheduler space name = some first)
    (fresh : first.status.getD .initial = .initial) :
    Stays space name first
      (Tracks ((slotOf first).Forsaken space name start turns)) registry := by
  refine interleaves.stays
    (fun turns => Tracks ((slotOf first).Forsaken space name start turns)) begun ?_ ?_
  · rw [fresh]
    refine ⟨fun filled => ⟨fun empty => filled empty.2, Or.inl rfl⟩, fun vacant => ?_⟩
    exact ⟨fun _ => ⟨rfl, not_not.1 vacant⟩, fun busy => nomatch busy⟩
  · intro turn turns earlier stored runs continues tracked
    obtain rfl : turn.scheduler.name = name := (Registry.isPlaced_of_find? stored).shownName_eq
    rw [← continues.slot_eq] at tracked
    have ensured := ensures_step_tracks turn.settings turn.now tracked
    obtain ⟨_, status, middle, ⟨held, settled⟩, _⟩ :=
      turn.exists_comesOut (fun _ => _) runs stored ensured
    obtain ⟨latest, found, continuesLatest, ⟨akin, phase⟩ | ⟨_, nameless | ⟨_, _, may⟩⟩⟩ :=
      settled.exists_latest stored continues
    · refine ⟨latest, found, continuesLatest, ?_⟩
      have left : turn.candidate? space turn.scheduler.name = status.candidate := by
        simp [Turn.candidate?, found, akin.candidate]
      have sameCalls := touchedPod_iff_of_settling settled.spares
      rw [← continues.slot_eq]
      rw [← settled.spares.entry] at held
      refine (held.of_akin akin phase).congr ?_
      simp only [Slot.Forsaken, left, sameCalls, Turn.MeetsOutage]
    · exact absurd nameless named
    · exact may.elim

/-- Where no call fails, a scheduler that waits for its next time has neither a candidate nor
an entry exactly when it is not forsaken. -/
theorem waits_without_pod_iff {scheduler : Scheduler} (named : name ≠ "")
    (begun : start.find? .scheduler space name = some first)
    (fresh : first.status.getD .initial = .initial)
    (interleaves : Interleaves Faultless space name (slotOf first) start turns registry)
    (stored : registry.find? .scheduler space name = some scheduler)
    (waits : (scheduler.status.getD .initial).phase = .waitingForNext) :
    (scheduler.status.getD .initial).candidate = none ∧ (slotOf first).held? registry = none ↔
      ¬ (slotOf first).Forsaken space name start turns := by
  obtain ⟨scheduler', found, _, tracks⟩ := interleaves.tracks named begun fresh
  obtain rfl := Option.some.inj (stored.symm.trans found)
  constructor
  · exact fun empty lost => (tracks.loose lost).left empty
  · exact fun known => (tracks.sound known).idle (by rw [waits]; rfl)

/-! ## An outage that leaves a pod down -/

/-- However the turns are interleaved, no pod is kept down by a scheduler that waits for its
next time. -/
def WaitsWithoutPod (space name : String) (start : Registry) (first : Scheduler) : Prop :=
  ∀ (turns : List Turn) (turn : Turn) (scheduler : Scheduler),
    Interleaves Faultless space name (slotOf first) start (turn :: turns) turn.final.registry →
      turn.final.registry.find? .scheduler space name = some scheduler →
        (scheduler.status.getD .initial).phase = .waitingForNext →
          (scheduler.status.getD .initial).candidate = none ∧
            (slotOf first).held? turn.final.registry = none

section Example

/-- The cluster once other definitions are known. -/
def withDefinitions (definitions : List String) (registry : Registry) : Registry :=
  { registry with definitions := definitions }

theorem Interleaves.redefined {mayFail : Request → Prop}
    (interleaves : Interleaves mayFail space name slot start turns registry)
    (definitions : List String) :
    Interleaves mayFail space name slot start turns (withDefinitions definitions registry) :=
  interleaves.progress ⟨fun _ _ => rfl, fun _ _ => rfl, fun _ _ absent => absent⟩

/-- The turn in which the pod is taken down. -/
def downTurn : Turn := turnAt "hourly" (.ofSeconds 3600) (fun _ => false) sampleCluster

/-- The turn in which the definition of snapshots is missing. -/
def outageTurn : Turn :=
  turnAt "hourly" (.ofSeconds 3660) (fun _ => false) (withDefinitions [] downTurn.final.registry)

/-- The turn in which the definition is back. -/
def returnTurn : Turn :=
  turnAt "hourly" (.ofSeconds 3720) (fun _ => false)
    (withDefinitions [Kind.volumeSnapshot.definitionName] outageTurn.final.registry)

theorem interleaves_returnTurn :
    Interleaves Faultless "default" "hourly" (slotOf hourly) sampleCluster
      [returnTurn, outageTurn, downTurn] returnTurn.final.registry := by
  have faultless : ∀ request : Request, false = true → Faultless request :=
    fun _ fails => nomatch fails
  have down := Interleaves.turnAt .start find?_sampleCluster faultless (.ofSeconds 3600)
  have outage := (down.redefined []).turnAt find?_sampleCluster faultless (.ofSeconds 3660)
  exact (outage.redefined _).turnAt find?_sampleCluster faultless _

theorem phase_returnTurn :
    ((heldScheduler returnTurn.final.registry).status.getD .initial).phase = .waitingForNext := by
  decide +kernel

theorem find?_returnTurn :
    returnTurn.final.registry.find? .scheduler "default" "hourly" =
      some (heldScheduler returnTurn.final.registry) := by
  obtain ⟨scheduler, found, _⟩ := interleaves_returnTurn.exists_stored find?_sampleCluster
  simp [heldScheduler, found]

/-- The scheduler waits for its next time, and the condition for it to have no candidate and
no entry is as stated. -/
theorem waits_without_pod_iff_of_returnTurn :
    ((heldScheduler returnTurn.final.registry).status.getD .initial).phase = .waitingForNext ∧
      (((heldScheduler returnTurn.final.registry).status.getD .initial).candidate = none ∧
          (slotOf hourly).held? returnTurn.final.registry = none ↔
        ¬ (slotOf hourly).Forsaken "default" "hourly" sampleCluster
          [returnTurn, outageTurn, downTurn]) :=
  ⟨phase_returnTurn, waits_without_pod_iff (by decide) find?_sampleCluster rfl
    interleaves_returnTurn find?_returnTurn phase_returnTurn⟩

/-- Once the definition of snapshots is back, the scheduler waits for its next time and leaves
the pod down. -/
theorem not_waitsWithoutPod_of_outage :
    ¬ WaitsWithoutPod "default" "hourly" sampleCluster hourly := by
  intro without
  obtain ⟨_, vacant⟩ := without [outageTurn, downTurn] returnTurn _ interleaves_returnTurn
    find?_returnTurn phase_returnTurn
  have filled : (slotOf hourly).held? returnTurn.final.registry ≠ none := by decide +kernel
  exact filled vacant

end Example

end NodeFleet.Snapshot
