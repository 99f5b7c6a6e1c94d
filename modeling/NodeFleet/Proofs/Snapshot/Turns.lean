import NodeFleet.Proofs.Snapshot.Interleaving
import NodeFleet.Proofs.Snapshot.PhaseMoves

/-!
# Turns of a scheduler

A scheduler takes its turns between those of its full node, while somebody suspends it and
lets it go on, and the cluster changes in between.  After a turn the scheduler is stored with
the status of the pass, or as it was before if that write failed.
-/

namespace NodeFleet.Snapshot

open Calendar Fleet Resource Store

/-- A pass of the controller of a scheduler: what it started from and how it ended. -/
structure Turn where
  scheduler : Scheduler
  settings : Settings
  now : Instant
  before : Registry
  result : Except (Halt ControlError) Action
  final : Ledger

def Turn.Runs (mayFail : Request → Prop) (turn : Turn) : Prop :=
  (syncScheduler turn.scheduler turn.settings turn.now).Runs mayFail (.opened turn.before)
    turn.result turn.final

/-- The status with which a turn starts. -/
def Turn.status (turn : Turn) : SchedulerStatus := turn.scheduler.status.getD .initial

variable {mayFail : Request → Prop} {space name : String} {slot : Slot}
  {start before after : Registry} {first scheduler : Scheduler} {status : SchedulerStatus}
  {middle final : Ledger}

/-! ## How a pass is settled -/

/-- A scheduler with the status that its pass has left. -/
def recordedScheduler (scheduler : Scheduler) (version : String) (message : Option String)
    (status : SchedulerStatus) : Scheduler :=
  { scheduler with
    metadata := { scheduler.metadata with resourceVersion := some version }
    status := some { status with
      observedGeneration := scheduler.metadata.generation, statusMessage := message } }

/-- The snapshot that a call asks for. -/
def wantedSnapshot? : Request → Option VolumeSnapshot
  | .create .volumeSnapshot _ snapshot => some snapshot
  | _ => none

theorem creatingCall_iff (request : Request) :
    CreatingCall request ↔ ∃ snapshot, wantedSnapshot? request = some snapshot := by
  cases request with
  | create kind space object => cases kind <;> simp [CreatingCall, wantedSnapshot?]
  | _ => simp [CreatingCall, wantedSnapshot?]

theorem not_creatingCall_of_settling {request : Request} (settling : SettlingCall request) :
    ¬ CreatingCall request := by
  intro creating
  cases request with
  | create kind space object => exact settling
  | _ => exact creating

/-- The calls that record the status of a scheduler. -/
def RecordingCall : Request → Prop
  | .get .scheduler _ _ | .replaceStatus .scheduler _ _ _ => True
  | _ => False

theorem not_mayFail_of_recording {request : Request} (recording : RecordingCall request) :
    ¬ MayFail request := by
  cases request with
  | get kind space name | replaceStatus kind space name object =>
      cases kind with
      | scheduler => exact id
      | _ => cases recording
  | _ => cases recording

/-- What is stored of a scheduler when its pass is over: the status that the pass has left,
or the scheduler as it was, if a recording call has failed. -/
inductive Settles (mayFail : Request → Prop) (space : String) (scheduler : Scheduler)
    (status : SchedulerStatus) (final : Registry) : Prop
  | recorded (version : String) (message : Option String)
      (stored : final.find? .scheduler space scheduler.name =
        some (recordedScheduler scheduler version message status))
  | lost (stored : final.find? .scheduler space scheduler.name = some scheduler)
      (cause : scheduler.name = "" ∨ ∃ request, RecordingCall request ∧ mayFail request)

/-- A pass is settled with calls that leave the slot alone. -/
structure Settled (mayFail : Request → Prop) (slot : Slot) (space : String)
    (scheduler : Scheduler) (status : SchedulerStatus) (middle final : Ledger) : Prop where
  settles : Settles mayFail space scheduler status final.registry
  spares : slot.Spares SettlingCall middle final

theorem Settled.add {event : Event}
    (settled : Settled mayFail slot space scheduler status middle final)
    (answer : Answer (.publish event)) :
    Settled mayFail slot space scheduler status middle
      (final.add (.publish event) answer final.registry) where
  settles := settled.settles
  spares := settled.spares.trans (spares_add trivial answer rfl)

/-- A recording call comes to nothing only if it may, or for want of a name. -/
theorem cause_of_fruitless {request : Request} {error : Option StoreError}
    (recording : RecordingCall request) (target : request.target? = some name)
    (answered : ∀ failure, Serves mayFail request middle.registry (some (.error failure))
      middle.registry → failure.claimsMissing = false → mayFail request)
    (nothing : middle.Fruitless mayFail request error final) :
    name = "" ∨ ∃ request, RecordingCall request ∧ mayFail request := by
  cases nothing with
  | unmade nameless => exact Or.inl (Option.some.inj (target.symm.trans nameless))
  | refused served honest => exact Or.inr ⟨request, recording, answered _ served honest⟩
  | unanswered served =>
      cases served with
      | unanswered may => exact Or.inr ⟨request, recording, may⟩

theorem ensures_settles (slot : Slot) {outcome : Except PassError Action × SchedulerStatus}
    (there : middle.registry.find? .scheduler space scheduler.name = some scheduler) :
    (settle scheduler space outcome).Ensures mayFail
      (fun action final => outcome.1 = .ok action ∧
        Settled mayFail slot space scheduler outcome.2 middle final)
      (fun _ => Settled mayFail slot space scheduler outcome.2 middle) middle := by
  have reading : SettlingCall (.get .scheduler space scheduler.name) := trivial
  have concludes : ∀ final, Settled mayFail slot space scheduler outcome.2 middle final →
      (conclude outcome.1).Ensures mayFail
        (fun action final => outcome.1 = .ok action ∧
          Settled mayFail slot space scheduler outcome.2 middle final)
        (fun _ => Settled mayFail slot space scheduler outcome.2 middle) final := by
    intro final settled
    cases outcome.1 with
    | ok action => exact Control.ensures_pure _ ⟨rfl, settled⟩
    | error error =>
        exact Control.ensures_failPass (fun _ => settled) fun event answer _ => settled.add answer
  refine Control.ensures_bind (Control.ensures_attempt (Exchange.ensures_updateStatus
    (fun _ => rfl) (fun latest version after found sets => ?_) (fun missing => ?_)
    (fun error final nothing halt => ?_) fun latest error final found nothing halt => ?_))
  · obtain rfl := Option.some.inj (there.symm.trans found)
    refine concludes _ ⟨.recorded version _ sets.here, ?_⟩
    exact (spares_add reading _ rfl).trans
      (spares_add trivial _ (Slot.held?_eq_of_sets sets (by decide)))
  · exact absurd (there.symm.trans missing) (by simp)
  · have spares : slot.Spares SettlingCall middle final := spares_of_fruitless nothing reading
    refine ⟨.lost (by rw [nothing.registry_eq, there]) ?_, spares⟩
    have recording : RecordingCall (.get .scheduler space scheduler.name) := trivial
    refine cause_of_fruitless recording rfl (fun failure served honest => ?_) nothing
    cases served with
    | missing absent => exact absurd (there.symm.trans absent) (by simp)
    | failed may honest => exact may
  · obtain rfl := Option.some.inj (there.symm.trans found)
    have spares : slot.Spares SettlingCall middle final :=
      (spares_add reading _ rfl).trans (spares_of_fruitless nothing trivial)
    refine ⟨.lost (by rw [nothing.registry_eq]; exact there) ?_, spares⟩
    have recording : RecordingCall (.replaceStatus .scheduler space scheduler.name
        { scheduler with status := some (recordOutcome scheduler.metadata.generation outcome.1
          outcome.2) }) := trivial
    refine cause_of_fruitless recording rfl (fun failure served honest => ?_) nothing
    cases served with
    | outdated there' changed =>
        obtain rfl := Option.some.inj (there.symm.trans there')
        exact absurd rfl changed
    | nothingToRenew absent => exact absurd (there.symm.trans absent) (by simp)
    | failed may honest => exact may

/-- What settles a pass that ends in a status, or with an action in it. -/
structure ComesOut (mayFail : Request → Prop) (space : String) (scheduler : Scheduler)
    (holds : Option Action → SchedulerStatus → Ledger → Prop) (action? : Option Action)
    (status : SchedulerStatus) (middle final : Ledger) : Prop where
  held : holds action? status middle
  settled : Settled mayFail (slotOf scheduler) space scheduler status middle final

/-- A controller settles its pass, whatever that has ensured. -/
theorem ensures_syncScheduler_comesOut
    {holds : Option Action → SchedulerStatus → Ledger → Prop} {settings : Settings}
    {now : Instant} (stored : before.find? .scheduler space scheduler.name = some scheduler)
    (ensured : (step scheduler settings now).Ensures mayFail (fun action => holds (some action))
      (fun _ => holds none) (scheduler.status.getD .initial) (.opened before)) :
    (syncScheduler scheduler settings now).Ensures mayFail
      (fun action final => ∃ status middle,
        ComesOut mayFail space scheduler holds (some action) status middle final)
      (fun _ final => ∃ action? status middle,
        ComesOut mayFail space scheduler holds action? status middle final)
      (.opened before) := by
  -- The phases leave the scheduler as it is.
  have unwritten : ∀ middle : Ledger, Chain mayFail before middle.calls middle.registry →
      (Ledger.opened before).Adds PassCall middle →
        middle.registry.find? .scheduler space scheduler.name = some scheduler := by
    rintro middle chain ⟨calls, made, permitted⟩
    rw [Ledger.calls_opened, List.nil_append] at made
    subst made
    exact (chain.find?_eq fun call member => place?_ne_scheduler (permitted call member)).trans
      stored
  rw [syncScheduler_eq settings now (Registry.isPlaced_of_find? stored).inSpace]
  refine Control.ensures_bind (Control.ensures_withDeadline
    (((ensured.and ((makes_step _ _ _).ensures_adds trivial)).and
      (Pass.ensures_chain _ _ before)).mono ?_ ?_))
  · rintro action status middle ⟨⟨held, _, adds⟩, chain⟩
    refine Control.Ensures.mono (ensures_settles (slotOf scheduler)
      (unwritten middle chain adds)) ?_ ?_
    · rintro action' final ⟨same, settled⟩
      obtain rfl := Except.ok.inj same
      exact ⟨status, middle, held, settled⟩
    · exact fun _ final settled => ⟨some action, status, middle, held, settled⟩
  · rintro halt status middle ⟨⟨held, whole, _, adds⟩, chain⟩
    have settles : ∀ error : PassError, (settle scheduler space (.error error, status)).Ensures
        mayFail
        (fun action final => ∃ status middle,
          ComesOut mayFail space scheduler holds (some action) status middle final)
        (fun _ final => ∃ action? status middle,
          ComesOut mayFail space scheduler holds action? status middle final) middle := by
      intro error
      refine Control.Ensures.mono (ensures_settles (slotOf scheduler)
      (unwritten middle chain adds)) ?_ ?_
      · rintro action final ⟨same, _⟩
        cases same
      · exact fun _ final settled => ⟨none, status, middle, held, settled⟩
    cases halt with
    | failed error => exact settles error
    | unanswered => exact settles _
    | broken message => cases whole

/-- How the turn of a stored scheduler comes out, by what its pass ensures. -/
theorem Turn.exists_comesOut {turn : Turn}
    (holds : Option Action → SchedulerStatus → Ledger → Prop) (runs : turn.Runs mayFail)
    (stored : turn.before.find? .scheduler space name = some turn.scheduler)
    (ensured : (step turn.scheduler turn.settings turn.now).Ensures mayFail
      (fun action => holds (some action)) (fun _ => holds none)
      (turn.scheduler.status.getD .initial) (.opened turn.before)) :
    ∃ action? status middle,
      ComesOut mayFail space turn.scheduler holds action? status middle turn.final ∧
        ∀ action, turn.result = .ok action → action? = some action := by
  obtain rfl : turn.scheduler.name = name := (Registry.isPlaced_of_find? stored).shownName_eq
  have outcome := Control.Ensures.settles (ensures_syncScheduler_comesOut stored ensured) runs
  cases result : turn.result with
  | ok action =>
      rw [result] at outcome
      obtain ⟨status, middle, comesOut⟩ := outcome
      refine ⟨some action, status, middle, comesOut, fun other same => ?_⟩
      exact congrArg some (Except.ok.inj same)
  | error halt =>
      rw [result] at outcome
      obtain ⟨action?, status, middle, comesOut⟩ := outcome
      exact ⟨action?, status, middle, comesOut, fun _ same => nomatch same⟩

/-- What may fail where statuses of schedulers may be lost, and nothing else. -/
def MayLoseStatus : Request → Prop
  | .replaceStatus .scheduler _ _ _ => True
  | _ => False

instance : DecidablePred MayLoseStatus := fun request =>
  match request with
  | .replaceStatus .scheduler _ _ _ => .isTrue trivial
  | .replaceStatus .pod _ _ _ | .replaceStatus .volumeClaim _ _ _
  | .replaceStatus .fullNode _ _ _ | .replaceStatus .volumeSnapshot _ _ _ => .isFalse id
  | .list .. | .get .. | .create .. | .delete .. | .patch .. | .publish _
  | .findDefinition _ => .isFalse id

/-! ## Interleaved turns -/

/-- A change that leaves the schedulers and the entry in a slot as they are. -/
structure Bypasses (slot : Slot) (before after : Registry) : Prop where
  sameSchedulers : ∀ space name,
    after.find? .scheduler space name = before.find? .scheduler space name
  sameEntry : slot.held? after = slot.held? before

/-- Turns of a scheduler, the latest first, and what the cluster holds after them. -/
inductive Interleaves (mayFail : Request → Prop) (space name : String) (slot : Slot)
    (start : Registry) : List Turn → Registry → Prop
  | start : Interleaves mayFail space name slot start [] start
  | schedulerPass {turns : List Turn} {turn : Turn}
      (earlier : Interleaves mayFail space name slot start turns turn.before)
      (stored : turn.before.find? .scheduler space name = some turn.scheduler)
      (runs : turn.Runs mayFail) :
      Interleaves mayFail space name slot start (turn :: turns) turn.final.registry
  | nodePass {turns : List Turn} {before : Registry} {node : FullNode} {settings : Settings}
      {now : Instant} {result : Except (Halt ControlError) Action} {final : Ledger}
      (earlier : Interleaves mayFail space name slot start turns before)
      (stored : before.find? .fullNode slot.space slot.nodeName = some node)
      (runs : (syncFullNode node settings now).Runs mayFail (.opened before) result final) :
      Interleaves mayFail space name slot start turns final.registry
  | toggle {turns : List Turn} {before after : Registry} {scheduler : Scheduler}
      {metadata : ObjectMeta} {suspended : Option Bool}
      (earlier : Interleaves mayFail space name slot start turns before)
      (stored : before.find? .scheduler space name = some scheduler)
      (sameCreation : metadata.creationTimestamp = scheduler.metadata.creationTimestamp)
      (sets : before.Sets .scheduler space name (some { scheduler with
        metadata := metadata
        spec := { scheduler.spec with suspend := suspended } }) after) :
      Interleaves mayFail space name slot start turns after
  | progress {turns : List Turn} {before after : Registry}
      (earlier : Interleaves mayFail space name slot start turns before)
      (progresses : Progresses before after) :
      Interleaves mayFail space name slot start turns after

/-- A scheduler is another one that may have been suspended or let go on, and whose status
may have changed. -/
structure Continues (first scheduler : Scheduler) : Prop where
  slot_eq : slotOf scheduler = slotOf first
  schedule : scheduler.spec.schedule = first.spec.schedule
  createdAt : scheduler.metadata.creationTimestamp = first.metadata.creationTimestamp

theorem bypasses_of_progresses (slot : Slot) (progresses : Progresses before after) :
    Bypasses slot before after :=
  ⟨progresses.sameSchedulers, (progresses.leaves slot).entry⟩

theorem bypasses_of_nodePass {node : FullNode} {settings : Settings} {now : Instant}
    {result : Except (Halt ControlError) Action}
    (stored : before.find? .fullNode slot.space slot.nodeName = some node)
    (runs : (syncFullNode node settings now).Runs mayFail (.opened before) result final) :
    Bypasses slot before final.registry where
  sameSchedulers := (syncCourse_of_runs runs).find?_scheduler_eq (Program.Runs.chain runs)
  sameEntry := by
    have leaves : slot.Leaves before final.registry :=
      Control.EnsuresAlways.of_runs (ensures_syncFullNode_leaves settings stored) runs
    exact leaves.entry

/-- A stored scheduler goes on from the status that a pass has left, or the status of the
pass was lost. -/
theorem Settled.exists_latest
    (settled : Settled mayFail slot space scheduler status middle final)
    (stored : before.find? .scheduler space scheduler.name = some scheduler)
    (continues : Continues first scheduler) :
    ∃ latest, final.registry.find? .scheduler space scheduler.name = some latest ∧
      Continues first latest ∧
      (Akin status (latest.status.getD .initial) ∧
          (latest.status.getD .initial).phase = status.phase ∨
        latest = scheduler ∧
          (scheduler.name = "" ∨ ∃ request, RecordingCall request ∧ mayFail request)) := by
  cases settled.settles with
  | recorded version message found =>
      refine ⟨_, found, ⟨?_, continues.schedule, continues.createdAt⟩, Or.inl ⟨⟨rfl, rfl⟩, rfl⟩⟩
      have same := slotOf_congr (Registry.isPlaced_of_find? stored)
        (Registry.isPlaced_of_find? found) rfl
      exact same.trans continues.slot_eq
  | lost found cause => exact ⟨scheduler, found, continues, Or.inr ⟨rfl, cause⟩⟩

/-- The scheduler stored at the end, of whose status and whose entry a statement holds. -/
def Stays (space name : String) (first : Scheduler)
    (holds : SchedulerStatus → Option String → Prop) (registry : Registry) : Prop :=
  ∃ scheduler, registry.find? .scheduler space name = some scheduler ∧
    Continues first scheduler ∧
    holds (scheduler.status.getD .initial) ((slotOf first).held? registry)

/-- What every turn of the scheduler keeps of its status and its entry, all interleavings
keep. -/
theorem Interleaves.stays {turns : List Turn}
    (holds : List Turn → SchedulerStatus → Option String → Prop)
    (interleaves : Interleaves mayFail space name (slotOf first) start turns after)
    (begun : start.find? .scheduler space name = some first)
    (fresh : holds [] (first.status.getD .initial) ((slotOf first).held? start))
    (kept : ∀ (turn : Turn) (turns : List Turn),
      Interleaves mayFail space name (slotOf first) start turns turn.before →
      turn.before.find? .scheduler space name = some turn.scheduler → turn.Runs mayFail →
      Continues first turn.scheduler →
      holds turns (turn.scheduler.status.getD .initial) ((slotOf first).held? turn.before) →
        Stays space name first (holds (turn :: turns)) turn.final.registry) :
    Stays space name first (holds turns) after := by
  induction interleaves with
  | start => exact ⟨first, begun, ⟨rfl, rfl, rfl⟩, fresh⟩
  | @schedulerPass turns turn earlier stored runs inductionHypothesis =>
      obtain ⟨scheduler, found, continues, held⟩ := inductionHypothesis
      obtain rfl := Option.some.inj (stored.symm.trans found)
      exact kept turn turns earlier stored runs continues held
  | nodePass earlier stored runs inductionHypothesis =>
      obtain ⟨scheduler, found, continues, held⟩ := inductionHypothesis
      have bypasses := bypasses_of_nodePass stored runs
      exact ⟨scheduler, (bypasses.sameSchedulers _ _).trans found, continues,
        bypasses.sameEntry ▸ held⟩
  | toggle earlier stored sameCreation sets inductionHypothesis =>
      obtain ⟨scheduler, found, continues, held⟩ := inductionHypothesis
      obtain rfl := Option.some.inj (stored.symm.trans found)
      refine ⟨_, sets.here, ⟨Eq.trans ?_ continues.slot_eq, continues.schedule,
        sameCreation.trans continues.createdAt⟩, ?_⟩
      · exact slotOf_congr (Registry.isPlaced_of_find? stored)
          (Registry.isPlaced_of_find? sets.here) rfl
      · rw [Slot.held?_eq_of_sets sets (by decide)]
        exact held
  | progress earlier progresses inductionHypothesis =>
      obtain ⟨scheduler, found, continues, held⟩ := inductionHypothesis
      have bypasses := bypasses_of_progresses (slotOf first) progresses
      exact ⟨scheduler, (bypasses.sameSchedulers _ _).trans found, continues,
        bypasses.sameEntry ▸ held⟩

/-- A scheduler stays stored, whatever happens. -/
theorem Interleaves.exists_stored {turns : List Turn}
    (interleaves : Interleaves mayFail space name (slotOf first) start turns after)
    (begun : start.find? .scheduler space name = some first) :
    ∃ scheduler, after.find? .scheduler space name = some scheduler ∧
      Continues first scheduler := by
  obtain ⟨scheduler, found, continues, _⟩ := interleaves.stays (fun _ _ _ => True) begun trivial
    fun turn turns earlier stored runs continues _ => by
      obtain ⟨_, status, middle, comesOut, _⟩ := turn.exists_comesOut (fun _ _ _ => True) runs
        stored ((Pass.ensures_chain _ _ _).mono (fun _ _ _ _ => trivial) fun _ _ _ _ => trivial)
      obtain rfl : turn.scheduler.name = name :=
        (Registry.isPlaced_of_find? stored).shownName_eq
      obtain ⟨latest, found, continuesLatest, _⟩ :=
        comesOut.settled.exists_latest stored continues
      exact ⟨latest, found, continuesLatest, trivial⟩
  exact ⟨scheduler, found, continues⟩

/-! ## Turns of an example -/

/-- Whether a turn ends with nothing to wait for but a change. -/
def Turn.comesToRest (turn : Turn) : Bool :=
  match turn.result with
  | .ok .awaitChange => true
  | _ => false

theorem Turn.result_eq_of_comesToRest {turn : Turn} (rests : turn.comesToRest = true) :
    turn.result = .ok .awaitChange := by
  unfold Turn.comesToRest at rests
  split at rests
  · assumption
  · cases rests

section Example

variable {registry : Registry} {turns : List Turn} {fails : Request → Bool}

/-- The turn of a scheduler of a cluster where some calls fail. -/
def turnAt (name : String) (now : Instant) (fails : Request → Bool) (registry : Registry) :
    Turn :=
  let scheduler := (registry.find? .scheduler "default" name).getD hourly
  let outcome := (syncScheduler scheduler .standard now).run.run (Program.serve fails)
    (Ledger.opened registry)
  { scheduler := scheduler, settings := .standard, now := now, before := registry
    result := outcome.1, final := outcome.2 }

theorem runs_turnAt (may : ∀ request, fails request = true → mayFail request) (name : String)
    (now : Instant) (registry : Registry) : (turnAt name now fails registry).Runs mayFail :=
  Program.runs_run may _ _

theorem Interleaves.find?_turnAt
    (interleaves : Interleaves mayFail "default" name (slotOf first) start turns registry)
    (begun : start.find? .scheduler "default" name = some first) (now : Instant)
    (fails : Request → Bool) :
    (turnAt name now fails registry).before.find? .scheduler "default" name =
      some (turnAt name now fails registry).scheduler := by
  obtain ⟨scheduler, found, _⟩ := interleaves.exists_stored begun
  simp [turnAt, found]

theorem Interleaves.turnAt
    (interleaves : Interleaves mayFail "default" name (slotOf first) start turns registry)
    (begun : start.find? .scheduler "default" name = some first)
    (may : ∀ request, fails request = true → mayFail request) (now : Instant) :
    Interleaves mayFail "default" name (slotOf first) start
      (turnAt name now fails registry :: turns)
      (turnAt name now fails registry).final.registry :=
  .schedulerPass interleaves (interleaves.find?_turnAt begun now fails)
    (runs_turnAt may name now registry)

theorem Interleaves.suspended
    (interleaves : Interleaves mayFail "default" "hourly" (slotOf first) start turns registry)
    (begun : start.find? .scheduler "default" "hourly" = some first) (suspend : Bool) :
    Interleaves mayFail "default" "hourly" (slotOf first) start turns
      (suspended suspend registry) := by
  obtain ⟨scheduler, found, _⟩ := interleaves.exists_stored begun
  have same : heldScheduler registry = scheduler := by simp [heldScheduler, found]
  have placed := Registry.isPlaced_of_find? found
  unfold Snapshot.suspended
  rw [same]
  exact interleaves.toggle found rfl (registry.sets_put ⟨placed.named, placed.inSpace⟩)

def asReady (snapshot : VolumeSnapshot) : VolumeSnapshot :=
  { snapshot with status := some { SnapshotStatus.empty with readyToUse := some true } }

/-- The cluster once a snapshot is ready. -/
def readied (name : String) (registry : Registry) : Registry :=
  match registry.find? .volumeSnapshot "default" name with
  | none => registry
  | some snapshot => registry.put .volumeSnapshot "default" name (asReady snapshot)

theorem progresses_readied (snapshotName : String) (registry : Registry) :
    Progresses registry (readied snapshotName registry) := by
  unfold readied
  split
  · exact ⟨fun _ _ => rfl, fun _ _ => rfl, fun _ _ absent => absent⟩
  · rename_i snapshot found
    obtain ⟨named, inSpace⟩ := Registry.isPlaced_of_find? found
    have placed : Kind.volumeSnapshot.IsPlaced "default" snapshotName (asReady snapshot) :=
      ⟨named, inSpace⟩
    have sets := registry.sets_put placed
    refine ⟨sets.find?_eq_of_ne (by decide), sets.find?_eq_of_ne (by decide),
      fun space name absent => ?_⟩
    rw [sets.find?_eq_of_ne (by decide)]
    exact absent

/-- The cluster once its pod has another status. -/
def restated (status : Option PodStatus) (registry : Registry) : Registry :=
  match registry.find? .pod "default" "cosmoshub-0" with
  | none => registry
  | some pod => registry.put .pod "default" "cosmoshub-0" { (pod : Pod) with status := status }

theorem progresses_restated (status : Option PodStatus) (registry : Registry) :
    Progresses registry (restated status registry) := by
  unfold restated
  split
  · exact ⟨fun _ _ => rfl, fun _ _ => rfl, fun _ _ absent => absent⟩
  · rename_i pod found
    obtain ⟨named, inSpace⟩ := Registry.isPlaced_of_find? found
    have placed : Kind.pod.IsPlaced "default" "cosmoshub-0"
        { (pod : Pod) with status := status } := ⟨named, inSpace⟩
    have sets := registry.sets_put placed
    refine ⟨sets.find?_eq_of_ne (by decide), sets.find?_eq_of_ne (by decide),
      fun space name absent => ?_⟩
    rw [sets.elsewhere .pod space name fun same => ?_]
    · exact absent
    · obtain ⟨rfl, rfl⟩ : space = "default" ∧ name = "cosmoshub-0" := by simpa using same
      exact nomatch found.symm.trans absent

end Example

end NodeFleet.Snapshot
