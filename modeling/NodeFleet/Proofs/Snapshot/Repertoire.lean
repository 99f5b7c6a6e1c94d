import NodeFleet.Proofs.Store.Repertoire
import NodeFleet.Snapshot.Sync

/-!
# The repertoire of a scheduler

A scheduler reads what it likes.  It writes little: it creates and deletes
snapshots, deletes pods, and replaces the statuses of full nodes and schedulers.
Most phases do not rely on the pod being down, and lead only to such phases.
-/

namespace NodeFleet.Snapshot

open Calendar Resource Store

/-- The calls of the passes of a scheduler, but those that create snapshots. -/
def QuietCall : Request → Prop
  | .list .. | .get .. | .publish _ | .findDefinition _ => True
  | .delete .volumeSnapshot _ _ | .delete .pod _ _ => True
  | .replaceStatus .fullNode _ _ _ => True
  | _ => False

/-- The calls that write nothing. -/
def ReadingCall : Request → Prop
  | .list .. | .get .. | .publish _ | .findDefinition _ => True
  | _ => False

/-- The calls that delete snapshots. -/
def PruningCall : Request → Prop
  | .list .volumeSnapshot _ _ | .delete .volumeSnapshot _ _ | .publish _ => True
  | _ => False

/-- The call that creates a snapshot. -/
def CreatingCall : Request → Prop
  | .create .volumeSnapshot _ _ => True
  | _ => False

instance : DecidablePred CreatingCall := fun request =>
  match request with
  | .create .volumeSnapshot _ _ => .isTrue trivial
  | .create .pod _ _ | .create .volumeClaim _ _ | .create .fullNode _ _
  | .create .scheduler _ _ => .isFalse id
  | .list .. | .get .. | .delete .. | .patch .. | .replaceStatus .. | .publish _
  | .findDefinition _ => .isFalse id

/-- The calls by which a controller of schedulers ends. -/
def SettlingCall : Request → Prop
  | .get .scheduler _ _ | .replaceStatus .scheduler _ _ _ | .publish _ => True
  | _ => False

/-- The calls that the passes of a scheduler may make. -/
def PassCall (request : Request) : Prop := QuietCall request ∨ CreatingCall request

/-- The calls that a scheduler may make. -/
def SchedulerCall (request : Request) : Prop := PassCall request ∨ SettlingCall request

theorem ReadingCall.quiet {request : Request} (reads : ReadingCall request) :
    QuietCall request := by
  cases request with
  | list kind space selector | get kind space name | publish event | findDefinition kind =>
      trivial
  | _ => cases reads

theorem PruningCall.quiet {request : Request} (prunes : PruningCall request) :
    QuietCall request := by
  cases request with
  | list kind space selector | publish event => trivial
  | delete kind space name =>
      cases kind with
      | volumeSnapshot => trivial
      | _ => cases prunes
  | _ => cases prunes

theorem not_creatingCall {request : Request} (quiet : QuietCall request) :
    ¬ CreatingCall request := by
  intro creating
  cases request with
  | create kind space object =>
      cases kind with
      | volumeSnapshot => exact quiet
      | _ => exact creating
  | _ => exact creating

/-- The passes of a scheduler change snapshots and pods, and renew statuses of full nodes. -/
theorem PassCall.place_cases {request : Request} {kind : Kind} {space name : String}
    (permitted : PassCall request) (aimed : request.place? = some (kind, space, name)) :
    kind = .volumeSnapshot ∨ kind = .pod ∨ kind = .fullNode ∧
      ∃ written, request = .replaceStatus .fullNode space name written := by
  rcases permitted with quiet | creating
  · cases request with
    | replaceStatus kind' space' name' written =>
        cases kind' with
        | fullNode =>
            obtain ⟨rfl, rfl, rfl⟩ : Kind.fullNode = kind ∧ space' = space ∧ name' = name := by
              simpa [Request.place?] using aimed
            exact Or.inr (Or.inr ⟨rfl, written, rfl⟩)
        | _ => cases quiet
    | delete kind' space' name' =>
        cases kind' with
        | volumeSnapshot => exact Or.inl (congrArg Prod.fst (Option.some.inj aimed)).symm
        | pod => exact Or.inr (Or.inl (congrArg Prod.fst (Option.some.inj aimed)).symm)
        | _ => cases quiet
    | create kind' space' object => cases quiet
    | patch kind' space' name' change => cases quiet
    | _ => cases aimed
  · cases request with
    | create kind' space' object =>
        cases kind' with
        | volumeSnapshot => exact Or.inl (congrArg Prod.fst (Option.some.inj aimed)).symm
        | _ => cases creating
    | _ => cases creating

/-- Whether a phase relies on the pod of the candidate being held down. -/
def reliesOnHold : SnapshotPhase → Bool
  | .waitingForPodDeletion | .creatingSnapshot => true
  | _ => false

/-- What is kept by every change of a status to a phase that does not rely on a held pod,
and by every change that leaves the phase. -/
def Lenient (holds : SchedulerStatus → Prop) : Prop :=
  ∀ before after : SchedulerStatus,
    after.phase = before.phase ∨ reliesOnHold after.phase = false → holds before → holds after

theorem lenient_true : Lenient fun _ => True := fun _ _ _ _ => trivial

theorem lenient_calm : Lenient fun status => reliesOnHold status.phase = false := by
  rintro before after (same | calm) calmBefore
  · rw [same]
    exact calmBefore
  · exact calm

variable {σ : Type} {allowed : Request → Prop} {holds : SchedulerStatus → Prop}
  {keeps : σ → Prop}

theorem makes_enter (lenient : Lenient holds) {phase : SnapshotPhase} (message : Option String)
    (calm : reliesOnHold phase = false) : (enter phase message).Makes allowed holds :=
  Pass.makes_modify fun status => lenient status _ (Or.inr calm)

theorem makes_turnTo (lenient : Lenient holds) {phase : SnapshotPhase}
    (calm : reliesOnHold phase = false) : (turnTo phase).Makes allowed holds :=
  Pass.makes_modify fun status => lenient status _ (Or.inr calm)

theorem makes_report (lenient : Lenient holds) (message : String) :
    (report message).Makes allowed holds :=
  Pass.makes_modify fun status => lenient status _ (Or.inl rfl)

theorem makes_requireCandidate : requireCandidate.Makes allowed holds := by
  refine Pass.makes_bind Pass.makes_state fun status => ?_
  split
  · exact Pass.makes_pure _
  · exact Pass.makes_throw rfl

theorem makes_requireSpace (scheduler : Scheduler) :
    (requireSpace scheduler : Pass σ String).Makes allowed keeps :=
  Pass.makes_orUnrecoverable _ _

theorem makes_orScheduleFault {α : Type} (result : Except Cron.ScheduleError α) :
    (orScheduleFault result : Pass σ α).Makes allowed keeps := by
  unfold orScheduleFault
  split
  · exact Pass.makes_pure _
  · exact Pass.makes_throw rfl

theorem makes_isPending (lenient : Lenient holds) (scheduler : Scheduler) :
    (isPending scheduler).Makes ReadingCall holds := by
  refine Pass.makes_bind Pass.makes_state fun status => ?_
  split
  · exact Pass.makes_pure _
  split
  · exact Pass.makes_pure _
  refine Pass.makes_bind (makes_requireSpace scheduler) fun space => ?_
  refine Pass.makes_bind (Pass.makes_attempt (Exchange.makes_get? trivial)) fun snapshot => ?_
  split
  · exact Pass.makes_pure _
  · exact Pass.makes_bind (Pass.makes_modify fun status => lenient status _ (Or.inl rfl)) fun _ =>
      Pass.makes_pure _

theorem makes_timeToNext (lenient : Lenient holds) (scheduler : Scheduler) (now : Instant)
    (poll : Duration) : (timeToNext scheduler now poll).Makes ReadingCall holds := by
  refine Pass.makes_bind (makes_orScheduleFault _) fun schedule => ?_
  refine Pass.makes_bind (makes_isPending lenient scheduler) fun pending => ?_
  split
  · exact Pass.makes_pure _
  · exact Pass.makes_bind Pass.makes_state fun status => makes_orScheduleFault _

theorem makes_findCandidate (node : FullNode) (minAvailable : Nat) (pin : Option Int) :
    (findCandidate node minAvailable pin : Pass σ Candidate).Makes ReadingCall keeps := by
  refine Pass.makes_bind (Pass.makes_orUnrecoverable _ _) fun space => ?_
  refine Pass.makes_bind (Pass.makes_attempt (Exchange.makes_list trivial)) fun pods => ?_
  split
  · exact Pass.makes_pure _
  · exact Pass.makes_throw rfl

theorem makes_deleteEach (space : String) (names : List String) :
    (deleteEach space names : Pass σ _).Makes PruningCall keeps := by
  induction names with
  | nil => exact Pass.makes_pure _
  | cons name names inductionHypothesis =>
      refine Pass.makes_bind (Pass.makes_perform (Exchange.makes_delete trivial)) fun result => ?_
      refine Pass.makes_bind inductionHypothesis fun rest => ?_
      obtain ⟨deleted, errors⟩ := rest
      cases result <;> exact Pass.makes_pure _

theorem makes_prune (space selector : String) (limit : Nat) :
    (prune space selector limit : Pass σ _).Makes PruningCall keeps := by
  refine Pass.makes_bind (Pass.makes_attempt (Exchange.makes_list trivial)) fun snapshots => ?_
  refine Pass.makes_bind (makes_deleteEach space _) fun outcome => ?_
  obtain ⟨deleted, errors⟩ := outcome
  dsimp only
  split
  · exact Pass.makes_pure _
  · exact Pass.makes_throw rfl

namespace Round

variable (round : Round)

theorem makes_hold (pod : Option String) :
    (round.hold pod : Pass σ Unit).Makes QuietCall keeps := by
  refine Pass.makes_bind (Pass.makes_attempt (Exchange.makes_get? trivial)) fun node => ?_
  split
  · exact Pass.makes_bind (Pass.makes_attempt
      (Exchange.makes_updateStatus trivial fun _ => trivial)) fun _ => Pass.makes_pure _
  · split
    · exact Pass.makes_throw rfl
    · exact Pass.makes_pure _

theorem makes_hasPod (name : String) : (round.hasPod name : Pass σ Bool).Makes ReadingCall keeps :=
  Pass.makes_bind (Pass.makes_attempt (Exchange.makes_get? trivial)) fun _ => Pass.makes_pure _

/-! ## Phases that do not rely on a held pod -/

theorem makes_awaitNext (lenient : Lenient holds) : round.awaitNext.Makes ReadingCall holds := by
  refine Pass.makes_bind (makes_timeToNext lenient _ _ _) fun wait => ?_
  split
  · exact Pass.makes_bind (makes_enter lenient _ rfl) fun _ => Pass.makes_pure _
  · exact Pass.makes_bind (makes_report lenient _) fun _ => Pass.makes_pure _

theorem makes_chooseCandidate (lenient : Lenient holds) :
    round.chooseCandidate.Makes ReadingCall holds := by
  refine Pass.makes_bind (Pass.makes_attempt (Exchange.makes_get? trivial)) fun node => ?_
  split
  · exact Pass.makes_throw rfl
  · refine Pass.makes_bind (makes_findCandidate _ _ _) fun candidate => ?_
    exact Pass.makes_bind (Pass.makes_modify fun status => lenient status _ (Or.inr rfl)) fun _ =>
      Pass.makes_pure _

theorem makes_awaitSnapshot (lenient : Lenient holds) :
    round.awaitSnapshot.Makes ReadingCall holds := by
  refine Pass.makes_bind Pass.makes_state fun status => ?_
  split
  · exact Pass.makes_bind (makes_turnTo lenient rfl) fun _ => Pass.makes_pure _
  refine Pass.makes_bind (Pass.makes_attempt (Exchange.makes_get? trivial)) fun snapshot => ?_
  split
  · exact Pass.makes_bind (makes_turnTo lenient rfl) fun _ => Pass.makes_pure _
  refine Pass.makes_bind (Pass.makes_modify fun status => lenient status _ (Or.inl rfl)) fun _ => ?_
  split
  · refine Pass.makes_bind (Pass.makes_modify fun status => lenient status _ (Or.inl rfl))
      fun _ => ?_
    exact Pass.makes_bind (makes_enter lenient _ rfl) fun _ => Pass.makes_pure _
  · exact Pass.makes_bind (makes_report lenient _) fun _ => Pass.makes_pure _

theorem makes_pruneSnapshots : (round.pruneSnapshots : Pass σ Unit).Makes PruningCall keeps :=
  Pass.makes_bind (makes_prune _ _ _) fun _ =>
    Pass.makes_forM _ fun _ _ => Pass.makes_notify trivial

theorem makes_restorePod (lenient : Lenient holds) : round.restorePod.Makes QuietCall holds := by
  refine Pass.makes_bind Pass.makes_state fun status => ?_
  split
  · exact Pass.makes_bind (makes_turnTo lenient rfl) fun _ => Pass.makes_pure _
  refine Pass.makes_bind (round.makes_hold _) fun _ => ?_
  refine Pass.makes_bind ((round.makes_hasPod _).mono fun _ => ReadingCall.quiet) fun present => ?_
  split
  · refine Pass.makes_bind (Pass.makes_modify fun status => lenient status _ (Or.inl rfl))
      fun _ => ?_
    refine Pass.makes_bind (makes_enter lenient _ rfl) fun _ => ?_
    exact Pass.makes_bind (round.makes_pruneSnapshots.mono fun _ => PruningCall.quiet) fun _ =>
      Pass.makes_pure _
  · exact Pass.makes_bind (makes_enter lenient _ rfl) fun _ => Pass.makes_pure _

theorem makes_turn_of_calm (lenient : Lenient holds) {phase : SnapshotPhase}
    (calm : reliesOnHold phase = false) (idle : phase ≠ .deletingPod) :
    (round.turn phase).Makes QuietCall holds := by
  cases phase with
  | waitingForNext => exact (round.makes_awaitNext lenient).mono fun _ => ReadingCall.quiet
  | findingCandidate =>
      exact (round.makes_chooseCandidate lenient).mono fun _ => ReadingCall.quiet
  | deletingPod => exact absurd rfl idle
  | waitingForPodDeletion => cases calm
  | creatingSnapshot => cases calm
  | waitingForSnapshotCreation =>
      exact (round.makes_awaitSnapshot lenient).mono fun _ => ReadingCall.quiet
  | restoringPod => exact round.makes_restorePod lenient
  | suspended => exact Pass.makes_bind (makes_turnTo lenient rfl) fun _ => Pass.makes_pure _
  | missingDefinition =>
      exact Pass.makes_bind (makes_turnTo lenient rfl) fun _ => Pass.makes_pure _

/-! ## The other phases and whole passes -/

theorem makes_deletePod : round.deletePod.Makes QuietCall fun _ => True := by
  refine Pass.makes_bind Pass.makes_state fun status => ?_
  split
  · exact Pass.makes_bind (makes_turnTo lenient_true rfl) fun _ => Pass.makes_pure _
  · refine Pass.makes_bind (round.makes_hold _) fun _ => ?_
    refine Pass.makes_bind (Pass.makes_attempt (Exchange.makes_delete trivial)) fun _ => ?_
    refine Pass.makes_bind (Pass.makes_notify trivial) fun _ => ?_
    exact Pass.makes_bind (Pass.makes_modify fun _ _ => trivial) fun _ => Pass.makes_pure _

theorem makes_awaitPodDeletion : round.awaitPodDeletion.Makes ReadingCall fun _ => True := by
  refine Pass.makes_bind makes_requireCandidate fun candidate => ?_
  refine Pass.makes_bind (round.makes_hasPod _) fun present => ?_
  split
  · exact Pass.makes_bind (makes_report lenient_true _) fun _ => Pass.makes_pure _
  · exact Pass.makes_bind (Pass.makes_modify fun _ _ => trivial) fun _ => Pass.makes_pure _

/-- The calls by which a snapshot of the volume of a candidate is taken. -/
def TakingCall (request : Request) : Prop :=
  ReadingCall request ∨
    ∃ candidate, request = .create .volumeSnapshot round.space (round.newSnapshot candidate)

theorem permitted_of_taking {request : Request} (takes : round.TakingCall request) :
    PassCall request := by
  rcases takes with reads | ⟨candidate, rfl⟩
  · exact Or.inl reads.quiet
  · exact Or.inr trivial

theorem makes_takeSnapshot (candidate : Candidate) :
    (round.takeSnapshot candidate : Pass σ _).Makes round.TakingCall keeps := by
  refine Pass.makes_bind (Pass.makes_bind
    (Pass.makes_attempt (Exchange.makes_list (Or.inl trivial))) fun _ => Pass.makes_pure _)
    fun snapshot => ?_
  split
  · exact Pass.makes_pure _
  · refine Pass.makes_bind (Pass.makes_attempt (Exchange.makes_create (Or.inr ⟨_, rfl⟩)))
      fun _ => ?_
    exact Pass.makes_bind (Pass.makes_notify (Or.inl trivial)) fun _ => Pass.makes_pure _

theorem makes_createSnapshot : round.createSnapshot.Makes round.TakingCall fun _ => True := by
  refine Pass.makes_bind makes_requireCandidate fun candidate => ?_
  refine Pass.makes_bind (round.makes_takeSnapshot candidate) fun snapshot => ?_
  refine Pass.makes_bind (Pass.makes_orUnrecoverable _ _) fun startedAt => ?_
  exact Pass.makes_bind (Pass.makes_modify fun _ _ => trivial) fun _ => Pass.makes_pure _

theorem makes_turn (phase : SnapshotPhase) :
    (round.turn phase).Makes PassCall fun _ => True := by
  by_cases calm : reliesOnHold phase = false ∧ phase ≠ .deletingPod
  · exact (round.makes_turn_of_calm lenient_true calm.1 calm.2).mono fun _ => Or.inl
  cases phase with
  | deletingPod => exact round.makes_deletePod.mono fun _ => Or.inl
  | waitingForPodDeletion =>
      exact round.makes_awaitPodDeletion.mono fun _ reads => Or.inl reads.quiet
  | creatingSnapshot =>
      exact round.makes_createSnapshot.mono fun _ => round.permitted_of_taking
  | _ => exact absurd ⟨rfl, fun same => nomatch same⟩ calm

theorem makes_advance (limit : Nat) : (round.advance limit).Makes PassCall fun _ => True := by
  induction limit with
  | zero => exact Pass.makes_pure _
  | succ limit inductionHypothesis =>
      refine Pass.makes_bind Pass.makes_state fun status => ?_
      refine Pass.makes_bind (round.makes_turn _) fun next => ?_
      split
      · exact inductionHypothesis
      · exact Pass.makes_pure _

/-- What a suspended pass does once its pod is handed back. -/
def afterRestoring (next : Next) : Pass SchedulerStatus Action :=
  match next with
  | .wait after => return .requeue after
  | .proceed => do
      enter .suspended none
      return .awaitChange

theorem suspend_eq :
    round.suspend = (do
      let status ← get
      if status.candidate.isSome then round.restorePod >>= afterRestoring
      else pure .proceed >>= afterRestoring) := by
  unfold suspend
  refine bind_congr fun status => ?_
  split <;> rfl

theorem makes_afterRestoring (lenient : Lenient holds) (next : Next) :
    (afterRestoring next).Makes QuietCall holds := by
  cases next with
  | wait after => exact Pass.makes_pure _
  | proceed => exact Pass.makes_bind (makes_enter lenient _ rfl) fun _ => Pass.makes_pure _

theorem makes_suspend (lenient : Lenient holds) : round.suspend.Makes QuietCall holds := by
  rw [suspend_eq]
  refine Pass.makes_bind Pass.makes_state fun status => ?_
  split
  · exact Pass.makes_bind (round.makes_restorePod lenient) (makes_afterRestoring lenient)
  · exact Pass.makes_bind (Pass.makes_pure _) (makes_afterRestoring lenient)

theorem makes_resume : round.resume.Makes PassCall fun _ => True := by
  refine Pass.makes_bind Pass.makes_state fun status => ?_
  split
  · exact Pass.makes_bind (makes_turnTo lenient_true rfl) fun _ => round.makes_advance _
  · exact round.makes_advance _

end Round

theorem makes_requireDefinition (lenient : Lenient holds) :
    requireDefinition.Makes QuietCall holds := by
  refine Pass.makes_bind (Pass.makes_attempt (Exchange.makes_isDefined trivial)) fun known => ?_
  split
  · refine Pass.makes_bind Pass.makes_state fun status => ?_
    split
    · exact makes_turnTo lenient rfl
    · exact Pass.makes_pure _
  · exact Pass.makes_bind (makes_turnTo lenient rfl) fun _ => Pass.makes_throw rfl

theorem makes_step (scheduler : Scheduler) (settings : Settings) (now : Instant) :
    (step scheduler settings now).Makes PassCall fun _ => True := by
  refine Pass.makes_bind ((makes_requireDefinition lenient_true).mono fun _ => Or.inl) fun _ => ?_
  refine Pass.makes_bind (makes_requireSpace scheduler) fun space => ?_
  split
  · exact (Round.makes_suspend _ lenient_true).mono fun _ => Or.inl
  · exact Round.makes_resume _

/-! ## The controller -/

def conclude (result : Except PassError Action) : Control Action :=
  match result with
  | .ok action => return action
  | .error error => Control.failPass error

theorem makes_conclude (result : Except PassError Action) :
    (conclude result).Makes SettlingCall := by
  cases result with
  | ok action => exact Control.makes_pure _
  | error error => exact Control.makes_failPass _ fun _ => trivial

def settle (scheduler : Scheduler) (space : String)
    (outcome : Except PassError Action × SchedulerStatus) : Control Action := do
  let status := recordOutcome scheduler.metadata.generation outcome.1 outcome.2
  let _ ← Control.attempt <| Exchange.updateStatus .scheduler space scheduler.name
    fun (latest : Scheduler) => { latest with status := some status }
  conclude outcome.1

theorem makes_settle (scheduler : Scheduler) (space : String)
    (outcome : Except PassError Action × SchedulerStatus) :
    (settle scheduler space outcome).Makes SettlingCall :=
  Control.makes_bind (Control.makes_attempt
    (Exchange.makes_updateStatus trivial fun _ => trivial)) fun _ => makes_conclude _

theorem syncScheduler_eq {scheduler : Scheduler} {space : String} (settings : Settings)
    (now : Instant) (inSpace : scheduler.metadata.namespaceName = some space) :
    syncScheduler scheduler settings now =
      Control.withDeadline settings.passTimeout (step scheduler settings now)
        (scheduler.status.getD .initial) >>= settle scheduler space := by
  unfold syncScheduler
  rw [inSpace]
  rfl

theorem makes_syncScheduler (scheduler : Scheduler) (settings : Settings) (now : Instant) :
    (syncScheduler scheduler settings now).Makes SchedulerCall := by
  cases inSpace : scheduler.metadata.namespaceName with
  | none =>
      unfold syncScheduler
      rw [inSpace]
      exact Control.makes_throw _
  | some space =>
      rw [syncScheduler_eq settings now inSpace]
      refine Control.makes_bind (Control.makes_withDeadline
        ((makes_step _ _ _).mono fun _ => Or.inl) trivial) fun outcome => ?_
      exact (makes_settle scheduler space outcome).mono (fun _ => Or.inr) fun _ _ => trivial

end NodeFleet.Snapshot
