import NodeFleet.Proofs.Snapshot.Quiescence
import NodeFleet.Proofs.Store.Conduct

/-!
# Passes by their phases

What each phase of a pass carries on to the next holds, in its final form, when the pass is
over.  So the statement of a whole pass is reduced to one for each phase.  What holds of every
call of a phase is reduced further, to the few things that phases do.
-/

namespace NodeFleet.Snapshot

open Calendar Resource Store

variable {mayFail : Request → Prop} {status : SchedulerStatus} {ledger : Ledger}
  {onward finished : SchedulerStatus → Ledger → Prop}

/-- The phases of a scheduler that is about nothing. -/
def isDormant : SnapshotPhase → Bool
  | .waitingForNext | .suspended | .missingDefinition => true
  | _ => false

/-- What is to hold when a phase is over, by whether the pass goes on. -/
def Next.leads (onward finished : SchedulerStatus → Ledger → Prop) :
    Next → SchedulerStatus → Ledger → Prop
  | .proceed => onward
  | .wait _ => finished

/-- What follows both where the pass goes on and where it does not leads on. -/
theorem ensures_leads {pass : Pass SchedulerStatus Next}
    {done : Next → SchedulerStatus → Ledger → Prop}
    {halted : Halt PassError → SchedulerStatus → Ledger → Prop}
    (ensured : pass.Ensures mayFail done halted status ledger)
    (proceeds : ∀ status' final, done .proceed status' final → onward status' final)
    (waits : ∀ delay status' final, done (.wait delay) status' final → finished status' final)
    (halts : ∀ halt status' final, halted halt status' final → finished status' final) :
    pass.Ensures mayFail (Next.leads onward finished) (fun _ => finished) status ledger := by
  apply ensured.mono _ halts
  intro next status' final holds
  cases next with
  | proceed => exact proceeds status' final holds
  | wait delay => exact waits delay status' final holds

namespace Round

/-- Every phase of a pass carries a statement on to the next, and leaves another one when it
is the last. -/
structure Carries (mayFail : Request → Prop) (round : Round)
    (onward finished : SchedulerStatus → Ledger → Prop) : Prop where
  turn : ∀ {status ledger}, round.scheduler.isSuspended = false → onward status ledger →
    (round.turn status.phase).Ensures mayFail (Next.leads onward finished) (fun _ => finished)
      status ledger
  restore : ∀ {status ledger}, round.scheduler.isSuspended = true →
    status.candidate.isSome = true → onward status ledger → round.restorePod.Ensures mayFail
      (Next.leads onward finished) (fun _ => finished) status ledger
  ends : ∀ {status ledger}, onward status ledger → finished status ledger
  idles : ∀ {status : SchedulerStatus} {ledger phase message},
    isDormant status.phase = true ∨ round.scheduler.isSuspended = true → isDormant phase = true →
      onward status ledger →
        onward { status with phase := phase, statusMessage := message } ledger

variable {round : Round}

theorem Carries.ensures_advance (carries : round.Carries mayFail onward finished)
    (awake : round.scheduler.isSuspended = false) (limit : Nat) (start : onward status ledger) :
    (round.advance limit).EnsuresAlways mayFail finished status ledger := by
  induction limit generalizing status ledger with
  | zero => exact Pass.ensures_pure _ (carries.ends start)
  | succ limit inductionHypothesis =>
      apply Pass.ensures_bind
      apply Pass.ensures_get
      apply Pass.ensures_bind
      apply (carries.turn awake start).mono _ fun _ _ _ done => done
      intro next status' final led
      cases next with
      | proceed => exact inductionHypothesis led
      | wait after => exact Pass.ensures_pure _ led

theorem Carries.ensures_suspend (carries : round.Carries mayFail onward finished)
    (suspended : round.scheduler.isSuspended = true) (start : onward status ledger) :
    round.suspend.EnsuresAlways mayFail finished status ledger := by
  have rests : ∀ {status ledger}, onward status ledger →
      (afterRestoring .proceed).EnsuresAlways mayFail finished status ledger := by
    intro status ledger held
    apply Pass.ensures_bind
    apply Pass.ensures_modify
    exact Pass.ensures_pure _ (carries.ends (carries.idles (Or.inr suspended) rfl held))
  rw [suspend_eq]
  apply Pass.ensures_bind
  apply Pass.ensures_get
  by_cases set : status.candidate.isSome = true
  · simp only [set, if_true]
    apply Pass.ensures_bind
    apply (carries.restore suspended set start).mono _ fun _ _ _ done => done
    intro next status' final led
    cases next with
    | proceed => exact rests led
    | wait after => exact Pass.ensures_pure _ led
  · simp only [set]
    apply Pass.ensures_bind
    exact Pass.ensures_pure _ (rests start)

theorem Carries.ensures_resume (carries : round.Carries mayFail onward finished)
    (awake : round.scheduler.isSuspended = false) (start : onward status ledger) :
    round.resume.EnsuresAlways mayFail finished status ledger := by
  apply Pass.ensures_bind
  apply Pass.ensures_get
  by_cases asleep : status.phase = .suspended
  · simp only [asleep, if_true]
    apply Pass.ensures_bind
    apply Pass.ensures_modify
    have idle : isDormant status.phase = true := by rw [asleep]; rfl
    exact carries.ensures_advance awake phaseLimit (carries.idles (Or.inl idle) rfl start)
  · simp only [asleep]
    exact carries.ensures_advance awake phaseLimit start

end Round

/-- The rule for the phase that deletes the pod: the pod is registered, and then its deletion
is asked for and told of. -/
theorem Round.ensures_deletePod_of {round : Round} (held : Candidate → Ledger → Prop)
    (sent : Ledger → Prop)
    (unset : status.candidate = none → onward { status with phase := .findingCandidate } ledger)
    (holds : ∀ candidate, status.candidate = some candidate →
      (round.hold (some candidate.podName) : Pass SchedulerStatus Unit).Ensures mayFail
        (fun _ status' middle => status' = status ∧ held candidate middle)
        (fun _ status' final => status' = status ∧ finished status final) status ledger)
    (stops : ∀ candidate middle, held candidate middle → finished status middle)
    (deletes : ∀ candidate middle answer after, held candidate middle →
      sent (middle.add (.delete .pod round.space candidate.podName) answer after))
    (tells : ∀ middle event answer, sent middle →
      sent (middle.add (.publish event) answer middle.registry))
    (fails : ∀ final, sent final → finished status final)
    (leads : ∀ final, sent final → onward { status with phase := .waitingForPodDeletion } final) :
    round.deletePod.Ensures mayFail (Next.leads onward finished) (fun _ => finished) status
      ledger := by
  have told : ∀ note middle, sent middle → Pass.Ensures mayFail (do
        Pass.notify "PodDeleted" note
        turnTo .waitingForPodDeletion
        return .proceed : Pass SchedulerStatus Next)
      (Next.leads onward finished) (fun _ => finished) status middle := by
    intro note middle asked
    apply Pass.ensures_bind
    apply Pass.ensures_notify
    · intro answer
      apply Pass.ensures_bind
      apply Pass.ensures_modify
      exact Pass.ensures_pure _ (leads _ (tells _ _ answer asked))
    · exact fails _ (tells _ _ none asked)
  apply Pass.ensures_bind
  apply Pass.ensures_get
  cases chosen : status.candidate with
  | none =>
      apply Pass.ensures_bind
      apply Pass.ensures_modify
      exact Pass.ensures_pure _ (unset chosen)
  | some candidate =>
      apply Pass.ensures_bind
      apply (holds candidate chosen).mono
      · rintro registered status' middle ⟨rfl, ready⟩
        apply Pass.ensures_bind
        apply Pass.ensures_attempt
        apply Exchange.ensures_delete
        · exact fun pod after named there removed =>
            told _ _ (deletes candidate middle _ after ready)
        · exact fun named missing => told _ _ (deletes candidate middle _ _ ready)
        · intro error final nothing
          cases nothing with
          | unmade nameless => exact stops candidate middle ready
          | refused served honest => exact fails _ (deletes candidate middle _ _ ready)
          | unanswered served => exact fails _ (deletes candidate middle _ _ ready)
      · rintro halt status' final ⟨rfl, stopped⟩
        exact stopped

/-! ## The conduct of phases -/

namespace Round

variable {σ : Type} {fine : Call → Prop} {round : Round}

/-- A conduct is kept by everything that phases do, but for the deletion of the pod. -/
structure Abides (mayFail : Request → Prop) (round : Round) (fine : Call → Prop) : Prop where
  reads : ∀ call : Call, ReadingCall call.request →
    Serves mayFail call.request call.before call.answer call.after → fine call
  holds : ∀ pod, (round.hold pod : Pass SchedulerStatus Unit).Conducts mayFail fine
  takes : ∀ (call : Call) (candidate : Candidate),
    call.request = .create .volumeSnapshot round.space (round.newSnapshot candidate) →
      Serves mayFail call.request call.before call.answer call.after → fine call
  prunes : (round.pruneSnapshots : Pass SchedulerStatus Unit).Conducts mayFail fine

/-- The rule for registering a pod: what is written is what was read, with the entry. -/
theorem conducts_hold (pod : Option String)
    (reads : ∀ answer registry,
      fine ⟨.get .fullNode round.space round.nodeName, answer, registry, registry⟩)
    (idle : ∀ (stored : FullNode) answer registry,
      registry.find? .fullNode round.space round.nodeName = some stored →
        fine ⟨.replaceStatus .fullNode round.space round.nodeName
          (stored.updateStatus (·.hold round.scheduler.statusKey pod)), answer, registry,
          registry⟩)
    (renews : ∀ (stored : FullNode) version before after,
      before.find? .fullNode round.space round.nodeName = some stored →
      before.Sets .fullNode round.space round.nodeName (some (Kind.fullNode.renewed version
        (stored.updateStatus (·.hold round.scheduler.statusKey pod)) stored)) after →
        fine ⟨.replaceStatus .fullNode round.space round.nodeName
          (stored.updateStatus (·.hold round.scheduler.statusKey pod)),
          some (.ok (Kind.fullNode.renewed version
            (stored.updateStatus (·.hold round.scheduler.statusKey pod)) stored)),
          before, after⟩) :
    (round.hold pod : Pass σ Unit).Conducts mayFail fine := by
  have looked : (Exchange.get? .fullNode round.space round.nodeName).Conducts mayFail fine := by
    intro ledger
    apply Exchange.ensures_get?
    · exact fun node there => .add .refl (reads _ _)
    · exact fun missing => .add .refl (reads _ _)
    · exact fun error final nothing => nothing.goes reads
  apply Pass.conducts_bind (Pass.conducts_attempt looked)
  intro node?
  cases node? with
  | some node =>
      apply Pass.conducts_bind _ fun _ => Pass.conducts_pure ()
      apply Pass.conducts_attempt
      exact Exchange.conducts_updateStatus (fun _ => rfl) reads idle renews
  | none =>
      by_cases there : pod.isSome = true
      · simp only [there, if_true]
        exact Pass.conducts_throw _
      · simp only [there]
        exact Pass.conducts_pure ()

/-! ### Pruning -/

section Pruning

variable {due : List String → Registry → Prop} {space : String} {state : σ}

/-- The rule for deletions one after another: each deletes what is due, which leaves the others
due. -/
theorem ensures_deleteEach
    (skips : ∀ name names registry, due (name :: names) registry → due names registry)
    (each : ∀ name names answer before after, due (name :: names) before →
      Serves mayFail (.delete .volumeSnapshot space name) before answer after →
        fine ⟨.delete .volumeSnapshot space name, answer, before, after⟩ ∧ due names after)
    (names : List String) (start : due names ledger.registry) :
    (deleteEach space names : Pass σ _).EnsuresAlways mayFail
      (fun _ final => ledger.Goes fine final) state ledger := by
  induction names generalizing ledger with
  | nil => exact Pass.ensures_pure _ .refl
  | cons name names inductionHypothesis =>
      have rest : ∀ (report : List String × List PassError → List String × List PassError)
          (middle : Ledger), ledger.Goes fine middle → due names middle.registry →
          (deleteEach space names >>= fun counts => pure (report counts) : Pass σ _).EnsuresAlways
            mayFail (fun _ final => ledger.Goes fine final) state middle := by
        intro report middle goes still
        apply Pass.ensures_bind
        exact (inductionHypothesis still).mono
          (fun _ _ _ later => Pass.ensures_pure _ (goes.trans later))
          fun _ _ _ later => goes.trans later
      have served : ∀ answer after,
          Serves mayFail (.delete .volumeSnapshot space name) ledger.registry answer after →
            ledger.Goes fine (ledger.add _ answer after) ∧ due names after := by
        intro answer after served
        obtain ⟨isFine, still⟩ := each name names answer ledger.registry after start served
        exact ⟨.add .refl isFine, still⟩
      apply Pass.ensures_bind
      apply Pass.ensures_perform
      apply Exchange.ensures_delete
      · intro object after named there gone
        have deleted : Serves mayFail (.delete .volumeSnapshot space name) ledger.registry
            (some (.ok ())) after := by
          rcases gone with sets | ⟨time, sets⟩
          · exact .removed there sets
          · exact .doomed there sets
        obtain ⟨goes, still⟩ := served _ _ deleted
        exact rest (fun counts => (name :: counts.1, counts.2)) _ goes still
      · intro named absent
        obtain ⟨goes, still⟩ := served _ _ (.nothingToDelete absent)
        exact rest (fun counts => (name :: counts.1, counts.2)) _ goes still
      · intro error final nothing
        cases nothing with
        | unmade nameless =>
            exact rest (fun counts => (counts.1, _ :: counts.2)) _ .refl (skips _ _ _ start)
        | refused refusal honest =>
            obtain ⟨goes, still⟩ := served _ _ refusal
            exact rest (fun counts => (counts.1, _ :: counts.2)) _ goes still
        | unanswered silence => exact (served _ _ silence).1

/-- The rule for pruning: what expires is due, and deleted one after another. -/
theorem conducts_pruneSnapshots
    (reads : ∀ call : Call, ReadingCall call.request →
      Serves mayFail call.request call.before call.answer call.after → fine call)
    (starts : ∀ registry : Registry, due ((expired round.scheduler.limit (registry.selected
      .volumeSnapshot round.space round.scheduler.snapshotSelector)).map
        (·.metadata.shownName)) registry)
    (skips : ∀ name names registry, due (name :: names) registry → due names registry)
    (each : ∀ name names answer before after, due (name :: names) before →
      Serves mayFail (.delete .volumeSnapshot round.space name) before answer after →
        fine ⟨.delete .volumeSnapshot round.space name, answer, before, after⟩ ∧
          due names after) :
    (round.pruneSnapshots : Pass σ Unit).Conducts mayFail fine := by
  have pruned : (prune round.space round.scheduler.snapshotSelector round.scheduler.limit :
      Pass σ (List String)).Conducts mayFail fine := by
    intro state ledger
    apply Pass.ensures_bind
    apply Pass.ensures_attempt
    apply Exchange.ensures_list
    · let listing : Request :=
        .list .volumeSnapshot round.space round.scheduler.snapshotSelector
      let answer : Answer listing := some (.ok (ledger.registry.selected .volumeSnapshot round.space
        round.scheduler.snapshotSelector))
      let middle : Ledger := ledger.add listing answer ledger.registry
      have listed : ledger.Goes fine middle :=
        .add .refl (reads ⟨listing, answer, ledger.registry, ledger.registry⟩ trivial (.listed ..))
      have deletes : (deleteEach round.space _ : Pass σ _).EnsuresAlways mayFail
          (fun _ final => middle.Goes fine final) state middle :=
        ensures_deleteEach skips each _ (starts ledger.registry)
      apply Pass.ensures_bind
      apply deletes.mono _ fun _ _ _ later => listed.trans later
      rintro ⟨deleted, errors⟩ state' final later
      dsimp only
      split
      · exact Pass.ensures_pure _ (listed.trans later)
      · exact Pass.ensures_throw _ (listed.trans later)
    · exact fun error final nothing =>
        nothing.goes_of_served fun answer served => reads ⟨_, _, _, _⟩ trivial served
  apply Pass.conducts_bind pruned
  intro names
  have notifies : (names.forM fun name => Pass.notify "SnapshotPruned"
      s!"Deleted VolumeSnapshot {name} past the retention limit" : Pass σ Unit).Makes ReadingCall
        fun _ => True := Pass.makes_forM names fun _ _ => Pass.makes_notify trivial
  exact notifies.conducts reads

end Pruning

/-- The rule for handing a pod back, which registers none. -/
theorem conducts_restorePod
    (reads : ∀ call : Call, ReadingCall call.request →
      Serves mayFail call.request call.before call.answer call.after → fine call)
    (releases : (round.hold none : Pass SchedulerStatus Unit).Conducts mayFail fine)
    (prunes : (round.pruneSnapshots : Pass SchedulerStatus Unit).Conducts mayFail fine) :
    round.restorePod.Conducts mayFail fine := by
  apply Pass.conducts_bind Pass.conducts_get
  intro status
  cases status.candidate with
  | none => exact Pass.conducts_bind (Pass.conducts_modify _) fun _ => Pass.conducts_pure _
  | some candidate =>
      apply Pass.conducts_bind releases
      intro released
      apply Pass.conducts_bind ((round.makes_hasPod _).conducts reads)
      intro there
      cases there with
      | true =>
          apply Pass.conducts_bind (Pass.conducts_modify _)
          intro unset
          apply Pass.conducts_bind (Pass.conducts_modify _)
          intro entered
          exact Pass.conducts_bind prunes fun _ => Pass.conducts_pure _
      | false =>
          exact Pass.conducts_bind (Pass.conducts_modify _) fun _ => Pass.conducts_pure _

namespace Abides

variable {α : Type} (abides : round.Abides mayFail fine)

include abides

theorem conducts_of_reading {pass : Pass SchedulerStatus α}
    (makes : pass.Makes ReadingCall fun _ => True) : pass.Conducts mayFail fine :=
  makes.conducts abides.reads

theorem conducts_restorePod : round.restorePod.Conducts mayFail fine :=
  Round.conducts_restorePod abides.reads (abides.holds none) abides.prunes

theorem conducts_createSnapshot : round.createSnapshot.Conducts mayFail fine := by
  apply round.makes_createSnapshot.conducts
  rintro call (reads | ⟨candidate, request⟩) served
  · exact abides.reads call reads served
  · exact abides.takes call candidate request served

/-- Every phase but the one that deletes the pod is of the conduct. -/
theorem conducts_turn {phase : SnapshotPhase} (other : phase ≠ .deletingPod) :
    (round.turn phase).Conducts mayFail fine := by
  cases phase with
  | waitingForNext => exact abides.conducts_of_reading (round.makes_awaitNext lenient_true)
  | findingCandidate =>
      exact abides.conducts_of_reading (round.makes_chooseCandidate lenient_true)
  | deletingPod => exact absurd rfl other
  | waitingForPodDeletion => exact abides.conducts_of_reading round.makes_awaitPodDeletion
  | creatingSnapshot => exact abides.conducts_createSnapshot
  | waitingForSnapshotCreation =>
      exact abides.conducts_of_reading (round.makes_awaitSnapshot lenient_true)
  | restoringPod => exact abides.conducts_restorePod
  | suspended | missingDefinition =>
      exact Pass.conducts_bind (Pass.conducts_modify _) fun _ => Pass.conducts_pure _

/-- The phase that deletes the pod is of the conduct if the deletion is. -/
theorem conducts_deletePod
    (deletes : ∀ (call : Call) (name : String), call.request = .delete .pod round.space name →
      Serves mayFail call.request call.before call.answer call.after → fine call) :
    round.deletePod.Conducts mayFail fine := by
  apply Pass.conducts_bind Pass.conducts_get
  intro status
  cases status.candidate with
  | none => exact Pass.conducts_bind (Pass.conducts_modify _) fun _ => Pass.conducts_pure _
  | some candidate =>
      have deleted :
          (Exchange.delete .pod round.space candidate.podName).Conducts mayFail fine := by
        have makes : (Exchange.delete .pod round.space candidate.podName).Makes
            (· = .delete .pod round.space candidate.podName) := Exchange.makes_delete rfl
        exact makes.conducts fun call request served => deletes call _ request served
      apply Pass.conducts_bind (abides.holds _)
      intro held
      apply Pass.conducts_bind (Pass.conducts_attempt deleted)
      intro gone
      apply Pass.conducts_bind (abides.conducts_of_reading (Pass.makes_notify trivial))
      intro notified
      exact Pass.conducts_bind (Pass.conducts_modify _) fun _ => Pass.conducts_pure _

/-- What is of the conduct of all phases is carried on by all of them. -/
theorem carries_goes
    (deletes : ∀ (call : Call) (name : String), call.request = .delete .pod round.space name →
      Serves mayFail call.request call.before call.answer call.after → fine call)
    (start : Ledger) :
    round.Carries mayFail (fun _ ledger => start.Goes fine ledger)
      (fun _ ledger => start.Goes fine ledger) where
  turn := by
    intro status ledger awake goes
    have conducts : (round.turn status.phase).Conducts mayFail fine := by
      by_cases deleting : status.phase = .deletingPod
      · rw [deleting]
        exact abides.conducts_deletePod deletes
      · exact abides.conducts_turn deleting
    exact ensures_leads (conducts status ledger) (fun _ _ later => goes.trans later)
      (fun _ _ _ later => goes.trans later) fun _ _ _ later => goes.trans later
  restore := by
    intro status ledger suspended set goes
    exact ensures_leads (abides.conducts_restorePod status ledger)
      (fun _ _ later => goes.trans later) (fun _ _ _ later => goes.trans later)
        fun _ _ _ later => goes.trans later
  ends := fun goes => goes
  idles := fun _ _ goes => goes

end Abides

end Round

/-- The round of a scheduler whose full node has a namespace. -/
def roundOf (scheduler : Scheduler) (settings : Settings) (now : Instant) : Round :=
  { scheduler := scheduler, space := (slotOf scheduler).space, now := now, settings := settings }

/-- The statement of a whole pass, from what its phases carry on and from what becomes of it
while the definition of snapshots is looked for. -/
theorem ensures_step_of_carries {scheduler : Scheduler} {settings : Settings} {now : Instant}
    (carries : (roundOf scheduler settings now).Carries mayFail onward finished)
    (asks : ∀ answer,
      onward status (ledger.add (.findDefinition .volumeSnapshot) answer ledger.registry))
    (undefined : ∀ {final}, onward status final →
      finished { status with phase := .missingDefinition } final) :
    (step scheduler settings now).EnsuresAlways mayFail finished status ledger := by
  have goesOn : ∀ {status final}, onward status final → Pass.EnsuresAlways mayFail (do
        let round : Round := ⟨scheduler, ← requireSpace scheduler, now, settings⟩
        if scheduler.isSuspended then round.suspend else round.resume)
      finished status final := by
    intro status final held
    apply Pass.ensures_bind
    unfold requireSpace Pass.orUnrecoverable
    split
    · rename_i space inSpace
      have same : Round.mk scheduler space now settings = roundOf scheduler settings now := by
        simp [roundOf, slotOf, inSpace]
      apply Pass.ensures_pure
      dsimp only
      rw [same]
      by_cases suspended : scheduler.isSuspended = true
      · simp only [suspended, if_true]
        exact carries.ensures_suspend suspended held
      · simp only [suspended]
        exact carries.ensures_resume (eq_false_of_ne_true suspended) held
    · exact Pass.ensures_throw _ (carries.ends held)
  apply Pass.ensures_bind
  apply Pass.ensures_bind
  apply Pass.ensures_attempt
  apply Exchange.ensures_isDefined
  · intro answer
    have asked := asks answer
    split
    · apply Pass.ensures_bind
      apply Pass.ensures_get
      by_cases missing : status.phase = .missingDefinition
      · simp only [missing, if_true]
        apply Pass.ensures_modify
        have idle : isDormant status.phase = true := by rw [missing]; rfl
        exact goesOn (carries.idles (Or.inl idle) rfl asked)
      · simp only [missing]
        exact Pass.ensures_pure _ (goesOn asked)
    · apply Pass.ensures_bind
      apply Pass.ensures_modify
      exact Pass.ensures_throw _ (undefined asked)
  · intro error final nothing
    cases nothing with
    | unmade nameless => cases nameless
    | refused served honest => exact carries.ends (asks _)
    | unanswered served => exact carries.ends (asks _)

end NodeFleet.Snapshot
