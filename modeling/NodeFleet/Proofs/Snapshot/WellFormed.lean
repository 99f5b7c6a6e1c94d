import NodeFleet.Proofs.Snapshot.Turns
import NodeFleet.Proofs.Store.Outcomes

/-!
# Well-formed statuses

A phase that is about a pod goes with a candidate, and one that waits for a snapshot with a
record of it.  Every pass keeps this wherever it ends: at its end, with an error, or at a call
that its deadline cuts off.  So no pass ever misses the candidate that its phase cannot do
without.
-/

namespace NodeFleet.Store

mutual

/-- The causes of an error, those of the members of an aggregate included. -/
def causesOf : PassError → List Cause
  | .transient cause => [cause]
  | .unrecoverable cause => [cause]
  | .aggregate errors => causesOfAll errors

def causesOfAll : List PassError → List Cause
  | [] => []
  | error :: errors => causesOf error ++ causesOfAll errors

end

theorem causesOf_gather {errors : List PassError} {error : PassError}
    (gathered : PassError.gather errors = some error) : causesOf error = causesOfAll errors := by
  match errors with
  | [] => cases gathered
  | [single] =>
      cases gathered
      simp [causesOfAll]
  | first :: second :: rest =>
      cases gathered
      rfl

/-- A halt for want of the candidate that a phase cannot do without. -/
def Halt.LacksCandidate : Halt PassError → Prop
  | .failed error => ∃ phase, Cause.candidateMissing phase ∈ causesOf error
  | .broken _ | .unanswered => False

end NodeFleet.Store

namespace NodeFleet.Snapshot

open Calendar Resource Store

/-! ## The form of a status -/

/-- Whether a phase is about the pod of a candidate. -/
def isAboutPod : SnapshotPhase → Bool
  | .deletingPod | .waitingForPodDeletion | .creatingSnapshot | .waitingForSnapshotCreation
  | .restoringPod => true
  | .waitingForNext | .findingCandidate | .suspended | .missingDefinition => false

/-- A history of completed snapshots. -/
structure SoundHistory (history : List SnapshotRecord) : Prop where
  bounded : history.length ≤ 5
  distinct : (history.map (·.name)).Nodup
  ready : ∀ entry ∈ history, entry.isReady = true

structure WellFormed (status : SchedulerStatus) : Prop where
  candidate : isAboutPod status.phase = true → status.candidate ≠ none
  lastSnapshot : status.phase = .waitingForSnapshotCreation → status.lastSnapshot ≠ none
  suspended : status.phase = .suspended → status.candidate = none
  history : SoundHistory status.history

theorem soundHistory_nil : SoundHistory [] where
  bounded := Nat.zero_le 5
  distinct := List.nodup_nil
  ready := by simp

/-- A history stays sound when a snapshot that is ready is put at its front. -/
theorem SoundHistory.pushHistory {status : SchedulerStatus} {entry : SnapshotRecord}
    (sound : SoundHistory status.history) (ready : entry.isReady = true) :
    SoundHistory (status.pushHistory entry).history where
  bounded := by
    have short : (status.pushHistory entry).history.length ≤ SchedulerStatus.historyLimit :=
      List.length_take_le _ _
    exact short
  distinct := by
    have others : ((status.history.filter fun other => other.name != entry.name).map
        (·.name)).Nodup :=
      sound.distinct.sublist (List.filter_sublist.map _)
    have fresh : entry.name ∉
        (status.history.filter fun other => other.name != entry.name).map (·.name) := by
      simp
    have whole := List.nodup_cons.2 ⟨fresh, others⟩
    exact whole.sublist ((List.take_sublist _ _).map SnapshotRecord.name)
  ready := by
    intro other member
    have among := List.mem_of_mem_take member
    rcases List.mem_cons.1 among with rfl | old
    · exact ready
    · exact sound.ready other (List.mem_filter.1 old).1

theorem wellFormed_initial : WellFormed .initial where
  candidate := fun about => nomatch about
  lastSnapshot := fun waits => nomatch waits
  suspended := fun _ => rfl
  history := soundHistory_nil

section Forms

variable {status status' : SchedulerStatus}

/-- A phase that is not about a pod and is not that of a suspended scheduler asks for
nothing. -/
theorem WellFormed.of_idle (wellFormed : WellFormed status)
    (idle : isAboutPod status'.phase = false) (awake : status'.phase ≠ .suspended)
    (history : status'.history = status.history) : WellFormed status' where
  candidate := fun about => by
    rw [idle] at about
    cases about
  lastSnapshot := fun waits => by
    rw [waits] at idle
    cases idle
  suspended := fun asleep => absurd asleep awake
  history := history ▸ wellFormed.history

/-- A phase that is about a pod, but does not wait for a snapshot, asks for a candidate. -/
theorem WellFormed.of_candidate (wellFormed : WellFormed status)
    (set : status'.candidate ≠ none) (awake : status'.phase ≠ .suspended)
    (waits : status'.phase ≠ .waitingForSnapshotCreation)
    (history : status'.history = status.history) : WellFormed status' where
  candidate := fun _ => set
  lastSnapshot := fun waiting => absurd waiting waits
  suspended := fun asleep => absurd asleep awake
  history := history ▸ wellFormed.history

/-- The last snapshot may be looked at afresh, and the message may be any. -/
theorem WellFormed.of_refreshed (wellFormed : WellFormed status)
    (phase : status'.phase = status.phase) (candidate : status'.candidate = status.candidate)
    (recorded : status.lastSnapshot ≠ none → status'.lastSnapshot ≠ none)
    (history : status'.history = status.history) : WellFormed status' where
  candidate := by
    rw [phase, candidate]
    exact wellFormed.candidate
  lastSnapshot := by
    rw [phase]
    exact fun waits => recorded (wellFormed.lastSnapshot waits)
  suspended := by
    rw [phase, candidate]
    exact wellFormed.suspended
  history := history ▸ wellFormed.history

theorem WellFormed.exists_candidate (wellFormed : WellFormed status)
    (about : isAboutPod status.phase = true) : ∃ candidate, status.candidate = some candidate :=
  Option.ne_none_iff_exists'.1 (wellFormed.candidate about)

end Forms

/-! ## What reads of the cluster leave in place -/

/-- What holds where a pass halts. -/
def Falls {σ : Type} (holds : σ → Prop) (halt : Halt PassError) (state : σ) : Prop :=
  ¬ halt.LacksCandidate ∧ holds state

/-- Whatever the answers, a pass keeps a statement of its state, and it never misses a
candidate. -/
def Keeps {σ α : Type} (holds : σ → Prop) (pass : Pass σ α) : Prop :=
  ∀ state, holds state → pass.Leads (fun _ => holds) (Falls holds) state

section Keeps

variable {σ α β γ : Type} {holds : σ → Prop}

/-- The rule for a part of a pass that leaves the state as it is. -/
theorem Keeps.leads {state : σ} {done : α → σ → Prop} {halted : Halt PassError → σ → Prop}
    {pass : Pass σ α} (keeps : Keeps (· = state) pass) (gives : ∀ value, done value state)
    (halts : ∀ halt, ¬ halt.LacksCandidate → halted halt state) :
    pass.Leads done halted state := by
  apply (keeps state rfl).mono
  · rintro value _ rfl
    exact gives value
  · rintro halt _ ⟨other, rfl⟩
    exact halts halt other

theorem not_lacksCandidate_store (error : StoreError) :
    ¬ (Halt.failed (.transient (.store error))).LacksCandidate := by
  simp [Halt.LacksCandidate, causesOf]

theorem keeps_pure (value : α) : Keeps holds (pure value : Pass σ α) :=
  fun _ start => start

theorem keeps_throw {halt : Halt PassError} (other : ¬ halt.LacksCandidate) :
    Keeps holds (throw halt : Pass σ α) :=
  fun _ start => ⟨other, start⟩

theorem keeps_bind {pass : Pass σ β} {next : β → Pass σ α} (first : Keeps holds pass)
    (rest : ∀ value, Keeps holds (next value)) : Keeps holds (pass >>= next) := by
  intro state start
  apply Pass.leads_bind
  exact (first state start).mono (fun value state' kept => rest value state' kept)
    fun _ _ falls => falls

theorem keeps_attempt (exchange : Exchange (Except StoreError α)) :
    Keeps holds (Pass.attempt exchange : Pass σ α) :=
  fun _ start =>
    Pass.leads_attempt (fun _ => start) (fun error => ⟨not_lacksCandidate_store error, start⟩)
      ⟨id, start⟩

theorem keeps_notify (reason note : String) :
    Keeps holds (Pass.notify reason note : Pass σ Unit) :=
  fun _ start => Pass.leads_notify start ⟨id, start⟩

theorem keeps_forM {body : γ → Pass σ PUnit} (each : ∀ item, Keeps holds (body item))
    (items : List γ) : Keeps holds (items.forM body) :=
  fun _ start => Pass.leads_forM (fun item state kept => each item state kept) items start

theorem keeps_requireSpace (scheduler : Scheduler) :
    Keeps holds (requireSpace scheduler : Pass σ String) := by
  intro state start
  apply Pass.leads_orUnrecoverable (fun _ => start)
  exact ⟨by simp [Halt.LacksCandidate, causesOf], start⟩

theorem keeps_orScheduleFault (result : Except Cron.ScheduleError α) :
    Keeps holds (orScheduleFault result : Pass σ α) := by
  cases result with
  | ok value => exact keeps_pure value
  | error error => exact keeps_throw (by simp [Halt.LacksCandidate, causesOf])

variable {round : Round}

theorem keeps_failNodeMissing : Keeps holds (round.failNodeMissing : Pass σ α) :=
  keeps_throw (by simp [Halt.LacksCandidate, causesOf])

theorem keeps_hold (pod : Option String) : Keeps holds (round.hold pod : Pass σ Unit) := by
  apply keeps_bind (keeps_attempt _)
  intro node?
  cases node? with
  | some node =>
      apply keeps_bind (keeps_attempt _)
      exact fun _ => keeps_pure ()
  | none =>
      by_cases there : pod.isSome = true
      · simp only [there, if_true]
        exact keeps_failNodeMissing
      · simp only [there]
        exact keeps_pure ()

theorem keeps_hasPod (name : String) : Keeps holds (round.hasPod name : Pass σ Bool) :=
  keeps_bind (keeps_attempt _) fun _ => keeps_pure _

/-- No fault of a choice is a missing candidate. -/
theorem ne_candidateMissing_of_select {pods : List Pod} {minAvailable : Nat} {pin : Option Int}
    {cause : Cause} (failed : select pods minAvailable pin = .error cause)
    (phase : SnapshotPhase) : cause ≠ .candidateMissing phase := by
  rintro rfl
  cases chosen : choose pods minAvailable pin with
  | ok pod =>
      simp only [select, chosen, Except.bind, bind] at failed
      split at failed <;> cases failed
  | error cause =>
      simp only [select, chosen, Except.bind, bind] at failed
      cases failed
      unfold choose at chosen
      split at chosen
      · cases chosen
      · split at chosen <;> split at chosen <;> cases chosen

theorem keeps_findCandidate (node : FullNode) (minAvailable : Nat) (pin : Option Int) :
    Keeps holds (findCandidate node minAvailable pin : Pass σ Candidate) := by
  have spaced : Keeps holds (Pass.namespaceOf node.metadata : Pass σ String) := by
    intro state start
    apply Pass.leads_orUnrecoverable (fun _ => start)
    exact ⟨by simp [Halt.LacksCandidate, causesOf], start⟩
  apply keeps_bind spaced
  intro space
  apply keeps_bind (keeps_attempt _)
  intro pods
  split
  · exact keeps_pure _
  · rename_i cause failed
    apply keeps_throw
    rintro ⟨phase, member⟩
    have same : Cause.candidateMissing phase = cause := List.mem_singleton.1 member
    exact ne_candidateMissing_of_select failed phase same.symm

theorem keeps_takeSnapshot (candidate : Candidate) :
    Keeps holds (round.takeSnapshot candidate : Pass σ (String × Option Timestamp)) := by
  have searched : Keeps holds
      (round.inFlight? candidate.claimName : Pass σ (Option VolumeSnapshot)) :=
    keeps_bind (keeps_attempt _) fun _ => keeps_pure _
  apply keeps_bind searched
  intro snapshot?
  cases snapshot? with
  | some snapshot => exact keeps_pure _
  | none =>
      apply keeps_bind (keeps_attempt _)
      exact fun _ => keeps_bind (keeps_notify _ _) fun _ => keeps_pure _

/-- Every fault of a deletion of snapshots is one of the store. -/
theorem leads_deleteEach (space : String) (names : List String) {state : σ}
    (start : holds state) :
    (deleteEach space names : Pass σ (List String × List PassError)).Leads
      (fun outcome state' => holds state' ∧
        ∀ phase, Cause.candidateMissing phase ∉ causesOfAll outcome.2)
      (Falls holds) state := by
  induction names generalizing state with
  | nil => exact ⟨start, fun phase member => by simp [causesOfAll] at member⟩
  | cons name names inductionHypothesis =>
      apply Pass.leads_bind
      apply Pass.leads_perform _ ⟨id, start⟩
      intro result
      apply Pass.leads_bind
      apply (inductionHypothesis start).mono _ fun _ _ falls => falls
      rintro ⟨deleted, errors⟩ state' ⟨kept, others⟩
      cases result with
      | ok gone => exact ⟨kept, others⟩
      | error error =>
          refine ⟨kept, fun phase member => others phase ?_⟩
          simpa [causesOfAll, causesOf] using member

theorem keeps_pruneSnapshots : Keeps holds (round.pruneSnapshots : Pass σ Unit) := by
  have pruned : Keeps holds (prune round.space round.scheduler.snapshotSelector
      round.scheduler.limit : Pass σ (List String)) := by
    apply keeps_bind (keeps_attempt _)
    intro snapshots state start
    apply Pass.leads_bind
    apply (leads_deleteEach _ _ start).mono _ fun _ _ falls => falls
    rintro ⟨deleted, errors⟩ state' ⟨kept, others⟩
    cases gathered : PassError.gather errors with
    | none =>
        simp only [gathered]
        exact kept
    | some error =>
        simp only [gathered]
        refine ⟨?_, kept⟩
        rintro ⟨phase, member⟩
        rw [causesOf_gather gathered] at member
        exact others phase member
  exact keeps_bind pruned fun names => keeps_forM (fun name => keeps_notify _ _) names

end Keeps

/-! ## Phases -/

section Phases

variable {α : Type} {round : Round} {status : SchedulerStatus}

/-- What holds where a phase, or a pass, ends. -/
def LeadsOn (pass : Pass SchedulerStatus α) (status : SchedulerStatus) : Prop :=
  pass.Leads (fun _ => WellFormed) (Falls WellFormed) status

theorem leads_of_keeps {done : α → SchedulerStatus → Prop} {pass : Pass SchedulerStatus α}
    (keeps : Keeps (· = status) pass) (wellFormed : WellFormed status)
    (holds : ∀ value, done value status) : pass.Leads done (Falls WellFormed) status :=
  keeps.leads holds fun _ other => ⟨other, wellFormed⟩

theorem leads_requireCandidate {done : Candidate → SchedulerStatus → Prop}
    (wellFormed : WellFormed status) (about : isAboutPod status.phase = true)
    (holds : ∀ candidate, status.candidate = some candidate → done candidate status) :
    requireCandidate.Leads done (Falls WellFormed) status := by
  obtain ⟨candidate, recorded⟩ := wellFormed.exists_candidate about
  apply Pass.leads_bind
  apply Pass.leads_get
  rw [recorded]
  exact holds candidate recorded

/-- Whatever is found of the last snapshot, a look at it leaves the status well-formed. -/
theorem leads_isPending (scheduler : Scheduler) (wellFormed : WellFormed status) :
    LeadsOn (isPending scheduler) status := by
  apply Pass.leads_bind
  apply Pass.leads_get
  split
  · exact wellFormed
  · rename_i last recorded
    by_cases ready : last.isReady = true
    · simp only [ready, if_true]
      exact wellFormed
    · simp only [ready]
      apply Pass.leads_bind
      apply leads_of_keeps (keeps_requireSpace scheduler) wellFormed
      intro space
      apply Pass.leads_bind
      apply leads_of_keeps (keeps_attempt _) wellFormed
      intro snapshot?
      cases snapshot? with
      | none => exact wellFormed
      | some snapshot => exact wellFormed.of_refreshed rfl rfl (fun _ => nofun) rfl

theorem leads_awaitNext (wellFormed : WellFormed status) : LeadsOn round.awaitNext status := by
  apply Pass.leads_bind
  apply Pass.leads_bind
  apply leads_of_keeps (keeps_orScheduleFault _) wellFormed
  intro schedule
  apply Pass.leads_bind
  apply (leads_isPending round.scheduler wellFormed).mono _ fun _ _ falls => falls
  intro pending looked wellFormed'
  have waits : ∀ wait : Duration, LeadsOn (do
      if wait = .zero then
        enter .findingCandidate none
        return .proceed
      report s!"next snapshot in {wait.seconds}s"
      return .wait wait : Pass SchedulerStatus Next) looked := by
    intro wait
    by_cases due : wait = .zero
    · simp only [due, if_true]
      exact wellFormed'.of_idle rfl nofun rfl
    · simp only [due]
      exact wellFormed'.of_refreshed rfl rfl id rfl
  cases pending with
  | true => exact waits _
  | false =>
      apply Pass.leads_bind
      apply Pass.leads_get
      apply leads_of_keeps (keeps_orScheduleFault _) wellFormed'
      exact waits

theorem leads_chooseCandidate (wellFormed : WellFormed status) :
    LeadsOn round.chooseCandidate status := by
  apply Pass.leads_bind
  apply leads_of_keeps (keeps_attempt _) wellFormed
  intro node?
  cases node? with
  | none => exact keeps_failNodeMissing status wellFormed
  | some node =>
      apply Pass.leads_bind
      apply leads_of_keeps (keeps_findCandidate _ _ _) wellFormed
      intro candidate
      exact wellFormed.of_candidate nofun nofun nofun rfl

/-- Until the pod is deleted the phase stays, and its candidate with it. -/
theorem leads_deletePod (wellFormed : WellFormed status) : LeadsOn round.deletePod status := by
  apply Pass.leads_bind
  apply Pass.leads_get
  cases recorded : status.candidate with
  | none => exact wellFormed.of_idle rfl nofun rfl
  | some candidate =>
      apply Pass.leads_bind
      apply leads_of_keeps (keeps_hold _) wellFormed
      intro held
      apply Pass.leads_bind
      apply leads_of_keeps (keeps_attempt _) wellFormed
      intro deleted
      apply Pass.leads_bind
      apply leads_of_keeps (keeps_notify _ _) wellFormed
      intro told
      have set : status.candidate ≠ none := by simp [recorded]
      exact wellFormed.of_candidate set nofun nofun rfl

theorem leads_awaitPodDeletion (wellFormed : WellFormed status)
    (phase : status.phase = .waitingForPodDeletion) : LeadsOn round.awaitPodDeletion status := by
  apply Pass.leads_bind
  apply leads_requireCandidate wellFormed (by rw [phase]; rfl)
  intro candidate recorded
  apply Pass.leads_bind
  apply leads_of_keeps (keeps_hasPod _) wellFormed
  intro there
  cases there with
  | true => exact wellFormed.of_refreshed rfl rfl id rfl
  | false =>
      have set : status.candidate ≠ none := by simp [recorded]
      exact wellFormed.of_candidate set nofun nofun rfl

/-- The phase that waits for a snapshot begins together with the record of it. -/
theorem leads_createSnapshot (wellFormed : WellFormed status)
    (phase : status.phase = .creatingSnapshot) : LeadsOn round.createSnapshot status := by
  have about : isAboutPod status.phase = true := by rw [phase]; rfl
  apply Pass.leads_bind
  apply leads_requireCandidate wellFormed about
  intro candidate recorded
  apply Pass.leads_bind
  apply leads_of_keeps (keeps_takeSnapshot candidate) wellFormed
  rintro ⟨name, createdAt⟩
  apply Pass.leads_bind
  apply Pass.leads_orUnrecoverable
  · intro startedAt
    exact ⟨fun _ => wellFormed.candidate about, fun _ => nofun, nofun, wellFormed.history⟩
  · exact ⟨by simp [Halt.LacksCandidate, causesOf], wellFormed⟩

theorem leads_awaitSnapshot (wellFormed : WellFormed status)
    (phase : status.phase = .waitingForSnapshotCreation) :
    LeadsOn round.awaitSnapshot status := by
  have set : status.candidate ≠ none := wellFormed.candidate (by rw [phase]; rfl)
  apply Pass.leads_bind
  apply Pass.leads_get
  split
  · exact wellFormed.of_candidate set nofun nofun rfl
  · rename_i last recorded
    apply Pass.leads_bind
    apply leads_of_keeps (keeps_attempt _) wellFormed
    intro snapshot?
    cases snapshot? with
    | none => exact wellFormed.of_candidate set nofun nofun rfl
    | some snapshot =>
        have refreshed : WellFormed
            { status with lastSnapshot := some { last with status := snapshot.status } } :=
          wellFormed.of_refreshed rfl rfl (fun _ => nofun) rfl
        by_cases ready : VolumeSnapshot.isReady snapshot = true
        · apply Pass.leads_bind
          apply Pass.leads_modify
          simp only [ready, if_true]
          exact ⟨fun _ => set, nofun, nofun, refreshed.history.pushHistory ready⟩
        · apply Pass.leads_bind
          apply Pass.leads_modify
          simp only [ready]
          exact refreshed.of_refreshed rfl rfl id rfl

/-- A pass that goes on after the pod is handed back has no candidate any more. -/
theorem leads_restorePod (wellFormed : WellFormed status) :
    round.restorePod.Leads
      (fun next status' => WellFormed status' ∧
        (next = .proceed → status'.candidate = none))
      (Falls WellFormed) status := by
  apply Pass.leads_bind
  apply Pass.leads_get
  cases recorded : status.candidate with
  | none => exact ⟨wellFormed.of_idle rfl nofun rfl, fun _ => recorded⟩
  | some candidate =>
      apply Pass.leads_bind
      apply leads_of_keeps (keeps_hold _) wellFormed
      intro released
      apply Pass.leads_bind
      apply leads_of_keeps (keeps_hasPod _) wellFormed
      intro there
      cases there with
      | true =>
          -- In between, the phase is still about a pod, but no call is made there.
          apply Pass.leads_bind
          apply Pass.leads_modify
          apply Pass.leads_bind
          apply Pass.leads_modify
          have waits : WellFormed
              { status with
                candidate := none, phase := .waitingForNext, statusMessage := none } :=
            wellFormed.of_idle rfl nofun rfl
          apply Pass.leads_bind
          apply leads_of_keeps keeps_pruneSnapshots waits
          exact fun _ => ⟨waits, fun _ => rfl⟩
      | false =>
          have set : status.candidate ≠ none := by simp [recorded]
          exact ⟨wellFormed.of_candidate set nofun nofun rfl, nofun⟩

/-! ## Passes -/

/-- One phase keeps a status well-formed. -/
theorem leads_turn (wellFormed : WellFormed status) :
    LeadsOn (round.turn status.phase) status := by
  cases phase : status.phase with
  | waitingForNext => exact leads_awaitNext wellFormed
  | findingCandidate => exact leads_chooseCandidate wellFormed
  | deletingPod => exact leads_deletePod wellFormed
  | waitingForPodDeletion => exact leads_awaitPodDeletion wellFormed phase
  | creatingSnapshot => exact leads_createSnapshot wellFormed phase
  | waitingForSnapshotCreation => exact leads_awaitSnapshot wellFormed phase
  | restoringPod =>
      exact (leads_restorePod wellFormed).mono (fun _ _ kept => kept.1) fun _ _ falls => falls
  | suspended | missingDefinition => exact wellFormed.of_idle rfl nofun rfl

/-- However many phases a pass goes through, the status stays well-formed. -/
theorem leads_advance (limit : Nat) (wellFormed : WellFormed status) :
    LeadsOn (round.advance limit) status := by
  induction limit generalizing status with
  | zero => exact wellFormed
  | succ limit inductionHypothesis =>
      apply Pass.leads_bind
      apply Pass.leads_get
      apply Pass.leads_bind
      apply (leads_turn wellFormed).mono _ fun _ _ falls => falls
      intro next status' wellFormed'
      cases next with
      | proceed => exact inductionHypothesis wellFormed'
      | wait after => exact wellFormed'

/-- A suspended scheduler comes to rest only without a candidate. -/
theorem leads_suspend (wellFormed : WellFormed status) : LeadsOn round.suspend status := by
  have rests : ∀ status' : SchedulerStatus, WellFormed status' → status'.candidate = none →
      WellFormed { status' with phase := .suspended, statusMessage := none } :=
    fun _ wellFormed' unset => ⟨nofun, nofun, fun _ => unset, wellFormed'.history⟩
  apply Pass.leads_bind
  apply Pass.leads_get
  by_cases set : status.candidate.isSome = true
  · simp only [set, if_true]
    apply Pass.leads_bind
    apply (leads_restorePod wellFormed).mono _ fun _ _ falls => falls
    rintro next status' ⟨wellFormed', handedBack⟩
    cases next with
    | proceed => exact rests status' wellFormed' (handedBack rfl)
    | wait after => exact wellFormed'
  · simp only [set]
    exact rests status wellFormed (by simpa using set)

theorem leads_resume (wellFormed : WellFormed status) : LeadsOn round.resume status := by
  apply Pass.leads_bind
  apply Pass.leads_get
  by_cases asleep : status.phase = .suspended
  · simp only [asleep, if_true]
    exact leads_advance phaseLimit (wellFormed.of_idle rfl nofun rfl)
  · simp only [asleep]
    exact leads_advance phaseLimit wellFormed

theorem leads_requireDefinition (wellFormed : WellFormed status) :
    LeadsOn requireDefinition status := by
  apply Pass.leads_bind
  apply leads_of_keeps (keeps_attempt _) wellFormed
  intro defined
  cases defined with
  | true =>
      apply Pass.leads_bind
      apply Pass.leads_get
      by_cases missing : status.phase = .missingDefinition
      · simp only [missing]
        exact wellFormed.of_idle rfl nofun rfl
      · simp only [missing]
        exact wellFormed
  | false =>
      have marked : WellFormed { status with phase := .missingDefinition } :=
        wellFormed.of_idle rfl nofun rfl
      exact ⟨by simp [Halt.LacksCandidate, causesOf], marked⟩

/-- A pass keeps a status well-formed, wherever it ends. -/
theorem leads_step (scheduler : Scheduler) (settings : Settings) (now : Instant)
    (wellFormed : WellFormed status) : LeadsOn (step scheduler settings now) status := by
  apply Pass.leads_bind
  apply (leads_requireDefinition wellFormed).mono _ fun _ _ falls => falls
  intro defined status' wellFormed'
  apply Pass.leads_bind
  apply leads_of_keeps (keeps_requireSpace scheduler) wellFormed'
  intro space
  by_cases suspended : scheduler.isSuspended = true
  · simp only [suspended, if_true]
    exact leads_suspend wellFormed'
  · simp only [suspended]
    exact leads_resume wellFormed'

end Phases

/-! ## Reachable statuses -/

/-- The statuses that a scheduler can come to have: a pass of any scheduler at any time goes
on from any of them, with any answers or none, and its outcome is recorded with a message.  As
each goes on from any, it does not matter which of them are written and which are lost. -/
inductive Reached : SchedulerStatus → Prop
  | initial : Reached .initial
  | passed {status status' : SchedulerStatus} {scheduler : Scheduler} {settings : Settings}
      {now : Instant} {result : Except (Halt PassError) Action} (reached : Reached status)
      (ends : (step scheduler settings now).MayEnd status result status') : Reached status'
  | recorded {status : SchedulerStatus} (reached : Reached status) (generation : Option Int)
      (message : Option String) :
      Reached { status with observedGeneration := generation, statusMessage := message }

theorem Reached.wellFormed {status : SchedulerStatus} (reached : Reached status) :
    WellFormed status := by
  induction reached with
  | initial => exact wellFormed_initial
  | @passed _ _ scheduler settings now result _ ends inductionHypothesis =>
      have led := (leads_step scheduler settings now inductionHypothesis).comesTo ends
      cases result with
      | ok action => exact led
      | error halt => exact led.2
  | recorded _ generation message inductionHypothesis =>
      exact inductionHypothesis.of_refreshed rfl rfl id rfl

/-- Every reachable status is well-formed, and no pass from one misses the candidate that its
phase cannot do without. -/
theorem wellFormed_of_reached {status : SchedulerStatus} (reached : Reached status) :
    WellFormed status ∧
      ∀ (scheduler : Scheduler) (settings : Settings) (now : Instant) (halt : Halt PassError)
        (status' : SchedulerStatus),
        (step scheduler settings now).MayEnd status (.error halt) status' →
          ¬ halt.LacksCandidate := by
  refine ⟨reached.wellFormed, fun scheduler settings now halt status' ends => ?_⟩
  have led := (leads_step scheduler settings now reached.wellFormed).comesTo ends
  exact led.1

/-! ## Statuses in a cluster -/

section Stored

variable {mayFail : Request → Prop} {space name : String} {start registry : Registry}
  {first : Scheduler} {turns : List Turn}

theorem Reached.ensures_step {status : SchedulerStatus} (reached : Reached status)
    (scheduler : Scheduler) (settings : Settings) (now : Instant) (ledger : Ledger) :
    (step scheduler settings now).EnsuresAlways mayFail (fun status' _ => Reached status')
      status ledger := by
  rintro ⟨result, status'⟩ final runs
  have next : Reached status' := reached.passed (Pass.Runs.mayEnd runs)
  cases result with
  | ok action => exact next
  | error halt => exact next

/-- However turns are interleaved and whatever fails in them, the stored status is
reachable. -/
theorem Interleaves.reached
    (interleaves : Interleaves mayFail space name (slotOf first) start turns registry)
    (begun : start.find? .scheduler space name = some first)
    (fresh : first.status.getD .initial = .initial) :
    Stays space name first (fun status _ => Reached status) registry := by
  have initially : Reached (first.status.getD .initial) := by
    rw [fresh]
    exact .initial
  apply interleaves.stays (fun _ status _ => Reached status) begun initially
  intro turn turns earlier stored runs continues reached
  obtain rfl : turn.scheduler.name = name := (Registry.isPlaced_of_find? stored).shownName_eq
  obtain ⟨_, status, middle, ⟨next, settled⟩, _⟩ := turn.exists_comesOut
    (fun _ status' _ => Reached status') runs stored
    (reached.ensures_step turn.scheduler turn.settings turn.now _)
  obtain ⟨latest, found, continuesLatest, _⟩ := settled.exists_latest stored continues
  refine ⟨latest, found, continuesLatest, ?_⟩
  cases settled.settles with
  | recorded version message recorded =>
      obtain rfl := Option.some.inj (found.symm.trans recorded)
      exact next.recorded _ message
  | lost kept cause =>
      obtain rfl := Option.some.inj (found.symm.trans kept)
      exact reached

end Stored

section Example

/-- The status of the scheduler once its snapshot could not be created. -/
def interruptedStatus : SchedulerStatus :=
  let fails := fun request => decide (CreatingCall request)
  let turn := turnAt "hourly" (.ofSeconds 3600) fails sampleCluster
  (heldScheduler turn.final.registry).status.getD .initial

theorem reached_interruptedStatus : Reached interruptedStatus := by
  have interleaves :
      Interleaves CreatingCall "default" "hourly" (slotOf hourly) sampleCluster _ _ :=
    Interleaves.turnAt .start find?_sampleCluster (fun _ => of_decide_eq_true) (.ofSeconds 3600)
  obtain ⟨scheduler, found, _, reached⟩ := interleaves.reached find?_sampleCluster rfl
  simpa [interruptedStatus, heldScheduler, found] using reached

/-- A status that is about a pod, for which the statement is as it says. -/
theorem wellFormed_interruptedStatus :
    interruptedStatus.phase = .creatingSnapshot ∧ WellFormed interruptedStatus ∧
      ∀ (scheduler : Scheduler) (settings : Settings) (now : Instant) (halt : Halt PassError)
        (status' : SchedulerStatus),
        (step scheduler settings now).MayEnd interruptedStatus (.error halt) status' →
          ¬ halt.LacksCandidate :=
  ⟨by decide +kernel, wellFormed_of_reached reached_interruptedStatus⟩

end Example

end NodeFleet.Snapshot
