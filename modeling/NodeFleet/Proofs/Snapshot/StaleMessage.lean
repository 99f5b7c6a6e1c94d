import NodeFleet.Proofs.Snapshot.PhaseGraph
import NodeFleet.Proofs.Store.Lockstep

/-!
# Messages that outlive their pass

The message of a status says what a scheduler waits for, or what stopped its last pass.  No phase
reads it: passes from two statuses that differ in the message alone make the same calls and come
to the same result.  Where a pass waits it leaves a message of its own, and where it finishes it
leaves none, so that the message from before is gone.  Only a pass that begins with the creation
of a snapshot waits without a word, and leaves the message as it was.
-/

namespace NodeFleet.Snapshot

open Calendar Resource Store

/-! ## What the state has nothing to do with -/

section Oblivious

variable {σ α : Type} {round : Round}

theorem oblivious_requireSpace (scheduler : Scheduler) :
    (requireSpace scheduler : Pass σ String).Oblivious :=
  Pass.oblivious_orUnrecoverable _ _

theorem oblivious_orScheduleFault (result : Except Cron.ScheduleError α) :
    (orScheduleFault result : Pass σ α).Oblivious := by
  cases result with
  | ok value => exact Pass.oblivious_pure value
  | error error => exact Pass.oblivious_throw _

theorem oblivious_failNodeMissing : (round.failNodeMissing : Pass σ α).Oblivious :=
  Pass.oblivious_throw _

theorem oblivious_hold (pod : Option String) : (round.hold pod : Pass σ Unit).Oblivious := by
  apply Pass.oblivious_bind (Pass.oblivious_attempt _)
  intro node?
  cases node? with
  | some node =>
      apply Pass.oblivious_bind (Pass.oblivious_attempt _)
      exact fun _ => Pass.oblivious_pure ()
  | none =>
      by_cases there : pod.isSome = true
      · simp only [there, if_true]
        exact oblivious_failNodeMissing
      · simp only [there]
        exact Pass.oblivious_pure ()

theorem oblivious_hasPod (name : String) : (round.hasPod name : Pass σ Bool).Oblivious :=
  Pass.oblivious_bind (Pass.oblivious_attempt _) fun _ => Pass.oblivious_pure _

theorem oblivious_findCandidate (node : FullNode) (minAvailable : Nat) (pin : Option Int) :
    (findCandidate node minAvailable pin : Pass σ Candidate).Oblivious := by
  apply Pass.oblivious_bind (Pass.oblivious_orUnrecoverable _ _)
  intro space
  apply Pass.oblivious_bind (Pass.oblivious_attempt _)
  intro pods
  cases select (inSyncPods node pods) minAvailable pin with
  | ok candidate => exact Pass.oblivious_pure candidate
  | error cause => exact Pass.oblivious_throw _

theorem oblivious_takeSnapshot (candidate : Candidate) :
    (round.takeSnapshot candidate : Pass σ (String × Option Timestamp)).Oblivious := by
  have searched : (round.inFlight? candidate.claimName :
      Pass σ (Option VolumeSnapshot)).Oblivious :=
    Pass.oblivious_bind (Pass.oblivious_attempt _) fun _ => Pass.oblivious_pure _
  apply Pass.oblivious_bind searched
  intro snapshot?
  cases snapshot? with
  | some snapshot => exact Pass.oblivious_pure _
  | none =>
      apply Pass.oblivious_bind (Pass.oblivious_attempt _)
      exact fun _ => Pass.oblivious_bind (Pass.oblivious_notify _ _) fun _ => Pass.oblivious_pure _

theorem oblivious_deleteEach (space : String) (names : List String) :
    (deleteEach space names : Pass σ (List String × List PassError)).Oblivious := by
  induction names with
  | nil => exact Pass.oblivious_pure _
  | cons name names inductionHypothesis =>
      apply Pass.oblivious_bind (Pass.oblivious_perform _)
      intro result
      apply Pass.oblivious_bind inductionHypothesis
      rintro ⟨deleted, errors⟩
      cases result with
      | ok gone => exact Pass.oblivious_pure _
      | error error => exact Pass.oblivious_pure _

theorem oblivious_pruneSnapshots : (round.pruneSnapshots : Pass σ Unit).Oblivious := by
  have pruned : (prune round.space round.scheduler.snapshotSelector round.scheduler.limit :
      Pass σ (List String)).Oblivious := by
    apply Pass.oblivious_bind (Pass.oblivious_attempt _)
    intro snapshots
    apply Pass.oblivious_bind (oblivious_deleteEach _ _)
    rintro ⟨deleted, errors⟩
    cases gathered : PassError.gather errors with
    | none =>
        simp only [gathered]
        exact Pass.oblivious_pure deleted
    | some error =>
        simp only [gathered]
        exact Pass.oblivious_throw _
  apply Pass.oblivious_bind pruned
  exact Pass.oblivious_forM fun name => Pass.oblivious_notify _ _

end Oblivious

/-! ## Two statuses that differ in the message -/

/-- Two statuses are the same but for their messages. -/
def SameButMessage (left right : SchedulerStatus) : Prop :=
  right = { left with statusMessage := right.statusMessage }

/-- Two statuses are the same but for their messages, which are given. -/
structure Twins (message message' : Option String) (left right : SchedulerStatus) : Prop where
  said : left.statusMessage = message
  same : right = { left with statusMessage := message' }

/-- What a turn makes of twins: one status where the pass waits, and where it goes on, one status
or twins again. -/
def Merges (message message' : Option String) : Next → SchedulerStatus → SchedulerStatus → Prop
  | .wait _, left, right => left = right
  | .proceed, left, right =>
      left = right ∨ Twins message message' left right ∧ left.phase ≠ .creatingSnapshot

variable {message message' : Option String} {left right status : SchedulerStatus}
  {scheduler : Scheduler} {settings : Settings} {now : Instant} {round : Round}

theorem SameButMessage.refl (status : SchedulerStatus) : SameButMessage status status := rfl

namespace Twins

theorem sameButMessage (twins : Twins message message' left right) : SameButMessage left right := by
  obtain ⟨rfl, rfl⟩ := twins
  rfl

theorem phase_eq (twins : Twins message message' left right) : right.phase = left.phase := by
  rw [twins.same]

theorem candidate_eq (twins : Twins message message' left right) :
    right.candidate = left.candidate := by
  rw [twins.same]

theorem lastSnapshot_eq (twins : Twins message message' left right) :
    right.lastSnapshot = left.lastSnapshot := by
  rw [twins.same]

theorem eq_iff (twins : Twins message message' left right) :
    left = right ↔ message = message' := by
  obtain ⟨rfl, rfl⟩ := twins
  constructor
  · exact congrArg SchedulerStatus.statusMessage
  · rintro rfl
    rfl

variable {α β : Type} {done : α → SchedulerStatus → SchedulerStatus → Prop}

/-- The rule for a part of a pass that has nothing to do with the status. -/
theorem inStep_past {first : Pass SchedulerStatus β} {next next' : β → Pass SchedulerStatus α}
    (twins : Twins message message' left right) (oblivious : first.Oblivious)
    (rest : ∀ value, Pass.InStep done SameButMessage (next value) (next' value) left right) :
    Pass.InStep done SameButMessage (first >>= next) (first >>= next') left right :=
  oblivious.inStep twins.sameButMessage rest

/-- The rule for a change of the status that lets the message be. -/
theorem inStep_change {change : SchedulerStatus → SchedulerStatus}
    {next next' : Unit → Pass SchedulerStatus α} (twins : Twins message message' left right)
    (keeps : (change left).statusMessage = left.statusMessage)
    (commutes : change { left with statusMessage := message' } =
      { change left with statusMessage := message' })
    (rest : Twins message message' (change left) (change right) →
      Pass.InStep done SameButMessage (next ()) (next' ()) (change left) (change right)) :
    Pass.InStep done SameButMessage (modify change >>= next) (modify change >>= next') left
      right := by
  apply Pass.inStep_modify_bind
  apply rest
  exact ⟨keeps.trans twins.said, by rw [twins.same, commutes]⟩

/-- The rule for a change of the status that writes over the message. -/
theorem inStep_overwrite {change : SchedulerStatus → SchedulerStatus}
    {next next' : Unit → Pass SchedulerStatus α} (twins : Twins message message' left right)
    (overwrites : change { left with statusMessage := message' } = change left)
    (rest : Pass.InStep done SameButMessage (next ()) (next' ()) (change left) (change left)) :
    Pass.InStep done SameButMessage (modify change >>= next) (modify change >>= next') left
      right := by
  apply Pass.inStep_modify_bind
  rw [twins.same, overwrites]
  exact rest

/-- The rule for the end of a turn that lets the message be. -/
theorem inStep_goesOn {change : SchedulerStatus → SchedulerStatus}
    (twins : Twins message message' left right)
    (keeps : (change left).statusMessage = left.statusMessage)
    (commutes : change { left with statusMessage := message' } =
      { change left with statusMessage := message' })
    (other : (change left).phase ≠ .creatingSnapshot) :
    Pass.InStep (Merges message message') SameButMessage
      (modify change >>= fun _ => pure .proceed) (modify change >>= fun _ => pure .proceed) left
      right :=
  twins.inStep_change keeps commutes fun twins => Pass.inStep_pure _ (Or.inr ⟨twins, other⟩)

/-- The rule for a phase that cannot do without a candidate. -/
theorem inStep_requireCandidate {next next' : Candidate → Pass SchedulerStatus α}
    (twins : Twins message message' left right)
    (rest : ∀ candidate, Pass.InStep done SameButMessage (next candidate) (next' candidate) left
      right) :
    Pass.InStep done SameButMessage (requireCandidate >>= next) (requireCandidate >>= next') left
      right := by
  apply Pass.inStep_bind
  apply Pass.inStep_get_bind
  rw [twins.candidate_eq, twins.phase_eq]
  cases left.candidate with
  | none => exact Pass.inStep_throw _ twins.sameButMessage
  | some candidate => exact Pass.inStep_pure candidate (rest candidate)

end Twins

/-! ## Turns -/

section Turns

/-- A look at the last snapshot has nothing to do with the message. -/
theorem inStep_isPending (twins : Twins message message' left right) :
    Pass.InStep (fun _ => Twins message message') SameButMessage (isPending scheduler)
      (isPending scheduler) left right := by
  apply Pass.inStep_get_bind
  rw [twins.lastSnapshot_eq]
  cases left.lastSnapshot with
  | none => exact Pass.inStep_pure false twins
  | some last =>
      by_cases ready : last.isReady = true
      · simp only [ready, if_true]
        exact Pass.inStep_pure false twins
      · simp only [ready]
        apply twins.inStep_past (oblivious_requireSpace scheduler)
        intro space
        apply twins.inStep_past (Pass.oblivious_attempt _)
        intro snapshot?
        cases snapshot? with
        | none => exact Pass.inStep_pure false twins
        | some snapshot => exact twins.inStep_change rfl rfl fun twins => Pass.inStep_pure _ twins

theorem inStep_timeToNext {poll : Duration} (twins : Twins message message' left right) :
    Pass.InStep (fun _ => Twins message message') SameButMessage
      (timeToNext scheduler now poll) (timeToNext scheduler now poll) left right := by
  apply twins.inStep_past (oblivious_orScheduleFault _)
  intro schedule
  apply (inStep_isPending twins).bind
  intro pending looked looked' twins
  cases pending with
  | true => exact Pass.inStep_pure poll twins
  | false =>
      apply Pass.inStep_get_bind
      have referred : reference scheduler looked' now = reference scheduler looked now := by
        rw [reference, reference, twins.lastSnapshot_eq]
      rw [referred]
      apply (oblivious_orScheduleFault _ _ _).mono
      · rintro wait _ _ ⟨rfl, rfl⟩
        exact twins
      · rintro _ _ ⟨rfl, rfl⟩
        exact twins.sameButMessage

/-- A wait for the next time says how long it is. -/
theorem inStep_awaitNext (twins : Twins message message' left right) :
    Pass.InStep (Merges message message') SameButMessage round.awaitNext round.awaitNext
      left right := by
  apply (inStep_timeToNext twins).bind
  intro wait looked looked' twins
  by_cases due : wait = .zero
  · simp only [due, if_true]
    exact twins.inStep_overwrite rfl (Pass.inStep_pure _ (Or.inl rfl))
  · simp only [due]
    exact twins.inStep_overwrite rfl (Pass.inStep_pure _ rfl)

theorem inStep_chooseCandidate (twins : Twins message message' left right) :
    Pass.InStep (Merges message message') SameButMessage round.chooseCandidate
      round.chooseCandidate left right := by
  apply twins.inStep_past (Pass.oblivious_attempt _)
  intro node?
  cases node? with
  | none => exact Pass.inStep_throw _ twins.sameButMessage
  | some node =>
      apply twins.inStep_past (oblivious_findCandidate _ _ _)
      intro candidate
      exact twins.inStep_goesOn rfl rfl nofun

theorem inStep_deletePod (twins : Twins message message' left right) :
    Pass.InStep (Merges message message') SameButMessage round.deletePod round.deletePod
      left right := by
  apply Pass.inStep_get_bind
  rw [twins.candidate_eq]
  cases left.candidate with
  | none => exact twins.inStep_goesOn rfl rfl nofun
  | some candidate =>
      apply twins.inStep_past (oblivious_hold _)
      intro held
      apply twins.inStep_past (Pass.oblivious_attempt _)
      intro deleted
      apply twins.inStep_past (Pass.oblivious_notify _ _)
      intro told
      exact twins.inStep_goesOn rfl rfl nofun

/-- A wait for a pod to go says which one. -/
theorem inStep_awaitPodDeletion (twins : Twins message message' left right) :
    Pass.InStep (Merges message message') SameButMessage round.awaitPodDeletion
      round.awaitPodDeletion left right := by
  apply twins.inStep_requireCandidate
  intro candidate
  apply twins.inStep_past (oblivious_hasPod _)
  intro there
  cases there with
  | true => exact twins.inStep_overwrite rfl (Pass.inStep_pure _ rfl)
  | false => exact twins.inStep_overwrite rfl (Pass.inStep_pure _ (Or.inl rfl))

/-- The creation of a snapshot ends the pass without a word. -/
theorem inStep_createSnapshot (twins : Twins message message' left right) :
    Pass.InStep (fun next left' right' => next = .wait round.settings.snapshotPoll ∧
        Twins message message' left' right') SameButMessage round.createSnapshot
      round.createSnapshot left right := by
  apply twins.inStep_requireCandidate
  intro candidate
  apply twins.inStep_past (oblivious_takeSnapshot candidate)
  rintro ⟨name, createdAt⟩
  apply twins.inStep_past (Pass.oblivious_orUnrecoverable _ _)
  intro startedAt
  exact twins.inStep_change rfl rfl fun twins => Pass.inStep_pure _ ⟨rfl, twins⟩

/-- A wait for a snapshot says which one, and what is wrong with it. -/
theorem inStep_awaitSnapshot (twins : Twins message message' left right) :
    Pass.InStep (Merges message message') SameButMessage round.awaitSnapshot round.awaitSnapshot
      left right := by
  apply Pass.inStep_get_bind
  rw [twins.lastSnapshot_eq]
  cases left.lastSnapshot with
  | none => exact twins.inStep_goesOn rfl rfl nofun
  | some last =>
      apply twins.inStep_past (Pass.oblivious_attempt _)
      intro snapshot?
      cases snapshot? with
      | none => exact twins.inStep_goesOn rfl rfl nofun
      | some snapshot =>
          apply twins.inStep_change rfl rfl
          intro twins
          by_cases ready : VolumeSnapshot.isReady snapshot = true
          · simp only [ready, if_true]
            apply twins.inStep_change rfl rfl
            intro twins
            exact twins.inStep_overwrite rfl (Pass.inStep_pure _ (Or.inl rfl))
          · simp only [ready]
            exact twins.inStep_overwrite rfl (Pass.inStep_pure _ rfl)

/-- A wait for a pod to come back says which one. -/
theorem inStep_restorePod (twins : Twins message message' left right) :
    Pass.InStep (Merges message message') SameButMessage round.restorePod round.restorePod
      left right := by
  apply Pass.inStep_get_bind
  rw [twins.candidate_eq]
  cases left.candidate with
  | none => exact twins.inStep_goesOn rfl rfl nofun
  | some candidate =>
      apply twins.inStep_past (oblivious_hold _)
      intro released
      apply twins.inStep_past (oblivious_hasPod _)
      intro there
      cases there with
      | true =>
          apply twins.inStep_change rfl rfl
          intro twins
          apply twins.inStep_overwrite rfl
          apply oblivious_pruneSnapshots.inStep (SameButMessage.refl _)
          exact fun _ => Pass.inStep_pure _ (Or.inl rfl)
      | false => exact twins.inStep_overwrite rfl (Pass.inStep_pure _ rfl)

theorem inStep_turn (other : left.phase ≠ .creatingSnapshot)
    (twins : Twins message message' left right) :
    Pass.InStep (Merges message message') SameButMessage (round.turn left.phase)
      (round.turn left.phase) left right := by
  cases phase : left.phase with
  | waitingForNext => exact inStep_awaitNext twins
  | findingCandidate => exact inStep_chooseCandidate twins
  | deletingPod => exact inStep_deletePod twins
  | waitingForPodDeletion => exact inStep_awaitPodDeletion twins
  | creatingSnapshot => exact absurd phase other
  | waitingForSnapshotCreation => exact inStep_awaitSnapshot twins
  | restoringPod => exact inStep_restorePod twins
  | suspended | missingDefinition => exact twins.inStep_goesOn rfl rfl nofun

end Turns

/-! ## Passes -/

namespace Round

/-- A pass that does not begin with the creation of a snapshot, and may take the turns that are
left, comes to one status. -/
theorem inStep_advance {limit : Nat} (twins : Twins message message' left right)
    (other : left.phase ≠ .creatingSnapshot) (enough : turnsLeft left ≤ limit) :
    Pass.InStep (fun _ left' right' => left' = right') SameButMessage (round.advance limit)
      (round.advance limit) left right := by
  induction limit generalizing left right with
  | zero =>
      have atLeast := (turnsLeft_bounds left).1
      omega
  | succ limit inductionHypothesis =>
      apply Pass.inStep_get_bind
      rw [twins.phase_eq]
      apply ((inStep_turn other twins).and_leads leadsAhead_turn).bind
      rintro next left' right' ⟨merges, advances⟩
      cases next with
      | wait after => exact Pass.inStep_pure _ merges
      | proceed =>
          -- Twins that go on do not create a snapshot next, and have fewer turns left.
          rcases merges with rfl | ⟨twins', other'⟩
          · exact Pass.inStep_refl _ left' SameButMessage.refl
          · have fewer := advances.turnsLeft_lt
            exact inductionHypothesis twins' other' (by omega)

/-- A pass that begins with the creation of a snapshot ends with it, and leaves the message. -/
theorem inStep_advance_of_creates {limit : Nat} (twins : Twins message message' left right)
    (creates : left.phase = .creatingSnapshot) :
    Pass.InStep (fun _ => Twins message message') SameButMessage (round.advance (limit + 1))
      (round.advance (limit + 1)) left right := by
  apply Pass.inStep_get_bind
  rw [twins.phase_eq, creates]
  apply (inStep_createSnapshot twins).bind
  rintro _ left' right' ⟨rfl, twins'⟩
  exact Pass.inStep_pure _ twins'

/-- A suspended scheduler comes to rest without a message, or waits for its pod. -/
theorem inStep_suspend (twins : Twins message message' left right) :
    Pass.InStep (fun _ left' right' => left' = right') SameButMessage round.suspend round.suspend
      left right := by
  apply Pass.inStep_get_bind
  rw [twins.candidate_eq]
  have rests : ∀ {left right : SchedulerStatus},
      left = right ∨ Twins message message' left right →
        Pass.InStep (fun _ left' right' => left' = right') SameButMessage
          (enter .suspended none >>= fun _ => pure Action.awaitChange)
          (enter .suspended none >>= fun _ => pure Action.awaitChange) left right := by
    rintro left right (rfl | twins)
    · exact Pass.inStep_refl _ left SameButMessage.refl
    · exact twins.inStep_overwrite rfl (Pass.inStep_pure _ rfl)
  by_cases set : left.candidate.isSome = true
  · simp only [set, if_true]
    apply (inStep_restorePod twins).bind
    intro next left' right' merges
    cases next with
    | wait after => exact Pass.inStep_pure _ merges
    | proceed => exact rests (merges.imp_right And.left)
  · simp only [set]
    exact rests (Or.inr twins)

theorem inStep_resume (twins : Twins message message' left right)
    (other : left.phase ≠ .creatingSnapshot) :
    Pass.InStep (fun _ left' right' => left' = right') SameButMessage round.resume round.resume
      left right := by
  have goesOn : ∀ {left right : SchedulerStatus}, Twins message message' left right →
      left.phase ≠ .creatingSnapshot →
        Pass.InStep (fun _ left' right' => left' = right') SameButMessage
          (round.advance phaseLimit) (round.advance phaseLimit) left right := by
    intro left right twins other
    have short := (turnsLeft_bounds left).2
    exact inStep_advance twins other (Nat.le_trans short (by decide))
  apply Pass.inStep_get_bind
  rw [twins.phase_eq]
  by_cases asleep : left.phase = .suspended
  · simp only [asleep, if_true]
    exact twins.inStep_change rfl rfl fun twins => goesOn twins nofun
  · simp only [asleep, if_false]
    exact goesOn twins other

theorem inStep_resume_of_creates (twins : Twins message message' left right)
    (creates : left.phase = .creatingSnapshot) :
    Pass.InStep (fun _ => Twins message message') SameButMessage round.resume round.resume
      left right := by
  apply Pass.inStep_get_bind
  rw [twins.phase_eq]
  simp only [creates, reduceCtorEq, if_false]
  exact inStep_advance_of_creates twins creates

end Round

/-- Whether snapshots are defined has nothing to do with the message. -/
theorem inStep_requireDefinition (twins : Twins message message' left right) :
    Pass.InStep (fun _ left' right' => Twins message message' left' right' ∧
        (left'.phase = .creatingSnapshot ↔ left.phase = .creatingSnapshot)) SameButMessage
      requireDefinition requireDefinition left right := by
  apply twins.inStep_past (Pass.oblivious_attempt _)
  intro defined
  cases defined with
  | true =>
      apply Pass.inStep_get_bind
      rw [twins.phase_eq]
      by_cases missing : left.phase = .missingDefinition
      · simp only [missing]
        exact twins.inStep_change rfl rfl fun twins => Pass.inStep_pure () ⟨twins, nofun, nofun⟩
      · simp only [missing]
        exact Pass.inStep_pure () ⟨twins, Iff.rfl⟩
  | false =>
      apply twins.inStep_change rfl rfl
      intro twins
      exact Pass.inStep_throw _ twins.sameButMessage

/-- The pass of a scheduler begins with the creation of a snapshot. -/
def CreatesFirst (scheduler : Scheduler) (status : SchedulerStatus) : Prop :=
  scheduler.isSuspended = false ∧ status.phase = .creatingSnapshot

/-- What a pass makes of twins: one status, or twins again if it begins with the creation of a
snapshot. -/
def Meet (createsFirst : Prop) (message message' : Option String)
    (left right : SchedulerStatus) : Prop :=
  ¬ createsFirst ∧ left = right ∨ createsFirst ∧ Twins message message' left right

theorem Meet.eq_iff {createsFirst : Prop} (meet : Meet createsFirst message message' left right) :
    left = right ↔ message = message' ∨ ¬ createsFirst := by
  rcases meet with ⟨other, rfl⟩ | ⟨first, twins⟩
  · simp [other]
  · simp [first, twins.eq_iff]

theorem Meet.statusMessage_eq {createsFirst : Prop}
    (meet : Meet createsFirst message message' left right) (first : createsFirst) :
    left.statusMessage = message := by
  rcases meet with ⟨other, _⟩ | ⟨_, twins⟩
  · exact absurd first other
  · exact twins.said

theorem Meet.sameButMessage {createsFirst : Prop}
    (meet : Meet createsFirst message message' left right) : SameButMessage left right := by
  rcases meet with ⟨_, rfl⟩ | ⟨_, twins⟩
  · exact SameButMessage.refl left
  · exact twins.sameButMessage

theorem inStep_step (scheduler : Scheduler) (settings : Settings) (now : Instant)
    (twins : Twins message message' left right) :
    Pass.InStep (fun _ => Meet (CreatesFirst scheduler left) message message') SameButMessage
      (step scheduler settings now) (step scheduler settings now) left right := by
  apply (inStep_requireDefinition twins).bind
  rintro _ found found' ⟨twins, same⟩
  apply twins.inStep_past (oblivious_requireSpace scheduler)
  intro space
  by_cases suspended : scheduler.isSuspended = true
  · simp only [suspended, if_true]
    apply (Round.inStep_suspend twins).mono _ fun _ _ same => same
    exact fun _ _ _ one => Or.inl ⟨by simp [CreatesFirst, suspended], one⟩
  · simp only [suspended]
    by_cases creates : found.phase = .creatingSnapshot
    · apply (Round.inStep_resume_of_creates twins creates).mono _ fun _ _ same => same
      exact fun _ _ _ twins => Or.inr ⟨⟨by simpa using suspended, same.1 creates⟩, twins⟩
    · apply (Round.inStep_resume twins creates).mono _ fun _ _ same => same
      exact fun _ _ _ one => Or.inl ⟨fun first => creates (same.2 first.2), one⟩

/-! ## Runs -/

/-- How the pass of a scheduler ends from a status, and the world it leaves, whatever serves
it. -/
def passFrom {World : Type} (serve : (request : Request) → World → Answer request × World)
    (world : World) (scheduler : Scheduler) (settings : Settings) (now : Instant)
    (status : SchedulerStatus) : (Except (Halt PassError) Action × SchedulerStatus) × World :=
  ((step scheduler settings now).run.run status : Program _).run serve world

/-- Whatever serves it, a pass from a status with another message does the same to the world, and
comes to the same result and to a status that is the same but for its message.  Where it succeeds,
the status is the same altogether exactly if the messages were or if the pass does not begin with
the creation of a snapshot.  One that does leaves the message as it was. -/
theorem message_forgotten_iff {World : Type}
    (serve : (request : Request) → World → Answer request × World) (world : World)
    (scheduler : Scheduler) (settings : Settings) (now : Instant) (status : SchedulerStatus)
    (message : Option String) :
    let ending := passFrom serve world scheduler settings now status
    let ending' := passFrom serve world scheduler settings now
      { status with statusMessage := message }
    ending.1.1 = ending'.1.1 ∧ ending.2 = ending'.2 ∧ SameButMessage ending.1.2 ending'.1.2 ∧
      ∀ action, ending.1.1 = .ok action →
        (ending.1.2 = ending'.1.2 ↔
          status.statusMessage = message ∨ ¬ CreatesFirst scheduler status) ∧
        (CreatesFirst scheduler status →
          ending.1.2.statusMessage = status.statusMessage) := by
  intro ending ending'
  have twins : Twins status.statusMessage message status
      { status with statusMessage := message } := ⟨rfl, rfl⟩
  obtain ⟨alike, sameWorld⟩ :=
    Program.InStep.run (inStep_step scheduler settings now twins) serve world
  change Pass.endsAlike _ _ ending.1 ending'.1 at alike
  change ending.2 = ending'.2 at sameWorld
  obtain ⟨⟨result, final⟩, after⟩ := ending
  obtain ⟨⟨result', final'⟩, after'⟩ := ending'
  cases result with
  | error halt =>
      cases result' with
      | error halt' => exact ⟨congrArg Except.error alike.1, sameWorld, alike.2, nofun⟩
      | ok action' => exact alike.elim
  | ok action =>
      cases result' with
      | error halt' => exact alike.elim
      | ok action' =>
          obtain ⟨same, meet⟩ := alike
          refine ⟨congrArg Except.ok same, sameWorld, meet.sameButMessage, fun _ _ => ?_⟩
          exact ⟨meet.eq_iff, meet.statusMessage_eq⟩

/-! ## A message that survives -/

/-- The messages of two statuses that differ in nothing else are gone after passes that succeed:
they come to one status. -/
def ForgetsMessage : Prop :=
  ∀ (World : Type) (serve : (request : Request) → World → Answer request × World) (world : World)
    (scheduler : Scheduler) (settings : Settings) (now : Instant) (status : SchedulerStatus)
    (message : Option String) (action action' : Action),
    let ending := passFrom serve world scheduler settings now status
    let ending' := passFrom serve world scheduler settings now
      { status with statusMessage := message }
    ending.1.1 = .ok action → ending'.1.1 = .ok action' → ending.1.2 = ending'.1.2

section Example

/-- The cluster once the snapshot of the hourly scheduler could not be created. -/
def interruptedCluster : Registry :=
  (turnAt "hourly" (.ofSeconds 3600) (fun request => decide (CreatingCall request))
    sampleCluster).final.registry

/-- How the hourly scheduler ends five seconds later, from a status. -/
def retriedPass (status : SchedulerStatus) :
    (Except (Halt PassError) Action × SchedulerStatus) × Ledger :=
  passFrom (Program.serve fun _ => false) (.opened interruptedCluster) hourly .standard
    (.ofSeconds 3605) status

/-- The status of the scheduler without its message. -/
def silentStatus : SchedulerStatus := { interruptedStatus with statusMessage := none }

/-- The scheduler creates its snapshot at the second attempt, with a message or without. -/
theorem course_retriedPass :
    (retriedPass interruptedStatus).1.1.toOption = some (.requeue (.ofSeconds 10)) ∧
      (retriedPass silentStatus).1.1.toOption = some (.requeue (.ofSeconds 10)) ∧
      (retriedPass interruptedStatus).1.2 ≠ (retriedPass silentStatus).1.2 ∧
      interruptedStatus.phase = .creatingSnapshot ∧
      interruptedStatus.statusMessage =
        some "Kubernetes API error: Error deserializing response" := by
  decide +kernel

/-- The message of the pass that could not create the snapshot is still there after the pass that
could. -/
theorem message_forgotten_iff_of_interrupted :
    CreatesFirst hourly interruptedStatus ∧
      interruptedStatus.statusMessage =
        some "Kubernetes API error: Error deserializing response" ∧
      (retriedPass interruptedStatus).1.1 = .ok (.requeue (.ofSeconds 10)) ∧
      (retriedPass interruptedStatus).1.2.statusMessage = interruptedStatus.statusMessage := by
  obtain ⟨succeeds, _, _, creates, told⟩ := course_retriedPass
  have first : CreatesFirst hourly interruptedStatus := ⟨rfl, creates⟩
  have ends := eq_ok_of_toOption succeeds
  have outcome := message_forgotten_iff (Program.serve fun _ => false)
    (.opened interruptedCluster) hourly .standard (.ofSeconds 3605) interruptedStatus none
  exact ⟨first, told, ends, (outcome.2.2.2 _ ends).2 first⟩

/-- A pass that creates the snapshot at the second attempt succeeds, and the message of the first
one survives it. -/
theorem not_forgetsMessage_of_interrupted : ¬ ForgetsMessage := by
  intro forgets
  obtain ⟨succeeds, silent, differ, _⟩ := course_retriedPass
  exact differ (forgets _ _ _ _ _ _ _ none _ _ (eq_ok_of_toOption succeeds)
    (eq_ok_of_toOption silent))

end Example

end NodeFleet.Snapshot
