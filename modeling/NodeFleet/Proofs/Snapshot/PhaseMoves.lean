import NodeFleet.Proofs.Snapshot.Moves
import NodeFleet.Proofs.Snapshot.PassRules

/-!
# Every phase makes a move

Each phase of a pass makes one move, whatever fails, so that a pass upholds what all moves
uphold.
-/

namespace NodeFleet.Snapshot

open Calendar Cron Resource Store

variable {mayFail : Request → Prop}

variable {round : Round} {status : SchedulerStatus} {ledger : Ledger}

/-- A status is looked at again, and its phase and candidate stay. -/
structure Ponders (status : SchedulerStatus) (ledger : Ledger) (status' : SchedulerStatus)
    (final : Ledger) : Prop where
  akin : Akin status status'
  phase : status'.phase = status.phase
  reads : ledger.Reads AsideCall final

theorem Ponders.refl (status : SchedulerStatus) (ledger : Ledger) :
    Ponders status ledger status ledger :=
  ⟨.refl status, rfl, .refl _ ledger⟩

/-- To ponder and stay in a phase is a move. -/
theorem Ponders.moves {status' : SchedulerStatus} {final : Ledger}
    (ponders : Ponders status ledger status' final) (ending : Ending) :
    round.Moves mayFail status ledger ending status' final :=
  .looks (spares_of_reads _ ponders.reads) ponders.akin (ponders.phase ▸ .same ending)

theorem akin_refreshed {last : SnapshotRecord} (recorded : status.lastSnapshot = some last)
    (found : Option SnapshotStatus) :
    Akin status { status with lastSnapshot := some { last with status := found } } :=
  ⟨rfl, by simp [startedAt?, recorded]⟩

theorem asideCall_get {kind : Kind} (notPod : kind ≠ .pod) (space name : String) :
    AsideCall (.get kind space name) := by
  refine ⟨trivial, fun touches => ?_⟩
  cases kind with
  | pod => exact notPod rfl
  | _ => exact touches

theorem asideCall_list (kind : Kind) (space selector : String) :
    AsideCall (.list kind space selector) :=
  ⟨trivial, id⟩

theorem asideCall_publish (event : Event) : AsideCall (.publish event) := ⟨trivial, id⟩

theorem ensures_isPending (scheduler : Scheduler) :
    (isPending scheduler).EnsuresAlways mayFail (Ponders status ledger) status ledger := by
  have looking : ∀ space name, AsideCall (.get .volumeSnapshot space name) :=
    asideCall_get (by decide)
  have still := Ponders.refl status ledger
  refine Pass.ensures_bind (Pass.ensures_get ?_)
  cases recorded : status.lastSnapshot with
  | none => exact Pass.ensures_pure _ still
  | some last =>
      dsimp only
      split
      · exact Pass.ensures_pure _ still
      refine Pass.ensures_bind ?_
      unfold requireSpace Pass.orUnrecoverable
      split
      · refine Pass.ensures_pure _ (Pass.ensures_bind (Pass.ensures_attempt
          (Exchange.ensures_get? (fun snapshot there => ?_) (fun missing => ?_)
            fun error final nothing => ?_)))
        · refine Pass.ensures_bind (Pass.ensures_modify (Pass.ensures_pure _ ?_))
          exact ⟨akin_refreshed recorded _, rfl, still.reads.add (looking _ _) _⟩
        · exact Pass.ensures_pure _ ⟨.refl status, rfl, still.reads.add (looking _ _) _⟩
        · exact ⟨.refl status, rfl, nothing.reads (looking _ _) still.reads⟩
      · exact Pass.ensures_throw _ still

/-- The time to wait is that of a poll, or runs to the next time of the schedule. -/
theorem ensures_timeToNext (scheduler : Scheduler) (now : Instant) (poll : Duration) :
    (timeToNext scheduler now poll).Ensures mayFail
      (fun wait status' final => Ponders status ledger status' final ∧ (wait = poll ∨
        ∃ schedule, Schedule.parse scheduler.spec.schedule = .ok schedule ∧
          schedule.untilNext scheduler.spec.schedule (reference scheduler status now) now =
            .ok wait))
      (fun _ => Ponders status ledger) status ledger := by
  refine Pass.ensures_bind ?_
  unfold orScheduleFault
  split
  · rename_i schedule parsed
    refine Pass.ensures_pure _ (Pass.ensures_bind ((ensures_isPending scheduler).mono ?_
      fun _ _ _ ponders => ponders))
    intro pending status' final ponders
    split
    · exact Pass.ensures_pure _ ⟨ponders, Or.inl rfl⟩
    · refine Pass.ensures_bind (Pass.ensures_get ?_)
      rw [reference_eq_of_akin scheduler now ponders.akin]
      split
      · rename_i wait waits
        exact Pass.ensures_pure _ ⟨ponders, Or.inr ⟨schedule, parsed, waits⟩⟩
      · exact Pass.ensures_throw _ ponders
  · exact Pass.ensures_throw _ (.refl status ledger)

namespace Round

/-- Every run of a phase is a move. -/
abbrev EnsuresMove (mayFail : Request → Prop) (round : Round) (phase : Pass SchedulerStatus Next)
    (status : SchedulerStatus) (ledger : Ledger) : Prop :=
  phase.Ensures mayFail (fun next => round.Moves mayFail status ledger next.ending)
    (fun _ => round.Moves mayFail status ledger .halts) status ledger

theorem ensuresMove_awaitNext (phase : status.phase = .waitingForNext) :
    round.EnsuresMove mayFail round.awaitNext status ledger := by
  refine Pass.ensures_bind ((ensures_timeToNext round.scheduler round.now
    round.settings.snapshotPoll).mono ?_ fun _ _ _ ponders => ponders.moves .halts)
  intro wait status' final ⟨ponders, timely⟩
  split
  · rename_i zero
    refine Pass.ensures_bind (Pass.ensures_modify (Pass.ensures_pure _ ?_))
    refine .looks (spares_of_reads _ ponders.reads) ⟨ponders.akin.candidate, ponders.akin.startedAt⟩
      (.due phase ?_)
    rw [zero] at timely
    exact timely.imp_left Eq.symm
  · refine Pass.ensures_bind (Pass.ensures_modify (Pass.ensures_pure _ ?_))
    refine Ponders.moves ?_ .waits
    exact ⟨⟨ponders.akin.candidate, ponders.akin.startedAt⟩, ponders.phase, ponders.reads⟩

theorem ensures_findCandidate (node : FullNode) (minAvailable : Nat) (pin : Option Int) :
    (findCandidate node minAvailable pin).EnsuresAlways mayFail
      (fun status' final => status' = status ∧ ledger.Reads AsideCall final) status ledger := by
  have still := Ledger.Reads.refl AsideCall ledger
  refine Pass.ensures_bind ?_
  unfold Pass.namespaceOf Pass.orUnrecoverable
  split
  · refine Pass.ensures_pure _ (Pass.ensures_bind (Pass.ensures_attempt
      (Exchange.ensures_list ?_ fun error final nothing => ?_)))
    · split
      · exact Pass.ensures_pure _ ⟨rfl, still.add (asideCall_list _ _ _) _⟩
      · exact Pass.ensures_throw _ ⟨rfl, still.add (asideCall_list _ _ _) _⟩
    · exact ⟨rfl, nothing.reads (asideCall_list _ _ _) still⟩
  · exact Pass.ensures_throw _ ⟨rfl, still⟩

theorem ensuresMove_chooseCandidate (awake : round.scheduler.isSuspended = false)
    (phase : status.phase = .findingCandidate) :
    round.EnsuresMove mayFail round.chooseCandidate status ledger := by
  have looking : AsideCall (.get .fullNode round.space round.nodeName) :=
    asideCall_get (by decide) _ _
  have still := Ledger.Reads.refl AsideCall ledger
  have stops : ∀ final, ledger.Reads AsideCall final →
      round.Moves mayFail status ledger .halts status final := fun final reads =>
    Ponders.moves ⟨.refl status, rfl, reads⟩ .halts
  refine Pass.ensures_bind (Pass.ensures_attempt (Exchange.ensures_get?
    (fun node there => ?_) (fun missing => ?_) fun error final nothing => ?_))
  · refine Pass.ensures_bind ((ensures_findCandidate node _ _).mono ?_ ?_)
    · rintro candidate _ final ⟨rfl, reads⟩
      refine Pass.ensures_bind (Pass.ensures_modify (Pass.ensures_pure _ ?_))
      exact .chooses awake phase ((spares_of_reads _ (still.add looking _)).trans
        (spares_of_reads _ reads)) rfl rfl rfl
    · rintro halt _ final ⟨rfl, reads⟩
      exact .looks ((spares_of_reads _ (still.add looking _)).trans (spares_of_reads _ reads))
        (.refl _) (.same _)
  · exact Pass.ensures_throw _ (stops _ (still.add looking _))
  · exact stops _ (nothing.reads looking still)

/-- Registering a pod leaves single pods alone, and it stops before that. -/
theorem ensures_hold_aside {σ : Type} {state : σ} (pod : Option String) :
    (round.hold pod).Ensures mayFail
      (fun _ state' final => state' = state ∧ ledger.Adds AsideCall final ∧
        round.slot.held? final.registry = pod ∧ (pod = none →
          round.slot.Clears AsideCall ledger final))
      (fun _ state' final => state' = state ∧ round.slot.Spares AsideCall ledger final)
      state ledger := by
  refine ensures_hold AsideCall (asideCall_get (by decide) _ _) (fun _ => ⟨trivial, id⟩) pod
    ?_ ?_ ?_
  · intro reads request answer after still aside _ held
    obtain ⟨_, added, made, idle⟩ := still
    have calls : (reads.add request answer after).calls =
        ledger.calls ++ (added ++ [⟨request, answer, reads.registry, after⟩]) := by
      simp [made]
    have allAside : ∀ call ∈ added ++ [⟨request, answer, reads.registry, after⟩],
        AsideCall call.request := by
      intro call member
      rcases List.mem_append.1 member with early | late
      · exact (idle call early).1
      · obtain rfl := List.mem_singleton.1 late
        exact aside
    refine ⟨rfl, ⟨_, calls, allAside⟩, held, fun empty => ⟨?_, _, calls, allAside, ?_⟩⟩
    · exact held.trans empty
    · rw [Slot.takesUp_append]
      rintro (takes | ⟨call, member, _, filled⟩)
      · refine Slot.not_takesUp_of_still (fun call member => ?_) takes
        obtain ⟨_, sameBefore, sameAfter⟩ := idle call member
        rw [sameBefore, sameAfter]
      · obtain rfl := List.mem_singleton.1 member
        exact filled (held.trans empty)
  · intro empty vacant final reads
    have spares := spares_of_reads round.slot reads
    exact ⟨rfl, spares.adds, (spares.entry.trans vacant).trans empty.symm, fun _ =>
      spares.clears vacant⟩
  · exact fun halt final _ reads => ⟨rfl, spares_of_reads _ reads⟩

theorem ensuresMove_deletePod (awake : round.scheduler.isSuspended = false)
    (phase : status.phase = .deletingPod) :
    round.EnsuresMove mayFail round.deletePod status ledger := by
  refine Pass.ensures_bind (Pass.ensures_get ?_)
  cases chosen : status.candidate with
  | none =>
      refine Pass.ensures_bind (Pass.ensures_modify (Pass.ensures_pure _ ?_))
      exact .looks (.refl _ _ ledger) ⟨rfl, rfl⟩ (.unchosen phase chosen)
  | some candidate =>
      refine Pass.ensures_bind ((ensures_hold_aside (some candidate.podName)).mono ?_ ?_)
      · intro _ status' held ⟨same, adds, entry, _⟩
        rw [same]
        have quiet : ledger.Adds QuietCall held := adds.mono fun _ aside => aside.1
        -- Once the pod is registered, the deletion of the pod is the next call.
        have stops : ∀ final, held.Adds QuietCall final →
            round.slot.held? final.registry = round.slot.held? held.registry →
              round.Moves mayFail status ledger .halts status final :=
          fun final later same =>
            .failsToTakeDown phase chosen (quiet.trans later) (same.trans entry)
        have goesOn : ∀ answer after, round.slot.held? after = round.slot.held? held.registry →
            Pass.Ensures mayFail (do
              Pass.notify "PodDeleted"
                s!"Deleted pod {candidate.podName} to snapshot volume {candidate.claimName}"
              turnTo .waitingForPodDeletion
              return .proceed : Pass SchedulerStatus Next)
            (fun next => round.Moves mayFail status ledger next.ending)
            (fun _ => round.Moves mayFail status ledger .halts) status
            (held.add (.delete .pod round.space candidate.podName) answer after) := by
          intro answer after same
          have deleted : held.Adds QuietCall
              (held.add (.delete .pod round.space candidate.podName) answer after) :=
            Ledger.adds_add trivial answer after
          refine Pass.ensures_bind (Pass.ensures_notify (fun published => ?_) ?_)
          · refine Pass.ensures_bind (Pass.ensures_modify (Pass.ensures_pure _ ?_))
            refine .takesDown awake phase chosen
              (quiet.trans (deleted.trans (Ledger.adds_add trivial published _)))
              (same.trans entry) ?_
              ⟨rfl, rfl⟩ rfl
            exact ⟨⟨.delete .pod round.space candidate.podName, answer, held.registry, after⟩,
              by simp, trivial⟩
          · exact stops _ (deleted.trans (Ledger.adds_add trivial none _)) same
        have otherKind : Kind.pod ≠ .fullNode := by decide
        refine Pass.ensures_bind (Pass.ensures_attempt (Exchange.ensures_delete
          (fun pod after named there removed => ?_) (fun named missing => ?_)
          fun error final nothing => ?_))
        · refine goesOn _ _ ?_
          rcases removed with sets | ⟨time, sets⟩
          · exact Slot.held?_eq_of_sets sets otherKind
          · exact Slot.held?_eq_of_sets sets otherKind
        · exact goesOn _ _ rfl
        · have reads : held.Reads QuietCall final := nothing.reads trivial (.refl _ held)
          exact stops final (spares_of_reads round.slot reads).adds (by rw [reads.registry_eq])
      · intro halt status' final ⟨same, spares⟩
        rw [same]
        exact .looks spares (.refl _) (.same _)

theorem ensuresMove_awaitPodDeletion (awake : round.scheduler.isSuspended = false)
    (phase : status.phase = .waitingForPodDeletion) :
    round.EnsuresMove mayFail round.awaitPodDeletion status ledger := by
  have still := Ledger.Reads.refl QuietCall ledger
  refine Pass.ensures_bind (Pass.ensures_bind (Pass.ensures_get ?_))
  cases chosen : status.candidate with
  | none => exact Pass.ensures_throw _ (.looks (.refl _ _ ledger) (.refl _) (.same _))
  | some candidate =>
      have lookingUp : QuietCall (.get .pod round.space candidate.podName) := trivial
      refine Pass.ensures_pure _ (Pass.ensures_bind (Pass.ensures_bind (Pass.ensures_attempt
        (Exchange.ensures_get? (fun pod there => ?_) (fun missing => ?_)
          fun error final nothing => ?_))))
      · refine Pass.ensures_pure _ (Pass.ensures_bind (Pass.ensures_modify
          (Pass.ensures_pure _ ?_)))
        exact .seesPod phase (spares_of_reads _ (still.add lookingUp _)) ⟨rfl, rfl⟩ rfl
          (fun same => nomatch same)
      · refine Pass.ensures_pure _ (Pass.ensures_bind (Pass.ensures_modify
          (Pass.ensures_pure _ ?_)))
        exact .seesGone awake phase chosen (spares_of_reads _ (still.add lookingUp _)) ⟨rfl, rfl⟩
          rfl
      · exact .seesPod phase (spares_of_fruitless nothing lookingUp) (.refl _) rfl (by decide)

theorem ensuresMove_awaitSnapshot (phase : status.phase = .waitingForSnapshotCreation) :
    round.EnsuresMove mayFail round.awaitSnapshot status ledger := by
  have looking : ∀ space name, AsideCall (.get .volumeSnapshot space name) :=
    asideCall_get (by decide)
  have still := Ledger.Reads.refl AsideCall ledger
  refine Pass.ensures_bind (Pass.ensures_get ?_)
  cases recorded : status.lastSnapshot with
  | none =>
      refine Pass.ensures_bind (Pass.ensures_modify (Pass.ensures_pure _ ?_))
      exact .looks (.refl _ _ ledger) ⟨rfl, rfl⟩ (.seen phase)
  | some last =>
      refine Pass.ensures_bind (Pass.ensures_attempt (Exchange.ensures_get?
        (fun snapshot there => ?_) (fun missing => ?_) fun error final nothing => ?_))
      · have akin := akin_refreshed recorded (VolumeSnapshot.status snapshot)
        have spares := spares_of_reads round.slot (still.add (looking round.space last.name)
          (some (.ok snapshot)))
        refine Pass.ensures_bind (Pass.ensures_modify ?_)
        split
        · refine Pass.ensures_bind (Pass.ensures_modify (Pass.ensures_bind
            (Pass.ensures_modify (Pass.ensures_pure _ ?_))))
          exact .looks spares ⟨akin.candidate, akin.startedAt⟩ (.seen phase)
        · refine Pass.ensures_bind (Pass.ensures_modify (Pass.ensures_pure _ ?_))
          exact .looks spares ⟨akin.candidate, akin.startedAt⟩ (.same .waits)
      · refine Pass.ensures_bind (Pass.ensures_modify (Pass.ensures_pure _ ?_))
        exact .looks (spares_of_reads _ (still.add (looking _ _) _)) ⟨rfl, rfl⟩ (.seen phase)
      · exact .looks (spares_of_fruitless nothing (looking _ _)) (.refl _) (.same _)

/-- The snapshot that is searched for is the only one that may be in flight. -/
theorem noneInFlight_of_find? {claimName : String} {registry : Registry}
    (nothing : (registry.selected .volumeSnapshot round.space
      round.scheduler.snapshotSelector).find? (fun snapshot : VolumeSnapshot =>
        !snapshot.isReady && snapshot.spec.source.claimName == some claimName) = none) :
    round.NoneInFlight claimName registry := by
  intro snapshot member unready same
  have passed := List.find?_eq_none.1 nothing snapshot member
  simp [unready, same] at passed

/-- A call that asks for a snapshot, between calls that look around. -/
theorem creates_of_spares {candidate : Candidate} {listed final : Ledger} {after : Registry}
    (answer : Answer (.create .volumeSnapshot round.space (round.newSnapshot candidate)))
    (earlier : round.slot.Spares AsideCall ledger listed)
    (noneInFlight : round.NoneInFlight candidate.claimName listed.registry)
    (same : round.slot.held? after = round.slot.held? listed.registry)
    (later : round.slot.Spares AsideCall (listed.add _ answer after) final) :
    round.Creates candidate ⟨_, answer, listed.registry, after⟩ ledger final where
  request_eq := rfl
  noneInFlight := noneInFlight
  calls := by
    obtain ⟨_, first, madeFirst, idleFirst⟩ := earlier
    obtain ⟨_, last, madeLast, idleLast⟩ := later
    refine ⟨first, last, by simp [madeLast, madeFirst], fun other member => ?_⟩
    exact (List.mem_append.1 member).elim (fun early => (idleFirst other early).1)
      fun late => (idleLast other late).1
  spares := (earlier.mono fun _ _ => trivial).trans
    ((spares_add trivial answer same).trans (later.mono fun _ _ => trivial))

/-- Where no snapshot is in flight, one is asked for and, if that succeeds, recorded. -/
theorem ensures_takeAnew {candidate : Candidate} {listed : Ledger}
    (awake : round.scheduler.isSuspended = false) (phase : status.phase = .creatingSnapshot)
    (chosen : status.candidate = some candidate)
    (seen : round.slot.Spares AsideCall ledger listed)
    (noneInFlight : round.NoneInFlight candidate.claimName listed.registry) :
    Pass.Ensures mayFail (do
        let _ ← Pass.attempt
          (Exchange.create .volumeSnapshot round.space (round.newSnapshot candidate))
        Pass.notify "SnapshotCreated"
          s!"Created VolumeSnapshot {round.snapshotName} from {candidate.claimName}"
        return (round.snapshotName, none) : Pass SchedulerStatus (String × Option Timestamp))
      (fun taken => (round.recordTaken taken).Ensures mayFail
        (fun next => round.Moves mayFail status ledger next.ending)
        (fun _ => round.Moves mayFail status ledger .halts))
      (fun _ => round.Moves mayFail status ledger .halts) status listed := by
  refine Pass.ensures_bind (Pass.ensures_attempt (Exchange.ensures_create
    (fun name metadata after named vacant stamped sets => ?_) fun error final nothing => ?_))
  · have same : round.slot.held? after = round.slot.held? listed.registry :=
      Slot.held?_eq_of_sets sets (by decide)
    refine Pass.ensures_bind (Pass.ensures_notify (fun answer => ?_) ?_)
    · have created := creates_of_spares
        (some (.ok (Kind.volumeSnapshot.withMetadata metadata (round.newSnapshot candidate))))
        seen noneInFlight same (spares_add (asideCall_publish _) answer rfl)
      refine Pass.ensures_pure _ (Pass.ensures_bind ?_)
      unfold Pass.orUnrecoverable
      split
      · rename_i startedAt known
        refine Pass.ensures_pure _ (Pass.ensures_bind (Pass.ensures_modify
          (Pass.ensures_pure _ ?_)))
        exact .creates awake phase chosen created ⟨_, rfl⟩ rfl known.symm rfl
      · rename_i unknown
        exact Pass.ensures_throw _ (.failsToCreate awake phase chosen created fun _ =>
          Or.inl unknown)
    · refine .failsToCreate awake phase chosen (creates_of_spares _ seen noneInFlight same
        (spares_add (asideCall_publish _) none rfl)) fun _ => Or.inr ?_
      exact ⟨_, List.mem_append_right _ (List.mem_singleton_self _), rfl⟩
  · have fails : ∀ answer : Answer (.create .volumeSnapshot round.space
        (round.newSnapshot candidate)),
        ¬ Call.Succeeds ⟨_, answer, listed.registry, listed.registry⟩ →
          round.Moves mayFail status ledger .halts status
            (listed.add _ answer listed.registry) := fun answer unsuccessful =>
      .failsToCreate awake phase chosen (creates_of_spares answer seen noneInFlight rfl
        (.refl _ _ _)) fun succeeds => absurd succeeds unsuccessful
    cases nothing with
    | unmade nameless => cases nameless
    | refused served honest => exact fails _ (by simp [Call.Succeeds])
    | unanswered served => exact fails none (by simp [Call.Succeeds])

theorem ensuresMove_createSnapshot (awake : round.scheduler.isSuspended = false)
    (phase : status.phase = .creatingSnapshot) :
    round.EnsuresMove mayFail round.createSnapshot status ledger := by
  have still := Ledger.Reads.refl AsideCall ledger
  have listing := asideCall_list .volumeSnapshot round.space round.scheduler.snapshotSelector
  refine Pass.ensures_bind (Pass.ensures_bind (Pass.ensures_get ?_))
  cases chosen : status.candidate with
  | none => exact Pass.ensures_throw _ (.looks (.refl _ _ ledger) (.refl _) (.same _))
  | some candidate =>
      refine Pass.ensures_pure _ (Pass.ensures_bind (Pass.ensures_bind (Pass.ensures_bind
        (Pass.ensures_attempt (Exchange.ensures_list ?_ fun error final nothing => ?_)))))
      · refine Pass.ensures_pure _ ?_
        have seen := spares_of_reads round.slot (still.add listing (some (.ok
          (ledger.registry.selected .volumeSnapshot round.space
            round.scheduler.snapshotSelector))))
        split
        · refine Pass.ensures_pure _ (Pass.ensures_bind ?_)
          unfold Pass.orUnrecoverable
          split
          · refine Pass.ensures_pure _ (Pass.ensures_bind (Pass.ensures_modify
              (Pass.ensures_pure _ ?_)))
            exact .takesOver phase chosen seen rfl rfl
          · exact Pass.ensures_throw _ (.looks seen (.refl _) (.same _))
        · rename_i absent
          exact ensures_takeAnew awake phase chosen seen (noneInFlight_of_find? absent)
      · exact .looks (spares_of_fruitless nothing listing) (.refl _) (.same _)

/-! ## Handing the pod back -/

theorem PruningCall.aside {request : Request} (prunes : PruningCall request) :
    AsideCall request := by
  cases request with
  | list kind space selector => exact asideCall_list kind space selector
  | delete kind space name =>
      cases kind with
      | volumeSnapshot => exact ⟨trivial, id⟩
      | _ => cases prunes
  | publish event => exact asideCall_publish event
  | _ => cases prunes

theorem PruningCall.place?_ne {request : Request} (prunes : PruningCall request)
    (space name : String) : request.place? ≠ some (.fullNode, space, name) := by
  intro aimed
  cases request with
  | delete kind space' name' =>
      cases kind with
      | volumeSnapshot => cases aimed
      | _ => cases prunes
  | list kind space' selector => cases aimed
  | publish event => cases aimed
  | _ => cases prunes

/-- Once the entry is gone, the pod is there again, or is waited for, or it is not seen. -/
theorem ensures_lookAfter_moves {candidate : Candidate} {middle : Ledger}
    (due : status.phase = .restoringPod ∨ round.scheduler.isSuspended = true)
    (chosen : status.candidate = some candidate)
    (clears : round.slot.Clears AsideCall ledger middle) :
    (round.lookAfter candidate).Ensures mayFail
      (fun next status' final => round.Moves mayFail status ledger next.ending status' final ∧
        (next = .proceed → status'.candidate = none))
      (fun _ => round.Moves mayFail status ledger .halts) status middle := by
  have quiet : round.slot.Clears QuietCall ledger middle := clears.mono fun _ aside => aside.1
  have lookingUp : QuietCall (.get .pod round.space candidate.podName) := trivial
  have seen : ∀ answer, round.slot.Clears QuietCall ledger
        (middle.add (.get .pod round.space candidate.podName) answer middle.registry) ∧
      TouchedPod (middle.add (.get .pod round.space candidate.podName) answer
        middle.registry).calls := by
    intro answer
    refine ⟨quiet.then_spares (spares_add lookingUp answer rfl), ?_⟩
    exact ⟨_, List.mem_append_right _ (List.mem_singleton_self _), trivial⟩
  refine Pass.ensures_bind (Pass.ensures_bind (Pass.ensures_attempt (Exchange.ensures_get?
    (fun pod there => ?_) (fun missing => ?_) fun error final nothing => ?_)))
  · obtain ⟨cleared, touched⟩ := seen (some (.ok pod))
    refine Pass.ensures_pure _ (Pass.ensures_bind (Pass.ensures_modify
      (Pass.ensures_bind (Pass.ensures_modify ?_))))
    have pruning : (do
        round.pruneSnapshots
        return .proceed : Pass SchedulerStatus Next).Makes PruningCall
          fun status' => status'.candidate = none ∧ startedAt? status' = startedAt? status ∧
            status'.phase = .waitingForNext :=
      Pass.makes_bind round.makes_pruneSnapshots fun _ => Pass.makes_pure _
    have moves : ∀ ending status' final,
        (status'.candidate = none ∧ startedAt? status' = startedAt? status ∧
          status'.phase = .waitingForNext) ∧ round.slot.Spares PruningCall
            (middle.add (.get .pod round.space candidate.podName) (some (.ok pod))
              middle.registry) final →
          round.Moves mayFail status ledger ending status' final := by
      rintro ending status' final ⟨⟨restored, startedAt, phase'⟩, spares⟩
      have pruned := spares.mono fun _ prunes => PruningCall.aside prunes
      have touchedToo := (touchedPod_iff_of_adds pruned.adds).2 touched
      exact .restores due chosen (cleared.then_spares (pruned.mono fun _ aside => aside.1))
        touchedToo restored startedAt phase'
    refine (ensures_spares_of_makes pruning ?_ round.slot fun request prunes =>
      PruningCall.place?_ne prunes).mono ?_ fun _ => moves _
    · exact ⟨rfl, rfl, rfl⟩
    · exact fun next status' final kept => ⟨moves _ _ _ kept, fun _ => kept.1.1⟩
  · obtain ⟨cleared, touched⟩ :=
      seen (some (.error (Cluster.notFound Kind.pod.resourceName candidate.podName)))
    refine Pass.ensures_pure _ (Pass.ensures_bind (Pass.ensures_modify (Pass.ensures_pure _ ?_)))
    exact ⟨.awaitsPod due chosen cleared touched ⟨rfl, rfl⟩ rfl, fun same => nomatch same⟩
  · exact .losesSight due chosen clears nothing

/-- Handing the pod back is a move, where it is due, and unsets the candidate. -/
theorem ensures_restorePod_moves
    (due : status.phase = .restoringPod ∨ round.scheduler.isSuspended = true)
    (set : status.phase = .restoringPod ∨ status.candidate.isSome = true) :
    round.restorePod.Ensures mayFail
      (fun next status' final => round.Moves mayFail status ledger next.ending status' final ∧
        (next = .proceed → status'.candidate = none))
      (fun _ => round.Moves mayFail status ledger .halts) status ledger := by
  refine Pass.ensures_bind (Pass.ensures_get ?_)
  cases chosen : status.candidate with
  | none =>
      refine Pass.ensures_bind (Pass.ensures_modify (Pass.ensures_pure _ ?_))
      refine ⟨.looks (.refl _ _ ledger) ⟨rfl, rfl⟩ (.vacant (set.resolve_right ?_) chosen),
        fun _ => chosen⟩
      simp [chosen]
  | some candidate =>
      refine Pass.ensures_bind ((ensures_hold_aside none).mono ?_ ?_)
      · intro _ status' middle ⟨same, _, _, clears⟩
        rw [same]
        exact ensures_lookAfter_moves due chosen (clears rfl)
      · intro halt status' final ⟨same, spares⟩
        rw [same]
        exact .looks spares (.refl _) (.same _)

theorem ensuresMove_turn (awake : round.scheduler.isSuspended = false) :
    round.EnsuresMove mayFail (round.turn status.phase) status ledger := by
  have wakes : ∀ phase : SnapshotPhase, status.phase = phase →
      (phase = .suspended ∨ phase = .missingDefinition) →
        Pass.Ensures mayFail (do
          turnTo .waitingForNext
          return .proceed : Pass SchedulerStatus Next)
        (fun next => round.Moves mayFail status ledger next.ending)
        (fun _ => round.Moves mayFail status ledger .halts) status ledger := by
    rintro phase rfl dormant
    refine Pass.ensures_bind (Pass.ensures_modify (Pass.ensures_pure _ ?_))
    exact .looks (.refl _ _ ledger) ⟨rfl, rfl⟩ (.woken dormant)
  cases phase : status.phase with
  | waitingForNext => exact ensuresMove_awaitNext phase
  | findingCandidate => exact ensuresMove_chooseCandidate awake phase
  | deletingPod => exact ensuresMove_deletePod awake phase
  | waitingForPodDeletion => exact ensuresMove_awaitPodDeletion awake phase
  | creatingSnapshot => exact ensuresMove_createSnapshot awake phase
  | waitingForSnapshotCreation => exact ensuresMove_awaitSnapshot phase
  | restoringPod =>
      exact (ensures_restorePod_moves (Or.inl phase) (Or.inl phase)).mono
        (fun _ _ _ moves => moves.1) fun _ _ _ moves => moves
  | suspended => exact wakes _ phase (Or.inl rfl)
  | missingDefinition => exact wakes _ phase (Or.inr rfl)

/-! ## Whole passes -/

/-- What is to hold from one move to the next, and at the end of the pass. -/
abbrev Upholds (mayFail : Request → Prop) (round : Round)
    (holds : Ending → SchedulerStatus → Ledger → Prop) : Prop :=
  ∀ {status status' : SchedulerStatus} {ledger final : Ledger} {ending : Ending},
    holds .goesOn status ledger → round.Moves mayFail status ledger ending status' final →
      holds ending status' final

/-- What moves uphold holds when a pass is over; one that rests until something changes has
no candidate. -/
structure Upheld (holds : Ending → SchedulerStatus → Ledger → Prop) (action? : Option Action)
    (status : SchedulerStatus) (final : Ledger) : Prop where
  holds : ∃ ending, holds ending status final
  rests : action? = some .awaitChange → status.phase = .suspended ∧ status.candidate = none

theorem Upheld.of_acting {holds : Ending → SchedulerStatus → Ledger → Prop} {ending : Ending}
    {action? : Option Action} (acts : action? ≠ some .awaitChange)
    (held : holds ending status ledger) : Upheld holds action? status ledger :=
  ⟨⟨ending, held⟩, fun rests => absurd rests acts⟩

theorem ensures_advance_of_upholds {holds : Ending → SchedulerStatus → Ledger → Prop}
    (upholds : round.Upholds mayFail holds) (awake : round.scheduler.isSuspended = false)
    (limit : Nat) (start : holds .goesOn status ledger) :
    (round.advance limit).Ensures mayFail (fun action => Upheld holds (some action))
      (fun _ => Upheld holds none) status ledger := by
  induction limit generalizing status ledger with
  | zero => exact Pass.ensures_pure _ (.of_acting (by simp) start)
  | succ limit inductionHypothesis =>
      refine Pass.ensures_bind (Pass.ensures_get (Pass.ensures_bind
        ((ensuresMove_turn awake).mono ?_ ?_)))
      · intro next status' final moves
        have held := upholds start moves
        cases next with
        | proceed => exact inductionHypothesis held
        | wait after => exact Pass.ensures_pure _ (.of_acting (by simp) held)
      · exact fun _ status' final moves => .of_acting (by simp) (upholds start moves)

theorem ensures_suspend_of_upholds {holds : Ending → SchedulerStatus → Ledger → Prop}
    (upholds : round.Upholds mayFail holds) (suspended : round.scheduler.isSuspended = true)
    (start : holds .goesOn status ledger) :
    round.suspend.Ensures mayFail (fun action => Upheld holds (some action))
      (fun _ => Upheld holds none) status ledger := by
  have sleeps : ∀ {status ledger}, holds .goesOn status ledger → status.candidate = none →
      (afterRestoring .proceed).Ensures mayFail (fun action => Upheld holds (some action))
        (fun _ => Upheld holds none) status ledger := by
    intro status ledger held unset
    refine Pass.ensures_bind (Pass.ensures_modify (Pass.ensures_pure _ ⟨⟨.waits, ?_⟩, ?_⟩))
    · exact upholds held (.looks (.refl _ _ ledger) ⟨rfl, rfl⟩ (.asleep suspended unset))
    · exact fun _ => ⟨rfl, unset⟩
  rw [suspend_eq]
  refine Pass.ensures_bind (Pass.ensures_get ?_)
  split
  · rename_i set
    refine Pass.ensures_bind ((ensures_restorePod_moves (Or.inr suspended) (Or.inr set)).mono
      ?_ ?_)
    · intro next status' final ⟨moves, unset⟩
      have held := upholds start moves
      cases next with
      | proceed => exact sleeps held (unset rfl)
      | wait after => exact Pass.ensures_pure _ (.of_acting (by simp) held)
    · exact fun _ status' final moves => .of_acting (by simp) (upholds start moves)
  · rename_i unset
    refine Pass.ensures_bind (Pass.ensures_pure _ (sleeps start ?_))
    simpa using unset

theorem ensures_resume_of_upholds {holds : Ending → SchedulerStatus → Ledger → Prop}
    (upholds : round.Upholds mayFail holds) (awake : round.scheduler.isSuspended = false)
    (start : holds .goesOn status ledger) :
    round.resume.Ensures mayFail (fun action => Upheld holds (some action))
      (fun _ => Upheld holds none) status ledger := by
  refine Pass.ensures_bind (Pass.ensures_get ?_)
  split
  · rename_i dormant
    refine Pass.ensures_bind (Pass.ensures_modify (ensures_advance_of_upholds upholds awake _ ?_))
    exact upholds start (.looks (.refl _ _ ledger) ⟨rfl, rfl⟩ (.woken (Or.inl dormant)))
  · exact ensures_advance_of_upholds upholds awake _ start

end Round

/-- What all moves uphold, a pass upholds, if it is upheld also when the definition of
snapshots is missing. -/
theorem ensures_step_of_upholds {scheduler : Scheduler} {settings : Settings} {now : Instant}
    {holds : Ending → SchedulerStatus → Ledger → Prop}
    (upholds : (roundOf scheduler settings now).Upholds mayFail holds)
    (undefined : ∀ final, (slotOf scheduler).Spares AsideCall ledger final →
      Kind.volumeSnapshot.definitionName ∉ ledger.registry.definitions →
        holds .halts { status with phase := .missingDefinition } final)
    (start : holds .goesOn status ledger) :
    (step scheduler settings now).Ensures mayFail (fun action => Round.Upheld holds (some action))
      (fun _ => Round.Upheld holds none) status ledger := by
  have asking : AsideCall (.findDefinition .volumeSnapshot) := ⟨trivial, id⟩
  have goesOn : ∀ {status' final}, holds .goesOn status' final →
      Pass.Ensures mayFail (do
        let round : Round := ⟨scheduler, ← requireSpace scheduler, now, settings⟩
        if scheduler.isSuspended then round.suspend else round.resume)
      (fun action => Round.Upheld holds (some action)) (fun _ => Round.Upheld holds none)
      status' final := by
    intro status' final held
    refine Pass.ensures_bind ?_
    unfold requireSpace Pass.orUnrecoverable
    split
    · rename_i space inSpace
      refine Pass.ensures_pure _ ?_
      have same : Round.mk scheduler space now settings = roundOf scheduler settings now := by
        simp [roundOf, slotOf, inSpace]
      dsimp only
      rw [same]
      split
      · rename_i suspended
        exact Round.ensures_suspend_of_upholds upholds suspended held
      · rename_i awake
        exact Round.ensures_resume_of_upholds upholds (eq_false_of_ne_true awake) held
    · exact Pass.ensures_throw _ (.of_acting (by simp) held)
  refine Pass.ensures_bind (Pass.ensures_bind (Pass.ensures_attempt (Exchange.ensures_isDefined
    (fun answer => ?_) fun error final nothing => ?_)))
  · have asked : (slotOf scheduler).Spares AsideCall ledger _ :=
      spares_add asking answer rfl
    split
    · refine Pass.ensures_bind (Pass.ensures_get ?_)
      split
      · rename_i missing
        refine Pass.ensures_modify (goesOn ?_)
        exact upholds start (.looks asked ⟨rfl, rfl⟩ (.woken (Or.inr missing)))
      · exact Pass.ensures_pure _ (goesOn (upholds start (.looks asked (.refl _) (.same _))))
    · rename_i unknown
      refine Pass.ensures_bind (Pass.ensures_modify (Pass.ensures_throw _ ?_))
      exact .of_acting (by simp) (undefined _ asked (by simpa using unknown))
  · have moves : (roundOf scheduler settings now).Moves mayFail status ledger .halts status
        final := .looks (spares_of_fruitless nothing asking) (.refl _) (.same _)
    exact .of_acting (by simp) (upholds start moves)

end NodeFleet.Snapshot
