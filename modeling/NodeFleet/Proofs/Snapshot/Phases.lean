import NodeFleet.Proofs.Snapshot.Quiescence

/-!
# What the phases ensure

A phase that relies on a held pod finds the pod registered, or the scheduler stranded.
Every phase keeps this for the next one, and only the phase that creates a snapshot
creates one, at the end of a pass.
-/

namespace NodeFleet.Snapshot

open Calendar Resource Store

variable {mayFail : Request → Prop}

/-- When a status relies on a held pod, its candidate is registered, and down if its
deletion has been seen; or else the hold is lost. -/
def Safe (slot : Slot) (lost : Prop) (status : SchedulerStatus) (registry : Registry) : Prop :=
  reliesOnHold status.phase = true → ∃ candidate, status.candidate = some candidate ∧
    candidate.podName ≠ "" ∧
    (slot.held? registry = some candidate.podName ∧ (status.phase = .creatingSnapshot →
      registry.find? .pod slot.space candidate.podName = none) ∨ lost)

/-- The calls have created no snapshot. -/
def Uncreating (calls : List Call) : Prop := ∀ call ∈ calls, ¬ CreatingCall call.request

/-- What holds within a pass: no snapshot has been created, and the hold is lost only if
the scheduler was stranded before and has registered no pod since. -/
structure Midway (slot : Slot) (stranded : Prop) (status : SchedulerStatus) (ledger : Ledger) :
    Prop where
  safe : Safe slot (¬ slot.TakesUp ledger.calls ∧ stranded) status ledger.registry
  uncreating : Uncreating ledger.calls

/-- The snapshots that a pass has created: they come after all look-ups of pods, and at
that time the candidate was quiesced or the scheduler was stranded already. -/
structure Accounted (slot : Slot) (stranded : Prop) (candidate? : Option Candidate)
    (calls : List Call) : Prop where
  ordered : calls.Pairwise fun earlier later =>
    CreatingCall earlier.request → ¬ Slot.LooksUpPod later.request
  quiesced : ∀ call ∈ calls, CreatingCall call.request → ∃ candidate,
    candidate? = some candidate ∧
      (slot.Quiesced call.before candidate.podName ∨ ¬ slot.TakesUp calls ∧ stranded)

/-- What holds when a pass is over. -/
structure Finished (slot : Slot) (stranded : Prop) (status : SchedulerStatus) (ledger : Ledger) :
    Prop where
  safe : Safe slot (¬ slot.TakesUp ledger.calls ∧ (slot.Interrupted ledger.calls ∨ stranded))
    status ledger.registry
  accounted : Accounted slot stranded status.candidate ledger.calls

/-- What holds when a pass halts. -/
structure Halted (slot : Slot) (stranded : Prop) (halt : Halt PassError)
    (status : SchedulerStatus) (ledger : Ledger) : Prop where
  whole : halt.isBroken = false
  finished : Finished slot stranded status ledger

section Invariants

variable {slot : Slot} {lost lost' stranded : Prop} {status status' : SchedulerStatus}
  {registry registry' : Registry} {ledger final : Ledger} {calls : List Call}

theorem safe_of_calm (calm : reliesOnHold status.phase = false) :
    Safe slot lost status registry := by
  intro relies
  rw [calm] at relies
  cases relies

theorem Safe.mono (safe : Safe slot lost status registry) (weaker : lost → lost') :
    Safe slot lost' status registry := by
  intro relies
  obtain ⟨candidate, chosen, named, held⟩ := safe relies
  exact ⟨candidate, chosen, named, held.imp_right weaker⟩

/-- What leaves a hold alone keeps a status safe. -/
theorem Safe.of_registry (safe : Safe slot lost status registry)
    (leaves : slot.Leaves registry registry') : Safe slot lost status registry' := by
  intro relies
  obtain ⟨candidate, chosen, named, ⟨held, down⟩ | isLost⟩ := safe relies
  · exact ⟨candidate, chosen, named,
      Or.inl ⟨leaves.entry.trans held, fun creating => leaves.down _ held (down creating)⟩⟩
  · exact ⟨candidate, chosen, named, Or.inr isLost⟩

/-- Only the phase and the candidate of a status matter. -/
theorem Safe.of_status (safe : Safe slot lost status registry)
    (samePhase : status'.phase = status.phase)
    (sameCandidate : status'.candidate = status.candidate) : Safe slot lost status' registry := by
  intro relies
  rw [samePhase] at relies
  obtain ⟨candidate, chosen, named, held⟩ := safe relies
  exact ⟨candidate, sameCandidate.trans chosen, named, by rw [samePhase]; exact held⟩

theorem pairwise_of_uncreating (uncreating : Uncreating calls) :
    calls.Pairwise fun earlier later =>
      CreatingCall earlier.request → ¬ Slot.LooksUpPod later.request := by
  refine List.pairwise_of_forall_mem_list fun earlier member later _ creating => ?_
  exact absurd creating (uncreating earlier member)

theorem accounted_of_uncreating (uncreating : Uncreating calls) (candidate? : Option Candidate) :
    Accounted slot stranded candidate? calls where
  ordered := pairwise_of_uncreating uncreating
  quiesced := fun call member creating => absurd creating (uncreating call member)

theorem Midway.finished (midway : Midway slot stranded status ledger) :
    Finished slot stranded status ledger where
  safe := midway.safe.mono fun ⟨idle, before⟩ => ⟨idle, Or.inr before⟩
  accounted := accounted_of_uncreating midway.uncreating _

theorem uncreating_of_quiet {added : List Call} (uncreating : Uncreating calls)
    (quiet : ∀ call ∈ added, QuietCall call.request) : Uncreating (calls ++ added) := by
  intro call member
  rcases List.mem_append.1 member with early | late
  · exact uncreating call early
  · exact not_creatingCall (quiet call late)

/-- A calm status is midway after quiet calls. -/
theorem midway_of_calm (calm : reliesOnHold status.phase = false)
    (uncreating : Uncreating ledger.calls) (adds : ledger.Adds QuietCall final) :
    Midway slot stranded status final := by
  obtain ⟨added, made, quiet⟩ := adds
  refine ⟨safe_of_calm calm, ?_⟩
  rw [made]
  exact uncreating_of_quiet uncreating quiet

theorem Midway.of_reads (midway : Midway slot stranded status ledger)
    (reads : ledger.Reads QuietCall final) : Midway slot stranded status final := by
  constructor
  · rw [reads.registry_eq]
    refine midway.safe.mono fun ⟨idle, before⟩ => ⟨?_, before⟩
    rw [Slot.takesUp_iff_of_reads reads]
    exact idle
  · obtain ⟨_, added, made, idle⟩ := reads
    rw [made]
    exact uncreating_of_quiet midway.uncreating fun call member => (idle call member).1

/-- A last call, which may create a snapshot, accounts for itself. -/
theorem Midway.finished_of_creation (midway : Midway slot stranded status ledger)
    (ready : status.phase = .creatingSnapshot) (request : Request) (answer : Answer request)
    (leaves : slot.Leaves ledger.registry registry) :
    Finished slot stranded status (ledger.add request answer registry) := by
  have takesUp := Slot.takesUp_add_iff request answer leaves.entry
  constructor
  · refine (midway.safe.of_registry leaves).mono fun ⟨idle, before⟩ => ?_
    exact ⟨fun takes => idle (takesUp.1 takes), Or.inr before⟩
  constructor
  · rw [Ledger.calls_add]
    refine List.pairwise_append.2
      ⟨pairwise_of_uncreating midway.uncreating, List.pairwise_singleton _ _, ?_⟩
    intro earlier member later inLast createsEarlier
    exact absurd createsEarlier (midway.uncreating earlier member)
  · intro call member creates
    rcases List.mem_append.1 member with early | late
    · exact absurd creates (midway.uncreating call early)
    obtain rfl := List.mem_singleton.1 late
    obtain ⟨candidate, chosen, _, held⟩ := midway.safe (by rw [ready]; rfl)
    refine ⟨candidate, chosen, held.imp (fun ⟨entry, down⟩ => ⟨down ready, entry⟩) ?_⟩
    exact fun ⟨idle, before⟩ => ⟨fun takes => idle (takesUp.1 takes), before⟩

theorem Finished.add (finished : Finished slot stranded status ledger) (request : Request)
    (settling : SettlingCall request) (answer : Answer request)
    (leaves : slot.Leaves ledger.registry registry) :
    Finished slot stranded status (ledger.add request answer registry) := by
  have takesUp := Slot.takesUp_add_iff request answer leaves.entry
  have looksUpNoPod : ¬ Slot.LooksUpPod request := by
    intro looksUp
    cases request with
    | get kind space name =>
        cases kind with
        | pod => exact settling
        | _ => exact looksUp
    | _ => cases looksUp
  have createsNothing : ¬ CreatingCall request := by
    intro creating
    cases request with
    | create kind space object => exact settling
    | _ => cases creating
  constructor
  · refine (finished.safe.of_registry leaves).mono fun ⟨idle, cause⟩ => ?_
    refine ⟨fun takes => idle (takesUp.1 takes), cause.imp_left fun interrupted => ?_⟩
    refine interrupted.append fun call member => ?_
    obtain rfl := List.mem_singleton.1 member
    exact settling
  constructor
  · rw [Ledger.calls_add]
    refine List.pairwise_append.2 ⟨finished.accounted.ordered, List.pairwise_singleton _ _, ?_⟩
    intro earlier _ later member _
    obtain rfl := List.mem_singleton.1 member
    exact looksUpNoPod
  · intro call member creates
    rcases List.mem_append.1 member with early | late
    · obtain ⟨candidate, chosen, held⟩ := finished.accounted.quiesced call early creates
      refine ⟨candidate, chosen, held.imp_right fun ⟨idle, before⟩ => ?_⟩
      exact ⟨fun takes => idle (takesUp.1 takes), before⟩
    · obtain rfl := List.mem_singleton.1 late
      exact absurd creates createsNothing

theorem Finished.of_status (finished : Finished slot stranded status ledger)
    (samePhase : status'.phase = status.phase)
    (sameCandidate : status'.candidate = status.candidate) :
    Finished slot stranded status' ledger where
  safe := finished.safe.of_status samePhase sameCandidate
  accounted := by
    rw [sameCandidate]
    exact finished.accounted

end Invariants

/-- A call writes, with success, that a pod is held down in a slot, or that none is. -/
def Slot.Registers (slot : Slot) (pod : Option String) (call : Call) : Prop :=
  call.Succeeds ∧ ∃ written : FullNode,
    call.request = .replaceStatus .fullNode slot.space slot.nodeName written ∧
      heldUnder? written slot.key = pod

namespace Round

def slot (round : Round) : Slot :=
  { space := round.space, nodeName := round.nodeName, key := round.scheduler.statusKey }

section Hold

variable {round : Round} {status : SchedulerStatus} {ledger : Ledger}

theorem heldUnder?_hold (node : FullNode) (key : String) (pod : Option String) :
    heldUnder? (node.updateStatus fun status => status.hold key pod) key = pod := by
  cases pod with
  | none =>
      simp [heldUnder?, FullNode.updateStatus, FullNodeStatus.hold, KeyMap.find?_erase]
  | some name =>
      simp [heldUnder?, FullNode.updateStatus, FullNodeStatus.hold, KeyMap.find?_insert]

/-- Registering a pod, or none, comes to its end with a call that does so, or because there
is no full node to hold it; and it stops before that call. -/
theorem ensures_hold {σ : Type} {state : σ} (allowed : Request → Prop)
    (reading : allowed (.get .fullNode round.space round.nodeName))
    (writing : ∀ node, allowed (.replaceStatus .fullNode round.space round.nodeName node))
    (pod : Option String)
    {done : Unit → σ → Ledger → Prop} {halted : Halt PassError → σ → Ledger → Prop}
    (registered : ∀ reads request answer after, ledger.Reads allowed reads →
      allowed request → round.slot.Registers pod ⟨request, answer, reads.registry, after⟩ →
        round.slot.held? after = pod → done () state (reads.add request answer after))
    (absent : pod = none → round.slot.held? ledger.registry = none →
      ∀ final, ledger.Reads allowed final → done () state final)
    (stopped : ∀ halt final, halt.isBroken = false → ledger.Reads allowed final →
      halted halt state final) :
    (round.hold pod).Ensures mayFail done halted state ledger := by
  have start := Ledger.Reads.refl allowed ledger
  refine Pass.ensures_bind (Pass.ensures_attempt (Exchange.ensures_get?
    (fun node there => ?_) (fun missing => ?_) fun error final nothing => ?_))
  · refine Pass.ensures_bind (Pass.ensures_attempt (Exchange.ensures_updateStatus
      (fun _ => rfl) (fun stored version after found sets => ?_) (fun missing => ?_)
      (fun error final nothing => ?_) fun stored error final found nothing => ?_))
    · have entry := heldUnder?_hold stored round.scheduler.statusKey pod
      refine Pass.ensures_pure _ (registered _ _ _ after
        ((start.add reading _).add reading _) (writing _) ⟨⟨_, rfl⟩, _, rfl, entry⟩ ?_)
      have here : after.find? .fullNode round.slot.space round.slot.nodeName = _ := sets.here
      rw [Slot.held?, here]
      exact entry
    · exact absurd (there.symm.trans missing) (by simp)
    · exact stopped _ _ (isBroken_haltOf error) (nothing.reads reading (start.add reading _))
    · exact stopped _ _ (isBroken_haltOf error)
        (nothing.reads (writing _) ((start.add reading _).add reading _))
  · have vacant : round.slot.held? ledger.registry = none := by
      have here : ledger.registry.find? .fullNode round.slot.space round.slot.nodeName = none :=
        missing
      rw [Slot.held?, here]
      rfl
    cases pod with
    | none => exact Pass.ensures_pure _ (absent rfl vacant _ (start.add reading _))
    | some name => exact Pass.ensures_throw _ (stopped _ _ rfl (start.add reading _))
  · exact stopped _ _ (isBroken_haltOf error) (nothing.reads reading start)

end Hold

/-! ## Phases that rely on a held pod -/

section Phases

variable {round : Round} {stranded lost : Prop} {status : SchedulerStatus} {ledger : Ledger}

/-- The phase that deletes the pod registers it before. -/
theorem ensures_deletePod (calm : reliesOnHold status.phase = false) :
    round.deletePod.EnsuresAlways mayFail
      (fun status' final => Safe round.slot lost status' final.registry) status ledger := by
  refine Pass.ensures_bind (Pass.ensures_get ?_)
  cases chosen : status.candidate with
  | none => exact Pass.ensures_bind (Pass.ensures_modify (Pass.ensures_pure _ (safe_of_calm rfl)))
  | some candidate =>
      refine Pass.ensures_bind (ensures_hold QuietCall trivial (fun _ => trivial)
        (some candidate.podName) ?_ ?_ ?_)
      · intro reads request answer after _ _ _ held
        have finish : ∀ (middle : Ledger), round.slot.held? middle.registry =
            some candidate.podName → candidate.podName ≠ "" →
            Pass.EnsuresAlways mayFail (do
              Pass.notify "PodDeleted"
                s!"Deleted pod {candidate.podName} to snapshot volume {candidate.claimName}"
              turnTo .waitingForPodDeletion
              return .proceed : Pass SchedulerStatus Next)
            (fun status' final => Safe round.slot lost status' final.registry)
            status middle := by
          intro middle heldMiddle named
          refine Pass.ensures_bind (Pass.ensures_notify (fun answer => ?_) (safe_of_calm calm))
          refine Pass.ensures_bind (Pass.ensures_modify (Pass.ensures_pure _ fun _ => ?_))
          exact ⟨candidate, chosen, named, Or.inl ⟨heldMiddle, fun same => nomatch same⟩⟩
        refine Pass.ensures_bind (Pass.ensures_attempt (Exchange.ensures_delete
          (fun pod afterwards named there removed => ?_) (fun named missing => ?_)
          fun error final nothing => safe_of_calm calm))
        · refine finish _ ?_ named
          have otherKind : Kind.pod ≠ .fullNode := by decide
          rcases removed with sets | ⟨time, sets⟩
          · exact (Slot.held?_eq_of_sets sets otherKind).trans held
          · exact (Slot.held?_eq_of_sets sets otherKind).trans held
        · exact finish _ held named
      · exact fun same => nomatch same
      · exact fun halt final _ _ => safe_of_calm calm

/-- The phase that waits for the deletion sees that the pod is gone before it goes on. -/
theorem ensures_awaitPodDeletion (waiting : status.phase = .waitingForPodDeletion)
    (midway : Midway round.slot stranded status ledger) :
    round.awaitPodDeletion.EnsuresAlways mayFail (Midway round.slot stranded) status ledger := by
  obtain ⟨candidate, chosen, named, held⟩ := midway.safe (by rw [waiting]; rfl)
  have lookingUp : QuietCall (.get .pod round.space candidate.podName) := trivial
  have reads := Ledger.Reads.refl QuietCall ledger
  refine Pass.ensures_bind (Pass.ensures_bind (Pass.ensures_get ?_))
  simp only [chosen]
  refine Pass.ensures_pure _ ?_
  refine Pass.ensures_bind (Pass.ensures_bind (Pass.ensures_attempt (Exchange.ensures_get?
    (fun pod there => ?_) (fun missing => ?_) fun error final nothing => ?_)))
  · have seen := midway.of_reads (reads.add lookingUp (some (.ok pod)))
    refine Pass.ensures_pure _ (Pass.ensures_bind (Pass.ensures_modify (Pass.ensures_pure _ ?_)))
    exact ⟨seen.safe.of_status rfl rfl, seen.uncreating⟩
  · have seen := midway.of_reads (reads.add lookingUp
      (some (.error (Cluster.notFound Kind.pod.resourceName candidate.podName))))
    refine Pass.ensures_pure _ (Pass.ensures_bind (Pass.ensures_modify (Pass.ensures_pure _ ?_)))
    refine ⟨fun _ => ?_, seen.uncreating⟩
    obtain ⟨other, chosenToo, _, heldToo⟩ := seen.safe (by rw [waiting]; rfl)
    obtain rfl := Option.some.inj (chosen.symm.trans chosenToo)
    exact ⟨candidate, chosen, named, heldToo.imp_left fun ⟨entry, _⟩ => ⟨entry, fun _ => missing⟩⟩
  · exact midway.of_reads (nothing.reads lookingUp reads)

/-- What is left to do once a snapshot has been taken, or taken over. -/
def recordTaken (round : Round) (taken : String × Option Timestamp) :
    Pass SchedulerStatus Next := do
  let startedAt ← Pass.orUnrecoverable (.unrepresentable round.now)
    (taken.2.or (Timestamp.ofInstant? round.now))
  modify fun status =>
    { status with
      lastSnapshot := some ⟨taken.1, startedAt, none⟩
      phase := .waitingForSnapshotCreation }
  return .wait round.settings.snapshotPoll

theorem ensures_recordTaken {taken : String × Option Timestamp}
    (finished : Finished round.slot stranded status ledger) :
    (round.recordTaken taken).Ensures mayFail
      (fun next status' final => next ≠ .proceed ∧ Finished round.slot stranded status' final)
      (Halted round.slot stranded) status ledger := by
  refine Pass.ensures_bind ?_
  unfold Pass.orUnrecoverable
  split
  · refine Pass.ensures_pure _ (Pass.ensures_bind (Pass.ensures_modify (Pass.ensures_pure _ ?_)))
    exact ⟨(fun same => nomatch same), safe_of_calm rfl, finished.accounted⟩
  · exact Pass.ensures_throw _ ⟨rfl, finished⟩

/-- The phase that creates a snapshot does so only where the pod is quiesced, unless the
scheduler was stranded before, and ends the pass. -/
theorem ensures_createSnapshot (ready : status.phase = .creatingSnapshot)
    (midway : Midway round.slot stranded status ledger) :
    round.createSnapshot.Ensures mayFail
      (fun next status' final => next ≠ .proceed ∧ Finished round.slot stranded status' final)
      (Halted round.slot stranded) status ledger := by
  obtain ⟨candidate, chosen, _⟩ := midway.safe (by rw [ready]; rfl)
  have listing : QuietCall
      (.list .volumeSnapshot round.space round.scheduler.snapshotSelector) := trivial
  have reads := Ledger.Reads.refl QuietCall ledger
  refine Pass.ensures_bind (Pass.ensures_bind (Pass.ensures_get ?_))
  simp only [chosen]
  refine Pass.ensures_pure _ (Pass.ensures_bind (Pass.ensures_bind (Pass.ensures_bind
    (Pass.ensures_attempt (Exchange.ensures_list ?_ fun error final nothing => ?_)))))
  · refine Pass.ensures_pure _ ?_
    have seen := midway.of_reads (reads.add listing (some (.ok (ledger.registry.selected
      .volumeSnapshot round.space round.scheduler.snapshotSelector))))
    split
    · exact Pass.ensures_pure _ (ensures_recordTaken seen.finished)
    · refine Pass.ensures_bind (Pass.ensures_attempt (Exchange.ensures_create
        (fun name metadata after named absent stamped sets => ?_) fun error final nothing => ?_))
      · have finished := seen.finished_of_creation ready
          (.create .volumeSnapshot round.space (round.newSnapshot candidate))
          (some (.ok (Kind.volumeSnapshot.withMetadata metadata (round.newSnapshot candidate))))
          (Slot.leaves_of_sets sets (by decide) (by decide))
        refine Pass.ensures_bind (Pass.ensures_notify (fun answer => ?_) ?_)
        · have published := finished.add (.publish _) trivial answer (.refl _ after)
          exact Pass.ensures_pure _ (ensures_recordTaken published)
        · exact ⟨rfl, finished.add (.publish _) trivial _ (.refl _ _)⟩
      · refine ⟨isBroken_haltOf error, ?_⟩
        cases nothing with
        | unmade nameless => cases nameless
        | refused served honest => exact seen.finished_of_creation ready _ _ (.refl _ _)
        | unanswered served => exact seen.finished_of_creation ready _ _ (.refl _ _)
  · exact ⟨isBroken_haltOf error, (midway.of_reads (nothing.reads listing reads)).finished⟩

/-! ## Handing the pod back -/

/-- What is left to do once the entry has been taken away. -/
def lookAfter (round : Round) (candidate : Candidate) : Pass SchedulerStatus Next := do
  if ← round.hasPod candidate.podName then
    modify fun status => { status with candidate := none }
    enter .waitingForNext none
    round.pruneSnapshots
    return .proceed
  enter .restoringPod (some s!"waiting for pod {candidate.podName} to be recreated")
  return .wait round.settings.requeue

theorem ensures_lookAfter {candidate : Candidate} (uncreating : Uncreating ledger.calls)
    (interrupted : ∀ error final,
      ledger.Fruitless mayFail (.get .pod round.space candidate.podName) error final →
        Finished round.slot stranded status final) :
    (round.lookAfter candidate).Ensures mayFail
      (fun _ => Midway round.slot stranded) (Halted round.slot stranded) status ledger := by
  have seen : ∀ answer, Uncreating
      (ledger.add (.get .pod round.space candidate.podName) answer ledger.registry).calls :=
    fun answer => uncreating_of_quiet uncreating fun call member =>
      List.mem_singleton.1 member ▸ trivial
  refine Pass.ensures_bind (Pass.ensures_bind (Pass.ensures_attempt (Exchange.ensures_get?
    (fun pod there => ?_) (fun missing => ?_) fun error final nothing => ?_)))
  · refine Pass.ensures_pure _ (Pass.ensures_bind (Pass.ensures_modify
      (Pass.ensures_bind (Pass.ensures_modify ?_))))
    have pruning : (do
        round.pruneSnapshots
        return .proceed : Pass SchedulerStatus Next).Makes QuietCall
          fun status => reliesOnHold status.phase = false :=
      Pass.makes_bind (round.makes_pruneSnapshots.mono fun _ => PruningCall.quiet) fun _ =>
        Pass.makes_pure _
    refine (pruning.ensures_adds rfl).mono ?_ ?_
    · exact fun _ _ _ ⟨calm, adds⟩ => midway_of_calm calm (seen _) adds
    · exact fun _ _ _ ⟨whole, calm, adds⟩ => ⟨whole, (midway_of_calm calm (seen _) adds).finished⟩
  · refine Pass.ensures_pure _ (Pass.ensures_bind (Pass.ensures_modify (Pass.ensures_pure _ ?_)))
    exact ⟨safe_of_calm rfl, seen _⟩
  · exact ⟨isBroken_haltOf error, interrupted error final nothing⟩

/-- A look-up of the pod that comes to nothing ends a pass well, where the scheduler was
stranded or the entry has just been taken away. -/
theorem finished_of_fruitless {slot : Slot} {candidate : Candidate} {final : Ledger}
    {error : Option StoreError} (uncreating : Uncreating ledger.calls)
    (idle : ¬ slot.TakesUp ledger.calls) (chosen : status.candidate = some candidate)
    (cause : reliesOnHold status.phase = true → candidate.podName ≠ "" ∧
      (stranded ∨ ∃ past handed, ledger.calls = past ++ [handed] ∧
        slot.held? handed.before ≠ none ∧ slot.held? handed.after = none))
    (nothing : ledger.Fruitless mayFail (.get .pod slot.space candidate.podName) error final) :
    Finished slot stranded status final := by
  have reads : ledger.Reads QuietCall final := nothing.reads trivial (.refl _ ledger)
  have idleFinal := (Slot.takesUp_iff_of_reads reads).not.2 idle
  constructor
  · intro relies
    obtain ⟨named, cause⟩ := cause relies
    refine ⟨candidate, chosen, named, Or.inr ⟨idleFinal, ?_⟩⟩
    rcases cause with before | ⟨past, handed, made, filled, cleared⟩
    · exact Or.inr before
    have interrupted : ∀ answer : Answer (.get .pod slot.space candidate.podName),
        Call.Fails ⟨_, answer, ledger.registry, ledger.registry⟩ →
          slot.Interrupted (ledger.add _ answer ledger.registry).calls :=
      fun answer fails => ⟨past, handed, ⟨_, answer, ledger.registry, ledger.registry⟩, [],
        by simp [made], filled, cleared, trivial, fails, by simp⟩
    cases nothing with
    | unmade nameless => exact absurd (Option.some.inj nameless) named
    | refused served honest => exact Or.inl (interrupted _ honest)
    | unanswered served => exact Or.inl (interrupted _ trivial)
  · obtain ⟨_, added, made, allIdle⟩ := reads
    rw [made]
    exact accounted_of_uncreating
      (uncreating_of_quiet uncreating fun call member => (allIdle call member).1) _

/-- Handing the pod back strands the scheduler only when the look-up of the pod fails right
after the entry has been taken away. -/
theorem ensures_restorePod (midway : Midway round.slot stranded status ledger)
    (idle : ¬ round.slot.TakesUp ledger.calls) :
    round.restorePod.Ensures mayFail
      (fun _ => Midway round.slot stranded) (Halted round.slot stranded) status ledger := by
  refine Pass.ensures_bind (Pass.ensures_get ?_)
  cases chosen : status.candidate with
  | none =>
      refine Pass.ensures_bind (Pass.ensures_modify (Pass.ensures_pure _ ?_))
      exact ⟨safe_of_calm rfl, midway.uncreating⟩
  | some candidate =>
      refine Pass.ensures_bind (ensures_hold QuietCall trivial (fun _ => trivial) none ?_ ?_ ?_)
      · intro reads request answer after stillReads quiet _ cleared
        have idleReads := (Slot.takesUp_iff_of_reads stillReads).not.2 idle
        have uncreating : Uncreating (reads.add request answer after).calls :=
          uncreating_of_quiet (midway.of_reads stillReads).uncreating fun call member =>
            List.mem_singleton.1 member ▸ quiet
        have idleHanded : ¬ round.slot.TakesUp (reads.add request answer after).calls := by
          rw [Ledger.calls_add, Slot.takesUp_append]
          rintro (takes | ⟨call, member, _, filled⟩)
          · exact idleReads takes
          · obtain rfl := List.mem_singleton.1 member
            exact filled cleared
        refine ensures_lookAfter uncreating fun error final nothing => ?_
        refine finished_of_fruitless uncreating idleHanded chosen (fun relies => ?_) nothing
        obtain ⟨other, chosenToo, named, held⟩ := midway.safe relies
        obtain rfl := Option.some.inj (chosen.symm.trans chosenToo)
        refine ⟨named, held.elim (fun ⟨entry, _⟩ => Or.inr ?_) fun lost => Or.inl lost.2⟩
        refine ⟨reads.calls, _, rfl, ?_, cleared⟩
        rw [stillReads.registry_eq, entry]
        exact Option.some_ne_none _
      · intro _ vacant final reads
        have still := midway.of_reads reads
        have idleFinal := (Slot.takesUp_iff_of_reads reads).not.2 idle
        refine ensures_lookAfter still.uncreating fun error after nothing => ?_
        refine finished_of_fruitless still.uncreating idleFinal chosen (fun relies => ?_) nothing
        obtain ⟨other, chosenToo, named, ⟨entry, _⟩ | lost⟩ := midway.safe relies
        · cases vacant.symm.trans entry
        · obtain rfl := Option.some.inj (chosen.symm.trans chosenToo)
          exact ⟨named, Or.inl lost.2⟩
      · exact fun halt final whole reads => ⟨whole, (midway.of_reads reads).finished⟩

/-! ## Whole passes -/

/-- Every phase keeps what holds midway, or ends the pass. -/
theorem ensures_turn (midway : Midway round.slot stranded status ledger) :
    (round.turn status.phase).Ensures mayFail
      (fun next status' final => (next = .proceed → Midway round.slot stranded status' final) ∧
        Finished round.slot stranded status' final)
      (Halted round.slot stranded) status ledger := by
  by_cases calm : reliesOnHold status.phase = false ∧ status.phase ≠ .deletingPod
  · refine ((round.makes_turn_of_calm lenient_calm calm.1 calm.2).ensures_adds calm.1).mono ?_ ?_
    · intro next status' final ⟨calmFinal, adds⟩
      have after : Midway round.slot stranded status' final :=
        midway_of_calm calmFinal midway.uncreating adds
      exact ⟨fun _ => after, after.finished⟩
    · exact fun halt status' final ⟨whole, calmFinal, adds⟩ =>
        ⟨whole, (midway_of_calm calmFinal midway.uncreating adds).finished⟩
  cases phase : status.phase with
  | deletingPod =>
      have deletes : round.deletePod.EnsuresAlways mayFail
          (fun status' final => Safe round.slot False status' final.registry) status ledger :=
        ensures_deletePod (by rw [phase]; rfl)
      have joined : ∀ {status' : SchedulerStatus} {final : Ledger},
          Safe round.slot False status' final.registry → ledger.Adds QuietCall final →
            Midway round.slot stranded status' final := by
        rintro status' final safe ⟨added, made, quiet⟩
        exact ⟨safe.mono False.elim, made ▸ uncreating_of_quiet midway.uncreating quiet⟩
      refine ((round.makes_deletePod.ensures_adds trivial).and deletes).mono ?_ ?_
      · intro _ status' final ⟨⟨_, adds⟩, safe⟩
        exact ⟨fun _ => joined safe adds, (joined safe adds).finished⟩
      · intro _ status' final ⟨⟨whole, _, adds⟩, safe⟩
        exact ⟨whole, (joined safe adds).finished⟩
  | waitingForPodDeletion =>
      refine ((round.makes_awaitPodDeletion.ensures_adds trivial).and
        (ensures_awaitPodDeletion phase midway)).mono ?_ ?_
      · exact fun _ _ _ ⟨_, after⟩ => ⟨fun _ => after, after.finished⟩
      · exact fun _ _ _ ⟨⟨whole, _⟩, after⟩ => ⟨whole, after.finished⟩
  | creatingSnapshot =>
      refine (ensures_createSnapshot phase midway).mono ?_ fun _ _ _ stopped => stopped
      exact fun _ _ _ ⟨ends, finished⟩ => ⟨fun proceeds => absurd proceeds ends, finished⟩
  | _ => exact absurd (by rw [phase]; exact ⟨rfl, fun same => nomatch same⟩) calm

theorem ensures_advance (limit : Nat) (midway : Midway round.slot stranded status ledger) :
    (round.advance limit).Ensures mayFail
      (fun _ => Finished round.slot stranded) (Halted round.slot stranded) status ledger := by
  induction limit generalizing status ledger with
  | zero => exact Pass.ensures_pure _ midway.finished
  | succ limit inductionHypothesis =>
      refine Pass.ensures_bind (Pass.ensures_get (Pass.ensures_bind
        ((ensures_turn midway).mono ?_ fun _ _ _ stopped => stopped)))
      intro next status' final ⟨goesOn, finished⟩
      cases next with
      | proceed => exact inductionHypothesis (goesOn rfl)
      | wait after => exact Pass.ensures_pure _ finished

theorem ensures_suspend (midway : Midway round.slot stranded status ledger)
    (idle : ¬ round.slot.TakesUp ledger.calls) :
    round.suspend.Ensures mayFail
      (fun _ => Finished round.slot stranded) (Halted round.slot stranded) status ledger := by
  have ending : ∀ (next : Next) (status' : SchedulerStatus) (final : Ledger),
      Midway round.slot stranded status' final → (afterRestoring next).Ensures mayFail
        (fun _ => Finished round.slot stranded) (Halted round.slot stranded) status' final := by
    intro next status' final after
    cases next with
    | wait delay => exact Pass.ensures_pure _ after.finished
    | proceed =>
        refine Pass.ensures_bind (Pass.ensures_modify (Pass.ensures_pure _ ?_))
        exact ⟨safe_of_calm rfl, accounted_of_uncreating after.uncreating _⟩
  rw [suspend_eq]
  refine Pass.ensures_bind (Pass.ensures_get ?_)
  split
  · exact Pass.ensures_bind ((ensures_restorePod midway idle).mono ending
      fun _ _ _ stopped => stopped)
  · exact Pass.ensures_bind (Pass.ensures_pure _ (ending _ _ _ midway))

theorem ensures_resume (midway : Midway round.slot stranded status ledger) :
    round.resume.Ensures mayFail
      (fun _ => Finished round.slot stranded) (Halted round.slot stranded) status ledger := by
  refine Pass.ensures_bind (Pass.ensures_get ?_)
  split
  · refine Pass.ensures_bind (Pass.ensures_modify (ensures_advance _ ?_))
    exact ⟨safe_of_calm rfl, midway.uncreating⟩
  · exact ensures_advance _ midway

end Phases

end Round

/-- Looking for the definition of snapshots changes nothing. -/
theorem ensures_requireDefinition {slot : Slot} {stranded : Prop} {status : SchedulerStatus}
    {ledger : Ledger} (midway : Midway slot stranded status ledger)
    (idle : ¬ slot.TakesUp ledger.calls) :
    requireDefinition.Ensures mayFail
      (fun _ status' final => Midway slot stranded status' final ∧ ¬ slot.TakesUp final.calls)
      (Halted slot stranded) status ledger := by
  have reads := Ledger.Reads.refl QuietCall ledger
  have asking : QuietCall (.findDefinition .volumeSnapshot) := trivial
  refine Pass.ensures_bind (Pass.ensures_attempt (Exchange.ensures_isDefined
    (fun answer => ?_) fun error final nothing => ?_))
  · have asked := reads.add asking answer
    have still := midway.of_reads asked
    have idleAfter := (Slot.takesUp_iff_of_reads asked).not.2 idle
    split
    · refine Pass.ensures_bind (Pass.ensures_get ?_)
      split
      · exact Pass.ensures_modify ⟨⟨safe_of_calm rfl, still.uncreating⟩, idleAfter⟩
      · exact Pass.ensures_pure _ ⟨still, idleAfter⟩
    · refine Pass.ensures_bind (Pass.ensures_modify (Pass.ensures_throw _ ⟨rfl, ?_⟩))
      exact ⟨safe_of_calm rfl, accounted_of_uncreating still.uncreating _⟩
  · exact ⟨isBroken_haltOf error, (midway.of_reads (nothing.reads asking reads)).finished⟩

/-- A pass of a scheduler keeps what its phases rely on, and accounts for the snapshots that
it creates. -/
theorem ensures_step {scheduler : Scheduler} {stranded : Prop} {status : SchedulerStatus}
    {ledger : Ledger} (settings : Settings) (now : Instant)
    (midway : Midway (slotOf scheduler) stranded status ledger)
    (idle : ¬ (slotOf scheduler).TakesUp ledger.calls) :
    (step scheduler settings now).Ensures mayFail
      (fun _ => Finished (slotOf scheduler) stranded)
      (Halted (slotOf scheduler) stranded) status ledger := by
  refine Pass.ensures_bind ((ensures_requireDefinition midway idle).mono ?_
    fun _ _ _ stopped => stopped)
  intro _ status' middle ⟨still, idleMiddle⟩
  refine Pass.ensures_bind ?_
  unfold requireSpace Pass.orUnrecoverable
  cases inSpace : scheduler.fullNodeNamespace? with
  | none => exact Pass.ensures_throw _ ⟨rfl, still.finished⟩
  | some space =>
      have same : (Round.mk scheduler space now settings).slot = slotOf scheduler := by
        simp [Round.slot, slotOf, inSpace, Round.nodeName]
      rw [← same] at still idleMiddle ⊢
      refine Pass.ensures_pure _ ?_
      split
      · exact Round.ensures_suspend still idleMiddle
      · exact Round.ensures_resume still

end NodeFleet.Snapshot
