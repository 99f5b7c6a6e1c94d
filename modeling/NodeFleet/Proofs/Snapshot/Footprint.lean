import NodeFleet.Proofs.Snapshot.Attribution
import NodeFleet.Proofs.Snapshot.Threshold

/-!
# What a pass may touch

A pass of a scheduler writes the entry of its slot, deletes pods, and creates and deletes
snapshots.  Each of these calls is tied to what the server holds; which pod is deleted and
which volume is taken a snapshot of is tied to the candidate.  A pass ends soon after it has
deleted a pod, so that it deletes no second one.
-/

namespace NodeFleet.Snapshot

open Calendar Resource Store

variable {mayFail : Request → Prop} {scheduler : Scheduler} {before after registry : Registry}

/-! ## The entry of a slot -/

/-- A status of a full node is as another one, but for the pod held down under a key. -/
def DiffersAt (key : String) (before after : FullNodeStatus) : Prop :=
  ∃ heldPods : KeyMap HeldPod, after = { before with heldPods := heldPods } ∧
    ∀ other, other ≠ key → heldPods.find? other = before.heldPods.find? other

/-- A full node is written as it is stored, but for the entry under a key.  An absent status
counts as the initial one. -/
structure WritesEntry (key : String) (stored written : FullNode) : Prop where
  metadata : written.metadata = stored.metadata
  spec : written.spec = stored.spec
  status : ∃ status, written.status = some status ∧
    DiffersAt key (stored.status.getD .initial) status

theorem writesEntry_hold (stored : FullNode) (key : String) (pod : Option String) :
    WritesEntry key stored (stored.updateStatus (·.hold key pod)) where
  metadata := rfl
  spec := rfl
  status := by
    refine ⟨_, rfl, ?_⟩
    cases pod with
    | none =>
        refine ⟨_, rfl, fun other different => ?_⟩
        rw [KeyMap.find?_erase, if_neg different.symm]
    | some podName =>
        refine ⟨_, rfl, fun other different => ?_⟩
        rw [KeyMap.find?_insert, if_neg different.symm]

/-! ## What each call touches -/

/-- What the calls of a pass may touch.  While the scheduler is suspended, no pod is deleted,
no snapshot is created and no pod is registered.  What is written and deleted is compared with
what stands there at the time of the call. -/
inductive MayTouch (scheduler : Scheduler) (call : Call) : Prop
  | nothing (reads : ReadingCall call.request)
  | entry (stored written : FullNode)
      (request_eq : call.request = .replaceStatus .fullNode (slotOf scheduler).space
        (slotOf scheduler).nodeName written)
      (there : call.before.find? .fullNode (slotOf scheduler).space (slotOf scheduler).nodeName =
        some stored)
      (writes : WritesEntry scheduler.statusKey stored written)
      (releases : scheduler.isSuspended = true → heldUnder? written scheduler.statusKey = none)
  | pod (podName : String)
      (request_eq : call.request = .delete .pod (slotOf scheduler).space podName)
      (awake : scheduler.isSuspended = false)
  | newSnapshot (written : VolumeSnapshot)
      (request_eq : call.request = .create .volumeSnapshot (slotOf scheduler).space written)
      (sourced : NamesSource scheduler written) (awake : scheduler.isSuspended = false)
  | oldSnapshot (snapshotName : String) (stored : VolumeSnapshot)
      (request_eq : call.request = .delete .volumeSnapshot (slotOf scheduler).space snapshotName)
      (there : call.before.find? .volumeSnapshot (slotOf scheduler).space snapshotName =
        some stored)
      (selected : Cluster.selects scheduler.snapshotSelector stored.metadata.labelMap.find? = true)
      -- A name with a comma, which no object has, would make a selector for something else.
      (sourced : ',' ∉ scheduler.name.toList → NamesSource scheduler stored)
      (dated : stored.createdAt?.isSome = true)

section Calls

variable {σ : Type} {settings : Settings} {now : Instant}

theorem conducts_hold_mayTouch (pod : Option String)
    (releases : scheduler.isSuspended = true → pod = none) :
    ((roundOf scheduler settings now).hold pod : Pass σ Unit).Conducts mayFail
      (MayTouch scheduler) := by
  have writes : ∀ (stored : FullNode) answer (before after : Registry),
      before.find? .fullNode (slotOf scheduler).space (slotOf scheduler).nodeName = some stored →
        MayTouch scheduler ⟨.replaceStatus .fullNode (slotOf scheduler).space
          (slotOf scheduler).nodeName (stored.updateStatus (·.hold scheduler.statusKey pod)),
            answer, before, after⟩ := by
    intro stored answer before after there
    refine .entry stored _ rfl there (writesEntry_hold stored _ pod) fun suspended => ?_
    rw [Round.heldUnder?_hold, releases suspended]
  apply Round.conducts_hold
  · exact fun _ _ => .nothing trivial
  · exact fun stored answer registry there => writes stored answer registry registry there
  · exact fun stored version before after there _ => writes stored _ before after there

/-- Snapshots that are to be deleted stand, carry the labels of the scheduler and have a
creation time. -/
structure Doomed (scheduler : Scheduler) (names : List String) (registry : Registry) : Prop where
  nodup : names.Nodup
  stand : ∀ name ∈ names, ∃ stored : VolumeSnapshot,
    registry.find? .volumeSnapshot (slotOf scheduler).space name = some stored ∧
      Cluster.selects scheduler.snapshotSelector stored.metadata.labelMap.find? = true ∧
        stored.createdAt?.isSome = true

theorem Doomed.tail {name : String} {names : List String}
    (doomed : Doomed scheduler (name :: names) registry) : Doomed scheduler names registry :=
  ⟨(List.nodup_cons.1 doomed.nodup).2, (List.forall_mem_cons.1 doomed.stand).2⟩

/-- A deletion leaves the snapshots that are to be deleted after it. -/
theorem Doomed.tail_of_served {name : String} {names : List String}
    {answer : Answer (.delete .volumeSnapshot (slotOf scheduler).space name)}
    (doomed : Doomed scheduler (name :: names) before)
    (served : Serves mayFail (.delete .volumeSnapshot (slotOf scheduler).space name) before answer
      after) : Doomed scheduler names after where
  nodup := doomed.tail.nodup
  stand := by
    intro other member
    obtain ⟨stored, there, rest⟩ := doomed.tail.stand other member
    refine ⟨stored, ?_, rest⟩
    rw [served.find?_eq, there]
    intro place
    have same : name = other := by simpa [Request.place?] using place
    exact (List.nodup_cons.1 doomed.nodup).1 (same ▸ member)

theorem doomed_expired (scheduler : Scheduler) (registry : Registry) :
    Doomed scheduler ((expired scheduler.limit (registry.selected .volumeSnapshot
      (slotOf scheduler).space scheduler.snapshotSelector)).map (·.metadata.shownName))
        registry where
  nodup := nodup_names_expired _ (registry.nodup_selected .volumeSnapshot _ _)
  stand := by
    intro name member
    obtain ⟨listed, expires, rfl⟩ := List.mem_map.1 member
    obtain ⟨inList, dated⟩ := mem_of_mem_expired expires
    obtain ⟨there, selected⟩ := registry.mem_selected_iff.1 inList
    exact ⟨listed, there, selected, dated⟩

theorem conducts_pruneSnapshots_mayTouch :
    ((roundOf scheduler settings now).pruneSnapshots : Pass σ Unit).Conducts mayFail
      (MayTouch scheduler) := by
  apply Round.conducts_pruneSnapshots fun call reads served => .nothing reads
  · exact doomed_expired scheduler
  · exact fun name names registry doomed => doomed.tail
  · intro name names answer before after doomed served
    obtain ⟨stored, there, selected, dated⟩ := doomed.stand name List.mem_cons_self
    exact ⟨.oldSnapshot name stored rfl there selected
      (fun plain => (selects_snapshotSelector_iff plain stored).1 selected) dated,
      doomed.tail_of_served served⟩

theorem abides_mayTouch (awake : scheduler.isSuspended = false) :
    (roundOf scheduler settings now).Abides mayFail (MayTouch scheduler) where
  reads := fun _ reads _ => .nothing reads
  holds := fun pod => conducts_hold_mayTouch pod fun suspended => by simp [awake] at suspended
  takes := by
    intro call candidate request_eq _
    exact .newSnapshot _ request_eq (namesSource_newSnapshot _ candidate) awake
  prunes := conducts_pruneSnapshots_mayTouch

/-- Each phase touches only what it may, whether the scheduler is suspended or not. -/
theorem carries_mayTouch (scheduler : Scheduler) (settings : Settings) (now : Instant)
    (start : Ledger) :
    (roundOf scheduler settings now).Carries mayFail
      (fun _ ledger => start.Goes (MayTouch scheduler) ledger)
      (fun _ ledger => start.Goes (MayTouch scheduler) ledger) where
  turn := fun awake goes =>
    ((abides_mayTouch awake).carries_goes (fun call podName request_eq _ =>
      .pod podName request_eq awake) start).turn awake goes
  restore := by
    intro status ledger suspended set goes
    have restores : (roundOf scheduler settings now).restorePod.Conducts mayFail
        (MayTouch scheduler) :=
      Round.conducts_restorePod (fun _ reads _ => .nothing reads)
        (conducts_hold_mayTouch none fun _ => rfl) conducts_pruneSnapshots_mayTouch
    exact ensures_leads (restores status ledger) (fun _ _ later => goes.trans later)
      (fun _ _ _ later => goes.trans later) fun _ _ _ later => goes.trans later
  ends := fun goes => goes
  idles := fun _ _ goes => goes

theorem ensures_step_mayTouch (scheduler : Scheduler) (settings : Settings) (now : Instant)
    (status : SchedulerStatus) (before : Registry) :
    (step scheduler settings now).EnsuresAlways mayFail
      (fun _ final => (Ledger.opened before).Goes (MayTouch scheduler) final) status
      (.opened before) :=
  ensures_step_of_carries (carries_mayTouch scheduler settings now (.opened before))
    (fun _ => .add .refl (.nothing trivial)) fun goes => goes

end Calls

/-! ## One pod and one snapshot -/

/-- Of some calls, at most one is of a given kind. -/
def AtMostOnce (deed : Request → Prop) (calls : List Call) : Prop :=
  calls.Pairwise fun earlier later => deed earlier.request → ¬ deed later.request

/-- A call asks for the deletion of a pod. -/
def DeletesPod (request : Request) : Prop := (deletedPod? request).isSome = true

/-- Of some calls, at most one asks for the deletion of a pod.  It is for the pod of the
candidate, and comes after that pod has been registered in the slot. -/
structure DeletesOnce (slot : Slot) (candidate? : Option Candidate) (calls : List Call) :
    Prop where
  once : AtMostOnce DeletesPod calls
  prepared : ∀ call ∈ calls, ∀ space podName, call.request = .delete .pod space podName →
    (∃ candidate, candidate? = some candidate ∧ candidate.podName = podName) ∧
      ∃ earlier, slot.Registers (some podName) earlier ∧ [earlier, call].Sublist calls

/-- Of some calls, at most one asks for a snapshot.  It is one of the volume of the
candidate. -/
structure CreatesOnce (candidate? : Option Candidate) (calls : List Call) : Prop where
  once : AtMostOnce CreatingCall calls
  named : ∀ call ∈ calls, ∀ space written, call.request = .create .volumeSnapshot space written →
    ∃ candidate, candidate? = some candidate ∧
      (VolumeSnapshot.spec written).source.claimName = some candidate.claimName

section Once

variable {deed : Request → Prop} {slot : Slot} {candidate? : Option Candidate}
  {candidate : Candidate} {calls added : List Call} {call earlier : Call} {ledger final : Ledger}

/-- Where no call is of a kind and none that is added is, none is in the end. -/
theorem none_of_adds (none : ∀ call ∈ ledger.calls, ¬ deed call.request)
    (adds : ledger.Adds (¬ deed ·) final) : ∀ call ∈ final.calls, ¬ deed call.request := by
  obtain ⟨added, made, without⟩ := adds
  rw [made]
  exact List.forall_mem_append.2 ⟨none, without⟩

theorem atMostOnce_of_none (none : ∀ call ∈ calls, ¬ deed call.request) :
    AtMostOnce deed calls :=
  List.pairwise_of_forall_mem_list fun earlier member _ _ did => absurd did (none earlier member)

/-- Around one call of the kind there may be others, which are not. -/
theorem atMostOnce_around (before : ∀ other ∈ calls, ¬ deed other.request)
    (after : ∀ other ∈ added, ¬ deed other.request) :
    AtMostOnce deed (calls ++ call :: added) := by
  apply List.pairwise_append.2
  refine ⟨atMostOnce_of_none before, ?_, fun earlier member _ _ did =>
    absurd did (before earlier member)⟩
  exact List.pairwise_cons.2 ⟨fun later member _ => after later member, atMostOnce_of_none after⟩

theorem AtMostOnce.append (once : AtMostOnce deed calls)
    (after : ∀ other ∈ added, ¬ deed other.request) : AtMostOnce deed (calls ++ added) :=
  List.pairwise_append.2 ⟨once, atMostOnce_of_none after, fun _ _ later member _ =>
    after later member⟩

theorem deletesPod_delete {space podName : String}
    (request_eq : call.request = .delete .pod space podName) : DeletesPod call.request := by
  rw [request_eq]
  rfl

theorem creatingCall_create {space : String} {written : VolumeSnapshot}
    (request_eq : call.request = .create .volumeSnapshot space written) :
    CreatingCall call.request := by
  rw [request_eq]
  trivial

theorem deletesOnce_of_none (none : ∀ call ∈ calls, ¬ DeletesPod call.request) :
    DeletesOnce slot candidate? calls where
  once := atMostOnce_of_none none
  prepared := fun call member _ _ deletes => absurd (deletesPod_delete deletes) (none call member)

theorem DeletesOnce.of_adds (deletes : DeletesOnce slot candidate? ledger.calls)
    (adds : ledger.Adds (¬ DeletesPod ·) final) : DeletesOnce slot candidate? final.calls := by
  obtain ⟨added, made, without⟩ := adds
  rw [made]
  refine ⟨deletes.once.append without, fun call member space podName request_eq => ?_⟩
  rcases List.mem_append.1 member with early | late
  · obtain ⟨chosen, earlier, registers, ordered⟩ :=
      deletes.prepared call early space podName request_eq
    exact ⟨chosen, earlier, registers, ordered.trans (List.sublist_append_left _ _)⟩
  · exact absurd (deletesPod_delete request_eq) (without call late)

/-- Once its pod has been registered, the candidate may be deleted. -/
theorem deletesOnce_concat (none : ∀ call ∈ calls, ¬ DeletesPod call.request)
    (registered : ∃ earlier ∈ calls, slot.Registers (some candidate.podName) earlier)
    {space : String} (request_eq : call.request = .delete .pod space candidate.podName) :
    DeletesOnce slot (some candidate) (calls ++ [call]) where
  once := atMostOnce_around none (by simp)
  prepared := by
    intro other member space podName deletes
    rcases List.mem_append.1 member with early | late
    · exact absurd (deletesPod_delete deletes) (none other early)
    · obtain rfl := List.mem_singleton.1 late
      obtain ⟨_, rfl⟩ : _ ∧ candidate.podName = podName := by simpa [request_eq] using deletes
      obtain ⟨earlier, there, registers⟩ := registered
      exact ⟨⟨candidate, rfl, rfl⟩, earlier, registers,
        (List.singleton_sublist.2 there).append (.refl [other])⟩

theorem createsOnce_of_uncreating (uncreating : Uncreating calls) :
    CreatesOnce candidate? calls where
  once := atMostOnce_of_none uncreating
  named := fun call member _ _ creates =>
    absurd (creatingCall_create creates) (uncreating call member)

/-- The calls of a move that asks for a snapshot ask for no other one. -/
theorem Round.Creates.createsOnce {round : Round}
    (creates : round.Creates candidate call ledger final) (uncreating : Uncreating ledger.calls) :
    CreatesOnce (some candidate) final.calls := by
  obtain ⟨earlier, later, made, aside⟩ := creates.calls
  obtain ⟨quietEarlier, quietLater⟩ := List.forall_mem_append.1 fun other member =>
    not_creatingCall (aside other member).1
  have before : Uncreating (ledger.calls ++ earlier) :=
    List.forall_mem_append.2 ⟨uncreating, quietEarlier⟩
  rw [made, ← List.append_assoc]
  refine ⟨atMostOnce_around before quietLater, fun other member space written request_eq => ?_⟩
  have creating := creatingCall_create request_eq
  rcases List.mem_append.1 member with early | late
  · exact absurd creating (before other early)
  · rcases List.mem_cons.1 late with rfl | last
    · rw [creates.request_eq] at request_eq
      cases request_eq
      exact ⟨candidate, rfl, rfl⟩
    · exact absurd creating (quietLater other last)

end Once

/-! ## The phases of a pass -/

/-- What holds between the phases of a pass: no snapshot has been asked for, and a pod has
been deleted only in a late phase of a scheduler that is not suspended. -/
structure Sparing (scheduler : Scheduler) (status : SchedulerStatus) (ledger : Ledger) :
    Prop where
  deletes : DeletesOnce (slotOf scheduler) status.candidate ledger.calls
  uncreating : Uncreating ledger.calls
  undeleted : scheduler.isSuspended = true ∨ isLate status.phase = false →
    ∀ call ∈ ledger.calls, ¬ DeletesPod call.request

/-- What holds when a pass is over. -/
structure Spared (scheduler : Scheduler) (status : SchedulerStatus) (ledger : Ledger) :
    Prop where
  deletes : DeletesOnce (slotOf scheduler) status.candidate ledger.calls
  creates : CreatesOnce status.candidate ledger.calls

section Phases

variable {status status' : SchedulerStatus} {ledger middle final : Ledger} {candidate : Candidate}
  {settings : Settings} {now : Instant} {round : Round} {ending : Ending}

theorem Sparing.spared (sparing : Sparing scheduler status ledger) :
    Spared scheduler status ledger :=
  ⟨sparing.deletes, createsOnce_of_uncreating sparing.uncreating⟩

/-- The candidate stays the same from the deletion of its pod to the end of the pass. -/
theorem Round.Moves.candidate_eq_of_isLate
    (moves : round.Moves mayFail status ledger ending status' final)
    (awake : round.scheduler.isSuspended = false) (late : isLate status.phase = true) :
    status'.candidate = status.candidate := by
  have notRestoring : ¬ (status.phase = .restoringPod ∨ round.scheduler.isSuspended = true) := by
    rintro (phase | suspended)
    · simp [phase, isLate] at late
    · simp [suspended] at awake
  cases moves with
  | looks _ akin | takesDown _ _ _ _ _ _ akin | seesGone _ _ _ _ akin | seesPod _ _ akin
  | awaitsPod _ _ _ _ akin => exact akin.candidate
  | chooses _ phase => simp [phase, isLate] at late
  | takesOver _ _ _ same | creates _ _ _ _ _ same => exact same
  | failsToTakeDown | failsToCreate | losesSight => rfl
  | restores due => exact absurd due notRestoring

/-- The calls that are not for one given pod delete none. -/
theorem AsideCall.not_deletesPod {request : Request} (aside : AsideCall request) :
    ¬ DeletesPod request := by
  intro deletes
  obtain ⟨⟨space, podName⟩, deleted⟩ := Option.isSome_iff_exists.1 deletes
  rw [eq_delete_of_deletedPod? deleted] at aside
  exact aside.2 trivial

theorem adds_not_deletesPod_of_goes {slot : Slot} (goes : ledger.Goes slot.SparesSync final) :
    ledger.Adds (¬ DeletesPod ·) final := by
  obtain ⟨added, made, spares⟩ := goes.exists_calls
  refine ⟨added, made, fun call member deletes => ?_⟩
  rw [DeletesPod, (spares call member).1] at deletes
  cases deletes

/-- A phase of a scheduler that is not suspended, and that deletes no pod, leaves the pass
sparing, but for the snapshot that it may ask for. -/
theorem Sparing.of_moves (sparing : Sparing scheduler status ledger)
    (awake : scheduler.isSuspended = false)
    (moves : (roundOf scheduler settings now).Moves mayFail status ledger ending status' final)
    (adds : ledger.Adds (¬ DeletesPod ·) final) :
    Spared scheduler status' final ∧ (ending = .goesOn → Sparing scheduler status' final) := by
  have deletes : DeletesOnce (slotOf scheduler) status'.candidate final.calls := by
    by_cases late : isLate status.phase = true
    · rw [moves.candidate_eq_of_isLate awake late]
      exact sparing.deletes.of_adds adds
    · have undeleted := sparing.undeleted (Or.inr (eq_false_of_ne_true late))
      exact deletesOnce_of_none (none_of_adds undeleted adds)
  rcases moves.creation_cases with quiet | ⟨ends, _, phase, candidate, call, chosen, creates⟩
  · have uncreating : Uncreating final.calls :=
      none_of_adds sparing.uncreating (quiet.mono fun _ => not_creatingCall)
    refine ⟨⟨deletes, createsOnce_of_uncreating uncreating⟩, ?_⟩
    rintro rfl
    refine ⟨deletes, uncreating, fun early => ?_⟩
    exact none_of_adds (sparing.undeleted (moves.early_of_early early)) adds
  · have same : status'.candidate = some candidate :=
      (moves.candidate_eq_of_isLate awake (by rw [phase]; rfl)).trans chosen
    refine ⟨⟨deletes, ?_⟩, fun goesOn => absurd goesOn ends⟩
    rw [same]
    exact creates.createsOnce sparing.uncreating

/-- Calls that are not for one given pod leave a pass sparing that has the same candidate. -/
theorem Sparing.of_aside (sparing : Sparing scheduler status ledger)
    (adds : ledger.Adds AsideCall final) (same : status'.candidate = status.candidate)
    (early : isLate status'.phase = false → isLate status.phase = false) :
    Sparing scheduler status' final where
  deletes := same ▸ sparing.deletes.of_adds (adds.mono fun _ aside => aside.not_deletesPod)
  uncreating := none_of_adds sparing.uncreating (adds.mono fun _ aside => not_creatingCall aside.1)
  undeleted := fun cause => none_of_adds (sparing.undeleted (cause.imp_right early))
    (adds.mono fun _ aside => aside.not_deletesPod)

/-- A pod is registered by one of the calls, or the part of the pass halts. -/
theorem Round.ensures_hold_registers (podName : String) :
    (round.hold (some podName) : Pass SchedulerStatus Unit).Ensures mayFail
      (fun _ status' final => status' = status ∧ ledger.Adds AsideCall final ∧
        ∃ earlier ∈ final.calls, round.slot.Registers (some podName) earlier)
      (fun _ status' final => status' = status ∧ ledger.Adds AsideCall final) status ledger := by
  apply Round.ensures_hold AsideCall (asideCall_get (by decide) _ _) fun _ => ⟨trivial, id⟩
  · intro reads request answer after still aside registers held
    have before := (spares_of_reads round.slot still).adds
    exact ⟨rfl, before.trans (Ledger.adds_add aside answer after), _,
      List.mem_append_right _ (List.mem_singleton_self _), registers⟩
  · exact fun none => nomatch none
  · exact fun halt final _ reads => ⟨rfl, (spares_of_reads round.slot reads).adds⟩

/-- What holds once the pod of the candidate has been registered and asked to be deleted. -/
structure Deleting (scheduler : Scheduler) (status : SchedulerStatus) (ledger : Ledger) :
    Prop where
  deletes : DeletesOnce (slotOf scheduler) status.candidate ledger.calls
  uncreating : Uncreating ledger.calls

theorem Deleting.spared (deleting : Deleting scheduler status ledger) :
    Spared scheduler status ledger :=
  ⟨deleting.deletes, createsOnce_of_uncreating deleting.uncreating⟩

theorem Sparing.deleting (sparing : Sparing scheduler status ledger)
    (early : isLate status.phase = false) (chosen : status.candidate = some candidate)
    (registered : ∃ earlier ∈ ledger.calls,
      (slotOf scheduler).Registers (some candidate.podName) earlier)
    (answer : Answer (.delete .pod (slotOf scheduler).space candidate.podName))
    (after : Registry) : Deleting scheduler status (ledger.add _ answer after) where
  deletes := by
    rw [chosen]
    exact deletesOnce_concat (sparing.undeleted (Or.inr early)) registered rfl
  uncreating := by
    have quiet : QuietCall (.delete .pod (slotOf scheduler).space candidate.podName) := trivial
    exact none_of_adds sparing.uncreating (Ledger.adds_add (not_creatingCall quiet) _ _)

theorem Deleting.tells (deleting : Deleting scheduler status ledger) (event : Event)
    (answer : Answer (.publish event)) :
    Deleting scheduler status (ledger.add _ answer ledger.registry) where
  deletes := deleting.deletes.of_adds
    (Ledger.adds_add (asideCall_publish event).not_deletesPod answer _)
  uncreating := none_of_adds deleting.uncreating
    (Ledger.adds_add (not_creatingCall (asideCall_publish event).1) answer _)

/-- The phase that deletes the pod has registered it before. -/
theorem ensures_deletePod_sparing (awake : scheduler.isSuspended = false)
    (phase : status.phase = .deletingPod) (sparing : Sparing scheduler status ledger) :
    (roundOf scheduler settings now).deletePod.Ensures mayFail
      (Next.leads (Sparing scheduler) (Spared scheduler)) (fun _ => Spared scheduler)
      status ledger := by
  have early : isLate status.phase = false := by rw [phase]; rfl
  let held (candidate : Candidate) (middle : Ledger) : Prop :=
    Sparing scheduler status middle ∧ status.candidate = some candidate ∧
      ∃ earlier ∈ middle.calls, (slotOf scheduler).Registers (some candidate.podName) earlier
  apply Round.ensures_deletePod_of held (Deleting scheduler status)
  · exact fun unset => sparing.of_aside ⟨[], by simp, by simp⟩ rfl fun _ => early
  · intro candidate chosen
    have registers : ((roundOf scheduler settings now).hold (some candidate.podName) :
        Pass SchedulerStatus Unit).Ensures mayFail _ _ status ledger :=
      Round.ensures_hold_registers candidate.podName
    apply registers.mono
    · rintro _ status' middle ⟨rfl, adds, registered⟩
      exact ⟨rfl, sparing.of_aside adds rfl id, chosen, registered⟩
    · rintro halt status' final ⟨rfl, adds⟩
      exact ⟨rfl, (sparing.of_aside adds rfl id).spared⟩
  · exact fun candidate middle ready => ready.1.spared
  · exact fun candidate middle answer after ⟨before, chosen, registered⟩ =>
      before.deleting early chosen registered answer after
  · exact fun middle event answer deleting => deleting.tells event answer
  · exact fun final deleting => deleting.spared
  · intro final deleting
    refine ⟨deleting.deletes, deleting.uncreating, ?_⟩
    rintro (suspended | early)
    · exact absurd (suspended.symm.trans awake) nofun
    · cases early

/-- A suspended scheduler hands its pod back without deleting one. -/
theorem ensures_restorePod_sparing (suspended : scheduler.isSuspended = true)
    (sparing : Sparing scheduler status ledger) :
    (roundOf scheduler settings now).restorePod.Ensures mayFail
      (Next.leads (Sparing scheduler) (Spared scheduler)) (fun _ => Spared scheduler)
      status ledger := by
  have quiet : (roundOf scheduler settings now).restorePod.Makes QuietCall fun _ => True :=
    Round.makes_restorePod _ lenient_true
  have goes : (roundOf scheduler settings now).restorePod.EnsuresAlways mayFail
      (fun _ final => ledger.Goes (slotOf scheduler).SparesSync final) status ledger :=
    (abides_sparesSync _ _).conducts_restorePod status ledger
  have kept : ∀ {status' : SchedulerStatus} {final : Ledger}, ledger.Adds QuietCall final →
      ledger.Goes (slotOf scheduler).SparesSync final → Sparing scheduler status' final := by
    intro status' final adds goes
    have undeleted : ∀ call ∈ final.calls, ¬ DeletesPod call.request :=
      none_of_adds (sparing.undeleted (Or.inl suspended)) (adds_not_deletesPod_of_goes goes)
    exact ⟨deletesOnce_of_none undeleted,
      none_of_adds sparing.uncreating (adds.mono fun _ => not_creatingCall), fun _ => undeleted⟩
  apply ensures_leads ((quiet.ensures_adds trivial).and goes)
  · exact fun status' final ⟨⟨_, adds⟩, goes⟩ => kept adds goes
  · exact fun _ status' final ⟨⟨_, adds⟩, goes⟩ => (kept adds goes).spared
  · exact fun _ status' final ⟨⟨_, _, adds⟩, goes⟩ => (kept adds goes).spared

/-! ## Whole passes -/

theorem carries_sparing (scheduler : Scheduler) (settings : Settings) (now : Instant) :
    (roundOf scheduler settings now).Carries mayFail (Sparing scheduler) (Spared scheduler) where
  turn := by
    intro status ledger awake sparing
    by_cases deleting : status.phase = .deletingPod
    · rw [deleting]
      exact ensures_deletePod_sparing awake deleting sparing
    · have after : ∀ {ending status' final}, (roundOf scheduler settings now).Moves mayFail status
          ledger ending status' final ∧ ledger.Goes (slotOf scheduler).SparesSync final →
            Spared scheduler status' final ∧ (ending = .goesOn → Sparing scheduler status' final) :=
        fun ⟨moves, goes⟩ => sparing.of_moves awake moves (adds_not_deletesPod_of_goes goes)
      exact ensures_leads (ensures_turn_spares awake deleting)
        (fun _ _ turned => (after turned).2 rfl) (fun _ _ _ turned => (after turned).1)
          fun _ _ _ turned => (after turned).1
  restore := fun suspended _ sparing => ensures_restorePod_sparing suspended sparing
  ends := fun sparing => sparing.spared
  idles := by
    intro status ledger phase message dormant idle sparing
    exact ⟨sparing.deletes, sparing.uncreating, fun _ =>
      sparing.undeleted (dormant.symm.imp_right isLate_of_isDormant)⟩

/-- Whatever fails, a pass deletes at most one pod and creates at most one snapshot. -/
theorem ensures_step_spared (scheduler : Scheduler) (settings : Settings) (now : Instant)
    (status : SchedulerStatus) (before : Registry) :
    (step scheduler settings now).EnsuresAlways mayFail (Spared scheduler) status
      (.opened before) := by
  have begun : Sparing scheduler status (.opened before) :=
    ⟨deletesOnce_of_none (by simp), by simp [Uncreating], by simp⟩
  apply ensures_step_of_carries (carries_sparing scheduler settings now)
  · have asking : AsideCall (.findDefinition .volumeSnapshot) := ⟨trivial, id⟩
    exact fun answer => begun.of_aside (Ledger.adds_add asking answer before) rfl id
  · exact fun sparing => ⟨sparing.deletes, createsOnce_of_uncreating sparing.uncreating⟩

end Phases

section Runs

variable {settings : Settings} {now : Instant} {status status' : SchedulerStatus}
  {result : Except (Halt PassError) Action} {final : Ledger}

/-- Whatever fails, a pass touches nothing but the entry of its slot, the pod of its candidate
after it has registered that pod, one snapshot of the volume of its candidate, and old snapshots
of its own. -/
theorem step_touches_only
    (runs : (step scheduler settings now).Runs mayFail status (.opened before) result status'
      final) :
    (∀ call ∈ final.calls, MayTouch scheduler call) ∧
      DeletesOnce (slotOf scheduler) status'.candidate final.calls ∧
        CreatesOnce status'.candidate final.calls := by
  have touches := (ensures_step_mayTouch scheduler settings now status before).of_runs runs
  have spared := (ensures_step_spared scheduler settings now status before).of_runs runs
  exact ⟨touches.of_opened, spared.deletes, spared.creates⟩

/-- A pass of a scheduler in which no call fails. -/
def passWithout : (Except (Halt PassError) Action × SchedulerStatus) × Ledger :=
  ((step hourly .standard (.ofSeconds 3600)).run.run .initial : Program _).run
    (Program.serve fun _ => false) (.opened sampleCluster)

theorem runs_passWithout :
    (step hourly .standard (.ofSeconds 3600)).Runs (fun _ => False) .initial
      (.opened sampleCluster) passWithout.1.1 passWithout.1.2 passWithout.2 :=
  Program.runs_run (fun _ fails => nomatch fails) _ _

/-- The pass deletes a pod and asks for a snapshot, once each. -/
theorem hourly_touches_only :
    (∃ call ∈ passWithout.2.calls,
      deletedPod? call.request = some ("default", "cosmoshub-0")) ∧
    (∃ call ∈ passWithout.2.calls, CreatingCall call.request) ∧
    (∀ call ∈ passWithout.2.calls, MayTouch hourly call) ∧
    DeletesOnce (slotOf hourly) passWithout.1.2.candidate passWithout.2.calls ∧
    CreatesOnce passWithout.1.2.candidate passWithout.2.calls :=
  ⟨by decide +kernel, by decide +kernel, step_touches_only runs_passWithout⟩

end Runs

end NodeFleet.Snapshot
