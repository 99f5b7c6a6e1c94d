import NodeFleet.Proofs.Snapshot.Attribution
import NodeFleet.Proofs.Store.Outcomes

/-!
# Schedulers of one name

Schedulers keep apart from each other unless they have the same name and their full nodes are
in the same namespace.  The label by which a scheduler knows its snapshots leaves its own
namespace out, so such schedulers find each other's snapshots: they delete them, and they take
them for their own.  The key under which a pod is held down has the namespace in it.
-/

namespace NodeFleet.Snapshot

open Calendar Fleet Resource Store

variable {mayFail : Request → Prop} {scheduler owner other : Scheduler}
  {status status' : SchedulerStatus} {space name : String} {before registry : Registry}
  {ledger final : Ledger} {turn : Turn} {past : List Deed}

/-! ## Where the record of a snapshot comes from -/

/-- The name of the last snapshot, and when it was started. -/
def recordOf (status : SchedulerStatus) : Option (String × Timestamp) :=
  status.lastSnapshot.map fun last => (last.name, last.startedAt)

/-- How a pass has come by the name of a snapshot that it records. -/
inductive Origin (scheduler : Scheduler) (calls : List Call) (name : String) : Prop
  | created (call : Call) (member : call ∈ calls)
      (creates : CreatesAt call (slotOf scheduler).space name)
  | listed (call : Call) (member : call ∈ calls) (snapshot : VolumeSnapshot)
      (selected : snapshot ∈ call.before.selected .volumeSnapshot (slotOf scheduler).space
        scheduler.snapshotSelector)
      (named : snapshot.metadata.shownName = name)

/-- The record of a pass is the one with which it started, or its name has an origin. -/
def Traced (scheduler : Scheduler) (start status : SchedulerStatus) (ledger : Ledger) : Prop :=
  recordOf status = recordOf start ∨
    ∀ name startedAt, recordOf status = some (name, startedAt) →
      Origin scheduler ledger.calls name

section Records

variable {start : SchedulerStatus} {allowed : Request → Prop}

theorem Origin.mono {calls later : List Call} (origin : Origin scheduler calls name)
    (kept : ∀ call ∈ calls, call ∈ later) : Origin scheduler later name := by
  cases origin with
  | created call member creates => exact .created call (kept call member) creates
  | listed call member snapshot selected named =>
      exact .listed call (kept call member) snapshot selected named

theorem Traced.of_record {fine : Call → Prop} (traced : Traced scheduler start status ledger)
    (same : recordOf status' = recordOf status) (goes : ledger.Goes fine final) :
    Traced scheduler start status' final := by
  unfold Traced
  rw [same]
  exact traced.imp_right fun origins name startedAt recorded =>
    (origins name startedAt recorded).mono fun call member => goes.mem_of_mem member

/-- A part of a pass leaves the record of the last snapshot as it is. -/
def KeepsRecord {α : Type} (pass : Pass SchedulerStatus α) (status : SchedulerStatus) : Prop :=
  pass.Leads (fun _ status' => recordOf status' = recordOf status)
    (fun _ status' => recordOf status' = recordOf status) status

/-- The rule for a part of a pass that leaves the status as it is. -/
theorem leads_of_still {α : Type} {pass : Pass SchedulerStatus α}
    {done : α → SchedulerStatus → Prop} {halted : Halt PassError → SchedulerStatus → Prop}
    (still : pass.Makes allowed (· = status)) (holds : ∀ value, done value status)
    (halts : ∀ halt, halted halt status) : pass.Leads done halted status := by
  apply (still.leads rfl).mono
  · rintro value _ rfl
    exact holds value
  · rintro halt _ rfl
    exact halts halt

theorem keepsRecord_isPending (scheduler : Scheduler) (status : SchedulerStatus) :
    KeepsRecord (isPending scheduler) status := by
  apply Pass.leads_bind
  apply Pass.leads_get
  split
  · exact rfl
  · rename_i last recorded
    by_cases ready : last.isReady = true
    · simp only [ready, if_true]
      exact rfl
    · simp only [ready]
      apply Pass.leads_bind
      have spaced : (requireSpace scheduler : Pass SchedulerStatus String).Makes ReadingCall
          (· = status) := makes_requireSpace scheduler
      refine leads_of_still spaced (fun space => ?_) fun _ => rfl
      have looks : (Pass.attempt (Exchange.get? .volumeSnapshot space last.name) :
          Pass SchedulerStatus _).Makes ReadingCall (· = status) :=
        Pass.makes_attempt (Exchange.makes_get? trivial)
      apply Pass.leads_bind
      refine leads_of_still looks (fun snapshot? => ?_) fun _ => rfl
      cases snapshot? with
      | none => exact rfl
      | some snapshot =>
          have same : recordOf status = some (last.name, last.startedAt) := by
            simp [recordOf, recorded]
          exact same.symm

theorem keepsRecord_awaitNext (round : Round) (status : SchedulerStatus) :
    KeepsRecord round.awaitNext status := by
  have parsed : ∀ {α : Type} (result : Except Cron.ScheduleError α) (status : SchedulerStatus),
      (orScheduleFault result : Pass SchedulerStatus α).Makes ReadingCall (· = status) :=
    fun result status => makes_orScheduleFault result
  have waits : ∀ (wait : Duration) (looked : SchedulerStatus),
      recordOf looked = recordOf status → Pass.Leads
        (fun _ status' => recordOf status' = recordOf status)
        (fun _ status' => recordOf status' = recordOf status) (do
          if wait = .zero then
            enter .findingCandidate none
            return .proceed
          report s!"next snapshot in {wait.seconds}s"
          return .wait wait : Pass SchedulerStatus Next) looked := by
    intro wait looked same
    by_cases due : wait = .zero
    · simp only [due, if_true]
      exact same
    · simp only [due]
      exact same
  apply Pass.leads_bind
  apply Pass.leads_bind
  refine leads_of_still (parsed _ status) (fun schedule => ?_) fun _ => rfl
  apply Pass.leads_bind
  apply (keepsRecord_isPending round.scheduler status).mono _ fun _ _ kept => kept
  intro pending looked same
  cases pending with
  | true => exact waits _ looked same
  | false =>
      apply Pass.leads_bind
      apply Pass.leads_get
      refine leads_of_still (parsed _ looked) (fun wait => ?_) fun _ => same
      exact waits wait looked same

theorem keepsRecord_awaitSnapshot (round : Round) (status : SchedulerStatus) :
    KeepsRecord round.awaitSnapshot status := by
  apply Pass.leads_bind
  apply Pass.leads_get
  split
  · exact rfl
  · rename_i last recorded
    have looks : (Pass.attempt (Exchange.get? .volumeSnapshot round.space last.name) :
        Pass SchedulerStatus _).Makes ReadingCall (· = status) :=
      Pass.makes_attempt (Exchange.makes_get? trivial)
    have same : recordOf status = some (last.name, last.startedAt) := by
      simp [recordOf, recorded]
    apply Pass.leads_bind
    refine leads_of_still looks (fun snapshot? => ?_) fun _ => rfl
    cases snapshot? with
    | none => exact rfl
    | some snapshot =>
        apply Pass.leads_bind
        apply Pass.leads_modify
        by_cases ready : VolumeSnapshot.isReady snapshot = true
        · simp only [ready, if_true]
          exact same.symm
        · simp only [ready]
          exact same.symm

section Phases

variable {record : Option (String × Timestamp)} (round : Round)

theorem Round.makes_chooseCandidate_record :
    round.chooseCandidate.Makes ReadingCall (recordOf · = record) := by
  apply Pass.makes_bind (Pass.makes_attempt (Exchange.makes_get? trivial))
  intro node?
  cases node? with
  | none => exact Pass.makes_throw rfl
  | some node =>
      apply Pass.makes_bind (makes_findCandidate _ _ _)
      intro candidate
      exact Pass.makes_bind (Pass.makes_modify fun _ same => same) fun _ => Pass.makes_pure _

theorem Round.makes_deletePod_record : round.deletePod.Makes QuietCall (recordOf · = record) := by
  apply Pass.makes_bind Pass.makes_state
  intro status
  cases status.candidate with
  | none => exact Pass.makes_bind (Pass.makes_modify fun _ same => same) fun _ => Pass.makes_pure _
  | some candidate =>
      apply Pass.makes_bind (round.makes_hold _)
      intro held
      apply Pass.makes_bind (Pass.makes_attempt (Exchange.makes_delete trivial))
      intro gone
      apply Pass.makes_bind (Pass.makes_notify trivial)
      intro notified
      exact Pass.makes_bind (Pass.makes_modify fun _ same => same) fun _ => Pass.makes_pure _

theorem Round.makes_awaitPodDeletion_record :
    round.awaitPodDeletion.Makes ReadingCall (recordOf · = record) := by
  apply Pass.makes_bind makes_requireCandidate
  intro candidate
  apply Pass.makes_bind (round.makes_hasPod _)
  intro there
  cases there with
  | true => exact Pass.makes_bind (Pass.makes_modify fun _ same => same) fun _ => Pass.makes_pure _
  | false =>
      exact Pass.makes_bind (Pass.makes_modify fun _ same => same) fun _ => Pass.makes_pure _

theorem Round.makes_restorePod_record : round.restorePod.Makes QuietCall (recordOf · = record) := by
  apply Pass.makes_bind Pass.makes_state
  intro status
  cases status.candidate with
  | none => exact Pass.makes_bind (Pass.makes_modify fun _ same => same) fun _ => Pass.makes_pure _
  | some candidate =>
      apply Pass.makes_bind (round.makes_hold _)
      intro released
      apply Pass.makes_bind ((round.makes_hasPod _).mono fun _ => ReadingCall.quiet)
      intro there
      cases there with
      | true =>
          have unsets : (modify fun status : SchedulerStatus => { status with candidate := none } :
              Pass SchedulerStatus Unit).Makes QuietCall (recordOf · = record) :=
            Pass.makes_modify fun _ same => same
          have enters : (enter .waitingForNext none).Makes QuietCall (recordOf · = record) :=
            Pass.makes_modify fun _ same => same
          apply Pass.makes_bind unsets
          intro unset
          apply Pass.makes_bind enters
          intro entered
          apply Pass.makes_bind (round.makes_pruneSnapshots.mono fun _ => PruningCall.quiet)
          exact fun _ => Pass.makes_pure _
      | false =>
          exact Pass.makes_bind (Pass.makes_modify fun _ same => same) fun _ => Pass.makes_pure _

/-- No phase but the one that takes snapshots records another snapshot. -/
theorem keepsRecord_turn (status : SchedulerStatus) {phase : SnapshotPhase}
    (other : phase ≠ .creatingSnapshot) : KeepsRecord (round.turn phase) status := by
  cases phase with
  | waitingForNext => exact keepsRecord_awaitNext round status
  | findingCandidate => exact round.makes_chooseCandidate_record.leads rfl
  | deletingPod => exact round.makes_deletePod_record.leads rfl
  | waitingForPodDeletion => exact round.makes_awaitPodDeletion_record.leads rfl
  | creatingSnapshot => exact absurd rfl other
  | waitingForSnapshotCreation => exact keepsRecord_awaitSnapshot round status
  | restoringPod => exact round.makes_restorePod_record.leads rfl
  | suspended | missingDefinition => exact rfl

end Phases

end Records

/-! ## Records that passes trace -/

section Taking

variable {σ : Type} {state : σ} {round : Round}

theorem ensures_inFlight?_origin (inSpace : round.space = (slotOf round.scheduler).space)
    (claimName : String) :
    (round.inFlight? claimName : Pass σ _).Ensures mayFail
      (fun snapshot? state' final => state' = state ∧ ledger.Goes (fun _ => True) final ∧
        ∀ snapshot : VolumeSnapshot, snapshot? = some snapshot →
          Origin round.scheduler final.calls snapshot.metadata.shownName)
      (fun _ state' final => state' = state ∧ ledger.Goes (fun _ => True) final)
      state ledger := by
  apply Pass.ensures_bind
  apply Pass.ensures_attempt
  apply Exchange.ensures_list
  · apply Pass.ensures_pure
    refine ⟨rfl, .add .refl trivial, fun snapshot found => ?_⟩
    have selected := List.mem_of_find?_eq_some found
    rw [inSpace] at selected
    exact .listed _ (List.mem_append_right _ (List.mem_singleton_self _)) snapshot selected rfl
  · exact fun error final nothing => ⟨rfl, nothing.goes fun _ _ => trivial⟩

/-- A snapshot that is taken has been created, or it was in flight. -/
theorem ensures_takeSnapshot_origin (inSpace : round.space = (slotOf round.scheduler).space)
    (candidate : Candidate) :
    (round.takeSnapshot candidate : Pass σ _).Ensures mayFail
      (fun taken state' final => state' = state ∧ ledger.Goes (fun _ => True) final ∧
        Origin round.scheduler final.calls taken.1)
      (fun _ state' final => state' = state ∧ ledger.Goes (fun _ => True) final)
      state ledger := by
  apply Pass.ensures_bind
  apply (ensures_inFlight?_origin inSpace candidate.claimName).mono _ fun _ _ _ stopped => stopped
  rintro snapshot? _ listed ⟨rfl, looked, origin⟩
  cases snapshot? with
  | some snapshot => exact Pass.ensures_pure _ ⟨rfl, looked, origin snapshot rfl⟩
  | none =>
      apply Pass.ensures_bind
      apply Pass.ensures_attempt
      apply Exchange.ensures_create
      · intro name metadata after named absent stamped sets
        have creates : CreatesAt ⟨.create .volumeSnapshot round.space (round.newSnapshot candidate),
            some (.ok (Kind.volumeSnapshot.withMetadata metadata (round.newSnapshot candidate))),
            listed.registry, after⟩ (slotOf round.scheduler).space round.snapshotName :=
          ⟨trivial, ⟨_, rfl⟩, by rw [← inSpace]; rfl⟩
        apply Pass.ensures_bind
        apply Pass.ensures_notify
        · intro answer
          apply Pass.ensures_pure
          refine ⟨rfl, ?_, .created _ ?_ creates⟩
          · exact (looked.add trivial).add trivial
          · exact List.mem_append_left _ (List.mem_append_right _ (List.mem_singleton_self _))
        · exact ⟨rfl, (looked.add trivial).add trivial⟩
      · exact fun error final nothing =>
          ⟨rfl, looked.trans (nothing.goes fun _ _ => trivial)⟩

end Taking

section Tracing

variable {start : SchedulerStatus} {round : Round}

/-- What is recorded of a snapshot is traced to where its name comes from. -/
theorem ensures_recordTaken_traced {taken : String × Option Timestamp}
    (traced : Traced scheduler start status ledger)
    (origin : Origin scheduler ledger.calls taken.1) :
    (round.recordTaken taken).EnsuresAlways mayFail (Traced scheduler start) status ledger := by
  apply Pass.ensures_bind
  unfold Pass.orUnrecoverable
  split
  · rename_i startedAt known
    apply Pass.ensures_pure
    apply Pass.ensures_bind
    apply Pass.ensures_modify
    apply Pass.ensures_pure
    apply Or.inr
    intro name startedAt recorded
    obtain ⟨rfl, rfl⟩ := Prod.mk.inj (Option.some.inj recorded)
    exact origin
  · exact Pass.ensures_throw _ traced

theorem ensures_createSnapshot_traced (inSpace : round.space = (slotOf round.scheduler).space)
    (traced : Traced round.scheduler start status ledger) :
    round.createSnapshot.EnsuresAlways mayFail (Traced round.scheduler start) status ledger := by
  apply Pass.ensures_bind
  apply Pass.ensures_bind
  apply Pass.ensures_get
  cases status.candidate with
  | none => exact Pass.ensures_throw _ traced
  | some candidate =>
      apply Pass.ensures_pure
      apply Pass.ensures_bind
      apply (ensures_takeSnapshot_origin inSpace candidate).mono
      · rintro taken _ final ⟨rfl, goes, origin⟩
        exact ensures_recordTaken_traced (traced.of_record rfl goes) origin
      · rintro halt _ final ⟨rfl, goes⟩
        exact traced.of_record rfl goes

theorem carries_traced (scheduler : Scheduler) (settings : Settings) (now : Instant)
    (start : SchedulerStatus) :
    (roundOf scheduler settings now).Carries mayFail (Traced scheduler start)
      (Traced scheduler start) where
  turn := by
    intro status ledger awake traced
    by_cases creating : status.phase = .creatingSnapshot
    · rw [creating]
      have inSpace : (roundOf scheduler settings now).space = (slotOf scheduler).space := rfl
      exact ensures_leads (ensures_createSnapshot_traced inSpace traced) (fun _ _ done => done)
        (fun _ _ _ done => done) fun _ _ _ done => done
    · have keeps := keepsRecord_turn (roundOf scheduler settings now) status creating
      have conducts : ((roundOf scheduler settings now).turn status.phase).Conducts mayFail
          (fun _ => True) := (Round.makes_turn _ status.phase).conducts fun _ _ _ => trivial
      exact ensures_leads (keeps.ensures.and (conducts status ledger))
        (fun _ _ ⟨same, goes⟩ => traced.of_record same goes)
        (fun _ _ _ ⟨same, goes⟩ => traced.of_record same goes)
        fun _ _ _ ⟨same, goes⟩ => traced.of_record same goes
  restore := by
    intro status ledger suspended set traced
    have keeps : KeepsRecord (roundOf scheduler settings now).restorePod status :=
      (Round.makes_restorePod_record _).leads rfl
    have conducts : (roundOf scheduler settings now).restorePod.Conducts mayFail (fun _ => True) :=
      (Round.makes_restorePod _ lenient_true).conducts fun _ _ _ => trivial
    exact ensures_leads (keeps.ensures.and (conducts status ledger))
      (fun _ _ ⟨same, goes⟩ => traced.of_record same goes)
      (fun _ _ _ ⟨same, goes⟩ => traced.of_record same goes)
      fun _ _ _ ⟨same, goes⟩ => traced.of_record same goes
  ends := fun traced => traced
  idles := fun _ _ traced => traced

/-- Whatever fails, a pass traces the record of a snapshot. -/
theorem ensures_step_traced (scheduler : Scheduler) (settings : Settings) (now : Instant)
    (start : SchedulerStatus) (before : Registry) :
    (step scheduler settings now).EnsuresAlways mayFail (Traced scheduler start) start
      (.opened before) := by
  have begun : Traced scheduler start start (.opened before) := Or.inl rfl
  apply ensures_step_of_carries (carries_traced scheduler settings now start)
  · intro answer
    have asked : (Ledger.opened before).Goes (fun _ => True)
        ((Ledger.opened before).add (.findDefinition .volumeSnapshot) answer before) :=
      .add .refl trivial
    exact begun.of_record rfl asked
  · exact fun traced => traced

end Tracing

/-! ## Schedulers that keep apart -/

/-- The namespace and name by which a scheduler is stored. -/
def identity (scheduler : Scheduler) : String × String :=
  (scheduler.metadata.namespaceName.getD "", scheduler.name)

def Dotless (scheduler : Scheduler) : Prop := '.' ∉ (identity scheduler).1.toList

instance (scheduler : Scheduler) : Decidable (Dotless scheduler) :=
  inferInstanceAs (Decidable ('.' ∉ (identity scheduler).1.toList))

/-- Two schedulers have one name, and full nodes in one namespace. -/
structure Namesakes (left right : Scheduler) : Prop where
  name : left.name = right.name
  space : (slotOf left).space = (slotOf right).space

/-- Keys of different schedulers differ, as long as their namespaces have no dots. -/
theorem identity_eq_of_statusKey {left right : Scheduler} (dotlessLeft : Dotless left)
    (dotlessRight : Dotless right) (same : left.statusKey = right.statusKey) :
    identity left = identity right := by
  have cut : ∀ scheduler, Dotless scheduler →
      Text.splitFirst? '.' scheduler.statusKey.toList =
        some ((identity scheduler).1.toList, (identity scheduler).2.toList) := by
    intro scheduler dotless
    have joined : scheduler.statusKey.toList =
        (identity scheduler).1.toList ++ '.' :: (identity scheduler).2.toList := by
      simp [Scheduler.statusKey, identity, String.toList_append]
    rw [joined]
    exact Text.splitFirst?_append dotless
  have parts := (cut left dotlessLeft).symm.trans (same ▸ cut right dotlessRight)
  obtain ⟨sameSpace, sameName⟩ := Prod.mk.inj (Option.some.inj parts)
  exact Prod.ext (String.toList_injective sameSpace) (String.toList_injective sameName)

/-- Of a snapshot that some scheduler has created, its selector and namespace tell a
scheduler just whether the two are namesakes. -/
theorem Attributed.mem_selected_iff {snapshot : VolumeSnapshot}
    (attributed : Attributed past registry) (plain : ',' ∉ scheduler.name.toList)
    (made : MadeBy owner space name past)
    (there : registry.find? .volumeSnapshot space name = some snapshot) :
    snapshot ∈ registry.selected .volumeSnapshot (slotOf scheduler).space
        scheduler.snapshotSelector ↔ Namesakes owner scheduler := by
  obtain ⟨inSpace, sourced⟩ := attributed owner space name snapshot made there
  rw [registry.mem_selected_iff]
  have placed := Registry.isPlaced_of_find? there
  have selects := selects_snapshotSelector_iff plain snapshot
  constructor
  · rintro ⟨found, selected⟩
    have sameName : owner.name = scheduler.name :=
      Option.some.inj (sourced.symm.trans (selects.1 selected))
    have sameSpace : space = (slotOf scheduler).space :=
      Option.some.inj (placed.inSpace.symm.trans (Registry.isPlaced_of_find? found).inSpace)
    exact ⟨sameName, inSpace.symm.trans sameSpace⟩
  · intro namesakes
    have sameSpace : space = (slotOf scheduler).space := inSpace.trans namesakes.space
    have sourcedToo : NamesSource scheduler snapshot := sourced.trans (congrArg some namesakes.name)
    refine ⟨?_, selects.2 sourcedToo⟩
    have named : ObjectMeta.shownName (Kind.volumeSnapshot.metadata snapshot) = name :=
      placed.shownName_eq
    rw [named, ← sameSpace]
    exact there

/-- The record of the last snapshot of a stored scheduler. -/
def recordAt (registry : Registry) (space name : String) : Option (String × Timestamp) :=
  (registry.find? .scheduler space name).bind fun scheduler : Scheduler =>
    scheduler.status.bind recordOf

/-- A turn leaves a new record of a snapshot that it has not created. -/
def Turn.Adopts (turn : Turn) (space snapshotName : String) : Prop :=
  ∃ startedAt,
    recordAt turn.final.registry space turn.scheduler.name = some (snapshotName, startedAt) ∧
      recordOf turn.status ≠ some (snapshotName, startedAt) ∧
        ∀ call ∈ turn.final.calls,
          ¬ CreatesAt call (slotOf turn.scheduler).space snapshotName

/-- A turn leaves the snapshots of another scheduler alone: it deletes none of them, and takes
none for its own. -/
structure LeavesSnapshots (past : List Deed) (turn : Turn) (space : String) (other : Scheduler) :
    Prop where
  undeleted : ∀ made call rest snapshotSpace name (snapshot : VolumeSnapshot),
    turn.final.calls = made ++ call :: rest →
      call.request = .delete .volumeSnapshot snapshotSpace name →
        call.before.find? .volumeSnapshot snapshotSpace name = some snapshot →
          ¬ MadeBy other snapshotSpace name (past ++ made.map (Deed.mk turn.scheduler))
  unadopted : ∀ name, turn.Adopts space name →
    ¬ MadeBy other (slotOf turn.scheduler).space name past

section Turns

variable {schedulerName : String}

/-- Snapshots are attributed to their schedulers at every call of a turn. -/
theorem Mingles.attributed_at {made rest : List Call} {call : Call}
    (mingles : Mingles mayFail past turn.before)
    (stored : turn.before.find? .scheduler space schedulerName = some turn.scheduler)
    (runs : turn.Runs mayFail) (split : turn.final.calls = made ++ call :: rest) :
    Attributed (past ++ made.map (Deed.mk turn.scheduler)) call.before := by
  have chain : Chain mayFail turn.before (made ++ call :: rest) turn.final.registry :=
    split ▸ Program.Runs.chain runs
  have keeps := Turn.keepsApart runs stored
  rw [split] at keeps
  exact mingles.attributed.of_chain chain.before_eq.1 fun earlier member =>
    keeps earlier (List.mem_append_left _ member)

/-- What a turn adopts is among the snapshots that it has listed. -/
theorem Turn.Adopts.exists_listed (runs : turn.Runs mayFail)
    (stored : turn.before.find? .scheduler space schedulerName = some turn.scheduler)
    (adopts : turn.Adopts space name) :
    ∃ call ∈ turn.final.calls, ∃ snapshot : VolumeSnapshot,
      snapshot ∈ call.before.selected .volumeSnapshot (slotOf turn.scheduler).space
          turn.scheduler.snapshotSelector ∧
        snapshot.metadata.shownName = name := by
  obtain ⟨startedAt, recorded, anew, uncreated⟩ := adopts
  obtain ⟨_, status, middle, ⟨traced, settled⟩, _⟩ := turn.exists_comesOut
    (fun _ => Traced turn.scheduler turn.status) runs stored
    (ensures_step_traced turn.scheduler turn.settings turn.now turn.status turn.before)
  have kept : ∀ call ∈ middle.calls, call ∈ turn.final.calls := by
    obtain ⟨added, made, _⟩ := settled.spares.adds
    intro call member
    rw [made]
    exact List.mem_append_left _ member
  have latest : recordOf status = some (name, startedAt) := by
    cases settled.settles with
    | recorded version message found =>
        simpa [recordAt, found, recordedScheduler, recordOf] using recorded
    | lost found cause =>
        have old : recordOf turn.status = some (name, startedAt) := by
          cases reported : turn.scheduler.status with
          | none => simp [recordAt, found, reported] at recorded
          | some status => simpa [recordAt, found, reported, Turn.status] using recorded
        exact absurd old anew
  rcases traced with same | origins
  · exact absurd (same.symm.trans latest) anew
  · cases (origins name startedAt latest).mono kept with
    | created call member creates => exact absurd creates (uncreated call member)
    | listed call member snapshot selected named => exact ⟨call, member, snapshot, selected, named⟩

theorem leavesSnapshots_of_not_namesakes
    (mingles : Mingles mayFail past turn.before)
    (stored : turn.before.find? .scheduler space schedulerName = some turn.scheduler)
    (runs : turn.Runs mayFail) (plain : ',' ∉ turn.scheduler.name.toList)
    (apart : ¬ Namesakes other turn.scheduler) : LeavesSnapshots past turn space other where
  undeleted := by
    intro made call rest snapshotSpace name snapshot split deletes there madeBy
    have member : call ∈ turn.final.calls := by
      rw [split]
      exact List.mem_append_right _ List.mem_cons_self
    have attributed := mingles.attributed_at stored runs split
    obtain ⟨inSpace, selected⟩ :=
      (Turn.keepsApart runs stored call member).deletions snapshotSpace name deletes
    have named : ObjectMeta.shownName (Kind.volumeSnapshot.metadata snapshot) = name :=
      (Registry.isPlaced_of_find? there).shownName_eq
    have listed : snapshot ∈ call.before.selected .volumeSnapshot (slotOf turn.scheduler).space
        turn.scheduler.snapshotSelector := by
      rw [call.before.mem_selected_iff, named, ← inSpace]
      exact ⟨there, selected snapshot there⟩
    exact apart ((attributed.mem_selected_iff plain madeBy there).1 listed)
  unadopted := by
    intro name adopts madeBy
    obtain ⟨call, member, snapshot, selected, named⟩ := adopts.exists_listed runs stored
    obtain ⟨made, rest, split⟩ := List.append_of_mem member
    have attributed := mingles.attributed_at stored runs split
    have there := (call.before.mem_selected_iff.1 selected).1
    have uncreated : ∀ deed ∈ made.map (Deed.mk turn.scheduler),
        ¬ CreatesAt deed.call (slotOf turn.scheduler).space name := by
      obtain ⟨_, _, _, uncreated⟩ := adopts
      intro deed among
      obtain ⟨earlier, before, rfl⟩ := List.mem_map.1 among
      apply uncreated earlier
      rw [split]
      exact List.mem_append_left _ before
    rw [show ObjectMeta.shownName (Kind.volumeSnapshot.metadata snapshot) = name from named]
      at there
    exact apart ((attributed.mem_selected_iff plain (madeBy.append uncreated) there).1 selected)

/-- A turn leaves the entries of every other scheduler alone.  It leaves the snapshots of the
other alone unless the two are namesakes; and of those it finds every one that stands. -/
theorem keeps_apart_unless_namesakes
    (mingles : Mingles mayFail past turn.before)
    (stored : turn.before.find? .scheduler space schedulerName = some turn.scheduler)
    (runs : turn.Runs mayFail) (plain : ',' ∉ turn.scheduler.name.toList)
    (dotless : Dotless turn.scheduler) (dotlessOther : Dotless other)
    (distinct : identity other ≠ identity turn.scheduler) :
    (∀ call ∈ turn.final.calls, ∀ slot : Slot, slot.key = other.statusKey →
      slot.held? call.after = slot.held? call.before) ∧
    (¬ Namesakes other turn.scheduler → LeavesSnapshots past turn space other) ∧
    (∀ snapshotSpace name (snapshot : VolumeSnapshot), MadeBy other snapshotSpace name past →
      turn.before.find? .volumeSnapshot snapshotSpace name = some snapshot →
        (snapshot ∈ turn.before.selected .volumeSnapshot (slotOf turn.scheduler).space
            turn.scheduler.snapshotSelector ↔ Namesakes other turn.scheduler)) := by
  refine ⟨?_, leavesSnapshots_of_not_namesakes mingles stored runs plain, ?_⟩
  · intro call member slot key
    apply (Turn.keepsApart runs stored call member).entries slot
    rw [key]
    exact fun same => distinct (identity_eq_of_statusKey dotlessOther dotless same)
  · exact fun snapshotSpace name snapshot made there =>
      mingles.attributed.mem_selected_iff plain made there

/-- No turn interferes with any other scheduler. -/
def SchedulersKeepApart : Prop :=
  ∀ (past : List Deed) (turn : Turn) (space name : String) (other : Scheduler),
    Mingles (fun _ => False) past turn.before →
      turn.before.find? .scheduler space name = some turn.scheduler →
        turn.Runs (fun _ => False) → Dotless turn.scheduler → Dotless other →
          identity other ≠ identity turn.scheduler →
            (∀ call ∈ turn.final.calls, ∀ slot : Slot, slot.key = other.statusKey →
              slot.held? call.after = slot.held? call.before) ∧
            LeavesSnapshots past turn space other

end Turns

/-! ## A scheduler that takes over the snapshot of another -/

section Example

/-- A scheduler of another namespace, with the same name and for the same full node. -/
def visitor : Scheduler :=
  { hourly with
    metadata := { hourly.metadata with namespaceName := some "team" }
    spec := { hourly.spec with
      fullNodeRef := { name := "cosmoshub", namespaceName := some "default" } } }

def sharedCluster : Registry := sampleCluster.put .scheduler "team" "hourly" visitor

/-- The turn that takes a snapshot. -/
def hostTurn : Turn := turnAt "hourly" (.ofSeconds 3600) (fun _ => false) sharedCluster

def returnedPod : Pod := { (FullNode.sample 1 .empty).plainPod 0 with status := some readyStatus }

/-- The cluster once the pod is back. -/
def sharedLater : Registry :=
  hostTurn.final.registry.put .pod "default" "cosmoshub-0" returnedPod

/-- The turn that finds the snapshot in flight. -/
def visitorTurn : Turn :=
  let outcome := (syncScheduler visitor .standard (.ofSeconds 3660)).run.run
    (Program.serve fun _ => false) (Ledger.opened sharedLater)
  { scheduler := visitor, settings := .standard, now := .ofSeconds 3660, before := sharedLater
    result := outcome.1, final := outcome.2 }

theorem find?_sharedCluster (space : String) (scheduler : Scheduler)
    (stored : space = "default" ∧ scheduler = hourly ∨ space = "team" ∧ scheduler = visitor) :
    sharedCluster.find? .scheduler space "hourly" = some scheduler := by
  have sets := sampleCluster.sets_put
    (⟨rfl, rfl⟩ : Kind.scheduler.IsPlaced "team" "hourly" visitor)
  rcases stored with ⟨rfl, rfl⟩ | ⟨rfl, rfl⟩
  · exact (sets.elsewhere _ _ _ (by decide)).trans find?_sampleCluster
  · exact sets.here

theorem runs_visitorTurn : visitorTurn.Runs (fun _ => False) :=
  Program.runs_run (fun _ fails => nomatch fails) _ _

theorem hostTurn_stored :
    hostTurn.before.find? .scheduler "default" "hourly" = some hostTurn.scheduler := by
  have found := find?_sharedCluster "default" hourly (Or.inl ⟨rfl, rfl⟩)
  simp [hostTurn, turnAt, found]

theorem scheduler_hostTurn : hostTurn.scheduler = hourly := by
  have found := find?_sharedCluster "default" hourly (Or.inl ⟨rfl, rfl⟩)
  simp [hostTurn, turnAt, found]

theorem runs_hostTurn : hostTurn.Runs (fun _ => False) :=
  runs_turnAt (fun _ fails => nomatch fails) _ _ _

theorem mingles_visitorTurn : Mingles (fun _ => False) hostTurn.deeds visitorTurn.before := by
  have sets := hostTurn.final.registry.sets_put
    (⟨rfl, rfl⟩ : Kind.pod.IsPlaced "default" "cosmoshub-0" returnedPod)
  apply Mingles.stir (Mingles.turn (.start sharedCluster) hostTurn_stored runs_hostTurn)
  intro space name snapshot found
  rw [show visitorTurn.before = sharedLater from rfl, sharedLater,
    sets.find?_eq_of_ne (by decide)] at found
  exact Or.inl ⟨snapshot, found, rfl⟩

theorem visitorTurn_stored :
    visitorTurn.before.find? .scheduler "team" "hourly" = some visitorTurn.scheduler := by
  have sets := hostTurn.final.registry.sets_put
    (⟨rfl, rfl⟩ : Kind.pod.IsPlaced "default" "cosmoshub-0" returnedPod)
  have spared : ∀ call ∈ hostTurn.final.calls,
      call.request.place? ≠ some (.scheduler, "team", "hourly") := by
    decide +kernel
  have chain : Chain (fun _ => False) hostTurn.before hostTurn.final.calls
      hostTurn.final.registry := Program.Runs.chain runs_hostTurn
  have found := find?_sharedCluster "team" visitor (Or.inr ⟨rfl, rfl⟩)
  have there : sharedLater.find? .scheduler "team" "hourly" = some visitor := by
    rw [sharedLater, sets.find?_eq_of_ne (by decide), chain.find?_eq spared]
    exact found
  exact there

theorem madeBy_hostTurn :
    MadeBy hourly "default" "hourly-19700101010000" hostTurn.deeds := by
  have creates : ∃ call ∈ hostTurn.final.calls,
      CreatesAt call "default" "hourly-19700101010000" := by
    decide +kernel
  have made : MadeBy hostTurn.scheduler "default" "hourly-19700101010000"
      ([] ++ hostTurn.final.calls.map (Deed.mk hostTurn.scheduler)) := madeBy_of_creates creates
  rw [scheduler_hostTurn] at made
  rw [Turn.deeds, scheduler_hostTurn]
  exact made

/-- The visitor leaves the entries of the other scheduler alone, and finds its snapshot. -/
theorem namesakes_of_visitorTurn :
    (∀ call ∈ visitorTurn.final.calls, ∀ slot : Slot, slot.key = hourly.statusKey →
      slot.held? call.after = slot.held? call.before) ∧
    (∃ snapshot : VolumeSnapshot,
      visitorTurn.before.find? .volumeSnapshot "default" "hourly-19700101010000" =
          some snapshot ∧
        (snapshot ∈ visitorTurn.before.selected .volumeSnapshot
            (slotOf visitorTurn.scheduler).space visitorTurn.scheduler.snapshotSelector ↔
          Namesakes hourly visitorTurn.scheduler)) := by
  have plain : ',' ∉ visitor.name.toList := by decide
  have stands : (visitorTurn.before.find? .volumeSnapshot "default"
      "hourly-19700101010000").isSome = true := by
    decide +kernel
  obtain ⟨snapshot, there⟩ := Option.isSome_iff_exists.1 stands
  obtain ⟨entries, _, finds⟩ := keeps_apart_unless_namesakes mingles_visitorTurn
    visitorTurn_stored runs_visitorTurn plain (by decide) (by decide : Dotless hourly) (by decide)
  exact ⟨entries, snapshot, there, finds _ _ snapshot madeBy_hostTurn there⟩

/-- The visitor takes the snapshot of the other scheduler for its own. -/
theorem adopts_visitorTurn : visitorTurn.Adopts "team" "hourly-19700101010000" := by
  have takenOver : recordAt visitorTurn.final.registry "team" "hourly" =
        some ("hourly-19700101010000", ⟨3660⟩) ∧
      ∀ call ∈ visitorTurn.final.calls, ¬ CreatesAt call "default" "hourly-19700101010000" := by
    decide +kernel
  exact ⟨⟨3660⟩, takenOver.1, nofun, takenOver.2⟩

theorem not_schedulersKeepApart : ¬ SchedulersKeepApart := by
  intro keepApart
  have apart := keepApart _ _ _ _ hourly mingles_visitorTurn visitorTurn_stored runs_visitorTurn
    (by decide) (by decide) (by decide)
  exact apart.2.unadopted _ adopts_visitorTurn madeBy_hostTurn

end Example

end NodeFleet.Snapshot
