import Mathlib.Data.List.Induction
import NodeFleet.Proofs.Resource.Selector
import NodeFleet.Proofs.Snapshot.Expiry
import NodeFleet.Proofs.Snapshot.Turns

/-!
# Whose a snapshot is

A snapshot belongs to the scheduler that created it.  A scheduler knows its snapshots by a
label alone, and looks for them in the namespace of its full node.  So every snapshot that
stands where a scheduler was the last to create one carries the name of that scheduler, and is
in the namespace of its full node.
-/

namespace NodeFleet.Snapshot

open Calendar Resource Store

variable {mayFail : Request → Prop} {scheduler owner : Scheduler} {round : Round}
  {space name : String} {before after registry : Registry} {ledger : Ledger}

/-! ## The source of a snapshot -/

/-- A snapshot carries the name of a scheduler as its source. -/
def NamesSource (scheduler : Scheduler) (snapshot : VolumeSnapshot) : Prop :=
  snapshot.metadata.labelMap.find? sourceKey = some scheduler.name

theorem namesSource_congr {snapshot stored : VolumeSnapshot}
    (sameLabels : snapshot.metadata.labelMap = stored.metadata.labelMap) :
    NamesSource scheduler snapshot ↔ NamesSource scheduler stored := by
  rw [NamesSource, NamesSource, sameLabels]

theorem find?_snapshotLabels (scheduler : Scheduler) (key : String) :
    scheduler.snapshotLabels.find? key =
      if key = sourceKey then some scheduler.name else none := by
  simp only [Scheduler.snapshotLabels, KeyMap.ofList, List.foldl, KeyMap.find?_insert,
    KeyMap.find?_empty, eq_comm]

/-- The selector of a scheduler asks for its name and for nothing else. -/
theorem selects_snapshotSelector_iff (plain : ',' ∉ scheduler.name.toList)
    (snapshot : VolumeSnapshot) :
    Cluster.selects scheduler.snapshotSelector snapshot.metadata.labelMap.find? = true ↔
      NamesSource scheduler snapshot := by
  have clean : ∀ label ∈ scheduler.snapshotLabels.entries, CleanLabel label := by
    intro label member
    have found := (KeyMap.find?_eq_some_iff_mem _ _ _).2 member
    rw [find?_snapshotLabels] at found
    obtain ⟨key, value⟩ := label
    split at found
    · rename_i same
      obtain rfl := Option.some.inj found
      exact ⟨same ▸ by decide, same ▸ by decide, plain⟩
    · cases found
  rw [Scheduler.snapshotSelector, selects_labelSelector_iff clean]
  simp only [find?_snapshotLabels]
  constructor
  · exact fun all => all sourceKey scheduler.name (if_pos rfl)
  · intro sourced key value found
    split at found
    · rename_i same
      rw [same, ← found]
      exact sourced
    · cases found

/-- A new snapshot carries the name of its scheduler. -/
theorem namesSource_newSnapshot (round : Round) (candidate : Candidate) :
    NamesSource round.scheduler (round.newSnapshot candidate) := by
  have labels : (round.newSnapshot candidate).metadata.labels =
      some (candidate.podLabels.insert sourceKey round.scheduler.name) := rfl
  rw [NamesSource, ObjectMeta.labelMap, labels]
  simp [KeyMap.find?_insert]

/-- It still does once the server has stamped it. -/
theorem namesSource_stamped (round : Round) (candidate : Candidate) {metadata : ObjectMeta}
    (stamped : Stamped space (round.newSnapshot candidate).metadata metadata) :
    NamesSource round.scheduler
      (Kind.volumeSnapshot.withMetadata metadata (round.newSnapshot candidate)) := by
  refine (namesSource_congr ?_).2 (namesSource_newSnapshot round candidate)
  exact congrArg (·.getD .empty) stamped.labels

/-! ## What a call does to the snapshots of others -/

/-- A call puts a snapshot where there was none. -/
def CreatesAt (call : Call) (space name : String) : Prop :=
  CreatingCall call.request ∧ call.Succeeds ∧
    call.request.place? = some (.volumeSnapshot, space, name)

instance (call : Call) (space name : String) : Decidable (CreatesAt call space name) :=
  inferInstanceAs (Decidable (_ ∧ _ ∧ _))

/-- Where a snapshot that a call of a scheduler leaves comes from. -/
inductive Comes (scheduler : Scheduler) (call : Call) (space name : String)
    (snapshot : VolumeSnapshot) : Prop
  | stood (stored : VolumeSnapshot)
      (there : call.before.find? .volumeSnapshot space name = some stored)
      (sameLabels : snapshot.metadata.labelMap = stored.metadata.labelMap)
      (uncreated : ¬ CreatesAt call space name)
  | created (creates : CreatesAt call space name)
      (inSpace : space = (slotOf scheduler).space) (sourced : NamesSource scheduler snapshot)

/-- A call leaves the entries of other schedulers alone, relabels no snapshot, and deletes only
snapshots that the selector of its scheduler finds in the namespace of its full node. -/
structure KeepsApart (scheduler : Scheduler) (call : Call) : Prop where
  entries : ∀ slot : Slot, slot.key ≠ scheduler.statusKey →
    slot.held? call.after = slot.held? call.before
  snapshots : ∀ (space name : String) (snapshot : VolumeSnapshot),
    call.after.find? .volumeSnapshot space name = some snapshot →
      Comes scheduler call space name snapshot
  deletions : ∀ space name, call.request = .delete .volumeSnapshot space name →
    space = (slotOf scheduler).space ∧ ∀ snapshot : VolumeSnapshot,
      call.before.find? .volumeSnapshot space name = some snapshot →
        Cluster.selects scheduler.snapshotSelector snapshot.metadata.labelMap.find? = true

section Calls

variable {request : Request} {answer : Answer request}

theorem held?_eq_of_served {slot : Slot} (served : Serves mayFail request before answer after)
    (aside : ∀ space name, request.place? ≠ some (.fullNode, space, name)) :
    slot.held? after = slot.held? before := by
  unfold Slot.held?
  rw [served.find?_eq (aside _ _)]

/-- Snapshots that a call finds as it leaves them have been there before. -/
theorem comes_of_find?_eq {snapshot : VolumeSnapshot}
    (same : after.find? .volumeSnapshot space name = before.find? .volumeSnapshot space name)
    (uncreated : ¬ CreatesAt ⟨request, answer, before, after⟩ space name)
    (found : after.find? .volumeSnapshot space name = some snapshot) :
    Comes scheduler ⟨request, answer, before, after⟩ space name snapshot :=
  .stood snapshot (same.symm.trans found) rfl uncreated

/-- A call for neither a full node nor a snapshot keeps apart from all other schedulers. -/
theorem keepsApart_of_place (served : Serves mayFail request before answer after)
    (aside : ∀ kind space name, request.place? = some (kind, space, name) →
      kind ≠ .fullNode ∧ kind ≠ .volumeSnapshot) :
    KeepsApart scheduler ⟨request, answer, before, after⟩ where
  entries := fun slot _ => held?_eq_of_served served fun _ _ place => (aside _ _ _ place).1 rfl
  snapshots := by
    intro space name snapshot found
    have elsewhere : request.place? ≠ some (.volumeSnapshot, space, name) :=
      fun place => (aside _ _ _ place).2 rfl
    exact comes_of_find?_eq (served.find?_eq elsewhere) (fun creates => elsewhere creates.2.2) found
  deletions := by
    rintro space name rfl
    exact absurd rfl (aside _ _ _ rfl).2

theorem keepsApart_of_reading (reads : ReadingCall request)
    (served : Serves mayFail request before answer after) :
    KeepsApart scheduler ⟨request, answer, before, after⟩ := by
  cases request with
  | list kind space selector | get kind space name | publish event | findDefinition kind =>
      exact keepsApart_of_place served fun _ _ _ place => nomatch place
  | _ => cases reads

theorem keepsApart_of_settling (settles : SettlingCall request)
    (served : Serves mayFail request before answer after) :
    KeepsApart scheduler ⟨request, answer, before, after⟩ := by
  cases request with
  | get kind space name | publish event =>
      exact keepsApart_of_place served fun _ _ _ place => nomatch place
  | replaceStatus kind space name written =>
      cases kind with
      | scheduler =>
          apply keepsApart_of_place served
          rintro kind space name ⟨⟩
          exact ⟨by decide, by decide⟩
      | _ => cases settles
  | _ => cases settles

end Calls

/-- A call for a full node leaves the snapshots as they are. -/
theorem keepsApart_of_node {request : Request} {answer : Answer request} {nodeName : String}
    {written : FullNode} (request_eq : request = .replaceStatus .fullNode space nodeName written)
    (sameSnapshots : ∀ space name,
      after.find? .volumeSnapshot space name = before.find? .volumeSnapshot space name)
    (sameEntries : ∀ slot : Slot, slot.key ≠ scheduler.statusKey →
      slot.held? after = slot.held? before) :
    KeepsApart scheduler ⟨request, answer, before, after⟩ := by
  subst request_eq
  refine ⟨sameEntries, ?_, fun _ _ deletes => nomatch deletes⟩
  intro space' name' snapshot found
  exact comes_of_find?_eq (sameSnapshots _ _) (fun creates => nomatch creates.1) found

/-- A deletion of a snapshot that the selector finds. -/
theorem keepsApart_of_deletion {answer : Answer (.delete .volumeSnapshot space name)}
    (served : Serves mayFail (.delete .volumeSnapshot space name) before answer after)
    (inSpace : space = (slotOf scheduler).space)
    (selected : ∀ snapshot : VolumeSnapshot,
      before.find? .volumeSnapshot space name = some snapshot →
        Cluster.selects scheduler.snapshotSelector snapshot.metadata.labelMap.find? = true) :
    KeepsApart scheduler ⟨_, answer, before, after⟩ where
  entries := fun slot _ => held?_eq_of_served served fun _ _ place => nomatch place
  snapshots := by
    intro space' name' snapshot found
    have uncreated : ¬ CreatesAt ⟨_, answer, before, after⟩ space' name' :=
      fun creates => nomatch creates.1
    by_cases here : space' = space ∧ name' = name
    · obtain ⟨rfl, rfl⟩ := here
      cases served with
      | removed there sets => exact absurd (sets.here.symm.trans found) (by simp)
      | @doomed _ _ _ stored _ _ _ there sets =>
          obtain rfl := Option.some.inj (sets.here.symm.trans found)
          exact .stood stored there rfl uncreated
      | nothingToDelete absent => exact .stood snapshot found rfl uncreated
      | failed may honest => exact .stood snapshot found rfl uncreated
      | unanswered may => exact .stood snapshot found rfl uncreated
    · have elsewhere : (Request.delete .volumeSnapshot space name).place? ≠
          some (.volumeSnapshot, space', name') := by
        intro place
        obtain ⟨rfl, rfl⟩ : space = space' ∧ name = name' := by
          simpa [Request.place?] using place
        exact here ⟨rfl, rfl⟩
      exact comes_of_find?_eq (served.find?_eq elsewhere) uncreated found
  deletions := by
    rintro _ _ ⟨⟩
    exact ⟨inSpace, selected⟩

/-- The creation of a snapshot for a candidate. -/
theorem keepsApart_of_creation {candidate : Candidate}
    {answer : Answer (.create .volumeSnapshot round.space (round.newSnapshot candidate))}
    (inSpace : round.space = (slotOf round.scheduler).space)
    (served : Serves mayFail (.create .volumeSnapshot round.space (round.newSnapshot candidate))
      before answer after) :
    KeepsApart round.scheduler ⟨_, answer, before, after⟩ where
  entries := fun slot _ => held?_eq_of_served served fun _ _ place => nomatch place
  snapshots := by
    intro space' name' snapshot found
    cases served with
    | @created _ _ name object metadata _ _ named absent stamped sets =>
        by_cases here : space' = round.space ∧ name' = name
        · obtain ⟨rfl, rfl⟩ := here
          obtain rfl := Option.some.inj (sets.here.symm.trans found)
          refine .created ⟨trivial, ⟨_, rfl⟩, ?_⟩ inSpace (namesSource_stamped round _ stamped)
          simp [Request.place?, named]
        · have elsewhere := sets.elsewhere .volumeSnapshot space' name' fun same =>
            here (by simpa using same)
          apply comes_of_find?_eq elsewhere _ found
          rintro ⟨_, _, place⟩
          have same : round.space = space' ∧ name = name' := by
            simpa [Request.place?, named] using place
          exact here ⟨same.1.symm, same.2.symm⟩
    | _ =>
        apply Comes.stood snapshot found rfl
        rintro ⟨_, ⟨_, succeeds⟩, _⟩
        cases succeeds
  deletions := fun _ _ deletes => nomatch deletes

/-! ## Whole passes keep apart -/

theorem heldUnder?_hold_of_ne {key other : String} (different : other ≠ key) (version : String)
    (pod : Option String) (stored : FullNode) :
    heldUnder? (Kind.fullNode.renewed version (stored.updateStatus (·.hold key pod)) stored)
      other = heldUnder? stored other := by
  have unlike : key ≠ other := different.symm
  cases reported : stored.status <;> cases pod <;>
    simp [heldUnder?, Kind.renewed, Kind.withMetadata, Kind.withStatusOf, FullNode.updateStatus,
      FullNodeStatus.hold, FullNodeStatus.initial, KeyMap.find?_insert, KeyMap.find?_erase,
      reported, unlike]

section Passes

variable {σ α : Type} {state : σ}

theorem conducts_hold_keepsApart (round : Round) (pod : Option String) :
    (round.hold pod : Pass σ Unit).Conducts mayFail (KeepsApart round.scheduler) := by
  apply Round.conducts_hold
  · intro answer registry
    refine ⟨fun _ _ => rfl, ?_, fun _ _ deletes => nomatch deletes⟩
    exact fun _ _ snapshot found => comes_of_find?_eq rfl (fun creates => nomatch creates.1) found
  · exact fun stored answer registry there =>
      keepsApart_of_node rfl (fun _ _ => rfl) fun _ _ => rfl
  · intro stored version before after there sets
    apply keepsApart_of_node rfl (sets.find?_eq_of_ne (by decide))
    intro slot other
    unfold Slot.held?
    by_cases here : slot.space = round.space ∧ slot.nodeName = round.nodeName
    · rw [here.1, here.2, sets.here, there]
      exact heldUnder?_hold_of_ne other version pod stored
    · rw [sets.elsewhere .fullNode _ _ fun same => here (by simpa using same)]

/-- What stands at some places is found by the selector of a scheduler. -/
def AllSelected (scheduler : Scheduler) (space : String) (names : List String)
    (registry : Registry) : Prop :=
  ∀ name ∈ names, ∀ snapshot : VolumeSnapshot,
    registry.find? .volumeSnapshot space name = some snapshot →
      Cluster.selects scheduler.snapshotSelector snapshot.metadata.labelMap.find? = true

/-- Snapshots that a call has not created have been there before, labelled as they are. -/
theorem AllSelected.of_keepsApart {names : List String} {call : Call}
    (selected : AllSelected scheduler space names call.before)
    (keeps : KeepsApart scheduler call) (uncreated : ¬ CreatingCall call.request) :
    AllSelected scheduler space names call.after := by
  intro name member snapshot found
  cases keeps.snapshots space name snapshot found with
  | stood stored there sameLabels =>
      rw [sameLabels]
      exact selected name member stored there
  | created creates => exact absurd creates.1 uncreated

theorem allSelected_expired (scheduler : Scheduler) (limit : Nat) (space : String)
    (registry : Registry) :
    AllSelected scheduler space ((expired limit
      (registry.selected .volumeSnapshot space scheduler.snapshotSelector)).map
        (·.metadata.shownName)) registry := by
  intro name member snapshot found
  obtain ⟨listed, expires, rfl⟩ := List.mem_map.1 member
  obtain ⟨there, selected⟩ := registry.mem_selected_iff.1 (mem_of_mem_expired expires).1
  obtain rfl := Option.some.inj (found.symm.trans there)
  exact selected

/-- What has been selected is deleted one after another. -/
theorem conducts_pruneSnapshots_keepsApart
    (inSpace : round.space = (slotOf round.scheduler).space) :
    (round.pruneSnapshots : Pass σ Unit).Conducts mayFail (KeepsApart round.scheduler) := by
  apply Round.conducts_pruneSnapshots fun call reads served => keepsApart_of_reading reads served
  · exact allSelected_expired round.scheduler round.scheduler.limit round.space
  · exact fun name names registry selected => (List.forall_mem_cons.1 selected).2
  · intro name names answer before after selected served
    obtain ⟨chosen, others⟩ := List.forall_mem_cons.1 selected
    have keeps : KeepsApart round.scheduler ⟨_, answer, before, after⟩ :=
      keepsApart_of_deletion served inSpace chosen
    have stood : AllSelected round.scheduler round.space names
        (Call.before ⟨.delete .volumeSnapshot round.space name, answer, before, after⟩) := others
    exact ⟨keeps, stood.of_keepsApart keeps id⟩

theorem abides_keepsApart (scheduler : Scheduler) (settings : Settings) (now : Instant) :
    (roundOf scheduler settings now).Abides mayFail (KeepsApart scheduler) where
  reads := fun _ reads served => keepsApart_of_reading reads served
  holds := conducts_hold_keepsApart (roundOf scheduler settings now)
  takes := by
    rintro ⟨request, answer, before, after⟩ candidate rfl served
    have inSpace : (roundOf scheduler settings now).space = (slotOf scheduler).space := rfl
    exact keepsApart_of_creation inSpace served
  prunes := conducts_pruneSnapshots_keepsApart rfl

/-- Every call of a pass keeps apart from other schedulers. -/
theorem ensures_step_keepsApart (scheduler : Scheduler) (settings : Settings) (now : Instant)
    (status : SchedulerStatus) (before : Registry) :
    (step scheduler settings now).EnsuresAlways mayFail
      (fun _ final => (Ledger.opened before).Goes (KeepsApart scheduler) final) status
      (.opened before) := by
  have abides : (roundOf scheduler settings now).Abides mayFail (KeepsApart scheduler) :=
    abides_keepsApart scheduler settings now
  have deletes : ∀ (call : Call) (name : String),
      call.request = .delete .pod (roundOf scheduler settings now).space name →
        Serves mayFail call.request call.before call.answer call.after →
          KeepsApart scheduler call := by
    rintro ⟨request, answer, before, after⟩ name rfl served
    apply keepsApart_of_place served
    rintro kind space name ⟨⟩
    exact ⟨by decide, by decide⟩
  apply ensures_step_of_carries (abides.carries_goes deletes (.opened before))
  · intro answer
    refine .add .refl ⟨fun _ _ => rfl, ?_, fun _ _ request => nomatch request⟩
    exact fun _ _ snapshot found => comes_of_find?_eq rfl (fun creates => nomatch creates.1) found
  · exact fun goes => goes

end Passes

/-- Every call of a turn keeps apart from other schedulers. -/
theorem Turn.keepsApart {turn : Turn} (runs : turn.Runs mayFail)
    (stored : turn.before.find? .scheduler space name = some turn.scheduler) :
    ∀ call ∈ turn.final.calls, KeepsApart turn.scheduler call := by
  obtain ⟨_, status, middle, ⟨goes, settled⟩, _⟩ := turn.exists_comesOut
    (fun _ _ ledger => (Ledger.opened turn.before).Goes (KeepsApart turn.scheduler) ledger) runs
    stored (ensures_step_keepsApart turn.scheduler turn.settings turn.now _ turn.before)
  obtain ⟨added, made, settling⟩ := settled.spares.adds
  have chain : Chain mayFail turn.before turn.final.calls turn.final.registry :=
    Program.Runs.chain runs
  intro call member
  have served := chain.served call member
  rw [made] at member
  rcases List.mem_append.1 member with early | late
  · exact goes.of_opened call early
  · exact keepsApart_of_settling (settling call late) served

/-! ## Who created a snapshot -/

/-- A call that a scheduler has made. -/
structure Deed where
  scheduler : Scheduler
  call : Call

/-- The calls of a turn. -/
def Turn.deeds (turn : Turn) : List Deed := turn.final.calls.map (Deed.mk turn.scheduler)

/-- A scheduler was the last to create a snapshot at a place. -/
def MadeBy (owner : Scheduler) (space name : String) (past : List Deed) : Prop :=
  ∃ (earlier later : List Deed) (call : Call),
    past = earlier ++ ⟨owner, call⟩ :: later ∧ CreatesAt call space name ∧
      ∀ deed ∈ later, ¬ CreatesAt deed.call space name

/-- The snapshots that schedulers created carry their names, in the namespaces of their full
nodes. -/
def Attributed (past : List Deed) (registry : Registry) : Prop :=
  ∀ (owner : Scheduler) (space name : String) (snapshot : VolumeSnapshot),
    MadeBy owner space name past → registry.find? .volumeSnapshot space name = some snapshot →
      space = (slotOf owner).space ∧ NamesSource owner snapshot

section Deeds

variable {past : List Deed} {call : Call} {calls : List Call}

theorem not_madeBy_nil : ¬ MadeBy owner space name [] := by
  rintro ⟨earlier, later, call, whole, _⟩
  simp at whole

/-- The last to create a snapshot is the one of the last call, if that creates it. -/
theorem MadeBy.of_concat (made : MadeBy owner space name (past ++ [⟨scheduler, call⟩])) :
    CreatesAt call space name ∧ owner = scheduler ∨
      ¬ CreatesAt call space name ∧ MadeBy owner space name past := by
  obtain ⟨earlier, later, creation, whole, creates, uncreated⟩ := made
  rcases List.eq_nil_or_concat later with rfl | ⟨between, last, rfl⟩
  · obtain ⟨rfl, same⟩ := List.append_inj' whole rfl
    cases same
    exact Or.inl ⟨creates, rfl⟩
  · rw [List.concat_eq_append, ← List.cons_append, ← List.append_assoc] at whole
    obtain ⟨rfl, same⟩ := List.append_inj' whole rfl
    cases same
    refine Or.inr ⟨uncreated ⟨scheduler, call⟩ (by simp), earlier, between, creation, rfl, creates,
      fun deed member => uncreated deed (by simp [member])⟩

/-- A scheduler that creates a snapshot is the last to have done so. -/
theorem madeBy_of_creates (creates : ∃ call ∈ calls, CreatesAt call space name) :
    MadeBy owner space name (past ++ calls.map (Deed.mk owner)) := by
  induction calls using List.reverseRecOn with
  | nil => simp at creates
  | append_singleton calls last inductionHypothesis =>
      by_cases latest : CreatesAt last space name
      · exact ⟨past ++ calls.map (Deed.mk owner), [], last, by simp, latest, by simp⟩
      · have before : ∃ call ∈ calls, CreatesAt call space name := by
          obtain ⟨call, member, creation⟩ := creates
          rcases List.mem_append.1 member with early | late
          · exact ⟨call, early, creation⟩
          · obtain rfl := List.mem_singleton.1 late
            exact absurd creation latest
        obtain ⟨earlier, later, call, whole, creation, uncreated⟩ := inductionHypothesis before
        have wholeNow : past ++ (calls ++ [last]).map (Deed.mk owner) =
            earlier ++ ⟨owner, call⟩ :: (later ++ [⟨owner, last⟩]) := by
          rw [List.map_append, ← List.append_assoc, whole]
          simp
        refine ⟨earlier, later ++ [⟨owner, last⟩], call, wholeNow, creation,
          fun deed member => ?_⟩
        rcases List.mem_append.1 member with between | late
        · exact uncreated deed between
        · obtain rfl := List.mem_singleton.1 late
          exact latest

theorem MadeBy.append {later : List Deed} (made : MadeBy owner space name past)
    (uncreated : ∀ deed ∈ later, ¬ CreatesAt deed.call space name) :
    MadeBy owner space name (past ++ later) := by
  obtain ⟨earlier, between, call, rfl, creates, uncreatedSince⟩ := made
  refine ⟨earlier, between ++ later, call, by simp, creates, fun deed member => ?_⟩
  exact (List.mem_append.1 member).elim (uncreatedSince deed) (uncreated deed)

theorem Attributed.add (attributed : Attributed past call.before)
    (keeps : KeepsApart scheduler call) :
    Attributed (past ++ [⟨scheduler, call⟩]) call.after := by
  intro owner space name snapshot made found
  cases keeps.snapshots space name snapshot found with
  | stood stored there sameLabels uncreated =>
      rcases made.of_concat with ⟨creates, _⟩ | ⟨_, madeBefore⟩
      · exact absurd creates uncreated
      · obtain ⟨inSpace, sourced⟩ := attributed owner space name stored madeBefore there
        exact ⟨inSpace, (namesSource_congr sameLabels).2 sourced⟩
  | created creates inSpace sourced =>
      rcases made.of_concat with ⟨_, rfl⟩ | ⟨uncreated, _⟩
      · exact ⟨inSpace, sourced⟩
      · exact absurd creates uncreated

theorem Attributed.of_chain (attributed : Attributed past before)
    (chain : Chain mayFail before calls after)
    (keeps : ∀ call ∈ calls, KeepsApart scheduler call) :
    Attributed (past ++ calls.map (Deed.mk scheduler)) after := by
  induction chain generalizing past with
  | nil registry => simpa using attributed
  | @cons request answer before middle after rest served chain inductionHypothesis =>
      obtain ⟨first, others⟩ := List.forall_mem_cons.1 keeps
      have next : Attributed (past ++ [⟨scheduler, ⟨request, answer, before, middle⟩⟩]) middle :=
        Attributed.add attributed first
      simpa using inductionHypothesis next others

end Deeds

/-- Turns of any schedulers, among other changes: those neither relabel a snapshot nor create
one where a scheduler did. -/
inductive Mingles (mayFail : Request → Prop) : List Deed → Registry → Prop
  | start (registry : Registry) : Mingles mayFail [] registry
  | turn {past : List Deed} {turn : Turn} {space name : String}
      (earlier : Mingles mayFail past turn.before)
      (stored : turn.before.find? .scheduler space name = some turn.scheduler)
      (runs : turn.Runs mayFail) :
      Mingles mayFail (past ++ turn.deeds) turn.final.registry
  | stir {past : List Deed} {before after : Registry} (earlier : Mingles mayFail past before)
      (spares : ∀ (space name : String) (snapshot : VolumeSnapshot),
        after.find? .volumeSnapshot space name = some snapshot →
          (∃ stored : VolumeSnapshot,
            before.find? .volumeSnapshot space name = some stored ∧
              snapshot.metadata.labelMap = stored.metadata.labelMap) ∨
          ∀ deed ∈ past, ¬ CreatesAt deed.call space name) :
      Mingles mayFail past after

theorem Mingles.attributed {past : List Deed} (mingles : Mingles mayFail past registry) :
    Attributed past registry := by
  induction mingles with
  | start registry => exact fun _ _ _ _ made _ => absurd made not_madeBy_nil
  | turn earlier stored runs inductionHypothesis =>
      exact inductionHypothesis.of_chain (Program.Runs.chain runs) (Turn.keepsApart runs stored)
  | stir earlier spares inductionHypothesis =>
      intro owner space name snapshot made found
      rcases spares space name snapshot found with ⟨stored, there, sameLabels⟩ | uncreated
      · obtain ⟨inSpace, sourced⟩ := inductionHypothesis owner space name stored made there
        exact ⟨inSpace, (namesSource_congr sameLabels).2 sourced⟩
      · obtain ⟨_, _, call, rfl, creates, _⟩ := made
        exact absurd creates (uncreated ⟨owner, call⟩ (by simp))

end NodeFleet.Snapshot
