import NodeFleet.Proofs.Fleet.DesiredPods
import NodeFleet.Proofs.Fleet.StalePods
import NodeFleet.Proofs.Ranking
import NodeFleet.Proofs.Text.Numeral
import NodeFleet.Snapshot.Candidate

/-!
# The choice of a candidate

A candidate is found exactly if enough pods are in sync, one of them is the pinned one or there is
no pin, and the first such pod mounts a volume claim.  The order in which the pods are listed
does not matter to pods that state distinct ordinals.
-/

namespace NodeFleet.Snapshot

open Fleet Resource Store Text

variable {σ World : Type} {node : FullNode} {space : String} {listed others : List Pod}
  {minAvailable : Nat} {pin : Option Int} {pod : Pod} {candidate : Candidate} {cause : Cause}

/-! ## Pods in sync -/

/-- The status of a full node tells whether a pod is in sync. -/
def Reports (node : FullNode) (pod : Pod) (told : Bool) : Prop :=
  ∃ status report, node.status = some status ∧
    status.syncInfo.find? pod.metadata.shownName = some report ∧ report.inSync = some told

/-- A pod is not being deleted, and it is in sync by what the full node tells, or ready where the
full node tells nothing. -/
structure InSync (node : FullNode) (pod : Pod) : Prop where
  living : pod.metadata.deletionTimestamp = none
  synced : Reports node pod true ∨ (∀ told, ¬ Reports node pod told) ∧ pod.isReady = true

/-- A pod states its ordinal, a number of 32 bits. -/
def StatesOrdinal (pod : Pod) (ordinal : Int) : Prop :=
  ∃ text, pod.metadata.ordinalText? = some text ∧ Denotes text.toList ordinal ∧
    Bounds.int32.admits ordinal = true

theorem reportedSync?_eq_some_iff {told : Bool} :
    reportedSync? node pod = some told ↔ Reports node pod told := by
  unfold reportedSync? Reports
  simp only [Option.bind_eq_bind, Option.bind_eq_some_iff]
  constructor
  · rintro ⟨status, there, report, found, tells⟩
    exact ⟨status, report, there, found, tells⟩
  · rintro ⟨status, report, there, found, tells⟩
    exact ⟨status, there, report, found, tells⟩

theorem isInSync_iff : isInSync node pod = true ↔ InSync node pod := by
  have living : (!pod.metadata.isTerminating) = true ↔ pod.metadata.deletionTimestamp = none := by
    simp [ObjectMeta.isTerminating]
  rw [isInSync, Bool.and_eq_true, living]
  cases reported : reportedSync? node pod with
  | none =>
      have untold : ∀ told, ¬ Reports node pod told := fun told tells => by
        rw [← reportedSync?_eq_some_iff, reported] at tells
        cases tells
      rw [Option.getD_none]
      constructor
      · exact fun ⟨alive, ready⟩ => ⟨alive, Or.inr ⟨untold, ready⟩⟩
      · exact fun ⟨alive, synced⟩ => ⟨alive, (synced.resolve_left (untold true)).2⟩
  | some told =>
      have tells := reportedSync?_eq_some_iff.1 reported
      rw [Option.getD_some]
      constructor
      · rintro ⟨alive, rfl⟩
        exact ⟨alive, Or.inl tells⟩
      · rintro ⟨alive, synced⟩
        rcases synced with toldTrue | ⟨untold, _⟩
        · rw [← reportedSync?_eq_some_iff, reported] at toldTrue
          exact ⟨alive, Option.some.inj toldTrue⟩
        · exact absurd tells (untold told)

theorem ordinalOf?_eq_some_iff {ordinal : Int} :
    ordinalOf? pod = some ordinal ↔ StatesOrdinal pod ordinal := by
  have reads : ∀ text : List Char,
      (readWhole .int32 text).toOption = some ordinal ↔ readWhole .int32 text = .ok ordinal := by
    intro text
    cases readWhole .int32 text <;> simp [Except.toOption]
  unfold ordinalOf? StatesOrdinal
  simp only [Option.bind_eq_bind, Option.bind_eq_some_iff, reads]
  exact exists_congr fun text => and_congr_right fun _ =>
    readWhole_eq_ok_iff (by decide) (by decide)

instance : Decidable (InSync node pod) := decidable_of_iff _ isInSync_iff

instance {ordinal : Int} : Decidable (StatesOrdinal pod ordinal) :=
  decidable_of_iff _ ordinalOf?_eq_some_iff

/-- The pods of which a candidate may be chosen, as they are listed. -/
def eligible (node : FullNode) (listed : List Pod) : List Pod :=
  listed.filter fun pod => InSync node pod

/-- A pod is the pinned one, or there is no pin. -/
def suits (pin : Option Int) (pod : Pod) : Bool :=
  pin.all fun ordinal => StatesOrdinal pod ordinal

theorem rank_eq {ordinal : Int} (states : StatesOrdinal pod ordinal) : rank pod = ordinal := by
  rw [rank, ordinalOf?_eq_some_iff.2 states, Option.getD_some]

theorem ranked_inSyncPods (node : FullNode) (listed : List Pod) :
    Ranked rank (eligible node listed) (inSyncPods node listed) := by
  have same : eligible node listed = listed.filter (isInSync node) :=
    List.filter_congr fun pod _ => by rw [Bool.eq_iff_iff, decide_eq_true_iff, isInSync_iff]
  rw [same]
  exact ranked_mergeSort rank _

/-! ## The pod that is chosen -/

theorem suits_some_eq (ordinal : Int) :
    suits (some ordinal) = fun pod => ordinalOf? pod == some ordinal := by
  funext pod
  rw [Bool.eq_iff_iff, beq_iff_eq, ordinalOf?_eq_some_iff]
  exact decide_eq_true_iff

theorem choose_eq_ok_iff {pods : List Pod} : choose pods minAvailable pin = .ok pod ↔
    minAvailable ≤ pods.length ∧ pods.find? (suits pin) = some pod := by
  unfold choose
  split
  · rename_i few
    simp only [reduceCtorEq, false_iff]
    exact fun ⟨enough, _⟩ => absurd few (Nat.not_lt.2 enough)
  · rename_i enough
    rw [and_iff_right (Nat.le_of_not_lt enough)]
    cases pin with
    | some ordinal =>
        dsimp only
        rw [suits_some_eq]
        cases pods.find? fun pod => ordinalOf? pod == some ordinal <;> simp
    | none => cases pods <;> simp [suits]

theorem select_eq_ok_iff {pods : List Pod} : select pods minAvailable pin = .ok candidate ↔
    minAvailable ≤ pods.length ∧ ∃ pod, pods.find? (suits pin) = some pod ∧
      ∃ claimName, pod.claimName? = some claimName ∧
        candidate = ⟨pod.metadata.shownName, claimName, pod.metadata.labelMap⟩ := by
  have chooses : ∀ pod, choose pods minAvailable pin = .ok pod ↔
      minAvailable ≤ pods.length ∧ pods.find? (suits pin) = some pod := fun _ => choose_eq_ok_iff
  unfold select
  cases chosen : choose pods minAvailable pin with
  | error cause =>
      simp only [chosen, reduceCtorEq, false_iff] at chooses
      simp only [bind, Except.bind, reduceCtorEq, false_iff]
      rintro ⟨enough, pod, found, _⟩
      exact chooses pod ⟨enough, found⟩
  | ok pod =>
      obtain ⟨enough, found⟩ := (chooses pod).1 chosen
      simp only [bind, Except.bind, enough, found, true_and, Option.some.injEq]
      cases mounted : pod.claimName? with
      | none => simp [mounted, throw, throwThe, MonadExceptOf.throw]
      | some claimName => simp [mounted, pure, Except.pure, eq_comm]

/-! ## The search -/

/-- How a search for a candidate runs where calls are answered as a world has it. -/
def search (node : FullNode) (minAvailable : Nat) (pin : Option Int)
    (serve : (request : Request) → World → Answer request × World) (state : σ) (world : World) :
    (Except (Halt PassError) Candidate × σ) × World :=
  ((findCandidate node minAvailable pin : Pass σ Candidate).run.run state : Program _).run serve
    world

/-- The pods of a full node are listed in answer to the call that asks for them. -/
def Lists (serve : (request : Request) → World → Answer request × World) (node : FullNode)
    (space : String) (world : World) (listed : List Pod) : Prop :=
  (serve (.list .pod space (node.componentSelector FullNode.podComponent)) world).1 =
    some (.ok listed)

/-- What a search among listed pods comes to. -/
structure Elects (node : FullNode) (listed : List Pod) (minAvailable : Nat) (pin : Option Int)
    (result : Except (Halt PassError) Candidate) : Prop where
  succeeds_iff : (∃ candidate, result = .ok candidate) ↔
    minAvailable ≤ (eligible node listed).length ∧
      (∃ pod ∈ eligible node listed, suits pin pod = true) ∧
      ∀ pod, IsFirst rank (suits pin) (eligible node listed) pod →
        ∃ claimName, pod.claimName? = some claimName
  chosen : ∀ candidate, result = .ok candidate →
    ∃ pod claimName, IsFirst rank (suits pin) (eligible node listed) pod ∧
      pod.claimName? = some claimName ∧
      candidate = ⟨pod.metadata.shownName, claimName, pod.metadata.labelMap⟩
  transient : ∀ halt, result = .error halt → ∃ cause, halt = .failed (.transient cause)

/-- The pods in sync state distinct ordinals. -/
structure Numbered (node : FullNode) (listed : List Pod) : Prop where
  stated : ∀ pod ∈ listed, InSync node pod → ∃ ordinal, StatesOrdinal pod ordinal
  distinct : ((eligible node listed).map ordinalOf?).Nodup

/-- A search comes to what is selected of the listed pods in sync, with transient faults. -/
theorem search_eq {serve : (request : Request) → World → Answer request × World} {world : World}
    (inSpace : node.metadata.namespaceName = some space)
    (lists : Lists serve node space world listed) (state : σ) :
    (search node minAvailable pin serve state world).1 =
      ((select (inSyncPods node listed) minAvailable pin).mapError
        fun cause => .failed (.transient cause), state) := by
  unfold search findCandidate Pass.namespaceOf Pass.orUnrecoverable
  rw [inSpace]
  change (Program.run serve (.call (.list .pod space
    (node.componentSelector FullNode.podComponent)) _) world).1 = _
  rw [Program.run]
  unfold Lists at lists
  generalize serve _ world = answered at lists ⊢
  obtain ⟨answer, after⟩ := answered
  obtain rfl : answer = some (.ok listed) := lists
  -- What is left makes no further call.
  simp only [pure, OptionT.pure, OptionT.mk, ExceptT.pure, ExceptT.mk]
  delta StateT.pure
  cases selected : select (inSyncPods node listed) minAvailable pin <;>
    simp only [pure, Program.bind, ExceptT.bindCont, Except.mapError, selected] <;> rfl

/-- What is selected of the listed pods in sync. -/
theorem select_inSyncPods_eq_ok_iff :
    select (inSyncPods node listed) minAvailable pin = .ok candidate ↔
      minAvailable ≤ (eligible node listed).length ∧
        ∃ pod, IsFirst rank (suits pin) (eligible node listed) pod ∧
          ∃ claimName, pod.claimName? = some claimName ∧
            candidate = ⟨pod.metadata.shownName, claimName, pod.metadata.labelMap⟩ := by
  have ranked := ranked_inSyncPods node listed
  simp only [select_eq_ok_iff, ranked.find?_eq_some_iff, ranked.perm.length_eq]

theorem elects_select :
    Elects node listed minAvailable pin
      ((select (inSyncPods node listed) minAvailable pin).mapError
        fun cause => .failed (.transient cause)) where
  succeeds_iff := by
    have succeeds : ∀ selected : Except Cause Candidate,
        (∃ candidate, selected.mapError (fun cause => Halt.failed (PassError.transient cause)) =
          .ok candidate) ↔ ∃ candidate, selected = .ok candidate := by
      intro selected
      cases selected <;> simp [Except.mapError]
    rw [succeeds]
    constructor
    · rintro ⟨candidate, selected⟩
      obtain ⟨enough, pod, first, claimName, mounted, _⟩ := select_inSyncPods_eq_ok_iff.1 selected
      exact ⟨enough, ⟨pod, first.mem, first.passed⟩, fun other firstToo =>
        first.unique firstToo ▸ ⟨claimName, mounted⟩⟩
    · rintro ⟨enough, suitable, mounts⟩
      obtain ⟨pod, first⟩ := (ranked_inSyncPods node listed).exists_isFirst_iff.2 suitable
      obtain ⟨claimName, mounted⟩ := mounts pod first
      exact ⟨_, select_inSyncPods_eq_ok_iff.2 ⟨enough, pod, first, claimName, mounted, rfl⟩⟩
  chosen := by
    intro candidate found
    cases selected : select (inSyncPods node listed) minAvailable pin with
    | error cause => simp [selected, Except.mapError] at found
    | ok given =>
        obtain rfl : given = candidate := by simpa [selected, Except.mapError] using found
        obtain ⟨_, pod, first, claimName, mounted, made⟩ := select_inSyncPods_eq_ok_iff.1 selected
        exact ⟨pod, claimName, first, mounted, made⟩
  transient := by
    intro halt failed
    cases selected : select (inSyncPods node listed) minAvailable pin with
    | error cause => exact ⟨cause, by simpa [selected, Except.mapError, eq_comm] using failed⟩
    | ok given => simp [selected, Except.mapError] at failed

theorem inSyncPods_eq_of_perm (numbered : Numbered node listed) (shuffled : others.Perm listed) :
    inSyncPods node others = inSyncPods node listed := by
  refine (ranked_inSyncPods node listed).eq_of_perm (ranked_inSyncPods node others)
    (shuffled.filter _) ?_
  -- The ranks are the stated ordinals.
  refine List.Nodup.of_map some ?_
  rw [List.map_map]
  refine (List.map_congr_left fun pod member => ?_) ▸ numbered.distinct
  obtain ⟨inListed, synced⟩ := List.mem_filter.1 member
  obtain ⟨ordinal, states⟩ := numbered.stated pod inListed (of_decide_eq_true synced)
  rw [Function.comp_apply, rank_eq states, ordinalOf?_eq_some_iff.2 states]

/-- A search that is answered elects the first suitable pod in sync or fails with a transient
error, and comes to the same however pods of distinct ordinals are listed. -/
theorem findCandidate_elects {serve : (request : Request) → World → Answer request × World}
    {world : World} (state : σ) (inSpace : node.metadata.namespaceName = some space)
    (lists : Lists serve node space world listed) :
    Elects node listed minAvailable pin
        (search node minAvailable pin serve state world).1.1 ∧
      ∀ (otherWorld : World) (others : List Pod), Lists serve node space otherWorld others →
        others.Perm listed → Numbered node listed →
          (search node minAvailable pin serve state otherWorld).1 =
            (search node minAvailable pin serve state world).1 := by
  constructor
  · rw [search_eq inSpace lists]
    exact elects_select
  · intro otherWorld others listsOthers shuffled numbered
    rw [search_eq inSpace lists, search_eq inSpace listsOthers,
      inSyncPods_eq_of_perm numbered shuffled]

section Example

/-- A full node that tells of its first pod that it is behind. -/
def laggingNode : FullNode :=
  (FullNode.sample 3 .empty).updateStatus fun status =>
    { status with syncInfo := KeyMap.empty.insert "cosmoshub-0" ⟨some false, none, none⟩ }

def readyPods : List Pod :=
  [2, 0, 1].map fun ordinal => { laggingNode.plainPod ordinal with status := some readyStatus }

/-- Answers every call for pods with those that there are, in their order. -/
def listAll : (request : Request) → List Pod → Answer request × List Pod
  | .list .pod _ _, pods => (some (.ok pods), pods)
  | _, pods => (none, pods)

theorem numbered_readyPods : Numbered laggingNode readyPods where
  stated := by
    have stated : ∀ pod ∈ readyPods, (ordinalOf? pod).isSome = true := by decide +kernel
    intro pod member _
    obtain ⟨ordinal, states⟩ := Option.isSome_iff_exists.1 (stated pod member)
    exact ⟨ordinal, ordinalOf?_eq_some_iff.1 states⟩
  distinct := by decide +kernel

/-- Of three ready pods the second is elected, in whichever order they are listed. -/
theorem findCandidate_elects_second :
    laggingNode.metadata.namespaceName = some "default" ∧
      Lists listAll laggingNode "default" readyPods readyPods ∧
      Elects laggingNode readyPods 2 none
        (search laggingNode 2 none listAll () readyPods).1.1 ∧
      (search laggingNode 2 none listAll () readyPods.reverse).1 =
        (search laggingNode 2 none listAll () readyPods).1 ∧
      ∃ candidate, (search laggingNode 2 none listAll () readyPods).1.1 = .ok candidate ∧
        candidate.podName = "cosmoshub-1" := by
  have inSpace : laggingNode.metadata.namespaceName = some "default" := rfl
  have lists : Lists listAll laggingNode "default" readyPods readyPods := rfl
  obtain ⟨elects, alike⟩ := findCandidate_elects () inSpace lists
  refine ⟨inSpace, lists, elects, alike _ _ rfl (List.reverse_perm _) numbered_readyPods, ?_⟩
  have mounts : ∀ pod ∈ eligible laggingNode readyPods, pod.claimName?.isSome = true := by
    decide +kernel
  have second : ∀ pod ∈ eligible laggingNode readyPods,
      (∀ other ∈ eligible laggingNode readyPods, rank pod ≤ rank other) →
        pod.metadata.shownName = "cosmoshub-1" := by
    decide +kernel
  obtain ⟨candidate, found⟩ := elects.succeeds_iff.2 ⟨by decide +kernel, by decide +kernel,
    fun pod first => Option.isSome_iff_exists.1 (mounts pod first.mem)⟩
  obtain ⟨pod, claimName, first, _, rfl⟩ := elects.chosen candidate found
  exact ⟨_, found, second pod first.mem fun other member => first.least other member rfl⟩

end Example

end NodeFleet.Snapshot
