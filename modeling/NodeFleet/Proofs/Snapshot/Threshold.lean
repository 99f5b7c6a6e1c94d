import NodeFleet.Proofs.Snapshot.Turns

/-!
# How many pods are in sync when one is taken down

A pod is chosen only while enough pods are in sync.  Nothing that a pass does before the
deletion changes which pods are in sync, so a pass that has chosen the pod itself finds enough
of them in sync still.  A pass that goes on with a candidate does not look again.
-/

namespace NodeFleet.Snapshot

open Calendar Fleet Resource Store

variable {mayFail : Request → Prop} {slot : Slot} {scheduler : Scheduler} {podName : String}
  {before after registry : Registry}

/-! ## Pods in sync -/

/-- The pods in sync of the full node of a slot. -/
def Slot.syncedPods (slot : Slot) (registry : Registry) : List Pod :=
  match registry.find? .fullNode slot.space slot.nodeName with
  | some node =>
      inSyncPods node
        (registry.selected .pod slot.space (FullNode.componentSelector node FullNode.podComponent))
  | none => []

/-- Enough pods are in sync for one of them to be taken down. -/
structure EnoughInSync (scheduler : Scheduler) (podName : String) (registry : Registry) :
    Prop where
  enough : scheduler.minAvailable ≤ ((slotOf scheduler).syncedPods registry).length
  among : ∃ pod ∈ (slotOf scheduler).syncedPods registry, pod.metadata.shownName = podName

theorem EnoughInSync.congr
    (same : (slotOf scheduler).syncedPods after = (slotOf scheduler).syncedPods before) :
    EnoughInSync scheduler podName after ↔ EnoughInSync scheduler podName before := by
  constructor
  · exact fun ⟨enough, among⟩ => ⟨same ▸ enough, same ▸ among⟩
  · exact fun ⟨enough, among⟩ => ⟨same ▸ enough, same ▸ among⟩

/-- What is written to a full node without touching its reports leaves the pods in sync. -/
theorem inSyncPods_renewed_hold (version key : String) (pod : Option String) (stored : FullNode)
    (pods : List Pod) :
    inSyncPods (Kind.fullNode.renewed version (stored.updateStatus (·.hold key pod)) stored) pods =
      inSyncPods stored pods := by
  have sameReports : ∀ other : Pod, reportedSync?
      (Kind.fullNode.renewed version (stored.updateStatus (·.hold key pod)) stored) other =
        reportedSync? stored other := by
    intro other
    cases reported : stored.status with
    | none => cases pod <;> simp [reportedSync?, Kind.renewed, Kind.withMetadata,
        Kind.withStatusOf, FullNode.updateStatus, FullNodeStatus.hold, FullNodeStatus.initial,
        KeyMap.find?, KeyMap.empty, KeyMap.valueIn?, reported]
    | some status => cases pod <;> simp [reportedSync?, Kind.renewed, Kind.withMetadata,
        Kind.withStatusOf, FullNode.updateStatus, FullNodeStatus.hold, reported]
  have sameSync : isInSync
      (Kind.fullNode.renewed version (stored.updateStatus (·.hold key pod)) stored) =
        isInSync stored := by
    funext other
    simp only [isInSync, sameReports]
  simp only [inSyncPods, sameSync]

namespace Slot

/-- The pods in sync depend on the full node and the pods alone. -/
theorem syncedPods_eq
    (sameNode : after.find? .fullNode slot.space slot.nodeName =
      before.find? .fullNode slot.space slot.nodeName)
    (samePods : ∀ name, after.find? .pod slot.space name = before.find? .pod slot.space name) :
    slot.syncedPods after = slot.syncedPods before := by
  unfold syncedPods
  rw [sameNode]
  simp only [Registry.selected_eq samePods]

/-- Registering a pod, or none, with a full node leaves the pods in sync. -/
theorem syncedPods_eq_of_hold {space name version key : String} {pod : Option String}
    {stored : FullNode} (there : before.find? .fullNode space name = some stored)
    (sets : before.Sets .fullNode space name
      (some (Kind.fullNode.renewed version (stored.updateStatus (·.hold key pod)) stored)) after) :
    slot.syncedPods after = slot.syncedPods before := by
  have samePods : ∀ other, after.find? .pod slot.space other = before.find? .pod slot.space other :=
    sets.find?_eq_of_ne (by decide) _
  by_cases here : slot.space = space ∧ slot.nodeName = name
  · obtain ⟨rfl, rfl⟩ := here
    have sameSelector : FullNode.componentSelector
        (Kind.fullNode.renewed version (stored.updateStatus (·.hold key pod)) stored)
          FullNode.podComponent = FullNode.componentSelector stored FullNode.podComponent := rfl
    unfold syncedPods
    rw [sets.here, there]
    simp only [inSyncPods_renewed_hold, sameSelector, Registry.selected_eq samePods]
  · apply syncedPods_eq _ samePods
    apply sets.elsewhere
    intro same
    exact here (by simpa using same)

end Slot

/-! ## Calls that leave the pods in sync -/

/-- The namespace and name of the pod that a call deletes. -/
def deletedPod? : Request → Option (String × String)
  | .delete .pod space name => some (space, name)
  | _ => none

theorem eq_delete_of_deletedPod? {request : Request} {space name : String}
    (deletes : deletedPod? request = some (space, name)) :
    request = .delete .pod space name := by
  cases request with
  | delete kind space' name' =>
      cases kind with
      | pod =>
          obtain ⟨rfl, rfl⟩ : space' = space ∧ name' = name := by
            simpa [deletedPod?] using deletes
          rfl
      | _ => cases deletes
  | _ => cases deletes

/-- A call deletes no pod and leaves those in sync that were. -/
def Slot.SparesSync (slot : Slot) (call : Call) : Prop :=
  deletedPod? call.request = none ∧ slot.syncedPods call.after = slot.syncedPods call.before

section Conducts

variable {σ α : Type} {round : Round}

/-- A call for anything but a full node or a pod leaves the pods in sync. -/
theorem sparesSync_of_place {request : Request} {answer : Answer request}
    (keeps : deletedPod? request = none)
    (aside : ∀ kind space name, request.place? = some (kind, space, name) →
      kind ≠ .fullNode ∧ kind ≠ .pod)
    (served : Serves mayFail request before answer after) :
    slot.SparesSync ⟨request, answer, before, after⟩ := by
  have sameNode : after.find? .fullNode slot.space slot.nodeName =
      before.find? .fullNode slot.space slot.nodeName :=
    served.find?_eq fun place => (aside _ _ _ place).1 rfl
  have samePods : ∀ name, after.find? .pod slot.space name = before.find? .pod slot.space name :=
    fun name => served.find?_eq fun place => (aside _ _ _ place).2 rfl
  exact ⟨keeps, Slot.syncedPods_eq sameNode samePods⟩

theorem sparesSync_of_reading {request : Request} {answer : Answer request}
    (reads : ReadingCall request) (served : Serves mayFail request before answer after) :
    slot.SparesSync ⟨request, answer, before, after⟩ := by
  cases request with
  | list kind space selector | get kind space name | publish event | findDefinition kind =>
      exact sparesSync_of_place rfl (fun _ _ _ place => nomatch place) served
  | _ => cases reads

theorem sparesSync_of_pruning {request : Request} {answer : Answer request}
    (prunes : PruningCall request) (served : Serves mayFail request before answer after) :
    slot.SparesSync ⟨request, answer, before, after⟩ := by
  cases request with
  | list kind space selector | publish event => exact sparesSync_of_reading trivial served
  | delete kind space name =>
      cases kind with
      | volumeSnapshot =>
          apply sparesSync_of_place rfl _ served
          rintro kind space' name' ⟨⟩
          exact ⟨by decide, by decide⟩
      | _ => cases prunes
  | _ => cases prunes

theorem abides_sparesSync (round : Round) (slot : Slot) :
    round.Abides mayFail slot.SparesSync where
  reads := fun _ reads served => sparesSync_of_reading reads served
  holds := by
    intro pod
    apply Round.conducts_hold
    · exact fun _ _ => ⟨rfl, rfl⟩
    · exact fun _ _ _ _ => ⟨rfl, rfl⟩
    · exact fun stored version before after there sets =>
        ⟨rfl, Slot.syncedPods_eq_of_hold there sets⟩
  takes := by
    rintro ⟨request, answer, before, after⟩ candidate rfl served
    apply sparesSync_of_place rfl _ served
    rintro kind space name ⟨⟩
    exact ⟨by decide, by decide⟩
  prunes := round.makes_pruneSnapshots.conducts fun _ prunes served =>
    sparesSync_of_pruning prunes served

end Conducts

/-! ## The choice of a pod -/

/-- A candidate is one of the pods, of which there are enough. -/
theorem enough_of_select {pods : List Pod} {minAvailable : Nat} {pin : Option Int}
    {candidate : Candidate} (selected : select pods minAvailable pin = .ok candidate) :
    minAvailable ≤ pods.length ∧
      ∃ pod ∈ pods, pod.metadata.shownName = candidate.podName := by
  cases chosen : choose pods minAvailable pin with
  | error cause => simp [select, chosen, bind, Except.bind] at selected
  | ok pod =>
      have named : pod.metadata.shownName = candidate.podName := by
        simp only [select, chosen, bind, Except.bind] at selected
        split at selected
        · obtain rfl := Except.ok.inj selected
          rfl
        · cases selected
      unfold choose at chosen
      split at chosen
      · cases chosen
      · rename_i enough
        have among : pod ∈ pods := by
          split at chosen
          · split at chosen
            · rename_i found
              obtain rfl := Except.ok.inj chosen
              exact List.mem_of_find?_eq_some found
            · cases chosen
          · split at chosen
            · rename_i first
              obtain rfl := Except.ok.inj chosen
              exact List.mem_of_mem_head? first
            · cases chosen
        exact ⟨Nat.le_of_not_lt enough, pod, among, named⟩

section Choice

variable {status : SchedulerStatus} {ledger : Ledger} {settings : Settings} {now : Instant}

/-- A pod is found only among enough pods in sync. -/
theorem ensures_findCandidate_enough {node : FullNode}
    (there : ledger.registry.find? .fullNode (slotOf scheduler).space (slotOf scheduler).nodeName =
      some node) :
    (findCandidate node scheduler.minAvailable scheduler.spec.candidateOrdinal).Ensures mayFail
      (fun candidate status' final => status' = status ∧
        ledger.Goes (slotOf scheduler).SparesSync final ∧
          EnoughInSync scheduler candidate.podName ledger.registry)
      (fun _ status' final => status' = status ∧
        ledger.Goes (slotOf scheduler).SparesSync final) status ledger := by
  have inSpace : node.metadata.namespaceName = some (slotOf scheduler).space :=
    (Registry.isPlaced_of_find? there).inSpace
  have looked : ∀ request answer, deletedPod? request = none →
      ledger.Goes (slotOf scheduler).SparesSync (ledger.add request answer ledger.registry) :=
    fun _ _ keeps => .add .refl ⟨keeps, rfl⟩
  have synced : (slotOf scheduler).syncedPods ledger.registry = inSyncPods node
      (ledger.registry.selected .pod (slotOf scheduler).space
        (node.componentSelector FullNode.podComponent)) := by
    simp [Slot.syncedPods, there]
  unfold findCandidate Pass.namespaceOf Pass.orUnrecoverable
  rw [inSpace]
  apply Pass.ensures_bind
  apply Pass.ensures_pure
  apply Pass.ensures_bind
  apply Pass.ensures_attempt
  apply Exchange.ensures_list
  · split
    · rename_i candidate selected
      obtain ⟨enough, among⟩ := enough_of_select selected
      rw [← synced] at enough among
      exact Pass.ensures_pure _ ⟨rfl, looked _ _ rfl, enough, among⟩
    · exact Pass.ensures_throw _ ⟨rfl, looked _ _ rfl⟩
  · exact fun error final nothing => ⟨rfl, nothing.goes fun _ _ => ⟨rfl, rfl⟩⟩

end Choice

/-! ## Phases -/

/-- A status says that a pod is about to be deleted. -/
def AboutToDelete (status : SchedulerStatus) (podName : String) : Prop :=
  status.phase = .deletingPod ∧
    ∃ candidate, status.candidate = some candidate ∧ candidate.podName = podName

/-- The phases that come after the deletion of the pod and before the pass is over. -/
def isLate : SnapshotPhase → Bool
  | .waitingForPodDeletion | .creatingSnapshot => true
  | _ => false

theorem isLate_of_isDormant {phase : SnapshotPhase} (dormant : isDormant phase = true) :
    isLate phase = false := by
  cases phase <;> simp [isDormant] at dormant <;> rfl

/-- A pass vouches for a pod that is about to be deleted where it starts, or of which enough
are in sync there. -/
def Vouches (scheduler : Scheduler) (start : SchedulerStatus) (before : Registry)
    (podName : String) : Prop :=
  AboutToDelete start podName ∨ EnoughInSync scheduler podName before

/-- What holds of the deletions of a pass, from the status and the cluster with which it
started, and of the deletion that is yet to come. -/
structure Vetted (scheduler : Scheduler) (start : SchedulerStatus) (before : Registry)
    (status : SchedulerStatus) (ledger : Ledger) : Prop where
  deletions : ∀ call ∈ ledger.calls, ∀ space podName,
    call.request = .delete .pod space podName → space = (slotOf scheduler).space ∧
      (slotOf scheduler).syncedPods call.before = (slotOf scheduler).syncedPods before ∧
        Vouches scheduler start before podName
  pending : ∀ podName, AboutToDelete status podName → Vouches scheduler start before podName

/-- Until the pod is deleted, the pods in sync are those with which the pass started. -/
structure Watched (scheduler : Scheduler) (start : SchedulerStatus) (before : Registry)
    (status : SchedulerStatus) (ledger : Ledger) : Prop where
  vetted : Vetted scheduler start before status ledger
  still : scheduler.isSuspended = true ∨ isLate status.phase = false →
    (slotOf scheduler).syncedPods ledger.registry = (slotOf scheduler).syncedPods before

section Phases

variable {start status status' : SchedulerStatus} {ledger middle final : Ledger}
  {settings : Settings} {now : Instant} {round : Round} {ending : Ending}

theorem Vetted.of_goes (vetted : Vetted scheduler start before status ledger)
    (goes : ledger.Goes (slotOf scheduler).SparesSync final)
    (pending : ∀ podName, AboutToDelete status' podName →
      Vouches scheduler start before podName) :
    Vetted scheduler start before status' final where
  deletions := by
    intro call member space podName deletes
    rcases goes.fine_or_mem member with early | spares
    · exact vetted.deletions call early space podName deletes
    · have keeps := spares.1
      rw [deletes] at keeps
      cases keeps
  pending := pending

theorem syncedPods_eq_of_goes (goes : ledger.Goes slot.SparesSync final)
    (same : slot.syncedPods ledger.registry = slot.syncedPods before) :
    slot.syncedPods final.registry = slot.syncedPods before := by
  apply goes.keeps (fun registry => slot.syncedPods registry = slot.syncedPods before) _ same
  exact fun call spares sameBefore => spares.2.trans sameBefore

/-- The call that deletes the pod is vetted where the pods in sync are still the same. -/
theorem Vetted.of_deletion (vetted : Vetted scheduler start before status ledger)
    (same : (slotOf scheduler).syncedPods ledger.registry = (slotOf scheduler).syncedPods before)
    (vouches : Vouches scheduler start before podName)
    (answer : Answer (.delete .pod (slotOf scheduler).space podName)) (after : Registry) :
    Vetted scheduler start before status (ledger.add _ answer after) where
  deletions := by
    intro call member space name deletes
    rcases List.mem_append.1 member with early | late
    · exact vetted.deletions call early space name deletes
    · obtain rfl := List.mem_singleton.1 late
      cases deletes
      exact ⟨rfl, same, vouches⟩
  pending := vetted.pending

/-- Before the pod is deleted it is registered, which leaves the pods in sync. -/
theorem ensures_deletePod_vetted (awake : scheduler.isSuspended = false)
    (phase : status.phase = .deletingPod)
    (watched : Watched scheduler start before status ledger) :
    (roundOf scheduler settings now).deletePod.Ensures mayFail
      (Next.leads (Watched scheduler start before) (Vetted scheduler start before))
      (fun _ => Vetted scheduler start before) status ledger := by
  have same := watched.still (Or.inr (by rw [phase]; rfl))
  let held (candidate : Candidate) (middle : Ledger) : Prop :=
    Vetted scheduler start before status middle ∧
      (slotOf scheduler).syncedPods middle.registry = (slotOf scheduler).syncedPods before ∧
        Vouches scheduler start before candidate.podName
  apply Round.ensures_deletePod_of held (Vetted scheduler start before status)
  · exact fun unset =>
      ⟨watched.vetted.of_goes .refl (fun _ about => nomatch about.1), fun _ => same⟩
  · intro candidate chosen
    have vouches : Vouches scheduler start before candidate.podName :=
      watched.vetted.pending _ ⟨phase, candidate, chosen, rfl⟩
    have registers : ((roundOf scheduler settings now).hold (some candidate.podName) :
        Pass SchedulerStatus Unit).EnsuresAlways mayFail
          (fun status' middle => status' = status ∧
            ledger.Goes (slotOf scheduler).SparesSync middle) status ledger :=
      ((abides_sparesSync _ _).holds _).ensures_still (Round.makes_hold _ _)
    apply registers.mono
    · rintro _ status' middle ⟨rfl, goes⟩
      exact ⟨rfl, watched.vetted.of_goes goes watched.vetted.pending,
        syncedPods_eq_of_goes goes same, vouches⟩
    · rintro halt status' final ⟨rfl, goes⟩
      exact ⟨rfl, watched.vetted.of_goes goes watched.vetted.pending⟩
  · exact fun candidate middle ready => ready.1
  · exact fun candidate middle answer after ⟨vetted, sameMiddle, vouches⟩ =>
      vetted.of_deletion sameMiddle vouches answer after
  · exact fun middle event answer vetted =>
      vetted.of_goes (.add .refl ⟨rfl, rfl⟩) vetted.pending
  · exact fun final vetted => vetted
  · -- Once the pod is deleted, nothing more is about to be.
    intro final vetted
    refine ⟨vetted.of_goes .refl (fun _ about => nomatch about.1), ?_⟩
    rintro (suspended | early)
    · exact absurd (suspended.symm.trans awake) nofun
    · cases early

/-- The pod that is chosen is one that a pass vouches for. -/
theorem ensures_chooseCandidate_vetted (phase : status.phase = .findingCandidate)
    (watched : Watched scheduler start before status ledger) :
    (roundOf scheduler settings now).chooseCandidate.Ensures mayFail
      (Next.leads (Watched scheduler start before) (Vetted scheduler start before))
      (fun _ => Vetted scheduler start before) status ledger := by
  have same := watched.still (Or.inr (by rw [phase]; rfl))
  have stops : ∀ final, ledger.Goes (slotOf scheduler).SparesSync final →
      Vetted scheduler start before status final :=
    fun final goes => watched.vetted.of_goes goes watched.vetted.pending
  have looked : ∀ answer, ledger.Goes (slotOf scheduler).SparesSync (ledger.add
      (.get .fullNode (slotOf scheduler).space (slotOf scheduler).nodeName) answer
        ledger.registry) :=
    fun _ => .add .refl ⟨rfl, rfl⟩
  apply Pass.ensures_bind
  apply Pass.ensures_attempt
  apply Exchange.ensures_get?
  · intro node there
    have finds : (findCandidate node scheduler.minAvailable
        scheduler.spec.candidateOrdinal).Ensures mayFail _ _ status
          (ledger.add (.get .fullNode (slotOf scheduler).space (slotOf scheduler).nodeName)
            (some (.ok node)) ledger.registry) :=
      ensures_findCandidate_enough there
    apply Pass.ensures_bind
    apply finds.mono
    · rintro candidate status' final ⟨rfl, goes, enough⟩
      have wholly := (looked (some (.ok node))).trans goes
      have vouches : Vouches scheduler start before candidate.podName :=
        Or.inr ((EnoughInSync.congr same).1 enough)
      apply Pass.ensures_bind
      apply Pass.ensures_modify
      apply Pass.ensures_pure
      refine ⟨watched.vetted.of_goes wholly ?_, fun _ => syncedPods_eq_of_goes wholly same⟩
      rintro podName ⟨_, chosen, recorded, rfl⟩
      obtain rfl := Option.some.inj recorded
      exact vouches
    · rintro halt status' final ⟨rfl, goes⟩
      exact stops final ((looked _).trans goes)
  · exact fun missing => Pass.ensures_throw _ (stops _ (looked _))
  · exact fun error final nothing => stops final (nothing.goes fun _ _ => ⟨rfl, rfl⟩)

/-- Only the choice of a candidate makes a pod the one that is about to be deleted. -/
theorem Round.Moves.aboutToDelete
    (moves : round.Moves mayFail status ledger ending status' final)
    (notChoosing : status.phase ≠ .findingCandidate ∨ round.scheduler.isSuspended = true)
    (about : AboutToDelete status' podName) : AboutToDelete status podName := by
  obtain ⟨deleting, candidate, recorded, named⟩ := about
  cases moves with
  | looks _ akin shifts =>
      generalize status'.phase = phase at shifts deleting
      cases shifts with
      | same => exact ⟨deleting, candidate, akin.candidate.symm.trans recorded, named⟩
      | _ => cases deleting
  | chooses awake phase =>
      rcases notChoosing with other | suspended
      · exact absurd phase other
      · exact absurd (suspended.symm.trans awake) nofun
  | seesPod phase _ _ phase' => exact absurd (deleting.symm.trans (phase'.trans phase)) nofun
  | failsToTakeDown | failsToCreate | losesSight =>
      exact ⟨deleting, candidate, recorded, named⟩
  | takesDown _ _ _ _ _ _ _ phase' | seesGone _ _ _ _ _ phase' | takesOver _ _ _ _ phase'
  | creates _ _ _ _ _ _ _ phase' | awaitsPod _ _ _ _ _ phase' | restores _ _ _ _ _ _ phase' =>
      exact absurd (deleting.symm.trans phase') nofun

/-- A pass that goes on after the deletion does not come back to an earlier phase. -/
theorem Round.Moves.isLate_of_isLate
    (moves : round.Moves mayFail status ledger .goesOn status' final)
    (awake : round.scheduler.isSuspended = false) (late : isLate status.phase = true) :
    isLate status'.phase = true := by
  cases moves with
  | looks _ _ shifts =>
      generalize status'.phase = phase at shifts
      cases shifts with
      | same => exact late
      | due phase | unchosen phase | seen phase | vacant phase => simp [phase, isLate] at late
      | woken phase => rcases phase with phase | phase <;> simp [phase, isLate] at late
  | chooses _ phase | takesDown _ phase => simp [phase, isLate] at late
  | seesGone _ _ _ _ _ phase' => simp [phase', isLate]
  | seesPod _ _ _ _ ended => exact absurd rfl ended
  | restores due =>
      rcases due with phase | suspended
      · simp [phase, isLate] at late
      · exact absurd (suspended.symm.trans awake) nofun

/-- A pass that goes on to a phase before the deletion comes from one. -/
theorem Round.Moves.early_of_early
    (moves : round.Moves mayFail status ledger .goesOn status' final)
    (early : round.scheduler.isSuspended = true ∨ isLate status'.phase = false) :
    round.scheduler.isSuspended = true ∨ isLate status.phase = false := by
  rcases early with suspended | early
  · exact Or.inl suspended
  · by_contra neither
    obtain ⟨awake, late⟩ := not_or.1 neither
    have lateToo := moves.isLate_of_isLate (eq_false_of_ne_true awake) (by simpa using late)
    exact absurd (early.symm.trans lateToo) nofun

/-- A phase that does not delete the pod makes a move, and leaves the pods in sync. -/
theorem ensures_turn_spares (awake : scheduler.isSuspended = false)
    (notDeleting : status.phase ≠ .deletingPod) :
    ((roundOf scheduler settings now).turn status.phase).Ensures mayFail
      (fun next status' final =>
        (roundOf scheduler settings now).Moves mayFail status ledger next.ending status' final ∧
          ledger.Goes (slotOf scheduler).SparesSync final)
      (fun _ status' final =>
        (roundOf scheduler settings now).Moves mayFail status ledger .halts status' final ∧
          ledger.Goes (slotOf scheduler).SparesSync final) status ledger := by
  have spares : (roundOf scheduler settings now).Abides mayFail (slotOf scheduler).SparesSync :=
    abides_sparesSync _ _
  exact Pass.Ensures.and (Round.ensuresMove_turn awake)
    (spares.conducts_turn notDeleting status ledger)

theorem Vetted.of_moves (vetted : Vetted scheduler start before status ledger)
    (notChoosing : status.phase ≠ .findingCandidate ∨ scheduler.isSuspended = true)
    (moves : (roundOf scheduler settings now).Moves mayFail status ledger ending status' final)
    (goes : ledger.Goes (slotOf scheduler).SparesSync final) :
    Vetted scheduler start before status' final :=
  vetted.of_goes goes fun podName about =>
    vetted.pending podName (moves.aboutToDelete notChoosing about)

/-- A phase that neither chooses nor deletes a pod leaves the pods in sync. -/
theorem ensures_otherTurn_vetted (awake : scheduler.isSuspended = false)
    (notChoosing : status.phase ≠ .findingCandidate) (notDeleting : status.phase ≠ .deletingPod)
    (watched : Watched scheduler start before status ledger) :
    ((roundOf scheduler settings now).turn status.phase).Ensures mayFail
      (Next.leads (Watched scheduler start before) (Vetted scheduler start before))
      (fun _ => Vetted scheduler start before) status ledger := by
  apply ensures_leads (ensures_turn_spares awake notDeleting)
  · intro status' final ⟨moves, goes⟩
    exact ⟨watched.vetted.of_moves (Or.inl notChoosing) moves goes, fun early =>
      syncedPods_eq_of_goes goes (watched.still (moves.early_of_early early))⟩
  · exact fun _ status' final ⟨moves, goes⟩ =>
      watched.vetted.of_moves (Or.inl notChoosing) moves goes
  · exact fun _ status' final ⟨moves, goes⟩ =>
      watched.vetted.of_moves (Or.inl notChoosing) moves goes

/-- A suspended scheduler hands its pod back without touching the pods in sync. -/
theorem ensures_restorePod_vetted (suspended : scheduler.isSuspended = true)
    (set : status.candidate.isSome = true)
    (watched : Watched scheduler start before status ledger) :
    (roundOf scheduler settings now).restorePod.Ensures mayFail
      (Next.leads (Watched scheduler start before) (Vetted scheduler start before))
      (fun _ => Vetted scheduler start before) status ledger := by
  have moves : (roundOf scheduler settings now).restorePod.Ensures mayFail _ _ status ledger :=
    Round.ensures_restorePod_moves (Or.inr suspended) (Or.inr set)
  have goes : (roundOf scheduler settings now).restorePod.EnsuresAlways mayFail
      (fun _ final => ledger.Goes (slotOf scheduler).SparesSync final) status ledger :=
    (abides_sparesSync _ _).conducts_restorePod status ledger
  apply ensures_leads (moves.and goes)
  · intro status' final ⟨⟨moves, _⟩, goes⟩
    exact ⟨watched.vetted.of_moves (Or.inr suspended) moves goes, fun _ =>
      syncedPods_eq_of_goes goes (watched.still (Or.inl suspended))⟩
  · exact fun _ status' final ⟨⟨moves, _⟩, goes⟩ =>
      watched.vetted.of_moves (Or.inr suspended) moves goes
  · exact fun _ status' final ⟨moves, goes⟩ =>
      watched.vetted.of_moves (Or.inr suspended) moves goes

/-! ## Passes -/

theorem carries_vetted (scheduler : Scheduler) (settings : Settings) (now : Instant)
    (start : SchedulerStatus) (before : Registry) :
    (roundOf scheduler settings now).Carries mayFail (Watched scheduler start before)
      (Vetted scheduler start before) where
  turn := by
    intro status ledger awake watched
    by_cases choosing : status.phase = .findingCandidate
    · rw [choosing]
      exact ensures_chooseCandidate_vetted choosing watched
    · by_cases deleting : status.phase = .deletingPod
      · rw [deleting]
        exact ensures_deletePod_vetted awake deleting watched
      · exact ensures_otherTurn_vetted awake choosing deleting watched
  restore := fun suspended set watched => ensures_restorePod_vetted suspended set watched
  ends := fun watched => watched.vetted
  idles := by
    intro status ledger phase message dormant idle watched
    have early := dormant.symm.imp_right isLate_of_isDormant
    refine ⟨⟨watched.vetted.deletions, ?_⟩, fun _ => watched.still early⟩
    rintro podName ⟨deleting, _⟩
    have same : phase = .deletingPod := deleting
    rw [same] at idle
    cases idle

theorem watched_start (scheduler : Scheduler) (start : SchedulerStatus) (before : Registry) :
    Watched scheduler start before start (.opened before) where
  vetted := ⟨fun _ member => absurd member List.not_mem_nil, fun _ about => Or.inl about⟩
  still := fun _ => rfl

/-- Whatever fails, the deletions of a pass are vetted. -/
theorem ensures_step_vetted (scheduler : Scheduler) (settings : Settings) (now : Instant)
    (start : SchedulerStatus) (before : Registry) :
    (step scheduler settings now).EnsuresAlways mayFail (Vetted scheduler start before) start
      (.opened before) := by
  have begun := watched_start scheduler start before
  apply ensures_step_of_carries (carries_vetted scheduler settings now start before)
  · intro answer
    have asked : (Ledger.opened before).Goes (slotOf scheduler).SparesSync
        ((Ledger.opened before).add (.findDefinition .volumeSnapshot) answer before) :=
      .add .refl ⟨rfl, rfl⟩
    exact ⟨begun.vetted.of_goes asked begun.vetted.pending, fun _ => rfl⟩
  · exact fun watched => ⟨watched.vetted.deletions, (fun _ about => nomatch about.1)⟩

end Phases

/-! ## Runs -/

/-- Enough pods were in sync, the given one among them, at the start of the latest turn, or of
an earlier one since which the scheduler has been about to delete the pod.  The turns stand
with the latest first. -/
def ChosenInSync : List Turn → String → Prop
  | [], _ => False
  | turn :: earlier, podName =>
      EnoughInSync turn.scheduler podName turn.before ∨
        AboutToDelete turn.status podName ∧ ChosenInSync earlier podName

/-- Turns of a scheduler, the latest first, among passes of its full node and any changes
that leave schedulers alone: so pods come to be ready or not, and reports of them change. -/
inductive Fluctuates (mayFail : Request → Prop) (space name : String) (slot : Slot)
    (start : Registry) : List Turn → Registry → Prop
  | start : Fluctuates mayFail space name slot start [] start
  | schedulerPass {turns : List Turn} {turn : Turn}
      (earlier : Fluctuates mayFail space name slot start turns turn.before)
      (stored : turn.before.find? .scheduler space name = some turn.scheduler)
      (runs : turn.Runs mayFail) :
      Fluctuates mayFail space name slot start (turn :: turns) turn.final.registry
  | nodePass {turns : List Turn} {before : Registry} {node : FullNode} {settings : Settings}
      {now : Instant} {result : Except (Halt ControlError) Action} {final : Ledger}
      (earlier : Fluctuates mayFail space name slot start turns before)
      (stored : before.find? .fullNode slot.space slot.nodeName = some node)
      (runs : (syncFullNode node settings now).Runs mayFail (.opened before) result final) :
      Fluctuates mayFail space name slot start turns final.registry
  | stir {turns : List Turn} {before after : Registry}
      (earlier : Fluctuates mayFail space name slot start turns before)
      (sameSchedulers : ∀ space name,
        after.find? .scheduler space name = before.find? .scheduler space name) :
      Fluctuates mayFail space name slot start turns after

section Runs

variable {space name : String} {start : Registry} {first : Scheduler} {turns : List Turn}
  {turn : Turn}

/-- The deletions of a whole turn are those of its pass. -/
theorem Turn.exists_vetted (runs : turn.Runs mayFail)
    (stored : turn.before.find? .scheduler space name = some turn.scheduler) :
    ∃ status middle,
      Settled mayFail (slotOf turn.scheduler) space turn.scheduler status middle turn.final ∧
        Vetted turn.scheduler turn.status turn.before status turn.final := by
  obtain ⟨_, status, middle, ⟨vetted, settled⟩, _⟩ := turn.exists_comesOut
    (fun _ => Vetted turn.scheduler turn.status turn.before) runs stored
    (ensures_step_vetted turn.scheduler turn.settings turn.now turn.status turn.before)
  refine ⟨status, middle, settled, ?_, vetted.pending⟩
  obtain ⟨added, made, settling⟩ := settled.spares.adds
  intro call member space podName deletes
  rw [made] at member
  rcases List.mem_append.1 member with early | late
  · exact vetted.deletions call early space podName deletes
  · have settles := settling call late
    rw [deletes] at settles
    cases settles

/-- The stored status is about to delete a pod only if that one was chosen among enough. -/
def IsChosenInSync (space name : String) (first : Scheduler) (turns : List Turn)
    (registry : Registry) : Prop :=
  ∃ scheduler, registry.find? .scheduler space name = some scheduler ∧
    Continues first scheduler ∧ ∀ podName,
      AboutToDelete (scheduler.status.getD .initial) podName → ChosenInSync turns podName

/-- A turn is about to delete no other pod than one that was chosen among enough. -/
theorem IsChosenInSync.after_turn (chosen : IsChosenInSync space name first turns turn.before)
    (stored : turn.before.find? .scheduler space name = some turn.scheduler)
    (runs : turn.Runs mayFail) :
    IsChosenInSync space name first (turn :: turns) turn.final.registry := by
  obtain rfl : turn.scheduler.name = name := (Registry.isPlaced_of_find? stored).shownName_eq
  obtain ⟨scheduler, found, continues, chosenBefore⟩ := chosen
  obtain rfl := Option.some.inj (stored.symm.trans found)
  obtain ⟨status, middle, settled, vetted⟩ := turn.exists_vetted runs stored
  obtain ⟨latest, there, continuesLatest, _⟩ := settled.exists_latest stored continues
  refine ⟨latest, there, continuesLatest, fun podName about => ?_⟩
  cases settled.settles with
  | recorded version message recorded =>
      obtain rfl := Option.some.inj (there.symm.trans recorded)
      rcases vetted.pending podName about with resumed | enough
      · exact Or.inr ⟨resumed, chosenBefore podName resumed⟩
      · exact Or.inl enough
  | lost kept cause =>
      obtain rfl := Option.some.inj (there.symm.trans kept)
      exact Or.inr ⟨about, chosenBefore podName about⟩

theorem Fluctuates.isChosenInSync
    (fluctuates : Fluctuates mayFail space name (slotOf first) start turns registry)
    (begun : start.find? .scheduler space name = some first)
    (fresh : first.status.getD .initial = .initial) :
    IsChosenInSync space name first turns registry := by
  induction fluctuates with
  | start =>
      refine ⟨first, begun, ⟨rfl, rfl, rfl⟩, fun podName about => ?_⟩
      rw [fresh] at about
      exact nomatch about.1
  | schedulerPass earlier stored runs inductionHypothesis =>
      exact inductionHypothesis.after_turn stored runs
  | nodePass earlier stored runs inductionHypothesis =>
      obtain ⟨scheduler, found, rest⟩ := inductionHypothesis
      exact ⟨scheduler, ((bypasses_of_nodePass stored runs).sameSchedulers _ _).trans found, rest⟩
  | stir earlier sameSchedulers inductionHypothesis =>
      obtain ⟨scheduler, found, rest⟩ := inductionHypothesis
      exact ⟨scheduler, (sameSchedulers _ _).trans found, rest⟩

/-- A scheduler deletes only a pod of its full node that was chosen among enough pods in sync.
When it is deleted, enough are in sync, that pod among them, unless the turn started about to
delete it and too few were in sync there. -/
theorem enoughInSync_at_deletion_iff {call : Call} {podSpace : String}
    (begun : start.find? .scheduler space name = some first)
    (fresh : first.status.getD .initial = .initial)
    (fluctuates : Fluctuates mayFail space name (slotOf first) start turns turn.before)
    (stored : turn.before.find? .scheduler space name = some turn.scheduler)
    (runs : turn.Runs mayFail) (member : call ∈ turn.final.calls)
    (deletes : call.request = .delete .pod podSpace podName) :
    podSpace = (slotOf first).space ∧ ChosenInSync (turn :: turns) podName ∧
      (EnoughInSync turn.scheduler podName call.before ↔
        (AboutToDelete turn.status podName →
          EnoughInSync turn.scheduler podName turn.before)) := by
  obtain ⟨scheduler, found, continues, chosenBefore⟩ := fluctuates.isChosenInSync begun fresh
  obtain rfl := Option.some.inj (stored.symm.trans found)
  obtain ⟨_, _, _, vetted⟩ := turn.exists_vetted runs stored
  obtain ⟨inSpace, same, vouches⟩ := vetted.deletions call member podSpace podName deletes
  have chosen : ChosenInSync (turn :: turns) podName := by
    rcases vouches with resumed | enough
    · exact Or.inr ⟨resumed, chosenBefore podName resumed⟩
    · exact Or.inl enough
  refine ⟨inSpace.trans (congrArg Slot.space continues.slot_eq), chosen, ?_⟩
  rw [EnoughInSync.congr same]
  constructor
  · exact fun enough _ => enough
  · exact fun resumedEnough => vouches.elim resumedEnough id

/-- However the cluster changes between the turns, enough pods are in sync whenever a turn
deletes one. -/
def DeletesAmongEnough (space name : String) (start : Registry) (first : Scheduler) : Prop :=
  ∀ (turns : List Turn) (turn : Turn) (call : Call) (podSpace podName : String),
    Fluctuates (fun _ => True) space name (slotOf first) start turns turn.before →
      turn.before.find? .scheduler space name = some turn.scheduler →
        turn.Runs (fun _ => True) → call ∈ turn.final.calls → call.Succeeds →
          call.request = .delete .pod podSpace podName →
            EnoughInSync turn.scheduler podName call.before

end Runs

/-! ## A deletion that comes too late -/

section Example

variable {turns : List Turn}

theorem Fluctuates.turnAt
    (fluctuates : Fluctuates (fun _ => True) "default" "hourly" (slotOf hourly) sampleCluster turns
      registry) (now : Instant) (fails : Request → Bool) :
    (turnAt "hourly" now fails registry).before.find? .scheduler "default" "hourly" =
        some (turnAt "hourly" now fails registry).scheduler ∧
      (turnAt "hourly" now fails registry).Runs (fun _ => True) := by
  obtain ⟨scheduler, found, _⟩ := fluctuates.isChosenInSync find?_sampleCluster rfl
  exact ⟨by simp [Snapshot.turnAt, found], runs_turnAt (fun _ _ => trivial) _ _ _⟩

/-- The turn that chooses the pod and fails to delete it. -/
def failedTurn : Turn :=
  turnAt "hourly" (.ofSeconds 3600) (fun request => (deletedPod? request).isSome) sampleCluster

/-- The cluster once the pod is not ready any more. -/
def unreadied (registry : Registry) : Registry := restated none registry

/-- The turn that deletes the pod. -/
def belatedTurn : Turn :=
  turnAt "hourly" (.ofSeconds 3660) (fun _ => false) (unreadied failedTurn.final.registry)

theorem fluctuates_belatedTurn :
    Fluctuates (fun _ => True) "default" "hourly" (slotOf hourly) sampleCluster [failedTurn]
      belatedTurn.before := by
  have failed := Fluctuates.start.turnAt (.ofSeconds 3600)
    (fun request => (deletedPod? request).isSome)
  exact .stir (.schedulerPass .start failed.1 failed.2) (progresses_restated none _).sameSchedulers

/-- The turn deletes the pod though no pod is in sync any more. -/
theorem exists_belated :
    ∃ call ∈ belatedTurn.final.calls,
      deletedPod? call.request = some ("default", "cosmoshub-0") ∧ call.Succeeds ∧
        ((slotOf belatedTurn.scheduler).syncedPods call.before).length = 0 := by
  decide +kernel

theorem minAvailable_belatedTurn : belatedTurn.scheduler.minAvailable = 1 := by decide +kernel

/-- The condition for enough pods to be in sync is as stated. -/
theorem enoughInSync_iff_of_belatedTurn :
    ∃ call ∈ belatedTurn.final.calls, call.request = .delete .pod "default" "cosmoshub-0" ∧
      ChosenInSync [belatedTurn, failedTurn] "cosmoshub-0" ∧
        (EnoughInSync belatedTurn.scheduler "cosmoshub-0" call.before ↔
          (AboutToDelete belatedTurn.status "cosmoshub-0" →
            EnoughInSync belatedTurn.scheduler "cosmoshub-0" belatedTurn.before)) := by
  obtain ⟨call, member, deleted, _⟩ := exists_belated
  have deletes := eq_delete_of_deletedPod? deleted
  obtain ⟨stored, runs⟩ := fluctuates_belatedTurn.turnAt (.ofSeconds 3660) (fun _ => false)
  obtain ⟨_, chosen, iff⟩ := enoughInSync_at_deletion_iff find?_sampleCluster rfl
    fluctuates_belatedTurn stored runs member deletes
  exact ⟨call, member, deletes, chosen, iff⟩

/-- The pod that was chosen is not in sync any more when it is deleted. -/
theorem not_deletesAmongEnough_of_belated :
    ¬ DeletesAmongEnough "default" "hourly" sampleCluster hourly := by
  intro amongEnough
  obtain ⟨call, member, deleted, succeeds, none⟩ := exists_belated
  obtain ⟨stored, runs⟩ := fluctuates_belatedTurn.turnAt (.ofSeconds 3660) (fun _ => false)
  have enough := (amongEnough _ _ _ _ _ fluctuates_belatedTurn stored runs member succeeds
    (eq_delete_of_deletedPod? deleted)).enough
  have one : belatedTurn.scheduler.minAvailable ≤ 0 := none ▸ enough
  rw [minAvailable_belatedTurn] at one
  exact absurd one (by decide)

end Example

end NodeFleet.Snapshot
