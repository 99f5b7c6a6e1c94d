import NodeFleet.Proofs.Fleet.Converge
import NodeFleet.Proofs.Fleet.DesiredPods
import NodeFleet.Proofs.Snapshot.Quiescence

/-!
# Held pods stay down

The controller of a full node neither creates a pod that is held down nor changes what
is registered of it.  It leaves schedulers alone.
-/

namespace NodeFleet.Fleet

open Calendar Resource Snapshot Store

variable {mayFail : Request → Prop} {slot : Slot} {node : FullNode} {now : Instant}
  {registry after : Registry} {calls : List Call} {key podName : String}

theorem mem_heldPodNames_iff : podName ∈ node.heldPodNames ↔
    ∃ key, heldUnder? node key = some podName := by
  unfold heldUnder? FullNode.heldPodNames
  cases node.status with
  | none => simp
  | some status =>
      simp only [List.mem_map, KeyMap.mem_values_iff, Option.bind_some, Option.map_eq_some_iff]
      constructor
      · rintro ⟨entry, ⟨key, found⟩, same⟩
        exact ⟨key, entry, found, same⟩
      · rintro ⟨key, entry, found, same⟩
        exact ⟨entry, ⟨key, found⟩, same⟩

/-- A pass over a full node creates no pod that is held down. -/
theorem ConvergeCourse.name_ne_of_create (course : ConvergeCourse node now registry calls)
    (held : podName ∈ node.heldPodNames) {call : Call} (member : call ∈ calls)
    {space : String} {written : Pod} (creates : call.request = .create .pod space written) :
    written.metadata.name ≠ some podName := by
  obtain ⟨claims, pods, middle, rfl, claimsCourse, podsCourse⟩ := course
  have aimed : call.request.place? = some (.pod, space, written.metadata.name.getD "") := by
    rw [creates]
    rfl
  rcases List.mem_append.1 member with early | late
  · exact absurd (claimsCourse.kind_eq_of_place? early aimed) (by decide)
  rcases podsCourse with rfl | ⟨space', inSpace, course⟩
  · cases late
  rcases course.request_cases late with listing | memberCall
  · cases creates.symm.trans listing
  generalize call.request = request at creates memberCall
  cases memberCall with
  | @creates wanted desired =>
      obtain rfl : MemberKind.withOwner _ .pod wanted = written := by
        simpa [OrdinalSet.creation] using (Request.create.inj creates).2.2
      intro same
      refine FullNode.shownName_not_held desired ?_
      have named : wanted.metadata.name = some podName := same
      simpa [ObjectMeta.shownName, named] using held
  | deletes live => cases creates
  | renews wanted => cases creates

/-- A pass over a full node as it is stored leaves what is held down. -/
theorem ConvergeCourse.leaves (course : ConvergeCourse node now registry calls)
    (chain : Chain mayFail registry calls after)
    (stored : registry.find? .fullNode slot.space slot.nodeName = some node) :
    slot.Leaves registry after where
  entry := by
    unfold Slot.held?
    rw [chain.find?_eq fun call member aimed => ?_]
    obtain ⟨claims, pods, middle, rfl, claimsCourse, podsCourse⟩ := course
    rcases List.mem_append.1 member with early | late
    · exact absurd (claimsCourse.kind_eq_of_place? early aimed) (by decide)
    · exact absurd (podsCourse.kind_eq_of_place? late aimed) (by decide)
  down := by
    intro podName held absent
    unfold Slot.held? at held
    rw [stored] at held
    exact chain.find?_eq_none absent fun call member written creates =>
      course.name_ne_of_create (mem_heldPodNames_iff.2 ⟨_, held⟩) member creates

theorem heldUnder?_recordOutcome (stored : FullNode) (generation : Option Int)
    (result : Except PassError Convergence) (key : String) :
    heldUnder? (stored.updateStatus (recordOutcome generation result)) key =
      heldUnder? stored key := by
  unfold heldUnder? FullNode.updateStatus recordOutcome
  cases stored.status with
  | none => rfl
  | some status => rfl

/-- Writing the status of a full node leaves what is held down. -/
theorem ensures_finish_leaves (settings : Settings) (space : String)
    (result : Except PassError Convergence) (ledger : Ledger) :
    (finish node settings space result).EnsuresAlways mayFail
      (fun final => slot.Leaves ledger.registry final.registry) ledger := by
  have ends : ∀ middle : Ledger, slot.Leaves ledger.registry middle.registry →
      (conclude settings result).EnsuresAlways mayFail
        (fun final => slot.Leaves ledger.registry final.registry) middle := by
    intro middle leaves
    cases result with
    | ok found => exact Control.ensures_pure _ leaves
    | error error => exact Control.ensures_failPass (fun _ => leaves) fun _ _ _ => leaves
  refine Control.ensures_bind (Control.ensures_attempt (Exchange.ensures_updateStatus
    (fun _ => rfl) (fun stored version after found sets => ?_) (fun missing halt => .refl _ _)
    (fun error final nothing halt => ?_) fun stored error final found nothing halt => ?_))
  · refine ends _ (Slot.leaves_of_node found sets fun key => ?_)
    exact heldUnder?_recordOutcome stored node.metadata.generation result key
  · rw [nothing.registry_eq]
    exact .refl _ _
  · rw [nothing.registry_eq]
    exact .refl _ _

/-- The controller of a full node leaves what the full node holds down. -/
theorem ensures_syncFullNode_leaves (settings : Settings)
    (stored : registry.find? .fullNode slot.space slot.nodeName = some node) :
    (syncFullNode node settings now).EnsuresAlways mayFail
      (fun final => slot.Leaves registry final.registry) (.opened registry) := by
  have converged : (converge node now : Pass Unit Convergence).EnsuresAlways mayFail
      (fun _ final => slot.Leaves registry final.registry) () (.opened registry) := by
    refine ((ensures_converge node now () (.opened registry)).and
      (Pass.ensures_chain _ _ registry)).mono ?_ ?_
    · rintro _ _ final ⟨⟨calls, made, course⟩, chain⟩
      obtain rfl : final.calls = calls := made
      exact course.leaves chain stored
    · rintro _ _ final ⟨⟨calls, made, course⟩, chain⟩
      obtain rfl : final.calls = calls := made
      exact course.leaves chain stored
  have finished : ∀ (result : Except PassError Convergence) (middle : Ledger),
      slot.Leaves registry middle.registry →
        (finish node settings slot.space result).EnsuresAlways mayFail
          (fun final => slot.Leaves registry final.registry) middle := by
    intro result middle leaves
    exact (ensures_finish_leaves settings slot.space result middle).mono
      (fun _ _ => leaves.trans) fun _ _ => leaves.trans
  rw [syncFullNode_eq settings now (Registry.isPlaced_of_find? stored).inSpace]
  refine Control.ensures_bind (Control.ensures_withDeadline
    (converged.mono (fun found _ middle leaves => ?_) fun halt _ middle leaves => ?_))
  · exact finished (.ok found) middle leaves
  · cases halt with
    | failed error => exact finished (.error error) middle leaves
    | unanswered => exact finished _ middle leaves
    | broken message => exact leaves

theorem SyncCourse.find?_scheduler_eq (course : SyncCourse node now registry calls)
    (chain : Chain mayFail registry calls after) (space name : String) :
    after.find? .scheduler space name = registry.find? .scheduler space name := by
  refine chain.find?_eq fun call member aimed => ?_
  rcases course.place_cases member aimed with pod | claim | statusCall
  · cases pod
  · cases claim
  generalize call.request = request at aimed statusCall
  cases request with
  | replaceStatus kind space' name' written =>
      cases kind with
      | fullNode => cases aimed
      | _ => cases statusCall
  | get kind space' name' => cases aimed
  | publish event => cases aimed
  | _ => cases statusCall

end NodeFleet.Fleet
