import NodeFleet.Fleet.Converge
import NodeFleet.Proofs.Fleet.OrdinalSet
import NodeFleet.Proofs.Store.Repertoire

/-!
# What a pass over a full node does

A pass over a full node is a pass over its volume claims, then one over its pods.
The controller writes the status of the full node after it, and nothing else.
-/

namespace NodeFleet.Fleet

open Calendar Resource Store

variable {mayFail : Request → Prop} {σ : Type}

/-- The calls of a pass over one component of a full node; without a namespace there
are none. -/
def ComponentCourse (node : FullNode) (component : String) (kind : MemberKind)
    (desired : List kind.kind.Object) (now : Instant) (registry : Registry)
    (calls : List Call) : Prop :=
  calls = [] ∨ ∃ space, node.metadata.namespaceName = some space ∧
    (componentSet node space component).Course kind desired now registry calls

/-- The calls of a pass over the volume claims of a full node. -/
def ClaimsCourse (node : FullNode) (now : Instant) (registry : Registry) (calls : List Call) :
    Prop :=
  ComponentCourse node FullNode.claimComponent .volumeClaim node.desiredClaims now registry calls

/-- The calls of a pass over the pods of a full node. -/
def PodsCourse (node : FullNode) (now : Instant) (registry : Registry) (calls : List Call) :
    Prop :=
  ComponentCourse node FullNode.podComponent .pod node.desiredPods now registry calls

/-- A pass over one component follows its course. -/
theorem ensures_component (node : FullNode) (component : String) (kind : MemberKind)
    (desired : List kind.kind.Object) (now : Instant) (state : σ) (ledger : Ledger) :
    Pass.EnsuresAlways mayFail
      (do
        let space ← Pass.namespaceOf node.metadata
        (componentSet node space component).reconcile kind desired now : Pass σ SetOutcome)
      (fun _ final => ∃ calls, final.calls = ledger.calls ++ calls ∧
        ComponentCourse node component kind desired now ledger.registry calls)
      state ledger := by
  refine Pass.ensures_bind ?_
  unfold Pass.namespaceOf Pass.orUnrecoverable
  cases inSpace : node.metadata.namespaceName with
  | none => exact Pass.ensures_throw _ ⟨[], by simp, Or.inl rfl⟩
  | some space =>
      refine Pass.ensures_pure space ?_
      refine (OrdinalSet.ensures_reconcile _ kind desired now state ledger).mono ?_ ?_
      · rintro _ _ final ⟨plan, calls, planned, made, carried⟩
        exact ⟨calls, made, Or.inr ⟨space, inSpace, Or.inr ⟨plan, planned, carried.breaksOff⟩⟩⟩
      · rintro _ _ final ⟨calls, made, course, _⟩
        exact ⟨calls, made, Or.inr ⟨space, inSpace, course⟩⟩

/-- The calls of a pass over a full node: those for its claims, then those for its
pods. -/
def ConvergeCourse (node : FullNode) (now : Instant) (registry : Registry) (calls : List Call) :
    Prop :=
  ∃ claims pods middle, calls = claims ++ pods ∧ ClaimsCourse node now registry claims ∧
    PodsCourse node now middle pods

theorem ensures_converge (node : FullNode) (now : Instant) (state : σ) (ledger : Ledger) :
    (converge node now : Pass σ Convergence).EnsuresAlways mayFail
      (fun _ final => ∃ calls, final.calls = ledger.calls ++ calls ∧
        ConvergeCourse node now ledger.registry calls)
      state ledger := by
  refine Pass.ensures_bind ((ensures_component node _ .volumeClaim _ now state ledger).mono ?_ ?_)
  · rintro _ state middle ⟨claims, madeFirst, claimsCourse⟩
    refine Pass.ensures_bind ((ensures_component node _ .pod _ now state middle).mono ?_ ?_)
    · rintro _ _ final ⟨pods, madeThen, podsCourse⟩
      exact Pass.ensures_pure _ ⟨claims ++ pods, by rw [madeThen, madeFirst, List.append_assoc],
        claims, pods, _, rfl, claimsCourse, podsCourse⟩
    · rintro _ _ final ⟨pods, madeThen, podsCourse⟩
      exact ⟨claims ++ pods, by rw [madeThen, madeFirst, List.append_assoc],
        claims, pods, _, rfl, claimsCourse, podsCourse⟩
  · rintro _ _ final ⟨claims, made, claimsCourse⟩
    exact ⟨claims, made, claims, [], ledger.registry, (List.append_nil claims).symm, claimsCourse,
      Or.inl rfl⟩

/-! ## The controller -/

/-- The calls that a controller makes to write the status of a full node. -/
def StatusCall : Request → Prop
  | .get .fullNode _ _ | .replaceStatus .fullNode _ _ _ | .publish _ => True
  | _ => False

/-- The calls of a controller of a full node: those of a pass, then those that write
the status. -/
def SyncCourse (node : FullNode) (now : Instant) (registry : Registry) (calls : List Call) :
    Prop :=
  ∃ pass rest, calls = pass ++ rest ∧ ConvergeCourse node now registry pass ∧
    ∀ call ∈ rest, StatusCall call.request

theorem ComponentCourse.kind_eq_of_place? {node : FullNode} {component : String}
    {kind : MemberKind} {desired : List kind.kind.Object} {now : Instant} {registry : Registry}
    {calls : List Call} {call : Call} {other : Kind} {space name : String}
    (course : ComponentCourse node component kind desired now registry calls)
    (member : call ∈ calls) (aimed : call.request.place? = some (other, space, name)) :
    other = kind.kind := by
  rcases course with rfl | ⟨space', inSpace, course⟩
  · cases member
  rcases course.request_cases member with listing | memberCall
  · rw [listing] at aimed
    cases aimed
  · exact memberCall.kind_eq_of_place? aimed

/-- A controller of a full node changes pods and volume claims, and writes the status. -/
theorem SyncCourse.place_cases {node : FullNode} {now : Instant} {registry : Registry}
    {calls : List Call} {call : Call} {kind : Kind} {space name : String}
    (course : SyncCourse node now registry calls) (member : call ∈ calls)
    (aimed : call.request.place? = some (kind, space, name)) :
    kind = .pod ∨ kind = .volumeClaim ∨ StatusCall call.request := by
  obtain ⟨pass, rest, rfl, ⟨claims, pods, middle, rfl, claimsCourse, podsCourse⟩, statusCalls⟩ :=
    course
  rcases List.mem_append.1 member with inPass | inRest
  · rcases List.mem_append.1 inPass with early | late
    · exact Or.inr (Or.inl (claimsCourse.kind_eq_of_place? early aimed))
    · exact Or.inl (podsCourse.kind_eq_of_place? late aimed)
  · exact Or.inr (Or.inr (statusCalls call inRest))

/-- What a controller gives back after its pass. -/
def conclude (settings : Settings) (result : Except PassError Convergence) : Control Action :=
  match result with
  | .ok found => return if found.settled then .awaitChange else .requeue settings.requeue
  | .error error => Control.failPass error

/-- What a controller does after its pass. -/
def finish (node : FullNode) (settings : Settings) (space : String)
    (result : Except PassError Convergence) : Control Action := do
  let _ ← Control.attempt <| Exchange.updateStatus .fullNode space node.name
    (·.updateStatus (recordOutcome node.metadata.generation result))
  conclude settings result

theorem makes_finish (node : FullNode) (settings : Settings) (space : String)
    (result : Except PassError Convergence) :
    (finish node settings space result).Makes StatusCall := by
  refine Control.makes_bind (Control.makes_attempt
    (Exchange.makes_updateStatus trivial fun _ => trivial)) fun _ => ?_
  cases result with
  | ok found => exact Control.makes_pure _
  | error error => exact Control.makes_failPass _ fun _ => trivial

theorem syncFullNode_eq {node : FullNode} {space : String} (settings : Settings) (now : Instant)
    (inSpace : node.metadata.namespaceName = some space) :
    syncFullNode node settings now = (do
      let (result, ()) ← Control.withDeadline settings.passTimeout (converge node now) ()
      finish node settings space result) := by
  unfold syncFullNode
  rw [inSpace]
  rfl

/-- The calls since a ledger are those of a controller. -/
def Synced (node : FullNode) (now : Instant) (ledger final : Ledger) : Prop :=
  ∃ calls, final.calls = ledger.calls ++ calls ∧ SyncCourse node now ledger.registry calls

section Synced

variable {node : FullNode} {now : Instant} {ledger middle final : Ledger} {pass : List Call}

theorem synced_of_adds (made : middle.calls = ledger.calls ++ pass)
    (course : ConvergeCourse node now ledger.registry pass)
    (adds : middle.Adds StatusCall final) : Synced node now ledger final := by
  obtain ⟨rest, added, allStatus⟩ := adds
  refine ⟨pass ++ rest, ?_, pass, rest, rfl, course, allStatus⟩
  rw [added, made, List.append_assoc]

theorem ensures_finish {settings : Settings} {space : String}
    (made : middle.calls = ledger.calls ++ pass)
    (course : ConvergeCourse node now ledger.registry pass)
    (result : Except PassError Convergence) :
    (finish node settings space result).EnsuresAlways mayFail (Synced node now ledger) middle :=
  (makes_finish node settings space result).ensures_adds.mono
    (fun _ _ => synced_of_adds made course) fun _ _ => synced_of_adds made course

end Synced

theorem ensures_syncFullNode (node : FullNode) (settings : Settings) (now : Instant)
    (ledger : Ledger) :
    (syncFullNode node settings now).EnsuresAlways mayFail (Synced node now ledger) ledger := by
  have nothing : ∀ ledger : Ledger, ledger.Adds StatusCall ledger :=
    fun ledger => ⟨[], by simp, by simp⟩
  cases inSpace : node.metadata.namespaceName with
  | none =>
      unfold syncFullNode
      rw [inSpace]
      have unstarted : ConvergeCourse node now ledger.registry [] :=
        ⟨[], [], ledger.registry, rfl, Or.inl rfl, Or.inl rfl⟩
      exact Control.ensures_throw _ (synced_of_adds (by simp) unstarted (nothing ledger))
  | some space =>
      rw [syncFullNode_eq settings now inSpace]
      refine Control.ensures_bind (Control.ensures_withDeadline
        ((ensures_converge node now () ledger).mono ?_ ?_))
      · rintro found _ middle ⟨pass, made, course⟩
        exact ensures_finish made course (.ok found)
      · rintro halt _ middle ⟨pass, made, course⟩
        cases halt with
        | failed error => exact ensures_finish made course (.error error)
        | unanswered => exact ensures_finish made course _
        | broken message => exact synced_of_adds made course (nothing middle)

theorem syncCourse_of_runs {node : FullNode} {settings : Settings} {now : Instant}
    {registry : Registry} {result : Except (Halt ControlError) Action} {final : Ledger}
    (runs : (syncFullNode node settings now).Runs mayFail (.opened registry) result final) :
    SyncCourse node now registry final.calls := by
  obtain ⟨calls, made, course⟩ :=
    Control.EnsuresAlways.of_runs (ensures_syncFullNode node settings now (.opened registry)) runs
  rw [Ledger.calls_opened, List.nil_append] at made
  rwa [made]

end NodeFleet.Fleet
