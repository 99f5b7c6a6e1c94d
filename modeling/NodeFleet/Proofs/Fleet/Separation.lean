import NodeFleet.Proofs.Fleet.Converge
import NodeFleet.Proofs.Fleet.MemberNames

/-!
# Full nodes keep apart

A pass over a full node lists by labels and writes by names.  As long as the objects that
carry the labels of full nodes come from their passes, each of these objects has a name of
the full node whose labels it carries.  So a pass never aims at an object of another full
node.
-/

namespace NodeFleet.Fleet

open Calendar Resource Store

variable {mayFail : Request → Prop} {σ : Type} {among : String → Prop} {space : String}
  {node : FullNode} {kind : MemberKind} {now : Instant} {registry before after : Registry}
  {calls : List Call}

/-- What carries the labels of a full node has a name of one of its members. -/
def MembersNamed (among : String → Prop) (space : String) (registry : Registry) : Prop :=
  ∀ (node : FullNode) (kind : MemberKind) (name : String) (object : kind.kind.Object),
    among node.name → registry.find? kind.kind space name = some object →
      node.Finds kind object → node.Names kind.kind name

/-! ## One call -/

theorem patch_of_memberCall {set : OrdinalSet} {desired : List kind.kind.Object}
    {other : Kind} {target name : String} {change : Json}
    (memberCall : set.MemberCall kind desired (.patch other target name change))
    (stored changed : other.Object)
    (reads : other.read (change.mergePatch (other.write stored)) = some changed) :
    (other.metadata changed).labels = (other.metadata stored).labels := by
  generalize aimed : Request.patch other target name change = request at memberCall
  cases memberCall with
  | creates wanted => cases aimed
  | deletes live => cases aimed
  | renews wanted =>
      cases kind with
      | pod => cases aimed
      | volumeClaim =>
          cases aimed
          exact VolumeClaim.labels_of_patched reads

/-- One call of a pass keeps the names of all members. -/
theorem MembersNamed.of_serves {request : Request} {answer : Answer request}
    (exact : ∀ other : FullNode, among other.name → other.SelectorsExact)
    (served : Serves mayFail request before answer after)
    (permitted : request = (componentSet node space kind.component).listing kind ∨
      (componentSet node space kind.component).MemberCall kind (node.desired kind) request)
    (named : MembersNamed among space before) : MembersNamed among space after := by
  intro other otherKind name object included found finds
  have patches : ∀ change, request = .patch otherKind.kind space name change →
      ∀ stored changed,
        otherKind.kind.read (change.mergePatch (otherKind.kind.write stored)) = some changed →
        (otherKind.kind.metadata changed).labels = (otherKind.kind.metadata stored).labels := by
    rintro change rfl stored changed reads
    rcases permitted with listing | memberCall
    · cases listing
    · exact patch_of_memberCall memberCall stored changed reads
  rcases served.labels_cases found patches with
    ⟨stored, there, sameLabels⟩ | ⟨written, rfl, writtenName, sameLabels⟩
  · exact named other otherKind name stored included there (finds.of_labels_eq sameLabels)
  · rcases permitted with listing | memberCall
    · cases listing
    generalize aimed : Request.create otherKind.kind space written = request at memberCall
    cases memberCall with
    | deletes live => cases aimed
    | renews wanted => cases kind <;> cases aimed
    | @creates member wanted =>
        obtain ⟨sameKind, _, sameObject⟩ := Request.create.inj aimed
        obtain rfl := MemberKind.kind_injective sameKind
        obtain rfl := eq_of_heq sameObject
        obtain ⟨ordinal, memberNamed, labelled⟩ := FullNode.exists_ordinal_of_desired wanted
        rw [MemberKind.metadata_withOwner_name, memberNamed] at writtenName
        rw [MemberKind.metadata_withOwner_labels, labelled] at sameLabels
        refine ⟨otherKind, rfl, ordinal, ?_⟩
        rw [← Option.some.inj writtenName]
        exact FullNode.memberName_eq_iff.2
          ⟨(finds.name_eq (exact other included) sameLabels).symm, rfl⟩

/-- Calls of a pass keep the names of all members. -/
theorem MembersNamed.of_chain
    (exact : ∀ other : FullNode, among other.name → other.SelectorsExact)
    (chain : Chain mayFail before calls after)
    (permitted : ∀ call ∈ calls,
      call.request = (componentSet node space kind.component).listing kind ∨
        (componentSet node space kind.component).MemberCall kind (node.desired kind)
          call.request)
    (named : MembersNamed among space before) : MembersNamed among space after := by
  induction chain with
  | nil registry => exact named
  | cons served chain inductionHypothesis =>
      obtain ⟨first, rest⟩ := List.forall_mem_cons.1 permitted
      exact inductionHypothesis rest (named.of_serves exact served first)

/-! ## One pass -/

/-- A call writes, if anything, a place in a namespace that has the name of a member of a
full node. -/
def StaysIn (node : FullNode) (space : String) (call : Call) : Prop :=
  ∀ kind space' name, call.request.place? = some (kind, space', name) →
    space' = space ∧ node.Names kind name

/-- A pass over one component writes places of its full node only. -/
theorem staysIn_of_course {call : Call} (included : among node.name)
    (course : (componentSet node space kind.component).Course kind (node.desired kind) now
      registry calls)
    (chain : Chain mayFail registry calls after) (named : MembersNamed among space registry)
    (member : call ∈ calls) : StaysIn node space call := by
  intro kind' space' name aimed
  rcases course.request_cases member with listing | memberCall
  · rw [listing] at aimed
    cases aimed
  generalize requested : call.request = request at aimed memberCall
  -- A deleted member is a listed one, so that its labels give its name.
  have deleted : ∀ kind' space' name, call.request = .delete kind' space' name →
      space' = space ∧ node.Names kind' name := by
    intro kind' space' name deletes
    obtain ⟨past, later, rfl⟩ := List.append_of_mem member
    obtain ⟨rfl, rfl, ⟨live, inListed, rfl, _⟩, _⟩ := course.findsListed_of_delete chain deletes
    obtain ⟨found, selected⟩ := (registry.mem_selected_iff).1 inListed
    exact ⟨rfl, named node kind _ live included found selected⟩
  cases memberCall with
  | @creates created wanted =>
      have sameName := FullNode.named_of_desired wanted
      obtain ⟨rfl, rfl, rfl⟩ : kind.kind = kind' ∧ space = space' ∧
          (kind.kind.metadata created).shownName = name := by
        simpa [OrdinalSet.creation, Request.place?, componentSet, sameName] using aimed
      exact ⟨rfl, FullNode.names_of_named wanted sameName⟩
  | deletes live =>
      obtain ⟨rfl, rfl, rfl⟩ : kind.kind = kind' ∧ space = space' ∧
          (kind.kind.metadata live).shownName = name := by
        simpa [OrdinalSet.deletion, Request.place?, componentSet] using aimed
      exact deleted _ _ _ requested
  | @renews renewed wanted =>
      have sameName := FullNode.named_of_desired wanted
      obtain ⟨rfl, rfl, rfl⟩ : kind.kind = kind' ∧ space = space' ∧
          (kind.kind.metadata renewed).shownName = name := by
        cases kind <;>
          simpa [OrdinalSet.renewal, OrdinalSet.deletion, MemberKind.strategy, Request.place?,
            componentSet] using aimed
      exact ⟨rfl, FullNode.names_of_named wanted sameName⟩

/-- What the calls of a pass over a full node leave: all members keep their names, and
nothing was written but at places of the full node. -/
def KeepsApart (among : String → Prop) (space : String) (node : FullNode)
    (ledger final : Ledger) : Prop :=
  MembersNamed among space ledger.registry → MembersNamed among space final.registry ∧
    ∃ calls, final.calls = ledger.calls ++ calls ∧ ∀ call ∈ calls, StaysIn node space call

theorem KeepsApart.trans {ledger middle final : Ledger}
    (first : KeepsApart among space node ledger middle)
    (second : KeepsApart among space node middle final) :
    KeepsApart among space node ledger final := by
  intro named
  obtain ⟨namedMiddle, calls, made, stays⟩ := first named
  obtain ⟨namedFinal, later, madeLater, staysLater⟩ := second namedMiddle
  refine ⟨namedFinal, calls ++ later, by rw [madeLater, made, List.append_assoc], ?_⟩
  intro call member
  exact (List.mem_append.1 member).elim (stays call) (staysLater call)

theorem keepsApart_of_course {ledger final : Ledger}
    (exact : ∀ other : FullNode, among other.name → other.SelectorsExact)
    (included : among node.name) (inSpace : node.metadata.namespaceName = some space)
    (made : final.calls = ledger.calls ++ calls)
    (course : ComponentCourse node kind.component kind (node.desired kind) now ledger.registry
      calls)
    (chain : Chain mayFail ledger.registry calls final.registry) :
    KeepsApart among space node ledger final := by
  intro named
  rcases course with rfl | ⟨space', inSpaceToo, course⟩
  · exact ⟨chain.eq_of_nil ▸ named, [], made, by simp⟩
  obtain rfl := Option.some.inj (inSpace.symm.trans inSpaceToo)
  refine ⟨named.of_chain exact chain fun call member => course.request_cases member, calls, made,
    fun call member => staysIn_of_course included course chain named member⟩

theorem ensures_component_keepsApart
    (exact : ∀ other : FullNode, among other.name → other.SelectorsExact)
    (included : among node.name) (inSpace : node.metadata.namespaceName = some space)
    (kind : MemberKind) (now : Instant) (state : σ) (ledger : Ledger) :
    Pass.EnsuresAlways mayFail
      (do
        let space ← Pass.namespaceOf node.metadata
        (componentSet node space kind.component).reconcile kind (node.desired kind) now :
        Pass σ SetOutcome)
      (fun _ final => KeepsApart among space node ledger final) state ledger := by
  have follows : ∀ final : Ledger,
      (∃ calls, final.calls = ledger.calls ++ calls ∧
        ComponentCourse node kind.component kind (node.desired kind) now ledger.registry calls) ∧
      (∃ calls, final.calls = ledger.calls ++ calls ∧
        Chain mayFail ledger.registry calls final.registry) →
      KeepsApart among space node ledger final := by
    rintro final ⟨⟨calls, made, course⟩, ⟨calls', madeToo, chain⟩⟩
    obtain rfl := List.append_cancel_left (made.symm.trans madeToo)
    exact keepsApart_of_course exact included inSpace made course chain
  exact ((ensures_component node kind.component kind (node.desired kind) now state ledger).and
    (Pass.ensures_added _ state ledger)).mono (fun _ _ final => follows final)
      fun _ _ final => follows final

/-- A pass over a full node keeps to the members of the full node. -/
theorem ensures_converge_keepsApart
    (exact : ∀ other : FullNode, among other.name → other.SelectorsExact)
    (included : among node.name) (inSpace : node.metadata.namespaceName = some space)
    (now : Instant) (state : σ) (ledger : Ledger) :
    (converge node now : Pass σ Convergence).EnsuresAlways mayFail
      (fun _ final => KeepsApart among space node ledger final) state ledger := by
  have component : ∀ (kind : MemberKind) (state : σ) (ledger : Ledger),
      Pass.EnsuresAlways mayFail _ (fun _ final => KeepsApart among space node ledger final) state
        ledger :=
    fun kind => ensures_component_keepsApart exact included inSpace kind now
  refine Pass.ensures_bind ((component .volumeClaim state ledger).mono ?_ fun _ _ _ keeps => keeps)
  intro claims state middle first
  refine Pass.ensures_bind ((component .pod state middle).mono ?_ fun _ _ _ => first.trans)
  intro pods state final second
  exact Pass.ensures_pure _ (first.trans second)

/-! ## Runs of passes -/

/-- No object carries the labels of a full node. -/
def Unclaimed (among : String → Prop) (space : String) (registry : Registry) : Prop :=
  ∀ (node : FullNode) (kind : MemberKind) (name : String) (object : kind.kind.Object),
    among node.name → registry.find? kind.kind space name = some object →
      ¬ node.Finds kind object

/-- What carries the labels of a full node after a change carried them before, or a pass over
the full node asked for it, and the answer may have been lost. -/
def Accounted (among : String → Prop) (space : String) (history : List (FullNode × Call))
    (before after : Registry) : Prop :=
  ∀ (node : FullNode) (kind : MemberKind) (name : String) (object : kind.kind.Object),
    among node.name → after.find? kind.kind space name = some object → node.Finds kind object →
      (∃ stored, before.find? kind.kind space name = some stored ∧ node.Finds kind stored) ∨
      ∃ entry ∈ history, entry.1.name = node.name ∧ ∃ written,
        entry.2.request = .create kind.kind space written ∧
          (kind.kind.metadata written).name = some name

/-- Passes over full nodes of some names in one namespace, in any order and over any
versions of the full nodes, with changes in between that are none of theirs.  Each call is
kept with the full node that its pass was over. -/
inductive Shared (mayFail : Request → Prop) (among : String → Prop) (space : String)
    (start : Registry) : List (FullNode × Call) → Registry → Prop
  | start : Shared mayFail among space start [] start
  | pass {σ : Type} {state state' : σ} {node : FullNode} {now : Instant}
      {history : List (FullNode × Call)} {before : Registry}
      {result : Except (Halt PassError) Convergence} {final : Ledger}
      (earlier : Shared mayFail among space start history before) (included : among node.name)
      (inSpace : node.metadata.namespaceName = some space)
      (runs : (converge node now).Runs mayFail state (.opened before) result state' final) :
      Shared mayFail among space start (history ++ final.calls.map fun call => (node, call))
        final.registry
  | elsewhere {history : List (FullNode × Call)} {before after : Registry}
      (earlier : Shared mayFail among space start history before)
      (accounted : Accounted among space history before after) :
      Shared mayFail among space start history after

/-- Throughout a run all members keep their names, and each pass keeps to the members of its
full node. -/
theorem Shared.staysIn {start : Registry} {history : List (FullNode × Call)}
    (exact : ∀ other : FullNode, among other.name → other.SelectorsExact)
    (unclaimed : Unclaimed among space start)
    (shared : Shared mayFail among space start history after) :
    MembersNamed among space after ∧ ∀ entry ∈ history, StaysIn entry.1 space entry.2 := by
  induction shared with
  | start =>
      refine ⟨fun node kind name object included found finds => ?_, by simp⟩
      exact absurd finds (unclaimed node kind name object included found)
  | @pass σ state state' node now history before result final earlier included inSpace runs
      inductionHypothesis =>
      obtain ⟨named, stays⟩ := inductionHypothesis
      obtain ⟨namedAfter, calls, made, staysNow⟩ := Pass.EnsuresAlways.of_runs
        (ensures_converge_keepsApart exact included inSpace now state (.opened before)) runs named
      rw [Ledger.calls_opened, List.nil_append] at made
      refine ⟨namedAfter, fun entry member => ?_⟩
      rcases List.mem_append.1 member with past | new
      · exact stays entry past
      · obtain ⟨call, inCalls, rfl⟩ := List.mem_map.1 new
        exact staysNow call (made ▸ inCalls)
  | elsewhere earlier accounted inductionHypothesis =>
      obtain ⟨named, stays⟩ := inductionHypothesis
      refine ⟨fun node kind name object included found finds => ?_, stays⟩
      rcases accounted node kind name object included found finds with
        ⟨stored, there, findsStored⟩ | ⟨entry, member, sameName, written, creates, created⟩
      · exact named node kind name stored included there findsStored
      · have place : entry.2.request.place? = some (kind.kind, space, name) := by
          rw [creates, Request.place?, created, Option.getD_some]
        exact (stays entry member _ _ _ place).2.of_name_eq sameName

/-- The names of pods and of volume claims are those of one full node and one ordinal, and
full nodes do not interfere: whatever their passes create, delete or patch, they aim at
nothing that a full node of another name desires or has created. -/
theorem fullNodes_keep_apart (mayFail : Request → Prop) (among : String → Prop) (space : String)
    (exact : ∀ node : FullNode, among node.name → node.SelectorsExact) :
    (∀ (node other : FullNode) (left right : Int), 0 ≤ left → 0 ≤ right →
      (node.podName left = other.podName right → node.name = other.name ∧ left = right) ∧
      (node.claimName left = other.claimName right → node.name = other.name ∧ left = right)) ∧
    ∀ (start after : Registry) (history : List (FullNode × Call)),
      Unclaimed among space start → Shared mayFail among space start history after →
        ∀ entry ∈ history, ∀ kind space' name,
          entry.2.request.place? = some (kind, space', name) →
            (∀ other : FullNode, other.name ≠ entry.1.name → ¬ other.Desires kind space' name) ∧
            ∀ past ∈ history, past.1.name ≠ entry.1.name →
              ∀ object, past.2.request = .create kind space' object →
                (kind.metadata object).name ≠ some name := by
  constructor
  · intro node other left right leftFits rightFits
    obtain ⟨left, rfl⟩ := Int.eq_ofNat_of_zero_le leftFits
    obtain ⟨right, rfl⟩ := Int.eq_ofNat_of_zero_le rightFits
    exact ⟨fun same => (FullNode.podName_eq_iff.1 same).imp_right (congrArg Nat.cast),
      fun same => (FullNode.claimName_eq_iff.1 same).imp_right (congrArg Nat.cast)⟩
  · intro start after history unclaimed shared entry member kind space' name aimed
    obtain ⟨_, stays⟩ := shared.staysIn exact unclaimed
    obtain ⟨_, names⟩ := stays entry member kind space' name aimed
    constructor
    · intro other different desires
      exact different (desires.names.name_eq names)
    · intro past inHistory different object creates named
      have place : past.2.request.place? = some (kind, space', name) := by
        rw [creates, Request.place?, named, Option.getD_some]
      exact different ((stays past inHistory kind space' name place).2.name_eq names)

/-! ## Two full nodes with names alike -/

/-- A full node with the name of a pod of another one. -/
def namesakeNode : FullNode :=
  let node := FullNode.sample 1 .empty
  { node with metadata := { node.metadata with name := some "cosmoshub-0" } }

/-- A pass over a full node in which no call fails. -/
def passOver (node : FullNode) (registry : Registry) :
    (Except (Halt PassError) Convergence × Unit) × Ledger :=
  ((converge node .earliest : Pass Unit Convergence).run.run () : Program _).run
    (Program.serve fun _ => false) (.opened registry)

theorem runs_passOver (node : FullNode) (registry : Registry) :
    (converge node .earliest : Pass Unit Convergence).Runs (fun _ => False) () (.opened registry)
      (passOver node registry).1.1 () (passOver node registry).2 :=
  Program.runs_run (fun _ fails => nomatch fails) _ _

/-- One full node creates a pod with the name of the other, which creates its own and leaves
that one alone. -/
theorem namesake_keeps_apart :
    ∃ (history : List (FullNode × Call)) (after : Registry),
      Shared (fun _ => False) (· ∈ ["cosmoshub", "cosmoshub-0"]) "default" .empty history after ∧
      (∃ entry ∈ history, entry.1.name = "cosmoshub" ∧
        entry.2.request.place? = some (.pod, "default", "cosmoshub-0")) ∧
      (∃ entry ∈ history, entry.1.name = "cosmoshub-0" ∧
        entry.2.request.place? = some (.pod, "default", "cosmoshub-0-0")) ∧
      ∀ entry ∈ history, entry.1.name = "cosmoshub-0" →
        entry.2.request.place? ≠ some (.pod, "default", "cosmoshub-0") := by
  let node := FullNode.sample 1 .empty
  have first : Shared (fun _ => False) (· ∈ ["cosmoshub", "cosmoshub-0"]) "default" .empty _ _ :=
    .pass .start (by decide) rfl (runs_passOver node .empty)
  have both := Shared.pass first (by decide) rfl
    (runs_passOver namesakeNode (passOver node .empty).2.registry)
  refine ⟨_, _, both, by decide +kernel, by decide +kernel, ?_⟩
  intro entry member named aimed
  have exact : ∀ node : FullNode, node.name ∈ ["cosmoshub", "cosmoshub-0"] →
      node.SelectorsExact := by
    intro other included
    refine FullNode.selectorsExact_of_plain ?_
    rcases List.mem_pair.1 included with named | named <;> rw [named] <;> decide
  have unclaimed : Unclaimed (· ∈ ["cosmoshub", "cosmoshub-0"]) "default" .empty :=
    fun _ _ _ _ _ found => nomatch found
  have desires : node.Desires .pod "default" "cosmoshub-0" :=
    ⟨rfl, .pod, rfl, node.newPod 0, List.mem_cons_self, rfl⟩
  refine ((fullNodes_keep_apart (fun _ => False) _ "default" exact).2 _ _ _ unclaimed both entry
    member _ _ _ aimed).1 node ?_ desires
  rw [named]
  decide

end NodeFleet.Fleet
