import NodeFleet.Proofs.Fleet.DesiredClaims

/-!
# Names and labels of members

A full node finds its members by their labels, and creates, patches and deletes them by
their names.  Neither is ever that of a member of another full node.
-/

namespace NodeFleet.Fleet.MemberKind

open Resource

/-- The component that the members of a kind are. -/
def component : MemberKind → String
  | .pod => FullNode.podComponent
  | .volumeClaim => FullNode.claimComponent

theorem kind_injective {kind other : MemberKind} (same : kind.kind = other.kind) :
    kind = other := by
  cases kind <;> cases other <;> first | rfl | cases same

@[simp] theorem metadata_withOwner_name (owner : OwnerReference) (kind : MemberKind)
    (member : kind.kind.Object) :
    (kind.kind.metadata (kind.withOwner owner member)).name = (kind.kind.metadata member).name := by
  cases kind <;> rfl

@[simp] theorem metadata_withOwner_labels (owner : OwnerReference) (kind : MemberKind)
    (member : kind.kind.Object) :
    (kind.kind.metadata (kind.withOwner owner member)).labels =
      (kind.kind.metadata member).labels := by
  cases kind <;> rfl

end NodeFleet.Fleet.MemberKind

namespace NodeFleet.Resource.FullNode

open Fleet Store

variable {node other : FullNode}

/-! ## Names -/

/-- The members that a full node desires. -/
def desired (node : FullNode) : (kind : MemberKind) → List kind.kind.Object
  | .pod => node.desiredPods
  | .volumeClaim => node.desiredClaims

def memberName (node : FullNode) : MemberKind → Int → String
  | .pod => node.podName
  | .volumeClaim => node.claimName

theorem memberName_eq_iff {kind : MemberKind} {left right : Nat} :
    node.memberName kind left = other.memberName kind right ↔
      node.name = other.name ∧ left = right := by
  cases kind with
  | pod => exact podName_eq_iff
  | volumeClaim => exact claimName_eq_iff

/-- A desired member has the name of an ordinal, and the labels of its component. -/
theorem exists_ordinal_of_desired {kind : MemberKind} {member : kind.kind.Object}
    (wanted : member ∈ node.desired kind) :
    ∃ ordinal : Nat, (kind.kind.metadata member).name = some (node.memberName kind ordinal) ∧
      (kind.kind.metadata member).labels = some (node.labelsFor kind.component) := by
  cases kind with
  | pod =>
      obtain ⟨ordinal, _, rfl, _⟩ := (node.mem_desiredPods_iff member).1 wanted
      exact ⟨ordinal, rfl, rfl⟩
  | volumeClaim =>
      obtain ⟨ordinal, _, rfl⟩ := (node.mem_desiredClaims_iff member).1 wanted
      exact ⟨ordinal, rfl, rfl⟩

/-- A full node desires a member at a place. -/
def Desires (node : FullNode) (kind : Kind) (space name : String) : Prop :=
  node.metadata.namespaceName = some space ∧ ∃ component : MemberKind, kind = component.kind ∧
    ∃ member ∈ node.desired component, (component.kind.metadata member).shownName = name

/-- A place has the name of a member of a full node, at some ordinal. -/
def Names (node : FullNode) (kind : Kind) (name : String) : Prop :=
  ∃ component : MemberKind, kind = component.kind ∧
    ∃ ordinal : Nat, name = node.memberName component ordinal

theorem names_of_named {kind : MemberKind} {member : kind.kind.Object} {name : String}
    (wanted : member ∈ node.desired kind) (named : (kind.kind.metadata member).name = some name) :
    node.Names kind.kind name := by
  obtain ⟨ordinal, sameName, _⟩ := exists_ordinal_of_desired wanted
  exact ⟨kind, rfl, ordinal, Option.some.inj (named.symm.trans sameName)⟩

theorem named_of_desired {kind : MemberKind} {member : kind.kind.Object}
    (wanted : member ∈ node.desired kind) :
    (kind.kind.metadata member).name = some (kind.kind.metadata member).shownName := by
  obtain ⟨ordinal, named, _⟩ := exists_ordinal_of_desired wanted
  simp [ObjectMeta.shownName, named]

theorem desired_nodup (node : FullNode) (kind : MemberKind) :
    ((node.desired kind).map fun wanted => (kind.kind.metadata wanted).shownName).Nodup := by
  cases kind with
  | pod => exact node.desiredPods_nodup
  | volumeClaim => exact node.desiredClaims_nodup

theorem hasPosition_of_wanted {kind : MemberKind} {member : kind.kind.Object}
    (wanted : member ∈ node.desired kind)
    (replicasFit : node.spec.replicas ≤ Text.Bounds.int32.high) :
    HasPosition kind.kind.metadata member := by
  cases kind with
  | pod => exact hasPosition_of_desired wanted replicasFit
  | volumeClaim => exact hasPosition_of_desiredClaim wanted replicasFit

theorem Desires.names {kind : Kind} {space name : String} (desires : node.Desires kind space name) :
    node.Names kind name := by
  obtain ⟨_, component, rfl, member, wanted, rfl⟩ := desires
  exact names_of_named wanted (named_of_desired wanted)

/-- Full nodes whose members share a name have the same name. -/
theorem Names.name_eq {kind : Kind} {name : String} (names : node.Names kind name)
    (namesToo : other.Names kind name) : node.name = other.name := by
  obtain ⟨component, rfl, ordinal, rfl⟩ := names
  obtain ⟨component', sameKind, ordinal', sameName⟩ := namesToo
  obtain rfl := MemberKind.kind_injective sameKind
  exact (memberName_eq_iff.1 sameName).1

theorem Names.of_name_eq {kind : Kind} {name : String} (names : node.Names kind name)
    (same : node.name = other.name) : other.Names kind name := by
  obtain ⟨component, rfl, ordinal, rfl⟩ := names
  exact ⟨component, rfl, ordinal, memberName_eq_iff.2 ⟨same, rfl⟩⟩

/-! ## Labels -/

/-- An object carries the labels by which a full node finds its members of a kind. -/
def Finds (node : FullNode) (kind : MemberKind) (object : kind.kind.Object) : Prop :=
  Cluster.selects (node.componentSelector kind.component)
    (kind.kind.metadata object).labelMap.find? = true

theorem Finds.of_labels_eq {kind : MemberKind} {object stored : kind.kind.Object}
    (same : (kind.kind.metadata object).labels = (kind.kind.metadata stored).labels)
    (finds : node.Finds kind object) : node.Finds kind stored := by
  unfold Finds ObjectMeta.labelMap at finds ⊢
  rwa [← same]

/-- A full node finds the members that it desires, if selectors can hold its name. -/
theorem finds_of_desired (plain : ',' ∉ node.name.toList) {kind : MemberKind}
    {member : kind.kind.Object} (wanted : member ∈ node.desired kind) : node.Finds kind member := by
  obtain ⟨ordinal, _, labelled⟩ := exists_ordinal_of_desired wanted
  unfold Finds ObjectMeta.labelMap
  rw [labelled, Option.getD_some]
  exact selects_labelsFor plain (by cases kind <;> decide)

/-- The selectors of a full node are evaluated exactly: they select what carries the three
labels that they are made of, and nothing else. -/
def SelectorsExact (node : FullNode) : Prop :=
  ∀ (kind : MemberKind) (carried : String → Option String),
    Cluster.selects (node.componentSelector kind.component) carried = true ↔
      carried componentKey = some kind.component ∧ carried instanceKey = some node.name ∧
        carried nameKey = some "fullnode"

theorem selectorsExact_of_plain (plain : ',' ∉ node.name.toList) : node.SelectorsExact := by
  intro kind carried
  exact selects_componentSelector_iff plain (by cases kind <;> decide) carried

/-- What carries the labels of a full node is found by no full node of another name. -/
theorem Finds.name_eq {kind : MemberKind} {object : kind.kind.Object} {component : String}
    (exact : other.SelectorsExact)
    (labelled : (kind.kind.metadata object).labels = some (node.labelsFor component))
    (finds : other.Finds kind object) : other.name = node.name := by
  have instanceOther : instanceKey ≠ componentKey ∧ instanceKey ≠ managedByKey := by decide
  obtain ⟨_, carried, _⟩ := (exact kind _).1 finds
  rw [ObjectMeta.labelMap, labelled, Option.getD_some, find?_labelsFor, if_neg instanceOther.1,
    if_neg instanceOther.2, if_pos rfl] at carried
  exact (Option.some.inj carried).symm

end NodeFleet.Resource.FullNode
