import Mathlib.Logic.Function.Basic
import NodeFleet.Proofs.Entries
import NodeFleet.Store.Cluster

/-!
# What an API server holds

A registry holds typed objects, each at the place that its kind, namespace and
name give it.  Writes are described by what look-ups find afterwards: a write
changes at most one place.
-/

namespace NodeFleet.Store

open Resource

namespace Kind

/-- The object with other metadata. -/
def withMetadata : (kind : Kind) → ObjectMeta → kind.Object → kind.Object
  | .pod, metadata, object => { (object : Pod) with metadata := metadata }
  | .volumeClaim, metadata, object => { (object : VolumeClaim) with metadata := metadata }
  | .fullNode, metadata, object => { (object : FullNode) with metadata := metadata }
  | .scheduler, metadata, object => { (object : Scheduler) with metadata := metadata }
  | .volumeSnapshot, metadata, object => { (object : VolumeSnapshot) with metadata := metadata }

/-- The stored object with the status of a written one. -/
def withStatusOf : (kind : Kind) → (written stored : kind.Object) → kind.Object
  | .pod, written, stored => { (stored : Pod) with status := Pod.status written }
  | .volumeClaim, written, stored =>
      { (stored : VolumeClaim) with status := VolumeClaim.status written }
  | .fullNode, written, stored => { (stored : FullNode) with status := FullNode.status written }
  | .scheduler, written, stored =>
      { (stored : Scheduler) with status := Scheduler.status written }
  | .volumeSnapshot, written, stored =>
      { (stored : VolumeSnapshot) with status := VolumeSnapshot.status written }

@[simp] theorem metadata_withMetadata (kind : Kind) (metadata : ObjectMeta)
    (object : kind.Object) :
    kind.metadata (kind.withMetadata metadata object) = metadata := by
  cases kind <;> rfl

/-- An object says of itself where it stands. -/
structure IsPlaced (kind : Kind) (space name : String) (object : kind.Object) : Prop where
  named : (kind.metadata object).name = some name
  inSpace : (kind.metadata object).namespaceName = some space

theorem IsPlaced.shownName_eq {kind : Kind} {space name : String} {object : kind.Object}
    (placed : kind.IsPlaced space name object) :
    (kind.metadata object).shownName = name := by
  simp [ObjectMeta.shownName, placed.named]

end Kind

/-- The objects that an API server holds, by kind, namespace and name, and the
definitions it knows. -/
structure Registry where
  objects : (kind : Kind) → String → KeyMap kind.Object
  definitions : List String
  placed : ∀ (kind : Kind) (space name : String) (object : kind.Object),
    (objects kind space).find? name = some object → kind.IsPlaced space name object

namespace Registry

def find? (registry : Registry) (kind : Kind) (space name : String) : Option kind.Object :=
  (registry.objects kind space).find? name

/-- The objects of a kind and namespace that carry the labels of a selector, in
the order of their names. -/
def selected (registry : Registry) (kind : Kind) (space selector : String) :
    List kind.Object :=
  (registry.objects kind space).values.filter fun object =>
    Cluster.selects selector (kind.metadata object).labelMap.find?

theorem isPlaced_of_find? {registry : Registry} {kind : Kind} {space name : String}
    {object : kind.Object}
    (found : registry.find? kind space name = some object) :
    kind.IsPlaced space name object :=
  registry.placed kind space name object found

theorem mem_selected_iff (registry : Registry) {kind : Kind} {space selector : String}
    {object : kind.Object} :
    object ∈ registry.selected kind space selector ↔
      registry.find? kind space (kind.metadata object).shownName = some object ∧
        Cluster.selects selector (kind.metadata object).labelMap.find? = true := by
  simp only [selected, List.mem_filter, KeyMap.mem_values_iff]
  refine and_congr_left fun _ => ⟨?_, fun found => ⟨_, found⟩⟩
  rintro ⟨name, found⟩
  have placed : kind.IsPlaced space name object := isPlaced_of_find? found
  rw [placed.shownName_eq]
  exact found

/-- What is selected depends on what is found. -/
theorem selected_eq {before after : Registry} {kind : Kind} {space : String}
    (same : ∀ name, after.find? kind space name = before.find? kind space name)
    (selector : String) :
    after.selected kind space selector = before.selected kind space selector := by
  have sameObjects : after.objects kind space = before.objects kind space :=
    KeyMap.eq_of_find?_eq same
  rw [selected, selected, sameObjects]

theorem nodup_selected (registry : Registry) (kind : Kind) (space selector : String) :
    ((registry.selected kind space selector).map
      fun object => (kind.metadata object).shownName).Nodup := by
  have named :
      (registry.objects kind space).values.map (fun object => (kind.metadata object).shownName) =
        (registry.objects kind space).keys := by
    simp only [KeyMap.values, KeyMap.keys, List.map_map]
    refine List.map_congr_left fun entry member => ?_
    have found := ((registry.objects kind space).find?_eq_some_iff_mem entry.1 entry.2).2 member
    exact (registry.placed kind space entry.1 entry.2 found).shownName_eq
  refine List.Nodup.sublist (List.Sublist.map _ List.filter_sublist) ?_
  rw [named]
  exact KeyMap.keys_nodup _

/-! ## Writes -/

/-- One registry has a given object, or none, at a place, and is as the other one
everywhere else. -/
structure Sets (before : Registry) (kind : Kind) (space name : String)
    (object : Option kind.Object) (after : Registry) : Prop where
  here : after.find? kind space name = object
  elsewhere : ∀ (kind' : Kind) (space' name' : String),
    (kind', space', name') ≠ (kind, space, name) →
      after.find? kind' space' name' = before.find? kind' space' name'
  definitions : after.definitions = before.definitions

theorem Sets.find?_eq_of_ne {before after : Registry} {kind kind' : Kind} {space name : String}
    {object : Option kind.Object} (sets : before.Sets kind space name object after)
    (other : kind' ≠ kind) (space' name' : String) :
    after.find? kind' space' name' = before.find? kind' space' name' :=
  sets.elsewhere kind' space' name' fun same => other (congrArg Prod.fst same)

/-- The map with a value for a key, or with none. -/
def assign {α : Type} (map : KeyMap α) (key : String) : Option α → KeyMap α
  | some value => map.insert key value
  | none => map.erase key

theorem find?_assign {α : Type} (map : KeyMap α) (key other : String) (value : Option α) :
    (assign map key value).find? other = if key = other then value else map.find? other := by
  cases value with
  | none => exact KeyMap.find?_erase map key other
  | some value => exact KeyMap.find?_insert map key other value

/-- The objects once a place has been given an object or none. -/
def objectsWith (registry : Registry) (kind : Kind) (space name : String)
    (object : Option kind.Object) : (kind : Kind) → String → KeyMap kind.Object :=
  Function.update registry.objects kind
    (Function.update (registry.objects kind) space
      (assign (registry.objects kind space) name object))

theorem find?_objectsWith_self (registry : Registry) (kind : Kind) (space name : String)
    (object : Option kind.Object) :
    (registry.objectsWith kind space name object kind space).find? name = object := by
  simp [objectsWith, find?_assign]

theorem find?_objectsWith_of_ne (registry : Registry) {kind kind' : Kind}
    {space name space' name' : String} (object : Option kind.Object)
    (different : (kind', space', name') ≠ (kind, space, name)) :
    (registry.objectsWith kind space name object kind' space').find? name' =
      registry.find? kind' space' name' := by
  unfold objectsWith find?
  by_cases sameKind : kind' = kind
  · subst sameKind
    by_cases sameSpace : space' = space
    · subst sameSpace
      have otherName : name ≠ name' := fun same => different (by rw [same])
      simp [find?_assign, otherName]
    · simp [sameSpace]
  · simp [sameKind]

/-- The registry with a place given an object or none. -/
def set (registry : Registry) (kind : Kind) (space name : String) (object : Option kind.Object)
    (placed : ∀ given, object = some given → kind.IsPlaced space name given) : Registry where
  objects := registry.objectsWith kind space name object
  definitions := registry.definitions
  placed := by
    intro kind' space' name' given found
    by_cases same : (kind', space', name') = (kind, space, name)
    · obtain ⟨rfl, rfl, rfl⟩ : kind' = kind ∧ space' = space ∧ name' = name := by
        simpa using same
      rw [find?_objectsWith_self] at found
      exact placed given found
    · rw [find?_objectsWith_of_ne registry object same] at found
      exact registry.placed kind' space' name' given found

theorem sets_set (registry : Registry) (kind : Kind) (space name : String)
    (object : Option kind.Object)
    (placed : ∀ given, object = some given → kind.IsPlaced space name given) :
    registry.Sets kind space name object (registry.set kind space name object placed) where
  here := find?_objectsWith_self registry kind space name object
  elsewhere := fun _ _ _ different => find?_objectsWith_of_ne registry object different
  definitions := rfl

instance (kind : Kind) (space name : String) (object : kind.Object) :
    Decidable (kind.IsPlaced space name object) :=
  decidable_of_iff ((kind.metadata object).name = some name ∧
      (kind.metadata object).namespaceName = some space)
    ⟨fun ⟨named, inSpace⟩ => ⟨named, inSpace⟩, fun placed => ⟨placed.named, placed.inSpace⟩⟩

/-- The registry with an object put at a place, if it says that it stands there. -/
def put (registry : Registry) (kind : Kind) (space name : String) (object : kind.Object) :
    Registry :=
  if placed : kind.IsPlaced space name object then
    registry.set kind space name (some object) fun _ same => Option.some.inj same ▸ placed
  else registry

def drop (registry : Registry) (kind : Kind) (space name : String) : Registry :=
  registry.set kind space name none fun _ same => nomatch same

theorem sets_put (registry : Registry) {kind : Kind} {space name : String}
    {object : kind.Object} (placed : kind.IsPlaced space name object) :
    registry.Sets kind space name (some object) (registry.put kind space name object) := by
  rw [put, dif_pos placed]
  exact registry.sets_set kind space name (some object) _

theorem sets_drop (registry : Registry) (kind : Kind) (space name : String) :
    registry.Sets kind space name none (registry.drop kind space name) :=
  registry.sets_set kind space name none _

def empty : Registry where
  objects := fun _ _ => .empty
  definitions := []
  placed := fun _ _ _ _ found => nomatch found

/-- The registry with objects of a kind put at the places that they say they have in a
namespace. -/
def fill (base : Registry) (kind : Kind) (space : String) (objects : List kind.Object) :
    Registry :=
  objects.foldr (fun object registry =>
    registry.put kind space (kind.metadata object).shownName object) base

theorem find?_fill_of_ne (base : Registry) {kind other : Kind} (different : other ≠ kind)
    (space : String) (objects : List kind.Object) (space' name : String) :
    (base.fill kind space objects).find? other space' name = base.find? other space' name := by
  induction objects with
  | nil => rfl
  | cons first objects inductionHypothesis =>
      rw [← inductionHypothesis, fill, List.foldr_cons, put]
      split
      · exact (sets_set _ kind space _ _ _).find?_eq_of_ne different space' name
      · rfl

/-- A registry that holds nothing of a kind and namespace holds just the objects that it is filled
with. -/
theorem find?_fill_iff (base : Registry) (kind : Kind) (space : String)
    (vacant : ∀ name, base.find? kind space name = none) (objects : List kind.Object)
    (placed : ∀ object ∈ objects,
      kind.IsPlaced space (kind.metadata object).shownName object)
    (nodup : (objects.map fun object => (kind.metadata object).shownName).Nodup)
    (name : String) (object : kind.Object) :
    (base.fill kind space objects).find? kind space name = some object ↔
      object ∈ objects ∧ (kind.metadata object).shownName = name := by
  induction objects with
  | nil => simp [fill, vacant]
  | cons first objects inductionHypothesis =>
      obtain ⟨firstPlaced, restPlaced⟩ := List.forall_mem_cons.1 placed
      obtain ⟨unused, restNodup⟩ := List.nodup_cons.1 nodup
      have sets := (base.fill kind space objects).sets_put firstPlaced
      change ((base.fill kind space objects).put kind space _ first).find? kind space name = _ ↔ _
      by_cases here : name = (kind.metadata first).shownName
      · subst here
        rw [sets.here, Option.some.injEq, List.mem_cons]
        constructor
        · rintro rfl
          exact ⟨Or.inl rfl, rfl⟩
        · rintro ⟨rfl | inRest, same⟩
          · rfl
          · exact absurd (List.mem_map.2 ⟨object, inRest, same⟩) unused
      · rw [sets.elsewhere kind space name fun same => here (by simpa using same),
          inductionHypothesis restPlaced restNodup, List.mem_cons]
        refine and_congr_left fun same => ⟨Or.inr, ?_⟩
        rintro (rfl | inRest)
        · exact absurd same.symm here
        · exact inRest

end Registry

end NodeFleet.Store
