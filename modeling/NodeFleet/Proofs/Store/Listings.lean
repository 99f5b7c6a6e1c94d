import Mathlib.Data.List.Sort
import NodeFleet.Proofs.Store.Unfailing

/-!
# What is listed

A listing comes in the order of names, so its members determine it.  After deletions the objects
that remain are listed as before, those among them that are being deleted too.
-/

namespace NodeFleet.Store

/-- Objects that come in the order of their names, each name at most once. -/
def Kind.Ascending (kind : Kind) (objects : List kind.Object) : Prop :=
  objects.Pairwise fun earlier later =>
    (kind.metadata earlier).shownName < (kind.metadata later).shownName

/-- What is found at a place after a deletion: what was there, nothing, or what was there in the
course of its deletion. -/
inductive Lingers {kind : Kind} : Option kind.Object → Option kind.Object → Prop
  | stays (object : Option kind.Object) : Lingers object object
  | gone (object : Option kind.Object) : Lingers object none
  | terminates (object : kind.Object) (time) : Lingers (some object) (some (kind.doomed time object))

variable {mayFail : Request → Prop} {kind : Kind} {space selector name : String}
  {before after : Registry}

theorem lingers_of_delete {answer : Answer (.delete kind space name)}
    (served : Serves mayFail (.delete kind space name) before answer after) :
    Lingers (before.find? kind space name) (after.find? kind space name) := by
  cases served with
  | removed there sets =>
      rw [sets.here]
      exact .gone _
  | doomed there sets =>
      rw [sets.here, there]
      exact .terminates _ _
  | nothingToDelete => exact .stays _
  | failed => exact .stays _
  | unanswered => exact .stays _

namespace Registry

theorem ascending_selected (registry : Registry) (kind : Kind) (space selector : String) :
    kind.Ascending (registry.selected kind space selector) := by
  refine List.Pairwise.filter _ ?_
  rw [KeyMap.values, List.pairwise_map]
  have shown : ∀ entry ∈ (registry.objects kind space).entries,
      (kind.metadata entry.2).shownName = entry.1 := fun entry member =>
    (registry.placed kind space entry.1 entry.2
      (((registry.objects kind space).find?_eq_some_iff_mem entry.1 entry.2).2 member)).shownName_eq
  refine (registry.objects kind space).increasing.imp_of_mem fun inEarlier inLater below => ?_
  rw [shown _ inEarlier, shown _ inLater]
  exact below

/-- A listing is determined by its members. -/
theorem selected_eq_of_mem_iff {registry : Registry} {objects : List kind.Object}
    (ascending : kind.Ascending objects)
    (same : ∀ object, object ∈ registry.selected kind space selector ↔ object ∈ objects) :
    registry.selected kind space selector = objects :=
  List.Pairwise.eq_of_mem_iff (registry.ascending_selected kind space selector) ascending same

/-- What remains of objects after some of them have been deleted. -/
def remaining (registry : Registry) (kind : Kind) (space : String) (objects : List kind.Object) :
    List kind.Object :=
  objects.filterMap fun object => registry.find? kind space (kind.metadata object).shownName

theorem names_remaining (registry : Registry) (kind : Kind) (space : String)
    (objects : List kind.Object) :
    (registry.remaining kind space objects).map (fun object => (kind.metadata object).shownName) =
      (objects.map fun object => (kind.metadata object).shownName).filter fun name =>
        (registry.find? kind space name).isSome := by
  induction objects with
  | nil => rfl
  | cons object objects inductionHypothesis =>
      rw [remaining] at inductionHypothesis ⊢
      rw [List.map_cons, List.filterMap_cons]
      cases found : registry.find? kind space (kind.metadata object).shownName with
      | none =>
          rw [List.filter_cons_of_neg (by simp [found])]
          exact inductionHypothesis
      | some remains =>
          rw [List.filter_cons_of_pos (by simp [found]), ← inductionHypothesis]
          exact congrArg (· :: _) (isPlaced_of_find? found).shownName_eq

/-- Where objects have at most been deleted, what remains of those listed is listed. -/
theorem selected_of_lingers
    (lingers : ∀ name, Lingers (before.find? kind space name) (after.find? kind space name)) :
    after.selected kind space selector =
      after.remaining kind space (before.selected kind space selector) := by
  -- Whatever is found carries its name, and the labels that it had.
  have traced : ∀ {name} {object : kind.Object}, after.find? kind space name = some object →
      ∃ earlier, before.find? kind space name = some earlier ∧
        (kind.metadata earlier).labelMap = (kind.metadata object).labelMap := by
    intro name object found
    have course := lingers name
    rw [found] at course
    generalize before.find? kind space name = stood at course
    cases course with
    | stays => exact ⟨object, rfl, rfl⟩
    | terminates earlier time =>
        exact ⟨earlier, rfl, by rw [Kind.doomed, Kind.metadata_withMetadata]; rfl⟩
  refine selected_eq_of_mem_iff ?_ fun object => ?_
  · refine List.pairwise_filterMap.2 ((before.ascending_selected kind space selector).imp
      fun below first isFirst second isSecond => ?_)
    rw [(isPlaced_of_find? isFirst).shownName_eq, (isPlaced_of_find? isSecond).shownName_eq]
    exact below
  · rw [mem_selected_iff, remaining, List.mem_filterMap]
    constructor
    · rintro ⟨found, selects⟩
      obtain ⟨earlier, stood, sameLabels⟩ := traced found
      have sameName := (isPlaced_of_find? stood).shownName_eq
      refine ⟨earlier, before.mem_selected_iff.2 ⟨?_, sameLabels ▸ selects⟩, ?_⟩
      · rw [sameName]
        exact stood
      · rw [sameName]
        exact found
    · rintro ⟨earlier, listed, found⟩
      obtain ⟨stood, selects⟩ := before.mem_selected_iff.1 listed
      obtain ⟨same, stoodToo, sameLabels⟩ := traced found
      obtain rfl := Option.some.inj (stood.symm.trans stoodToo)
      refine ⟨?_, sameLabels ▸ selects⟩
      rw [(isPlaced_of_find? found).shownName_eq]
      exact found

end Registry

end NodeFleet.Store
