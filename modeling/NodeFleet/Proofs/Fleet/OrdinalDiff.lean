import Mathlib.Data.List.Nodup
import Mathlib.Data.List.Perm.Basic
import NodeFleet.Fleet.OrdinalDiff

/-!
# What a difference says

The difference between the live members and the desired ones names every member
that is missing, changed or surplus, each once and in the order of positions.
There is a difference exactly when both sides have distinct names and readable
positions.
-/

namespace NodeFleet.Fleet

open Resource Text

variable {α : Type} {metadata : α → ObjectMeta}

/-- The position that an object states; an object that states none stands at
zero. -/
def positionOf (metadata : α → ObjectMeta) (object : α) : Int :=
  match readWhole .int64 ((metadata object).ordinalText?.getD "").toList with
  | .ok position => position
  | .error _ => 0

/-- Whether an object states its position. -/
def HasPosition (metadata : α → ObjectMeta) (object : α) : Prop :=
  ∃ position, readWhole .int64 ((metadata object).ordinalText?.getD "").toList = .ok position

theorem hasPosition_of_ordinalText?_eq {left right : α}
    (same : (metadata left).ordinalText? = (metadata right).ordinalText?)
    (readable : HasPosition metadata right) : HasPosition metadata left := by
  unfold HasPosition
  rwa [same]

/-- Whether a placed object stands under its own name and position. -/
structure Placed.Fits (metadata : α → ObjectMeta) (placed : Placed α) : Prop where
  name_eq : placed.name = (metadata placed.object).shownName
  ordinal_eq : placed.ordinal = positionOf metadata placed.object

theorem fits_of_place {object : α} {placed : Placed α}
    (stands : place metadata object = .ok placed) :
    placed.object = object ∧ placed.Fits metadata ∧ HasPosition metadata object := by
  simp only [place] at stands
  split at stands
  · rename_i position reads
    obtain rfl := Except.ok.inj stands
    exact ⟨rfl, ⟨rfl, by simp [positionOf, reads]⟩, position, reads⟩
  · cases stands

theorem exists_place {object : α} (readable : HasPosition metadata object) :
    ∃ placed, place metadata object = .ok placed := by
  obtain ⟨position, reads⟩ := readable
  exact ⟨⟨(metadata object).shownName, position, object⟩, by simp only [place, reads]⟩

theorem placeAll_cons_eq_ok_iff {side : String} {taken : List String} {object : α}
    {objects : List α} {placed : List (Placed α)} :
    placeAll metadata side taken (object :: objects) = .ok placed ↔
      ∃ head rest, place metadata object = .ok head ∧ head.name ∉ taken ∧
        placeAll metadata side (head.name :: taken) objects = .ok rest ∧
        placed = head :: rest := by
  cases first : place metadata object with
  | error fault => simp [placeAll, first, bind, Except.bind]
  | ok head =>
      by_cases known : head.name ∈ taken
      · simp [placeAll, first, known, bind, Except.bind, throw, throwThe, MonadExceptOf.throw]
      · cases others : placeAll metadata side (head.name :: taken) objects with
        | error fault => simp [placeAll, first, known, others, bind, Except.bind]
        | ok rest =>
            simp [placeAll, first, known, others, bind, Except.bind, pure, Except.pure, eq_comm]

/-! ## One side -/

/-- The objects of one side, placed. -/
structure Sided (metadata : α → ObjectMeta) (taken : List String) (objects : List α)
    (placed : List (Placed α)) : Prop where
  objects_eq : placed.map (·.object) = objects
  fits : ∀ member ∈ placed, member.Fits metadata
  nodup : (placed.map (·.name)).Nodup
  fresh : ∀ member ∈ placed, member.name ∉ taken
  readable : ∀ object ∈ objects, HasPosition metadata object

theorem sided_of_placeAll {side : String} {taken : List String} {objects : List α}
    {placed : List (Placed α)}
    (stand : placeAll metadata side taken objects = .ok placed) :
    Sided metadata taken objects placed := by
  induction objects generalizing taken placed with
  | nil =>
      obtain rfl := Except.ok.inj stand
      exact ⟨rfl, by simp, by simp, by simp, by simp⟩
  | cons object objects inductionHypothesis =>
      obtain ⟨head, rest, first, known, others, rfl⟩ := placeAll_cons_eq_ok_iff.1 stand
      obtain ⟨headObject, headFits, headReadable⟩ := fits_of_place first
      have sided := inductionHypothesis others
      have unused : head.name ∉ rest.map (·.name) := by
        intro member
        obtain ⟨other, inRest, same⟩ := List.mem_map.1 member
        exact sided.fresh other inRest (by rw [same]; exact List.mem_cons_self)
      refine ⟨?_, ?_, ?_, ?_, ?_⟩
      · rw [List.map_cons, headObject, sided.objects_eq]
      · exact List.forall_mem_cons.2 ⟨headFits, sided.fits⟩
      · exact List.nodup_cons.2 ⟨unused, sided.nodup⟩
      · refine List.forall_mem_cons.2 ⟨known, fun member inRest inTaken => ?_⟩
        exact sided.fresh member inRest (List.mem_cons_of_mem _ inTaken)
      · exact List.forall_mem_cons.2 ⟨headReadable, sided.readable⟩

theorem exists_placeAll (side : String) {taken : List String} {objects : List α}
    (readable : ∀ object ∈ objects, HasPosition metadata object)
    (nodup : (objects.map fun object => (metadata object).shownName).Nodup)
    (fresh : ∀ object ∈ objects, (metadata object).shownName ∉ taken) :
    ∃ placed, placeAll metadata side taken objects = .ok placed := by
  induction objects generalizing taken with
  | nil => exact ⟨[], rfl⟩
  | cons object objects inductionHypothesis =>
      obtain ⟨head, stands⟩ := exists_place (readable object List.mem_cons_self)
      obtain ⟨headObject, headFits, -⟩ := fits_of_place stands
      have headName : head.name = (metadata object).shownName := by
        rw [headFits.name_eq, headObject]
      obtain ⟨unused, restNodup⟩ := List.nodup_cons.1 nodup
      have unknown : head.name ∉ taken := by
        rw [headName]
        exact fresh object List.mem_cons_self
      have restFresh : ∀ other ∈ objects, (metadata other).shownName ∉ head.name :: taken := by
        intro other member inNames
        rcases List.mem_cons.1 inNames with same | inTaken
        · exact unused (List.mem_map.2 ⟨other, member, same.trans headName⟩)
        · exact fresh other (List.mem_cons_of_mem _ member) inTaken
      obtain ⟨rest, others⟩ := inductionHypothesis
        (fun other member => readable other (List.mem_cons_of_mem _ member)) restNodup restFresh
      exact ⟨head :: rest,
        placeAll_cons_eq_ok_iff.2 ⟨head, rest, stands, unknown, others, rfl⟩⟩

/-! ## Order -/

theorem mem_inOrder_iff {placed : List (Placed α)} {object : α} :
    object ∈ inOrder placed ↔ ∃ member ∈ placed, member.object = object := by
  simp [inOrder]

theorem inOrder_perm (placed : List (Placed α)) :
    (inOrder placed).Perm (placed.map (·.object)) :=
  (List.mergeSort_perm placed _).map _

theorem pairwise_inOrder {placed : List (Placed α)}
    (fits : ∀ member ∈ placed, member.Fits metadata) :
    (inOrder placed).Pairwise fun earlier later =>
      positionOf metadata earlier ≤ positionOf metadata later := by
  have sorted : (placed.mergeSort fun left right => left.ordinal ≤ right.ordinal).Pairwise
      fun left right => decide (left.ordinal ≤ right.ordinal) = true := by
    refine List.pairwise_mergeSort (fun first second third below above => ?_)
      (fun left right => ?_) placed
    · simp only [decide_eq_true_eq] at below above ⊢
      omega
    · simp only [Bool.or_eq_true, decide_eq_true_eq]
      omega
  refine List.pairwise_map.2 (sorted.imp_of_mem fun {left right} leftMember rightMember below => ?_)
  rw [← (fits left (List.mem_mergeSort.1 leftMember)).ordinal_eq,
    ← (fits right (List.mem_mergeSort.1 rightMember)).ordinal_eq]
  exact of_decide_eq_true below

/-- A part of the members of one side has distinct names, also in their order. -/
theorem nodup_inOrder {placed part : List (Placed α)}
    (fits : ∀ member ∈ placed, member.Fits metadata) (nodup : (placed.map (·.name)).Nodup)
    (sublist : part.Sublist placed) :
    ((inOrder part).map fun object => (metadata object).shownName).Nodup := by
  have named : (part.map (·.object)).map (fun object => (metadata object).shownName) =
      part.map (·.name) := by
    rw [List.map_map]
    refine List.map_congr_left fun member inPart => ?_
    exact (fits member (sublist.subset inPart)).name_eq.symm
  rw [((inOrder_perm part).map _).nodup_iff, named]
  exact nodup.sublist (sublist.map _)

/-! ## Both sides -/

/-- What the changes from some live members to the desired ones are. -/
structure Changes.Lead (metadata : α → ObjectMeta) (same : α → α → Bool)
    (current desired : List α) (changes : Changes α) : Prop where
  mem_creates : ∀ object, object ∈ changes.creates ↔
    object ∈ desired ∧
      ∀ live ∈ current, (metadata live).shownName ≠ (metadata object).shownName
  mem_updates : ∀ object, object ∈ changes.updates ↔
    object ∈ desired ∧ ∃ live ∈ current,
      (metadata live).shownName = (metadata object).shownName ∧ same live object = false
  mem_deletes : ∀ object, object ∈ changes.deletes ↔
    object ∈ current ∧
      ∀ wanted ∈ desired, (metadata wanted).shownName ≠ (metadata object).shownName
  updates_nodup : (changes.updates.map fun object => (metadata object).shownName).Nodup
  deletes_nodup : (changes.deletes.map fun object => (metadata object).shownName).Nodup
  updates_ascend : changes.updates.Pairwise fun earlier later =>
    positionOf metadata earlier ≤ positionOf metadata later
  current_nodup : (current.map fun object => (metadata object).shownName).Nodup
  desired_nodup : (desired.map fun object => (metadata object).shownName).Nodup

theorem Sided.exists_mem_iff {taken : List String} {objects : List α} {placed : List (Placed α)}
    (sided : Sided metadata taken objects placed) (holds : String → α → Prop) :
    (∃ member ∈ placed, holds member.name member.object) ↔
      ∃ object ∈ objects, holds (metadata object).shownName object := by
  constructor
  · rintro ⟨member, inPlaced, fact⟩
    refine ⟨member.object, ?_, (sided.fits member inPlaced).name_eq ▸ fact⟩
    rw [← sided.objects_eq]
    exact List.mem_map_of_mem inPlaced
  · rintro ⟨object, inObjects, fact⟩
    rw [← sided.objects_eq] at inObjects
    obtain ⟨member, inPlaced, rfl⟩ := List.mem_map.1 inObjects
    exact ⟨member, inPlaced, (sided.fits member inPlaced).name_eq.symm ▸ fact⟩

theorem Sided.names_nodup {taken : List String} {objects : List α} {placed : List (Placed α)}
    (sided : Sided metadata taken objects placed) :
    (objects.map fun object => (metadata object).shownName).Nodup := by
  have named : objects.map (fun object => (metadata object).shownName) =
      placed.map (·.name) := by
    rw [← sided.objects_eq, List.map_map]
    exact List.map_congr_left fun member inPlaced => (sided.fits member inPlaced).name_eq.symm
  rw [named]
  exact sided.nodup

theorem find?_name_eq_some_iff {placed : List (Placed α)}
    (nodup : (placed.map (·.name)).Nodup) {name : String} {member : Placed α} :
    placed.find? (·.name == name) = some member ↔ member ∈ placed ∧ member.name = name := by
  constructor
  · intro found
    exact ⟨List.mem_of_find?_eq_some found, by simpa using List.find?_some found⟩
  · rintro ⟨inPlaced, rfl⟩
    cases found : placed.find? (·.name == member.name) with
    | none =>
        have unequal := List.find?_eq_none.1 found member inPlaced
        simp at unequal
    | some other =>
        have otherName : other.name = member.name := by simpa using List.find?_some found
        rw [List.inj_on_of_nodup_map nodup (List.mem_of_find?_eq_some found) inPlaced otherName]

/-- The members of one side that pass a test on their places. -/
theorem Sided.mem_inOrder_filter_iff {taken : List String} {objects : List α}
    {placed : List (Placed α)} (sided : Sided metadata taken objects placed)
    (keep : Placed α → Bool) (holds : α → Prop)
    (agrees : ∀ member ∈ placed, keep member = true ↔ holds member.object) {object : α} :
    object ∈ inOrder (placed.filter keep) ↔ object ∈ objects ∧ holds object := by
  rw [mem_inOrder_iff, ← sided.objects_eq]
  constructor
  · rintro ⟨member, inPart, rfl⟩
    obtain ⟨inPlaced, kept⟩ := List.mem_filter.1 inPart
    exact ⟨List.mem_map_of_mem inPlaced, (agrees member inPlaced).1 kept⟩
  · rintro ⟨inObjects, fact⟩
    obtain ⟨member, inPlaced, rfl⟩ := List.mem_map.1 inObjects
    exact ⟨member, List.mem_filter.2 ⟨inPlaced, (agrees member inPlaced).2 fact⟩, rfl⟩

theorem lead_changesBetween {same : α → α → Bool} {current desired : List α}
    {live wanted : List (Placed α)} (liveSided : Sided metadata [] current live)
    (wantedSided : Sided metadata [] desired wanted) :
    (changesBetween same live wanted).Lead metadata same current desired where
  mem_creates := by
    refine fun object => wantedSided.mem_inOrder_filter_iff _ (fun wish =>
      ∀ other ∈ current, (metadata other).shownName ≠ (metadata wish).shownName)
      fun member inWanted => ?_
    have named := (wantedSided.fits member inWanted).name_eq
    have present := liveSided.exists_mem_iff fun name _ => name = member.name
    rw [Option.isNone_iff_eq_none, List.find?_eq_none, ← named]
    constructor
    · intro none other inCurrent sameName
      obtain ⟨placed, inLive, placedName⟩ := present.2 ⟨other, inCurrent, sameName⟩
      exact none placed inLive (by simpa using placedName)
    · intro none placed inLive placedName
      obtain ⟨other, inCurrent, sameName⟩ := present.1 ⟨placed, inLive, by simpa using placedName⟩
      exact none other inCurrent sameName
  mem_updates := by
    refine fun object => wantedSided.mem_inOrder_filter_iff _ (fun wish =>
      ∃ other ∈ current, (metadata other).shownName = (metadata wish).shownName ∧
        same other wish = false) fun member inWanted => ?_
    have named := (wantedSided.fits member inWanted).name_eq
    have present := liveSided.exists_mem_iff fun name other =>
      name = member.name ∧ same other member.object = false
    rw [← named, ← present]
    simp only [Option.any_eq_true, find?_name_eq_some_iff liveSided.nodup, Bool.not_eq_true']
    constructor
    · rintro ⟨placed, ⟨inLive, sameName⟩, changed⟩
      exact ⟨placed, inLive, sameName, changed⟩
    · rintro ⟨placed, inLive, sameName, changed⟩
      exact ⟨placed, ⟨inLive, sameName⟩, changed⟩
  mem_deletes := by
    refine fun object => liveSided.mem_inOrder_filter_iff _ (fun existing =>
      ∀ other ∈ desired, (metadata other).shownName ≠ (metadata existing).shownName)
      fun member inLive => ?_
    have named := (liveSided.fits member inLive).name_eq
    have present := wantedSided.exists_mem_iff fun name _ => name = member.name
    simp only [Bool.not_eq_true', List.any_eq_false, beq_iff_eq]
    rw [← named]
    constructor
    · intro none other inDesired sameName
      obtain ⟨placed, inWanted, placedName⟩ := present.2 ⟨other, inDesired, sameName⟩
      exact none placed inWanted placedName
    · intro none placed inWanted placedName
      obtain ⟨other, inDesired, sameName⟩ := present.1 ⟨placed, inWanted, placedName⟩
      exact none other inDesired sameName
  updates_nodup := nodup_inOrder wantedSided.fits wantedSided.nodup List.filter_sublist
  deletes_nodup := nodup_inOrder liveSided.fits liveSided.nodup List.filter_sublist
  updates_ascend := pairwise_inOrder fun member inPart =>
    wantedSided.fits member (List.mem_of_mem_filter inPart)
  current_nodup := liveSided.names_nodup
  desired_nodup := wantedSided.names_nodup

theorem exists_sides_of_diff {same : α → α → Bool} {current desired : List α}
    {changes : Changes α} (differs : diff metadata same current desired = .ok changes) :
    ∃ live wanted, Sided metadata [] current live ∧ Sided metadata [] desired wanted ∧
      changes = changesBetween same live wanted := by
  cases live : placeAll metadata "current" [] current with
  | error fault => simp [diff, live, bind, Except.bind] at differs
  | ok livePlaces =>
      cases wanted : placeAll metadata "desired" [] desired with
      | error fault => simp [diff, live, wanted, bind, Except.bind] at differs
      | ok wantedPlaces =>
          simp only [diff, live, wanted, bind, Except.bind, pure, Except.pure] at differs
          exact ⟨livePlaces, wantedPlaces, sided_of_placeAll live, sided_of_placeAll wanted,
            (Except.ok.inj differs).symm⟩

/-- A difference leads from the live members to the desired ones. -/
theorem lead_of_diff {same : α → α → Bool} {current desired : List α} {changes : Changes α}
    (differs : diff metadata same current desired = .ok changes) :
    changes.Lead metadata same current desired := by
  obtain ⟨live, wanted, liveSided, wantedSided, rfl⟩ := exists_sides_of_diff differs
  exact lead_changesBetween liveSided wantedSided

theorem nodup_creates_of_diff {same : α → α → Bool} {current desired : List α}
    {changes : Changes α} (differs : diff metadata same current desired = .ok changes) :
    (changes.creates.map fun object => (metadata object).shownName).Nodup := by
  obtain ⟨live, wanted, liveSided, wantedSided, rfl⟩ := exists_sides_of_diff differs
  exact nodup_inOrder wantedSided.fits wantedSided.nodup List.filter_sublist

/-- Nothing has to be scaled exactly when the live members have the names of the desired
ones. -/
theorem Changes.Lead.isScaling_eq_false_iff {same : α → α → Bool} {current desired : List α}
    {changes : Changes α} (lead : changes.Lead metadata same current desired) :
    changes.isScaling = false ↔
      (∀ live ∈ current, ∃ wanted ∈ desired,
        (metadata wanted).shownName = (metadata live).shownName) ∧
      ∀ wanted ∈ desired, ∃ live ∈ current,
        (metadata live).shownName = (metadata wanted).shownName := by
  have empty : changes.isScaling = false ↔ changes.creates = [] ∧ changes.deletes = [] := by
    simp [Changes.isScaling]
  rw [empty]
  constructor
  · rintro ⟨noCreates, noDeletes⟩
    constructor
    · intro live member
      by_contra surplus
      have deleted := (lead.mem_deletes live).2 ⟨member, fun wanted inDesired same =>
        surplus ⟨wanted, inDesired, same⟩⟩
      rw [noDeletes] at deleted
      exact List.not_mem_nil deleted
    · intro wanted member
      by_contra missing
      have created := (lead.mem_creates wanted).2 ⟨member, fun live inCurrent same =>
        missing ⟨live, inCurrent, same⟩⟩
      rw [noCreates] at created
      exact List.not_mem_nil created
  · rintro ⟨noSurplus, noneMissing⟩
    refine ⟨List.eq_nil_iff_forall_not_mem.2 fun wanted created => ?_,
      List.eq_nil_iff_forall_not_mem.2 fun live deleted => ?_⟩
    · obtain ⟨inDesired, missing⟩ := (lead.mem_creates wanted).1 created
      obtain ⟨live, inCurrent, same⟩ := noneMissing wanted inDesired
      exact missing live inCurrent same
    · obtain ⟨inCurrent, surplus⟩ := (lead.mem_deletes live).1 deleted
      obtain ⟨wanted, inDesired, same⟩ := noSurplus live inCurrent
      exact surplus wanted inDesired same

/-- When nothing has to be scaled, there are as many live members as desired ones. -/
theorem Changes.Lead.length_eq {same : α → α → Bool} {current desired : List α}
    {changes : Changes α} (lead : changes.Lead metadata same current desired)
    (steady : changes.isScaling = false) : current.length = desired.length := by
  obtain ⟨noSurplus, noneMissing⟩ := lead.isScaling_eq_false_iff.1 steady
  have sameNames : (current.map fun live => (metadata live).shownName).Perm
      (desired.map fun wanted => (metadata wanted).shownName) := by
    refine (List.perm_ext_iff_of_nodup lead.current_nodup lead.desired_nodup).2 fun name => ?_
    simp only [List.mem_map]
    constructor
    · rintro ⟨live, member, rfl⟩
      exact noSurplus live member
    · rintro ⟨wanted, member, rfl⟩
      exact noneMissing wanted member
  simpa using sameNames.length_eq

/-- Objects with distinct names and readable positions have a difference. -/
theorem exists_diff {same : α → α → Bool} {current desired : List α}
    (liveReadable : ∀ object ∈ current, HasPosition metadata object)
    (liveNodup : (current.map fun object => (metadata object).shownName).Nodup)
    (wantedReadable : ∀ object ∈ desired, HasPosition metadata object)
    (wantedNodup : (desired.map fun object => (metadata object).shownName).Nodup) :
    ∃ changes, diff metadata same current desired = .ok changes := by
  obtain ⟨live, livePlaced⟩ :=
    exists_placeAll "current" liveReadable liveNodup fun _ _ => List.not_mem_nil
  obtain ⟨wanted, wantedPlaced⟩ :=
    exists_placeAll "desired" wantedReadable wantedNodup fun _ _ => List.not_mem_nil
  exact ⟨changesBetween same live wanted, by
    simp only [diff, livePlaced, wantedPlaced, bind, Except.bind, pure, Except.pure]⟩

end NodeFleet.Fleet
