import NodeFleet.Proofs.Fleet.OrdinalDiff
import NodeFleet.Proofs.Ranking
import NodeFleet.Proofs.Text.Numeral

/-!
# A difference parts the members

The difference between live members and desired ones exists unless one side repeats a name or
has a member without a position.  It puts every member that has to change into one of three
lists, once, in the order of positions, and nothing else; the order in which the members come
matters only for members at one position.
-/

namespace NodeFleet.Fleet

open Resource Text

variable {α : Type} {metadata : α → ObjectMeta} {same : α → α → Bool}
  {objects others current desired : List α} {changes : Changes α}

/-! ## Sides without a difference -/

/-- An object has an annotation that denotes its position, a number of 64 bits. -/
def States (metadata : α → ObjectMeta) (object : α) (position : Int) : Prop :=
  ∃ text, (metadata object).ordinalText? = some text ∧ Denotes text.toList position ∧
    Bounds.int64.admits position = true

/-- What keeps the objects of one side from being an ordinal set. -/
inductive Flawed (metadata : α → ObjectMeta) (objects : List α) : Prop
  | repeatsName (twice : ¬ (objects.map fun object => (metadata object).shownName).Nodup)
  | lacksPosition {object : α} (member : object ∈ objects)
      (unstated : ∀ position, ¬ States metadata object position)

theorem states_iff {object : α} {position : Int} :
    States metadata object position ↔
      readWhole .int64 ((metadata object).ordinalText?.getD "").toList = .ok position := by
  cases stated : (metadata object).ordinalText? with
  | none =>
      have unread : readWhole .int64 [] = .error .empty := rfl
      simp [States, stated, unread]
  | some text =>
      rw [Option.getD_some, readWhole_eq_ok_iff (by decide) (by decide)]
      simp [States, stated]

theorem hasPosition_iff {object : α} :
    HasPosition metadata object ↔ ∃ position, States metadata object position :=
  exists_congr fun _ => states_iff.symm

theorem states_positionOf {object : α} (readable : HasPosition metadata object) :
    States metadata object (positionOf metadata object) := by
  obtain ⟨position, reads⟩ := readable
  refine states_iff.2 ?_
  rw [positionOf, reads]

theorem not_flawed_iff : ¬ Flawed metadata objects ↔
    (objects.map fun object => (metadata object).shownName).Nodup ∧
      ∀ object ∈ objects, HasPosition metadata object := by
  constructor
  · intro sound
    refine ⟨not_not.1 fun twice => sound (.repeatsName twice), fun object member => ?_⟩
    rw [hasPosition_iff]
    by_contra unstated
    exact sound (.lacksPosition member (not_exists.1 unstated))
  · rintro ⟨nodup, readable⟩ flawed
    cases flawed with
    | repeatsName twice => exact twice nodup
    | lacksPosition member unstated =>
        obtain ⟨position, states⟩ := hasPosition_iff.1 (readable _ member)
        exact unstated position states

theorem Flawed.of_perm (flawed : Flawed metadata others) (shuffled : others.Perm objects) :
    Flawed metadata objects := by
  cases flawed with
  | repeatsName twice => exact .repeatsName ((shuffled.map _).nodup_iff.not.1 twice)
  | lacksPosition member unstated => exact .lacksPosition (shuffled.mem_iff.1 member) unstated

theorem exists_diff_iff : (∃ changes, diff metadata same current desired = .ok changes) ↔
    ¬ Flawed metadata current ∧ ¬ Flawed metadata desired := by
  rw [not_flawed_iff, not_flawed_iff]
  constructor
  · rintro ⟨changes, differs⟩
    obtain ⟨live, wanted, liveSided, wantedSided, _⟩ := exists_sides_of_diff differs
    exact ⟨⟨liveSided.names_nodup, liveSided.readable⟩, wantedSided.names_nodup,
      wantedSided.readable⟩
  · rintro ⟨⟨liveNodup, liveReadable⟩, wantedNodup, wantedReadable⟩
    exact exists_diff liveReadable liveNodup wantedReadable wantedNodup

theorem diff_eq_error_iff : (∃ fault, diff metadata same current desired = .error fault) ↔
    Flawed metadata current ∨ Flawed metadata desired := by
  have sound : (∃ changes, diff metadata same current desired = .ok changes) ↔
      ¬ Flawed metadata current ∧ ¬ Flawed metadata desired := exists_diff_iff
  rw [← not_iff_not, not_or, ← sound]
  cases diff metadata same current desired <;> simp

/-! ## The parts of a difference -/

/-- Some object of a list has the name of a given one. -/
def namedIn (metadata : α → ObjectMeta) (objects : List α) (object : α) : Bool :=
  objects.any fun other => (metadata other).shownName == (metadata object).shownName

/-- Some live object of the name of a desired one is not the same. -/
def outdatedIn (metadata : α → ObjectMeta) (same : α → α → Bool) (current : List α)
    (wanted : α) : Bool :=
  current.any fun live =>
    (metadata live).shownName == (metadata wanted).shownName && !same live wanted

/-- The changes are the missing, the outdated and the surplus objects, each once and in the order
of the positions that they state. -/
structure Changes.Part (metadata : α → ObjectMeta) (same : α → α → Bool)
    (current desired : List α) (changes : Changes α) : Prop where
  stated : ∀ object ∈ current ++ desired, States metadata object (positionOf metadata object)
  creates : Ranked (positionOf metadata) (desired.filter (!namedIn metadata current ·))
    changes.creates
  updates : Ranked (positionOf metadata) (desired.filter (outdatedIn metadata same current))
    changes.updates
  deletes : Ranked (positionOf metadata) (current.filter (!namedIn metadata desired ·))
    changes.deletes

/-- The changes hold the same objects as others, regrouped within positions. -/
structure Changes.RegroupsTo (metadata : α → ObjectMeta) (changes others : Changes α) : Prop where
  creates : Regrouped (positionOf metadata) others.creates changes.creates
  updates : Regrouped (positionOf metadata) others.updates changes.updates
  deletes : Regrouped (positionOf metadata) others.deletes changes.deletes

/-- The live objects that are not deleted and the created ones have the names of the desired
ones. -/
def Changes.Reaches (metadata : α → ObjectMeta) (current desired : List α)
    (changes : Changes α) : Prop :=
  ((current.filter (!namedIn metadata changes.deletes ·) ++ changes.creates).map
      fun object => (metadata object).shownName).Perm
    (desired.map fun object => (metadata object).shownName)

theorem namedIn_eq_true_iff {object : α} : namedIn metadata objects object = true ↔
    ∃ other ∈ objects, (metadata other).shownName = (metadata object).shownName := by
  simp [namedIn]

/-- A part of one side, in order. -/
theorem Sided.ranked_inOrder {taken : List String} {placed : List (Placed α)}
    (sided : Sided metadata taken objects placed) (keep : Placed α → Bool) (holds : α → Bool)
    (agrees : ∀ member ∈ placed, keep member = holds member.object) :
    Ranked (positionOf metadata) (objects.filter holds) (inOrder (placed.filter keep)) := by
  have part : objects.filter holds = (placed.filter keep).map (·.object) := by
    rw [← sided.objects_eq, List.filter_map]
    exact congrArg _ (List.filter_congr fun member inPlaced => (agrees member inPlaced).symm)
  rw [part]
  refine (ranked_mergeSort (·.ordinal) (placed.filter keep)).map fun member inPart => ?_
  exact (sided.fits member (List.mem_of_mem_filter inPart)).ordinal_eq.symm

/-- A name is found among placed objects exactly if it is found among the objects. -/
theorem Sided.any_name_eq {taken : List String} {placed : List (Placed α)}
    (sided : Sided metadata taken objects placed) (name : String) (holds : α → Bool) :
    (placed.any fun member => member.name == name && holds member.object) =
      objects.any fun object => (metadata object).shownName == name && holds object := by
  rw [← sided.objects_eq, List.any_map, Bool.eq_iff_iff, List.any_eq_true, List.any_eq_true]
  refine exists_congr fun member => and_congr_right fun inPlaced => ?_
  rw [(sided.fits member inPlaced).name_eq]
  rfl

/-- Among distinct names, the object of a name is the one that the look-up finds. -/
theorem any_find?_name {placed : List (Placed α)} (nodup : (placed.map (·.name)).Nodup)
    (name : String) (holds : α → Bool) :
    ((placed.find? (·.name == name)).any fun member => holds member.object) =
      placed.any fun member => member.name == name && holds member.object := by
  rw [Bool.eq_iff_iff, Option.any_eq_true, List.any_eq_true]
  simp only [find?_name_eq_some_iff nodup, Bool.and_eq_true, beq_iff_eq]
  exact exists_congr fun member => and_assoc

theorem part_changesBetween {live wanted : List (Placed α)}
    (liveSided : Sided metadata [] current live) (wantedSided : Sided metadata [] desired wanted) :
    (changesBetween same live wanted).Part metadata same current desired where
  stated := by
    intro object member
    rcases List.mem_append.1 member with inCurrent | inDesired
    · exact states_positionOf (liveSided.readable object inCurrent)
    · exact states_positionOf (wantedSided.readable object inDesired)
  creates := by
    refine wantedSided.ranked_inOrder _ _ fun member inWanted => ?_
    have found : (live.any fun other => other.name == member.name) =
        current.any fun object => (metadata object).shownName == member.name := by
      simpa using liveSided.any_name_eq member.name fun _ => true
    rw [namedIn, ← (wantedSided.fits member inWanted).name_eq, ← found, ← List.isSome_find?]
    exact (Option.not_isSome _).symm
  updates := by
    refine wantedSided.ranked_inOrder _ _ fun member inWanted => ?_
    rw [outdatedIn, ← (wantedSided.fits member inWanted).name_eq,
      ← liveSided.any_name_eq member.name fun existing => !same existing member.object]
    exact any_find?_name liveSided.nodup member.name fun existing => !same existing member.object
  deletes := by
    refine liveSided.ranked_inOrder _ _ fun member inLive => ?_
    have found : (wanted.any fun other => other.name == member.name) =
        desired.any fun object => (metadata object).shownName == member.name := by
      simpa using wantedSided.any_name_eq member.name fun _ => true
    rw [namedIn, ← (liveSided.fits member inLive).name_eq, ← found]

theorem part_of_diff (differs : diff metadata same current desired = .ok changes) :
    changes.Part metadata same current desired := by
  obtain ⟨live, wanted, liveSided, wantedSided, rfl⟩ := exists_sides_of_diff differs
  exact part_changesBetween liveSided wantedSided

/-! ## What follows from the parts -/

theorem reaches_of_diff (differs : diff metadata same current desired = .ok changes) :
    changes.Reaches metadata current desired := by
  have lead := lead_of_diff differs
  have created := nodup_creates_of_diff differs
  unfold Changes.Reaches
  rw [List.map_append]
  refine (List.perm_ext_iff_of_nodup (List.nodup_append.2 ⟨?_, created, ?_⟩)
    lead.desired_nodup).2 fun name => ?_
  · exact lead.current_nodup.sublist (List.filter_sublist.map _)
  · rintro name kept other new rfl
    obtain ⟨live, inKept, rfl⟩ := List.mem_map.1 kept
    obtain ⟨object, inCreates, sameName⟩ := List.mem_map.1 new
    exact ((lead.mem_creates object).1 inCreates).2 live (List.mem_of_mem_filter inKept)
      sameName.symm
  · simp only [List.mem_append, List.mem_map, List.mem_filter, Bool.not_eq_true',
      Bool.eq_false_iff, ne_eq, namedIn_eq_true_iff]
    constructor
    · rintro (⟨live, ⟨inCurrent, kept⟩, rfl⟩ | ⟨object, inCreates, rfl⟩)
      · by_contra unwanted
        exact kept ⟨live, (lead.mem_deletes live).2 ⟨inCurrent, fun wanted inDesired sameName =>
          unwanted ⟨wanted, inDesired, sameName⟩⟩, rfl⟩
      · exact ⟨object, ((lead.mem_creates object).1 inCreates).1, rfl⟩
    · rintro ⟨wanted, inDesired, rfl⟩
      by_cases there : ∃ live ∈ current, (metadata live).shownName = (metadata wanted).shownName
      · obtain ⟨live, inCurrent, sameName⟩ := there
        refine Or.inl ⟨live, ⟨inCurrent, ?_⟩, sameName⟩
        rintro ⟨deleted, inDeletes, deletedName⟩
        exact ((lead.mem_deletes deleted).1 inDeletes).2 wanted inDesired
          (sameName.symm.trans deletedName.symm)
      · exact Or.inr ⟨wanted, (lead.mem_creates wanted).2 ⟨inDesired, fun live inCurrent sameName =>
          there ⟨live, inCurrent, sameName⟩⟩, rfl⟩

theorem namedIn_eq_of_perm (shuffled : others.Perm objects) :
    namedIn metadata others = namedIn metadata objects := by
  funext object
  rw [Bool.eq_iff_iff, namedIn_eq_true_iff, namedIn_eq_true_iff]
  exact exists_congr fun _ => and_congr_left fun _ => shuffled.mem_iff

theorem outdatedIn_eq_of_perm (shuffled : others.Perm objects) :
    outdatedIn metadata same others = outdatedIn metadata same objects := by
  funext wanted
  rw [Bool.eq_iff_iff, outdatedIn, outdatedIn, List.any_eq_true, List.any_eq_true]
  exact exists_congr fun _ => and_congr_left fun _ => shuffled.mem_iff

/-- Members that come in another order have a difference too, regrouped within positions. -/
theorem exists_regroupsTo_of_diff {current' desired' : List α}
    (differs : diff metadata same current desired = .ok changes)
    (shuffled : current'.Perm current) (shuffledToo : desired'.Perm desired) :
    ∃ changes', diff metadata same current' desired' = .ok changes' ∧
      changes.RegroupsTo metadata changes' := by
  obtain ⟨soundCurrent, soundDesired⟩ := exists_diff_iff.1 ⟨changes, differs⟩
  obtain ⟨changes', differs'⟩ : ∃ changes', diff metadata same current' desired' = .ok changes' :=
    exists_diff_iff.2 ⟨fun flawed => soundCurrent (flawed.of_perm shuffled),
      fun flawed => soundDesired (flawed.of_perm shuffledToo)⟩
  have part := part_of_diff differs
  have part' := part_of_diff differs'
  refine ⟨changes', differs', part.creates.regrouped part'.creates ?_,
    part.updates.regrouped part'.updates ?_, part.deletes.regrouped part'.deletes ?_⟩
  · rw [namedIn_eq_of_perm shuffled]
    exact shuffledToo.filter _
  · rw [outdatedIn_eq_of_perm shuffled]
    exact shuffledToo.filter _
  · rw [namedIn_eq_of_perm shuffledToo]
    exact shuffled.filter _

/-- Nothing has to change from objects to themselves. -/
theorem diff_self (sound : ¬ Flawed metadata objects)
    (reflexive : ∀ object ∈ objects, same object object = true) :
    diff metadata same objects objects = .ok ⟨[], [], []⟩ := by
  obtain ⟨changes, differs⟩ : ∃ changes, diff metadata same objects objects = .ok changes :=
    exists_diff_iff.2 ⟨sound, sound⟩
  obtain ⟨nodup, _⟩ := not_flawed_iff.1 sound
  have part := part_of_diff differs
  have allNamed : objects.filter (!namedIn metadata objects ·) = [] := by
    refine List.filter_eq_nil_iff.2 fun object member => ?_
    rw [namedIn_eq_true_iff.2 ⟨object, member, rfl⟩]
    decide
  have noneOutdated : objects.filter (outdatedIn metadata same objects) = [] := by
    refine List.filter_eq_nil_iff.2 fun wanted member => ?_
    simp only [outdatedIn, List.any_eq_true, Bool.and_eq_true, beq_iff_eq, Bool.not_eq_true']
    rintro ⟨live, inObjects, sameName, changed⟩
    obtain rfl := List.inj_on_of_nodup_map nodup inObjects member sameName
    rw [reflexive live inObjects] at changed
    cases changed
  have noCreates := (allNamed ▸ part.creates).perm.eq_nil
  have noUpdates := (noneOutdated ▸ part.updates).perm.eq_nil
  have noDeletes := (allNamed ▸ part.deletes).perm.eq_nil
  obtain ⟨creates, updates, deletes⟩ := changes
  dsimp only at noCreates noUpdates noDeletes
  rw [differs, noCreates, noUpdates, noDeletes]

/-- There is a difference unless one side is flawed, and it parts the objects. -/
theorem diff_parts_members (metadata : α → ObjectMeta) (same : α → α → Bool)
    (current desired : List α) :
    ((∃ fault, diff metadata same current desired = .error fault) ↔
      Flawed metadata current ∨ Flawed metadata desired) ∧
    (∀ changes, diff metadata same current desired = .ok changes →
      changes.Part metadata same current desired ∧
      changes.Reaches metadata current desired ∧
      ∀ current' desired', current'.Perm current → desired'.Perm desired →
        ∃ changes', diff metadata same current' desired' = .ok changes' ∧
          changes.RegroupsTo metadata changes') ∧
    (¬ Flawed metadata current → (∀ object, same object object = true) →
      diff metadata same current current = .ok ⟨[], [], []⟩) := by
  refine ⟨diff_eq_error_iff, fun changes differs => ⟨part_of_diff differs,
    reaches_of_diff differs, fun _ _ => exists_regroupsTo_of_diff differs⟩, ?_⟩
  exact fun sound reflexive => diff_self sound fun object _ => reflexive object

section Example

/-- A member that states its position and a digest. -/
def sampleMember (name ordinal digest : String) : ObjectMeta :=
  { ObjectMeta.empty with
    name := some name
    annotations := some (.ofList [(ordinalKey, ordinal), (podHashKey, digest)]) }

def sameDigest (live wanted : ObjectMeta) : Bool :=
  live.annotationMap.find? podHashKey == wanted.annotationMap.find? podHashKey

def liveMembers : List ObjectMeta :=
  [sampleMember "node-11" "11" "old", sampleMember "node-2" "2" "old",
    sampleMember "node-10" "+10" "old"]

def wantedMembers : List ObjectMeta :=
  [sampleMember "node-10" "10" "new", sampleMember "node-9" "9" "new",
    sampleMember "node-2" "2" "old"]

theorem not_flawed_samples : ¬ Flawed id liveMembers ∧ ¬ Flawed id wantedMembers := by
  rw [not_flawed_iff, not_flawed_iff]
  have readable : ∀ object ∈ liveMembers ++ wantedMembers, HasPosition id object := by
    simp only [liveMembers, wantedMembers, List.cons_append, List.nil_append, List.forall_mem_cons]
    exact ⟨⟨11, rfl⟩, ⟨2, rfl⟩, ⟨10, rfl⟩, ⟨10, rfl⟩, ⟨9, rfl⟩, ⟨2, rfl⟩, by simp⟩
  rw [List.forall_mem_append] at readable
  exact ⟨⟨by decide, readable.1⟩, by decide, readable.2⟩

/-- Two sides of three members have a difference, which parts them. -/
theorem diff_parts_samples :
    ∃ changes, diff id sameDigest liveMembers wantedMembers = .ok changes ∧
      changes.Part id sameDigest liveMembers wantedMembers ∧
      changes.Reaches id liveMembers wantedMembers ∧
      diff id sameDigest liveMembers liveMembers = .ok ⟨[], [], []⟩ := by
  obtain ⟨soundLive, soundWanted⟩ := not_flawed_samples
  obtain ⟨changes, differs⟩ : ∃ changes, diff id sameDigest liveMembers wantedMembers =
      .ok changes := exists_diff_iff.2 ⟨soundLive, soundWanted⟩
  obtain ⟨_, parts, again⟩ := diff_parts_members id sameDigest liveMembers wantedMembers
  obtain ⟨part, reaches, _⟩ := parts changes differs
  exact ⟨changes, differs, part, reaches, again soundLive fun object => beq_self_eq_true _⟩

end Example

end NodeFleet.Fleet
