import NodeFleet.Proofs.Resource.Selector

/-!
# Matching labels against a selector

A selector that is made from labels is met by what carries all of them and by nothing else.  So
labels can be told from their selector, and the selector of no labels is met by everything.
-/

namespace NodeFleet.Resource

open Store Text

/-- Whether labels meet one term of a selector: they have the value that it asks for, or its key
if it asks for no value. -/
def meetsTerm (labels : TextMap) (term : List Char) : Bool :=
  match splitFirst? '=' term with
  | some (key, value) => labels.find? (String.ofList key) == some (String.ofList value)
  | none => (labels.find? (String.ofList term)).isSome

/-- The terms of a selector stand between commas.  White space around a term does not count, and
neither does a term of nothing else. -/
def selectorTerms (selector : String) : List (List Char) :=
  ((splitAt ',' selector.toList).map trim).filter fun term => !term.isEmpty

/-- Whether labels meet all terms of a selector. -/
def meetsSelector (selector : String) (labels : TextMap) : Bool :=
  (selectorTerms selector).all (meetsTerm labels)

/-- Whether a character means nothing in a selector. -/
def isLabelCharacter (character : Char) : Bool :=
  character != ',' && character != '=' && !isBlank character

/-- A label of characters that mean nothing in a selector. -/
structure PlainLabel (label : String × String) : Prop where
  key : label.1.toList.all isLabelCharacter = true
  value : label.2.toList.all isLabelCharacter = true

def PlainLabels (labels : TextMap) : Prop := ∀ label ∈ labels.entries, PlainLabel label

variable {label : String × String} {labels other carried : TextMap}

theorem unblank_of_all {text : List Char} (plain : text.all isLabelCharacter = true) :
    ∀ character ∈ text, isBlank character = false := by
  intro character member
  have isPlain := List.all_eq_true.1 plain character member
  simp only [isLabelCharacter, Bool.and_eq_true, Bool.not_eq_true'] at isPlain
  exact isPlain.2

theorem notMem_of_all {text : List Char} {mark : Char} (plain : text.all isLabelCharacter = true)
    (isMark : isLabelCharacter mark = false) : mark ∉ text := by
  intro member
  rw [List.all_eq_true.1 plain mark member] at isMark
  cases isMark

namespace PlainLabel

theorem clean (plain : PlainLabel label) : CleanLabel label where
  key_comma := notMem_of_all plain.key rfl
  key_equals := notMem_of_all plain.key rfl
  value_comma := notMem_of_all plain.value rfl

theorem trim_labelText (plain : PlainLabel label) : trim (labelText label) = labelText label := by
  refine trim_eq_self fun character member => ?_
  rcases List.mem_append.1 member with inKey | rest
  · exact unblank_of_all plain.key character inKey
  rcases List.mem_cons.1 rest with rfl | inValue
  · decide
  · exact unblank_of_all plain.value character inValue

theorem meetsTerm_labelText (plain : PlainLabel label) :
    meetsTerm carried (labelText label) = (carried.find? label.1 == some label.2) := by
  rw [meetsTerm, labelText, splitFirst?_append plain.clean.key_equals]
  simp only [String.ofList_toList]

end PlainLabel

theorem PlainLabels.clean (plain : PlainLabels labels) :
    ∀ label ∈ labels.entries, CleanLabel label :=
  fun label inEntries => (plain label inEntries).clean

/-- The terms of a selector made from plain labels are the labels. -/
theorem selectorTerms_labelSelector (plain : PlainLabels labels) :
    selectorTerms (labelSelector labels) = labels.entries.map labelText := by
  rw [selectorTerms]
  by_cases none : labels.entries = []
  · rw [toList_labelSelector, none]
    rfl
  · have trimmed : (labels.entries.map labelText).map trim = labels.entries.map labelText := by
      rw [List.map_map]
      exact List.map_congr_left fun label inEntries => (plain label inEntries).trim_labelText
    rw [splitAt_labelSelector plain.clean none, trimmed, List.filter_eq_self]
    intro term member
    obtain ⟨label, _, rfl⟩ := List.mem_map.1 member
    simp [labelText]

/-- A selector made from plain labels is met by what carries all of them. -/
theorem meetsSelector_labelSelector_iff (plain : PlainLabels labels) :
    meetsSelector (labelSelector labels) carried = true ↔
      ∀ key value, labels.find? key = some value → carried.find? key = some value := by
  have each : ∀ label ∈ labels.entries,
      meetsTerm carried (labelText label) = true ↔ carried.find? label.1 = some label.2 := by
    intro label inEntries
    rw [(plain label inEntries).meetsTerm_labelText, beq_iff_eq]
  rw [meetsSelector, selectorTerms_labelSelector plain, List.all_map, List.all_eq_true]
  simp only [KeyMap.find?_eq_some_iff_mem labels]
  exact ⟨fun all key value member => (each _ member).1 (all _ member),
    fun all label member => (each _ member).2 (all _ _ member)⟩

/-- Labels of which each carries all of the other are the same. -/
theorem eq_of_carries
    (left : ∀ key value, labels.find? key = some value → other.find? key = some value)
    (right : ∀ key value, other.find? key = some value → labels.find? key = some value) :
    labels = other :=
  KeyMap.eq_of_find?_eq fun key => Option.ext fun value => ⟨left key value, right key value⟩

/-- A selector made from plain labels is met exactly by the labels among which are all of these,
and the cluster lists by it what meets it.  So different labels have different selectors, and the
selector of no labels is met by any. -/
theorem labelSelector_exact :
    (∀ labels : TextMap, PlainLabels labels → ∀ carried : TextMap,
      (meetsSelector (labelSelector labels) carried = true ↔
        ∀ key value, labels.find? key = some value → carried.find? key = some value) ∧
      Cluster.selects (labelSelector labels) carried.find? =
        meetsSelector (labelSelector labels) carried) ∧
    (∀ labels other : TextMap, PlainLabels labels → PlainLabels other →
      labelSelector labels = labelSelector other → labels = other) ∧
    ∀ carried : TextMap, meetsSelector (labelSelector .empty) carried = true := by
  refine ⟨fun labels plain carried => ⟨meetsSelector_labelSelector_iff plain, ?listed⟩,
    fun labels other plain plainOther same => ?injective, fun carried => ?unrestricted⟩
  case listed =>
    rw [Bool.eq_iff_iff, selects_labelSelector_iff plain.clean,
      meetsSelector_labelSelector_iff plain]
  case injective =>
    -- Labels meet their own selector, and so the other one.
    have meetsOwn := (meetsSelector_labelSelector_iff plain).2 fun _ _ found => found
    have meetsOther := (meetsSelector_labelSelector_iff plainOther).2 fun _ _ found => found
    rw [same] at meetsOwn
    rw [← same] at meetsOther
    exact eq_of_carries ((meetsSelector_labelSelector_iff plain).1 meetsOther)
      ((meetsSelector_labelSelector_iff plainOther).1 meetsOwn)
  case unrestricted => rfl

/-- The labels of a snapshot and one more, which has no value. -/
def archivedLabels : TextMap := .ofList [(sourceKey, "hourly"), ("archived", "")]

theorem labelSelector_exact_of_archived :
    PlainLabels archivedLabels ∧
      meetsSelector (labelSelector archivedLabels) (archivedLabels.insert instanceKey "cosmoshub") =
        true ∧
      ¬ meetsSelector (labelSelector archivedLabels) (.ofList [(sourceKey, "hourly")]) = true := by
  have plain : PlainLabels archivedLabels := by
    have entries : archivedLabels.entries = [("archived", ""), (sourceKey, "hourly")] := by decide
    rw [PlainLabels, entries]
    exact List.forall_mem_cons.2 ⟨⟨rfl, rfl⟩, List.forall_mem_singleton.2 ⟨rfl, rfl⟩⟩
  have absent : archivedLabels.find? instanceKey = none := by decide
  obtain ⟨met, _⟩ := labelSelector_exact
  refine ⟨plain, (met _ plain _).1.2 fun key value found => ?_, fun meets => ?_⟩
  · rw [KeyMap.find?_insert]
    split
    · rename_i same
      rw [← same, absent] at found
      cases found
    · exact found
  · have there := (met _ plain _).1.1 meets "archived" "" (by decide)
    exact absurd there (by decide)

end NodeFleet.Resource
