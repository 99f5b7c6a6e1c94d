/-!
# Maps with text keys

A `KeyMap` lists its entries in strictly increasing key order, so two maps that
answer every look-up alike are equal.  Keys are ordered by code point, which is
also the byte order of their UTF-8 form.  The main statements describe `insert`
and `erase` through `find?`.
-/

namespace NodeFleet

/-- A finite map from text keys whose entries stand in strictly increasing key
order. -/
structure KeyMap (α : Type) where
  entries : List (String × α)
  increasing : entries.Pairwise (fun earlier later => earlier.1 < later.1)

namespace KeyMap

variable {α : Type}

instance [DecidableEq α] : DecidableEq (KeyMap α) := fun left right =>
  if same : left.entries = right.entries then
    isTrue (by cases left; cases right; simp_all)
  else
    isFalse (by intro equality; exact same (by rw [equality]))

instance [Repr α] : Repr (KeyMap α) := ⟨fun map depth => reprPrec map.entries depth⟩

/-! ## Lists of entries -/

/-- Puts an entry at its place in an ordered list, in the place of an entry
with the same key. -/
def insertEntry (key : String) (value : α) : List (String × α) → List (String × α)
  | [] => [(key, value)]
  | entry :: rest =>
      if key < entry.1 then (key, value) :: entry :: rest
      else if entry.1 < key then entry :: insertEntry key value rest
      else (key, value) :: rest

theorem eq_of_not_lt {left right : String} (notBelow : ¬ left < right)
    (notAbove : ¬ right < left) : left = right :=
  String.le_antisymm (String.not_lt.1 notAbove) (String.not_lt.1 notBelow)

theorem mem_insertEntry {key : String} {value : α} {entries : List (String × α)}
    {entry : String × α} (member : entry ∈ insertEntry key value entries) :
    entry = (key, value) ∨ entry ∈ entries := by
  induction entries with
  | nil => simpa [insertEntry] using member
  | cons head tail inductionHypothesis =>
      unfold insertEntry at member
      split at member
      · simpa using member
      · split at member
        · rcases List.mem_cons.1 member with rfl | inTail
          · exact Or.inr (List.mem_cons_self ..)
          · rcases inductionHypothesis inTail with same | inRest
            · exact Or.inl same
            · exact Or.inr (List.mem_cons_of_mem _ inRest)
        · rcases List.mem_cons.1 member with same | inTail
          · exact Or.inl same
          · exact Or.inr (List.mem_cons_of_mem _ inTail)

theorem increasing_insertEntry (key : String) (value : α) {entries : List (String × α)}
    (increasing : entries.Pairwise (fun earlier later => earlier.1 < later.1)) :
    (insertEntry key value entries).Pairwise (fun earlier later => earlier.1 < later.1) := by
  induction entries with
  | nil => simp [insertEntry]
  | cons head tail inductionHypothesis =>
      obtain ⟨headBelow, tailIncreasing⟩ := List.pairwise_cons.1 increasing
      unfold insertEntry
      split
      · rename_i below
        refine List.pairwise_cons.2 ⟨?_, increasing⟩
        intro entry member
        rcases List.mem_cons.1 member with rfl | inTail
        · exact below
        · exact String.lt_trans below (headBelow entry inTail)
      · split
        · rename_i above
          refine List.pairwise_cons.2 ⟨?_, inductionHypothesis tailIncreasing⟩
          intro entry member
          rcases mem_insertEntry member with rfl | inTail
          · exact above
          · exact headBelow entry inTail
        · rename_i notBelow notAbove
          have same : key = head.1 := eq_of_not_lt notBelow notAbove
          refine List.pairwise_cons.2 ⟨?_, tailIncreasing⟩
          intro entry inTail
          simpa [same] using headBelow entry inTail

/-- The value that a list of entries gives a key. -/
def valueIn? (key : String) : List (String × α) → Option α
  | [] => none
  | entry :: rest => if entry.1 = key then some entry.2 else valueIn? key rest

/-- The entries without the one of a key. -/
def eraseEntry (key : String) (entries : List (String × α)) : List (String × α) :=
  entries.filter (fun entry => entry.1 != key)

/-! ## Maps -/

def empty : KeyMap α := ⟨[], List.Pairwise.nil⟩

instance : Inhabited (KeyMap α) := ⟨empty⟩

def insert (map : KeyMap α) (key : String) (value : α) : KeyMap α :=
  ⟨insertEntry key value map.entries, increasing_insertEntry key value map.increasing⟩

def erase (map : KeyMap α) (key : String) : KeyMap α :=
  ⟨eraseEntry key map.entries, map.increasing.filter _⟩

def find? (map : KeyMap α) (key : String) : Option α :=
  valueIn? key map.entries

def isEmpty (map : KeyMap α) : Bool := map.entries.isEmpty

/-- Inserts the entries of a list from left to right, so the last entry of a
key counts. -/
def ofList (entries : List (String × α)) : KeyMap α :=
  entries.foldl (fun map entry => map.insert entry.1 entry.2) empty

/-- The entries of `right` placed over those of `left`. -/
def union (left right : KeyMap α) : KeyMap α :=
  right.entries.foldl (fun map entry => map.insert entry.1 entry.2) left

def keys (map : KeyMap α) : List String := map.entries.map Prod.fst

def values (map : KeyMap α) : List α := map.entries.map Prod.snd

/-! ## Look-up -/

@[simp] theorem find?_empty (key : String) : (empty : KeyMap α).find? key = none := rfl

theorem valueIn?_insertEntry (key other : String) (value : α) (entries : List (String × α)) :
    valueIn? other (insertEntry key value entries) =
      if key = other then some value else valueIn? other entries := by
  induction entries with
  | nil => simp [insertEntry, valueIn?]
  | cons head tail inductionHypothesis =>
      unfold insertEntry
      split
      · simp [valueIn?]
      · split
        · rename_i above
          by_cases headSame : head.1 = other
          · have different : key ≠ other := by
              rintro rfl
              exact String.lt_irrefl key (headSame ▸ above)
            simp [valueIn?, headSame, different]
          · simpa [valueIn?, headSame] using inductionHypothesis
        · rename_i notBelow notAbove
          have same : key = head.1 := eq_of_not_lt notBelow notAbove
          by_cases asked : key = other
          · simp [valueIn?, asked]
          · have headOther : ¬ head.1 = other := same ▸ asked
            simp [valueIn?, asked, headOther]

theorem valueIn?_eraseEntry (key other : String) (entries : List (String × α)) :
    valueIn? other (eraseEntry key entries) =
      if key = other then none else valueIn? other entries := by
  induction entries with
  | nil => simp [eraseEntry, valueIn?]
  | cons head tail inductionHypothesis =>
      unfold eraseEntry at inductionHypothesis ⊢
      by_cases removed : head.1 = key
      · rw [List.filter_cons_of_neg (by simp [removed]), inductionHypothesis]
        by_cases asked : key = other
        · simp [asked]
        · simp [valueIn?, asked, removed]
      · rw [List.filter_cons_of_pos (by simp [removed])]
        by_cases headOther : head.1 = other
        · have different : ¬ key = other := fun same => removed (headOther.trans same.symm)
          simp [valueIn?, headOther, different]
        · simpa [valueIn?, headOther] using inductionHypothesis

theorem find?_insert (map : KeyMap α) (key other : String) (value : α) :
    (map.insert key value).find? other = if key = other then some value else map.find? other :=
  valueIn?_insertEntry key other value map.entries

theorem find?_erase (map : KeyMap α) (key other : String) :
    (map.erase key).find? other = if key = other then none else map.find? other :=
  valueIn?_eraseEntry key other map.entries

end KeyMap

end NodeFleet
