import Mathlib.Data.List.Induction
import NodeFleet.Json.MergePatch
import NodeFleet.Json.Record
import NodeFleet.Proofs.Entries

/-!
# Members of objects

What a member of an object is once the object has been put together from a list, had a
member set, or been patched.
-/

namespace NodeFleet.KeyMap

variable {α : Type}

theorem find?_foldl_insert (entries : List (String × α)) (map : KeyMap α) (key : String) :
    (entries.foldl (fun map entry => map.insert entry.1 entry.2) map).find? key =
      (valueIn? key entries.reverse).or (map.find? key) := by
  induction entries using List.reverseRecOn with
  | nil => rfl
  | append_singleton entries entry inductionHypothesis =>
      rw [List.foldl_append, List.reverse_append]
      simp only [List.foldl_cons, List.foldl_nil, List.reverse_singleton, List.singleton_append,
        find?_insert, inductionHypothesis, valueIn?]
      split <;> rfl

theorem find?_ofList (entries : List (String × α)) (key : String) :
    (ofList entries).find? key = valueIn? key entries.reverse := by
  rw [ofList, find?_foldl_insert, find?_empty, Option.or_none]

theorem valueIn?_eq_none_iff {key : String} {entries : List (String × α)} :
    valueIn? key entries = none ↔ ∀ entry ∈ entries, entry.1 ≠ key := by
  induction entries with
  | nil => simp [valueIn?]
  | cons entry entries inductionHypothesis =>
      rw [valueIn?, List.forall_mem_cons, ← inductionHypothesis]
      by_cases same : entry.1 = key
      · simp [same]
      · simp [same]

theorem valueIn?_append (key : String) (left right : List (String × α)) :
    valueIn? key (left ++ right) = (valueIn? key left).or (valueIn? key right) := by
  induction left with
  | nil => rfl
  | cons entry left inductionHypothesis =>
      rw [List.cons_append, valueIn?, valueIn?, inductionHypothesis]
      split <;> rfl

/-- A map is made again from its entries. -/
theorem ofList_entries (map : KeyMap α) : ofList map.entries = map := by
  apply eq_of_find?_eq
  intro key
  rw [find?_ofList]
  cases found : valueIn? key map.entries.reverse with
  | some value =>
      have member := List.mem_reverse.1 (mem_of_valueIn?_eq_some found)
      exact ((map.find?_eq_some_iff_mem key value).2 member).symm
  | none =>
      have unused := valueIn?_eq_none_iff.1 found
      have absent : map.find? key = none :=
        valueIn?_eq_none_iff.2 fun entry member => unused entry (List.mem_reverse.2 member)
      exact absent.symm

end NodeFleet.KeyMap

namespace NodeFleet.Json

variable {α : Type}

theorem get?_set (json : Json) (key other : String) (value : Json) :
    (json.set key value).get? other = if key = other then some value else json.get? other :=
  KeyMap.valueIn?_insertEntry key other value json.membersOrNone

theorem valueIn?_foldl_insertEntry (members ordered : List (String × Json)) (key : String) :
    KeyMap.valueIn? key
        (members.foldl (fun ordered entry => KeyMap.insertEntry entry.1 entry.2 ordered)
          ordered) =
      (KeyMap.valueIn? key members.reverse).or (KeyMap.valueIn? key ordered) := by
  induction members using List.reverseRecOn with
  | nil => rfl
  | append_singleton members entry inductionHypothesis =>
      rw [List.foldl_append, List.reverse_append]
      simp only [List.foldl_cons, List.foldl_nil, List.reverse_singleton, List.singleton_append,
        KeyMap.valueIn?_insertEntry, inductionHypothesis, KeyMap.valueIn?]
      split <;> rfl

/-- Of two members with one key, the later counts. -/
theorem get?_ofMembers (members : List (String × Json)) (key : String) :
    (ofMembers members).get? key = KeyMap.valueIn? key members.reverse :=
  (valueIn?_foldl_insertEntry members [] key).trans (Option.or_none ..)

/-! ## Written records -/

theorem get?_ofFields_nil (other : String) : (Json.ofFields []).get? other = none := rfl

theorem get?_ofFields_whenSome (key other : String) (write : α → Json) (given : Option α)
    (fields : List (Option (String × Json))) :
    (Json.ofFields (whenSome key write given :: fields)).get? other =
      ((Json.ofFields fields).get? other).or (if key = other then given.map write else none) := by
  rw [Json.ofFields, Json.ofFields, get?_ofMembers, get?_ofMembers]
  cases given with
  | none => simp [whenSome]
  | some value =>
      simp only [whenSome, Option.map_some, List.filterMap_cons, id, List.reverse_cons,
        KeyMap.valueIn?_append, KeyMap.valueIn?]

theorem get?_ofFields_always (key other : String) (value : Json)
    (fields : List (Option (String × Json))) :
    (Json.ofFields (always key value :: fields)).get? other =
      ((Json.ofFields fields).get? other).or (if key = other then some value else none) :=
  get?_ofFields_whenSome key other id (some value) fields

/-! ## Patches -/

/-- A patch of one member patches the value that is there. -/
theorem mergePatch_member {change : Json} (present : change ≠ .null) (key : String)
    (target : Json) :
    (Json.object [(key, change)]).mergePatch target =
      target.set key (change.mergePatch ((target.get? key).getD .null)) := by
  cases change with
  | null => exact absurd rfl present
  | _ => simp only [mergePatch, mergeMembers, set, get?]

end NodeFleet.Json
