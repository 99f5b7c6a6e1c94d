import NodeFleet.Proofs.Json.Members

/-!
# Values that are read as they were written

A reader undoes a writer value by value.  A record is read back when its members are, where those
that are left out are read as what they were left out for.  What is read, on the other hand, has
parts that were read.
-/

namespace NodeFleet.KeyMap

theorem eq_empty_of_isEmpty {α : Type} {map : KeyMap α} (vacant : map.isEmpty = true) :
    map = .empty := by
  obtain ⟨entries, increasing⟩ := map
  obtain rfl : entries = [] := List.isEmpty_iff.1 vacant
  rfl

end NodeFleet.KeyMap

namespace NodeFleet.Json

variable {α β : Type} {reader : Json → Option α} {write : α → Json} {json : Json} {key : String}

/-! ## Values -/

theorem readInteger_integer {bounds : Text.Bounds} {value : Int}
    (fits : bounds.admits value = true) : readInteger bounds (.integer value) = some value :=
  if_pos fits

theorem mapM_map_eq_some {items : List α} {write : α → β} {reader : β → Option α}
    (each : ∀ item ∈ items, reader (write item) = some item) :
    (items.map write).mapM reader = some items := by
  induction items with
  | nil => rfl
  | cons item items inductionHypothesis =>
      obtain ⟨first, others⟩ := List.forall_mem_cons.1 each
      rw [List.map_cons, List.mapM_cons, first, inductionHypothesis others]
      rfl

/-- Lists are read as they were written, if their items are. -/
theorem readList_ofList {items : List α}
    (each : ∀ item ∈ items, reader (write item) = some item) :
    readList reader (ofList write items) = some items :=
  mapM_map_eq_some each

/-- Maps are read as they were written, if their values are. -/
theorem readMap_ofMap {map : KeyMap α}
    (each : ∀ value ∈ map.values, reader (write value) = some value) :
    readMap reader (ofMap write map) = some map := by
  have all : (map.entries.map fun entry => (entry.1, write entry.2)).mapM
      (fun entry => do return (entry.1, ← reader entry.2)) = some map.entries := by
    refine mapM_map_eq_some fun entry member => ?_
    rw [each entry.2 (List.mem_map_of_mem member)]
    rfl
  rw [ofMap, readMap, all]
  exact congrArg some map.ofList_entries

/-! ## Members -/

/-- A member that was written by one function is read by another that undoes it. -/
theorem optional_eq_of_get? {given : Option α} (refuses : reader .null = none)
    (found : json.get? key = given.map write)
    (kept : ∀ value, given = some value → reader (write value) = some value) :
    json.optional key reader = some given := by
  rw [Json.optional, found]
  cases given with
  | none => rfl
  | some value =>
      have reads := kept value rfl
      rw [Option.map_some]
      cases written : write value with
      | null => exact absurd (refuses.symm.trans (written ▸ reads)) (by simp)
      | _ => simp only [readNullable, ← written, reads, Option.map_some]

theorem required_eq_of_get? {value : α} (found : json.get? key = some (write value))
    (kept : reader (write value) = some value) : json.required key reader = some value := by
  rw [required, found]
  exact kept

theorem optional_text_eq_of_get? {given : Option String}
    (found : json.get? key = given.map .text) : json.optional key readText = some given :=
  optional_eq_of_get? rfl found fun _ _ => rfl

theorem optional_bool_eq_of_get? {given : Option Bool}
    (found : json.get? key = given.map .bool) : json.optional key readBool = some given :=
  optional_eq_of_get? rfl found fun _ _ => rfl

theorem optional_integer_eq_of_get? {given : Option Int} {bounds : Text.Bounds}
    (found : json.get? key = given.map .integer)
    (fits : ∀ value ∈ given, bounds.admits value = true) :
    json.optional key (readInteger bounds) = some given :=
  optional_eq_of_get? rfl found fun value there => readInteger_integer (fits value there)

theorem required_text_eq_of_get? {value : String} (found : json.get? key = some (.text value)) :
    json.required key readText = some value :=
  required_eq_of_get? found rfl

theorem defaulted_eq_of_get? {default value : α} (found : json.get? key = some (write value))
    (kept : reader (write value) = some value) :
    json.defaulted key default reader = some value := by
  rw [defaulted, found]
  exact kept

/-- A member that is left out where there is nothing to say. -/
theorem get?_ofFields_unless (key other : String) (write : α → Json) (vacant : Prop)
    [Decidable vacant] (value : α) (fields : List (Option (String × Json))) :
    (ofFields ((if vacant then none else some (key, write value)) :: fields)).get? other =
      ((ofFields fields).get? other).or
        (if key = other then if vacant then none else some (write value) else none) := by
  by_cases nothing : vacant
  · simp only [nothing, if_true]
    rw [ofFields, ofFields, List.filterMap_cons_none rfl]
    simp
  · simp only [nothing, if_false]
    exact get?_ofFields_always key other (write value) fields

theorem get?_ofFields_whenFilled (key other : String) (write : α → Json) (items : List α)
    (fields : List (Option (String × Json))) :
    (ofFields (whenFilled key write items :: fields)).get? other =
      ((ofFields fields).get? other).or
        (if key = other then if items.isEmpty then none else some (ofList write items)
          else none) :=
  get?_ofFields_unless key other (ofList write) _ items fields

theorem get?_ofFields_whenPopulated (key other : String) (write : α → Json) (map : KeyMap α)
    (fields : List (Option (String × Json))) :
    (ofFields (whenPopulated key write map :: fields)).get? other =
      ((ofFields fields).get? other).or
        (if key = other then if map.isEmpty then none else some (ofMap write map)
          else none) :=
  get?_ofFields_unless key other (ofMap write) _ map fields

/-- A member that is left out exactly for its default is read back. -/
theorem defaulted_eq_of_unless {vacant : Prop} [Decidable vacant] {default value : α}
    (found : json.get? key = if vacant then none else some (write value))
    (cleared : vacant → value = default) (kept : reader (write value) = some value) :
    json.defaulted key default reader = some value := by
  rw [defaulted, found]
  by_cases nothing : vacant
  · simp [nothing, cleared nothing]
  · simpa [nothing] using kept

/-- A list that is left out when it is empty is read back. -/
theorem defaulted_nil_eq_of_get? {items : List α}
    (found : json.get? key = if items.isEmpty then none else some (ofList write items))
    (each : ∀ item ∈ items, reader (write item) = some item) :
    json.defaulted key [] (readList reader) = some items :=
  defaulted_eq_of_unless found List.isEmpty_iff.1 (readList_ofList each)

/-- A map that is left out when it is empty is read back. -/
theorem defaulted_empty_eq_of_get? {map : KeyMap α}
    (found : json.get? key = if map.isEmpty then none else some (ofMap write map))
    (each : ∀ value ∈ map.values, reader (write value) = some value) :
    json.defaulted key .empty (readMap reader) = some map :=
  defaulted_eq_of_unless found KeyMap.eq_empty_of_isEmpty (readMap_ofMap each)

/-! ## The members that are shown -/

/-- Of some keys, each of which is there or not, an object has exactly those that are. -/
def Shows (json : Json) (members : List (String × Bool)) : Prop :=
  ∀ key, (json.get? key).isSome = true ↔ (key, true) ∈ members

theorem isSome_get?_ofFields_iff {fields : List (Option (String × Json))} :
    ((ofFields fields).get? key).isSome = true ↔ some key ∈ fields.map (·.map Prod.fst) := by
  rw [Option.isSome_iff_ne_none, ofFields, get?_ofMembers, ne_eq, KeyMap.valueIn?_eq_none_iff]
  simp

/-- What is written of a record shows the members that its fields are there for. -/
theorem shows_ofFields {fields : List (Option (String × Json))} {members : List (String × Bool)}
    (same : fields.map (·.map Prod.fst) =
      members.map fun member => if member.2 then some member.1 else none) :
    (ofFields fields).Shows members := by
  intro key
  rw [isSome_get?_ofFields_iff, same]
  simp [List.mem_map]

@[simp] theorem map_fst_always (key : String) (value : Json) :
    (always key value).map Prod.fst = some key := rfl

@[simp] theorem map_fst_whenSome (key : String) (write : α → Json) (given : Option α) :
    (whenSome key write given).map Prod.fst = if given.isSome then some key else none := by
  cases given <;> rfl

@[simp] theorem map_fst_whenFilled (key : String) (write : α → Json) (items : List α) :
    (whenFilled key write items).map Prod.fst = if !items.isEmpty then some key else none := by
  unfold whenFilled
  cases items.isEmpty <;> rfl

@[simp] theorem map_fst_whenPopulated (key : String) (write : α → Json) (map : KeyMap α) :
    (whenPopulated key write map).map Prod.fst = if !map.isEmpty then some key else none := by
  unfold whenPopulated
  cases map.isEmpty <;> rfl

/-! ## What was read -/

theorem admits_of_readInteger {bounds : Text.Bounds} {value : Int}
    (reads : readInteger bounds json = some value) : bounds.admits value = true := by
  cases json with
  | integer given =>
      obtain ⟨fits, same⟩ := Option.ite_none_right_eq_some.1 reads
      exact Option.some.inj same ▸ fits
  | _ => cases reads

theorem exists_of_optional {given : Option α} {value : α}
    (reads : json.optional key reader = some given) (there : value ∈ given) :
    ∃ source, reader source = some value := by
  obtain rfl := there
  unfold optional at reads
  split at reads
  · cases reads
  · rename_i source _
    unfold readNullable at reads
    split at reads
    · cases reads
    · obtain ⟨other, readsOther, same⟩ := Option.map_eq_some_iff.1 reads
      exact ⟨source, readsOther.trans same⟩

theorem eq_or_exists_of_defaulted {default value : α}
    (reads : json.defaulted key default reader = some value) :
    value = default ∨ ∃ source, reader source = some value := by
  unfold defaulted at reads
  split at reads
  · exact Or.inl (Option.some.inj reads).symm
  · exact Or.inr ⟨_, reads⟩

theorem exists_of_mem_mapM {read : α → Option β} {given : List α} {made : List β}
    (all : given.mapM read = some made) {result : β} (member : result ∈ made) :
    ∃ source ∈ given, read source = some result := by
  induction given generalizing made with
  | nil =>
      obtain rfl := Option.some.inj all
      cases member
  | cons source given inductionHypothesis =>
      rw [List.mapM_cons] at all
      obtain ⟨first, readFirst, all⟩ := Option.bind_eq_some_iff.1 all
      obtain ⟨others, readOthers, all⟩ := Option.bind_eq_some_iff.1 all
      obtain rfl := Option.some.inj all
      rcases List.mem_cons.1 member with rfl | later
      · exact ⟨source, List.mem_cons_self, readFirst⟩
      · obtain ⟨other, among, readOther⟩ := inductionHypothesis readOthers later
        exact ⟨other, List.mem_cons_of_mem _ among, readOther⟩

theorem exists_of_mem_readList {items : List α} {value : α}
    (reads : json.readList reader = some items) (member : value ∈ items) :
    ∃ source, reader source = some value := by
  cases json with
  | array given =>
      obtain ⟨source, _, readsItem⟩ := exists_of_mem_mapM reads member
      exact ⟨source, readsItem⟩
  | _ => cases reads

theorem exists_of_mem_readMap {map : KeyMap α} {value : α}
    (reads : json.readMap reader = some map) (member : value ∈ map.values) :
    ∃ source, reader source = some value := by
  obtain ⟨entry, inMap, rfl⟩ := List.mem_map.1 member
  cases json with
  | object members =>
      obtain ⟨entries, all, made⟩ := Option.bind_eq_some_iff.1 reads
      obtain rfl := Option.some.inj made
      have found := ((KeyMap.ofList entries).find?_eq_some_iff_mem entry.1 entry.2).2 inMap
      rw [KeyMap.find?_ofList] at found
      obtain ⟨source, _, readsEntry⟩ := exists_of_mem_mapM all
        (List.mem_reverse.1 (KeyMap.mem_of_valueIn?_eq_some found))
      obtain ⟨result, readsValue, made⟩ := Option.bind_eq_some_iff.1 readsEntry
      obtain rfl := (Prod.mk.inj (Option.some.inj made)).2
      exact ⟨source.2, readsValue⟩
  | _ => cases reads

end NodeFleet.Json
