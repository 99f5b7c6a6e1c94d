import NodeFleet.Proofs.Json.Members

/-!
# Patches of one place

A merge patch that names one place, by the keys that lead there, sets the text of that place or
removes it.  On the way there it makes the objects that are missing; everything that is neither on
that way nor at its end stays as it is.
-/

namespace NodeFleet

namespace KeyMap

variable {α : Type}

/-- Gives a key a value, or none. -/
def put (map : KeyMap α) (key : String) : Option α → KeyMap α
  | some value => map.insert key value
  | none => map.erase key

theorem find?_put (map : KeyMap α) (key : String) (value : Option α) :
    (map.put key value).find? key = value := by
  cases value with
  | some value => rw [put, find?_insert, if_pos rfl]
  | none => rw [put, find?_erase, if_pos rfl]

/-- An entry that was put in is put in again at its own place. -/
theorem insertEntry_insertEntry (key : String) (value : α) (entries : List (String × α)) :
    insertEntry key value (insertEntry key value entries) = insertEntry key value entries := by
  induction entries with
  | nil => simp [insertEntry]
  | cons entry entries inductionHypothesis =>
      by_cases before : key < entry.1
      · simp [insertEntry, before]
      · by_cases after : entry.1 < key
        · simp [insertEntry, before, after, inductionHypothesis]
        · simp [insertEntry, before, after]

theorem eraseEntry_eraseEntry (key : String) (entries : List (String × α)) :
    eraseEntry key (eraseEntry key entries) = eraseEntry key entries := by
  simp [eraseEntry, List.filter_filter]

end KeyMap

namespace Json

/-! ## One member -/

/-- Gives a member of an object a value, or removes it. -/
def put (json : Json) (key : String) : Option Json → Json
  | some value => json.set key value
  | none => .object (KeyMap.eraseEntry key json.membersOrNone)

theorem exists_put_eq_object (json : Json) (key : String) (value : Option Json) :
    ∃ members, json.put key value = .object members := by
  cases value with
  | some value => exact ⟨_, rfl⟩
  | none => exact ⟨_, rfl⟩

theorem get?_put (json : Json) (key other : String) (value : Option Json) :
    (json.put key value).get? other = if key = other then value else json.get? other := by
  cases value with
  | some value => exact get?_set json key other value
  | none => exact KeyMap.valueIn?_eraseEntry key other json.membersOrNone

theorem put_put (json : Json) (key : String) (value : Option Json) :
    (json.put key value).put key value = json.put key value := by
  cases value with
  | some value => exact congrArg Json.object (KeyMap.insertEntry_insertEntry ..)
  | none => exact congrArg Json.object (KeyMap.eraseEntry_eraseEntry ..)

/-- A patch of one member to a text sets it, and one to no text removes it. -/
theorem mergePatch_text (key : String) (text : Option String) (target : Json) :
    (Json.object [(key, ofOption .text text)]).mergePatch target =
      target.put key (text.map .text) := by
  cases text with
  | some text => simp only [ofOption, mergePatch, mergeMembers, put, set, Option.map_some]
  | none => simp only [ofOption, mergePatch, mergeMembers, put, Option.map_none]

/-! ## One place -/

/-- The patch of the text at the place that `key` and `keys` lead to. -/
def placePatch (text : Option String) (key : String) : List String → Json
  | [] => .object [(key, ofOption .text text)]
  | next :: keys => .object [(key, placePatch text next keys)]

variable {text : Option String} {key : String} {keys path : List String} {target : Json}

theorem mergePatch_placePatch_cons (text : Option String) (key next : String)
    (keys : List String) (target : Json) :
    (placePatch text key (next :: keys)).mergePatch target =
      target.put key
        (some ((placePatch text next keys).mergePatch ((target.get? key).getD .null))) := by
  have present : placePatch text next keys ≠ .null := by
    cases keys with
    | nil => exact Json.noConfusion
    | cons => exact Json.noConfusion
  exact mergePatch_member present key target

theorem exists_mergePatch_placePatch (text : Option String) (key : String) (keys : List String)
    (target : Json) :
    ∃ members, (placePatch text key keys).mergePatch target = .object members := by
  cases keys with
  | nil =>
      rw [placePatch, mergePatch_text]
      exact exists_put_eq_object ..
  | cons next keys =>
      rw [mergePatch_placePatch_cons]
      exact exists_put_eq_object ..

/-- Below a member that is missing there is as little as below `null`. -/
theorem at?_getD_null (json : Option Json) (different : path ≠ []) :
    (json.getD .null).at? path = json.bind (·.at? path) := by
  cases json with
  | some json => rfl
  | none =>
      cases path with
      | nil => exact absurd rfl different
      | cons => rfl

/-- The text of the patch is there afterwards. -/
theorem at?_placePatch (text : Option String) (key : String) (keys : List String)
    (target : Json) :
    ((placePatch text key keys).mergePatch target).at? (key :: keys) = text.map .text := by
  induction keys generalizing key target with
  | nil =>
      rw [placePatch, mergePatch_text, at?, get?_put, if_pos rfl]
      cases text with
      | some text => rfl
      | none => rfl
  | cons next keys inductionHypothesis =>
      rw [mergePatch_placePatch_cons, at?, get?_put, if_pos rfl, Option.bind_some,
        inductionHypothesis]

/-- Everything is as before that is not at the place, below it or above it. -/
theorem at?_placePatch_of_apart (below : ¬ key :: keys <+: path) (above : ¬ path <+: key :: keys) :
    ((placePatch text key keys).mergePatch target).at? path = target.at? path := by
  induction keys generalizing key path target with
  | nil =>
      cases path with
      | nil => exact absurd List.nil_prefix above
      | cons other path =>
          have differs : key ≠ other := fun same =>
            below (List.cons_prefix_cons.2 ⟨same, List.nil_prefix⟩)
          rw [placePatch, mergePatch_text, at?, get?_put, if_neg differs, at?]
  | cons next keys inductionHypothesis =>
      cases path with
      | nil => exact absurd List.nil_prefix above
      | cons other path =>
          rw [mergePatch_placePatch_cons, at?, get?_put, at?]
          by_cases same : key = other
          · subst same
            have belowToo : ¬ next :: keys <+: path := fun pre =>
              below (List.cons_prefix_cons.2 ⟨rfl, pre⟩)
            have aboveToo : ¬ path <+: next :: keys := fun pre =>
              above (List.cons_prefix_cons.2 ⟨rfl, pre⟩)
            have further : path ≠ [] := fun none => aboveToo (none ▸ List.nil_prefix)
            rw [if_pos rfl, Option.bind_some, inductionHypothesis belowToo aboveToo,
              at?_getD_null _ further]
          · rw [if_neg same]

/-- The way to the place leads through objects. -/
theorem exists_at?_placePatch (before : path <+: key :: keys) (stops : path ≠ key :: keys) :
    ∃ members,
      ((placePatch text key keys).mergePatch target).at? path = some (.object members) := by
  induction keys generalizing key path target with
  | nil =>
      cases path with
      | nil =>
          obtain ⟨members, made⟩ := exists_mergePatch_placePatch text key [] target
          exact ⟨members, congrArg some made⟩
      | cons other path =>
          obtain ⟨same, rest⟩ := List.cons_prefix_cons.1 before
          exact absurd (congrArg₂ List.cons same (List.prefix_nil.1 rest)) stops
  | cons next keys inductionHypothesis =>
      cases path with
      | nil =>
          obtain ⟨members, made⟩ := exists_mergePatch_placePatch text key (next :: keys) target
          exact ⟨members, congrArg some made⟩
      | cons other path =>
          obtain ⟨same, rest⟩ := List.cons_prefix_cons.1 before
          have stopsToo : path ≠ next :: keys := fun all =>
            stops (congrArg₂ List.cons same all)
          rw [mergePatch_placePatch_cons, at?, get?_put, if_pos same.symm, Option.bind_some]
          exact inductionHypothesis rest stopsToo

/-- Once it has been applied, the patch changes nothing. -/
theorem mergePatch_placePatch_idem (text : Option String) (key : String) (keys : List String)
    (target : Json) :
    (placePatch text key keys).mergePatch ((placePatch text key keys).mergePatch target) =
      (placePatch text key keys).mergePatch target := by
  induction keys generalizing key target with
  | nil => rw [placePatch, mergePatch_text, mergePatch_text, put_put]
  | cons next keys inductionHypothesis =>
      rw [mergePatch_placePatch_cons, mergePatch_placePatch_cons, get?_put, if_pos rfl,
        Option.getD_some, inductionHypothesis, put_put]

/-! ## Maps of texts with one text put in -/

section Maps

variable {α β : Type} {reader : Json → Option α}

/-- The members of an object stand in increasing key order. -/
def IsOrdered (json : Json) : Prop :=
  json.membersOrNone.Pairwise fun earlier later => earlier.1 < later.1

/-- Whatever the keys of a path lead to stands in order. -/
def OrderedAt (json : Json) (path : List String) : Prop :=
  ∀ member ∈ json.at? path, member.IsOrdered

/-- What is in order below an object is so below its member, which may be missing. -/
theorem OrderedAt.below {json : Json} {key : String} {path : List String}
    (ordered : json.OrderedAt (key :: path)) :
    ((json.get? key).getD .null).OrderedAt path := by
  cases there : json.get? key with
  | some member =>
      intro inner found
      exact ordered inner (by rwa [at?, there])
  | none =>
      intro inner found
      cases path with
      | nil =>
          obtain rfl := Option.some.inj found
          exact List.Pairwise.nil
      | cons => cases found

/-- What is written of a member is in order if it is written in order. -/
theorem orderedAt_of_get? {given : Option β} {write : β → Json} {json : Json} {key : String}
    {path : List String} (found : json.get? key = given.map write)
    (ordered : ∀ value, given = some value → (write value).OrderedAt path) :
    json.OrderedAt (key :: path) := by
  intro member there
  rw [Option.mem_def, at?, found] at there
  cases given with
  | none => cases there
  | some value => exact ordered value rfl member there

theorem mapM_cons_eq_some_iff {read : β → Option α} {item : β} {items : List β}
    {made : List α} :
    (item :: items).mapM read = some made ↔
      ∃ first others, read item = some first ∧ items.mapM read = some others ∧
        made = first :: others := by
  simp only [List.mapM_cons, Option.bind_eq_bind, Option.bind_eq_some_iff, Option.pure_def,
    Option.some.injEq]
  grind

/-- Reads an entry of a map. -/
def readEntry (reader : Json → Option α) (entry : String × Json) : Option (String × α) := do
  return (entry.1, ← reader entry.2)

theorem readEntry_eq_some_iff {entry : String × Json} {read : String × α} :
    readEntry reader entry = some read ↔ entry.1 = read.1 ∧ reader entry.2 = some read.2 := by
  obtain ⟨key, value⟩ := read
  simp [readEntry, Option.bind_eq_some_iff, and_comm]

theorem keys_of_readEntries {members : List (String × Json)} {entries : List (String × α)}
    (reads : members.mapM (readEntry reader) = some entries) :
    members.map Prod.fst = entries.map Prod.fst := by
  induction members generalizing entries with
  | nil =>
      obtain rfl := Option.some.inj reads
      rfl
  | cons member members inductionHypothesis =>
      obtain ⟨first, others, readsFirst, readsOthers, rfl⟩ := mapM_cons_eq_some_iff.1 reads
      exact congrArg₂ List.cons (readEntry_eq_some_iff.1 readsFirst).1
        (inductionHypothesis readsOthers)

theorem readEntries_insertEntry {members : List (String × Json)} {entries : List (String × α)}
    {value : Json} {read : α} (readsValue : reader value = some read) (key : String)
    (reads : members.mapM (readEntry reader) = some entries) :
    (KeyMap.insertEntry key value members).mapM (readEntry reader) =
      some (KeyMap.insertEntry key read entries) := by
  have entry : readEntry reader (key, value) = some (key, read) :=
    readEntry_eq_some_iff.2 ⟨rfl, readsValue⟩
  induction members generalizing entries with
  | nil =>
      obtain rfl := Option.some.inj reads
      exact mapM_cons_eq_some_iff.2 ⟨_, _, entry, rfl, rfl⟩
  | cons member members inductionHypothesis =>
      obtain ⟨first, others, readsFirst, readsOthers, rfl⟩ := mapM_cons_eq_some_iff.1 reads
      rw [KeyMap.insertEntry, KeyMap.insertEntry, (readEntry_eq_some_iff.1 readsFirst).1]
      split
      · exact mapM_cons_eq_some_iff.2 ⟨_, _, entry, reads, rfl⟩
      split
      · exact mapM_cons_eq_some_iff.2 ⟨_, _, readsFirst, inductionHypothesis readsOthers, rfl⟩
      · exact mapM_cons_eq_some_iff.2 ⟨_, _, entry, readsOthers, rfl⟩

theorem readEntries_eraseEntry {members : List (String × Json)} {entries : List (String × α)}
    (key : String) (reads : members.mapM (readEntry reader) = some entries) :
    (KeyMap.eraseEntry key members).mapM (readEntry reader) =
      some (KeyMap.eraseEntry key entries) := by
  induction members generalizing entries with
  | nil =>
      obtain rfl := Option.some.inj reads
      rfl
  | cons member members inductionHypothesis =>
      obtain ⟨first, others, readsFirst, readsOthers, rfl⟩ := mapM_cons_eq_some_iff.1 reads
      have sameKey : member.1 = first.1 := (readEntry_eq_some_iff.1 readsFirst).1
      have rest := inductionHypothesis readsOthers
      by_cases erased : first.1 = key
      · rwa [KeyMap.eraseEntry, KeyMap.eraseEntry,
          List.filter_cons_of_neg (by simp [sameKey, erased]),
          List.filter_cons_of_neg (by simp [erased])]
      · rw [KeyMap.eraseEntry, KeyMap.eraseEntry,
          List.filter_cons_of_pos (by simp [sameKey, erased]),
          List.filter_cons_of_pos (by simp [erased])]
        exact mapM_cons_eq_some_iff.2 ⟨_, _, readsFirst, rest, rfl⟩

theorem readMap_of_entries {members : List (String × Json)} {map : KeyMap α}
    (reads : members.mapM (readEntry reader) = some map.entries) :
    readMap reader (.object members) = some map :=
  Option.bind_eq_some_iff.2 ⟨map.entries, reads, congrArg some map.ofList_entries⟩

/-- From an object that is in order, a map is read entry by entry. -/
theorem entries_of_readMap {json : Json} {map : KeyMap α} (ordered : json.IsOrdered)
    (reads : readMap reader json = some map) :
    ∃ members, json = .object members ∧ members.mapM (readEntry reader) = some map.entries := by
  cases json with
  | object members =>
      obtain ⟨entries, all, made⟩ := Option.bind_eq_some_iff.1 reads
      have increasing : entries.Pairwise fun earlier later => earlier.1 < later.1 := by
        have keys := List.pairwise_map.2 ordered
        exact List.pairwise_map.1 (keys_of_readEntries all ▸ keys)
      have same : map = ⟨entries, increasing⟩ :=
        (Option.some.inj made).symm.trans (KeyMap.ofList_entries ⟨entries, increasing⟩)
      exact ⟨members, rfl, same ▸ all⟩
  | _ => cases reads

/-- The map that is read after a text was put in is the map that was read, with that text. -/
theorem readMap_put_text {json : Json} {map : KeyMap String} (ordered : json.IsOrdered)
    (reads : readMap readText json = some map) (key : String) (text : Option String) :
    readMap readText (json.put key (text.map .text)) = some (map.put key text) := by
  obtain ⟨members, rfl, all⟩ := entries_of_readMap ordered reads
  cases text with
  | some text =>
      have readsText : readText (.text text) = some text := rfl
      exact readMap_of_entries (readEntries_insertEntry readsText key all)
  | none => exact readMap_of_entries (readEntries_eraseEntry key all)

end Maps

/-- What stands for a member that is read as absent, and for one that is read. -/
theorem getD_get?_of_optional {α : Type} {json : Json} {key : String} {reader : Json → Option α}
    {given : Option α} (reads : json.optional key reader = some given) :
    (given = none → (json.get? key).getD .null = .null) ∧
      ∀ value, given = some value → reader ((json.get? key).getD .null) = some value := by
  unfold optional at reads
  split at reads
  · rename_i missing
    simp [missing, ← Option.some.inj reads]
  · rename_i source there
    rw [there, Option.getD_some]
    unfold readNullable at reads
    split at reads
    · simp [← Option.some.inj reads]
    · obtain ⟨value, readsValue, same⟩ := Option.map_eq_some_iff.1 reads
      simp [← same, readsValue]

end Json

end NodeFleet
