import NodeFleet.Proofs.Json.Printing
import NodeFleet.Proofs.Json.ReadBack
import NodeFleet.Resource.FullNode

/-!
# Values in canonical form

A shape that leaves no member open has canonical forms without decimals.  The variables and the
resources of the containers have such shapes, so that a specification that is read holds no
decimals in them.
-/

namespace NodeFleet.Json

theorem mem_of_mem_foldl_insertEntry {members ordered : List (String × Json)}
    {entry : String × Json}
    (member : entry ∈ members.foldl
      (fun ordered entry => KeyMap.insertEntry entry.1 entry.2 ordered) ordered) :
    entry ∈ members ∨ entry ∈ ordered := by
  induction members generalizing ordered with
  | nil => exact Or.inr member
  | cons first members inductionHypothesis =>
      rcases inductionHypothesis member with later | here
      · exact Or.inl (List.mem_cons_of_mem _ later)
      · rcases KeyMap.mem_insertEntry here with rfl | earlier
        · exact Or.inl List.mem_cons_self
        · exact Or.inr earlier

/-- The members of an object are some of those that it is made of. -/
theorem Plain.ofMembers {members : List (String × Json)}
    (each : ∀ member ∈ members, member.2.Plain) : (Json.ofMembers members).Plain :=
  .object fun member among =>
    each member ((mem_of_mem_foldl_insertEntry among).resolve_right List.not_mem_nil)

section Written

variable {α : Type} {key : String} {write : α → Json} {given : Option α}
  {fields : List (Option (String × Json))}

theorem plain_whenSome (each : ∀ value ∈ given, (write value).Plain) :
    ∀ member ∈ whenSome key write given, member.2.Plain := by
  intro member among
  obtain ⟨value, given_eq, rfl⟩ := Option.map_eq_some_iff.1 among
  exact each value given_eq

theorem plain_always {value : Json} (plain : value.Plain) :
    ∀ member ∈ always key value, member.2.Plain := by
  intro member among
  obtain rfl := Option.some.inj among
  exact plain

theorem Plain.ofFields (each : ∀ field ∈ fields, ∀ member ∈ field, member.2.Plain) :
    (Json.ofFields fields).Plain := by
  refine .ofMembers fun member among => ?_
  obtain ⟨field, inFields, here⟩ := List.mem_filterMap.1 among
  exact each field inFields member here

theorem Plain.ofList {items : List α} (each : ∀ item ∈ items, (write item).Plain) :
    (Json.ofList write items).Plain := by
  refine .array fun item among => ?_
  obtain ⟨source, member, rfl⟩ := List.mem_map.1 among
  exact each source member

end Written

end NodeFleet.Json

namespace NodeFleet.Resource

open Json

namespace Shape

/-- A shape in which no member may be just any value. -/
inductive Closed : Shape → Prop
  | text : Closed .text
  | bool : Closed .bool
  | int32 : Closed .int32
  | int64 : Closed .int64
  | intOrText : Closed .intOrText
  | time : Closed .time
  | preciseTime : Closed .preciseTime
  | list {item : Shape} (closed : Closed item) : Closed (.list item)
  | map {value : Shape} (closed : Closed value) : Closed (.map value)
  | record {members : List (String × Bool × Shape)} (each : ∀ member ∈ members, Closed member.2.2) :
      Closed (.record members)

variable {shape : Shape} {members : List (String × Bool × Shape)} {json normal : Json}
  {made : List (String × Json)}

theorem plain_absentMembers (each : ∀ member ∈ members, member.2.2.absent.Plain) :
    ∀ entry ∈ absentMembers members, entry.2.Plain := by
  induction members with
  | nil => exact fun _ none => by cases none
  | cons member members inductionHypothesis =>
      obtain ⟨key, needed, shape⟩ := member
      rw [List.forall_mem_cons] at each
      rw [absentMembers]
      split
      · exact List.forall_mem_cons.2 ⟨each.1, inductionHypothesis each.2⟩
      · exact inductionHypothesis each.2

theorem Closed.plain_absent (closed : shape.Closed) : shape.absent.Plain := by
  induction closed with
  | text => exact .text ""
  | bool => exact .bool false
  | int32 => exact .integer 0
  | int64 => exact .integer 0
  | intOrText => exact .integer 0
  | time => exact .text ""
  | preciseTime => exact .text ""
  | list => exact .array fun _ none => by cases none
  | map => exact .object fun _ none => by cases none
  | record _ inductionHypothesis => exact .ofMembers (plain_absentMembers inductionHypothesis)

theorem plain_normalizeMembers (absent : ∀ member ∈ members, member.2.2.absent.Plain)
    (each : ∀ member ∈ members, ∀ json normal, member.2.2.normalize json = some normal →
      normal.Plain) (normalizes : normalizeMembers members json = some made) :
    ∀ entry ∈ made, entry.2.Plain := by
  induction members generalizing made with
  | nil =>
      obtain rfl := Option.some.inj normalizes
      exact fun _ none => by cases none
  | cons member members inductionHypothesis =>
      obtain ⟨key, needed, shape⟩ := member
      rw [List.forall_mem_cons] at absent each
      obtain ⟨rest, restNormalizes, normalizes⟩ := Option.bind_eq_some_iff.1 normalizes
      have plainRest := inductionHypothesis absent.2 each.2 restNormalizes
      split at normalizes
      · obtain rfl := Option.some.inj normalizes
        split
        · exact List.forall_mem_cons.2 ⟨absent.1, plainRest⟩
        · exact plainRest
      · obtain rfl := Option.some.inj normalizes
        split
        · exact List.forall_mem_cons.2 ⟨absent.1, plainRest⟩
        · exact plainRest
      · obtain ⟨normal, normalizesHere, made⟩ := Option.bind_eq_some_iff.1 normalizes
        obtain rfl := Option.some.inj made
        exact List.forall_mem_cons.2 ⟨each.1 _ _ normalizesHere, plainRest⟩

/-- The canonical forms of a closed shape hold no decimals. -/
theorem Closed.plain_normalize (closed : shape.Closed)
    (normalizes : shape.normalize json = some normal) : normal.Plain := by
  induction closed generalizing json normal with
  | text =>
      obtain ⟨value, _, rfl⟩ := Option.map_eq_some_iff.1 normalizes
      exact .text value
  | bool =>
      obtain ⟨value, _, rfl⟩ := Option.map_eq_some_iff.1 normalizes
      exact .bool value
  | int32 =>
      obtain ⟨value, _, rfl⟩ := Option.map_eq_some_iff.1 normalizes
      exact .integer value
  | int64 =>
      obtain ⟨value, _, rfl⟩ := Option.map_eq_some_iff.1 normalizes
      exact .integer value
  | intOrText =>
      cases json with
      | text value => exact Option.some.inj normalizes ▸ .text value
      | integer given =>
          obtain ⟨value, _, rfl⟩ := Option.map_eq_some_iff.1 normalizes
          exact .integer value
      | _ => cases normalizes
  | time =>
      obtain ⟨text, _, normalizes⟩ := Option.bind_eq_some_iff.1 normalizes
      obtain ⟨timestamp, _, made⟩ := Option.bind_eq_some_iff.1 normalizes
      exact Option.some.inj made ▸ .text _
  | preciseTime =>
      obtain ⟨text, _, normalizes⟩ := Option.bind_eq_some_iff.1 normalizes
      obtain ⟨instant, _, made⟩ := Option.bind_eq_some_iff.1 normalizes
      exact Option.some.inj made ▸ .text _
  | @list item closed inductionHypothesis =>
      rw [normalize] at normalizes
      obtain ⟨items, reads, rfl⟩ := Option.map_eq_some_iff.1 normalizes
      refine .array fun item member => ?_
      obtain ⟨source, normalizesItem⟩ := exists_of_mem_readList reads member
      exact inductionHypothesis normalizesItem
  | @map value closed inductionHypothesis =>
      rw [normalize] at normalizes
      obtain ⟨map, reads, rfl⟩ := Option.map_eq_some_iff.1 normalizes
      refine .object fun member among => ?_
      obtain ⟨entry, inMap, rfl⟩ := List.mem_map.1 among
      obtain ⟨source, normalizesValue⟩ := exists_of_mem_readMap reads (List.mem_map_of_mem inMap)
      exact inductionHypothesis normalizesValue
  | record each inductionHypothesis =>
      cases json with
      | object given =>
          rw [normalize] at normalizes
          obtain ⟨made, normalizesMembers, rfl⟩ := Option.map_eq_some_iff.1 normalizes
          exact .ofMembers (plain_normalizeMembers
            (fun member among => (each member among).plain_absent)
            (fun member among _ _ normalizes => inductionHypothesis member among normalizes)
            normalizesMembers)
      | _ => cases normalizes

end Shape

/-! ## Specifications that are read -/

namespace CoreShapes

open Shape

theorem closed_environmentVariable : environmentVariable.Closed := by
  have keyOfObject : keyOfObject.Closed :=
    .record (by simp [needs, may, Closed.text, Closed.bool])
  have fieldReference : fieldReference.Closed := .record (by simp [needs, may, Closed.text])
  have resourceReference : resourceReference.Closed := .record (by simp [needs, may, Closed.text])
  have variableSource : variableSource.Closed :=
    .record (by simp [may, keyOfObject, fieldReference, resourceReference])
  exact .record (by simp [needs, may, Closed.text, variableSource])

theorem closed_resources : resources.Closed := by
  have claim : Closed (.record [needs "name" .text, may "request" .text]) :=
    .record (by simp [needs, may, Closed.text])
  exact .record (List.forall_mem_cons.2 ⟨claim.list, List.forall_mem_cons.2
    ⟨Closed.text.map, List.forall_mem_singleton.2 Closed.text.map⟩⟩)

end CoreShapes

namespace FullNodeSpec

/-- A specification that some document holds. -/
def IsRead (spec : FullNodeSpec) : Prop := ∃ json, FullNodeSpec.read json = some spec

theorem IsRead.exists_record {spec : FullNodeSpec} (isRead : spec.IsRead) :
    ∃ record : Json, record.defaulted "env" []
        (readList CoreShapes.environmentVariable.normalize) = some spec.env ∧
      record.optional "resources" CoreShapes.resources.normalize = some spec.resources := by
  obtain ⟨json, read⟩ := isRead
  simp only [FullNodeSpec.read, Option.bind_eq_bind, Option.bind_eq_some_iff] at read
  obtain ⟨record, _, _, _, _, _, _, _, _, _, env, readEnv, resources, readResources, _, _, _, _, _,
    _, _, _, made⟩ := read
  obtain rfl := Option.some.inj made
  exact ⟨record, readEnv, readResources⟩

/-- The variables and the resources of a specification that is read hold no decimals. -/
theorem IsRead.plain {spec : FullNodeSpec} (isRead : spec.IsRead) :
    (∀ entry ∈ spec.env, entry.Plain) ∧ ∀ value ∈ spec.resources, value.Plain := by
  obtain ⟨record, readEnv, readResources⟩ := isRead.exists_record
  constructor
  · rcases eq_or_exists_of_defaulted readEnv with absent | ⟨source, readSource⟩
    · simp [absent]
    · intro entry member
      obtain ⟨given, normalizes⟩ := exists_of_mem_readList readSource member
      exact CoreShapes.closed_environmentVariable.plain_normalize normalizes
  · intro value there
    obtain ⟨source, normalizes⟩ := exists_of_optional readResources there
    exact CoreShapes.closed_resources.plain_normalize normalizes

end FullNodeSpec

end NodeFleet.Resource
