import NodeFleet.Resource.Shape

/-!
# Schemas

A schema says what a field of an object holds, in the structural form of OpenAPI
that clusters take.  A field of a record is required, or may be absent, or may
also be `null`, or has a value for its absence.
-/

namespace NodeFleet.Definition

open Resource

/-- Whether a field has to be there. -/
inductive Presence
  | required
  | optional
  | nullable
  | defaulted (value : Json)

structure Rule where
  condition : String
  message : String
  deriving DecidableEq, Repr

/-- What is said of a field beside its schema. -/
structure FieldInfo where
  key : String
  presence : Presence
  description : Option String
  rule : Option Rule

inductive Schema
  | text
  | bool
  | int32
  | int64
  | word64
  | intOrText
  | time
  | any
  | words (values : List String)
  | list (item : Schema)
  | map (value : Schema)
  | record (fields : List (FieldInfo × Schema))
  | described (description : String) (schema : Schema)

abbrev Field := FieldInfo × Schema

namespace Field

def required (key : String) (schema : Schema) : Field := (⟨key, .required, none, none⟩, schema)

def optional (key : String) (schema : Schema) : Field := (⟨key, .optional, none, none⟩, schema)

def nullable (key : String) (schema : Schema) : Field := (⟨key, .nullable, none, none⟩, schema)

def defaulted (key : String) (value : Json) (schema : Schema) : Field :=
  (⟨key, .defaulted value, none, none⟩, schema)

def described (field : Field) (description : String) : Field :=
  ({ field.1 with description := some description }, field.2)

def ruled (field : Field) (condition message : String) : Field :=
  ({ field.1 with rule := some ⟨condition, message⟩ }, field.2)

end Field

namespace Presence

def members : Presence → List (String × Json)
  | .required => []
  | .optional => []
  | .nullable => [("nullable", .bool true)]
  | .defaulted value => [("default", value)]

end Presence

namespace FieldInfo

def isRequired (field : FieldInfo) : Bool :=
  match field.presence with
  | .required => true
  | _ => false

def members (field : FieldInfo) : List (String × Json) :=
  field.presence.members
    ++ (field.description.map fun text => ("description", Json.text text)).toList
    ++ (field.rule.map fun rule =>
      ("x-kubernetes-validations", Json.array [.ofMembers [
        ("rule", .text rule.condition), ("message", .text rule.message)]])).toList

end FieldInfo

/-- The keys of the required fields, in increasing order. -/
def requiredKeys (fields : List Field) : List String :=
  let keys := (fields.filter (·.1.isRequired)).map fun field => (field.1.key, ())
  (KeyMap.ofList keys).keys

namespace Schema

def typed (name : String) (others : List (String × Json)) : List (String × Json) :=
  ("type", .text name) :: others

mutual

def members : Schema → List (String × Json)
  | .text => typed "string" []
  | .bool => typed "boolean" []
  | .int32 => typed "integer" [("format", .text "int32")]
  | .int64 => typed "integer" [("format", .text "int64")]
  | .word64 => typed "integer" [("format", .text "uint64"), ("minimum", .decimal "0.0")]
  | .intOrText => [("x-kubernetes-int-or-string", .bool true)]
  | .time => typed "string" [("format", .text "date-time")]
  | .any => typed "object" []
  | .words values => typed "string" [("enum", .array (values.map .text))]
  | .list item => typed "array" [("items", .ofMembers item.members)]
  | .map value => typed "object" [("additionalProperties", .ofMembers value.members)]
  | .record fields =>
      let needed := requiredKeys fields
      typed "object" <| ("properties", .ofMembers (properties fields)) ::
        if needed.isEmpty then [] else [("required", .array (needed.map .text))]
  | .described description schema => schema.members ++ [("description", .text description)]

def properties : List (FieldInfo × Schema) → List (String × Json)
  | [] => []
  | (field, schema) :: fields =>
      (field.key, .ofMembers (schema.members ++ field.members)) :: properties fields

end

def write (schema : Schema) : Json := .ofMembers schema.members

mutual

def ofShape : Shape → Schema
  | .text => .text
  | .bool => .bool
  | .int32 => .int32
  | .int64 => .int64
  | .intOrText => .intOrText
  | .time => .time
  | .preciseTime => .time
  | .any => .any
  | .list item => .list (ofShape item)
  | .map value => .map (ofShape value)
  | .record members => .record (ofMembers members)

def ofMembers : List (String × Bool × Shape) → List (FieldInfo × Schema)
  | [] => []
  | (key, needed, shape) :: members =>
      (if needed then Field.required key (ofShape shape) else Field.optional key (ofShape shape))
        :: ofMembers members

end

end Schema

end NodeFleet.Definition
