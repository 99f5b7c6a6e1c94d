import NodeFleet.Json.Basic

/-!
# JSON merge patches

A patch that is an object changes the members it names: `null` removes a
member, and any other value is merged into the member there.  A patch that is
not an object replaces the whole value.
-/

namespace NodeFleet.Json

mutual

/-- The value `target` after the merge patch `patch`. -/
def mergePatch (patch target : Json) : Json :=
  match patch with
  | .object changes => .object (mergeMembers changes target.membersOrNone)
  | replacement => replacement

/-- The members of an object after the changes of a patch, applied in order. -/
def mergeMembers :
    List (String × Json) → List (String × Json) → List (String × Json)
  | [], members => members
  | (key, .null) :: changes, members => mergeMembers changes (KeyMap.eraseEntry key members)
  | (key, change) :: changes, members =>
      let current := (KeyMap.valueIn? key members).getD .null
      mergeMembers changes (KeyMap.insertEntry key (mergePatch change current) members)

end

@[simp] theorem mergePatch_empty (members : List (String × Json)) :
    mergePatch (.object []) (.object members) = .object members := by
  simp [mergePatch, mergeMembers, membersOrNone, members?]

end NodeFleet.Json
