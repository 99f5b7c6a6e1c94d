import NodeFleet.Proofs.Snapshot.Repertoire

/-!
# Held pods

A scheduler registers the pod that it holds down with the full node, under its own
key.  When it takes the entry away and the look-up that follows fails, its status goes
on to say that the pod is held down.  The scheduler is stranded then, until it
registers a pod again.
-/

namespace NodeFleet.Snapshot

open Calendar Resource Store

variable {mayFail : Request → Prop}

/-- Where a scheduler registers the pod that it holds down: the namespace and name of the
full node, and the key of the entry. -/
structure Slot where
  space : String
  nodeName : String
  key : String

def slotOf (scheduler : Scheduler) : Slot :=
  { space := scheduler.fullNodeNamespace?.getD ""
    nodeName := scheduler.spec.fullNodeRef.name
    key := scheduler.statusKey }

/-- The pod that a full node holds down under a key. -/
def heldUnder? (node : FullNode) (key : String) : Option String :=
  (node.status.bind fun status => status.heldPods.find? key).map (·.podName)

namespace Slot

def held? (slot : Slot) (registry : Registry) : Option String :=
  (registry.find? .fullNode slot.space slot.nodeName).bind fun node : FullNode =>
    heldUnder? node slot.key

/-- A pod is down, and registered in a slot as held down. -/
structure Quiesced (slot : Slot) (registry : Registry) (podName : String) : Prop where
  absent : registry.find? .pod slot.space podName = none
  held : slot.held? registry = some podName

/-- From one registry to another, a slot keeps its entry, and a pod that is held down stays
down. -/
structure Leaves (slot : Slot) (before after : Registry) : Prop where
  entry : slot.held? after = slot.held? before
  down : ∀ podName, slot.held? before = some podName →
    before.find? .pod slot.space podName = none → after.find? .pod slot.space podName = none

/-- Some call registers a pod in a slot that was empty. -/
def TakesUp (slot : Slot) (calls : List Call) : Prop :=
  ∃ call ∈ calls, slot.held? call.before = none ∧ slot.held? call.after ≠ none

def LooksUpPod : Request → Prop
  | .get .pod _ _ => True
  | _ => False

instance : DecidablePred LooksUpPod := fun request =>
  match request with
  | .get .pod _ _ => .isTrue trivial
  | .get .volumeClaim _ _ | .get .fullNode _ _ | .get .scheduler _ _
  | .get .volumeSnapshot _ _ => .isFalse id
  | .list .. | .create .. | .delete .. | .patch .. | .replaceStatus .. | .publish _
  | .findDefinition _ => .isFalse id

/-- Calls take the entry of a slot away, fail to look up a pod right after that, and come
to an end. -/
def Interrupted (slot : Slot) (calls : List Call) : Prop :=
  ∃ (past : List Call) (handed lookup : Call) (later : List Call),
    calls = past ++ handed :: lookup :: later ∧
      slot.held? handed.before ≠ none ∧ slot.held? handed.after = none ∧
      LooksUpPod lookup.request ∧ lookup.Fails ∧ ∀ call ∈ later, SettlingCall call.request

/-- The latest pass that took the entry of a slot away was interrupted after it, and no
pod has been registered since.  The calls of the passes stand with the latest first. -/
def Stranded (slot : Slot) : List (List Call) → Prop
  | [] => False
  | calls :: earlier =>
      ¬ slot.TakesUp calls ∧ (slot.Interrupted calls ∨ slot.Stranded earlier)

section Entries

variable {slot : Slot} {before middle after : Registry} {calls later : List Call}

theorem held?_eq_of_sets {kind : Kind} {space name : String} {object : Option kind.Object}
    (sets : before.Sets kind space name object after) (other : kind ≠ .fullNode) :
    slot.held? after = slot.held? before := by
  unfold held?
  rw [sets.find?_eq_of_ne (Ne.symm other)]

theorem Leaves.refl (slot : Slot) (registry : Registry) : slot.Leaves registry registry :=
  ⟨rfl, fun _ _ absent => absent⟩

theorem Leaves.trans (first : slot.Leaves before middle) (second : slot.Leaves middle after) :
    slot.Leaves before after where
  entry := second.entry.trans first.entry
  down := fun podName held absent =>
    second.down podName (first.entry.trans held) (first.down podName held absent)

/-- What changes neither a full node nor a pod leaves a hold alone. -/
theorem leaves_of_sets {kind : Kind} {space name : String} {object : Option kind.Object}
    (sets : before.Sets kind space name object after) (notNode : kind ≠ .fullNode)
    (notPod : kind ≠ .pod) : slot.Leaves before after where
  entry := held?_eq_of_sets sets notNode
  down := fun _ _ absent => (sets.find?_eq_of_ne (Ne.symm notPod) _ _).trans absent

/-- A full node that is written with the same entries leaves a hold alone. -/
theorem leaves_of_node {space name : String} {stored written : FullNode}
    (there : before.find? .fullNode space name = some stored)
    (sets : before.Sets .fullNode space name (some written) after)
    (sameEntries : ∀ key, heldUnder? written key = heldUnder? stored key) :
    slot.Leaves before after where
  entry := by
    unfold held?
    by_cases here : slot.space = space ∧ slot.nodeName = name
    · obtain ⟨rfl, rfl⟩ := here
      rw [sets.here, there]
      exact sameEntries slot.key
    · rw [sets.elsewhere .fullNode _ _ fun same => here (by simpa using same)]
  down := fun _ _ absent => (sets.find?_eq_of_ne (by decide) _ _).trans absent

theorem takesUp_append (slot : Slot) (calls later : List Call) :
    slot.TakesUp (calls ++ later) ↔ slot.TakesUp calls ∨ slot.TakesUp later := by
  simp only [TakesUp, List.mem_append, or_and_right, exists_or]

theorem not_takesUp_of_still
    (still : ∀ call ∈ calls, slot.held? call.after = slot.held? call.before) :
    ¬ slot.TakesUp calls := by
  rintro ⟨call, member, vacant, filled⟩
  rw [still call member] at filled
  exact filled vacant

theorem held?_eq_none_of_chain (chain : Chain mayFail before calls after)
    (vacant : slot.held? before = none) (idle : ¬ slot.TakesUp calls) :
    slot.held? after = none := by
  induction chain with
  | nil registry => exact vacant
  | @cons request answer before middle after rest served chain inductionHypothesis =>
      refine inductionHypothesis ?_ fun ⟨call, member, taken⟩ =>
        idle ⟨call, List.mem_cons_of_mem _ member, taken⟩
      by_contra filled
      exact idle ⟨_, List.mem_cons_self, vacant, filled⟩

/-- A call of a chain that registers no pod finds an empty slot empty. -/
theorem held?_before_eq_none {call : Call} (chain : Chain mayFail before calls after)
    (vacant : slot.held? before = none) (idle : ¬ slot.TakesUp calls) (member : call ∈ calls) :
    slot.held? call.before = none := by
  obtain ⟨past, rest, rfl⟩ := List.append_of_mem member
  exact held?_eq_none_of_chain chain.before_eq.1 vacant fun takes =>
    idle ((takesUp_append slot past _).2 (Or.inl takes))

theorem held?_eq_none_of_interrupted (chain : Chain mayFail before calls after)
    (interrupted : slot.Interrupted calls) (idle : ¬ slot.TakesUp calls) :
    slot.held? after = none := by
  obtain ⟨past, handed, lookup, rest, rfl, _, cleared, _⟩ := interrupted
  obtain ⟨_, _, remaining⟩ := chain.before_eq
  refine held?_eq_none_of_chain remaining cleared fun takes => idle ?_
  rw [List.append_cons]
  exact (takesUp_append slot _ _).2 (Or.inr takes)

theorem Stranded.held?_eq_none {earlier : List (List Call)}
    (chain : Chain mayFail before calls after) (stranded : slot.Stranded (calls :: earlier))
    (vacant : slot.Stranded earlier → slot.held? before = none) :
    slot.held? after = none := by
  obtain ⟨idle, interrupted | strandedBefore⟩ := stranded
  · exact held?_eq_none_of_interrupted chain interrupted idle
  · exact held?_eq_none_of_chain chain (vacant strandedBefore) idle

theorem Interrupted.append (interrupted : slot.Interrupted calls)
    (settling : ∀ call ∈ later, SettlingCall call.request) :
    slot.Interrupted (calls ++ later) := by
  obtain ⟨past, handed, lookup, rest, rfl, filled, cleared, looksUp, fails, ending⟩ := interrupted
  refine ⟨past, handed, lookup, rest ++ later, by simp, filled, cleared, looksUp, fails, ?_⟩
  intro call member
  exact (List.mem_append.1 member).elim (ending call) (settling call)

theorem takesUp_iff_of_reads {allowed : Request → Prop} {ledger final : Ledger}
    (reads : ledger.Reads allowed final) :
    slot.TakesUp final.calls ↔ slot.TakesUp ledger.calls := by
  obtain ⟨_, added, made, idle⟩ := reads
  rw [made, takesUp_append]
  refine or_iff_left (not_takesUp_of_still fun call member => ?_)
  obtain ⟨_, sameBefore, sameAfter⟩ := idle call member
  rw [sameBefore, sameAfter]

theorem takesUp_add_iff {ledger : Ledger} (request : Request) (answer : Answer request)
    (same : slot.held? after = slot.held? ledger.registry) :
    slot.TakesUp (ledger.add request answer after).calls ↔ slot.TakesUp ledger.calls := by
  rw [Ledger.calls_add, takesUp_append]
  refine or_iff_left (not_takesUp_of_still fun call member => ?_)
  obtain rfl := List.mem_singleton.1 member
  exact same

end Entries

end Slot

end NodeFleet.Snapshot
