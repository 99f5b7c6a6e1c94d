import NodeFleet.Proofs.Store.Plans

/-!
# When no call fails

What calls come to on a server that answers each of them by what it holds, and what a
chain of calls leaves at a place that only one of them is for.
-/

namespace NodeFleet.Store

variable {kind : Kind} {space name : String} {before after : Registry}

theorem ok_of_list {selector : String} {answer : Answer (.list kind space selector)}
    (served : Serves (fun _ => False) (.list kind space selector) before answer after) :
    ∃ reply, answer = some (.ok reply) := by
  cases served with
  | listed => exact ⟨_, rfl⟩
  | failed may => exact may.elim
  | unanswered may => exact may.elim

theorem ok_of_delete {object : kind.Object} {answer : Answer (.delete kind space name)}
    (served : Serves (fun _ => False) (.delete kind space name) before answer after)
    (there : before.find? kind space name = some object) :
    ∃ reply, answer = some (.ok reply) := by
  cases served with
  | removed => exact ⟨_, rfl⟩
  | doomed => exact ⟨_, rfl⟩
  | nothingToDelete absent => exact absurd (there.symm.trans absent) (by simp)
  | failed may => exact may.elim
  | unanswered may => exact may.elim

/-- An object is gone or being deleted. -/
def Registry.Leaving (registry : Registry) (kind : Kind) (space name : String) : Prop :=
  ∀ object, registry.find? kind space name = some object →
    (kind.metadata object).isTerminating = true

theorem Registry.Leaving.of_find?_eq (leaving : before.Leaving kind space name)
    (same : after.find? kind space name = before.find? kind space name) :
    after.Leaving kind space name :=
  fun object there => leaving object (same ▸ there)

theorem leaving_of_delete_ok {mayFail : Request → Prop} {answer : Answer (.delete kind space name)}
    (served : Serves mayFail (.delete kind space name) before answer after)
    (succeeds : ∃ reply, answer = some (.ok reply)) : after.Leaving kind space name := by
  obtain ⟨reply, rfl⟩ := succeeds
  intro remaining found
  cases served with
  | removed there sets =>
      rw [sets.here] at found
      cases found
  | doomed there sets =>
      rw [sets.here] at found
      obtain rfl := Option.some.inj found
      rw [Kind.doomed, Kind.metadata_withMetadata]
      rfl

theorem ok_of_create {object : kind.Object} {answer : Answer (.create kind space object)}
    (served : Serves (fun _ => False) (.create kind space object) before answer after)
    (named : (kind.metadata object).name = some name)
    (absent : before.find? kind space name = none) :
    ∃ reply, answer = some (.ok reply) := by
  cases served with
  | created => exact ⟨_, rfl⟩
  | taken sameName there =>
      obtain rfl := Option.some.inj (named.symm.trans sameName)
      exact absurd (there.symm.trans absent) (by simp)
  | nameless unnamed => exact absurd (named.symm.trans unnamed) (by simp)
  | failed may => exact may.elim
  | unanswered may => exact may.elim

/-- A creation that does not fail finds nothing at its place, and leaves the object there. -/
theorem created_of_not_fails {mayFail : Request → Prop} {object : kind.Object}
    {answer : Answer (.create kind space object)}
    (served : Serves mayFail (.create kind space object) before answer after)
    (applied : ¬ Call.Fails ⟨.create kind space object, answer, before, after⟩)
    (named : (kind.metadata object).name = some name) :
    before.find? kind space name = none ∧
      ∃ metadata, Stamped space (kind.metadata object) metadata ∧
        after.find? kind space name = some (kind.withMetadata metadata object) := by
  cases served with
  | created sameName absent stamped sets =>
      obtain rfl := Option.some.inj (named.symm.trans sameName)
      exact ⟨absent, _, stamped, sets.here⟩
  | taken => exact absurd (claimsMissing_alreadyExists _ _) applied
  | nameless unnamed => exact absurd (named.symm.trans unnamed) (by simp)
  | failed may honest => exact absurd honest applied
  | unanswered => exact absurd trivial applied

/-- A deletion that does not fail leaves nothing that lasts. -/
theorem leaving_of_not_fails {mayFail : Request → Prop} {answer : Answer (.delete kind space name)}
    (served : Serves mayFail (.delete kind space name) before answer after)
    (applied : ¬ Call.Fails ⟨.delete kind space name, answer, before, after⟩) :
    after.Leaving kind space name := by
  cases answer with
  | none => exact absurd trivial applied
  | some result =>
      cases result with
      | ok reply => exact leaving_of_delete_ok served ⟨reply, rfl⟩
      | error failure =>
          cases served with
          | nothingToDelete absent =>
              intro object found
              rw [absent] at found
              cases found
          | failed may honest => exact absurd honest applied

theorem ok_of_patch {change : Json} {object changed : kind.Object}
    {answer : Answer (.patch kind space name change)}
    (served : Serves (fun _ => False) (.patch kind space name change) before answer after)
    (there : before.find? kind space name = some object)
    (reads : kind.read (change.mergePatch (kind.write object)) = some changed)
    (placed : kind.IsPlaced space name changed) :
    (∃ reply, answer = some (.ok reply)) ∧ after.find? kind space name = some changed := by
  cases served with
  | patched there' reads' sets =>
      obtain rfl := Option.some.inj (there.symm.trans there')
      obtain rfl := Option.some.inj (reads.symm.trans reads')
      exact ⟨⟨_, rfl⟩, sets.here⟩
  | misfit there' fits =>
      obtain rfl := Option.some.inj (there.symm.trans there')
      exact absurd placed (fits changed reads)
  | nothingToPatch absent => exact absurd (there.symm.trans absent) (by simp)
  | failed may => exact may.elim
  | unanswered may => exact may.elim

theorem Call.Succeeds.not_fails {call : Call} (succeeds : call.Succeeds) : ¬ call.Fails := by
  obtain ⟨reply, answered⟩ := succeeds
  simp [Call.Fails, answered]

/-- Calls that are for distinct places. -/
def Apart (requests : List Request) : Prop := (requests.filterMap Request.place?).Nodup

/-- The only call of a chain that is for a place finds there what the chain began with,
and what it leaves there stays. -/
theorem Chain.effect {mayFail : Request → Prop} {calls : List Call} {call : Call}
    (chain : Chain mayFail before calls after) (apart : Apart (calls.map (·.request)))
    (member : call ∈ calls) (aimed : call.request.place? = some (kind, space, name)) :
    call.before.find? kind space name = before.find? kind space name ∧
      after.find? kind space name = call.after.find? kind space name ∧
      Serves mayFail call.request call.before call.answer call.after := by
  obtain ⟨past, later, rfl⟩ := List.append_of_mem member
  obtain ⟨early, served, late⟩ := chain.before_eq
  rw [Apart, List.map_append, List.map_cons, List.filterMap_append,
    List.filterMap_cons_some aimed] at apart
  obtain ⟨_, restNodup, disjoint⟩ := List.nodup_append.1 apart
  have placed : ∀ other : Call, other.request.place? = some (kind, space, name) →
      ∀ calls : List Call, other ∈ calls →
        (kind, space, name) ∈ (calls.map (·.request)).filterMap Request.place? :=
    fun other aimed calls inCalls =>
      List.mem_filterMap.2 ⟨other.request, List.mem_map_of_mem inCalls, aimed⟩
  refine ⟨early.find?_eq fun other inPast same => ?_, late.find?_eq fun other inLater same => ?_,
    served⟩
  · exact disjoint _ (placed other same past inPast) _ List.mem_cons_self rfl
  · exact (List.nodup_cons.1 restNodup).1 (placed other same later inLater)

end NodeFleet.Store
