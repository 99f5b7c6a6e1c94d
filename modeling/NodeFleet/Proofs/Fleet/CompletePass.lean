import NodeFleet.Proofs.Fleet.OrdinalSet
import NodeFleet.Proofs.Rollout
import NodeFleet.Proofs.Store.Outcomes
import NodeFleet.Proofs.Store.Unfailing

/-!
# Passes that get to their end

When no call fails, a pass over members that it can compare makes every call of its plan.
What it leaves of a member is decided by the one call that is for the member, if there is
one.
-/

namespace NodeFleet.Fleet

open Calendar Resource Store

namespace MemberKind

/-- What tells an outdated member from one that is up to date. -/
def revision : (kind : MemberKind) → kind.kind.Object → Option String
  | .pod => Pod.digest?
  | .volumeClaim => VolumeClaim.requestedStorage?

theorem needsUpdate_eq (kind : MemberKind) (live wanted : kind.kind.Object) :
    kind.needsUpdate live wanted = (kind.revision live != kind.revision wanted) := by
  cases kind <;> rfl

theorem needsUpdate_eq_false_iff {kind : MemberKind} {live wanted : kind.kind.Object} :
    kind.needsUpdate live wanted = false ↔ kind.revision live = kind.revision wanted := by
  rw [needsUpdate_eq, bne_eq_false_iff_eq]

theorem revision_withMetadata (kind : MemberKind) (owner : OwnerReference)
    (wanted : kind.kind.Object) {metadata : ObjectMeta}
    (same : metadata.annotations = (kind.kind.metadata wanted).annotations) :
    kind.revision (kind.kind.withMetadata metadata (kind.withOwner owner wanted)) =
      kind.revision wanted := by
  cases kind with
  | pod =>
      have sameMap : metadata.annotationMap = (Pod.metadata wanted).annotationMap :=
        congrArg (fun annotations => annotations.getD .empty) same
      exact congrArg (KeyMap.find? · podHashKey) sameMap
  | volumeClaim => rfl

end MemberKind

namespace OrdinalSet

variable {mayFail : Request → Prop} {σ : Type} {set : OrdinalSet} {kind : MemberKind}
  {desired : List kind.kind.Object} {now : Instant} {registry before after : Registry}
  {changes : Changes kind.kind.Object}

/-! ## The outcome -/

/-- Whether there is nothing to do, and as many members are available as are desired. -/
def isSettled (set : OrdinalSet) (kind : MemberKind) (desired : List kind.kind.Object)
    (now : Instant) (registry : Registry) : Bool :=
  match set.differences kind desired registry with
  | .error _ => false
  | .ok changes => !changes.isScaling && changes.updates.isEmpty &&
      decide (desired.length ≤ set.listedAvailable kind now registry)

theorem isSettled_eq (found : set.differences kind desired registry = .ok changes) :
    set.isSettled kind desired now registry = (!changes.isScaling && changes.updates.isEmpty &&
      decide (desired.length ≤ set.listedAvailable kind now registry)) := by
  simp only [isSettled, found]

theorem isSettled_iff_of_found (found : set.differences kind desired registry = .ok changes) :
    set.isSettled kind desired now registry = true ↔ changes.isScaling = false ∧
      changes.updates = [] ∧ desired.length ≤ set.listedAvailable kind now registry := by
  simp [isSettled_eq found, and_assoc]

/-- What a pass over a set reports. -/
def outcome (set : OrdinalSet) (kind : MemberKind) (desired : List kind.kind.Object)
    (now : Instant) (registry : Registry) : SetOutcome :=
  ⟨set.isSettled kind desired now registry, set.listedAvailable kind now registry⟩

theorem ensures_outcome (set : OrdinalSet) (kind : MemberKind) (desired : List kind.kind.Object)
    (now : Instant) (state : σ) (ledger : Ledger) :
    (set.reconcile kind desired now : Pass σ SetOutcome).Ensures mayFail
      (fun outcome _ _ => outcome = set.outcome kind desired now ledger.registry)
      (fun _ _ _ => True) state ledger := by
  refine Pass.ensures_bind (Pass.ensures_attempt (Exchange.ensures_list ?_ ?_))
  · refine Pass.ensures_bind ?_
    change Pass.Ensures mayFail (OrdinalSet.changes kind (set.listed kind ledger.registry) desired)
      _ _ _ _
    rw [changes_listed_eq]
    cases found : set.differences kind desired ledger.registry with
    | error fault => exact Pass.ensures_throw _ trivial
    | ok changes =>
        apply Pass.ensures_pure
        refine Pass.Leads.ensures ?_
        have settled : set.isSettled kind desired now ledger.registry = _ := isSettled_eq found
        by_cases scaling : changes.isScaling = true
        · rw [if_pos scaling, outcome, settled, scaling]
          exact Pass.leads_bind_pure _ _ _
        have steady : changes.isScaling = false := by simpa using scaling
        rw [if_neg scaling]
        by_cases none : desired = []
        · have upToDate : changes.updates = [] := by
            refine List.eq_nil_iff_forall_not_mem.2 fun wanted member => ?_
            have inDesired := (((lead_of_diff found).mem_updates wanted).1 member).1
            rw [none] at inDesired
            cases inDesired
          rw [if_pos (List.isEmpty_iff.2 none), outcome, settled, steady, upToDate, none]
          exact Pass.leads_pure rfl
        rw [if_neg (by simpa using none)]
        by_cases upToDate : changes.updates = []
        · rw [if_pos (List.isEmpty_iff.2 upToDate), outcome, settled, steady, upToDate]
          exact Pass.leads_pure rfl
        have outdated : changes.updates.isEmpty = false := by simpa using upToDate
        rw [if_neg (by simpa using upToDate), outcome, settled, steady, outdated]
        apply Pass.leads_bind
        exact (Pass.leads_trivial _ _).mono (fun _ _ _ => Pass.leads_bind_pure _ _ _)
          fun _ _ halts => halts
  · exact fun _ _ _ => trivial

/-! ## Members in order -/

/-- The members that have to be patched are read as they were written, as all are that a
server has stored as text. -/
def Legible (set : OrdinalSet) (kind : MemberKind) (desired : List kind.kind.Object)
    (registry : Registry) : Prop :=
  kind.strategy = .inPlacePatch → ∀ live ∈ set.listed kind registry, ∀ wanted ∈ desired,
    (kind.kind.metadata live).shownName = (kind.kind.metadata wanted).shownName →
      kind.needsUpdate live wanted = true → kind.kind.read (kind.kind.write live) = some live

/-- At the names of desired members there are none but listed objects. -/
def Unoccupied (set : OrdinalSet) (kind : MemberKind) (desired : List kind.kind.Object)
    (registry : Registry) : Prop :=
  ∀ wanted ∈ desired, ∀ object,
    registry.find? kind.kind set.space (kind.kind.metadata wanted).shownName = some object →
      object ∈ set.listed kind registry

/-- Listed members that a pass can compare and change, and no other objects at the names of
the desired ones. -/
structure Orderly (set : OrdinalSet) (kind : MemberKind) (desired : List kind.kind.Object)
    (registry : Registry) : Prop where
  readable : ∀ live ∈ set.listed kind registry, HasPosition kind.kind.metadata live
  named : ∀ live ∈ set.listed kind registry, (kind.kind.metadata live).shownName ≠ ""
  legible : set.Legible kind desired registry
  unoccupied : set.Unoccupied kind desired registry

/-- Desired members that a pass can tell apart, create, find again and bring up to date,
within the range of the numbers that it computes with. -/
structure Attainable (set : OrdinalSet) (kind : MemberKind) (desired : List kind.kind.Object) :
    Prop where
  readable : ∀ wanted ∈ desired, HasPosition kind.kind.metadata wanted
  nodup : (desired.map fun wanted => (kind.kind.metadata wanted).shownName).Nodup
  named : ∀ wanted ∈ desired, ∃ name, (kind.kind.metadata wanted).name = some name ∧ name ≠ ""
  selected : ∀ wanted ∈ desired,
    Cluster.selects set.selector (kind.kind.metadata wanted).labelMap.find? = true
  patched : kind.strategy = .inPlacePatch → ∀ wanted ∈ desired, ∀ live : kind.kind.Object,
    kind.kind.read (kind.kind.write live) = some live → ∃ changed,
      kind.kind.read ((kind.updatePatch wanted).mergePatch (kind.kind.write live)) =
        some changed ∧ kind.kind.metadata changed = kind.kind.metadata live ∧
          kind.revision changed = kind.revision wanted
  desired_fits : (desired.length : Int) ≤ Text.Bounds.int32.high
  limit_fits : ∀ limit, set.maxUnavailable = some (.number limit) →
    limit ≤ Text.Bounds.int32.high

/-- Where there is nothing, nothing is out of order. -/
theorem orderly_of_absent (absent : ∀ name, registry.find? kind.kind set.space name = none) :
    set.Orderly kind desired registry := by
  have noneListed : ∀ live, live ∉ set.listed kind registry := by
    intro live listed
    have there := find?_of_mem_listed listed
    rw [absent] at there
    cases there
  constructor
  · exact fun live listed => absurd listed (noneListed live)
  · exact fun live listed => absurd listed (noneListed live)
  · exact fun _ live listed => absurd listed (noneListed live)
  · intro wanted _ object there
    rw [absent] at there
    cases there

section InOrder

variable (attainable : set.Attainable kind desired) (orderly : set.Orderly kind desired registry)

include attainable

theorem Attainable.name_eq {wanted : kind.kind.Object} (member : wanted ∈ desired) :
    (kind.kind.metadata wanted).name = some (kind.kind.metadata wanted).shownName ∧
      (kind.kind.metadata wanted).shownName ≠ "" := by
  obtain ⟨name, named, filled⟩ := attainable.named wanted member
  have shown : (kind.kind.metadata wanted).shownName = name := by
    simp [ObjectMeta.shownName, named]
  rw [shown]
  exact ⟨named, filled⟩

include orderly

theorem Orderly.exists_differences :
    ∃ changes, set.differences kind desired registry = .ok changes :=
  exists_diff orderly.readable (set.listed_nodup kind registry) attainable.readable
    attainable.nodup

/-- Members in order leave a pass with a plan. -/
theorem Orderly.exists_plan (now : Instant) :
    ∃ plan, set.plan kind desired now registry = .ok plan := by
  obtain ⟨changes, found⟩ := orderly.exists_differences attainable
  exact exists_plan_of_fits found attainable.desired_fits attainable.limit_fits now

end InOrder

/-! ## What each call leaves -/

/-- A stored member that is just as desired. -/
structure Matching (kind : MemberKind) (wanted stored : kind.kind.Object) : Prop where
  living : (kind.kind.metadata stored).isTerminating = false
  ordinal_eq : (kind.kind.metadata stored).ordinalText? =
    (kind.kind.metadata wanted).ordinalText?
  labels_eq : (kind.kind.metadata stored).labels = (kind.kind.metadata wanted).labels
  revision_eq : kind.revision stored = kind.revision wanted

/-- What the renewal of a member leaves: nothing that lasts, or the listed member, now up to
date. -/
def Renewed (set : OrdinalSet) (kind : MemberKind) (registry after : Registry)
    (wanted : kind.kind.Object) : Prop :=
  after.Leaving kind.kind set.space (kind.kind.metadata wanted).shownName ∨
    ∃ live ∈ set.listed kind registry, ∃ stored,
      (kind.kind.metadata live).shownName = (kind.kind.metadata wanted).shownName ∧
      after.find? kind.kind set.space (kind.kind.metadata wanted).shownName = some stored ∧
      kind.kind.metadata stored = kind.kind.metadata live ∧
      kind.revision stored = kind.revision wanted

theorem metadata_withOwner (kind : MemberKind) (owner : OwnerReference)
    (wanted : kind.kind.Object) :
    (kind.kind.metadata (kind.withOwner owner wanted)).name = (kind.kind.metadata wanted).name ∧
      (kind.kind.metadata (kind.withOwner owner wanted)).labels =
        (kind.kind.metadata wanted).labels ∧
      (kind.kind.metadata (kind.withOwner owner wanted)).annotations =
        (kind.kind.metadata wanted).annotations := by
  cases kind <;> exact ⟨rfl, rfl, rfl⟩

theorem matching_of_stamped {wanted : kind.kind.Object} {metadata : ObjectMeta}
    {space : String} {owner : OwnerReference}
    (stamped : Stamped space (kind.kind.metadata (kind.withOwner owner wanted)) metadata) :
    Matching kind wanted
      (kind.kind.withMetadata metadata (kind.withOwner owner wanted)) := by
  obtain ⟨_, sameLabels, sameAnnotations⟩ := metadata_withOwner kind owner wanted
  have annotated := stamped.annotations.trans sameAnnotations
  constructor
  · rw [Kind.metadata_withMetadata, ObjectMeta.isTerminating, stamped.living]
    rfl
  · rw [Kind.metadata_withMetadata, ObjectMeta.ordinalText?, ObjectMeta.annotationMap, annotated]
    rfl
  · rw [Kind.metadata_withMetadata, stamped.labels, sameLabels]
  · exact kind.revision_withMetadata owner wanted annotated

section Effects

variable (attainable : set.Attainable kind desired) (orderly : set.Orderly kind desired registry)
  (found : set.differences kind desired registry = .ok changes)

include attainable orderly found

theorem ok_of_creation {wanted : kind.kind.Object} (created : wanted ∈ changes.creates)
    {answer : Answer (set.creation kind wanted)}
    (served : Serves (fun _ => False) (set.creation kind wanted) before answer after)
    (same : before.find? kind.kind set.space (kind.kind.metadata wanted).shownName =
      registry.find? kind.kind set.space (kind.kind.metadata wanted).shownName) :
    ∃ reply, answer = some (.ok reply) := by
  obtain ⟨inDesired, missing⟩ := ((lead_of_differences found).mem_creates wanted).1 created
  have absent : before.find? kind.kind set.space (kind.kind.metadata wanted).shownName =
      none := by
    rw [same]
    refine Option.eq_none_iff_forall_ne_some.2 fun object there => ?_
    have listed := orderly.unoccupied wanted inDesired object there
    exact missing object listed (Registry.isPlaced_of_find? there).shownName_eq
  have named := (metadata_withOwner kind set.owner wanted).1.trans
    (attainable.name_eq inDesired).1
  exact ok_of_create served named absent

omit attainable orderly in
theorem ok_of_deletion {live : kind.kind.Object} (deleted : live ∈ changes.deletes)
    {answer : Answer (set.deletion kind live)}
    (served : Serves (fun _ => False) (set.deletion kind live) before answer after)
    (same : before.find? kind.kind set.space (kind.kind.metadata live).shownName =
      registry.find? kind.kind set.space (kind.kind.metadata live).shownName) :
    ∃ reply, answer = some (.ok reply) :=
  ok_of_delete served (same.trans
    (find?_of_mem_listed (((lead_of_differences found).mem_deletes live).1 deleted).1))

theorem effect_of_renewal {wanted : kind.kind.Object} (updated : wanted ∈ changes.updates)
    {answer : Answer (set.renewal kind wanted)}
    (served : Serves (fun _ => False) (set.renewal kind wanted) before answer after)
    (same : before.find? kind.kind set.space (kind.kind.metadata wanted).shownName =
      registry.find? kind.kind set.space (kind.kind.metadata wanted).shownName) :
    (∃ reply, answer = some (.ok reply)) ∧ set.Renewed kind registry after wanted := by
  obtain ⟨inDesired, live, listed, sameName, differs⟩ :=
    ((lead_of_differences found).mem_updates wanted).1 updated
  have outdated : kind.needsUpdate live wanted = true := by simpa using differs
  have there : before.find? kind.kind set.space (kind.kind.metadata wanted).shownName =
      some live := by
    rw [same, ← sameName]
    exact find?_of_mem_listed listed
  cases kind with
  | pod =>
      have succeeds := ok_of_delete served there
      exact ⟨succeeds, Or.inl (leaving_of_delete_ok served succeeds)⟩
  | volumeClaim =>
      obtain ⟨changed, reads, sameMetadata, current⟩ :=
        attainable.patched rfl wanted inDesired live
          (orderly.legible rfl live listed wanted inDesired sameName outdated)
      have placed := Registry.isPlaced_of_find? there
      obtain ⟨succeeds, stored⟩ := ok_of_patch served there reads
        ⟨sameMetadata ▸ placed.named, sameMetadata ▸ placed.inSpace⟩
      exact ⟨succeeds, Or.inr ⟨live, listed, changed, sameName, stored, sameMetadata, current⟩⟩

end Effects

/-! ## The places of a plan -/

section Places

variable (attainable : set.Attainable kind desired)

/-- The calls that scale a set. -/
def scalingCalls (set : OrdinalSet) (kind : MemberKind) (changes : Changes kind.kind.Object) :
    List Request :=
  changes.creates.map (set.creation kind) ++ changes.deletes.map (set.deletion kind)

theorem place?_renewal_eq (set : OrdinalSet) (kind : MemberKind) (wanted : kind.kind.Object) :
    (set.renewal kind wanted).place? =
      some (kind.kind, set.space, (kind.kind.metadata wanted).shownName) := by
  cases kind <;> rfl

/-- Calls for members of distinct names are for distinct places. -/
theorem filterMap_place?_eq (set : OrdinalSet) {request : kind.kind.Object → Request}
    {members : List kind.kind.Object}
    (placed : ∀ member ∈ members, (request member).place? =
      some (kind.kind, set.space, (kind.kind.metadata member).shownName)) :
    (members.map request).filterMap Request.place? =
      (members.map fun member => (kind.kind.metadata member).shownName).map
        fun name => (kind.kind, set.space, name) := by
  rw [List.filterMap_map, List.map_map, ← List.filterMap_eq_map]
  exact List.filterMap_congr placed

theorem place?_creation_of_named {wanted : kind.kind.Object}
    (named : (kind.kind.metadata wanted).name = some (kind.kind.metadata wanted).shownName) :
    (set.creation kind wanted).place? =
      some (kind.kind, set.space, (kind.kind.metadata wanted).shownName) := by
  have created := (metadata_withOwner kind set.owner wanted).1.trans named
  simp only [creation, Request.place?, created, Option.getD_some]

theorem place_injective (kind : Kind) (space : String) :
    Function.Injective fun name : String => (kind, space, name) :=
  fun _ _ same => congrArg (fun place => place.2.2) same

theorem place?_of_mem_scalingCalls
    (named : ∀ wanted ∈ changes.creates,
      (kind.kind.metadata wanted).name = some (kind.kind.metadata wanted).shownName)
    {request : Request} (inPlan : request ∈ set.scalingCalls kind changes) :
    ∃ member ∈ changes.creates ++ changes.deletes,
      request.place? = some (kind.kind, set.space, (kind.kind.metadata member).shownName) := by
  rcases List.mem_append.1 inPlan with creation | deletion
  · obtain ⟨wanted, created, rfl⟩ := List.mem_map.1 creation
    exact ⟨wanted, List.mem_append_left _ created,
      place?_creation_of_named (named wanted created)⟩
  · obtain ⟨live, deleted, rfl⟩ := List.mem_map.1 deletion
    exact ⟨live, List.mem_append_right _ deleted, place?_deletion set kind live⟩

/-- The calls of a scaling are for distinct places. -/
theorem apart_scalingCalls
    (named : ∀ wanted ∈ desired,
      (kind.kind.metadata wanted).name = some (kind.kind.metadata wanted).shownName)
    (found : set.differences kind desired registry = .ok changes) :
    Apart (set.scalingCalls kind changes) := by
  have lead := lead_of_differences found
  rw [Apart, scalingCalls, List.filterMap_append,
    filterMap_place?_eq set fun wanted created =>
      place?_creation_of_named (named wanted ((lead.mem_creates wanted).1 created).1),
    filterMap_place?_eq set fun live _ => place?_deletion set kind live, ← List.map_append]
  refine List.Nodup.map (place_injective _ _) (List.nodup_append.2
    ⟨nodup_creates_of_diff found, lead.deletes_nodup, ?_⟩)
  rintro name inCreates other inDeletes rfl
  obtain ⟨wanted, created, rfl⟩ := List.mem_map.1 inCreates
  obtain ⟨live, deleted, same⟩ := List.mem_map.1 inDeletes
  exact ((lead.mem_deletes live).1 deleted).2 wanted ((lead.mem_creates wanted).1 created).1
    same.symm

include attainable

theorem place?_creation_eq {wanted : kind.kind.Object} (inDesired : wanted ∈ desired) :
    (set.creation kind wanted).place? =
      some (kind.kind, set.space, (kind.kind.metadata wanted).shownName) :=
  place?_creation_of_named (attainable.name_eq inDesired).1

theorem Attainable.apart {plan : List Request}
    (planned : set.plan kind desired now registry = .ok plan) : Apart plan := by
  obtain ⟨changes, found, ⟨_, rfl⟩ | ⟨_, rfl⟩ | ⟨_, _, _, budget, _, rfl⟩⟩ := plan_eq_ok planned
  · exact apart_scalingCalls (fun wanted inDesired => (attainable.name_eq inDesired).1) found
  · exact List.nodup_nil
  · have lead := lead_of_differences found
    rw [Apart, filterMap_place?_eq set fun wanted _ => place?_renewal_eq set kind wanted]
    exact List.Nodup.map (place_injective _ _)
      (lead.updates_nodup.sublist ((List.take_sublist budget.toNat _).map _))

end Places

/-! ## Complete passes -/

/-- What scaling leaves. -/
structure Scaled (set : OrdinalSet) (kind : MemberKind) (changes : Changes kind.kind.Object)
    (before after : Registry) : Prop where
  created : ∀ wanted ∈ changes.creates, ∃ stored,
    after.find? kind.kind set.space (kind.kind.metadata wanted).shownName = some stored ∧
      Matching kind wanted stored
  deleted : ∀ live ∈ changes.deletes,
    after.Leaving kind.kind set.space (kind.kind.metadata live).shownName
  kept : ∀ name, (∀ wanted ∈ changes.creates, (kind.kind.metadata wanted).shownName ≠ name) →
    (∀ live ∈ changes.deletes, (kind.kind.metadata live).shownName ≠ name) →
      after.find? kind.kind set.space name = before.find? kind.kind set.space name

/-- A call that creates a member finds nothing in its place, and the member stays there when no
other call is for that place. -/
theorem matching_of_creation {calls : List Call} {call : Call} {wanted : kind.kind.Object}
    (chain : Chain mayFail before calls after) (apart : Apart (calls.map (·.request)))
    (member : call ∈ calls) (creates : call.request = set.creation kind wanted)
    (named : (kind.kind.metadata wanted).name = some (kind.kind.metadata wanted).shownName)
    (applied : ¬ call.Fails) :
    before.find? kind.kind set.space (kind.kind.metadata wanted).shownName = none ∧ ∃ stored,
      after.find? kind.kind set.space (kind.kind.metadata wanted).shownName = some stored ∧
        Matching kind wanted stored := by
  obtain ⟨request, answer, callBefore, callAfter⟩ := call
  obtain rfl : request = set.creation kind wanted := creates
  obtain ⟨same, leaves, served⟩ := chain.effect apart member (place?_creation_of_named named)
  have namedToo := (metadata_withOwner kind set.owner wanted).1.trans named
  obtain ⟨absent, metadata, stamped, stored⟩ := created_of_not_fails served applied namedToo
  exact ⟨same.symm.trans absent, _, leaves.trans stored, matching_of_stamped stamped⟩

/-- Calls that carry out a scaling leave what it asks for, and find nothing where they create. -/
theorem scaled_of_carriesOut {calls : List Call}
    (named : ∀ wanted ∈ changes.creates,
      (kind.kind.metadata wanted).name = some (kind.kind.metadata wanted).shownName)
    (apart : Apart (set.scalingCalls kind changes))
    (carried : CarriesOut (set.listing kind :: set.scalingCalls kind changes) calls)
    (chain : Chain mayFail before calls after) :
    set.Scaled kind changes before after ∧ ∀ wanted ∈ changes.creates,
      before.find? kind.kind set.space (kind.kind.metadata wanted).shownName = none := by
  have apartCalls : Apart (calls.map (·.request)) := by
    rw [carried.requests_eq, Apart, List.filterMap_cons_none rfl]
    exact apart
  have made : ∀ request ∈ set.scalingCalls kind changes,
      ∃ call ∈ calls, call.request = request := by
    intro request inPlan
    refine List.mem_map.1 ?_
    rw [carried.requests_eq]
    exact List.mem_cons_of_mem _ inPlan
  have creates : ∀ wanted ∈ changes.creates,
      before.find? kind.kind set.space (kind.kind.metadata wanted).shownName = none ∧ ∃ stored,
        after.find? kind.kind set.space (kind.kind.metadata wanted).shownName = some stored ∧
          Matching kind wanted stored := by
    intro wanted created
    obtain ⟨call, member, creates⟩ :=
      made _ (List.mem_append_left _ (List.mem_map_of_mem created))
    exact matching_of_creation chain apartCalls member creates (named wanted created)
      (carried.none_fails call member)
  refine ⟨⟨fun wanted created => (creates wanted created).2, fun live deleted => ?_,
    fun name uncreated undeleted => ?_⟩, fun wanted created => (creates wanted created).1⟩
  · obtain ⟨⟨_, _, _, _⟩, member, rfl⟩ :=
      made _ (List.mem_append_right _ (List.mem_map_of_mem deleted))
    obtain ⟨_, leaves, served⟩ :=
      chain.effect apartCalls member (place?_deletion set kind live)
    exact (leaving_of_not_fails served (carried.none_fails _ member)).of_find?_eq leaves
  · refine chain.find?_eq fun call member place => ?_
    rcases List.mem_cons.1 (carried.breaksOff.request_mem member) with listing | inPlan
    · rw [listing] at place
      cases place
    obtain ⟨member, among, aimed⟩ := place?_of_mem_scalingCalls named inPlan
    have sameName : (kind.kind.metadata member).shownName = name := by
      simpa using aimed.symm.trans place
    rcases List.mem_append.1 among with created | deleted
    · exact uncreated member created sameName
    · exact undeleted member deleted sameName

/-- What the renewal of some members leaves. -/
structure RolledOut (set : OrdinalSet) (kind : MemberKind) (taken : List kind.kind.Object)
    (before after : Registry) : Prop where
  renewed : ∀ wanted ∈ taken, set.Renewed kind before after wanted
  kept : ∀ name, (∀ wanted ∈ taken, (kind.kind.metadata wanted).shownName ≠ name) →
    after.find? kind.kind set.space name = before.find? kind.kind set.space name

/-- A pass over a set that made all calls of its plan, each with success. -/
structure Completed (set : OrdinalSet) (kind : MemberKind) (desired : List kind.kind.Object)
    (now : Instant) (before : Registry) (plan : List Request) (calls : List Call)
    (after : Registry) : Prop where
  planned : set.plan kind desired now before = .ok plan
  requests_eq : calls.map (·.request) = set.listing kind :: plan
  succeed : ∀ call ∈ calls, call.Succeeds
  chain : Chain (fun _ => False) before calls after

section Completion

variable {plan : List Request} {calls : List Call}

theorem apart_of_prefix (attainable : set.Attainable kind desired)
    (planned : set.plan kind desired now registry = .ok plan)
    (made : calls.map (·.request) <+: set.listing kind :: plan) :
    Apart (calls.map (·.request)) := by
  have whole : Apart (set.listing kind :: plan) := by
    rw [Apart, List.filterMap_cons_none rfl]
    exact attainable.apart planned
  exact whole.sublist (made.filterMap Request.place?).sublist

/-- When no call fails, the calls of a pass over members in order succeed. -/
theorem Orderly.succeeds (orderly : set.Orderly kind desired registry)
    (attainable : set.Attainable kind desired)
    (planned : set.plan kind desired now registry = .ok plan)
    (broken : BreaksOff (set.listing kind :: plan) calls)
    (chain : Chain (fun _ => False) registry calls after) : ∀ call ∈ calls, call.Succeeds := by
  intro call member
  have apart := apart_of_prefix attainable planned broken.requests_prefix
  have unchanged : ∀ name, call.request.place? = some (kind.kind, set.space, name) →
      call.before.find? kind.kind set.space name = registry.find? kind.kind set.space name :=
    fun name aimed => (chain.effect apart member aimed).1
  have served := chain.served call member
  have requested := broken.request_mem member
  obtain ⟨request, answer, callBefore, callAfter⟩ := call
  rcases List.mem_cons.1 requested with rfl | inPlan
  · exact ok_of_list served
  obtain ⟨changes, found, ⟨_, rfl⟩ | ⟨_, rfl⟩ | ⟨_, _, _, budget, _, rfl⟩⟩ := plan_eq_ok planned
  · rcases List.mem_append.1 inPlan with creation | deletion
    · obtain ⟨wanted, created, rfl⟩ := List.mem_map.1 creation
      have inDesired := (((lead_of_differences found).mem_creates wanted).1 created).1
      have aimed := place?_creation_eq attainable inDesired
      exact ok_of_creation attainable orderly found created served (unchanged _ aimed)
    · obtain ⟨live, deleted, rfl⟩ := List.mem_map.1 deletion
      exact ok_of_deletion found deleted served (unchanged _ rfl)
  · cases inPlan
  · obtain ⟨wanted, taken, rfl⟩ := List.mem_map.1 inPlan
    have aimed := place?_renewal_eq set kind wanted
    exact (effect_of_renewal attainable orderly found (List.mem_of_mem_take taken) served
      (unchanged _ aimed)).1

/-- Where all members have a name, no call of a plan lacks one. -/
theorem target?_ne_of_planned
    (listedNamed : ∀ live ∈ set.listed kind registry, (kind.kind.metadata live).shownName ≠ "")
    (desiredNamed : ∀ wanted ∈ desired, (kind.kind.metadata wanted).shownName ≠ "")
    (planned : set.plan kind desired now registry = .ok plan) :
    ∀ request ∈ plan, request.target? ≠ some "" := by
  intro request inPlan nameless
  obtain ⟨changes, found, ⟨_, rfl⟩ | ⟨_, rfl⟩ | ⟨_, _, _, budget, _, rfl⟩⟩ := plan_eq_ok planned
  · rcases List.mem_append.1 inPlan with creation | deletion
    · obtain ⟨wanted, created, rfl⟩ := List.mem_map.1 creation
      cases nameless
    · obtain ⟨live, deleted, rfl⟩ := List.mem_map.1 deletion
      have listed := (((lead_of_differences found).mem_deletes live).1 deleted).1
      exact listedNamed live listed (Option.some.inj nameless)
  · cases inPlan
  · obtain ⟨wanted, taken, rfl⟩ := List.mem_map.1 inPlan
    have inDesired := (((lead_of_differences found).mem_updates wanted).1
      (List.mem_of_mem_take taken)).1
    refine desiredNamed wanted inDesired ?_
    cases kind with
    | pod => exact Option.some.inj nameless
    | volumeClaim => exact Option.some.inj nameless

/-- A pass with a plan carries it out, unless one of its calls does not succeed. -/
theorem ensures_reached (now : Instant) (state : σ) (ledger : Ledger)
    (planned : set.plan kind desired now ledger.registry = .ok plan)
    (named : ∀ request ∈ plan, request.target? ≠ some "") :
    (set.reconcile kind desired now : Pass σ SetOutcome).Ensures mayFail
      (fun outcome _ final => outcome = set.outcome kind desired now ledger.registry ∧
        ∃ calls, final.calls = ledger.calls ++ calls ∧
          CarriesOut (set.listing kind :: plan) calls)
      (fun _ _ final => ∃ calls, final.calls = ledger.calls ++ calls ∧
        BreaksOff (set.listing kind :: plan) calls ∧ ∃ call ∈ calls, ¬ call.Succeeds)
      state ledger := by
  refine ((ensures_adheres state ledger planned).and
    (ensures_outcome set kind desired now state ledger)).mono ?_ ?_
  · rintro outcome _ final ⟨⟨calls, made, adheres⟩, reported⟩
    exact ⟨reported, calls, made, adheres.carriesOut ⟨⟩⟩
  · rintro halt _ final ⟨⟨_, calls, made, adheres⟩, _⟩
    refine ⟨calls, made, adheres.breaksOff, ?_⟩
    -- No call of the plan is left out for want of a name.
    rcases adheres.hindered id with ⟨call, member, hinders⟩ | ⟨request, inPlan, nameless⟩
    · exact ⟨call, member, hinders.not_succeeds⟩
    · rcases List.mem_cons.1 inPlan with rfl | inPlan
      · cases nameless
      · exact absurd nameless (named request inPlan)

/-- When no call fails, a pass over members in order gets to its end. -/
theorem ensures_completed (now : Instant) (state : σ) (ledger : Ledger)
    (orderly : set.Orderly kind desired ledger.registry)
    (attainable : set.Attainable kind desired) :
    (set.reconcile kind desired now : Pass σ SetOutcome).Ensures (fun _ => False)
      (fun outcome _ final => outcome = set.outcome kind desired now ledger.registry ∧
        ∃ plan calls, final.calls = ledger.calls ++ calls ∧
          set.Completed kind desired now ledger.registry plan calls final.registry)
      (fun _ _ _ => False) state ledger := by
  obtain ⟨plan, planned⟩ := orderly.exists_plan attainable now
  have named := target?_ne_of_planned orderly.named
    (fun wanted inDesired => (attainable.name_eq inDesired).2) planned
  apply Pass.ensures_of_opened
  refine ((ensures_reached now state (.opened ledger.registry) planned named).and
    (Pass.ensures_chain _ state ledger.registry)).mono ?_ ?_
  · rintro outcome _ final ⟨⟨reported, calls, made, carried⟩, chain⟩
    obtain rfl : final.calls = calls := made
    have succeed := orderly.succeeds attainable planned carried.breaksOff chain
    exact ⟨reported, plan, final.calls, rfl, planned, carried.requests_eq, succeed, chain⟩
  · rintro halt _ final ⟨⟨calls, made, broken, call, member, unsuccessful⟩, chain⟩
    obtain rfl : final.calls = calls := made
    exact unsuccessful (orderly.succeeds attainable planned broken chain call member)

namespace Completed

variable (completed : set.Completed kind desired now before plan calls after)
  (attainable : set.Attainable kind desired)

include completed

theorem carried : CarriesOut (set.listing kind :: plan) calls :=
  ⟨completed.requests_eq, fun call member => (completed.succeed call member).not_fails⟩

theorem course : set.Course kind desired now before calls :=
  Or.inr ⟨plan, completed.planned, completed.carried.breaksOff⟩

omit completed in
/-- A pass without a plan does no more than look. -/
theorem request_eq_of_idle (completed : set.Completed kind desired now before [] calls after)
    {call : Call} (member : call ∈ calls) : call.request = set.listing kind := by
  have requested : call.request ∈ calls.map (·.request) := List.mem_map_of_mem member
  rw [completed.requests_eq] at requested
  exact List.mem_singleton.1 requested

/-- A complete pass leaves objects of other kinds alone. -/
theorem find?_eq_of_ne {other : Kind} (different : other ≠ kind.kind) (space name : String) :
    after.find? other space name = before.find? other space name := by
  refine completed.chain.find?_eq fun call member aimed => ?_
  rcases completed.course.request_cases member with listing | memberCall
  · rw [listing] at aimed
    cases aimed
  · exact different (memberCall.kind_eq_of_place? aimed)

include attainable

/-- What a complete pass leaves at a place that a call of its plan is for. -/
theorem effect {request : Request} (inPlan : request ∈ plan) {name : String}
    (aimed : request.place? = some (kind.kind, set.space, name)) :
    ∃ answer middle left, Serves (fun _ => False) request middle answer left ∧
      middle.find? kind.kind set.space name = before.find? kind.kind set.space name ∧
      after.find? kind.kind set.space name = left.find? kind.kind set.space name := by
  have made : calls.map (·.request) <+: set.listing kind :: plan := by
    simp only [completed.requests_eq, List.prefix_rfl]
  have apart := apart_of_prefix attainable completed.planned made
  have requested : request ∈ calls.map (·.request) := by
    rw [completed.requests_eq]
    exact List.mem_cons_of_mem _ inPlan
  obtain ⟨call, member, rfl⟩ := List.mem_map.1 requested
  obtain ⟨same, left, served⟩ := completed.chain.effect apart member aimed
  exact ⟨_, _, _, served, same, left⟩

omit attainable in
/-- A complete pass leaves what no call of its plan is for. -/
theorem kept {name : String}
    (untouched : ∀ request ∈ plan, request.place? ≠ some (kind.kind, set.space, name)) :
    after.find? kind.kind set.space name = before.find? kind.kind set.space name := by
  refine completed.chain.find?_eq fun call member => ?_
  have requested : call.request ∈ set.listing kind :: plan :=
    completed.requests_eq ▸ List.mem_map_of_mem member
  rcases List.mem_cons.1 requested with listing | inPlan
  · rw [listing]
    exact fun aimed => nomatch aimed
  · exact untouched call.request inPlan

theorem scaled (found : set.differences kind desired before = .ok changes)
    (scaling : changes.isScaling = true) : set.Scaled kind changes before after := by
  have named : ∀ wanted ∈ desired,
      (kind.kind.metadata wanted).name = some (kind.kind.metadata wanted).shownName :=
    fun wanted inDesired => (attainable.name_eq inDesired).1
  have lead := lead_of_differences found
  obtain rfl := Except.ok.inj (completed.planned.symm.trans (plan_of_scaling found scaling))
  exact (scaled_of_carriesOut
    (fun wanted created => named wanted ((lead.mem_creates wanted).1 created).1)
    (apart_scalingCalls named found) completed.carried completed.chain).1

theorem rolledOut (orderly : set.Orderly kind desired before)
    (found : set.differences kind desired before = .ok changes)
    {taken : List kind.kind.Object} (within : taken ⊆ changes.updates)
    (planned : set.plan kind desired now before = .ok (taken.map (set.renewal kind))) :
    set.RolledOut kind taken before after := by
  obtain rfl := Except.ok.inj (completed.planned.symm.trans planned)
  constructor
  · intro wanted inTaken
    obtain ⟨answer, middle, left, served, same, leaves⟩ := completed.effect attainable
      (List.mem_map_of_mem inTaken) (place?_renewal_eq set kind wanted)
    have renewed := (effect_of_renewal attainable orderly found (within inTaken) served same).2
    rcases renewed with leaving | ⟨live, listed, stored, sameName, stays, sameMetadata, current⟩
    · exact Or.inl (leaving.of_find?_eq leaves)
    · exact Or.inr ⟨live, listed, stored, sameName, leaves.trans stays, sameMetadata, current⟩
  · intro name untaken
    refine completed.kept fun request inPlan place => ?_
    obtain ⟨wanted, inTaken, rfl⟩ := List.mem_map.1 inPlan
    rw [place?_renewal_eq] at place
    exact untaken wanted inTaken (by simpa using place)

/-- A complete pass scales; or it finds nothing to do; or it renews the first outdated
members, as many as the budget allows. -/
theorem fates (orderly : set.Orderly kind desired before)
    (found : set.differences kind desired before = .ok changes) :
    changes.isScaling = true ∧ set.Scaled kind changes before after ∨
      changes.isScaling = false ∧ changes.updates = [] ∧ set.RolledOut kind [] before after ∨
      changes.isScaling = false ∧ changes.updates ≠ [] ∧ ∃ budget,
        rolloutBudget set.maxUnavailable desired.length
            (set.listedAvailable kind now before) = .ok budget ∧
          set.RolledOut kind (changes.updates.take budget.toNat) before after := by
  by_cases scaling : changes.isScaling = true
  · exact Or.inl ⟨scaling, completed.scaled attainable found scaling⟩
  have steady : changes.isScaling = false := by simpa using scaling
  by_cases upToDate : changes.updates = []
  · have idle : set.plan kind desired now before = .ok [] :=
      plan_of_idle found steady (Or.inr upToDate)
    exact Or.inr (Or.inl ⟨steady, upToDate,
      completed.rolledOut attainable orderly found (List.nil_subset _) idle⟩)
  have members : desired ≠ [] := by
    obtain ⟨wanted, updated⟩ := List.exists_mem_of_ne_nil _ upToDate
    exact List.ne_nil_of_mem (((lead_of_differences found).mem_updates wanted).1 updated).1
  obtain ⟨budget, allowed⟩ := exists_budget_of_steady found steady members
    attainable.desired_fits attainable.limit_fits now
  have busy : set.plan kind desired now before =
      .ok ((changes.updates.take budget.toNat).map (set.renewal kind)) := by
    rw [plan_of_busy found steady members upToDate now, allowed]
  exact Or.inr (Or.inr ⟨steady, upToDate, budget, allowed,
    completed.rolledOut attainable orderly found (List.take_subset _ _) busy⟩)

end Completed

end Completion

end OrdinalSet

end NodeFleet.Fleet
