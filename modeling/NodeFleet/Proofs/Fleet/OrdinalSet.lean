import NodeFleet.Fleet.OrdinalSet
import NodeFleet.Proofs.Fleet.OrdinalDiff
import NodeFleet.Proofs.Rollout
import NodeFleet.Proofs.Store.Plans

/-!
# What a pass over an ordinal set does

What the server holds when a pass lists the members decides all calls that the
pass goes on to make.  The pass makes these calls, or breaks off after the first
of them that fails.
-/

namespace NodeFleet.Fleet

open Calendar Resource Store

namespace OrdinalSet

variable {mayFail : Request → Prop} {σ : Type}

def listing (set : OrdinalSet) (kind : MemberKind) : Request :=
  .list kind.kind set.space set.selector

def listed (set : OrdinalSet) (kind : MemberKind) (registry : Registry) :
    List kind.kind.Object :=
  registry.selected kind.kind set.space set.selector

def creation (set : OrdinalSet) (kind : MemberKind) (member : kind.kind.Object) : Request :=
  .create kind.kind set.space (kind.withOwner set.owner member)

def deletion (set : OrdinalSet) (kind : MemberKind) (member : kind.kind.Object) : Request :=
  .delete kind.kind set.space (kind.kind.metadata member).shownName

def renewal (set : OrdinalSet) (kind : MemberKind) (member : kind.kind.Object) : Request :=
  match kind.strategy with
  | .recreateOnDelete => set.deletion kind member
  | .inPlacePatch =>
      .patch kind.kind set.space (kind.kind.metadata member).shownName (kind.updatePatch member)

/-- The changes that lead from the listed members to the desired ones. -/
def differences (set : OrdinalSet) (kind : MemberKind) (desired : List kind.kind.Object)
    (registry : Registry) : Except DiffFault (Changes kind.kind.Object) :=
  diff kind.kind.metadata (fun live wanted => !kind.needsUpdate live wanted)
    (set.listed kind registry) desired

/-- The number of listed members that are available. -/
def listedAvailable (set : OrdinalSet) (kind : MemberKind) (now : Instant)
    (registry : Registry) : Nat :=
  (set.listed kind registry).countP (kind.isAvailable set.minReadySeconds now)

/-- The calls that a pass goes on to make once it has listed the members, or what
it breaks down with. -/
def plan (set : OrdinalSet) (kind : MemberKind) (desired : List kind.kind.Object)
    (now : Instant) (registry : Registry) : Except String (List Request) :=
  match set.differences kind desired registry with
  | .error fault => .error fault.message
  | .ok changes =>
      if changes.isScaling then
        .ok (changes.creates.map (set.creation kind) ++ changes.deletes.map (set.deletion kind))
      else if desired.isEmpty || changes.updates.isEmpty then .ok []
      else
        match rolloutBudget set.maxUnavailable desired.length
          (set.listedAvailable kind now registry) with
        | .error fault => .error fault.message
        | .ok budget => .ok ((changes.updates.take budget.toNat).map (set.renewal kind))

/-- The calls of a pass over a set, whether it gets to its end or not. -/
def Course (set : OrdinalSet) (kind : MemberKind) (desired : List kind.kind.Object)
    (now : Instant) (registry : Registry) (calls : List Call) : Prop :=
  BreaksOff [set.listing kind] calls ∨
    ∃ plan, set.plan kind desired now registry = .ok plan ∧
      BreaksOff (set.listing kind :: plan) calls

theorem plan_eq_ok {set : OrdinalSet} {kind : MemberKind} {desired : List kind.kind.Object}
    {now : Instant} {registry : Registry} {plan : List Request}
    (planned : set.plan kind desired now registry = .ok plan) :
    ∃ changes, set.differences kind desired registry = .ok changes ∧
      (changes.isScaling = true ∧ plan = changes.creates.map (set.creation kind) ++
          changes.deletes.map (set.deletion kind) ∨
        changes.isScaling = false ∧ plan = [] ∨
        changes.isScaling = false ∧ desired ≠ [] ∧ changes.updates ≠ [] ∧
          ∃ budget, rolloutBudget set.maxUnavailable desired.length
              (set.listedAvailable kind now registry) = .ok budget ∧
            plan = (changes.updates.take budget.toNat).map (set.renewal kind)) := by
  unfold OrdinalSet.plan at planned
  cases found : set.differences kind desired registry with
  | error fault => simp [found] at planned
  | ok changes =>
      refine ⟨changes, rfl, ?_⟩
      simp only [found] at planned
      split at planned
      · rename_i scaling
        exact Or.inl ⟨scaling, (Except.ok.inj planned).symm⟩
      rename_i notScaling
      have steady : changes.isScaling = false := by simpa using notScaling
      split at planned
      · exact Or.inr (Or.inl ⟨steady, (Except.ok.inj planned).symm⟩)
      rename_i busy
      obtain ⟨members, outdated⟩ : desired ≠ [] ∧ changes.updates ≠ [] := by
        simpa using busy
      split at planned
      · cases planned
      · rename_i budget allowed
        exact Or.inr (Or.inr
          ⟨steady, members, outdated, budget, allowed, (Except.ok.inj planned).symm⟩)

section Plans

variable {set : OrdinalSet} {kind : MemberKind} {desired : List kind.kind.Object}
  {now : Instant} {registry : Registry} {changes : Changes kind.kind.Object}

theorem lead_of_differences (found : set.differences kind desired registry = .ok changes) :
    changes.Lead kind.kind.metadata (fun live wanted => !kind.needsUpdate live wanted)
      (set.listed kind registry) desired :=
  lead_of_diff found

theorem mem_listed_of_found {live : kind.kind.Object} {name : String}
    (found : registry.find? kind.kind set.space name = some live)
    (selected : Cluster.selects set.selector (kind.kind.metadata live).labelMap.find? = true) :
    live ∈ set.listed kind registry := by
  have named := (Registry.isPlaced_of_find? found).shownName_eq
  exact registry.mem_selected_iff.2 ⟨named.symm ▸ found, selected⟩

theorem find?_of_mem_listed {live : kind.kind.Object}
    (member : live ∈ set.listed kind registry) :
    registry.find? kind.kind set.space (kind.kind.metadata live).shownName = some live :=
  (registry.mem_selected_iff.1 member).1

theorem listed_nodup (set : OrdinalSet) (kind : MemberKind) (registry : Registry) :
    ((set.listed kind registry).map fun live => (kind.kind.metadata live).shownName).Nodup :=
  registry.nodup_selected kind.kind set.space set.selector

theorem plan_of_scaling (found : set.differences kind desired registry = .ok changes)
    (scaling : changes.isScaling = true) :
    set.plan kind desired now registry = .ok
      (changes.creates.map (set.creation kind) ++ changes.deletes.map (set.deletion kind)) := by
  rw [plan, found]
  exact if_pos scaling

theorem plan_of_idle (found : set.differences kind desired registry = .ok changes)
    (steady : changes.isScaling = false) (idle : desired = [] ∨ changes.updates = []) :
    set.plan kind desired now registry = .ok [] := by
  have nothing : (desired.isEmpty || changes.updates.isEmpty) = true := by simpa using idle
  simp only [plan, found, steady, if_pos nothing]
  rfl

/-- Where there is something to update, the budget decides the plan. -/
theorem plan_of_busy (found : set.differences kind desired registry = .ok changes)
    (steady : changes.isScaling = false) (members : desired ≠ [])
    (outdated : changes.updates ≠ []) (now : Instant) :
    set.plan kind desired now registry =
      match rolloutBudget set.maxUnavailable desired.length
        (set.listedAvailable kind now registry) with
      | .error fault => .error fault.message
      | .ok budget => .ok ((changes.updates.take budget.toNat).map (set.renewal kind)) := by
  have busy : ¬ (desired.isEmpty || changes.updates.isEmpty) = true := by
    simp [members, outdated]
  simp only [plan, found, steady, if_neg busy]
  rfl

/-- The planner of a rollout is asked only for numbers that it can answer. -/
theorem exists_budget_of_steady (found : set.differences kind desired registry = .ok changes)
    (steady : changes.isScaling = false) (members : desired ≠ [])
    (desiredFits : (desired.length : Int) ≤ Text.Bounds.int32.high)
    (limitFits : ∀ limit, set.maxUnavailable = some (.number limit) →
      limit ≤ Text.Bounds.int32.high) (now : Instant) :
    ∃ budget, rolloutBudget set.maxUnavailable desired.length
      (set.listedAvailable kind now registry) = .ok budget := by
  have within : set.listedAvailable kind now registry ≤ desired.length := by
    rw [← (lead_of_differences found).length_eq steady]
    exact List.countP_le_length
  have some := List.length_pos_iff.2 members
  exact exists_rolloutBudget (by omega) (by omega) (by omega) desiredFits limitFits

/-- Members that can be compared, in such numbers, leave a pass with a plan. -/
theorem exists_plan_of_fits (found : set.differences kind desired registry = .ok changes)
    (desiredFits : (desired.length : Int) ≤ Text.Bounds.int32.high)
    (limitFits : ∀ limit, set.maxUnavailable = some (.number limit) →
      limit ≤ Text.Bounds.int32.high) (now : Instant) :
    ∃ plan, set.plan kind desired now registry = .ok plan := by
  by_cases scaling : changes.isScaling = true
  · exact ⟨_, plan_of_scaling found scaling⟩
  have steady : changes.isScaling = false := by simpa using scaling
  by_cases idle : desired = [] ∨ changes.updates = []
  · exact ⟨_, plan_of_idle found steady idle⟩
  obtain ⟨members, outdated⟩ := not_or.1 idle
  obtain ⟨budget, allowed⟩ :=
    exists_budget_of_steady found steady members desiredFits limitFits now
  refine ⟨(changes.updates.take budget.toNat).map (set.renewal kind), ?_⟩
  rw [plan_of_busy found steady members outdated now, allowed]

end Plans

theorem place?_deletion (set : OrdinalSet) (kind : MemberKind) (live : kind.kind.Object) :
    (set.deletion kind live).place? =
      some (kind.kind, set.space, (kind.kind.metadata live).shownName) := rfl

theorem heeds_scale (set : OrdinalSet) (kind : MemberKind)
    (changes : Changes kind.kind.Object) :
    (set.scale kind changes : Pass σ Unit).Heeds mayFail
      (changes.creates.map (set.creation kind) ++ changes.deletes.map (set.deletion kind)) := by
  refine Pass.heeds_bind (Pass.heeds_forM (fun object => ?_) _) fun _ =>
    Pass.heeds_forM (fun object => Pass.heeds_delete _ _ _) _
  exact Pass.heeds_bind_pure (Pass.heeds_create _ _ _)

theorem heeds_update (set : OrdinalSet) (kind : MemberKind) (member : kind.kind.Object) :
    (set.update kind member : Pass σ Unit).Heeds mayFail [set.renewal kind member] := by
  cases kind with
  | pod => exact Pass.heeds_delete _ _ _
  | volumeClaim => exact Pass.heeds_bind_pure (Pass.heeds_patch _ _ _ _)

theorem changes_listed_eq (set : OrdinalSet) (kind : MemberKind)
    (desired : List kind.kind.Object) (registry : Registry) :
    (changes kind (set.listed kind registry) desired : Pass σ (Changes kind.kind.Object)) =
      match set.differences kind desired registry with
      | .ok changes => return changes
      | .error fault => throw (.broken fault.message) := rfl

/-- What a pass over a set leaves when it gets to its end: it has carried out its
plan. -/
def Done (set : OrdinalSet) (kind : MemberKind) (desired : List kind.kind.Object)
    (now : Instant) (ledger final : Ledger) : Prop :=
  ∃ plan calls, set.plan kind desired now ledger.registry = .ok plan ∧
    final.calls = ledger.calls ++ calls ∧ CarriesOut (set.listing kind :: plan) calls

/-- What a pass over a set leaves when it halts: part of its course.  It breaks down only
when it has no plan, and halts otherwise only because a call hinders it. -/
def Stopped (set : OrdinalSet) (kind : MemberKind) (desired : List kind.kind.Object)
    (now : Instant) (ledger : Ledger) (halt : Halt PassError) (final : Ledger) : Prop :=
  ∃ calls, final.calls = ledger.calls ++ calls ∧
    set.Course kind desired now ledger.registry calls ∧
    (halt.isBroken = true →
      ∃ message, set.plan kind desired now ledger.registry = .error message) ∧
    (halt.isBroken = false → Hindered [] calls ∨
      ∃ plan, set.plan kind desired now ledger.registry = .ok plan ∧ Hindered plan calls)

section AfterListing

variable {set : OrdinalSet} {kind : MemberKind} {desired : List kind.kind.Object}
  {now : Instant} {ledger : Ledger} {state : σ} {pass : Pass σ SetOutcome}

def listingCall (set : OrdinalSet) (kind : MemberKind) (registry : Registry) : Call :=
  ⟨set.listing kind, some (.ok (set.listed kind registry)), registry, registry⟩

theorem carriesOut_listing (set : OrdinalSet) (kind : MemberKind) (registry : Registry) :
    CarriesOut [set.listing kind] [set.listingCall kind registry] :=
  ⟨rfl, by simp [listingCall, Call.Fails]⟩

def afterListing (set : OrdinalSet) (kind : MemberKind) (ledger : Ledger) : Ledger :=
  ledger.add (set.listing kind) (some (.ok (set.listed kind ledger.registry))) ledger.registry

theorem ensures_of_plan {plan : List Request}
    (planned : set.plan kind desired now ledger.registry = .ok plan)
    (performs : pass.Performs mayFail plan) :
    pass.Ensures mayFail (fun _ _ => set.Done kind desired now ledger)
      (fun halt _ => set.Stopped kind desired now ledger halt)
      state (set.afterListing kind ledger) := by
  have listed := carriesOut_listing set kind ledger.registry
  refine (performs state _).mono ?_ ?_
  · rintro _ _ final ⟨calls, made, carried⟩
    exact ⟨plan, set.listingCall kind ledger.registry :: calls, planned,
      by simpa [afterListing, listingCall] using made, listed.append carried⟩
  · rintro halt _ final ⟨whole, calls, made, broken, hindered⟩
    exact ⟨set.listingCall kind ledger.registry :: calls,
      by simpa [afterListing, listingCall] using made,
      Or.inr ⟨plan, planned, listed.then_breaksOff broken⟩, by simp [whole],
      fun _ => Or.inr ⟨plan, planned, hindered.later [] [_]⟩⟩

theorem ensures_of_fault {message : String} {α : Type} {done : α → σ → Ledger → Prop}
    (faulty : set.plan kind desired now ledger.registry = .error message) :
    (throw (.broken message) : Pass σ α).Ensures mayFail done
      (fun halt _ => set.Stopped kind desired now ledger halt)
      state (set.afterListing kind ledger) :=
  Pass.ensures_throw _ ⟨[set.listingCall kind ledger.registry], rfl,
    Or.inl (carriesOut_listing set kind ledger.registry).breaksOff, fun _ => ⟨message, faulty⟩,
    by simp [Halt.isBroken]⟩

end AfterListing

/-- The part of a pass after the changes are known follows the plan. -/
theorem ensures_of_changes {set : OrdinalSet} {kind : MemberKind}
    {desired : List kind.kind.Object} {now : Instant} {ledger : Ledger} {state : σ}
    {changes : Changes kind.kind.Object}
    (found : set.differences kind desired ledger.registry = .ok changes) :
    Pass.Ensures mayFail
      (do
        let available := set.listedAvailable kind now ledger.registry
        if changes.isScaling then
          set.scale kind changes
          return ⟨false, available⟩
        if desired.isEmpty then
          return ⟨true, available⟩
        if changes.updates.isEmpty then
          return ⟨desired.length ≤ available, available⟩
        let budget ← set.budget desired.length available
        (changes.updates.take budget).forM (set.update kind)
        return ⟨false, available⟩ : Pass σ SetOutcome)
      (fun _ _ => set.Done kind desired now ledger)
      (fun halt _ => set.Stopped kind desired now ledger halt)
      state (set.afterListing kind ledger) := by
  by_cases scaling : changes.isScaling = true
  · rw [if_pos scaling]
    exact ensures_of_plan (plan_of_scaling found scaling)
      (Pass.heeds_bind_pure (heeds_scale set kind changes)).performs
  have steady : changes.isScaling = false := by simpa using scaling
  rw [if_neg scaling]
  by_cases none : desired = []
  · rw [if_pos (List.isEmpty_iff.2 none)]
    exact ensures_of_plan (plan_of_idle found steady (Or.inl none)) (Pass.heeds_pure _).performs
  rw [if_neg (by simpa using none)]
  by_cases upToDate : changes.updates = []
  · rw [if_pos (List.isEmpty_iff.2 upToDate)]
    exact ensures_of_plan (plan_of_idle found steady (Or.inr upToDate)) (Pass.heeds_pure _).performs
  rw [if_neg (by simpa using upToDate)]
  have planned := plan_of_busy found steady none upToDate now
  refine Pass.ensures_bind ?_
  cases allowed : rolloutBudget set.maxUnavailable desired.length
      (set.listedAvailable kind now ledger.registry) with
  | error fault =>
      simp only [allowed] at planned
      simp only [budget, allowed]
      exact ensures_of_fault planned
  | ok budget =>
      simp only [allowed] at planned
      simp only [OrdinalSet.budget, allowed]
      refine Pass.ensures_pure budget.toNat (ensures_of_plan planned ?_)
      exact (Pass.heeds_bind_pure (Pass.heeds_forM (heeds_update set kind) _)).performs

/-- A pass over a set gets to its end only when it has carried out its plan, and
breaks down only when there is no plan. -/
theorem ensures_reconcile (set : OrdinalSet) (kind : MemberKind)
    (desired : List kind.kind.Object) (now : Instant) (state : σ) (ledger : Ledger) :
    (set.reconcile kind desired now : Pass σ SetOutcome).Ensures mayFail
      (fun _ _ => set.Done kind desired now ledger)
      (fun halt _ => set.Stopped kind desired now ledger halt) state ledger := by
  refine Pass.ensures_bind (Pass.ensures_attempt (Exchange.ensures_list ?_ ?_))
  · change Pass.Ensures mayFail
      (OrdinalSet.changes kind (set.listed kind ledger.registry) desired >>= _) _ _ state
      (set.afterListing kind ledger)
    refine Pass.ensures_bind ?_
    rw [changes_listed_eq]
    cases found : set.differences kind desired ledger.registry with
    | error fault => exact ensures_of_fault (by simp only [plan, found])
    | ok changes => exact Pass.ensures_pure changes (ensures_of_changes found)
  · intro error final nothing
    cases nothing.balks with
    | unmade nameless => cases nameless
    | unsuccessful served fails =>
        exact ⟨_, rfl, Or.inl ⟨List.prefix_refl _, by simp⟩, by simp,
          fun _ => Or.inl (Or.inl ⟨_, List.mem_cons_self, fails⟩)⟩

/-- A pass over a set that has a plan follows it, and does not break down. -/
theorem ensures_adheres {set : OrdinalSet} {kind : MemberKind} {desired : List kind.kind.Object}
    {now : Instant} {plan : List Request} (state : σ) (ledger : Ledger)
    (planned : set.plan kind desired now ledger.registry = .ok plan) :
    (set.reconcile kind desired now : Pass σ SetOutcome).Ensures mayFail
      (fun _ _ final => ∃ calls, final.calls = ledger.calls ++ calls ∧
        Adheres (set.listing kind :: plan) calls True)
      (fun halt _ final => halt.isBroken = false ∧ ∃ calls, final.calls = ledger.calls ++ calls ∧
        Adheres (set.listing kind :: plan) calls False)
      state ledger := by
  refine (ensures_reconcile set kind desired now state ledger).mono ?_ ?_
  · rintro _ _ final ⟨plan', calls, planned', made, carried⟩
    obtain rfl := Except.ok.inj (planned.symm.trans planned')
    exact ⟨calls, made, carried.breaksOff, fun _ => carried, fun unfinished => (unfinished ⟨⟩).elim⟩
  · rintro halt _ final ⟨calls, made, course, broken, hindered⟩
    have whole : halt.isBroken = false := by
      refine Bool.eq_false_iff.2 fun isBroken => ?_
      obtain ⟨message, faulty⟩ := broken isBroken
      cases planned.symm.trans faulty
    refine ⟨whole, calls, made, ?_, False.elim, fun _ => ?_⟩
    · rcases course with listing | ⟨plan', planned', began⟩
      · exact listing.weaken plan
      · obtain rfl := Except.ok.inj (planned.symm.trans planned')
        exact began
    · rcases hindered whole with unlisted | ⟨plan', planned', hindered⟩
      · exact (unlisted.later [set.listing kind] []).weaken plan
      · obtain rfl := Except.ok.inj (planned.symm.trans planned')
        exact hindered.later [set.listing kind] []

section Runs

variable {set : OrdinalSet} {kind : MemberKind} {desired : List kind.kind.Object}
  {now : Instant} {registry : Registry} {result : Except (Halt PassError) SetOutcome}
  {state state' : σ} {final : Ledger}
  (runs : (set.reconcile kind desired now).Runs mayFail state (.opened registry) result state'
    final)

include runs

/-- The calls of a run follow the plan of the pass. -/
theorem adheres_of_runs {plan : List Request}
    (planned : set.plan kind desired now registry = .ok plan) :
    Adheres (set.listing kind :: plan) final.calls (result.isOk = true) := by
  have settled := (ensures_adheres state (.opened registry) planned).settles runs
  cases result with
  | ok outcome =>
      obtain ⟨calls, made, adheres⟩ := settled
      obtain rfl : final.calls = calls := made
      exact ⟨adheres.breaksOff, fun _ => adheres.carriesOut ⟨⟩, fun halted => absurd rfl halted⟩
  | error halt =>
      obtain ⟨_, calls, made, adheres⟩ := settled
      obtain rfl : final.calls = calls := made
      exact ⟨adheres.breaksOff, fun finished => (nomatch finished), fun _ => adheres.hindered id⟩

/-- A run of a pass without a plan only lists the members. -/
theorem breaksOff_of_unplanned {message : String}
    (faulty : set.plan kind desired now registry = .error message) :
    BreaksOff [set.listing kind] final.calls := by
  have settled := (ensures_reconcile set kind desired now state (.opened registry)).settles runs
  cases result with
  | ok outcome =>
      obtain ⟨_, _, planned, _⟩ := settled
      cases planned.symm.trans faulty
  | error halt =>
      obtain ⟨calls, made, listing | ⟨_, planned, _⟩, _⟩ := settled
      · obtain rfl : final.calls = calls := made
        exact listing
      · cases planned.symm.trans faulty

theorem isBroken_eq_false_of_plan {plan : List Request}
    (planned : set.plan kind desired now registry = .ok plan) {halt : Halt PassError}
    (halts : result = .error halt) : halt.isBroken = false := by
  subst halts
  exact ((ensures_adheres state (.opened registry) planned).settles runs).1

end Runs

/-- A call of a pass over a set, apart from the one that lists the members. -/
inductive MemberCall (set : OrdinalSet) (kind : MemberKind) (desired : List kind.kind.Object) :
    Request → Prop
  | creates {member : kind.kind.Object} (wanted : member ∈ desired) :
      MemberCall set kind desired (set.creation kind member)
  | deletes (live : kind.kind.Object) : MemberCall set kind desired (set.deletion kind live)
  | renews {member : kind.kind.Object} (wanted : member ∈ desired) :
      MemberCall set kind desired (set.renewal kind member)

/-- A pass lists the members, and creates and renews only desired ones. -/
theorem Course.request_cases {set : OrdinalSet} {kind : MemberKind}
    {desired : List kind.kind.Object} {now : Instant} {registry : Registry} {calls : List Call}
    {call : Call} (course : set.Course kind desired now registry calls) (member : call ∈ calls) :
    call.request = set.listing kind ∨ set.MemberCall kind desired call.request := by
  rcases course with broken | ⟨plan, planned, broken⟩
  · exact Or.inl (List.mem_singleton.1 (broken.request_mem member))
  refine (List.mem_cons.1 (broken.request_mem member)).imp_right fun inPlan => ?_
  obtain ⟨changes, found, ⟨_, rfl⟩ | ⟨_, rfl⟩ | ⟨_, _, _, budget, _, rfl⟩⟩ := plan_eq_ok planned
  · have lead := lead_of_differences found
    rcases List.mem_append.1 inPlan with creation | deletion
    · obtain ⟨created, inCreates, same⟩ := List.mem_map.1 creation
      rw [← same]
      exact .creates ((lead.mem_creates created).1 inCreates).1
    · obtain ⟨live, _, same⟩ := List.mem_map.1 deletion
      rw [← same]
      exact .deletes live
  · cases inPlan
  · have lead := lead_of_differences found
    obtain ⟨renewed, inTaken, same⟩ := List.mem_map.1 inPlan
    rw [← same]
    exact .renews ((lead.mem_updates renewed).1 (List.mem_of_mem_take inTaken)).1

/-- A pass over a set changes objects of one kind only. -/
theorem MemberCall.kind_eq_of_place? {set : OrdinalSet} {kind : MemberKind}
    {desired : List kind.kind.Object} {request : Request} {other : Kind} {space name : String}
    (memberCall : set.MemberCall kind desired request)
    (aimed : request.place? = some (other, space, name)) : other = kind.kind := by
  cases memberCall with
  | creates wanted => exact (congrArg Prod.fst (Option.some.inj aimed)).symm
  | deletes live => exact (congrArg Prod.fst (Option.some.inj aimed)).symm
  | renews wanted =>
      cases kind with
      | pod => exact (congrArg Prod.fst (Option.some.inj aimed)).symm
      | volumeClaim => exact (congrArg Prod.fst (Option.some.inj aimed)).symm

/-! ## Deletions -/

def deletedName? : Request → Option String
  | .delete _ _ name => some name
  | _ => none

def deletedNames (calls : List Call) : List String :=
  calls.filterMap fun call => deletedName? call.request

theorem filterMap_deletedName?_creations (set : OrdinalSet) (kind : MemberKind)
    (members : List kind.kind.Object) :
    (members.map (set.creation kind)).filterMap deletedName? = [] := by
  simp [List.filterMap_eq_nil_iff, creation, deletedName?]

theorem filterMap_deletedName?_deletions (set : OrdinalSet) (kind : MemberKind)
    (members : List kind.kind.Object) :
    (members.map (set.deletion kind)).filterMap deletedName? =
      members.map fun member => (kind.kind.metadata member).shownName := by
  rw [List.filterMap_map]
  exact congrFun List.filterMap_eq_map' members

section Deletions

variable {set : OrdinalSet} {kind : MemberKind} {desired : List kind.kind.Object}
  {now : Instant} {registry after : Registry} {past later : List Call} {call : Call}

/-- A member that calls delete one by one is found as it was listed. -/
theorem found_of_deletions {creates deletes : List kind.kind.Object} {member : kind.kind.Object}
    {live : kind.kind.Object}
    (broken : BreaksOff (set.listing kind :: (creates.map (set.creation kind) ++
      deletes.map (set.deletion kind))) (past ++ call :: later))
    (nodup : (deletes.map fun member => (kind.kind.metadata member).shownName).Nodup)
    (chain : Chain mayFail registry (past ++ call :: later) after)
    (deletion : call.request = set.deletion kind member)
    (there : registry.find? kind.kind set.space (kind.kind.metadata member).shownName =
      some live) :
    call.before.find? kind.kind set.space (kind.kind.metadata member).shownName = some live := by
  refine chain.before_eq.1.find?_eq_some there fun earlier inPast place => ?_
  have planned := broken.request_mem (List.mem_append_left (call :: later) inPast)
  rcases List.mem_cons.1 planned with listing | planned
  · rw [listing] at place
    cases place
  rcases List.mem_append.1 planned with creation | deleted
  · obtain ⟨created, _, same⟩ := List.mem_map.1 creation
    exact ⟨_, same.symm⟩
  · -- The same name would be deleted twice.
    have names : ((past ++ call :: later).map (·.request)).filterMap deletedName? <+:
        deletes.map fun member => (kind.kind.metadata member).shownName := by
      have prefixes := broken.requests_prefix.filterMap deletedName?
      rwa [List.filterMap_cons_none rfl, List.filterMap_append,
        filterMap_deletedName?_creations, List.nil_append,
        filterMap_deletedName?_deletions] at prefixes
    have distinct := nodup.sublist names.sublist
    rw [List.map_append, List.map_cons, List.filterMap_append, deletion] at distinct
    obtain ⟨other, _, same⟩ := List.mem_map.1 deleted
    have sameName : (kind.kind.metadata other).shownName =
        (kind.kind.metadata member).shownName := by
      rw [← same] at place
      simpa [OrdinalSet.deletion, Request.place?] using place
    refine absurd distinct fun distinct => (List.nodup_append.1 distinct).2.2
      (kind.kind.metadata member).shownName ?_ (kind.kind.metadata member).shownName ?_ rfl
    · refine List.mem_filterMap.2 ⟨earlier.request, List.mem_map_of_mem inPast, ?_⟩
      rw [← same, ← sameName]
      rfl
    · simp [OrdinalSet.deletion, deletedName?]

/-- An object is a listed member, which a call finds as it was listed.  It is not desired
if such members are brought up to date in place. -/
structure FindsListed (set : OrdinalSet) (kind : MemberKind) (desired : List kind.kind.Object)
    (registry : Registry) (call : Call) (kind' : Kind) (space name : String) : Prop where
  kind_eq : kind' = kind.kind
  space_eq : space = set.space
  found : ∃ live ∈ set.listed kind registry, (kind.kind.metadata live).shownName = name ∧
    call.before.find? kind.kind set.space name = some live
  surplus : kind.strategy = .inPlacePatch →
    ∀ wanted ∈ desired, (kind.kind.metadata wanted).shownName ≠ name

theorem findsListed_of_scaling {changes : Changes kind.kind.Object} {kind' : Kind}
    {space name : String} (found : set.differences kind desired registry = .ok changes)
    (broken : BreaksOff (set.listing kind :: (changes.creates.map (set.creation kind) ++
      changes.deletes.map (set.deletion kind))) (past ++ call :: later))
    (chain : Chain mayFail registry (past ++ call :: later) after)
    (deletes : call.request = .delete kind' space name) :
    set.FindsListed kind desired registry call kind' space name := by
  have inCalls : call ∈ past ++ call :: later := List.mem_append_right past List.mem_cons_self
  have lead := lead_of_differences found
  rcases List.mem_cons.1 (broken.request_mem inCalls) with listing | scaling
  · rw [deletes] at listing
    cases listing
  rcases List.mem_append.1 scaling with creation | deletion
  · obtain ⟨created, _, same⟩ := List.mem_map.1 creation
    rw [deletes] at same
    cases same
  · obtain ⟨live, inDeletes, same⟩ := List.mem_map.1 deletion
    obtain ⟨inListed, surplus⟩ := (lead.mem_deletes live).1 inDeletes
    have here := found_of_deletions broken lead.deletes_nodup chain same.symm
      (find?_of_mem_listed inListed)
    rw [deletes] at same
    obtain ⟨rfl, rfl, rfl⟩ : kind.kind = kind' ∧ set.space = space ∧
        (kind.kind.metadata live).shownName = name := by
      simpa [OrdinalSet.deletion] using same
    exact ⟨rfl, rfl, ⟨live, inListed, rfl, here⟩, fun _ => surplus⟩

theorem findsListed_of_rollout {changes : Changes kind.kind.Object} {kind' : Kind}
    {space name : String} {budget : Nat}
    (found : set.differences kind desired registry = .ok changes)
    (broken : BreaksOff (set.listing kind ::
      (changes.updates.take budget).map (set.renewal kind)) (past ++ call :: later))
    (chain : Chain mayFail registry (past ++ call :: later) after)
    (deletes : call.request = .delete kind' space name) :
    set.FindsListed kind desired registry call kind' space name := by
  have inCalls : call ∈ past ++ call :: later := List.mem_append_right past List.mem_cons_self
  have lead := lead_of_differences found
  rcases List.mem_cons.1 (broken.request_mem inCalls) with listing | renewal
  · rw [deletes] at listing
    cases listing
  obtain ⟨member, inTaken, same⟩ := List.mem_map.1 renewal
  cases kind with
  | volumeClaim =>
      rw [deletes] at same
      cases same
  | pod =>
      obtain ⟨live, inListed, sameName, _⟩ :=
        ((lead.mem_updates member).1 (List.mem_of_mem_take inTaken)).2
      have there := find?_of_mem_listed inListed
      rw [sameName] at there
      have nodup := lead.updates_nodup.sublist ((List.take_sublist budget _).map _)
      have deletions : BreaksOff (set.listing .pod ::
          (([] : List Pod).map (set.creation .pod) ++
            (changes.updates.take budget).map (set.deletion .pod)))
          (past ++ call :: later) := broken
      have here := found_of_deletions deletions nodup chain same.symm there
      rw [deletes] at same
      obtain ⟨rfl, rfl, rfl⟩ : Kind.pod = kind' ∧ set.space = space ∧
          (Kind.pod.metadata member).shownName = name := by
        simpa [OrdinalSet.renewal, OrdinalSet.deletion, MemberKind.strategy] using same
      exact ⟨rfl, rfl, ⟨live, inListed, sameName, here⟩, fun inPlace => nomatch inPlace⟩

/-- A pass deletes only members that it has listed, as it has listed them. -/
theorem Course.findsListed_of_delete {kind' : Kind} {space name : String}
    (course : set.Course kind desired now registry (past ++ call :: later))
    (chain : Chain mayFail registry (past ++ call :: later) after)
    (deletes : call.request = .delete kind' space name) :
    set.FindsListed kind desired registry call kind' space name := by
  have inCalls : call ∈ past ++ call :: later := List.mem_append_right past List.mem_cons_self
  have listsOnly : call.request ∉ [set.listing kind] := by
    rw [deletes]
    simp [OrdinalSet.listing]
  rcases course with broken | ⟨plan, planned, broken⟩
  · exact absurd (broken.request_mem inCalls) listsOnly
  obtain ⟨changes, found, ⟨_, rfl⟩ | ⟨_, rfl⟩ | ⟨_, _, _, budget, _, rfl⟩⟩ :=
    plan_eq_ok planned
  · exact findsListed_of_scaling found broken chain deletes
  · exact absurd (broken.request_mem inCalls) listsOnly
  · exact findsListed_of_rollout found broken chain deletes

end Deletions

end OrdinalSet

end NodeFleet.Fleet
