import Mathlib.Data.List.Perm.Basic
import Mathlib.Data.List.Perm.Subperm
import NodeFleet.Proofs.Fleet.OrdinalSet
import NodeFleet.Proofs.Rollout

/-!
# The availability of pods

A pass over pods takes the availability of a desired pod only by deleting it, and
deletes desired pods only to update them.  The rollout budget bounds their number.
-/

namespace NodeFleet.Fleet

open Calendar Resource Store

variable {mayFail : Request → Prop} {α : Type}

/-! ## Counting -/

theorem countP_le_countP_add {holds kept lost : α → Bool} {items : List α}
    (covered : ∀ item ∈ items, holds item = true → kept item = true ∨ lost item = true) :
    items.countP holds ≤ items.countP kept + items.countP lost := by
  induction items with
  | nil => simp
  | cons item items inductionHypothesis =>
      have rest := inductionHypothesis fun other member =>
        covered other (List.mem_cons_of_mem _ member)
      have first := covered item List.mem_cons_self
      simp only [List.countP_cons]
      by_cases here : holds item = true
      · rcases first here with keeps | loses
        · simp only [here, keeps, if_true]
          omega
        · simp only [here, loses, if_true]
          omega
      · rw [if_neg here]
        omega

/-- Items with distinct names have at most as many names in a list as it is long. -/
theorem countP_mem_le_length {name : α → String} {items : List α} (names : List String)
    (nodup : (items.map name).Nodup) :
    items.countP (fun item => decide (name item ∈ names)) ≤ names.length := by
  rw [List.countP_eq_length_filter, ← List.length_map name]
  refine (List.Nodup.subperm (nodup.sublist (List.filter_sublist.map name)) ?_).length_le
  intro text member
  obtain ⟨item, kept, rfl⟩ := List.mem_map.1 member
  exact of_decide_eq_true (List.mem_filter.1 kept).2

/-- Distinct names of items are as many as some of the items. -/
theorem length_le_countP_mem {name : α → String} {items : List α} {names : List String}
    (nodup : names.Nodup) (named : ∀ text ∈ names, ∃ item ∈ items, name item = text) :
    names.length ≤ items.countP fun item => decide (name item ∈ names) := by
  rw [List.countP_eq_length_filter, ← List.length_map name]
  refine (nodup.subperm fun text member => ?_).length_le
  obtain ⟨item, inItems, rfl⟩ := named text member
  exact List.mem_map_of_mem (List.mem_filter.2 ⟨inItems, decide_eq_true member⟩)

namespace OrdinalSet

def isAvailableAt (set : OrdinalSet) (now : Instant) (registry : Registry) (name : String) :
    Bool :=
  (registry.find? .pod set.space name).any (Pod.isAvailable set.minReadySeconds now)

def available (set : OrdinalSet) (desired : List Pod) (now : Instant) (registry : Registry) :
    Nat :=
  desired.countP fun pod => set.isAvailableAt now registry pod.metadata.shownName

theorem available_le_length (set : OrdinalSet) (desired : List Pod) (now : Instant)
    (registry : Registry) :
    set.available desired now registry ≤ desired.length :=
  List.countP_le_length

/-- Where the listed pods are desired, and the available desired pods listed, as
many pods are available among the ones as among the others. -/
theorem listedAvailable_eq_available {set : OrdinalSet} {desired : List Pod} {now : Instant}
    {registry : Registry}
    (wanted : ∀ live ∈ set.listed .pod registry,
      ∃ pod ∈ desired, pod.metadata.shownName = live.metadata.shownName)
    (shown : ∀ pod ∈ desired, set.isAvailableAt now registry pod.metadata.shownName = true →
      ∃ live ∈ set.listed .pod registry, live.metadata.shownName = pod.metadata.shownName)
    (nodup : (desired.map fun pod => pod.metadata.shownName).Nodup) :
    set.listedAvailable .pod now registry = set.available desired now registry := by
  have listedNodup : ((set.listed .pod registry).map
      fun live : Pod => live.metadata.shownName).Nodup := set.listed_nodup .pod registry
  have availableAt : ∀ live ∈ set.listed .pod registry,
      set.isAvailableAt now registry live.metadata.shownName =
        Pod.isAvailable set.minReadySeconds now live := by
    intro live member
    have there : registry.find? .pod set.space live.metadata.shownName = some live :=
      find?_of_mem_listed member
    rw [isAvailableAt, there, Option.any_some]
  unfold listedAvailable available
  rw [List.countP_eq_length_filter, List.countP_eq_length_filter,
    ← List.length_map (fun live : Pod => live.metadata.shownName),
    ← List.length_map (fun pod : Pod => pod.metadata.shownName)]
  refine ((List.perm_ext_iff_of_nodup (listedNodup.sublist (List.filter_sublist.map _))
    (nodup.sublist (List.filter_sublist.map _))).2 fun name => ?_).length_eq
  simp only [List.mem_map, List.mem_filter]
  constructor
  · rintro ⟨live, ⟨member, ready⟩, rfl⟩
    obtain ⟨pod, inDesired, same⟩ := wanted live member
    exact ⟨pod, ⟨inDesired, by rw [same, availableAt live member]; exact ready⟩, same⟩
  · rintro ⟨pod, ⟨inDesired, ready⟩, rfl⟩
    obtain ⟨live, member, same⟩ := shown pod inDesired ready
    refine ⟨live, ⟨member, ?_⟩, same⟩
    rw [← same, availableAt live member] at ready
    exact ready

/-- A pod at which no call of a chain is aimed, but to create it, stays available. -/
theorem isAvailableAt_of_chain {set : OrdinalSet} {now : Instant} {name : String}
    {before after : Registry} {calls : List Call} (chain : Chain mayFail before calls after)
    (ready : set.isAvailableAt now before name = true)
    (spared : ∀ call ∈ calls, call.request.place? = some (.pod, set.space, name) →
      ∃ written, call.request = .create .pod set.space written) :
    set.isAvailableAt now after name = true := by
  unfold isAvailableAt at ready ⊢
  cases there : before.find? .pod set.space name with
  | none => simp [there] at ready
  | some pod =>
      rw [chain.find?_eq_some there spared]
      rwa [there] at ready

/-- A chain whose calls are aimed at pods only to create them, or are aimed at given
names, makes no more desired pods unavailable than have one of these names. -/
theorem available_le_add (set : OrdinalSet) (desired : List Pod) (now : Instant)
    (names : List String) {before after : Registry} {calls : List Call}
    (chain : Chain mayFail before calls after)
    (aimed : ∀ call ∈ calls, ∀ name, call.request.place? = some (.pod, set.space, name) →
      (∃ written, call.request = .create .pod set.space written) ∨ name ∈ names) :
    set.available desired now before ≤ set.available desired now after +
      desired.countP fun pod => decide (pod.metadata.shownName ∈ names) := by
  refine countP_le_countP_add fun pod _ ready => ?_
  by_cases named : pod.metadata.shownName ∈ names
  · exact Or.inr (decide_eq_true named)
  · refine Or.inl (isAvailableAt_of_chain chain ready fun call member place => ?_)
    exact (aimed call member _ place).resolve_right named

/-! ## The floor -/

/-- The number of desired pods below which a rollout does not go. -/
def floor (set : OrdinalSet) (desired : List Pod) : Int :=
  desired.length - resolveMaxUnavailable set.maxUnavailable desired.length

/-- Listed and desired pods that a pass can compare, within the range of the numbers
that the pass computes with. -/
structure Comparable (set : OrdinalSet) (desired : List Pod) (registry : Registry) : Prop where
  listed_readable : ∀ live ∈ set.listed .pod registry, HasPosition Pod.metadata live
  desired_readable : ∀ pod ∈ desired, HasPosition Pod.metadata pod
  desired_nodup : (desired.map fun pod => pod.metadata.shownName).Nodup
  desired_fits : (desired.length : Int) ≤ Text.Bounds.int32.high
  limit_fits : ∀ limit, set.maxUnavailable = some (.number limit) →
    limit ≤ Text.Bounds.int32.high

section Floor

variable {set : OrdinalSet} {desired : List Pod} {now : Instant} {registry after : Registry}
  {calls : List Call} {changes : Changes Pod}

/-- The listed pods and the desired ones have the same names. -/
structure Matches (set : OrdinalSet) (desired : List Pod) (registry : Registry) : Prop where
  desired_of_listed : ∀ live ∈ set.listed .pod registry,
    ∃ pod ∈ desired, pod.metadata.shownName = (Pod.metadata live).shownName
  listed_of_desired : ∀ pod ∈ desired,
    ∃ live ∈ set.listed .pod registry, (Pod.metadata live).shownName = pod.metadata.shownName

/-- Nothing has to be scaled exactly when the listed pods and the desired ones match. -/
theorem steady_iff_matches (found : set.differences .pod desired registry = .ok changes) :
    changes.isScaling = false ↔ set.Matches desired registry := by
  rw [(lead_of_differences found).isScaling_eq_false_iff]
  exact ⟨fun both => ⟨both.1, both.2⟩,
    fun matching => ⟨matching.desired_of_listed, matching.listed_of_desired⟩⟩

/-- When nothing has to be scaled, the listed pods are the desired ones. -/
theorem listedAvailable_eq_of_steady
    (found : set.differences .pod desired registry = .ok changes)
    (steady : changes.isScaling = false) :
    set.listedAvailable .pod now registry = set.available desired now registry := by
  have matching := (steady_iff_matches found).1 steady
  exact listedAvailable_eq_available matching.desired_of_listed
    (fun pod member _ => matching.listed_of_desired pod member)
    (lead_of_differences found).desired_nodup

/-- Calls that only scale: they create missing pods and delete surplus ones. -/
def Scales (set : OrdinalSet) (desired : List Pod) (registry : Registry)
    (calls : List Call) : Prop :=
  ∀ call ∈ calls, call.request = set.listing .pod ∨
    (∃ pod ∈ desired, (∀ live ∈ set.listed .pod registry,
        (Pod.metadata live).shownName ≠ pod.metadata.shownName) ∧
      call.request = set.creation .pod pod) ∨
    ∃ live ∈ set.listed .pod registry,
      (∀ pod ∈ desired, pod.metadata.shownName ≠ (Pod.metadata live).shownName) ∧
        call.request = set.deletion .pod live

/-- What the server holds asks for a rollout: nothing is to be scaled, these are the
outdated pods, in the order of their positions, and so many of them may be deleted
now. -/
structure Rollout (set : OrdinalSet) (desired : List Pod) (now : Instant)
    (registry : Registry) (outdated : List Pod) (budget : Int) : Prop where
  mem_outdated : ∀ pod, pod ∈ outdated ↔ pod ∈ desired ∧
    ∃ live ∈ set.listed .pod registry, (Pod.metadata live).shownName = pod.metadata.shownName ∧
      Pod.digest? live ≠ pod.digest?
  nodup : (outdated.map fun pod => pod.metadata.shownName).Nodup
  ascend : outdated.Pairwise fun earlier later =>
    positionOf Pod.metadata earlier ≤ positionOf Pod.metadata later
  desired_nodup : (desired.map fun pod => pod.metadata.shownName).Nodup
  steady : set.Matches desired registry
  one_le_desired : 1 ≤ desired.length
  available_le_desired : set.listedAvailable .pod now registry ≤ desired.length
  counted : set.listedAvailable .pod now registry = set.available desired now registry
  allowed : rolloutBudget set.maxUnavailable desired.length
    (set.listedAvailable .pod now registry) = .ok budget

/-- Calls that only update: they delete the first outdated pods, as many as the
budget allows, unless something hinders them. -/
def Updates (set : OrdinalSet) (desired : List Pod) (now : Instant) (registry : Registry)
    (calls : List Call) (finished : Prop) : Prop :=
  ∃ outdated budget, set.Rollout desired now registry outdated budget ∧
    Adheres (set.listing .pod ::
      (outdated.take (min budget.toNat outdated.length)).map (set.deletion .pod)) calls finished

/-- Calls that list the pods and make no other request scale nothing. -/
theorem scales_of_breaksOff (broken : BreaksOff [set.listing .pod] calls) :
    set.Scales desired registry calls := by
  intro call member
  exact Or.inl (List.mem_singleton.1 (broken.request_mem member))

theorem updates_of_adheres {outdated : List Pod} {budget : Int} {finished : Prop}
    (rollout : set.Rollout desired now registry outdated budget)
    (adheres : Adheres
      (set.listing .pod :: (outdated.take budget.toNat).map (set.renewal .pod)) calls finished) :
    set.Updates desired now registry calls finished := by
  have renewed : set.renewal .pod = set.deletion .pod := rfl
  refine ⟨outdated, budget, rollout, ?_⟩
  rw [← List.take_take, List.take_length, ← renewed]
  exact adheres

/-- Scaling takes no desired pod's availability. -/
theorem Scales.available_le (scales : set.Scales desired registry calls)
    (chain : Chain mayFail registry calls after) :
    set.available desired now registry ≤ set.available desired now after := by
  refine List.countP_mono_left fun pod inDesired ready => ?_
  refine isAvailableAt_of_chain chain ready fun call member place => ?_
  rcases scales call member with listing | ⟨created, _, _, creation⟩ |
    ⟨live, _, surplus, deletion⟩
  · rw [listing] at place
    cases place
  · exact ⟨_, creation⟩
  · rw [deletion, place?_deletion] at place
    have same : (MemberKind.pod.kind.metadata live).shownName = pod.metadata.shownName := by
      simpa using place
    exact absurd same.symm (surplus pod inDesired)

/-- Updating takes the availability of no more desired pods than the budget
allows. -/
theorem Updates.floor_le_available {finished : Prop}
    (updates : set.Updates desired now registry calls finished)
    (chain : Chain mayFail registry calls after) :
    min (set.available desired now registry : Int)
        (desired.length - resolveMaxUnavailable set.maxUnavailable desired.length) ≤
      set.available desired now after := by
  obtain ⟨outdated, budget, rollout, adheres⟩ := updates
  have kept := le_ready_sub_rolloutBudget rollout.allowed
  have bounds := rolloutBudget_eq_ok rollout.allowed
  rw [rollout.counted] at kept
  let taken := outdated.take (min budget.toNat outdated.length)
  have lost := available_le_add set desired now
    (taken.map fun pod => pod.metadata.shownName) chain fun call member name place => by
      rcases List.mem_cons.1 (adheres.breaksOff.request_mem member) with listing | deletion
      · rw [listing] at place
        cases place
      · obtain ⟨pod, inTaken, same⟩ := List.mem_map.1 deletion
        rw [← same, place?_deletion] at place
        have named : (MemberKind.pod.kind.metadata pod).shownName = name := by
          simpa using place
        exact Or.inr (List.mem_map.2 ⟨pod, inTaken, named⟩)
  have few := countP_mem_le_length (taken.map fun pod => pod.metadata.shownName)
    rollout.desired_nodup
  have short : (taken.map fun pod => pod.metadata.shownName).length ≤ budget.toNat := by
    simp only [taken, List.length_map, List.length_take]
    omega
  omega

/-- The rollout that a steady set with outdated pods asks for. -/
theorem rollout_of_steady {budget : Int}
    (found : set.differences .pod desired registry = .ok changes)
    (steady : changes.isScaling = false) (members : desired ≠ [])
    (allowed : rolloutBudget set.maxUnavailable desired.length
      (set.listedAvailable .pod now registry) = .ok budget) :
    set.Rollout desired now registry changes.updates budget := by
  have lead : changes.Lead Pod.metadata (fun live wanted => !MemberKind.pod.needsUpdate live wanted)
      (set.listed .pod registry) desired := lead_of_differences found
  have counted : set.listedAvailable .pod now registry = set.available desired now registry :=
    listedAvailable_eq_of_steady found steady
  have outdated : ∀ pod, pod ∈ changes.updates ↔ pod ∈ desired ∧
      ∃ live ∈ set.listed .pod registry,
        (Pod.metadata live).shownName = pod.metadata.shownName ∧
          Pod.digest? live ≠ pod.digest? := by
    intro pod
    rw [lead.mem_updates]
    simp [MemberKind.needsUpdate]
  have bounded : set.listedAvailable .pod now registry ≤ desired.length := by
    rw [counted]
    exact set.available_le_length desired now registry
  exact {
    mem_outdated := outdated
    nodup := lead.updates_nodup
    ascend := lead.updates_ascend
    desired_nodup := lead.desired_nodup
    steady := (steady_iff_matches found).1 steady
    one_le_desired := List.length_pos_iff.2 members
    available_le_desired := bounded
    counted := counted
    allowed := allowed }

/-- The calls that follow a plan either only scale or only update. -/
theorem scales_or_updates_of_plan {finished : Prop} {plan : List Request}
    (planned : set.plan .pod desired now registry = .ok plan)
    (adheres : Adheres (set.listing .pod :: plan) calls finished) :
    set.Scales desired registry calls ∨ set.Updates desired now registry calls finished := by
  obtain ⟨changes, found, ⟨_, rfl⟩ | ⟨_, rfl⟩ | ⟨steady, members, _, budget, allowed, rfl⟩⟩ :=
    plan_eq_ok planned
  · have lead := lead_of_differences found
    refine Or.inl fun call member => ?_
    rcases List.mem_cons.1 (adheres.breaksOff.request_mem member) with listing | scaling
    · exact Or.inl listing
    rcases List.mem_append.1 scaling with creation | deletion
    · obtain ⟨pod, created, same⟩ := List.mem_map.1 creation
      obtain ⟨inDesired, missing⟩ := (lead.mem_creates pod).1 created
      exact Or.inr (Or.inl ⟨pod, inDesired, missing, same.symm⟩)
    · obtain ⟨live, deleted, same⟩ := List.mem_map.1 deletion
      obtain ⟨inListed, surplus⟩ := (lead.mem_deletes live).1 deleted
      exact Or.inr (Or.inr ⟨live, inListed, surplus, same.symm⟩)
  · exact Or.inl (scales_of_breaksOff adheres.breaksOff)
  · exact Or.inr (updates_of_adheres (rollout_of_steady found steady members allowed) adheres)

theorem Comparable.exists_differences (comparable : set.Comparable desired registry) :
    ∃ changes, set.differences .pod desired registry = .ok changes :=
  exists_diff comparable.listed_readable (set.listed_nodup .pod registry)
    comparable.desired_readable comparable.desired_nodup

/-- Some desired pod is listed with another digest. -/
def HasOutdated (set : OrdinalSet) (desired : List Pod) (registry : Registry) : Prop :=
  ∃ pod ∈ desired, ∃ live ∈ set.listed .pod registry,
    (Pod.metadata live).shownName = pod.metadata.shownName ∧ Pod.digest? live ≠ pod.digest?

theorem updates_ne_nil_iff (found : set.differences .pod desired registry = .ok changes) :
    changes.updates ≠ [] ↔ set.HasOutdated desired registry := by
  have outdated := (lead_of_differences found).mem_updates
  simp only [MemberKind.needsUpdate, Bool.not_eq_false', bne_iff_ne] at outdated
  constructor
  · intro some
    obtain ⟨pod, updated⟩ := List.exists_mem_of_ne_nil _ some
    exact ⟨pod, (outdated pod).1 updated⟩
  · rintro ⟨pod, differs⟩
    exact List.ne_nil_of_mem ((outdated pod).2 differs)

/-- Where pods match and one of them is outdated, a pass has a rollout to make. -/
theorem Comparable.exists_rollout (comparable : set.Comparable desired registry)
    (matching : set.Matches desired registry) (outdated : set.HasOutdated desired registry)
    (now : Instant) :
    ∃ updates budget, set.Rollout desired now registry updates budget ∧
      set.plan .pod desired now registry =
        .ok ((updates.take budget.toNat).map (set.renewal .pod)) := by
  obtain ⟨changes, found⟩ := comparable.exists_differences
  have steady := (steady_iff_matches found).2 matching
  have updated := (updates_ne_nil_iff found).2 outdated
  obtain ⟨pod, inDesired, _⟩ := outdated
  have members : desired ≠ [] := List.ne_nil_of_mem inDesired
  obtain ⟨budget, allowed⟩ := exists_budget_of_steady found steady members
    comparable.desired_fits comparable.limit_fits now
  refine ⟨changes.updates, budget, rollout_of_steady found steady members allowed, ?_⟩
  rw [plan_of_busy found steady members updated now, allowed]

/-- Pods that can be compared leave a pass with a plan. -/
theorem Comparable.exists_plan (comparable : set.Comparable desired registry) (now : Instant) :
    ∃ plan, set.plan .pod desired now registry = .ok plan := by
  obtain ⟨changes, found⟩ := comparable.exists_differences
  exact exists_plan_of_fits found comparable.desired_fits comparable.limit_fits now

end Floor

end OrdinalSet

end NodeFleet.Fleet
