import NodeFleet.Proofs.Fleet.CompletePass

/-!
# Passes and the time between them

Between two passes a cluster removes the members that are being deleted and lets the others
become available.  Each pass that is followed by such a time brings a set nearer to the
desired one, until it is reached; from then on nothing changes.
-/

namespace NodeFleet.Fleet

open Calendar Resource Store

namespace MemberKind

/-- A later form of a member, in which a pass finds nothing else. -/
structure Keeps (kind : MemberKind) (before after : kind.kind.Object) : Prop where
  name_eq : (kind.kind.metadata after).shownName = (kind.kind.metadata before).shownName
  ordinal_eq : (kind.kind.metadata after).ordinalText? =
    (kind.kind.metadata before).ordinalText?
  revision_eq : kind.revision after = kind.revision before

/-- Whether a pod has been ready for long enough, or a volume claim is bound. -/
def Ready : (kind : MemberKind) → Int → Instant → kind.kind.Object → Prop
  | .pod, minReadySeconds, now, member =>
      ∃ since, Pod.readySince? member = some since ∧ since.addSeconds minReadySeconds ≤ now
  | .volumeClaim, _, _, member => (VolumeClaim.status member).bind (·.phase) = some "Bound"

theorem isAvailable_of_ready {kind : MemberKind} {minReadySeconds : Int} {now : Instant}
    {member : kind.kind.Object} (living : (kind.kind.metadata member).isTerminating = false)
    (ready : kind.Ready minReadySeconds now member) :
    kind.isAvailable minReadySeconds now member = true := by
  cases kind with
  | pod =>
      obtain ⟨since, readySince, longAgo⟩ := ready
      have alive : (Pod.metadata member).isTerminating = false := living
      simp [isAvailable, Pod.isAvailable, alive, readySince, longAgo]
  | volumeClaim =>
      have alive : (VolumeClaim.metadata member).isTerminating = false := living
      have bound : (VolumeClaim.status member).bind (·.phase) = some "Bound" := ready
      simp [isAvailable, VolumeClaim.isAvailable, alive, bound]

theorem living_of_isAvailable {kind : MemberKind} {minReadySeconds : Int} {now : Instant}
    {member : kind.kind.Object} (available : kind.isAvailable minReadySeconds now member = true) :
    (kind.kind.metadata member).isTerminating = false := by
  cases terminating : (kind.kind.metadata member).isTerminating with
  | false => rfl
  | true =>
      cases kind with
      | pod =>
          have leaving : (Pod.metadata member).isTerminating = true := terminating
          simp [isAvailable, Pod.isAvailable, leaving] at available
      | volumeClaim =>
          have leaving : (VolumeClaim.metadata member).isTerminating = true := terminating
          simp [isAvailable, VolumeClaim.isAvailable, leaving] at available

end MemberKind

/-- A test that fails where a weaker one holds is passed by fewer items. -/
theorem countP_lt_countP_of_mem {α : Type} {strong weak : α → Bool} {items : List α} {item : α}
    (weaker : ∀ other ∈ items, strong other = true → weak other = true) (member : item ∈ items)
    (holds : weak item = true) (fails : strong item = false) :
    items.countP strong < items.countP weak := by
  obtain ⟨past, later, rfl⟩ := List.append_of_mem member
  have early : past.countP strong ≤ past.countP weak :=
    List.countP_mono_left fun other inPast => weaker other (List.mem_append_left _ inPast)
  have late : later.countP strong ≤ later.countP weak :=
    List.countP_mono_left fun other inLater =>
      weaker other (List.mem_append_right _ (List.mem_cons_of_mem _ inLater))
  rw [List.countP_append, List.countP_append, List.countP_cons_of_pos holds,
    List.countP_cons_of_neg (by simp [fails])]
  omega

namespace OrdinalSet

variable {set : OrdinalSet} {kind : MemberKind} {desired : List kind.kind.Object}
  {now now' : Instant} {before after later : Registry} {plan : List Request} {calls : List Call}

/-! ## The time between two passes -/

/-- What a cluster does between two passes: the members that are being deleted go, the others
stay and become available, and there are no new ones. -/
structure Ripens (set : OrdinalSet) (kind : MemberKind) (desired : List kind.kind.Object)
    (now : Instant) (before after : Registry) : Prop where
  stay : ∀ live ∈ set.listed kind before, (kind.kind.metadata live).isTerminating = false →
    ∃ later ∈ set.listed kind after, kind.Keeps live later
  come : ∀ later ∈ set.listed kind after, ∃ live ∈ set.listed kind before,
    (kind.kind.metadata live).isTerminating = false ∧ kind.Keeps live later
  living : ∀ later ∈ set.listed kind after, (kind.kind.metadata later).isTerminating = false
  ready : ∀ later ∈ set.listed kind after, kind.Ready set.minReadySeconds now later
  legible : set.Legible kind desired after
  unoccupied : set.Unoccupied kind desired after

/-- A set without surplus members, all of them available. -/
structure Ripe (set : OrdinalSet) (kind : MemberKind) (desired : List kind.kind.Object)
    (now : Instant) (registry : Registry) : Prop where
  orderly : set.Orderly kind desired registry
  wanted : ∀ live ∈ set.listed kind registry, ∃ wanted ∈ desired,
    (kind.kind.metadata wanted).shownName = (kind.kind.metadata live).shownName
  available : ∀ live ∈ set.listed kind registry,
    kind.isAvailable set.minReadySeconds now live = true

/-! ## The survivors of a pass -/

/-- A member that lasts beyond a pass is a listed one or as desired. -/
structure Lasts (set : OrdinalSet) (kind : MemberKind) (desired : List kind.kind.Object)
    (before : Registry) (live : kind.kind.Object) : Prop where
  wanted : ∃ wanted ∈ desired,
    (kind.kind.metadata wanted).shownName = (kind.kind.metadata live).shownName
  source : live ∈ set.listed kind before ∨ HasPosition kind.kind.metadata live ∧
    ∃ wanted ∈ desired,
      (kind.kind.metadata wanted).shownName = (kind.kind.metadata live).shownName ∧
        kind.revision live = kind.revision wanted

section Turn

variable (attainable : set.Attainable kind desired) (orderly : set.Orderly kind desired before)
  {changes : Changes kind.kind.Object}
  (found : set.differences kind desired before = .ok changes)

include attainable found

theorem Scaled.lasts (scaled : set.Scaled kind changes before after) {live : kind.kind.Object}
    (listed : live ∈ set.listed kind after)
    (living : (kind.kind.metadata live).isTerminating = false) :
    set.Lasts kind desired before live := by
  have lead := lead_of_differences found
  have there := find?_of_mem_listed listed
  by_cases created : ∃ wanted ∈ changes.creates,
      (kind.kind.metadata wanted).shownName = (kind.kind.metadata live).shownName
  · obtain ⟨wanted, inCreates, same⟩ := created
    obtain ⟨stored, stands, matching⟩ := scaled.created wanted inCreates
    rw [same, there] at stands
    obtain rfl := Option.some.inj stands
    have inDesired := ((lead.mem_creates wanted).1 inCreates).1
    have readable := hasPosition_of_ordinalText?_eq matching.ordinal_eq
      (attainable.readable wanted inDesired)
    exact ⟨⟨wanted, inDesired, same⟩,
      Or.inr ⟨readable, wanted, inDesired, same, matching.revision_eq⟩⟩
  · have undeleted : ∀ gone ∈ changes.deletes,
        (kind.kind.metadata gone).shownName ≠ (kind.kind.metadata live).shownName := by
      intro gone inDeletes same
      have leaving := scaled.deleted gone inDeletes live (same ▸ there)
      rw [living] at leaving
      cases leaving
    have kept := scaled.kept _ (fun wanted inCreates same => created ⟨wanted, inCreates, same⟩)
      undeleted
    have listedBefore : live ∈ set.listed kind before :=
      mem_listed_of_found (kept ▸ there) (after.mem_selected_iff.1 listed).2
    refine ⟨?_, Or.inl listedBefore⟩
    by_contra surplus
    refine undeleted live ((lead.mem_deletes live).2 ⟨listedBefore, fun wanted inDesired same =>
      surplus ⟨wanted, inDesired, same⟩⟩) rfl

omit attainable in
theorem RolledOut.lasts {taken : List kind.kind.Object}
    (rolledOut : set.RolledOut kind taken before after) (orderly : set.Orderly kind desired before)
    (steady : changes.isScaling = false) (within : taken ⊆ changes.updates)
    {live : kind.kind.Object} (listed : live ∈ set.listed kind after)
    (living : (kind.kind.metadata live).isTerminating = false) :
    set.Lasts kind desired before live := by
  have lead := lead_of_differences found
  have there := find?_of_mem_listed listed
  by_cases renewed : ∃ wanted ∈ taken,
      (kind.kind.metadata wanted).shownName = (kind.kind.metadata live).shownName
  · obtain ⟨wanted, inTaken, same⟩ := renewed
    have inDesired := ((lead.mem_updates wanted).1 (within inTaken)).1
    rcases rolledOut.renewed wanted inTaken with leaving |
      ⟨earlier, listedBefore, stored, _, stands, sameMetadata, current⟩
    · have terminating := leaving live (same ▸ there)
      rw [living] at terminating
      cases terminating
    · rw [same, there] at stands
      obtain rfl := Option.some.inj stands
      have sameOrdinal : (kind.kind.metadata live).ordinalText? =
          (kind.kind.metadata earlier).ordinalText? := congrArg ObjectMeta.ordinalText? sameMetadata
      have readable := hasPosition_of_ordinalText?_eq sameOrdinal
        (orderly.readable earlier listedBefore)
      exact ⟨⟨wanted, inDesired, same⟩, Or.inr ⟨readable, wanted, inDesired, same, current⟩⟩
  · have kept := rolledOut.kept _ fun wanted inTaken same => renewed ⟨wanted, inTaken, same⟩
    have listedBefore : live ∈ set.listed kind before :=
      mem_listed_of_found (kept ▸ there) (after.mem_selected_iff.1 listed).2
    exact ⟨(lead.isScaling_eq_false_iff.1 steady).1 live listedBefore, Or.inl listedBefore⟩

omit found

/-- What lives on after a complete pass is a listed member, or as desired, and never
surplus. -/
theorem Completed.lasts (completed : set.Completed kind desired now before plan calls after)
    (orderly : set.Orderly kind desired before)
    {live : kind.kind.Object} (listed : live ∈ set.listed kind after)
    (living : (kind.kind.metadata live).isTerminating = false) :
    set.Lasts kind desired before live := by
  obtain ⟨changes, found⟩ := orderly.exists_differences attainable
  rcases completed.fates attainable orderly found with ⟨_, scaled⟩ | ⟨steady, _, rolledOut⟩ |
    ⟨steady, _, budget, _, rolledOut⟩
  · exact scaled.lasts attainable found listed living
  · exact rolledOut.lasts found orderly steady (List.nil_subset _) listed living
  · exact rolledOut.lasts found orderly steady (List.take_subset _ _) listed living

/-- After a complete pass and the time that follows it, a set is ripe. -/
theorem Ripens.ripe (ripens : set.Ripens kind desired now' after later)
    (completed : set.Completed kind desired now before plan calls after)
    (orderly : set.Orderly kind desired before) : set.Ripe kind desired now' later := by
  have lasts : ∀ member ∈ set.listed kind later, ∃ live, kind.Keeps live member ∧
      set.Lasts kind desired before live := by
    intro member listed
    obtain ⟨live, listedAfter, living, keeps⟩ := ripens.come member listed
    exact ⟨live, keeps, completed.lasts attainable orderly listedAfter living⟩
  refine ⟨⟨?_, ?_, ripens.legible, ripens.unoccupied⟩, ?_, ?_⟩
  · intro member listed
    obtain ⟨live, keeps, last⟩ := lasts member listed
    refine hasPosition_of_ordinalText?_eq keeps.ordinal_eq ?_
    rcases last.source with listedBefore | ⟨readable, _⟩
    · exact orderly.readable live listedBefore
    · exact readable
  · intro member listed
    obtain ⟨live, keeps, last⟩ := lasts member listed
    obtain ⟨wanted, inDesired, same⟩ := last.wanted
    rw [keeps.name_eq, ← same]
    exact (attainable.name_eq inDesired).2
  · intro member listed
    obtain ⟨live, keeps, last⟩ := lasts member listed
    rw [keeps.name_eq]
    exact last.wanted
  · intro member listed
    exact MemberKind.isAvailable_of_ready (ripens.living member listed)
      (ripens.ready member listed)

end Turn

/-! ## The debt -/

/-- Whether a desired member is there. -/
def isThere (set : OrdinalSet) (kind : MemberKind) (registry : Registry)
    (wanted : kind.kind.Object) : Bool :=
  (registry.find? kind.kind set.space (kind.kind.metadata wanted).shownName).isSome

/-- Whether a desired member is there, stays there and needs an update. -/
def isStale (set : OrdinalSet) (kind : MemberKind) (registry : Registry)
    (wanted : kind.kind.Object) : Bool :=
  (registry.find? kind.kind set.space (kind.kind.metadata wanted).shownName).any fun live =>
    !(kind.kind.metadata live).isTerminating && kind.needsUpdate live wanted

/-- The number of members that stay and need an update. -/
def staleCount (set : OrdinalSet) (kind : MemberKind) (desired : List kind.kind.Object)
    (registry : Registry) : Nat :=
  desired.countP (set.isStale kind registry)

/-- The number of passes that a ripe set is away from the desired one, at most. -/
def debt (set : OrdinalSet) (kind : MemberKind) (desired : List kind.kind.Object)
    (registry : Registry) : Nat :=
  2 * set.staleCount kind desired registry +
    if desired.all (set.isThere kind registry) then 0 else 1

theorem isThere_iff {registry : Registry} {wanted : kind.kind.Object}
    (orderly : set.Orderly kind desired registry) (inDesired : wanted ∈ desired) :
    set.isThere kind registry wanted = true ↔ ∃ live ∈ set.listed kind registry,
      (kind.kind.metadata live).shownName = (kind.kind.metadata wanted).shownName := by
  rw [isThere, Option.isSome_iff_exists]
  constructor
  · rintro ⟨live, there⟩
    exact ⟨live, orderly.unoccupied wanted inDesired live there,
      (Registry.isPlaced_of_find? there).shownName_eq⟩
  · rintro ⟨live, listed, same⟩
    exact ⟨live, same ▸ find?_of_mem_listed listed⟩

theorem isStale_iff {registry : Registry} {wanted : kind.kind.Object}
    (orderly : set.Orderly kind desired registry) (inDesired : wanted ∈ desired) :
    set.isStale kind registry wanted = true ↔ ∃ live ∈ set.listed kind registry,
      (kind.kind.metadata live).shownName = (kind.kind.metadata wanted).shownName ∧
        (kind.kind.metadata live).isTerminating = false ∧
          kind.revision live ≠ kind.revision wanted := by
  rw [isStale, Option.any_eq_true]
  simp only [MemberKind.needsUpdate_eq, Bool.and_eq_true, Bool.not_eq_true', bne_iff_ne]
  constructor
  · rintro ⟨live, there, living, differs⟩
    exact ⟨live, orderly.unoccupied wanted inDesired live there,
      (Registry.isPlaced_of_find? there).shownName_eq, living, differs⟩
  · rintro ⟨live, listed, same, living, differs⟩
    exact ⟨live, same ▸ find?_of_mem_listed listed, living, differs⟩

/-- What was renewed is not stale any more. -/
theorem RolledOut.isStale_eq_false {taken : List kind.kind.Object}
    (rolledOut : set.RolledOut kind taken before after)
    (ripens : set.Ripens kind desired now' after later)
    (ripe : set.Ripe kind desired now' later) {wanted : kind.kind.Object}
    (inDesired : wanted ∈ desired) (inTaken : wanted ∈ taken) :
    set.isStale kind later wanted = false := by
  by_contra still
  obtain ⟨member, listed, same, _, differs⟩ :=
    (isStale_iff ripe.orderly inDesired).1 (by simpa using still)
  obtain ⟨live, listedAfter, living, keeps⟩ := ripens.come member listed
  have there := find?_of_mem_listed listedAfter
  rw [← keeps.name_eq, same] at there
  rcases rolledOut.renewed wanted inTaken with leaving | ⟨_, _, stored, _, stands, _, current⟩
  · have terminating := leaving live there
    rw [living] at terminating
    cases terminating
  · obtain rfl := Option.some.inj (there.symm.trans stands)
    exact differs (keeps.revision_eq.trans current)

theorem isThere_of_lives (orderly : set.Orderly kind desired later)
    (ripens : set.Ripens kind desired now' after later) {wanted live : kind.kind.Object}
    (inDesired : wanted ∈ desired)
    (there : after.find? kind.kind set.space (kind.kind.metadata wanted).shownName = some live)
    (selected : Cluster.selects set.selector (kind.kind.metadata live).labelMap.find? = true)
    (living : (kind.kind.metadata live).isTerminating = false) :
    set.isThere kind later wanted = true := by
  obtain ⟨member, listed, keeps⟩ := ripens.stay live (mem_listed_of_found there selected) living
  refine (isThere_iff orderly inDesired).2 ⟨member, listed, ?_⟩
  exact keeps.name_eq.trans (Registry.isPlaced_of_find? there).shownName_eq

/-- When nothing was renewed, the members of a ripe set that was not scaled are all there. -/
theorem RolledOut.isThere {changes : Changes kind.kind.Object}
    (rolledOut : set.RolledOut kind [] before after)
    (found : set.differences kind desired before = .ok changes)
    (steady : changes.isScaling = false) (ripe : set.Ripe kind desired now before)
    (orderly : set.Orderly kind desired later)
    (ripens : set.Ripens kind desired now' after later) {wanted : kind.kind.Object}
    (inDesired : wanted ∈ desired) : set.isThere kind later wanted = true := by
  obtain ⟨live, listed, same⟩ :=
    ((lead_of_differences found).isScaling_eq_false_iff.1 steady).2 wanted inDesired
  obtain ⟨there, selected⟩ := before.mem_selected_iff.1 listed
  rw [same] at there
  have kept := rolledOut.kept (kind.kind.metadata wanted).shownName
    fun other member => absurd member List.not_mem_nil
  exact isThere_of_lives orderly ripens inDesired (kept.trans there) selected
    (MemberKind.living_of_isAvailable (ripe.available live listed))

/-- A ripe set that is to be scaled lacks a desired member. -/
theorem Ripe.exists_missing {changes : Changes kind.kind.Object}
    (ripe : set.Ripe kind desired now before)
    (found : set.differences kind desired before = .ok changes)
    (scaling : changes.isScaling = true) :
    ∃ wanted ∈ desired, set.isThere kind before wanted = false := by
  by_contra whole
  have steady := (lead_of_differences found).isScaling_eq_false_iff.2 ⟨ripe.wanted, ?_⟩
  · rw [scaling] at steady
    cases steady
  · intro wanted inDesired
    refine (isThere_iff ripe.orderly inDesired).1 ?_
    by_contra missing
    exact whole ⟨wanted, inDesired, by simpa using missing⟩

/-- The stale members of a ripe set are those that a pass updates. -/
theorem Ripe.isStale_iff_mem_updates {changes : Changes kind.kind.Object}
    (ripe : set.Ripe kind desired now before)
    (found : set.differences kind desired before = .ok changes) {wanted : kind.kind.Object}
    (inDesired : wanted ∈ desired) :
    set.isStale kind before wanted = true ↔ wanted ∈ changes.updates := by
  rw [isStale_iff ripe.orderly inDesired, (lead_of_differences found).mem_updates]
  simp only [MemberKind.needsUpdate_eq, Bool.not_eq_false', bne_iff_ne]
  constructor
  · rintro ⟨live, listed, same, _, differs⟩
    exact ⟨inDesired, live, listed, same, differs⟩
  · rintro ⟨_, live, listed, same, differs⟩
    have living := MemberKind.living_of_isAvailable (ripe.available live listed)
    exact ⟨live, listed, same, living, differs⟩

/-- A ripe set has nothing stale exactly when a pass has nothing to update. -/
theorem Ripe.staleCount_eq_zero_iff {changes : Changes kind.kind.Object}
    (ripe : set.Ripe kind desired now before)
    (found : set.differences kind desired before = .ok changes) :
    set.staleCount kind desired before = 0 ↔ changes.updates = [] := by
  rw [staleCount, List.countP_eq_zero, List.eq_nil_iff_forall_not_mem]
  constructor
  · intro noneStale wanted updated
    have inDesired := (((lead_of_differences found).mem_updates wanted).1 updated).1
    exact noneStale wanted inDesired ((ripe.isStale_iff_mem_updates found inDesired).2 updated)
  · intro upToDate wanted inDesired stale
    exact upToDate wanted ((ripe.isStale_iff_mem_updates found inDesired).1 stale)

theorem Ripe.listedAvailable_eq {changes : Changes kind.kind.Object}
    (ripe : set.Ripe kind desired now before)
    (found : set.differences kind desired before = .ok changes)
    (steady : changes.isScaling = false) :
    set.listedAvailable kind now before = desired.length := by
  rw [← (lead_of_differences found).length_eq steady]
  exact List.countP_eq_length.2 ripe.available

/-- The budget of a ripe set is never spent. -/
theorem Ripe.one_le_budget {changes : Changes kind.kind.Object}
    (ripe : set.Ripe kind desired now before)
    (found : set.differences kind desired before = .ok changes)
    (steady : changes.isScaling = false) {budget : Int}
    (allowed : rolloutBudget set.maxUnavailable desired.length
      (set.listedAvailable kind now before) = .ok budget) : 1 ≤ budget := by
  have positive := one_le_resolveMaxUnavailable set.maxUnavailable desired.length
  rw [ripe.listedAvailable_eq found steady] at allowed
  obtain ⟨some, _, rfl⟩ := rolloutBudget_eq_ok allowed
  omega

theorem debt_of_all (whole : ∀ wanted ∈ desired, set.isThere kind later wanted = true) :
    set.debt kind desired later = 2 * set.staleCount kind desired later := by
  rw [debt, if_pos (List.all_eq_true.2 whole), Nat.add_zero]

theorem debt_of_missing {wanted : kind.kind.Object} (inDesired : wanted ∈ desired)
    (missing : set.isThere kind before wanted = false) :
    set.debt kind desired before = 2 * set.staleCount kind desired before + 1 := by
  have some : ¬ desired.all (set.isThere kind before) = true := by
    intro whole
    rw [List.all_eq_true.1 whole wanted inDesired] at missing
    cases missing
  rw [debt, if_neg some]

theorem debt_bounds (set : OrdinalSet) (kind : MemberKind) (desired : List kind.kind.Object)
    (registry : Registry) :
    2 * set.staleCount kind desired registry ≤ set.debt kind desired registry ∧
      set.debt kind desired registry ≤ 2 * set.staleCount kind desired registry + 1 := by
  unfold debt
  split <;> omega

section Debt

variable (attainable : set.Attainable kind desired)

include attainable

/-- A member that is stale after a turn was stale before it, and was not renewed. -/
theorem Ripens.isStale_before (ripens : set.Ripens kind desired now' after later)
    (completed : set.Completed kind desired now before plan calls after)
    (orderly : set.Orderly kind desired before) {wanted : kind.kind.Object}
    (inDesired : wanted ∈ desired) (stale : set.isStale kind later wanted = true) :
    set.isStale kind before wanted = true := by
  have ripe := ripens.ripe attainable completed orderly
  obtain ⟨member, listed, same, _, differs⟩ := (isStale_iff ripe.orderly inDesired).1 stale
  obtain ⟨live, listedAfter, living, keeps⟩ := ripens.come member listed
  rw [keeps.name_eq] at same
  rw [keeps.revision_eq] at differs
  rcases (completed.lasts attainable orderly listedAfter living).source with listedBefore |
    ⟨_, other, otherDesired, otherName, current⟩
  · exact (isStale_iff orderly inDesired).2 ⟨live, listedBefore, same, living, differs⟩
  · obtain rfl := List.inj_on_of_nodup_map attainable.nodup otherDesired inDesired
      (otherName.trans same)
    exact absurd current differs

theorem Ripens.staleCount_le (ripens : set.Ripens kind desired now' after later)
    (completed : set.Completed kind desired now before plan calls after)
    (orderly : set.Orderly kind desired before) :
    set.staleCount kind desired later ≤ set.staleCount kind desired before :=
  List.countP_mono_left fun _ inDesired stale =>
    ripens.isStale_before attainable completed orderly inDesired stale

/-- After scaling a ripe set, every desired member is there. -/
theorem Scaled.isThere {changes : Changes kind.kind.Object}
    (scaled : set.Scaled kind changes before after)
    (found : set.differences kind desired before = .ok changes)
    (ripe : set.Ripe kind desired now before) (orderly : set.Orderly kind desired later)
    (ripens : set.Ripens kind desired now' after later) {wanted : kind.kind.Object}
    (inDesired : wanted ∈ desired) : set.isThere kind later wanted = true := by
  have lead := lead_of_differences found
  by_cases created : wanted ∈ changes.creates
  · obtain ⟨stored, stands, matching⟩ := scaled.created wanted created
    refine isThere_of_lives orderly ripens inDesired stands ?_ matching.living
    rw [ObjectMeta.labelMap, matching.labels_eq]
    exact attainable.selected wanted inDesired
  · obtain ⟨live, listed, same⟩ : ∃ live ∈ set.listed kind before,
        (kind.kind.metadata live).shownName = (kind.kind.metadata wanted).shownName := by
      by_contra missing
      exact created ((lead.mem_creates wanted).2 ⟨inDesired, fun live listed same =>
        missing ⟨live, listed, same⟩⟩)
    have living := MemberKind.living_of_isAvailable (ripe.available live listed)
    obtain ⟨there, selected⟩ := before.mem_selected_iff.1 listed
    rw [same] at there
    have kept := scaled.kept (kind.kind.metadata wanted).shownName
      (fun other inCreates sameName =>
        ((lead.mem_creates other).1 inCreates).2 live listed (same.trans sameName.symm))
      (fun gone inDeletes sameName =>
        ((lead.mem_deletes gone).1 inDeletes).2 wanted inDesired sameName.symm)
    exact isThere_of_lives orderly ripens inDesired (kept.trans there) selected living

/-- Each complete pass over a ripe set, with the time that follows it, takes from the debt
until there is none. -/
theorem Ripens.debt_le (ripens : set.Ripens kind desired now' after later)
    (completed : set.Completed kind desired now before plan calls after)
    (ripe : set.Ripe kind desired now before) :
    set.debt kind desired later ≤ set.debt kind desired before - 1 := by
  have ripeLater := ripens.ripe attainable completed ripe.orderly
  have fewer := ripens.staleCount_le attainable completed ripe.orderly
  obtain ⟨changes, found⟩ := ripe.orderly.exists_differences attainable
  rcases completed.fates attainable ripe.orderly found with ⟨scaling, scaled⟩ |
    ⟨steady, upToDate, rolledOut⟩ | ⟨steady, outdated, budget, allowed, rolledOut⟩
  · -- The gaps are filled, and what was created is up to date.
    obtain ⟨wanted, inDesired, missing⟩ := ripe.exists_missing found scaling
    have owed := debt_of_missing inDesired missing
    have whole : set.debt kind desired later = 2 * set.staleCount kind desired later :=
      debt_of_all fun wanted inDesired =>
        scaled.isThere attainable found ripe ripeLater.orderly ripens inDesired
    omega
  · -- Nothing is stale, and nothing goes.
    have whole : set.debt kind desired later = 2 * set.staleCount kind desired later :=
      debt_of_all fun wanted inDesired =>
        rolledOut.isThere found steady ripe ripeLater.orderly ripens inDesired
    have noneStale := (ripe.staleCount_eq_zero_iff found).2 upToDate
    omega
  · -- At least one stale member is renewed, at the cost of one gap.
    obtain ⟨wanted, inTaken⟩ : ∃ wanted, wanted ∈ changes.updates.take budget.toNat := by
      have allowance := ripe.one_le_budget found steady allowed
      refine List.exists_mem_of_ne_nil _ fun none => ?_
      rcases List.take_eq_nil_iff.1 none with zero | upToDate
      · omega
      · exact outdated upToDate
    have updated := List.mem_of_mem_take inTaken
    have inDesired := (((lead_of_differences found).mem_updates wanted).1 updated).1
    have lost : set.staleCount kind desired later < set.staleCount kind desired before :=
      countP_lt_countP_of_mem
        (fun other otherDesired stale =>
          ripens.isStale_before attainable completed ripe.orderly otherDesired stale)
        inDesired ((ripe.isStale_iff_mem_updates found inDesired).2 updated)
        (rolledOut.isStale_eq_false ripens ripeLater inDesired inTaken)
    have above := debt_bounds set kind desired later
    have below := debt_bounds set kind desired before
    omega

/-! ## Rest -/

/-- A set is settled exactly when it is ripe and free of debt. -/
theorem Orderly.isSettled_iff (orderly : set.Orderly kind desired before) (now : Instant) :
    set.isSettled kind desired now before = true ↔
      set.Ripe kind desired now before ∧ set.debt kind desired before = 0 := by
  obtain ⟨changes, found⟩ := orderly.exists_differences attainable
  have lead := lead_of_differences found
  rw [isSettled_iff_of_found found]
  constructor
  · rintro ⟨steady, upToDate, enough⟩
    obtain ⟨noSurplus, noneMissing⟩ := lead.isScaling_eq_false_iff.1 steady
    have counted : set.listedAvailable kind now before = (set.listed kind before).length := by
      have length := (lead_of_differences found).length_eq steady
      have few : set.listedAvailable kind now before ≤ (set.listed kind before).length :=
        List.countP_le_length
      omega
    have ripe : set.Ripe kind desired now before :=
      ⟨orderly, noSurplus, List.countP_eq_length.1 counted⟩
    have noneStale := (ripe.staleCount_eq_zero_iff found).2 upToDate
    have whole := debt_of_all fun wanted inDesired =>
      (isThere_iff orderly inDesired).2 (noneMissing wanted inDesired)
    exact ⟨ripe, by omega⟩
  · rintro ⟨ripe, free⟩
    have bounds := debt_bounds set kind desired before
    have steady : changes.isScaling = false := by
      by_contra scaling
      obtain ⟨wanted, inDesired, missing⟩ := ripe.exists_missing found (by simpa using scaling)
      have owed := debt_of_missing inDesired missing
      omega
    have upToDate := (ripe.staleCount_eq_zero_iff found).1 (by omega)
    have counted : set.listedAvailable kind now before = desired.length :=
      ripe.listedAvailable_eq found steady
    exact ⟨steady, upToDate, Nat.le_of_eq counted.symm⟩

/-- What is listed of a set at rest: the desired members, all of them up to date and
available. -/
structure Rests (set : OrdinalSet) (kind : MemberKind) (desired : List kind.kind.Object)
    (now : Instant) (registry : Registry) : Prop where
  wanted : ∀ live ∈ set.listed kind registry, ∃ wanted ∈ desired,
    (kind.kind.metadata wanted).shownName = (kind.kind.metadata live).shownName
  present : ∀ wanted ∈ desired, ∃ live ∈ set.listed kind registry,
    (kind.kind.metadata live).shownName = (kind.kind.metadata wanted).shownName
  current : ∀ live ∈ set.listed kind registry, ∀ wanted ∈ desired,
    (kind.kind.metadata live).shownName = (kind.kind.metadata wanted).shownName →
      kind.needsUpdate live wanted = false
  available : set.listedAvailable kind now registry = desired.length

omit attainable in
/-- A set is settled exactly when it is at rest. -/
theorem isSettled_iff_rests {registry : Registry} {changes : Changes kind.kind.Object}
    (found : set.differences kind desired registry = .ok changes) :
    set.isSettled kind desired now registry = true ↔ set.Rests kind desired now registry := by
  have lead := lead_of_differences found
  rw [isSettled_iff_of_found found]
  constructor
  · rintro ⟨steady, upToDate, enough⟩
    obtain ⟨noSurplus, noneMissing⟩ := lead.isScaling_eq_false_iff.1 steady
    have length := lead.length_eq steady
    have few : set.listedAvailable kind now registry ≤ (set.listed kind registry).length :=
      List.countP_le_length
    refine ⟨noSurplus, noneMissing, fun live listed wanted inDesired same => ?_, by omega⟩
    by_contra outdated
    have updated := (lead.mem_updates wanted).2
      ⟨inDesired, live, listed, same, by simpa using outdated⟩
    rw [upToDate] at updated
    cases updated
  · intro rests
    refine ⟨lead.isScaling_eq_false_iff.2 ⟨rests.wanted, rests.present⟩,
      List.eq_nil_iff_forall_not_mem.2 fun wanted updated => ?_, Nat.le_of_eq rests.available.symm⟩
    obtain ⟨inDesired, live, listed, same, differs⟩ := (lead.mem_updates wanted).1 updated
    have current := rests.current live listed wanted inDesired same
    simp [current] at differs

theorem Orderly.rests (orderly : set.Orderly kind desired before)
    (settled : set.isSettled kind desired now before = true) :
    set.Rests kind desired now before ∧ set.plan kind desired now before = .ok [] := by
  obtain ⟨changes, found⟩ := orderly.exists_differences attainable
  obtain ⟨steady, upToDate, _⟩ := (isSettled_iff_of_found found).1 settled
  exact ⟨(isSettled_iff_rests found).1 settled, plan_of_idle found steady (Or.inr upToDate)⟩

end Debt

/-! ## Turns -/

section Agreement

variable (same : ∀ name, after.find? kind.kind set.space name =
  before.find? kind.kind set.space name)

include same

/-- What a set has listed depends on the objects of its kind and namespace. -/
theorem listed_congr : set.listed kind after = set.listed kind before :=
  Registry.selected_eq same set.selector

theorem Orderly.congr (orderly : set.Orderly kind desired before) :
    set.Orderly kind desired after := by
  have listed := listed_congr same
  constructor
  · rw [listed]
    exact orderly.readable
  · rw [listed]
    exact orderly.named
  · unfold Legible
    rw [listed]
    exact orderly.legible
  · intro wanted inDesired object there
    rw [listed]
    exact orderly.unoccupied wanted inDesired object (same _ ▸ there)

theorem Ripe.congr (ripe : set.Ripe kind desired now before) :
    set.Ripe kind desired now after := by
  have listed := listed_congr same
  refine ⟨ripe.orderly.congr same, ?_, ?_⟩
  · rw [listed]
    exact ripe.wanted
  · rw [listed]
    exact ripe.available

theorem staleCount_congr :
    set.staleCount kind desired after = set.staleCount kind desired before := by
  have sameStale : set.isStale kind after = set.isStale kind before := by
    funext wanted
    rw [isStale, isStale, same]
  rw [staleCount, staleCount, sameStale]

theorem debt_congr : set.debt kind desired after = set.debt kind desired before := by
  have sameThere : set.isThere kind after = set.isThere kind before := by
    funext wanted
    rw [isThere, isThere, same]
  rw [debt, debt, staleCount_congr same, sameThere]

theorem Ripens.congr (ripens : set.Ripens kind desired now after later) :
    set.Ripens kind desired now before later := by
  have listed := listed_congr same
  refine ⟨?_, ?_, ripens.living, ripens.ready, ripens.legible, ripens.unoccupied⟩
  · rw [← listed]
    exact ripens.stay
  · rw [← listed]
    exact ripens.come

theorem isSettled_congr : set.isSettled kind desired now after =
    set.isSettled kind desired now before := by
  have listed := listed_congr same
  unfold isSettled differences listedAvailable
  rw [listed]

end Agreement

/-- A turn of a set: a complete pass over it and the time that follows.  Other passes may
come between, which leave the objects of its kind alone. -/
def Turn (set : OrdinalSet) (kind : MemberKind) (desired : List kind.kind.Object)
    (start finish : Registry × Instant) : Prop :=
  ∃ opened plan calls closed left,
    (∀ name, opened.find? kind.kind set.space name = start.1.find? kind.kind set.space name) ∧
    set.Completed kind desired start.2 opened plan calls closed ∧
    (∀ name, left.find? kind.kind set.space name = closed.find? kind.kind set.space name) ∧
    set.Ripens kind desired finish.2 left finish.1

namespace Turn

variable {start finish : Registry × Instant} (turn : set.Turn kind desired start finish)
  (attainable : set.Attainable kind desired)

include turn attainable

theorem ripe (orderly : set.Orderly kind desired start.1) :
    set.Ripe kind desired finish.2 finish.1 := by
  obtain ⟨opened, plan, calls, closed, left, sameOpened, completed, sameLeft, ripens⟩ := turn
  exact (ripens.congr sameLeft).ripe attainable completed (orderly.congr sameOpened)

theorem staleCount_le (orderly : set.Orderly kind desired start.1) :
    set.staleCount kind desired finish.1 ≤ set.staleCount kind desired start.1 := by
  obtain ⟨opened, plan, calls, closed, left, sameOpened, completed, sameLeft, ripens⟩ := turn
  rw [← staleCount_congr sameOpened]
  exact (ripens.congr sameLeft).staleCount_le attainable completed (orderly.congr sameOpened)

theorem debt_le (ripe : set.Ripe kind desired start.2 start.1) :
    set.debt kind desired finish.1 ≤ set.debt kind desired start.1 - 1 := by
  obtain ⟨opened, plan, calls, closed, left, sameOpened, completed, sameLeft, ripens⟩ := turn
  rw [← debt_congr sameOpened]
  exact (ripens.congr sameLeft).debt_le attainable completed (ripe.congr sameOpened)

end Turn

/-! ## Runs of turns -/

/-- A number of turns, one after the other. -/
inductive Turns (set : OrdinalSet) (kind : MemberKind) (desired : List kind.kind.Object) :
    Nat → Registry × Instant → Registry × Instant → Prop
  | none (start : Registry × Instant) : Turns set kind desired 0 start start
  | more {count : Nat} {start middle finish : Registry × Instant}
      (earlier : Turns set kind desired count start middle)
      (turn : set.Turn kind desired middle finish) :
      Turns set kind desired (count + 1) start finish

section Runs

variable {start finish : Registry × Instant} {count : Nat}
  (attainable : set.Attainable kind desired)

include attainable

/-- From the first turn on a set is ripe, and each later turn takes from its debt. -/
theorem Turns.ripe (turns : set.Turns kind desired (count + 1) start finish)
    (orderly : set.Orderly kind desired start.1) :
    set.Ripe kind desired finish.2 finish.1 ∧
      set.debt kind desired finish.1 ≤ 2 * set.staleCount kind desired start.1 + 1 - count := by
  induction count generalizing finish with
  | zero =>
      cases turns with
      | more earlier turn =>
          cases earlier
          have fewer := turn.staleCount_le attainable orderly
          have bounds := debt_bounds set kind desired finish.1
          exact ⟨turn.ripe attainable orderly, by omega⟩
  | succ count inductionHypothesis =>
      cases turns with
      | more earlier turn =>
          obtain ⟨ripe, owed⟩ := inductionHypothesis earlier
          have less := turn.debt_le attainable ripe
          exact ⟨turn.ripe attainable ripe.orderly, by omega⟩

theorem Turns.orderly (turns : set.Turns kind desired count start finish)
    (orderly : set.Orderly kind desired start.1) : set.Orderly kind desired finish.1 := by
  cases count with
  | zero =>
      cases turns
      exact orderly
  | succ count => exact (turns.ripe attainable orderly).1.orderly

/-- Two turns for each stale member, and two more, settle a set. -/
theorem Turns.isSettled (turns : set.Turns kind desired count start finish)
    (orderly : set.Orderly kind desired start.1)
    (enough : 2 + 2 * set.staleCount kind desired start.1 ≤ count) :
    set.isSettled kind desired finish.2 finish.1 = true := by
  obtain ⟨count, rfl⟩ : ∃ before, count = before + 1 := ⟨count - 1, by omega⟩
  obtain ⟨ripe, owed⟩ := turns.ripe attainable orderly
  exact (ripe.orderly.isSettled_iff attainable finish.2).2 ⟨ripe, by omega⟩

/-- A set that is settled stays so. -/
theorem Turns.isSettled_of_start (turns : set.Turns kind desired count start finish)
    (orderly : set.Orderly kind desired start.1)
    (settled : set.isSettled kind desired start.2 start.1 = true) :
    set.isSettled kind desired finish.2 finish.1 = true := by
  induction turns with
  | none start => exact settled
  | more earlier turn inductionHypothesis =>
      have before := earlier.orderly attainable orderly
      obtain ⟨ripe, free⟩ := (before.isSettled_iff attainable _).1
        (inductionHypothesis orderly settled)
      have ripeAfter := turn.ripe attainable before
      have less := turn.debt_le attainable ripe
      exact (ripeAfter.orderly.isSettled_iff attainable _).2 ⟨ripeAfter, by omega⟩

end Runs

end OrdinalSet

end NodeFleet.Fleet
