import NodeFleet.Fleet.Converge
import NodeFleet.Proofs.Fleet.CompletePass
import NodeFleet.Proofs.Fleet.MemberNames
import NodeFleet.Proofs.Fleet.Partition
import NodeFleet.Proofs.Store.Listings

/-!
# An interrupted scaling is resumed

A pass that scales a set creates the missing members and then deletes the surplus ones.  When one
of its calls comes to nothing, the pass breaks off, and just the calls before that one have been
carried out.  The next pass knows nothing of this one: it compares the members again, and is left
with the calls that this one did not carry out.
-/

namespace NodeFleet.Fleet

open Calendar Resource Store Text

section Begun

variable {α : Type} {metadata : α → ObjectMeta} {objects : List α}

/-- The changes that the first calls of a scaling make, where creations come first. -/
def Changes.begun (changes : Changes α) (count : Nat) : Changes α where
  creates := changes.creates.take count
  updates := []
  deletes := changes.deletes.take (count - changes.creates.length)

theorem Changes.Lead.missing_of_begun {same : α → α → Bool} {current desired : List α}
    {changes : Changes α} {count : Nat} {object : α}
    (lead : changes.Lead metadata same current desired)
    (created : object ∈ (changes.begun count).creates) : object ∈ desired ∧
      ∀ live ∈ current, (metadata live).shownName ≠ (metadata object).shownName :=
  (lead.mem_creates object).1 (List.mem_of_mem_take created)

theorem Changes.Lead.surplus_of_begun {same : α → α → Bool} {current desired : List α}
    {changes : Changes α} {count : Nat} {object : α}
    (lead : changes.Lead metadata same current desired)
    (deleted : object ∈ (changes.begun count).deletes) : object ∈ current ∧
      ∀ wanted ∈ desired, (metadata wanted).shownName ≠ (metadata object).shownName :=
  (lead.mem_deletes object).1 (List.mem_of_mem_take deleted)

/-- Of objects with distinct names, those that do not have the name of one of the first are the
others. -/
theorem filter_not_namedIn_take
    (nodup : (objects.map fun object => (metadata object).shownName).Nodup) (count : Nat) :
    objects.filter (!namedIn metadata (objects.take count) ·) = objects.drop count := by
  have first : (objects.take count).filter (!namedIn metadata (objects.take count) ·) = [] := by
    refine List.filter_eq_nil_iff.2 fun object member => ?_
    rw [namedIn_eq_true_iff.2 ⟨object, member, rfl⟩]
    decide
  have others : (objects.drop count).filter (!namedIn metadata (objects.take count) ·) =
      objects.drop count := by
    rw [← List.take_append_drop count objects, List.map_append] at nodup
    refine List.filter_eq_self.2 fun object member => ?_
    rw [Bool.not_eq_true', Bool.eq_false_iff, ne_eq, namedIn_eq_true_iff]
    rintro ⟨other, among, sameName⟩
    exact (List.nodup_append.1 nodup).2.2 _ (List.mem_map_of_mem among) _
      (List.mem_map_of_mem member) sameName
  calc objects.filter (!namedIn metadata (objects.take count) ·)
      = (objects.take count ++ objects.drop count).filter
          (!namedIn metadata (objects.take count) ·) := by rw [List.take_append_drop]
    _ = objects.drop count := by rw [List.filter_append, first, others, List.nil_append]

end Begun

namespace OrdinalSet

variable {mayFail : Request → Prop} {σ : Type} {set : OrdinalSet} {kind : MemberKind}
  {desired : List kind.kind.Object} {now : Instant} {registry before middle later : Registry}
  {changes changes' : Changes kind.kind.Object} {count : Nat}

/-! ## The calls that are left -/

theorem scalingCalls_begun (set : OrdinalSet) (kind : MemberKind)
    (changes : Changes kind.kind.Object) (count : Nat) :
    set.scalingCalls kind (changes.begun count) = (set.scalingCalls kind changes).take count := by
  simp only [scalingCalls, Changes.begun, List.take_append, List.map_take, List.length_map]

theorem scalingCalls_eq_drop (creates : changes'.creates = changes.creates.drop count)
    (deletes : changes'.deletes = changes.deletes.drop (count - changes.creates.length)) :
    set.scalingCalls kind changes' = (set.scalingCalls kind changes).drop count := by
  simp only [scalingCalls, creates, deletes, List.drop_append, List.map_drop, List.length_map]

/-- A cluster from which deleted members have gone, and where nothing else has changed. -/
def Cleared (set : OrdinalSet) (kind : MemberKind) (deleted : List kind.kind.Object)
    (before after : Registry) : Prop :=
  ∀ name, after.find? kind.kind set.space name =
    if name ∈ deleted.map (fun live => (kind.kind.metadata live).shownName) then none
    else before.find? kind.kind set.space name

/-- What a scaling leaves once the deleted members have gone. -/
structure Advanced (set : OrdinalSet) (kind : MemberKind) (changes : Changes kind.kind.Object)
    (before after : Registry) : Prop where
  created : ∀ wanted ∈ changes.creates, ∃ stored,
    after.find? kind.kind set.space (kind.kind.metadata wanted).shownName = some stored ∧
      Matching kind wanted stored
  gone : ∀ live ∈ changes.deletes,
    after.find? kind.kind set.space (kind.kind.metadata live).shownName = none
  kept : ∀ name, (∀ wanted ∈ changes.creates, (kind.kind.metadata wanted).shownName ≠ name) →
    (∀ live ∈ changes.deletes, (kind.kind.metadata live).shownName ≠ name) →
      after.find? kind.kind set.space name = before.find? kind.kind set.space name

theorem Scaled.advanced (scaled : set.Scaled kind changes before middle)
    (disjoint : ∀ wanted ∈ changes.creates, ∀ live ∈ changes.deletes,
      (kind.kind.metadata live).shownName ≠ (kind.kind.metadata wanted).shownName)
    (cleared : set.Cleared kind changes.deletes middle later) :
    set.Advanced kind changes before later where
  created := by
    intro wanted created
    rw [cleared, if_neg]
    · exact scaled.created wanted created
    · rw [List.mem_map]
      rintro ⟨live, deleted, sameName⟩
      exact disjoint wanted created live deleted sameName
  gone := by
    intro live deleted
    rw [cleared, if_pos (List.mem_map_of_mem deleted)]
  kept := by
    intro name uncreated undeleted
    rw [cleared, if_neg]
    · exact scaled.kept name uncreated undeleted
    · rw [List.mem_map]
      rintro ⟨live, deleted, sameName⟩
      exact undeleted live deleted sameName

/-- The members that have been created are found by their labels. -/
def FindsCreated (set : OrdinalSet) (kind : MemberKind) (changes : Changes kind.kind.Object)
    (registry : Registry) : Prop :=
  ∀ wanted ∈ changes.creates, ∀ stored,
    registry.find? kind.kind set.space (kind.kind.metadata wanted).shownName = some stored →
      stored ∈ set.listed kind registry

section Resumed

variable (found : set.differences kind desired before = .ok changes)
  (advanced : set.Advanced kind (changes.begun count) before later)

include found advanced

omit found in
/-- Whoever is listed afterwards was listed before and has not been deleted, or has been
created. -/
theorem listed_cases {live : kind.kind.Object} (listed : live ∈ set.listed kind later) :
    (live ∈ set.listed kind before ∧ namedIn kind.kind.metadata (changes.begun count).deletes live =
        false) ∨
      ∃ wanted ∈ (changes.begun count).creates,
        (kind.kind.metadata wanted).shownName = (kind.kind.metadata live).shownName ∧
          Matching kind wanted live := by
  have there := find?_of_mem_listed listed
  by_cases created : ∃ wanted ∈ (changes.begun count).creates,
      (kind.kind.metadata wanted).shownName = (kind.kind.metadata live).shownName
  · obtain ⟨wanted, inCreates, sameName⟩ := created
    obtain ⟨stored, storedThere, matching⟩ := advanced.created wanted inCreates
    rw [sameName, there] at storedThere
    obtain rfl := Option.some.inj storedThere
    exact Or.inr ⟨wanted, inCreates, sameName, matching⟩
  · have undeleted : ∀ gone ∈ (changes.begun count).deletes,
        (kind.kind.metadata gone).shownName ≠ (kind.kind.metadata live).shownName := by
      intro gone inDeletes sameName
      have absent := advanced.gone gone inDeletes
      rw [sameName, there] at absent
      cases absent
    have kept := advanced.kept _
      (fun wanted inCreates sameName => created ⟨wanted, inCreates, sameName⟩) undeleted
    refine Or.inl ⟨mem_listed_of_found (kept.symm.trans there)
      (later.mem_selected_iff.1 listed).2, ?_⟩
    rw [Bool.eq_false_iff, ne_eq, namedIn_eq_true_iff]
    rintro ⟨gone, inDeletes, sameName⟩
    exact undeleted gone inDeletes sameName

theorem listed_of_undeleted {live : kind.kind.Object} (listed : live ∈ set.listed kind before)
    (undeleted : namedIn kind.kind.metadata (changes.begun count).deletes live = false) :
    live ∈ set.listed kind later := by
  refine mem_listed_of_found ((advanced.kept _ ?_ ?_).trans (find?_of_mem_listed listed))
    (before.mem_selected_iff.1 listed).2
  · intro wanted inCreates sameName
    exact ((lead_of_differences found).missing_of_begun inCreates).2 live listed sameName.symm
  · intro gone inDeletes sameName
    rw [namedIn_eq_true_iff.2 ⟨gone, inDeletes, sameName⟩] at undeleted
    cases undeleted

theorem namedIn_listed_eq (finds : set.FindsCreated kind (changes.begun count) later)
    {wanted : kind.kind.Object} (inDesired : wanted ∈ desired) :
    namedIn kind.kind.metadata (set.listed kind later) wanted =
      (namedIn kind.kind.metadata (set.listed kind before) wanted ||
        namedIn kind.kind.metadata (changes.begun count).creates wanted) := by
  rw [Bool.eq_iff_iff, Bool.or_eq_true, namedIn_eq_true_iff, namedIn_eq_true_iff,
    namedIn_eq_true_iff]
  constructor
  · rintro ⟨live, listed, sameName⟩
    rcases listed_cases advanced listed with ⟨earlier, _⟩ | ⟨other, created, otherName, _⟩
    · exact Or.inl ⟨live, earlier, sameName⟩
    · exact Or.inr ⟨other, created, otherName.trans sameName⟩
  · rintro (⟨live, listed, sameName⟩ | ⟨other, created, sameName⟩)
    · refine ⟨live, listed_of_undeleted found advanced listed ?_, sameName⟩
      rw [Bool.eq_false_iff, ne_eq, namedIn_eq_true_iff]
      rintro ⟨gone, inDeletes, goneName⟩
      exact ((lead_of_differences found).surplus_of_begun inDeletes).2 wanted inDesired
        (sameName.symm.trans goneName.symm)
    · obtain ⟨stored, there, _⟩ := advanced.created other created
      have named := (Registry.isPlaced_of_find? there).shownName_eq
      exact ⟨stored, finds other created stored there, named.trans sameName⟩

/-- Nothing is left of the surplus members but those that are still to be deleted. -/
theorem surplus_eq :
    (set.listed kind later).filter (!namedIn kind.kind.metadata desired ·) =
      ((set.listed kind before).filter (!namedIn kind.kind.metadata desired ·)).filter
        (!namedIn kind.kind.metadata (changes.begun count).deletes ·) := by
  have ascends : ∀ registry, kind.kind.Ascending (set.listed kind registry) :=
    fun registry => registry.ascending_selected kind.kind set.space set.selector
  refine List.Pairwise.eq_of_mem_iff ((ascends later).filter _)
    (((ascends before).filter _).filter _) fun live => ?_
  simp only [List.mem_filter, Bool.not_eq_true']
  constructor
  · rintro ⟨listed, surplus⟩
    rcases listed_cases advanced listed with ⟨earlier, undeleted⟩ | ⟨wanted, created, same, _⟩
    · exact ⟨⟨earlier, surplus⟩, undeleted⟩
    · have inDesired := ((lead_of_differences found).missing_of_begun created).1
      rw [namedIn_eq_true_iff.2 ⟨wanted, inDesired, same⟩] at surplus
      cases surplus
  · rintro ⟨⟨earlier, surplus⟩, undeleted⟩
    exact ⟨listed_of_undeleted found advanced earlier undeleted, surplus⟩

/-- The differences that are left are those that have not been made up for. -/
theorem exists_differences_left (finds : set.FindsCreated kind (changes.begun count) later) :
    ∃ changes', set.differences kind desired later = .ok changes' ∧
      changes'.creates = changes.creates.drop count ∧
      changes'.deletes = changes.deletes.drop (count - changes.creates.length) := by
  have lead := lead_of_differences found
  have part := part_of_diff found
  obtain ⟨soundBefore, soundDesired⟩ := exists_diff_iff.1 ⟨changes, found⟩
  have soundLater : ¬ Flawed kind.kind.metadata (set.listed kind later) := by
    refine not_flawed_iff.2 ⟨set.listed_nodup kind later, fun live listed => ?_⟩
    rcases listed_cases advanced listed with ⟨earlier, _⟩ | ⟨wanted, created, _, matching⟩
    · exact (not_flawed_iff.1 soundBefore).2 live earlier
    · have inDesired := (lead.missing_of_begun created).1
      exact hasPosition_of_ordinalText?_eq matching.ordinal_eq
        ((not_flawed_iff.1 soundDesired).2 wanted inDesired)
  obtain ⟨changes', foundLater⟩ : ∃ changes', set.differences kind desired later = .ok changes' :=
    exists_diff_iff.2 ⟨soundLater, soundDesired⟩
  have partLater := part_of_diff foundLater
  refine ⟨changes', foundLater, ?_, ?_⟩
  · have missing : desired.filter (!namedIn kind.kind.metadata (set.listed kind later) ·) =
        (desired.filter (!namedIn kind.kind.metadata (set.listed kind before) ·)).filter
          (!namedIn kind.kind.metadata (changes.begun count).creates ·) := by
      rw [List.filter_filter]
      refine List.filter_congr fun wanted inDesired => ?_
      rw [namedIn_listed_eq found advanced finds inDesired, Bool.not_or, Bool.and_comm]
    have left := part.creates.filter (!namedIn kind.kind.metadata (changes.begun count).creates ·)
    rw [← missing] at left
    exact (left.unique partLater.creates).trans
      (filter_not_namedIn_take (nodup_creates_of_diff found) count)
  · have left := part.deletes.filter (!namedIn kind.kind.metadata (changes.begun count).deletes ·)
    rw [← surplus_eq found advanced] at left
    exact (left.unique partLater.deletes).trans (filter_not_namedIn_take lead.deletes_nodup _)

/-- As long as some calls of a scaling are left, they are the plan. -/
theorem plan_left (finds : set.FindsCreated kind (changes.begun count) later)
    {request : Request} {rest : List Request}
    (left : (set.scalingCalls kind changes).drop count = request :: rest) (now : Instant) :
    set.plan kind desired now later = .ok (request :: rest) := by
  obtain ⟨changes', foundLater, creates, deletes⟩ := exists_differences_left found advanced finds
  have calls : set.scalingCalls kind changes' = request :: rest :=
    (scalingCalls_eq_drop creates deletes).trans left
  have scaling : changes'.isScaling = true := by
    by_contra steady
    have none : changes'.creates = [] ∧ changes'.deletes = [] := by
      simpa [Changes.isScaling] using steady
    simp [scalingCalls, none] at calls
  rw [plan_of_scaling foundLater scaling, ← calls]
  rfl

end Resumed

/-! ## The pass that is interrupted -/

/-- A pass that scales a set lists the members and makes the calls of the scaling; it halts only
because one of its calls balks, and may be tried again. -/
theorem ensures_scaling {ledger : Ledger}
    (found : set.differences kind desired ledger.registry = .ok changes)
    (scaling : changes.isScaling = true) (now : Instant) (state : σ) :
    (set.reconcile kind desired now : Pass σ SetOutcome).Ensures mayFail
      (fun _ _ final => (set.afterListing kind ledger).Completes (set.scalingCalls kind changes)
        final)
      (fun halt _ final => halt.isTransient = true ∧
        (ledger.Balks mayFail (set.listing kind) final ∨
          (set.afterListing kind ledger).Interrupted mayFail (set.scalingCalls kind changes) final))
      state ledger := by
  refine Pass.ensures_bind (Pass.ensures_attempt (Exchange.ensures_list ?_ ?_))
  · change Pass.Ensures mayFail
      (OrdinalSet.changes kind (set.listed kind ledger.registry) desired >>= _) _ _ state
      (set.afterListing kind ledger)
    refine Pass.ensures_bind ?_
    rw [changes_listed_eq, found]
    refine Pass.ensures_pure changes ?_
    rw [if_pos scaling]
    exact Pass.Ensures.mono (Pass.heeds_bind_pure (heeds_scale set kind changes) state _)
      (fun _ _ _ completes => completes) fun _ _ _ halts => ⟨halts.1, Or.inr halts.2⟩
  · exact fun error final nothing => ⟨isTransient_haltOf error, Or.inl nothing.balks⟩

/-- A pass over a set was interrupted: it has listed the members and carried out the first calls
of its scaling, and nothing else, when the next request balked. -/
structure Suspended (mayFail : Request → Prop) (set : OrdinalSet) (kind : MemberKind)
    (changes : Changes kind.kind.Object) (registry : Registry) (done : List Request)
    (request : Request) (final : Ledger) : Prop where
  stops : ∃ middle, (set.afterListing kind (.opened registry)).Completes done middle ∧
    middle.Balks mayFail request final
  scaled : set.Scaled kind (changes.begun done.length) registry final.registry
  others : ∀ other space name, (other, space) ≠ (kind.kind, set.space) →
    final.registry.find? other space name = registry.find? other space name

theorem suspended_of_interrupted {done rest : List Request} {request : Request}
    {middle final : Ledger}
    (named : ∀ wanted ∈ desired,
      (kind.kind.metadata wanted).name = some (kind.kind.metadata wanted).shownName)
    (found : set.differences kind desired registry = .ok changes)
    (calls : set.scalingCalls kind changes = done ++ request :: rest)
    (completes : (set.afterListing kind (.opened registry)).Completes done middle)
    (balks : middle.Balks mayFail request final)
    (chain : Chain mayFail registry final.calls final.registry) :
    set.Suspended mayFail kind changes registry done request final := by
  have begun : set.scalingCalls kind (changes.begun done.length) = done := by
    rw [scalingCalls_begun, calls, List.take_left]
  have lead := lead_of_differences found
  have namedBegun : ∀ wanted ∈ (changes.begun done.length).creates,
      (kind.kind.metadata wanted).name = some (kind.kind.metadata wanted).shownName :=
    fun wanted created => named wanted (lead.missing_of_begun created).1
  have apart : Apart (set.scalingCalls kind (changes.begun done.length)) := by
    have whole := apart_scalingCalls named found
    rw [Apart, calls, List.filterMap_append] at whole
    rw [Apart, begun]
    exact whole.of_append_left
  obtain ⟨made, madeCalls, carried⟩ := completes
  have applied : CarriesOut (set.listing kind :: set.scalingCalls kind (changes.begun done.length))
      middle.calls := by
    rw [begun, madeCalls]
    exact (carriesOut_listing set kind registry).append carried
  have chainMiddle := balks.chain chain
  have scaled := (scaled_of_carriesOut namedBegun apart applied chainMiddle).1
  refine ⟨⟨middle, ⟨made, madeCalls, carried⟩, balks⟩, balks.registry_eq ▸ scaled, ?_⟩
  intro other space name elsewhere
  rw [balks.registry_eq]
  refine chainMiddle.find?_eq fun call member place => elsewhere ?_
  rcases List.mem_cons.1 (applied.breaksOff.request_mem member) with listing | inBegun
  · rw [listing] at place
    cases place
  obtain ⟨member, _, aimed⟩ := place?_of_mem_scalingCalls namedBegun inBegun
  cases aimed.symm.trans place
  rfl

/-! ## The pass that follows -/

/-- A pass gets to its end only where no other object has the name of a desired member: it would
not find the member, and fail to create it. -/
theorem unoccupied_of_carriesOut {plan : List Request} {calls : List Call} {after : Registry}
    (named : ∀ wanted ∈ desired,
      (kind.kind.metadata wanted).name = some (kind.kind.metadata wanted).shownName)
    (planned : set.plan kind desired now registry = .ok plan)
    (carried : CarriesOut (set.listing kind :: plan) calls)
    (chain : Chain mayFail registry calls after) : set.Unoccupied kind desired registry := by
  intro wanted inDesired object there
  by_contra unlisted
  obtain ⟨changes, found, _⟩ := plan_eq_ok planned
  have lead := lead_of_differences found
  have created : wanted ∈ changes.creates := by
    refine (lead.mem_creates wanted).2 ⟨inDesired, fun live listed sameName => unlisted ?_⟩
    have thereToo := find?_of_mem_listed listed
    rw [sameName, there] at thereToo
    exact Option.some.inj thereToo ▸ listed
  have scaling : changes.isScaling = true := by
    simp [Changes.isScaling, List.ne_nil_of_mem created]
  obtain rfl := Except.ok.inj (planned.symm.trans (plan_of_scaling found scaling))
  have namedCreates : ∀ wanted ∈ changes.creates,
      (kind.kind.metadata wanted).name = some (kind.kind.metadata wanted).shownName :=
    fun wanted created => named wanted ((lead.mem_creates wanted).1 created).1
  have absent := (scaled_of_carriesOut namedCreates (apart_scalingCalls named found) carried
    chain).2 wanted created
  rw [there] at absent
  cases absent

/-- Every pass over a set that gets to its end lists the members and makes just some given
calls. -/
def Issues (set : OrdinalSet) (kind : MemberKind) (desired : List kind.kind.Object)
    (registry : Registry) (calls : List Request) : Prop :=
  ∀ (mayFail : Request → Prop) (now : Instant) (outcome : SetOutcome) (final : Ledger),
    (set.reconcile kind desired now : Pass Unit SetOutcome).Runs mayFail () (.opened registry)
      (.ok outcome) () final →
    final.calls.map (·.request) = set.listing kind :: calls

/-- A pass over a set gets to its end unless one of its calls, or of some given ones, is
hindered. -/
def GetsThrough (set : OrdinalSet) (kind : MemberKind) (desired : List kind.kind.Object)
    (registry : Registry) (calls : List Request) : Prop :=
  ∀ (mayFail : Request → Prop) (now : Instant) (result : Except (Halt PassError) SetOutcome)
    (final : Ledger),
    (set.reconcile kind desired now : Pass Unit SetOutcome).Runs mayFail () (.opened registry)
      result () final →
    ¬ Hindered calls final.calls → ∃ outcome, result = .ok outcome

section Followed

variable {done rest : List Request} {request : Request} {final : Ledger}
  (named : ∀ wanted ∈ desired,
    (kind.kind.metadata wanted).name = some (kind.kind.metadata wanted).shownName)
  (found : set.differences kind desired registry = .ok changes)
  (suspended : set.Suspended mayFail kind changes registry done request final)
  (cleared : set.Cleared kind (changes.begun done.length).deletes final.registry later)
  (calls : set.scalingCalls kind changes = done ++ request :: rest)

include found suspended cleared

theorem Suspended.advanced :
    set.Advanced kind (changes.begun done.length) registry later := by
  have lead := lead_of_differences found
  refine suspended.scaled.advanced (fun wanted created live deleted sameName => ?_) cleared
  exact (lead.surplus_of_begun deleted).2 wanted (lead.missing_of_begun created).1 sameName.symm

include calls

/-- Where the created members are found by their labels, the calls that are left are the plan. -/
theorem Suspended.plan_eq (selected : ∀ wanted ∈ desired,
      Cluster.selects set.selector (kind.kind.metadata wanted).labelMap.find? = true)
    (now : Instant) : set.plan kind desired now later = .ok (request :: rest) := by
  have advanced := suspended.advanced found cleared
  refine plan_left found advanced (fun wanted created stored there => ?_)
    (by rw [calls, List.drop_left]) now
  obtain ⟨stored', there', matching⟩ := advanced.created wanted created
  obtain rfl := Option.some.inj (there.symm.trans there')
  have inDesired := ((lead_of_differences found).missing_of_begun created).1
  refine mem_listed_of_found there ?_
  unfold ObjectMeta.labelMap
  rw [matching.labels_eq]
  exact selected wanted inDesired

theorem Suspended.getsThrough (selected : ∀ wanted ∈ desired,
      Cluster.selects set.selector (kind.kind.metadata wanted).labelMap.find? = true) :
    set.GetsThrough kind desired later (request :: rest) := by
  intro mayFail' now result last runs unhindered
  cases result with
  | ok outcome => exact ⟨outcome, rfl⟩
  | error halt =>
      have planned := suspended.plan_eq found cleared calls selected now
      obtain ⟨made, rfl, _, broken, halted⟩ :=
        (ensures_reconcile set kind desired now () (.opened later)).settles runs
      cases isBroken : halt.isBroken with
      | true =>
          obtain ⟨message, faulty⟩ := broken isBroken
          exact absurd (planned.symm.trans faulty) (by simp)
      | false =>
          rcases halted isBroken with hindered | ⟨plan, plannedToo, hindered⟩
          · exact absurd (hindered.weaken (request :: rest)) unhindered
          · obtain rfl := Except.ok.inj (planned.symm.trans plannedToo)
            exact absurd hindered unhindered

include named

/-- A pass that gets to its end makes the calls that are left. -/
theorem Suspended.issues : set.Issues kind desired later (request :: rest) := by
  intro mayFail' now outcome last runs
  obtain ⟨plan, made, planned, rfl, carried⟩ :=
    (ensures_reconcile set kind desired now () (.opened later)).settles runs
  have unoccupied := unoccupied_of_carriesOut named planned carried (Program.Runs.chain runs)
  have finds : set.FindsCreated kind (changes.begun done.length) later :=
    fun wanted created stored there => unoccupied wanted
      ((lead_of_differences found).missing_of_begun created).1 stored there
  have left := plan_left found (suspended.advanced found cleared) finds
    (by rw [calls, List.drop_left]) now
  obtain rfl := Except.ok.inj (planned.symm.trans left)
  exact carried.requests_eq

end Followed

end OrdinalSet

/-! ## The members of a full node -/

/-- The set of the members of a full node of one kind. -/
def memberSet (node : FullNode) (space : String) (kind : MemberKind) : OrdinalSet :=
  componentSet node space kind.component

/-- Let a pass over the pods or the claims of a full node find members to scale, and halt.  It may
be tried again.  Unless it could not list the members, it has carried out the first calls of the
scaling, where creations come before deletions, each in the order of positions and none twice, and
nothing else.  Once the deleted members have gone, a pass that gets to its end makes just the calls
that are left; if selectors can hold the name of the full node, only hindered calls keep it from
its end. -/
theorem interrupted_scaling_resumes (node : FullNode) (space : String) (kind : MemberKind)
    (registry : Registry) (fits : node.spec.replicas ≤ Bounds.int32.high)
    (sound : ¬ Flawed kind.kind.metadata ((memberSet node space kind).listed kind registry)) :
    let set := memberSet node space kind
    let desired := node.desired kind
    ∃ changes, set.differences kind desired registry = .ok changes ∧
      changes.Part kind.kind.metadata (fun live wanted => !kind.needsUpdate live wanted)
        (set.listed kind registry) desired ∧
      Apart (set.scalingCalls kind changes) ∧
      (changes.isScaling = true →
        ∀ (mayFail : Request → Prop) (now : Instant) (halt : Halt PassError) (final : Ledger),
          (set.reconcile kind desired now : Pass Unit SetOutcome).Runs mayFail ()
            (.opened registry) (.error halt) () final →
          halt.isTransient = true ∧
          ((Ledger.opened registry).Balks mayFail (set.listing kind) final ∨
            ∃ done request rest, set.scalingCalls kind changes = done ++ request :: rest ∧
              set.Suspended mayFail kind changes registry done request final ∧
              ∀ later, set.Cleared kind (changes.begun done.length).deletes final.registry later →
                set.Issues kind desired later (request :: rest) ∧
                (',' ∉ node.name.toList →
                  set.GetsThrough kind desired later (request :: rest)))) := by
  intro set desired
  have named : ∀ wanted ∈ desired,
      (kind.kind.metadata wanted).name = some (kind.kind.metadata wanted).shownName :=
    fun wanted inDesired => FullNode.named_of_desired inDesired
  have soundDesired : ¬ Flawed kind.kind.metadata desired := not_flawed_iff.2
    ⟨node.desired_nodup kind, fun wanted inDesired =>
      FullNode.hasPosition_of_wanted inDesired fits⟩
  obtain ⟨changes, found⟩ : ∃ changes, set.differences kind desired registry = .ok changes :=
    exists_diff_iff.2 ⟨sound, soundDesired⟩
  refine ⟨changes, found, part_of_diff found, OrdinalSet.apart_scalingCalls named found, ?_⟩
  intro scaling mayFail now halt final runs
  obtain ⟨transient, unlisted | ⟨done, request, rest, middle, calls, completes, balks⟩⟩ :=
    (OrdinalSet.ensures_scaling found scaling now ()).settles runs
  · exact ⟨transient, Or.inl unlisted⟩
  have suspended := OrdinalSet.suspended_of_interrupted named found calls completes balks
    (Program.Runs.chain runs)
  refine ⟨transient, Or.inr ⟨done, request, rest, calls, suspended, fun later cleared => ⟨?_, ?_⟩⟩⟩
  · exact suspended.issues named found cleared calls
  · intro plain
    have finds : ∀ wanted ∈ desired, node.Finds kind wanted :=
      fun wanted inDesired => FullNode.finds_of_desired plain inDesired
    exact suspended.getsThrough found cleared calls finds

/-! ## A deletion that is refused -/

/-- A cluster that holds the claim of a second replica and not that of the first. -/
def shiftedCluster : Registry :=
  let surplus := (FullNode.sample 2 .empty).newClaim 1
  Registry.empty.put .volumeClaim "default" "pvc-cosmoshub-1"
    (Kind.volumeClaim.withMetadata (stamp "default" surplus.metadata) surplus)

/-- A pass over the claim of one replica. -/
def claimPass : Pass Unit SetOutcome :=
  (memberSet (FullNode.sample 1 .empty) "default" .volumeClaim).reconcile .volumeClaim
    (FullNode.sample 1 .empty).desiredClaims .earliest

/-- What the pass comes to on a server that refuses some calls. -/
def claimRun (refuses : Request → Bool) (registry : Registry) :
    (Except (Halt PassError) SetOutcome × Unit) × Ledger :=
  (claimPass.run.run () : Program _).run (Program.serve refuses) (.opened registry)

section ClaimRun

variable {mayFail : Request → Prop} {refuses : Request → Bool} {registry : Registry}
  (may : ∀ request, refuses request = true → mayFail request)

include may

theorem runs_claimRun : claimPass.Runs mayFail () (.opened registry)
    (claimRun refuses registry).1.1 () (claimRun refuses registry).2 :=
  Program.runs_run may _ _

theorem exists_halt_of_claimRun
    (halts : (claimRun refuses registry).1.1.toOption.isSome = false) :
    ∃ halt, claimPass.Runs mayFail () (.opened registry) (.error halt) ()
      (claimRun refuses registry).2 := by
  have runs := @runs_claimRun _ _ registry may
  cases ended : (claimRun refuses registry).1.1 with
  | ok outcome =>
      rw [ended] at halts
      cases halts
  | error halt => exact ⟨halt, ended ▸ runs⟩

theorem exists_outcome_of_claimRun
    (ends : (claimRun refuses registry).1.1.toOption.isSome = true) :
    ∃ outcome, claimPass.Runs mayFail () (.opened registry) (.ok outcome) ()
      (claimRun refuses registry).2 := by
  have runs := @runs_claimRun _ _ registry may
  cases ended : (claimRun refuses registry).1.1 with
  | ok outcome => exact ⟨outcome, ended ▸ runs⟩
  | error halt =>
      rw [ended] at ends
      cases ends

end ClaimRun

def refusesDeletion : Request → Bool
  | .delete .. => true
  | _ => false

/-- A pass creates the first claim and is refused the deletion of the second one; the next pass
makes the calls that are left. -/
theorem scaling_resumes_on_shiftedCluster :
    let node := FullNode.sample 1 .empty
    let set := memberSet node "default" .volumeClaim
    node.spec.replicas ≤ Bounds.int32.high ∧
      ¬ Flawed Kind.volumeClaim.metadata (set.listed .volumeClaim shiftedCluster) ∧
      ∃ (halt : Halt PassError) (outcome : SetOutcome) (first second : Ledger)
        (changes : Changes VolumeClaim) (done : List Request) (request : Request)
        (rest : List Request),
        claimPass.Runs (refusesDeletion · = true) () (.opened shiftedCluster) (.error halt) ()
          first ∧ halt.isTransient = true ∧
        set.scalingCalls .volumeClaim changes = done ++ request :: rest ∧
        set.Suspended (refusesDeletion · = true) .volumeClaim changes shiftedCluster done request
          first ∧
        claimPass.Runs (fun _ => False) () (.opened first.registry) (.ok outcome) () second ∧
        second.calls.map (·.request) = set.listing .volumeClaim :: request :: rest := by
  intro node set
  have counts : (set.differences .volumeClaim node.desiredClaims shiftedCluster).toOption.map
      (fun changes => (changes.creates.length, changes.deletes.length)) = some (1, 1) := by
    decide +kernel
  have fits : node.spec.replicas ≤ Bounds.int32.high := by decide
  have sound : ¬ Flawed Kind.volumeClaim.metadata (set.listed .volumeClaim shiftedCluster) := by
    cases found : set.differences .volumeClaim node.desiredClaims shiftedCluster with
    | ok changes => exact (exists_diff_iff.1 ⟨changes, found⟩).1
    | error fault =>
        rw [found] at counts
        cases counts
  obtain ⟨changes, found, _, _, resumes⟩ :=
    interrupted_scaling_resumes node "default" .volumeClaim shiftedCluster fits sound
  rw [show set.differences .volumeClaim node.desiredClaims shiftedCluster = .ok changes from found]
    at counts
  obtain ⟨oneCreate, oneDelete⟩ := Prod.mk.inj (Option.some.inj counts)
  have scaling : changes.isScaling = true := by
    simp [Changes.isScaling, List.ne_nil_of_length_pos (by omega : 0 < changes.creates.length)]
  have failed : (claimRun refusesDeletion shiftedCluster).1.1.toOption.isSome = false := by
    decide +kernel
  have made : (claimRun refusesDeletion shiftedCluster).2.calls.length = 3 := by decide +kernel
  have succeeded : (claimRun (fun _ => false)
      (claimRun refusesDeletion shiftedCluster).2.registry).1.1.toOption.isSome = true := by
    decide +kernel
  obtain ⟨halt, halts⟩ := exists_halt_of_claimRun
    (fun request (refused : refusesDeletion request = true) => refused) failed
  generalize (claimRun refusesDeletion shiftedCluster).2 = first at halts made succeeded
  obtain ⟨outcome, ends⟩ :=
    exists_outcome_of_claimRun (fun request refused => nomatch refused) succeeded
  obtain ⟨transient, unlisted | ⟨done, request, rest, calls, suspended, follows⟩⟩ :=
    resumes scaling _ _ halt first halts
  · -- The listing is answered.
    cases unlisted with
    | unmade nameless => cases nameless
    | unsuccessful served fails => exact absurd made (by simp)
  -- No deletion comes before the one that is refused.
  have undeleted : (changes.begun done.length).deletes = [] := by
    have two := congrArg List.length calls
    simp only [OrdinalSet.scalingCalls, List.length_append, List.length_map, List.length_cons,
      oneCreate, oneDelete] at two
    rw [Changes.begun, show done.length - changes.creates.length = 0 by omega, List.take_zero]
  have cleared : set.Cleared .volumeClaim (changes.begun done.length).deletes first.registry
      first.registry := by
    intro name
    simp only [undeleted, List.map_nil, List.not_mem_nil, if_false]
  exact ⟨fits, sound, halt, outcome, first, _, changes, done, request, rest, halts, transient,
    calls, suspended, ends, (follows _ cleared).1 _ _ outcome _ ends⟩

end NodeFleet.Fleet
