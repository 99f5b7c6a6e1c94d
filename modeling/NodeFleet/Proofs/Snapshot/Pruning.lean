import Mathlib
import NodeFleet.Proofs.Failure
import NodeFleet.Proofs.Snapshot.Expiry
import NodeFleet.Proofs.Store.Listings

/-!
# Pruning

Each snapshot that expires gets one attempt to delete it, from the most recent on, whatever
became of the attempts before.  A pruning gives the names of all of them, or an error that tells
of each one that was not deleted.  What was deleted is gone or about to go, and nothing else
changes.
-/

namespace NodeFleet.Snapshot

open Resource Store

/-- The names of the snapshots that expire, from the most recent on. -/
def dueNames (registry : Registry) (space selector : String) (limit : Nat) : List String :=
  (expired limit (registry.selected .volumeSnapshot space selector)).map (·.metadata.shownName)

/-- Why a snapshot was not deleted: it has no name, or its deletion was refused. -/
inductive Refused (space : String) (calls : List Call) : String → StoreError → Prop
  | nameless : Refused space calls "" (.call .unnamed)
  | refused {name : String} {failure : ApiFailure} {before after : Registry}
      (made : ⟨.delete .volumeSnapshot space name, some (.error failure), before, after⟩ ∈ calls)
      (honest : failure.claimsMissing = false) : Refused space calls name (.call failure)

/-- Deletions that were tried one after another: the names, the calls, the names of the snapshots
that were deleted, and those of the others with the errors that kept them. -/
inductive Tried (space : String) :
    List String → List Call → List String → List (String × StoreError) → Prop
  | nil : Tried space [] [] [] []
  | deleted {name : String} {names deleted : List String} {calls : List Call}
      {faults : List (String × StoreError)} {answer : Answer (.delete .volumeSnapshot space name)}
      {before after : Registry} (named : name ≠ "")
      (done : ¬ Call.Fails ⟨.delete .volumeSnapshot space name, answer, before, after⟩)
      (rest : Tried space names calls deleted faults) :
      Tried space (name :: names)
        (⟨.delete .volumeSnapshot space name, answer, before, after⟩ :: calls) (name :: deleted)
        faults
  | refused {name : String} {names deleted : List String} {calls : List Call}
      {faults : List (String × StoreError)} {failure : ApiFailure} {before after : Registry}
      (named : name ≠ "") (honest : failure.claimsMissing = false)
      (rest : Tried space names calls deleted faults) :
      Tried space (name :: names)
        (⟨.delete .volumeSnapshot space name, some (.error failure), before, after⟩ :: calls)
        deleted ((name, .call failure) :: faults)
  | nameless {names deleted : List String} {calls : List Call}
      {faults : List (String × StoreError)} (rest : Tried space names calls deleted faults) :
      Tried space ("" :: names) calls deleted (("", .call .unnamed) :: faults)

theorem Refused.mono {space name : String} {calls more : List Call} {error : StoreError}
    (refused : Refused space calls name error) (among : calls ⊆ more) :
    Refused space more name error := by
  cases refused with
  | nameless => exact .nameless
  | refused made honest => exact .refused (among made) honest

namespace Tried

variable {space : String} {names deleted : List String} {calls : List Call}
  {faults : List (String × StoreError)}

/-- Every deletion is tried once, but for those of snapshots without a name. -/
theorem requests_eq (tried : Tried space names calls deleted faults) :
    calls.map (·.request) = (names.filter (· ≠ "")).map (.delete .volumeSnapshot space) := by
  induction tried with
  | nil => rfl
  | deleted named done rest inductionHypothesis =>
      rw [List.map_cons, inductionHypothesis, List.filter_cons_of_pos (by simpa), List.map_cons]
  | refused named honest rest inductionHypothesis =>
      rw [List.map_cons, inductionHypothesis, List.filter_cons_of_pos (by simpa), List.map_cons]
  | nameless rest inductionHypothesis =>
      rw [inductionHypothesis, List.filter_cons_of_neg (by simp)]

theorem deleted_eq (tried : Tried space names calls deleted []) : deleted = names := by
  generalize none : ([] : List (String × StoreError)) = faults at tried
  induction tried with
  | nil => rfl
  | deleted named done rest inductionHypothesis => rw [inductionHypothesis none]
  | refused => cases none
  | nameless => cases none

theorem faults_sublist (tried : Tried space names calls deleted faults) :
    (faults.map Prod.fst).Sublist names := by
  induction tried with
  | nil => exact .slnil
  | deleted named done rest inductionHypothesis => exact inductionHypothesis.cons _
  | refused named honest rest inductionHypothesis => exact inductionHypothesis.cons_cons _
  | nameless rest inductionHypothesis => exact inductionHypothesis.cons_cons _

/-- A call was made for one of the names. -/
theorem mem_names {call : Call} {name : String} (tried : Tried space names calls deleted faults)
    (member : call ∈ calls) (request : call.request = .delete .volumeSnapshot space name) :
    name ∈ names := by
  have made := List.mem_map_of_mem (f := (·.request)) member
  rw [tried.requests_eq, request] at made
  obtain ⟨same, among, equal⟩ := List.mem_map.1 made
  obtain rfl : same = name := by simpa using equal
  exact (List.mem_filter.1 among).1

theorem refused_of_mem {name : String} {error : StoreError}
    (tried : Tried space names calls deleted faults) (member : (name, error) ∈ faults) :
    name ∈ names ∧ Refused space calls name error := by
  induction tried with
  | nil => cases member
  | deleted named done rest inductionHypothesis =>
      obtain ⟨among, refused⟩ := inductionHypothesis member
      exact ⟨List.mem_cons_of_mem _ among, refused.mono (List.subset_cons_self _ _)⟩
  | refused named honest rest inductionHypothesis =>
      rcases List.mem_cons.1 member with same | later
      · cases same
        exact ⟨List.mem_cons_self, .refused List.mem_cons_self honest⟩
      · obtain ⟨among, refused⟩ := inductionHypothesis later
        exact ⟨List.mem_cons_of_mem _ among, refused.mono (List.subset_cons_self _ _)⟩
  | nameless rest inductionHypothesis =>
      rcases List.mem_cons.1 member with same | later
      · cases same
        exact ⟨List.mem_cons_self, .nameless⟩
      · obtain ⟨among, refused⟩ := inductionHypothesis later
        exact ⟨List.mem_cons_of_mem _ among, refused⟩

theorem mem_of_refused {name : String} {error : StoreError}
    (tried : Tried space names calls deleted faults) (among : name ∈ names)
    (refused : Refused space calls name error) : (name, error) ∈ faults := by
  induction tried with
  | nil => cases among
  | deleted named done rest inductionHypothesis =>
      cases refused with
      | nameless =>
          exact inductionHypothesis ((List.mem_cons.1 among).resolve_left named.symm) .nameless
      | refused made honest =>
          rcases List.mem_cons.1 made with same | later
          · cases same
            exact absurd honest done
          · exact inductionHypothesis (rest.mem_names later rfl) (.refused later honest)
  | refused named honest rest inductionHypothesis =>
      cases refused with
      | nameless =>
          exact List.mem_cons_of_mem _
            (inductionHypothesis ((List.mem_cons.1 among).resolve_left named.symm) .nameless)
      | refused made honest =>
          rcases List.mem_cons.1 made with same | later
          · cases same
            exact List.mem_cons_self
          · exact List.mem_cons_of_mem _
              (inductionHypothesis (rest.mem_names later rfl) (.refused later honest))
  | nameless rest inductionHypothesis =>
      cases refused with
      | nameless => exact List.mem_cons_self
      | refused made honest =>
          exact List.mem_cons_of_mem _
            (inductionHypothesis (rest.mem_names made rfl) (.refused made honest))

/-- The faults are those of the snapshots that were refused. -/
theorem mem_faults_iff {name : String} {error : StoreError}
    (tried : Tried space names calls deleted faults) :
    (name, error) ∈ faults ↔ name ∈ names ∧ Refused space calls name error :=
  ⟨tried.refused_of_mem, fun ⟨among, refusal⟩ => tried.mem_of_refused among refusal⟩

end Tried

/-! ## Runs -/

section Runs

variable {mayFail : Request → Prop} {σ : Type} {state state' : σ} {space selector : String}
  {limit : Nat} {registry : Registry} {ledger final : Ledger}

/-- The error that tells of a snapshot that was not deleted. -/
def deletionError (fault : String × StoreError) : PassError :=
  .transient (.deletion fault.1 fault.2)

/-- Some call was not answered. -/
def Silent (ledger : Ledger) : Prop := ∃ call ∈ ledger.calls, call.answer = none

/-- A ledger goes on with deletions that were tried, and a report tells how they went. -/
def Recounts (space : String) (names : List String) (ledger : Ledger)
    (report : List String × List PassError) (final : Ledger) : Prop :=
  ∃ calls faults, final.calls = ledger.calls ++ calls ∧
    Tried space names calls report.1 faults ∧ report.2 = faults.map deletionError

namespace Recounts

variable {name : String} {names : List String} {report : List String × List PassError}
  {after : Registry}

theorem deleted {answer : Answer (.delete .volumeSnapshot space name)} (named : name ≠ "")
    (done : ¬ Call.Fails ⟨.delete .volumeSnapshot space name, answer, ledger.registry, after⟩)
    (recounts : Recounts space names
      (ledger.add (.delete .volumeSnapshot space name) answer after) report final) :
    Recounts space (name :: names) ledger (name :: report.1, report.2) final := by
  obtain ⟨calls, faults, made, tried, told⟩ := recounts
  exact ⟨_ :: calls, faults, by rw [made, Ledger.calls_add, List.append_assoc]; rfl,
    .deleted named done tried, told⟩

theorem refused {failure : ApiFailure} (named : name ≠ "")
    (honest : failure.claimsMissing = false)
    (recounts : Recounts space names
      (ledger.add (.delete .volumeSnapshot space name) (some (.error failure)) after) report
        final) :
    Recounts space (name :: names) ledger
      (report.1, deletionError (name, .call failure) :: report.2) final := by
  obtain ⟨calls, faults, made, tried, told⟩ := recounts
  exact ⟨_ :: calls, _ :: faults, by rw [made, Ledger.calls_add, List.append_assoc]; rfl,
    .refused named honest tried, by rw [told, List.map_cons]⟩

theorem nameless (recounts : Recounts space names ledger report final) :
    Recounts space ("" :: names) ledger
      (report.1, deletionError ("", .call .unnamed) :: report.2) final := by
  obtain ⟨calls, faults, made, tried, told⟩ := recounts
  exact ⟨calls, _ :: faults, made, .nameless tried, by rw [told, List.map_cons]⟩

end Recounts

/-- Deletions go on after one that fails; only a call without an answer ends them. -/
theorem ensures_deleteEach_recounts (names : List String) :
    (deleteEach space names : Pass σ _).Ensures mayFail
      (fun report _ final => Recounts space names ledger report final)
      (fun _ _ final => Silent final) state ledger := by
  induction names generalizing ledger with
  | nil => exact Pass.ensures_pure _ ⟨[], [], (List.append_nil _).symm, .nil, rfl⟩
  | cons name names inductionHypothesis =>
      -- The others are tried, whatever the first deletion adds to their report.
      have goesOn : ∀ (add : List String × List PassError → List String × List PassError)
          (middle : Ledger), (∀ report final, Recounts space names middle report final →
            Recounts space (name :: names) ledger (add report) final) →
          (deleteEach space names >>= fun report => pure (add report) : Pass σ _).Ensures mayFail
            (fun report _ final => Recounts space (name :: names) ledger report final)
            (fun _ _ final => Silent final) state middle := by
        intro add middle extended
        apply Pass.ensures_bind
        exact inductionHypothesis.mono
          (fun report _ final recounts => Pass.ensures_pure _ (extended report final recounts))
          fun _ _ _ silent => silent
      apply Pass.ensures_bind
      apply Pass.ensures_perform
      by_cases unnamed : name = ""
      · subst unnamed
        exact Exchange.ensures_return _ (goesOn (fun report => (report.1, _ :: report.2)) ledger
          fun report final => .nameless)
      apply Exchange.ensures_delete
      · intro object after _ there gone
        exact goesOn (fun report => (name :: report.1, report.2)) _
          fun report final => .deleted unnamed (by simp [Call.Fails])
      · intro _ absent
        exact goesOn (fun report => (name :: report.1, report.2)) _
          fun report final => .deleted unnamed (by simp [Call.Fails, claimsMissing_notFound])
      · intro error final nothing
        cases nothing with
        | unmade nameless =>
            obtain rfl : name = "" := by simpa [Request.target?] using nameless
            exact absurd rfl unnamed
        | refused refusal honest =>
            exact goesOn (fun report => (report.1, _ :: report.2)) _
              fun report final => .refused unnamed honest
        | unanswered silence => exact ⟨_, List.mem_append_right _ List.mem_cons_self, rfl⟩

/-- The first call of a ledger succeeded, and every call was answered. -/
structure Attended (ledger : Ledger) : Prop where
  listed : ∃ first rest, ledger.calls = first :: rest ∧ first.Succeeds
  answered : ¬ Silent ledger

/-- The names of the deleted snapshots, or an error that tells of the others. -/
def outcome (deleted : List String) (faults : List (String × StoreError)) :
    Except (Halt PassError) (List String) :=
  match PassError.gather (faults.map deletionError) with
  | none => .ok deleted
  | some error => .error (.failed error)

/-- The snapshots were listed and the deletion of those that expire was tried, and a result tells
how it went. -/
def Concludes (space selector : String) (limit : Nat) (registry : Registry)
    (result : Except (Halt PassError) (List String)) (final : Ledger) : Prop :=
  ∃ calls deleted faults,
    final.calls = ⟨.list .volumeSnapshot space selector,
      some (.ok (registry.selected .volumeSnapshot space selector)), registry, registry⟩ :: calls ∧
    Tried space (dueNames registry space selector limit) calls deleted faults ∧
    result = outcome deleted faults

theorem ensures_prune_concludes :
    (prune space selector limit : Pass σ _).Ensures mayFail
      (fun names _ final => Attended final → Concludes space selector limit registry (.ok names)
        final)
      (fun halt _ final => Attended final → Concludes space selector limit registry (.error halt)
        final) state (.opened registry) := by
  apply Pass.ensures_bind
  apply Pass.ensures_attempt
  apply Exchange.ensures_list
  · apply Pass.ensures_bind
    refine (ensures_deleteEach_recounts _).mono ?_ fun _ _ _ silent attended =>
      absurd silent attended.answered
    rintro ⟨deleted, errors⟩ _ final ⟨calls, faults, made, tried, told⟩
    have told : errors = faults.map deletionError := told
    cases gathered : PassError.gather errors with
    | none =>
        simp only [gathered]
        refine Pass.ensures_pure _ fun _ => ⟨calls, deleted, faults, made, tried, ?_⟩
        rw [outcome, ← told, gathered]
    | some error =>
        simp only [gathered]
        refine Pass.ensures_throw _ fun _ => ⟨calls, deleted, faults, made, tried, ?_⟩
        rw [outcome, ← told, gathered]
  · intro error final nothing attended
    obtain ⟨first, rest, made, succeeds⟩ := attended.listed
    cases nothing with
    | unmade nameless => cases nameless
    | refused served honest =>
        obtain ⟨rfl, _⟩ := List.cons.inj made
        simp [Call.Succeeds] at succeeds
    | unanswered served =>
        obtain ⟨rfl, _⟩ := List.cons.inj made
        simp [Call.Succeeds] at succeeds

/-! ## What a pruning changes -/

theorem nodup_dueNames (registry : Registry) (space selector : String) (limit : Nat) :
    (dueNames registry space selector limit).Nodup :=
  nodup_names_expired limit (registry.nodup_selected .volumeSnapshot space selector)

namespace Concludes

variable {result : Except (Halt PassError) (List String)} {kind : Kind} {space' name : String}

theorem requests_eq (concludes : Concludes space selector limit registry result final) :
    final.calls.map (·.request) = .list .volumeSnapshot space selector ::
      ((dueNames registry space selector limit).filter (· ≠ "")).map
        (.delete .volumeSnapshot space) := by
  obtain ⟨calls, deleted, faults, made, tried, _⟩ := concludes
  rw [made, List.map_cons, tried.requests_eq]

/-- Every call but the listing is the deletion of a snapshot that expires. -/
theorem aimed {call : Call} (concludes : Concludes space selector limit registry result final)
    (member : call ∈ final.calls) (aims : call.request.place? = some (kind, space', name)) :
    call.request = .delete .volumeSnapshot space name ∧ kind = .volumeSnapshot ∧ space' = space ∧
      name ∈ dueNames registry space selector limit ∧ name ≠ "" := by
  have made : call.request ∈ final.calls.map (·.request) := List.mem_map_of_mem member
  rw [concludes.requests_eq] at made
  rcases List.mem_cons.1 made with lists | deletes
  · rw [lists] at aims
    cases aims
  · obtain ⟨target, among, request⟩ := List.mem_map.1 deletes
    obtain ⟨isDue, named⟩ := List.mem_filter.1 among
    rw [← request] at aims
    obtain ⟨rfl, rfl, rfl⟩ : .volumeSnapshot = kind ∧ space = space' ∧ target = name := by
      simpa [Request.place?] using aims
    exact ⟨request.symm, rfl, rfl, isDue, of_decide_eq_true named⟩

theorem apart (concludes : Concludes space selector limit registry result final) :
    Apart (final.calls.map (·.request)) := by
  have places : ∀ names : List String,
      (names.map (Request.delete .volumeSnapshot space)).filterMap Request.place? =
        names.map fun name => (Kind.volumeSnapshot, space, name) := by
    intro names
    rw [List.filterMap_map]
    show names.filterMap (some ∘ fun name => (Kind.volumeSnapshot, space, name)) = _
    rw [List.filterMap_eq_map]
  rw [Apart, concludes.requests_eq, List.filterMap_cons_none rfl, places]
  refine List.Nodup.map (fun left right same => by simpa using same) ?_
  exact (nodup_dueNames registry space selector limit).filter _

variable (concludes : Concludes space selector limit registry result final)
  (chain : Chain mayFail registry final.calls final.registry)

include concludes chain

theorem lingers (name : String) :
    Lingers (registry.find? .volumeSnapshot space name)
      (final.registry.find? .volumeSnapshot space name) := by
  by_cases tried : ∃ call ∈ final.calls,
      call.request.place? = some (.volumeSnapshot, space, name)
  · obtain ⟨⟨request, answer, before, after⟩, member, aims⟩ := tried
    obtain ⟨stood, stands, served⟩ := chain.effect concludes.apart member aims
    obtain ⟨rfl, _⟩ := concludes.aimed member aims
    rw [← stood, stands]
    exact lingers_of_delete served
  · rw [chain.find?_eq fun call member aims => tried ⟨call, member, aims⟩]
    exact .stays _

/-- A snapshot whose deletion was not refused is gone or being deleted. -/
theorem leaving (attended : Attended final)
    (isDue : name ∈ dueNames registry space selector limit)
    (unrefused : ∀ error, ¬ Refused space final.calls name error) :
    final.registry.Leaving .volumeSnapshot space name := by
  have named : name ≠ "" := by
    rintro rfl
    exact unrefused _ .nameless
  have made : Request.delete .volumeSnapshot space name ∈ final.calls.map (·.request) := by
    rw [concludes.requests_eq]
    exact List.mem_cons_of_mem _ (List.mem_map_of_mem (List.mem_filter.2 ⟨isDue, by simpa⟩))
  obtain ⟨⟨request, answer, before, after⟩, member, rfl⟩ := List.mem_map.1 made
  obtain ⟨_, stands, served⟩ := chain.effect concludes.apart member rfl
  refine Registry.Leaving.of_find?_eq ?_ stands
  cases answer with
  | none => exact absurd ⟨_, member, rfl⟩ attended.answered
  | some answer =>
      cases answer with
      | ok reply => exact leaving_of_delete_ok served ⟨reply, rfl⟩
      | error failure =>
          cases served with
          | nothingToDelete absent =>
              exact fun object there => absurd (there.symm.trans absent) (by simp)
          | failed may honest => exact absurd (.refused member honest) (unrefused _)

/-- Everything but the snapshots that were deleted is as it was. -/
theorem find?_eq (spared : kind = .volumeSnapshot → space' = space →
      name ∈ dueNames registry space selector limit →
        ∃ error, Refused space final.calls name error) :
    final.registry.find? kind space' name = registry.find? kind space' name := by
  by_cases tried : ∃ call ∈ final.calls, call.request.place? = some (kind, space', name)
  · obtain ⟨call, member, aims⟩ := tried
    obtain ⟨_, rfl, rfl, isDue, named⟩ := concludes.aimed member aims
    obtain ⟨error, refusal⟩ := spared rfl rfl isDue
    cases refusal with
    | nameless => exact absurd rfl named
    | refused made honest =>
        obtain ⟨stood, stands, served⟩ := chain.effect concludes.apart made rfl
        rw [← stood, stands]
        cases served <;> rfl
  · exact chain.find?_eq fun call member aims => tried ⟨call, member, aims⟩

end Concludes

/-! ## Pruning again -/

/-- Since a pruning some of the snapshots that were to be deleted may have gone, and no other. -/
def Emptied (space : String) (names : List String) (before after : Registry) : Prop :=
  ∀ name, after.find? .volumeSnapshot space name = before.find? .volumeSnapshot space name ∨
    name ∈ names ∧ after.find? .volumeSnapshot space name = none

/-- What is due after a pruning is what was due then and is there still, in the same order. -/
theorem Concludes.dueNames_eq {result : Except (Halt PassError) (List String)} {later : Registry}
    (concludes : Concludes space selector limit registry result final)
    (chain : Chain mayFail registry final.calls final.registry)
    (emptied : Emptied space (dueNames registry space selector limit) final.registry later) :
    dueNames later space selector limit =
      (dueNames registry space selector limit).filter fun name =>
        (later.find? .volumeSnapshot space name).isSome := by
  have lingers : ∀ name, Lingers (registry.find? .volumeSnapshot space name)
      (later.find? .volumeSnapshot space name) := by
    intro name
    rcases emptied name with same | ⟨_, gone⟩
    · rw [same]
      exact concludes.lingers chain name
    · rw [gone]
      exact .gone _
  have stood : ∀ snapshot ∈ registry.selected .volumeSnapshot space selector,
      registry.find? .volumeSnapshot space snapshot.metadata.shownName = some snapshot :=
    fun snapshot listed => (registry.mem_selected_iff.1 listed).1
  have sameTime : ∀ snapshot ∈ registry.selected .volumeSnapshot space selector, ∀ changed,
      later.find? .volumeSnapshot space snapshot.metadata.shownName = some changed →
        changed.createdAt? = snapshot.createdAt? := by
    intro snapshot listed changed found
    have course := lingers snapshot.metadata.shownName
    rw [found, stood snapshot listed] at course
    cases course <;> rfl
  have stands : ∀ snapshot ∈ kept limit (registry.selected .volumeSnapshot space selector),
      (later.find? .volumeSnapshot space snapshot.metadata.shownName).isSome = true := by
    intro snapshot isKept
    have notDue : snapshot.metadata.shownName ∉ dueNames registry space selector limit := by
      have nodup := nodup_names_kept_append_expired limit
        (registry.nodup_selected .volumeSnapshot space selector)
      rw [List.map_append, List.nodup_append] at nodup
      exact fun isDue => nodup.2.2 _ (List.mem_map_of_mem isKept) _ isDue rfl
    rcases emptied snapshot.metadata.shownName with same | ⟨isDue, _⟩
    · rw [same, concludes.find?_eq chain fun _ _ isDue => absurd isDue notDue,
        stood snapshot (mem_of_mem_kept isKept).1]
      rfl
    · exact absurd isDue notDue
  rw [dueNames, Registry.selected_of_lingers lingers]
  exact (congrArg _ (expired_filterMap sameTime stands)).trans
    (later.names_remaining .volumeSnapshot space _)

end Runs

/-! ## How a pruning ends -/

/-- A message tells of each of the named snapshots that was refused, in their order, and why. -/
def Tells (space : String) (names : List String) (calls : List Call) (message : String) : Prop :=
  ∃ faults : List (String × StoreError),
    message = "; ".intercalate (faults.map fun fault =>
      s!"delete volumesnapshot {fault.1}: {fault.2.message}") ∧
    (faults.map Prod.fst).Sublist names ∧
    ∀ fault, fault ∈ faults ↔ fault.1 ∈ names ∧ Refused space calls fault.1 fault.2

/-- How a pruning ends, where a snapshot that was deleted is away in a given sense. -/
structure Prunes (away : Registry → String → Prop) (space selector : String) (limit : Nat)
    (registry : Registry) (result : Except (Halt PassError) (List String)) (final : Ledger) :
    Prop where
  /-- The deletion of every snapshot that expires is tried, from the most recent on; that of one
  without a name is refused before the call. -/
  requests_eq : final.calls.map (·.request) = .list .volumeSnapshot space selector ::
    ((dueNames registry space selector limit).filter (· ≠ "")).map (.delete .volumeSnapshot space)
  once : (dueNames registry space selector limit).Nodup
  succeeds : (∀ name ∈ dueNames registry space selector limit, ∀ error,
      ¬ Refused space final.calls name error) →
    result = .ok (dueNames registry space selector limit)
  fails : ∀ name ∈ dueNames registry space selector limit, ∀ error,
    Refused space final.calls name error → ∃ failure, result = .error (.failed failure) ∧
      failure.isTransient = true ∧
      Tells space (dueNames registry space selector limit) final.calls failure.message
  deleted : ∀ name ∈ dueNames registry space selector limit,
    (∀ error, ¬ Refused space final.calls name error) → away final.registry name
  spared : ∀ (kind : Kind) (space' name : String), (kind = .volumeSnapshot → space' = space →
      name ∈ dueNames registry space selector limit →
        ∃ error, Refused space final.calls name error) →
    final.registry.find? kind space' name = registry.find? kind space' name

/-- A deleted snapshot is gone when the pruning ends, and another pruning after one without
errors deletes nothing. -/
def PrunesForGood : Prop :=
  ∀ (mayFail : Request → Prop) (space selector : String) (limit : Nat) (registry : Registry)
    (result : Except (Halt PassError) (List String)) (final : Ledger),
    (prune space selector limit : Pass Unit _).Runs mayFail () (.opened registry) result () final →
    Attended final →
      Prunes (fun after name => after.find? .volumeSnapshot space name = none) space selector limit
        registry result final ∧
      ∀ names, result = .ok names → ∀ again last,
        (prune space selector limit : Pass Unit _).Runs mayFail () (.opened final.registry) again ()
          last → Attended last →
        last.calls.map (·.request) = [.list .volumeSnapshot space selector]

section Lingering

/-- A snapshot that others hold until they are done with it. -/
def heldSnapshot : VolumeSnapshot :=
  { metadata := { ObjectMeta.empty with
      name := some "old"
      namespaceName := some "default"
      finalizers := some ["example.com/backup"] }
    spec := ⟨⟨some "pvc-cosmoshub-0", none⟩, none⟩
    status := some { SnapshotStatus.empty with creationTime := some ⟨0⟩ } }

def heldCluster : Registry :=
  Registry.empty.put .volumeSnapshot "default" "old" heldSnapshot

theorem selected_heldCluster :
    heldCluster.selected .volumeSnapshot "default" "" = [heldSnapshot] := by
  rfl

theorem expired_heldSnapshot : expired 0 [heldSnapshot] = [heldSnapshot] := by
  have created : heldSnapshot.createdAt? = some (.ofSeconds 0) := by decide
  simp [expired, newestFirst, dated, created]

/-- The cluster once the snapshot is to be deleted. -/
def deletingCluster : Registry :=
  heldCluster.put .volumeSnapshot "default" "old" (Kind.volumeSnapshot.doomed ⟨0⟩ heldSnapshot)

/-- The ledger of a pruning that keeps none of the snapshots. -/
def heldLedger : Ledger :=
  ((Ledger.opened heldCluster).add (.list .volumeSnapshot "default" "")
    (some (.ok [heldSnapshot])) heldCluster).add (.delete .volumeSnapshot "default" "old")
    (some (.ok ())) deletingCluster

theorem runs_heldLedger : (prune "default" "" 0 : Pass Unit _).Runs (fun _ => False) ()
    (.opened heldCluster) (.ok ["old"]) () heldLedger := by
  have there : heldCluster.find? .volumeSnapshot "default" "old" = some heldSnapshot :=
    (Registry.sets_put _ ⟨rfl, rfl⟩).here
  have lists : Serves (fun _ => False) (.list .volumeSnapshot "default" "") heldCluster
      (some (.ok [heldSnapshot])) heldCluster :=
    selected_heldCluster ▸ .listed .volumeSnapshot "default" "" heldCluster
  have deletes : Serves (fun _ => False) (.delete .volumeSnapshot "default" "old") heldCluster
      (some (.ok ())) deletingCluster := .doomed there (Registry.sets_put _ ⟨rfl, rfl⟩)
  refine Pass.Runs.bind (.call lists (.done _ _)) ?_
  simp only [expired_heldSnapshot]
  exact .call deletes (.done _ _)

theorem attended_heldLedger : Attended heldLedger where
  listed := ⟨_, _, rfl, _, rfl⟩
  answered := by
    rintro ⟨call, member, silent⟩
    rcases List.mem_cons.1 member with rfl | later
    · cases silent
    · obtain rfl := List.mem_singleton.1 later
      cases silent

theorem dueNames_heldCluster : dueNames heldCluster "default" "" 0 = ["old"] := by
  rw [dueNames, selected_heldCluster, expired_heldSnapshot]
  rfl

theorem unrefused_heldLedger (name : String) (named : name ≠ "") (error : StoreError) :
    ¬ Refused "default" heldLedger.calls name error := by
  intro refusal
  cases refusal with
  | nameless => exact named rfl
  | refused made honest =>
      rcases List.mem_cons.1 made with same | later
      · cases same
      · cases List.mem_singleton.1 later

/-- A snapshot with a finalizer is still there when the pruning ends that deleted it. -/
theorem not_prunesForGood : ¬ PrunesForGood := by
  intro forGood
  obtain ⟨prunes, _⟩ := forGood _ "default" "" 0 heldCluster _ _ runs_heldLedger attended_heldLedger
  have isDue : "old" ∈ dueNames heldCluster "default" "" 0 := by
    rw [dueNames_heldCluster]
    exact List.mem_cons_self
  have gone : deletingCluster.find? .volumeSnapshot "default" "old" = none :=
    prunes.deleted "old" isDue (unrefused_heldLedger "old" (by decide))
  have there : deletingCluster.find? .volumeSnapshot "default" "old" =
      some (Kind.volumeSnapshot.doomed ⟨0⟩ heldSnapshot) := (Registry.sets_put _ ⟨rfl, rfl⟩).here
  rw [there] at gone
  cases gone

end Lingering

section Ends

variable {mayFail : Request → Prop} {σ : Type} {state state' : σ} {space selector : String}
  {limit : Nat} {registry : Registry} {result : Except (Halt PassError) (List String)}
  {final : Ledger}

theorem concludes_of_runs (runs : (prune space selector limit : Pass σ _).Runs mayFail state
      (.opened registry) result state' final) (attended : Attended final) :
    Concludes space selector limit registry result final := by
  have settled := ensures_prune_concludes.settles runs
  cases result with
  | ok names => exact settled attended
  | error halt => exact settled attended

/-- The listing refuses no deletion. -/
theorem refused_cons_iff {call : Call} {calls : List Call} {name : String} {error : StoreError}
    (lists : call.request = .list .volumeSnapshot space selector) :
    Refused space (call :: calls) name error ↔ Refused space calls name error := by
  refine ⟨fun refusal => ?_, fun refusal => refusal.mono (List.subset_cons_self _ _)⟩
  cases refusal with
  | nameless => exact .nameless
  | refused made honest =>
      rcases List.mem_cons.1 made with rfl | later
      · cases lists
      · exact .refused later honest

namespace Concludes

/-- The error of a pruning may go away, and tells of the snapshots that were refused. -/
theorem fails (concludes : Concludes space selector limit registry result final)
    {name : String} (isDue : name ∈ dueNames registry space selector limit) {error : StoreError}
    (refusal : Refused space final.calls name error) :
    ∃ failure, result = .error (.failed failure) ∧ failure.isTransient = true ∧
      Tells space (dueNames registry space selector limit) final.calls failure.message := by
  obtain ⟨calls, deleted, faults, made, tried, rfl⟩ := concludes
  have sameRefusals : ∀ fault : String × StoreError,
      Refused space final.calls fault.1 fault.2 ↔ Refused space calls fault.1 fault.2 := by
    intro fault
    rw [made]
    exact refused_cons_iff rfl
  have member := tried.mem_of_refused isDue ((sameRefusals (name, error)).1 refusal)
  have some : faults.map deletionError ≠ [] :=
    List.ne_nil_of_mem (List.mem_map_of_mem member)
  obtain ⟨failure, gathered⟩ := PassError.exists_gather some
  refine ⟨failure, by rw [outcome, gathered], ?_, faults, ?_, tried.faults_sublist, fun fault => ?_⟩
  · rw [PassError.isTransient_gather gathered, List.all_eq_true]
    intro each among
    obtain ⟨fault, _, rfl⟩ := List.mem_map.1 among
    rfl
  · rw [PassError.message_gather gathered, List.map_map]
    rfl
  · rw [sameRefusals]
    exact tried.mem_faults_iff

theorem succeeds (concludes : Concludes space selector limit registry result final)
    (unrefused : ∀ name ∈ dueNames registry space selector limit, ∀ error,
      ¬ Refused space final.calls name error) :
    result = .ok (dueNames registry space selector limit) := by
  obtain ⟨calls, deleted, faults, made, tried, rfl⟩ := concludes
  have none : faults = [] := by
    refine List.eq_nil_iff_forall_not_mem.2 fun fault member => ?_
    obtain ⟨isDue, refusal⟩ := tried.refused_of_mem member
    refine unrefused fault.1 isDue fault.2 ?_
    rw [made]
    exact refusal.mono (List.subset_cons_self _ _)
  subst none
  rw [tried.deleted_eq]
  rfl

theorem prunes (concludes : Concludes space selector limit registry result final)
    (chain : Chain mayFail registry final.calls final.registry) (attended : Attended final) :
    Prunes (fun after name => after.Leaving .volumeSnapshot space name) space selector limit
      registry result final where
  requests_eq := concludes.requests_eq
  once := nodup_dueNames registry space selector limit
  succeeds := concludes.succeeds
  fails := fun _ isDue _ refusal => concludes.fails isDue refusal
  deleted := fun _ isDue unrefused => concludes.leaving chain attended isDue unrefused
  spared := fun _ _ _ spared => concludes.find?_eq chain spared

end Concludes

/-- A pruning that lists the snapshots tries to delete each one that expires, and the ones that
expire are those with a creation time beyond the most recent ones.  A deleted snapshot is gone or
being deleted, and pruning again tries just those that are there still. -/
theorem prune_deletes_expired (runs : (prune space selector limit : Pass σ _).Runs mayFail state
      (.opened registry) result state' final) (attended : Attended final) :
    let listed := registry.selected .volumeSnapshot space selector
    (Ranked age (timed listed) (kept limit listed ++ expired limit listed) ∧
      (kept limit listed).length = min limit (timed listed).length ∧
      ∀ recent ∈ kept limit listed, ∀ old ∈ expired limit listed, ∃ recentTime oldTime,
        recent.createdAt? = some recentTime ∧ old.createdAt? = some oldTime ∧
          oldTime ≤ recentTime) ∧
    Prunes (fun after name => after.Leaving .volumeSnapshot space name) space selector limit
      registry result final ∧
    ∀ later, Emptied space (dueNames registry space selector limit) final.registry later →
      ∀ (again : Except (Halt PassError) (List String)) (state₁ state₂ : σ) (last : Ledger),
        (prune space selector limit : Pass σ _).Runs mayFail state₁ (.opened later) again state₂
          last → Attended last →
        last.calls.map (·.request) = .list .volumeSnapshot space selector ::
          (((dueNames registry space selector limit).filter fun name =>
            (later.find? .volumeSnapshot space name).isSome).filter (· ≠ "")).map
              (.delete .volumeSnapshot space) := by
  have concludes := concludes_of_runs runs attended
  refine ⟨⟨ranked_kept_append_expired limit _, length_kept limit _, ?_⟩,
    concludes.prunes runs.chain attended, ?_⟩
  · intro recent isKept old expires
    obtain ⟨recentTime, isRecentTime⟩ := Option.isSome_iff_exists.1 (mem_of_mem_kept isKept).2
    obtain ⟨oldTime, isOldTime⟩ := Option.isSome_iff_exists.1 (mem_of_mem_expired expires).2
    refine ⟨recentTime, oldTime, isRecentTime, isOldTime, ?_⟩
    have older := age_le_of_mem_kept isKept expires
    rw [age, age, isRecentTime, isOldTime] at older
    exact Int.neg_le_neg_iff.1 older
  · intro later emptied again state₁ state₂ last runsAgain attendedAgain
    rw [(concludes_of_runs runsAgain attendedAgain).requests_eq,
      concludes.dueNames_eq runs.chain emptied]

end Ends

section Example

def takenAt (name : String) (seconds : Option Int) : VolumeSnapshot :=
  { metadata := { ObjectMeta.empty with name := some name, namespaceName := some "default" }
    spec := ⟨⟨some "pvc-cosmoshub-0", none⟩, none⟩
    status := some { SnapshotStatus.empty with creationTime := seconds.map (⟨·⟩) } }

/-- Snapshots of three hours, and one that has no creation time yet. -/
def hourlySnapshots : List VolumeSnapshot :=
  [takenAt "hourly-1" (some 0), takenAt "hourly-2" (some 3600), takenAt "hourly-3" (some 7200),
    takenAt "hourly-4" none]

def hourlyCluster : Registry := Registry.empty.fill .volumeSnapshot "default" hourlySnapshots

/-- A server that does not delete the second snapshot. -/
def keepsSecond : Request → Bool
  | .delete .volumeSnapshot _ name => name == "hourly-2"
  | _ => false

/-- The ledger of a pruning that keeps one snapshot. -/
def hourlyLedger : Ledger :=
  (((Ledger.opened hourlyCluster).add (.list .volumeSnapshot "default" "")
    (some (.ok hourlySnapshots)) hourlyCluster).add (.delete .volumeSnapshot "default" "hourly-2")
    (some (.error .unreadable)) hourlyCluster).add (.delete .volumeSnapshot "default" "hourly-1")
    (some (.ok ())) (respond (.delete .volumeSnapshot "default" "hourly-1") hourlyCluster).2

/-- What the pruning tells of the second snapshot. -/
def hourlyFailure : PassError := .transient (.deletion "hourly-2" (.call .unreadable))

theorem runs_hourlyLedger : (prune "default" "" 1 : Pass Unit _).Runs (keepsSecond · = true) ()
    (.opened hourlyCluster) (.error (.failed hourlyFailure)) () hourlyLedger := by
  have outcome : (((prune "default" "" 1 : Pass Unit _).run.run () : Program _).run
      (Program.serve keepsSecond) (.opened hourlyCluster)) =
        ((.error (.failed hourlyFailure), ()), hourlyLedger) := by
    cbv
  have runs := Program.runs_run
    (show ∀ request, keepsSecond request = true → keepsSecond request = true from fun _ => id)
    ((prune "default" "" 1 : Pass Unit _).run.run () : Program _) (.opened hourlyCluster)
  rwa [outcome] at runs

theorem attended_hourlyLedger : Attended hourlyLedger where
  listed := ⟨_, _, rfl, _, rfl⟩
  answered := by
    have answered : ∀ call ∈ hourlyLedger.calls, call.answer.isSome = true := by decide
    rintro ⟨call, member, silent⟩
    simpa [silent] using answered call member

theorem dueNames_hourlyCluster :
    dueNames hourlyCluster "default" "" 1 = ["hourly-2", "hourly-1"] := by
  cbv

/-- Only the deletion of the second snapshot is refused. -/
theorem refused_hourlyLedger_iff {name : String} (named : name ≠ "") (error : StoreError) :
    Refused "default" hourlyLedger.calls name error ↔
      name = "hourly-2" ∧ error = .call .unreadable := by
  constructor
  · intro refusal
    cases refusal with
    | nameless => exact absurd rfl named
    | refused made honest =>
        rcases List.mem_cons.1 made with same | later
        · cases same
        · rcases List.mem_cons.1 later with same | last
          · cases same
            exact ⟨rfl, rfl⟩
          · cases List.mem_singleton.1 last
  · rintro ⟨rfl, rfl⟩
    exact .refused (List.mem_cons_of_mem _ List.mem_cons_self) rfl

/-- Of four snapshots the pruning keeps the most recent one and the one without a creation time.
The second is not deleted, and the next pruning tries it once more. -/
theorem prune_hourlyCluster :
    (prune "default" "" 1 : Pass Unit _).Runs (keepsSecond · = true) () (.opened hourlyCluster)
        (.error (.failed hourlyFailure)) () hourlyLedger ∧
      Attended hourlyLedger ∧
      kept 1 (hourlyCluster.selected .volumeSnapshot "default" "") =
        [takenAt "hourly-3" (some 7200)] ∧
      hourlyLedger.calls.map (·.request) = [.list .volumeSnapshot "default" "",
        .delete .volumeSnapshot "default" "hourly-2",
        .delete .volumeSnapshot "default" "hourly-1"] ∧
      hourlyFailure.isTransient = true ∧
      Tells "default" ["hourly-2", "hourly-1"] hourlyLedger.calls hourlyFailure.message ∧
      hourlyLedger.registry.Leaving .volumeSnapshot "default" "hourly-1" ∧
      (∀ name ∈ ["hourly-2", "hourly-3", "hourly-4"],
        hourlyLedger.registry.find? .volumeSnapshot "default" name =
          hourlyCluster.find? .volumeSnapshot "default" name) ∧
      ∀ again last, (prune "default" "" 1 : Pass Unit _).Runs (keepsSecond · = true) ()
          (.opened hourlyLedger.registry) again () last → Attended last →
        last.calls.map (·.request) = [.list .volumeSnapshot "default" "",
          .delete .volumeSnapshot "default" "hourly-2"] := by
  have isKept : kept 1 (hourlyCluster.selected .volumeSnapshot "default" "") =
      [takenAt "hourly-3" (some 7200)] := by
    cbv
  obtain ⟨_, prunes, again⟩ := prune_deletes_expired runs_hourlyLedger attended_hourlyLedger
  have due := dueNames_hourlyCluster
  have requests := prunes.requests_eq
  have refusal := (refused_hourlyLedger_iff (by decide) _).2 ⟨rfl, rfl⟩
  obtain ⟨failure, failed, transient, tells⟩ := prunes.fails "hourly-2" (by simp [due]) _ refusal
  obtain rfl : hourlyFailure = failure := by
    cases failed
    rfl
  have deleted := prunes.deleted "hourly-1" (by simp [due]) fun error refused =>
    absurd ((refused_hourlyLedger_iff (by decide) error).1 refused).1 (by decide)
  rw [due] at requests tells
  refine ⟨runs_hourlyLedger, attended_hourlyLedger, isKept, requests, transient, tells, deleted,
    fun name among => prunes.spared _ _ name fun _ _ isDue => ⟨.call .unreadable, ?_⟩, ?_⟩
  · rw [due] at isDue
    obtain rfl : name = "hourly-2" := by
      simp only [List.mem_cons, List.not_mem_nil, or_false] at among isDue
      rcases isDue with rfl | rfl
      · rfl
      · simp at among
    exact refusal
  · intro result last runs attended
    have tried := again _ (fun _ => Or.inl rfl) result () () last runs attended
    rw [due] at tried
    exact tried

end Example

end NodeFleet.Snapshot
