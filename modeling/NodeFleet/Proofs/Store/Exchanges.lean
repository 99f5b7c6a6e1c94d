import NodeFleet.Proofs.Store.Runs
import NodeFleet.Store.Exchange

/-!
# What exchanges ensure

One rule for each operation on cluster objects.  A rule asks for what holds when
the operation is done, by what the server held, and for what holds when it comes
to nothing: then the server holds what it held before.
-/

namespace NodeFleet.Store

variable {mayFail : Request → Prop} {α β : Type}

/-- The name of the object that a call is for, if it is for a given one. -/
def Request.target? : Request → Option String
  | .get _ _ name => some name
  | .delete _ _ name => some name
  | .patch _ _ name _ => some name
  | .replaceStatus _ _ name _ => some name
  | _ => none

/-- How a ledger goes on when a call comes to nothing, and the error that callers
see, if they see one: the call is not made, for want of a name, or it is refused
for other reasons than that an object is missing, or it is not answered. -/
inductive Ledger.Fruitless (mayFail : Request → Prop) (request : Request) (ledger : Ledger) :
    Option StoreError → Ledger → Prop
  | unmade (nameless : request.target? = some "") :
      Fruitless mayFail request ledger (some (.call .unnamed)) ledger
  | refused {failure : ApiFailure}
      (served : Serves mayFail request ledger.registry (some (.error failure)) ledger.registry)
      (honest : failure.claimsMissing = false) :
      Fruitless mayFail request ledger (some (.call failure))
        (ledger.add request (some (.error failure)) ledger.registry)
  | unanswered (served : Serves mayFail request ledger.registry none ledger.registry) :
      Fruitless mayFail request ledger none (ledger.add request none ledger.registry)

theorem Ledger.Fruitless.registry_eq {request : Request} {ledger final : Ledger}
    {error : Option StoreError}
    (fruitless : ledger.Fruitless mayFail request error final) :
    final.registry = ledger.registry := by
  cases fruitless <;> rfl

/-- A ledger goes on with allowed calls that change nothing. -/
structure Ledger.Reads (allowed : Request → Prop) (ledger final : Ledger) : Prop where
  registry_eq : final.registry = ledger.registry
  idle : ∃ calls, final.calls = ledger.calls ++ calls ∧ ∀ call ∈ calls,
    allowed call.request ∧ call.before = ledger.registry ∧ call.after = ledger.registry

namespace Ledger.Reads

variable {allowed : Request → Prop} {ledger middle final : Ledger}

theorem refl (allowed : Request → Prop) (ledger : Ledger) : ledger.Reads allowed ledger :=
  ⟨rfl, [], by simp, by simp⟩

theorem add (reads : ledger.Reads allowed final) {request : Request}
    (permitted : allowed request) (answer : Answer request) :
    ledger.Reads allowed (final.add request answer ledger.registry) := by
  obtain ⟨same, calls, made, idle⟩ := reads
  refine ⟨rfl, calls ++ [⟨request, answer, final.registry, ledger.registry⟩], by simp [made], ?_⟩
  intro call member
  rcases List.mem_append.1 member with early | late
  · exact idle call early
  · obtain rfl := List.mem_singleton.1 late
    exact ⟨permitted, same, rfl⟩

end Ledger.Reads

theorem Ledger.Fruitless.reads {allowed : Request → Prop} {request : Request}
    {ledger middle final : Ledger} {error : Option StoreError}
    (fruitless : middle.Fruitless mayFail request error final) (permitted : allowed request)
    (reads : ledger.Reads allowed middle) : ledger.Reads allowed final := by
  have same := reads.registry_eq
  cases fruitless with
  | unmade nameless => exact reads
  | refused served honest =>
      rw [same]
      exact reads.add permitted _
  | unanswered served =>
      rw [same]
      exact reads.add permitted _

theorem claimsMissing_notFound (resource name : String) :
    (Cluster.notFound resource name).claimsMissing = true := by
  simp [Cluster.notFound, Cluster.refusal, ApiFailure.claimsMissing, ApiStatus.saysNotFound]

theorem claimsMissing_alreadyExists (kind : Kind) (name : String) :
    (Cluster.alreadyExists kind name).claimsMissing = false := by
  simp [Cluster.alreadyExists, Cluster.refusal, ApiFailure.claimsMissing,
    ApiStatus.saysNotFound]

/-- A look at a named object that may not fail is not fruitless. -/
theorem Ledger.not_fruitless_get {kind : Kind} {space name : String} {ledger final : Ledger}
    {error : Option StoreError} (never : ¬ mayFail (.get kind space name)) (named : name ≠ "") :
    ¬ ledger.Fruitless mayFail (.get kind space name) error final := by
  intro nothing
  cases nothing with
  | unmade nameless => exact named (Option.some.inj nameless)
  | refused served honest =>
      cases served with
      | missing absent =>
          rw [claimsMissing_notFound] at honest
          cases honest
      | failed may => exact never may
  | unanswered served =>
      cases served with
      | unanswered may => exact never may

/-- A status is replaced if that may not fail and the version is the stored one. -/
theorem Ledger.not_fruitless_replaceStatus {kind : Kind} {space name : String}
    {ledger final : Ledger} {error : Option StoreError} {written stored : kind.Object}
    (never : ¬ mayFail (.replaceStatus kind space name written)) (named : name ≠ "")
    (there : ledger.registry.find? kind space name = some stored)
    (current : kind.metadata written = kind.metadata stored) :
    ¬ ledger.Fruitless mayFail (.replaceStatus kind space name written) error final := by
  intro nothing
  cases nothing with
  | unmade nameless => exact named (Option.some.inj nameless)
  | refused served honest =>
      cases served with
      | outdated there' changed =>
          obtain rfl := Option.some.inj (there.symm.trans there')
          exact changed (congrArg Resource.ObjectMeta.resourceVersion current.symm)
      | nothingToRenew absent => exact absurd (there.symm.trans absent) (by simp)
      | failed may => exact never may
  | unanswered served =>
      cases served with
      | unanswered may => exact never may

namespace Exchange

/-- What is to hold of the result of an exchange, by whether it was done or
stopped. -/
def settles (done : α → Ledger → Prop) (stopped : Option StoreError → Ledger → Prop) :
    Option (Except StoreError α) → Ledger → Prop
  | some (.ok value) => done value
  | some (.error error) => stopped (some error)
  | none => stopped none

/-- Every run of an exchange is done or stopped in a ledger of which a statement
holds. -/
def Ensures (mayFail : Request → Prop) (exchange : Exchange (Except StoreError α))
    (done : α → Ledger → Prop) (stopped : Option StoreError → Ledger → Prop)
    (ledger : Ledger) : Prop :=
  Program.Ensures mayFail exchange.run (settles done stopped) ledger

variable {done : α → Ledger → Prop} {stopped : Option StoreError → Ledger → Prop}
  {ledger : Ledger}

theorem ensures_return (result : Except StoreError α) (holds : settles done stopped
    (some result) ledger) :
    Ensures mayFail (return result) done stopped ledger :=
  (Program.ensures_done_iff (some result)).2 holds

theorem ensures_ask {request : Request} {next : Except ApiFailure request.Reply →
      Exchange (Except StoreError α)}
    (answered : ∀ result after, Serves mayFail request ledger.registry (some result) after →
      Ensures mayFail (next result) done stopped (ledger.add request (some result) after))
    (unanswered : ∀ after, Serves mayFail request ledger.registry none after →
      stopped none (ledger.add request none after)) :
    Ensures mayFail (ask request >>= next) done stopped ledger := by
  refine Program.ensures_call_iff.2 fun answer after served => ?_
  cases answer with
  | none => exact (Program.ensures_done_iff none).2 (unanswered after served)
  | some result => exact answered result after served

theorem ensures_call {request : Request} {done : request.Reply → Ledger → Prop}
    (answered : ∀ reply after, Serves mayFail request ledger.registry (some (.ok reply)) after →
      done reply (ledger.add request (some (.ok reply)) after))
    (refused : ∀ failure after,
      Serves mayFail request ledger.registry (some (.error failure)) after →
        stopped (some (.call failure)) (ledger.add request (some (.error failure)) after))
    (unanswered : ∀ after, Serves mayFail request ledger.registry none after →
      stopped none (ledger.add request none after)) :
    Ensures mayFail (call request) done stopped ledger := by
  refine ensures_ask (fun result after served => ?_) unanswered
  cases result with
  | ok reply => exact ensures_return _ (answered reply after served)
  | error failure => exact ensures_return _ (refused failure after served)

theorem ensures_bind {exchange : Exchange (Except StoreError β)}
    {next : Except StoreError β → Exchange (Except StoreError α)}
    (first : Ensures mayFail exchange
      (fun value => Ensures mayFail (next (.ok value)) done stopped)
      (fun error final => match error with
        | some error => Ensures mayFail (next (.error error)) done stopped final
        | none => stopped none final) ledger) :
    Ensures mayFail (exchange >>= next) done stopped ledger := by
  refine (Program.ensures_bind_iff exchange.run).2 (first.mono fun result final holds => ?_)
  cases result with
  | none => exact (Program.ensures_done_iff none).2 holds
  | some result =>
      cases result with
      | ok value => exact holds
      | error error => exact holds

/-! ## Reading -/

theorem ensures_list {kind : Kind} {space selector : String}
    {done : List kind.Object → Ledger → Prop}
    (listed : done (ledger.registry.selected kind space selector)
      (ledger.add (.list kind space selector)
        (some (.ok (ledger.registry.selected kind space selector))) ledger.registry))
    (fruitless : ∀ error final,
      ledger.Fruitless mayFail (.list kind space selector) error final → stopped error final) :
    Ensures mayFail (list kind space selector) done stopped ledger := by
  refine ensures_call (fun reply after served => ?_) (fun failure after served => ?_)
    (fun after served => ?_)
  · cases served
    exact listed
  · cases served with
    | failed may honest => exact fruitless _ _ (.refused (.failed may honest) honest)
  · cases served with
    | unanswered may => exact fruitless _ _ (.unanswered (.unanswered may))

theorem ensures_get {kind : Kind} {space name : String}
    {done : kind.Object → Ledger → Prop}
    (found : ∀ object, ledger.registry.find? kind space name = some object →
      done object (ledger.add (.get kind space name) (some (.ok object)) ledger.registry))
    (missing : ledger.registry.find? kind space name = none →
      stopped (some (.call (Cluster.notFound kind.resourceName name)))
        (ledger.add (.get kind space name)
          (some (.error (Cluster.notFound kind.resourceName name))) ledger.registry))
    (fruitless : ∀ error final,
      ledger.Fruitless mayFail (.get kind space name) error final → stopped error final) :
    Ensures mayFail (get kind space name) done stopped ledger := by
  unfold get
  split
  · rename_i nameless
    subst nameless
    exact ensures_return _ (fruitless _ _ (.unmade rfl))
  · refine ensures_call (fun reply after served => ?_) (fun failure after served => ?_)
      (fun after served => ?_)
    · cases served with
      | found there => exact found _ there
    · cases served with
      | missing absent => exact missing absent
      | failed may honest => exact fruitless _ _ (.refused (.failed may honest) honest)
    · cases served with
      | unanswered may => exact fruitless _ _ (.unanswered (.unanswered may))

theorem ensures_get? {kind : Kind} {space name : String}
    {done : Option kind.Object → Ledger → Prop}
    (found : ∀ object, ledger.registry.find? kind space name = some object →
      done (some object)
        (ledger.add (.get kind space name) (some (.ok object)) ledger.registry))
    (missing : ledger.registry.find? kind space name = none →
      done none (ledger.add (.get kind space name)
        (some (.error (Cluster.notFound kind.resourceName name))) ledger.registry))
    (fruitless : ∀ error final,
      ledger.Fruitless mayFail (.get kind space name) error final → stopped error final) :
    Ensures mayFail (get? kind space name) done stopped ledger := by
  refine ensures_bind (ensures_get (fun object there => ?_) (fun absent => ?_)
    (fun error final nothing => ?_))
  · exact ensures_return _ (found object there)
  · exact ensures_return _ (missing absent)
  · have stops := fruitless error final nothing
    cases nothing with
    | unmade nameless => exact ensures_return _ stops
    | unanswered served => exact stops
    | @refused failure served honest =>
        cases failure with
        | refused status =>
            have present : status.saysNotFound = false := by
              simp only [ApiFailure.claimsMissing, Bool.or_eq_false_iff] at honest
              exact honest.1
            simp only [present]
            exact ensures_return _ stops
        | unnamed => exact ensures_return _ stops
        | unreadable => exact ensures_return _ stops

theorem ensures_isDefined {kind : Kind} {done : Bool → Ledger → Prop}
    (answered : ∀ answer,
      done (decide (kind.definitionName ∈ ledger.registry.definitions))
        (ledger.add (.findDefinition kind) answer ledger.registry))
    (fruitless : ∀ error final,
      ledger.Fruitless mayFail (.findDefinition kind) error final → stopped error final) :
    Ensures mayFail (isDefined kind) done stopped ledger := by
  refine ensures_ask (fun result after served => ?_) (fun after served => ?_)
  · cases served with
    | defined known =>
        refine ensures_return _ ?_
        simpa [settles, known] using answered (some (.ok ()))
    | undefined unknown =>
        refine ensures_return _ ?_
        simpa [settles, unknown] using answered (some (.error (Cluster.notFound
          "customresourcedefinitions.apiextensions.k8s.io" kind.definitionName)))
    | @failed _ failure _ may honest =>
        have stops := fruitless _ _ (.refused (.failed may honest) honest)
        cases failure with
        | refused status =>
            have present : status.saysNotFound = false := by
              simp only [ApiFailure.claimsMissing, Bool.or_eq_false_iff] at honest
              exact honest.1
            simp only [present]
            exact ensures_return _ stops
        | unnamed => exact ensures_return _ stops
        | unreadable => exact ensures_return _ stops
  · cases served with
    | unanswered may => exact fruitless _ _ (.unanswered (.unanswered may))

/-! ## Writing -/

theorem ensures_create {kind : Kind} {space : String} {object : kind.Object}
    {done : kind.Object → Ledger → Prop}
    (created : ∀ name metadata after, (kind.metadata object).name = some name →
      ledger.registry.find? kind space name = none →
      Stamped space (kind.metadata object) metadata →
      ledger.registry.Sets kind space name (some (kind.withMetadata metadata object)) after →
        done (kind.withMetadata metadata object)
          (ledger.add (.create kind space object)
            (some (.ok (kind.withMetadata metadata object))) after))
    (fruitless : ∀ error final,
      ledger.Fruitless mayFail (.create kind space object) error final →
        stopped error final) :
    Ensures mayFail (create kind space object) done stopped ledger := by
  refine ensures_call (fun reply after served => ?_) (fun failure after served => ?_)
    (fun after served => ?_)
  · cases served with
    | created named absent stamped sets => exact created _ _ _ named absent stamped sets
  · cases served with
    | taken named there =>
        exact fruitless _ _ (.refused (.taken named there) (claimsMissing_alreadyExists _ _))
    | nameless unnamed => exact fruitless _ _ (.refused (.nameless unnamed) rfl)
    | failed may honest => exact fruitless _ _ (.refused (.failed may honest) honest)
  · cases served with
    | unanswered may => exact fruitless _ _ (.unanswered (.unanswered may))

theorem code_ne_404_of_honest {failure : ApiFailure}
    (honest : failure.claimsMissing = false) :
    (StoreError.call failure).isNotFound = false := by
  cases failure with
  | refused status =>
      simp only [ApiFailure.claimsMissing, Bool.or_eq_false_iff, beq_eq_false_iff_ne] at honest
      simp [StoreError.isNotFound, StoreError.code?, honest.2]
  | unnamed => rfl
  | unreadable => rfl

theorem ensures_delete {kind : Kind} {space name : String} {done : Unit → Ledger → Prop}
    (deleted : ∀ object after, name ≠ "" → ledger.registry.find? kind space name = some object →
      (ledger.registry.Sets kind space name none after ∨
        ∃ time, ledger.registry.Sets kind space name (some (kind.doomed time object)) after) →
      done () (ledger.add (.delete kind space name) (some (.ok ())) after))
    (missing : name ≠ "" → ledger.registry.find? kind space name = none →
      done () (ledger.add (.delete kind space name)
        (some (.error (Cluster.notFound kind.resourceName name))) ledger.registry))
    (fruitless : ∀ error final,
      ledger.Fruitless mayFail (.delete kind space name) error final → stopped error final) :
    Ensures mayFail (delete kind space name) done stopped ledger := by
  unfold delete
  split
  · rename_i nameless
    subst nameless
    exact ensures_return _ (fruitless _ _ (.unmade rfl))
  · rename_i named
    refine ensures_bind (ensures_call (fun reply after served => ?_)
      (fun failure after served => ?_) (fun after served => ?_))
    · cases served with
      | removed there sets => exact ensures_return _ (deleted _ _ named there (Or.inl sets))
      | doomed there sets => exact ensures_return _ (deleted _ _ named there (Or.inr ⟨_, sets⟩))
    · cases served with
      | nothingToDelete absent => exact ensures_return _ (missing named absent)
      | failed may honest =>
          have stops := fruitless _ _ (.refused (.failed may honest) honest)
          refine ensures_return _ ?_
          rw [code_ne_404_of_honest honest]
          exact stops
    · cases served with
      | unanswered may => exact fruitless _ _ (.unanswered (.unanswered may))

theorem ensures_patch {kind : Kind} {space name : String} {change : Json}
    {done : kind.Object → Ledger → Prop}
    (patched : ∀ object changed after, ledger.registry.find? kind space name = some object →
      ledger.registry.Sets kind space name (some changed) after →
        done changed (ledger.add (.patch kind space name change) (some (.ok changed)) after))
    (missing : ledger.registry.find? kind space name = none →
      stopped (some (.call (Cluster.notFound kind.resourceName name)))
        (ledger.add (.patch kind space name change)
          (some (.error (Cluster.notFound kind.resourceName name))) ledger.registry))
    (fruitless : ∀ error final,
      ledger.Fruitless mayFail (.patch kind space name change) error final →
        stopped error final) :
    Ensures mayFail (patch kind space name change) done stopped ledger := by
  unfold patch
  split
  · rename_i nameless
    subst nameless
    exact ensures_return _ (fruitless _ _ (.unmade rfl))
  · refine ensures_call (fun reply after served => ?_) (fun failure after served => ?_)
      (fun after served => ?_)
    · cases served with
      | patched there reads sets => exact patched _ _ _ there sets
    · cases served with
      | misfit there fits => exact fruitless _ _ (.refused (.misfit there fits) rfl)
      | nothingToPatch absent => exact missing absent
      | failed may honest => exact fruitless _ _ (.refused (.failed may honest) honest)
    · cases served with
      | unanswered may => exact fruitless _ _ (.unanswered (.unanswered may))

/-- An update of a status that keeps the metadata never meets a conflict. -/
theorem ensures_updateStatus {kind : Kind} {space name : String}
    {update : kind.Object → kind.Object} {done : kind.Object → Ledger → Prop}
    (keeps : ∀ object, kind.metadata (update object) = kind.metadata object)
    (renewed : ∀ stored version after, ledger.registry.find? kind space name = some stored →
      ledger.registry.Sets kind space name (some (kind.renewed version (update stored) stored))
        after →
      done (kind.renewed version (update stored) stored)
        ((ledger.add (.get kind space name) (some (.ok stored)) ledger.registry).add
          (.replaceStatus kind space name (update stored))
          (some (.ok (kind.renewed version (update stored) stored))) after))
    (missing : ledger.registry.find? kind space name = none →
      stopped (some (.call (Cluster.notFound kind.resourceName name)))
        (ledger.add (.get kind space name)
          (some (.error (Cluster.notFound kind.resourceName name))) ledger.registry))
    (unread : ∀ error final,
      ledger.Fruitless mayFail (.get kind space name) error final → stopped error final)
    (unwritten : ∀ stored error final, ledger.registry.find? kind space name = some stored →
      (ledger.add (.get kind space name) (some (.ok stored)) ledger.registry).Fruitless mayFail
        (.replaceStatus kind space name (update stored)) error final →
      stopped error final) :
    Ensures mayFail (updateStatus kind space name update) done stopped ledger := by
  refine ensures_bind (ensures_get (fun stored there => ?_) (fun absent => ?_)
    (fun error final nothing => ?_))
  · refine ensures_call (fun reply after served => ?_) (fun failure after served => ?_)
      (fun after served => ?_)
    · cases served with
      | renewed there' current fresh sets =>
          obtain rfl := Option.some.inj (there.symm.trans there')
          exact renewed _ _ _ there sets
    · cases served with
      | outdated there' changed =>
          obtain rfl := Option.some.inj (there.symm.trans there')
          exact absurd (by rw [keeps]) changed
      | nothingToRenew absent => exact absurd (there.symm.trans absent) (by simp)
      | failed may honest => exact unwritten _ _ _ there (.refused (.failed may honest) honest)
    · cases served with
      | unanswered may => exact unwritten _ _ _ there (.unanswered (.unanswered may))
  · exact ensures_return _ (missing absent)
  · have stops := unread error final nothing
    cases error with
    | none => exact stops
    | some error => exact ensures_return _ stops

theorem ensures_record {event : Event} {done : Unit → Ledger → Prop}
    (published : done () (ledger.add (.publish event) (some (.ok ())) ledger.registry))
    (refused : ∀ failure, stopped (some (.event failure))
      (ledger.add (.publish event) (some (.error failure)) ledger.registry))
    (unanswered : stopped none (ledger.add (.publish event) none ledger.registry)) :
    Ensures mayFail (record event) done stopped ledger := by
  refine ensures_ask (fun result after served => ?_) (fun after served => ?_)
  · cases served with
    | published event registry => exact ensures_return _ published
    | failed may honest => exact ensures_return _ (refused _)
  · cases served
    exact unanswered

end Exchange

end NodeFleet.Store
