import NodeFleet.Proofs.Store.Service
import NodeFleet.Store.Exchange

/-!
# Those who write the status of a full node

Any number of writers may be at work on the status of one full node.  Each of them reads
the full node, however long ago, and replaces its status on the condition that the version
it has read is still the current one.  The status is then that of the accepted writes, done
one after the other.
-/

namespace NodeFleet.Fleet

open Resource Store

variable {Write : Type} {mayFail : Request → Prop} {space name : String}

/-! ## Writing a status -/

/-- Reads a full node, and replaces its status by an updated one. -/
def writeStatus (space name : String) (update : FullNodeStatus → FullNodeStatus) :
    Exchange (Except StoreError FullNode) :=
  Exchange.updateStatus .fullNode space name (·.updateStatus update)

/-- The call that replaces the status of a full node as it was read. -/
def replacement (space name : String) (update : FullNodeStatus → FullNodeStatus)
    (read : FullNode) : Request :=
  .replaceStatus .fullNode space name (read.updateStatus update)

theorem run_writeStatus (space : String) (named : name ≠ "")
    (update : FullNodeStatus → FullNodeStatus) :
    (writeStatus space name update).run = .call (.get .fullNode space name) fun
      | none => .done none
      | some (.error failure) => .done (some (.error (.call failure)))
      | some (.ok read) => (Exchange.call (replacement space name update read)).run := by
  unfold writeStatus Exchange.updateStatus Exchange.get
  rw [if_neg named]
  refine congrArg (Program.call _) (funext fun answer => ?_)
  match answer with
  | none => rfl
  | some (.error failure) => rfl
  | some (.ok read) => rfl

theorem run_writeStatus_unnamed (space : String) (update : FullNodeStatus → FullNodeStatus) :
    (writeStatus space "" update).run = .done (some (.error (.call .unnamed))) := rfl

theorem run_call (request : Request) :
    (Exchange.call request).run =
      .call request fun answer => .done (answer.map (·.mapError .call)) := by
  refine congrArg (Program.call _) (funext fun answer => ?_)
  cases answer with
  | none => rfl
  | some result => rfl

/-! ## Writers at work -/

/-- A write that is under way, and what is left of its program. -/
structure Writer (Write : Type) where
  write : Write
  rest : Program (Option (Except StoreError FullNode))

/-- A registry with those who write the status of one of its full nodes, the writes that
have been accepted, in their order, and the versions that the full node has had. -/
structure Desk (Write : Type) where
  registry : Registry
  writers : List (Writer Write)
  accepted : List Write
  versions : List (Option String)

/-- The version of a full node, if it is there. -/
def versionsIn (registry : Registry) (space name : String) : List (Option String) :=
  ((registry.find? .fullNode space name).map (·.metadata.resourceVersion)).toList

/-- Whether an answer accepts the replacement of a status. -/
def accepts : (request : Request) → Answer request → Bool
  | .replaceStatus _ _ _ _, some (.ok _) => true
  | _, _ => false

namespace Desk

def opened (registry : Registry) (space name : String) : Desk Write :=
  ⟨registry, [], [], versionsIn registry space name⟩

def begun (desk : Desk Write) (space name : String)
    (change : Write → FullNodeStatus → FullNodeStatus) (write : Write) : Desk Write :=
  { desk with writers := desk.writers ++ [⟨write, (writeStatus space name (change write)).run⟩] }

/-- What a call of a writer leaves. -/
def called (desk : Desk Write) (space name : String) (position : Nat) (write : Write)
    {request : Request}
    (resume : Answer request → Program (Option (Except StoreError FullNode)))
    (answer : Answer request) (after : Registry) : Desk Write where
  registry := after
  writers := desk.writers.set position ⟨write, resume answer⟩
  accepted := if accepts request answer then desk.accepted ++ [write] else desk.accepted
  versions := desk.versions ++ versionsIn after space name

/-- No version that a full node gets is one that it has had before. -/
def Fresh (desk : Desk Write) (space name : String) (after : Registry) : Prop :=
  ∀ version ∈ versionsIn after space name,
    version ∉ versionsIn desk.registry space name → version ∉ desk.versions

/-- A writer begins, or makes its next call; or others change something, but not the status
of the full node. -/
inductive Step (mayFail : Request → Prop) (space name : String)
    (change : Write → FullNodeStatus → FullNodeStatus) : Desk Write → Desk Write → Prop
  | begins (desk : Desk Write) (write : Write) :
      Step mayFail space name change desk (desk.begun space name change write)
  | calls {desk : Desk Write} {position : Nat} {write : Write} {request : Request}
      {resume : Answer request → Program (Option (Except StoreError FullNode))}
      {answer : Answer request} {after : Registry}
      (next : desk.writers[position]? = some ⟨write, .call request resume⟩)
      (served : Serves mayFail request desk.registry answer after)
      (fresh : desk.Fresh space name after) :
      Step mayFail space name change desk
        (desk.called space name position write resume answer after)
  | others {desk : Desk Write} {after : Registry} {stored left : FullNode}
      (there : desk.registry.find? .fullNode space name = some stored)
      (stays : after.find? .fullNode space name = some left)
      (same : left.status = stored.status) (fresh : desk.Fresh space name after) :
      Step mayFail space name change desk
        { desk with
          registry := after
          versions := desk.versions ++ versionsIn after space name }

inductive Reaches (mayFail : Request → Prop) (space name : String)
    (change : Write → FullNodeStatus → FullNodeStatus) (start : Desk Write) : Desk Write → Prop
  | refl : Reaches mayFail space name change start start
  | step {middle final : Desk Write} (earlier : Reaches mayFail space name change start middle)
      (step : Step mayFail space name change middle final) :
      Reaches mayFail space name change start final

end Desk

/-! ## What each writer has in hand -/

/-- The status once a write has been done. -/
def recorded (change : Write → FullNodeStatus → FullNodeStatus) (status : Option FullNodeStatus)
    (write : Write) : Option FullNodeStatus :=
  some (change write (status.getD .initial))

/-- A writer has read nothing yet; or it is about to replace the status that it has read,
which the full node still has if it has not got another version; or it is through. -/
inductive Writer.Stands (space name : String) (change : Write → FullNodeStatus → FullNodeStatus)
    (desk : Desk Write) : Writer Write → Prop
  | reads (write : Write) :
      Stands space name change desk ⟨write, (writeStatus space name (change write)).run⟩
  | writes (write : Write) {read : FullNode}
      (known : read.metadata.resourceVersion ∈ desk.versions)
      (unchanged : ∀ stored, desk.registry.find? .fullNode space name = some stored →
        stored.metadata.resourceVersion = read.metadata.resourceVersion →
          stored.status = read.status) :
      Stands space name change desk
        ⟨write, (Exchange.call (replacement space name (change write) read)).run⟩
  | through (write : Write) (result : Option (Except StoreError FullNode)) :
      Stands space name change desk ⟨write, .done result⟩

/-- The status is that of the accepted writes, and every writer knows what it replaces. -/
structure Desk.Sound (space name : String) (change : Write → FullNodeStatus → FullNodeStatus)
    (first : FullNode) (desk : Desk Write) : Prop where
  stored : ∃ stored, desk.registry.find? .fullNode space name = some stored ∧
    stored.metadata.resourceVersion ∈ desk.versions ∧
    stored.status = desk.accepted.foldl (recorded change) first.status
  writers : ∀ writer ∈ desk.writers, writer.Stands space name change desk

section Soundness

variable {change : Write → FullNodeStatus → FullNodeStatus} {first : FullNode}
  {desk after : Desk Write}

theorem mem_versionsIn {registry : Registry} {stored : FullNode}
    (there : registry.find? .fullNode space name = some stored) {version : Option String} :
    version ∈ versionsIn registry space name ↔ version = stored.metadata.resourceVersion := by
  simp [versionsIn, there]

/-- What a writer has in hand stays good while the full node keeps its version with its
status, or gets a new version. -/
theorem Writer.Stands.of_kept {writer : Writer Write} {stored left : FullNode}
    (stands : writer.Stands space name change desk)
    (known : ∀ version ∈ desk.versions, version ∈ after.versions)
    (there : desk.registry.find? .fullNode space name = some stored)
    (stays : after.registry.find? .fullNode space name = some left)
    (kept : left.metadata.resourceVersion = stored.metadata.resourceVersion ∧
        left.status = stored.status ∨
      left.metadata.resourceVersion ∉ desk.versions) :
    writer.Stands space name change after := by
  cases stands with
  | reads write => exact .reads write
  | through write result => exact .through write result
  | @writes write read isKnown unchanged =>
      refine .writes write (known _ isKnown) fun found foundThere same => ?_
      obtain rfl := Option.some.inj (stays.symm.trans foundThere)
      rcases kept with ⟨sameVersion, sameStatus⟩ | fresh
      · exact sameStatus.trans (unchanged stored there (sameVersion.symm.trans same))
      · exact absurd (same ▸ isKnown) fresh

/-- The next call of a writer: it reads, or it replaces what it has read. -/
theorem Writer.Stands.call_cases {write : Write} {request : Request}
    {resume : Answer request → Program (Option (Except StoreError FullNode))}
    (stands : Writer.Stands space name change desk ⟨write, .call request resume⟩) :
    Program.call request resume = (writeStatus space name (change write)).run ∨
      ∃ read : FullNode, read.metadata.resourceVersion ∈ desk.versions ∧
        (∀ stored, desk.registry.find? .fullNode space name = some stored →
          stored.metadata.resourceVersion = read.metadata.resourceVersion →
            stored.status = read.status) ∧
        Program.call request resume =
          (Exchange.call (replacement space name (change write) read)).run := by
  generalize same : (⟨write, .call request resume⟩ : Writer Write) = writer at stands
  cases stands with
  | reads write' =>
      obtain ⟨rfl, rest⟩ := Writer.mk.inj same
      exact Or.inl rest
  | writes write' known unchanged =>
      obtain ⟨rfl, rest⟩ := Writer.mk.inj same
      exact Or.inr ⟨_, known, unchanged, rest⟩
  | through write' result => cases (Writer.mk.inj same).2

/-- A call of a writer leaves what it finds; or it is an accepted replacement, and gives the
full node another version and the status of the write. -/
inductive Leaves (space name : String) (change : Write → FullNodeStatus → FullNodeStatus)
    (before : Registry) (write : Write) (request : Request) (answer : Answer request) :
    Registry → Prop
  | unchanged (unaccepted : accepts request answer = false) :
      Leaves space name change before write request answer before
  | replaced {after : Registry} {stored left : FullNode}
      (accepted : accepts request answer = true)
      (there : before.find? .fullNode space name = some stored)
      (stays : after.find? .fullNode space name = some left)
      (renewed : left.metadata.resourceVersion ≠ stored.metadata.resourceVersion)
      (written : left.status = recorded change stored.status write) :
      Leaves space name change before write request answer after

/-- The first call of a writer leaves everything as it is, and gives it what it replaces. -/
theorem stands_of_reading {write : Write} {request : Request} {answer : Answer request}
    {resume : Answer request → Program (Option (Except StoreError FullNode))}
    {left : Registry} (reading : Program.call request resume =
      (writeStatus space name (change write)).run)
    (known : ∀ stored, desk.registry.find? .fullNode space name = some stored →
      stored.metadata.resourceVersion ∈ desk.versions)
    (served : Serves mayFail request desk.registry answer left) :
    Leaves space name change desk.registry write request answer left ∧
      Writer.Stands space name change desk ⟨write, resume answer⟩ := by
  by_cases named : name = ""
  · subst named
    rw [run_writeStatus_unnamed] at reading
    cases reading
  rw [run_writeStatus space named] at reading
  cases reading
  cases served with
  | found there =>
      refine ⟨.unchanged rfl, .writes write (known _ there) fun stored found _ => ?_⟩
      obtain rfl := Option.some.inj (there.symm.trans found)
      rfl
  | missing absent => exact ⟨.unchanged rfl, .through write _⟩
  | failed may honest => exact ⟨.unchanged rfl, .through write _⟩
  | unanswered may => exact ⟨.unchanged rfl, .through write _⟩

/-- The second call of a writer ends its program.  If it is accepted, the status that is
replaced is the one that the writer has read. -/
theorem stands_of_writing {write : Write} {read : FullNode} {request : Request}
    {answer : Answer request}
    {resume : Answer request → Program (Option (Except StoreError FullNode))}
    {left : Registry} (writing : Program.call request resume =
      (Exchange.call (replacement space name (change write) read)).run)
    (unchanged : ∀ stored, desk.registry.find? .fullNode space name = some stored →
      stored.metadata.resourceVersion = read.metadata.resourceVersion →
        stored.status = read.status)
    (served : Serves mayFail request desk.registry answer left) :
    Leaves space name change desk.registry write request answer left ∧
      Writer.Stands space name change desk ⟨write, resume answer⟩ := by
  rw [run_call] at writing
  cases writing
  refine ⟨?_, .through write _⟩
  unfold replacement at served ⊢
  cases served with
  | renewed there current fresh sets =>
      refine .replaced rfl there sets.here (fun same => fresh same.symm) ?_
      have sameStatus := unchanged _ there current
      exact congrArg (fun status => recorded change status write) sameStatus.symm
  | outdated there changed => exact .unchanged rfl
  | nothingToRenew absent => exact .unchanged rfl
  | failed may honest => exact .unchanged rfl
  | unanswered may => exact .unchanged rfl

namespace Desk.Sound

variable (sound : desk.Sound space name change first)

include sound

theorem known {stored : FullNode}
    (there : desk.registry.find? .fullNode space name = some stored) :
    stored.metadata.resourceVersion ∈ desk.versions := by
  obtain ⟨found, foundThere, known, _⟩ := sound.stored
  obtain rfl := Option.some.inj (foundThere.symm.trans there)
  exact known

theorem begun (write : Write) :
    (desk.begun space name change write).Sound space name change first where
  stored := sound.stored
  writers := by
    obtain ⟨stored, there, _⟩ := sound.stored
    intro writer member
    rcases List.mem_append.1 member with early | late
    · exact (sound.writers writer early).of_kept (fun _ known => known) there there
        (Or.inl ⟨rfl, rfl⟩)
    · obtain rfl := List.mem_singleton.1 late
      exact .reads write

theorem called {position : Nat} {write : Write} {request : Request}
    {resume : Answer request → Program (Option (Except StoreError FullNode))}
    {answer : Answer request} {after : Registry}
    (next : desk.writers[position]? = some ⟨write, .call request resume⟩)
    (served : Serves mayFail request desk.registry answer after)
    (fresh : desk.Fresh space name after) :
    (desk.called space name position write resume answer after).Sound space name change first := by
  have leaves : Leaves space name change desk.registry write request answer after ∧
      Writer.Stands space name change desk ⟨write, resume answer⟩ := by
    rcases (sound.writers _ (List.mem_of_getElem? next)).call_cases with reading |
      ⟨read, _, unchanged, writing⟩
    · exact stands_of_reading reading (fun _ => sound.known) served
    · exact stands_of_writing writing unchanged served
  obtain ⟨leaves, stands⟩ := leaves
  obtain ⟨stored, there, known, recorded⟩ := sound.stored
  have kept : ∀ writer ∈ desk.writers.set position ⟨write, resume answer⟩,
      writer.Stands space name change desk := by
    intro writer member
    rcases List.mem_or_eq_of_mem_set member with early | rfl
    · exact sound.writers writer early
    · exact stands
  cases leaves with
  | unchanged unaccepted =>
      refine ⟨⟨stored, there, List.mem_append_left _ known, ?_⟩, fun writer member => ?_⟩
      · simp only [Desk.called, unaccepted]
        exact recorded
      · exact (kept writer member).of_kept (fun _ known => List.mem_append_left _ known) there
          there (Or.inl ⟨rfl, rfl⟩)
  | @replaced _ found left accepted foundThere stays renewed written =>
      obtain rfl := Option.some.inj (there.symm.trans foundThere)
      have isNew := (mem_versionsIn stays).2 rfl
      have unseen : left.metadata.resourceVersion ∉ desk.versions :=
        fresh _ isNew fun same => renewed ((mem_versionsIn there).1 same)
      refine ⟨⟨left, stays, List.mem_append_right _ isNew, ?_⟩, fun writer member => ?_⟩
      · simp only [Desk.called, accepted, if_true, List.foldl_append, List.foldl_cons,
          List.foldl_nil]
        rw [written, recorded]
      · exact (kept writer member).of_kept (fun _ known => List.mem_append_left _ known) there
          stays (Or.inr unseen)

theorem others {after : Registry} {stored left : FullNode}
    (there : desk.registry.find? .fullNode space name = some stored)
    (stays : after.find? .fullNode space name = some left)
    (same : left.status = stored.status) (fresh : desk.Fresh space name after) :
    { desk with
      registry := after
      versions := desk.versions ++ versionsIn after space name : Desk Write }.Sound space name
        change first := by
  obtain ⟨found, foundThere, known, recorded⟩ := sound.stored
  obtain rfl := Option.some.inj (there.symm.trans foundThere)
  have isThere := (mem_versionsIn stays).2 rfl
  refine ⟨⟨left, stays, List.mem_append_right _ isThere, same.trans recorded⟩,
    fun writer member => ?_⟩
  refine (sound.writers writer member).of_kept (fun _ known => List.mem_append_left _ known) there
    stays ?_
  by_cases kept : left.metadata.resourceVersion = stored.metadata.resourceVersion
  · exact Or.inl ⟨kept, same⟩
  · exact Or.inr (fresh _ isThere fun old => kept ((mem_versionsIn there).1 old))

end Desk.Sound

theorem Desk.Step.sound (step : Desk.Step mayFail space name change desk after)
    (sound : desk.Sound space name change first) : after.Sound space name change first := by
  cases step with
  | begins write => exact sound.begun write
  | calls next served fresh => exact sound.called next served fresh
  | others there stays same fresh => exact sound.others there stays same fresh

theorem Desk.Reaches.sound {registry : Registry}
    (reaches : Desk.Reaches mayFail space name change (.opened registry space name) desk)
    (begun : registry.find? .fullNode space name = some first) :
    desk.Sound space name change first := by
  induction reaches with
  | refl =>
      refine ⟨⟨first, begun, (mem_versionsIn begun).2 rfl, rfl⟩, fun writer member => ?_⟩
      cases member
  | step earlier step inductionHypothesis => exact step.sound inductionHypothesis

/-! ## Writers in turn -/

instance (desk : Desk Write) (space name : String) (after : Registry) :
    Decidable (desk.Fresh space name after) :=
  inferInstanceAs (Decidable (∀ version ∈ versionsIn after space name,
    version ∉ versionsIn desk.registry space name → version ∉ desk.versions))

/-- Lets a writer make its next call, on a server that never fails. -/
def Desk.serveNext (space name : String) (position : Nat) (desk : Desk Write) : Desk Write :=
  match desk.writers[position]? with
  | some ⟨write, .call request resume⟩ =>
      let answered := respond request desk.registry
      desk.called space name position write resume answered.1 answered.2
  | _ => desk

theorem Desk.Reaches.serveNext {start : Desk Write}
    (reaches : Desk.Reaches mayFail space name change start desk) (position : Nat)
    (fresh : desk.Fresh space name (desk.serveNext space name position).registry) :
    Desk.Reaches mayFail space name change start (desk.serveNext space name position) := by
  revert fresh
  unfold Desk.serveNext
  split
  · rename_i write request resume next
    exact fun fresh => reaches.step (.calls next (serves_respond _ _ _) fresh)
  · exact fun _ => reaches

end Soundness

end NodeFleet.Fleet
