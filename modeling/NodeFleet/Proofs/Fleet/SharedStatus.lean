import Mathlib.Data.List.Induction
import NodeFleet.Proofs.Fleet.HeldDown
import NodeFleet.Proofs.Fleet.StatusWriters
import NodeFleet.Proofs.Snapshot.Interleaving

/-!
# The status that schedulers share

The controller of a full node and any number of schedulers write its status at the same
time.  Their writes do not touch each other: under the key of each scheduler stands what it
put there last, and a pod is not desired exactly while some scheduler holds it down.
-/

namespace NodeFleet.Fleet

open Calendar Resource Snapshot Store

/-! ## The writes -/

/-- A write of the status of a full node, by its controller or by a scheduler. -/
inductive StatusWrite (ι : Type)
  | record (generation : Option Int) (result : Except PassError Convergence)
  | hold (scheduler : ι) (pod : Option String)

namespace StatusWrite

variable {ι : Type}

def change (schedulers : ι → Scheduler) : StatusWrite ι → FullNodeStatus → FullNodeStatus
  | .record generation result => recordOutcome generation result
  | .hold scheduler pod => (·.hold (schedulers scheduler).statusKey pod)

/-- What a write puts under the key of a scheduler, if it is one of its writes. -/
def heldBy? [DecidableEq ι] (scheduler : ι) : StatusWrite ι → Option (Option String)
  | .record _ _ => none
  | .hold other pod => if other = scheduler then some pod else none

end StatusWrite

/-- The writes are those that passes make: a controller records what its pass has come to, and a
scheduler that holds a pod down, or none, says so under its key if the full node is there. -/
structure MadeByPasses {ι : Type} (schedulers : ι → Scheduler) : Prop where
  finish_eq : ∀ (node : FullNode) (settings : Settings) (space : String)
    (result : Except PassError Convergence), finish node settings space result = (do
      let _ ← Control.attempt (writeStatus space node.name
        (StatusWrite.change schedulers (.record node.metadata.generation result)))
      conclude settings result)
  hold_eq : ∀ {σ : Type} (scheduler : ι) (round : Round) (pod : Option String),
    round.scheduler = schedulers scheduler → (round.hold pod : Pass σ Unit) = (do
      match ← Pass.attempt (Exchange.get? .fullNode round.space round.nodeName) with
      | some _ => do
          let _ ← Pass.attempt (writeStatus round.space round.nodeName
            (StatusWrite.change schedulers (.hold scheduler pod)))
      | none => if pod.isSome then round.failNodeMissing)

theorem madeByPasses {ι : Type} (schedulers : ι → Scheduler) : MadeByPasses schedulers where
  finish_eq _ _ _ _ := rfl
  hold_eq scheduler round pod own := by
    simp only [StatusWrite.change, ← own]
    rfl

/-- What the last write of a scheduler has put under its key, if there has been one. -/
def lastHeld? {ι : Type} [DecidableEq ι] (scheduler : ι) (writes : List (StatusWrite ι)) :
    Option (Option String) :=
  (writes.filterMap (·.heldBy? scheduler)).getLast?

/-! ## What the writes make of the status -/

section Writes

variable {ι : Type} {schedulers : ι → Scheduler}

/-- The status after a number of writes, one after the other. -/
def afterWrites (schedulers : ι → Scheduler) (writes : List (StatusWrite ι))
    (status : Option FullNodeStatus) : Option FullNodeStatus :=
  writes.foldl (recorded (StatusWrite.change schedulers)) status

/-- The pod that a status holds down under a key. -/
def entryOf (status : Option FullNodeStatus) (key : String) : Option String :=
  (status.bind fun status => status.heldPods.find? key).map (·.podName)

theorem heldUnder?_eq (node : FullNode) (key : String) :
    heldUnder? node key = entryOf node.status key := rfl

theorem afterWrites_append (writes : List (StatusWrite ι)) (write : StatusWrite ι)
    (status : Option FullNodeStatus) :
    afterWrites schedulers (writes ++ [write]) status =
      recorded (StatusWrite.change schedulers) (afterWrites schedulers writes status) write := by
  simp [afterWrites]

theorem entryOf_record (generation : Option Int) (result : Except PassError Convergence)
    (status : Option FullNodeStatus) (key : String) :
    entryOf (recorded (StatusWrite.change schedulers) status (.record generation result)) key =
      entryOf status key := by
  cases status with
  | none => rfl
  | some status => rfl

theorem entryOf_hold (scheduler : ι) (pod : Option String) (status : Option FullNodeStatus)
    (key : String) :
    entryOf (recorded (StatusWrite.change schedulers) status (.hold scheduler pod)) key =
      if (schedulers scheduler).statusKey = key then pod else entryOf status key := by
  cases status <;> cases pod <;>
    simp only [entryOf, recorded, StatusWrite.change, FullNodeStatus.hold, Option.bind_some,
      Option.bind_none, Option.getD_some, Option.getD_none, KeyMap.find?_insert,
      KeyMap.find?_erase] <;>
    split <;> rfl

theorem syncInfo_recorded (status : Option FullNodeStatus) (write : StatusWrite ι) :
    ((recorded (StatusWrite.change schedulers) status write).getD .initial).syncInfo =
      (status.getD .initial).syncInfo := by
  cases write with
  | record generation result => rfl
  | hold scheduler pod => cases pod <;> rfl

/-- No write changes what is known of the synchronization of the pods. -/
theorem syncInfo_afterWrites (writes : List (StatusWrite ι)) (status : Option FullNodeStatus) :
    ((afterWrites schedulers writes status).getD .initial).syncInfo =
      (status.getD .initial).syncInfo := by
  induction writes using List.reverseRecOn with
  | nil => rfl
  | append_singleton writes write inductionHypothesis =>
      rw [afterWrites_append, syncInfo_recorded, inductionHypothesis]

theorem lastHeld?_append [DecidableEq ι] (scheduler : ι) (writes : List (StatusWrite ι))
    (write : StatusWrite ι) :
    lastHeld? scheduler (writes ++ [write]) =
      (write.heldBy? scheduler).or (lastHeld? scheduler writes) := by
  unfold lastHeld?
  rw [List.filterMap_append, List.getLast?_append]
  cases held : write.heldBy? scheduler with
  | none => simp [held]
  | some pod => simp [held]

/-- Under the key of a scheduler stands what it has put there last. -/
theorem entryOf_afterWrites [DecidableEq ι]
    (distinct : Function.Injective fun scheduler => (schedulers scheduler).statusKey)
    (scheduler : ι) (writes : List (StatusWrite ι)) (status : Option FullNodeStatus) :
    entryOf (afterWrites schedulers writes status) (schedulers scheduler).statusKey =
      (lastHeld? scheduler writes).getD (entryOf status (schedulers scheduler).statusKey) := by
  induction writes using List.reverseRecOn with
  | nil => rfl
  | append_singleton writes write inductionHypothesis =>
      rw [afterWrites_append, lastHeld?_append]
      cases write with
      | record generation result =>
          rw [entryOf_record]
          exact inductionHypothesis
      | hold other pod =>
          rw [entryOf_hold, inductionHypothesis]
          by_cases same : other = scheduler
          · simp [StatusWrite.heldBy?, same]
          · have otherKey := distinct.ne same
            simp only [ne_eq] at otherKey
            simp [StatusWrite.heldBy?, same, otherKey]

/-- What stands under the key of no scheduler stays. -/
theorem entryOf_afterWrites_of_foreign {key : String}
    (foreign : ∀ scheduler, (schedulers scheduler).statusKey ≠ key)
    (writes : List (StatusWrite ι)) (status : Option FullNodeStatus) :
    entryOf (afterWrites schedulers writes status) key = entryOf status key := by
  induction writes using List.reverseRecOn with
  | nil => rfl
  | append_singleton writes write inductionHypothesis =>
      rw [afterWrites_append]
      cases write with
      | record generation result => rw [entryOf_record, inductionHypothesis]
      | hold other pod => rw [entryOf_hold, if_neg (foreign other), inductionHypothesis]

/-- A pod is held down while the last write of some scheduler names it, or while nobody has
written under a key that named it at the start. -/
theorem exists_entryOf_afterWrites_iff [DecidableEq ι]
    (distinct : Function.Injective fun scheduler => (schedulers scheduler).statusKey)
    (writes : List (StatusWrite ι)) (status : Option FullNodeStatus) (podName : String) :
    (∃ key, entryOf (afterWrites schedulers writes status) key = some podName) ↔
      (∃ scheduler, lastHeld? scheduler writes = some (some podName)) ∨
      ∃ key, entryOf status key = some podName ∧
        ∀ scheduler, (schedulers scheduler).statusKey = key →
          lastHeld? scheduler writes = none := by
  constructor
  · rintro ⟨key, held⟩
    by_cases own : ∃ scheduler, (schedulers scheduler).statusKey = key
    · obtain ⟨scheduler, rfl⟩ := own
      rw [entryOf_afterWrites distinct] at held
      cases last : lastHeld? scheduler writes with
      | some pod =>
          rw [last] at held
          exact Or.inl ⟨scheduler, by rw [last]; exact congrArg some held⟩
      | none =>
          rw [last] at held
          refine Or.inr ⟨_, held, fun other same => ?_⟩
          obtain rfl := distinct same
          exact last
    · have foreign : ∀ scheduler, (schedulers scheduler).statusKey ≠ key :=
        fun scheduler same => own ⟨scheduler, same⟩
      rw [entryOf_afterWrites_of_foreign foreign] at held
      exact Or.inr ⟨key, held, fun scheduler same => absurd same (foreign scheduler)⟩
  · rintro (⟨scheduler, last⟩ | ⟨key, held, unwritten⟩)
    · refine ⟨(schedulers scheduler).statusKey, ?_⟩
      rw [entryOf_afterWrites distinct, last]
      rfl
    · refine ⟨key, ?_⟩
      by_cases own : ∃ scheduler, (schedulers scheduler).statusKey = key
      · obtain ⟨scheduler, rfl⟩ := own
        rw [entryOf_afterWrites distinct, unwritten scheduler rfl]
        exact held
      · rw [entryOf_afterWrites_of_foreign fun scheduler same => own ⟨scheduler, same⟩]
        exact held

/-- The pod of a replica is desired unless it is held down. -/
theorem newPod_mem_desiredPods_iff {node : FullNode} {index : Nat}
    (below : (index : Int) < node.spec.replicas) :
    node.newPod index ∈ node.desiredPods ↔
      ¬ ∃ key, heldUnder? node key = some (node.podName index) := by
  rw [node.mem_desiredPods_iff, ← mem_heldPodNames_iff]
  constructor
  · rintro ⟨own, _, same, free⟩
    have names : node.podName index = node.podName own :=
      congrArg (fun pod : Pod => pod.metadata.shownName) same
    rwa [names]
  · exact fun free => ⟨index, by omega, rfl, free⟩

variable {mayFail : Request → Prop} {space name : String} {registry : Registry}
  {first : FullNode} {desk : Desk (StatusWrite ι)}

/-- Let the controller of a full node and any number of schedulers, each with a key of its
own, write the status of the full node, each in two calls that may come at any time, as their
passes do.  The status is that of the accepted writes, one after the other.  So there stands
under each key what its scheduler has put there last, nothing that is known of the
synchronization of the pods is changed, and a pod is not desired exactly while it is held
down. -/
theorem no_write_lost [DecidableEq ι]
    (distinct : Function.Injective fun scheduler => (schedulers scheduler).statusKey)
    (begun : registry.find? .fullNode space name = some first)
    (reaches : Desk.Reaches mayFail space name (StatusWrite.change schedulers)
      (.opened registry space name) desk) :
    MadeByPasses schedulers ∧
    ∃ stored : FullNode, desk.registry.find? .fullNode space name = some stored ∧
      stored.status = afterWrites schedulers desk.accepted first.status ∧
      (∀ scheduler, heldUnder? stored (schedulers scheduler).statusKey =
        (lastHeld? scheduler desk.accepted).getD
          (heldUnder? first (schedulers scheduler).statusKey)) ∧
      (stored.status.getD .initial).syncInfo = (first.status.getD .initial).syncInfo ∧
      ∀ index : Nat, (index : Int) < stored.spec.replicas →
        (stored.newPod index ∉ stored.desiredPods ↔
          (∃ scheduler, lastHeld? scheduler desk.accepted =
            some (some (stored.podName index))) ∨
          ∃ key, heldUnder? first key = some (stored.podName index) ∧
            ∀ scheduler, (schedulers scheduler).statusKey = key →
              lastHeld? scheduler desk.accepted = none) := by
  obtain ⟨stored, there, _, written⟩ := (reaches.sound begun).stored
  have status : stored.status = afterWrites schedulers desk.accepted first.status := written
  refine ⟨madeByPasses schedulers, stored, there, status, fun scheduler => ?_, ?_,
    fun index below => ?_⟩
  · rw [heldUnder?_eq, heldUnder?_eq, status, entryOf_afterWrites distinct]
  · rw [status, syncInfo_afterWrites]
  · rw [newPod_mem_desiredPods_iff below, not_not]
    simp only [heldUnder?_eq, status]
    exact exists_entryOf_afterWrites_iff distinct desk.accepted first.status _

end Writes

section Example

/-- Two schedulers of an example. -/
def nightAndDay (night : Bool) : Scheduler :=
  { hourly with
    metadata := { hourly.metadata with name := some (if night then "nightly" else "hourly") } }

theorem nightAndDay_distinct :
    Function.Injective fun scheduler => (nightAndDay scheduler).statusKey := by
  have different : (nightAndDay false).statusKey ≠ (nightAndDay true).statusKey := by decide
  intro left right same
  cases left <;> cases right
  · rfl
  · exact absurd same different
  · exact absurd same.symm different
  · rfl

def quietDesk : Desk (StatusWrite Bool) :=
  .opened (Registry.empty.put .fullNode "default" "cosmoshub" (FullNode.sample 2 .empty))
    "default" "cosmoshub"

def begin (desk : Desk (StatusWrite Bool)) (write : StatusWrite Bool) :
    Desk (StatusWrite Bool) :=
  desk.begun "default" "cosmoshub" (StatusWrite.change nightAndDay) write

def proceed (desk : Desk (StatusWrite Bool)) (position : Nat) : Desk (StatusWrite Bool) :=
  desk.serveNext "default" "cosmoshub" position

/-- A scheduler and the controller have read the full node. -/
def readDesk : Desk (StatusWrite Bool) :=
  proceed (proceed (begin (begin quietDesk (.hold false (some "cosmoshub-0")))
    (.record none (.ok ⟨false, 1⟩))) 0) 1

/-- The scheduler has been first, and the other scheduler has come and written, too. -/
def busyDesk : Desk (StatusWrite Bool) :=
  proceed (proceed (begin (proceed (proceed readDesk 0) 1)
    (.hold true (some "cosmoshub-1"))) 2) 2

theorem reaches_busyDesk : Desk.Reaches (fun _ => False) "default" "cosmoshub"
    (StatusWrite.change nightAndDay) quietDesk busyDesk := by
  have start : Desk.Reaches (fun _ => False) "default" "cosmoshub"
      (StatusWrite.change nightAndDay) quietDesk quietDesk := .refl
  have began := (start.step (.begins _ (.hold false (some "cosmoshub-0")))).step
    (.begins _ (.record none (.ok ⟨false, 1⟩)))
  have read := (began.serveNext 0 (by decide +kernel)).serveNext 1 (by decide +kernel)
  -- The controller comes too late: the version that it has read is no longer the current one.
  have wrote := (read.serveNext 0 (by decide +kernel)).serveNext 1 (by decide +kernel)
  have joined := wrote.step (.begins _ (.hold true (some "cosmoshub-1")))
  exact (joined.serveNext 2 (by decide +kernel)).serveNext 2 (by decide +kernel)

/-- Both pods are held down, whatever has come in between. -/
theorem both_held_on_busyDesk :
    ∃ stored : FullNode,
      busyDesk.registry.find? .fullNode "default" "cosmoshub" = some stored ∧
      heldUnder? stored "default.hourly" = some "cosmoshub-0" ∧
      heldUnder? stored "default.nightly" = some "cosmoshub-1" := by
  have begun : (Registry.empty.put .fullNode "default" "cosmoshub"
      (FullNode.sample 2 .empty)).find? .fullNode "default" "cosmoshub" =
        some (FullNode.sample 2 .empty) :=
    (Registry.empty.sets_put
      (⟨rfl, rfl⟩ : Kind.fullNode.IsPlaced "default" "cosmoshub" (FullNode.sample 2 .empty))).here
  obtain ⟨_, stored, there, _, held, _⟩ := no_write_lost nightAndDay_distinct begun reaches_busyDesk
  have last : lastHeld? false busyDesk.accepted = some (some "cosmoshub-0") ∧
      lastHeld? true busyDesk.accepted = some (some "cosmoshub-1") := by
    decide +kernel
  refine ⟨stored, there, ?_, ?_⟩
  · have key : (nightAndDay false).statusKey = "default.hourly" := by decide
    rw [← key, held, last.1]
    rfl
  · have key : (nightAndDay true).statusKey = "default.nightly" := by decide
    rw [← key, held, last.2]
    rfl

end Example

end NodeFleet.Fleet
