import NodeFleet.Proofs.Calendar.Rfc3339
import NodeFleet.Proofs.Json.ReadBack
import NodeFleet.Resource.Scheduler

/-!
# Statuses that are stored

The status of a scheduler, or of a full node, is stored between two passes.  What a pass leaves is
what the next one finds: a status is read back as it was written, and what it does not have does
not show in what is written.
-/

namespace NodeFleet.Resource

open Calendar Json

/-- A value survives being stored: it is read back from what is written of it, where exactly those
of its members show that are there. -/
structure Survives {α : Type} (read : Json → Option α) (write : α → Json)
    (members : α → List (String × Bool)) (value : α) : Prop where
  readBack : read (write value) = some value
  shows : (write value).Shows (members value)

theorem readTime_writeTime {time : Timestamp} (inEra : time.InCommonEra) :
    readTime (writeTime time) = some time := by
  simp [readTime, writeTime, readText, text?, inEra.read_text]

/-! ## Snapshots -/

namespace SnapshotError

def members (error : SnapshotError) : List (String × Bool) :=
  [("message", error.message.isSome), ("time", error.time.isSome)]

def times (error : SnapshotError) : List Timestamp := error.time.toList

theorem get?_write (error : SnapshotError) :
    error.write.get? "message" = error.message.map .text ∧
      error.write.get? "time" = error.time.map writeTime := by
  simp [write, get?_ofFields_whenSome, get?_ofFields_nil]

theorem survives {error : SnapshotError} (inEra : ∀ time ∈ error.times, time.InCommonEra) :
    Survives read write members error where
  readBack := by
    obtain ⟨message, time⟩ := error.get?_write
    have record : error.write.record? ["message", "time"] 0 = some error.write := rfl
    have readMessage := optional_text_eq_of_get? message
    have readTime := optional_eq_of_get? rfl time fun time there =>
      readTime_writeTime (inEra time (by simp [times, there]))
    simp [read, record, readMessage, readTime]
  shows := shows_ofFields (by simp [members])

end SnapshotError

namespace SnapshotStatus

def members (status : SnapshotStatus) : List (String × Bool) :=
  [("boundVolumeSnapshotContentName", status.contentName.isSome),
    ("creationTime", status.creationTime.isSome),
    ("readyToUse", status.readyToUse.isSome),
    ("restoreSize", status.restoreSize.isSome),
    ("error", status.error.isSome)]

def times (status : SnapshotStatus) : List Timestamp :=
  status.creationTime.toList ++ status.error.toList.flatMap (·.times)

theorem mem_times_of_error {status : SnapshotStatus} {error : SnapshotError} {time : Timestamp}
    (there : error ∈ status.error) (among : time ∈ error.times) : time ∈ status.times :=
  List.mem_append_right _ (List.mem_flatMap.2 ⟨error, Option.mem_toList.2 there, among⟩)

theorem get?_write (status : SnapshotStatus) :
    status.write.get? "boundVolumeSnapshotContentName" = status.contentName.map .text ∧
      status.write.get? "creationTime" = status.creationTime.map writeTime ∧
      status.write.get? "readyToUse" = status.readyToUse.map .bool ∧
      status.write.get? "restoreSize" = status.restoreSize.map .text ∧
      status.write.get? "error" = status.error.map SnapshotError.write := by
  simp [write, get?_ofFields_whenSome, get?_ofFields_nil]

theorem survives {status : SnapshotStatus} (inEra : ∀ time ∈ status.times, time.InCommonEra) :
    Survives read write members status where
  readBack := by
    obtain ⟨contentName, creationTime, readyToUse, restoreSize, error⟩ := status.get?_write
    have record : status.write.record? ["boundVolumeSnapshotContentName", "creationTime",
      "readyToUse", "restoreSize", "error"] 0 = some status.write := rfl
    have readName := optional_text_eq_of_get? contentName
    have readCreation := optional_eq_of_get? rfl creationTime fun time there =>
      readTime_writeTime (inEra time (by simp [times, there]))
    have readReady := optional_bool_eq_of_get? readyToUse
    have readSize := optional_text_eq_of_get? restoreSize
    have readError := optional_eq_of_get? rfl error fun error there =>
      (SnapshotError.survives fun time among =>
        inEra time (mem_times_of_error there among)).readBack
    simp [read, record, readName, readCreation, readReady, readSize, readError]
  shows := shows_ofFields (by simp [members])

end SnapshotStatus

namespace SnapshotRecord

def members (entry : SnapshotRecord) : List (String × Bool) :=
  [("name", true), ("startedAt", true), ("status", entry.status.isSome)]

def times (entry : SnapshotRecord) : List Timestamp :=
  entry.startedAt :: entry.status.toList.flatMap (·.times)

theorem mem_times_of_status {entry : SnapshotRecord} {status : SnapshotStatus} {time : Timestamp}
    (there : status ∈ entry.status) (among : time ∈ status.times) : time ∈ entry.times :=
  List.mem_cons_of_mem _ (List.mem_flatMap.2 ⟨status, Option.mem_toList.2 there, among⟩)

theorem get?_write (entry : SnapshotRecord) :
    entry.write.get? "name" = some (.text entry.name) ∧
      entry.write.get? "startedAt" = some (writeTime entry.startedAt) ∧
      entry.write.get? "status" = entry.status.map SnapshotStatus.write := by
  simp [write, get?_ofFields_always, get?_ofFields_whenSome, get?_ofFields_nil]

theorem survives {entry : SnapshotRecord} (inEra : ∀ time ∈ entry.times, time.InCommonEra) :
    Survives read write members entry where
  readBack := by
    obtain ⟨name, startedAt, status⟩ := entry.get?_write
    have record : entry.write.record? ["name", "startedAt", "status"] 2 = some entry.write := rfl
    have readName := required_text_eq_of_get? name
    have readStart := required_eq_of_get? startedAt
      (readTime_writeTime (inEra entry.startedAt List.mem_cons_self))
    have readStatus := optional_eq_of_get? rfl status fun status there =>
      (SnapshotStatus.survives fun time among =>
        inEra time (mem_times_of_status there among)).readBack
    simp [read, record, readName, readStart, readStatus]
  shows := shows_ofFields (by simp [members])

end SnapshotRecord

/-! ## Schedulers -/

namespace Candidate

def members (candidate : Candidate) : List (String × Bool) :=
  [("podName", true), ("pvcName", true), ("podLabels", !candidate.podLabels.isEmpty)]

theorem get?_write (candidate : Candidate) :
    candidate.write.get? "podName" = some (.text candidate.podName) ∧
      candidate.write.get? "pvcName" = some (.text candidate.claimName) ∧
      candidate.write.get? "podLabels" =
        if candidate.podLabels.isEmpty then none else some (ofMap .text candidate.podLabels) := by
  simp [write, get?_ofFields_always, get?_ofFields_whenPopulated, get?_ofFields_nil]

theorem survives (candidate : Candidate) : Survives read write members candidate where
  readBack := by
    obtain ⟨podName, claimName, podLabels⟩ := candidate.get?_write
    have record : candidate.write.record? ["podName", "pvcName", "podLabels"] 2 =
      some candidate.write := rfl
    have readPod := required_text_eq_of_get? podName
    have readClaim := required_text_eq_of_get? claimName
    have readLabels : candidate.write.defaulted "podLabels" .empty readTextMap =
        some candidate.podLabels :=
      defaulted_empty_eq_of_get? podLabels fun _ _ => rfl
    simp [read, record, readPod, readClaim, readLabels]
  shows := shows_ofFields (by simp [members])

end Candidate

theorem SnapshotPhase.read_write (phase : SnapshotPhase) : read phase.write = some phase := by
  cases phase <;> decide

namespace SchedulerStatus

def members (status : SchedulerStatus) : List (String × Bool) :=
  [("observedGeneration", status.observedGeneration.isSome),
    ("phase", true),
    ("statusMessage", status.statusMessage.isSome),
    ("candidate", status.candidate.isSome),
    ("lastSnapshot", status.lastSnapshot.isSome),
    ("history", !status.history.isEmpty)]

/-- The records of snapshots in a status. -/
def records (status : SchedulerStatus) : List SnapshotRecord :=
  status.lastSnapshot.toList ++ status.history

def times (status : SchedulerStatus) : List Timestamp := status.records.flatMap (·.times)

/-- The generation of a status has 64 bits. -/
def IsSized (status : SchedulerStatus) : Prop :=
  ∀ generation ∈ status.observedGeneration, Text.Bounds.int64.admits generation = true

theorem get?_write (status : SchedulerStatus) :
    status.write.get? "observedGeneration" = status.observedGeneration.map .integer ∧
      status.write.get? "phase" = some status.phase.write ∧
      status.write.get? "statusMessage" = status.statusMessage.map .text ∧
      status.write.get? "candidate" = status.candidate.map Candidate.write ∧
      status.write.get? "lastSnapshot" = status.lastSnapshot.map SnapshotRecord.write ∧
      status.write.get? "history" =
        if status.history.isEmpty then none
        else some (ofList SnapshotRecord.write status.history) := by
  simp [write, get?_ofFields_always, get?_ofFields_whenSome, get?_ofFields_whenFilled,
    get?_ofFields_nil]

variable {status : SchedulerStatus}

theorem survives_of_mem_records (inEra : ∀ time ∈ status.times, time.InCommonEra)
    (entry : SnapshotRecord) (member : entry ∈ status.records) :
    Survives SnapshotRecord.read SnapshotRecord.write SnapshotRecord.members entry :=
  SnapshotRecord.survives fun time among => inEra time (List.mem_flatMap.2 ⟨entry, member, among⟩)

theorem survives (sized : status.IsSized) (inEra : ∀ time ∈ status.times, time.InCommonEra) :
    Survives read write members status where
  readBack := by
    obtain ⟨generation, phase, message, candidate, lastSnapshot, history⟩ := status.get?_write
    have record : status.write.record? ["observedGeneration", "phase", "statusMessage",
      "candidate", "lastSnapshot", "history"] 0 = some status.write := rfl
    have readGeneration := optional_integer_eq_of_get? generation sized
    have readPhase : status.write.defaulted "phase" .waitingForNext SnapshotPhase.read =
      some status.phase := defaulted_eq_of_get? phase status.phase.read_write
    have readMessage := optional_text_eq_of_get? message
    have readCandidate := optional_eq_of_get? rfl candidate fun candidate _ =>
      candidate.survives.readBack
    have readLast := optional_eq_of_get? rfl lastSnapshot fun last there =>
      (survives_of_mem_records inEra last (by simp [records, there])).readBack
    have readHistory := defaulted_nil_eq_of_get? history fun entry member =>
      (survives_of_mem_records inEra entry (by simp [records, member])).readBack
    simp [read, record, readGeneration, readPhase, readMessage, readCandidate, readLast,
      readHistory]
  shows := shows_ofFields (by simp [members])

/-- A status that was read is sized. -/
theorem isSized_of_read {json : Json} (reads : read json = some status) : status.IsSized := by
  obtain ⟨record, _, reads⟩ := Option.bind_eq_some_iff.1 reads
  obtain ⟨generation, readGeneration, reads⟩ := Option.bind_eq_some_iff.1 reads
  iterate 5 obtain ⟨_, _, reads⟩ := Option.bind_eq_some_iff.1 reads
  obtain rfl := Option.some.inj reads
  intro value there
  obtain ⟨source, readsValue⟩ := exists_of_optional readGeneration there
  exact admits_of_readInteger readsValue

end SchedulerStatus

/-! ## Full nodes -/

namespace PodSync

def members (sync : PodSync) : List (String × Bool) :=
  [("inSync", sync.inSync.isSome), ("height", sync.height.isSome), ("error", sync.error.isSome)]

/-- The height of a pod has 64 bits and no sign. -/
def IsSized (sync : PodSync) : Prop :=
  ∀ height ∈ sync.height, Text.Bounds.word64.admits height = true

theorem get?_write (sync : PodSync) :
    sync.write.get? "inSync" = sync.inSync.map .bool ∧
      sync.write.get? "height" = sync.height.map .integer ∧
      sync.write.get? "error" = sync.error.map .text := by
  simp [write, get?_ofFields_whenSome, get?_ofFields_nil]

variable {sync : PodSync}

theorem survives (sized : sync.IsSized) : Survives read write members sync where
  readBack := by
    obtain ⟨inSync, height, error⟩ := sync.get?_write
    have record : sync.write.record? ["inSync", "height", "error"] 0 = some sync.write := rfl
    have readInSync := optional_bool_eq_of_get? inSync
    have readHeight := optional_integer_eq_of_get? height sized
    have readError := optional_text_eq_of_get? error
    simp [read, record, readInSync, readHeight, readError]
  shows := shows_ofFields (by simp [members])

theorem isSized_of_read {json : Json} (reads : read json = some sync) : sync.IsSized := by
  obtain ⟨record, _, reads⟩ := Option.bind_eq_some_iff.1 reads
  obtain ⟨_, _, reads⟩ := Option.bind_eq_some_iff.1 reads
  obtain ⟨height, readHeight, reads⟩ := Option.bind_eq_some_iff.1 reads
  obtain ⟨_, _, reads⟩ := Option.bind_eq_some_iff.1 reads
  obtain rfl := Option.some.inj reads
  intro value there
  obtain ⟨source, readsValue⟩ := exists_of_optional readHeight there
  exact admits_of_readInteger readsValue

end PodSync

namespace HeldPod

def members (_ : HeldPod) : List (String × Bool) := [("podCandidate", true)]

theorem survives (held : HeldPod) : Survives read write members held where
  readBack := by
    have podName : held.write.get? "podCandidate" = some (.text held.podName) := by
      simp [write, get?_ofFields_always, get?_ofFields_nil]
    have record : held.write.record? ["podCandidate"] 1 = some held.write := rfl
    have readName := required_text_eq_of_get? podName
    simp [read, record, readName]
  shows := shows_ofFields (by simp [members])

end HeldPod

theorem NodePhase.read_write (phase : NodePhase) : read phase.write = some phase := by
  cases phase <;> decide

namespace FullNodeStatus

def members (status : FullNodeStatus) : List (String × Bool) :=
  [("observedGeneration", status.observedGeneration.isSome),
    ("phase", true),
    ("statusMessage", status.statusMessage.isSome),
    ("availableReplicas", true),
    ("syncInfo", !status.syncInfo.isEmpty),
    ("scheduledSnapshots", !status.heldPods.isEmpty)]

/-- The numbers of a status have their widths. -/
structure IsSized (status : FullNodeStatus) : Prop where
  observedGeneration : ∀ generation ∈ status.observedGeneration,
    Text.Bounds.int64.admits generation = true
  availableReplicas : Text.Bounds.int32.admits status.availableReplicas = true
  syncInfo : ∀ sync ∈ status.syncInfo.values, sync.IsSized

theorem get?_write (status : FullNodeStatus) :
    status.write.get? "observedGeneration" = status.observedGeneration.map .integer ∧
      status.write.get? "phase" = some status.phase.write ∧
      status.write.get? "statusMessage" = status.statusMessage.map .text ∧
      status.write.get? "availableReplicas" = some (.integer status.availableReplicas) ∧
      status.write.get? "syncInfo" =
        (if status.syncInfo.isEmpty then none else some (ofMap PodSync.write status.syncInfo)) ∧
      status.write.get? "scheduledSnapshots" =
        if status.heldPods.isEmpty then none else some (ofMap HeldPod.write status.heldPods) := by
  simp [write, get?_ofFields_always, get?_ofFields_whenSome, get?_ofFields_whenPopulated,
    get?_ofFields_nil]

variable {status : FullNodeStatus}

theorem survives (sized : status.IsSized) : Survives read write members status where
  readBack := by
    obtain ⟨generation, phase, message, replicas, syncInfo, heldPods⟩ := status.get?_write
    have record : status.write.record? ["observedGeneration", "phase", "statusMessage",
      "availableReplicas", "syncInfo", "scheduledSnapshots"] 0 = some status.write := rfl
    have readGeneration := optional_integer_eq_of_get? generation sized.observedGeneration
    have readPhase : status.write.defaulted "phase" .progressing NodePhase.read =
      some status.phase := defaulted_eq_of_get? phase status.phase.read_write
    have readMessage := optional_text_eq_of_get? message
    have readReplicas : status.write.defaulted "availableReplicas" 0 (readInteger .int32) =
        some status.availableReplicas :=
      defaulted_eq_of_get? replicas (readInteger_integer sized.availableReplicas)
    have readSync := defaulted_empty_eq_of_get? syncInfo fun sync member =>
      (PodSync.survives (sized.syncInfo sync member)).readBack
    have readHeld := defaulted_empty_eq_of_get? heldPods fun held _ => held.survives.readBack
    simp [read, record, readGeneration, readPhase, readMessage, readReplicas, readSync, readHeld]
  shows := shows_ofFields (by simp [members])

/-- A status that was read is sized. -/
theorem isSized_of_read {json : Json} (reads : read json = some status) : status.IsSized := by
  obtain ⟨record, _, reads⟩ := Option.bind_eq_some_iff.1 reads
  obtain ⟨generation, readGeneration, reads⟩ := Option.bind_eq_some_iff.1 reads
  iterate 2 obtain ⟨_, _, reads⟩ := Option.bind_eq_some_iff.1 reads
  obtain ⟨replicas, readReplicas, reads⟩ := Option.bind_eq_some_iff.1 reads
  obtain ⟨syncInfo, readSync, reads⟩ := Option.bind_eq_some_iff.1 reads
  obtain ⟨_, _, reads⟩ := Option.bind_eq_some_iff.1 reads
  obtain rfl := Option.some.inj reads
  refine ⟨fun value there => ?_, ?_, fun sync member => ?_⟩
  · obtain ⟨source, readsValue⟩ := exists_of_optional readGeneration there
    exact admits_of_readInteger readsValue
  · rcases eq_or_exists_of_defaulted readReplicas with absent | ⟨source, readsValue⟩
    · rw [absent]
      rfl
    · exact admits_of_readInteger readsValue
  · rcases eq_or_exists_of_defaulted readSync with absent | ⟨source, readsMap⟩
    · rw [absent] at member
      cases member
    · obtain ⟨_, readsPod⟩ := exists_of_mem_readMap readsMap member
      exact PodSync.isSized_of_read readsPod

end FullNodeStatus

/-! ## Both statuses -/

/-- The statuses of schedulers and of full nodes survive being stored, with all of their parts, if
their times are of the common era; and a status that was read from any value is stored and read
once more without a change. -/
theorem statuses_survive :
    (∀ status : SchedulerStatus, status.IsSized → (∀ time ∈ status.times, time.InCommonEra) →
      Survives SchedulerStatus.read SchedulerStatus.write SchedulerStatus.members status ∧
      (∀ candidate ∈ status.candidate,
        Survives Candidate.read Candidate.write Candidate.members candidate) ∧
      ∀ entry ∈ status.records,
        Survives SnapshotRecord.read SnapshotRecord.write SnapshotRecord.members entry ∧
        ∀ snapshot ∈ entry.status,
          Survives SnapshotStatus.read SnapshotStatus.write SnapshotStatus.members snapshot ∧
          ∀ error ∈ snapshot.error,
            Survives SnapshotError.read SnapshotError.write SnapshotError.members error) ∧
    (∀ status : FullNodeStatus, status.IsSized →
      Survives FullNodeStatus.read FullNodeStatus.write FullNodeStatus.members status ∧
      (∀ sync ∈ status.syncInfo.values,
        Survives PodSync.read PodSync.write PodSync.members sync) ∧
      ∀ held ∈ status.heldPods.values,
        Survives HeldPod.read HeldPod.write HeldPod.members held) ∧
    (∀ (json : Json) (status : SchedulerStatus), SchedulerStatus.read json = some status →
      (∀ time ∈ status.times, time.InCommonEra) →
        ∃ again, SchedulerStatus.read status.write = some again ∧ again = status ∧
          again.write = status.write) ∧
    (∀ (json : Json) (status : FullNodeStatus), FullNodeStatus.read json = some status →
      ∃ again, FullNodeStatus.read status.write = some again ∧ again = status ∧
        again.write = status.write) := by
  refine ⟨fun status sized inEra => ⟨status.survives sized inEra, fun candidate _ =>
      candidate.survives, fun entry member => ?_⟩,
    fun status sized => ⟨status.survives sized, fun sync member =>
      PodSync.survives (sized.syncInfo sync member), fun held _ => held.survives⟩,
    fun json status reads inEra => ?_, fun json status reads => ?_⟩
  · have entryInEra : ∀ time ∈ entry.times, time.InCommonEra :=
      fun time among => inEra time (List.mem_flatMap.2 ⟨entry, member, among⟩)
    refine ⟨SnapshotRecord.survives entryInEra, fun snapshot there => ?_⟩
    have snapshotInEra : ∀ time ∈ snapshot.times, time.InCommonEra :=
      fun time among => entryInEra time (SnapshotRecord.mem_times_of_status there among)
    refine ⟨SnapshotStatus.survives snapshotInEra, fun error given => ?_⟩
    exact SnapshotError.survives fun time among =>
      snapshotInEra time (SnapshotStatus.mem_times_of_error given among)
  · have sized := SchedulerStatus.isSized_of_read reads
    exact ⟨status, (SchedulerStatus.survives sized inEra).readBack, rfl, rfl⟩
  · have sized := FullNodeStatus.isSized_of_read reads
    exact ⟨status, (FullNodeStatus.survives sized).readBack, rfl, rfl⟩

section Example

/-- What is stored of a scheduler that waits for its second snapshot, of which nothing is known
yet.  The members have no order, one is null, and one is not known. -/
def storedScheduler : Json :=
  ofMembers [
    ("phase", .text "WaitingForSnapshotCreation"),
    ("observedGeneration", .integer 4),
    ("statusMessage", .null),
    ("paused", .bool false),
    ("candidate", ofMembers [
      ("podName", .text "cosmoshub-1"),
      ("pvcName", .text "pvc-cosmoshub-1"),
      ("podLabels", ofMembers [("chain", .text "cosmoshub")])]),
    ("lastSnapshot", ofMembers [
      ("name", .text "hourly-20240615130000"),
      ("startedAt", .text "2024-06-15T13:00:00Z")]),
    ("history", .array [ofMembers [
      ("name", .text "hourly-20240615120000"),
      ("startedAt", .text "2024-06-15T14:00:00+02:00"),
      ("status", ofMembers [
        ("creationTime", .text "2024-06-15T12:00:05Z"),
        ("readyToUse", .bool false),
        ("error", ofMembers [("message", .text "quota exceeded")])])]])]

def waitingScheduler : SchedulerStatus where
  observedGeneration := some 4
  phase := .waitingForSnapshotCreation
  statusMessage := none
  candidate := some ⟨"cosmoshub-1", "pvc-cosmoshub-1", .ofList [("chain", "cosmoshub")]⟩
  lastSnapshot := some ⟨"hourly-20240615130000", ⟨1718456400⟩, none⟩
  history := [⟨"hourly-20240615120000", ⟨1718452800⟩, some { SnapshotStatus.empty with
    creationTime := some ⟨1718452805⟩
    readyToUse := some false
    error := some ⟨some "quota exceeded", none⟩ }⟩]

theorem read_storedScheduler : SchedulerStatus.read storedScheduler = some waitingScheduler := by
  decide +kernel

theorem inCommonEra_waitingScheduler : ∀ time ∈ waitingScheduler.times, time.InCommonEra := by
  have times : waitingScheduler.times = [⟨1718456400⟩, ⟨1718452800⟩, ⟨1718452805⟩] := rfl
  rw [times]
  unfold Timestamp.InCommonEra
  decide +kernel

/-- What is stored of a full node whose second pod is held down while the first one follows the
chain. -/
def storedNode : Json :=
  ofMembers [
    ("availableReplicas", .integer 1),
    ("phase", .text "Progressing"),
    ("observedGeneration", .integer 2),
    ("syncInfo", ofMembers [
      ("cosmoshub-0", ofMembers [("inSync", .bool true), ("height", .integer 20931442)]),
      ("cosmoshub-1", ofMembers [("error", .text "connection refused")])]),
    ("scheduledSnapshots", ofMembers [
      ("default.hourly", ofMembers [("podCandidate", .text "cosmoshub-1")])])]

def followingNode : FullNodeStatus where
  observedGeneration := some 2
  phase := .progressing
  statusMessage := none
  availableReplicas := 1
  syncInfo := .ofList [("cosmoshub-0", ⟨some true, some 20931442, none⟩),
    ("cosmoshub-1", ⟨none, none, some "connection refused"⟩)]
  heldPods := .ofList [("default.hourly", ⟨"cosmoshub-1"⟩)]

theorem read_storedNode : FullNodeStatus.read storedNode = some followingNode := by
  decide +kernel

/-- Both statuses survive as they were read, once and again. -/
theorem statuses_survive_of_stored :
    (waitingScheduler.IsSized ∧ (∀ time ∈ waitingScheduler.times, time.InCommonEra) ∧
      Survives SchedulerStatus.read SchedulerStatus.write SchedulerStatus.members
        waitingScheduler) ∧
    (followingNode.IsSized ∧
      Survives FullNodeStatus.read FullNodeStatus.write FullNodeStatus.members followingNode) ∧
    (SchedulerStatus.read storedScheduler = some waitingScheduler ∧
      ∃ again, SchedulerStatus.read waitingScheduler.write = some again ∧
        again = waitingScheduler ∧ again.write = waitingScheduler.write) ∧
    FullNodeStatus.read storedNode = some followingNode ∧
      ∃ again, FullNodeStatus.read followingNode.write = some again ∧
        again = followingNode ∧ again.write = followingNode.write := by
  have sizedScheduler := SchedulerStatus.isSized_of_read read_storedScheduler
  have sizedNode := FullNodeStatus.isSized_of_read read_storedNode
  obtain ⟨schedulers, nodes, schedulersRead, nodesRead⟩ := statuses_survive
  exact ⟨⟨sizedScheduler, inCommonEra_waitingScheduler,
      (schedulers waitingScheduler sizedScheduler inCommonEra_waitingScheduler).1⟩,
    ⟨sizedNode, (nodes followingNode sizedNode).1⟩,
    ⟨read_storedScheduler, schedulersRead storedScheduler waitingScheduler read_storedScheduler
      inCommonEra_waitingScheduler⟩,
    read_storedNode, nodesRead storedNode followingNode read_storedNode⟩

end Example

end NodeFleet.Resource
