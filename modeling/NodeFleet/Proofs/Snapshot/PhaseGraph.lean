import NodeFleet.Proofs.Snapshot.WellFormed

/-!
# The graph of the phases

A pass goes through one phase after another, until one of them waits or halts.  From every
status, also one that no pass leaves, the turns that are left get fewer with each phase, so that
the limit on the phases of a pass is never met.  The phases form a graph with cycles.  All of them
lead through the creation of a snapshot, which ends the pass, but for the one by which a pass that
lacks a candidate goes back and finds one.
-/

namespace NodeFleet.Snapshot

open Calendar Resource Store

variable {round : Round} {status status' middle final : SchedulerStatus}
  {phases : List SnapshotPhase}

/-! ## What a turn does -/

/-- What becomes of a status in a turn that does not halt, by its phase. -/
inductive Advances (status : SchedulerStatus) : Next → SchedulerStatus → Prop
  | waits {status' : SchedulerStatus} {after : Duration} (same : status'.phase = status.phase) :
      Advances status (.wait after) status'
  | fires {status' : SchedulerStatus} (phase : status.phase = .waitingForNext)
      (phase' : status'.phase = .findingCandidate) : Advances status .proceed status'
  | chooses {status' : SchedulerStatus} (phase : status.phase = .findingCandidate)
      (phase' : status'.phase = .deletingPod) (chosen : status'.candidate ≠ none) :
      Advances status .proceed status'
  | goesBack {status' : SchedulerStatus} (phase : status.phase = .deletingPod)
      (lacking : status.candidate = none) (phase' : status'.phase = .findingCandidate) :
      Advances status .proceed status'
  | takesDown {status' : SchedulerStatus} (phase : status.phase = .deletingPod)
      (chosen : status.candidate ≠ none) (phase' : status'.phase = .waitingForPodDeletion) :
      Advances status .proceed status'
  | seesGone {status' : SchedulerStatus} (phase : status.phase = .waitingForPodDeletion)
      (phase' : status'.phase = .creatingSnapshot) : Advances status .proceed status'
  | creates {status' : SchedulerStatus} {after : Duration}
      (phase : status.phase = .creatingSnapshot)
      (phase' : status'.phase = .waitingForSnapshotCreation) :
      Advances status (.wait after) status'
  | completes {status' : SchedulerStatus} (phase : status.phase = .waitingForSnapshotCreation)
      (phase' : status'.phase = .restoringPod) : Advances status .proceed status'
  | restores {status' : SchedulerStatus} (phase : status.phase = .restoringPod)
      (phase' : status'.phase = .waitingForNext) : Advances status .proceed status'
  | wakes {status' : SchedulerStatus}
      (phase : status.phase = .suspended ∨ status.phase = .missingDefinition)
      (phase' : status'.phase = .waitingForNext) : Advances status .proceed status'

/-- Whatever the answers, a turn that does not halt advances. -/
abbrev LeadsAhead (turn : Pass SchedulerStatus Next) (status : SchedulerStatus) : Prop :=
  turn.Leads (Advances status) (fun _ _ => True) status

section Turns

variable {α : Type}

theorem leads_past {done : α → SchedulerStatus → Prop} {pass : Pass SchedulerStatus α}
    (keeps : Keeps (· = status) pass) (holds : ∀ value, done value status) :
    pass.Leads done (fun _ _ => True) status :=
  keeps.leads holds fun _ _ => trivial

theorem leads_isPending_phase (scheduler : Scheduler) :
    (isPending scheduler).Leads (fun _ status' => status'.phase = status.phase)
      (fun _ _ => True) status := by
  apply Pass.leads_bind
  apply Pass.leads_get
  split
  · exact rfl
  · rename_i last recorded
    by_cases ready : last.isReady = true
    · simp only [ready, if_true]
      exact rfl
    · simp only [ready]
      apply Pass.leads_bind
      apply leads_past (keeps_requireSpace scheduler)
      intro space
      apply Pass.leads_bind
      apply leads_past (keeps_attempt _)
      intro snapshot?
      cases snapshot? with
      | none => exact rfl
      | some snapshot => exact rfl

theorem leadsAhead_awaitNext (phase : status.phase = .waitingForNext) :
    LeadsAhead round.awaitNext status := by
  have timed : (timeToNext round.scheduler round.now round.settings.snapshotPoll).Leads
      (fun _ status' => status'.phase = status.phase) (fun _ _ => True) status := by
    apply Pass.leads_bind
    apply leads_past (keeps_orScheduleFault _)
    intro schedule
    apply Pass.leads_bind
    apply (leads_isPending_phase round.scheduler).mono _ fun _ _ _ => trivial
    intro pending looked same
    cases pending with
    | true => exact same
    | false =>
        apply Pass.leads_bind
        apply Pass.leads_get
        exact leads_past (keeps_orScheduleFault _) fun _ => same
  apply Pass.leads_bind
  apply timed.mono _ fun _ _ _ => trivial
  intro wait looked same
  by_cases due : wait = .zero
  · simp only [due, if_true]
    exact .fires phase rfl
  · simp only [due]
    exact .waits same

theorem leadsAhead_chooseCandidate (phase : status.phase = .findingCandidate) :
    LeadsAhead round.chooseCandidate status := by
  apply Pass.leads_bind
  apply leads_past (keeps_attempt _)
  intro node?
  cases node? with
  | none => exact trivial
  | some node =>
      apply Pass.leads_bind
      apply leads_past (keeps_findCandidate _ _ _)
      intro candidate
      exact .chooses phase rfl nofun

theorem leadsAhead_deletePod (phase : status.phase = .deletingPod) :
    LeadsAhead round.deletePod status := by
  apply Pass.leads_bind
  apply Pass.leads_get
  cases chosen : status.candidate with
  | none => exact .goesBack phase chosen rfl
  | some candidate =>
      apply Pass.leads_bind
      apply leads_past (keeps_hold _)
      intro held
      apply Pass.leads_bind
      apply leads_past (keeps_attempt _)
      intro deleted
      apply Pass.leads_bind
      apply leads_past (keeps_notify _ _)
      intro told
      exact .takesDown phase (by simp [chosen]) rfl

/-- A phase that cannot do without a candidate halts if there is none. -/
theorem leads_requireCandidate_past {done : Candidate → SchedulerStatus → Prop}
    (holds : ∀ candidate, done candidate status) :
    requireCandidate.Leads done (fun _ _ => True) status := by
  apply Pass.leads_bind
  apply Pass.leads_get
  cases status.candidate with
  | none => exact trivial
  | some candidate => exact holds candidate

theorem leadsAhead_awaitPodDeletion (phase : status.phase = .waitingForPodDeletion) :
    LeadsAhead round.awaitPodDeletion status := by
  apply Pass.leads_bind
  apply leads_requireCandidate_past
  intro candidate
  apply Pass.leads_bind
  apply leads_past (keeps_hasPod _)
  intro there
  cases there with
  | true => exact .waits rfl
  | false => exact .seesGone phase rfl

theorem leadsAhead_createSnapshot (phase : status.phase = .creatingSnapshot) :
    LeadsAhead round.createSnapshot status := by
  apply Pass.leads_bind
  apply leads_requireCandidate_past
  intro candidate
  apply Pass.leads_bind
  apply leads_past (keeps_takeSnapshot candidate)
  rintro ⟨name, createdAt⟩
  apply Pass.leads_bind
  apply Pass.leads_orUnrecoverable
  · intro startedAt
    exact .creates phase rfl
  · exact trivial

theorem leadsAhead_awaitSnapshot (phase : status.phase = .waitingForSnapshotCreation) :
    LeadsAhead round.awaitSnapshot status := by
  apply Pass.leads_bind
  apply Pass.leads_get
  split
  · exact .completes phase rfl
  · rename_i last recorded
    apply Pass.leads_bind
    apply leads_past (keeps_attempt _)
    intro snapshot?
    cases snapshot? with
    | none => exact .completes phase rfl
    | some snapshot =>
        apply Pass.leads_bind
        apply Pass.leads_modify
        by_cases ready : VolumeSnapshot.isReady snapshot = true
        · simp only [ready, if_true]
          exact .completes phase rfl
        · simp only [ready]
          exact .waits rfl

theorem leadsAhead_restorePod (phase : status.phase = .restoringPod) :
    LeadsAhead round.restorePod status := by
  apply Pass.leads_bind
  apply Pass.leads_get
  cases status.candidate with
  | none => exact .restores phase rfl
  | some candidate =>
      apply Pass.leads_bind
      apply leads_past (keeps_hold _)
      intro released
      apply Pass.leads_bind
      apply leads_past (keeps_hasPod _)
      intro there
      cases there with
      | true =>
          apply Pass.leads_bind
          apply Pass.leads_modify
          apply Pass.leads_bind
          apply Pass.leads_modify
          apply Pass.leads_bind
          apply leads_past keeps_pruneSnapshots
          exact fun _ => .restores phase rfl
      | false => exact .waits phase.symm

theorem leadsAhead_turn : LeadsAhead (round.turn status.phase) status := by
  cases phase : status.phase with
  | waitingForNext => exact leadsAhead_awaitNext phase
  | findingCandidate => exact leadsAhead_chooseCandidate phase
  | deletingPod => exact leadsAhead_deletePod phase
  | waitingForPodDeletion => exact leadsAhead_awaitPodDeletion phase
  | creatingSnapshot => exact leadsAhead_createSnapshot phase
  | waitingForSnapshotCreation => exact leadsAhead_awaitSnapshot phase
  | restoringPod => exact leadsAhead_restorePod phase
  | suspended => exact .wakes (Or.inl phase) rfl
  | missingDefinition => exact .wakes (Or.inr phase) rfl

end Turns

theorem Round.advances_of_mayEnd {next : Next}
    (ends : (round.turn status.phase).MayEnd status (.ok next) status') :
    Advances status next status' :=
  leadsAhead_turn.comesTo ends

/-! ## The turns of a pass -/

/-- The most turns that a pass can take from a status on, the one that ends it included. -/
def turnsLeft (status : SchedulerStatus) : Nat :=
  match status.phase with
  | .creatingSnapshot => 1
  | .waitingForPodDeletion => 2
  | .deletingPod => if status.candidate = none then 5 else 3
  | .findingCandidate => 4
  | .waitingForNext => 5
  | .restoringPod | .suspended | .missingDefinition => 6
  | .waitingForSnapshotCreation => 7

theorem turnsLeft_bounds (status : SchedulerStatus) :
    1 ≤ turnsLeft status ∧ turnsLeft status ≤ 7 := by
  unfold turnsLeft
  split <;> first | decide | (split <;> decide)

/-- With every turn after which the pass goes on, fewer turns are left. -/
theorem Advances.turnsLeft_lt (advances : Advances status .proceed status') :
    turnsLeft status' < turnsLeft status := by
  cases advances with
  | fires phase phase' | seesGone phase phase' | completes phase phase' | restores phase phase' =>
      simp [turnsLeft, phase, phase']
  | chooses phase phase' chosen => simp [turnsLeft, phase, phase', chosen]
  | goesBack phase lacking phase' => simp [turnsLeft, phase, phase', lacking]
  | takesDown phase chosen phase' => simp [turnsLeft, phase, phase', chosen]
  | wakes idle phase' =>
      rcases idle with phase | phase
      · simp [turnsLeft, phase, phase']
      · simp [turnsLeft, phase, phase']

namespace Round

/-- A pass goes from one status to another one through some phases, each of which goes on to the
next. -/
inductive Goes (round : Round) :
    SchedulerStatus → List SnapshotPhase → SchedulerStatus → Prop
  | still (status : SchedulerStatus) : Goes round status [] status
  | onward {status middle final : SchedulerStatus} {phases : List SnapshotPhase}
      (turns : (round.turn status.phase).MayEnd status (.ok .proceed) middle)
      (rest : Goes round middle phases final) :
      Goes round status (status.phase :: phases) final

/-- A pass ends with a turn, which waits or halts. -/
inductive Ends (round : Round) (status : SchedulerStatus) :
    Except (Halt PassError) Action → SchedulerStatus → Prop
  | waits {after : Duration} {status' : SchedulerStatus}
      (turns : (round.turn status.phase).MayEnd status (.ok (.wait after)) status') :
      Ends round status (.ok (.requeue after)) status'
  | halts {halt : Halt PassError} {status' : SchedulerStatus}
      (turns : (round.turn status.phase).MayEnd status (.error halt) status') :
      Ends round status (.error halt) status'

theorem Goes.length_add_turnsLeft_le (goes : round.Goes status phases final) :
    phases.length + turnsLeft final ≤ turnsLeft status := by
  induction goes with
  | still status => simp
  | onward turns rest inductionHypothesis =>
      have fewer := (advances_of_mayEnd turns).turnsLeft_lt
      rw [List.length_cons]
      omega

theorem Goes.length_le (goes : round.Goes status phases final) : phases.length ≤ 6 := by
  have spent := goes.length_add_turnsLeft_le
  have last := turnsLeft_bounds final
  have first := turnsLeft_bounds status
  omega

theorem Goes.not_mem_findingCandidate (goes : round.Goes status phases final)
    (late : turnsLeft status < 4) : .findingCandidate ∉ phases ++ [final.phase] := by
  have early : ∀ status : SchedulerStatus, turnsLeft status < 4 →
      .findingCandidate ≠ status.phase := by
    intro status late phase
    simp [turnsLeft, ← phase] at late
  induction goes with
  | still status => simpa using early status late
  | @onward status middle final phases turns rest inductionHypothesis =>
      have fewer := (advances_of_mayEnd turns).turnsLeft_lt
      rw [List.cons_append, List.mem_cons, not_or]
      exact ⟨early status late, inductionHypothesis (by omega)⟩

/-- As ever fewer turns are left, a pass finds a candidate at most once. -/
theorem Goes.count_findingCandidate_le (goes : round.Goes status phases final) :
    (phases ++ [final.phase]).count .findingCandidate ≤ 1 := by
  induction goes with
  | still status => exact List.count_le_length
  | @onward status middle final phases turns rest inductionHypothesis =>
      rw [List.cons_append]
      by_cases phase : status.phase = .findingCandidate
      · have fewer := (advances_of_mayEnd turns).turnsLeft_lt
        have late : turnsLeft middle < 4 := by simpa [turnsLeft, phase] using fewer
        have noMore := List.count_eq_zero_of_not_mem (rest.not_mem_findingCandidate late)
        rw [phase, List.count_cons_self]
        omega
      · rw [List.count_cons_of_ne phase]
        exact inductionHypothesis

/-- A loop over the phases ends with a turn, or has gone through as many phases as it may. -/
theorem exists_goes_of_advance {limit : Nat} {result : Except (Halt PassError) Action}
    (may : (round.advance limit).MayEnd status result status') :
    (∃ phases middle, round.Goes status phases middle ∧ round.Ends middle result status') ∨
      ∃ phases, round.Goes status phases status' ∧ phases.length = limit := by
  induction limit generalizing status with
  | zero =>
      obtain ⟨_, rfl⟩ := Pass.mayEnd_pure_iff.1 may
      exact Or.inr ⟨[], .still _, rfl⟩
  | succ limit inductionHypothesis =>
      rcases Pass.mayEnd_bind_iff.1 (Pass.mayEnd_get_bind_iff.1 may) with
        ⟨next, middle, turns, goesOn⟩ | ⟨halt, turns, rfl⟩
      · cases next with
        | proceed =>
            rcases inductionHypothesis goesOn with ⟨phases, last, goes, ends⟩ | ⟨phases, goes, all⟩
            · exact Or.inl ⟨_, last, .onward turns goes, ends⟩
            · exact Or.inr ⟨_, .onward turns goes, by rw [List.length_cons, all]⟩
        | wait after =>
            obtain ⟨rfl, rfl⟩ := Pass.mayEnd_pure_iff.1 goesOn
            exact Or.inl ⟨[], status, .still status, .waits turns⟩
      · exact Or.inl ⟨[], status, .still status, .halts turns⟩

end Round

/-! ## The graph -/

/-- Some turn of some scheduler takes it from one phase to another one. -/
def MayFollow (phase phase' : SnapshotPhase) : Prop :=
  phase ≠ phase' ∧ ∃ (round : Round) (status : SchedulerStatus) (next : Next)
    (status' : SchedulerStatus), status.phase = phase ∧
      (round.turn phase).MayEnd status (.ok next) status' ∧ status'.phase = phase'

/-- Phases each of which may follow the one before it, and the first of which the last. -/
def IsCycle : List SnapshotPhase → Prop
  | [] => False
  | first :: rest => (first :: (rest ++ [first])).IsChain MayFollow

/-- How far a phase is on the way to the creation of a snapshot, which no turn but that one
lowers. -/
def headway : SnapshotPhase → Nat
  | .waitingForSnapshotCreation => 0
  | .restoringPod | .suspended | .missingDefinition => 1
  | .waitingForNext => 2
  | .findingCandidate | .deletingPod => 3
  | .waitingForPodDeletion => 4
  | .creatingSnapshot => 5

/-- A pod is being looked for, or is about to be taken down. -/
def IsPicking (phase : SnapshotPhase) : Prop :=
  phase = .findingCandidate ∨ phase = .deletingPod

theorem Advances.phase_ne (advances : Advances status .proceed status') :
    status.phase ≠ status'.phase := by
  cases advances with
  | fires phase phase' | chooses phase phase' | seesGone phase phase' | completes phase phase'
  | restores phase phase' => simp [phase, phase']
  | goesBack phase _ phase' | takesDown phase _ phase' => simp [phase, phase']
  | wakes idle phase' =>
      rcases idle with phase | phase
      · simp [phase, phase']
      · simp [phase, phase']

/-- The phases that a pass goes through follow on each other. -/
theorem Round.Goes.isChain (goes : round.Goes status phases final) :
    (phases ++ [final.phase]).IsChain MayFollow := by
  induction goes with
  | still status => exact .singleton _
  | @onward status middle final phases turns rest inductionHypothesis =>
      have follows : MayFollow status.phase middle.phase :=
        ⟨(advances_of_mayEnd turns).phase_ne, round, status, .proceed, middle, rfl, turns, rfl⟩
      cases rest with
      | still => exact .cons_cons follows (.singleton _)
      | onward _ _ => exact .cons_cons follows inductionHypothesis

theorem MayFollow.headway_lt_or {phase phase' : SnapshotPhase} (follows : MayFollow phase phase')
    (other : phase ≠ .creatingSnapshot) :
    headway phase < headway phase' ∨ headway phase = headway phase' ∧ IsPicking phase := by
  obtain ⟨different, round, status, next, status', rfl, ends, rfl⟩ := follows
  cases Round.advances_of_mayEnd ends with
  | waits same => exact absurd same.symm different
  | fires phase phase' | seesGone phase phase' | completes phase phase' | restores phase phase' =>
      simp [headway, phase, phase']
  | takesDown phase _ phase' => simp [headway, phase, phase']
  | chooses phase phase' => simp [headway, phase, phase', IsPicking]
  | goesBack phase _ phase' => simp [headway, phase, phase', IsPicking]
  | creates phase => exact absurd phase other
  | wakes idle phase' =>
      rcases idle with phase | phase
      · simp [headway, phase, phase']
      · simp [headway, phase, phase']

/-- Phases that follow on each other, without the creation of a snapshot, get ahead, or all of
them are about the pod to take down. -/
theorem headway_lt_or_of_isChain {first last : SnapshotPhase} {rest : List SnapshotPhase}
    (chain : (first :: (rest ++ [last])).IsChain MayFollow)
    (others : .creatingSnapshot ∉ first :: rest) :
    headway first < headway last ∨
      headway first = headway last ∧ ∀ phase ∈ first :: rest, IsPicking phase := by
  rw [List.mem_cons, not_or] at others
  obtain ⟨other, others⟩ := others
  induction rest generalizing first with
  | nil =>
      have follows : MayFollow first last := by simpa using chain
      simpa using follows.headway_lt_or (Ne.symm other)
  | cons second rest inductionHypothesis =>
      rw [List.cons_append, List.isChain_cons_cons] at chain
      rw [List.mem_cons, not_or] at others
      have ahead := chain.1.headway_lt_or (Ne.symm other)
      rcases inductionHypothesis chain.2 others.1 others.2 with further | ⟨level, picking⟩
      · left
        omega
      · rcases ahead with further | ⟨same, picks⟩
        · left
          omega
        · exact Or.inr ⟨same.trans level, List.forall_mem_cons.2 ⟨picks, picking⟩⟩

/-- A cycle that leads past the creation of a snapshot is about the pod to take down. -/
theorem IsCycle.creates_or_isPicking (cycle : IsCycle phases) :
    .creatingSnapshot ∈ phases ∨ ∀ phase ∈ phases, IsPicking phase := by
  cases phases with
  | nil => exact cycle.elim
  | cons first rest =>
      by_cases creates : .creatingSnapshot ∈ first :: rest
      · exact Or.inl creates
      · rcases headway_lt_or_of_isChain cycle creates with further | ⟨_, picking⟩
        · exact absurd further (Nat.lt_irrefl _)
        · exact Or.inr picking

/-! ## The limit -/

/-- A turn that creates a snapshot ends the pass. -/
theorem Round.not_proceeds_of_creates (phase : status.phase = .creatingSnapshot) :
    ¬ (round.turn status.phase).MayEnd status (.ok .proceed) status' := by
  intro turns
  cases advances_of_mayEnd turns with
  | wakes idle =>
      rw [phase] at idle
      exact idle.elim nofun nofun
  | _ other => exact nomatch phase.symm.trans other

/-- A turn that is to take a pod down goes back to find one only if it lacks a candidate. -/
theorem Round.lacks_of_goesBack {next : Next} (phase : status.phase = .deletingPod)
    (turns : (round.turn status.phase).MayEnd status (.ok next) status')
    (back : status'.phase = .findingCandidate) : status.candidate = none := by
  cases advances_of_mayEnd turns with
  | waits same => exact nomatch phase.symm.trans (same.symm.trans back)
  | goesBack _ lacking => exact lacking
  | takesDown _ _ phase' | wakes _ phase' => exact nomatch back.symm.trans phase'
  | _ other => exact nomatch phase.symm.trans other

/-- A turn that finds a candidate and goes on has it in the status. -/
theorem Round.chooses_of_proceeds (phase : status.phase = .findingCandidate)
    (turns : (round.turn status.phase).MayEnd status (.ok .proceed) status') :
    status'.phase = .deletingPod ∧ status'.candidate ≠ none := by
  cases advances_of_mayEnd turns with
  | chooses _ phase' chosen => exact ⟨phase', chosen⟩
  | wakes idle =>
      rw [phase] at idle
      exact idle.elim nofun nofun
  | _ other => exact nomatch phase.symm.trans other

/-- Whatever its status and whatever the cluster answers, a pass goes on after at most six turns
and ends with the next one, which waits or halts.  A cycle of phases leads through the creation of
a snapshot, which ends the pass, or it only finds a candidate and is about to take it down.  Of
that cycle a pass takes the way back only if it lacks a candidate, which it then finds, and so at
most once. -/
theorem passes_end_within_seven_turns (round : Round) (status : SchedulerStatus) :
    (∀ phases final, round.Goes status phases final →
      phases.length ≤ 6 ∧ (phases ++ [final.phase]).count .findingCandidate ≤ 1) ∧
    (∀ result status', (round.advance phaseLimit).MayEnd status result status' →
      ∃ phases middle, round.Goes status phases middle ∧ phases.length ≤ 6 ∧
        round.Ends middle result status') ∧
    (∀ phases, IsCycle phases → .creatingSnapshot ∈ phases ∨ ∀ phase ∈ phases, IsPicking phase) ∧
    (status.phase = .creatingSnapshot →
      ∀ status', ¬ (round.turn status.phase).MayEnd status (.ok .proceed) status') ∧
    (status.phase = .deletingPod →
      ∀ next status', (round.turn status.phase).MayEnd status (.ok next) status' →
        status'.phase = .findingCandidate → status.candidate = none) ∧
    (status.phase = .findingCandidate →
      ∀ status', (round.turn status.phase).MayEnd status (.ok .proceed) status' →
        status'.phase = .deletingPod ∧ status'.candidate ≠ none) := by
  refine ⟨fun phases final goes => ⟨goes.length_le, goes.count_findingCandidate_le⟩, ?_,
    fun phases cycle => cycle.creates_or_isPicking,
    fun phase status' => Round.not_proceeds_of_creates phase,
    fun phase next status' turns back => Round.lacks_of_goesBack phase turns back,
    fun phase status' turns => Round.chooses_of_proceeds phase turns⟩
  intro result status' may
  rcases Round.exists_goes_of_advance may with ⟨phases, middle, goes, ends⟩ | ⟨phases, goes, all⟩
  · exact ⟨phases, middle, goes, goes.length_le, ends⟩
  · have short := goes.length_le
    rw [all] at short
    exact absurd short (by decide)

section Example

/-- The hourly scheduler at one o'clock. -/
def sampleRound : Round := roundOf hourly .standard (.ofSeconds 3600)

/-- How a turn of the hourly scheduler ends where no call fails. -/
def sampleTurn (point : SchedulerStatus × Ledger) :
    (Except (Halt PassError) Next × SchedulerStatus) × Ledger :=
  ((sampleRound.turn point.1.phase).run.run point.1 : Program _).run
    (Program.serve fun _ => false) point.2

/-- Where the scheduler is after some turns. -/
def afterTurns : Nat → SchedulerStatus × Ledger → SchedulerStatus × Ledger
  | 0, point => point
  | turns + 1, point => afterTurns turns ((sampleTurn point).1.2, (sampleTurn point).2)

/-- The phases of some turns. -/
def phasesOf : Nat → SchedulerStatus × Ledger → List SnapshotPhase
  | 0, _ => []
  | turns + 1, point =>
      point.1.phase :: phasesOf turns ((sampleTurn point).1.2, (sampleTurn point).2)

/-- Whether the scheduler goes on after each of some turns. -/
def goesOn : Nat → SchedulerStatus × Ledger → Bool
  | 0, _ => true
  | turns + 1, point =>
      (match (sampleTurn point).1.1 with
        | .ok .proceed => true
        | _ => false) &&
      goesOn turns ((sampleTurn point).1.2, (sampleTurn point).2)

theorem mayEnd_sampleTurn (point : SchedulerStatus × Ledger) :
    (sampleRound.turn point.1.phase).MayEnd point.1 (sampleTurn point).1.1
      (sampleTurn point).1.2 :=
  Program.mayGive_run _ point.2

theorem goes_phasesOf {turns : Nat} {point : SchedulerStatus × Ledger}
    (proceeds : goesOn turns point = true) :
    sampleRound.Goes point.1 (phasesOf turns point) (afterTurns turns point).1 := by
  induction turns generalizing point with
  | zero => exact .still point.1
  | succ turns inductionHypothesis =>
      obtain ⟨first, rest⟩ := Bool.and_eq_true_iff.1 proceeds
      refine .onward ?_ (inductionHypothesis rest)
      have ends := mayEnd_sampleTurn point
      split at first
      · rename_i proceeds
        rwa [proceeds] at ends
      · cases first

/-- A scheduler that waits for a snapshot of which it has no record. -/
def longestPoint : SchedulerStatus × Ledger :=
  ({ SchedulerStatus.initial with phase := .waitingForSnapshotCreation }, .opened sampleCluster)

theorem course_longestPoint :
    goesOn 6 longestPoint = true ∧
      phasesOf 6 longestPoint = [.waitingForSnapshotCreation, .restoringPod, .waitingForNext,
        .findingCandidate, .deletingPod, .waitingForPodDeletion] ∧
      (afterTurns 6 longestPoint).1.phase = .creatingSnapshot := by
  decide +kernel

/-- The whole pass of that scheduler. -/
def longestPass : (Except (Halt PassError) Action × SchedulerStatus) × Ledger :=
  ((sampleRound.advance phaseLimit).run.run longestPoint.1 : Program _).run
    (Program.serve fun _ => false) longestPoint.2

theorem mayEnd_longestPass :
    (sampleRound.advance phaseLimit).MayEnd longestPoint.1 longestPass.1.1 longestPass.1.2 :=
  Program.mayGive_run _ longestPoint.2

/-- A pass that goes on after six turns, and creates a snapshot in the seventh, ends as stated. -/
theorem passes_end_within_seven_turns_of_longest :
    (sampleRound.Goes longestPoint.1 (phasesOf 6 longestPoint) (afterTurns 6 longestPoint).1 ∧
      (phasesOf 6 longestPoint).length = 6 ∧
      (phasesOf 6 longestPoint ++ [(afterTurns 6 longestPoint).1.phase]).count
        .findingCandidate ≤ 1) ∧
    (∃ phases middle, sampleRound.Goes longestPoint.1 phases middle ∧ phases.length ≤ 6 ∧
      sampleRound.Ends middle longestPass.1.1 longestPass.1.2) ∧
    (afterTurns 6 longestPoint).1.phase = .creatingSnapshot ∧
    ∀ status', ¬ (sampleRound.turn (afterTurns 6 longestPoint).1.phase).MayEnd
      (afterTurns 6 longestPoint).1 (.ok .proceed) status' := by
  obtain ⟨proceeds, passed, creates⟩ := course_longestPoint
  have goes := goes_phasesOf proceeds
  have longest := passes_end_within_seven_turns sampleRound longestPoint.1
  have last := passes_end_within_seven_turns sampleRound (afterTurns 6 longestPoint).1
  refine ⟨⟨goes, by rw [passed]; rfl, (longest.1 _ _ goes).2⟩, ?_, creates, ?_⟩
  · exact longest.2.1 _ _ mayEnd_longestPass
  · exact last.2.2.2.1 creates

/-! ## A candidate that is lacking -/

/-- Every cycle of phases leads through the creation of a snapshot. -/
def EveryCycleCreates : Prop := ∀ phases, IsCycle phases → .creatingSnapshot ∈ phases

/-- A scheduler that is about to take a pod down, but lacks a candidate. -/
def lackingPoint : SchedulerStatus × Ledger :=
  ({ SchedulerStatus.initial with phase := .deletingPod }, .opened sampleCluster)

/-- Where a candidate is lacking, it is found and the pod is about to be taken down again, and
no snapshot is created in between. -/
theorem not_everyCycleCreates_of_lacking : ¬ EveryCycleCreates := by
  intro creates
  have course : goesOn 2 lackingPoint = true ∧
      phasesOf 2 lackingPoint = [.deletingPod, .findingCandidate] ∧
      (afterTurns 2 lackingPoint).1.phase = .deletingPod := by
    decide +kernel
  obtain ⟨proceeds, passed, back⟩ := course
  have cycle : IsCycle [.deletingPod, .findingCandidate] := by
    have chain := (goes_phasesOf proceeds).isChain
    rwa [passed, back] at chain
  exact absurd (creates _ cycle) (by decide)

end Example

end NodeFleet.Snapshot
