import ClaudeHub.TaskExecution.Changes

/-! # Runtime activity of an initiator's task

What a session streams is stored with its task. How far a stream was read is kept in memory, and
an observation that changes nothing visible is not saved, so a restart reads the mark from the
task again. A handoff, or progress that binds another reference, clears the observation.
-/

namespace ClaudeHub.TaskActivity

open StepSystem

/-- The manager, with `_task_activity_cursors` of the task: an epoch and a sequence. -/
structure ActivityHub where
  hub : ExecutionHub := {}
  cursor : Option (Nat × Nat) := none
  deriving DecidableEq

def mark (cursor : Option (Nat × Nat)) (task : TaskRecord) : Int :=
  match task.runtimeObservation with
  | none => -1
  | some previous =>
    let (epoch, cursor) : Nat × Int :=
      (cursor.map fun (epoch, cursor) => (epoch, (cursor : Int))).getD (task.executionEpoch, -1)
    if epoch ≠ task.executionEpoch then -1
    else if previous.streamSequence > cursor then previous.streamSequence else cursor

def visible (observation : TaskRuntimeObservation) : String × Option TurnId × Option String :=
  (observation.status, observation.turnId, observation.detail)

def ActivityHub.recordTaskActivity (self : ActivityHub) (taskId : TaskId)
    (ref : TaskExecutionReference) (observation : TaskRuntimeObservation) (outcome : SaveOutcome) :
    ActivityHub × Except ExecutionError Bool :=
  match self.hub.live.requireWorkspaceTask taskId with
  | .error error => (self, .error error)
  | .ok task =>
    if task.executionControl ≠ .initiator ∨ task.executionReleased = true ∨
        observation.executionEpoch ≠ task.executionEpoch ∨ truthy ref.sessionId = none ∨
        some ref ≠ task.executionRef then
      (self, .ok false)
    else if observation.streamSequence ≤ mark self.cursor task then (self, .ok false)
    else
      let cursor := some (task.executionEpoch, observation.streamSequence)
      if task.runtimeObservation.map visible = some (visible observation) then
        ({ self with cursor }, .ok false)
      else
        let tasks := self.hub.live.tasks.insert { task with runtimeObservation := some observation }
        let written :=
          { self.hub with live := { self.hub.live with tasks } }.saveWorkspaceState outcome
        if outcome.raises then
          ({ self with hub := { written with live := self.hub.live } }, .error .saveFailed)
        else ({ hub := written, cursor }, .ok true)

/-- A handoff, or progress that binds another reference. -/
def Resets (task : TaskRecord) : ExecutionRequest → Prop
  | .progress payload _ manual =>
    manual = false ∧ ∃ ref, payload.executionRef.join = some ref ∧ task.executionRef ≠ some ref
  | .handoff _ => True

def observed (tasks : TaskRecordTable) (taskId : TaskId) : Option (Nat × TaskRuntimeObservation) :=
  (tasks.get? taskId).bind fun task => task.runtimeObservation.map (task.executionEpoch, ·)

/-- An observation that is there was there before, in the same epoch. -/
def Keeps (taskId : TaskId) (tasks next : TaskRecordTable) : Prop :=
  observed next taskId = none ∨ observed next taskId = observed tasks taskId

instance (taskId : TaskId) (tasks next : TaskRecordTable) :
    Decidable (Keeps taskId tasks next) := by
  unfold Keeps
  infer_instance

/-- The manager, with the observations stored since the last reset, and the sequences accepted
since then by the process. -/
structure ActivityRun where
  self : ActivityHub := {}
  stored : List TaskRuntimeObservation := []
  accepted : List Nat := []
  deriving DecidableEq

inductive ActivityOp
  | record (ref : TaskExecutionReference) (observation : TaskRuntimeObservation)
      (outcome : SaveOutcome)
  | request (request : ExecutionRequest) (now : Time) (outcome : SaveOutcome)
  | elsewhere (next : ExecutionManager)
  | save (outcome : SaveOutcome)
  | undone (next : ExecutionManager)
  | restart

namespace ActivityRun

def settle (taskId : TaskId) (run : ActivityRun) : ActivityRun :=
  if observed run.self.hub.live.tasks taskId = none then { run with stored := [], accepted := [] }
  else run

def record (run : ActivityRun) (taskId : TaskId) (ref : TaskExecutionReference)
    (observation : TaskRuntimeObservation) (outcome : SaveOutcome) : ActivityRun :=
  let (self, answer) := run.self.recordTaskActivity taskId ref observation outcome
  let isStored := answer.toOption = some true
  { self := self
    stored := if isStored then run.stored ++ [observation] else run.stored
    accepted :=
      if isStored ∨ self.cursor ≠ run.self.cursor then
        run.accepted ++ [observation.streamSequence]
      else run.accepted }

def step (sha256 : String → String) (taskId : TaskId) (run : ActivityRun) :
    ActivityOp → Option ActivityRun
  | .record ref observation outcome =>
    some ((run.record taskId ref observation outcome).settle taskId)
  | .request request now outcome =>
    let hub := (run.self.hub.answer sha256 taskId request now outcome).1
    some ({ run with self := { run.self with hub } }.settle taskId)
  | .elsewhere next =>
    if Keeps taskId run.self.hub.live.tasks next.tasks then
      some ({ run with
        self := { run.self with hub := { run.self.hub with live := next } } }.settle taskId)
    else none
  | .save outcome =>
    some { run with self := { run.self with hub := run.self.hub.saveWorkspaceState outcome } }
  | .undone next =>
    if Keeps taskId run.self.hub.live.tasks next.tasks then
      some { run with self := { run.self with
        hub := { run.self.hub with saved := next.workspaceStatePayload } } }
    else none
  | .restart =>
    match run.self.hub.restart with
    | .ok hub => some ({ run with self := ⟨hub, none⟩, accepted := [] }.settle taskId)
    | .error _ => none

end ActivityRun

variable {sha256 : String → String} {taskId : TaskId} {owner : ActivityHub}
  {ref : TaskExecutionReference} {observation previous : TaskRuntimeObservation}
  {outcome : SaveOutcome} {task : TaskRecord} {run : ActivityRun} {tasks : TaskRecordTable}

/-- An observation that is above the mark of its own epoch and reference. -/
structure Accepts (owner : ActivityHub) (taskId : TaskId) (ref : TaskExecutionReference)
    (observation : TaskRuntimeObservation) (task : TaskRecord) : Prop where
  found : owner.hub.live.tasks.get? taskId = some task
  epoch : observation.executionEpoch = task.executionEpoch
  executionRef : task.executionRef = some ref
  above : mark owner.cursor task < observation.streamSequence

def stores (owner : ActivityHub) (task : TaskRecord) (observation : TaskRuntimeObservation) :
    ExecutionManager :=
  { owner.hub.live with
    tasks := owner.hub.live.tasks.insert { task with runtimeObservation := some observation } }

theorem record_cases (owner : ActivityHub) (taskId : TaskId) (ref : TaskExecutionReference)
    (observation : TaskRuntimeObservation) (outcome : SaveOutcome) :
    (∃ answer, owner.recordTaskActivity taskId ref observation outcome = (owner, answer) ∧
      answer ≠ .ok true) ∨
    ∃ task, Accepts owner taskId ref observation task ∧
      ((task.runtimeObservation.isSome = true ∧
          owner.recordTaskActivity taskId ref observation outcome =
            ({ owner with cursor := some (task.executionEpoch, observation.streamSequence) },
              .ok false)) ∨
        owner.recordTaskActivity taskId ref observation outcome =
          ({ hub := owner.hub.commitEnds (stores owner task observation) outcome
             cursor := if outcome.raises then owner.cursor
               else some (task.executionEpoch, observation.streamSequence) },
            if outcome.raises then .error .saveFailed else .ok true)) := by
  unfold ActivityHub.recordTaskActivity
  cases htask : owner.hub.live.requireWorkspaceTask taskId with
  | error error => exact .inl ⟨_, rfl, nofun⟩
  | ok task =>
    dsimp only
    split
    · exact .inl ⟨_, rfl, by simp⟩
    next hguards =>
      split
      · exact .inl ⟨_, rfl, by simp⟩
      next hmark =>
        simp only [not_or, not_not] at hguards
        refine .inr ⟨task, ⟨requireWorkspaceTask_ok htask, hguards.2.2.1, hguards.2.2.2.2.symm,
          not_le.mp hmark⟩, ?_⟩
        split
        next hsame =>
          obtain ⟨previous, hprevious, -⟩ := Option.map_eq_some_iff.mp hsame
          exact .inl ⟨by rw [hprevious]; rfl, rfl⟩
        · cases outcome <;> exact .inr rfl

theorem le_mark {cursor : Option (Nat × Nat)} (h : task.runtimeObservation = some previous)
    (hepoch : ∀ entry ∈ cursor, entry.1 = task.executionEpoch) :
    (previous.streamSequence : Int) ≤ mark cursor task ∧
      ∀ entry ∈ cursor, (entry.2 : Int) ≤ mark cursor task := by
  cases cursor with
  | none =>
    simp only [mark, h, Option.map_none, Option.getD_none, ne_eq, not_true_eq_false, if_false]
    refine ⟨?_, nofun⟩
    split <;> omega
  | some entry =>
    obtain ⟨epoch, sequence⟩ := entry
    obtain rfl : epoch = task.executionEpoch := hepoch _ rfl
    simp only [mark, h, Option.map_some, Option.getD_some, ne_eq, not_true_eq_false, if_false,
      Option.mem_some_iff, forall_eq']
    constructor <;> split <;> omega

theorem observed_of_get? (h : tasks.get? taskId = some task)
    (hprevious : task.runtimeObservation = some previous) :
    observed tasks taskId = some (task.executionEpoch, previous) := by
  simp [observed, h, hprevious]

theorem observed_stores (h : owner.hub.live.tasks.get? taskId = some task) :
    observed (stores owner task observation).tasks taskId =
      some (task.executionEpoch, observation) := by
  obtain rfl := id_of_get? h
  have hget := Table.get?_insert_self owner.hub.live.tasks
    { task with runtimeObservation := some observation }
  have hobserved := observed_of_get? hget rfl
  exact hobserved

theorem intake_keeps {request : ExecutionRequest} {manager : ExecutionManager} {now : Time}
    {change : ExecutionChange}
    (h : request.intake manager sha256 taskId now = .ok (.change change)) :
    ∃ task, manager.tasks.get? taskId = some task ∧
      ((change.next.runtimeObservation = none ∧ Resets task request) ∨
        (change.next.runtimeObservation = task.runtimeObservation ∧
          change.next.executionEpoch = task.executionEpoch)) := by
  cases request with
  | handoff =>
    obtain ⟨_, task, -, hfound, htask, -⟩ := handoffIntake_applies h
    exact ⟨task, hfound, .inl ⟨by rw [ExecutionChange.next, htask]; rfl, trivial⟩⟩
  | progress payload reporterKey manual =>
    obtain ⟨task, hfound, htask, -⟩ := progressIntake_applies h
    obtain ⟨-, hepoch, -⟩ := applyProgress_fence task payload manual now
    refine ⟨task, hfound, ?_⟩
    simp only [ExecutionChange.next, htask, hepoch, and_true]
    unfold TaskRecord.applyProgress
    cases manual with
    | true => exact .inr (by cases payload.state <;> rfl)
    | false =>
      cases href : payload.executionRef.join with
      | none => exact .inr (by cases payload.state <;> rfl)
      | some ref =>
        by_cases hsame : task.executionRef = some ref
        · exact .inr (by cases payload.state <;> simp [hsame])
        · exact .inl ⟨by cases payload.state <;> simp [hsame], rfl, ref, href, hsame⟩

theorem answer_keeps (hub : ExecutionHub) (sha256 : String → String) (taskId : TaskId)
    (request : ExecutionRequest) (now : Time) (outcome : SaveOutcome) :
    ∃ next : ExecutionManager,
      (observed next.tasks taskId = observed hub.live.tasks taskId ∨
        observed next.tasks taskId = none ∧
          ∃ task, hub.live.tasks.get? taskId = some task ∧ Resets task request) ∧
      ((hub.answer sha256 taskId request now outcome).1 = hub ∨
        (hub.answer sha256 taskId request now outcome).1 = hub.commitEnds next outcome) := by
  unfold ExecutionHub.answer
  cases hintake : request.intake hub.live sha256 taskId now with
  | error => exact ⟨hub.live, .inl rfl, .inl rfl⟩
  | ok intake =>
    cases intake with
    | replay => exact ⟨hub.live, .inl rfl, .inl rfl⟩
    | change change =>
      obtain ⟨_, hchange⟩ := intake_change hintake
      obtain ⟨event, mailbox, -, hcommit⟩ :=
        commitExecutionChange_spec hub change now outcome (hchange.callId ▸ hchange.fresh)
      refine ⟨hub.live.committed change mailbox, ?_, .inr ?_⟩
      · have hget := committed_get? hub.live mailbox hchange.id
        obtain ⟨task, hfound, ⟨hnone, hreset⟩ | ⟨hsame, hepoch⟩⟩ := intake_keeps hintake
        · exact .inr ⟨by simp [observed, hget, hnone], task, hfound, hreset⟩
        · exact .inl (by simp [observed, hget, hfound, hsame, hepoch])
      · simp only [hcommit]
        cases outcome <;> rfl

theorem observed_load {state : ExecutionState} {manager : ExecutionManager} {epoch : Nat}
    (h : state.load = .ok manager)
    (hlive : observed manager.tasks taskId = some (epoch, previous)) :
    ∃ saved, observed state.tasks taskId = some (epoch, saved) ∧
      saved.streamSequence = previous.streamSequence := by
  rw [observed, (executionLoad_spec h).tasks] at hlive
  obtain ⟨loaded, hloaded, hpair⟩ := Option.bind_eq_some_iff.mp hlive
  obtain ⟨task, htask, rfl⟩ := Option.map_eq_some_iff.mp hloaded
  obtain ⟨_, hprevious, heq⟩ := Option.map_eq_some_iff.mp hpair
  cases heq
  unfold TaskRecord.normalizeTaskItem at hprevious ⊢
  split at hprevious
  next hcontrol =>
    obtain ⟨saved, hsaved, rfl⟩ := Option.map_eq_some_iff.mp hprevious
    refine ⟨saved, by rw [if_pos hcontrol, observed_of_get? htask hsaved], ?_⟩
    split <;> rfl
  next hcontrol => exact ⟨_, by rw [if_neg hcontrol, observed_of_get? htask hprevious], rfl⟩

/-- What is above an observation and its cursor is above all that was stored and accepted. -/
structure Covers (noted : Option (Nat × Nat)) (before : List TaskRuntimeObservation)
    (sequences : List Nat) (epoch : Nat) (previous : TaskRuntimeObservation) : Prop where
  stored : ∀ other ∈ before, other.streamSequence ≤ previous.streamSequence
  cursor : ∀ entry ∈ noted, entry.1 = epoch
  accepted : ∀ sequence ∈ sequences, ∃ entry ∈ noted, sequence ≤ entry.2

structure Inv (taskId : TaskId) (run : ActivityRun) : Prop where
  live : ∀ epoch previous, observed run.self.hub.live.tasks taskId = some (epoch, previous) →
    Covers run.self.cursor run.stored run.accepted epoch previous
  saved : ∀ epoch previous, observed run.self.hub.saved.tasks taskId = some (epoch, previous) →
    ∀ other ∈ run.stored, other.streamSequence ≤ previous.streamSequence
  increasing : run.stored.Pairwise fun a b => a.streamSequence < b.streamSequence
  cleared : observed run.self.hub.live.tasks taskId = none → run.stored = [] ∧ run.accepted = []

theorem Inv.settle
    (hlive : observed run.self.hub.live.tasks taskId ≠ none → Inv taskId run) :
    Inv taskId (run.settle taskId) := by
  unfold ActivityRun.settle
  split
  next hnone =>
    exact ⟨fun _ _ h => absurd (hnone.symm.trans h) nofun, fun _ _ _ _ => nofun, .nil,
      fun _ => ⟨rfl, rfl⟩⟩
  next hsome => exact hlive hsome

variable {next : ExecutionManager}

theorem Inv.covers (h : Inv taskId run) {epoch : Nat}
    (hkeeps : Keeps taskId run.self.hub.live.tasks next.tasks)
    (hnext : observed next.tasks taskId = some (epoch, previous)) :
    Covers run.self.cursor run.stored run.accepted epoch previous := by
  rcases hkeeps with hnone | hsame
  · exact absurd (hnone.symm.trans hnext) nofun
  · exact h.live epoch previous (hsame.symm.trans hnext)

theorem Inv.writes (h : Inv taskId run) (hkeeps : Keeps taskId run.self.hub.live.tasks next.tasks) :
    Inv taskId { run with self := { run.self with
      hub := { run.self.hub with saved := next.workspaceStatePayload } } } :=
  { h with saved := fun _ _ hsaved => (h.covers hkeeps hsaved).stored }

theorem Inv.moves (h : Inv taskId run) (hkeeps : Keeps taskId run.self.hub.live.tasks next.tasks) :
    Inv taskId ({ run with self := { run.self with
      hub := { run.self.hub with live := next } } }.settle taskId) :=
  .settle fun hsome =>
    { h with
      live := fun _ _ hlive => h.covers hkeeps hlive
      cleared := fun hnone => absurd hnone hsome }

theorem Inv.ends (h : Inv taskId run) (outcome : SaveOutcome)
    (hkeeps : Keeps taskId run.self.hub.live.tasks next.tasks) :
    Inv taskId ({ run with self := { run.self with
      hub := run.self.hub.commitEnds next outcome } }.settle taskId) := by
  cases outcome with
  | saved => exact (h.writes hkeeps).moves hkeeps
  | notReplaced => exact .settle fun _ => h
  | replacedThenRaised => exact .settle fun _ => h.writes hkeeps

theorem Inv.above (h : Inv taskId run) (haccepts : Accepts run.self taskId ref observation task) :
    (∀ other ∈ run.stored, other.streamSequence < observation.streamSequence) ∧
      ∀ sequence ∈ run.accepted, sequence < observation.streamSequence := by
  cases hprevious : task.runtimeObservation with
  | none =>
    have hnone : observed run.self.hub.live.tasks taskId = none := by
      simp [observed, haccepts.found, hprevious]
    obtain ⟨hstored, haccepted⟩ := h.cleared hnone
    simp [hstored, haccepted]
  | some previous =>
    have hcovers := h.live _ _ (observed_of_get? haccepts.found hprevious)
    obtain ⟨hmark, hcursor⟩ := le_mark hprevious hcovers.cursor
    have habove := haccepts.above
    refine ⟨fun other hother => ?_, fun sequence hsequence => ?_⟩
    · have hle := hcovers.stored other hother
      omega
    · obtain ⟨entry, hentry, hle⟩ := hcovers.accepted sequence hsequence
      have hmarked := hcursor entry hentry
      omega

theorem Inv.record (h : Inv taskId run) (ref : TaskExecutionReference)
    (observation : TaskRuntimeObservation) (outcome : SaveOutcome) :
    Inv taskId ((run.record taskId ref observation outcome).settle taskId) := by
  refine .settle fun hsome => ?_
  revert hsome
  unfold ActivityRun.record
  rcases record_cases run.self taskId ref observation outcome with
    ⟨answer, hcall, hanswer⟩ | ⟨task, haccepts, ⟨hprevious, hcall⟩ | hcall⟩
  · have hfalse : answer.toOption ≠ some true := fun htrue => by
      cases answer with
      | error => cases htrue
      | ok => exact hanswer (congrArg _ (Option.some.inj htrue))
    simpa [hcall, hfalse] using fun _ => h
  · obtain ⟨previous, hprevious⟩ := Option.isSome_iff_exists.mp hprevious
    have hobserved := observed_of_get? haccepts.found hprevious
    have hcovers := h.live _ _ hobserved
    have habove := (h.above haccepts).2
    rw [hcall]
    intro _
    refine ⟨fun epoch other hother => ?_, h.saved, h.increasing, fun hnone =>
      absurd (hnone.symm.trans hobserved) (by simp)⟩
    cases Option.some.inj (hobserved.symm.trans hother)
    refine ⟨hcovers.stored, fun entry hentry => by cases hentry; rfl, fun sequence hsequence =>
      ⟨_, rfl, ?_⟩⟩
    dsimp only at hsequence
    split at hsequence
    · rcases List.mem_append.mp hsequence with hold | hnew
      · exact (habove sequence hold).le
      · exact (List.mem_singleton.mp hnew).le
    · exact (habove sequence hsequence).le
  · obtain ⟨hstored, haccepted⟩ := h.above haccepts
    have hobserved := @observed_stores taskId run.self observation task haccepts.found
    rw [hcall]
    cases outcome with
    | notReplaced => simpa [Except.toOption, SaveOutcome.raises, ExecutionHub.commitEnds] using
        fun _ => h
    | replacedThenRaised =>
      intro _
      simp only [SaveOutcome.raises, if_true, Except.toOption, reduceCtorEq, false_or, ne_eq,
        not_true_eq_false, if_false]
      refine { h with saved := fun epoch other hother => ?_ }
      cases Option.some.inj (hobserved.symm.trans hother)
      exact fun old hold => (hstored old hold).le
    | saved =>
      intro _
      simp only [SaveOutcome.raises, Bool.false_eq_true, if_false, Except.toOption, true_or,
        if_true]
      have hall (old : TaskRuntimeObservation) (hold : old ∈ run.stored ++ [observation]) :
          old.streamSequence ≤ observation.streamSequence := by
        rcases List.mem_append.mp hold with hbefore | hnew
        · exact (hstored old hbefore).le
        · rw [List.mem_singleton.mp hnew]
      refine ⟨fun epoch other hother => ?_, fun epoch other hother => ?_, ?_, fun hnone =>
        absurd (hnone.symm.trans hobserved) (by simp)⟩
      · cases Option.some.inj (hobserved.symm.trans hother)
        refine ⟨hall, fun entry hentry => by cases hentry; rfl, fun sequence hsequence =>
          ⟨_, rfl, ?_⟩⟩
        rcases List.mem_append.mp hsequence with hold | hnew
        · exact (haccepted sequence hold).le
        · exact (List.mem_singleton.mp hnew).le
      · cases Option.some.inj (hobserved.symm.trans hother)
        exact hall
      · refine List.pairwise_append.mpr ⟨h.increasing, List.pairwise_singleton _ _, ?_⟩
        intro old hold new hnew
        rw [List.mem_singleton.mp hnew]
        exact hstored old hold

theorem Inv.restart (h : Inv taskId run) {hub : ExecutionHub}
    (hrestart : run.self.hub.restart = .ok hub) :
    Inv taskId ({ run with self := ⟨hub, none⟩, accepted := [] }.settle taskId) := by
  obtain ⟨live, hload, rfl⟩ := Except.map_ok_iff.mp hrestart
  refine .settle fun hsome => ⟨fun epoch previous hlive => ?_, h.saved, h.increasing, fun hnone =>
    absurd hnone hsome⟩
  obtain ⟨saved, hsaved, hsame⟩ := observed_load hload hlive
  exact ⟨fun other hother => hsame ▸ h.saved epoch saved hsaved other hother, nofun, nofun⟩

theorem Inv.step {run' : ActivityRun} {op : ActivityOp} (h : Inv taskId run)
    (hstep : run.step sha256 taskId op = some run') : Inv taskId run' := by
  cases op with
  | record ref observation outcome =>
    cases hstep
    exact h.record ref observation outcome
  | request request now outcome =>
    cases hstep
    obtain ⟨next, hkeeps, hanswer⟩ :=
      answer_keeps run.self.hub sha256 taskId request now outcome
    rcases hanswer with hsame | hends
    · rw [hsame]
      exact .settle fun _ => h
    · rw [hends]
      exact h.ends outcome (hkeeps.elim .inr fun hnone => .inl hnone.1)
  | elsewhere next =>
    obtain ⟨hkeeps, hstep⟩ := Option.ite_none_right_eq_some.mp hstep
    cases hstep
    exact h.moves hkeeps
  | save outcome =>
    cases hstep
    cases outcome with
    | notReplaced => exact h
    | saved => exact h.writes (.inr rfl)
    | replacedThenRaised => exact h.writes (.inr rfl)
  | undone next =>
    obtain ⟨hkeeps, hstep⟩ := Option.ite_none_right_eq_some.mp hstep
    cases hstep
    exact h.writes hkeeps
  | restart =>
    rw [ActivityRun.step] at hstep
    split at hstep
    next hub hrestart =>
      cases hstep
      exact h.restart hrestart
    · cases hstep

/-- Whatever else happens, the observations stored since the last reset increase, also over a
restart, and a call is stored only above them and for the epoch and the reference of the task. -/
theorem task_activity_moves_forward (sha256 : String → String) (taskId : TaskId)
    (ops : List ActivityOp) (run : ActivityRun)
    (hrun : exec (ActivityRun.step sha256 taskId) {} ops = some run) :
    (run.stored.Pairwise fun a b => a.streamSequence < b.streamSequence) ∧
    (∀ ref observation outcome next answer,
      run.self.recordTaskActivity taskId ref observation outcome = (next, answer) →
      ((∃ sequence ∈ run.accepted, observation.streamSequence ≤ sequence) →
        next = run.self ∧ answer ≠ .ok true) ∧
      (answer = .ok true → (∀ other ∈ run.stored,
          other.streamSequence < observation.streamSequence) ∧
        ∃ task, run.self.hub.live.tasks.get? taskId = some task ∧
          observation.executionEpoch = task.executionEpoch ∧ task.executionRef = some ref ∧
          observed next.hub.live.tasks taskId = some (task.executionEpoch, observation)) ∧
      (answer ≠ .ok true → next.hub.live = run.self.hub.live) ∧
      ∀ error, answer = .error error → next.cursor = run.self.cursor) ∧
    ∀ request now outcome, let hub := (run.self.hub.answer sha256 taskId request now outcome).1
      observed hub.live.tasks taskId = observed run.self.hub.live.tasks taskId ∨
      ∃ task, run.self.hub.live.tasks.get? taskId = some task ∧ Resets task request := by
  have h : Inv taskId run := (Run.of_exec hrun).invariant
    ⟨nofun, nofun, .nil, fun _ => ⟨rfl, rfl⟩⟩ fun _ _ _ h _ hstep => h.step hstep
  refine ⟨h.increasing, fun ref observation outcome next answer hcall => ?_,
    fun request now outcome => ?_⟩
  · rcases record_cases run.self taskId ref observation outcome with
      ⟨answer, hsame, hanswer⟩ | ⟨task, haccepts, ⟨-, hmoved⟩ | hends⟩
    · cases hsame.symm.trans hcall
      exact ⟨fun _ => ⟨rfl, hanswer⟩, fun hok => absurd hok hanswer, fun _ => rfl, fun _ _ => rfl⟩
    · obtain ⟨-, haccepted⟩ := h.above haccepts
      cases hmoved.symm.trans hcall
      refine ⟨fun ⟨sequence, hsequence, hle⟩ => ?_, fun hok => ?_, fun _ => rfl,
        fun error herror => ?_⟩
      · exact absurd (haccepted sequence hsequence) hle.not_gt
      · cases hok
      · cases herror
    · obtain ⟨hstored, haccepted⟩ := h.above haccepts
      cases hends.symm.trans hcall
      refine ⟨fun ⟨sequence, hsequence, hle⟩ => absurd (haccepted sequence hsequence) hle.not_gt,
        fun hok => ⟨hstored, task, haccepts.found, haccepts.epoch, haccepts.executionRef, ?_⟩,
        fun hfailed => ?_, fun error herror => ?_⟩
      · cases outcome with
        | saved => exact observed_stores haccepts.found
        | notReplaced => cases hok
        | replacedThenRaised => cases hok
      · cases outcome with
        | saved => exact absurd rfl hfailed
        | notReplaced => rfl
        | replacedThenRaised => rfl
      · cases outcome with
        | saved => cases herror
        | notReplaced => rfl
        | replacedThenRaised => rfl
  · obtain ⟨next, hkeeps, hsame | hends⟩ :=
      answer_keeps run.self.hub sha256 taskId request now outcome
    · exact .inl (by rw [hsame])
    · rw [hends]
      cases outcome with
      | saved => exact hkeeps.imp_right And.right
      | notReplaced => exact .inl rfl
      | replacedThenRaised => exact .inl rfl

private def streamRef (turnId : TurnId) : TaskExecutionReference :=
  { sessionId := some "session", turnId := some turnId }

private def streamedTask : ExecutionManager where
  tasks := Table.empty.insert
    { id := "task", executionControl := .initiator, reporterKeyHash := some "digest"
      executionRef := some (streamRef "a") }

private def streamed (turnId : TurnId) (sequence : Nat) : ActivityOp :=
  .record (streamRef turnId) ⟨1, sequence, "active", 10, some turnId, none⟩ .saved

private def binds (turnId : TurnId) : ActivityOp :=
  .request (.progress ⟨"call", 1, 0, .working, "step", none, none, [], some (streamRef turnId)⟩
    (some "reporter-key-of-thirty-two-chars") false) 20 .saved

private def digests (_ : String) : String := "digest"

theorem task_activity_moves_forward_restart :
    ∃ run, exec (ActivityRun.step digests "task") {}
        [.elsewhere streamedTask, streamed "a" 5, .restart, streamed "a" 7] = some run ∧
      run.stored.map TaskRuntimeObservation.streamSequence = [5, 7] ∧
      run.stored.Pairwise fun a b => a.streamSequence < b.streamSequence := by
  obtain ⟨run, hrun, hstored⟩ := Option.map_eq_some_iff.mp
    (by decide +kernel : (exec (ActivityRun.step digests "task") {}
      [.elsewhere streamedTask, streamed "a" 5, .restart, streamed "a" 7]).map
        (fun run => run.stored.map TaskRuntimeObservation.streamSequence) = some [5, 7])
  exact ⟨run, hrun, hstored, (task_activity_moves_forward digests "task" _ run hrun).1⟩

theorem activity_of_another_turn :
    ∃ first second, exec (ActivityRun.step digests "task") {}
        [.elsewhere streamedTask, streamed "a" 5] = some first ∧
      first.stored.map (fun stored => (stored.executionEpoch, stored.streamSequence)) = [(1, 5)] ∧
      exec (ActivityRun.step digests "task") first [binds "b", streamed "b" 3] = some second ∧
      second.stored.map (fun stored => (stored.executionEpoch, stored.streamSequence)) =
        [(1, 3)] := by
  obtain ⟨first, hfirst, hends⟩ := Option.bind_eq_some_iff.mp
    (by decide +kernel : ((exec (ActivityRun.step digests "task") {}
      [.elsewhere streamedTask, streamed "a" 5]).bind fun first =>
        (exec (ActivityRun.step digests "task") first [binds "b", streamed "b" 3]).map fun second =>
          (first.stored.map (fun stored => (stored.executionEpoch, stored.streamSequence)),
            second.stored.map fun stored => (stored.executionEpoch, stored.streamSequence))) =
      some ([(1, 5)], [(1, 3)]))
  obtain ⟨second, hsecond, hstored⟩ := Option.map_eq_some_iff.mp hends
  exact ⟨first, second, hfirst, congrArg Prod.fst hstored, hsecond, congrArg Prod.snd hstored⟩

end ClaudeHub.TaskActivity
