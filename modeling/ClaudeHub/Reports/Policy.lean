import ClaudeHub.Models.TaskRecord
import ClaudeHub.Reports.Projection

/-! # What the state of a report means

The pure rules that report intake reads: the status a report state stands for, when a
reviewer's verdict counts, and which edges the task transition table allows.
-/

namespace ClaudeHub

def managedStatusFromReport (state : AgentReportState) (role : WorkspaceSessionRole)
    (fallback : ManagedSessionStatus) : ManagedSessionStatus :=
  match role, state with
  | .orchestrator, .completed | .orchestrator, .readyForReview => .idle
  | .orchestrator, .blocked => .needsInput
  | .reviewer, .reviewStarted => .working
  | .reviewer, .reviewPassed | .reviewer, .reviewFailed => .idle
  | .reviewer, .reviewNeedsInput => .needsInput
  | _, .blocked => .error
  | _, .needsInput => .needsInput
  | _, .completed => .done
  | _, .started | _, .working | _, .readyForReview => .working
  | _, .failed | _, .reviewStarted | _, .reviewPassed | _, .reviewFailed
  | _, .reviewNeedsInput => fallback

def runtimeStatusFromReport (state : AgentReportState) (fallback : AgentRuntimeStatus) :
    AgentRuntimeStatus :=
  match state with
  | .blocked | .needsInput | .reviewNeedsInput => .attention
  | .started | .working | .reviewStarted => .working
  | .readyForReview | .completed | .reviewPassed | .reviewFailed => .idle
  | .failed => fallback

/-- `task_status_from_report`. Every state has a status. -/
def taskStatusFromReport : AgentReportState → WorkspaceTaskStatus
  | .failed => .failed
  | .readyForReview | .completed | .reviewPassed | .reviewFailed | .reviewNeedsInput => .review
  | .started | .working | .blocked | .needsInput | .reviewStarted => .working

theorem taskStatusFromReport_cases (state : AgentReportState) :
    taskStatusFromReport state = .working ∨ taskStatusFromReport state = .review
      ∨ taskStatusFromReport state = .failed := by
  cases state <;> simp [taskStatusFromReport]

/-- `TERMINAL_REVIEW_STATES` -/
def AgentReportState.isTerminalReviewState : AgentReportState → Bool
  | .reviewPassed | .reviewFailed | .reviewNeedsInput => true
  | _ => false

theorem taskStatus_of_terminal {state : AgentReportState} (h : state.isTerminalReviewState) :
    taskStatusFromReport state = .review := by
  cases state <;> first | rfl | cases h

def reviewInFlight (reviewRequestedAt reviewCompletedAt : Option Time) : Bool :=
  reviewRequestedAt.isSome && reviewCompletedAt.isNone

/-- `compute_reviewer_verdict_task_update`, as report intake calls it. A goal packet's
review never asks for human acceptance. -/
def computeReviewerVerdictTaskUpdate (task : TaskRecord) (state : AgentReportState)
    (reviewerSessionId : SessionId) (now : Time) (reportReviewCycle : Nat)
    (isGoalPacketReview : Bool) : TaskRecord :=
  { task with
    status := .review
    reviewSessionId := some reviewerSessionId
    reviewCompletedAt := some (task.reviewCompletedAt.getD now)
    reviewSkippedAt := none
    reviewSkipReason := none
    reviewedAt := some now
    reviewedCycle := reportReviewCycle
    completedAt := none
    humanAcceptanceRequestedAt :=
      if state = .reviewPassed ∧ ¬ isGoalPacketReview then
        some (task.humanAcceptanceRequestedAt.getD now)
      else none
    humanAcceptedAt := none
    updatedAt := now }

inductive EvaluationDecision
  | pass | revise | needsInput
  deriving DecidableEq, Repr

def autonomousPhaseAfterWorkerReport : AgentReportState → Option AutonomousRunPhase
  | .started | .working => some .working
  | .readyForReview | .completed => some .evaluating
  | .blocked | .needsInput => some .waitingForHuman
  | .failed | .reviewStarted | .reviewPassed | .reviewFailed | .reviewNeedsInput => none

def autonomousDecisionFromReviewState : AgentReportState → Option EvaluationDecision
  | .reviewPassed => some .pass
  | .reviewFailed => some .revise
  | .reviewNeedsInput => some .needsInput
  | _ => none

def autonomousPhaseFromEvaluationDecision (decision : EvaluationDecision)
    (currentIteration maxIterations : Nat) : AutonomousRunPhase :=
  match decision with
  | .pass => .passed
  | .needsInput => .waitingForHuman
  | .revise => if currentIteration ≥ maxIterations then .exhausted else .revising

def AutonomousRunPhase.value : AutonomousRunPhase → String
  | .intake => "intake"
  | .rubricResearch => "rubric_research"
  | .planning => "planning"
  | .dispatching => "dispatching"
  | .working => "working"
  | .evaluating => "evaluating"
  | .revising => "revising"
  | .waitingForHuman => "waiting_for_human"
  | .passed => "passed"
  | .failed => "failed"
  | .exhausted => "exhausted"
  | .cancelled => "cancelled"

/-- `phase.value.replace("_", " ").title()` -/
def autonomousPhaseLabel : AutonomousRunPhase → String
  | .intake => "Intake"
  | .rubricResearch => "Rubric Research"
  | .planning => "Planning"
  | .dispatching => "Dispatching"
  | .working => "Working"
  | .evaluating => "Evaluating"
  | .revising => "Revising"
  | .waitingForHuman => "Waiting For Human"
  | .passed => "Passed"
  | .failed => "Failed"
  | .exhausted => "Exhausted"
  | .cancelled => "Cancelled"

def autonomousNextAction : AutonomousRunPhase → String
  | .intake => "Derive Goal Packet and begin work"
  | .dispatching => "Select or queue a workspace agent"
  | .working => "Worker is executing the current iteration"
  | .evaluating => "Evaluator is reviewing the latest worker output"
  | .revising => "Send targeted revision feedback to the worker"
  | .waitingForHuman => "Waiting for human input or product judgment"
  | .passed => "Autonomous evaluation passed; awaiting human acceptance"
  | .exhausted => "Iteration budget exhausted; awaiting human review"
  | .failed => "Autonomous run failed; awaiting human review"
  | .cancelled => "Autonomous run cancelled"
  | .rubricResearch | .planning => "Continue autonomous run"

inductive TransitionCause
  | start | scheduled | dispatchDecision | dispatch | initiatorProgress | report | reviewRequest
  | reviewVerdict | reconcile | promptStalled | continuation | accept | internalReport
  | feedbackReaper | abort | runtimeFailure | handoff | manual | load
  deriving DecidableEq, Repr

/-- `TRANSITIONS`: the causes that may take an edge. -/
def transitions : WorkspaceTaskStatus → WorkspaceTaskStatus → List TransitionCause
  | .todo, .queued => [.start, .scheduled]
  | .failed, .queued => [.start]
  | .review, .queued => [.start, .dispatchDecision]
  | .queued, .working => [.dispatch]
  | .todo, .working => [.initiatorProgress, .dispatch, .report]
  | .todo, .review => [.report, .reviewRequest, .reviewVerdict]
  | .working, .queued => [.scheduled]
  | .working, .review => [.report, .reviewRequest, .reviewVerdict, .reconcile, .promptStalled]
  | .queued, .review => [.report, .reviewRequest, .reconcile, .promptStalled]
  | .review, .working => [.continuation, .report, .reviewVerdict, .reviewRequest, .promptStalled]
  | .failed, .working => [.continuation, .initiatorProgress, .report]
  | .failed, .review => [.report, .reviewRequest, .reviewVerdict]
  | .review, .done => [.accept, .internalReport, .feedbackReaper, .abort]
  | .working, .done => [.initiatorProgress, .internalReport, .feedbackReaper, .abort]
  | .todo, .done => [.initiatorProgress, .internalReport, .feedbackReaper]
  | .queued, .done => [.internalReport, .feedbackReaper, .abort]
  | .working, .failed => [.report, .initiatorProgress, .runtimeFailure, .scheduled, .reconcile]
  | .queued, .failed => [.scheduled, .runtimeFailure]
  | .todo, .failed => [.scheduled, .initiatorProgress, .report, .reconcile]
  | .review, .failed => [.report, .runtimeFailure]
  | .queued, .todo | .working, .todo | .review, .todo | .failed, .todo =>
    [.abort, .handoff, .feedbackReaper]
  | .done, .todo => [.feedbackReaper, .handoff]
  | _, _ => []

def unrestrictedCauses : List TransitionCause := [.manual, .load]

def transitionAllowed (current target : WorkspaceTaskStatus) (cause : TransitionCause) : Bool :=
  current = target || cause ∈ unrestrictedCauses || cause ∈ transitions current target

structure TransitionWarning where
  taskId : TaskId
  current : WorkspaceTaskStatus
  target : WorkspaceTaskStatus
  cause : TransitionCause
  deriving DecidableEq, Repr

/-- `apply_task_update` outside of strict mode, which takes every update: what it logs. -/
def applyTaskUpdate (task updated : TaskRecord) (cause : TransitionCause) :
    TaskRecord × List TransitionWarning :=
  (updated, if transitionAllowed task.status updated.status cause then []
    else [⟨task.id, task.status, updated.status, cause⟩])

end ClaudeHub
