import ClaudeHub.Models.Records

/-! # The whole task record

What `WorkspaceTask` carries beside the slice of `ClaudeHub.Models.Records`: who executes
the task and under which fencing version, and how far its review has come.
-/

namespace ClaudeHub

inductive TaskProgressState
  | started | working | blocked | needsInput | completed | failed | released
  deriving DecidableEq, Repr

def TaskProgressState.value : TaskProgressState → String
  | started => "started"
  | working => "working"
  | blocked => "blocked"
  | needsInput => "needs_input"
  | completed => "completed"
  | failed => "failed"
  | released => "released"

def TaskExecutionControl.value : TaskExecutionControl → String
  | workspace => "workspace"
  | initiator => "initiator"

structure TaskExecutionReference where
  provider : Option String := none
  sessionId : Option SessionId := none
  threadId : Option String := none
  turnId : Option TurnId := none
  runEpoch : Option Nat := none
  deriving DecidableEq, Repr

structure TaskProgressSnapshot where
  state : TaskProgressState
  summary : String
  validation : Option String := none
  risks : Option String := none
  artifactRefs : List String := []
  callId : String
  executionEpoch : Nat
  reportedAt : Time
  deriving DecidableEq, Repr

structure TaskRuntimeObservation where
  executionEpoch : Nat
  streamSequence : Nat
  status : String
  observedAt : Time
  turnId : Option TurnId := none
  detail : Option String := none
  deriving DecidableEq, Repr

structure TaskProgressRequest where
  callId : String
  expectedExecutionEpoch : Nat
  expectedProgressRevision : Nat
  state : TaskProgressState
  summary : String
  validation : Option String := none
  risks : Option String := none
  artifactRefs : List String := []
  /-- The outer `none`: the field is not in `model_fields_set`. -/
  executionRef : Option (Option TaskExecutionReference) := none
  deriving DecidableEq, Repr

structure TaskExecutionHandoffRequest where
  callId : String
  expectedExecutionEpoch : Nat
  expectedProgressRevision : Nat
  executionControl : TaskExecutionControl
  newReporterKey : Option String := none
  executionRef : Option TaskExecutionReference := none
  deriving DecidableEq, Repr

def TaskExecutionReference.modelDump (ref : Option TaskExecutionReference) : PayloadValue :=
  match ref with
  | none => .null
  | some ref =>
    .object [
      ("provider", ref.provider.map .inl),
      ("session_id", ref.sessionId.map .inl),
      ("thread_id", ref.threadId.map .inl),
      ("turn_id", ref.turnId.map .inl),
      ("run_epoch", ref.runEpoch.map .inr)]

/-- `model_dump(mode="json")` -/
def TaskProgressRequest.modelDump (payload : TaskProgressRequest) : Payload := [
  ("call_id", .str payload.callId),
  ("expected_execution_epoch", .int payload.expectedExecutionEpoch),
  ("expected_progress_revision", .int payload.expectedProgressRevision),
  ("state", .str payload.state.value),
  ("summary", .str payload.summary),
  ("validation", PayloadValue.ofText? payload.validation),
  ("risks", PayloadValue.ofText? payload.risks),
  ("artifact_refs", .texts payload.artifactRefs),
  ("execution_ref", TaskExecutionReference.modelDump (payload.executionRef.getD none))]

/-- `model_dump(mode="json")`, which excludes the new reporter key. -/
def TaskExecutionHandoffRequest.modelDump (payload : TaskExecutionHandoffRequest) : Payload := [
  ("call_id", .str payload.callId),
  ("expected_execution_epoch", .int payload.expectedExecutionEpoch),
  ("expected_progress_revision", .int payload.expectedProgressRevision),
  ("execution_control", .str payload.executionControl.value),
  ("execution_ref", TaskExecutionReference.modelDump payload.executionRef)]

/-- The preimage of the fingerprint of an execution request, which is the action and the
fields of the body. The digest is taken to be injective. -/
structure ExecutionFingerprint where
  action : String
  body : Payload
  deriving DecidableEq, Repr

inductive AutonomousRunPhase
  | intake | rubricResearch | planning | dispatching | working | evaluating | revising
  | waitingForHuman | passed | failed | exhausted | cancelled
  deriving DecidableEq, Repr

structure AutonomousIteration where
  iteration : Nat
  workerSessionId : Option SessionId := none
  evaluatorSessionId : Option SessionId := none
  workerReportId : Option ReportId := none
  controllerDecision : Option String := none
  startedAt : Option Time := none
  completedAt : Option Time := none
  deriving DecidableEq, Repr

structure AutonomousRun where
  phase : AutonomousRunPhase := .intake
  iteration : Nat := 1
  maxIterations : Nat := 3
  activeSessionIds : List SessionId := []
  statusSummary : String := ""
  nextAction : String := ""
  iterations : List AutonomousIteration := []
  exhaustedAt : Option Time := none
  completedAt : Option Time := none
  deriving DecidableEq, Repr

structure TaskRecord extends WorkspaceTask where
  title : String := ""
  executionRef : Option TaskExecutionReference := none
  executionEpoch : Nat := 1
  progressRevision : Nat := 0
  executionReleased : Bool := false
  latestProgress : Option TaskProgressSnapshot := none
  runtimeObservation : Option TaskRuntimeObservation := none
  reporterKeyHash : Option String := none
  executionCallFingerprints : Dict CallId ExecutionFingerprint := .empty
  autonomousRun : Option AutonomousRun := none
  relatedTaskId : Option TaskId := none
  clearContext : Option Bool := none
  dispatchReason : Option String := none
  dispatchPending : Bool := false
  systemInternal : Bool := false
  internalKind : Option String := none
  reviewSessionId : Option SessionId := none
  reviewAttempts : Nat := 0
  /-- `autonomy_policy.max_iterations`, where the task has a policy. -/
  maxIterations : Option Nat := none
  dispatchAttempt : Nat := 0
  reviewRequestedAt : Option Time := none
  reviewCompletedAt : Option Time := none
  reviewSkippedAt : Option Time := none
  reviewSkipReason : Option String := none
  manualAbortedAt : Option Time := none
  manualAbortReason : Option String := none
  failureReason : Option String := none
  failedAt : Option Time := none
  humanAcceptanceRequestedAt : Option Time := none
  humanAcceptedAt : Option Time := none
  queuedAt : Option Time := none
  startedAt : Option Time := none
  reviewedAt : Option Time := none
  completedAt : Option Time := none
  updatedAt : Time := 0
  deriving DecidableEq

abbrev TaskRecordTable := Table fun task : TaskRecord => task.id

def TaskRecordTable.taskTable (tasks : TaskRecordTable) : TaskTable :=
  tasks.project TaskRecord.toWorkspaceTask fun _ => rfl

end ClaudeHub
