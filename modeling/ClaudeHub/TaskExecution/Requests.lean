import ClaudeHub.TaskExecution.Store

/-! # Progress and handoff

An initiator reports the progress of its own execution with a key, a person may do so by
hand, and a handoff moves a task to another executor. All three are checked against the
version of the task and then committed in the same way.
-/

namespace ClaudeHub

def conflictIf (refused : Bool) (text : String) : Except ExecutionError Unit :=
  if refused then .error (.taskExecutionConflict text) else .ok ()

def reporterKeyValid (key : String) : Bool :=
  32 ≤ key.length && key.length ≤ 256 &&
    key.toList.all fun char => 33 ≤ char.toNat && char.toNat ≤ 126

def reporterKeyDigest (sha256 : String → String) : Option String → Except ExecutionError String
  | none => .error (.valueError "invalid_task_reporter_key")
  | some key =>
    if reporterKeyValid key then .ok (sha256 key)
    else .error (.valueError "invalid_task_reporter_key")

def TaskRecord.checkExecutionVersion (task : TaskRecord) (epoch : Nat)
    (revision : Option Nat := none) : Except ExecutionError Unit :=
  if task.executionEpoch ≠ epoch then
    .error (.taskExecutionConflict "task_execution_epoch_conflict")
  else if revision.any fun revision => task.progressRevision ≠ revision then
    .error (.taskExecutionConflict "task_progress_revision_conflict")
  else .ok ()

def TaskRecord.checkReporter (task : TaskRecord) (sha256 : String → String)
    (key : Option String) : Except ExecutionError Unit :=
  match reporterKeyDigest sha256 key with
  | .error _ => .error (.taskReporterForbidden "task_reporter_key_required")
  | .ok supplied =>
    if truthy task.reporterKeyHash = some supplied then .ok ()
    else .error (.taskReporterForbidden "task_reporter_key_rejected")

def executionCallId (taskId : TaskId) (callId : String) : CallId :=
  .raw ("task-execution:" ++ taskId ++ ":" ++ callId)

/-- What a request comes to: the answer it was given before, or a change to commit. -/
inductive Intake
  | replay (result : TaskExecutionMutationResult)
  | change (change : ExecutionChange)

namespace ExecutionManager

def requireWorkspaceTask (manager : ExecutionManager) (taskId : TaskId) :
    Except ExecutionError TaskRecord :=
  match manager.tasks.get? taskId with
  | none => .error (.keyError taskId)
  | some task => .ok task

def executionTask (manager : ExecutionManager) (taskId : TaskId) :
    Except ExecutionError TaskRecord := do
  let task ← manager.requireWorkspaceTask taskId
  conflictIf (task.executionControl ≠ .initiator) "task_is_workspace_controlled"
  return task

def executionReplay (manager : ExecutionManager) (task : TaskRecord) (callId : CallId)
    (fingerprint : ExecutionFingerprint) :
    Except ExecutionError (Option TaskExecutionMutationResult) :=
  match manager.mailbox.callIndex.get? callId with
  | none => .ok none
  | some existing =>
    if task.executionCallFingerprints.lookup callId ≠ some fingerprint then
      .error (.taskExecutionConflict "task_execution_call_id_conflict")
    else .ok (some ⟨task, existing.event, true⟩)

end ExecutionManager

def TaskRecord.progressArtifactRefs (task : TaskRecord) (payload : TaskProgressRequest) :
    List String :=
  if payload.state = .released ∧ payload.artifactRefs = [] then
    match task.latestProgress with
    | some latest =>
      if latest.executionEpoch = task.executionEpoch then latest.artifactRefs
      else payload.artifactRefs
    | none => payload.artifactRefs
  else payload.artifactRefs

def TaskRecord.applyProgress (task : TaskRecord) (payload : TaskProgressRequest) (manual : Bool)
    (now : Time) : TaskRecord :=
  let progress : TaskProgressSnapshot :=
    { state := payload.state
      summary := payload.summary
      validation := payload.validation
      risks := payload.risks
      artifactRefs := task.progressArtifactRefs payload
      callId := payload.callId
      executionEpoch := task.executionEpoch
      reportedAt := now }
  let reported : TaskRecord :=
    { task with
      latestProgress := some progress
      progressRevision := task.progressRevision + 1
      updatedAt := now }
  let bound : TaskRecord :=
    match (if manual then none else payload.executionRef.join) with
    | none => reported
    | some ref =>
      { reported with
        executionRef := some ref
        runtimeObservation :=
          if task.executionRef = some ref then task.runtimeObservation else none }
  match payload.state with
  | .released => { bound with executionReleased := true }
  | .completed => { bound with status := .done, completedAt := some now }
  | .failed =>
    { bound with status := .failed, failedAt := some now, failureReason := some payload.summary }
  | _ => { bound with status := .working, startedAt := some (task.startedAt.getD now) }

def TaskProgressState.eventType : TaskProgressState → TaskEventType
  | completed => .completed
  | failed => .failed
  | _ => .progress

def TaskProgressRequest.checkManual (payload : TaskProgressRequest) : Except ExecutionError Unit :=
  if payload.state = .released ∨ payload.executionRef.isSome then
    .error (.valueError "manual_progress_cannot_release_or_bind_executor")
  else .ok ()

def TaskRecord.checkAuthor (task : TaskRecord) (sha256 : String → String)
    (payload : TaskProgressRequest) (reporterKey : Option String) (manual : Bool) :
    Except ExecutionError Unit :=
  if manual then payload.checkManual else task.checkReporter sha256 reporterKey

/-- `_record_task_progress` up to its commit. -/
def ExecutionManager.progressIntake (manager : ExecutionManager) (sha256 : String → String)
    (taskId : TaskId) (payload : TaskProgressRequest) (reporterKey : Option String)
    (manual : Bool) (now : Time) : Except ExecutionError Intake := do
  let task ← manager.executionTask taskId
  task.checkAuthor sha256 payload reporterKey manual
  task.checkExecutionVersion payload.expectedExecutionEpoch
  let action := if manual then "task_manual_progress" else "task_progress"
  let fingerprint : ExecutionFingerprint := ⟨action, payload.modelDump⟩
  let callId := executionCallId task.id payload.callId
  match ← manager.executionReplay task callId fingerprint with
  | some result => return .replay result
  | none =>
    task.checkExecutionVersion payload.expectedExecutionEpoch
      (some payload.expectedProgressRevision)
    conflictIf task.executionReleased "task_execution_already_released"
    conflictIf ((task.status = .done || task.status = .failed) && payload.state ≠ .released)
      "task_record_is_terminal"
    return .change
      { task := task.applyProgress payload manual now
        callId := callId
        fingerprint := fingerprint
        action := action
        actorRole := if manual then .human else .initiator
        eventType := payload.state.eventType
        eventPayload := payload.modelDump }

def ExecutionManager.busy (manager : ExecutionManager) (task : TaskRecord) : Bool :=
  (manager.operations.lookup task.id).getD 0 ≠ 0 ||
    (task.status = .queued || task.status = .working || task.status = .review) ||
    task.dispatchPending || task.pendingCallIds ≠ [] || task.processingCallIds ≠ [] ||
    task.uncertainCallIds ≠ [] ||
    (task.reviewRequestedAt.isSome && task.reviewCompletedAt.isNone) ||
    manager.sessions.rows.any fun session =>
      session.taskId = some task.id || session.currentTaskId = some task.id

def ExecutionManager.requireQuiescentWorkspaceTask (manager : ExecutionManager)
    (task : TaskRecord) : Except ExecutionError Unit :=
  conflictIf (manager.busy task) "workspace_task_execution_not_released"

def ExecutionManager.requireReleased (manager : ExecutionManager) (task : TaskRecord) :
    Except ExecutionError Unit :=
  if task.executionControl = .initiator then
    conflictIf (!task.executionReleased) "initiator_execution_not_released"
  else manager.requireQuiescentWorkspaceTask task

def TaskExecutionHandoffRequest.newHash (payload : TaskExecutionHandoffRequest)
    (sha256 : String → String) : Except ExecutionError (Option String) :=
  if payload.executionControl = .initiator then
    (reporterKeyDigest sha256 payload.newReporterKey).map some
  else if payload.newReporterKey.isSome ∨ payload.executionRef.isSome then
    .error (.valueError "workspace_handoff_cannot_bind_external_executor")
  else .ok none

def TaskRecord.applyHandoff (task : TaskRecord) (payload : TaskExecutionHandoffRequest)
    (newHash : Option String) (now : Time) : TaskRecord :=
  { task with
    executionControl := payload.executionControl
    executionEpoch := task.executionEpoch + 1
    progressRevision := task.progressRevision + 1
    executionReleased := false
    reporterKeyHash := newHash
    executionRef := payload.executionRef
    latestProgress := none
    runtimeObservation := none
    status := .todo
    sessionId := none
    reviewSessionId := none
    relatedTaskId := none
    clearContext := none
    dispatchPending := false
    dispatchReason := none
    autonomousRun := none
    reviewCycle := task.reviewCycle + 1
    reviewedCycle := 0
    updatedAt := now
    reviewRequestedAt := none
    reviewCompletedAt := none
    reviewSkippedAt := none
    reviewSkipReason := none
    manualAbortedAt := none
    manualAbortReason := none
    failureReason := none
    failedAt := none
    humanAcceptanceRequestedAt := none
    humanAcceptedAt := none
    queuedAt := none
    startedAt := none
    reviewedAt := none
    completedAt := none }

/-- `handoff_task_execution` up to its commit. -/
def ExecutionManager.handoffIntake (manager : ExecutionManager) (sha256 : String → String)
    (taskId : TaskId) (payload : TaskExecutionHandoffRequest) (now : Time) :
    Except ExecutionError Intake := do
  let newHash ← payload.newHash sha256
  let task ← manager.requireWorkspaceTask taskId
  let action := "task_execution_handoff"
  let fingerprint : ExecutionFingerprint :=
    ⟨action, payload.modelDump ++ [("new_reporter_key_hash", PayloadValue.ofText? newHash)]⟩
  let callId := executionCallId task.id payload.callId
  match ← manager.executionReplay task callId fingerprint with
  | some result => return .replay result
  | none =>
    task.checkExecutionVersion payload.expectedExecutionEpoch
      (some payload.expectedProgressRevision)
    conflictIf (task.systemInternal || (truthy task.internalKind).isSome)
      "internal_task_cannot_be_handed_off"
    manager.requireReleased task
    conflictIf (task.executionControl = .workspace && payload.executionControl = .workspace)
      "task_already_workspace_controlled"
    return .change
      { task := task.applyHandoff payload newHash now
        callId := callId
        fingerprint := fingerprint
        action := action
        actorRole := .human
        eventType := .message
        eventPayload := payload.modelDump ++ [
          ("previous_execution_control", .str task.executionControl.value),
          ("new_execution_epoch", .int (task.executionEpoch + 1))] }

inductive ExecutionRequest
  | progress (payload : TaskProgressRequest) (reporterKey : Option String) (manual : Bool)
  | handoff (payload : TaskExecutionHandoffRequest)
  deriving DecidableEq

namespace ExecutionRequest

def callId : ExecutionRequest → String
  | progress payload _ _ => payload.callId
  | handoff payload => payload.callId

def expectedExecutionEpoch : ExecutionRequest → Nat
  | progress payload _ _ => payload.expectedExecutionEpoch
  | handoff payload => payload.expectedExecutionEpoch

def expectedProgressRevision : ExecutionRequest → Nat
  | progress payload _ _ => payload.expectedProgressRevision
  | handoff payload => payload.expectedProgressRevision

def intake (request : ExecutionRequest) (manager : ExecutionManager) (sha256 : String → String)
    (taskId : TaskId) (now : Time) : Except ExecutionError Intake :=
  match request with
  | progress payload reporterKey manual =>
    manager.progressIntake sha256 taskId payload reporterKey manual now
  | handoff payload => manager.handoffIntake sha256 taskId payload now

end ExecutionRequest

/-- A request under the workspace's lock: nothing is awaited in it. -/
def ExecutionHub.answer (hub : ExecutionHub) (sha256 : String → String) (taskId : TaskId)
    (request : ExecutionRequest) (now : Time) (outcome : SaveOutcome) :
    ExecutionHub × Except ExecutionError TaskExecutionMutationResult :=
  match request.intake hub.live sha256 taskId now with
  | .error error => (hub, .error error)
  | .ok (.replay result) => (hub, .ok result)
  | .ok (.change change) => hub.commitExecutionChange change now outcome

end ClaudeHub
