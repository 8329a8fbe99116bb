import ClaudeHub.Models.TaskRecord
import ClaudeHub.TaskMailbox.Store

/-! # The workspace behind task execution

The manager holds whole task records here, and the mailbox reads their slice of them. A
request that changes a task writes the task and its event with one save.
-/

namespace ClaudeHub

structure ExecutionManager where
  tasks : TaskRecordTable := .empty
  sessions : SessionTable := .empty
  reports : ReportTable := .empty
  mailbox : TaskMailbox := {}
  /-- `_task_execution_operations`: the managed operations under way, by task. -/
  operations : Dict TaskId Nat := .empty
  deriving DecidableEq

structure ExecutionState where
  tasks : TaskRecordTable := .empty
  sessions : SessionTable := .empty
  reports : ReportTable := .empty
  taskEvents : List TaskEvent := []
  deriving DecidableEq

def ExecutionManager.workspaceManager (manager : ExecutionManager) : WorkspaceManager where
  tasks := TaskRecordTable.taskTable manager.tasks
  sessions := manager.sessions
  reports := manager.reports
  mailbox := manager.mailbox

def ExecutionManager.workspaceStatePayload (manager : ExecutionManager) : ExecutionState where
  tasks := manager.tasks
  sessions := manager.sessions
  reports := manager.reports
  taskEvents := manager.mailbox.events

def TaskRecord.normalizeTaskItem (task : TaskRecord) : TaskRecord :=
  if task.executionControl = .initiator then
    { task with
      autonomousRun := none
      runtimeObservation := task.runtimeObservation.map fun activity =>
        if activity.status = "active" then
          { activity with
            status := "unknown"
            detail := some "observation predates server restart" }
        else activity }
  else task

theorem TaskRecord.normalizeTaskItem_id (task : TaskRecord) :
    task.normalizeTaskItem.id = task.id := by
  unfold normalizeTaskItem
  split <;> rfl

def ExecutionState.load (state : ExecutionState) : Except HubError ExecutionManager :=
  let tasks : TaskRecordTable := state.tasks.map TaskRecord.normalizeTaskItem TaskRecord.normalizeTaskItem_id
  let workspace : WorkspaceState :=
    { tasks := TaskRecordTable.taskTable tasks
      sessions := state.sessions
      reports := state.reports
      taskEvents := state.taskEvents }
  workspace.load.map fun wm =>
    { tasks := tasks
      sessions := state.sessions
      reports := state.reports
      mailbox := wm.mailbox }

structure ExecutionHub where
  live : ExecutionManager := {}
  saved : ExecutionState := {}
  deriving DecidableEq

namespace ExecutionHub

def saveWorkspaceState (hub : ExecutionHub) (outcome : SaveOutcome) : ExecutionHub :=
  match outcome with
  | .notReplaced => hub
  | .saved | .replacedThenRaised => { hub with saved := hub.live.workspaceStatePayload }

def restart (hub : ExecutionHub) : Except HubError ExecutionHub :=
  hub.saved.load.map fun live => { hub with live := live }

end ExecutionHub

def maxCallFingerprints : Nat := 128

def recordFingerprint (fingerprints : Dict CallId ExecutionFingerprint) (callId : CallId)
    (fingerprint : ExecutionFingerprint) : Dict CallId ExecutionFingerprint :=
  (fingerprints.set callId fingerprint).keepLast maxCallFingerprints

inductive ExecutionError
  | keyError (id : TaskId)
  | valueError (text : String)
  | taskExecutionConflict (text : String)
  | taskReporterForbidden (text : String)
  | mailbox (error : HubError)
  | saveFailed
  deriving DecidableEq

structure TaskExecutionMutationResult where
  task : TaskRecord
  event : TaskEvent
  replayed : Bool
  deriving DecidableEq

structure ExecutionChange where
  task : TaskRecord
  callId : CallId
  fingerprint : ExecutionFingerprint
  action : String
  actorRole : TaskActorRole
  eventType : TaskEventType
  eventPayload : Payload

namespace ExecutionChange

def next (change : ExecutionChange) : TaskRecord :=
  { change.task with
    executionCallFingerprints :=
      recordFingerprint change.task.executionCallFingerprints change.callId change.fingerprint }

def appendRequest (change : ExecutionChange) : AppendRequest where
  taskId := change.task.id
  actorRole := change.actorRole
  eventType := change.eventType
  callId := change.callId
  action := change.action
  consumerKey := some (.task change.task.id)
  target := some change.task.id
  payload := change.eventPayload

end ExecutionChange

namespace ExecutionHub

/-- `_commit_execution_change`: whatever raises between the snapshot and the end of the save
puts the process back. -/
def commitExecutionChange (hub : ExecutionHub) (change : ExecutionChange) (now : Time)
    (outcome : SaveOutcome) :
    ExecutionHub × Except ExecutionError TaskExecutionMutationResult :=
  let live := { hub.live with tasks := hub.live.tasks.insert change.next }
  match live.workspaceManager.stageEvent change.appendRequest now with
  | .error error => (hub, .error (.mailbox error))
  | .ok staged =>
    let (event, mailbox) :=
      match staged with
      | .existing event => (event, live.mailbox)
      | .created event mailbox => (event, mailbox)
    let written := { hub with live := { live with mailbox } }.saveWorkspaceState outcome
    if outcome.raises then ({ written with live := hub.live }, .error .saveFailed)
    else (written, .ok ⟨change.next, event, false⟩)

end ExecutionHub

end ClaudeHub
