import ClaudeHub.TaskMailbox.Core

/-! # The mailbox over its durable payload

A workspace is saved by replacing one file that holds its tasks, sessions,
reports and events together. The write is atomic, but a save that raises does
not tell whether the file was replaced: the directory is synced afterwards.
-/

namespace ClaudeHub

structure WorkspaceState where
  tasks : TaskTable := Table.empty
  sessions : SessionTable := Table.empty
  reports : ReportTable := Table.empty
  taskEvents : List TaskEvent := []
  deriving DecidableEq

def WorkspaceManager.workspaceStatePayload (wm : WorkspaceManager) : WorkspaceState where
  tasks := wm.tasks
  sessions := wm.sessions
  reports := wm.reports
  taskEvents := wm.mailbox.events

/-- A fresh process that has loaded a payload which such a process wrote. -/
def WorkspaceState.load (state : WorkspaceState) : Except HubError WorkspaceManager := do
  let wm : WorkspaceManager :=
    { tasks := state.tasks, sessions := state.sessions, reports := state.reports }
  let mailbox ← loadFromDict wm state.taskEvents
  return { wm with mailbox := mailbox }

structure Hub where
  live : WorkspaceManager := {}
  saved : WorkspaceState := {}
  deriving DecidableEq

namespace Hub

def saveWorkspaceState (hub : Hub) (outcome : SaveOutcome) : Hub :=
  match outcome with
  | .notReplaced => hub
  | .saved | .replacedThenRaised => { hub with saved := hub.live.workspaceStatePayload }

def setMailbox (hub : Hub) (mailbox : TaskMailbox) : Hub :=
  { hub with live := { hub.live with mailbox := mailbox } }

def appendEvent (hub : Hub) (req : AppendRequest) (now : Time) (persist : Bool)
    (outcome : SaveOutcome) : Hub × Except HubError (TaskEvent × Bool) :=
  match hub.live.stageEvent req now with
  | .error e => (hub, .error e)
  | .ok (.existing event) =>
    if persist then
      (hub.saveWorkspaceState outcome,
        if outcome.raises then .error .persistFailed else .ok (event, false))
    else (hub, .ok (event, false))
  | .ok (.created event mailbox) =>
    let staged := hub.setMailbox mailbox
    if persist then
      let written := staged.saveWorkspaceState outcome
      if outcome.raises then
        (written.setMailbox (WorkspaceManager.unstage mailbox event), .error .persistFailed)
      else (written, .ok (event, true))
    else (staged, .ok (event, true))

/-- Advance a consumer cursor; a durable write that raises puts the previous one back. -/
def ack (hub : Hub) (key : ConsumerKey) (sequence : Nat) (persist : Bool)
    (outcome : SaveOutcome) : Hub × Except HubError Nat :=
  match hub.live.stageAck key sequence with
  | .error e => (hub, .error e)
  | .ok live =>
    let staged := { hub with live := live }
    if persist then
      let written := staged.saveWorkspaceState outcome
      if outcome.raises then ({ written with live := hub.live }, .error .persistFailed)
      else (written, .ok sequence)
    else (staged, .ok sequence)

/-- `_create_task` after its validation: the task is in memory whether or not it is saved. -/
def createTask (hub : Hub) (task : WorkspaceTask) (outcome : SaveOutcome) : Hub :=
  let task := { task with consumerAckSequence := 0 }
  let live := { hub.live with tasks := hub.live.tasks.insert task }
  { hub with live := live }.saveWorkspaceState outcome

def recordReport (hub : Hub) (report : AgentReport) (outcome : SaveOutcome) : Hub :=
  let live := { hub.live with reports := hub.live.reports.insert report }
  { hub with live := live }.saveWorkspaceState outcome

def unbindSession (taskId : TaskId) (session : ManagedSession) : ManagedSession :=
  if session.taskId = some taskId ∨ session.currentTaskId = some taskId then
    { session with taskId := none, currentTaskId := none }
  else session

theorem unbindSession_id (taskId : TaskId) (session : ManagedSession) :
    (unbindSession taskId session).id = session.id := by
  unfold unbindSession
  split <;> rfl

/-- The refusals of `delete_task`. -/
def checkDeleteTask (wm : WorkspaceManager) (taskId : TaskId) : Except HubError WorkspaceTask :=
  match wm.tasks.get? taskId with
  | none => .error (.unknownTask taskId)
  | some task =>
    let dependents := wm.tasks.rows.filter fun item => taskId ∈ item.dependsOnTaskIds
    if task.executionControl ≠ .workspace ∧ wm.sessions.rows.any fun session =>
        session.taskId = some taskId ∨ session.currentTaskId = some taskId then
      .error .taskHasManagedSessionReference
    else if taskHasDescendants wm.tasks task then .error (.taskHasDescendants taskId)
    else if dependents ≠ [] then
      .error (.taskHasDependents taskId (dependents.map WorkspaceTask.id))
    else .ok task

def withoutTask (wm : WorkspaceManager) (task : WorkspaceTask) :
    Except HubError WorkspaceManager := do
  let mailbox ← purgeTaskEvents wm.mailbox task.id
  return {
    tasks := wm.tasks.erase task.id
    reports := wm.reports.filter fun report => report.taskId ≠ some task.id
    sessions :=
      if task.executionControl = .workspace then
        wm.sessions.map (unbindSession task.id) (unbindSession_id task.id)
      else wm.sessions
    mailbox := mailbox }

def deleteTask (hub : Hub) (taskId : TaskId) (outcome : SaveOutcome) :
    Hub × Except HubError Unit :=
  match (checkDeleteTask hub.live taskId).bind (withoutTask hub.live) with
  | .error e => (hub, .error e)
  | .ok live =>
    let written := { hub with live := live }.saveWorkspaceState outcome
    if outcome.raises then ({ written with live := hub.live }, .error .persistFailed)
    else (written, .ok ())

/-- A new process on the saved payload. -/
def restart (hub : Hub) : Except HubError Hub :=
  hub.saved.load.map fun live => { hub with live := live }

end Hub

end ClaudeHub
