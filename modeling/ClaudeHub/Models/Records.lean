import ClaudeHub.Lib.Table
import ClaudeHub.Models.Enums

/-! # Durable records of one workspace

The fields of the schema records that the modelled services read or write, in
the order of the source. Everything here is the slice that belongs to one
workspace: a task, session or report of another workspace is absent, and the
services answer for it as they do for a missing one.
-/

namespace ClaudeHub

/-- Structured task intent under review. `criteria` stands for its other texts. -/
structure GoalPacket where
  objective : String
  criteria : List String := []
  status : GoalPacketStatus := .draft
  createdAt : Option Time := none
  updatedAt : Option Time := none
  deriving DecidableEq, Repr

/-- A persisted attachment by its content: `digest` stands for its bytes. -/
structure Attachment where
  filename : String
  mimeType : String
  digest : String
  deriving DecidableEq, Repr

structure PayloadFingerprint where
  message : String
  attachments : List Attachment := []
  deriving DecidableEq, Repr

/-- Call ids by delivery state: queued in the outbox, sent and not acknowledged,
of unknown fate, acknowledged by the worker. A session has these lists for its own
outbox and a task mirrors them. -/
structure CallLists where
  pendingCallIds : List CallId := []
  processingCallIds : List CallId := []
  uncertainCallIds : List CallId := []
  deliveredCallIds : List CallId := []
  deriving DecidableEq, Repr

structure WorkspaceTask extends CallLists where
  id : TaskId
  prompt : String := ""
  goalPacket : Option GoalPacket := none
  taskMode : WorkspaceTaskMode := .reviewed
  executionControl : TaskExecutionControl := .workspace
  status : WorkspaceTaskStatus := .todo
  sessionId : Option SessionId := none
  parentTaskId : Option TaskId := none
  dependsOnTaskIds : List TaskId := []
  /-- The slash-separated ids from the root down to the task itself. -/
  path : List TaskId := []
  consumerAckSequence : Nat := 0
  reviewCycle : Nat := 1
  reviewedCycle : Nat := 0
  deriving DecidableEq, Repr

structure ManagedSession extends CallLists where
  id : SessionId
  title : String := ""
  taskId : Option TaskId := none
  role : WorkspaceSessionRole := .orchestrator
  sessionKind : SessionKind := .terminal
  status : ManagedSessionStatus := .idle
  runtimeStatus : AgentRuntimeStatus := .idle
  archived : Bool := false
  chatPaused : Bool := false
  currentTaskId : Option TaskId := none
  processingCallIdsAt : Dict CallId Time := .empty
  /-- Durable inbox: the message bodies and attachments of unacknowledged calls. -/
  pendingMessages : Dict CallId String := .empty
  pendingAttachments : Dict CallId (List Attachment) := .empty
  /-- Computed on the first send and kept after the acknowledgement. -/
  callPayloadFingerprints : Dict CallId PayloadFingerprint := .empty
  deriving DecidableEq

structure AgentReport where
  id : ReportId
  taskId : Option TaskId := none
  sessionId : SessionId
  callId : Option CallId := none
  state : AgentReportState
  message : String
  messageEn : Option String := none
  reviewDecision : ReviewDecision := .auto
  reviewReason : Option String := none
  reviewCycle : Nat := 0
  createdAt : Time := 0
  deriving DecidableEq, Repr

structure TaskEventBody where
  taskId : TaskId
  actorSessionId : Option SessionId
  actorRole : TaskActorRole
  reviewCycle : Option Nat
  eventType : TaskEventType
  target : String
  consumerKey : ConsumerKey
  payload : Payload
  reportId : Option ReportId
  deriving DecidableEq, Repr

/-- The preimage of `request_fingerprint`. The digest of the canonical JSON is
taken to be injective, so it is carried as the pair it digests. -/
structure RequestFingerprint where
  action : String
  body : TaskEventBody
  deriving DecidableEq, Repr

structure TaskEvent where
  sequence : Nat
  callId : CallId
  fingerprint : RequestFingerprint
  taskId : TaskId
  actorSessionId : Option SessionId
  actorRole : TaskActorRole
  reviewCycle : Option Nat
  type : TaskEventType
  action : String
  target : String
  consumerKey : ConsumerKey
  payload : Payload
  createdAt : Time
  reportId : Option ReportId
  deriving DecidableEq, Repr

abbrev TaskTable := Table WorkspaceTask.id
abbrev SessionTable := Table ManagedSession.id
abbrev ReportTable := Table AgentReport.id

def makeTaskConsumerKey (taskId : TaskId) : ConsumerKey := .task taskId

def taskSupervisorConsumerKey (task : WorkspaceTask) : ConsumerKey :=
  match truthy task.parentTaskId with
  | some parent => makeTaskConsumerKey parent
  | none => makeTaskConsumerKey task.id

/-- `path.startswith(root_path + "/")` on paths kept as lists of ids. -/
def WorkspaceTask.isBelow (task root : WorkspaceTask) : Bool :=
  root.path ≠ [] && root.path.isPrefixOf task.path && root.path.length < task.path.length

def taskHasDescendants (tasks : TaskTable) (task : WorkspaceTask) : Bool :=
  tasks.rows.any fun other => other.id ≠ task.id && other.isBelow task

def tasksInSubtree (tasks : TaskTable) (root : WorkspaceTask) : List WorkspaceTask :=
  tasks.rows.filter fun task => task.id = root.id || task.isBelow root

end ClaudeHub
