import ClaudeHub.Lib.Lines
import ClaudeHub.Reports.Policy
import ClaudeHub.TaskMailbox.Core

/-! # Whose report it is

Reports as they are posted and as they are filed, the call id under which a report is known
again, and which session may report on which task.
-/

namespace ClaudeHub

/-- The fields that a report's fingerprint digests; the digest is taken to be injective.
`details` stands for those that only the fingerprint reads. -/
structure ReportContent where
  state : AgentReportState
  message : String
  messageEn : Option String := none
  taskId : Option TaskId := none
  goalPacket : Option GoalPacket := none
  reviewDecision : ReviewDecision := .auto
  reviewReason : Option String := none
  ackedCallIds : List CallId := []
  details : List String := []
  deriving DecidableEq, Repr

/-- The call id of a report: the caller's text, or what the adapter for callers without one
derives from the content. -/
inductive ReportCallId
  | text (text : String)
  | legacy (content : ReportContent)
  deriving DecidableEq, Repr

structure AgentReportCreate extends ReportContent where
  callId : Option String := none
  deriving DecidableEq, Repr

structure FiledReport extends AgentReport where
  filedUnder : ReportCallId
  ackedCallIds : List CallId := []
  details : List String := []
  deriving DecidableEq, Repr

abbrev FiledReportTable := Table fun report : FiledReport => report.id

structure ReportingSession extends ManagedSession where
  reportCallIds : Dict ReportCallId ReportId := .empty
  reportCallFingerprints : Dict ReportCallId ReportContent := .empty
  deriving DecidableEq

abbrev ReportingSessionTable := Table fun session : ReportingSession => session.id

inductive ReportError
  | keyError (id : String)
  | reportCallIdConflict (callId : ReportCallId)
  | taskExecutionConflict (text : String)
  | runtimeError (text : String)
  | mailbox (error : HubError)
  | saveFailed
  deriving DecidableEq

def canonicalReportCallId (text : String) : String := String.ofList (Lines.strip text.toList)

def ReportCallId.canonical : ReportCallId → ReportCallId
  | .text given => .text (canonicalReportCallId given)
  | .legacy content => .legacy content

/-- The call id that `create_report` goes on with. -/
def AgentReportCreate.reportCallId (payload : AgentReportCreate) : ReportCallId :=
  let callId := canonicalReportCallId (payload.callId.getD "")
  if callId = "" then .legacy payload.toReportContent else .text callId

/-- `_compute_report_fingerprint` of a stored report, which keeps no goal packet. -/
def FiledReport.fingerprint (report : FiledReport) : ReportContent where
  state := report.state
  message := report.message
  messageEn := report.messageEn
  taskId := report.taskId
  reviewDecision := report.reviewDecision
  reviewReason := report.reviewReason
  ackedCallIds := report.ackedCallIds
  details := report.details

namespace ReportingSession

def storedReportCallKey (session : ReportingSession) (callId : ReportCallId) :
    Option ReportCallId :=
  if (session.reportCallIds.lookup callId).isSome then some callId
  else (session.reportCallIds.rows.find? fun entry => entry.1.canonical = callId).map Prod.fst

def existingReportForCallId (session : ReportingSession) (reports : FiledReportTable)
    (payload : AgentReportCreate) : Except ReportError (Option FiledReport) :=
  let callId := payload.reportCallId
  match session.storedReportCallKey callId with
  | none => .ok none
  | some key =>
    match (session.reportCallIds.lookup key).bind reports.get? with
    | none => .ok none
    | some existing =>
      let fingerprint := (session.reportCallFingerprints.lookup key).orElse fun _ =>
        session.reportCallFingerprints.lookup callId
      if fingerprint.getD existing.fingerprint = payload.toReportContent then
        .ok (some existing)
      else .error (.reportCallIdConflict callId)

end ReportingSession

/-- `a or b` on optional texts -/
def orElseTruthy (a b : Option String) : Option String := (truthy a).orElse fun _ => truthy b

def reportTaskId (session : ManagedSession) (payload : AgentReportCreate) : Option TaskId :=
  orElseTruthy payload.taskId (orElseTruthy session.taskId session.currentTaskId)

def sessionStillBoundToReport (session : ManagedSession) (report : FiledReport) : Bool :=
  match truthy report.taskId with
  | none => true
  | some taskId => orElseTruthy session.currentTaskId session.taskId = some taskId

def isStaleReportForAbortedTask (task : TaskRecord) (session : ManagedSession) : Bool :=
  task.manualAbortedAt.isSome && task.sessionId ≠ some session.id
    && task.reviewSessionId ≠ some session.id

def ensureSessionMayReportTask (session : ManagedSession) (task : TaskRecord) :
    Except ReportError Unit :=
  if task.executionControl = .initiator then
    .error (.taskExecutionConflict "task_is_initiator_controlled")
  else if session.role = .reviewer then
    if task.reviewSessionId ≠ some session.id then
      .error (.runtimeError "Session is not the current reviewer for this task")
    else .ok ()
  else match task.sessionId with
    | none => .error (.runtimeError "Task has no assigned worker session")
    | some worker =>
      if worker ≠ session.id then
        .error (.runtimeError "Session is not the current worker for this task")
      else .ok ()

def reportedTask (tasks : TaskRecordTable) (session : ManagedSession)
    (payload : AgentReportCreate) : Except ReportError (Option TaskRecord) :=
  match reportTaskId session payload with
  | none => .ok none
  | some taskId =>
    match tasks.get? taskId with
    | none => .error (.keyError taskId)
    | some task =>
      if isStaleReportForAbortedTask task session then
        .error (.runtimeError "Task was manually aborted; restart or reassign it before accepting reports.")
      else (ensureSessionMayReportTask session task).map fun _ => some task

theorem reportedTask_some {tasks : TaskRecordTable} {session : ManagedSession}
    {payload : AgentReportCreate} {task : TaskRecord}
    (h : reportedTask tasks session payload = .ok (some task)) :
    reportTaskId session payload = some task.id ∧ tasks.get? task.id = some task := by
  unfold reportedTask at h
  split at h
  · simp at h
  · next taskId htask =>
      split at h
      · simp at h
      · next found hget =>
          have hkey : found.id = taskId := (Table.get?_eq_some.mp hget).2
          split at h
          · simp at h
          · have hsame : some found = some task := by
              cases hmay : ensureSessionMayReportTask session found with
              | error => simp [hmay, Except.map] at h
              | ok => simpa [hmay, Except.map] using h
            cases hsame
            rw [hkey]
            exact ⟨htask, hget⟩

end ClaudeHub
