import Mathlib.Data.List.Sort
import ClaudeHub.Reports.Projection

/-! # The task mailbox

One workspace's event stream: appending under an idempotent call id, consumer
cursors, waiting and acknowledging. The functions here are the in-memory half;
`ClaudeHub.TaskMailbox.Store` adds the durable payload and its failures.
-/

namespace ClaudeHub

structure CallRecord where
  callId : CallId
  action : String
  target : String
  fingerprint : RequestFingerprint
  event : TaskEvent
  deriving DecidableEq, Repr

abbrev CallIndex := Table CallRecord.callId

structure TaskMailbox where
  events : List TaskEvent := []
  nextSeq : Option Nat := none
  callIndex : CallIndex := Table.empty
  deriving DecidableEq

structure WorkspaceManager where
  tasks : TaskTable := Table.empty
  sessions : SessionTable := Table.empty
  reports : ReportTable := Table.empty
  mailbox : TaskMailbox := {}
  deriving DecidableEq

inductive HubError
  | taskHasManagedSessionReference
  | taskHasDescendants (id : TaskId)
  | taskHasDependents (id : TaskId) (dependents : List TaskId)
  | unknownTask (id : TaskId)
  | legacyResidentConsumer
  | notTaskConsumer (key : ConsumerKey)
  | callIdConflict (callId : CallId) (action target : String) (record : CallRecord)
  | ackBehind (sequence current : Nat)
  | ackAhead (sequence workspaceMax : Nat)
  | persistFailed
  deriving DecidableEq

/-- `max((item.sequence for item in events), default=0)`. -/
def maxSequence (events : List TaskEvent) : Nat :=
  (events.map TaskEvent.sequence).foldr max 0

namespace TaskMailbox

def workspaceMaxSequence (mailbox : TaskMailbox) : Nat :=
  max (maxSequence mailbox.events) (mailbox.nextSeq.getD 1 - 1)

/-- Allocate the next number; the counter moves past it. -/
def nextSequence (mailbox : TaskMailbox) : Nat × TaskMailbox :=
  let seq := mailbox.workspaceMaxSequence + 1
  (seq, { mailbox with nextSeq := some (seq + 1) })

def recordCall (mailbox : TaskMailbox) (record : CallRecord) : Except HubError TaskMailbox :=
  match mailbox.callIndex.get? record.callId with
  | some existing =>
    if existing.action ≠ record.action ∨ existing.target ≠ record.target ∨
        existing.fingerprint ≠ record.fingerprint then
      .error (.callIdConflict record.callId record.action record.target existing)
    else .ok mailbox
  | none => .ok { mailbox with callIndex := mailbox.callIndex.insert record }

end TaskMailbox

/-- The arguments of `append_event` besides the persistence flags. -/
structure AppendRequest where
  taskId : TaskId
  actorRole : TaskActorRole
  eventType : TaskEventType
  callId : CallId
  action : String
  consumerKey : Option ConsumerKey := none
  actorSessionId : Option SessionId := none
  reviewCycle : Option Nat := none
  target : Option String := none
  payload : Payload := []
  reportId : Option ReportId := none
  deriving DecidableEq

def AppendRequest.resolvedTarget (req : AppendRequest) : String :=
  (truthy req.target).getD req.taskId

def AppendRequest.resolvedConsumer (req : AppendRequest) (task : WorkspaceTask) : ConsumerKey :=
  match req.consumerKey with
  | some (.other "") | none => taskSupervisorConsumerKey task
  | some key => key

def AppendRequest.body (req : AppendRequest) (task : WorkspaceTask) : TaskEventBody where
  taskId := req.taskId
  actorSessionId := req.actorSessionId
  actorRole := req.actorRole
  reviewCycle := req.reviewCycle
  eventType := req.eventType
  target := req.resolvedTarget
  consumerKey := req.resolvedConsumer task
  payload := req.payload
  reportId := req.reportId

def AppendRequest.fingerprint (req : AppendRequest) (task : WorkspaceTask) : RequestFingerprint :=
  ⟨req.action, req.body task⟩

def AppendRequest.event (req : AppendRequest) (task : WorkspaceTask) (sequence : Nat)
    (now : Time) : TaskEvent where
  sequence := sequence
  callId := req.callId
  fingerprint := req.fingerprint task
  taskId := req.taskId
  actorSessionId := req.actorSessionId
  actorRole := req.actorRole
  reviewCycle := req.reviewCycle
  type := req.eventType
  action := req.action
  target := req.resolvedTarget
  consumerKey := req.resolvedConsumer task
  payload := req.payload
  createdAt := now
  reportId := req.reportId

def AppendRequest.record (req : AppendRequest) (task : WorkspaceTask) (event : TaskEvent) :
    CallRecord where
  callId := req.callId
  action := req.action
  target := req.resolvedTarget
  fingerprint := req.fingerprint task
  event := event

def TaskEvent.eventReportId (event : TaskEvent) : Option ReportId :=
  match truthy event.reportId with
  | some id => some id
  | none =>
    match event.payload.lookup "report_id" with
    | some (.str id) => truthy (some id)
    | _ => none

/-- An event of the historical `emit` bridge for this report of this task. -/
def TaskEvent.isCanonicalLegacyReportAlias (event : TaskEvent) (taskId : TaskId)
    (reportId : ReportId) : Bool :=
  (if event.action = "" then "emit" else event.action) = "emit" && event.target ≠ taskId &&
    event.eventReportId = some reportId && event.taskId = taskId

namespace WorkspaceManager

def matchesStoredReportProjection (wm : WorkspaceManager) (req : AppendRequest) : Bool :=
  match truthy req.reportId with
  | none => false
  | some reportId =>
    match wm.reports.get? reportId, wm.tasks.get? req.taskId with
    | some report, some task =>
      match wm.sessions.get? report.sessionId with
      | none => false
      | some session =>
        report.taskId = some req.taskId &&
          req.action = "report" && req.resolvedTarget = task.id &&
          req.callId = .report report.id && reportId = report.id && req.taskId = task.id &&
          req.actorSessionId = some session.id &&
          req.actorRole = taskActorRoleForSession session &&
          req.reviewCycle = some report.reviewCycle &&
          req.eventType = taskEventTypeForReport report.state task &&
          req.payload = canonicalReportBridgePayload report session task
    | _, _ => false

def reuseLegacyReportAlias (wm : WorkspaceManager) (req : AppendRequest) : Option TaskEvent :=
  if wm.matchesStoredReportProjection req then
    match wm.mailbox.events.find? (fun event => event.callId = req.callId), req.reportId with
    | some existing, some reportId =>
      if existing.isCanonicalLegacyReportAlias req.taskId reportId then some existing else none
    | _, _ => none
  else none

/-- What an append finds before it persists: an event already recorded under the
call id, or the mailbox with the new event staged at its end. -/
inductive Staged
  | existing (event : TaskEvent)
  | created (event : TaskEvent) (mailbox : TaskMailbox)

/-- `append_event` up to its durable write. -/
def stageEvent (wm : WorkspaceManager) (req : AppendRequest) (now : Time) :
    Except HubError Staged :=
  match wm.tasks.get? req.taskId with
  | none => .error (.unknownTask req.taskId)
  | some task =>
    match wm.reuseLegacyReportAlias req with
    | some event => .ok (.existing event)
    | none =>
      match wm.mailbox.callIndex.get? req.callId with
      | some existing =>
        if existing.action ≠ req.action ∨ existing.target ≠ req.resolvedTarget ∨
            existing.fingerprint ≠ req.fingerprint task then
          .error (.callIdConflict req.callId req.action req.resolvedTarget existing)
        else .ok (.existing existing.event)
      | none =>
        let (seq, mailbox) := wm.mailbox.nextSequence
        let event := req.event task seq now
        .ok (.created event
          { mailbox with
            events := mailbox.events ++ [event]
            callIndex := mailbox.callIndex.insert (req.record task event) })

/-- Undo of a staged append whose durable write raised. -/
def unstage (mailbox : TaskMailbox) (event : TaskEvent) : TaskMailbox where
  events := mailbox.events.dropLast
  callIndex := mailbox.callIndex.erase event.callId
  nextSeq := some event.sequence

def consumerTask (wm : WorkspaceManager) : ConsumerKey → Except HubError WorkspaceTask
  | .legacyResident => .error .legacyResidentConsumer
  | .other text => .error (.notTaskConsumer (.other text))
  | .task id =>
    match wm.tasks.get? id with
    | none => .error (.unknownTask id)
    | some task => .ok task

def consumerCursor (wm : WorkspaceManager) (key : ConsumerKey) : Except HubError Nat :=
  (wm.consumerTask key).map WorkspaceTask.consumerAckSequence

def setConsumerCursor (wm : WorkspaceManager) (key : ConsumerKey) (sequence : Nat) :
    Except HubError WorkspaceManager :=
  (wm.consumerTask key).map fun task =>
    { wm with tasks := wm.tasks.insert { task with consumerAckSequence := sequence } }

def visibleTaskIds (wm : WorkspaceManager) (key : ConsumerKey) :
    Except HubError (List TaskId) :=
  (wm.consumerTask key).map fun task => (tasksInSubtree wm.tasks task).map WorkspaceTask.id

/-- Events after the durable cursor: those addressed to the consumer and, for a
subtree wait, those of every task below it. -/
def wait (wm : WorkspaceManager) (key : ConsumerKey) (sinceSequence : Nat := 0)
    (subtree : Bool := false) : Except HubError (List TaskEvent) := do
  let cursor ← wm.consumerCursor key
  let floor := max sinceSequence cursor
  let visible ← if subtree then wm.visibleTaskIds key else pure []
  return wm.mailbox.events.filter fun event =>
    floor < event.sequence && (event.consumerKey = key || event.taskId ∈ visible)

/-- The checks of `ack` and the advanced cursor, before its durable write. -/
def stageAck (wm : WorkspaceManager) (key : ConsumerKey) (sequence : Nat) :
    Except HubError WorkspaceManager := do
  let current ← wm.consumerCursor key
  let workspaceMax := wm.mailbox.workspaceMaxSequence
  if sequence < current then .error (.ackBehind sequence current)
  else if workspaceMax < sequence then .error (.ackAhead sequence workspaceMax)
  else wm.setConsumerCursor key sequence

end WorkspaceManager

/-- Rebuild the call index from the events, refusing two events that disagree
about one call id. -/
def rebuildCallIndex (events : List TaskEvent) : Except HubError CallIndex :=
  events.foldlM (fun calls event =>
    match calls.get? event.callId with
    | some existing =>
      if existing.action ≠ event.action ∨ existing.target ≠ event.target ∨
          existing.fingerprint ≠ event.fingerprint then
        .error (.callIdConflict event.callId event.action event.target existing)
      else .ok calls
    | none =>
      .ok (calls.insert ⟨event.callId, event.action, event.target, event.fingerprint, event⟩))
    Table.empty

def sortBySequence (events : List TaskEvent) : List TaskEvent :=
  events.insertionSort fun a b => a.sequence ≤ b.sequence

def backfillReports (wm : WorkspaceManager) : List (AgentReport × WorkspaceTask) :=
  let reports := wm.reports.rows.filterMap fun report =>
    match truthy report.taskId with
    | none => none
    | some taskId => (wm.tasks.get? taskId).map fun task => (report, task)
  reports.insertionSort fun a b =>
    a.1.createdAt < b.1.createdAt ∨ (a.1.createdAt = b.1.createdAt ∧ a.1.id ≤ b.1.id)

structure Backfill where
  mailbox : TaskMailbox
  coveredReportIds : List ReportId
  coveredCallIds : List CallId
  added : List TaskEvent := []

def Backfill.skips (acc : Backfill) (wm : WorkspaceManager) (report : AgentReport)
    (task : WorkspaceTask) : Bool :=
  let reviewCycle := if report.reviewCycle ≠ 0 then report.reviewCycle else task.reviewCycle
  report.id ∈ acc.coveredReportIds || CallId.report report.id ∈ acc.coveredCallIds ||
    (report.callId.any fun callId => callId ≠ .raw "" && callId ∈ acc.coveredCallIds) ||
    (isFallbackReaperReport report &&
      (currentRoundHasVerdict task.reviewCycle task.reviewedCycle ||
        reviewCycleHasReviewerActivity wm.reports task.id reviewCycle))

def backfillRequest (wm : WorkspaceManager) (report : AgentReport) (task : WorkspaceTask) :
    AppendRequest :=
  let (actorSessionId, actorRole) := taskActorForReport wm.sessions report
  { taskId := task.id
    actorRole := actorRole
    eventType := taskEventTypeForReport report.state task
    callId := .report report.id
    action := "report"
    consumerKey := some (taskSupervisorConsumerKey task)
    actorSessionId := actorSessionId
    reviewCycle := some report.reviewCycle
    target := some task.id
    payload := canonicalReportEventPayload report task actorSessionId actorRole
    reportId := some report.id }

def Backfill.report (wm : WorkspaceManager) (acc : Backfill)
    (item : AgentReport × WorkspaceTask) : Except HubError Backfill :=
  let (report, task) := item
  if acc.skips wm report task then .ok acc
  else
    let req := backfillRequest wm report task
    match acc.mailbox.callIndex.get? req.callId with
    | some existing =>
      if existing.action ≠ "report" ∨ existing.target ≠ task.id ∨
          existing.fingerprint ≠ req.fingerprint task then
        .error (.callIdConflict req.callId "report" task.id existing)
      else .ok acc
    | none =>
      let (seq, mailbox) := acc.mailbox.nextSequence
      let event := req.event task seq report.createdAt
      .ok
        { mailbox := { mailbox with callIndex := mailbox.callIndex.insert (req.record task event) }
          coveredReportIds := report.id :: acc.coveredReportIds
          coveredCallIds := req.callId :: acc.coveredCallIds
          added := acc.added ++ [event] }

def backfillReportTaskEvents (wm : WorkspaceManager) (mailbox : TaskMailbox) :
    Except HubError TaskMailbox := do
  let acc ← (backfillReports wm).foldlM (Backfill.report wm)
    { mailbox := mailbox
      coveredReportIds := mailbox.events.filterMap fun event => truthy event.reportId
      coveredCallIds := mailbox.events.map TaskEvent.callId }
  return if acc.added = [] then acc.mailbox
    else { acc.mailbox with events := sortBySequence (acc.mailbox.events ++ acc.added) }

def loadFromDict (wm : WorkspaceManager) (taskEvents : List TaskEvent) :
    Except HubError TaskMailbox := do
  let events := sortBySequence taskEvents
  let calls ← rebuildCallIndex events
  let mailbox ← backfillReportTaskEvents wm { events := events, callIndex := calls }
  let calls ← rebuildCallIndex mailbox.events
  let mailbox := { mailbox with callIndex := calls }
  return { mailbox with nextSeq := some (mailbox.workspaceMaxSequence + 1) }

def purgeTaskEvents (mailbox : TaskMailbox) (taskId : TaskId) : Except HubError TaskMailbox := do
  let remaining := mailbox.events.filter fun event => event.taskId ≠ taskId
  let calls ← rebuildCallIndex remaining
  return { mailbox with events := remaining, callIndex := calls }

end ClaudeHub
