import ClaudeHub.Messaging.Delivery
import ClaudeHub.Reports.Identity

/-! # Report intake

`create_report` takes the locks of the workspace and of the session, checks the report and
renames the tab of the session. The transaction then files the report, rewrites the session
and the task, acknowledges calls, writes the mailbox event and saves; where it raises, the
workspace goes back to what it was. What is done for a report after the commit is not part of
its intake.
-/

namespace ClaudeHub

def defaultAutonomousRun (maxIterations : Option Nat) : AutonomousRun where
  maxIterations := maxIterations.getD 3
  statusSummary := "Intake"
  nextAction := "Derive Goal Packet and begin work"

def TaskRecord.runOrDefault (task : TaskRecord) : AutonomousRun :=
  task.autonomousRun.getD (defaultAutonomousRun task.maxIterations)

def AutonomousRun.workerIteration (run : AutonomousRun) (task : TaskRecord)
    (session : ManagedSession) (report : FiledReport) (now : Time) : AutonomousIteration where
  iteration := run.iteration
  workerSessionId := some session.id
  workerReportId := some report.id
  controllerDecision := some "worker_ready_for_evaluation"
  startedAt := match run.iterations.getLast? with
    | some last => last.startedAt
    | none => task.startedAt
  completedAt := some now

def autonomousRunAfterWorkerReport (task : TaskRecord) (session : ManagedSession)
    (report : FiledReport) (now : Time) : Option AutonomousRun :=
  match autonomousPhaseAfterWorkerReport report.state with
  | none => none
  | some phase =>
    let run := task.runOrDefault
    if run.phase = .passed ∧ ¬ reportOpensReviewRound report.reviewCycle task.reviewedCycle then
      none
    else
      some { run with
        phase := phase
        statusSummary := autonomousPhaseLabel phase
        activeSessionIds := [].addNew (run.activeSessionIds ++ [session.id])
        nextAction := autonomousNextAction phase
        iterations :=
          if report.state = .readyForReview ∨ report.state = .completed then
            run.iterations ++ [run.workerIteration task session report now]
          else run.iterations }

def autonomousRunAfterEvaluation (task : TaskRecord) (evaluator : ManagedSession)
    (decision : EvaluationDecision) (now : Time) : AutonomousRun :=
  let run := task.runOrDefault
  let nextPhase :=
    autonomousPhaseFromEvaluationDecision decision run.iteration run.maxIterations
  { run with
    phase := nextPhase
    iteration := if nextPhase = .revising then run.iteration + 1 else run.iteration
    statusSummary := autonomousPhaseLabel nextPhase
    activeSessionIds := [].addNew (run.activeSessionIds ++ [evaluator.id])
    nextAction := autonomousNextAction nextPhase
    exhaustedAt := if nextPhase = .exhausted then some now else none
    completedAt := if nextPhase = .passed then some now else none
    iterations := run.iterations ++
      [{ iteration := run.iteration
         workerSessionId := task.sessionId
         evaluatorSessionId := some evaluator.id
         controllerDecision := some nextPhase.value
         completedAt := some now }] }

/-- `_should_route_goal_packet_for_approval`, for a report with a goal packet -/
def shouldRouteGoalPacketForApproval (task : TaskRecord) (session : ManagedSession)
    (state : AgentReportState) : Bool :=
  task.taskMode = .reviewed && (session.role = .orchestrator || session.role = .worker)
    && state = .working && !reviewInFlight task.reviewRequestedAt task.reviewCompletedAt
    && (match task.goalPacket.map GoalPacket.status with
      | some .pendingReview | some .approved | some .frozen => false
      | _ => true)

def goalPacketForTask (task : TaskRecord) (session : ManagedSession) (content : ReportContent)
    (now : Time) : Option GoalPacket :=
  content.goalPacket.map fun packet =>
    if shouldRouteGoalPacketForApproval task session content.state then
      { packet with
        status := .pendingReview
        createdAt := some ((packet.createdAt.orElse fun _ =>
          task.goalPacket.bind GoalPacket.createdAt).getD now)
        updatedAt := some now }
    else packet

def reviewerVerdictActionable (task : TaskRecord) (report : FiledReport) : Bool :=
  reportOpensReviewRound report.reviewCycle task.reviewedCycle
    && reviewInFlight task.reviewRequestedAt task.reviewCompletedAt

structure TaskUpdate where
  task : TaskRecord
  written : Bool := false

def progressUpdate (task : TaskRecord) (session : ManagedSession) (report : FiledReport)
    (goalPacket : Option GoalPacket) (now : Time) : TaskUpdate :=
  let run :=
    if task.taskMode = .autonomous then autonomousRunAfterWorkerReport task session report now
    else none
  { task := { task with
      goalPacket := goalPacket.orElse fun _ => task.goalPacket
      autonomousRun := run.orElse fun _ => task.autonomousRun }
    written := goalPacket.isSome || run.isSome }

def statusUpdate (task : TaskRecord) (session : ManagedSession) (report : FiledReport)
    (now : Time) (update : TaskUpdate) : TaskUpdate :=
  if session.role = .reviewer ∧ report.state.isTerminalReviewState
      ∧ ¬ reviewerVerdictActionable task report then
    -- A stale or repeated verdict moves nothing.
    update
  else if session.role = .orchestrator
      ∧ currentRoundHasVerdict task.reviewCycle task.reviewedCycle then
    -- The round is judged: the agent's own reports come late.
    match taskStatusFromReport report.state with
    | .working => ⟨{ update.task with updatedAt := now }, true⟩
    | .review => ⟨{ update.task with status := .review, updatedAt := now }, true⟩
    | _ => update
  else if session.role = .orchestrator ∧ taskStatusFromReport report.state = .working
      ∧ task.status = .review ∧ reviewInFlight task.reviewRequestedAt task.reviewCompletedAt then
    ⟨{ update.task with updatedAt := now }, true⟩
  else
    match taskStatusFromReport report.state with
    | .working => ⟨{ update.task with
        status := .working
        updatedAt := now
        startedAt := some (task.startedAt.getD now) }, true⟩
    | .review => ⟨{ update.task with
        status := .review
        updatedAt := now
        reviewedAt := some now }, true⟩
    | .failed => ⟨{ update.task with
        status := .failed
        updatedAt := now
        failedAt := some now
        failureReason := some
          (if report.message = "" then "agent reported failure" else report.message)
        humanAcceptanceRequestedAt := some now }, true⟩
    | status => ⟨{ update.task with status := status, updatedAt := now }, true⟩

def isGoalPacketReview (task : TaskRecord) : Bool :=
  task.taskMode = .reviewed && task.goalPacket.map GoalPacket.status = some .pendingReview

def goalPacketAfterVerdict (task : TaskRecord) (state : AgentReportState) (now : Time) :
    Option GoalPacket :=
  match state with
  | .reviewPassed => task.goalPacket.map fun packet =>
    { packet with status := .approved, updatedAt := some now }
  | .reviewFailed => task.goalPacket.map fun packet =>
    { packet with status := .rejected, updatedAt := some now }
  | _ => none

def verdictUpdate (task : TaskRecord) (session : ManagedSession) (report : FiledReport)
    (now : Time) (update : TaskRecord) : TaskRecord :=
  let judged := computeReviewerVerdictTaskUpdate update report.state session.id now
    report.reviewCycle (isGoalPacketReview task)
  let evaluated :=
    match task.taskMode, autonomousDecisionFromReviewState report.state with
    | .autonomous, some decision =>
      let run := autonomousRunAfterEvaluation task session decision now
      { judged with
        autonomousRun := some run
        humanAcceptanceRequestedAt := if run.phase = .passed then some now else none }
    | _, _ => judged
  if isGoalPacketReview task then
    { evaluated with
      goalPacket := (goalPacketAfterVerdict task report.state now).orElse fun _ =>
        evaluated.goalPacket }
  else evaluated

def isVerdict (task : TaskRecord) (session : ManagedSession) (report : FiledReport) : Bool :=
  session.role = .reviewer && report.state.isTerminalReviewState
    && reviewerVerdictActionable task report

def taskAfterReport (task : TaskRecord) (session : ManagedSession) (report : FiledReport)
    (goalPacket : Option GoalPacket) (now : Time) : TaskRecord :=
  let update := statusUpdate task session report now
    (progressUpdate task session report goalPacket now)
  if isVerdict task session report then verdictUpdate task session report now update.task
  else if update.written then { update.task with updatedAt := now }
  else update.task

structure ReportDesk where
  tasks : TaskRecordTable := .empty
  sessions : ReportingSessionTable := .empty
  reports : FiledReportTable := .empty
  mailbox : TaskMailbox := {}
  /-- What `apply_task_update` has logged. A rollback does not take it back. -/
  warnings : List TransitionWarning := []
  deriving DecidableEq

/-- A call of `create_report`. -/
structure ReportCall where
  sessionId : SessionId
  payload : AgentReportCreate
  reportId : ReportId
  now : Time := 0
  saved : Bool := true
  deriving DecidableEq

namespace ReportDesk

def putSession (desk : ReportDesk) (session : ReportingSession) : ReportDesk :=
  { desk with sessions := desk.sessions.insert session }

def manager (desk : ReportDesk) : Manager where
  sessions := desk.sessions.project ReportingSession.toManagedSession fun _ => rfl
  tasks := TaskRecordTable.taskTable desk.tasks

def workspaceManager (desk : ReportDesk) : WorkspaceManager where
  tasks := TaskRecordTable.taskTable desk.tasks
  sessions := desk.sessions.project ReportingSession.toManagedSession fun _ => rfl
  reports := desk.reports.project FiledReport.toAgentReport fun _ => rfl
  mailbox := desk.mailbox

/-- `lookup_call`, as far as the target goes -/
def callTarget (desk : ReportDesk) (callId : CallId) : Option TaskId :=
  (desk.mailbox.callIndex.get? callId).map CallRecord.target

def ackCallIds (desk : ReportDesk) (taskId : Option TaskId) (sessionId : SessionId)
    (callIds : List CallId) : ReportDesk :=
  let verified := desk.manager.verifiedAcks desk.callTarget taskId sessionId callIds
  let tasks := match (truthy taskId).bind desk.tasks.get? with
    | none => desk.tasks
    | some task => desk.tasks.insert
        { task with toCallLists := task.acknowledge verified }
  let sessions := match desk.sessions.get? sessionId with
    | none => desk.sessions
    | some session =>
      if session.acknowledged verified = [] then desk.sessions
      else desk.sessions.insert { session with
        toCallLists := session.acknowledge verified
        pendingMessages := session.pendingMessages.dropKeys verified
        pendingAttachments := session.pendingAttachments.dropKeys verified
        processingCallIdsAt := session.processingCallIdsAt.dropKeys verified }
  { desk with tasks, sessions }

/-- The assignment of the task's current dispatch attempt, and the form that older states
have for it. -/
def implicitAcks (task : TaskRecord) : List CallId :=
  [.dispatch task.id task.dispatchAttempt, .raw ("dispatch:" ++ task.id)]

def bridgeReportToAgentEvent (desk : ReportDesk) (report : FiledReport)
    (session : ManagedSession) (now : Time) : Except ReportError TaskMailbox :=
  match (truthy report.taskId).bind desk.tasks.get? with
  | none => .ok desk.mailbox
  | some task =>
    let request : AppendRequest :=
      { taskId := task.id
        actorRole := taskActorRoleForSession session
        eventType := taskEventTypeForReport report.state task.toWorkspaceTask
        callId := .report report.id
        action := "report"
        consumerKey := some (taskSupervisorConsumerKey task.toWorkspaceTask)
        actorSessionId := some session.id
        reviewCycle := some report.reviewCycle
        payload := canonicalReportBridgePayload report.toAgentReport session task.toWorkspaceTask
        reportId := some report.id }
    match desk.workspaceManager.stageEvent request now with
    | .error error => .error (.mailbox error)
    | .ok (.existing _) => .ok desk.mailbox
    | .ok (.created _ mailbox) => .ok mailbox

/-- `_cleanup_stale_reviewer_assignments`, for one session -/
def keepsReviewer (tasks : TaskRecordTable) (session : ManagedSession) : Bool :=
  if session.archived || session.role ≠ .reviewer then true
  else
    match orElseTruthy session.taskId session.currentTaskId with
    | none => true
    | some candidate =>
      match tasks.get? candidate with
      | none => false
      | some task =>
        if task.executionControl = .initiator then true
        else if task.status = .done then false
        else if task.reviewSessionId ≠ some session.id then false
        else if session.runtimeStatus = .idle && session.status = .idle then
          task.status = .working || task.status = .review
        else true

def releaseReviewer (tasks : TaskRecordTable) (session : ReportingSession) : ReportingSession :=
  if keepsReviewer tasks session.toManagedSession then session
  else { session with
    taskId := none
    currentTaskId := none
    status := .idle
    runtimeStatus := .idle }

theorem releaseReviewer_id (tasks : TaskRecordTable) (session : ReportingSession) :
    (releaseReviewer tasks session).id = session.id := by
  unfold releaseReviewer
  split <;> rfl

def cleanupStaleReviewerAssignments (desk : ReportDesk) : ReportDesk :=
  { desk with
    sessions := desk.sessions.map (releaseReviewer desk.tasks) (releaseReviewer_id desk.tasks) }

def sessionAfterReport (session : ReportingSession) (call : ReportCall)
    (task : Option TaskRecord) : ReportingSession :=
  let callId := call.payload.reportCallId
  { session with
    status := managedStatusFromReport call.payload.state session.role session.status
    runtimeStatus := runtimeStatusFromReport call.payload.state session.runtimeStatus
    taskId := match task with
      | some task => some task.id
      | none => session.taskId
    currentTaskId := match task with
      | some task => some task.id
      | none => session.currentTaskId
    reportCallIds := session.reportCallIds.set callId call.reportId
    reportCallFingerprints := session.reportCallFingerprints.set callId
      call.payload.toReportContent }

def filedReport (call : ReportCall) (task : Option TaskRecord) : FiledReport where
  id := call.reportId
  taskId := task.map fun task => task.id
  sessionId := call.sessionId
  state := call.payload.state
  message := call.payload.message
  messageEn := call.payload.messageEn
  reviewDecision := call.payload.reviewDecision
  reviewReason := call.payload.reviewReason
  reviewCycle := match task with
    | some task => task.reviewCycle
    | none => 0
  createdAt := call.now
  filedUnder := call.payload.reportCallId
  ackedCallIds := call.payload.ackedCallIds
  details := call.payload.details

def updateTask (desk : ReportDesk) (session : ManagedSession) (report : FiledReport)
    (task : TaskRecord) (call : ReportCall) : ReportDesk :=
  let goalPacket := goalPacketForTask task session call.payload.toReportContent call.now
  let (updated, logged) := applyTaskUpdate task
    (taskAfterReport task session report goalPacket call.now)
    (if session.role = .reviewer then .reviewVerdict else .report)
  let desk := { desk with
    tasks := desk.tasks.insert updated
    warnings := desk.warnings ++ logged }
  if session.role = .reviewer ∧ report.state.isTerminalReviewState then
    desk.cleanupStaleReviewerAssignments
  else desk

/-- `_create_report_under_lock` for a new report, up to the mailbox event. -/
def stageReport (desk : ReportDesk) (session : ReportingSession) (task : Option TaskRecord)
    (call : ReportCall) : ReportDesk :=
  let report := filedReport call task
  let filed := { desk with
    reports := desk.reports.insert report
    sessions := desk.sessions.insert (sessionAfterReport session call task) }
  let updated := match task with
    | none => filed
    | some task => filed.updateTask session.toManagedSession report task call
  let implicit := match task with
    | none => []
    | some task => implicitAcks task
  updated.ackCallIds report.taskId session.id (report.ackedCallIds ++ implicit)

/-- `_replay_existing_report_intake`, up to the mailbox event: the desk, and the session whose
event it is. -/
def stageReplay (desk : ReportDesk) (existing : FiledReport) :
    ReportDesk × Option ManagedSession :=
  match desk.sessions.get? existing.sessionId with
  | none => (desk, none)
  | some session =>
    let task := (truthy existing.taskId).bind desk.tasks.get?
    let implicit := match task with
      | none => []
      | some task => implicitAcks task
    (desk.ackCallIds (task.map fun task => task.id) session.id
      (existing.ackedCallIds ++ implicit), some session.toManagedSession)

/-- The event and the save of a transaction. Whatever raises restores the workspace. -/
def commitReport (desk staged : ReportDesk) (report : FiledReport)
    (session : Option ManagedSession) (call : ReportCall) :
    ReportDesk × Except ReportError FiledReport :=
  let restored := { desk with warnings := staged.warnings }
  let bridged : Except ReportError TaskMailbox := match session with
    | none => .ok staged.mailbox
    | some session => staged.bridgeReportToAgentEvent report session call.now
  match bridged with
  | .error error => (restored, .error error)
  | .ok mailbox =>
    if call.saved then ({ staged with mailbox := mailbox }, .ok report)
    else (restored, .error .saveFailed)

/-- `_rename_session_for_task` -/
def renameSession (desk : ReportDesk) (session : ReportingSession) (task : Option TaskRecord) :
    ReportDesk × ReportingSession :=
  match task with
  | none => (desk, session)
  | some task =>
    let renamed := { session with title := task.title }
    (desk.putSession renamed, renamed)

def fileReport (desk : ReportDesk) (session : ReportingSession) (call : ReportCall) :
    ReportDesk × Except ReportError FiledReport :=
  match reportedTask desk.tasks session.toManagedSession call.payload with
  | .error error => (desk, .error error)
  | .ok task =>
    let (renamed, session) := desk.renameSession session task
    let staged := renamed.stageReport session task call
    let live := (staged.sessions.get? session.id).getD session
    renamed.commitReport staged (filedReport call task) (some live.toManagedSession) call

/-- `create_report`, up to its commit. -/
def createReport (desk : ReportDesk) (call : ReportCall) :
    ReportDesk × Except ReportError FiledReport :=
  match desk.sessions.get? call.sessionId with
  | none => (desk, .error (.keyError call.sessionId))
  | some session =>
    match session.existingReportForCallId desk.reports call.payload with
    | .error error => (desk, .error error)
    | .ok none => desk.fileReport session call
    | .ok (some existing) =>
      if sessionStillBoundToReport session.toManagedSession existing then
        let (staged, actor) := desk.stageReplay existing
        desk.commitReport staged existing actor call
      else (desk, .ok existing)

def step (desk : ReportDesk) (call : ReportCall) : Option ReportDesk :=
  some (desk.createReport call).1

end ReportDesk

end ClaudeHub
