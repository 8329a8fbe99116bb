import ClaudeHub.Models.Records

/-! # Projection of reports onto mailbox events

How a stored report is written to the task mailbox: the event type, the actor
and the canonical payload. Intake uses the projection when a report arrives,
cold start when a stored report has no event yet.
-/

namespace ClaudeHub

def taskActorRoleForSession (session : ManagedSession) : TaskActorRole :=
  match session.role with
  | .reviewer => .reviewer
  | .resident => .supervisor
  | .worker | .orchestrator | .dispatcher => .worker

def reportStateToTaskEvent : AgentReportState → TaskEventType
  | .started => .started
  | .working => .progress
  | .blocked => .needsInput
  | .needsInput => .needsInput
  | .readyForReview => .report
  | .completed => .completed
  | .failed => .failed
  | .reviewStarted => .reviewStarted
  | .reviewPassed => .reviewPassed
  | .reviewFailed => .reviewFailed
  | .reviewNeedsInput => .reviewNeedsInput

def taskEventTypeForReport (state : AgentReportState) (task : WorkspaceTask) : TaskEventType :=
  if state = .completed ∧ task.taskMode = .reviewed then .report
  else reportStateToTaskEvent state

def AgentReportState.isReviewState : AgentReportState → Bool
  | .reviewStarted | .reviewPassed | .reviewFailed | .reviewNeedsInput => true
  | _ => false

def taskActorForReport (sessions : SessionTable) (report : AgentReport) :
    Option SessionId × TaskActorRole :=
  match sessions.get? report.sessionId with
  | some session => (some session.id, taskActorRoleForSession session)
  | none =>
    (truthy (some report.sessionId),
      if report.state.isReviewState then .reviewer else .worker)

def canonicalReportEventPayload (report : AgentReport) (task : WorkspaceTask)
    (actorSessionId : Option SessionId) (actorRole : TaskActorRole) : Payload :=
  [("message", .str report.message),
    ("report_id", .str report.id),
    ("report_state", .str report.state.value),
    ("task_id", .str task.id),
    ("actor_role", .str actorRole.value),
    ("actor_session_id", PayloadValue.ofText? actorSessionId),
    ("review_cycle", .int report.reviewCycle)]

def canonicalReportBridgePayload (report : AgentReport) (session : ManagedSession)
    (task : WorkspaceTask) : Payload :=
  canonicalReportEventPayload report task (some session.id) (taskActorRoleForSession session)

/-- Lower case of one character as far as the two ASCII phrases below can tell:
besides the ASCII capitals only the Kelvin sign has a lower case letter in them. -/
def lowerChar (c : Char) : Char := if c = '\u212A' then 'k' else c.toLower

def containsText (phrase text : List Char) : Bool := text.tails.any phrase.isPrefixOf

def isFallbackReaperReport (report : AgentReport) : Bool :=
  if report.reviewDecision ≠ .request then false
  else
    let parts := [some report.message, report.messageEn, report.reviewReason].reduceOption
    let blob := ((" ".intercalate parts).toList).map lowerChar
    containsText "fallback reaper".toList blob || containsText "background dispatcher".toList blob

def reviewCycleHasReviewerActivity (reports : ReportTable) (taskId : TaskId)
    (reviewCycle : Nat) : Bool :=
  reports.rows.any fun report =>
    report.taskId = some taskId && report.reviewCycle = reviewCycle && report.state.isReviewState

def reportOpensReviewRound (reportCycle reviewedCycle : Nat) : Bool := reportCycle > reviewedCycle

def currentRoundHasVerdict (reviewCycle reviewedCycle : Nat) : Bool := reviewedCycle ≥ reviewCycle

end ClaudeHub
