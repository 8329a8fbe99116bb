import ClaudeHub.Messaging.AckFrame
import ClaudeHub.TaskMailbox.CallIndex

/-! # Retries and their audit events

A retry of an uncertain delivery moves the call, saves, and asks the mailbox for an audit
event before anything is sent. The event's call id carries a number that is counted from
the events that survive. The delivery service runs here beside the mailbox: other services
append to it, the deletion of a task purges it, and a restart loads what was saved.
-/

namespace ClaudeHub

open StepSystem

def CallId.text : CallId → String
  | .report id => "report:" ++ id
  | .dispatch task attempt => "dispatch:" ++ task ++ ":" ++ toString attempt
  | .liveness text => "liveness:" ++ text
  | .reviewDelivery text => "review-delivery:" ++ text
  | .raw text => text

structure Operator where
  actor : String
  reason : String
  deriving DecidableEq, Repr

structure Retry where
  session : ManagedSession
  task : Option WorkspaceTask
  callId : CallId
  deriving DecidableEq

namespace Retry

/-- What a retry does to the lists of the session and of the bound task. -/
def move (retry : Retry) (present : Bool) (lists : CallLists) : CallLists :=
  if present then lists.retryAccepted retry.callId else lists.retryUnsent retry.callId

/-- How a move is taken back. -/
def undo (retry : Retry) (present : Bool) (lists : CallLists) : CallLists :=
  if present then lists.undoAccepted retry.callId else lists.undoUnsent retry.callId

def moved (retry : Retry) (present : Bool) : ManagedSession :=
  { retry.session with toCallLists := retry.move present retry.session.toCallLists }

def movedTask (retry : Retry) (present : Bool) : Option WorkspaceTask :=
  retry.task.map fun task => { task with toCallLists := retry.move present task.toCallLists }

end Retry

def Manager.moveRetried (manager : Manager) (retry : Retry) (present : Bool) : Manager :=
  (manager.putSession (retry.moved present)).mirror retry.task (retry.move present)

def retryPrefix (callId : CallId) : String := "delivery:retry:" ++ callId.text ++ ":"

/-- `f"{retry_prefix}{attempt}"` -/
def retryCallId (callId : CallId) (attempt : Nat) : CallId :=
  .raw (retryPrefix callId ++ toString attempt)

/-- The surviving events whose call id starts with the prefix of this call's retries. -/
def TaskMailbox.priorAttempts (mailbox : TaskMailbox) (callId : CallId) : Nat :=
  (mailbox.events.filter fun event =>
    (retryPrefix callId).toList.isPrefixOf event.callId.text.toList).length

def retryPayload (sessionId : SessionId) (callId : CallId) (operator : Operator)
    (attempt : Nat) : Payload :=
  [("call_id", .str callId.text), ("session_id", .str sessionId), ("actor", .str operator.actor),
    ("reason", .str operator.reason), ("attempt", .int attempt)]

def retryRequest (task : WorkspaceTask) (sessionId : SessionId) (callId : CallId)
    (operator : Operator) (attempt : Nat) : AppendRequest where
  taskId := task.id
  actorRole := .human
  eventType := .progress
  callId := retryCallId callId attempt
  action := "delivery:retry_requested"
  consumerKey := some (makeTaskConsumerKey task.id)
  actorSessionId := some sessionId
  target := some sessionId
  payload := retryPayload sessionId callId operator attempt

namespace Hub

def manager (hub : Hub) : Manager := ⟨hub.live.sessions, hub.live.tasks⟩

def auditRequest (hub : Hub) (task : WorkspaceTask) (sessionId : SessionId) (callId : CallId)
    (operator : Operator) : AppendRequest :=
  retryRequest task sessionId callId operator (hub.live.mailbox.priorAttempts callId + 1)

/-- `_emit_delivery_retry_requested`, with whether it returns. -/
def emitDeliveryRetryRequested (hub : Hub) (sessionId : SessionId) (callId : CallId)
    (operator : Operator) (now : Time) (outcome : SaveOutcome) : Hub × Bool :=
  match hub.manager.auditTask sessionId with
  | none => (hub, false)
  | some task =>
    match hub.appendEvent (hub.auditRequest task sessionId callId operator) now true outcome with
    | (hub, .ok _) => (hub, true)
    | (hub, .error _) => (hub, false)

end Hub

/-! ## Runs -/

/-- The delivery service and the mailbox of one workspace, with what was saved of both, who
asked for the retry that each session waits for, and every message handed over to a session. -/
structure AuditedRun where
  delivery : DeliveryRun := {}
  reports : ReportTable := Table.empty
  mailbox : TaskMailbox := {}
  saved : WorkspaceState := {}
  operators : Dict SessionId Operator := Table.empty
  sent : List (SessionId × CallId) := []
  deriving DecidableEq

inductive AuditedOp
  /-- A step of the delivery service. The operator is of the retry that starts with it. -/
  | deliver (op : DeliveryOp) (operator : Operator) (now : Time) (outcome : SaveOutcome)
  /-- A retry ends between its move and its audit event: the save in between raises, or the
  process goes down there. -/
  | cutShort (op : DeliveryOp) (outcome : SaveOutcome)
  | createTask (task : WorkspaceTask)
  /-- `_stage_task_followup_pending` -/
  | stageFollowup (taskId : TaskId) (callId : CallId)
  | closeSession (sessionId : SessionId)
  | appendEvent (req : AppendRequest) (now : Time) (persist : Bool) (outcome : SaveOutcome)
  | unstageEvents (staged : List (TaskEvent × Bool))
  | recordReport (report : AgentReport) (outcome : SaveOutcome)
  | deleteTask (taskId : TaskId) (outcome : SaveOutcome)
  | save (outcome : SaveOutcome)
  | restart

def ChatEvidence.receipt : ChatEvidence → Option Bool
  | .accepted => some true
  | .notSent => some false
  | .uncertain => none

namespace DeliveryRun

def retryOf (run : DeliveryRun) : DeliveryOp → Option (Retry × Option Bool)
  | .retry sessionId callId evidence _ =>
    match run.holders.get? sessionId, run.manager.sessions.get? sessionId with
    | none, some session =>
      if callId ∉ session.uncertainCallIds ∨ session.pendingMessages.lookup callId = none
          ∨ session.sessionKind ≠ .chat then none
      else match run.manager.retryTask session callId with
        | .error _ => none
        | .ok task => some (⟨session, task, callId⟩, evidence.receipt)
    | _, _ => none
  | .proceed sessionId (.receipt present) _ =>
    match (run.holders.get? sessionId).map LockHolder.call with
    | some (.querying session task callId) => some (⟨session, task, callId⟩, present)
    | _ => none
  | _ => none

def handedOver (next : DeliveryRun) : DeliveryOp → List (SessionId × CallId)
  | .proceed sessionId _ _ =>
    match (next.holders.get? sessionId).map LockHolder.call with
    | some (.submitting callId _ _) | some (.turning callId _) => [(sessionId, callId)]
    | _ => []
  | _ => []

def workspaceFree (run : DeliveryRun) (sessionId : SessionId) : Bool :=
  run.holders.rows.all fun holder => holder.sessionId = sessionId

/-- What the services leave alone beside the workspace lock. The outbox operations take that
lock before the pump lock; a session's edits keep its messages and a task's edits its lists. -/
def admits (run : DeliveryRun) : DeliveryOp → Bool
  | .openSession _ => run.holders.rows = []
  | .editSession session =>
    ((run.manager.sessions.get? session.id).map ManagedSession.pendingMessages)
      = some session.pendingMessages
  | .editTask task =>
    ((run.manager.tasks.get? task.id).map WorkspaceTask.toCallLists) = some task.toCallLists
  | .send sessionId request _ =>
    run.workspaceFree sessionId || ((run.manager.sessions.get? sessionId).bind fun session =>
      Manager.sendFastPath session request).isSome
  | .resumeCall sessionId _ | .pump sessionId | .retry sessionId _ _ _ | .createReport sessionId
  | .proceed sessionId _ _ | .abandon sessionId _ => run.workspaceFree sessionId
  | _ => true

def isFreshTask (run : DeliveryRun) (taskId : TaskId) : Bool :=
  (run.manager.tasks.get? taskId).isNone && run.holders.rows.all fun holder =>
    match holder.call with
    | .querying _ (some task) _ => task.id ≠ taskId
    | _ => true

end DeliveryRun

def DeliveryOp.withAudited (audited : Bool) : DeliveryOp → DeliveryOp
  | .retry sessionId callId evidence around =>
    .retry sessionId callId evidence { around with audited := audited }
  | .proceed sessionId answer around =>
    .proceed sessionId answer { around with audited := audited }
  | op => op

namespace AuditedRun

/-- The process as the mailbox finds it while the delivery service has these records. -/
def hubWith (run : AuditedRun) (manager : Manager) : Hub where
  live :=
    { tasks := manager.tasks, sessions := manager.sessions, reports := run.reports,
      mailbox := run.mailbox }
  saved := run.saved

def hub (run : AuditedRun) : Hub := run.hubWith run.delivery.manager

def withManager (run : AuditedRun) (manager : Manager) : AuditedRun :=
  { run with delivery := { run.delivery with manager := manager } }

def store (run : AuditedRun) (hub : Hub) : AuditedRun :=
  { run.withManager hub.manager with
    reports := hub.live.reports
    mailbox := hub.live.mailbox
    saved := hub.saved }

def operatorOf (run : AuditedRun) (op : DeliveryOp) (operator : Operator) : Operator :=
  match op with
  | .proceed sessionId _ _ => (run.operators.lookup sessionId).getD operator
  | _ => operator

def remember (run : AuditedRun) (op : DeliveryOp) (operator : Operator) :
    Dict SessionId Operator :=
  match op with
  | .retry sessionId _ _ _ => run.operators.set sessionId operator
  | _ => run.operators

/-- A step of the delivery service, after the process was left as `hub`. -/
def delivered (run : AuditedRun) (op : DeliveryOp) (operator : Operator) (hub : Hub)
    (delivery : DeliveryRun) : AuditedRun where
  delivery := delivery
  reports := run.reports
  mailbox := hub.live.mailbox
  saved := hub.saved
  operators := run.remember op operator
  sent := run.sent ++ delivery.handedOver op

def deliver (run : AuditedRun) (op : DeliveryOp) (operator : Operator) (now : Time)
    (outcome : SaveOutcome) : Option AuditedRun :=
  match run.delivery.retryOf op with
  | some (retry, some present) =>
    let moved := run.hubWith (run.delivery.manager.moveRetried retry present)
    let emitted := moved.emitDeliveryRetryRequested retry.session.id retry.callId
      (run.operatorOf op operator) now outcome
    (run.delivery.step (op.withAudited emitted.2)).map
      (run.delivered op operator emitted.1)
  | _ => (run.delivery.step op).map (run.delivered op operator run.hub)

def step (run : AuditedRun) : AuditedOp → Option AuditedRun
  | .deliver op operator now outcome =>
    if run.delivery.admits op then run.deliver op operator now outcome else none
  | .cutShort op outcome =>
    if run.delivery.admits op then
      match run.delivery.retryOf op with
      | some (retry, some present) =>
        let moved := run.delivery.manager.moveRetried retry present
        let delivery := run.delivery.settle retry.session.id
          ⟨moved, .ends (.raised .saveFailed), [], [], []⟩
        some { run with
          delivery := delivery
          saved := ((run.hubWith moved).saveWorkspaceState outcome).saved }
      | _ => none
    else none
  | .createTask task =>
    if run.delivery.isFreshTask task.id then
      some (run.withManager (run.delivery.manager.putTask { task with toCallLists := {} }))
    else none
  | .stageFollowup taskId callId =>
    if run.delivery.holders.rows = [] then
      some (run.withManager
        (OutboxRun.stageTaskFollowupPending run.delivery.manager taskId callId))
    else none
  | .closeSession sessionId =>
    let manager := run.delivery.manager
    if run.delivery.holders.rows = [] then
      some (run.withManager { manager with sessions := manager.sessions.erase sessionId })
    else none
  | .appendEvent req now persist outcome =>
    some (run.store (run.hub.appendEvent req now persist outcome).1)
  | .unstageEvents staged =>
    some { run with mailbox := ClaudeHub.unstageEvents run.mailbox staged }
  | .recordReport report outcome => some (run.store (run.hub.recordReport report outcome))
  | .deleteTask taskId outcome => some (run.store (run.hub.deleteTask taskId outcome).1)
  | .save outcome => some (run.store (run.hub.saveWorkspaceState outcome))
  | .restart =>
    match run.hub.restart with
    | .error _ => none
    | .ok hub => some
        { delivery := .loaded hub.manager
          reports := hub.live.reports
          mailbox := hub.live.mailbox
          saved := hub.saved
          sent := run.sent }

end AuditedRun

def CallLists.UncertainOnly (lists : CallLists) (callId : CallId) : Prop :=
  callId ∈ lists.uncertainCallIds ∧ callId ∉ lists.pendingCallIds
    ∧ callId ∉ lists.processingCallIds ∧ callId ∉ lists.deliveredCallIds

instance (lists : CallLists) (callId : CallId) : Decidable (lists.UncertainOnly callId) :=
  inferInstanceAs (Decidable (_ ∧ _ ∧ _ ∧ _))

def Manager.payload (manager : Manager) (sessionId : SessionId) (callId : CallId) :
    Option String :=
  (manager.sessions.get? sessionId).bind fun session => session.pendingMessages.lookup callId

namespace Retry

/-- The records that the retry has read keep the call in no second list. -/
def Undisputed (retry : Retry) : Prop :=
  retry.session.UncertainOnly retry.callId
    ∧ ∀ task ∈ retry.task, task.UncertainOnly retry.callId

instance (retry : Retry) : Decidable retry.Undisputed := inferInstanceAs (Decidable (_ ∧ _))

/-- The step appended the audit event of this retry under a call id that no event has, and
handed nothing over. -/
def Recorded (retry : Retry) (operator : Operator) (run next : AuditedRun) : Prop :=
  (∃ event attempt, next.mailbox.events = run.mailbox.events ++ [event]
    ∧ event.callId = retryCallId retry.callId attempt
    ∧ event.callId ∉ run.mailbox.events.map TaskEvent.callId
    ∧ event.action = "delivery:retry_requested"
    ∧ event.payload = retryPayload retry.session.id retry.callId operator attempt)
  ∧ next.sent = run.sent

/-- The retry has ended with the call uncertain on the session and on the bound task, its
message kept, and nothing handed over. -/
structure StaysUncertain (retry : Retry) (run next : AuditedRun) : Prop where
  session : ∃ lists, next.delivery.manager.lists retry.session.id = some lists
    ∧ lists.UncertainOnly retry.callId
  task : ∀ task ∈ retry.task, ∀ stored, next.delivery.manager.tasks.get? task.id = some stored →
    stored.UncertainOnly retry.callId
  payload : (next.delivery.manager.payload retry.session.id retry.callId).isSome
  kept : next.delivery.manager.payload retry.session.id retry.callId
    = retry.session.pendingMessages.lookup retry.callId
  released : next.delivery.holders.get? retry.session.id = none
  quiet : next.sent = run.sent

end Retry

namespace AuditedRun

/-- A retry that takes the call out of its uncertainty is recorded before anything is sent;
one without a receipt, or whose audit event raises, leaves the call uncertain. -/
def Traceable (run : AuditedRun) (op : AuditedOp) (next : AuditedRun) : Prop :=
  ∀ delivered operator now outcome retry receipt,
    op = .deliver delivered operator now outcome →
    run.delivery.retryOf delivered = some (retry, receipt) →
    (next.delivery.manager.isIn retry.session.id .uncertain retry.callId = false →
      retry.Recorded (run.operatorOf delivered operator) run next)
    ∧ (receipt = none ∨ next.delivery.outcomes
          = run.delivery.outcomes ++ [(retry.session.id, .raised .auditFailed)] →
        retry.StaysUncertain run next)

/-- No surviving event was recorded for the same retry under the call id that is counted
next. -/
def NumberFree (run : AuditedRun) (retry : Retry) (present : Bool) (operator : Operator) :
    Prop :=
  let moved := run.hubWith (run.delivery.manager.moveRetried retry present)
  match moved.manager.auditTask retry.session.id with
  | none => True
  | some task =>
    let req := moved.auditRequest task retry.session.id retry.callId operator
    ∀ event ∈ run.mailbox.events, event.callId = req.callId →
      ¬ (event.action = req.action ∧ event.target = req.resolvedTarget
        ∧ event.fingerprint = req.fingerprint task)

instance (run : AuditedRun) (retry : Retry) (present : Bool) (operator : Operator) :
    Decidable (run.NumberFree retry present operator) := by
  unfold NumberFree
  dsimp only
  split <;> infer_instance

/-- The side condition of a run: a retry finds its call in no second list and the number of
its audit event free. -/
def RetriesFreely (run : AuditedRun) : AuditedOp → Prop
  | .deliver op operator _ _ =>
    match run.delivery.retryOf op with
    | none => True
    | some (retry, none) => retry.Undisputed
    | some (retry, some present) =>
      retry.Undisputed ∧ run.NumberFree retry present (run.operatorOf op operator)
  | _ => True

instance (run : AuditedRun) (op : AuditedOp) : Decidable (run.RetriesFreely op) := by
  cases op with
  | deliver =>
    unfold RetriesFreely
    dsimp only
    split <;> infer_instance
  | _ =>
    unfold RetriesFreely
    infer_instance

end AuditedRun

end ClaudeHub
