import ClaudeHub.Messaging.Delivery

/-! # The holder of a session's pump lock

Sending, resuming, retrying, pumping and taking in a report all hold the pump lock of
their session from the first write to the last. Between two waits each of them runs
one stretch, which leaves the manager and says where the operation waits next or how
it ended. A stretch may also end where the source goes on with the next queued call;
the operation then waits in `pumping`.
-/

namespace ClaudeHub

structure Surroundings where
  now : Time := 0
  seated : Bool := true
  readable : Bool := true
  storable : Bool := true
  saved : Bool := true
  busy : Bool := false
  unsent : Bool := true
  audited : Bool := true
  deriving DecidableEq, Repr

/-- A message to a session. A chat gives an unkeyed message the id `generated`. -/
structure SendRequest where
  message : String
  attachments : List Attachment := []
  callId : Option CallId := none
  generated : CallId := .raw ""
  answersQuestion : Bool := false
  deriving DecidableEq, Repr

/-- `_compute_payload_fingerprint` -/
def SendRequest.fingerprint (request : SendRequest) : PayloadFingerprint :=
  ⟨request.message, request.attachments⟩

def SendRequest.callIdFor (request : SendRequest) (session : ManagedSession) : Option CallId :=
  match request.callId with
  | some callId => some callId
  | none => if session.sessionKind = .chat then some request.generated else none

inductive PumpCaller
  | pump
  | send (callId : CallId)
  | resume (callId : CallId)
  | retry (callId : CallId)
  deriving DecidableEq, Repr

inductive PumpOutcome
  | returned
  | found (present : Bool)
  | raised (error : DeliveryError)
  deriving DecidableEq, Repr

/-- Where the holder of a pump lock waits, with the local variables it goes on with. A
session kept here is the record that was read before the wait. -/
inductive LockedCall
  | admitting (request : SendRequest)
  | pumping (rest : List CallId) (caller : PumpCaller)
  | allowing (session : ManagedSession) (callId : CallId) (rest : List CallId)
      (caller : PumpCaller)
  | readying (session : ManagedSession) (callId : CallId) (rest : List CallId)
      (caller : PumpCaller)
  | rechecking (session : ManagedSession) (callId : CallId) (rest : List CallId)
      (caller : PumpCaller)
  | submitting (callId : CallId) (rest : List CallId) (caller : PumpCaller)
  | turning (callId : CallId) (caller : PumpCaller)
  /-- A recovery wake that the provider has not taken waits for its last check. -/
  | withdrawing (callId : CallId)
  | querying (session : ManagedSession) (task : Option WorkspaceTask) (callId : CallId)
  | nudging (session : ManagedSession) (task : Option WorkspaceTask) (callId : CallId)
  | reporting (session : ManagedSession)
  deriving DecidableEq

inductive Next
  | waits (call : LockedCall)
  | ends (outcome : PumpOutcome)
  deriving DecidableEq

/-- The effect of one stretch, with the call ids that it queued, withdrew unsent or
moved to delivered. -/
structure Stretch where
  manager : Manager
  next : Next
  enqueued : List CallId := []
  retired : List CallId := []
  acked : List CallId := []
  deriving DecidableEq

namespace Manager

def isIn (manager : Manager) (sessionId : SessionId) (state : DeliveryState)
    (callId : CallId) : Bool :=
  match manager.lists sessionId with
  | none => false
  | some lists => callId ∈ lists.callIds state

theorem mem_of_isIn {manager : Manager} {sessionId : SessionId} {state : DeliveryState}
    {callId : CallId} {lists : CallLists} (h : manager.isIn sessionId state callId = true)
    (hlists : manager.lists sessionId = some lists) : callId ∈ lists.callIds state := by
  unfold isIn at h
  rw [hlists] at h
  exact of_decide_eq_true h

/-- How the caller of a finished pump cycle ends. -/
def afterPump (manager : Manager) (sessionId : SessionId) (caller : PumpCaller) : PumpOutcome :=
  match caller with
  | .pump => .returned
  | .send callId | .retry callId =>
    if manager.isIn sessionId .uncertain callId then .raised .deliveryUncertain else .returned
  | .resume callId =>
    if manager.isIn sessionId .uncertain callId then .raised .deliveryUncertain
    else .found true

/-- `_pump_session_messages_locked`, up to its first call. -/
def startPump (manager : Manager) (sessionId : SessionId) (caller : PumpCaller) : Stretch :=
  match manager.sessions.get? sessionId with
  | none => ⟨manager, .ends .returned, [], [], []⟩
  | some session => ⟨manager, .waits (.pumping session.pendingCallIds caller), [], [], []⟩

/-- `_retire_liveness_delivery` with what it withdraws. -/
def withdraws (manager : Manager) (sessionId : SessionId) (callId : CallId) (unsent : Bool) :
    List CallId :=
  match manager.sessions.get? sessionId with
  | none => []
  | some session =>
    if callId ∈ session.processingCallIds ++ session.uncertainCallIds
        ++ session.deliveredCallIds then []
    else if session.sessionKind = .chat && !unsent then []
    else session.pendingCallIds.within [callId]

def withdraw (manager : Manager) (sessionId : SessionId) (callId : CallId) (unsent : Bool)
    (next : Next) : Stretch :=
  ⟨manager.retireLivenessDelivery sessionId callId unsent, next, [],
    manager.withdraws sessionId callId unsent, []⟩

/-- The body of the pump loop once the call may be delivered: the intent is saved before
the send. -/
def pumpCall (manager : Manager) (session : ManagedSession) (callId : CallId)
    (rest : List CallId) (caller : PumpCaller) (around : Surroundings) : Stretch :=
  if session.sessionKind = .chat && (session.archived || session.chatPaused
      || session.uncertainCallIds ≠ [] || around.busy) then
    ⟨manager, .ends (manager.afterPump session.id caller), [], [], []⟩
  else
    let task := manager.task? session.taskId
    let mirrored := task.filter fun task => callId ∈ task.pendingCallIds
    match session.pendingMessages.lookup callId with
    | none =>
      ⟨(manager.putSession
          { session with toCallLists := session.failPending callId }).mirror mirrored
            (·.failPending callId),
        .waits (.pumping rest caller), [], [], []⟩
    | some _ =>
      let claimed := (manager.putSession { session with
        toCallLists := session.claim callId
        processingCallIdsAt := session.processingCallIdsAt.set callId around.now }).mirror
          mirrored (·.claim callId)
      if !around.saved then
        -- A chat takes its intent back; a terminal keeps it in memory.
        ⟨if session.sessionKind = .chat then (claimed.putSession session).mirror mirrored id
          else claimed, .ends (.raised .saveFailed), [], [], []⟩
      else if !around.seated then
        ⟨claimed.markProcessingAsUncertain session.id [callId],
          .waits (.pumping rest caller), [], [], []⟩
      else ⟨claimed, .waits (.readying session callId rest caller), [], [], []⟩

def pumpNext (manager : Manager) (sessionId : SessionId) (rest : List CallId)
    (caller : PumpCaller) (around : Surroundings) : Stretch :=
  match rest, manager.sessions.get? sessionId with
  | [], _ => ⟨manager, .ends (manager.afterPump sessionId caller), [], [], []⟩
  | _, none => ⟨manager, .ends .returned, [], [], []⟩
  | callId :: rest, some session =>
    if callId ∉ session.pendingCallIds then
      ⟨manager, .waits (.pumping rest caller), [], [], []⟩
    else if callId.isRecoveryWake then
      ⟨manager, .waits (.allowing session callId rest caller), [], [], []⟩
    else manager.pumpCall session callId rest caller around

def handOver (manager : Manager) (session : ManagedSession) (callId : CallId)
    (rest : List CallId) (caller : PumpCaller) : Stretch :=
  if session.sessionKind = .chat then ⟨manager, .waits (.turning callId caller), [], [], []⟩
  else ⟨manager, .waits (.submitting callId rest caller), [], [], []⟩

def notReady (manager : Manager) (session : ManagedSession) (callId : CallId)
    (rest : List CallId) (caller : PumpCaller) : Stretch :=
  if session.sessionKind = .chat then
    ⟨manager.rollbackChatProcessingToPending session.id [callId],
      .ends (.raised .providerFailed), [], [], []⟩
  else
    ⟨manager.rollbackProcessingToPending session.taskId session.id [callId],
      .waits (.pumping rest caller), [], [], []⟩

def turnFailed (manager : Manager) (sessionId : SessionId) (callId : CallId)
    (caller : PumpCaller) (evidence : ChatEvidence) (cancelled : Bool) : Stretch :=
  match evidence with
  | .notSent =>
    let manager := manager.rollbackChatProcessingToPending sessionId [callId]
    if callId.isRecoveryWake then ⟨manager, .waits (.withdrawing callId), [], [], []⟩
    else ⟨manager, .ends (.raised .providerFailed), [], [], []⟩
  | _ =>
    let manager := if evidence ≠ .accepted && manager.isIn sessionId .processing callId then
      manager.markProcessingAsUncertain sessionId [callId] else manager
    ⟨manager, .ends (if cancelled then .raised .cancelled
      else manager.afterPump sessionId caller), [], [], []⟩

def enqueueCall (manager : Manager) (session : ManagedSession) (request : SendRequest)
    (callId : CallId) (around : Surroundings) : Stretch :=
  if !around.storable then ⟨manager, .ends (.raised .attachmentRejected), [], [], []⟩
  else
    let first := request.answersQuestion && session.sessionKind = .chat
    let queued := manager.putSession { session with
      toCallLists := session.enqueue callId first
      pendingMessages := session.pendingMessages.set callId request.message
      pendingAttachments := session.pendingAttachments.set callId request.attachments
      callPayloadFingerprints := session.callPayloadFingerprints.set callId request.fingerprint }
    { queued.startPump session.id (.send callId) with enqueued := [callId] }

def resendCall (manager : Manager) (session : ManagedSession) (callId : CallId) : Stretch :=
  if callId ∈ session.uncertainCallIds then
    ⟨manager, .ends (.raised .deliveryUncertain), [], [], []⟩
  else if callId ∈ session.pendingCallIds then manager.startPump session.id (.send callId)
  else if callId ∈ session.processingCallIds || callId ∈ session.deliveredCallIds then
    ⟨manager, .ends .returned, [], [], []⟩
  else ⟨manager, .ends (.raised .inconsistentState), [], [], []⟩

/-- `_send_session_message_locked`, up to the pump. -/
def sendSessionMessageLocked (manager : Manager) (session : ManagedSession)
    (request : SendRequest) (around : Surroundings) : Stretch :=
  if !around.seated then ⟨manager, .ends (.raised .seatMismatch), [], [], []⟩ else
  match request.callIdFor session with
  | none => ⟨manager, .ends .returned, [], [], []⟩
  | some callId =>
    match session.callPayloadFingerprints.lookup callId with
    | some existing =>
      if request.fingerprint ≠ existing then
        ⟨manager, .ends (.raised .payloadConflict), [], [], []⟩
      else manager.resendCall session callId
    | none =>
      if !session.inAnyState callId then manager.enqueueCall session request callId around
      else
        -- A call from before fingerprints were kept: derive one from its envelope.
        match session.pendingMessages.lookup callId with
        | some message =>
          if !around.readable then
            ⟨manager, .ends (.raised .attachmentUnreadable), [], [], []⟩
          else
            let existing : PayloadFingerprint :=
              ⟨message, (session.pendingAttachments.lookup callId).getD []⟩
            let session := { session with
              callPayloadFingerprints := session.callPayloadFingerprints.set callId existing }
            let manager := manager.putSession session
            if request.fingerprint ≠ existing then
              ⟨manager, .ends (.raised .payloadConflict), [], [], []⟩
            else manager.resendCall session callId
        | none =>
          if callId ∈ session.deliveredCallIds then ⟨manager, .ends .returned, [], [], []⟩
          else ⟨manager, .ends (.raised .inconsistentState), [], [], []⟩

/-- The read-only checks of `send_session_message` before the locks: an end, or none. -/
def sendFastPath (session : ManagedSession) (request : SendRequest) : Option PumpOutcome :=
  match request.callId with
  | none => none
  | some callId =>
    match session.callPayloadFingerprints.lookup callId with
    | none => none
    | some existing =>
      if request.fingerprint ≠ existing then some (.raised .payloadConflict)
      else if callId ∈ session.processingCallIds || callId ∈ session.deliveredCallIds then
        some .returned
      else none

/-- `send_session_message` under its locks: a recovery wake that was not sent yet waits
for its check. -/
def sendSessionMessage (manager : Manager) (session : ManagedSession) (request : SendRequest)
    (around : Surroundings) : Stretch :=
  match request.callId with
  | some callId =>
    if callId ∉ session.processingCallIds ++ session.deliveredCallIds
        ++ session.uncertainCallIds && callId.isRecoveryWake then
      ⟨manager, .waits (.admitting request), [], [], []⟩
    else manager.sendSessionMessageLocked session request around
  | none => manager.sendSessionMessageLocked session request around

/-- `_resume_existing_call_locked`: nothing but the stored envelope is sent. -/
def resumeExistingCall (manager : Manager) (session : ManagedSession) (callId : CallId) :
    Stretch :=
  if callId ∈ session.uncertainCallIds then
    ⟨manager, .ends (.raised .deliveryUncertain), [], [], []⟩
  else if callId ∈ session.pendingCallIds then manager.startPump session.id (.resume callId)
  else if callId ∈ session.processingCallIds || callId ∈ session.deliveredCallIds then
    ⟨manager, .ends (.found true), [], [], []⟩
  else ⟨manager, .ends (.found false), [], [], []⟩

/-- `_audit_task_for_session` -/
def auditTask (manager : Manager) (sessionId : SessionId) : Option WorkspaceTask :=
  match manager.sessions.get? sessionId with
  | none => none
  | some session =>
    (manager.task? session.currentTaskId).orElse fun _ => manager.task? session.taskId

/-- Whether `_emit_delivery_retry_requested` returns. -/
def emitsRetryRequested (manager : Manager) (sessionId : SessionId) (around : Surroundings) :
    Bool :=
  (manager.auditTask sessionId).isSome && around.audited

/-- Put the records of a retry back to uncertain. Both are copies of what the retry
wrote. -/
def undoRetry (manager : Manager) (session : ManagedSession) (task : Option WorkspaceTask)
    (undo : CallLists → CallLists) : Manager :=
  (manager.putSession { session with toCallLists := undo session.toCallLists }).mirror task undo

def retryWithReceipt (manager : Manager) (session : ManagedSession)
    (task : Option WorkspaceTask) (callId : CallId) (present : Bool) (around : Surroundings) :
    Stretch :=
  if present then
    let updated := { session with toCallLists := session.retryAccepted callId }
    let updatedTask := task.map fun task =>
      { task with toCallLists := task.retryAccepted callId }
    let moved := (manager.putSession updated).mirror task (·.retryAccepted callId)
    if !moved.emitsRetryRequested session.id around then
      ⟨moved.undoRetry updated updatedTask (·.undoAccepted callId),
        .ends (.raised .auditFailed), [], [], []⟩
    else if session.sessionKind = .chat then ⟨moved, .ends .returned, [], [], []⟩
    else match truthy (session.pendingMessages.lookup callId) with
      | none =>
        ⟨moved.undoRetry updated updatedTask (·.undoAccepted callId),
          .ends (.raised .deliveryUncertain), [], [], []⟩
      | some _ => ⟨moved, .waits (.nudging updated updatedTask callId), [], [], []⟩
  else
    let updated := { session with toCallLists := session.retryUnsent callId }
    let updatedTask := task.map fun task => { task with toCallLists := task.retryUnsent callId }
    let moved := (manager.putSession updated).mirror task (·.retryUnsent callId)
    if !moved.emitsRetryRequested session.id around then
      ⟨moved.undoRetry updated updatedTask (·.undoUnsent callId),
        .ends (.raised .auditFailed), [], [], []⟩
    else moved.startPump session.id (.retry callId)

def retryRefusal (session : ManagedSession) (callId : CallId) : DeliveryError :=
  if callId ∈ session.deliveredCallIds then .alreadyDelivered
  else if callId ∈ session.processingCallIds then .inFlight
  else if callId ∈ session.pendingCallIds then .alreadyPending
  else .notUncertain

def retryTask (manager : Manager) (session : ManagedSession) (callId : CallId) :
    Except DeliveryError (Option WorkspaceTask) :=
  match truthy session.taskId with
  | none => .ok none
  | some taskId =>
    match manager.tasks.get? taskId with
    | none => .error .taskMissing
    | some task =>
      if task.sessionId ≠ some session.id then .error .sessionDiverged
      else if callId ∉ task.uncertainCallIds then .error .taskDiverged
      else .ok (some task)

/-- `_retry_uncertain_delivery_locked`, up to the receipt query of a terminal. -/
def retryUncertainDelivery (manager : Manager) (session : ManagedSession) (callId : CallId)
    (evidence : ChatEvidence) (around : Surroundings) : Stretch :=
  if callId ∉ session.uncertainCallIds then
    ⟨manager, .ends (.raised (retryRefusal session callId)), [], [], []⟩
  else if session.pendingMessages.lookup callId = none then
    ⟨manager, .ends (.raised .payloadMissing), [], [], []⟩
  else match manager.retryTask session callId with
    | .error error => ⟨manager, .ends (.raised error), [], [], []⟩
    | .ok task =>
      if session.sessionKind = .chat then
        match evidence with
        | .uncertain => ⟨manager, .ends (.raised .deliveryUncertain), [], [], []⟩
        | .accepted => manager.retryWithReceipt session task callId true around
        | .notSent => manager.retryWithReceipt session task callId false around
      else ⟨manager, .waits (.querying session task callId), [], [], []⟩

/-- What a report brings to the outbox: the calls it acknowledges, itself and by its
task's dispatch, with what the mailbox records as their targets. -/
structure ReportAcks where
  taskId : Option TaskId := none
  callIds : List CallId
  targets : Dict CallId TaskId := .empty
  /-- The transaction is saved. Otherwise the snapshot is restored. -/
  committed : Bool := true
  renamed : Option String := none
  binds : Bool := false

/-- `_rename_session_for_task` with the session record read before its wait. -/
def renameSession (manager : Manager) (session : ManagedSession) (title : Option String) :
    Manager :=
  match title with
  | none => manager
  | some title => manager.putSession { session with title := title }

def bindSession (manager : Manager) (sessionId : SessionId) (taskId : Option TaskId) : Manager :=
  match manager.sessions.get? sessionId, taskId with
  | some session, some taskId => manager.putSession
      { session with taskId := some taskId, currentTaskId := some taskId }
  | _, _ => manager

/-- The outbox part of `create_report`. -/
def takeReport (manager : Manager) (session : ManagedSession) (report : ReportAcks) : Stretch :=
  let renamed := manager.renameSession session report.renamed
  if !report.committed then ⟨renamed, .ends (.raised .saveFailed), [], [], []⟩
  else
    let bound := renamed.bindSession session.id (if report.binds then report.taskId else none)
    let verified := bound.verifiedAcks report.targets.lookup report.taskId session.id
      report.callIds
    let acked := match bound.lists session.id with
      | none => []
      | some lists => lists.acknowledged verified
    ⟨bound.ackCallIds report.taskId session.id verified, .ends .returned, [], [], acked⟩

theorem lists_bindSession (manager : Manager) (sessionId : SessionId) (taskId : Option TaskId)
    (k : SessionId) : (manager.bindSession sessionId taskId).lists k = manager.lists k := by
  unfold bindSession
  cases hget : manager.sessions.get? sessionId with
  | none => rfl
  | some session =>
    cases taskId with
    | none => rfl
    | some =>
      simp only
      rw [lists_putSession]
      split
      · next hk =>
          have hid : session.id = sessionId := Table.key_of_get? hget
          rw [hk, hid, lists_of_get? hget]
      · rfl

end Manager

end ClaudeHub
