import ClaudeHub.Messaging.CallLists

/-! # Enqueue, delivery and recovery of one session's calls

The stretches of the messaging service between two waits. A session that a caller
has checked to exist is passed as the record that the caller read, since the source
writes back a copy of that record and not of the one stored meanwhile.
-/

namespace ClaudeHub

structure Manager where
  sessions : SessionTable := .empty
  tasks : TaskTable := .empty
  deriving DecidableEq

inductive ChatEvidence
  | notSent | accepted | uncertain
  deriving DecidableEq, Repr

inductive DeliveryError
  | sessionMissing
  | seatMismatch
  | payloadConflict
  | deliveryUncertain
  | inconsistentState
  | attachmentUnreadable
  | attachmentRejected
  | alreadyDelivered
  | inFlight
  | alreadyPending
  | notUncertain
  | payloadMissing
  | taskMissing
  | sessionDiverged
  | taskDiverged
  | auditFailed
  | providerFailed
  | cancelled
  | saveFailed
  deriving DecidableEq, Repr

/-- `call_id.startswith(("liveness:", "review-delivery:"))` -/
def CallId.isRecoveryWake : CallId → Bool
  | .liveness _ | .reviewDelivery _ => true
  | _ => false

/-- `call_id.split(":", 2)[1]` of a recovery wake. -/
def CallId.wakeTask : CallId → TaskId
  | .liveness text | .reviewDelivery text => String.ofList (text.toList.takeWhile fun c => c ≠ ':')
  | _ => ""

namespace Manager

def putSession (manager : Manager) (session : ManagedSession) : Manager :=
  { manager with sessions := manager.sessions.insert session }

def putTask (manager : Manager) (task : WorkspaceTask) : Manager :=
  { manager with tasks := manager.tasks.insert task }

/-- `self.tasks.get(task_id) if task_id else None` -/
def task? (manager : Manager) (taskId : Option TaskId) : Option WorkspaceTask :=
  (truthy taskId).bind manager.tasks.get?

def mirror (manager : Manager) (task : Option WorkspaceTask) (move : CallLists → CallLists) :
    Manager :=
  match task with
  | none => manager
  | some task => manager.putTask { task with toCallLists := move task.toCallLists }

def lists (manager : Manager) (sessionId : SessionId) : Option CallLists :=
  (manager.sessions.get? sessionId).map ManagedSession.toCallLists

theorem lists_of_get? {manager : Manager} {sessionId : SessionId} {session : ManagedSession}
    (h : manager.sessions.get? sessionId = some session) :
    manager.lists sessionId = some session.toCallLists := by
  simp [lists, h]

variable (manager : Manager)

theorem lists_putSession (session : ManagedSession) (k : SessionId) :
    (manager.putSession session).lists k
      = if k = session.id then some session.toCallLists else manager.lists k := by
  unfold lists putSession
  rw [Table.get?_insert]
  by_cases h : k = session.id <;> simp [h]

@[simp] theorem lists_mirror (task : Option WorkspaceTask) (move : CallLists → CallLists)
    (k : SessionId) : (manager.mirror task move).lists k = manager.lists k := by
  cases task <;> rfl

/-- `_mark_processing_as_uncertain`. The call ids are marked as they were given, without
asking whether they are still in flight. -/
def markProcessingAsUncertain (manager : Manager) (sessionId : SessionId)
    (callIds : List CallId) : Manager :=
  if callIds = [] then manager else
  match manager.sessions.get? sessionId with
  | none => manager
  | some session =>
    (manager.putSession { session with
      toCallLists := session.markUncertain callIds
      processingCallIdsAt := session.processingCallIdsAt.dropKeys callIds }).mirror
        (manager.task? session.taskId) (·.markUncertain callIds)

def rollbackProcessingToPending (manager : Manager) (taskId : Option TaskId)
    (sessionId : SessionId) (callIds : List CallId) : Manager :=
  if callIds = [] then manager else
  let manager := manager.mirror (manager.task? taskId) (·.rollback callIds)
  match manager.sessions.get? sessionId with
  | none => manager
  | some session =>
    if session.processingCallIds.within callIds = [] then manager
    else manager.putSession { session with
      toCallLists := session.rollback callIds
      processingCallIdsAt := session.processingCallIdsAt.dropKeys callIds }

/-- `_rollback_chat_processing_to_pending`: proven-unsent envelopes go ahead of later
queued input. -/
def rollbackChatProcessingToPending (manager : Manager) (sessionId : SessionId)
    (callIds : List CallId) : Manager :=
  match manager.sessions.get? sessionId with
  | none => manager
  | some session =>
    let retryIds := session.processingCallIds.within callIds
    let manager := manager.rollbackProcessingToPending session.taskId sessionId retryIds
    match manager.sessions.get? sessionId with
    | none => manager
    | some session =>
      let manager := manager.putSession
        { session with toCallLists := session.queueFirst retryIds }
      manager.mirror (manager.task? session.taskId) fun mirrored =>
        mirrored.queueFirst (retryIds.within mirrored.pendingCallIds)

def expiredLeases (session : ManagedSession) (now : Time) : List CallId :=
  session.processingCallIds.filter fun callId =>
    match session.processingCallIdsAt.lookup callId with
    | none => true
    | some claimedAt => 300 ≤ now - claimedAt

/-- `_expire_processing_leases`, for a session whose terminal is gone. -/
def expireProcessingLeases (manager : Manager) (sessionId : SessionId) (now : Time) : Manager :=
  match manager.sessions.get? sessionId with
  | none => manager
  | some session =>
    if session.status = .stopped then
      manager.markProcessingAsUncertain sessionId (expiredLeases session now)
    else manager

def recoverChatProcessingViaReceipt (manager : Manager) (sessionId : SessionId)
    (evidence : CallId → ChatEvidence) : Manager :=
  match manager.sessions.get? sessionId with
  | none => manager
  | some session =>
    let toPending := session.processingCallIds.filter fun callId =>
      evidence callId = .notSent
    let toUncertain := session.processingCallIds.filter fun callId =>
      evidence callId = .uncertain
    let manager := if toPending = [] then manager
      else manager.rollbackChatProcessingToPending sessionId toPending
    manager.markProcessingAsUncertain sessionId toUncertain

/-- `_recover_uncertain_deliveries`, for one session at start-up. -/
def recoverUncertainDeliveries (manager : Manager) (sessionId : SessionId) : Manager :=
  match manager.sessions.get? sessionId with
  | none => manager
  | some session =>
    if session.status = .stopped then
      manager.markProcessingAsUncertain sessionId session.processingCallIds
    else manager

/-- `_retire_liveness_delivery`: `unsent` is what the provider of a chat says. -/
def retireLivenessDelivery (manager : Manager) (sessionId : SessionId) (callId : CallId)
    (unsent : Bool) : Manager :=
  match manager.sessions.get? sessionId with
  | none => manager
  | some session =>
    if callId ∈ session.processingCallIds ++ session.uncertainCallIds
        ++ session.deliveredCallIds then manager
    else if session.sessionKind = .chat && !unsent then manager
    else
      (manager.putSession { session with
        toCallLists := session.retire callId
        pendingMessages := session.pendingMessages.erase callId
        pendingAttachments := session.pendingAttachments.erase callId
        callPayloadFingerprints := session.callPayloadFingerprints.erase callId }).mirror
          (manager.tasks.get? callId.wakeTask) (·.retire callId)

def canAckTaskMailboxCall (task : WorkspaceTask) (session : Option ManagedSession)
    (callId : CallId) : Bool :=
  match session with
  | none => false
  | some session =>
    (callId ∈ task.pendingCallIds || callId ∈ task.processingCallIds
      || callId ∈ task.uncertainCallIds)
      && task.sessionId = some session.id
      && (session.taskId = some task.id || session.currentTaskId = some task.id)

/-- `_verify_call_target`: `target` is what the mailbox records for the call, if anything. -/
def verifyCallTarget (manager : Manager) (target : Option TaskId) (taskId : Option TaskId)
    (sessionId : SessionId) : Bool :=
  match target with
  | none => true
  | some target =>
    match manager.task? (some target) with
    | none => false
    | some targetTask =>
      (match truthy taskId with
        | some taskId => target = taskId
        | none => true)
      && (match truthy targetTask.sessionId with
        | some assigned => assigned = sessionId
        | none => true)

def verifiesAck (manager : Manager) (lookupCall : CallId → Option TaskId)
    (taskId : Option TaskId) (sessionId : SessionId) (callId : CallId) : Bool :=
  let session := manager.sessions.get? sessionId
  let ofOutbox :=
    (match session with
      | none => false
      | some session => callId ∈ session.pendingCallIds || callId ∈ session.processingCallIds
          || callId ∈ session.uncertainCallIds)
      && manager.verifyCallTarget (lookupCall callId) taskId sessionId
  match manager.task? taskId with
  | none => ofOutbox
  | some task =>
    match lookupCall callId with
    | none => ofOutbox
    | some target =>
      if target = task.id then canAckTaskMailboxCall task session callId
      else if (manager.tasks.get? target).isSome then false
      else ofOutbox

def verifiedAcks (manager : Manager) (lookupCall : CallId → Option TaskId)
    (taskId : Option TaskId) (sessionId : SessionId) (callIds : List CallId) : List CallId :=
  callIds.filter fun callId => manager.verifiesAck lookupCall taskId sessionId callId

/-- `_ack_call_ids`, after the verification -/
def ackCallIds (manager : Manager) (taskId : Option TaskId) (sessionId : SessionId)
    (verified : List CallId) : Manager :=
  let manager := manager.mirror (manager.task? taskId) (·.acknowledge verified)
  match manager.sessions.get? sessionId with
  | none => manager
  | some session =>
    if session.acknowledged verified = [] then manager
    else manager.putSession { session with
      toCallLists := session.acknowledge verified
      pendingMessages := session.pendingMessages.dropKeys verified
      pendingAttachments := session.pendingAttachments.dropKeys verified
      processingCallIdsAt := session.processingCallIdsAt.dropKeys verified }

theorem sessions_mirror (task : Option WorkspaceTask) (move : CallLists → CallLists) :
    (manager.mirror task move).sessions = manager.sessions := by
  cases task <;> rfl

theorem lists_eq_none {manager : Manager} {sessionId : SessionId}
    (hget : manager.sessions.get? sessionId = none) : manager.lists sessionId = none := by
  simp [lists, hget]

theorem lists_unmoved {manager : Manager} {sessionId : SessionId} {move : CallLists → CallLists}
    (hsame : ∀ lists, manager.lists sessionId = some lists → move lists = lists) (k : SessionId) :
    manager.lists k
      = if k = sessionId then (manager.lists sessionId).map move else manager.lists k := by
  split
  next hk =>
    subst hk
    cases hlists : manager.lists k with
    | none => rfl
    | some lists => exact congrArg some (hsame lists hlists).symm
  next => rfl

theorem lists_markProcessingAsUncertain (sessionId : SessionId) (callIds : List CallId)
    (k : SessionId) : (manager.markProcessingAsUncertain sessionId callIds).lists k
      = if k = sessionId then (manager.lists sessionId).map (·.markUncertain callIds)
        else manager.lists k := by
  unfold markProcessingAsUncertain
  by_cases hnil : callIds = []
  · subst hnil
    exact lists_unmoved (fun lists _ => lists.markUncertain_nil) k
  · simp only [hnil, if_false]
    cases hget : manager.sessions.get? sessionId with
    | none => exact lists_unmoved (by simp [lists_eq_none hget]) k
    | some session =>
      have hid : session.id = sessionId := Table.key_of_get? hget
      simp only [lists_mirror, lists_putSession, hid, lists_of_get? hget, Option.map_some]

theorem lists_rollbackProcessingToPending (taskId : Option TaskId) (sessionId : SessionId)
    (callIds : List CallId) (k : SessionId) :
    (manager.rollbackProcessingToPending taskId sessionId callIds).lists k
      = if k = sessionId then (manager.lists sessionId).map (·.rollback callIds)
        else manager.lists k := by
  unfold rollbackProcessingToPending
  by_cases hnil : callIds = []
  · subst hnil
    exact lists_unmoved (fun lists _ => lists.rollback_nil) k
  · simp only [hnil, if_false, sessions_mirror]
    cases hget : manager.sessions.get? sessionId with
    | none =>
      rw [lists_mirror]
      exact lists_unmoved (by simp [lists_eq_none hget]) k
    | some session =>
      by_cases hin : session.processingCallIds.within callIds = []
      · simp only [hin, if_true, lists_mirror]
        refine lists_unmoved (fun lists hlists => ?_) k
        obtain rfl : session.toCallLists = lists := by simpa [lists_of_get? hget] using hlists
        exact session.toCallLists.rollback_of_within_nil hin
      · have hid : session.id = sessionId := Table.key_of_get? hget
        simp only [hin, if_false, lists_mirror, lists_putSession, hid, lists_of_get? hget,
          Option.map_some]

theorem lists_rollbackChatProcessingToPending (sessionId : SessionId) (callIds : List CallId)
    (k : SessionId) : (manager.rollbackChatProcessingToPending sessionId callIds).lists k
      = if k = sessionId then (manager.lists sessionId).map (·.rollbackFirst callIds)
        else manager.lists k := by
  unfold rollbackChatProcessingToPending
  cases hget : manager.sessions.get? sessionId with
  | none => exact lists_unmoved (by simp [lists_eq_none hget]) k
  | some session =>
    simp only
    have hlists := manager.lists_rollbackProcessingToPending session.taskId sessionId
      (session.processingCallIds.within callIds)
    generalize manager.rollbackProcessingToPending session.taskId sessionId
      (session.processingCallIds.within callIds) = middle at hlists
    have hown : middle.lists sessionId
        = some (session.rollback (session.processingCallIds.within callIds)) := by
      rw [hlists, if_pos rfl, lists_of_get? hget, Option.map_some]
    cases hmiddle : middle.sessions.get? sessionId with
    | none => simp [lists_eq_none hmiddle] at hown
    | some session' =>
      have hid : session'.id = sessionId := Table.key_of_get? hmiddle
      have hrolled : session'.toCallLists
          = session.rollback (session.processingCallIds.within callIds) :=
        Option.some.inj ((lists_of_get? hmiddle).symm.trans hown)
      simp only [lists_mirror, lists_putSession, hid]
      by_cases hk : k = sessionId
      · simp [hk, lists_of_get? hget, hrolled, CallLists.rollbackFirst]
      · simp [hk, hlists]

theorem lists_ackCallIds (taskId : Option TaskId) (sessionId : SessionId) (verified : List CallId)
    (k : SessionId) : (manager.ackCallIds taskId sessionId verified).lists k
      = if k = sessionId then (manager.lists sessionId).map (·.acknowledge verified)
        else manager.lists k := by
  simp only [ackCallIds, sessions_mirror]
  cases hget : manager.sessions.get? sessionId with
  | none =>
    rw [lists_mirror]
    exact lists_unmoved (by simp [lists_eq_none hget]) k
  | some session =>
    by_cases hin : session.acknowledged verified = []
    · simp only [hin, if_true, lists_mirror]
      refine lists_unmoved (fun lists hlists => ?_) k
      obtain rfl : session.toCallLists = lists := by simpa [lists_of_get? hget] using hlists
      exact session.toCallLists.acknowledge_of_nil hin
    · have hid : session.id = sessionId := Table.key_of_get? hget
      simp only [hin, if_false, lists_mirror, lists_putSession, hid, lists_of_get? hget,
        Option.map_some]

end Manager

end ClaudeHub
