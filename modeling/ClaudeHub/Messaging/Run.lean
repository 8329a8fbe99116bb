import ClaudeHub.Lib.Runs
import ClaudeHub.Messaging.Pump

/-! # Runs of the delivery service

The operations that take the pump lock of a session exclude each other there. The
receipt recovery of a terminal takes no lock and the expiry of leases does not wait, so
both come in wherever a lock holder waits. The workspace lock around the pump lock is
left out: it only takes runs away.
-/

namespace ClaudeHub

open StepSystem

/-- `_recover_processing_via_receipt` on a terminal: the record read at the start, the
calls still to be asked about, whether it waits for the first of them to be submitted,
and the verdicts so far. -/
structure Recovery where
  session : ManagedSession
  remaining : List CallId
  submitting : Bool := false
  toPending : List CallId := []
  toUncertain : List CallId := []
  deriving DecidableEq

inductive RecoveryAnswer
  | receipt (present : Option Bool)
  | submitted (confirmed : Bool)
  deriving DecidableEq, Repr

namespace Recovery

def settle (recovery : Recovery) (callId : CallId) (rest : List CallId)
    (verdict : Option Bool) : Recovery :=
  { recovery with
    remaining := rest
    submitting := false
    toPending := recovery.toPending ++ if verdict = some false then [callId] else []
    toUncertain := recovery.toUncertain ++ if verdict = none then [callId] else [] }

def next (recovery : Recovery) (answer : RecoveryAnswer) : Option Recovery :=
  match recovery.remaining, recovery.submitting, answer with
  | callId :: rest, false, .receipt none => some (recovery.settle callId rest none)
  | callId :: rest, false, .receipt (some false) =>
    some (recovery.settle callId rest (some false))
  | callId :: rest, false, .receipt (some true) =>
    match truthy (recovery.session.pendingMessages.lookup callId) with
    | none => some (recovery.settle callId rest none)
    | some _ => some { recovery with submitting := true }
  | callId :: rest, true, .submitted confirmed =>
    some (recovery.settle callId rest (if confirmed then some true else none))
  | _, _, _ => none

/-- The verdicts are written at the end, whatever has happened to the calls meanwhile. -/
def write (recovery : Recovery) (manager : Manager) : Manager :=
  let sessionId := recovery.session.id
  (manager.rollbackProcessingToPending recovery.session.taskId sessionId
    recovery.toPending).markProcessingAsUncertain sessionId recovery.toUncertain

end Recovery

structure LockHolder where
  sessionId : SessionId
  call : LockedCall
  deriving DecidableEq

/-- Everything that was ever queued, withdrawn unsent, or moved to delivered by an
acknowledgement. -/
structure DeliveryHistory where
  enqueued : List (SessionId × CallId) := []
  retired : List (SessionId × CallId) := []
  acked : List (SessionId × CallId) := []
  deriving DecidableEq

def DeliveryHistory.extend (history : DeliveryHistory) (sessionId : SessionId)
    (stretch : Stretch) : DeliveryHistory where
  enqueued := history.enqueued ++ stretch.enqueued.map (sessionId, ·)
  retired := history.retired ++ stretch.retired.map (sessionId, ·)
  acked := history.acked ++ stretch.acked.map (sessionId, ·)

def DeliveryHistory.isFresh (history : DeliveryHistory) (sessionId : SessionId) : Bool :=
  (history.enqueued ++ history.acked).all fun entry => entry.1 ≠ sessionId

structure DeliveryRun where
  manager : Manager := {}
  holders : Table LockHolder.sessionId := Table.empty
  recoveries : List Recovery := []
  outcomes : List (SessionId × PumpOutcome) := []
  history : DeliveryHistory := {}
  deriving DecidableEq

inductive LockAnswer
  | goOn
  | allowed (current : Bool)
  | ready
  | seatGone
  | notReady
  | sent
  | sendFailed
  | turnTaken
  | turnFailed (evidence : ChatEvidence) (cancelled : Bool)
  | receipt (present : Option Bool)
  | submitted (confirmed : Bool)
  | report (acks : Manager.ReportAcks)

inductive DeliveryOp
  | openSession (session : ManagedSession)
  | editSession (session : ManagedSession)
  | editTask (task : WorkspaceTask)
  | send (sessionId : SessionId) (request : SendRequest) (around : Surroundings)
  | resumeCall (sessionId : SessionId) (callId : CallId)
  | pump (sessionId : SessionId)
  | retry (sessionId : SessionId) (callId : CallId) (evidence : ChatEvidence)
      (around : Surroundings)
  | createReport (sessionId : SessionId)
  | proceed (sessionId : SessionId) (answer : LockAnswer) (around : Surroundings)
  /-- The holder of a lock is cancelled at its wait, or a save it makes raises. The turn
  of a chat is not left that way: its failure is answered. -/
  | abandon (sessionId : SessionId) (error : DeliveryError)
  | recover (sessionId : SessionId)
  | recoverChat (sessionId : SessionId) (evidence : List (CallId × ChatEvidence))
  | answerRecovery (index : Nat) (answer : RecoveryAnswer)
  | abandonRecovery (index : Nat)
  | expireLeases (sessionId : SessionId) (now : Time)
  | coldStart (sessionId : SessionId)

namespace DeliveryRun

/-- Store the end of a stretch of the lock holder of a session. -/
def settle (run : DeliveryRun) (sessionId : SessionId) (stretch : Stretch) : DeliveryRun :=
  let run := { run with
    manager := stretch.manager
    history := run.history.extend sessionId stretch }
  match stretch.next with
  | .waits call => { run with holders := run.holders.insert ⟨sessionId, call⟩ }
  | .ends outcome => { run with
      holders := run.holders.erase sessionId
      outcomes := run.outcomes ++ [(sessionId, outcome)] }

def start (run : DeliveryRun) (sessionId : SessionId) (stretch : ManagedSession → Stretch) :
    Option DeliveryRun :=
  match run.holders.get? sessionId with
  | some _ => none
  | none =>
    match run.manager.sessions.get? sessionId with
    | none => some { run with
        outcomes := run.outcomes ++ [(sessionId, .raised .sessionMissing)] }
    | some session => some (run.settle sessionId (stretch session))

def resumed (manager : Manager) (sessionId : SessionId) (call : LockedCall)
    (answer : LockAnswer) (around : Surroundings) : Option Stretch :=
  match call, answer with
  | .admitting request, .allowed current =>
    if current then (manager.sessions.get? sessionId).map fun session =>
      manager.sendSessionMessageLocked session request around
    else request.callId.map fun callId =>
      manager.withdraw sessionId callId around.unsent (.ends .returned)
  | .pumping rest caller, .goOn => some (manager.pumpNext sessionId rest caller around)
  | .allowing session callId rest caller, .allowed current =>
    some (if current then manager.pumpCall session callId rest caller around
      else manager.withdraw sessionId callId around.unsent (.waits (.pumping rest caller)))
  | .readying session callId rest caller, .ready =>
    some (if callId.isRecoveryWake then
        ⟨manager, .waits (.rechecking session callId rest caller), [], [], []⟩
      else manager.handOver session callId rest caller)
  | .readying _ callId rest caller, .seatGone =>
    some ⟨manager.markProcessingAsUncertain sessionId [callId],
      .waits (.pumping rest caller), [], [], []⟩
  | .readying session callId rest caller, .notReady =>
    some (manager.notReady session callId rest caller)
  | .rechecking session callId rest caller, .allowed current =>
    some (if current then manager.handOver session callId rest caller
      else (manager.rollbackProcessingToPending session.taskId sessionId [callId]).withdraw
        sessionId callId around.unsent (.waits (.pumping rest caller)))
  | .submitting _ rest caller, .sent => some ⟨manager, .waits (.pumping rest caller), [], [], []⟩
  | .submitting callId rest caller, .sendFailed =>
    some ⟨manager.markProcessingAsUncertain sessionId [callId],
      .waits (.pumping rest caller), [], [], []⟩
  | .turning _ caller, .turnTaken =>
    some ⟨manager, .ends (manager.afterPump sessionId caller), [], [], []⟩
  | .turning callId caller, .turnFailed evidence cancelled =>
    some (manager.turnFailed sessionId callId caller evidence cancelled)
  | .withdrawing callId, .allowed current =>
    some (if current then ⟨manager, .ends (.raised .providerFailed), [], [], []⟩
      else manager.withdraw sessionId callId around.unsent
        (.ends (.raised .providerFailed)))
  | .querying session task callId, .receipt present =>
    some (match present with
      | none => ⟨manager, .ends (.raised .deliveryUncertain), [], [], []⟩
      | some present => manager.retryWithReceipt session task callId present around)
  | .nudging session task callId, .submitted confirmed =>
    some (if confirmed then ⟨manager, .ends .returned, [], [], []⟩
      else ⟨manager.undoRetry session task (·.undoAccepted callId),
        .ends (.raised .deliveryUncertain), [], [], []⟩)
  | .reporting session, .report acks => some (manager.takeReport session acks)
  | _, _ => none

def storeRecovery (run : DeliveryRun) (index : Nat) (recovery : Recovery) : DeliveryRun :=
  if recovery.remaining = [] then
    { run with
      manager := recovery.write run.manager
      recoveries := run.recoveries.eraseIdx index }
  else { run with recoveries := run.recoveries.set index recovery }

def evidenceOf (evidence : List (CallId × ChatEvidence)) (callId : CallId) : ChatEvidence :=
  ((evidence.find? fun entry => entry.1 = callId).map Prod.snd).getD .notSent

/-- One step: an operation starts, goes on to its next wait, or runs without waiting. -/
def step (run : DeliveryRun) : DeliveryOp → Option DeliveryRun
  | .openSession session =>
    if session.toCallLists = {} ∧ run.history.isFresh session.id then
      some { run with manager := run.manager.putSession session }
    else none
  | .editSession session =>
    if run.manager.lists session.id = some session.toCallLists then
      some { run with manager := run.manager.putSession session }
    else none
  | .editTask task => some { run with manager := run.manager.putTask task }
  | .send sessionId request around =>
    match (run.manager.sessions.get? sessionId).bind fun session =>
      Manager.sendFastPath session request with
    | some outcome => some { run with outcomes := run.outcomes ++ [(sessionId, outcome)] }
    | none => run.start sessionId fun session =>
      run.manager.sendSessionMessage session request around
  | .resumeCall sessionId callId =>
    run.start sessionId fun session => run.manager.resumeExistingCall session callId
  | .pump sessionId => run.start sessionId fun _ => run.manager.startPump sessionId .pump
  | .retry sessionId callId evidence around =>
    run.start sessionId fun session =>
      run.manager.retryUncertainDelivery session callId evidence around
  | .createReport sessionId =>
    run.start sessionId fun session =>
      ⟨run.manager, .waits (.reporting session), [], [], []⟩
  | .proceed sessionId answer around =>
    (run.holders.get? sessionId).bind fun holder =>
      (resumed run.manager sessionId holder.call answer around).map (run.settle sessionId)
  | .abandon sessionId error =>
    match (run.holders.get? sessionId).map LockHolder.call with
    | none | some (.turning _ _) => none
    | some _ => some (run.settle sessionId ⟨run.manager, .ends (.raised error), [], [], []⟩)
  | .recover sessionId =>
    match run.manager.sessions.get? sessionId with
    | none => some run
    | some session =>
      if session.processingCallIds = [] then some run
      else if session.sessionKind = .chat then none
      else some { run with
        recoveries := run.recoveries ++ [⟨session, session.processingCallIds, false, [], []⟩] }
  | .recoverChat sessionId evidence =>
    if run.holders.get? sessionId = none then
      some { run with
        manager := run.manager.recoverChatProcessingViaReceipt sessionId (evidenceOf evidence) }
    else none
  | .answerRecovery index answer =>
    (run.recoveries[index]?.bind fun recovery => recovery.next answer).map
      (run.storeRecovery index)
  | .abandonRecovery index =>
    some { run with recoveries := run.recoveries.eraseIdx index }
  | .expireLeases sessionId now =>
    some { run with manager := run.manager.expireProcessingLeases sessionId now }
  | .coldStart sessionId =>
    if run.holders.rows = [] ∧ run.recoveries = [] then
      some { run with manager := run.manager.recoverUncertainDeliveries sessionId }
    else none

def loaded (manager : Manager) : DeliveryRun where
  manager := manager
  history :=
    { enqueued := manager.sessions.rows.flatMap fun session =>
        (session.pendingCallIds ++ session.processingCallIds ++ session.uncertainCallIds
          ++ session.deliveredCallIds).map (session.id, ·)
      acked := manager.sessions.rows.flatMap fun session =>
        session.deliveredCallIds.map (session.id, ·) }

/-- The calls that a step marks uncertain on a verdict that was reached before or across
a wait: a terminal's pump whose session was gone or whose paste failed, and the recovery
that has asked about its last call. -/
def marks (run : DeliveryRun) : DeliveryOp → Option (SessionId × List CallId)
  | .proceed sessionId answer _ =>
    match (run.holders.get? sessionId).map LockHolder.call, answer with
    | some (.readying _ callId _ _), .seatGone => some (sessionId, [callId])
    | some (.submitting callId _ _), .sendFailed => some (sessionId, [callId])
    | _, _ => none
  | .answerRecovery index answer =>
    match run.recoveries[index]?.bind fun recovery => recovery.next answer with
    | none => none
    | some recovery =>
      if recovery.remaining = [] then some (recovery.session.id, recovery.toUncertain)
      else none
  | _ => none

/-- What a step marks uncertain has not been queued again or acknowledged meanwhile. -/
def MarksCurrent (run : DeliveryRun) (op : DeliveryOp) : Prop :=
  ∀ mark, run.marks op = some mark → ∀ lists, run.manager.lists mark.1 = some lists →
    ∀ callId ∈ mark.2, callId ∉ lists.pendingCallIds ∧ callId ∉ lists.deliveredCallIds

instance (run : DeliveryRun) (op : DeliveryOp) : Decidable (run.MarksCurrent op) := by
  unfold MarksCurrent
  infer_instance

/-- Every call id ever queued for a session is in exactly one delivery state there, or in
none if it was withdrawn as a recovery wake that was not sent; and one that the worker
acknowledged is delivered and nothing else. -/
def Partitioned (run : DeliveryRun) : Prop :=
  ∀ sessionId lists, run.manager.lists sessionId = some lists → ∀ callId,
    ((sessionId, callId) ∈ run.history.enqueued →
      (∃! state, callId ∈ lists.callIds state)
        ∨ (∀ state, callId ∉ lists.callIds state)
          ∧ (sessionId, callId) ∈ run.history.retired ∧ callId.isRecoveryWake = true)
    ∧ ((sessionId, callId) ∈ run.history.acked →
      callId ∈ lists.callIds .delivered
        ∧ ∀ state, callId ∈ lists.callIds state → state = .delivered)

end DeliveryRun

end ClaudeHub
