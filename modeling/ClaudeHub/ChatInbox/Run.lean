import ClaudeHub.ChatInbox.Answers
import ClaudeHub.Lib.Runs

/-! # Runs of the inbox

The pumps, the pumps of answers and the reconciliation passes are tasks that other
tasks interleave with where they wait. Between two saves with no wait in between
the process can only go on or crash: such a point is `critical`.
-/

namespace ClaudeHub

open StepSystem

/-- Where the pump of a tab waits: for the preparation of a scheduled message, with the
inbox lock held, or for a submission, which may have called back. -/
inductive PumpPhase
  | preparing
  | submitting (calledBack : Bool)
  deriving DecidableEq, Repr

structure Pump where
  tabId : TabId
  messageId : MessageId
  phase : PumpPhase
  deriving DecidableEq, Repr

structure AnswerTask where
  answerId : MessageId
  calledBack : Bool := false
  deriving DecidableEq, Repr

inductive Critical
  | dispatchHead (tabId : TabId) (messageId : MessageId) (target : EpochTarget)
  | settleQuestion (answerId : MessageId)
  | restartQuestion (answerId : MessageId)
  deriving DecidableEq, Repr

/-- The inbox with its tasks. `submitted` records each mark that was durably saved, which
is each time that a submission went on to the provider. -/
structure InboxRun where
  inbox : ChatMessageInbox := {}
  pumps : Table Pump.tabId := Table.empty
  answerTasks : Table AnswerTask.answerId := Table.empty
  observations : List Observation := []
  critical : Option Critical := none
  submitted : List MessageId := []
  deriving DecidableEq

inductive InboxOp
  | enqueue (tabId : TabId) (principal actor : String) (email : Option String)
      (payload : ChatMessageCreate) (resolved : Except InboxError InboxTarget)
      (messageId : MessageId) (now : Time) (outcome : SaveOutcome)
  | admitScheduled (run : ScheduledIntent) (resolved : Except InboxError InboxTarget)
      (enforceLimit : Bool) (outcome : SaveOutcome)
  | cancelScheduled (messageId : MessageId) (release : Bool) (now : Time) (outcome : SaveOutcome)
  | cancel (tabId : TabId) (messageId : MessageId) (principal : String) (now : Time)
      (outcome : SaveOutcome)
  | completed (tabId : TabId) (turnId : TurnId) (status : String) (now : Time)
      (outcome : SaveOutcome)
  | pump (tabId : TabId) (prepares : Bool) (resolved : Except InboxError InboxTarget)
      (now : Time) (outcome : SaveOutcome)
  | prepared (tabId : TabId) (reason : Option String) (resolved : Except InboxError InboxTarget)
      (now : Time) (outcome : SaveOutcome)
  | prepareFails (tabId : TabId) (reason : String) (now : Time) (outcome : SaveOutcome)
  | beforeDelivery (messageId : MessageId) (resolved : Except InboxError InboxTarget)
      (outcome : SaveOutcome)
  | submitReturned (tabId : TabId) (now : Time) (outcome : SaveOutcome)
  | submitRaised (tabId : TabId) (exc : SubmitException) (now : Time) (outcome : SaveOutcome)
  | reconcile (restarting : Bool)
  | observe (messageId : MessageId) (restarting : Bool) (now : Time) (outcome : SaveOutcome)
  | resolve (seen : Observation) (proof : InboxEvidence) (probedDead restarting : Bool)
      (now : Time) (outcome : SaveOutcome)
  | prune (now : Time) (outcome : SaveOutcome)
  | capture (q : ChatQuestion) (outcome : SaveOutcome)
  | claimAnswer (questionRef : QuestionRef) (principal actor : String) (email : Option String)
      (payload : QuestionAnswerCreate) (callback : Option (String × String))
      (answerId : MessageId) (now : Time) (outcome : SaveOutcome)
  | pumpAnswer (answerId : MessageId) (now : Time) (outcome : SaveOutcome)
  | answerDone (answerId : MessageId) (raised : Option SubmitException) (now : Time)
      (outcome : SaveOutcome)
  | resume (now : Time) (outcome : SaveOutcome)
  | turnStarted (sessionId : SessionId) (turnId : TurnId) (outcome : SaveOutcome)
  | turnCompleted (sessionId : SessionId) (turnId : TurnId) (status : String)
      (outcome : SaveOutcome)
  | approvalResolved (questionRef : QuestionRef) (now : Time) (outcome : SaveOutcome)
  | handoffPersisted (questionRef : QuestionRef) (now : Time) (outcome : SaveOutcome)
  | questionGone (questionRef : QuestionRef) (outcome : SaveOutcome)
  | rememberNonce (key fingerprint : String) (now : Time) (outcome : SaveOutcome)
  | mirrorQuestion (questionRef : QuestionRef) (card : QuestionCard) (outcome : SaveOutcome)
  | flush (outcome : SaveOutcome)
  | stop
  | crash

namespace InboxRun

def locked (run : InboxRun) : Bool :=
  run.pumps.rows.any fun pump => pump.phase = .preparing

/-- Carry out an effect that no task waits for. -/
def perform {α : Type} (run : InboxRun) (effect : InboxEffect α) (outcome : SaveOutcome) :
    InboxRun :=
  { run with inbox := (run.inbox.perform effect outcome).1 }

def succeeds {α : Type} (run : InboxRun) (effect : InboxEffect α) (outcome : SaveOutcome) : Bool :=
  match (run.inbox.perform effect outcome).2 with
  | .ok _ => true
  | .error _ => false

def pumpTurn (run : InboxRun) (tabId : TabId) (messageId : MessageId)
    (turn : PumpTurn) (outcome : SaveOutcome) : InboxRun :=
  match turn with
  | .ended effect => { run.perform effect outcome with pumps := run.pumps.erase tabId }
  | .pinned memory target =>
    let effect : InboxEffect Unit := .write memory ()
    { run.perform effect outcome with
      pumps := run.pumps.erase tabId
      critical :=
        if run.succeeds effect outcome then some (.dispatchHead tabId messageId target)
        else none }
  | .submits effect =>
    { run.perform effect outcome with
      pumps :=
        if run.succeeds effect outcome then
          run.pumps.insert ⟨tabId, messageId, .submitting false⟩
        else run.pumps.erase tabId }

def startPump (run : InboxRun) (tabId : TabId) (prepares : Bool)
    (resolved : Except InboxError InboxTarget) (now : Time) (outcome : SaveOutcome) : InboxRun :=
  match run.inbox.live.head tabId with
  | none => run
  | some item =>
    if item.scheduled && prepares then
      { run with pumps := run.pumps.insert ⟨tabId, item.messageId, .preparing⟩ }
    else
      run.pumpTurn tabId item.messageId
        (run.inbox.live.admitHead run.inbox.closing item resolved now) outcome

def calledBack (run : InboxRun) (messageId : MessageId) : Option InboxRun :=
  match run.pumps.rows.find? fun pump => pump.messageId = messageId &&
      pump.phase = .submitting false with
  | some pump => some { run with pumps := run.pumps.insert { pump with phase := .submitting true } }
  | none =>
    match run.answerTasks.get? messageId with
    | some task =>
      if task.calledBack then none
      else some { run with answerTasks := run.answerTasks.insert ⟨messageId, true⟩ }
    | none => none

/-- The submission of a message calls back, once; it reaches the provider if that succeeds. -/
def beforeDelivery (run : InboxRun) (messageId : MessageId)
    (resolved : Except InboxError InboxTarget) (outcome : SaveOutcome) : Option InboxRun :=
  let effect := run.inbox.live.beforeDelivery run.inbox.closing messageId resolved
  (run.calledBack messageId).map fun called =>
    { called.perform effect outcome with
      submitted :=
        if run.succeeds effect outcome then messageId :: run.submitted else run.submitted }

def observe (run : InboxRun) (item : ChatMessageEnvelope) (restarting : Bool) (now : Time)
    (outcome : SaveOutcome) : InboxRun :=
  let recovering := item.messageId ∈ run.inbox.restartRecovery
  if item.kind = .questionAnswer then
    if restarting && item.state.inFlight then
      let effect := run.inbox.live.restartAnswer run.inbox.closing item now
      match (run.inbox.perform effect outcome).2 with
      | .ok true => { run.perform effect outcome with
          critical := some (.restartQuestion item.messageId) }
      | _ => run.perform effect outcome
    else run
  else
    let (live, seen) := run.inbox.live.observe item recovering now
    { run with
      inbox := { run.inbox with live := live }
      observations := run.observations ++ seen.toList }

/-- What a critical point goes on with. -/
def resume (run : InboxRun) (now : Time) (outcome : SaveOutcome) : InboxRun :=
  match run.critical with
  | none => run
  | some critical =>
    let run := { run with critical := none }
    let live := run.inbox.live
    match critical with
    | .dispatchHead tabId messageId target =>
      match live.messages.get? messageId with
      | none => run
      | some item =>
        run.pumpTurn tabId messageId
          (live.dispatchHead run.inbox.closing item target now) outcome
    | .settleQuestion answerId =>
      match live.messages.get? answerId with
      | none => { run with answerTasks := run.answerTasks.erase answerId }
      | some item =>
        { run.perform (live.settleQuestion item) outcome with
          answerTasks := run.answerTasks.erase answerId }
    | .restartQuestion answerId =>
      match live.messages.get? answerId with
      | none => run
      | some item => run.perform (live.restartQuestion item) outcome

/-- The pump of an answer after its submission: it saves the answer's state, and goes on
with the question unless the question is busy or the save raises. -/
def answerDone (run : InboxRun) (item : ChatMessageEnvelope) (raised : Option SubmitException)
    (now : Time) (outcome : SaveOutcome) : InboxRun :=
  let effect := run.inbox.live.finishAnswer run.inbox.closing item raised now
  if run.succeeds effect outcome ∧ (InboxPayload.answerOutcome item raised).1 ≠ .waiting then
    { run.perform effect outcome with critical := some (.settleQuestion item.messageId) }
  else
    { run.perform effect outcome with
      answerTasks := run.answerTasks.erase item.messageId }

def atQuestion (run : InboxRun) (questionRef : QuestionRef)
    (effect : ChatQuestion → InboxEffect Unit) (outcome : SaveOutcome) : InboxRun :=
  match run.inbox.live.questions.get? questionRef with
  | none => run
  | some q => run.perform (effect q) outcome

def submitting (run : InboxRun) (tabId : TabId) : Option MessageId :=
  match run.pumps.get? tabId with
  | some ⟨_, messageId, .submitting _⟩ => some messageId
  | _ => none

def release (run : InboxRun) (tabId : TabId) : InboxRun :=
  { run with pumps := run.pumps.erase tabId }

def stepFree (limits : InboxLimits) (run : InboxRun) : InboxOp → Option InboxRun
  | .enqueue tabId principal actor email payload resolved messageId now outcome =>
    if run.locked ∨ (run.inbox.live.messages.get? messageId).isSome then none
    else some (run.perform (run.inbox.live.enqueue limits run.inbox.closing tabId principal
      actor email payload resolved messageId now) outcome)
  | .admitScheduled intent resolved enforceLimit outcome =>
    some (run.perform (run.inbox.live.admitScheduled limits run.inbox.closing intent resolved
      enforceLimit) outcome)
  | .cancelScheduled messageId release now outcome =>
    some (run.perform
      (run.inbox.live.cancelScheduled run.inbox.closing messageId release now) outcome)
  | .cancel tabId messageId principal now outcome =>
    if run.locked then none
    else some (run.perform
      (run.inbox.live.cancel run.inbox.closing tabId messageId principal now) outcome)
  | .completed tabId turnId status now outcome =>
    if run.locked then none
    else some (run.perform
      (run.inbox.live.completed run.inbox.closing tabId turnId status now) outcome)
  | .pump tabId prepares resolved now outcome =>
    if run.locked ∨ run.inbox.closing ∨ (run.pumps.get? tabId).isSome then none
    else some (run.startPump tabId prepares resolved now outcome)
  | .prepared tabId reason resolved now outcome =>
    match run.pumps.get? tabId with
    | some ⟨_, messageId, .preparing⟩ =>
      match run.inbox.live.messages.get? messageId with
      | none => some (run.release tabId)
      | some item =>
        some ((run.release tabId).pumpTurn tabId messageId (run.inbox.live.preparedHead
          run.inbox.closing item reason resolved now) outcome)
    | _ => none
  | .prepareFails tabId reason now outcome =>
    match run.pumps.get? tabId with
    | some ⟨_, messageId, .preparing⟩ =>
      match run.inbox.live.messages.get? messageId with
      | none => none
      | some item => some (run.perform
          (run.inbox.live.change run.inbox.closing item .failed (some reason) now) outcome)
    | _ => none
  | .beforeDelivery messageId resolved outcome => run.beforeDelivery messageId resolved outcome
  | .submitReturned tabId now outcome =>
    if run.locked then none
    else (run.submitting tabId).map fun messageId => (run.release tabId).perform
      (run.inbox.live.submitReturned run.inbox.closing messageId now) outcome
  | .submitRaised tabId exc now outcome =>
    if run.locked then none
    else (run.submitting tabId).map fun messageId => (run.release tabId).perform
      (run.inbox.live.submitRaised run.inbox.closing messageId exc now) outcome
  | .reconcile restarting =>
    let inflight := run.inbox.live.scheduledInflight
    let kept := run.inbox.restartRecovery.filter (· ∈ inflight)
    some { run with inbox := { run.inbox with
      restartRecovery := if restarting then kept ++ inflight else kept } }
  | .observe messageId restarting now outcome =>
    (run.inbox.live.messages.get? messageId).map fun item =>
      run.observe item restarting now outcome
  | .resolve seen proof probedDead restarting now outcome =>
    if run.locked ∨ seen ∉ run.observations then none
    else some { run.perform (run.inbox.live.resolve run.inbox.closing seen proof probedDead
      restarting now) outcome with observations := run.observations.erase seen }
  | .prune now outcome =>
    if run.locked then none else some (run.perform (run.inbox.live.prune now) outcome)
  | .capture q outcome =>
    if run.locked ∨ (run.inbox.live.questions.get? q.questionRef).isSome then none
    else some (run.perform (run.inbox.live.capture run.inbox.closing q) outcome)
  | .claimAnswer questionRef principal actor email payload callback answerId now outcome =>
    if run.locked ∨ (run.inbox.live.messages.get? answerId).isSome then none
    else some (run.perform (run.inbox.live.claimAnswer limits run.inbox.closing questionRef
      principal actor email payload callback answerId now) outcome)
  | .pumpAnswer answerId now outcome =>
    match run.inbox.live.messages.get? answerId with
    | none => none
    | some item =>
      if item.kind ≠ .questionAnswer ∨ (run.answerTasks.get? answerId).isSome ∨
          !item.state.unsent ∨ run.inbox.closing then none
      else
        let effect := run.inbox.live.change run.inbox.closing item .dispatching none now
        some { run.perform effect outcome with
          answerTasks :=
            if run.succeeds effect outcome then run.answerTasks.insert ⟨answerId, false⟩
            else run.answerTasks }
  | .answerDone answerId raised now outcome =>
    match run.answerTasks.get? answerId, run.inbox.live.messages.get? answerId with
    | some _, some item => some (run.answerDone item raised now outcome)
    | _, _ => none
  | .turnStarted sessionId turnId outcome =>
    some (run.perform (run.inbox.live.turnStarted sessionId turnId) outcome)
  | .turnCompleted sessionId turnId status outcome =>
    some (run.perform (run.inbox.live.turnCompleted sessionId turnId status) outcome)
  | .approvalResolved questionRef now outcome =>
    some (run.atQuestion questionRef
      (fun q => run.inbox.live.approvalResolved run.inbox.closing q now) outcome)
  | .handoffPersisted questionRef now outcome =>
    some (run.atQuestion questionRef
      (fun q => run.inbox.live.handoffPersisted run.inbox.closing q now) outcome)
  | .questionGone questionRef outcome =>
    some (run.atQuestion questionRef (fun q => run.inbox.live.questionGone q) outcome)
  | .rememberNonce key fingerprint now outcome =>
    if run.locked then none
    else some (run.perform (run.inbox.live.rememberNonce key fingerprint now) outcome)
  | .mirrorQuestion questionRef card outcome =>
    some (run.atQuestion questionRef (run.inbox.live.mirrorQuestion card) outcome)
  | .flush outcome =>
    some (run.perform (.write run.inbox.live () : InboxEffect Unit) outcome)
  | .stop => some { run with inbox := { run.inbox with closing := true } }
  | .resume _ _ | .crash => none

/-- A new process on the file; every task of the old one is gone. -/
def crash (run : InboxRun) : Option InboxRun :=
  match ChatMessageInbox.load run.inbox.file with
  | .error _ => none
  | .ok inbox => some { inbox := inbox, submitted := run.submitted }

def step (limits : InboxLimits) (run : InboxRun) : InboxOp → Option InboxRun
  | .crash => run.crash
  | .resume now outcome => some (run.resume now outcome)
  | op => if run.critical.isSome then none else run.stepFree limits op

end InboxRun

end ClaudeHub
