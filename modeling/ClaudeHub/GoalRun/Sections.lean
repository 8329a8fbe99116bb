import ClaudeHub.GoalRun.Store
import ClaudeHub.Lib.Lines

/-! # The sections of the Goal controller

Between two awaits an entry point reads one goal, writes only that goal, and then
returns, raises, waits in `_cancel_current`, or goes on to the transport. A section is
that stretch as a function of the goal it reads. The locks of `_lock_for` are never held
across an await, so no section waits for one.
-/

namespace ClaudeHub

structure Saves where
  mutation : Bool := true
  stop : Bool := true
  activation : Bool := true
  preparation : Bool := true
  turn : Bool := true
  acceptance : Bool := true
  failure : Bool := true
  deriving DecidableEq, Repr

/-- What a section finds around it: the clock, the id that `uuid4` would draw, and the
outcomes of its writes. -/
structure Moment where
  now : Time
  uuid : TurnId
  saves : Saves := {}
  deriving DecidableEq, Repr

structure Callbacks where
  dispatch : Bool := true
  cancel : Bool := true
  deriving DecidableEq, Repr

inductive GoalEvent
  | paused | resumed | steered (text : String) | edited | finished
  | stopped | unreconciled | activated
  | unconnected | prepared (step : TurnId)
  | released | interrupted
  | counted (turn : TurnId) (tokens : Option Nat)
  | accepted | uncertain | recovered
  deriving DecidableEq, Repr

structure ResumeRequest where
  clientRequestId : String
  afterCurrentTurn : Bool := false
  stepId : Option TurnId := none
  override : Bool := false
  deriving DecidableEq, Repr

structure SteerRequest where
  clientRequestId : String
  text : String
  turnId : TurnId
  imageCount : Nat := 0
  imageDigest : String := ""
  deriving DecidableEq, Repr

def SteerRequest.operation (request : SteerRequest) : GoalOperation :=
  .steer request.text request.imageDigest

inductive GoalSignalState
  | continues | complete | blocked | needsInput
  deriving DecidableEq, Repr

/-- The trailing `<goal-status>` signal of a reply. -/
structure GoalSignal where
  state : GoalSignalState
  message : Option String := none
  deriving DecidableEq, Repr

/-- What `_parse_checkpoint` makes of a reply. -/
inductive ReadCheckpoint
  | invalid (error : String)
  | omitted
  | parsed (payload : String)
  deriving DecidableEq, Repr

/-- A completed turn: its status, what is read off the trailing signal and checkpoint of
the reply, and its usage, `none` when the provider's record is no valid `GoalTurnUsage`. -/
structure TurnReport where
  status : String
  signal : Option GoalSignal := none
  checkpoint : ReadCheckpoint := .omitted
  usage : Option GoalTurnUsage := some {}
  deriving DecidableEq, Repr

def TurnReport.succeeded (report : TurnReport) : Bool :=
  report.status.toLower ∈ ["complete", "completed", "success", "succeeded"]

inductive AfterStop
  | done
  | resume (request : ResumeRequest)
  | steer (turnId : TurnId)
  deriving DecidableEq, Repr

inductive GoalNext
  | returns
  | raises (error : GoalError)
  /-- Wait in `_cancel_current`. -/
  | stops (after : AfterStop)
  /-- Go on to `_dispatch_prepared` with the goal that the section leaves. -/
  | dispatches (override : Bool)
  deriving DecidableEq, Repr

structure GoalWrite where
  event : GoalEvent
  goal : GoalRun
  deriving DecidableEq

/-- What a section leaves: the goal as stored, the writes made, and how it goes on. -/
structure Section where
  goal : GoalRun
  writes : List GoalWrite := []
  next : GoalNext := .returns
  deriving DecidableEq

namespace GoalRun

def returns (goal : GoalRun) : Section := { goal }

def raises (goal : GoalRun) (error : GoalError) : Section := { goal, next := .raises error }

/-- `store.put`: the stored goal becomes the next one, or stays when the save raises. -/
def put (stored next : GoalRun) (event : GoalEvent) (now : Time) (saved : Bool)
    (rest : GoalRun → Section) : Section :=
  if saved then
    let next := { next with updatedAt := now }
    let after := rest next
    { after with writes := ⟨event, next⟩ :: after.writes }
  else stored.raises .save

def ensureUnfinished (goal : GoalRun) : Except GoalError Unit :=
  if goal.status.terminal then .error (.policy ("goal is already " ++ goal.status.value))
  else .ok ()

def reusedRequest : GoalError :=
  .policy "client_request_id was already used for another mutation"

/-- `_mutate_once`, going on with the stored goal; an exact replay writes nothing. -/
def mutateOnce (goal : GoalRun) (clientRequestId : String) (operation : GoalOperation)
    (event : GoalEvent) (moment : Moment) (mutate : GoalRun → Except GoalError GoalRun)
    (rest : GoalRun → Section) : Section :=
  match goal.idempotency.lookup clientRequestId with
  | some prior => if prior = operation then rest goal else goal.raises reusedRequest
  | none =>
    match mutate goal with
    | .error error => goal.raises error
    | .ok next =>
      goal.put { next with idempotency := next.idempotency.set clientRequestId operation }
        event moment.now moment.saves.mutation rest

def dispatchIfPending (goal : GoalRun) (override : Bool) : Section :=
  { goal, next := if goal.dispatchState = .pending then .dispatches override else .returns }

def notConnected : String := "automatic continuation is not connected"

/-- `_prepare_dispatch_locked` -/
def prepareDispatch (callbacks : Callbacks) (goal : GoalRun) (stepId : Option TurnId)
    (override : Bool) (moment : Moment) (rest : GoalRun → Section) : Section :=
  if goal.status ≠ .active then rest goal
  else if goal.dispatchState ≠ .idle then rest goal
  else if !override && !callbacks.dispatch then
    goal.put { goal with status := .paused, statusMessage := some notConnected }
      .unconnected moment.now moment.saves.preparation rest
  else
    let step := (truthy stepId).getD moment.uuid
    goal.put
      { goal with
        pendingStepId := some step
        currentTurnId := some step
        dispatchState := .pending
        dispatchedObjectiveRevision := goal.objectiveRevision }
      (.prepared step) moment.now moment.saves.preparation rest

/-- The end of `create_and_start`, on the goal that the store returned. -/
def start (callbacks : Callbacks) (goal : GoalRun) (moment : Moment) : Section :=
  if goal.status = .active ∧ goal.dispatchState = .idle then
    goal.prepareDispatch callbacks none false moment fun goal => goal.dispatchIfPending false
  else goal.dispatchIfPending false

def dispatchNext (callbacks : Callbacks) (goal : GoalRun) (moment : Moment) : Section :=
  goal.prepareDispatch callbacks none false moment fun goal => goal.dispatchIfPending false

/-- `_release_deferred_resume_locked`, on a copy of the stored goal. -/
def releaseDeferredLocked (callbacks : Callbacks) (stored goal : GoalRun) (moment : Moment)
    (rest : GoalRun → Section) : Section :=
  if goal.status = .active ∧ goal.resumeAfterTurn = true ∧ goal.dispatchState = .idle then
    stored.put { goal with resumeAfterTurn := false, statusMessage := none }
      .released moment.now moment.saves.turn fun goal =>
        goal.prepareDispatch callbacks none false moment rest
  else rest stored

def releaseDeferredResume (callbacks : Callbacks) (goal : GoalRun) (moment : Moment) : Section :=
  goal.releaseDeferredLocked callbacks goal moment fun goal => goal.dispatchIfPending false

/-- The end of `resume`: a replay keeps its one-shot callback from a later step. -/
def resumeDispatch (goal : GoalRun) (request : ResumeRequest) : Section :=
  if request.stepId ≠ none ∧ goal.pendingStepId ≠ request.stepId then goal.returns
  else goal.dispatchIfPending request.override

def deferredMessage : String := "resumes when the current Chat turn finishes"

/-- `_resume_locked` and what `resume` does with its goal. -/
def resumeLocked (callbacks : Callbacks) (goal : GoalRun) (request : ResumeRequest)
    (moment : Moment) : Section :=
  match goal.idempotency.lookup request.clientRequestId with
  | some prior =>
    if prior = .resume then goal.resumeDispatch request else goal.raises reusedRequest
  | none =>
    goal.mutateOnce request.clientRequestId .resume .resumed moment
      (fun goal => do
        ensureUnfinished goal
        let deferred := request.afterCurrentTurn && decide (goal.dispatchState = .idle)
        return { goal with
          status := .active
          pausedAt := none
          resumeAfterTurn := deferred
          statusMessage := if deferred then some deferredMessage else none })
      fun goal =>
        if goal.dispatchState ≠ .idle ∨ goal.resumeAfterTurn = true then
          goal.resumeDispatch request
        else
          goal.prepareDispatch callbacks request.stepId request.override moment fun goal =>
            goal.resumeDispatch request

def stoppedTurn (goal : GoalRun) : GoalRun :=
  { goal with currentTurnId := none, dispatchState := .idle, pendingStepId := none }

/-- What pause, complete, clear, resume and steer do after `_cancel_current`. -/
def afterStop (callbacks : Callbacks) (goal : GoalRun) (moment : Moment) : AfterStop → Section
  | .done => goal.returns
  | .resume request => goal.resumeLocked callbacks request moment
  | .steer turnId =>
    goal.put { goal with status := .active, pausedAt := none, statusMessage := none }
      .activated moment.now moment.saves.activation fun goal =>
        goal.prepareDispatch callbacks (some turnId) false moment fun goal =>
          goal.dispatchIfPending false

/-- `_cancel_current` up to its first await. -/
def cancelCurrent (callbacks : Callbacks) (goal : GoalRun) (moment : Moment)
    (after : AfterStop) : Section :=
  if goal.currentTurnId = none ∧ goal.dispatchState = .idle then
    goal.afterStop callbacks moment after
  else if !callbacks.cancel then
    goal.put goal.stoppedTurn .stopped moment.now moment.saves.stop fun goal =>
      goal.afterStop callbacks moment after
  else { goal, next := .stops after }

def cancelReturned (callbacks : Callbacks) (goal : GoalRun) (moment : Moment)
    (after : AfterStop) : Section :=
  goal.put goal.stoppedTurn .stopped moment.now moment.saves.stop fun goal =>
    goal.afterStop callbacks moment after

/-- The cancel callback has raised, or the coroutine was cancelled. The entry points that
need an idle goal raise as well. -/
def cancelRaised (goal : GoalRun) (error : GoalError) (moment : Moment)
    (after : AfterStop) : Section :=
  goal.put
    { goal with
      dispatchState := .uncertain
      statusMessage := some ("turn cancellation failed: " ++ error.text) }
    .unreconciled moment.now moment.saves.stop fun goal =>
      if error = .cancelled then goal.raises .cancelled
      else if after = .done then goal.returns
      else goal.raises (.policy (goal.statusMessage.getD ""))

def pause (callbacks : Callbacks) (goal : GoalRun) (clientRequestId : String)
    (moment : Moment) : Section :=
  goal.mutateOnce clientRequestId .pause .paused moment
    (fun goal => do
      ensureUnfinished goal
      return { goal with
        status := .paused, pausedAt := some moment.now, resumeAfterTurn := false })
    -- a replay of a pause after a resume does not cancel the newer turn
    fun goal =>
      if goal.status ≠ .paused then goal.returns else goal.cancelCurrent callbacks moment .done

def imageInterrupted : GoalError :=
  .policy "Image delivery interrupted. Reattach images and steer the Goal to continue."

/-- `resume`, from the checks of its arguments to its first await. -/
def resume (callbacks : Callbacks) (goal : GoalRun) (request : ResumeRequest)
    (moment : Moment) : Section :=
  if request.afterCurrentTurn = true ∧ (request.stepId ≠ none ∨ request.override = true) then
    goal.raises (.policy "A fixed dispatch requires an immediate Goal resume")
  else if request.override = true ∧ request.stepId = none then
    goal.raises (.policy "A dispatch override requires a fixed step_id")
  else if request.stepId.any (fun stepId => (Lines.strip stepId.toList).isEmpty) then
    goal.raises (.policy "step_id must not be empty")
  else if goal.pendingImageCount ≠ 0 then goal.raises imageInterrupted
  else if goal.idempotency.lookup request.clientRequestId = none ∧
      goal.status.terminal = true then
    goal.raises (.policy ("goal is already " ++ goal.status.value))
  else if goal.idempotency.lookup request.clientRequestId = none ∧
      goal.status ≠ .active ∧ goal.dispatchState ≠ .idle then
    goal.cancelCurrent callbacks moment (.resume request)
  else goal.resumeLocked callbacks request moment

def steerApply (request : SteerRequest) (now : Time) (goal : GoalRun) :
    Except GoalError GoalRun := do
  ensureUnfinished goal
  if goal.status ≠ .active ∧ goal.status ≠ .blocked ∧
      ¬(goal.status = .paused ∧ goal.pendingImageCount ≠ 0) then
    .error (.policy "Resume the Goal before steering it")
  else if goal.pendingImageCount ≠ 0 ∧ request.imageCount = 0 then
    .error (.policy "Reattach images before steering the interrupted Goal")
  else
    return { goal with
      status := .paused
      pausedAt := some now
      statusMessage := some "steering the Goal with a new message"
      pendingInput := some request.text
      pendingImageCount := request.imageCount
      pendingImageFingerprint := request.imageDigest
      resumeAfterTurn := false }

def steer (callbacks : Callbacks) (goal : GoalRun) (request : SteerRequest)
    (moment : Moment) : Section :=
  if request.text.length > goalSteerInputMaxLength then
    goal.raises (.value "Goal steer messages are limited to 32000 characters")
  else
    match goal.idempotency.lookup request.clientRequestId with
    | some prior =>
      if prior = .legacySteer ∨ prior = request.operation then goal.returns
      else goal.raises reusedRequest
    | none =>
      goal.mutateOnce request.clientRequestId request.operation (.steered request.text) moment
        (steerApply request moment.now)
        fun goal => goal.cancelCurrent callbacks moment (.steer request.turnId)

def updateObjective (goal : GoalRun) (clientRequestId objective : String)
    (moment : Moment) : Section :=
  goal.mutateOnce clientRequestId (.objective objective) .edited moment
    (fun goal => do
      ensureUnfinished goal
      if goal.dispatchState = .uncertain then
        .error (.policy "Reconcile the current Goal turn before editing its objective")
      else if goal.objective ≠ objective then
        return { goal with objective, objectiveRevision := goal.objectiveRevision + 1 }
      else return goal)
    returns

def complete (callbacks : Callbacks) (goal : GoalRun) (clientRequestId : String)
    (moment : Moment) : Section :=
  goal.mutateOnce clientRequestId .complete .finished moment
    (fun goal => do
      ensureUnfinished goal
      return { goal with
        status := .complete, completedAt := some moment.now, resumeAfterTurn := false })
    fun goal => goal.cancelCurrent callbacks moment .done

/-- `clear`, which a goal in a terminal status allows as well. -/
def clear (callbacks : Callbacks) (goal : GoalRun) (clientRequestId : String)
    (moment : Moment) : Section :=
  goal.mutateOnce clientRequestId .clear .finished moment
    (fun goal => .ok { goal with
      status := .cancelled, completedAt := some moment.now, resumeAfterTurn := false })
    fun goal => goal.cancelCurrent callbacks moment .done

def rememberTurn (goal : GoalRun) (turnId : TurnId) : GoalRun :=
  { goal with
    completedTurnIds := (goal.completedTurnIds ++ [turnId]).keepLast goalRecentTurnIdsLimit }

def countTurn (goal : GoalRun) (turnId : TurnId) (usage : GoalTurnUsage) : GoalRun :=
  { goal.rememberTurn turnId with
    turnsCompleted := goal.turnsCompleted + 1
    pendingInput := none
    pendingImageCount := 0
    pendingImageFingerprint := ""
    currentTurnId := none
    dispatchState := .idle
    pendingStepId := none
    tokenUsage :=
      match usage.totalTokens with
      | some tokens => some (goal.tokenUsage.getD 0 + tokens)
      | none => goal.tokenUsage
    usageQuality :=
      match usage.totalTokens with
      | none => .unavailable
      | some _ =>
        if goal.turnsCompleted + 1 = 1 ∧ goal.usageQuality = .unavailable then usage.quality
        else goal.usageQuality.worst usage.quality }

def readReply (goal : GoalRun) (turnId : TurnId) (checkpoint : ReadCheckpoint)
    (signal : GoalSignal) (now : Time) : GoalRun :=
  match checkpoint with
  | .invalid error =>
    { goal with
      checkpointWarning := some ("ignored invalid checkpoint: " ++ error)
      statusMessage := signal.message }
  | .omitted =>
    { goal with
      checkpointWarning := some "assistant response omitted a valid goal-checkpoint"
      statusMessage := signal.message }
  | .parsed payload =>
    let read : GoalCheckpoint := ⟨turnId, payload, now⟩
    { goal with
      checkpoint := some read
      checkpointHistory := (goal.checkpointHistory ++ [read]).keepLast goalCheckpointHistoryLimit
      checkpointWarning := none
      statusMessage := signal.message }

/-- A counted turn that succeeded: its signal decides, unless the objective was edited
after the dispatch. -/
def concludeTurn (callbacks : Callbacks) (stored goal : GoalRun) (turnId : TurnId)
    (tokens : Option Nat) (report : TurnReport) (moment : Moment)
    (rest : GoalRun → Section) : Section :=
  let again (goal : GoalRun) : Section :=
    stored.put goal (.counted turnId tokens) moment.now moment.saves.turn fun goal =>
      goal.prepareDispatch callbacks none false moment rest
  match report.signal with
  | none =>
    if goal.dispatchedObjectiveRevision ≠ goal.objectiveRevision then again goal
    else
      stored.put
        { goal with
          status := .failed
          statusMessage := some "assistant response omitted a valid trailing goal-status signal"
          completedAt := some moment.now }
        (.counted turnId tokens) moment.now moment.saves.turn rest
  | some signal =>
    let goal := goal.readReply turnId report.checkpoint signal moment.now
    if goal.dispatchedObjectiveRevision ≠ goal.objectiveRevision then again goal
    else
      match signal.state with
      | .complete =>
        stored.put { goal with status := .complete, completedAt := some moment.now }
          (.counted turnId tokens) moment.now moment.saves.turn rest
      | .blocked | .needsInput =>
        stored.put { goal with status := .blocked }
          (.counted turnId tokens) moment.now moment.saves.turn rest
      | .continues =>
        if !callbacks.dispatch then
          stored.put { goal with status := .paused, statusMessage := some notConnected }
            (.counted turnId tokens) moment.now moment.saves.turn rest
        else again goal

def onTurnCompletedLocked (callbacks : Callbacks) (goal : GoalRun) (turnId : TurnId)
    (report : TurnReport) (moment : Moment) (rest : GoalRun → Section) : Section :=
  if turnId ∈ goal.completedTurnIds then rest goal
  else if goal.status ≠ .active then rest goal
  else if goal.resumeAfterTurn = true ∧ goal.dispatchState = .idle then
    -- an ordinary Chat turn ended: nothing is charged to the goal
    if !report.succeeded then
      goal.put
        { goal.rememberTurn turnId with
          status := .paused
          pausedAt := some moment.now
          resumeAfterTurn := false
          statusMessage := some ("current Chat turn ended with status " ++ report.status ++
            "; resume the Goal to continue") }
        .interrupted moment.now moment.saves.turn rest
    else goal.releaseDeferredLocked callbacks (goal.rememberTurn turnId) moment rest
  else if (goal.dispatchState ≠ .pending ∧ goal.dispatchState ≠ .dispatched) ∨
      goal.currentTurnId ≠ some turnId then rest goal
  else
    match report.usage with
    | none => goal.raises (.value "invalid turn usage")
    | some usage =>
      let counted := goal.countTurn turnId usage
      if report.status.toLower = "cancelled" then
        goal.put
          { counted with
            status := .paused
            pausedAt := some moment.now
            statusMessage := some "current Goal turn was stopped; resume to continue" }
          (.counted turnId usage.totalTokens) moment.now moment.saves.turn rest
      else if !report.succeeded then
        goal.put
          { counted with
            status := .failed
            statusMessage := some ("turn ended with status " ++ report.status)
            completedAt := some moment.now }
          (.counted turnId usage.totalTokens) moment.now moment.saves.turn rest
      else goal.concludeTurn callbacks counted turnId usage.totalTokens report moment rest

def onTurnCompleted (callbacks : Callbacks) (goal : GoalRun) (turnId : TurnId)
    (report : TurnReport) (moment : Moment) : Section :=
  goal.onTurnCompletedLocked callbacks turnId report moment fun goal =>
    goal.dispatchIfPending false

/-- The goal still waits for the acceptance of the step of a prepared record. -/
def awaits (goal prepared : GoalRun) : Prop :=
  goal.dispatchState = .pending ∧ goal.pendingStepId = prepared.pendingStepId

instance (goal prepared : GoalRun) : Decidable (goal.awaits prepared) :=
  inferInstanceAs (Decidable (_ ∧ _))

/-- The transport raised, or the coroutine was cancelled, or the acceptance could not be
saved. A completion seen meanwhile is stronger evidence. -/
def dispatchFailed (goal prepared : GoalRun) (error : GoalError) (moment : Moment) : Section :=
  if goal.awaits prepared then
    goal.put
      { goal with
        status := if goal.status = .active then .paused else goal.status
        statusMessage := some ("continuation dispatch failed: " ++ error.text)
        dispatchState := .uncertain }
      .uncertain moment.now moment.saves.failure fun goal =>
        if error = .cancelled then goal.raises error else goal.returns
  else goal.returns

def dispatchAccepted (goal prepared : GoalRun) (nextTurnId : Option TurnId)
    (moment : Moment) : Section :=
  if goal.awaits prepared then
    if moment.saves.acceptance then
      goal.put
        { goal with
          currentTurnId := some ((truthy nextTurnId).getD (prepared.pendingStepId.getD ""))
          dispatchState := .dispatched
          pendingInput :=
            if goal.pendingInput = prepared.pendingInput then none else goal.pendingInput
          pendingImageCount :=
            if goal.pendingImageFingerprint = prepared.pendingImageFingerprint then 0
            else goal.pendingImageCount
          pendingImageFingerprint :=
            if goal.pendingImageFingerprint = prepared.pendingImageFingerprint then ""
            else goal.pendingImageFingerprint }
        .accepted moment.now true returns
    else goal.dispatchFailed prepared .save moment
  else goal.returns

/-- What `recover` writes of one goal, if anything. -/
def recovered (goal : GoalRun) (now : Time) : Option GoalRun :=
  let parked := if goal.status = .active then
      { goal with
        status := .paused
        pausedAt := some now
        resumeAfterTurn := false
        statusMessage := some "backend restarted; resume the Goal explicitly" }
    else goal
  if goal.dispatchState = .pending ∨ goal.dispatchState = .dispatched then
    some { parked with
      dispatchState := .uncertain
      statusMessage := some "restart occurred during continuation dispatch; resume explicitly"
      updatedAt := now }
  else if goal.status = .active then some { parked with updatedAt := now }
  else none

end GoalRun

end ClaudeHub
