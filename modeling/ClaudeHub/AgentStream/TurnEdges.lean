import ClaudeHub.AgentStream.TurnLifecycle
import ClaudeHub.Lib.Runs
import ClaudeHub.Lib.Table

/-! # Terminal edges of turns

One session's tailer with its transport: sends, stops, retirements, the consumer of the
provider's records and the background teardown run from one await to the next. Most of them end
a turn while they hold the send lock, which goes to any of its waiters. The failure of a one-shot
provider without a completion record is handled without it.
-/

namespace ClaudeHub

open Brackets

inductive EdgeStage
  | error
  | completion
  /-- what `_publish` awaits behind the append -/
  | observed
  deriving DecidableEq, Repr

/-- The callers of `_cancel_active_turn_locked`. -/
inductive CancelCaller
  | stop
  | retire
  /-- `send_message` with the turn that it goes on to start -/
  | steer (turnId : TurnId)
  | reap
  deriving DecidableEq, Repr

/-- Who publishes a terminal edge under the send lock; `since` counts the turns that had been
started when the caller took up what it acts on. -/
inductive EdgeReason
  | cancel (caller : CancelCaller)
  | orphan
  | rejected
  | provider (since : Nat)
  | goal
  | cleanEof (since : Nat)
  | fatalEof (since : Nat)
  deriving DecidableEq, Repr

/-- The await that the holder of `_send_lock` stands at. -/
inductive LockedSection
  | publishing (reason : EdgeReason) (edge : StreamEvent) (stage : EdgeStage)
  /-- `transport.cancel_active_turn` in `_cancel_active_turn_locked`, and whether the edge of the
  turn could not be persisted -/
  | tearingDown (caller : CancelCaller) (raised : Bool)
  | stopping
  /-- `latest_unfinished_turn` in a stop -/
  | inspecting (expected : Option TurnId)
  /-- `inspect_turn_lifecycle` in a retirement -/
  | inspectingTurn (expected : TurnId)
  | preparing (turnId : TurnId)
  | starting (turnId : TurnId)
  /-- `transport.send_message` before and behind `_begin_turn` -/
  | submitting (turnId : TurnId)
  | submitted (turnId : TurnId)
  /-- `_run_turn_teardown` -/
  | teardown (since : Nat)
  deriving DecidableEq, Repr

def LockedSection.isSubmitted : LockedSection → Bool
  | .submitted _ => true
  | _ => false

inductive TurnCall
  /-- `_await_turn_teardown` with the task that it has found -/
  | sendAwaiting (turnId : TurnId) (steer : Bool) (task : Nat)
  | sendWaiting (turnId : TurnId) (steer : Bool)
  | stopWaiting (expected : Option TurnId)
  | retireWaiting (expected : TurnId)
  deriving DecidableEq, Repr

inductive ConsumerWants
  | completion (edge : StreamEvent) (since : Nat)
  | fatalEof (since : Nat)
  | goalEof
  | cleanEof (since : Nat)
  | goalGrace
  | reap
  deriving DecidableEq, Repr

inductive ConsumerPhase
  | reading
  | wants (reason : ConsumerWants)
  | inLock
  /-- `_fail_active_turn` of a one-shot provider -/
  | failing (edge : StreamEvent) (since : Nat) (stage : EdgeStage)
  deriving DecidableEq, Repr

structure TurnOutput where
  /-- `_assistant_text` and `_final_assistant_text` are not blank. -/
  answered : Bool := false
  finalTextAfterTool : Bool := false
  waitingForExternalActivity : Bool := false
  goalProtocolTurn : Bool := false
  /-- `_goal_terminal_at` is set. -/
  goalTerminal : Bool := false
  deriving DecidableEq, Repr

/-- A turn id or a guard that was cleared, by one that had taken up its work when `since` turns
had been started. -/
structure TurnRelease where
  since : Nat
  activeTurnId : Option TurnId
  guard : Option TurnId
  deriving DecidableEq, Repr

/-- What was cleared had been started before the one that cleared it took up its work. -/
def TurnRelease.InOrder (release : TurnRelease) (started : List TurnId) : Prop :=
  ∀ turnId, release.activeTurnId = some turnId ∨ release.guard = some turnId →
    turnId ∈ started.take release.since

structure TeardownTask where
  number : Nat
  since : Nat
  deriving DecidableEq, Repr

structure TurnTailer where
  eofIsFatal : Bool
  goalCompletionRequiresProviderEvent : Bool
  events : List StreamEvent := []
  activeTurnId : Option TurnId := none
  runEpoch : Nat := 0
  turnCompletedSeen : Bool := false
  output : TurnOutput := {}
  /-- `_turn_in_flight`: the turn that the transport's guard was taken for. -/
  guard : Option TurnId := none
  lock : Option LockedSection := none
  calls : Dict Nat TurnCall := Table.empty
  consumer : ConsumerPhase := .reading
  turnTeardownPending : Bool := false
  turnTeardownTask : Option TeardownTask := none
  nextTask : Nat := 0
  started : List TurnId := []
  releases : List TurnRelease := []
  deriving DecidableEq

inductive TurnOp
  | sendMessage (call : Nat) (turnId : TurnId) (steer : Bool)
  | teardownAwaited (call : Nat)
  | cancelTurn (call : Nat) (expected : Option TurnId)
  | retireExternalTurn (call : Nat) (expected : TurnId)
  | callLocked (call : Nat)
  | prepared (ok goalProtocol : Bool)
  | startPublished (ok : Bool)
  | turnBegins
  | submissionFails
  | submitted (accepted : Bool)
  | inspected
  | errorPublished (ok : Bool)
  | edgeAppended (ok : Bool)
  | edgeObserved
  /-- `cancel_active_turn` ends, with whether the provider was restarted in place. -/
  | tornDown (ok restarted : Bool)
  | transportStopped
  | teardownLocked
  | teardownEnds (ok : Bool)
  | recordsRead (output : TurnOutput)
  | completionRead
  | eofRead (exitError clientRequestedStop : Bool)
  | goalGraceExpired
  | watchdogFires
  /-- The consumer gets the send lock; a watchdog looks again whether it fires. -/
  | consumerLocked (fires : Bool)
  | failureErrorPublished (ok : Bool)
  | failureAppended (ok : Bool)
  | failureObserved
  | restart
  deriving DecidableEq, Repr

namespace TurnTailer

def start (eofIsFatal goalCompletionRequiresProviderEvent : Bool) : TurnTailer :=
  { eofIsFatal := eofIsFatal
    goalCompletionRequiresProviderEvent := goalCompletionRequiresProviderEvent }

variable (tailer : TurnTailer)

/-- `NormalizeContext.event` -/
def contextEvent (type : AgentStreamEventType) (turnId : Option TurnId) : StreamEvent where
  type := type
  turnId := turnId
  runEpoch := some (tailer.runEpoch : Int)

def append (event : StreamEvent) : TurnTailer := { tailer with events := tailer.events ++ [event] }

def appendIf (ok : Bool) (event : StreamEvent) : TurnTailer :=
  if ok then tailer.append event else tailer

def unlock : TurnTailer :=
  { tailer with
    lock := none
    consumer := if tailer.consumer = .inLock then .reading else tailer.consumer }

def enter (section' : LockedSection) : TurnTailer := { tailer with lock := some section' }

def releaseActive : TurnTailer :=
  { tailer with
    activeTurnId := none
    releases := tailer.releases ++ [⟨tailer.started.length, tailer.activeTurnId, none⟩] }

/-- `_end_turn` of the transport -/
def endTurn (since : Nat) : TurnTailer :=
  { tailer with
    guard := none
    releases := tailer.releases ++ [⟨since, none, tailer.guard⟩] }

/-- The active turn id is cleared and `acknowledge_turn_complete` called. -/
def release (since : Nat) : TurnTailer :=
  { tailer with
    activeTurnId := none
    guard := none
    releases := tailer.releases ++ [⟨since, tailer.activeTurnId, tailer.guard⟩] }

def clearWaits : TurnTailer :=
  { tailer with output := { tailer.output with
    waitingForExternalActivity := false
    goalTerminal := false } }

def spawnTurnTeardown : TurnTailer :=
  if tailer.turnTeardownTask.isSome || tailer.turnTeardownPending then tailer
  else { tailer with
    turnTeardownPending := true
    turnTeardownTask := some ⟨tailer.nextTask, tailer.started.length⟩
    nextTask := tailer.nextTask + 1 }

/-- `_cancel_active_turn_locked` behind the publication. -/
def afterCancel (caller : CancelCaller) (raised : Bool) : TurnTailer :=
  let tailer := tailer.releaseActive.clearWaits
  match caller with
  | .stop => tailer.spawnTurnTeardown.unlock
  | _ => tailer.enter (.tearingDown caller raised)

/-- `_cancel_active_turn_locked` up to its first await; a reap explains itself. -/
def cancelActiveTurnLocked (caller : CancelCaller) : TurnTailer :=
  match tailer.activeTurnId with
  | none => tailer.afterCancel caller false
  | some turnId => tailer.enter (.publishing (.cancel caller)
      (tailer.contextEvent .turnCompleted (some turnId))
      (if caller = .reap then .error else .completion))

/-- What follows an inline `cancel_active_turn`. -/
def afterTeardown (caller : CancelCaller) (raised restarted : Bool) : TurnTailer :=
  let tailer := { tailer with turnTeardownPending := false }
  if raised then tailer.unlock
  else
    match caller with
    | .steer turnId => tailer.enter (.preparing turnId)
    | .reap => if restarted then tailer.unlock else tailer.enter .stopping
    | .stop | .retire => tailer.unlock

/-- The rest of the handling of a one-shot EOF that no completion was synthesized for. -/
def eofUnsynthesized (since : Nat) : TurnTailer :=
  match tailer.activeTurnId with
  | some turnId =>
    if tailer.turnCompletedSeen then (tailer.release since).clearWaits
    else { tailer with
      consumer := .failing (tailer.contextEvent .turnCompleted (some turnId)) since .error }
  | none => (tailer.release since).clearWaits

/-- `_synthesize_goal_completion_locked` up to its first await -/
def synthesizeGoalLocked : TurnTailer :=
  match tailer.activeTurnId with
  | some turnId =>
    if tailer.output.goalTerminal && !tailer.eofIsFatal &&
        !tailer.goalCompletionRequiresProviderEvent then
      tailer.enter (.publishing .goal (tailer.contextEvent .turnCompleted (some turnId))
        .completion)
    else tailer.unlock
  | none => tailer.unlock

/-- `_synthesize_clean_eof_completion_locked` qualifies. -/
def cleanEofQualifies : Bool :=
  !tailer.turnCompletedSeen && !tailer.eofIsFatal &&
    !tailer.goalCompletionRequiresProviderEvent && !tailer.output.goalProtocolTurn &&
    !tailer.output.waitingForExternalActivity && !tailer.output.finalTextAfterTool &&
    tailer.output.answered

/-- `_synthesize_clean_eof_completion_locked` up to its first await -/
def synthesizeCleanEofLocked (since : Nat) : TurnTailer :=
  match tailer.activeTurnId with
  | some turnId =>
    if tailer.cleanEofQualifies then
      tailer.enter (.publishing (.cleanEof since)
        (tailer.contextEvent .turnCompleted (some turnId)) .completion)
    else tailer.unlock.eofUnsynthesized since
  | none => tailer.unlock.eofUnsynthesized since

/-- What follows a publication, with whether it raised. -/
def afterEdge (reason : EdgeReason) (raised : Bool) : TurnTailer :=
  let seen := { tailer with turnCompletedSeen := tailer.turnCompletedSeen || !raised }
  match reason with
  | .cancel caller => seen.afterCancel caller raised
  | .orphan => seen.unlock
  | .rejected => tailer.releaseActive.unlock
  | .provider since =>
    { tailer.release since with
      turnCompletedSeen := true
      output := {} : TurnTailer }.unlock
  | .goal =>
    if raised then tailer.unlock
    else { seen.releaseActive with output := {} : TurnTailer }.enter .stopping
  | .cleanEof since =>
    if raised then tailer.unlock.eofUnsynthesized since
    else { seen.releaseActive with output := {} : TurnTailer }.enter .stopping
  | .fatalEof since => (seen.release since).unlock

/-- A publication goes on without its error, except where `_publish_turn_completion` raises. -/
def afterError (reason : EdgeReason) (edge : StreamEvent) (ok : Bool) : TurnTailer :=
  let tailer := tailer.appendIf ok { edge with type := .error }
  match reason with
  | .cancel _ | .orphan =>
    if ok then tailer.enter (.publishing reason edge .completion)
    else tailer.afterEdge reason true
  | _ => tailer.enter (.publishing reason edge .completion)

def publishOrphan (orphan : StreamEvent) : TurnTailer :=
  tailer.enter (.publishing .orphan
    { type := .turnCompleted, turnId := orphan.turnId, runEpoch := orphan.runEpoch } .error)

def reject (turnId : TurnId) : TurnTailer :=
  tailer.enter (.publishing .rejected (tailer.contextEvent .turnCompleted (some turnId)) .error)

/-! ## Calls and the consumer with the send lock -/

def ended (call : Nat) : TurnTailer := { tailer with calls := tailer.calls.erase call }

def callLocked : TurnCall → TurnTailer
  | .sendAwaiting _ _ _ => tailer
  | .sendWaiting turnId steer =>
    if tailer.guard.isSome then
      if steer then tailer.cancelActiveTurnLocked (.steer turnId) else tailer
    else tailer.enter (.preparing turnId)
  | .stopWaiting expected =>
    if tailer.turnTeardownPending then tailer
    else if tailer.guard.isSome then
      if expected.isSome && tailer.activeTurnId ≠ expected then tailer
      else tailer.cancelActiveTurnLocked .stop
    else tailer.enter (.inspecting expected)
  | .retireWaiting expected =>
    match tailer.activeTurnId with
    | some active =>
      if active ≠ expected || tailer.guard.isNone then tailer
      else tailer.cancelActiveTurnLocked .retire
    | none => if tailer.guard.isSome then tailer else tailer.enter (.inspectingTurn expected)

def consumerLocked (fires : Bool) : ConsumerWants → TurnTailer
  | .completion edge since =>
    if edge.turnId.isSome && tailer.activeTurnId ≠ edge.turnId then
      if tailer.activeTurnId.isNone && tailer.guard.isSome then (tailer.endTurn since).unlock
      else tailer.unlock
    else tailer.enter (.publishing (.provider since) edge .completion)
  | .fatalEof since =>
    match tailer.activeTurnId with
    | some turnId => tailer.enter (.publishing (.fatalEof since)
        (tailer.contextEvent .turnCompleted (some turnId)) .error)
    | none => (tailer.release since).unlock
  | .goalEof => tailer.synthesizeGoalLocked
  | .cleanEof since => tailer.synthesizeCleanEofLocked since
  | .goalGrace =>
    if tailer.guard.isSome && !tailer.turnTeardownPending && fires &&
        !tailer.output.waitingForExternalActivity then tailer.synthesizeGoalLocked
    else tailer.unlock
  | .reap =>
    if tailer.guard.isSome && !tailer.turnTeardownPending && fires then
      tailer.cancelActiveTurnLocked .reap
    else tailer.unlock

def orphanRead (expected : Option TurnId) : TurnTailer :=
  match lastOpen StreamEvent.starts StreamEvent.ends tailer.events with
  | none => tailer.unlock
  | some orphan =>
    if expected.isSome && orphan.turnId ≠ expected then tailer.unlock
    else tailer.publishOrphan orphan

def lifecycleRead (expected : TurnId) : TurnTailer :=
  let snapshot := tailer.events.foldl (TurnLifecycleSnapshot.see expected) {}
  if snapshot.state = .terminal then tailer.unlock
  else
    match snapshot.latestUnfinished with
    | none => tailer.unlock
    | some orphan =>
      if orphan.turnId ≠ some expected || snapshot.state ≠ .unfinished then tailer.unlock
      else tailer.publishOrphan orphan

def eofRead (exitError clientRequestedStop : Bool) : TurnTailer :=
  if tailer.eofIsFatal then
    if clientRequestedStop then tailer
    else { tailer with consumer := .wants (.fatalEof tailer.started.length) }
  else if !tailer.turnCompletedSeen && tailer.output.goalTerminal && !exitError then
    { tailer with consumer := .wants .goalEof }
  else if !tailer.turnCompletedSeen && !exitError then
    { tailer with consumer := .wants (.cleanEof tailer.started.length) }
  else tailer.eofUnsynthesized tailer.started.length

def startTurn (turnId : TurnId) (goalProtocol : Bool) : TurnTailer :=
  { tailer with
    activeTurnId := some turnId
    runEpoch := tailer.runEpoch + 1
    turnCompletedSeen := false
    output := { goalProtocolTurn := goalProtocol }
    started := tailer.started ++ [turnId]
    lock := some (.starting turnId) }

def waits (call : Nat) (phase : TurnCall) : Option TurnTailer :=
  if (tailer.calls.lookup call).isSome then none
  else some { tailer with calls := tailer.calls.set call phase }

/-- The step of a consumer that waits for a record. -/
def whileReading (next : TurnTailer) : Option TurnTailer :=
  if tailer.consumer = .reading then some next else none

def step : TurnOp → Option TurnTailer
  | .sendMessage call turnId steer =>
    match tailer.turnTeardownTask with
    | some task => tailer.waits call (.sendAwaiting turnId steer task.number)
    | none => tailer.waits call (.sendWaiting turnId steer)
  | .teardownAwaited call =>
    match tailer.calls.lookup call with
    | some (.sendAwaiting turnId steer number) =>
      if tailer.turnTeardownTask.any fun task => task.number = number then none
      else some { tailer with calls := tailer.calls.set call (.sendWaiting turnId steer) }
    | _ => none
  | .cancelTurn call expected =>
    if tailer.turnTeardownPending then some tailer
    else tailer.waits call (.stopWaiting expected)
  | .retireExternalTurn call expected => tailer.waits call (.retireWaiting expected)
  | .callLocked call =>
    match tailer.lock, tailer.calls.lookup call with
    | none, some phase =>
      match phase with
      | .sendAwaiting _ _ _ => none
      | _ => some ((tailer.ended call).callLocked phase)
    | _, _ => none
  | .prepared ok goalProtocol =>
    match tailer.lock with
    | some (.preparing turnId) =>
      if !ok then some tailer.unlock
      else if turnId ∈ tailer.started then none
      else some (tailer.startTurn turnId goalProtocol)
    | _ => none
  | .startPublished ok =>
    match tailer.lock with
    | some (.starting turnId) =>
      some (if ok then
          (tailer.append (tailer.contextEvent .turnStarted (some turnId))).enter
            (.submitting turnId)
        else tailer.releaseActive.unlock)
    | _ => none
  | .turnBegins =>
    match tailer.lock with
    | some (.submitting turnId) =>
      some (if tailer.guard.isSome then tailer.reject turnId
        else { tailer with guard := some turnId : TurnTailer }.enter (.submitted turnId))
    | _ => none
  | .submissionFails =>
    match tailer.lock with
    | some (.submitting turnId) => some (tailer.reject turnId)
    | _ => none
  | .submitted accepted =>
    match tailer.lock with
    | some (.submitted turnId) =>
      some (if accepted then tailer.unlock
        else (tailer.endTurn tailer.started.length).reject turnId)
    | _ => none
  | .inspected =>
    match tailer.lock with
    | some (.inspecting expected) => some (tailer.orphanRead expected)
    | some (.inspectingTurn expected) => some (tailer.lifecycleRead expected)
    | _ => none
  | .errorPublished ok =>
    match tailer.lock with
    | some (.publishing reason edge .error) => some (tailer.afterError reason edge ok)
    | _ => none
  | .edgeAppended ok =>
    match tailer.lock with
    | some (.publishing reason edge .completion) =>
      some (if ok then (tailer.append edge).enter (.publishing reason edge .observed)
        else tailer.afterEdge reason true)
    | _ => none
  | .edgeObserved =>
    match tailer.lock with
    | some (.publishing reason _ .observed) => some (tailer.afterEdge reason false)
    | _ => none
  | .tornDown ok restarted =>
    match tailer.lock with
    | some (.tearingDown caller raised) =>
      some ((if ok then tailer.endTurn tailer.started.length else tailer).afterTeardown
        caller raised restarted)
    | _ => none
  | .transportStopped =>
    match tailer.lock with
    | some .stopping => some (tailer.endTurn tailer.started.length).unlock
    | _ => none
  | .teardownLocked =>
    match tailer.lock, tailer.turnTeardownTask with
    | none, some task => some (tailer.enter (.teardown task.since))
    | _, _ => none
  | .teardownEnds ok =>
    match tailer.lock with
    | some (.teardown since) =>
      let tailer := if ok then tailer.endTurn since else tailer
      some { tailer with
        turnTeardownPending := false
        turnTeardownTask := none : TurnTailer }.unlock
    | _ => none
  | .recordsRead output =>
    tailer.whileReading { tailer with output := { output with
      goalProtocolTurn := tailer.output.goalProtocolTurn
      goalTerminal := output.goalTerminal && tailer.output.goalProtocolTurn &&
        !tailer.eofIsFatal && !tailer.goalCompletionRequiresProviderEvent } }
  | .completionRead =>
    tailer.whileReading (if tailer.activeTurnId.isNone && tailer.eofIsFatal &&
        tailer.turnCompletedSeen then tailer
      else { tailer with
        consumer := .wants (.completion
          (tailer.contextEvent .turnCompleted tailer.activeTurnId) tailer.started.length) })
  | .eofRead exitError clientRequestedStop =>
    tailer.whileReading (tailer.eofRead exitError clientRequestedStop)
  | .goalGraceExpired =>
    if tailer.guard.isSome && !tailer.turnTeardownPending && tailer.output.goalTerminal then
      tailer.whileReading { tailer with consumer := .wants .goalGrace }
    else none
  | .watchdogFires =>
    if tailer.guard.isSome && !tailer.turnTeardownPending then
      tailer.whileReading { tailer with consumer := .wants .reap }
    else none
  | .consumerLocked fires =>
    match tailer.lock, tailer.consumer with
    | none, .wants reason =>
      some ({ tailer with consumer := .inLock : TurnTailer }.consumerLocked fires reason)
    | _, _ => none
  | .failureErrorPublished ok =>
    match tailer.consumer with
    | .failing edge since .error =>
      some { tailer.appendIf ok { edge with type := .error } with
        consumer := .failing edge since .completion }
    | _ => none
  | .failureAppended ok =>
    match tailer.consumer with
    | .failing edge since .completion =>
      some (if ok then { tailer.append edge with consumer := .failing edge since .observed }
        else { (tailer.release since).clearWaits with consumer := .reading })
    | _ => none
  | .failureObserved =>
    match tailer.consumer with
    | .failing _ since .observed =>
      some { (tailer.release since).clearWaits with
        turnCompletedSeen := true
        consumer := .reading }
    | _ => none
  | .restart => some { start tailer.eofIsFatal tailer.goalCompletionRequiresProviderEvent with
      events := tailer.events
      runEpoch := tailer.runEpoch
      started := tailer.started
      releases := tailer.releases }

def completions (turnId : TurnId) : Nat :=
  tailer.events.countP fun event => event.type = .turnCompleted && event.turnId = some turnId

/-- No turn is there that was started behind the first `since`. -/
def old (since : Nat) (turn : Option TurnId) : Bool :=
  turn.all fun turnId => turnId ∈ tailer.started.take since

/-- A one-shot failure is handled for the turn that was active at the EOF, which still is, while
no holder of the send lock ends or starts a turn. -/
def calm : Bool :=
  match tailer.consumer with
  | .failing edge since _ =>
    tailer.lock.all LockedSection.isSubmitted && tailer.activeTurnId = edge.turnId &&
      tailer.old since tailer.activeTurnId
  | _ => true

/-- Where the code looks at no identity: it meets none of a turn that was started later, and a
rejected turn has not been failed meanwhile. -/
def undisturbed (op : TurnOp) : Bool :=
  tailer.calm &&
    match op with
    | .consumerLocked _ =>
      match tailer.consumer with
      | .wants (.completion edge since) =>
        if edge.turnId.isSome then
          tailer.activeTurnId.isSome || tailer.old since tailer.guard
        else tailer.old since tailer.activeTurnId && tailer.old since tailer.guard
      | .wants (.fatalEof since) | .wants (.cleanEof since) =>
        tailer.old since tailer.activeTurnId && tailer.old since tailer.guard
      | _ => true
    | .teardownLocked =>
      tailer.turnTeardownTask.all fun task => tailer.old task.since tailer.guard
    | .submitted accepted =>
      accepted ||
        match tailer.lock, tailer.consumer with
        | _, .failing _ _ _ => false
        | some (.submitted turnId), _ => tailer.activeTurnId = some turnId
        | _, _ => true
    | _ => true

/-- Every turn has at most one terminal edge, and no turn that was started later was cleared. -/
structure OneTerminalEdge (tailer : TurnTailer) : Prop where
  once : ∀ turnId, tailer.completions turnId ≤ 1
  inOrder : ∀ release ∈ tailer.releases, release.InOrder tailer.started

end TurnTailer

end ClaudeHub
