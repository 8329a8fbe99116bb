import ClaudeHub.Restart.Store
import ClaudeHub.Lib.Runs

/-! # Runs of the restart continuation

Backends read the mailbox, claim its targets and hand them to the provider; every locked
section of the mailbox is one step. Between two steps of a backend other backends may run,
the user may stop a Chat, the launcher may go on and processes may die. What was claimed
and what was handed over is recorded beside the mailbox.
-/

namespace ClaudeHub

/-- What `_continue_chat` may raise. -/
inductive AttemptFailure
  | skipped (reason : String)
  | cancelled
  | raised
  deriving DecidableEq, Repr

namespace AttemptFailure

def state : AttemptFailure → TargetState
  | skipped _ => .skipped
  | cancelled | raised => .failed

def reason : AttemptFailure → String
  | skipped reason => reason
  | cancelled => "Continuation interrupted; check the Chat before continuing"
  | raised => "Automatic continuation failed; check the Chat before continuing"

end AttemptFailure

/-- How far `_continue_chat` has come. -/
inductive AttemptPhase
  | queued
  | entered
  | validated
  | resumed
  /-- `before_send` has passed and the turn is published. -/
  | sending
  /-- `before_delivery` has passed. -/
  | submitting
  /-- The transport's own check has passed; nothing is awaited before the provider gets
  the input, unless it checks again. -/
  | ready
  | handedOff
  | leaving (failure : AttemptFailure)
  | done
  deriving DecidableEq, Repr

namespace AttemptPhase

def next : AttemptPhase → Option AttemptPhase
  | entered => some validated
  | validated => some resumed
  | resumed => some sending
  | sending => some submitting
  | submitting | ready => some ready
  | _ => none

/-- The whole of `validate` runs, not only `validate_identity`. -/
def validates : AttemptPhase → Bool
  | entered | validated | resumed => true
  | _ => false

def holds : AttemptPhase → Bool
  | entered | validated | resumed | sending | submitting | ready => true
  | _ => false

/-- `_continue_chat` is running. -/
def running (phase : AttemptPhase) : Bool := phase ≠ queued && phase ≠ done

end AttemptPhase

structure ChatFindings where
  shuttingDown : Bool := false
  runtimeReplaced : Bool := false
  /-- Why `_eligible_tab` refuses the tab. -/
  ineligible : Option String := none
  /-- Why `_validate_goal` refuses the Goal. -/
  goalChanged : Option String := none
  chatChanged : Bool := false
  /-- Why `_verify_interruption` refuses the turn. -/
  resolved : Option String := none
  cursorUnverified : Bool := false
  deriving DecidableEq, Repr

def refuse (reason : Option String) : Except String Unit :=
  match reason with
  | none => .ok ()
  | some reason => .error reason

def refuseIf (refused : Bool) (reason : String) : Except String Unit :=
  refuse (if refused then some reason else none)

structure RestartAttempt where
  backend : Backend
  call : Nat
  operationId : OperationId
  target : ChatContinuation
  phase : AttemptPhase := .queued
  deriving DecidableEq, Repr

namespace RestartAttempt

def validateIdentity (attempt : RestartAttempt) (store : RestartState) (now : Time)
    (found : ChatFindings) : Except String Unit := do
  store.assertClaim attempt.backend attempt.operationId attempt.target now
  refuseIf found.shuttingDown "The service is shutting down"
  refuseIf found.runtimeReplaced "The Chat runtime was replaced"
  refuse found.ineligible
  if attempt.target.goalId ≠ none then refuse found.goalChanged else .ok ()
  refuseIf found.chatChanged "Chat configuration or conversation changed"

def validate (attempt : RestartAttempt) (store : RestartState) (now : Time) (found : ChatFindings) :
    Except String Unit := do
  attempt.validateIdentity store now found
  refuse found.resolved
  refuseIf found.cursorUnverified "The original Cursor conversation store could not be verified"
  store.assertClaim attempt.backend attempt.operationId attempt.target now

/-- The next check, which raises `ContinuationSkipped` where it refuses. -/
def check (attempt : RestartAttempt) (store : RestartState) (now : Time) (found : ChatFindings) :
    Option RestartAttempt :=
  attempt.phase.next.map fun next =>
    match (if attempt.phase.validates then attempt.validate store now found
      else attempt.validateIdentity store now found) with
    | .ok () => { attempt with phase := next }
    | .error reason => { attempt with phase := .leaving (.skipped reason) }

end RestartAttempt

/-- Where a call of `continue_interrupted_chats` stands. -/
inductive CallStage
  | sweeping (rest : List ChatContinuation)
  | expiring (rest : List ChatContinuation)
  | expired (target : ChatContinuation) (rest : List ChatContinuation)
  | attempting
  deriving DecidableEq, Repr

structure ContinuationCall where
  backend : Backend
  operationId : OperationId
  recovery : ChatRecovery
  stage : CallStage
  deriving DecidableEq, Repr

def RestartState.ownRecovery (store : RestartState) (backend : Backend) :
    Option (OperationId × ChatRecovery) := do
  let operation ← store.operation
  if !operation.operationMatches backend false then none
  else
    let recovery ← operation.chatRecovery
    if some recovery.launcherId ≠ backend.launcherId ∨
        store.launcherId ≠ some recovery.launcherId then none
    else return (operation.id, recovery)

/-- The start of `continue_interrupted_chats`. -/
def RestartState.startCall (store : RestartState) (backend : Backend) : Option ContinuationCall :=
  (store.ownRecovery backend).map fun (operationId, recovery) =>
    { backend, operationId, recovery, stage := .sweeping recovery.targets }

def ChatRecovery.pending (recovery : ChatRecovery) : List ChatContinuation :=
  recovery.targets.filter fun target => target.state = .pending

def priorAttempt : String :=
  "A prior continuation attempt may have been sent; check the Chat before continuing"

/-! ## The system -/

inductive RestartEvent
  | claimed (id : ContinuationId)
  | handed (id : ContinuationId)
  deriving DecidableEq, Repr

structure RestartSystem where
  store : RestartState
  calls : List (Option ContinuationCall) := []
  attempts : List RestartAttempt := []
  history : List RestartEvent := []
  deriving DecidableEq, Repr

inductive RestartOp
  | start (backend : Backend)
  | sweep (call : Nat) (now : Time)
  | expire (call : Nat)
  | claim (attempt : Nat)
  | check (attempt : Nat) (now : Time) (found : ChatFindings)
  | raise (attempt : Nat) (failure : AttemptFailure)
  | handOver (attempt : Nat)
  | settle (attempt : Nat)
  | cancel (backend : Backend) (tabId : TabId) (expectedTurnId : Option TurnId)
      (goalId : Option String) (vetoCapture : Bool)
  | crash (backend : Backend)
  /-- `update_operation`, by the launcher. -/
  | update (status : OperationStatus)
  /-- `initialize`, by another launcher. -/
  | launch (launcherId : LauncherId)
  deriving DecidableEq, Repr

namespace RestartSystem

/-- A locked section that changes a target, and what it records. -/
def change (system : RestartSystem) (backend : Backend) (operationId : OperationId)
    (target : ChatContinuation) (state : TargetState) (reason : String) :
    RestartSystem × Bool :=
  match system.store.changeTarget backend operationId target state reason with
  | none => (system, false)
  | some store =>
    ({ system with
      store
      history :=
        if state = .claimed then system.history ++ [.claimed target.continuationId]
        else system.history }, true)

def setCall (system : RestartSystem) (i : Nat) (call : Option ContinuationCall) : RestartSystem :=
  { system with calls := system.calls.set i call }

def setAttempt (system : RestartSystem) (i : Nat) (attempt : RestartAttempt) : RestartSystem :=
  { system with attempts := system.attempts.set i attempt }

def running (system : RestartSystem) (call : Nat) : Nat :=
  system.attempts.countP fun attempt => attempt.call = call && attempt.phase.running

def sweep (system : RestartSystem) (i : Nat) (call : ContinuationCall) (now : Time) :
    Option RestartSystem :=
  match call.stage with
  | .sweeping (target :: rest) =>
    let changed :=
      if target.state = .claimed ∧
          target.claimedByInstanceId ≠ some call.backend.instanceId then
        (system.change call.backend call.operationId target .failed priorAttempt).1
      else system
    some (changed.setCall i (some { call with stage := .sweeping rest }))
  | .sweeping [] =>
    if call.recovery.fresh now then
      let attempts := call.recovery.pending.map fun target =>
        ({ backend := call.backend, call := i, operationId := call.operationId, target } :
          RestartAttempt)
      some { system.setCall i (some { call with stage := .attempting }) with
        attempts := system.attempts ++ attempts }
    else some (system.setCall i (some { call with stage := .expiring call.recovery.pending }))
  | _ => none

def expire (system : RestartSystem) (i : Nat) (call : ContinuationCall) : Option RestartSystem :=
  match call.stage with
  | .expiring [] => some (system.setCall i none)
  | .expiring (target :: rest) =>
    let (changed, claimed) := system.change call.backend call.operationId target .claimed ""
    some (changed.setCall i (some { call with
      stage := if claimed then .expired target rest else .expiring rest }))
  | .expired target rest =>
    let (changed, _) :=
      system.change call.backend call.operationId target .failed recoveryExpired
    some (changed.setCall i (some { call with stage := .expiring rest }))
  | _ => none

def claim (system : RestartSystem) (i : Nat) (attempt : RestartAttempt) : Option RestartSystem :=
  if attempt.phase = .queued ∧ system.running attempt.call < 4 then
    let (changed, claimed) :=
      system.change attempt.backend attempt.operationId attempt.target .claimed ""
    some (changed.setAttempt i { attempt with phase := if claimed then .entered else .done })
  else none

def settle (system : RestartSystem) (i : Nat) (attempt : RestartAttempt) : Option RestartSystem :=
  match attempt.phase with
  | .handedOff =>
    let (changed, _) := system.change attempt.backend attempt.operationId attempt.target .started ""
    some (changed.setAttempt i { attempt with phase := .done })
  | .leaving failure =>
    let (changed, _) :=
      system.change attempt.backend attempt.operationId attempt.target failure.state failure.reason
    some (changed.setAttempt i { attempt with phase := .done })
  | _ => none

def step (system : RestartSystem) : RestartOp → Option RestartSystem
  | .start backend =>
    some { system with calls := system.calls ++ [system.store.startCall backend] }
  | .sweep i now => (system.calls[i]?.join).bind fun call => system.sweep i call now
  | .expire i => (system.calls[i]?.join).bind fun call => system.expire i call
  | .claim i => system.attempts[i]?.bind fun attempt => system.claim i attempt
  | .check i now found => do
      let attempt ← system.attempts[i]?
      let checked ← attempt.check system.store now found
      return system.setAttempt i checked
  | .raise i failure => do
      let attempt ← system.attempts[i]?
      if attempt.phase.holds || attempt.phase = .handedOff then
        return system.setAttempt i { attempt with phase := .leaving failure }
      else none
  | .handOver i => do
      let attempt ← system.attempts[i]?
      if attempt.phase = .ready then
        return { system.setAttempt i { attempt with phase := .handedOff } with
          history := system.history ++ [.handed attempt.target.continuationId] }
      else none
  | .settle i => system.attempts[i]?.bind fun attempt => system.settle i attempt
  | .cancel backend tabId expectedTurnId goalId vetoCapture =>
    some { system with
      store := (system.store.cancelPendingContinuation backend tabId expectedTurnId goalId
        vetoCapture).1 }
  | .crash backend =>
    some { system with
      calls := system.calls.map fun call => call.filter fun call => call.backend ≠ backend
      attempts := system.attempts.map fun attempt =>
        if attempt.backend = backend then { attempt with phase := .done } else attempt }
  | .update status =>
    some { system with
      store := { system.store with
        operation := system.store.operation.map fun operation => { operation with status } } }
  | .launch launcherId =>
    some { system with
      store := {
        launcherId := some launcherId
        operation := system.store.operation.map fun operation =>
          if operation.status = .preparing ∨ operation.status = .restarting then
            { operation with status := .failed }
          else operation } }

end RestartSystem

end ClaudeHub
