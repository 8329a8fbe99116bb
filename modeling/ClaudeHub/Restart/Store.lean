import ClaudeHub.Models.Enums
import ClaudeHub.Lib.Except

/-! # The restart mailbox

One file is shared by the launcher and its backends. It holds the requested restart and, with
it, the Chats that the restart has interrupted and that are to be continued once.
-/

namespace ClaudeHub

abbrev InstanceId := String
abbrev LauncherId := String
abbrev OperationId := String
abbrev ContinuationId := String

def maxRecoveryAge : Time := 300 * 1000000

inductive TargetState
  | pending | claimed | started | skipped | failed
  deriving DecidableEq, Repr

structure ChatContinuation where
  tabId : TabId
  turnId : TurnId
  continuationId : ContinuationId
  goalId : Option String := none
  goalDeferred : Bool := false
  state : TargetState := .pending
  claimedByInstanceId : Option InstanceId := none
  reason : String := ""
  deriving DecidableEq, Repr

structure ChatRecovery where
  launcherId : LauncherId
  capturedAt : Time
  targets : List ChatContinuation
  deriving DecidableEq, Repr

inductive OperationStatus
  | preparing | restarting | succeeded | failed
  deriving DecidableEq, Repr

structure RestartOperation where
  id : OperationId
  instanceId : InstanceId
  status : OperationStatus
  resumeRunningChats : Bool := false
  chatRecovery : Option ChatRecovery := none
  chatRecoveryVetoes : List TabId := []
  deriving DecidableEq, Repr

structure RestartState where
  launcherId : Option LauncherId := none
  operation : Option RestartOperation := none
  deriving DecidableEq, Repr

/-- A backend process: its `INSTANCE_ID`, and the launcher that its environment names. -/
structure Backend where
  instanceId : InstanceId
  launcherId : Option LauncherId
  deriving DecidableEq, Repr

def RestartOperation.operationMatches (operation : RestartOperation) (backend : Backend)
    (capturing : Bool) : Bool :=
  operation.resumeRunningChats && operation.instanceId ≠ "" && operation.id ≠ "" &&
    (operation.status = .restarting || (!capturing && operation.status = .succeeded)) &&
    (if capturing then operation.instanceId = backend.instanceId
      else operation.instanceId ≠ backend.instanceId)

namespace ChatContinuation

def expected (state : TargetState) : TargetState :=
  if state = .claimed then .pending else .claimed

def change (row : ChatContinuation) (backend : Backend) (state : TargetState) (reason : String) :
    Option ChatContinuation :=
  if row.state ≠ expected state then none
  else
    some { row with
      state, reason
      claimedByInstanceId :=
        if state = .claimed then some backend.instanceId else row.claimedByInstanceId }

def stop (row : ChatContinuation) : ChatContinuation :=
  { row with state := .skipped, reason := "Stopped by the user" }

end ChatContinuation

def changeRow (backend : Backend) (id : ContinuationId) (state : TargetState) (reason : String) :
    List ChatContinuation → Option (List ChatContinuation)
  | [] => none
  | row :: rows =>
    if row.continuationId = id then
      (row.change backend state reason).map fun changed => changed :: rows
    else (changeRow backend id state reason rows).map fun changed => row :: changed

def RestartState.setTargets (store : RestartState) (operation : RestartOperation)
    (recovery : ChatRecovery) (targets : List ChatContinuation) : RestartState :=
  { store with
    operation := some { operation with chatRecovery := some { recovery with targets } } }

/-- `_change_target`: `none` where nothing is changed. -/
def RestartState.changeTarget (store : RestartState) (backend : Backend)
    (operationId : OperationId) (target : ChatContinuation) (state : TargetState)
    (reason : String) : Option RestartState := do
  let operation ← store.operation
  let recovery ← operation.chatRecovery
  if operation.id ≠ operationId then none
  else
    let targets ← changeRow backend target.continuationId state reason recovery.targets
    return store.setTargets operation recovery targets

def recoveryExpired : String := "Automatic continuation expired; check the Chat before continuing"

def recoverySuperseded : String := "Automatic continuation was cancelled or superseded"

def ChatRecovery.fresh (recovery : ChatRecovery) (now : Time) : Bool :=
  recovery.capturedAt ≤ now && now ≤ recovery.capturedAt + maxRecoveryAge

def ChatContinuation.claimedBy (row : ChatContinuation) (id : ContinuationId) (backend : Backend) :
    Bool :=
  row.continuationId = id && row.state = .claimed &&
    row.claimedByInstanceId = some backend.instanceId

def RestartState.assertClaim (store : RestartState) (backend : Backend)
    (operationId : OperationId) (target : ChatContinuation) (now : Time) : Except String Unit :=
  match store.operation.bind fun operation =>
      operation.chatRecovery.map fun recovery => (operation, recovery) with
  | none => .error recoveryExpired
  | some (operation, recovery) =>
    if !recovery.fresh now then .error recoveryExpired
    else if some recovery.launcherId = backend.launcherId ∧
        store.launcherId = some recovery.launcherId ∧ operation.id = operationId ∧
        target.tabId ∉ operation.chatRecoveryVetoes ∧
        operation.operationMatches backend false ∧
        recovery.targets.any fun row => row.claimedBy target.continuationId backend then
      .ok ()
    else .error recoverySuperseded

/-- The targets once the user has stopped the Chat, and the target that a given turn names. -/
def cancelRows (tabId : TabId) (expectedTurnId : Option TurnId) (goalId : Option String) :
    List ChatContinuation → List ChatContinuation × Option ContinuationId
  | [] => ([], none)
  | row :: rows =>
    let rest := cancelRows tabId expectedTurnId goalId rows
    if goalId ≠ none ∧ row.goalId ≠ goalId then (row :: rest.1, rest.2)
    else if row.tabId = tabId ∧ expectedTurnId = none then
      -- a newer manual turn must still be stopped, so no id is returned
      (if row.state = .pending ∨ row.state = .claimed then row.stop :: rows else row :: rows, none)
    else if row.tabId = tabId ∧
        (row.state = .pending ∨ row.state = .claimed ∨ row.state = .started) ∧
        (expectedTurnId = none ∨ expectedTurnId = some row.turnId ∨
          expectedTurnId = some row.continuationId) then
      (row.stop :: rows, some row.continuationId)
    else (row :: rest.1, rest.2)

def RestartOperation.veto (operation : RestartOperation) (tabId : TabId) : RestartOperation :=
  if tabId ∈ operation.chatRecoveryVetoes then operation
  else { operation with chatRecoveryVetoes := operation.chatRecoveryVetoes ++ [tabId] }

/-- `cancel_pending_continuation`: the new state, and the turn that is to be stopped instead. -/
def RestartState.cancelPendingContinuation (store : RestartState) (backend : Backend)
    (tabId : TabId) (expectedTurnId : Option TurnId) (goalId : Option String)
    (vetoCapture : Bool) : RestartState × Option ContinuationId :=
  match store.operation with
  | none => (store, none)
  | some operation =>
    let recovering := operation.operationMatches backend false
    if !(recovering || operation.operationMatches backend true) then (store, none)
    else
      let operation := if vetoCapture then operation.veto tabId else operation
      match operation.chatRecovery with
      | none => ({ store with operation := some operation }, none)
      | some recovery =>
        let (targets, stopped) := cancelRows tabId expectedTurnId goalId recovery.targets
        (store.setTargets operation recovery targets,
          -- before the shutdown the original turn still owns the transport
          if recovering then stopped else none)

end ClaudeHub
