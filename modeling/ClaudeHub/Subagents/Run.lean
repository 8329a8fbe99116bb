import ClaudeHub.Lib.Runs
import ClaudeHub.Subagents.Service

/-! # Runs of the subagent service

Closing, stopping and the step relation. A step is a stretch of one operation between two of
its waits; a close that goes on with a child takes a step for each. A save returns at any time
after it was asked for, and an operation can be cancelled wherever it waits.
-/

namespace ClaudeHub

open StepSystem

namespace SubagentService

def setStage (service : SubagentService) (row : Closing) (stage : CloseStage) : SubagentService :=
  { service with closing := service.closing.insert { row with stage := stage } }

/-- `_close` returns to its caller. -/
def closeReturned (service : SubagentService) (id : SubagentId) (caller : Option SubagentId)
    (result : Bool) : SubagentService :=
  match caller with
  | none => service.answer (.closed id result)
  | some parent =>
    match service.closing.get? parent with
    | none => service
    | some row =>
      match row.stage with
      | .inChild child rest => service.setStage row (.childReturned result child rest)
      | _ => service

/-- `_close` gives its claim back and returns False. -/
def closeFailed (service : SubagentService) (row : Closing) : SubagentService :=
  { service with closing := service.closing.erase row.subagentId }.closeReturned row.subagentId
    row.caller false

def openChildren (service : SubagentService) (record : Subagent) : List SubagentId :=
  match record.tabId with
  | none => []
  | some tabId =>
    ((service.published.filterMap service.records.get?).filter fun child =>
      child.parentTabId = some tabId && !child.closed).map Subagent.id

/-- `_close` after the record's turn has been joined: a tab that is still the record's own is
archived first. -/
def archiveOwnTab (service : SubagentService) (row : Closing) (record : Subagent) :
    SubagentService :=
  match record.tabId.bind service.tabs.get? with
  | none => service.setStage row (.children (service.openChildren record))
  | some tab =>
    if tab.subagentId = some record.id && !tab.archived then service.setStage row .archiving
    else service.setStage row (.children (service.openChildren record))

/-- `_close`, up to its first wait -/
def enterClose (service : SubagentService) (id : SubagentId) (reason : String)
    (caller : Option SubagentId) : SubagentService :=
  match service.records.get? id with
  | none => service
  | some record =>
    if record.closed then service.closeReturned id caller true
    else if service.isClosing id then service.closeReturned id caller false
    else
      let tasks := service.runningTasks record none
      let row : Closing := ⟨id, reason, caller, .joining tasks⟩
      let claimed := (service.requestCancel tasks).setStage row (.joining tasks)
      if tasks = [] then claimed.archiveOwnTab row record else claimed

def setClosed (service : SubagentService) (row : Closing) (now : Time) : SubagentService :=
  { service with
    records := service.records.map
      (fun record =>
        if record.id = row.subagentId then
          { record with closed := true, closedAt := some now, closeReason := some row.reason }
        else record)
      (fun record => by split <;> rfl)
    closing := service.closing.erase row.subagentId
    finalSaves := service.finalSaves ++ [(row.subagentId, row.caller)] }

/-- `_close_child` returns whether its child is closed. -/
def afterChild (service : SubagentService) (row : Closing) (child : SubagentId)
    (rest : List SubagentId) : SubagentService :=
  if service.isClosed child then service.setStage row (.children rest) else service.closeFailed row

inductive CloseAnswer
  | goOn (now : Time)
  | archived (ok : Bool)
  | woken (deadline : Bool)
  deriving DecidableEq, Repr

def proceedClose (service : SubagentService) (id : SubagentId) (answer : CloseAnswer) :
    Option SubagentService :=
  match service.closing.get? id, service.records.get? id with
  | some row, some record =>
    match row.stage, answer with
    | .joining tasks, .goOn _ =>
      if service.joined tasks then some (service.archiveOwnTab row record) else none
    | .archiving, .archived true =>
      some (service.setStage row (.children (service.openChildren record)))
    | .archiving, .archived false => some (service.closeFailed row)
    | .children [], .goOn now => some (service.setClosed row now)
    | .children (child :: rest), .goOn _ =>
      some ((service.setStage row (.inChild child rest)).enterClose child
        "parent subagent closed" (some id))
    | .childReturned true _ rest, .goOn _ => some (service.setStage row (.children rest))
    | .childReturned false child rest, .goOn _ =>
      some (if service.isClosing child then service.setStage row (.waitingChild child rest)
        else service.afterChild row child rest)
    | .waitingChild child rest, .woken deadline =>
      if service.isClosing child && !deadline then none
      else some (service.afterChild row child rest)
    | _, _ => none
  | _, _ => none

def unwindCaller (service : SubagentService) (caller : Option SubagentId) : SubagentService :=
  match caller.bind service.closing.get? with
  | none => service
  | some row =>
    match row.stage with
    | .inChild _ _ => service.setStage row .unwinding
    | _ => service

def abandonClose (service : SubagentService) (id : SubagentId) : Option SubagentService :=
  match service.closing.get? id with
  | none => none
  | some row =>
    match row.stage with
    | .joining _ | .archiving | .waitingChild _ _ | .unwinding =>
      some ({ service with closing := service.closing.erase id }.unwindCaller row.caller)
    | _ => none

def endClose (service : SubagentService) (index : Nat) (cancelled : Bool) :
    Option SubagentService :=
  match service.finalSaves[index]? with
  | none => none
  | some (id, caller) =>
    let ended := { service with finalSaves := service.finalSaves.eraseIdx index }
    some (if cancelled then ended.unwindCaller caller else ended.closeReturned id caller true)

/-- `_on_tab_retired` -/
def retireTab (service : SubagentService) (tabId : TabId) : SubagentService :=
  let affected := (service.published.filterMap service.records.get?).filter fun record =>
    !record.closed && !service.isClosing record.id
      && (record.parentTabId = some tabId || record.tabId = some tabId)
  if service.shuttingDown then service
  else { service with
    pendingCloses := service.pendingCloses ++ affected.map fun record =>
      (record.id, if record.parentTabId = some tabId then "parent tab archived or deleted"
        else "subagent tab archived or deleted") }

/-- `stop`, up to where it joins its tasks -/
def stop (service : SubagentService) : SubagentService :=
  let tasks := (service.turnTasks.rows.filter fun task => !task.done).map TurnTask.turnId
  let cancelled := service.requestCancel tasks
  { cancelled with
    shuttingDown := true
    stops := service.stops ++ [.joining tasks] }

/-- A call of `stop` goes on: its tasks have ended, or its save has returned. -/
def proceedStop (service : SubagentService) (index : Nat) : Option SubagentService :=
  match service.stops[index]? with
  | none => none
  | some (.joining tasks) =>
    if service.joined tasks then some { service with stops := service.stops.set index .saving }
    else none
  | some .saving =>
    some { service with stops := service.stops.eraseIdx index, stopped := true }

/-- `_CLOSED_RETENTION` in seconds -/
def closedRetention : Time := 7 * 24 * 60 * 60

def closedRetentionMax : Nat := 500

/-- The closed records that `_prune` drops: all but the latest, and those that are too old. -/
def outdated (service : SubagentService) (now : Time) : List SubagentId :=
  let closed := ((service.published.filterMap service.records.get?).filter Subagent.closed).mergeSort
    fun record other => other.closedSince ≤ record.closedSince
  (closed.zipIdx.filter fun (record, index) =>
    closedRetentionMax ≤ index ∨ record.closedSince + closedRetention < now).map fun entry => entry.1.id

/-- `_prune`, in a save that writes -/
def prune (service : SubagentService) (now : Time) : SubagentService :=
  { service with
    records := service.records.map
      (fun record => if record.id ∈ service.published then record.trimTurns else record)
      (fun record => by
        split
        · unfold Subagent.trimTurns
          split <;> rfl
        · rfl)
    published := service.published.filter fun id => id ∉ service.outdated now }

/-- The service after `start` has loaded the records: a turn that ran when the backend ended
has failed. -/
def loaded (records : Table Subagent.id) : SubagentService where
  records := records.map
    (fun record => { record with
      turns := record.turns.map fun turn =>
        if turn.status = .running then { turn with status := .failed } else turn })
    (fun _ => rfl)
  published := records.rows.map Subagent.id
  minted := records.rows.flatMap fun record =>
    record.id :: record.turns.map SubagentTurn.turnId

end SubagentService

inductive SubagentOp
  | create (request : SubagentCreate)
  | enterCreate (index : Nat)
  | openTab (index : Nat) (tabId : Option TabId) (id : SubagentId) (turnId : TurnId) (now : Time)
  | abandonCreate (index : Nat)
  | send (id : SubagentId) (request : SubagentTurnCreate)
  | enterSend (index : Nat) (turnId : TurnId)
  | abandonSend (index : Nat)
  | saved (turnId : TurnId) (ok : Bool)
  | beginTurn (turnId : TurnId)
  | finishTurn (turnId : TurnId) (outcome : SubagentService.TurnOutcome)
  | endTurn (turnId : TurnId) (cancelled : Bool)
  | cancel (id : SubagentId) (turnId : Option TurnId)
  | joinCancel (index : Nat)
  | abandonCancel (index : Nat)
  | close (id : SubagentId) (reason : String)
  | startClose (index : Nat)
  | abandonPendingClose (index : Nat)
  | proceedClose (id : SubagentId) (answer : SubagentService.CloseAnswer)
  | abandonClose (id : SubagentId)
  | endClose (index : Nat) (cancelled : Bool)
  | editTab (tab : ChatTab)
  | deleteTab (tabId : TabId)
  | retireTab (tabId : TabId)
  | prune (now : Time)
  | stop
  | proceedStop (index : Nat)
  | abandonStop (index : Nat)

namespace SubagentService

def step (service : SubagentService) : SubagentOp → Option SubagentService
  | .create request => some (service.startCreate request)
  | .enterCreate index => service.enterCreate index
  | .openTab index tabId id turnId now => service.openTab index tabId id turnId now
  | .abandonCreate index => some { service with creates := service.creates.eraseIdx index }
  | .send id request => some (service.startSend id request)
  | .enterSend index turnId => service.enterSend index turnId
  | .abandonSend index => some { service with sends := service.sends.eraseIdx index }
  | .saved turnId ok => service.saved turnId ok
  | .beginTurn turnId => service.beginTurn turnId
  | .finishTurn turnId outcome => service.finishTurn turnId outcome
  | .endTurn turnId cancelled => service.endTurn turnId cancelled
  | .cancel id turnId => some (service.cancel id turnId)
  | .joinCancel index => service.joinCancel index
  | .abandonCancel index => some { service with cancels := service.cancels.eraseIdx index }
  | .close id reason =>
    some (if id ∈ service.published then service.enterClose id reason none
      else service.answer (.raised .notFound))
  | .startClose index =>
    (service.pendingCloses[index]?).map fun (id, reason) =>
      { service with pendingCloses := service.pendingCloses.eraseIdx index }.enterClose id reason
        none
  | .abandonPendingClose index =>
    some { service with pendingCloses := service.pendingCloses.eraseIdx index }
  | .proceedClose id answer => service.proceedClose id answer
  | .abandonClose id => service.abandonClose id
  | .endClose index cancelled => service.endClose index cancelled
  | .editTab tab => some { service with tabs := service.tabs.insert tab }
  | .deleteTab tabId => some { service with tabs := service.tabs.erase tabId }
  | .retireTab tabId => some (service.retireTab tabId)
  | .prune now => some (service.prune now)
  | .stop => some service.stop
  | .proceedStop index => service.proceedStop index
  | .abandonStop index => some { service with stops := service.stops.eraseIdx index }

def Exclusive (service : SubagentService) : Prop :=
  ∀ record ∈ service.records.rows, record.runningTurns.length ≤ 1

/-- A turn of the record runs. -/
def Running (service : SubagentService) (id : SubagentId) (turnId : TurnId) : Prop :=
  ∃ record, service.records.get? id = some record ∧ turnId ∈ record.runningTurns

/-- Cancelling, closing and stopping leave nothing running behind. -/
structure Quiet (service : SubagentService) : Prop where
  closed : ∀ id turnId, service.isClosed id = true → ¬ service.Running id turnId
  spawned : service.spawnedClosed = []
  cancelled : ∀ id turnId, (id, turnId) ∈ service.cancelled → ¬ service.Running id turnId
  stopped : service.startedLate = []

/-- Each turn of the record that runs, or the one named, has a task that has taken its first
step. -/
def UnderWay (service : SubagentService) (id : SubagentId) (turnId : Option TurnId) : Prop :=
  ∀ record, service.records.get? id = some record → ∀ turn ∈ record.foundBy turnId,
    (service.turnTasks.get? turn).map TurnTask.stage = some .executing

/-- The record that a step begins to close, if it can be claimed. -/
def claims (service : SubagentService) (op : SubagentOp) : Option SubagentId :=
  let id := match op with
    | .close id _ => if id ∈ service.published then some id else none
    | .startClose index => (service.pendingCloses[index]?).map Prod.fst
    | .proceedClose id (.goOn _) =>
      match (service.closing.get? id).map Closing.stage with
      | some (.children (child :: _)) => some child
      | _ => none
    | _ => none
  id.filter fun id => !service.isClosed id && !service.isClosing id

/-- A close or a cancel begins while no turn that it is about waits for its save or for the
first step of its task, and the save of a turn that was sent returns only while the service
does not stop. -/
def Unraced (service : SubagentService) (op : SubagentOp) : Prop :=
  (∀ id, service.claims op = some id →
      (∀ turn ∈ service.unsaved.rows, turn.subagentId ≠ id) ∧ service.UnderWay id none) ∧
    match op with
    | .cancel id turnId => id ∈ service.published → service.UnderWay id turnId
    | .saved turnId true =>
      (service.unsaved.get? turnId).map UnsavedTurn.origin = some .sent →
        service.shuttingDown = false
    | _ => True

instance (service : SubagentService) (id : SubagentId) (turnId : Option TurnId) :
    Decidable (service.UnderWay id turnId) := by
  unfold UnderWay
  infer_instance

instance (service : SubagentService) (op : SubagentOp) : Decidable (service.Unraced op) := by
  unfold Unraced
  refine @instDecidableAnd _ _ ?_ ?_
  · infer_instance
  · split <;> infer_instance

end SubagentService

end ClaudeHub
