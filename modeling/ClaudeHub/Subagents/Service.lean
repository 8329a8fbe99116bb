import ClaudeHub.Lib.Table
import ClaudeHub.Models.Enums

/-! # Hub subagents

One record per subagent with its Chat tab and its turns. A turn is appended while it runs,
saved, and only then run by a task of its own; a close claims its record, joins the record's
turn, archives the tab and closes the subagents of that tab before it sets the closed flag.
What a turn answered, and how its Chat is launched, is left out.
-/

namespace ClaudeHub

abbrev SubagentId := String

inductive SubagentTurnStatus
  | running | completed | failed | timeout | cancelled
  deriving DecidableEq, Repr

structure SubagentTurn where
  turnId : TurnId
  callId : Option String := none
  status : SubagentTurnStatus := .running
  requestDigest : String := ""
  deriving DecidableEq, Repr

structure Subagent where
  id : SubagentId
  tabId : Option TabId := none
  parentTabId : Option TabId := none
  keep : Bool := false
  createdAt : Time := 0
  callId : Option String := none
  requestDigest : String := ""
  closed : Bool := false
  closedAt : Option Time := none
  closeReason : Option String := none
  turns : List SubagentTurn := []
  deriving DecidableEq, Repr

namespace Subagent

def runningTurns (record : Subagent) : List TurnId :=
  (record.turns.filter fun turn => turn.status = .running).map SubagentTurn.turnId

def foundBy (record : Subagent) (turnId : Option TurnId) : List TurnId :=
  record.runningTurns.filter fun turn => turnId.all fun named => named = turn

def turnsKept : Nat := 20

/-- `_trim_turns`: the first turn, the last ones and any that runs are kept. -/
def trimTurns (record : Subagent) : Subagent :=
  if record.turns.length ≤ turnsKept + 1 then record
  else { record with
    turns := (record.turns.zipIdx.filter fun (turn, index) =>
        index = 0 ∨ record.turns.length - turnsKept ≤ index ∨ turn.status = .running).map Prod.fst }

/-- What `_prune` sorts and dates the closed records by. -/
def closedSince (record : Subagent) : Time := record.closedAt.getD record.createdAt

end Subagent

structure ChatTab where
  id : TabId
  archived : Bool := false
  subagentId : Option SubagentId := none
  deriving DecidableEq, Repr

inductive SubagentError
  | unavailable | notFound | invalid | parentClosed | callIdConflict | closed | notKept
  | stillRunning | notRecorded | noTab
  deriving DecidableEq, Repr

inductive SubagentAnswer
  | turn (subagentId : SubagentId) (turnId : TurnId)
  | cancelled (subagentId : SubagentId)
  | closed (subagentId : SubagentId) (done : Bool)
  | raised (error : SubagentError)
  deriving DecidableEq, Repr

/-! ## Operations under way -/

/-- A request with what the checks of its environment, parent and directory make of it. -/
structure SubagentCreate where
  callId : Option String := none
  requestDigest : String := ""
  keep : Bool := false
  parent : Except SubagentError (Option TabId) := .ok none
  deriving DecidableEq

def SubagentCreate.parentTabId (request : SubagentCreate) : Option TabId :=
  match request.parent with
  | .error _ => none
  | .ok parent => parent

structure SubagentTurnCreate where
  callId : Option String := none
  requestDigest : String := ""
  deriving DecidableEq, Repr

/-- A call of `create` before its turn is appended: it waits for the lock of its call id, or
for its tab. -/
structure SubagentCreation where
  request : SubagentCreate
  openingTab : Bool := false
  deriving DecidableEq

/-- A call of `send` that waits for the lock of its record's turns. -/
structure SubagentSend where
  subagentId : SubagentId
  request : SubagentTurnCreate
  deriving DecidableEq, Repr

inductive TurnOrigin
  | sent
  | created (callId : Option String) (parentTabId : Option TabId)
  deriving DecidableEq, Repr

structure UnsavedTurn where
  turnId : TurnId
  subagentId : SubagentId
  origin : TurnOrigin
  deriving DecidableEq, Repr

inductive TurnTaskStage
  | spawned
  | executing
  | saving
  | ended
  /-- Cancelled before its first step, so that `_execute` never ran. -/
  | neverBegan
  deriving DecidableEq, Repr

structure TurnTask where
  turnId : TurnId
  subagentId : SubagentId
  stage : TurnTaskStage := .spawned
  cancelRequested : Bool := false
  deriving DecidableEq, Repr

def TurnTask.done (task : TurnTask) : Bool := task.stage = .ended || task.stage = .neverBegan

/-- A call of `cancel` that joins the tasks that it has cancelled. -/
structure SubagentCancel where
  subagentId : SubagentId
  found : List TurnId
  tasks : List TurnId
  deriving DecidableEq, Repr

inductive CloseStage
  | joining (tasks : List TurnId)
  | archiving
  | children (rest : List SubagentId)
  | inChild (child : SubagentId) (rest : List SubagentId)
  | childReturned (result : Bool) (child : SubagentId) (rest : List SubagentId)
  | waitingChild (child : SubagentId) (rest : List SubagentId)
  | unwinding
  deriving DecidableEq, Repr

/-- A close that has claimed its record. `caller` is the record whose close has called it. -/
structure Closing where
  subagentId : SubagentId
  reason : String
  caller : Option SubagentId := none
  stage : CloseStage
  deriving DecidableEq, Repr

inductive StopStage
  | joining (tasks : List TurnId)
  | saving
  deriving DecidableEq, Repr

structure SubagentService where
  records : Table Subagent.id := .empty
  /-- The keys of `_subagents`. -/
  published : List SubagentId := []
  /-- The keys of `_tasks`. -/
  tasks : List TurnId := []
  turnTasks : Table TurnTask.turnId := .empty
  unsaved : Table UnsavedTurn.turnId := .empty
  /-- `_closing`, with the closes that have put a record there. -/
  closing : Table Closing.subagentId := .empty
  /-- The closes that have set the flag and save, with their callers. -/
  finalSaves : List (SubagentId × Option SubagentId) := []
  pendingCloses : List (SubagentId × String) := []
  creates : List SubagentCreation := []
  sends : List SubagentSend := []
  cancels : List SubagentCancel := []
  stops : List StopStage := []
  tabs : Table ChatTab.id := .empty
  shuttingDown : Bool := false
  minted : List String := []
  answers : List SubagentAnswer := []
  cancelled : List (SubagentId × TurnId) := []
  spawnedClosed : List TurnId := []
  stopped : Bool := false
  /-- Each turn whose task was spawned or took its first step after that. -/
  startedLate : List TurnId := []
  deriving DecidableEq

namespace SubagentService

def answer (service : SubagentService) (answer : SubagentAnswer) : SubagentService :=
  { service with answers := service.answers ++ [answer] }

def get (service : SubagentService) (id : SubagentId) : Option Subagent :=
  if id ∈ service.published then service.records.get? id else none

/-- Whether `_closing` has a record. -/
def isClosing (service : SubagentService) (id : SubagentId) : Bool :=
  (service.closing.get? id).isSome

def editTurns (service : SubagentService) (id : SubagentId)
    (f : List SubagentTurn → List SubagentTurn) : SubagentService :=
  { service with
    records := service.records.map
      (fun record => if record.id = id then { record with turns := f record.turns } else record)
      (fun record => by split <;> rfl) }

def parentGone (service : SubagentService) (parentTabId : Option TabId) : Bool :=
  match parentTabId with
  | none => false
  | some tabId =>
    match service.tabs.get? tabId with
    | none => true
    | some tab => tab.archived

/-- `_new_turn`, appended to its record and waiting for its save -/
def appendTurn (service : SubagentService) (id : SubagentId) (turn : SubagentTurn)
    (origin : TurnOrigin) : SubagentService :=
  { service.editTurns id (· ++ [turn]) with
    unsaved := service.unsaved.insert ⟨turn.turnId, id, origin⟩
    minted := turn.turnId :: service.minted }

def isClosed (service : SubagentService) (id : SubagentId) : Bool :=
  ((service.records.get? id).map Subagent.closed).getD false

def spawn (service : SubagentService) (turn : UnsavedTurn) : SubagentService :=
  { service with
    tasks := service.tasks ++ [turn.turnId]
    turnTasks := service.turnTasks.insert { turnId := turn.turnId, subagentId := turn.subagentId }
    spawnedClosed := service.spawnedClosed
      ++ if service.isClosed turn.subagentId then [turn.turnId] else []
    startedLate := service.startedLate ++ if service.stopped then [turn.turnId] else [] }

/-- The tasks that `_cancel_running` finds: of the turns that run, or of the one named. -/
def runningTasks (service : SubagentService) (record : Subagent) (turnId : Option TurnId) :
    List TurnId :=
  (record.foundBy turnId).filter fun id => id ∈ service.tasks

/-- `task.cancel()` on each of the tasks -/
def requestCancel (service : SubagentService) (tasks : List TurnId) : SubagentService :=
  { service with
    turnTasks := service.turnTasks.map
      (fun task => if task.turnId ∈ tasks then { task with cancelRequested := true } else task)
      (fun task => by split <;> rfl) }

/-- `asyncio.wait` on the tasks returns. -/
def joined (service : SubagentService) (tasks : List TurnId) : Bool :=
  tasks.all fun turnId => ((service.turnTasks.get? turnId).map TurnTask.done).getD true

def startCreate (service : SubagentService) (request : SubagentCreate) : SubagentService :=
  if service.shuttingDown then service.answer (.raised .unavailable)
  else { service with creates := service.creates ++ [⟨request, false⟩] }

/-- Whether another call of `create` holds the lock of a call id. -/
def createLocked (service : SubagentService) (callId : Option String) : Bool :=
  callId.isSome
    && (service.creates.any (fun call => call.openingTab && call.request.callId = callId)
      || service.unsaved.rows.any fun turn =>
        match turn.origin with
        | .sent => false
        | .created held _ => held = callId)

def createdFor (service : SubagentService) (callId : Option String) : Option Subagent :=
  if callId = none then none
  else (service.published.filterMap service.records.get?).find? fun record =>
    record.callId = callId

/-- `create` once it holds its lock: a call id that was used before is answered from its
record, else the tab is opened. -/
def enterCreate (service : SubagentService) (index : Nat) : Option SubagentService :=
  match service.creates[index]? with
  | none | some ⟨_, true⟩ => none
  | some ⟨request, false⟩ =>
    if service.createLocked request.callId then none
    else
      let entered := { service with creates := service.creates.eraseIdx index }
      match service.createdFor request.callId with
      | some record =>
        some (entered.answer (
          if record.requestDigest ≠ request.requestDigest then .raised .callIdConflict
          else match record.turns with
            | [] => .raised .notFound
            | turn :: _ => .turn record.id turn.turnId))
      | none =>
        match request.parent with
        | .error error => some (entered.answer (.raised error))
        | .ok _ => some { service with creates := service.creates.set index ⟨request, true⟩ }

/-- The tab of a new subagent is open, or could not be opened. The tab of a record that is
not made is archived. -/
def openTab (service : SubagentService) (index : Nat) (tabId : Option TabId) (id : SubagentId)
    (turnId : TurnId) (now : Time) : Option SubagentService :=
  match service.creates[index]? with
  | none | some ⟨_, false⟩ => none
  | some ⟨request, true⟩ =>
    let entered := { service with creates := service.creates.eraseIdx index }
    match tabId with
    | none => some (entered.answer (.raised .noTab))
    | some tabId =>
      if service.parentGone request.parentTabId then some (entered.answer (.raised .parentClosed))
      else if id ∈ service.minted ∨ turnId ∈ service.minted ∨ id = turnId then none
      else
        let record : Subagent :=
          { id := id, tabId := some tabId, parentTabId := request.parentTabId, keep := request.keep
            createdAt := now, callId := request.callId
            requestDigest := request.requestDigest }
        some ({ entered with
          records := service.records.insert record
          minted := id :: service.minted }.appendTurn id
            { turnId := turnId, callId := request.callId
              requestDigest := request.requestDigest }
            (.created request.callId request.parentTabId))

def startSend (service : SubagentService) (id : SubagentId) (request : SubagentTurnCreate) :
    SubagentService :=
  if service.shuttingDown then service.answer (.raised .unavailable)
  else { service with sends := service.sends ++ [⟨id, request⟩] }

/-- Whether another call of `send` holds the lock of a record's turns. -/
def sendLocked (service : SubagentService) (id : SubagentId) : Bool :=
  service.unsaved.rows.any fun turn => turn.origin = .sent && turn.subagentId = id

/-- The answer of `send` where it appends no turn. -/
def sendAnswer (service : SubagentService) (record : Subagent) (request : SubagentTurnCreate) :
    Option SubagentAnswer :=
  match record.turns.find? fun turn => request.callId.isSome && turn.callId = request.callId with
  | some turn =>
    some (if turn.requestDigest ≠ request.requestDigest then .raised .callIdConflict
      else .turn record.id turn.turnId)
  | none =>
    if record.closed || service.isClosing record.id then some (.raised .closed)
    else if !record.keep then some (.raised .notKept)
    else if record.turns.any fun turn => turn.status = .running then some (.raised .stillRunning)
    else none

/-- `send` once it holds its lock. -/
def enterSend (service : SubagentService) (index : Nat) (turnId : TurnId) :
    Option SubagentService :=
  match service.sends[index]? with
  | none => none
  | some call =>
    if service.sendLocked call.subagentId then none
    else
      let entered := { service with sends := service.sends.eraseIdx index }
      match service.get call.subagentId with
      | none => some (entered.answer (.raised .notFound))
      | some record =>
        match service.sendAnswer record call.request with
        | some answer => some (entered.answer answer)
        | none =>
          if turnId ∈ service.minted then none
          else some (entered.appendTurn record.id
            { turnId := turnId, callId := call.request.callId
              requestDigest := call.request.requestDigest } .sent)

def saved (service : SubagentService) (turnId : TurnId) (ok : Bool) : Option SubagentService :=
  match service.unsaved.get? turnId with
  | none => none
  | some turn =>
    let durable := { service with unsaved := service.unsaved.erase turnId }
    let discarded := { durable with records := service.records.erase turn.subagentId }
    match turn.origin, ok with
    | .sent, true => some ((durable.spawn turn).answer (.turn turn.subagentId turnId))
    | .sent, false =>
      some ((durable.editTurns turn.subagentId (·.filter fun other => other.turnId ≠ turnId)).answer
        (.raised .notRecorded))
    | .created _ _, false => some (discarded.answer (.raised .notRecorded))
    | .created _ parentTabId, true =>
      -- `stop` has joined its tasks: a turn that is spawned now would outlive it.
      if service.shuttingDown then some (discarded.answer (.raised .unavailable))
      else some (({ durable with
          published := service.published ++ [turn.subagentId]
          pendingCloses := service.pendingCloses
            ++ if service.parentGone parentTabId then
                [(turn.subagentId, "parent tab archived or deleted")] else [] }.spawn turn).answer
          (.turn turn.subagentId turnId))

inductive TurnOutcome
  | answered | cancelled | timedOut | interactionRequired | failed
  deriving DecidableEq, Repr

def turnStatus (shuttingDown : Bool) : TurnOutcome → SubagentTurnStatus
  | .answered => .completed
  | .cancelled => if shuttingDown then .failed else .cancelled
  | .timedOut => .timeout
  | .interactionRequired | .failed => .failed

def writeStatus (turnId : TurnId) (status : SubagentTurnStatus) (turns : List SubagentTurn) :
    List SubagentTurn :=
  turns.map fun turn => if turn.turnId = turnId then { turn with status := status } else turn

def setTask (service : SubagentService) (task : TurnTask) (stage : TurnTaskStage) :
    SubagentService :=
  { service with turnTasks := service.turnTasks.insert { task with stage := stage } }

def beginTurn (service : SubagentService) (turnId : TurnId) : Option SubagentService :=
  match service.turnTasks.get? turnId with
  | none => none
  | some task =>
    if task.stage ≠ .spawned then none
    else if task.cancelRequested then some (service.setTask task .neverBegan)
    else some { service.setTask task .executing with
      startedLate := service.startedLate ++ if service.stopped then [turnId] else [] }

/-- `run_turn` returns or raises: the status is written. -/
def finishTurn (service : SubagentService) (turnId : TurnId) (outcome : TurnOutcome) :
    Option SubagentService :=
  match service.turnTasks.get? turnId with
  | none => none
  | some task =>
    if task.stage ≠ .executing then none
    else
      let written := service.editTurns task.subagentId
        (writeStatus turnId (turnStatus service.shuttingDown outcome))
      some ({ written with tasks := service.tasks.filter fun other => other ≠ turnId }.setTask
        task .saving)

def endTurn (service : SubagentService) (turnId : TurnId) (cancelled : Bool) :
    Option SubagentService :=
  match service.turnTasks.get? turnId with
  | none => none
  | some task =>
    if task.stage ≠ .saving then none
    else
      let ended := service.setTask task .ended
      match service.records.get? task.subagentId with
      | none => some ended
      | some record =>
        if cancelled ∨ record.keep ∨ record.closed ∨ service.isClosing record.id
            ∨ service.shuttingDown then some ended
        else some { ended with
          pendingCloses := service.pendingCloses ++ [(record.id, "turn finished")] }

def cancelReturned (service : SubagentService) (id : SubagentId) (found : List TurnId) :
    SubagentService :=
  { service with
    cancelled := service.cancelled ++ found.map (id, ·)
    answers := service.answers ++ [.cancelled id] }

/-- `cancel`, up to where it joins the tasks -/
def cancel (service : SubagentService) (id : SubagentId) (turnId : Option TurnId) :
    SubagentService :=
  match service.get id with
  | none => service.answer (.raised .notFound)
  | some record =>
    if turnId.any fun named => record.turns.all fun turn => turn.turnId ≠ named then
      service.answer (.raised .notFound)
    else
      let found := record.foundBy turnId
      let tasks := service.runningTasks record turnId
      let cancelled := service.requestCancel tasks
      if tasks = [] then cancelled.cancelReturned id found
      else { cancelled with cancels := service.cancels ++ [⟨id, found, tasks⟩] }

def joinCancel (service : SubagentService) (index : Nat) : Option SubagentService :=
  match service.cancels[index]? with
  | none => none
  | some call =>
    if service.joined call.tasks then
      some ({ service with cancels := service.cancels.eraseIdx index }.cancelReturned
        call.subagentId call.found)
    else none

end SubagentService

end ClaudeHub
