import ClaudeHub.Lib.Runs
import ClaudeHub.Lib.Table
import ClaudeHub.Models.Enums

/-! # Retiring terminal tabs

A retired tab leaves an obligation to remove its stream artifacts, which is kept in memory and
in the tab snapshot until they are removed. A write of the snapshot may fail before or after the
file was replaced; after the replacement it is not known to be durable. Calls run from one await
to the next, and a restart loads the file as it is.
-/

namespace ClaudeHub

def tabCleanupAuthorization : String := "stream-discard-validated-v1"

structure TabProcess where
  owner : Nat
  createdAt : Time
  deriving DecidableEq, Repr

structure PendingTabCleanup where
  tabId : TabId
  createdAt : Time
  token : String
  authorization : String := tabCleanupAuthorization
  deriving DecidableEq, Repr

structure TabsSnapshot where
  tabs : List (TabId × Time)
  pendingStreamCleanup : List PendingTabCleanup
  deriving DecidableEq, Repr

/-- `_TAB_ID_RE` -/
def isTabId (text : String) : Bool :=
  match text.toList with
  | [] => false
  | c :: rest =>
    c.isAlphanum && rest.length ≤ 127 &&
      rest.all fun c => c.isAlphanum || c = '_' || c = '-'

def isCleanupToken (text : String) : Bool :=
  text.toList.length = 32 && text.toList.all fun c => c.isDigit || ('a' ≤ c && c ≤ 'f')

/-- `parse_tabs_snapshot` accepts the snapshot. -/
def TabsSnapshot.valid (snapshot : TabsSnapshot) : Bool :=
  snapshot.tabs.all (fun tab => isTabId tab.1) && decide (snapshot.tabs.map Prod.fst).Nodup &&
    snapshot.pendingStreamCleanup.all (fun record =>
      isTabId record.tabId && isCleanupToken record.token &&
        decide (record.authorization = tabCleanupAuthorization) &&
        decide (record.tabId ∉ snapshot.tabs.map Prod.fst)) &&
    decide (snapshot.pendingStreamCleanup.map PendingTabCleanup.tabId).Nodup &&
    decide (snapshot.pendingStreamCleanup.map PendingTabCleanup.token).Nodup

inductive StoredTabs
  | missing
  | unreadable
  | stored (snapshot : TabsSnapshot)
  deriving DecidableEq, Repr

def StoredTabs.pending : StoredTabs → List PendingTabCleanup
  | .stored snapshot => snapshot.pendingStreamCleanup
  | _ => []

def StoredTabs.load : StoredTabs → Option TabsSnapshot
  | .missing => some ⟨[], []⟩
  | .unreadable => none
  | .stored snapshot => if snapshot.valid then some snapshot else none

inductive TabPersistError
  | tabState
  | commit (replaced : Bool)
  deriving DecidableEq, Repr

inductive RetireCall
  /-- `create_tab` in its startup, with the id it has drawn -/
  | starting (tabId : TabId)
  /-- `delete_tab` before the cleanup lock, with what it has captured -/
  | deleteWaiting (tabId : TabId) (expected : Option TabProcess)
      (expectedCleanup : Option PendingTabCleanup)
  | fencing (tabId : TabId) (expected : TabProcess)
  | fenced (tabId : TabId) (expected : TabProcess)
  | stopping (tabId : TabId) (expected : TabProcess)
  | discarding (record : PendingTabCleanup)
  /-- `_run_tab_cleanup` before the cleanup lock -/
  | jobWaiting (record : PendingTabCleanup)
  deriving DecidableEq, Repr

/-- What `delete_tab` does to the owner that a tab id has at that time. -/
inductive OwnerAct
  | fence | stop | retire
  deriving DecidableEq, Repr

/-- An act of a deleter, with the owner that it captured and the owner that it met. -/
structure OwnerAction where
  act : OwnerAct
  captured : TabProcess
  met : Option TabProcess
  deriving DecidableEq, Repr

structure TabRetirement where
  processes : Dict TabId TabProcess := Table.empty
  pendingStreamCleanup : Dict TabId PendingTabCleanup := Table.empty
  stateConfirmed : Bool := true
  stateError : Bool := false
  file : StoredTabs := .missing
  calls : Dict Nat RetireCall := Table.empty
  nextOwner : Nat := 0
  registered : List (TabId × TabProcess) := []
  /-- The obligations of the snapshots that were confirmed durable. -/
  confirmed : List PendingTabCleanup := []
  retired : List PendingTabCleanup := []
  removed : List PendingTabCleanup := []
  discards : List PendingTabCleanup := []
  actions : List OwnerAction := []
  deriving DecidableEq

inductive RetireOp
  | createTab (call : Nat) (tabId : TabId)
  | createFails (call : Nat)
  | registered (call : Nat) (createdAt : Time) (outcome : SaveOutcome)
  | saveState (outcome : SaveOutcome)
  | deleteTab (call : Nat) (tabId : TabId)
  | scheduleCleanup (call : Nat) (tabId : TabId)
  /-- A waiter gets the cleanup lock; a tailer may still own the session's stream. -/
  | cleanupLocked (call : Nat) (hasOwner : Bool) (outcome : SaveOutcome)
  | fenceEnds (call : Nat) (ok : Bool)
  | startLocked (call : Nat)
  /-- The tab's process is stopped, and the discard is validated or not. -/
  | stopEnds (call : Nat) (ok validated : Bool) (token : String) (hasOwner : Bool)
      (outcome : SaveOutcome)
  | discardEnds (call : Nat) (ok hasOwner : Bool) (outcome : SaveOutcome)
  | cancelled (call : Nat)
  | restart
  deriving DecidableEq, Repr

namespace TabRetirement

variable (tabs : TabRetirement)

/-- The payload of `_persist_state`. -/
def snapshot : TabsSnapshot where
  tabs := tabs.processes.rows.map fun entry => (entry.1, entry.2.createdAt)
  pendingStreamCleanup := tabs.pendingStreamCleanup.rows.map Prod.snd

def persistState (outcome : SaveOutcome) : TabRetirement × Option TabPersistError :=
  if tabs.stateError then (tabs, some .tabState)
  else if !tabs.snapshot.valid then (tabs, some .tabState)
  else
    match outcome with
    | .saved =>
      ({ tabs with
          file := .stored tabs.snapshot
          stateConfirmed := true
          confirmed := tabs.confirmed ++ tabs.snapshot.pendingStreamCleanup }, none)
    | .notReplaced => ({ tabs with stateConfirmed := false }, some (.commit false))
    | .replacedThenRaised =>
      ({ tabs with
          file := .stored tabs.snapshot
          stateConfirmed := false }, some (.commit true))

/-- `_save_state`, which logs what is raised. -/
def saveState (outcome : SaveOutcome) : TabRetirement := (tabs.persistState outcome).1

def loadedProcesses (nextOwner : Nat) (snapshot : TabsSnapshot) : Dict TabId TabProcess :=
  Table.ofList ((snapshot.tabs.zipIdx).map fun entry =>
    (entry.1.1, ⟨nextOwner + entry.2, entry.1.2⟩))

/-- `_load_state` in a new process. -/
def loadState : TabRetirement :=
  match tabs.file.load with
  | none => { tabs with
      processes := Table.empty
      pendingStreamCleanup := Table.empty
      stateConfirmed := true
      stateError := true
      calls := Table.empty
      registered := [] }
  | some snapshot =>
    let processes := loadedProcesses tabs.nextOwner snapshot
    { tabs with
      processes := processes
      pendingStreamCleanup :=
        Table.ofList (snapshot.pendingStreamCleanup.map fun record => (record.tabId, record))
      stateConfirmed := snapshot.pendingStreamCleanup.isEmpty
      stateError := false
      calls := Table.empty
      nextOwner := tabs.nextOwner + snapshot.tabs.length
      registered := processes.rows }

def start (file : StoredTabs) : TabRetirement :=
  { file := file
    retired := (file.load.map TabsSnapshot.pendingStreamCleanup).getD [] : TabRetirement }.loadState

def standAt (call : Nat) (phase : RetireCall) : TabRetirement :=
  { tabs with calls := tabs.calls.set call phase }

def ended (call : Nat) : TabRetirement := { tabs with calls := tabs.calls.erase call }

def act (act : OwnerAct) (tabId : TabId) (captured : TabProcess) : TabRetirement :=
  { tabs with actions := tabs.actions ++ [⟨act, captured, tabs.processes.lookup tabId⟩] }

def holdsCleanupLock (tabId : TabId) : RetireCall → Bool
  | .fencing held _ | .fenced held _ | .stopping held _ => held = tabId
  | .discarding record => record.tabId = tabId
  | _ => false

def cleanupLockHeld (tabId : TabId) : Bool :=
  tabs.calls.rows.any fun entry => holdsCleanupLock tabId entry.2

/-- `require_owner` does not raise. -/
def ownsCleanup (record : PendingTabCleanup) (hasOwner : Bool) : Bool :=
  !tabs.stateError && decide (tabs.pendingStreamCleanup.lookup record.tabId = some record) &&
    (tabs.processes.lookup record.tabId).isNone && !hasOwner

/-- `_finish_tab_cleanup` up to the removal of the artifacts. -/
def finishTabCleanup (call : Nat) (record : PendingTabCleanup) (hasOwner : Bool)
    (outcome : SaveOutcome) : TabRetirement :=
  if !tabs.ownsCleanup record hasOwner then tabs.ended call
  else
    let (next, raised) := if tabs.stateConfirmed then (tabs, none) else tabs.persistState outcome
    match raised with
    | some _ => next.ended call
    | none => { next.standAt call (.discarding record) with
        discards := next.discards ++ [record] }

/-- The rest of `_finish_tab_cleanup`: the obligation is dropped, and taken back when the write
raises. -/
def acknowledge (call : Nat) (record : PendingTabCleanup) (hasOwner : Bool)
    (outcome : SaveOutcome) : TabRetirement :=
  let tabs := { tabs with removed := tabs.removed ++ [record] }
  if !tabs.ownsCleanup record hasOwner then tabs.ended call
  else
    let dropped := { tabs with
      pendingStreamCleanup := tabs.pendingStreamCleanup.erase record.tabId }
    match dropped.persistState outcome with
    | (next, none) => next.ended call
    | (next, some _) => { next.ended call with
        pendingStreamCleanup := next.pendingStreamCleanup.set record.tabId record
        stateConfirmed := false }

/-- `delete_tab` with the cleanup lock, up to its next await. -/
def deleteLocked (call : Nat) (tabId : TabId) (expected : Option TabProcess)
    (expectedCleanup : Option PendingTabCleanup) (hasOwner : Bool) (outcome : SaveOutcome) :
    TabRetirement :=
  let current := tabs.processes.lookup tabId
  match tabs.pendingStreamCleanup.lookup tabId with
  | some pending =>
    if current.isSome || (expectedCleanup.isSome && expectedCleanup ≠ some pending) ||
        (expected.any fun process => process.createdAt ≠ pending.createdAt) then
      tabs.ended call
    else tabs.finishTabCleanup call pending hasOwner outcome
  | none =>
    if expectedCleanup.isSome then tabs.ended call
    else
      match expected, current with
      | some captured, some process =>
        if process = captured then
          (tabs.act .fence tabId captured).standAt call (.fencing tabId captured)
        else tabs.ended call
      | _, _ => tabs.ended call

/-- The retirement of a stopped tab: its record leaves memory and an obligation takes its place,
unless the write fails before the file was replaced. -/
def retire (call : Nat) (tabId : TabId) (captured : TabProcess) (token : String)
    (hasOwner : Bool) (outcome : SaveOutcome) : TabRetirement :=
  let record : PendingTabCleanup := ⟨tabId, captured.createdAt, token, tabCleanupAuthorization⟩
  let moved := { tabs.act .retire tabId captured with
    processes := tabs.processes.erase tabId
    pendingStreamCleanup := tabs.pendingStreamCleanup.set tabId record }
  match moved.persistState outcome with
  | (next, none) =>
    { next with retired := next.retired ++ [record] }.finishTabCleanup call record hasOwner
      outcome
  | (next, some (.commit true)) => { next.ended call with retired := next.retired ++ [record] }
  | (next, some _) => { next.ended call with
      processes := next.processes.set tabId captured
      pendingStreamCleanup := next.pendingStreamCleanup.erase tabId }

def isFree (tabId : TabId) : Bool :=
  (tabs.processes.lookup tabId).isNone && (tabs.pendingStreamCleanup.lookup tabId).isNone &&
    tabs.calls.rows.all fun entry => entry.2 ≠ .starting tabId

/-- `uuid4` gives a token that no obligation has had. -/
def isFreshToken (token : String) : Bool :=
  isCleanupToken token && tabs.retired.all fun record => record.token ≠ token

def step : RetireOp → Option TabRetirement
  | .createTab call tabId =>
    if (tabs.calls.lookup call).isNone then
      if tabs.stateError then some tabs
      else if tabs.isFree tabId then some (tabs.standAt call (.starting tabId))
      else none
    else none
  | .createFails call =>
    match tabs.calls.lookup call with
    | some (.starting _) => some (tabs.ended call)
    | _ => none
  | .registered call createdAt outcome =>
    match tabs.calls.lookup call with
    | some (.starting tabId) =>
      let process : TabProcess := ⟨tabs.nextOwner, createdAt⟩
      some ({ tabs.ended call with
        processes := tabs.processes.set tabId process
        nextOwner := tabs.nextOwner + 1
        registered := tabs.registered ++ [(tabId, process)] }.saveState outcome)
    | _ => none
  | .saveState outcome => some (tabs.saveState outcome)
  | .deleteTab call tabId =>
    if (tabs.calls.lookup call).isNone then
      let expected := tabs.processes.lookup tabId
      let expectedCleanup := tabs.pendingStreamCleanup.lookup tabId
      if tabs.stateError || (expected.isNone && expectedCleanup.isNone) then some tabs
      else some (tabs.standAt call (.deleteWaiting tabId expected expectedCleanup))
    else none
  | .scheduleCleanup call tabId =>
    if (tabs.calls.lookup call).isNone then
      match tabs.pendingStreamCleanup.lookup tabId with
      | none => some tabs
      | some record =>
        if tabs.stateError || tabs.cleanupLockHeld tabId then some tabs
        else some (tabs.standAt call (.jobWaiting record))
    else none
  | .cleanupLocked call hasOwner outcome =>
    match tabs.calls.lookup call with
    | some (.deleteWaiting tabId expected expectedCleanup) =>
      if tabs.cleanupLockHeld tabId then none
      else some (tabs.deleteLocked call tabId expected expectedCleanup hasOwner outcome)
    | some (.jobWaiting record) =>
      if tabs.cleanupLockHeld record.tabId then none
      else if tabs.pendingStreamCleanup.lookup record.tabId = some record then
        some (tabs.finishTabCleanup call record hasOwner outcome)
      else some (tabs.ended call)
    | _ => none
  | .fenceEnds call ok =>
    match tabs.calls.lookup call with
    | some (.fencing tabId captured) =>
      some (if ok then tabs.standAt call (.fenced tabId captured) else tabs.ended call)
    | _ => none
  | .startLocked call =>
    match tabs.calls.lookup call with
    | some (.fenced tabId captured) =>
      some (if tabs.processes.lookup tabId = some captured then
          (tabs.act .stop tabId captured).standAt call (.stopping tabId captured)
        else tabs.ended call)
    | _ => none
  | .stopEnds call ok validated token hasOwner outcome =>
    match tabs.calls.lookup call with
    | some (.stopping tabId captured) =>
      if !ok || !validated then some (tabs.ended call)
      else if tabs.isFreshToken token then
        some (tabs.retire call tabId captured token hasOwner outcome)
      else none
    | _ => none
  | .discardEnds call ok hasOwner outcome =>
    match tabs.calls.lookup call with
    | some (.discarding record) =>
      some (if ok then tabs.acknowledge call record hasOwner outcome else tabs.ended call)
    | _ => none
  | .cancelled call =>
    if (tabs.calls.lookup call).isSome then some (tabs.ended call) else none
  | .restart => some tabs.loadState

end TabRetirement

end ClaudeHub
