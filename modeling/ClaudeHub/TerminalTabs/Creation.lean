import ClaudeHub.Lib.Runs
import ClaudeHub.Lib.Table
import ClaudeHub.Models.Enums

/-! # Creating, forking and archiving terminal tabs

A call runs from one await to the next. The capacity is checked when a creation starts and the
tab is registered when its startup has ended; a fork holds the lock of its source up to there,
then copies the history and records where it comes from.
-/

namespace ClaudeHub

structure TabSettings where
  maxTotalTabs : Nat := 200
  maxForksPerTab : Nat := 12
  deriving DecidableEq, Repr

structure TabRecord where
  archived : Bool := false
  forkedFromTabId : Option TabId := none
  forkedFromOrdinal : Option Int := none
  deriving DecidableEq, Repr

inductive CreatePurpose
  | tab
  | fork (source : TabId) (ordinal : Int)
  deriving DecidableEq, Repr

/-- How the checks of a creation go: one of them raises, the MASO service is looked up before the
tab gets its id, or the tab is a managed Chat and needs no startup. -/
structure CreateRequest where
  refused : Bool := false
  discovers : Bool := false
  managedChat : Bool := false
  deriving DecidableEq, Repr

inductive TabCall
  | discovering (purpose : CreatePurpose) (managedChat : Bool)
  | starting (purpose : CreatePurpose) (tabId : TabId)
  | forkWaiting (source : TabId) (ordinal : Int)
  | forkReading (source : TabId) (ordinal : Int)
  | forkCopying (source : TabId) (ordinal : Int) (tabId : TabId)
  | forkCleaning (tabId : TabId)
  deriving DecidableEq, Repr

structure TabManager where
  settings : TabSettings := {}
  processes : Dict TabId TabRecord := Table.empty
  /-- The ids of `_pending_stream_cleanup`. -/
  pendingStreamCleanup : List TabId := []
  calls : Dict Nat TabCall := Table.empty
  /-- Tabs of forks that raised, which were there when the fork raised. -/
  orphans : List TabId := []
  deriving DecidableEq

inductive TabOp
  | createTab (call : Nat) (request : CreateRequest) (tabId : TabId)
  | duplicateTab (call : Nat) (source : TabId) (request : CreateRequest) (tabId : TabId)
  | forkTab (call : Nat) (source : TabId) (ordinal : Int)
  | lockAcquired (call : Nat)
  | historyRead (call : Nat) (numTurns : Nat) (request : CreateRequest) (tabId : TabId)
  | serviceFound (call : Nat) (tabId : TabId)
  | started (call : Nat)
  | raises (call : Nat)
  | cancelled (call : Nat)
  | historyCopied (call : Nat)
  /-- The delete of a failed fork's tab ends, with the retirement committed or not. -/
  | cleaned (call : Nat) (committed : Bool)
  | deleteTab (tabId : TabId)
  | artifactsRemoved (tabId : TabId)
  | archiveTab (tabId : TabId)
  | unarchiveTab (tabId : TabId)
  deriving DecidableEq, Repr

namespace TabManager

def live (manager : TabManager) : Nat :=
  manager.processes.rows.countP fun entry => !entry.2.archived

def countForks (manager : TabManager) (source : TabId) : Nat :=
  manager.processes.rows.countP fun entry => entry.2.forkedFromTabId = some source

/-- `_check_live_tab_capacity` does not raise. -/
def hasCapacity (manager : TabManager) : Bool := manager.live < manager.settings.maxTotalTabs

def holdsForkLock (source : TabId) : TabCall → Bool
  | .discovering (.fork held _) _ | .starting (.fork held _) _ | .forkReading held _ =>
    held = source
  | _ => false

def forkLocked (manager : TabManager) (source : TabId) : Bool :=
  manager.calls.rows.any fun entry => holdsForkLock source entry.2

def isFree (manager : TabManager) (tabId : TabId) : Bool :=
  (manager.processes.lookup tabId).isNone && decide (tabId ∉ manager.pendingStreamCleanup) &&
    manager.calls.rows.all fun entry =>
      match entry.2 with
      | .starting _ drawn => drawn ≠ tabId
      | _ => true

def standAt (manager : TabManager) (call : Nat) (phase : TabCall) : TabManager :=
  { manager with calls := manager.calls.set call phase }

def ended (manager : TabManager) (call : Nat) : TabManager :=
  { manager with calls := manager.calls.erase call }

def register (manager : TabManager) (call : Nat) (purpose : CreatePurpose) (tabId : TabId) :
    TabManager :=
  let manager := { manager with processes := manager.processes.set tabId {} }
  match purpose with
  | .tab => manager.ended call
  | .fork source ordinal => manager.standAt call (.forkCopying source ordinal tabId)

def allocate (manager : TabManager) (call : Nat) (purpose : CreatePurpose) (managedChat : Bool)
    (tabId : TabId) : Option TabManager :=
  if manager.isFree tabId then
    some (if managedChat then manager.register call purpose tabId
      else manager.standAt call (.starting purpose tabId))
  else none

/-- `create_tab` up to its first await. -/
def create (manager : TabManager) (call : Nat) (purpose : CreatePurpose)
    (request : CreateRequest) (tabId : TabId) : Option TabManager :=
  if !manager.hasCapacity || request.refused then some (manager.ended call)
  else if request.discovers then some (manager.standAt call (.discovering purpose request.managedChat))
  else manager.allocate call purpose request.managedChat tabId

def retire (manager : TabManager) (tabId : TabId) : TabManager :=
  if (manager.processes.lookup tabId).isSome then
    { manager with
      processes := manager.processes.erase tabId
      pendingStreamCleanup := manager.pendingStreamCleanup ++ [tabId] }
  else manager

/-- `fork_tab` raises after its tab was created. -/
def forkRaises (manager : TabManager) (call : Nat) (tabId : TabId) : TabManager :=
  let manager := manager.ended call
  if (manager.processes.lookup tabId).isSome then
    { manager with orphans := manager.orphans ++ [tabId] }
  else manager

/-- The end of `fork_tab`: its tab gets its provenance, unless it is gone. -/
def recordProvenance (manager : TabManager) (call : Nat) (source : TabId) (ordinal : Int)
    (tabId : TabId) : TabManager :=
  match manager.processes.lookup tabId with
  | none => manager.standAt call (.forkCleaning tabId)
  | some process =>
    let process := { process with
      forkedFromTabId := some source, forkedFromOrdinal := some ordinal }
    { manager with processes := manager.processes.set tabId process }.ended call

def copiedRequest (request : CreateRequest) : CreateRequest := { request with managedChat := false }

def step (manager : TabManager) : TabOp → Option TabManager
  | .createTab call request tabId =>
    if (manager.calls.lookup call).isNone then manager.create call .tab request tabId else none
  | .duplicateTab call source request tabId =>
    if (manager.calls.lookup call).isNone then
      if (manager.processes.lookup source).isNone then some manager
      else manager.create call .tab (copiedRequest request) tabId
    else none
  | .forkTab call source ordinal =>
    if (manager.calls.lookup call).isNone then
      if (manager.processes.lookup source).isNone then some manager
      else some (manager.standAt call (.forkWaiting source ordinal))
    else none
  | .lockAcquired call =>
    match manager.calls.lookup call with
    | some (.forkWaiting source ordinal) =>
      if manager.forkLocked source then none
      else if manager.settings.maxForksPerTab ≤ manager.countForks source then
        some (manager.ended call)
      else some (manager.standAt call (.forkReading source ordinal))
    | _ => none
  | .historyRead call numTurns request tabId =>
    match manager.calls.lookup call with
    | some (.forkReading source ordinal) =>
      if ordinal < 0 ∨ numTurns ≤ ordinal then some (manager.ended call)
      else manager.create call (.fork source ordinal) (copiedRequest request) tabId
    | _ => none
  | .serviceFound call tabId =>
    match manager.calls.lookup call with
    | some (.discovering purpose managedChat) =>
      manager.allocate call purpose managedChat tabId
    | _ => none
  | .started call =>
    match manager.calls.lookup call with
    | some (.starting purpose tabId) => some (manager.register call purpose tabId)
    | _ => none
  | .raises call =>
    match manager.calls.lookup call with
    | none | some (.forkCleaning _) => none
    | some (.forkCopying _ _ tabId) => some (manager.standAt call (.forkCleaning tabId))
    | some _ => some (manager.ended call)
  | .cancelled call =>
    match manager.calls.lookup call with
    | none | some (.forkCleaning _) => none
    | some (.forkCopying _ _ tabId) => some (manager.forkRaises call tabId)
    | some _ => some (manager.ended call)
  | .historyCopied call =>
    match manager.calls.lookup call with
    | some (.forkCopying source ordinal tabId) =>
      some (manager.recordProvenance call source ordinal tabId)
    | _ => none
  | .cleaned call committed =>
    match manager.calls.lookup call with
    | some (.forkCleaning tabId) =>
      some ((if committed then manager.retire tabId else manager).forkRaises call tabId)
    | _ => none
  | .deleteTab tabId => some (manager.retire tabId)
  | .artifactsRemoved tabId => some { manager with
      pendingStreamCleanup := manager.pendingStreamCleanup.erase tabId }
  | .archiveTab tabId =>
    match manager.processes.lookup tabId with
    | none => some manager
    | some process => some { manager with
        processes := manager.processes.set tabId { process with archived := true } }
  | .unarchiveTab tabId =>
    match manager.processes.lookup tabId with
    | none => some manager
    | some process =>
      if process.archived then
        if manager.hasCapacity then
          some { manager with
            processes := manager.processes.set tabId { process with archived := false } }
        else some manager
      else some manager

end TabManager

end ClaudeHub
