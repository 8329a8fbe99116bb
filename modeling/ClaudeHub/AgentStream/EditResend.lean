import ClaudeHub.AgentStream.TurnLifecycle
import ClaudeHub.Lib.Lines
import ClaudeHub.Lib.Runs
import ClaudeHub.Lib.Table

/-! # Editing a sent message

One `edit_resend` of a session beside the other calls for it. The edit holds the lifecycle lock of
the session, which `_get_or_create` does not take: a send, a subscription or a stop may get or make
a runtime between any two awaits of the edit. A call gets its runtime in one step and acts on it in
later ones, under the runtime's send lock.
-/

namespace ClaudeHub

open Brackets Lines

/-- A line of the event store: an event with its `stream_sequence`, or text that is none. -/
inductive HubLine
  | event (streamSequence : Option Int) (event : StreamEvent)
  | unreadable (text : String)
  deriving DecidableEq, Repr

namespace HubLine

def event? : HubLine → Option StreamEvent
  | .event _ read => some read
  | .unreadable _ => none

/-- `truncate_before` keeps the line. -/
def before (sequence : Int) : HubLine → Bool
  | .event (some streamSequence) _ => streamSequence < sequence
  | .event none _ => true
  | .unreadable _ => false

def terminalEdge (streamSequence : Int) (turnId : Option TurnId) (explained : Bool) : List HubLine :=
  (if explained then [event (some streamSequence) { type := .error, turnId := turnId }] else []) ++
    [event (some (streamSequence + 1)) { type := .turnCompleted, turnId := turnId }]

end HubLine

structure RuntimeTurn where
  turnId : TurnId
  byEdit : Bool
  inFlight : Bool := true
  deriving DecidableEq, Repr

/-- A `SessionTailer` with its transport; no turn stands in one that was stopped. -/
structure ChatRuntime where
  turn : Option RuntimeTurn := none
  /-- `_retirement_pending`, left behind by a stop that failed -/
  retirementPending : Bool := false
  deriving DecidableEq, Repr

def ChatRuntime.turnInFlight (runtime : ChatRuntime) : Bool := runtime.turn.any RuntimeTurn.inFlight

inductive TailerCall
  | sendMessage (turnId : TurnId) (steer : Bool)
  | subscribe
  | cancelTurn (expected : Option TurnId)
  deriving DecidableEq, Repr

def TailerCall.cancels (turnId : TurnId) : TailerCall → Bool
  | sendMessage _ steer => steer
  | subscribe => false
  | cancelTurn expected => expected.isNone || expected = some turnId

inductive EditEnd
  | returned
  | refused
  | rolledBack
  | stranded
  deriving DecidableEq, Repr

inductive EditPhase
  | idle
  | finding
  | looking (streamSeq : Int)
  | stopping (streamSeq : Int) (previous : Nat)
  | unregistering (streamSeq : Int) (previous : Nat)
  | detached (streamSeq : Int)
  | saving (streamSeq : Int)
  | guarded (streamSeq : Int)
  | truncated
  | forked
  | starting (tailer : Nat)
  | sending (tailer : Nat)
  | delivering (tailer : Nat)
  | handling
  | stoppingCreated (created : Nat)
  | unregisteringCreated (created : Nat)
  | restoring
  | restoringTranscript (storeRestored : Bool)
  | reviving (restored : Bool)
  | revived (restored : Bool) (tailer : Nat)
  | ended (outcome : EditEnd)
  deriving DecidableEq, Repr

/-- No runtime is the edit's to stop and the files are its own: from the stop of the old runtime,
or from where it found none, to the second restore write. -/
def EditPhase.exclusive : EditPhase → Bool
  | idle | finding | looking _ | stopping _ _ | reviving _ | revived _ _ | ended _ => false
  | _ => true

inductive RestoreOutcome
  | written
  | failed (left : List HubLine)
  /-- The cancellation that is raised behind the write, or instead of it. -/
  | cancelled (wrote : Bool)
  deriving DecidableEq, Repr

structure EditWorld where
  storeFile : List HubLine
  transcript : Option (List String)
  /-- The two `.edit-bak` files. -/
  storeSidecar : Option (List HubLine) := none
  transcriptSidecar : Option (List String) := none
  /-- `transcript_backup` of the edit is a path. -/
  transcriptBackup : Bool := false
  retainBackups : Bool := false
  current : Bool := true
  /-- `_tailers` at the session -/
  registered : Option Nat := none
  runtimes : Nat → ChatRuntime := fun _ => {}
  nextRuntime : Nat := 0
  calls : Dict Nat (TailerCall × Nat) := Table.empty
  phase : EditPhase := .idle
  /-- The files as they were when the edit began, and what was written since for the turns of
  other callers and to repair a turn that the store left open. -/
  before : List HubLine := []
  added : List HubLine := []
  transcriptBefore : Option (List String) := none
  transcriptAdded : List String := []
  /-- The turns of other callers that a stop of the edit has cancelled. -/
  cancelled : List TurnId := []
  rollbackFailed : Bool := false

inductive EditOp
  | begins
  /-- `find_turn_with_metadata` -/
  | finds (streamSeq : Option Int)
  | looks
  /-- `_stop_tailer_for_edit`, and whether the stop succeeds -/
  | stopsPrevious (ok : Bool)
  | unregistersPrevious
  | snapshotsStore
  /-- `located` says that the file which the fork will find is the one that was discovered. -/
  | snapshotsTranscript (located : Bool)
  | truncates
  | truncationFails (left : List HubLine)
  | forks (targetLine : Nat)
  | restarts
  | starts (streamSequence : Int)
  | accepts (turnId : TurnId) (streamSequence : Int)
  | delivers
  | fails
  | catches
  | stopsCreated (ok : Bool) (streamSequence : Int)
  | unregistersCreated
  | restoresStore (outcome : RestoreOutcome)
  | restoresTranscript (failed : Option (List String))
  | revives
  | revivedStarts (streamSequence : Int)
  | obtains (call : Nat) (kind : TailerCall)
  | repairs (call : Nat) (streamSequence : Int)
  | callAccepted (call : Nat) (streamSequence : Int)
  | callCancels (call : Nat) (streamSequence : Int)
  | callEnds (call : Nat)
  /-- What a provider says in its turn, and what the coalescer holds of it. -/
  | output (runtime : Nat) (lines : List HubLine) (records : List String)
  | completes (runtime : Nat) (streamSequence : Int)
  | ownerReplaced
  deriving DecidableEq, Repr

/-- A file with what was appended to it; only a write makes a missing one. -/
def appendRecords (file : Option (List String)) (records : List String) : Option (List String) :=
  if records = [] then file else some (file.getD [] ++ records)

@[simp] theorem appendRecords_nil (file : Option (List String)) : appendRecords file [] = file := rfl

theorem appendRecords_append (file : Option (List String)) (records more : List String) :
    appendRecords (appendRecords file records) more = appendRecords file (records ++ more) := by
  unfold appendRecords
  by_cases hrecords : records = [] <;> by_cases hmore : more = [] <;>
    simp [hrecords, hmore]

/-- The lines that `fork_transcript` writes: stripped, without blank ones, up to the target. -/
def forkedRecords (records : List String) (targetLine : Nat) : List String :=
  ((records.map fun record => String.ofList (strip record.toList)).filter fun record =>
    record ≠ "").take targetLine

namespace EditWorld

def start (storeFile : List HubLine) (transcript : Option (List String)) : EditWorld :=
  { storeFile := storeFile, transcript := transcript }

variable (world : EditWorld)

/-- `latest_unfinished_turn` -/
def latestUnfinished : Option StreamEvent :=
  lastOpen StreamEvent.starts StreamEvent.ends (world.storeFile.filterMap HubLine.event?)

def write (lines : List HubLine) : EditWorld :=
  { world with storeFile := world.storeFile ++ lines }

def writeForOthers (lines : List HubLine) (records : List String) : EditWorld :=
  { world with
    storeFile := world.storeFile ++ lines
    added := world.added ++ lines
    transcript := appendRecords world.transcript records
    transcriptAdded := world.transcriptAdded ++ records }

def writeFor (turn : RuntimeTurn) (lines : List HubLine) (records : List String) : EditWorld :=
  if turn.byEdit then
    { world.write lines with transcript := appendRecords world.transcript records }
  else world.writeForOthers lines records

def setRuntime (id : Nat) (runtime : ChatRuntime) : EditWorld :=
  { world with runtimes := Function.update world.runtimes id runtime }

/-- `_get_or_create` up to its first await -/
def getOrCreate : EditWorld × Nat :=
  match world.registered with
  | some id => (world, id)
  | none =>
    ({ world.setRuntime world.nextRuntime {} with
        registered := some world.nextRuntime
        nextRuntime := world.nextRuntime + 1 }, world.nextRuntime)

def unregister (id : Nat) : EditWorld :=
  if world.registered = some id then { world with registered := none } else world

def begin (id : Nat) (turnId : TurnId) (byEdit : Bool) : EditWorld :=
  world.setRuntime id { world.runtimes id with turn := some ⟨turnId, byEdit, true⟩ }

def terminalize (id : Nat) (turn : RuntimeTurn) (streamSequence : Int) (explained : Bool) :
    EditWorld :=
  (world.writeFor turn (HubLine.terminalEdge streamSequence (some turn.turnId) explained) []).setRuntime
    id { world.runtimes id with turn := some { turn with inFlight := false } }

/-- `_recover_orphaned_turn_locked` -/
def orphanEdge (streamSequence : Int) : List HubLine :=
  match world.latestUnfinished with
  | some orphan => HubLine.terminalEdge streamSequence orphan.turnId true
  | none => []

def enter (phase : EditPhase) : EditWorld := { world with phase := phase }

/-- The `finally` clause and the end of the edit. -/
def finish (outcome : EditEnd) : EditWorld :=
  { world with
    storeSidecar := if world.retainBackups then world.storeSidecar else none
    transcriptSidecar :=
      if world.retainBackups || !world.transcriptBackup then world.transcriptSidecar else none
    phase := .ended outcome }

def retainAndRaise : EditWorld :=
  { world with retainBackups := true }.finish .stranded

def rollbackFails : EditWorld := { world with retainBackups := true, rollbackFailed := true }

/-- `fails` at an await of the edit. -/
def fail : Option EditWorld :=
  match world.phase with
  | .finding | .looking _ | .stopping _ _ | .unregistering _ _ | .detached _ | .saving _ =>
    some (world.enter (.ended .refused))
  | .guarded _ | .truncated | .forked | .starting _ | .sending _ | .delivering _ =>
    some (world.enter .handling)
  | .reviving restored | .revived restored _ =>
    some (world.finish (if restored then .rolledBack else .stranded))
  | _ => none

/-- `stop` of a runtime with what it does to a turn in flight. -/
def stopRuntime (id : Nat) (streamSequence : Int) : EditWorld :=
  let runtime := world.runtimes id
  let stopped := world.setRuntime id {}
  match runtime.turn with
  | some turn =>
    if turn.inFlight then
      let stopped := stopped.writeFor turn
        (HubLine.terminalEdge streamSequence (some turn.turnId) true) []
      if turn.byEdit then stopped
      else { stopped with cancelled := stopped.cancelled ++ [turn.turnId] }
    else stopped
  | none => stopped

def restoreStore : EditWorld :=
  match world.storeSidecar with
  | some saved => { world with storeFile := saved }
  | none => world

def restoreTranscript : EditWorld :=
  match world.transcriptBackup, world.transcriptSidecar with
  | true, some saved => { world with transcript := some saved }
  | _, _ => world

/-- A stop of the old runtime, refused while it runs a turn. -/
def stopPrevious (streamSeq : Int) (previous : Nat) (ok : Bool) : EditWorld :=
  if (world.runtimes previous).turnInFlight then world.enter (.ended .refused)
  else if ok then (world.setRuntime previous {}).enter (.unregistering streamSeq previous)
  else (world.setRuntime previous
    { world.runtimes previous with retirementPending := true }).enter (.ended .refused)

def snapshotTranscript (streamSeq : Int) (located : Bool) : EditWorld :=
  let world := world.enter (.guarded streamSeq)
  match located, world.transcript with
  | true, some records =>
    { world with transcriptSidecar := some records, transcriptBackup := true }
  | _, _ => { world with transcriptBackup := false }

def stopCreated (created : Nat) (ok : Bool) (streamSequence : Int) : EditWorld :=
  let stopped := world.stopRuntime created streamSequence
  if ok then stopped.enter (.unregisteringCreated created)
  else (stopped.setRuntime created { retirementPending := true }).rollbackFails.finish .stranded

def restoresStore : RestoreOutcome → EditWorld
  | .written => world.restoreStore.enter (.restoringTranscript true)
  | .failed left =>
    { world with storeFile := left }.rollbackFails.enter (.restoringTranscript false)
  | .cancelled wrote =>
    (if wrote then world.restoreStore else world).rollbackFails.finish .stranded

def restoresTranscript (storeRestored : Bool) : Option (List String) → EditWorld
  | none => world.restoreTranscript.enter (.reviving storeRestored)
  | some left => { world with transcript := some left }.rollbackFails.enter (.reviving false)

/-! ## Other calls -/

def endCall (call : Nat) : EditWorld := { world with calls := world.calls.erase call }

/-- `send_message` of a runtime up to the turn's begin; a busy runtime and one whose stop has
failed refuse. -/
def acceptCall (call : Nat) (streamSequence : Int) : Option EditWorld :=
  match world.calls.lookup call with
  | some (.sendMessage turnId _, id) =>
    if (world.runtimes id).turnInFlight || (world.runtimes id).retirementPending ||
        !world.current then none
    else
      let accepted := world.writeForOthers
        [.event (some streamSequence) { type := .turnStarted, turnId := some turnId }] []
      some ((accepted.begin id turnId false).endCall call)
  | _ => none

/-- The cancellation of a steering send or of `cancel_turn`. -/
def cancelCall (call : Nat) (streamSequence : Int) : Option EditWorld :=
  match world.calls.lookup call with
  | some (kind, id) =>
    match (world.runtimes id).turn with
    | some turn =>
      if turn.inFlight && kind.cancels turn.turnId then
        some (world.terminalize id turn streamSequence false)
      else none
    | none => none
  | none => none

/-- The repair at the start of a runtime or in a `cancel_turn` without a turn. -/
def repairCall (call : Nat) (streamSequence : Int) : Option EditWorld :=
  match world.calls.lookup call with
  | some (_, id) =>
    if (world.runtimes id).turnInFlight || (world.runtimes id).retirementPending then none
    else some (world.writeForOthers (world.orphanEdge streamSequence) [])
  | none => none

def step : EditOp → Option EditWorld
  | .begins =>
    if world.phase = .idle ∧ world.current then
      some { world with
        phase := .finding
        before := world.storeFile
        added := []
        transcriptBefore := world.transcript
        transcriptAdded := [] }
    else none
  | .finds streamSeq =>
    if world.phase = .finding then
      some (world.enter (match streamSeq with
        | some streamSeq => .looking streamSeq
        | none => .ended .refused))
    else none
  | .looks =>
    match world.phase with
    | .looking streamSeq =>
      some (world.enter (match world.registered with
        | some previous => .stopping streamSeq previous
        | none => .detached streamSeq))
    | _ => none
  | .stopsPrevious ok =>
    match world.phase with
    | .stopping streamSeq previous => some (world.stopPrevious streamSeq previous ok)
    | _ => none
  | .unregistersPrevious =>
    match world.phase with
    | .unregistering streamSeq previous =>
      some ((world.unregister previous).enter (.detached streamSeq))
    | _ => none
  | .snapshotsStore =>
    match world.phase with
    | .detached streamSeq =>
      some { world with storeSidecar := some world.storeFile, phase := .saving streamSeq }
    | _ => none
  | .snapshotsTranscript located =>
    match world.phase with
    | .saving streamSeq => some (world.snapshotTranscript streamSeq located)
    | _ => none
  | .truncates =>
    match world.phase with
    | .guarded streamSeq =>
      some { world with
        storeFile := world.storeFile.filter (HubLine.before streamSeq)
        phase := .truncated }
    | _ => none
  | .truncationFails left =>
    match world.phase with
    | .guarded _ => some { world with storeFile := left, phase := .handling }
    | _ => none
  | .forks targetLine =>
    match world.phase, world.transcript with
    | .truncated, some records =>
      some { world with
        transcript := some (forkedRecords records targetLine)
        phase := .forked }
    | _, _ => none
  | .restarts =>
    if world.phase = .forked ∧ world.current then
      let (made, tailer) := world.getOrCreate
      some (made.enter (.starting tailer))
    else none
  | .starts streamSequence =>
    match world.phase with
    | .starting tailer =>
      some ((world.write (if (world.runtimes tailer).turnInFlight then []
        else world.orphanEdge streamSequence)).enter (.sending tailer))
    | _ => none
  | .accepts turnId streamSequence =>
    match world.phase with
    | .sending tailer =>
      if (world.runtimes tailer).turnInFlight then none
      else some (((world.write [.event (some streamSequence)
        { type := .turnStarted, turnId := some turnId }]).begin tailer turnId true).enter
          (.delivering tailer))
    | _ => none
  | .delivers =>
    match world.phase with
    | .delivering _ => some (world.finish .returned)
    | _ => none
  | .fails => world.fail
  | .catches =>
    if world.phase = .handling then
      if world.current then
        some (world.enter (match world.registered with
          | some created => .stoppingCreated created
          | none => .restoring))
      else some world.retainAndRaise
    else none
  | .stopsCreated ok streamSequence =>
    match world.phase with
    | .stoppingCreated created => some (world.stopCreated created ok streamSequence)
    | _ => none
  | .unregistersCreated =>
    match world.phase with
    | .unregisteringCreated created =>
      let world := world.unregister created
      some (if world.current then world.enter .restoring else world.retainAndRaise)
    | _ => none
  | .restoresStore outcome =>
    if world.phase = .restoring then some (world.restoresStore outcome) else none
  | .restoresTranscript failed =>
    match world.phase with
    | .restoringTranscript storeRestored => some (world.restoresTranscript storeRestored failed)
    | _ => none
  | .revives =>
    match world.phase with
    | .reviving restored =>
      if world.current then
        let (made, tailer) := world.getOrCreate
        some (made.enter (.revived restored tailer))
      else none
    | _ => none
  | .revivedStarts streamSequence =>
    match world.phase with
    | .revived restored tailer =>
      some ((world.writeForOthers (if (world.runtimes tailer).turnInFlight then []
        else world.orphanEdge streamSequence) []).finish
          (if restored then .rolledBack else .stranded))
    | _ => none
  | .obtains call kind =>
    if (world.calls.lookup call).isNone ∧ world.current then
      let (made, tailer) := world.getOrCreate
      some { made with calls := made.calls.set call (kind, tailer) }
    else none
  | .repairs call streamSequence => world.repairCall call streamSequence
  | .callAccepted call streamSequence => world.acceptCall call streamSequence
  | .callCancels call streamSequence => world.cancelCall call streamSequence
  | .callEnds call => some (world.endCall call)
  | .output id lines records =>
    match (world.runtimes id).turn with
    | some turn => some (world.writeFor turn lines records)
    | none => none
  | .completes id streamSequence =>
    match (world.runtimes id).turn with
    | some turn =>
      if turn.inFlight then some (world.terminalize id turn streamSequence false) else none
    | none => none
  | .ownerReplaced => some { world with current := false }

/-- The files hold what they held before the edit and what was written for others since. -/
def Intact : Prop :=
  world.storeFile = world.before ++ world.added ∧
    world.transcript = appendRecords world.transcriptBefore world.transcriptAdded

/-- Where the edit has raised, before it touched a file or behind both restore writes, the files
are intact; it has cancelled no turn of another caller; and a stop or a restore write that failed
has left the backups. -/
structure AllOrNothing : Prop where
  intact : world.phase = .ended .refused ∨ world.phase = .ended .rolledBack → world.Intact
  spared : world.cancelled = []
  kept : world.rollbackFailed → world.storeSidecar.isSome ∧
    (world.transcriptBackup → world.transcriptSidecar.isSome)

/-- While the edit has the files to itself no other call writes to the store, and it forks no
transcript that it has no backup of. -/
def Undisturbed : EditOp → Prop
  | .repairs _ _ | .callAccepted _ _ => world.phase.exclusive = false
  | .forks _ => world.transcriptBackup = true
  | _ => True

instance (op : EditOp) : Decidable (world.Undisturbed op) := by
  cases op <;> unfold Undisturbed <;> infer_instance

end EditWorld

end ClaudeHub
