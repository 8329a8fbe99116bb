import ClaudeHub.Lib.Directory
import ClaudeHub.Lib.Runs
import ClaudeHub.Models.Enums

/-! # Durable JSON stores: saves, quarantine and recovery

One store with its backup and its quarantine marker. A phase says which file operation comes
next, so a crash may fall before every one of them; what is read between two operations is
read with the second. `valid` stands for decoding and structural validation, and an unreadable
file is one whose content is not valid. A temporary file gets its whole content in one
operation, since nothing reads it before it is renamed.
-/

namespace ClaudeHub

inductive StoreFile
  | primary | backup | marker
  deriving DecidableEq, Repr

inductive FileName
  | live (file : StoreFile)
  /-- `<file>.corrupt-<timestamp>`, with `-<counter>` from the second on -/
  | aside (file : StoreFile) (timestamp : Time) (counter : Nat)
  | temp (id : Nat)
  deriving DecidableEq, Repr

inductive QuarantineReason
  | corrupt | missingRecovered | missingUnusable
  deriving DecidableEq, Repr

/-- An entry of the quarantine marker. The digest of the original is carried as what it
digests. -/
structure QuarantineEvent where
  reason : QuarantineReason
  detectedAt : Time
  original : Option String := none
  quarantineFile : Option FileName := none
  quarantineMoved : Bool := false
  recoveredFromBackup : Bool := false
  backupFile : Option FileName := none
  backupUnusable : Bool := false
  deriving DecidableEq, Repr

inductive FileContent
  | text (body : String)
  | events (events : List QuarantineEvent)
  deriving DecidableEq, Repr

def FileContent.payload? (valid : String → Bool) : FileContent → Option String
  | .text body => if valid body then some body else none
  | .events _ => none

def FileContent.original? : FileContent → Option String
  | .text body => some body
  | .events _ => none

inductive LoadSource
  | primary | backup | empty
  deriving DecidableEq, Repr

/-- A load that returned, with what was committed then and what was being saved. -/
structure StoreLoad where
  data : Option String
  source : LoadSource
  saved : Option String
  inFlight : Option String
  deriving DecidableEq

/-- The next file operation of the process, with the local variables it goes on with. -/
inductive StorePhase
  | down
  | up
  | rotating (text : String) (temp : Nat)
  | writing (text : String)
  | replacing (text : String) (temp : Nat)
  | syncing (text : String)
  | movingPrimary (timestamp : Time) (content : FileContent)
  | movingBackup (event : QuarantineEvent)
  | restoring (event : QuarantineEvent) (text : String)
  | restored (event : QuarantineEvent) (text : String) (temp : Nat)
  | movingMarker (event : QuarantineEvent) (data : Option String)
  | marking (events : List QuarantineEvent) (data : Option String)
  | marked (temp : Nat) (data : Option String)
  deriving DecidableEq

structure StoreRun where
  files : Directory FileName FileContent := .empty
  phase : StorePhase := .down
  nextTemp : Nat := 0
  detected : List FileContent := []
  /-- A load has returned although this or an earlier one had detected a corrupt primary. -/
  recovered : Bool := false
  /-- The payload of the last save that returned, or of the last load. -/
  saved : Option String := none
  inFlight : Option String := none
  loads : List StoreLoad := []
  deriving DecidableEq

inductive StoreOp
  | load (timestamp : Time)
  | save (text : String)
  | advance (ok : Bool)
  | crash
  /-- Something else overwrites the primary with what is not valid. -/
  | corrupt (text : String)
  deriving DecidableEq

namespace StoreRun

def primary (run : StoreRun) : Option FileContent := run.files.read (.live .primary)

def backup (run : StoreRun) : Option FileContent := run.files.read (.live .backup)

def marker (run : StoreRun) : Option FileContent := run.files.read (.live .marker)

def writeTemp (run : StoreRun) (content : FileContent) (phase : Nat → StorePhase) : StoreRun :=
  { run with
    files := run.files.write (.temp run.nextTemp) content
    nextTemp := run.nextTemp + 1
    phase := phase run.nextTemp }

def uniqueQuarantinePath (run : StoreRun) (file : StoreFile) (timestamp : Time) : FileName :=
  .aside file timestamp (run.files.firstFree (.aside file timestamp))

def returns (run : StoreRun) (data : Option String) (source : LoadSource) : StoreRun :=
  { run with
    phase := .up
    recovered := run.recovered || run.detected ≠ []
    saved := data
    inFlight := none
    loads := run.loads ++ [⟨data, source, run.saved, run.inFlight⟩] }

/-- `_append_quarantine_marker`, up to its first file operation -/
def appendQuarantineMarker (run : StoreRun) (event : QuarantineEvent) (data : Option String) :
    StoreRun :=
  match run.marker with
  | none => { run with phase := .marking [event] data }
  | some (.events events) => { run with phase := .marking (events ++ [event]) data }
  | some (.text _) => { run with phase := .movingMarker event data }

def withoutData (event : QuarantineEvent) (backupUnusable : Bool) : QuarantineEvent :=
  { event with
    reason := if event.reason = .corrupt then .corrupt else .missingUnusable
    backupUnusable := backupUnusable }

def fromBackup (event : QuarantineEvent) : QuarantineEvent :=
  { event with recoveredFromBackup := true, backupFile := some (.live .backup) }

/-- `_try_load_backup`, up to its first file operation -/
def tryLoadBackup (valid : String → Bool) (run : StoreRun) (event : QuarantineEvent) : StoreRun :=
  match run.backup with
  | none => run.appendQuarantineMarker (withoutData event false) none
  | some content =>
    match content.payload? valid with
    | some text => { run with phase := .restoring event text }
    | none => { run with phase := .movingBackup event }

/-- `_load_durable_json`, up to its first file operation -/
def loadDurableJson (valid : String → Bool) (run : StoreRun) (timestamp : Time) : StoreRun :=
  match run.primary with
  | none =>
    match run.backup with
    | none => run.returns none .empty
    | some _ => tryLoadBackup valid run { reason := .missingRecovered, detectedAt := timestamp }
  | some content =>
    match content.payload? valid with
    | some text => run.returns (some text) .primary
    | none => { run with
        detected := run.detected ++ [content]
        phase := .movingPrimary timestamp content }

/-- `_move_aside_for_quarantine` on the corrupt primary, and what the event says about it -/
def movePrimaryAside (valid : String → Bool) (run : StoreRun) (timestamp : Time)
    (content : FileContent) (moved : Bool) : StoreRun :=
  let event : QuarantineEvent :=
    { reason := .corrupt, detectedAt := timestamp, original := content.original? }
  let destination := run.uniqueQuarantinePath .primary timestamp
  if moved then
    match run.primary with
    | none => tryLoadBackup valid run event
    | some _ =>
      tryLoadBackup valid { run with files := run.files.move (.live .primary) destination }
        { event with quarantineFile := some destination, quarantineMoved := true }
  else tryLoadBackup valid run { event with quarantineFile := some destination }

/-- `_atomic_save_state_text`, up to the copy of the primary -/
def saveStateText (run : StoreRun) (text : String) : StoreRun :=
  let run := { run with inFlight := some text }
  match run.primary with
  | none => { run with phase := .writing text }
  | some content => run.writeTemp content (.rotating text)

/-- The next file operation. `ok` says whether a rename that is allowed to fail succeeds. -/
def advance (valid : String → Bool) (run : StoreRun) (ok : Bool) : Option StoreRun :=
  match run.phase with
  | .down | .up => none
  | .rotating text temp => some { run with
      files := if ok then run.files.move (.temp temp) (.live .backup)
        else run.files.remove (.temp temp)
      phase := .writing text }
  | .writing text => some (run.writeTemp (.text text) (.replacing text))
  | .replacing text temp => some { run with
      files := run.files.move (.temp temp) (.live .primary)
      phase := .syncing text }
  | .syncing text => some { run with phase := .up, saved := some text, inFlight := none }
  | .movingPrimary timestamp content => some (movePrimaryAside valid run timestamp content ok)
  | .movingBackup event =>
    let files := if ok then run.files.move (.live .backup)
        (run.uniqueQuarantinePath .backup event.detectedAt) else run.files
    some (({ run with files := files } : StoreRun).appendQuarantineMarker
      (withoutData event true) none)
  | .restoring event text => some (run.writeTemp (.text text) (.restored event text))
  | .restored event text temp =>
    some (({ run with files := run.files.move (.temp temp) (.live .primary) } :
      StoreRun).appendQuarantineMarker (fromBackup event) (some text))
  | .movingMarker event data => some { run with
      files := if ok then run.files.move (.live .marker)
          (run.uniqueQuarantinePath .marker event.detectedAt) else run.files
      phase := .marking [event] data }
  | .marking events data => some (run.writeTemp (.events events) fun temp => .marked temp data)
  | .marked temp data =>
    some (({ run with files := run.files.move (.temp temp) (.live .marker) } :
      StoreRun).returns data (if data.isSome then .backup else .empty))

def step (valid : String → Bool) (run : StoreRun) : StoreOp → Option StoreRun
  | .load timestamp =>
    if run.phase = .down then some (loadDurableJson valid run timestamp) else none
  | .save text =>
    if run.phase = .up ∧ valid text then some (run.saveStateText text) else none
  | .advance ok => advance valid run ok
  | .crash => if run.phase = .down then none else some { run with phase := .down }
  | .corrupt text =>
    if run.primary.isSome ∧ valid text = false then
      some { run with files := run.files.write (.live .primary) (.text text) }
    else none

end StoreRun

end ClaudeHub
