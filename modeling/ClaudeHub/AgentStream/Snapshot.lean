import ClaudeHub.AgentStream.Tailing

/-! # Snapshots of a transcript

A transcript that its producer may rewrite is read as a whole, and what it has beyond the rows that
were published is published. A terminal marker at its end may be replaced; any other change of
published rows fails closed, until a snapshot continues them again. A digest is carried as what it
digests: the one of a file as its content, the one in a source id as the row.
-/

namespace ClaudeHub

structure SourceId (ρ : Type) where
  row : ρ
  occurrence : Nat
  deriving DecidableEq, Repr

structure SnapshotRecord (ρ : Type) where
  sourceId : SourceId ρ
  raw : ρ
  sourceKind : String
  deriving DecidableEq, Repr

structure SnapshotSource (σ ρ κ : Type) extends TranscriptSource σ ρ where
  /-- The known rows of a content; nothing where a row is partial, no object or of no known kind. -/
  readRows : κ → Option (List ρ)
  /-- `row.get("role") or row.get("type") or ""` -/
  kindOf : ρ → String

structure SnapshotCursor (ρ κ : Type) where
  inode : Option Nat
  runEpoch : Nat
  snapshotSourceIds : List (SourceId ρ)
  snapshotSourceKinds : List String
  snapshotDigest : Option κ
  deriving DecidableEq, Repr

inductive TailError
  | sourceNotFound
  | rewroteHistory
  | persistenceFailed
  deriving DecidableEq, Repr

def TailError.message : TailError → String
  | .sourceNotFound => "structured source not found within discovery grace period"
  | .rewroteHistory => "Cursor transcript rewrote previously published history; " ++
      "structured view safely returned to the raw terminal"
  | .persistenceFailed => "structured event persistence failed; returned to raw terminal"

structure SnapshotTailer (σ ρ κ : Type) where
  adapter : σ
  loadedCursor : Bool := false
  inode : Option Nat := none
  runEpoch : Nat := 0
  snapshotSourceIds : List (SourceId ρ) := []
  snapshotSourceKinds : List String := []
  snapshotDigest : Option κ := none
  isLive : Bool := false
  hardFailed : Bool := false
  lastError : Option TailError := none
  published : List (SourceId ρ) := []
  /-- The events that were handed to `_publish` and stored or buffered. -/
  handed : List StreamEvent := []

structure SnapshotRun (σ ρ κ : Type) where
  cursor : Option (SnapshotCursor ρ κ) := none
  process : Option (SnapshotTailer σ ρ κ) := none
  told : List (SourceId ρ) := []
  toldEpoch : Nat := 0
  everPublished : List (SourceId ρ) := []

inductive SnapshotOp (σ κ : Type)
  | start (adapter : σ)
  | crash
  /-- No source is discovered; `expired` says whether the grace period has passed. -/
  | undiscovered (expired : Bool)
  /-- `poll_once`, by the poll loop or, after a hard failure, by an access of the manager: what
  `os.stat` says of the file at the first poll, its content, the event whose storing raises, and
  whether the cursor is written. -/
  | poll (stat : Option Nat) (content : Option κ) (failsAt : Option Nat) (saves : Bool)
  | dies (stat : Option Nat) (content : Option κ) (failsAt : Option Nat)
  deriving DecidableEq, Repr

namespace SnapshotSource

variable {σ ρ κ : Type} [DecidableEq ρ] (source : SnapshotSource σ ρ κ)

def recordsFrom (seen : List ρ) : List ρ → List (SnapshotRecord ρ)
  | [] => []
  | row :: rows =>
    ⟨⟨row, seen.count row⟩, row, source.kindOf row⟩ :: recordsFrom (seen ++ [row]) rows

def readSnapshot (content : κ) : Option (List (SnapshotRecord ρ)) :=
  (source.readRows content).map (source.recordsFrom [])

end SnapshotSource

namespace SnapshotTailer

variable {σ ρ κ : Type} [DecidableEq ρ] [DecidableEq κ] (source : SnapshotSource σ ρ κ)

def saved (tailer : SnapshotTailer σ ρ κ) : SnapshotCursor ρ κ where
  inode := tailer.inode
  runEpoch := tailer.runEpoch
  snapshotSourceIds := tailer.snapshotSourceIds
  snapshotSourceKinds := tailer.snapshotSourceKinds
  snapshotDigest := tailer.snapshotDigest

/-- `_load_cursor`: the cursor of another inode is left alone. -/
def loadCursor (tailer : SnapshotTailer σ ρ κ) (cursor : Option (SnapshotCursor ρ κ))
    (stat : Option Nat) : SnapshotTailer σ ρ κ :=
  match cursor, stat with
  | some cursor, some inode =>
    if cursor.inode ≠ none ∧ cursor.inode ≠ some inode then tailer
    else { tailer with
      inode := some inode
      runEpoch := cursor.runEpoch
      snapshotSourceIds := cursor.snapshotSourceIds
      snapshotSourceKinds := cursor.snapshotSourceKinds
      snapshotDigest := cursor.snapshotDigest }
  | _, _ => tailer

def firstLoad (tailer : SnapshotTailer σ ρ κ) (cursor : Option (SnapshotCursor ρ κ))
    (stat : Option Nat) : SnapshotTailer σ ρ κ :=
  { tailer.loadCursor cursor stat with loadedCursor := true }

/-- The events of one record go to `_publish`, up to the one whose storing raises. -/
def publishEvents (runEpoch : Nat) (failsAt : Option Nat) :
    List StreamEvent → List StreamEvent × Nat × Option Nat × Bool
  | [] => ([], runEpoch, failsAt, true)
  | event :: events =>
    let runEpoch := nextEpoch runEpoch event
    if failsAt = some 0 then ([], runEpoch, failsAt, false)
    else
      let rest := publishEvents runEpoch (failsAt.map (· - 1)) events
      (source.stampEvent runEpoch event :: rest.1, rest.2)

def took (tailer : SnapshotTailer σ ρ κ) (adapter : σ) (ids : List (SourceId ρ))
    (handed : List StreamEvent) : SnapshotTailer σ ρ κ :=
  { tailer with
    adapter := adapter
    published := tailer.published ++ ids
    handed := tailer.handed ++ handed }

/-- The records are normalized in turn; one on which the adapter raises gives no events. The last
part says whether everything was stored. -/
def publishRecords (ctxEpoch : Nat) (tailer : SnapshotTailer σ ρ κ) (runEpoch : Nat)
    (failsAt : Option Nat) : List (SnapshotRecord ρ) → SnapshotTailer σ ρ κ × Nat × Bool
  | [] => (tailer, runEpoch, true)
  | record :: records =>
    let (events, adapter) := source.normalizeLine tailer.adapter ctxEpoch record.raw
    let (handed, runEpoch, failsAt, stored) :=
      publishEvents source runEpoch failsAt (events.getD [])
    let tailer := tailer.took adapter [record.sourceId] handed
    if stored then publishRecords ctxEpoch tailer runEpoch failsAt records
    else (tailer, runEpoch, false)

/-- How many records of a snapshot were published, unless it rewrites them. -/
def priorCount (tailer : SnapshotTailer σ ρ κ) (sourceIds : List (SourceId ρ)) : Option Nat :=
  let prior := tailer.snapshotSourceIds.length
  if sourceIds.take prior = tailer.snapshotSourceIds then some prior
  else if prior ≠ 0 ∧ tailer.snapshotSourceKinds.length = prior ∧
      tailer.snapshotSourceKinds.getLast? = some "turn_ended" ∧
      sourceIds.take (prior - 1) = tailer.snapshotSourceIds.take (prior - 1) then some (prior - 1)
  else none

/-- `_tail_snapshot`; the last part says whether the cursor is to be saved. -/
def tailSnapshot (tailer : SnapshotTailer σ ρ κ) (content : Option κ) (failsAt : Option Nat) :
    SnapshotTailer σ ρ κ × Bool :=
  match content, content.bind source.readSnapshot with
  | some digest, some records =>
    if records = [] then
      -- an empty file may be one that is just being rewritten
      if tailer.snapshotSourceIds ≠ [] then (tailer, false)
      else ({ tailer with snapshotDigest := some digest, isLive := true }, true)
    else if tailer.snapshotDigest = some digest then ({ tailer with isLive := true }, false)
    else
      match tailer.priorCount (records.map SnapshotRecord.sourceId) with
      | none => ({ tailer with hardFailed := true, lastError := some .rewroteHistory }, false)
      | some prior =>
        if records.drop prior = [] then
          ({ tailer with snapshotDigest := some digest, isLive := true }, true)
        else
          let (tailer, runEpoch, stored) := publishRecords source tailer.runEpoch tailer
            tailer.runEpoch failsAt (records.drop prior)
          if stored then
            ({ tailer with
              runEpoch := runEpoch
              snapshotDigest := some digest
              snapshotSourceIds := records.map SnapshotRecord.sourceId
              snapshotSourceKinds := records.map SnapshotRecord.sourceKind
              isLive := true }, true)
          else ({ tailer with hardFailed := true, lastError := some .persistenceFailed }, false)
  | _, _ => (tailer, false)

end SnapshotTailer

namespace SnapshotRun

variable {σ ρ κ : Type} [DecidableEq ρ] [DecidableEq κ] (source : SnapshotSource σ ρ κ)

def loaded (run : SnapshotRun σ ρ κ) (tailer : SnapshotTailer σ ρ κ) (stat : Option Nat) :
    SnapshotRun σ ρ κ × SnapshotTailer σ ρ κ :=
  if tailer.loadedCursor then (run, tailer)
  else
    let first := tailer.firstLoad run.cursor stat
    ({ run with told := first.snapshotSourceIds, toldEpoch := first.runEpoch }, first)

def poll (run : SnapshotRun σ ρ κ) (tailer : SnapshotTailer σ ρ κ) (stat : Option Nat)
    (content : Option κ) (failsAt : Option Nat) (saves : Bool) : SnapshotRun σ ρ κ :=
  let (run, tailer) := run.loaded { tailer with hardFailed := false, lastError := none } stat
  let (next, save) := tailer.tailSnapshot source content failsAt
  { run with
    process := some next
    cursor := if save ∧ saves then some next.saved else run.cursor
    everPublished := run.everPublished ++ next.published.drop tailer.published.length }

def step (run : SnapshotRun σ ρ κ) (op : SnapshotOp σ κ) : Option (SnapshotRun σ ρ κ) :=
  match op, run.process with
  | .start adapter, none =>
    some { run with process := some { adapter := adapter }, told := [], toldEpoch := 0 }
  | .crash, some _ => some { run with process := none }
  | .undiscovered expired, some tailer =>
    some { run with process := some (if expired then
      { tailer with hardFailed := true, lastError := some .sourceNotFound } else tailer) }
  | .poll stat content failsAt saves, some tailer =>
    some (run.poll source tailer stat content failsAt saves)
  | .dies stat content failsAt, some tailer =>
    some { run.poll source tailer stat content failsAt false with process := none }
  | _, _ => none

end SnapshotRun

end ClaudeHub
