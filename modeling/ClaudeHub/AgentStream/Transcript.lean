import Mathlib.Data.List.DropRight
import ClaudeHub.AgentStream.Coalescer

/-! # The transcript tailer

One tailer reads a transcript that grows at its end, publishes the events of each new line and
saves a cursor. What it awaits is the publish path, so a step is what runs between two awaits,
and a crash may fall before every step. The transcript keeps its path and its inode and is
never cut, so it is never taken for a rotated one. Adapters keep state between lines; a new
process starts with one of their states.
-/

namespace ClaudeHub

structure TranscriptSource (σ ρ : Type) where
  /-- `json.loads` of a chunk that is not blank; nothing where it fails or gives no object. -/
  loads : List UInt8 → Option ρ
  /-- `adapter.normalize_line` in a context with this epoch; nothing where it raises. -/
  normalizeLine : σ → Nat → ρ → Option (List StreamEvent) × σ
  redactEvent : StreamEvent → StreamEvent
  window : Time

structure TailCursor where
  offset : Nat
  runEpoch : Nat
  deriving DecidableEq, Repr

def newline : UInt8 := 10

/-- The white space that `bytes.strip` removes. -/
def isSpaceByte (byte : UInt8) : Bool := byte = 32 || (9 ≤ byte && byte ≤ 13)

/-- `data` up to its last line end. -/
def completeLines (data : List UInt8) : List UInt8 := data.rdropWhile fun byte => byte ≠ newline

def nextEpoch (runEpoch : Nat) (event : StreamEvent) : Nat :=
  if event.type = .turnStarted then runEpoch + 1 else runEpoch

namespace TranscriptSource

variable {σ ρ : Type} (source : TranscriptSource σ ρ)

def record (chunk : List UInt8) : Option ρ :=
  if chunk.all isSpaceByte then none else source.loads chunk

def records (complete : List UInt8) : List ρ :=
  (complete.splitOn newline).filterMap source.record

/-- `_read_new_lines`: the new records and the new offset. -/
def readNewLines (file : List UInt8) (offset : Nat) : List ρ × Nat :=
  let complete := completeLines (file.drop offset)
  (source.records complete, offset + complete.length)

def stampEvent (runEpoch : Nat) (event : StreamEvent) : StreamEvent :=
  source.redactEvent { event with runEpoch := some (runEpoch : Int) }

end TranscriptSource

inductive TailPhase (ρ : Type)
  | idle
  /-- In the loops of `_tail_file`: the lines left, the events left of the current line, the
  epoch of the context and the offset to go to. -/
  | publishing (lines : List ρ) (events : List StreamEvent) (ctxEpoch newOffset : Nat)
  /-- The flush is awaited, after a batch with its new offset or because no line is new. -/
  | flushing (id : Nat) (newOffset : Option Nat)
  deriving DecidableEq

structure TailProcess (σ ρ : Type) where
  adapter : σ
  offset : Nat
  runEpoch : Nat
  publication : Publication
  /-- How many of the events handed over are written to the store or have failed. -/
  settled : Nat := 0
  flushes : Nat := 0
  phase : TailPhase ρ := .idle
  deriving DecidableEq

structure TailRun (σ ρ : Type) where
  file : List UInt8 := []
  cursor : Option TailCursor := none
  store : List StreamEvent := []
  covered : Nat := 0
  process : Option (TailProcess σ ρ) := none
  deriving DecidableEq

inductive TailOp (σ : Type)
  | grow (bytes : List UInt8)
  | start (adapter : σ)
  | poll (now : Time)
  | normalize
  | publish (now : Time)
  | publication (op : PublicationOp)
  | append (ok : Bool)
  | flush (now : Time)
  /-- The flush has returned; `ok` says whether the cursor is saved. -/
  | finish (ok : Bool)
  | crash
  deriving DecidableEq

namespace TailProcess

variable {σ ρ : Type} (process : TailProcess σ ρ)

def unsettled : List StreamEvent := process.publication.emitted.drop process.settled

/-- The last call of `_publish` has returned. -/
def published : Bool :=
  (((process.publication.draining.map Prod.fst).toList ++ process.publication.waiting).all
    fun caller => match caller with
      | .publish _ | .handle => false
      | _ => true) &&
    process.unsettled.all StreamEvent.isCoalescable

/-- `flush_async` is called. -/
def awaitFlush (newOffset : Option Nat) (now : Time) : TailProcess σ ρ :=
  { process with
    publication := process.publication.flushAsync (.awaited process.flushes) now
    flushes := process.flushes + 1
    phase := .flushing process.flushes newOffset }

def stamp (source : TranscriptSource σ ρ) (event : StreamEvent) (now : Time) :
    TailProcess σ ρ :=
  let runEpoch := nextEpoch process.runEpoch event
  { process with
    runEpoch := runEpoch
    publication := process.publication.publish (source.stampEvent runEpoch event) now }

end TailProcess

namespace TailRun

variable {σ ρ : Type}

/-- `_load_cursor` in a new process -/
def loadCursor (source : TranscriptSource σ ρ) (run : TailRun σ ρ) (adapter : σ) :
    TailProcess σ ρ :=
  { adapter := adapter
    offset := (run.cursor.map TailCursor.offset).getD 0
    runEpoch := (run.cursor.map TailCursor.runEpoch).getD 0
    publication := .start source.window }

def saveCursor (run : TailRun σ ρ) (process : TailProcess σ ρ) (ok : Bool) : TailRun σ ρ :=
  if ok then { run with
    cursor := some ⟨process.offset, process.runEpoch⟩
    covered := run.store.length }
  else run

def processStep (source : TranscriptSource σ ρ) (run : TailRun σ ρ)
    (process : TailProcess σ ρ) : TailOp σ → Option (TailRun σ ρ)
  | .poll now =>
    match process.phase with
    | .idle =>
      match source.readNewLines run.file process.offset with
      | ([], _) => some { run with process := some (process.awaitFlush none now) }
      | (lines, newOffset) => some { run with process := some { process with
          phase := .publishing lines [] process.runEpoch newOffset } }
    | _ => none
  | .normalize =>
    match process.phase with
    | .publishing (line :: lines) [] ctxEpoch newOffset =>
      if process.published then
        let (events, adapter) := source.normalizeLine process.adapter ctxEpoch line
        some { run with process := some { process with
          adapter := adapter
          phase := .publishing lines (events.getD []) ctxEpoch newOffset } }
      else none
    | _ => none
  | .publish now =>
    match process.phase with
    | .publishing lines (event :: events) ctxEpoch newOffset =>
      if process.published then
        some { run with process := some { process.stamp source event now with
          phase := .publishing lines events ctxEpoch newOffset } }
      else none
    | _ => none
  | .publication op =>
    match op with
    | .timer | .startScheduled _ | .acquire _ =>
      (process.publication.step op).map fun publication =>
        { run with process := some { process with publication := publication } }
    | .flushed _ =>
      if process.unsettled = [] then
        (process.publication.step op).map fun publication =>
          { run with process := some { process with publication := publication } }
      else none
    | _ => none
  | .append ok =>
    match process.unsettled with
    | [] => none
    | event :: _ => some { run with
        store := if ok then run.store ++ [event] else run.store
        process := some { process with settled := process.settled + 1 } }
  | .flush now =>
    match process.phase with
    | .publishing [] [] _ newOffset =>
      if process.published then
        some { run with process := some (process.awaitFlush (some newOffset) now) }
      else none
    | _ => none
  | .finish ok =>
    match process.phase with
    | .flushing id newOffset =>
      if id ∈ process.publication.returned ∧ process.unsettled = [] then
        match newOffset with
        | none => some { run with process := some { process with phase := .idle } }
        | some newOffset =>
          let process := { process with offset := newOffset, phase := .idle }
          some ({ run with process := some process }.saveCursor process ok)
      else none
    | _ => none
  | _ => none

def step (source : TranscriptSource σ ρ) (run : TailRun σ ρ) (op : TailOp σ) :
    Option (TailRun σ ρ) :=
  match op, run.process with
  | .grow bytes, _ => some { run with file := run.file ++ bytes }
  | .start adapter, none => some { run with process := some (run.loadCursor source adapter) }
  | .start _, some _ => none
  | .crash, some _ => some { run with process := none }
  | op, some process => processStep source run process op
  | _, none => none

end TailRun

end ClaudeHub
