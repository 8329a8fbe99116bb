import ClaudeHub.Lib.Lines
import ClaudeHub.Lib.Runs

/-! # The append-only event store of one session

A store is a file of JSON lines with a sequence counter in memory. An append
writes one line at the end and may stop after any part of it; the counter is
then forgotten and read back from the file. Readers skip the lines that do not
parse. Carriage returns are escaped in JSON, so a line ends at a line feed only.
-/

namespace ClaudeHub

open Lines StepSystem

/-- A structured event: the number it carries in its stream and its other fields. -/
structure AgentStreamEvent (β : Type) where
  streamSequence : Nat
  fields : β
  deriving DecidableEq

/-- What interrupted writes leave on one line: a proper part of an event's text, or
the beginnings of several texts run together. -/
inductive TornLine {β : Type} (dump : AgentStreamEvent β → List Char) : List Char → Prop
  | part {event : AgentStreamEvent β} {piece : List Char} (hne : piece ≠ [])
      (hpart : piece <+: dump event) (hproper : piece ≠ dump event) : TornLine dump piece
  | afterWhole {before event : AgentStreamEvent β} {piece : List Char} (hne : piece ≠ [])
      (hpart : piece <+: dump event) : TornLine dump (dump before ++ piece)
  | afterTorn {event : AgentStreamEvent β} {line piece : List Char} (hline : TornLine dump line)
      (hne : piece ≠ []) (hpart : piece <+: dump event) : TornLine dump (line ++ piece)

/-- How events are written as JSON lines and read back: serialising and validating
are inverse, a serialised event is one line with no white space at its ends, and
neither a proper part of a JSON object nor two beginnings run together parse. -/
structure LineCodec (β : Type) where
  dump : AgentStreamEvent β → List Char
  loads : List Char → Option (AgentStreamEvent β)
  loads_dump : ∀ event, loads (dump event) = some event
  dump_ne_nil : ∀ event, dump event ≠ []
  newline_free : ∀ event, '\n' ∉ dump event
  strip_dump : ∀ event, strip (dump event) = dump event
  loads_torn : ∀ line, TornLine dump line → loads (strip line) = none

variable {β : Type}

namespace LineCodec

def parseLine (codec : LineCodec β) (line : List Char) : Option (AgentStreamEvent β) :=
  let stripped := strip line
  if stripped = [] then none else codec.loads stripped

def parsed (codec : LineCodec β) (text : List Char) : List (AgentStreamEvent β) :=
  (splitLines text).filterMap codec.parseLine

end LineCodec

structure AgentStreamStore where
  file : Option (List Char) := none
  nextSeq : Option Nat := none
  backup : Option (List Char) := none
  deriving DecidableEq

structure AgentStreamEventPage (β : Type) where
  events : List (AgentStreamEvent β)
  hasMore : Bool
  deriving DecidableEq

namespace AgentStreamStore

def text (store : AgentStreamStore) : List Char := store.file.getD []

@[simp] theorem text_none (nextSeq : Option Nat) (backup : Option (List Char)) :
    text ⟨none, nextSeq, backup⟩ = [] := rfl

@[simp] theorem text_some (content : List Char) (nextSeq : Option Nat)
    (backup : Option (List Char)) : text ⟨some content, nextSeq, backup⟩ = content := rfl

def recoverNextSeq (codec : LineCodec β) (store : AgentStreamStore) : Nat :=
  (codec.parsed store.text).foldl (fun next event => max next (event.streamSequence + 1)) 0

def assignedSequence (codec : LineCodec β) (store : AgentStreamStore) : Nat :=
  store.nextSeq.getD (store.recoverNextSeq codec)

def append (codec : LineCodec β) (store : AgentStreamStore) (fields : β) :
    AgentStreamStore × AgentStreamEvent β :=
  let seq := store.assignedSequence codec
  let event : AgentStreamEvent β := ⟨seq, fields⟩
  ({ store with
      file := some (store.text ++ (codec.dump event ++ ['\n']))
      nextSeq := some (seq + 1) }, event)

/-- An append whose write stops after `written` characters, all of them included. -/
def appendFails (codec : LineCodec β) (store : AgentStreamStore) (fields : β) (written : Nat) :
    AgentStreamStore :=
  let event : AgentStreamEvent β := ⟨store.assignedSequence codec, fields⟩
  { store with
    file := some (store.text ++ (codec.dump event ++ ['\n']).take written)
    nextSeq := none }

def renumber (events : List β) : List (AgentStreamEvent β) :=
  events.mapIdx fun i fields => ⟨i, fields⟩

def replaceAll (codec : LineCodec β) (store : AgentStreamStore) (events : List β) :
    AgentStreamStore :=
  { store with
    file := some (joinLines ((renumber events).map codec.dump))
    nextSeq := some events.length }

def keptLines (codec : LineCodec β) (store : AgentStreamStore) (sequence : Nat) :
    List (List Char) :=
  (splitLines store.text).filterMap fun line =>
    match codec.parseLine line with
    | none => none
    | some event => if sequence ≤ event.streamSequence then none else some (strip line)

def truncateBefore (codec : LineCodec β) (store : AgentStreamStore) (sequence : Nat) :
    AgentStreamStore :=
  match store.file with
  | none => { store with nextSeq := some 0 }
  | some _ =>
    let kept := store.keptLines codec sequence
    { store with file := some (joinLines kept), nextSeq := some kept.length }

def snapshot (store : AgentStreamStore) : AgentStreamStore :=
  match store.file with
  | none => store
  | some text => { store with backup := some text }

def restore (store : AgentStreamStore) : AgentStreamStore :=
  match store.backup with
  | none => store
  | some text => { store with file := some text, nextSeq := none }

def clear (store : AgentStreamStore) : AgentStreamStore :=
  { store with file := none, nextSeq := none }

def reopen (store : AgentStreamStore) : AgentStreamStore := { store with nextSeq := none }

def readSince (codec : LineCodec β) (store : AgentStreamStore) (sinceSequence : Int)
    (limit : Nat) : AgentStreamEventPage β :=
  let limit := if limit < 1 then 1 else limit
  let later := (codec.parsed store.text).filter fun event =>
    sinceSequence < (event.streamSequence : Int)
  { events := later.take limit, hasMore := limit < later.length }

end AgentStreamStore

inductive StreamOp (β : Type)
  | append (fields : β)
  | appendFails (fields : β) (written : Nat)
  | replaceAll (events : List β)
  | truncateBefore (sequence : Nat)
  | snapshot
  | restore
  | clear
  | reopen

structure StreamRun (β : Type) where
  store : AgentStreamStore := {}
  kept : List (AgentStreamEvent β) := []
  keptBackup : List (AgentStreamEvent β) := []

namespace StreamRun

def step (codec : LineCodec β) (run : StreamRun β) : StreamOp β → Option (StreamRun β)
  | .append fields =>
    let (store, event) := run.store.append codec fields
    some { run with store := store, kept := run.kept ++ [event] }
  | .appendFails fields written =>
    some { run with store := run.store.appendFails codec fields written }
  | .replaceAll events =>
    some { run with
      store := run.store.replaceAll codec events
      kept := AgentStreamStore.renumber events }
  | .truncateBefore sequence =>
    some { run with
      store := run.store.truncateBefore codec sequence
      kept := run.kept.filter fun event => event.streamSequence < sequence }
  | .snapshot =>
    some { run with
      store := run.store.snapshot
      keptBackup := if run.store.file.isSome then run.kept else run.keptBackup }
  | .restore =>
    some { run with
      store := run.store.restore
      kept := if run.store.backup.isSome then run.keptBackup else run.kept }
  | .clear => some { run with store := run.store.clear, kept := [] }
  | .reopen => some { run with store := run.store.reopen }

/-- The numbers in the file increase, the next append goes past them all, and every
event that was appended and not removed is read back as it was written. -/
structure Intact (codec : LineCodec β) (run : StreamRun β) : Prop where
  increasing : (codec.parsed run.store.text).Pairwise fun a b =>
    a.streamSequence < b.streamSequence
  assigns_past : ∀ event ∈ codec.parsed run.store.text,
    event.streamSequence < run.store.assignedSequence codec
  readable : ∀ event ∈ run.kept, ∀ sinceSequence : Int, sinceSequence < event.streamSequence →
    ∀ limit, (codec.parsed run.store.text).length ≤ limit →
      event ∈ (run.store.readSince codec sinceSequence limit).events

/-- No append that succeeds starts on a file whose last line has no line end. -/
def StepSafe (run : StreamRun β) : StreamOp β → Prop
  | .append _ => run.store.text.getLast? = none ∨ run.store.text.getLast? = some '\n'
  | _ => True

instance (run : StreamRun β) (op : StreamOp β) : Decidable (run.StepSafe op) := by
  cases op <;> unfold StepSafe <;> infer_instance

end StreamRun

end ClaudeHub
