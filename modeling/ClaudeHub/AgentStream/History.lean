import ClaudeHub.AgentStream.Compaction
import ClaudeHub.Lib.Lists
import ClaudeHub.Lib.Paging
import ClaudeHub.Lib.Table

/-! # The index of a conversation's history

An index of the visible events of a log is extended by what the file has grown by, and pages of the
conversation or of one turn are read through it. An index is reset with its store, and when the file
is seen to be another one.
-/

namespace ClaudeHub

open Lines

structure HistoryEvent where
  streamSequence : Int
  event : StreamEvent
  callId : Option String := none
  /-- `tool_call_id` of the payload, when it is a string -/
  toolCallId : Option String := none
  deriving DecidableEq, Repr

namespace HistoryEvent

def turn (event : HistoryEvent) : Option String := event.event.turnId.filter fun id => id ≠ ""

/-- `_REPLAY_IDENTITY_TYPES` -/
def isReplayIdentity (event : HistoryEvent) : Bool :=
  event.event.type = .toolCallStarted || event.event.type = .toolCallCompleted ||
    event.event.type = .approvalRequired || event.event.type = .approvalResolved

end HistoryEvent

def replayToolIdentity (event : HistoryEvent) : Option String :=
  if event.isReplayIdentity then
    (event.toolCallId.filter fun id => id ≠ "").or (event.callId.filter fun id => id ≠ "")
  else none

structure HistoryRow where
  sequence : Int
  offset : Nat
  length : Nat
  turnId : Option String
  visible : Option HistoryEvent
  attributedToolId : Option String
  deriving DecidableEq

def HistoryRow.turn (row : HistoryRow) : Option String := row.turnId.filter fun id => id ≠ ""

structure TurnRows where
  indices : List Nat := []
  sequences : List Int := []
  firstHidden : Option Int := none
  deriving DecidableEq

structure HistoryRows where
  rows : List HistoryRow := []
  sequences : List Int := []
  turns : Dict String TurnRows := Table.empty
  attributedToolIds : List String := []
  offset : Nat := 0
  deriving DecidableEq

/-- `ConversationHistoryIndex`; the fields behind the rows are of the file last read. -/
structure ConversationHistoryIndex extends HistoryRows where
  identity : Option Nat := none
  size : Nat := 0
  mtime : Nat := 0
  deriving DecidableEq

/-- The file of a log; `identity` is its device and inode. -/
structure LogFile where
  identity : Nat
  bytes : List UInt8
  mtime : Nat
  deriving DecidableEq

structure HistoryDetail where
  turnId : String
  firstSequence : Int
  lastSequence : Int
  eventCount : Nat
  deriving DecidableEq

/-- `AgentStreamEventPage` -/
structure HistoryPage where
  events : List HistoryEvent
  nextSequence : Int
  hasMore : Bool
  historyDetails : List HistoryDetail := []
  attributedToolIds : List String := []
  deriving DecidableEq

def lineEnd : UInt8 := 10

/-- `bisect_right`, in a list that increases. -/
def bisectRight (sequences : List Int) (sequence : Int) : Nat :=
  sequences.findIdx fun other => decide (sequence < other)

namespace TurnRows

def add (turn : TurnRows) (index : Nat) (row : HistoryRow) : TurnRows where
  indices := turn.indices ++ [index]
  sequences := turn.sequences ++ [row.sequence]
  firstHidden :=
    if row.visible = none ∧ turn.firstHidden = none then some row.sequence else turn.firstHidden

end TurnRows

namespace HistoryRows

/-- The row of an event whose line begins at `offset`. -/
def rowOf (index : HistoryRows) (event : HistoryEvent) (offset length : Nat) : HistoryRow :=
  let identity := replayToolIdentity event
  let replay := event.turn = none ∧ identity.any (· ∈ index.attributedToolIds)
  { sequence := event.streamSequence
    offset := offset
    length := length
    turnId := event.event.turnId
    visible := if conversationEventVisible event.event ∧ ¬ replay then some event else none
    attributedToolId := if event.turn.isSome then identity else none }

def addRow (index : HistoryRows) (row : HistoryRow) : HistoryRows where
  rows := index.rows ++ [row]
  sequences := index.sequences ++ [row.sequence]
  turns :=
    match row.turn with
    | none => index.turns
    | some turnId =>
      index.turns.set turnId (((index.turns.lookup turnId).getD {}).add index.rows.length row)
  attributedToolIds :=
    match row.attributedToolId with
    | none => index.attributedToolIds
    | some identity => index.attributedToolIds.insert identity
  offset := index.offset

variable (validate : List UInt8 → Option HistoryEvent)

def indexLine (index : HistoryRows) (line : List UInt8) (offset : Nat) : HistoryRows :=
  match validate line with
  | none => index
  | some event =>
    if event.streamSequence < 0 ∨ index.sequences.getLast?.any (event.streamSequence ≤ ·) then
      index
    else index.addRow (index.rowOf event offset line.length)

/-- The loop of `_refresh` -/
def indexLines (index : HistoryRows) : List (List UInt8) → HistoryRows
  | [] => index
  | line :: lines =>
    if isComplete lineEnd line then
      indexLines { index.indexLine validate line index.offset with
        offset := index.offset + line.length } lines
    else index

end HistoryRows

namespace ConversationHistoryIndex

variable (validate : List UInt8 → Option HistoryEvent)

/-- What `_refresh` resets the index for. -/
def isStale (index : ConversationHistoryIndex) (file : LogFile) : Bool :=
  index.identity.any (· ≠ file.identity) || file.bytes.length < index.offset ||
    (file.bytes.length = index.size && file.mtime ≠ index.mtime)

def refresh (index : ConversationHistoryIndex) (file : LogFile) : ConversationHistoryIndex :=
  let index := if index.isStale file then {} else index
  { index.toHistoryRows.indexLines validate (keepends lineEnd (file.bytes.drop index.offset)) with
    identity := some file.identity
    size := file.bytes.length
    mtime := file.mtime }

end ConversationHistoryIndex

/-- What the loop of `conversation_page` has found so far. -/
structure PageScan where
  events : List HistoryEvent := []
  touched : List String := []
  attributed : List String := []
  nextSequence : Int
  stop : Nat

namespace PageScan

def isFull (scan : PageScan) (limit : Nat) (row : HistoryRow) : Bool :=
  limit ≤ scan.events.length ||
    (row.turnId.any (· ∉ scan.touched) && limit ≤ scan.touched.length) ||
    (row.attributedToolId.any (· ∉ scan.attributed) && limit ≤ scan.attributed.length)

def add (scan : PageScan) (row : HistoryRow) : PageScan where
  events := scan.events ++ row.visible.toList
  touched := scan.touched.addNew row.turn.toList
  attributed := scan.attributed.addNew row.attributedToolId.toList
  nextSequence := row.sequence
  stop := scan.stop + 1

/-- The loop of `conversation_page` -/
def scanRows (limit : Nat) (scan : PageScan) : List HistoryRow → PageScan
  | [] => scan
  | row :: rows => if scan.isFull limit row then scan else scanRows limit (scan.add row) rows

end PageScan

namespace HistoryRows

def detail (index : HistoryRows) (turnId : String) (throughSequence : Int) :
    Option HistoryDetail := do
  let turn ← index.turns.lookup turnId
  let firstHidden ← turn.firstHidden
  if throughSequence < firstHidden then none
  else
    let stop := bisectRight turn.sequences throughSequence
    return ⟨turnId, ← turn.sequences.head?, ← turn.sequences[stop - 1]?, stop⟩

/-- `conversation_page`, once the index is refreshed -/
def conversationRows (index : HistoryRows) (since : Int) (limit : Nat) : HistoryPage :=
  let start := bisectRight index.sequences since
  let scan := PageScan.scanRows limit { nextSequence := since, stop := start }
    (index.rows.drop start)
  { events := scan.events
    nextSequence := scan.nextSequence
    hasMore := scan.stop < index.rows.length
    historyDetails := scan.touched.filterMap fun turnId => index.detail turnId scan.nextSequence
    attributedToolIds := scan.attributed }

variable (validate : List UInt8 → Option HistoryEvent)

def readRow (index : HistoryRows) (bytes : List UInt8) (rowIndex : Nat) : Option HistoryEvent := do
  let row ← index.rows[rowIndex]?
  validate ((bytes.drop row.offset).take row.length)

/-- `turn_page`, once the index is refreshed; without a value a line is not an event any more. -/
def turnEvents (index : HistoryRows) (bytes : List UInt8) (turnId : String)
    (since through : Int) (limit : Nat) : Option HistoryPage :=
  match index.turns.lookup turnId with
  | none => some ⟨[], since, false, [], []⟩
  | some turn =>
    let start := bisectRight turn.sequences since
    let stop := bisectRight turn.sequences through
    let selectedEnd := min (start + limit) stop
    let selected := (turn.indices.take selectedEnd).drop start
    (selected.mapM (index.readRow validate bytes)).bind fun events =>
      (if start < selectedEnd then turn.sequences[selectedEnd - 1]? else some since).map
        fun nextSequence => ⟨events, nextSequence, selectedEnd < stop, [], []⟩

end HistoryRows

namespace ConversationHistoryIndex

variable (validate : List UInt8 → Option HistoryEvent)

def conversationPage (index : ConversationHistoryIndex) (file : Option LogFile) (since : Int)
    (limit : Nat) : ConversationHistoryIndex × HistoryPage :=
  let index :=
    match file with
    | none => {}
    | some file => index.refresh validate file
  (index, index.conversationRows since limit)

def turnPage (index : ConversationHistoryIndex) (file : Option LogFile) (turnId : String)
    (since through : Int) (limit : Nat) : ConversationHistoryIndex × Option HistoryPage :=
  match file with
  | none => ({}, some ⟨[], since, false, [], []⟩)
  | some file =>
    let index := index.refresh validate file
    (index, index.turnEvents validate file.bytes turnId since through limit)

end ConversationHistoryIndex

/-- A log with its index. `indexed` is what the index has read of the file; no step depends on
it. -/
structure HistoryLog where
  file : Option LogFile := none
  index : ConversationHistoryIndex := {}
  indexed : List UInt8 := []
  deriving DecidableEq

inductive HistoryOp
  /-- Bytes are written to the end of the file: a line, a part of one or many. -/
  | append (bytes : List UInt8) (mtime : Nat)
  | replace (file : Option LogFile)
  /-- The store resets its index, as it does when it has rewritten the file. -/
  | reset
  | conversationPage (since : Int) (limit : Nat)
  | turnPage (turnId : String) (since through : Int) (limit : Nat)
  deriving DecidableEq

namespace HistoryLog

variable (validate : List UInt8 → Option HistoryEvent)

def read (log : HistoryLog) (index : ConversationHistoryIndex) : HistoryLog :=
  { log with
    index := index
    indexed := log.file.elim [] fun file => file.bytes.take index.offset }

/-- An operation and the page that it answers with. Reading is one step, for the store has one
reader at a time and other writers only append to what was read. -/
def answer (log : HistoryLog) : HistoryOp → HistoryLog × Option HistoryPage
  | .append bytes mtime =>
    ({ log with file := log.file.map fun file =>
        { file with bytes := file.bytes ++ bytes, mtime := mtime } }, none)
  | .replace file => ({ log with file := file }, none)
  | .reset => ({ log with index := {}, indexed := [] }, none)
  | .conversationPage since limit =>
    let (index, page) := log.index.conversationPage validate log.file since limit
    (log.read index, some page)
  | .turnPage turnId since through limit =>
    let (index, page) := log.index.turnPage validate log.file turnId since through limit
    (log.read index, page)

def step (log : HistoryLog) (op : HistoryOp) : Option HistoryLog := some (log.answer validate op).1

end HistoryLog

end ClaudeHub
