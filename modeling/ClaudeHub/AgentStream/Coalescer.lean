import ClaudeHub.Lib.Merging
import ClaudeHub.Lib.Runs
import ClaudeHub.Models.Enums

/-! # The coalescer of text deltas and the publish path

Text deltas are buffered and handed to `on_flush` merged; any other event has the buffer
drained first and is then emitted directly. All drains hold one lock, which its waiters get in
the order in which they asked. A step is what runs between two waits: the coalescer waits for
the lock and for `on_flush`, which does not raise here and whose task is not cancelled.
-/

namespace ClaudeHub

inductive AgentStreamEventType
  | turnStarted | turnCompleted | textDelta | thinkingDelta | toolCallStarted
  | toolCallCompleted | approvalRequired | approvalResolved | error | status
  deriving DecidableEq, Repr

/-- What `payload.get("snapshot")` gives: nothing or a false value, `True`, or another true
value. -/
inductive SnapshotMark
  | falsy | yes | truthy
  deriving DecidableEq, Repr

/-- The parts of a payload that the coalescer and the history read. A JSON value stands for
itself as its text; a missing text is an empty one, and `rest` is the rest of the payload. -/
structure StreamPayload where
  text : String := ""
  snapshot : SnapshotMark := .falsy
  plan : Option String := none
  planKind : Option String := none
  subagentThread : Option String := none
  subagentStatus : Option String := none
  /-- `_history_chunk_count`, when it is an integer -/
  historyChunkCount : Option Int := none
  rest : String := ""
  deriving DecidableEq, Repr

structure StreamEvent where
  type : AgentStreamEventType
  runEpoch : Option Int := none
  turnId : Option TurnId := none
  messageId : Option String := none
  payload : StreamPayload := {}
  createdAt : Time := 0
  deriving DecidableEq, Repr

structure StreamKey where
  type : AgentStreamEventType
  runEpoch : Option Int
  turnId : Option TurnId
  messageId : Option String
  plan : Option String
  planKind : Option String
  deriving DecidableEq, Repr

namespace StreamEvent

/-- `_COALESCABLE_TYPES`, and not a snapshot -/
def isCoalescable (event : StreamEvent) : Bool :=
  (event.type = .textDelta || event.type = .thinkingDelta) && event.payload.snapshot ≠ .yes

def key (event : StreamEvent) : StreamKey where
  type := event.type
  runEpoch := event.runEpoch
  turnId := event.turnId
  messageId := event.messageId
  plan := event.payload.plan
  planKind := event.payload.planKind

/-- Two neighbours of `_collapse` as one: the first with the text of both. -/
def merge (prev event : StreamEvent) : Option StreamEvent :=
  if prev.key = event.key ∧ prev.payload.snapshot = .falsy ∧ event.payload.snapshot = .falsy then
    some { prev with payload :=
      { prev.payload with text := prev.payload.text ++ event.payload.text } }
  else none

end StreamEvent

/-- The loop body of `_collapse`. -/
def collapseOne (collapsed : List StreamEvent) (event : StreamEvent) : List StreamEvent :=
  match collapsed.getLast? with
  | none => collapsed ++ [event]
  | some prev =>
    match prev.merge event with
    | some merged => collapsed.dropLast ++ [merged]
    | none => collapsed ++ [event]

def collapse (events : List StreamEvent) : List StreamEvent := events.foldl collapseOne []

structure AgentStreamCoalescer where
  window : Time
  buffer : List StreamEvent := []
  timerHandle : Bool := false
  lastFlushAt : Option Time := none
  flushing : Bool := false
  deriving DecidableEq

/-- Who awaits a `flush_async`. -/
inductive FlushCaller
  /-- `handle`, at the leading edge -/
  | handle
  /-- `_publish`, which then emits its event -/
  | publish (event : StreamEvent)
  /-- the task of a timer or of `flush` -/
  | background
  | awaited (id : Nat)
  deriving DecidableEq

inductive PublicationOp
  | publish (event : StreamEvent) (now : Time)
  /-- `flush` -/
  | flush
  | flushAsync (id : Nat) (now : Time)
  | dispose
  /-- `_on_timer` -/
  | timer
  | startScheduled (now : Time)
  /-- `on_flush` returns to the holder of the lock. -/
  | flushed (now : Time)
  | acquire (now : Time)
  deriving DecidableEq

structure Publication where
  coalescer : AgentStreamCoalescer
  draining : Option (FlushCaller × List StreamEvent) := none
  waiting : List FlushCaller := []
  scheduled : Nat := 0
  /-- Handed to `on_flush` or emitted directly. -/
  emitted : List StreamEvent := []
  /-- Every event in the order of the calls of `_publish`. -/
  called : List StreamEvent := []
  /-- Every event in the order in which the publish path took it: a delta when it was offered,
  another event when it was emitted. -/
  passed : List StreamEvent := []
  returned : List Nat := []
  deriving DecidableEq

namespace Publication

def start (window : Time) : Publication where
  coalescer := { window := window }

/-- What a caller does when its `flush_async` returns, up to its next wait. -/
def flushReturned (run : Publication) : FlushCaller → Publication
  | .handle | .background => run
  | .publish event => { run with
      emitted := run.emitted ++ [event]
      passed := run.passed ++ [event] }
  | .awaited id => { run with returned := run.returned ++ [id] }

/-- The loop of `_drain_locked`: take the whole buffer and hand over its first event, or let go
of the lock. -/
def drainLoop (run : Publication) (caller : FlushCaller) (now : Time) : Publication :=
  match collapse run.coalescer.buffer with
  | [] =>
    { run with
      coalescer := { run.coalescer with flushing := false }
      draining := none }.flushReturned caller
  | event :: rest => { run with
      coalescer := { run.coalescer with buffer := [], lastFlushAt := some now }
      draining := some (caller, rest)
      emitted := run.emitted ++ [event] }

def drainLocked (run : Publication) (caller : FlushCaller) (now : Time) : Publication :=
  { run with coalescer := { run.coalescer with timerHandle := false, flushing := true } }.drainLoop
    caller now

def flushAsync (run : Publication) (caller : FlushCaller) (now : Time) : Publication :=
  if run.draining = none ∧ run.waiting = [] then run.drainLocked caller now
  else { run with waiting := run.waiting ++ [caller] }

def scheduleAsyncFlush (run : Publication) : Publication :=
  if run.coalescer.flushing then run else { run with scheduled := run.scheduled + 1 }

def leadingEdge (coalescer : AgentStreamCoalescer) (now : Time) : Bool :=
  match coalescer.lastFlushAt with
  | none => true
  | some lastFlushAt => coalescer.window ≤ now - lastFlushAt

/-- `handle`, for a delta that carries text -/
def handle (run : Publication) (event : StreamEvent) (now : Time) : Publication :=
  let run := { run with
    coalescer := { run.coalescer with buffer := run.coalescer.buffer ++ [event] } }
  if run.coalescer.timerHandle || run.coalescer.flushing then run
  else if leadingEdge run.coalescer now then run.flushAsync .handle now
  else { run with coalescer := { run.coalescer with timerHandle := true } }

def publish (run : Publication) (event : StreamEvent) (now : Time) : Publication :=
  let run := { run with called := run.called ++ [event] }
  if event.isCoalescable then
    let run := { run with passed := run.passed ++ [event] }
    if event.payload.text = "" then run else run.handle event now
  else run.flushAsync (.publish event) now

def step (run : Publication) : PublicationOp → Option Publication
  | .publish event now => some (run.publish event now)
  | .flush => some run.scheduleAsyncFlush
  | .flushAsync id now => some (run.flushAsync (.awaited id) now)
  | .dispose => some { run with coalescer := { run.coalescer with timerHandle := false } }
  | .timer =>
    if run.coalescer.timerHandle then
      some { run with
        coalescer := { run.coalescer with timerHandle := false } }.scheduleAsyncFlush
    else none
  | .startScheduled now =>
    if run.scheduled = 0 then none
    else some ({ run with scheduled := run.scheduled - 1 }.flushAsync .background now)
  | .flushed now =>
    match run.draining with
    | none => none
    | some (caller, []) => some (run.drainLoop caller now)
    | some (caller, event :: rest) => some { run with
        draining := some (caller, rest)
        emitted := run.emitted ++ [event] }
  | .acquire now =>
    match run.draining, run.waiting with
    | none, caller :: waiting => some ({ run with waiting := waiting }.drainLocked caller now)
    | _, _ => none

end Publication

end ClaudeHub
