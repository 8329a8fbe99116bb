import Mathlib.Data.Prod.Lex
import ClaudeHub.Lib.Runs
import ClaudeHub.TaskExecution.Requests

/-! # Runs of one task's execution

Clients send progress and handoffs of one task in any order, each under the workspace's lock.
Between two of them the rest of the manager may do anything that leaves the fence of the
task, saves may fail and the process may start anew. Every request is recorded with the
manager before and after it and with its answer.
-/

namespace ClaudeHub

def TaskRecord.version (task : TaskRecord) : Nat ×ₗ Nat :=
  toLex (task.executionEpoch, task.progressRevision)

/-- Every event is on record under its call id. -/
def TaskMailbox.Indexed (mailbox : TaskMailbox) : Prop :=
  ∀ event ∈ mailbox.events, (mailbox.callIndex.get? event.callId).isSome

def eventsOf (events : List TaskEvent) (callId : CallId) : List TaskEvent :=
  events.filter fun event => event.callId = callId

/-- No writer but the requests assigns the epoch or the key; an edit of the task counts the
revision up. -/
def KeepsFence : Option TaskRecord → Option TaskRecord → Prop
  | none, _ => True
  | some _, none => False
  | some task, some next =>
    next.executionEpoch = task.executionEpoch ∧ task.progressRevision ≤ next.progressRevision ∧
      next.reporterKeyHash = task.reporterKeyHash

/-- What the rest of the manager leaves of a task: its fence, and its events with their
records. -/
structure LeavesFence (taskId : TaskId) (manager next : ExecutionManager) : Prop where
  task : KeepsFence (manager.tasks.get? taskId) (next.tasks.get? taskId)
  calls : ∀ record ∈ manager.mailbox.callIndex.rows, record.event.taskId = taskId →
    next.mailbox.callIndex.get? record.callId = some record ∧
      eventsOf next.mailbox.events record.callId = eventsOf manager.mailbox.events record.callId
  indexed : next.mailbox.Indexed

instance (task next : Option TaskRecord) : Decidable (KeepsFence task next) := by
  cases task <;> cases next <;> unfold KeepsFence <;> infer_instance

instance (mailbox : TaskMailbox) : Decidable mailbox.Indexed := by
  unfold TaskMailbox.Indexed
  infer_instance

instance (taskId : TaskId) (manager next : ExecutionManager) :
    Decidable (LeavesFence taskId manager next) :=
  decidable_of_iff (KeepsFence (manager.tasks.get? taskId) (next.tasks.get? taskId) ∧
      (∀ record ∈ manager.mailbox.callIndex.rows, record.event.taskId = taskId →
        next.mailbox.callIndex.get? record.callId = some record ∧
          eventsOf next.mailbox.events record.callId =
            eventsOf manager.mailbox.events record.callId) ∧ next.mailbox.Indexed)
    ⟨fun ⟨task, calls, indexed⟩ => ⟨task, calls, indexed⟩,
      fun h => ⟨h.task, h.calls, h.indexed⟩⟩

structure Answered where
  request : ExecutionRequest
  before : ExecutionManager
  after : ExecutionManager
  answer : Except ExecutionError TaskExecutionMutationResult

namespace Answered

def applies (answered : Answered) (event : TaskEvent) : Prop :=
  ∃ task, answered.answer = .ok ⟨task, event, false⟩

end Answered

structure ExecutionRun where
  hub : ExecutionHub := {}
  history : List Answered := []

inductive ExecutionOp
  | request (request : ExecutionRequest) (now : Time) (outcome : SaveOutcome)
  | elsewhere (next : ExecutionManager)
  | save (outcome : SaveOutcome)
  /-- The rest of the manager writes the file and is undone as its save raises. -/
  | undone (next : ExecutionManager)
  | restart

namespace ExecutionRun

def step (sha256 : String → String) (taskId : TaskId) (run : ExecutionRun) :
    ExecutionOp → Option ExecutionRun
  | .request request now outcome =>
    let (hub, answer) := run.hub.answer sha256 taskId request now outcome
    some ⟨hub, run.history ++ [⟨request, run.hub.live, hub.live, answer⟩]⟩
  | .elsewhere next =>
    if LeavesFence taskId run.hub.live next then
      some { run with hub := { run.hub with live := next } }
    else none
  | .save outcome => some { run with hub := run.hub.saveWorkspaceState outcome }
  | .undone next =>
    if LeavesFence taskId run.hub.live next then
      some { run with hub := { run.hub with saved := next.workspaceStatePayload } }
    else none
  | .restart =>
    match run.hub.restart with
    | .ok hub => some { run with hub }
    | .error _ => none

end ExecutionRun

end ClaudeHub
