import ClaudeHub.Lib.Runs
import ClaudeHub.TaskMailbox.Run

/-! # Directed waits

One event flag for each consumer key, shared by every long poll on that key. A
waiter polls and clears the flag in one turn of the loop, then hands
`Event.wait` to the scheduler, which starts it in a later turn, and sleeps until
the flag is set or its deadline passes. Setting a flag resumes every waiter
that sleeps on it; the resumed waiter polls again before it looks at its
deadline. Producers differ in the keys they wake.
-/

namespace ClaudeHub

open StepSystem

/-- An `asyncio.Event` of the coordinator. -/
structure AsyncEvent where
  key : ConsumerKey
  isSet : Bool
  deriving DecidableEq

/-- Where a `wait` call stands. A finished call keeps its result and the committed
events that its poll function could see at that moment. -/
inductive WaitPhase
  | ready
  | arming
  | sleeping
  | returned (result owed : List TaskEvent)
  deriving DecidableEq

structure Waiter where
  id : Nat
  key : ConsumerKey
  sinceSequence : Nat := 0
  subtree : Bool := false
  phase : WaitPhase := .ready
  deriving DecidableEq

/-- How a committed event reaches the coordinator: through the mailbox's own wake
(`append_event`, `wake_events`), through `wake_consumer` as report intake does,
or not at all. -/
inductive Producer
  | appendEvent | reportIntake | silent
  deriving DecidableEq

structure WaitState where
  wm : WorkspaceManager
  events : Table AsyncEvent.key := Table.empty
  waiters : Table Waiter.id := Table.empty
  committed : List TaskEvent := []
  deriving DecidableEq

/-- The chain of existing parents, cut at an id already seen. The fuel bounds the
walk by the number of tasks. -/
def ancestorIds (tasks : TaskTable) : Nat → List TaskId → Option TaskId → List TaskId
  | 0, _, _ => []
  | fuel + 1, seen, cursor =>
    match truthy cursor with
    | none => []
    | some id =>
      if id ∈ seen then []
      else
        match tasks.get? id with
        | none => []
        | some ancestor =>
          ancestor.id :: ancestorIds tasks fuel (id :: seen) ancestor.parentTaskId

def WorkspaceTask.ancestorKeys (task : WorkspaceTask) (tasks : TaskTable) : List ConsumerKey :=
  (ancestorIds tasks tasks.rows.length [task.id] task.parentTaskId).map makeTaskConsumerKey

namespace WaitState

def poll (s : WaitState) (w : Waiter) : List TaskEvent :=
  match s.wm.wait w.key w.sinceSequence w.subtree with
  | .ok events => events
  | .error _ => []

def isSet (s : WaitState) (key : ConsumerKey) : Bool :=
  (s.events.get? key).any AsyncEvent.isSet

def subtreeWaiters (s : WaitState) (key : ConsumerKey) : Nat :=
  (s.waiters.rows.filter fun w =>
    w.key = key && w.subtree && (match w.phase with | .returned _ _ => false | _ => true)).length

end WaitState

def Waiter.resume (key : ConsumerKey) (w : Waiter) : Waiter :=
  if w.key = key ∧ w.phase = .sleeping then { w with phase := .ready } else w

theorem Waiter.resume_id (key : ConsumerKey) (w : Waiter) : (w.resume key).id = w.id := by
  unfold Waiter.resume
  split <;> rfl

namespace WaitState

/-- `ev.set()` where the key has an event. -/
def wake (s : WaitState) (key : ConsumerKey) : WaitState :=
  match s.events.get? key with
  | none => s
  | some _ =>
    { s with
      events := s.events.insert ⟨key, true⟩
      waiters := s.waiters.map (Waiter.resume key) (Waiter.resume_id key) }

def wakeIfSubtree (s : WaitState) (key : ConsumerKey) : WaitState :=
  if 0 < s.subtreeWaiters key then s.wake key else s

def wakeTaskConsumers (s : WaitState) (event : TaskEvent) : WaitState :=
  match s.wm.tasks.get? event.taskId with
  | none => s
  | some task => (task.ancestorKeys s.wm.tasks).foldl wakeIfSubtree (s.wake event.consumerKey)

def wakeReportIntakeRuns (s : WaitState) (key : ConsumerKey) : WaitState :=
  match key with
  | .task _ => s.wake key
  | _ => s

def wakeBy (s : WaitState) (producer : Producer) (event : TaskEvent) : WaitState :=
  match producer with
  | .appendEvent => s.wakeTaskConsumers event
  | .reportIntake => s.wakeReportIntakeRuns event.consumerKey
  | .silent => s

end WaitState

inductive WaitOp
  | enter (id : Nat) (key : ConsumerKey) (sinceSequence : Nat) (subtree : Bool)
  | poll (id : Nat) (expired : Bool)
  | arm (id : Nat)
  | expire (id : Nat)
  | stage (req : AppendRequest) (now : Time)
  | commit (event : TaskEvent) (producer : Producer)
  deriving DecidableEq

namespace WaitState

def owed (s : WaitState) (w : Waiter) : List TaskEvent :=
  (s.poll w).filter fun event => event ∈ s.committed

def setPhase (s : WaitState) (w : Waiter) (phase : WaitPhase) : WaitState :=
  { s with waiters := s.waiters.insert { w with phase := phase } }

def clear (s : WaitState) (key : ConsumerKey) : WaitState :=
  { s with events := s.events.insert ⟨key, false⟩ }

/-- Take the lock, poll, and either return or clear the flag and go to sleep. -/
def pollTurn (s : WaitState) (w : Waiter) (expired : Bool) : WaitState :=
  if s.poll w ≠ [] then s.setPhase w (.returned (s.poll w) (s.owed w))
  else (s.clear w.key).setPhase w (if expired then .returned [] [] else .arming)

def step (s : WaitState) : WaitOp → Option WaitState
  | .enter id key sinceSequence subtree =>
    match s.waiters.get? id, s.wm.consumerCursor key with
    | none, .ok _ =>
      some { s with
        events := if (s.events.get? key).isSome then s.events else s.events.insert ⟨key, false⟩
        waiters := s.waiters.insert ⟨id, key, sinceSequence, subtree, .ready⟩ }
    | _, _ => none
  | .poll id expired =>
    match s.waiters.get? id with
    | some w => if w.phase = .ready then some (s.pollTurn w expired) else none
    | none => none
  | .arm id =>
    match s.waiters.get? id with
    | some w =>
      if w.phase = .arming then
        some (s.setPhase w (if s.isSet w.key then .ready else .sleeping))
      else none
    | none => none
  | .expire id =>
    match s.waiters.get? id with
    | some w =>
      if w.phase = .sleeping then some (s.setPhase w (.returned [] (s.owed w))) else none
    | none => none
  | .stage req now =>
    match s.wm.stageEvent req now with
    | .ok (.created _ mailbox) => some { s with wm := { s.wm with mailbox := mailbox } }
    | _ => none
  | .commit event producer =>
    if event ∈ s.wm.mailbox.events then
      some ({ s with committed := event :: s.committed }.wakeBy producer event)
    else none

end WaitState

def Waiter.returnsOwed (w : Waiter) : Prop :=
  match w.phase with
  | .returned result owed => ∀ event ∈ owed, event ∈ result
  | _ => True

instance (w : Waiter) : Decidable w.returnsOwed := by
  unfold Waiter.returnsOwed
  split <;> infer_instance

namespace WaitState

/-- No call returned without a committed event that its poll function could see, and
no call sleeps while it can see one. -/
def NoLostWakeup (s : WaitState) : Prop :=
  (∀ w ∈ s.waiters.rows, w.returnsOwed) ∧
    ∀ w ∈ s.waiters.rows, w.phase = .sleeping → s.owed w = []

instance (s : WaitState) : Decidable s.NoLostWakeup := inferInstanceAs (Decidable (_ ∧ _))

/-- The producer wakes the key this waiter waits on: the event's own consumer, or,
through the mailbox's wake, an ancestor of the event's task for a subtree wait. -/
def Reaches (s : WaitState) (producer : Producer) (event : TaskEvent) (w : Waiter) : Prop :=
  match producer with
  | .silent => False
  | .reportIntake => w.key = event.consumerKey
  | .appendEvent =>
    match s.wm.tasks.get? event.taskId with
    | none => False
    | some task => w.key = event.consumerKey ∨
        (w.subtree = true ∧ w.key ∈ task.ancestorKeys s.wm.tasks)

instance (s : WaitState) (producer : Producer) (event : TaskEvent) (w : Waiter) :
    Decidable (s.Reaches producer event w) := by
  unfold Reaches
  cases producer with
  | appendEvent =>
    cases h : s.wm.tasks.get? event.taskId with
    | none => exact isFalse (by simp)
    | some => exact inferInstanceAs (Decidable (_ ∨ _))
  | reportIntake => exact inferInstanceAs (Decidable (_ = _))
  | silent => exact isFalse id

/-- A commit reaches every blocked waiter that can see its event, and an empty poll
does not clear a flag that a waiter about to sleep still needs. -/
def StepSafe (s : WaitState) : WaitOp → Prop
  | .commit event producer => ∀ w ∈ s.waiters.rows, event ∈ s.poll w →
      (w.phase = .sleeping → s.Reaches producer event w) ∧
      (w.phase = .arming → s.isSet w.key = true ∨ s.Reaches producer event w)
  | .poll id _ => ∀ w ∈ s.waiters.rows, w.id = id → s.poll w = [] →
      ∀ other ∈ s.waiters.rows, other.id ≠ id → other.key = w.key → other.phase = .arming →
        s.owed other = []
  | _ => True

instance (s : WaitState) (op : WaitOp) : Decidable (s.StepSafe op) := by
  cases op <;> unfold StepSafe <;> infer_instance

end WaitState

end ClaudeHub
