import ClaudeHub.GoalRun.Sections
import ClaudeHub.Lib.Runs

/-! # The Goal controller as a transition system

Each step is one section of one entry point. The coroutines that wait are part of the
state: those about to enter `_dispatch_prepared`, those that wait for the transport, and
for each goal the one that holds its mutation lock in `_cancel_current`.
-/

namespace ClaudeHub

open StepSystem

/-- A coroutine on its way into `_dispatch_prepared`. -/
structure PreparedGoal where
  goal : GoalRun
  override : Bool
  deriving DecidableEq

/-- A coroutine in `_cancel_current`: it first waits for the acceptance of a step that is
with the transport, then for the cancel callback. -/
structure StoppingTurn where
  acceptance : Option TurnId
  after : AfterStop
  deriving DecidableEq

structure GoalRunController where
  callbacks : Callbacks := {}
  store : GoalRunStore := {}
  acceptances : List TurnId := []
  prepared : List PreparedGoal := []
  transporting : List GoalRun := []
  stopping : Dict GoalId StoppingTurn := Table.empty
  deriving DecidableEq

namespace GoalRunController

/-- Store what a section leaves and go on as it says. -/
def follow (controller : GoalRunController) (result : Section) : GoalRunController :=
  let controller :=
    { controller with
      store := { controller.store with goals := controller.store.goals.insert result.goal } }
  match result.next with
  | .returns | .raises _ => controller
  | .dispatches override =>
    { controller with prepared := controller.prepared ++ [⟨result.goal, override⟩] }
  | .stops after =>
    { controller with
      stopping := controller.stopping.set result.goal.id
        ⟨result.goal.pendingStepId.filter fun step => step ∈ controller.acceptances, after⟩ }

/-- `acceptance.set_result`: the step is no longer claimed and those who wait for its
acceptance go on. -/
def release (controller : GoalRunController) (step : TurnId) : GoalRunController :=
  { controller with
    acceptances := controller.acceptances.erase step
    stopping := controller.stopping.map
      (fun entry =>
        if entry.2.acceptance = some step then (entry.1, { entry.2 with acceptance := none })
        else entry)
      (fun entry => by split <;> rfl) }

/-- `recover`. The first put that raises ends it, at the goal `failing`. -/
def recover (controller : GoalRunController) (now : Time) (failing : Option GoalId) :
    GoalRunController :=
  let goals := controller.store.goals
  let done := (goals.rows.map GoalRun.id).takeWhile fun id => some id ≠ failing
  { controller with
    store.goals := goals.map
      (fun goal => if goal.id ∈ done then (goal.recovered now).getD goal else goal)
      (fun goal => by
        split
        · cases h : goal.recovered now with
          | none => rfl
          | some =>
            simp only [GoalRun.recovered] at h
            grind
        · rfl) }

end GoalRunController

/-- An invocation of the transport callback: the record that it is given, and whether the
acceptance of the goal's last dispatch was unknown. -/
structure GoalCall where
  goal : GoalRun
  acceptanceUnknown : Bool
  deriving DecidableEq

def GoalCall.prompt (call : GoalCall) : String := buildContinuationPrompt call.goal

structure CountedTurn where
  goalId : GoalId
  turnId : TurnId
  tokens : Option Nat
  deriving DecidableEq, Repr

structure GoalHistory where
  steps : List (TurnId × GoalId) := []
  calls : List GoalCall := []
  /-- The goals whose last dispatch may or may not have been accepted, with no explicit
  resume or steer since. -/
  unknown : List GoalId := []
  counted : List CountedTurn := []
  /-- The text that steer accepted for a goal, until a dispatch that carries it is accepted. -/
  owed : Dict GoalId String := Table.empty
  deriving DecidableEq

namespace GoalHistory

def carry (history : GoalHistory) (goal : GoalRun) : GoalHistory :=
  if goal.pendingInput ≠ none ∧ history.owed.lookup goal.id = goal.pendingInput then
    { history with owed := history.owed.erase goal.id }
  else history

def callsFor (history : GoalHistory) (goalId : GoalId) (turn : TurnId) : List GoalCall :=
  history.calls.filter fun call => call.goal.id = goalId ∧ call.goal.pendingStepId = some turn

def note (history : GoalHistory) (write : GoalWrite) : GoalHistory :=
  let goal := write.goal
  match write.event with
  | .prepared step => { history with steps := history.steps ++ [(step, goal.id)] }
  | .counted turn tokens =>
    let carried := ((history.callsFor goal.id turn).map GoalCall.goal).foldl carry history
    { carried with counted := history.counted ++ [⟨goal.id, turn, tokens⟩] }
  | .steered text =>
    { history with
      unknown := history.unknown.filter fun id => id ≠ goal.id
      owed := history.owed.set goal.id text }
  | .resumed | .activated =>
    { history with unknown := history.unknown.filter fun id => id ≠ goal.id }
  | .uncertain | .unreconciled => { history with unknown := history.unknown ++ [goal.id] }
  | _ => history

def record (history : GoalHistory) (result : Section) : GoalHistory :=
  result.writes.foldl note history

end GoalHistory

structure GoalSystem where
  controller : GoalRunController := {}
  history : GoalHistory := {}
  deriving DecidableEq

/-! ## The steps -/

inductive GoalOp
  | createAndStart (tabId : TabId) (request : GoalRunCreate) (goalId : GoalId) (moment : Moment)
  | pause (goalId : GoalId) (clientRequestId : String) (moment : Moment)
  | resume (goalId : GoalId) (request : ResumeRequest) (moment : Moment)
  | steer (goalId : GoalId) (request : SteerRequest) (moment : Moment)
  | updateObjective (goalId : GoalId) (clientRequestId objective : String) (moment : Moment)
  | complete (goalId : GoalId) (clientRequestId : String) (moment : Moment)
  | clear (goalId : GoalId) (clientRequestId : String) (moment : Moment)
  | cancelReturned (goalId : GoalId) (moment : Moment)
  | cancelRaised (goalId : GoalId) (error : GoalError) (moment : Moment)
  | turnCompleted (tabId : TabId) (turnId : TurnId) (report : TurnReport) (moment : Moment)
  | releaseDeferredResume (goalId : GoalId) (moment : Moment)
  | dispatchNext (goalId : GoalId) (moment : Moment)
  /-- `_dispatch_prepared` up to the transport. -/
  | dispatch (prepared : PreparedGoal) (moment : Moment)
  | abandon (prepared : PreparedGoal)
  | transportReturned (prepared : GoalRun) (moment : Moment)
  | transportRaised (prepared : GoalRun) (error : GoalError) (moment : Moment)
  /-- The process dies and the next one loads the snapshot and recovers. -/
  | restart (now : Time) (failing : Option GoalId)
  deriving DecidableEq

namespace GoalSystem

def commit (system : GoalSystem) (result : Section) : GoalSystem where
  controller := system.controller.follow result
  history := system.history.record result

/-- Run a section on a stored goal; `store.get` raises for any other. -/
def perform (system : GoalSystem) (goalId : GoalId) (body : GoalRun → Section) :
    Option GoalSystem :=
  (system.controller.store.goals.get? goalId).map fun goal => system.commit (body goal)

def mutate (system : GoalSystem) (goalId : GoalId) (body : GoalRun → Section) :
    Option GoalSystem :=
  match system.controller.stopping.lookup goalId with
  | some _ => none
  | none => system.perform goalId body

def newGoal (tabId : TabId) (request : GoalRunCreate) (goalId : GoalId) (now : Time) : GoalRun where
  id := goalId
  tabId := tabId
  objective := request.objective
  pendingImageCount := request.imageCount
  pendingImageFingerprint := request.imageFingerprint
  createdAt := now
  updatedAt := now

def createAndStart (system : GoalSystem) (tabId : TabId) (request : GoalRunCreate)
    (goalId : GoalId) (moment : Moment) : GoalSystem :=
  let goal := newGoal tabId request goalId moment.now
  match system.controller.store.create goal request moment.saves.mutation with
  | .error _ => system
  | .ok (store, goal) =>
    { system with controller := { system.controller with store } }.commit
      (goal.start system.controller.callbacks moment)

/-- The coroutine that holds the mutation lock goes on with `body`. -/
def leaveStop (system : GoalSystem) (goalId : GoalId)
    (body : GoalRun → AfterStop → Section) (allowed : StoppingTurn → Bool) :
    Option GoalSystem :=
  match system.controller.stopping.lookup goalId with
  | none => none
  | some stopping =>
    if allowed stopping then
      { system with
        controller :=
          { system.controller with stopping := system.controller.stopping.erase goalId } }.perform
        goalId fun goal => body goal stopping.after
    else none

def invoke (system : GoalSystem) (prepared : GoalRun) (step : TurnId) : GoalSystem where
  controller :=
    { system.controller with
      acceptances := system.controller.acceptances ++ [step]
      transporting := system.controller.transporting ++ [prepared] }
  history :=
    { system.history with
      calls := system.history.calls ++
        [⟨prepared, decide (prepared.id ∈ system.history.unknown)⟩] }

/-- `_dispatch_prepared` up to the transport. -/
def dispatch (system : GoalSystem) (prepared : PreparedGoal) (moment : Moment) :
    Option GoalSystem :=
  if prepared ∉ system.controller.prepared then none
  else
    let system : GoalSystem :=
      { system with
        controller :=
          { system.controller with prepared := system.controller.prepared.erase prepared } }
    match prepared.goal.pendingStepId, system.controller.store.goals.get? prepared.goal.id with
    | some step, some latest =>
      if prepared.goal.dispatchState ≠ .pending then some system
      else if step ∈ system.controller.acceptances then some system
      else if latest.status ≠ .active ∨ ¬ latest.awaits prepared.goal then some system
      else if !prepared.override && !system.controller.callbacks.dispatch then
        -- the assertion that a callback is there fails
        some (system.commit (latest.dispatchFailed prepared.goal (.callback "") moment))
      else some (system.invoke prepared.goal step)
    | _, _ => some system

/-- The end of `_dispatch_prepared`. Where no write has settled the step, its acceptance
stays unknown. -/
def transportEnds (system : GoalSystem) (prepared : GoalRun) (body : GoalRun → Section) :
    Option GoalSystem :=
  if prepared ∉ system.controller.transporting then none
  else
    (system.controller.store.goals.get? prepared.id).map fun goal =>
      let result := body goal
      let after := system.commit result
      { controller :=
          { after.controller with
            transporting := after.controller.transporting.erase prepared }.release
              (prepared.pendingStepId.getD "")
        history :=
          if result.goal.awaits prepared then
            { after.history with unknown := after.history.unknown ++ [prepared.id] }
          else after.history }

def restart (system : GoalSystem) (now : Time) (failing : Option GoalId) : GoalSystem :=
  let controller := ({ callbacks := system.controller.callbacks
                       store := system.controller.store } : GoalRunController).recover now failing
  { controller
    history :=
      { system.history with
        unknown := system.history.unknown ++
          (controller.store.goals.rows.filter fun goal => goal.dispatchState = .uncertain).map
            GoalRun.id } }

def step (system : GoalSystem) : GoalOp → Option GoalSystem
  | .createAndStart tabId request goalId moment =>
    some (system.createAndStart tabId request goalId moment)
  | .pause goalId clientRequestId moment =>
    system.mutate goalId fun goal => goal.pause system.controller.callbacks clientRequestId moment
  | .resume goalId request moment =>
    system.mutate goalId fun goal => goal.resume system.controller.callbacks request moment
  | .steer goalId request moment =>
    system.mutate goalId fun goal => goal.steer system.controller.callbacks request moment
  | .updateObjective goalId clientRequestId objective moment =>
    system.mutate goalId fun goal => goal.updateObjective clientRequestId objective moment
  | .complete goalId clientRequestId moment =>
    system.mutate goalId fun goal =>
      goal.complete system.controller.callbacks clientRequestId moment
  | .clear goalId clientRequestId moment =>
    system.mutate goalId fun goal => goal.clear system.controller.callbacks clientRequestId moment
  | .cancelReturned goalId moment =>
    system.leaveStop goalId
      (fun goal after => goal.cancelReturned system.controller.callbacks moment after)
      fun stopping => stopping.acceptance = none
  | .cancelRaised goalId error moment =>
    system.leaveStop goalId (fun goal after => goal.cancelRaised error moment after)
      fun stopping => stopping.acceptance = none ∨ error = .cancelled
  | .turnCompleted tabId turnId report moment =>
    match system.controller.store.currentForTab tabId with
    | none => some system
    | some goal =>
      system.perform goal.id fun goal =>
        goal.onTurnCompleted system.controller.callbacks turnId report moment
  | .releaseDeferredResume goalId moment =>
    system.perform goalId fun goal =>
      goal.releaseDeferredResume system.controller.callbacks moment
  | .dispatchNext goalId moment =>
    system.perform goalId fun goal => goal.dispatchNext system.controller.callbacks moment
  | .dispatch prepared moment => system.dispatch prepared moment
  | .abandon prepared =>
    if prepared ∈ system.controller.prepared then
      some { system with
        controller :=
          { system.controller with prepared := system.controller.prepared.erase prepared } }
    else none
  | .transportReturned prepared moment =>
    -- both transports return the step id that they are given
    (system.transportEnds prepared fun goal =>
      goal.dispatchAccepted prepared prepared.pendingStepId moment).map fun after =>
        { after with history := after.history.carry prepared }
  | .transportRaised prepared error moment =>
    system.transportEnds prepared fun goal => goal.dispatchFailed prepared error moment
  | .restart now failing => some (system.restart now failing)

end GoalSystem

end ClaudeHub
