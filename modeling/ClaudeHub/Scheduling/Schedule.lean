import ClaudeHub.Lib.References
import ClaudeHub.Lib.Lines
import ClaudeHub.Models.Enums

/-! # Schedules

A schedule fires an action at a time, by a cron expression or at an interval. Times are in
microseconds. Where a cron expression fires next is a parameter.
-/

namespace ClaudeHub

abbrev ScheduleId := String

inductive ScheduledTaskKind
  | chatTurn | tabMessage | newSession | hubTask
  deriving DecidableEq, Repr

structure ScheduledTask where
  id : ScheduleId
  name : String
  kind : ScheduledTaskKind
  enabled : Bool := true
  runAt : Option Time := none
  cron : Option String := none
  intervalSeconds : Option Nat := none
  tabId : Option TabId := none
  workspaceId : Option String := none
  agentType : String := "claude"
  message : Option String := none
  taskTitle : Option String := none
  envPreset : Option String := none
  lastRunAt : Option Time := none
  nextRunAt : Option Time := none
  lastStatus : Option String := none
  lastError : Option String := none
  lastRunId : Option String := none
  runCount : Nat := 0
  createdAt : Time := 0
  updatedAt : Time := 0
  deriving DecidableEq, Repr

structure ScheduledTaskCreate where
  name : String
  kind : ScheduledTaskKind
  enabled : Bool := true
  runAt : Option Time := none
  cron : Option String := none
  intervalSeconds : Option Nat := none
  tabId : Option TabId := none
  workspaceId : Option String := none
  agentType : String := "claude"
  message : Option String := none
  taskTitle : Option String := none
  envPreset : Option String := none
  deriving DecidableEq, Repr

structure ScheduledTaskUpdate where
  name : Option String := none
  enabled : Option Bool := none
  runAt : Option (Option Time) := none
  cron : Option (Option String) := none
  intervalSeconds : Option (Option Nat) := none
  tabId : Option (Option TabId) := none
  workspaceId : Option (Option String) := none
  agentType : Option String := none
  message : Option (Option String) := none
  taskTitle : Option (Option String) := none
  envPreset : Option (Option String) := none
  deriving DecidableEq, Repr

/-- `str.strip` -/
def stripText (text : String) : String := String.ofList (Lines.strip text.toList)

def fireCooldown : Time := 1000000

namespace ScheduledTask

def computeNextRun (nextCronRun : String → Time → Option Time) (task : ScheduledTask)
    (after : Time) : Option Time :=
  match task.runAt, task.cron, task.intervalSeconds with
  | some runAt, _, _ => some (if runAt > after then runAt else after)
  | none, some cron, _ => nextCronRun cron after
  | none, none, some seconds => some (after + seconds * 1000000)
  | none, none, none => none

/-- The schedule that `create_scheduled_task` stores. -/
def created (nextCronRun : String → Time → Option Time) (id : ScheduleId)
    (payload : ScheduledTaskCreate) (now : Time) : ScheduledTask :=
  let task : ScheduledTask := {
    id := id
    name := stripText payload.name
    kind := payload.kind
    enabled := payload.enabled
    runAt := payload.runAt
    cron := payload.cron
    intervalSeconds := payload.intervalSeconds
    tabId := payload.tabId
    workspaceId := payload.workspaceId
    agentType := payload.agentType
    message := payload.message
    taskTitle := payload.taskTitle
    envPreset := (truthy payload.envPreset).map stripText
    createdAt := now
    updatedAt := now }
  { task with nextRunAt := task.computeNextRun nextCronRun now }

/-- What the edit makes of a schedule, in `update_scheduled_task`. -/
def updated (nextCronRun : String → Time → Option Time) (task : ScheduledTask)
    (payload : ScheduledTaskUpdate) (now : Time) : ScheduledTask :=
  let scheduleChanged :=
    payload.runAt.isSome || payload.cron.isSome || payload.intervalSeconds.isSome
  let merged : ScheduledTask := { task with
    name := (payload.name.map stripText).getD task.name
    enabled := payload.enabled.getD task.enabled
    runAt := if scheduleChanged then payload.runAt.getD none else task.runAt
    cron := if scheduleChanged then payload.cron.getD none else task.cron
    intervalSeconds :=
      if scheduleChanged then payload.intervalSeconds.getD none else task.intervalSeconds
    tabId := payload.tabId.getD task.tabId
    workspaceId := payload.workspaceId.getD task.workspaceId
    agentType := payload.agentType.getD task.agentType
    message := payload.message.getD task.message
    taskTitle := payload.taskTitle.getD task.taskTitle
    envPreset := (payload.envPreset.map fun preset => truthy (preset.map stripText)).getD
      task.envPreset
    updatedAt := now }
  let merged :=
    if payload.envPreset.isNone ∧ (truthy merged.envPreset).isSome ∧ merged.kind ≠ .newSession ∧
        merged.kind ≠ .hubTask then
      { merged with envPreset := none }
    else merged
  if scheduleChanged then { merged with nextRunAt := merged.computeNextRun nextCronRun now }
  else merged

/-- The checks of `_fire_scheduled_task` under the lock. -/
def fires (task : ScheduledTask) (now : Time) (manual : Bool) : Bool :=
  !(task.lastRunAt.any fun lastRunAt => now - lastRunAt < fireCooldown) && task.enabled &&
    (manual || task.nextRunAt.any fun nextRunAt => nextRunAt ≤ now)

def stamped (nextCronRun : String → Time → Option Time) (task : ScheduledTask) (now : Time) :
    ScheduledTask :=
  let task := { task with lastRunAt := some now, runCount := task.runCount + 1, updatedAt := now }
  if task.runAt.isSome then { task with enabled := false, nextRunAt := none }
  else { task with nextRunAt := task.computeNextRun nextCronRun now }

/-- The end of a fire that is not a Chat turn; `error` is what the side effect raised. -/
def concluded (task : ScheduledTask) (error : Option String) (now : Time) : ScheduledTask :=
  { task with
    lastStatus := some (if error.isSome then "error" else "ok")
    lastError := error
    updatedAt := now }

end ScheduledTask

end ClaudeHub
