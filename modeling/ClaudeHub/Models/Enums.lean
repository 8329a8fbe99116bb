import Mathlib.Data.List.Basic

/-! # Identifiers and enumerations

Identifiers are opaque strings. Structured string keys of the source
(`task:<id>`, `report:<id>`, `dispatch:<task>:<attempt>`) are constructors here,
so two keys are equal exactly when their printed forms are; every other string
is carried by the last constructor of each type.
-/

namespace ClaudeHub

abbrev TaskId := String
abbrev SessionId := String
abbrev ReportId := String
abbrev TabId := String
abbrev TurnId := String

abbrev Time := Nat

/-- Mailbox consumer keys: `task:<id>`, the deprecated `workspace:<id>:resident`
of this workspace, or any other text. -/
inductive ConsumerKey
  | task (id : TaskId)
  | legacyResident
  | other (text : String)
  deriving DecidableEq, Repr

/-- Call ids. `raw` carries a caller's own text that has none of the other forms. -/
inductive CallId
  | report (id : ReportId)
  | dispatch (task : TaskId) (attempt : Nat)
  | liveness (text : String)
  | reviewDelivery (text : String)
  | raw (text : String)
  deriving DecidableEq, Repr

inductive PayloadValue
  | null
  | bool (value : Bool)
  | int (value : Nat)
  | str (value : String)
  | texts (values : List String)
  | object (fields : List (String × Option (String ⊕ Nat)))
  deriving DecidableEq, Repr

abbrev Payload := List (String × PayloadValue)

/-- `Optional[str]` as a JSON value. -/
def PayloadValue.ofText? : Option String → PayloadValue
  | none => .null
  | some text => .str text

/-- Python truthiness of an `Optional[str]`: the empty string counts as missing. -/
def truthy (text : Option String) : Option String := text.filter fun s => s ≠ ""

inductive TaskActorRole
  | worker | reviewer | supervisor | human | initiator | runtime
  deriving DecidableEq, Repr

def TaskActorRole.value : TaskActorRole → String
  | .worker => "worker"
  | .reviewer => "reviewer"
  | .supervisor => "supervisor"
  | .human => "human"
  | .initiator => "initiator"
  | .runtime => "runtime"

inductive TaskEventType
  | dispatched | started | progress | report | followup | message | reviewStarted | reviewPassed
  | reviewFailed | reviewNeedsInput | needsInput | humanAcceptanceRequested | humanAccepted
  | abort | interrupt | completed | failed | lifecycle
  deriving DecidableEq, Repr

inductive WorkspaceSessionRole
  | worker | orchestrator | reviewer | dispatcher | resident
  deriving DecidableEq, Repr

inductive WorkspaceTaskStatus
  | todo | queued | working | review | done | failed
  deriving DecidableEq, Repr

inductive WorkspaceTaskMode
  | direct | reviewed | autonomous | subagent
  deriving DecidableEq, Repr

inductive TaskExecutionControl
  | workspace | initiator
  deriving DecidableEq, Repr

inductive ManagedSessionStatus
  | spawning | working | idle | needsInput | done | stopped | error
  deriving DecidableEq, Repr

inductive AgentRuntimeStatus
  | idle | working | attention | offline
  deriving DecidableEq, Repr

inductive SessionKind
  | chat | terminal
  deriving DecidableEq, Repr

inductive AgentReportState
  | started | working | blocked | needsInput | readyForReview | completed | failed
  | reviewStarted | reviewPassed | reviewFailed | reviewNeedsInput
  deriving DecidableEq, Repr

def AgentReportState.value : AgentReportState → String
  | .started => "started"
  | .working => "working"
  | .blocked => "blocked"
  | .needsInput => "needs_input"
  | .readyForReview => "ready_for_review"
  | .completed => "completed"
  | .failed => "failed"
  | .reviewStarted => "review_started"
  | .reviewPassed => "review_passed"
  | .reviewFailed => "review_failed"
  | .reviewNeedsInput => "review_needs_input"

inductive ReviewDecision
  | auto | request | skip
  deriving DecidableEq, Repr

inductive GoalPacketStatus
  | draft | pendingReview | approved | rejected | frozen | superseded
  deriving DecidableEq, Repr

/-- How a save ends: it returns, it raises with the old file in place, or it
raises after the file has been replaced. -/
inductive SaveOutcome
  | saved | notReplaced | replacedThenRaised
  deriving DecidableEq, Repr

def SaveOutcome.raises : SaveOutcome → Bool
  | .saved => false
  | .notReplaced | .replacedThenRaised => true

end ClaudeHub
