import ClaudeHub.AgentStream.Coalescer
import ClaudeHub.Lib.Brackets

/-! # The lifecycle of turns in an event log

Two scans of the store look for a turn that has started and not ended. One validates every
row and gives up on a damaged one; the other reads raw objects and skips what it cannot read.
-/

namespace ClaudeHub

open Brackets

/-- A JSON value as the scans look at it: a missing key reads as `null`. -/
inductive JsonValue
  | null
  | text (value : String)
  | number (value : Int)
  /-- A boolean or a fraction: how it prints and the integer that it equals. -/
  | scalar (printed : String) (equals : Option Int)
  | container (printed : String)
  deriving DecidableEq, Repr

namespace JsonValue

def ofText : Option String → JsonValue
  | none => null
  | some value => text value

def ofNumber : Option Int → JsonValue
  | none => null
  | some value => number value

def printed : JsonValue → String
  | null => "None"
  | text value => value
  | number value => toString value
  | scalar printed _ => printed
  | container printed => printed

def equalsNumber : JsonValue → Option Int → Bool
  | null, other => other.isNone
  | number value, other => other = some value
  | scalar _ equals, other => equals.isSome && equals = other
  | _, _ => false

@[simp] theorem ofText_inj {value other : Option String} :
    ofText value = ofText other ↔ value = other := by
  cases value <;> cases other <;> simp [ofText]

@[simp] theorem equalsNumber_ofNumber (value other : Option Int) :
    equalsNumber (ofNumber value) other = decide (value = other) := by
  cases value <;> cases other <;> simp [ofNumber, equalsNumber, eq_comm]

end JsonValue

/-- What the scans read of a JSON object; `rest` is the text of its other fields. -/
structure RawEvent where
  type : JsonValue
  turnId : JsonValue
  runEpoch : JsonValue
  rest : String := ""
  deriving DecidableEq, Repr

inductive StreamRow
  | blank
  | notJson
  | notObject
  | object (raw : RawEvent)
  deriving DecidableEq, Repr

inductive StreamFile
  | missing
  | unreadable
  | readable (rows : List StreamRow)
  deriving DecidableEq, Repr

inductive StreamReadError
  | emptyTurnId
  | corrupt
  | unreadable
  | attributeError
  | typeError
  deriving DecidableEq, Repr

def AgentStreamEventType.value : AgentStreamEventType → String
  | .turnStarted => "turn_started"
  | .turnCompleted => "turn_completed"
  | .textDelta => "text_delta"
  | .thinkingDelta => "thinking_delta"
  | .toolCallStarted => "tool_call_started"
  | .toolCallCompleted => "tool_call_completed"
  | .approvalRequired => "approval_required"
  | .approvalResolved => "approval_resolved"
  | .error => "error"
  | .status => "status"

theorem AgentStreamEventType.value_injective : Function.Injective value := by
  intro a b h
  cases a <;> cases b <;> first | rfl | exact absurd h (by decide)

/-- The object that the store writes of an event. -/
structure RawEvent.Dumps (raw : RawEvent) (event : StreamEvent) : Prop where
  type : raw.type = .text event.type.value
  turnId : raw.turnId = .ofText event.turnId
  runEpoch : raw.runEpoch = .ofNumber event.runEpoch

/-- `AgentStreamEvent.model_validate` -/
abbrev Validator := RawEvent → Option StreamEvent

inductive TurnLifecycleState
  | notStarted | unfinished | terminal
  deriving DecidableEq, Repr

structure TurnLifecycleSnapshot where
  state : TurnLifecycleState := .notStarted
  latestUnfinished : Option StreamEvent := none
  deriving DecidableEq, Repr

/-- `same_turn` of a terminal event and the candidate -/
def StreamEvent.sameTurn (event candidate : StreamEvent) : Bool :=
  if candidate.turnId.isSome then event.turnId = candidate.turnId
  else event.runEpoch = candidate.runEpoch

namespace TurnLifecycleSnapshot

/-- The loop body of `inspect_turn_lifecycle` on a validated event. -/
def see (turnId : TurnId) (scan : TurnLifecycleSnapshot) (event : StreamEvent) :
    TurnLifecycleSnapshot :=
  if event.type = .turnStarted then
    { state :=
        if event.turnId = some turnId ∧ scan.state ≠ .terminal then .unfinished else scan.state
      latestUnfinished := some event }
  else if event.type ≠ .turnCompleted ∧ event.type ≠ .error then scan
  else
    { state :=
        if event.turnId = some turnId ∧ scan.state = .unfinished then .terminal else scan.state
      latestUnfinished := scan.latestUnfinished.filter fun started => !event.sameTurn started }

def seeRow (validate : Validator) (turnId : TurnId) (scan : TurnLifecycleSnapshot) :
    StreamRow → Except StreamReadError TurnLifecycleSnapshot
  | .blank => .ok scan
  | .notJson | .notObject => .error .corrupt
  | .object raw =>
    match validate raw with
    | none => .error .corrupt
    | some event => .ok (scan.see turnId event)

end TurnLifecycleSnapshot

def inspectTurnLifecycle (validate : Validator) (turnId : TurnId) (file : StreamFile) :
    Except StreamReadError TurnLifecycleSnapshot :=
  if turnId = "" then .error .emptyTurnId
  else
    match file with
    | .missing => .ok {}
    | .unreadable => .error .unreadable
    | .readable rows => rows.foldlM (TurnLifecycleSnapshot.seeRow validate turnId) {}

/-- The loop body of `latest_unfinished_turn`. -/
def seeRawRow (validate : Validator) (candidate : Option StreamEvent) :
    StreamRow → Except StreamReadError (Option StreamEvent)
  | .blank | .notJson => .ok candidate
  | .notObject => .error .attributeError
  | .object raw =>
    if raw.type = .text "turn_started" then .ok (validate raw)
    else
      match candidate with
      | none => .ok none
      | some started =>
        match raw.type with
        | .container _ => .error .typeError
        | type =>
          if type ≠ .text "turn_completed" ∧ type ≠ .text "error" then .ok candidate
          else
            let sameTurn :=
              if started.turnId.isSome then decide (raw.turnId = .ofText started.turnId)
              else raw.runEpoch.equalsNumber started.runEpoch
            .ok (if sameTurn then none else candidate)

def latestUnfinishedTurn (validate : Validator) :
    StreamFile → Except StreamReadError (Option StreamEvent)
  | .missing | .unreadable => .ok none
  | .readable rows => rows.foldlM (seeRawRow validate) none

/-! ## Well-formed logs -/

def StreamRow.WellFormed (validate : Validator) : StreamRow → Prop
  | .blank => True
  | .object raw => ∃ event, validate raw = some event ∧ raw.Dumps event
  | .notJson | .notObject => False

def StreamRow.event? (validate : Validator) : StreamRow → Option StreamEvent
  | .object raw => validate raw
  | _ => none

def StreamFile.WellFormed (validate : Validator) : StreamFile → Prop
  | .missing => True
  | .unreadable => False
  | .readable rows => ∀ row ∈ rows, row.WellFormed validate

def StreamFile.events (validate : Validator) : StreamFile → List StreamEvent
  | .readable rows => rows.filterMap (StreamRow.event? validate)
  | .missing | .unreadable => []

def StreamEvent.starts (event : StreamEvent) : Bool := event.type = .turnStarted

def StreamEvent.ends (event started : StreamEvent) : Bool :=
  (event.type = .turnCompleted || event.type = .error) && event.sameTurn started

variable {validate : Validator}

theorem foldlM_rows {σ : Type} {f : σ → StreamRow → Except StreamReadError σ}
    {g : σ → StreamEvent → σ} (hblank : ∀ s, f s .blank = .ok s)
    (hobject : ∀ s raw event, validate raw = some event → raw.Dumps event →
      f s (.object raw) = .ok (g s event))
    {rows : List StreamRow} (h : ∀ row ∈ rows, row.WellFormed validate) (s : σ) :
    rows.foldlM f s = .ok ((rows.filterMap (StreamRow.event? validate)).foldl g s) := by
  induction rows generalizing s with
  | nil => rfl
  | cons row rows ih =>
    have hrest := fun row' hmem => h row' (List.mem_cons_of_mem row hmem)
    rw [List.foldlM_cons]
    cases row with
    | blank =>
      rw [hblank]
      exact ih hrest s
    | notJson => exact (h _ List.mem_cons_self).elim
    | notObject => exact (h _ List.mem_cons_self).elim
    | object raw =>
      obtain ⟨event, hvalid, hdumps⟩ := h _ List.mem_cons_self
      have hread : StreamRow.event? validate (.object raw) = some event := hvalid
      rw [hobject s raw event hvalid hdumps, List.filterMap_cons_some hread]
      exact ih hrest (g s event)

theorem seeLast_lifecycle (candidate : Option StreamEvent) (event : StreamEvent) :
    seeLast StreamEvent.starts StreamEvent.ends candidate event =
      if event.type = .turnStarted then some event
      else if event.type ≠ .turnCompleted ∧ event.type ≠ .error then candidate
      else candidate.filter fun started => !event.sameTurn started := by
  unfold seeLast StreamEvent.starts StreamEvent.ends
  by_cases hstarts : event.type = .turnStarted
  · simp [hstarts]
  · by_cases hother : event.type ≠ .turnCompleted ∧ event.type ≠ .error
    · cases candidate <;> simp [hother, hstarts]
    · have hends : (event.type = .turnCompleted || event.type = .error : Bool) = true := by
        by_contra h
        simp only [Bool.or_eq_true, decide_eq_true_eq, not_or] at h
        exact hother h
      simp only [hstarts, hother, hends, decide_false, Bool.false_eq_true, if_false,
        Bool.true_and]

theorem TurnLifecycleSnapshot.see_latest (turnId : TurnId) (scan : TurnLifecycleSnapshot)
    (event : StreamEvent) :
    (scan.see turnId event).latestUnfinished =
      seeLast StreamEvent.starts StreamEvent.ends scan.latestUnfinished event := by
  rw [seeLast_lifecycle, see]
  split
  · rfl
  · split <;> rfl

theorem seeRawRow_object {raw : RawEvent} {event : StreamEvent} (hvalid : validate raw = some event)
    (hdumps : raw.Dumps event) (candidate : Option StreamEvent) :
    seeRawRow validate candidate (.object raw) =
      .ok (seeLast StreamEvent.starts StreamEvent.ends candidate event) := by
  have hsame : ∀ started : StreamEvent,
      (if started.turnId.isSome then decide (raw.turnId = .ofText started.turnId)
        else raw.runEpoch.equalsNumber started.runEpoch) = event.sameTurn started := by
    intro started
    rw [hdumps.turnId, hdumps.runEpoch, StreamEvent.sameTurn]
    simp
  have htype : ∀ type : AgentStreamEventType,
      raw.type = .text type.value ↔ event.type = type := by
    intro type
    rw [hdumps.type, JsonValue.text.injEq, AgentStreamEventType.value_injective.eq_iff]
  have hstarts := htype .turnStarted
  have hcompleted := htype .turnCompleted
  have herror := htype .error
  simp only [AgentStreamEventType.value] at hstarts hcompleted herror
  simp only [seeLast_lifecycle, seeRawRow]
  by_cases h : event.type = .turnStarted
  · rw [if_pos (hstarts.mpr h), if_pos h, hvalid]
  · rw [if_neg (mt hstarts.mp h), if_neg h]
    cases candidate with
    | none => simp
    | some started =>
      dsimp only
      split
      next printed hcontainer => simp [hdumps.type] at hcontainer
      next type _ =>
        simp only [hcompleted, herror, ne_eq, hsame]
        split
        · rfl
        · cases hturn : event.sameTurn started <;> simp [hturn, Option.filter]

theorem latestUnfinishedTurn_eq {file : StreamFile} (h : file.WellFormed validate) :
    latestUnfinishedTurn validate file =
      .ok (lastOpen StreamEvent.starts StreamEvent.ends (file.events validate)) := by
  cases file with
  | missing => rfl
  | unreadable => exact h.elim
  | readable =>
    exact foldlM_rows (fun _ => rfl) (fun s raw event => fun hvalid hdumps =>
      seeRawRow_object hvalid hdumps s) h none

theorem inspectTurnLifecycle_eq {file : StreamFile} (h : file.WellFormed validate)
    {turnId : TurnId} (hid : turnId ≠ "") :
    inspectTurnLifecycle validate turnId file =
      .ok ((file.events validate).foldl (TurnLifecycleSnapshot.see turnId) {}) := by
  simp only [inspectTurnLifecycle, if_neg hid]
  cases file with
  | missing => rfl
  | unreadable => exact h.elim
  | readable =>
    refine foldlM_rows (fun _ => rfl) (fun scan raw event hvalid _ => ?_) h _
    simp [TurnLifecycleSnapshot.seeRow, hvalid]

theorem foldl_see_latest (turnId : TurnId) (events : List StreamEvent) :
    (events.foldl (TurnLifecycleSnapshot.see turnId) {}).latestUnfinished =
      lastOpen StreamEvent.starts StreamEvent.ends events := by
  induction events using List.reverseRecOn with
  | nil => rfl
  | append_singleton events event ih =>
    rw [List.foldl_append, lastOpen_concat, ← ih]
    exact TurnLifecycleSnapshot.see_latest turnId _ event

def LastTurnEnded (events : List StreamEvent) : Prop :=
  ∀ before started after, Occurs events before started after → started.type = .turnStarted →
    (∀ later ∈ after, later.type ≠ .turnStarted) →
      ∃ later ∈ after, (later.type = .turnCompleted ∨ later.type = .error) ∧
        later.sameTurn started = true

theorem lastOpen_eq_none_iff (events : List StreamEvent) :
    lastOpen StreamEvent.starts StreamEvent.ends events = none ↔ LastTurnEnded events := by
  rw [lastOpen_eq_none]
  simp [LastTurnEnded, StreamEvent.starts, StreamEvent.ends]

end ClaudeHub
