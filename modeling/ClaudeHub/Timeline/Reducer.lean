import Mathlib.Logic.Function.Basic

/-! # Folding events into the turns of a timeline

Events of the main thread are folded into turns one by one. A delta that repeats what was streamed
before is recognised by its text and by the chunks it came in.
-/

namespace ClaudeHub

abbrev JsString := List UInt16

inductive TimelineEventType
  | turnStarted
  | turnCompleted
  | textDelta
  | thinkingDelta
  deriving DecidableEq, Repr

/-- An event of the main thread, with what is read of its payload here. A missing text is empty.
Tools, approvals, errors and statuses are left out. -/
structure TimelineEvent where
  streamSequence : Nat
  sessionId : Option String
  tabId : Option String
  type : TimelineEventType
  turnId : Option String
  messageId : Option String
  createdAt : String
  text : JsString
  summary : JsString
  status : String
  plan : Bool
  snapshot : Bool
  historyChunkCount : Option Nat
  deriving DecidableEq, Repr

inductive TimelinePart
  | thinking (key : String) (text : JsString)
  | text (key : String) (text : JsString) (startedAt : String) (fromPlan : Bool)
      (messageId : Option String)
  deriving DecidableEq, Repr

structure TextChunk where
  text : JsString
  count : Nat
  deriving DecidableEq, Repr

structure TimelineTurn where
  key : String
  turnId : Option String
  userText : JsString
  parts : List TimelinePart
  assistantText : JsString
  thinkingText : JsString
  completed : Bool
  completionStatus : Option String
  startedAt : Option String
  completedAt : Option String
  renderRevision : Nat
  deriving DecidableEq, Repr

def createTurn (key : String) (turnId : Option String) : TimelineTurn where
  key := key
  turnId := turnId
  userText := []
  parts := []
  assistantText := []
  thinkingText := []
  completed := false
  completionStatus := none
  startedAt := none
  completedAt := none
  renderRevision := 0

/-- The loop of `isExactMultiChunkReplay`, over the chunks from the last one on -/
def coversChunks (remaining matched : Nat) : List TextChunk → Bool
  | [] => false
  | chunk :: chunks =>
    if remaining < chunk.text.length then false
    else if remaining = chunk.text.length then 2 ≤ matched + chunk.count
    else coversChunks (remaining - chunk.text.length) (matched + chunk.count) chunks

/-- Whether the candidate repeats the end of the text, from the beginning of a chunk on. -/
def isExactMultiChunkReplay (accumulated : JsString) (priorChunks : List TextChunk)
    (candidate : JsString) : Bool :=
  if candidate = [] ∨ ¬ candidate.isSuffixOf accumulated then false
  else coversChunks candidate.length 0 priorChunks.reverse

/-- The last loop of `trimSnapshotReplay`, over the chunks from the last one on -/
def replayedTail (accumulated working : JsString) (candidateCount : Nat) :
    Nat → Nat → List TextChunk → Option JsString
  | _, _, [] => none
  | length, matched, chunk :: chunks =>
    let prefixLen := length + chunk.text.length
    let matchedChunks := matched + chunk.count
    if working.length ≤ prefixLen then none
    else
      let totalLen := prefixLen + working.length
      let tailLen := totalLen / 2 - prefixLen
      let tail := working.take tailLen
      let replayed := working.drop tailLen
      if totalLen % 2 = 0 ∧ (2 ≤ matchedChunks ∨ 8 ≤ prefixLen ∨
            2 ≤ candidateCount ∧ 16 ≤ totalLen) ∧ 0 < tailLen ∧ tail.isSuffixOf replayed ∧
          (replayed.take prefixLen).isSuffixOf accumulated then
        some tail
      else replayedTail accumulated working candidateCount prefixLen matchedChunks chunks

def halvedReplay (candidate : JsString) (candidateCount : Nat) : JsString :=
  let half := candidate.length / 2
  if 2 ≤ candidateCount ∧ 16 ≤ candidate.length ∧ candidate.length % 2 = 0 ∧
      candidate.take half = candidate.drop half then
    candidate.take half
  else candidate

def trimSnapshotReplay (accumulated : JsString) (priorChunks : List TextChunk)
    (candidate : JsString) (candidateCount : Nat) : JsString :=
  let working := halvedReplay candidate candidateCount
  if candidate = [] then candidate
  else if accumulated = [] then working
  else if isExactMultiChunkReplay accumulated priorChunks working then []
  else (replayedTail accumulated working candidateCount 0 0 priorChunks.reverse).getD working

namespace TimelineTurn

/-- `appendTextPart`, of thinking -/
def appendThinking (turn : TimelineTurn) (text : JsString) (sequence : Nat) : TimelineTurn :=
  { turn with
    parts := match turn.parts.getLast? with
      | some (.thinking key last) => turn.parts.dropLast ++ [.thinking key (last ++ text)]
      | _ => turn.parts ++ [.thinking ("thinking-" ++ toString sequence) text]
    thinkingText := turn.thinkingText ++ text }

/-- `appendTextPart`, of prose -/
def appendText (turn : TimelineTurn) (text : JsString) (sequence : Nat) (createdAt : String)
    (fromPlan : Bool) : TimelineTurn :=
  let key := (if fromPlan then "plan-" else "text-") ++ toString sequence
  { turn with
    parts := match turn.parts.getLast? with
      | some (.text lastKey last startedAt lastFromPlan messageId) =>
        if lastFromPlan = fromPlan then
          turn.parts.dropLast ++ [.text lastKey (last ++ text) startedAt lastFromPlan messageId]
        else turn.parts ++ [.text key text createdAt fromPlan none]
      | _ => turn.parts ++ [.text key text createdAt fromPlan none]
    assistantText := turn.assistantText ++ text }

def joinedText (parts : List TimelinePart) : JsString :=
  parts.flatMap fun part =>
    match part with
    | .text _ text _ _ _ => text
    | .thinking _ _ => []

def isPlanOf (messageId : String) : TimelinePart → Bool
  | .text _ _ _ fromPlan owner => fromPlan && owner == some messageId
  | .thinking _ _ => false

/-- The branch of `text_delta` for the plan of a message; nothing where the turn stays as it is -/
def withPlan (turn : TimelineTurn) (messageId : String) (event : TimelineEvent) :
    Option TimelineTurn :=
  match turn.parts.findIdx? (isPlanOf messageId) with
  | some place =>
    match turn.parts[place]? with
    | some (.text key text startedAt fromPlan owner) =>
      let next := if event.snapshot then event.text else text ++ event.text
      if next = text then none
      else
        let parts := turn.parts.set place (.text key next startedAt fromPlan owner)
        some { turn with parts := parts, assistantText := joinedText parts }
    | _ => none
  | none =>
    if event.text = [] then none
    else
      let key := "plan-" ++ toString event.streamSequence
      let parts := turn.parts ++ [.text key event.text event.createdAt true (some messageId)]
      some { turn with parts := parts, assistantText := joinedText parts }

/-- The branch of `turn_started` -/
def started (turn : TimelineTurn) (event : TimelineEvent) : Option TimelineTurn :=
  let next := { turn with
    startedAt := turn.startedAt.or (some event.createdAt)
    userText := event.summary }
  if next = turn then none else some next

/-- The branch of `turn_completed` -/
def completedBy (turn : TimelineTurn) (event : TimelineEvent) : Option TimelineTurn :=
  if turn.completed then none
  else
    some { turn with
      completed := true
      completedAt := some event.createdAt
      completionStatus := some (if event.status = "" then "completed" else event.status) }

end TimelineTurn

structure ReducerState where
  turns : List TimelineTurn
  legacyCurrent : Option Nat
  textChunks : String → List TextChunk
  thinkingChunks : String → List TextChunk

def createReducerState : ReducerState := ⟨[], none, fun _ => [], fun _ => []⟩

/-- `resolveTurn`, with the place of the turn -/
def resolveTurn (state : ReducerState) (event : TimelineEvent) : ReducerState × Nat :=
  match event.turnId.filter (· ≠ "") with
  | some id =>
    match state.turns.findIdx? fun turn => turn.turnId == some id with
    | some place => (state, place)
    | none =>
      ({ state with turns := state.turns ++ [createTurn ("turn-" ++ id) (some id)] },
        state.turns.length)
  | none =>
    match state.legacyCurrent with
    | some place => if event.type = .turnStarted then mint else (state, place)
    | none => mint
where
  mint : ReducerState × Nat :=
    ({ state with
      turns := state.turns ++
        [createTurn ("legacy-turn-" ++ toString event.streamSequence) none]
      legacyCurrent := some state.turns.length }, state.turns.length)

namespace ReducerState

def put (state : ReducerState) (place : Nat) (changed : Option TimelineTurn) : ReducerState :=
  match changed with
  | none => state
  | some turn =>
    { state with
      turns := state.turns.set place { turn with renderRevision := turn.renderRevision + 1 } }

end ReducerState

def TimelineEvent.chunkCount (event : TimelineEvent) : Nat :=
  match event.historyChunkCount with
  | some count => if 1 < count then count else 1
  | none => 1

/-- The branch of `text_delta` without a plan of a message -/
def applyText (state : ReducerState) (place : Nat) (turn : TimelineTurn) (key : String)
    (event : TimelineEvent) : ReducerState :=
  let chunks := state.textChunks key
  let next := trimSnapshotReplay turn.assistantText chunks event.text event.chunkCount
  if next = [] then state
  else
    { state.put place
        (some (turn.appendText next event.streamSequence event.createdAt event.plan)) with
      textChunks := Function.update state.textChunks key (chunks ++ [⟨next, event.chunkCount⟩]) }

/-- The branch of `thinking_delta` -/
def applyThinking (state : ReducerState) (place : Nat) (turn : TimelineTurn) (key : String)
    (event : TimelineEvent) : ReducerState :=
  let chunks := state.thinkingChunks key
  let next := trimSnapshotReplay turn.thinkingText chunks event.text event.chunkCount
  if next = [] then state
  else
    { state.put place (some (turn.appendThinking next event.streamSequence)) with
      thinkingChunks :=
        Function.update state.thinkingChunks key (chunks ++ [⟨next, event.chunkCount⟩]) }

/-- `applyEventToState`, of the events that are modelled -/
def applyEventToState (state : ReducerState) (event : TimelineEvent) : ReducerState :=
  let (state, place) := resolveTurn state event
  match state.turns[place]? with
  | none => state
  | some turn =>
    let key := turn.turnId.getD turn.key
    match event.type with
    | .turnStarted => state.put place (turn.started event)
    | .turnCompleted => state.put place (turn.completedBy event)
    | .textDelta =>
      match (event.messageId.filter (· ≠ "")).filter fun _ => event.plan with
      | some messageId => state.put place (turn.withPlan messageId event)
      | none => applyText state place turn key event
    | .thinkingDelta => applyThinking state place turn key event

def groupEventsIntoTurns (events : List TimelineEvent) : List TimelineTurn :=
  (events.foldl applyEventToState createReducerState).turns

end ClaudeHub
