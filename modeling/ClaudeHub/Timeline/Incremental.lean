import ClaudeHub.Lib.IncrementalFold
import ClaudeHub.Timeline.Reducer

/-! # The incremental reducer of timelines

The reducer keeps its state while the key of one earlier event stays the same. Keys are made of ids
and sequence numbers, which say nothing about what an event holds.
-/

namespace ClaudeHub

open IncrementalFold

namespace IncrementalTimelineReducer

def eventKey (event : TimelineEvent) : String :=
  event.sessionId.getD "" ++ "\x00" ++ event.tabId.getD "" ++ "\x00" ++
    toString event.streamSequence

def reduceAll (calls : List (List TimelineEvent)) : List (List TimelineTurn) :=
  (IncrementalFold.reduceAll applyEventToState createReducerState eventKey
    (fresh createReducerState) calls).map ReducerState.turns

variable {previous events : List TimelineEvent}

theorem continues_of_extended (h : previous <+: events) : Continues eventKey previous events :=
  .inr (.inl h)

theorem continues_of_shorter (h : events.length < previous.length) :
    Continues eventKey previous events := by
  have hmissing : events[previous.length - 1]? = none := List.getElem?_eq_none (by omega)
  have hne : previous ≠ [] := List.length_pos_iff.mp (by omega)
  refine .inr (.inr ?_)
  rw [hmissing, List.getLast?_eq_some_getLast hne]
  exact nofun

end IncrementalTimelineReducer

open IncrementalTimelineReducer

private def turnNamed (sequence : Nat) (text : JsString) : TimelineEvent where
  streamSequence := sequence
  sessionId := some "session"
  tabId := some "tab"
  type := .turnStarted
  turnId := some "turn"
  messageId := none
  createdAt := "2026-01-01T00:00:00Z"
  text := []
  summary := text
  status := ""
  plan := false
  snapshot := false
  historyChunkCount := none

end ClaudeHub
