import ClaudeHub.AgentStream.Coalescer
import ClaudeHub.Lib.Lines

/-! # Merged deltas and the threads of a conversation

Deltas are merged when they are published and again when history is read. Both compare a fixed set
of fields, which does not hold the thread of a subagent; a delta without a message id can follow
one of another thread.
-/

namespace ClaudeHub

open Lines Merging

namespace StreamEvent

/-- `history_chunk_count` -/
def chunkCount (event : StreamEvent) : Int :=
  match event.payload.historyChunkCount with
  | some count => if 0 < count then count else 1
  | none => 1

/-- Two neighbours of `compact_history_events` as one. -/
def compactPair (previous event : StreamEvent) : Option StreamEvent :=
  if (event.type = .textDelta ∨ event.type = .thinkingDelta) ∧ previous.key = event.key ∧
      previous.payload.snapshot ≠ .yes ∧ event.payload.snapshot ≠ .yes then
    some { previous with payload :=
      { previous.payload with
        text := previous.payload.text ++ event.payload.text
        historyChunkCount := some (previous.chunkCount + event.chunkCount) } }
  else none

end StreamEvent

/-- The loop body of `compact_history_events` -/
def compactOne (compacted : List StreamEvent) (event : StreamEvent) : List StreamEvent :=
  match compacted.getLast? with
  | none => compacted ++ [event]
  | some previous =>
    match previous.compactPair event with
    | some merged => compacted.dropLast ++ [merged]
    | none => compacted ++ [event]

def compactHistoryEvents (events : List StreamEvent) : List StreamEvent := events.foldl compactOne []

namespace StreamEvent

/-- `_PROCESS_TYPES` -/
def isProcess (event : StreamEvent) : Bool :=
  event.type = .thinkingDelta || event.type = .toolCallStarted || event.type = .toolCallCompleted

/-- `_CONTROL_TYPES` -/
def isControl (event : StreamEvent) : Bool :=
  event.type = .turnStarted || event.type = .turnCompleted || event.type = .approvalRequired ||
    event.type = .approvalResolved || event.type = .error

def thread (event : StreamEvent) : Option String :=
  event.payload.subagentThread.filter fun name => strip name.toList ≠ []

end StreamEvent

def conversationEventVisible (event : StreamEvent) : Bool :=
  if event.turnId = none ∨ event.turnId = some "" then true
  else if event.isControl then true
  else if event.type = .status ∧ (event.payload.subagentStatus = some "failed" ∨
      event.payload.subagentStatus = some "cancelled") then true
  else if event.isProcess then false
  else event.thread = none

structure PieceStream where
  thread : Option String
  messageId : Option String
  type : AgentStreamEventType
  deriving DecidableEq, Repr

inductive StreamPiece
  | char (stream : PieceStream) (c : Char)
  | whole (event : StreamEvent)
  deriving DecidableEq

namespace StreamEvent

def stream (event : StreamEvent) : PieceStream := ⟨event.thread, event.messageId, event.type⟩

def pieces (event : StreamEvent) : List StreamPiece :=
  if event.isCoalescable then event.payload.text.toList.map (.char event.stream)
  else [.whole event]

end StreamEvent

def conversationPieces (events : List StreamEvent) : List StreamPiece :=
  events.flatMap StreamEvent.pieces

def plainText (events : List StreamEvent) : List Char :=
  events.flatMap fun event => event.payload.text.toList

/-- What the two rules have in common: they look at the key and the snapshot mark only, and give
the first event with the text of both. -/
structure MergeRule where
  join : StreamEvent → StreamEvent → Option StreamEvent
  accepts : StreamKey → SnapshotMark → Bool
  joins_iff : ∀ a b, (join a b).isSome = true ↔ a.key = b.key ∧
    accepts a.key a.payload.snapshot = true ∧ accepts b.key b.payload.snapshot = true
  delta : ∀ key snapshot, accepts key snapshot = true → snapshot ≠ .yes
  joined : ∀ a b c, join a b = some c → c.key = a.key ∧
    c.payload.snapshot = a.payload.snapshot ∧
    c.payload.subagentThread = a.payload.subagentThread ∧
    c.payload.subagentStatus = a.payload.subagentStatus ∧
    c.payload.text = a.payload.text ++ b.payload.text

def collapseRule : MergeRule where
  join := StreamEvent.merge
  accepts := fun _ snapshot => snapshot = .falsy
  joins_iff := by
    intro a b
    unfold StreamEvent.merge
    split <;> simp_all
  delta := by
    intro key snapshot h
    have hfalsy : snapshot = .falsy := by simpa using h
    rw [hfalsy]
    decide
  joined := by
    intro a b c h
    unfold StreamEvent.merge at h
    split at h
    · rw [← Option.some.inj h]
      exact ⟨rfl, rfl, rfl, rfl, rfl⟩
    · contradiction

def compactRule : MergeRule where
  join := StreamEvent.compactPair
  accepts := fun key snapshot =>
    (key.type = .textDelta || key.type = .thinkingDelta) && snapshot ≠ .yes
  joins_iff := by
    intro a b
    unfold StreamEvent.compactPair
    constructor
    · intro h
      split at h
      · rename_i hmerges
        obtain ⟨htype, hkey, ha, hb⟩ := hmerges
        have htype' : b.key.type = .textDelta ∨ b.key.type = .thinkingDelta := htype
        rw [hkey]
        refine ⟨rfl, ?_, ?_⟩
        · rcases htype' with ht | ht <;> simp [ht, ha]
        · rcases htype' with ht | ht <;> simp [ht, hb]
      · contradiction
    · rintro ⟨hkey, ha, hb⟩
      rw [if_pos]
      · rfl
      · have hb' : (b.key.type = .textDelta ∨ b.key.type = .thinkingDelta) ∧
            b.payload.snapshot ≠ .yes := by simpa using hb
        have ha' : a.payload.snapshot ≠ .yes := by
          have hsimp : (a.key.type = .textDelta ∨ a.key.type = .thinkingDelta) ∧
            a.payload.snapshot ≠ .yes := by simpa using ha
          exact hsimp.2
        exact ⟨hb'.1, hkey, ha', hb'.2⟩
  delta := by
    intro key snapshot h
    have hboth : (key.type = .textDelta ∨ key.type = .thinkingDelta) ∧ snapshot ≠ .yes := by
      simpa using h
    exact hboth.2
  joined := by
    intro a b c h
    unfold StreamEvent.compactPair at h
    split at h
    · rw [← Option.some.inj h]
      exact ⟨rfl, rfl, rfl, rfl, rfl⟩
    · contradiction

theorem collapse_eq (events : List StreamEvent) :
    collapse events = mergeNeighbours collapseRule.join events := by
  have hone : collapseOne = mergeNext collapseRule.join := by
    funext collapsed event
    unfold collapseOne mergeNext
    cases collapsed.getLast? with
    | none => rfl
    | some prev =>
      dsimp only [collapseRule]
      cases prev.merge event <;> rfl
  rw [collapse, hone]
  rfl

theorem compactHistoryEvents_eq (events : List StreamEvent) :
    compactHistoryEvents events = mergeNeighbours compactRule.join events := by
  have hone : compactOne = mergeNext compactRule.join := by
    funext compacted event
    unfold compactOne mergeNext
    cases compacted.getLast? with
    | none => rfl
    | some previous =>
      dsimp only [compactRule]
      cases previous.compactPair event <;> rfl
  rw [compactHistoryEvents, hone]
  rfl

namespace MergeRule

variable (rule : MergeRule)

/-- Behind the first event of a run, every event that is merged into it is a delta of its thread,
or has no text. -/
def UnmixedFrom : StreamEvent → List StreamEvent → Prop
  | _, [] => True
  | first, event :: events =>
    if (rule.join first event).isSome then
      (first.isCoalescable = true ∧
        (event.payload.text = "" ∨ event.thread = first.thread)) ∧ UnmixedFrom first events
    else UnmixedFrom event events

/-- Events that are merged have one thread. -/
def Unmixed : List StreamEvent → Prop
  | [] => True
  | first :: events => rule.UnmixedFrom first events

/-- What a first event has become after merging others into it. -/
structure Grown (first merged : StreamEvent) : Prop where
  key : merged.key = first.key
  snapshot : merged.payload.snapshot = first.payload.snapshot
  subagentThread : merged.payload.subagentThread = first.payload.subagentThread
  subagentStatus : merged.payload.subagentStatus = first.payload.subagentStatus

variable {rule} {first a b c : StreamEvent} {events : List StreamEvent}

theorem Grown.refl (a : StreamEvent) : Grown a a := ⟨rfl, rfl, rfl, rfl⟩

theorem Grown.trans (h : Grown first a) (h' : Grown a b) : Grown first b :=
  ⟨h'.key.trans h.key, h'.snapshot.trans h.snapshot, h'.subagentThread.trans h.subagentThread,
    h'.subagentStatus.trans h.subagentStatus⟩

theorem grown_of_join (h : rule.join a b = some c) : Grown a c := by
  obtain ⟨hkey, hsnapshot, hthread, hstatus, -⟩ := rule.joined a b c h
  exact ⟨hkey, hsnapshot, hthread, hstatus⟩

theorem text_of_join (h : rule.join a b = some c) :
    c.payload.text = a.payload.text ++ b.payload.text :=
  (rule.joined a b c h).2.2.2.2

section

variable (h : Grown first a)
include h

theorem Grown.thread : a.thread = first.thread := by
  rw [StreamEvent.thread, h.subagentThread]
  rfl

theorem Grown.type : a.type = first.type :=
  congrArg StreamKey.type h.key

theorem Grown.stream : a.stream = first.stream := by
  have hmessage : a.messageId = first.messageId := congrArg StreamKey.messageId h.key
  rw [StreamEvent.stream, h.thread, hmessage, h.type]
  rfl

theorem Grown.isCoalescable : a.isCoalescable = first.isCoalescable := by
  rw [StreamEvent.isCoalescable, h.type, h.snapshot]
  rfl

theorem Grown.visible : conversationEventVisible a = conversationEventVisible first := by
  have hturn : a.turnId = first.turnId := congrArg StreamKey.turnId h.key
  have hcontrol : a.isControl = first.isControl := by
    rw [StreamEvent.isControl, h.type]
    rfl
  have hprocess : a.isProcess = first.isProcess := by
    rw [StreamEvent.isProcess, h.type]
    rfl
  rw [conversationEventVisible, hturn, hcontrol, hprocess, h.type, h.subagentStatus, h.thread]
  rfl

theorem Grown.joins : (rule.join a b).isSome = (rule.join first b).isSome := by
  rw [Bool.eq_iff_iff, rule.joins_iff, rule.joins_iff, h.key, h.snapshot]

end

theorem join_keep (first a b joined : StreamEvent) (h : rule.join a b = some joined)
    (hnone : rule.join first a = none) : rule.join first joined = none := by
  have hgrown := grown_of_join h
  rw [← Option.not_isSome_iff_eq_none, rule.joins_iff] at hnone ⊢
  rw [hgrown.key, hgrown.snapshot]
  exact hnone

theorem isCoalescable_of_join (h : rule.join a b = some c) : b.isCoalescable = a.isCoalescable := by
  obtain ⟨hkey, ha, hb⟩ := (rule.joins_iff a b).1 (by rw [h]; rfl)
  have htype : a.type = b.type := congrArg StreamKey.type hkey
  have hasnap := rule.delta _ _ ha
  have hbsnap := rule.delta _ _ hb
  simp [StreamEvent.isCoalescable, htype, hasnap, hbsnap]

theorem stream_of_join (h : rule.join a b = some c) (hthread : b.thread = a.thread) :
    b.stream = a.stream := by
  obtain ⟨hkey, -, -⟩ := (rule.joins_iff a b).1 (by rw [h]; rfl)
  have htype : a.type = b.type := congrArg StreamKey.type hkey
  have hmessage : a.messageId = b.messageId := congrArg StreamKey.messageId hkey
  rw [StreamEvent.stream, StreamEvent.stream, hthread, htype, hmessage]

theorem pieces_delta (h : a.isCoalescable = true) :
    a.pieces = a.payload.text.toList.map (.char a.stream) := by
  rw [StreamEvent.pieces, if_pos h]

theorem pieces_whole (h : a.isCoalescable = false) : a.pieces = [.whole a] := by
  rw [StreamEvent.pieces, h, if_neg Bool.false_ne_true]

theorem pieces_join (h : rule.join a b = some c) (ha : a.isCoalescable = true) :
    c.pieces = a.pieces ++ b.payload.text.toList.map (.char a.stream) := by
  have hgrown := grown_of_join h
  rw [pieces_delta (hgrown.isCoalescable.trans ha), pieces_delta ha, text_of_join h,
    hgrown.stream, String.toList_append, List.map_append]

theorem pieces_front (ha : a.isCoalescable = true) :
    ∃ more, conversationPieces (mergeFrom rule.join a events) = a.pieces ++ more := by
  induction events generalizing a with
  | nil => exact ⟨[], by simp [mergeFrom, conversationPieces]⟩
  | cons event events ih =>
    rw [mergeFrom]
    cases hjoin : rule.join a event with
    | some =>
      obtain ⟨more, hmore⟩ := ih ((grown_of_join hjoin).isCoalescable.trans ha)
      dsimp only
      rw [hmore, pieces_join hjoin ha, List.append_assoc]
      exact ⟨_, rfl⟩
    | none => exact ⟨_, List.flatMap_cons⟩

theorem length_pieces_le :
    (conversationPieces (mergeFrom rule.join a events)).length ≤
      a.pieces.length + (conversationPieces events).length := by
  induction events generalizing a with
  | nil => simp [mergeFrom, conversationPieces]
  | cons event events ih =>
    have hcons : conversationPieces (event :: events) =
        event.pieces ++ conversationPieces events := List.flatMap_cons
    rw [mergeFrom, hcons, List.length_append]
    cases hjoin : rule.join a event with
    | some joined =>
      have hrest := @ih joined
      have hgrown := grown_of_join hjoin
      have hpieces : joined.pieces.length ≤ a.pieces.length + event.pieces.length := by
        cases ha : a.isCoalescable with
        | true =>
          rw [pieces_join hjoin ha, pieces_delta ((isCoalescable_of_join hjoin).trans ha)]
          simp
        | false =>
          rw [pieces_whole (hgrown.isCoalescable.trans ha), pieces_whole ha]
          simp
      dsimp only
      omega
    | none =>
      have hrest := @ih event
      have hsplit : conversationPieces (a :: mergeFrom rule.join event events) =
          a.pieces ++ conversationPieces (mergeFrom rule.join event events) :=
        List.flatMap_cons
      dsimp only
      rw [hsplit, List.length_append]
      omega

theorem pieces_mergeFrom (hgrown : Grown first a) :
    conversationPieces (mergeFrom rule.join a events) = a.pieces ++ conversationPieces events ↔
      rule.UnmixedFrom first events := by
  induction events generalizing first a with
  | nil => simp [mergeFrom, conversationPieces, UnmixedFrom]
  | cons event events ih =>
    have hcons : conversationPieces (event :: events) =
        event.pieces ++ conversationPieces events := List.flatMap_cons
    rw [mergeFrom, UnmixedFrom, ← hgrown.joins, hcons]
    cases hjoin : rule.join a event with
    | none =>
      have hsplit : conversationPieces (a :: mergeFrom rule.join event events) =
          a.pieces ++ conversationPieces (mergeFrom rule.join event events) :=
        List.flatMap_cons
      rw [Option.isSome_none, if_neg Bool.false_ne_true]
      dsimp only
      rw [hsplit, List.append_cancel_left_eq]
      exact ih (.refl event)
    | some joined =>
      have hjoined := grown_of_join hjoin
      rw [Option.isSome_some, if_pos rfl, ← hgrown.isCoalescable, ← hgrown.thread,
        ← ih (hgrown.trans hjoined)]
      dsimp only
      cases ha : a.isCoalescable with
      | false =>
        -- two events that are no deltas become one
        have hlength := @length_pieces_le rule joined events
        rw [pieces_whole (hjoined.isCoalescable.trans ha)] at hlength
        rw [pieces_whole ha, pieces_whole ((isCoalescable_of_join hjoin).trans ha)]
        constructor
        · intro h
          rw [h, List.length_append, List.length_append, List.length_singleton,
            List.length_singleton, List.length_singleton] at hlength
          omega
        · rintro ⟨⟨htrue, -⟩, -⟩
          contradiction
      | true =>
        have hevent := pieces_delta ((isCoalescable_of_join hjoin).trans ha)
        obtain ⟨more, hmore⟩ := @pieces_front rule joined events
          (hjoined.isCoalescable.trans ha)
        rw [hmore, pieces_join hjoin ha, hevent]
        constructor
        · intro h
          rw [List.append_assoc, List.append_cancel_left_eq] at h
          obtain ⟨hmap, hrest⟩ := List.append_inj h (by simp)
          refine ⟨⟨rfl, ?_⟩, by rw [hrest]⟩
          cases htext : event.payload.text.toList with
          | nil => exact .inl (String.toList_eq_nil_iff.mp htext)
          | cons =>
            rw [htext, List.map_cons, List.map_cons] at hmap
            have hstream := (StreamPiece.char.inj (List.cons.inj hmap).1).1
            exact .inr (congrArg PieceStream.thread hstream).symm
        · rintro ⟨⟨-, hsame⟩, hrest⟩
          rw [List.append_cancel_left hrest, List.append_assoc]
          rcases hsame with htext | hthread
          · rw [htext]
            rfl
          · rw [stream_of_join hjoin hthread]

theorem plainText_cons (a : StreamEvent) (events : List StreamEvent) :
    plainText (a :: events) = a.payload.text.toList ++ plainText events :=
  List.flatMap_cons

theorem plainText_mergeFrom :
    plainText (mergeFrom rule.join a events) = plainText (a :: events) := by
  induction events generalizing a with
  | nil => rfl
  | cons event events ih =>
    rw [mergeFrom, plainText_cons, plainText_cons]
    cases hjoin : rule.join a event with
    | some =>
      dsimp only
      rw [ih, plainText_cons, text_of_join hjoin, String.toList_append, List.append_assoc]
    | none =>
      dsimp only
      rw [plainText_cons, ih, plainText_cons]

theorem plainText_merge : plainText (mergeNeighbours rule.join events) = plainText events := by
  cases events with
  | nil => rfl
  | cons =>
    rw [mergeNeighbours_cons]
    exact plainText_mergeFrom

def visibleText (events : List StreamEvent) : List Char :=
  plainText (events.filter conversationEventVisible)

theorem visibleText_cons (a : StreamEvent) (events : List StreamEvent) :
    visibleText (a :: events) =
      (if conversationEventVisible a then a.payload.text.toList else []) ++ visibleText events := by
  unfold visibleText
  rw [List.filter_cons]
  split
  · rw [plainText_cons]
  · rfl

theorem visible_of_join (h : rule.join a b = some c) (ha : a.isCoalescable = true)
    (hthread : b.thread = a.thread) :
    conversationEventVisible b = conversationEventVisible a := by
  obtain ⟨hkey, -, -⟩ := (rule.joins_iff a b).1 (by rw [h]; rfl)
  have htype : a.type = b.type := congrArg StreamKey.type hkey
  have hturn : a.turnId = b.turnId := congrArg StreamKey.turnId hkey
  have hdelta : a.type = .textDelta ∨ a.type = .thinkingDelta := by
    simp only [StreamEvent.isCoalescable, Bool.and_eq_true, Bool.or_eq_true,
      decide_eq_true_eq] at ha
    exact ha.1
  have hstatus : ¬ b.type = .status := by
    rw [← htype]
    rcases hdelta with ht | ht <;> rw [ht] <;> decide
  have hcontrol : b.isControl = a.isControl := by
    rw [StreamEvent.isControl, ← htype]
    rfl
  have hprocess : b.isProcess = a.isProcess := by
    rw [StreamEvent.isProcess, ← htype]
    rfl
  rw [conversationEventVisible, conversationEventVisible, hcontrol, hprocess, hthread, hturn,
    htype]
  simp [hstatus]

theorem visibleText_mergeFrom (hgrown : Grown first a) (h : rule.UnmixedFrom first events) :
    visibleText (mergeFrom rule.join a events) = visibleText (a :: events) := by
  induction events generalizing first a with
  | nil => rfl
  | cons event events ih =>
    rw [UnmixedFrom, ← hgrown.joins] at h
    rw [mergeFrom, visibleText_cons, visibleText_cons]
    cases hjoin : rule.join a event with
    | some =>
      have hjoined := grown_of_join hjoin
      rw [hjoin, Option.isSome_some, if_pos rfl, ← hgrown.isCoalescable, ← hgrown.thread] at h
      obtain ⟨⟨ha, hsame⟩, hrest⟩ := h
      dsimp only
      rw [ih (hgrown.trans hjoined) hrest, visibleText_cons, hjoined.visible,
        text_of_join hjoin, String.toList_append]
      rcases hsame with htext | hthread
      · rw [htext]
        simp
      · rw [visible_of_join hjoin ha hthread]
        split <;> simp
    | none =>
      rw [hjoin, Option.isSome_none, if_neg Bool.false_ne_true] at h
      dsimp only
      rw [visibleText_cons, ih (.refl event) h, visibleText_cons]

/-- Merging keeps the text of every stream and the order with all other events, what is visible
can be merged before or after, and lists can be merged in parts. -/
structure MergesExactly (merge : List StreamEvent → List StreamEvent)
    (events : List StreamEvent) : Prop where
  pieces : conversationPieces (merge events) = conversationPieces events
  visible : plainText ((merge events).filter conversationEventVisible) =
    plainText (merge (events.filter conversationEventVisible))
  idem : merge (merge events) = merge events
  parts : ∀ front rest, events = front ++ rest → merge (merge front ++ rest) = merge events

theorem mergesExactly_iff :
    MergesExactly (mergeNeighbours rule.join) events ↔ rule.Unmixed events := by
  have hpieces : conversationPieces (mergeNeighbours rule.join events) =
      conversationPieces events ↔ rule.Unmixed events := by
    cases events with
    | nil => exact ⟨fun _ => trivial, fun _ => rfl⟩
    | cons a =>
      rw [mergeNeighbours_cons]
      exact pieces_mergeFrom (.refl a)
  constructor
  · intro h
    exact hpieces.1 h.pieces
  · intro h
    refine ⟨hpieces.2 h, ?_, mergeNeighbours_idem join_keep, ?_⟩
    · rw [plainText_merge]
      cases events with
      | nil => rfl
      | cons a =>
        rw [mergeNeighbours_cons]
        exact visibleText_mergeFrom (.refl a) h
    · rintro front rest rfl
      exact mergeNeighbours_append join_keep

end MergeRule

/-- `_collapse` and `compact_history_events` merge a list exactly if and only if what they merge
are deltas of one thread, or deltas without text. -/
theorem merging_exact_iff (events : List StreamEvent) :
    (MergeRule.MergesExactly collapse events ↔ collapseRule.Unmixed events) ∧
      (MergeRule.MergesExactly compactHistoryEvents events ↔ compactRule.Unmixed events) := by
  have hcollapse : collapse = mergeNeighbours collapseRule.join := funext collapse_eq
  have hcompact : compactHistoryEvents = mergeNeighbours compactRule.join :=
    funext compactHistoryEvents_eq
  rw [hcollapse, hcompact]
  exact ⟨MergeRule.mergesExactly_iff, MergeRule.mergesExactly_iff⟩

private def threadsOutsideTurn : List StreamEvent :=
  [{ type := .textDelta, payload := { text := "a", subagentThread := some "toolu_1" } },
    { type := .textDelta, payload := { text := "b" } }]

theorem merging_mixes_threads :
    ¬ MergeRule.MergesExactly collapse threadsOutsideTurn ∧
      ¬ MergeRule.MergesExactly compactHistoryEvents threadsOutsideTurn := by
  have hcollapse : conversationPieces (collapse threadsOutsideTurn) ≠
      conversationPieces threadsOutsideTurn := by decide +kernel
  have hcompact : conversationPieces (compactHistoryEvents threadsOutsideTurn) ≠
      conversationPieces threadsOutsideTurn := by decide +kernel
  exact ⟨fun h => hcollapse h.pieces, fun h => hcompact h.pieces⟩

/-- Whatever the threads are, no text is lost or reordered as a whole, a list that is merged
already stays as it is, and a list can be merged in parts. -/
theorem merging_keeps_text (merge : List StreamEvent → List StreamEvent)
    (hmerge : merge = collapse ∨ merge = compactHistoryEvents) (events rest : List StreamEvent) :
    plainText (merge events) = plainText events ∧ merge (merge events) = merge events ∧
      merge (merge events ++ rest) = merge (events ++ rest) := by
  have hrule : ∃ rule : MergeRule, merge = mergeNeighbours rule.join := by
    rcases hmerge with rfl | rfl
    · exact ⟨collapseRule, funext collapse_eq⟩
    · exact ⟨compactRule, funext compactHistoryEvents_eq⟩
  obtain ⟨rule, rfl⟩ := hrule
  exact ⟨MergeRule.plainText_merge, mergeNeighbours_idem MergeRule.join_keep,
    mergeNeighbours_append MergeRule.join_keep⟩

theorem merging_keeps_text_threads :
    plainText (compactHistoryEvents threadsOutsideTurn) = ['a', 'b'] :=
  (merging_keeps_text compactHistoryEvents (.inr rfl) threadsOutsideTurn []).1

end ClaudeHub
