import ClaudeHub.AgentStream.Log
import ClaudeHub.Lib.Table

/-! # Paged reads of the event log

A store keeps, beside its file, positions from which a read of later events can start. Rewriting
operations forget them. Positions count characters where the source counts bytes.
-/

namespace ClaudeHub

open Lines StepSystem

variable {β : Type}

structure ReadPage (β : Type) where
  events : List (AgentStreamEvent β)
  nextSequence : Int
  hasMore : Bool
  deriving DecidableEq

/-- A store with its sparse index; `inode` is that of the file. -/
structure IndexedStore where
  store : AgentStreamStore := {}
  inode : Nat := 0
  readOffsets : Dict Int Nat := Dict.set Table.empty (-1) 0
  readInode : Option Nat := none
  deriving DecidableEq

/-- What the loop of `_read` has found so far. -/
structure ReadState (β : Type) where
  events : List (AgentStreamEvent β) := []
  nextSeq : Int
  nextOffset : Nat
  hasMore : Bool := false
  readOffsets : Dict Int Nat

def ReadState.page (state : ReadState β) : ReadPage β :=
  ⟨state.events, state.nextSeq, state.hasMore⟩

def readIndexStride : Int := 256

def rememberReadOffset (offsets : Dict Int Nat) (sequence : Int) (offset : Nat) (force : Bool) :
    Dict Int Nat :=
  if sequence < 0 then offsets
  else if force || sequence % readIndexStride = 0 then offsets.set sequence offset
  else offsets

/-- The loop of `_read` from a position on -/
def readLoop (codec : LineCodec β) (sinceSequence : Int) (limit : Nat) :
    List (List Char) → Nat → ReadState β → ReadState β
  | [], _, state => state
  | line :: lines, offset, state =>
    let afterOffset := offset + line.length
    match codec.parseLine line with
    | none => readLoop codec sinceSequence limit lines afterOffset state
    | some event =>
      let state := { state with
        readOffsets :=
          rememberReadOffset state.readOffsets event.streamSequence afterOffset false }
      if (event.streamSequence : Int) ≤ sinceSequence then
        readLoop codec sinceSequence limit lines afterOffset state
      else if limit ≤ state.events.length then { state with hasMore := true }
      else
        let state := { state with events := state.events ++ [event] }
        readLoop codec sinceSequence limit lines afterOffset
          (if state.nextSeq < (event.streamSequence : Int) then
            { state with nextSeq := event.streamSequence, nextOffset := afterOffset }
          else state)

/-- `read_since` without an index: the whole file from position 0 -/
def scanSince (codec : LineCodec β) (text : List Char) (sinceSequence : Int) (limit : Nat) :
    ReadPage β :=
  (readLoop codec sinceSequence (max limit 1) (readlines text) 0
    { nextSeq := sinceSequence, nextOffset := 0, readOffsets := Table.empty }).page

namespace IndexedStore

def resetReadIndex (s : IndexedStore) : IndexedStore :=
  { s with readOffsets := Dict.set Table.empty (-1) 0, readInode := none }

/-- `_prepare_read_index`, for a file that exists -/
def prepareReadIndex (s : IndexedStore) : IndexedStore :=
  let furthestOffset := (s.readOffsets.rows.map Prod.snd).foldl max 0
  let s := if (s.readInode ≠ none ∧ s.readInode ≠ some s.inode) ∨
      s.store.text.length < furthestOffset then s.resetReadIndex else s
  { s with readInode := some s.inode }

/-- `_nearest_read_offset`; without a value the index has lost its start -/
def nearestReadOffset (s : IndexedStore) (sinceSequence : Int) : Option (Int × Nat) :=
  let checkpoint :=
    ((s.readOffsets.rows.map Prod.fst).filter (· ≤ sinceSequence)).max?.getD (-1)
  (s.readOffsets.lookup checkpoint).map fun offset => (checkpoint, offset)

def readSince (codec : LineCodec β) (s : IndexedStore) (sinceSequence : Int) (limit : Nat) :
    Option (IndexedStore × ReadPage β) :=
  let limit := max limit 1
  match s.store.file with
  | none => some (s, ⟨[], sinceSequence, false⟩)
  | some text =>
    let s := s.prepareReadIndex
    (s.nearestReadOffset sinceSequence).map fun (_, startOffset) =>
      let state := readLoop codec sinceSequence limit (readlines (text.drop startOffset))
        startOffset
        { nextSeq := sinceSequence, nextOffset := startOffset, readOffsets := s.readOffsets }
      ({ s with
        readOffsets := rememberReadOffset state.readOffsets state.nextSeq state.nextOffset true },
        state.page)

def openedInode (s : IndexedStore) (created : Nat) : Nat :=
  if s.store.file.isSome then s.inode else created

end IndexedStore

/-- The operations of one store; `created` is the inode of a file that the operation creates. -/
inductive IndexedOp (β : Type)
  | append (fields : β) (created : Nat)
  | replaceAll (events : List β) (created : Nat)
  | truncateBefore (sequence : Nat)
  | snapshot
  | restore (created : Nat)
  | clear
  | readSince (sinceSequence : Int) (limit : Nat)

namespace IndexedStore

def step (codec : LineCodec β) (s : IndexedStore) : IndexedOp β → Option IndexedStore
  | .append fields created =>
    some { s with store := (s.store.append codec fields).1, inode := s.openedInode created }
  | .replaceAll events created =>
    some { s with
      store := s.store.replaceAll codec events
      inode := s.openedInode created }.resetReadIndex
  | .truncateBefore sequence =>
    let after := { s with store := s.store.truncateBefore codec sequence }
    some (if s.store.file.isSome then after.resetReadIndex else after)
  | .snapshot => some { s with store := s.store.snapshot }
  | .restore created =>
    if s.store.backup.isSome then
      some { s with
        store := s.store.restore, inode := s.openedInode created }.resetReadIndex
    else some s
  | .clear => some { s with store := s.store.clear }.resetReadIndex
  | .readSince sinceSequence limit => (s.readSince codec sinceSequence limit).map Prod.fst

end IndexedStore

variable {codec : LineCodec β} {s next : IndexedStore} {lines : List (List Char)}

theorem LineCodec.parseLine_newline (codec : LineCodec β) (line : List Char) :
    codec.parseLine (line ++ ['\n']) = codec.parseLine line := by
  rw [LineCodec.parseLine, LineCodec.parseLine, strip_newline]

def laterEvents (codec : LineCodec β) (lines : List (List Char)) (sinceSequence : Int) :
    List (AgentStreamEvent β) :=
  (lines.filterMap codec.parseLine).filter fun event =>
    sinceSequence < (event.streamSequence : Int)

def cursorBehind (sinceSequence : Int) (events : List (AgentStreamEvent β)) : Int :=
  events.foldl (fun cursor event => max cursor event.streamSequence) sinceSequence

def pageOf (later : List (AgentStreamEvent β)) (sinceSequence : Int) (limit : Nat) : ReadPage β where
  events := later.take limit
  nextSequence := cursorBehind sinceSequence (later.take limit)
  hasMore := decide (limit < later.length)

theorem readLoop_page {sinceSequence : Int} {limit offset : Nat} {state : ReadState β}
    (hroom : state.events.length ≤ limit) (hmore : state.hasMore = false) :
    (readLoop codec sinceSequence limit (lines.map fun line => line ++ ['\n']) offset state).page =
      ⟨state.events ++ (laterEvents codec lines sinceSequence).take (limit - state.events.length),
        cursorBehind state.nextSeq
          ((laterEvents codec lines sinceSequence).take (limit - state.events.length)),
        decide (limit < state.events.length + (laterEvents codec lines sinceSequence).length)⟩ := by
  induction lines generalizing offset state with
  | nil =>
    rw [List.map_nil, readLoop]
    have hnot : ¬ limit < state.events.length := by omega
    simp [laterEvents, ReadState.page, cursorBehind, hmore, hnot]
  | cons line lines ih =>
    rw [List.map_cons, readLoop, codec.parseLine_newline]
    cases hparse : codec.parseLine line with
    | none =>
      dsimp only
      rw [ih hroom hmore, laterEvents, laterEvents, List.filterMap_cons_none hparse]
    | some event =>
      have hlater : laterEvents codec (line :: lines) sinceSequence =
          if sinceSequence < (event.streamSequence : Int) then
            event :: laterEvents codec lines sinceSequence
          else laterEvents codec lines sinceSequence := by
        rw [laterEvents, List.filterMap_cons_some hparse, List.filter_cons]
        simp [laterEvents]
      dsimp only
      by_cases hle : (event.streamSequence : Int) ≤ sinceSequence
      · have hnot : ¬ sinceSequence < (event.streamSequence : Int) := by omega
        rw [if_pos hle, hlater, if_neg hnot]
        exact ih hroom hmore
      · have hlt : sinceSequence < (event.streamSequence : Int) := by omega
        rw [if_neg hle, hlater, if_pos hlt]
        by_cases hfull : limit ≤ state.events.length
        · rw [if_pos hfull]
          have hzero : limit - state.events.length = 0 := by omega
          rw [hzero]
          simp [ReadState.page, cursorBehind]
          omega
        · rw [if_neg hfull]
          obtain ⟨k, hk⟩ : ∃ k, limit - state.events.length = k + 1 :=
            ⟨limit - state.events.length - 1, by omega⟩
          generalize hafter : (if state.nextSeq < (event.streamSequence : Int) then _ else _ :
            ReadState β) = after
          have hevents : after.events = state.events ++ [event] := by
            rw [← hafter]
            split <;> rfl
          have hmore' : after.hasMore = false := by
            rw [← hafter]
            split <;> exact hmore
          have hnext : after.nextSeq = max state.nextSeq event.streamSequence := by
            rw [← hafter]
            split
            · dsimp only
              omega
            · dsimp only
              omega
          have hlength : after.events.length = state.events.length + 1 := by
            rw [hevents, List.length_append, List.length_singleton]
          have hroom' : after.events.length ≤ limit := by omega
          have hk' : limit - after.events.length = k := by omega
          rw [ih hroom' hmore', hk', hk, hnext, hlength, hevents, List.take_succ_cons]
          simp [cursorBehind, Nat.add_assoc, Nat.add_comm 1]

/-- The position is behind some first lines, none of which holds an event later than the cursor. -/
def Safe (codec : LineCodec β) (lines : List (List Char)) (sequence : Int) (offset : Nat) : Prop :=
  ∃ k, offset = (joinLines (lines.take k)).length ∧
    ∀ event ∈ (lines.take k).filterMap codec.parseLine, (event.streamSequence : Int) ≤ sequence

theorem Safe.mono {sequence later : Int} {offset : Nat} (h : Safe codec lines sequence offset)
    (hle : sequence ≤ later) : Safe codec lines later offset := by
  obtain ⟨k, hk, hevents⟩ := h
  exact ⟨k, hk, fun event hevent => Int.le_trans (hevents event hevent) hle⟩

theorem safe_start (codec : LineCodec β) (lines : List (List Char)) (sequence : Int) :
    Safe codec lines sequence 0 :=
  ⟨0, rfl, by simp⟩

theorem Safe.append {sequence : Int} {offset : Nat} (h : Safe codec lines sequence offset)
    (more : List (List Char)) : Safe codec (lines ++ more) sequence offset := by
  obtain ⟨k, hk, hevents⟩ := h
  refine ⟨min k lines.length, ?_, ?_⟩
  · rw [hk, List.take_append_of_le_length (Nat.min_le_right ..)]
    congr 2
    rw [List.take_eq_take_iff, Nat.min_assoc, Nat.min_self]
  · intro event hevent
    rw [List.take_append_of_le_length (Nat.min_le_right ..)] at hevent
    have htake : lines.take (min k lines.length) = lines.take k := by
      rw [List.take_eq_take_iff, Nat.min_assoc, Nat.min_self]
    rw [htake] at hevent
    exact hevents event hevent

def SafeOffsets (codec : LineCodec β) (lines : List (List Char)) (offsets : Dict Int Nat) : Prop :=
  ∀ entry ∈ offsets.rows, Safe codec lines entry.1 entry.2

theorem SafeOffsets.remember {offsets : Dict Int Nat} {sequence : Int} {offset : Nat}
    {force : Bool} (h : SafeOffsets codec lines offsets) (hsafe : Safe codec lines sequence offset) :
    SafeOffsets codec lines (rememberReadOffset offsets sequence offset force) := by
  unfold rememberReadOffset
  split
  · exact h
  · split
    · intro entry hentry
      rcases Table.mem_insert.1 hentry with rfl | ⟨hold, -⟩
      · exact hsafe
      · exact h entry hold
    · exact h

theorem mem_remember {offsets : Dict Int Nat} {sequence : Int} {offset : Nat} {force : Bool}
    (h : (offsets.lookup (-1)).isSome = true) :
    ((rememberReadOffset offsets sequence offset force).lookup (-1)).isSome = true := by
  unfold rememberReadOffset
  split
  · exact h
  · split
    · rw [Dict.lookup_set]
      split
      · rfl
      · exact h
    · exact h

def Increasing (codec : LineCodec β) (lines : List (List Char)) : Prop :=
  (lines.filterMap codec.parseLine).Pairwise fun a b => a.streamSequence < b.streamSequence

theorem Increasing.safe {front rest : List (List Char)} {line : List Char}
    {event : AgentStreamEvent β} (h : Increasing codec (front ++ line :: rest))
    (hparse : codec.parseLine line = some event) :
    Safe codec (front ++ line :: rest) event.streamSequence
      ((joinLines front).length + (line ++ ['\n']).length) := by
  refine ⟨front.length + 1, ?_, ?_⟩
  · rw [List.take_length_add_append, List.take_succ_cons, List.take_zero, joinLines_append,
      joinLines_cons, joinLines_nil, @List.length_append _ (joinLines front)]
  · intro earlier hearlier
    rw [List.take_length_add_append, List.take_succ_cons, List.take_zero, List.filterMap_append,
      List.filterMap_cons_some hparse, List.filterMap_nil] at hearlier
    rcases List.mem_append.mp hearlier with hfront | hline
    · rw [Increasing, List.filterMap_append, List.filterMap_cons_some hparse,
        List.pairwise_append] at h
      have hlt := h.2.2 earlier hfront event (List.mem_cons_self ..)
      omega
    · have heq : earlier = event := List.mem_singleton.mp hline
      subst heq
      exact Int.le_refl _

theorem readLoop_safe {sinceSequence : Int} {limit : Nat} {front : List (List Char)}
    {state : ReadState β} (hincreasing : Increasing codec (front ++ lines))
    (hoffsets : SafeOffsets codec (front ++ lines) state.readOffsets)
    (hstart : (state.readOffsets.lookup (-1)).isSome = true)
    (hnext : Safe codec (front ++ lines) state.nextSeq state.nextOffset) :
    let after := readLoop codec sinceSequence limit (lines.map fun line => line ++ ['\n'])
      (joinLines front).length state
    SafeOffsets codec (front ++ lines) after.readOffsets ∧
      (after.readOffsets.lookup (-1)).isSome = true ∧
      Safe codec (front ++ lines) after.nextSeq after.nextOffset := by
  induction lines generalizing front state with
  | nil => exact ⟨hoffsets, hstart, hnext⟩
  | cons line lines ih =>
    have hfront : (joinLines (front ++ [line])).length =
        (joinLines front).length + (line ++ ['\n']).length := by
      rw [joinLines_append, joinLines_cons, joinLines_nil, List.length_append]
    have hsplit : front ++ line :: lines = (front ++ [line]) ++ lines := by simp
    dsimp only
    rw [List.map_cons, readLoop, codec.parseLine_newline]
    cases hparse : codec.parseLine line with
    | none =>
      dsimp only
      rw [← hfront]
      rw [hsplit] at hincreasing hoffsets hnext ⊢
      exact ih hincreasing hoffsets hstart hnext
    | some event =>
      have hsafe := hincreasing.safe hparse
      have hremembered := @SafeOffsets.remember _ codec _ _ _ _ false hoffsets hsafe
      have hstart' := @mem_remember _ event.streamSequence
        ((joinLines front).length + (line ++ ['\n']).length) false hstart
      dsimp only
      rw [← hfront] at hsafe hremembered hstart' ⊢
      rw [hsplit] at hincreasing hremembered hnext hsafe ⊢
      split
      · exact ih hincreasing hremembered hstart' hnext
      · split
        · exact ⟨hremembered, hstart', hnext⟩
        · split
          · exact ih hincreasing hremembered hstart' hsafe
          · exact ih hincreasing hremembered hstart' hnext

end ClaudeHub
