import ClaudeHub.AgentStream.History
import ClaudeHub.Lib.Runs
import Mathlib.Data.Int.Order.Basic
import Mathlib.Data.List.Forall2

/-! # A history index of a file that grows

What an index has after a refresh depends on the file alone, so the pages read through it are those
of an index made of the whole file. Pages that follow each other while the file grows are then all
there is to read, once and in order.
-/

namespace ClaudeHub

open Lines Paging StepSystem

namespace HistoryEvent

/-- The event is seen in a conversation that these events precede: it is visible, and no replay of
a tool that an event before it gave a turn. -/
def isShown (before : List HistoryEvent) (event : HistoryEvent) : Bool :=
  conversationEventVisible event.event && !(event.turn.isNone &&
    (replayToolIdentity event).any fun identity => before.any fun other =>
      other.turn.isSome && replayToolIdentity other == some identity)

end HistoryEvent

/-- An event counts if its number is larger than the one before. -/
def recordOne (events : List HistoryEvent) (event : HistoryEvent) : List HistoryEvent :=
  if event.streamSequence < 0 ∨
      events.getLast?.any (fun last => event.streamSequence ≤ last.streamSequence) then events
  else events ++ [event]

def shownFrom (before : List HistoryEvent) : List HistoryEvent → List HistoryEvent
  | [] => []
  | event :: events =>
    (if event.isShown before then [event] else []) ++ shownFrom (before ++ [event]) events

section Events

variable (validate : List UInt8 → Option HistoryEvent)

def loggedEvents (bytes : List UInt8) : List HistoryEvent :=
  ((completeLines lineEnd bytes).filterMap validate).foldl recordOne []

def conversationOf (bytes : List UInt8) : List HistoryEvent :=
  shownFrom [] (loggedEvents validate bytes)

def turnThrough (bytes : List UInt8) (turnId : String) (through : Int) : List HistoryEvent :=
  (loggedEvents validate bytes).filter fun event =>
    event.turn = some turnId && decide (event.streamSequence ≤ through)

end Events

theorem shownFrom_append (before events more : List HistoryEvent) :
    shownFrom before (events ++ more) =
      shownFrom before events ++ shownFrom (before ++ events) more := by
  induction events generalizing before with
  | nil => rw [List.nil_append, List.append_nil, shownFrom, List.nil_append]
  | cons event events ih =>
    rw [List.cons_append, shownFrom, shownFrom, ih, List.append_assoc, List.append_assoc]
    rfl

theorem recordOne_front (events : List HistoryEvent) (event : HistoryEvent) :
    events <+: recordOne events event := by
  rw [recordOne]
  split
  · exact List.prefix_rfl
  · exact List.prefix_append _ _

theorem foldl_recordOne_front (events more : List HistoryEvent) :
    events <+: more.foldl recordOne events := by
  induction more generalizing events with
  | nil => exact List.prefix_rfl
  | cons event more ih => exact (recordOne_front events event).trans (ih _)

/-! ## What an index holds -/

/-- The row is that of the event, which can be read again from where the row says. -/
structure StandsFor (validate : List UInt8 → Option HistoryEvent) (bytes : List UInt8)
    (row : HistoryRow) (event : HistoryEvent) : Prop where
  sequence : row.sequence = event.streamSequence
  turnId : row.turnId = event.event.turnId
  reads : validate ((bytes.drop row.offset).take row.length) = some event

/-- The rows of one turn. -/
structure TurnOf (rows : List HistoryRow) (turnId : String) (turn : TurnRows) : Prop where
  indices : turn.indices.map (fun index => rows[index]?) =
    (rows.filter fun row => row.turn = some turnId).map some
  sequences : turn.sequences =
    (rows.filter fun row => row.turn = some turnId).map HistoryRow.sequence

/-- An index has these events of a file. -/
structure Indexes (validate : List UInt8 → Option HistoryEvent) (bytes : List UInt8)
    (index : HistoryRows) (events : List HistoryEvent) : Prop where
  rows : List.Forall₂ (StandsFor validate bytes) index.rows events
  sequences : index.sequences = index.rows.map HistoryRow.sequence
  ordered : Ordered HistoryRow.sequence index.rows
  nonneg : ∀ event ∈ events, 0 ≤ event.streamSequence
  visible : index.rows.filterMap HistoryRow.visible = shownFrom [] events
  attributed : ∀ identity, identity ∈ index.attributedToolIds ↔
    ∃ event ∈ events, event.turn.isSome ∧ replayToolIdentity event = some identity
  turns : ∀ turnId, TurnOf index.rows turnId ((index.turns.lookup turnId).getD {})

section Indexing

variable {validate : List UInt8 → Option HistoryEvent} {bytes line : List UInt8}
  {index : HistoryRows} {events : List HistoryEvent} {event : HistoryEvent}

theorem indexes_start : Indexes validate bytes {} [] where
  rows := List.Forall₂.nil
  sequences := rfl
  ordered := List.Pairwise.nil
  nonneg := fun event hevent => absurd hevent List.not_mem_nil
  visible := rfl
  attributed := fun identity => by simp
  turns := fun turnId => ⟨rfl, rfl⟩

theorem map_sequence_eq {rows : List HistoryRow}
    (h : List.Forall₂ (StandsFor validate bytes) rows events) :
    rows.map HistoryRow.sequence = events.map HistoryEvent.streamSequence := by
  induction h with
  | nil => rfl
  | cons hrow _ ih => rw [List.map_cons, List.map_cons, hrow.sequence, ih]

theorem TurnOf.snoc {rows : List HistoryRow} {turnId : String} {turn : TurnRows}
    (h : TurnOf rows turnId turn) (row : HistoryRow) :
    TurnOf (rows ++ [row]) turnId
      (if row.turn = some turnId then turn.add rows.length row else turn) := by
  have hold : turn.indices.map (fun index => (rows ++ [row])[index]?) =
      turn.indices.map fun index => rows[index]? := by
    apply List.map_congr_left
    intro i hi
    have hmem := List.mem_map_of_mem (f := fun index => rows[index]?) hi
    rw [h.indices, List.mem_map] at hmem
    obtain ⟨found, -, hfound⟩ := hmem
    have hlt := (List.getElem?_eq_some_iff.mp hfound.symm).1
    exact List.getElem?_append_left hlt
  by_cases hturn : row.turn = some turnId
  · rw [if_pos hturn]
    constructor
    · simp only [TurnRows.add, List.map_append, List.map_cons, List.map_nil, hold, h.indices,
        List.filter_append, List.filter_singleton, hturn, decide_true, cond_true,
        List.getElem?_concat_length]
    · simp only [TurnRows.add, h.sequences, List.filter_append, List.filter_singleton, hturn,
        decide_true, cond_true, List.map_append, List.map_cons, List.map_nil]
  · rw [if_neg hturn]
    constructor
    · simp only [hold, h.indices, List.filter_append, List.filter_singleton, hturn, decide_false,
        cond_false, List.append_nil]
    · simp only [h.sequences, List.filter_append, List.filter_singleton, hturn, decide_false,
        cond_false, List.append_nil]

theorem lookup_addRow (index : HistoryRows) (row : HistoryRow) (turnId : String) :
    ((index.addRow row).turns.lookup turnId).getD {} =
      if row.turn = some turnId then
        ((index.turns.lookup turnId).getD {}).add index.rows.length row
      else (index.turns.lookup turnId).getD {} := by
  rw [HistoryRows.addRow]
  cases hturn : row.turn with
  | none => simp
  | some other =>
    simp only [Dict.lookup_set, Option.some.injEq]
    by_cases heq : turnId = other
    · rw [if_pos heq, if_pos heq.symm, heq]
      rfl
    · rw [if_neg heq, if_neg fun h => heq h.symm]

theorem Indexes.visible_rowOf (h : Indexes validate bytes index events) (offset length : Nat) :
    (index.rowOf event offset length).visible = if event.isShown events then some event else none := by
  have hreplay : (replayToolIdentity event).any (· ∈ index.attributedToolIds) =
      (replayToolIdentity event).any fun identity => events.any fun other =>
        other.turn.isSome && replayToolIdentity other == some identity := by
    cases replayToolIdentity event with
    | none => rfl
    | some identity =>
      rw [Option.any_some, Option.any_some, Bool.eq_iff_iff, decide_eq_true_iff,
        h.attributed identity, List.any_eq_true]
      simp
  simp only [HistoryRows.rowOf, HistoryEvent.isShown, hreplay]
  congr 1
  cases event.turn <;> simp

theorem Indexes.addRow (h : Indexes validate bytes index events) {offset length : Nat}
    (hreads : validate ((bytes.drop offset).take length) = some event)
    (hnonneg : 0 ≤ event.streamSequence)
    (hlater : ∀ row ∈ index.rows, row.sequence < event.streamSequence) :
    Indexes validate bytes (index.addRow (index.rowOf event offset length)) (events ++ [event]) where
  rows := List.rel_append h.rows (List.Forall₂.cons ⟨rfl, rfl, hreads⟩ List.Forall₂.nil)
  sequences := by simp [HistoryRows.addRow, h.sequences]
  ordered := by
    refine List.pairwise_append.mpr ⟨h.ordered, List.pairwise_singleton _ _, ?_⟩
    intro row hrow other hother
    rw [List.mem_singleton.mp hother]
    exact hlater row hrow
  nonneg := by
    intro other hother
    rcases List.mem_append.mp hother with hold | hnew
    · exact h.nonneg other hold
    · rw [List.mem_singleton.mp hnew]
      exact hnonneg
  visible := by
    rw [HistoryRows.addRow, List.filterMap_append, h.visible, shownFrom_append, List.nil_append]
    congr 1
    rw [List.filterMap_cons, h.visible_rowOf, shownFrom]
    cases event.isShown events <;> rfl
  attributed := by
    intro identity
    have hold := h.attributed identity
    have hid : (index.rowOf event offset length).attributedToolId =
        if event.turn.isSome then replayToolIdentity event else none := rfl
    simp only [HistoryRows.addRow, hid, List.mem_append, List.mem_singleton, or_and_right,
      exists_or, exists_eq_left, ← hold]
    cases event.turn with
    | none => simp
    | some =>
      cases replayToolIdentity event with
      | none => simp
      | some =>
        simp only [Option.isSome_some, ↓reduceIte, List.mem_insert_iff, Option.some.injEq,
          true_and]
        rw [or_comm, eq_comm]
  turns := by
    intro turnId
    rw [lookup_addRow]
    exact (h.turns turnId).snoc _

theorem Indexes.withOffset (h : Indexes validate bytes index events) (offset : Nat) :
    Indexes validate bytes { index with offset := offset } events :=
  { h with }

theorem Indexes.lt_of_last (h : Indexes validate bytes index events)
    (hlast : index.sequences.getLast?.any (event.streamSequence ≤ ·) = false) :
    ∀ row ∈ index.rows, row.sequence < event.streamSequence := by
  intro row hrow
  have hordered := h.ordered
  rw [h.sequences] at hlast
  rcases List.eq_nil_or_concat index.rows with hnil | ⟨front, last, hconcat⟩
  · rw [hnil] at hrow
    exact absurd hrow List.not_mem_nil
  · rw [hconcat, List.concat_eq_append] at hrow hordered hlast
    have hlt : last.sequence < event.streamSequence := by
      simpa using hlast
    rcases List.mem_append.mp hrow with hfront | hin
    · have hbefore := (List.pairwise_append.mp hordered).2.2 row hfront last List.mem_cons_self
      exact hbefore.trans hlt
    · rw [List.mem_singleton.mp hin]
      exact hlt

theorem Indexes.indexLine (h : Indexes validate bytes index events) {offset : Nat}
    (hline : (bytes.drop offset).take line.length = line) :
    Indexes validate bytes (index.indexLine validate line offset)
      ((validate line).elim events (recordOne events)) := by
  rw [HistoryRows.indexLine]
  cases hevent : validate line with
  | none => exact h
  | some event =>
    have hlast : index.sequences.getLast?.any (event.streamSequence ≤ ·) =
        events.getLast?.any fun last => event.streamSequence ≤ last.streamSequence := by
      rw [h.sequences, map_sequence_eq h.rows, List.getLast?_map, Option.any_map]
    simp only [Option.elim_some, recordOne]
    rw [← hlast]
    split
    · exact h
    · next hnew =>
        rw [not_or, Bool.not_eq_true] at hnew
        apply h.addRow
        · rw [hline, hevent]
        · omega
        · exact h.lt_of_last hnew.2

theorem Indexes.indexLines {lines : List (List UInt8)} {front tail : List UInt8}
    (h : Indexes validate bytes index events)
    (hcomplete : ∀ line ∈ lines, isComplete lineEnd line = true)
    (hbytes : bytes = front ++ (lines.flatten ++ tail)) (hoffset : index.offset = front.length) :
    Indexes validate bytes (index.indexLines validate lines)
      ((lines.filterMap validate).foldl recordOne events) := by
  induction lines generalizing index events front with
  | nil => exact h
  | cons line lines ih =>
    have hline : (bytes.drop index.offset).take line.length = line := by
      rw [hbytes, hoffset, List.drop_left, List.flatten_cons, List.append_assoc, List.take_left]
    have hrest : bytes = (front ++ line) ++ (lines.flatten ++ tail) := by
      rw [hbytes, List.flatten_cons, List.append_assoc, List.append_assoc]
    have hlength : index.offset + line.length = (front ++ line).length := by
      rw [hoffset, List.length_append]
    have hnext := ih ((h.indexLine hline).withOffset (index.offset + line.length))
      (fun other hother => hcomplete other (List.mem_cons_of_mem _ hother)) hrest hlength
    rw [HistoryRows.indexLines, if_pos (hcomplete line List.mem_cons_self)]
    rw [List.filterMap_cons]
    cases hevent : validate line with
    | none =>
      rw [hevent] at hnext
      exact hnext
    | some =>
      rw [hevent] at hnext
      exact hnext

end Indexing

namespace HistoryRows

variable {validate : List UInt8 → Option HistoryEvent} {index : HistoryRows}
  {lines : List (List UInt8)}

theorem offset_indexLines (hcomplete : ∀ line ∈ lines, isComplete lineEnd line = true) :
    (index.indexLines validate lines).offset = index.offset + lines.flatten.length := by
  induction lines generalizing index with
  | nil => rfl
  | cons line lines ih =>
    rw [indexLines, if_pos (hcomplete line List.mem_cons_self),
      ih fun other hother => hcomplete other (List.mem_cons_of_mem _ hother), List.flatten_cons,
      List.length_append, Nat.add_assoc]

theorem indexLines_append (hcomplete : ∀ line ∈ lines, isComplete lineEnd line = true)
    (more : List (List UInt8)) :
    index.indexLines validate (lines ++ more) =
      (index.indexLines validate lines).indexLines validate more := by
  induction lines generalizing index with
  | nil => rfl
  | cons line lines ih =>
    have hline := hcomplete line List.mem_cons_self
    rw [List.cons_append, indexLines, indexLines, if_pos hline, if_pos hline,
      ih fun other hother => hcomplete other (List.mem_cons_of_mem _ hother)]

theorem indexLines_complete (lines : List (List UInt8)) :
    index.indexLines validate lines =
      index.indexLines validate (lines.takeWhile (isComplete lineEnd)) := by
  induction lines generalizing index with
  | nil => rfl
  | cons line lines ih =>
    rw [List.takeWhile_cons]
    cases hline : isComplete lineEnd line with
    | false => rw [indexLines, hline, if_neg Bool.false_ne_true, if_neg Bool.false_ne_true, indexLines]
    | true => rw [indexLines, hline, if_pos rfl, if_pos rfl, indexLines, hline, if_pos rfl, ih]

theorem rows_indexLines_front (lines : List (List UInt8)) :
    index.rows <+: (index.indexLines validate lines).rows := by
  induction lines generalizing index with
  | nil => exact List.prefix_rfl
  | cons line lines ih =>
    rw [indexLines]
    split
    · refine List.IsPrefix.trans ?_ ih
      rw [indexLine]
      cases validate line with
      | none => exact List.prefix_rfl
      | some =>
        dsimp only
        split
        · exact List.prefix_rfl
        · exact List.prefix_append _ _
    · exact List.prefix_rfl

end HistoryRows

section Whole

variable (validate : List UInt8 → Option HistoryEvent)

def rebuild (bytes : List UInt8) : HistoryRows :=
  HistoryRows.indexLines validate {} (keepends lineEnd bytes)

variable {validate} {bytes front : List UInt8}

theorem rebuild_append (h : front = [] ∨ isComplete lineEnd front = true) (rest : List UInt8) :
    rebuild validate (front ++ rest) =
      (rebuild validate front).indexLines validate (keepends lineEnd rest) := by
  rw [rebuild, keepends_append h, HistoryRows.indexLines_append (keepends_complete h)]
  rfl

theorem offset_rebuild (h : front = [] ∨ isComplete lineEnd front = true) :
    (rebuild validate front).offset = front.length := by
  rw [rebuild, HistoryRows.offset_indexLines (keepends_complete h), flatten_keepends]
  exact Nat.zero_add _

theorem rebuild_take (bytes : List UInt8) :
    (bytes.take (rebuild validate bytes).offset = [] ∨
      isComplete lineEnd (bytes.take (rebuild validate bytes).offset) = true) ∧
      rebuild validate (bytes.take (rebuild validate bytes).offset) = rebuild validate bytes ∧
      (bytes.take (rebuild validate bytes).offset).length = (rebuild validate bytes).offset := by
  obtain ⟨front, tail, rfl, hfront, htail⟩ := exists_complete_front lineEnd bytes
  have hsame : rebuild validate (front ++ tail) = rebuild validate front := by
    rw [rebuild_append hfront, HistoryRows.indexLines_complete]
    exact congrArg _ (completeLines_tail htail)
  rw [hsame, offset_rebuild hfront, List.take_left]
  exact ⟨hfront, rfl, rfl⟩

theorem rebuild_indexes (bytes : List UInt8) :
    Indexes validate bytes (rebuild validate bytes)
      (loggedEvents validate bytes) := by
  have hbytes := @List.takeWhile_append_dropWhile _ (isComplete lineEnd) (keepends lineEnd bytes)
  have hflatten := congrArg List.flatten hbytes
  rw [flatten_keepends, List.flatten_append] at hflatten
  have hfile : bytes = [] ++ ((completeLines lineEnd bytes).flatten ++ _) := hflatten.symm
  rw [rebuild, HistoryRows.indexLines_complete]
  exact indexes_start.indexLines (fun line hline => List.mem_takeWhile_imp hline) hfile rfl

theorem rows_rebuild_front {more : List UInt8} (h : bytes <+: more) :
    (rebuild validate bytes).rows <+: (rebuild validate more).rows := by
  obtain ⟨rest, rfl⟩ := h
  obtain ⟨front, tail, rfl, hfront, htail⟩ := exists_complete_front lineEnd bytes
  have hsame : rebuild validate (front ++ tail) = rebuild validate front := by
    rw [rebuild_append hfront, HistoryRows.indexLines_complete]
    exact congrArg _ (completeLines_tail htail)
  rw [hsame, List.append_assoc, rebuild_append hfront]
  exact HistoryRows.rows_indexLines_front _

theorem loggedEvents_front {more : List UInt8} (h : bytes <+: more) :
    loggedEvents validate bytes <+: loggedEvents validate more := by
  obtain ⟨rest, rfl⟩ := h
  obtain ⟨front, tail, rfl, hfront, htail⟩ := exists_complete_front lineEnd bytes
  rw [loggedEvents, loggedEvents, List.append_assoc, completeLines_append hfront,
    completeLines_append hfront, completeLines_tail htail, List.append_nil, List.filterMap_append,
    List.foldl_append]
  exact foldl_recordOne_front _ _

end Whole

/-! ## One page -/

section Pages

variable {α : Type} {key : α → Int} {found : α → List HistoryEvent} {rows : List α} {since : Int}
  {page : HistoryPage}

/-- The page has the events of some first rows behind the cursor: up to its next cursor when there
is more, and of all of them when there is not. -/
def PageOf (key : α → Int) (found : α → List HistoryEvent) (rows : List α) (since : Int)
    (page : HistoryPage) : Prop :=
  ∃ listed rest, behind key (some since) rows = listed ++ rest ∧
    page.events = listed.flatMap found ∧
    (page.hasMore = true → ∃ front row, listed = front ++ [row] ∧ page.nextSequence = key row) ∧
    (page.hasMore = false → rest = [])

theorem PageOf.progress (h : PageOf key found rows since page) (hmore : page.hasMore = true) :
    since < page.nextSequence := by
  obtain ⟨listed, rest, hbehind, -, hlast, -⟩ := h
  obtain ⟨front, row, rfl, hnext⟩ := hlast hmore
  have hmem : row ∈ behind key (some since) rows := by
    rw [hbehind]
    simp
  rw [hnext]
  exact of_decide_eq_true (mem_behind.1 hmem).2

theorem drop_bisectRight (hordered : Ordered key rows) (since : Int) :
    rows.drop (bisectRight (rows.map key) since) = behind key (some since) rows := by
  rw [bisectRight, List.findIdx_map]
  exact @drop_findIdx _ _ _ key (some since) rows hordered

theorem take_bisectRight (hordered : Ordered key rows) (through : Int) :
    rows.take (bisectRight (rows.map key) through) =
      rows.filter fun row => decide (key row ≤ through) := by
  have htake := @take_findIdx _ _ _ key (some through) rows hordered
  rw [bisectRight, List.findIdx_map]
  refine Eq.trans htake (List.filter_congr fun row _ => ?_)
  rw [isBehind, ← decide_not]
  exact decide_eq_decide.mpr not_lt

theorem bisectRight_le (sequences : List Int) (since : Int) :
    bisectRight sequences since ≤ sequences.length := List.findIdx_le_length

end Pages

section Scan

variable {limit : Nat} {scan : PageScan} {rows : List HistoryRow}

theorem scanRows_eq (limit : Nat) (scan : PageScan) (rows : List HistoryRow) :
    ∃ listed rest, rows = listed ++ rest ∧
      PageScan.scanRows limit scan rows = listed.foldl PageScan.add scan := by
  induction rows generalizing scan with
  | nil => exact ⟨[], [], rfl, rfl⟩
  | cons row rows ih =>
    rw [PageScan.scanRows]
    split
    · exact ⟨[], row :: rows, rfl, rfl⟩
    · obtain ⟨listed, rest, hsplit, hscan⟩ := ih (scan.add row)
      exact ⟨row :: listed, rest, by rw [hsplit, List.cons_append], hscan⟩

theorem not_isFull (hpos : 0 < limit) (since : Int) (start : Nat) (row : HistoryRow) :
    ({ nextSequence := since, stop := start } : PageScan).isFull limit row = false := by
  have hlt : ¬ limit ≤ 0 := by omega
  simp [PageScan.isFull, hlt]

theorem foldl_add (listed : List HistoryRow) (scan : PageScan) :
    (listed.foldl PageScan.add scan).events =
        scan.events ++ listed.flatMap (fun row => row.visible.toList) ∧
      (listed.foldl PageScan.add scan).stop = scan.stop + listed.length ∧
      ∀ front row, listed = front ++ [row] →
        (listed.foldl PageScan.add scan).nextSequence = row.sequence := by
  induction listed using List.reverseRecOn with
  | nil => simp
  | append_singleton listed row ih =>
    obtain ⟨hevents, hstop, -⟩ := ih
    rw [List.foldl_append]
    refine ⟨?_, ?_, ?_⟩
    · simp [PageScan.add, hevents]
    · simp [PageScan.add, hstop, Nat.add_assoc]
    · intro front other hsplit
      have hrow : row = other := by simpa using congrArg List.getLast? hsplit
      rw [← hrow]
      rfl

end Scan

section Reading

variable {validate : List UInt8 → Option HistoryEvent} {bytes : List UInt8}
  {index : HistoryRows} {events : List HistoryEvent} {limit : Nat}

theorem Indexes.conversationRows (h : Indexes validate bytes index events) (since : Int)
    (hpos : 0 < limit) :
    PageOf HistoryRow.sequence (fun row => row.visible.toList) index.rows since
      (index.conversationRows since limit) := by
  have hdrop := drop_bisectRight h.ordered since
  have hstart := bisectRight_le index.sequences since
  rw [← h.sequences] at hdrop
  rw [h.sequences, List.length_map, ← h.sequences] at hstart
  have hlength := congrArg List.length hdrop
  rw [List.length_drop] at hlength
  obtain ⟨listed, rest, hsplit, hscan⟩ := scanRows_eq limit
    { nextSequence := since, stop := bisectRight index.sequences since }
    (behind HistoryRow.sequence (some since) index.rows)
  obtain ⟨hevents, hstop, hnext⟩ := foldl_add listed
    { nextSequence := since, stop := bisectRight index.sequences since }
  rw [hsplit, List.length_append] at hlength
  have hmore : (index.conversationRows since limit).hasMore =
      decide (bisectRight index.sequences since + listed.length < index.rows.length) := by
    simp only [HistoryRows.conversationRows, hdrop, hscan, hstop]
  refine ⟨listed, rest, hsplit, ?_, ?_, ?_⟩
  · simp only [HistoryRows.conversationRows, hdrop, hscan, hevents, List.nil_append]
  · intro htrue
    rw [hmore, decide_eq_true_iff] at htrue
    have hlisted : listed ≠ [] := by
      intro hnil
      -- the first row behind the cursor is on the page
      cases hbehind : behind HistoryRow.sequence (some since) index.rows with
      | nil =>
        rw [hbehind] at hsplit
        have hrest := (List.append_eq_nil_iff.mp hsplit.symm).2
        rw [hnil, hrest] at hlength
        rw [hnil] at htrue
        simp only [List.length_nil] at hlength htrue
        omega
      | cons row rows =>
        rw [hbehind, PageScan.scanRows, not_isFull hpos, if_neg Bool.false_ne_true, hnil] at hscan
        obtain ⟨others, more, -, hothers⟩ := scanRows_eq limit
          (PageScan.add { nextSequence := since, stop := bisectRight index.sequences since } row)
          rows
        have hcount := congrArg PageScan.stop (hothers.symm.trans hscan)
        rw [(foldl_add others _).2.1] at hcount
        simp only [PageScan.add, List.foldl_nil] at hcount
        omega
    obtain ⟨front, row, hfront⟩ : ∃ front row, listed = front ++ [row] :=
      ⟨listed.dropLast, listed.getLast hlisted, (List.dropLast_append_getLast hlisted).symm⟩
    refine ⟨front, row, hfront, ?_⟩
    simp only [HistoryRows.conversationRows, hdrop, hscan]
    exact hnext front row hfront
  · intro hfalse
    rw [hmore, decide_eq_false_iff_not] at hfalse
    apply List.eq_nil_of_length_eq_zero
    omega

theorem StandsFor.turn {row : HistoryRow} {event : HistoryEvent}
    (h : StandsFor validate bytes row event) : row.turn = event.turn := by
  unfold HistoryRow.turn HistoryEvent.turn
  rw [h.turnId]

theorem Indexes.turnRows (h : Indexes validate bytes index events) (turnId : String) :
    List.Forall₂ (StandsFor validate bytes) (index.rows.filter fun row => row.turn = some turnId)
      (events.filter fun event => event.turn = some turnId) := by
  refine List.rel_filter (fun row event hstands => ?_) h.rows
  dsimp only
  rw [hstands.turn]

theorem mapM_eq_some {α β : Type} {f : α → Option β} {xs : List α} {ys : List β}
    (h : List.Forall₂ (fun x y => f x = some y) xs ys) : xs.mapM f = some ys := by
  induction h with
  | nil => rfl
  | cons hx _ ih => rw [List.mapM_cons, hx, ih]; rfl

section

variable (h : Indexes validate bytes index events)
include h

theorem Indexes.readRows (turnId : String) :
    List.Forall₂ (fun i event => index.readRow validate bytes i = some event)
      ((index.turns.lookup turnId).getD {}).indices
      (events.filter fun event => event.turn = some turnId) := by
  have hrows := h.turnRows turnId
  have hindices := (h.turns turnId).indices
  generalize (index.rows.filter fun row => row.turn = some turnId) = rows at hrows hindices
  generalize (events.filter fun event => event.turn = some turnId) = listed at hrows
  generalize ((index.turns.lookup turnId).getD {}).indices = indices at hindices
  induction hrows generalizing indices with
  | nil =>
    rw [List.map_nil, List.map_eq_nil_iff] at hindices
    rw [hindices]
    exact List.Forall₂.nil
  | @cons row event rows listed hstands _ ih =>
    cases indices with
    | nil => exact absurd hindices.symm (List.cons_ne_nil _ _)
    | cons i indices =>
      rw [List.map_cons, List.map_cons, List.cons.injEq] at hindices
      refine List.Forall₂.cons ?_ (ih indices hindices.2)
      rw [HistoryRows.readRow, hindices.1]
      exact hstands.reads

theorem Indexes.turnSequences (turnId : String) : ((index.turns.lookup turnId).getD {}).sequences =
      (events.filter fun event => event.turn = some turnId).map HistoryEvent.streamSequence := by
  rw [(h.turns turnId).sequences]
  exact map_sequence_eq (h.turnRows turnId)

theorem Indexes.ordered_events : Ordered HistoryEvent.streamSequence events := by
  have hordered := List.pairwise_map.mpr h.ordered
  rw [map_sequence_eq h.rows] at hordered
  exact List.pairwise_map.mp hordered

theorem Indexes.turnEvents (turnId : String) (since through : Int) (hpos : 0 < limit) :
    ∃ page, index.turnEvents validate bytes turnId since through limit = some page ∧
      PageOf HistoryEvent.streamSequence (fun event => [event]) (events.filter fun event =>
          event.turn = some turnId && decide (event.streamSequence ≤ through)) since page := by
  have hread := h.readRows turnId
  have hsequences := h.turnSequences turnId
  have hordered : Ordered HistoryEvent.streamSequence
      (events.filter fun event => event.turn = some turnId) :=
    List.Pairwise.sublist List.filter_sublist h.ordered_events
  rw [HistoryRows.turnEvents]
  have hsplit : (events.filter fun event =>
      event.turn = some turnId && decide (event.streamSequence ≤ through)) =
      (events.filter fun event => event.turn = some turnId).filter fun event =>
        decide (event.streamSequence ≤ through) := by
    rw [List.filter_filter]
    apply List.filter_congr
    intro event _
    exact Bool.and_comm _ _
  rw [hsplit]
  generalize (events.filter fun event => event.turn = some turnId) = listed at *
  cases hlookup : index.turns.lookup turnId with
  | none =>
    rw [hlookup, Option.getD_none] at hsequences
    have hnil : listed = [] := List.map_eq_nil_iff.mp hsequences.symm
    refine ⟨_, rfl, [], [], ?_, rfl, fun hmore => Bool.noConfusion hmore, fun _ => rfl⟩
    rw [hnil]
    rfl
  | some turn =>
    rw [hlookup, Option.getD_some] at hsequences hread
    dsimp only
    have hthrough := take_bisectRight hordered through
    have hsince := drop_bisectRight hordered since
    have hstop := bisectRight_le turn.sequences through
    rw [← hsequences] at hthrough hsince
    rw [hsequences, List.length_map, ← hsequences] at hstop
    have hbehind := @behind_take _ _ _ HistoryEvent.streamSequence (some since) listed hordered
      (bisectRight turn.sequences through)
    have hstart : listed.findIdx (isBehind HistoryEvent.streamSequence (some since)) =
        bisectRight turn.sequences since := by
      rw [hsequences, bisectRight, List.findIdx_map]
      rfl
    rw [hstart] at hbehind
    generalize bisectRight turn.sequences since = start at hbehind ⊢
    generalize bisectRight turn.sequences through = stop at hthrough hstop hbehind ⊢
    have hevents := mapM_eq_some
      (List.forall₂_drop start (List.forall₂_take (min (start + limit) stop) hread))
    have hselected : (listed.take (min (start + limit) stop)).drop start =
        ((listed.take stop).drop start).take limit := by
      rw [List.drop_take, List.drop_take, List.take_take]
      congr 1
      omega
    rw [hevents, Option.bind_some, ← hthrough, hselected]
    rw [← List.take_append_drop limit ((listed.take stop).drop start)] at hbehind
    by_cases hmore : start + limit < stop
    · have hmin : min (start + limit) stop = start + limit := by omega
      obtain ⟨n, hn⟩ : ∃ n, start + limit = n + 1 := ⟨start + limit - 1, by omega⟩
      have hlt : n < listed.length := by omega
      have hsequence : turn.sequences[n]? = some listed[n].streamSequence := by
        rw [hsequences, List.getElem?_map, List.getElem?_eq_getElem hlt]
        rfl
      have hroom : start < start + limit := by omega
      rw [hmin, if_pos hroom, hn, Nat.add_sub_cancel, hsequence]
      refine ⟨_, rfl, _, _, hbehind, by simp, fun _ => ?_, fun hfalse => ?_⟩
      · refine ⟨(listed.take n).drop start, listed[n], ?_, rfl⟩
        have hle : start ≤ (listed.take n).length := by
          rw [List.length_take]
          omega
        rw [← hselected, hmin, hn, List.take_succ_eq_append_getElem hlt,
          List.drop_append_of_le_length hle]
      · rw [decide_eq_false_iff_not] at hfalse
        omega
    · have hmin : min (start + limit) stop = stop := by omega
      have hrest : ((listed.take stop).drop start).drop limit = [] := by
        apply List.drop_eq_nil_of_le
        rw [List.length_drop, List.length_take]
        omega
      have hnext : ∃ nextSequence, (if start < stop then turn.sequences[stop - 1]? else some since) =
          some nextSequence := by
        split
        · have hlt : stop - 1 < turn.sequences.length := by
            rw [hsequences, List.length_map]
            omega
          exact ⟨_, List.getElem?_eq_getElem hlt⟩
        · exact ⟨_, rfl⟩
      obtain ⟨nextSequence, hnext⟩ := hnext
      rw [hmin, hnext]
      refine ⟨_, rfl, _, _, hbehind, by simp, fun htrue => ?_, fun _ => hrest⟩
      rw [decide_eq_true_iff] at htrue
      omega

end

end Reading

def bytesOf (file : Option LogFile) : List UInt8 := file.elim [] LogFile.bytes

namespace HistoryLog

variable {validate : List UInt8 → Option HistoryEvent} {log : HistoryLog}

/-- The index is that of the bytes it has read, which are complete lines. -/
structure Holds (validate : List UInt8 → Option HistoryEvent) (log : HistoryLog) : Prop where
  complete : log.indexed = [] ∨ isComplete lineEnd log.indexed = true
  rows : log.index.toHistoryRows = rebuild validate log.indexed

/-- The file begins with the bytes that were indexed, or it can be told from the file that they
were read of: by its identity, by being shorter than they are, or by its time when the size is
the same. -/
def Recognised (log : HistoryLog) : Prop :=
  ∀ file ∈ log.file, log.indexed <+: file.bytes ∨
    (∃ identity ∈ log.index.identity, identity ≠ file.identity) ∨
    file.bytes.length < log.index.offset ∨
    file.bytes.length = log.index.size ∧ file.mtime ≠ log.index.mtime

instance : DecidablePred Recognised := fun log =>
  inferInstanceAs (Decidable (∀ file ∈ log.file, log.indexed <+: file.bytes ∨
    (∃ identity ∈ log.index.identity, identity ≠ file.identity) ∨
    file.bytes.length < log.index.offset ∨
    file.bytes.length = log.index.size ∧ file.mtime ≠ log.index.mtime))

theorem holds_start : Holds validate {} := ⟨.inl rfl, rfl⟩

theorem Holds.refresh_eq (h : log.Holds validate) (hrecognised : log.Recognised) {file : LogFile}
    (hfile : log.file = some file) :
    log.index.refresh validate file = ConversationHistoryIndex.refresh validate {} file := by
  have hnew : ∀ index : ConversationHistoryIndex, index.isStale file = true →
      index.refresh validate file = ConversationHistoryIndex.refresh validate {} file := by
    intro index hstale
    rw [ConversationHistoryIndex.refresh, ConversationHistoryIndex.refresh, if_pos hstale, ite_self]
  by_cases hstale : log.index.isStale file = true
  · exact hnew log.index hstale
  · have hstart : log.indexed <+: file.bytes := by
      rcases hrecognised file hfile with hstart | hother
      · exact hstart
      · apply absurd _ hstale
        rw [ConversationHistoryIndex.isStale, Bool.or_eq_true, Bool.or_eq_true]
        rcases hother with ⟨identity, hidentity, hne⟩ | hshort | hsame
        · refine .inl (.inl ?_)
          rw [Option.mem_def.mp hidentity, Option.any_some]
          exact decide_eq_true hne
        · exact .inl (.inr (decide_eq_true hshort))
        · refine .inr ?_
          rw [hsame.1]
          simpa using hsame.2
    obtain ⟨rest, hrest⟩ := hstart
    have hoffset : log.index.offset = log.indexed.length := by
      rw [← offset_rebuild h.complete, ← h.rows]
    rw [ConversationHistoryIndex.refresh, ConversationHistoryIndex.refresh, if_neg hstale, ite_self,
      hoffset, h.rows, ← hrest, List.drop_left, ← rebuild_append h.complete]
    rfl

theorem refresh_rows (file : LogFile) :
    (ConversationHistoryIndex.refresh validate {} file).toHistoryRows =
      rebuild validate file.bytes := by
  rw [ConversationHistoryIndex.refresh, ite_self]
  rfl

theorem Holds.conversationPage (h : log.Holds validate) (hrecognised : log.Recognised)
    (since : Int) (limit : Nat) :
    ∃ index : ConversationHistoryIndex,
      index.toHistoryRows = rebuild validate (bytesOf log.file) ∧
      log.answer validate (.conversationPage since limit) =
        (log.read index, some ((rebuild validate (bytesOf log.file)).conversationRows since limit)) := by
  unfold answer ConversationHistoryIndex.conversationPage
  cases hfile : log.file with
  | none => exact ⟨{}, rfl, rfl⟩
  | some file =>
    refine ⟨ConversationHistoryIndex.refresh validate {} file, refresh_rows file, ?_⟩
    dsimp only
    rw [h.refresh_eq hrecognised hfile, refresh_rows]
    rfl

theorem Holds.turnPage (h : log.Holds validate) (hrecognised : log.Recognised)
    (turnId : String) (since through : Int) (limit : Nat) :
    ∃ index : ConversationHistoryIndex,
      index.toHistoryRows = rebuild validate (bytesOf log.file) ∧
      log.answer validate (.turnPage turnId since through limit) =
        (log.read index, (rebuild validate (bytesOf log.file)).turnEvents validate
          (bytesOf log.file) turnId since through limit) := by
  unfold answer ConversationHistoryIndex.turnPage
  cases hfile : log.file with
  | none => exact ⟨{}, rfl, rfl⟩
  | some file =>
    refine ⟨ConversationHistoryIndex.refresh validate {} file, refresh_rows file, ?_⟩
    dsimp only
    rw [h.refresh_eq hrecognised hfile, refresh_rows]
    rfl

theorem holds_read {index : ConversationHistoryIndex}
    (hrows : index.toHistoryRows = rebuild validate (bytesOf log.file)) :
    (log.read index).Holds validate ∧ (log.read index).indexed <+: bytesOf log.file := by
  have hindexed : (log.read index).indexed =
      (bytesOf log.file).take (rebuild validate (bytesOf log.file)).offset := by
    rw [← hrows, read]
    cases log.file with
    | none => exact List.take_nil.symm
    | some => rfl
  obtain ⟨hcomplete, hsame, -⟩ := @rebuild_take validate (bytesOf log.file)
  constructor
  · rw [← hindexed] at hcomplete hsame
    exact ⟨hcomplete, hrows.trans hsame.symm⟩
  · rw [hindexed]
    exact List.take_prefix _ _

end HistoryLog

def HistoryOp.isRead : HistoryOp → Bool
  | .conversationPage _ _ => true
  | .turnPage _ _ _ _ => true
  | _ => false

def HistoryOp.grows : HistoryOp → Bool
  | .replace _ => false
  | _ => true

namespace HistoryLog

def ReadsRecognised (log : HistoryLog) (op : HistoryOp) : Prop :=
  op.isRead = true → log.Recognised

instance (log : HistoryLog) (op : HistoryOp) : Decidable (log.ReadsRecognised op) :=
  inferInstanceAs (Decidable (op.isRead = true → log.Recognised))

/-- The pages that a client reads, the next one behind the last and with any limit, until there is
no more. Between two of them the file grows and others read. -/
inductive Walk (validate : List UInt8 → Option HistoryEvent) (request : Int → Nat → HistoryOp) :
    HistoryLog → Int → List HistoryPage → HistoryLog → Prop
  | last {log after : HistoryLog} {since : Int} {limit : Nat} {page : HistoryPage}
      (hpos : 0 < limit) (hanswer : log.answer validate (request since limit) = (after, some page))
      (hmore : page.hasMore = false) : Walk validate request log since [page] after
  | page {log after later last : HistoryLog} {since : Int} {limit : Nat} {page : HistoryPage}
      {pages : List HistoryPage} {ops : List HistoryOp} (hpos : 0 < limit)
      (hanswer : log.answer validate (request since limit) = (after, some page))
      (hmore : page.hasMore = true)
      (hrun : Run (step validate) (fun _ op => op.grows = true) after ops later)
      (hwalk : Walk validate request later page.nextSequence pages last) :
      Walk validate request log since (page :: pages) last

variable {validate : List UInt8 → Option HistoryEvent} {log next : HistoryLog}

theorem Holds.step (h : log.Holds validate) {op : HistoryOp} (hop : log.ReadsRecognised op)
    (hstep : log.step validate op = some next) : next.Holds validate := by
  rw [HistoryLog.step, Option.some.injEq] at hstep
  subst hstep
  cases op with
  | append => exact ⟨h.complete, h.rows⟩
  | replace => exact ⟨h.complete, h.rows⟩
  | reset => exact ⟨.inl rfl, rfl⟩
  | conversationPage since limit =>
    obtain ⟨index, hrows, hanswer⟩ := h.conversationPage (hop rfl) since limit
    rw [hanswer]
    exact (holds_read hrows).1
  | turnPage turnId since through limit =>
    obtain ⟨index, hrows, hanswer⟩ := h.turnPage (hop rfl) turnId since through limit
    rw [hanswer]
    exact (holds_read hrows).1

/-- The index is that of a file that has since only grown. -/
def Current (validate : List UInt8 → Option HistoryEvent) (log : HistoryLog) : Prop :=
  log.Holds validate ∧ log.indexed <+: bytesOf log.file

theorem Current.recognised (h : log.Current validate) : log.Recognised := by
  intro file hfile
  have hstart := h.2
  rw [Option.mem_def.mp hfile] at hstart
  exact .inl hstart

theorem Current.step (h : log.Current validate) {op : HistoryOp} (hgrows : op.grows = true)
    (hstep : log.step validate op = some next) :
    next.Current validate ∧ bytesOf log.file <+: bytesOf next.file := by
  have hholds := h.1.step (fun _ => h.recognised) hstep
  rw [HistoryLog.step, Option.some.injEq] at hstep
  subst hstep
  cases op with
  | append bytes mtime =>
    have hfront : bytesOf log.file <+: bytesOf (log.answer validate (.append bytes mtime)).1.file := by
      rw [answer]
      cases log.file with
      | none => exact List.prefix_rfl
      | some => exact List.prefix_append _ _
    exact ⟨⟨hholds, h.2.trans hfront⟩, hfront⟩
  | replace => exact Bool.noConfusion hgrows
  | reset => exact ⟨⟨hholds, List.nil_prefix⟩, List.prefix_rfl⟩
  | conversationPage since limit =>
    obtain ⟨index, hrows, hanswer⟩ := h.1.conversationPage h.recognised since limit
    rw [hanswer] at hholds ⊢
    exact ⟨⟨hholds, (holds_read hrows).2⟩, List.prefix_rfl⟩
  | turnPage turnId since through limit =>
    obtain ⟨index, hrows, hanswer⟩ := h.1.turnPage h.recognised turnId since through limit
    rw [hanswer] at hholds ⊢
    exact ⟨⟨hholds, (holds_read hrows).2⟩, List.prefix_rfl⟩

theorem Current.run {ops : List HistoryOp} {later : HistoryLog} (h : log.Current validate)
    (hrun : Run (HistoryLog.step validate) (fun _ op => op.grows = true) log ops later) :
    later.Current validate ∧ bytesOf log.file <+: bytesOf later.file := by
  induction hrun with
  | nil => exact ⟨h, List.prefix_rfl⟩
  | cons hok hstep _ ih =>
    obtain ⟨hcurrent, hfront⟩ := h.step hok hstep
    obtain ⟨hlater, hmore⟩ := ih hcurrent
    exact ⟨hlater, hfront.trans hmore⟩

/-! ## Walks -/

variable {α : Type} {key : α → Int} {found : α → List HistoryEvent}
  {rowsOf : List UInt8 → List α} {request : Int → Nat → HistoryOp}

/-- Requests are answered with pages of rows that depend on the file alone. -/
structure Serves (validate : List UInt8 → Option HistoryEvent) (request : Int → Nat → HistoryOp)
    (key : α → Int) (found : α → List HistoryEvent) (rowsOf : List UInt8 → List α) : Prop where
  ordered : ∀ bytes, Ordered key (rowsOf bytes)
  front : ∀ {bytes more}, bytes <+: more → rowsOf bytes <+: rowsOf more
  answers : ∀ {log : HistoryLog} {since : Int} {limit : Nat}, log.Holds validate →
    log.Recognised → 0 < limit → ∃ (index : ConversationHistoryIndex) (page : HistoryPage),
      index.toHistoryRows = rebuild validate (bytesOf log.file) ∧
      log.answer validate (request since limit) = (log.read index, some page) ∧
      PageOf key found (rowsOf (bytesOf log.file)) since page

theorem Serves.walk (hserves : Serves validate request key found rowsOf) {since : Int}
    {pages : List HistoryPage} {last : HistoryLog}
    (hwalk : Walk validate request log since pages last) (hholds : log.Holds validate)
    (hrecognised : log.Recognised) :
    pages.flatMap HistoryPage.events =
        (behind key (some since) (rowsOf (bytesOf last.file))).flatMap found ∧
      bytesOf log.file <+: bytesOf last.file := by
  induction hwalk with
  | @last log after since limit page hpos hanswer hmore =>
    obtain ⟨index, answered, -, heq, listed, rest, hbehind, hevents, -, hrest⟩ :=
      @Serves.answers _ _ _ _ _ _ hserves log since limit hholds hrecognised hpos
    rw [heq, Prod.mk.injEq, Option.some.injEq] at hanswer
    obtain ⟨rfl, rfl⟩ := hanswer
    refine ⟨?_, List.prefix_rfl⟩
    have hfile : (log.read index).file = log.file := rfl
    rw [hfile, hbehind, hrest hmore, List.append_nil, List.flatMap_singleton, hevents]
  | @page log after later last since limit page pages ops hpos hanswer hmore hrun hwalk ih =>
    obtain ⟨index, answered, hrows, heq, listed, rest, hbehind, hevents, hnext, -⟩ :=
      @Serves.answers _ _ _ _ _ _ hserves log since limit hholds hrecognised hpos
    rw [heq, Prod.mk.injEq, Option.some.injEq] at hanswer
    obtain ⟨rfl, rfl⟩ := hanswer
    have hcurrent : (log.read index).Current validate := holds_read hrows
    obtain ⟨hlater, hgrown⟩ := hcurrent.run hrun
    obtain ⟨hflat, hmoreGrown⟩ := ih hlater.1 hlater.recognised
    have hfront : bytesOf log.file <+: bytesOf last.file := hgrown.trans hmoreGrown
    refine ⟨?_, hfront⟩
    obtain ⟨front, row, rfl, hcursor⟩ := hnext hmore
    obtain ⟨others, hothers⟩ := hserves.front hfront
    have hall : behind key (some since) (rowsOf (bytesOf last.file)) =
        front ++ row :: (rest ++ behind key (some since) others) := by
      rw [← hothers, behind_append, hbehind]
      simp
    rw [List.flatMap_cons, hflat, hevents, hcursor, behind_last (hserves.ordered _) hall, hall]
    simp

theorem serves_conversation : Serves validate .conversationPage HistoryRow.sequence
    (fun row => row.visible.toList) fun bytes => (rebuild validate bytes).rows where
  ordered bytes := (rebuild_indexes bytes).ordered
  front := rows_rebuild_front
  answers {log since limit} hholds hrecognised hpos := by
    obtain ⟨index, hrows, hanswer⟩ := hholds.conversationPage hrecognised since limit
    exact ⟨index, _, hrows, hanswer, (rebuild_indexes _).conversationRows since hpos⟩

theorem serves_turn (turnId : String) (through : Int) : Serves validate
    (fun since limit => .turnPage turnId since through limit) HistoryEvent.streamSequence
    (fun event => [event]) fun bytes => turnThrough validate bytes turnId through where
  ordered bytes := List.Pairwise.sublist List.filter_sublist (rebuild_indexes bytes).ordered_events
  front h := List.IsPrefix.filter _ (loggedEvents_front h)
  answers {log since limit} hholds hrecognised hpos := by
    obtain ⟨index, hrows, hanswer⟩ :=
      hholds.turnPage hrecognised turnId since through limit
    obtain ⟨page, hpage, hof⟩ :=
      (rebuild_indexes (bytesOf log.file)).turnEvents turnId since through hpos
    rw [hpage] at hanswer
    exact ⟨index, page, hrows, hanswer, hof⟩

theorem conversation_behind_start (validate : List UInt8 → Option HistoryEvent)
    (bytes : List UInt8) :
    (behind HistoryRow.sequence (some (-1)) (rebuild validate bytes).rows).flatMap
        (fun row => row.visible.toList) = conversationOf validate bytes := by
  have hindexes := @rebuild_indexes validate bytes
  have hall : behind HistoryRow.sequence (some (-1)) (rebuild validate bytes).rows =
      (rebuild validate bytes).rows := by
    refine List.filter_eq_self.mpr fun row hrow => decide_eq_true ?_
    have hmem := List.mem_map_of_mem (f := HistoryRow.sequence) hrow
    rw [map_sequence_eq hindexes.rows, List.mem_map] at hmem
    obtain ⟨event, hevent, hsequence⟩ := hmem
    have hnonneg := hindexes.nonneg event hevent
    omega
  rw [hall, conversationOf, ← hindexes.visible]
  generalize (rebuild validate bytes).rows = rows
  induction rows with
  | nil => rfl
  | cons row rows ih =>
    rw [List.flatMap_cons, ih, List.filterMap_cons]
    cases row.visible <;> rfl

end HistoryLog

open HistoryLog

/-- **The index is that of the whole file.** In every run whose reads find a file that is
recognised, a refreshed index is the one made of the file as it is, and the pages give its events
once and in order. -/
theorem history_index_exact (validate : List UInt8 → Option HistoryEvent) {ops : List HistoryOp}
    {log : HistoryLog} (hrun : Run (HistoryLog.step validate) ReadsRecognised {} ops log)
    (hrecognised : log.Recognised) :
    (∀ file ∈ log.file, log.index.refresh validate file =
      ConversationHistoryIndex.refresh validate {} file) ∧
    (∀ pages last, Walk validate .conversationPage log (-1) pages last →
      pages.flatMap HistoryPage.events = conversationOf validate (bytesOf last.file)) ∧
    (∀ turnId since through pages last,
      Walk validate (fun since limit => .turnPage turnId since through limit) log since pages last →
      pages.flatMap HistoryPage.events =
        (turnThrough validate (bytesOf last.file) turnId through).filter
          fun event => decide (since < event.streamSequence)) ∧
    (∀ since limit, 0 < limit → ∃ next page,
      log.answer validate (.conversationPage since limit) = (next, some page) ∧
        (page.hasMore = true → since < page.nextSequence)) ∧
    ∀ turnId since through limit, 0 < limit → ∃ next page,
      log.answer validate (.turnPage turnId since through limit) = (next, some page) ∧
        (page.hasMore = true → since < page.nextSequence) := by
  have hholds : log.Holds validate :=
    hrun.invariant holds_start fun _ _ _ h hok hstep => h.step hok hstep
  refine ⟨?_, ?_, ?_, ?_, ?_⟩
  · exact fun file hfile => hholds.refresh_eq hrecognised hfile
  · intro pages last hwalk
    rw [(serves_conversation.walk hwalk hholds hrecognised).1]
    exact conversation_behind_start validate _
  · intro turnId since through pages last hwalk
    rw [((serves_turn turnId through).walk hwalk hholds hrecognised).1]
    exact List.flatMap_singleton' _
  · intro since limit hpos
    obtain ⟨index, page, -, hanswer, hof⟩ :=
      @Serves.answers _ _ _ _ _ _ serves_conversation log since limit hholds hrecognised hpos
    exact ⟨_, page, hanswer, hof.progress⟩
  · intro turnId since through limit hpos
    obtain ⟨index, page, -, hanswer, hof⟩ :=
      @Serves.answers _ _ _ _ _ _ (serves_turn turnId through) log since limit hholds hrecognised
        hpos
    exact ⟨_, page, hanswer, hof.progress⟩

private def turnLine (sequence : Nat) : List UInt8 :=
  (("\x7b\"stream_sequence\":".toList ++ Nat.toDigits 10 sequence ++
    ",\"session_id\":\"s\",\"tab_id\":\"t\",\"agent_type\":\"claude\",".toList ++
    "\"type\":\"turn_started\",\"turn_id\":\"u\",".toList ++
    "\"created_at\":\"2026-01-01T00:00:00Z\"\x7d\n".toList).map fun c => c.toNat.toUInt8)

private def turnEvent (line : List UInt8) : Option HistoryEvent :=
  ([0, 1, 2].find? fun sequence => line = turnLine sequence).map fun sequence =>
    { streamSequence := sequence, event := { type := .turnStarted, turnId := some "u" } }

/-- A line and a part of the next one are read, then the rest of it and another one are written. -/
private def grownOps : List HistoryOp :=
  [.replace (some ⟨1, turnLine 0 ++ (turnLine 1).take 40, 1⟩), .conversationPage (-1) 1,
    .append ((turnLine 1).drop 40 ++ turnLine 2) 2]

theorem history_index_exact_grown :
    ∃ log, exec (HistoryLog.step turnEvent) {} grownOps = some log ∧
      log.index.rows.map HistoryRow.sequence = [0] ∧
      (conversationOf turnEvent (bytesOf log.file)).map HistoryEvent.streamSequence = [0, 1, 2] ∧
      (∀ file ∈ log.file, log.index.refresh turnEvent file =
        ConversationHistoryIndex.refresh turnEvent {} file) ∧
      ∀ pages last, Walk turnEvent .conversationPage log (-1) pages last →
        pages.flatMap HistoryPage.events = conversationOf turnEvent (bytesOf last.file) := by
  have hrun : (execOk (HistoryLog.step turnEvent) ReadsRecognised {} grownOps).any (fun log =>
      log.index.rows.map HistoryRow.sequence = [0] ∧
        (conversationOf turnEvent (bytesOf log.file)).map HistoryEvent.streamSequence = [0, 1, 2] ∧
        log.Recognised) = true := by
    decide +kernel
  obtain ⟨log, hexec, hends⟩ := (Option.any_eq_true _ _).mp hrun
  obtain ⟨hrows, hevents, hrecognised⟩ := of_decide_eq_true hends
  have hguarded := Run.of_execOk hexec
  have hexact := history_index_exact turnEvent hguarded hrecognised
  exact ⟨log, hguarded.exec_eq, hrows, hevents, hexact.1, hexact.2.1⟩

private def rewrittenOps : List HistoryOp :=
  [.replace (some ⟨1, turnLine 0, 1⟩), .conversationPage (-1) 1,
    .replace (some ⟨1, turnLine 1 ++ turnLine 2, 2⟩)]

/-- A file written anew under the same inode and grown longer is taken for one that has grown. -/
theorem index_keeps_rewritten_rows :
    ¬ ∀ (log : HistoryLog) (file : LogFile),
      exec (HistoryLog.step turnEvent) {} rewrittenOps = some log → log.file = some file →
      (log.index.refresh turnEvent file).rows =
        (ConversationHistoryIndex.refresh turnEvent {} file).rows := by
  intro hall
  have hrun : (exec (HistoryLog.step turnEvent) {} rewrittenOps).any (fun log =>
      log.file.any fun file => (log.index.refresh turnEvent file).rows ≠
        (ConversationHistoryIndex.refresh turnEvent {} file).rows) = true := by
    decide +kernel
  obtain ⟨log, hexec, hrun⟩ := (Option.any_eq_true _ _).mp hrun
  obtain ⟨file, hfile, hrows⟩ := (Option.any_eq_true _ _).mp hrun
  exact of_decide_eq_true hrows (hall log file hexec hfile)

end ClaudeHub
