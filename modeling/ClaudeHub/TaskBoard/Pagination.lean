import ClaudeHub.Lib.Lines
import ClaudeHub.Lib.Paging
import ClaudeHub.TaskBoard.Cursor
import Mathlib.Data.Prod.Lex
import Mathlib.Data.String.Basic

/-! # Pages of the board's done tasks

The board of a workspace lists its open tasks on the first page, and its done tasks over as many
pages as a client asks for: the newest change first, with ties by creation and by id. A page is
named by the place of the last task of the page before.
-/

namespace ClaudeHub

def WorkspaceTaskStatus.value : WorkspaceTaskStatus → String
  | .todo => "todo"
  | .queued => "queued"
  | .working => "working"
  | .review => "review"
  | .done => "done"
  | .failed => "failed"

/-- A task as the board lists it. `details` stands for its other fields. -/
structure BoardTask (γ : Type) where
  id : TaskId
  status : WorkspaceTaskStatus
  createdAt : Timestamp
  updatedAt : Timestamp
  details : γ
  deriving DecidableEq

structure Board (γ : Type) where
  tasks : List (BoardTask γ)
  ids_nodup : (tasks.map BoardTask.id).Nodup
  id_ne : ∀ task ∈ tasks, task.id ≠ ""

structure BoardTasksPagination where
  totalCount : Nat
  hasMore : Bool
  nextCursor : Option String := none
  limit : Int
  statusCounts : List (String × Nat) := []
  deriving DecidableEq, Repr

structure BoardPage (γ : Type) where
  tasks : List (BoardTask γ)
  pagination : Option BoardTasksPagination

/-- The `ValueError`s of a page request. -/
inductive BoardPageError
  | limitOutOfRange
  | emptyCursor
  | cursor (error : CursorError)
  deriving DecidableEq, Repr

def maxBoardTasksLimit : Int := 100

def BoardPageError.message : BoardPageError → String
  | .limitOutOfRange => s!"tasks_limit must be between 1 and {maxBoardTasksLimit}"
  | .emptyCursor => "tasks_cursor must not be empty"
  | .cursor error => error.message

abbrev BoardKey (τ : Type) : Type := τᵒᵈ ×ₗ (τ ×ₗ TaskId)

section Pages

/-! `timestamp` gives the number that a timestamp is compared by. For one without an offset it
depends on the time zone of the machine. -/

variable {γ τ : Type} [LinearOrder τ] (timestamp : Timestamp → τ)

def cursorSortKey (updatedAt createdAt : Timestamp) (taskId : TaskId) : BoardKey τ :=
  toLex (OrderDual.toDual (timestamp updatedAt), toLex (timestamp createdAt, taskId))

def boardTaskSortKey (task : BoardTask γ) : BoardKey τ :=
  cursorSortKey timestamp task.updatedAt task.createdAt task.id

def taskIsAfterCursor (task : BoardTask γ) (cursor : Timestamp × Timestamp × TaskId) : Bool :=
  decide (boardTaskSortKey timestamp task > cursorSortKey timestamp cursor.1 cursor.2.1 cursor.2.2)

def validateTasksLimit (limit : Int) : Except BoardPageError Unit :=
  if limit < 1 ∨ limit > maxBoardTasksLimit then .error .limitOutOfRange else .ok ()

def splitDoneTasks (tasks : List (BoardTask γ)) : List (BoardTask γ) × List (BoardTask γ) :=
  (tasks.filter fun task => task.status != .done, tasks.filter fun task => task.status == .done)

def sortedTasks (tasks : List (BoardTask γ)) : List (BoardTask γ) :=
  tasks.mergeSort fun a b => decide (boardTaskSortKey timestamp a ≤ boardTaskSortKey timestamp b)

def statusCounts (tasks : List (BoardTask γ)) : List (String × Nat) :=
  let values := tasks.map fun task => task.status.value
  (values.dedup.mergeSort fun a b => decide (a ≤ b)).map fun value => (value, values.count value)

variable (strOf : Json.Value → List Char)

def paginateDoneSlice (sortedDone : List (BoardTask γ)) (limit : Nat) (cursor : Option String) :
    Except BoardPageError (List (BoardTask γ) × Bool × Option String) := do
  let startIndex ← match cursor with
    | none => pure 0
    | some cursor =>
      match decodeBoardTasksCursor strOf cursor with
      | .error error => throw (BoardPageError.cursor error)
      | .ok place => pure (sortedDone.findIdx fun task => taskIsAfterCursor timestamp task place)
  let pageDone := (sortedDone.drop startIndex).take limit
  let hasMore := decide (startIndex + limit < sortedDone.length)
  let nextCursor :=
    if hasMore then pageDone.getLast?.map fun last =>
      encodeBoardTasksCursor last.updatedAt last.createdAt last.id
    else none
  return (pageDone, hasMore, nextCursor)

def paginateBoardTasks (tasks : List (BoardTask γ)) (limit : Option Int)
    (cursor : Option String) : Except BoardPageError (BoardPage γ) := do
  let some limit := limit | return ⟨tasks, none⟩
  validateTasksLimit limit
  if let some text := cursor then
    if Lines.strip text.toList = [] then throw .emptyCursor
  let sortedDone := sortedTasks timestamp (splitDoneTasks tasks).2
  let (pageDone, hasMore, nextCursor) ←
    paginateDoneSlice timestamp strOf sortedDone limit.toNat cursor
  let page := match cursor with
    | some _ => pageDone
    | none => sortedTasks timestamp (splitDoneTasks tasks).1 ++ pageDone
  return ⟨page, some ⟨sortedDone.length, hasMore, nextCursor, limit, statusCounts tasks⟩⟩

end Pages

section Answers

open Paging

variable {γ τ : Type} [LinearOrder τ] (timestamp : Timestamp → τ) (strOf : Json.Value → List Char)

def Board.doneRows (board : Board γ) : List (BoardTask γ) :=
  sortedTasks timestamp (splitDoneTasks board.tasks).2

def BoardTask.cursor (task : BoardTask γ) : String :=
  encodeBoardTasksCursor task.updatedAt task.createdAt task.id

variable {board : Board γ} {task last : BoardTask γ}

theorem Board.mem_doneRows :
    task ∈ board.doneRows timestamp ↔ task ∈ board.tasks ∧ task.status = .done := by
  rw [doneRows, sortedTasks, List.mem_mergeSort, splitDoneTasks, List.mem_filter, beq_iff_eq]

omit [LinearOrder τ] in
theorem id_eq_of_key_eq {a b : BoardTask γ}
    (h : boardTaskSortKey timestamp a = boardTaskSortKey timestamp b) : a.id = b.id := by
  have hrest := congrArg (fun key : BoardKey τ => (ofLex (ofLex key).2).2) h
  exact hrest

theorem pairwise_sortedTasks (tasks : List (BoardTask γ)) :
    (sortedTasks timestamp tasks).Pairwise fun a b =>
      boardTaskSortKey timestamp a ≤ boardTaskSortKey timestamp b := by
  have hsorted := @List.pairwise_mergeSort _
    (fun a b => decide (boardTaskSortKey timestamp a ≤ boardTaskSortKey timestamp b))
    (fun a b c hab hbc => decide_eq_true (le_trans (of_decide_eq_true hab) (of_decide_eq_true hbc)))
    (fun a b => by simpa using le_total _ _) tasks
  exact hsorted.imp fun h => of_decide_eq_true h

theorem Board.ordered_doneRows (board : Board γ) :
    Ordered (boardTaskSortKey timestamp) (board.doneRows timestamp) := by
  have hids : (board.doneRows timestamp).Pairwise fun a b => a.id ≠ b.id := by
    have hdone := (List.pairwise_map.mp board.ids_nodup).sublist
      (@List.filter_sublist _ (fun task => task.status == .done) board.tasks)
    have hperm := List.mergeSort_perm (splitDoneTasks board.tasks).2
      fun a b => decide (boardTaskSortKey timestamp a ≤ boardTaskSortKey timestamp b)
    exact (hperm.pairwise_iff fun h => h.symm).mpr hdone
  refine (hids.and (pairwise_sortedTasks timestamp _)).imp fun h => ?_
  exact lt_of_le_of_ne h.2 fun heq => h.1 (id_eq_of_key_eq timestamp heq)

theorem taskIsAfterCursor_eq (task last : BoardTask γ) :
    taskIsAfterCursor timestamp task (last.updatedAt, last.createdAt, last.id) =
      isBehind (boardTaskSortKey timestamp) (some (boardTaskSortKey timestamp last)) task := rfl

/-- The page, whether there are more, and the next cursor, from the tasks behind a cursor. -/
def frontPage (limit : Nat) (left : List (BoardTask γ)) :
    List (BoardTask γ) × Bool × Option String :=
  (left.take limit, decide (limit < left.length),
    if limit < left.length then (left.take limit).getLast?.map BoardTask.cursor else none)

theorem frontPage_drop (limit start : Nat) (rows : List (BoardTask γ)) :
    frontPage limit (rows.drop start) =
      ((rows.drop start).take limit, decide (start + limit < rows.length),
        if decide (start + limit < rows.length) = true then
          ((rows.drop start).take limit).getLast?.map BoardTask.cursor else none) := by
  have hmore : limit < (rows.drop start).length ↔ start + limit < rows.length := by
    rw [List.length_drop]
    omega
  simp only [frontPage, hmore, decide_eq_true_eq]

theorem paginateDoneSlice_eq (limit : Nat) {last : Option (BoardTask γ)}
    (hlast : ∀ task ∈ last, task.id ≠ "") {rows : List (BoardTask γ)}
    (hordered : Ordered (boardTaskSortKey timestamp) rows) :
    paginateDoneSlice timestamp strOf rows limit (last.map BoardTask.cursor) =
      .ok (frontPage limit
        (behind (boardTaskSortKey timestamp) (last.map (boardTaskSortKey timestamp)) rows)) := by
  unfold paginateDoneSlice
  cases last with
  | none =>
    rw [Option.map_none, Option.map_none, behind_none]
    exact congrArg Except.ok (frontPage_drop limit 0 rows).symm
  | some last =>
    have hplace := decode_encode_cursor strOf last.updatedAt last.createdAt (hlast last rfl)
    rw [Option.map_some, Option.map_some, ← drop_findIdx hordered]
    simp only [BoardTask.cursor, hplace, taskIsAfterCursor_eq]
    exact congrArg Except.ok (frontPage_drop limit _ rows).symm

theorem strip_cursor (task : BoardTask γ) : Lines.strip task.cursor.toList ≠ [] := by
  have hspace : ∀ bits : Fin 64, Lines.isSpace (Base64.letter bits) = false := by decide
  obtain ⟨bits, rest, hlt, hcursor⟩ := cursor_cons task.updatedAt task.createdAt task.id
  intro hnil
  have hcount := Lines.count_strip (hspace ⟨bits, hlt⟩) task.cursor.toList
  rw [hnil, BoardTask.cursor, hcursor, List.count_nil, List.count_cons_self] at hcount
  omega

/-- A request answers with the front of the done tasks behind the cursor, and without a cursor with
the open tasks before them. -/
theorem paginateBoardTasks_eq (board : Board γ) {limit : Int} (hpos : 1 ≤ limit)
    (hle : limit ≤ maxBoardTasksLimit) {last : Option (BoardTask γ)}
    (hlast : ∀ task ∈ last, task.id ≠ "") :
    paginateBoardTasks timestamp strOf board.tasks (some limit) (last.map BoardTask.cursor) =
      let slice := frontPage limit.toNat (behind (boardTaskSortKey timestamp)
        (last.map (boardTaskSortKey timestamp)) (board.doneRows timestamp))
      let openTasks := last.elim (sortedTasks timestamp (splitDoneTasks board.tasks).1) fun _ => []
      .ok ⟨openTasks ++ slice.1, some ⟨(board.doneRows timestamp).length, slice.2.1, slice.2.2,
        limit, statusCounts board.tasks⟩⟩ := by
  have hslice := paginateDoneSlice_eq timestamp strOf limit.toNat hlast
    (board.ordered_doneRows timestamp)
  have hlimit : validateTasksLimit limit = .ok () := if_neg (by omega)
  unfold paginateBoardTasks
  cases last with
  | none =>
    rw [Option.map_none] at hslice ⊢
    rw [Board.doneRows] at hslice
    simp only [hlimit, hslice]
    rfl
  | some =>
    rw [Option.map_some] at hslice ⊢
    rw [Board.doneRows] at hslice
    simp only [hlimit, strip_cursor, ↓reduceIte, hslice]
    rfl

end Answers

end ClaudeHub
