import ClaudeHub.Lib.Lists
import ClaudeHub.TaskBoard.Pagination

/-! # Walks over the board's pages

A client asks for the first page and then for the page after each cursor it gets, with any limits,
while the board changes in any way between two requests.
-/

namespace ClaudeHub

open Paging

variable {γ τ : Type} [LinearOrder τ] (timestamp : Timestamp → τ) (strOf : Json.Value → List Char)

def BoardPage.nextCursor (page : BoardPage γ) : Option String :=
  page.pagination.bind BoardTasksPagination.nextCursor

def BoardPage.doneTasks (page : BoardPage γ) : List (BoardTask γ) :=
  page.tasks.filter fun task => task.status == .done

/-- The pages of a client that finds these boards and asks with these limits. A page without a next
cursor is its last one. -/
def followPages (cursor : Option String) :
    List (Board γ × Int) → Except BoardPageError (List (BoardPage γ))
  | [] => .ok []
  | (board, limit) :: requests => do
      let page ← paginateBoardTasks timestamp strOf board.tasks (some limit) cursor
      match page.nextCursor with
      | none => return [page]
      | some next => return page :: (← followPages next requests)

def BoardPage.InOrder (page : BoardPage γ) : Prop :=
  ∃ openTasks, page.tasks = openTasks ++ page.doneTasks ∧
    (∀ task ∈ openTasks, task.status ≠ .done) ∧
    (openTasks.Pairwise fun a b => boardTaskSortKey timestamp a ≤ boardTaskSortKey timestamp b) ∧
    Ordered (boardTaskSortKey timestamp) page.doneTasks

theorem count_doneTasks [DecidableEq γ] {task : BoardTask γ} (h : task.status = .done)
    (page : BoardPage γ) : page.tasks.count task = page.doneTasks.count task := by
  rw [BoardPage.doneTasks, List.count_filter]
  simpa using h

/-- What a request behind the task `last` answers. -/
structure PageAnswer (last : Option (BoardTask γ)) (board : Board γ) (page : BoardPage γ) : Prop where
  inOrder : page.InOrder timestamp
  /-- Either there is a next cursor, the place of the last row of the page and not of the last one
  behind the cursor, or the page has all that is behind it. -/
  rows :
    (∃ front row rest, behind (boardTaskSortKey timestamp)
        (last.map (boardTaskSortKey timestamp)) (board.doneRows timestamp) = front ++ row :: rest ∧
      page.doneTasks = front ++ [row] ∧ page.nextCursor = some row.cursor ∧ row.id ≠ "") ∨
    page.nextCursor = none ∧ page.doneTasks = behind (boardTaskSortKey timestamp)
      (last.map (boardTaskSortKey timestamp)) (board.doneRows timestamp)

theorem doneTasks_append {openTasks doneRows : List (BoardTask γ)}
    {pagination : Option BoardTasksPagination} (hopen : ∀ task ∈ openTasks, task.status ≠ .done)
    (hdone : ∀ task ∈ doneRows, task.status = .done) :
    (BoardPage.mk (openTasks ++ doneRows) pagination).doneTasks = doneRows := by
  rw [BoardPage.doneTasks, List.filter_append, List.filter_eq_nil_iff.mpr, List.nil_append,
    List.filter_eq_self]
  · intro task htask
    rw [hdone task htask]
    rfl
  · intro task htask
    simpa using hopen task htask

theorem paginate_answered (board : Board γ) {limit : Int} (hpos : 1 ≤ limit)
    (hle : limit ≤ maxBoardTasksLimit) {last : Option (BoardTask γ)}
    (hlast : ∀ task ∈ last, task.id ≠ "") :
    ∃ page, paginateBoardTasks timestamp strOf board.tasks (some limit)
        (last.map BoardTask.cursor) = .ok page ∧ PageAnswer timestamp last board page ∧
      (page.nextCursor.isSome ↔ limit.toNat < (behind (boardTaskSortKey timestamp)
        (last.map (boardTaskSortKey timestamp)) (board.doneRows timestamp)).length) := by
  have hanswer := paginateBoardTasks_eq timestamp strOf board hpos hle hlast
  generalize hleft : behind (boardTaskSortKey timestamp)
    (last.map (boardTaskSortKey timestamp)) (board.doneRows timestamp) = left at hanswer
  have hordered : Ordered (boardTaskSortKey timestamp) left := by
    rw [← hleft]
    exact (board.ordered_doneRows timestamp).behind
  have hrows : ∀ task ∈ left, task ∈ board.tasks ∧ task.status = .done := by
    rw [← hleft]
    exact fun task htask => (board.mem_doneRows timestamp).mp (mem_behind.1 htask).1
  have hopen : ∀ task ∈ last.elim (sortedTasks timestamp (splitDoneTasks board.tasks).1) fun _ => [],
      task.status ≠ .done := by
    intro task htask
    cases last with
    | none =>
      have hin := List.mem_mergeSort.mp htask
      simpa using (List.mem_filter.mp hin).2
    | some => exact absurd htask List.not_mem_nil
  have hsorted : (last.elim (sortedTasks timestamp (splitDoneTasks board.tasks).1)
      fun _ => []).Pairwise fun a b =>
        boardTaskSortKey timestamp a ≤ boardTaskSortKey timestamp b := by
    cases last with
    | none => exact pairwise_sortedTasks timestamp _
    | some => exact List.Pairwise.nil
  have hdone := @doneTasks_append _ _ _ (some ⟨(board.doneRows timestamp).length,
    (frontPage limit.toNat left).2.1, (frontPage limit.toNat left).2.2, limit,
    statusCounts board.tasks⟩) hopen
    (fun task (htask : task ∈ (frontPage limit.toNat left).1) =>
      (hrows task (List.mem_of_mem_take htask)).2)
  refine ⟨_, hanswer, ⟨⟨_, ?_, hopen, hsorted, ?_⟩, ?_⟩, ?_⟩
  · rw [hdone]
  · rw [hdone]
    exact hordered.sublist (List.take_sublist _ _)
  · by_cases hmore : limit.toNat < left.length
    · obtain ⟨front, row, rest, hsplit, htake⟩ := List.exists_take_of_lt (by omega) hmore
      refine .inl ⟨front, row, rest, hleft.trans hsplit, hdone.trans htake, ?_, ?_⟩
      · simp only [BoardPage.nextCursor, frontPage, Option.bind_some, hmore, ↓reduceIte, htake,
          List.getLast?_concat, Option.map_some]
      · exact board.id_ne row (hrows row (by rw [hsplit]; simp)).1
    · refine .inr ⟨?_, ?_⟩
      · simp only [BoardPage.nextCursor, frontPage, Option.bind_some, hmore, ↓reduceIte]
      · exact hdone.trans ((List.take_of_length_le (by omega)).trans hleft.symm)
  · by_cases hmore : limit.toNat < left.length
    · obtain ⟨front, row, rest, hsplit, htake⟩ := List.exists_take_of_lt (by omega) hmore
      simp [BoardPage.nextCursor, frontPage, hmore, htake]
    · simp [BoardPage.nextCursor, frontPage, hmore]

/-! ## Walks -/

/-- The boards of the pages that were followed by another one, and the last page if there was one. -/
structure Followed (last : Option (BoardTask γ)) (requests : List (Board γ × Int))
    (pages : List (BoardPage γ)) : Prop where
  steps : ∃ asked unasked front next, requests = asked ++ unasked ∧
    Steps (boardTaskSortKey timestamp) (last.map (boardTaskSortKey timestamp))
      (asked.map fun request => request.1.doneRows timestamp)
      (front.map BoardPage.doneTasks) next ∧
    (∀ page ∈ front, page.nextCursor ≠ none) ∧
    (unasked = [] ∧ pages = front ∨
      ∃ board limit rest page, unasked = (board, limit) :: rest ∧ pages = front ++ [page] ∧
        page.nextCursor = none ∧
        page.doneTasks = behind (boardTaskSortKey timestamp) next (board.doneRows timestamp))

theorem followPages_followed (requests : List (Board γ × Int))
    (hlimit : ∀ request ∈ requests, 1 ≤ request.2 ∧ request.2 ≤ maxBoardTasksLimit)
    {last : Option (BoardTask γ)} (hlast : ∀ task ∈ last, task.id ≠ "") :
    ∃ pages, followPages timestamp strOf (last.map BoardTask.cursor) requests = .ok pages ∧
      (∀ page ∈ pages, page.InOrder timestamp) ∧ Followed timestamp last requests pages := by
  induction requests generalizing last with
  | nil =>
    refine ⟨[], rfl, fun page hpage => absurd hpage List.not_mem_nil, ⟨[], [], [], _, rfl,
      Steps.start, fun page hpage => absurd hpage List.not_mem_nil, .inl ⟨rfl, rfl⟩⟩⟩
  | cons request requests ih =>
    obtain ⟨board, limit⟩ := request
    obtain ⟨hpos, hle⟩ := hlimit _ (List.mem_cons_self ..)
    obtain ⟨page, hpage, hanswered, -⟩ :=
      paginate_answered timestamp strOf board hpos hle hlast
    rcases hanswered.rows with ⟨front, row, rest, hbehind, hdone, hnext, hid⟩ | ⟨hnext, hdone⟩
    · obtain ⟨pages, hpages, hordered, hfollowed⟩ :=
        @ih (fun other hother => hlimit other (List.mem_cons_of_mem _ hother)) (some row)
          (fun task htask => by rw [← Option.some.inj htask]; exact hid)
      obtain ⟨asked, unasked, frontPages, next, hsplit, hsteps, hcursors, hend⟩ := hfollowed.steps
      refine ⟨page :: pages, ?_, ?_, ⟨(board, limit) :: asked, unasked, page :: frontPages, next,
        ?_, ?_, ?_, ?_⟩⟩
      · rw [Option.map_some] at hpages
        simp only [followPages, hpage, bind, Except.bind, hnext, hpages]
        rfl
      · exact List.forall_mem_cons.mpr ⟨hanswered.inOrder, hordered⟩
      · rw [hsplit, List.cons_append]
      · rw [List.map_cons, List.map_cons, hdone]
        exact .page hbehind hsteps
      · exact List.forall_mem_cons.mpr ⟨by rw [hnext]; exact Option.some_ne_none _, hcursors⟩
      · rcases hend with ⟨hnil, hpages⟩ | ⟨board', limit', rest, last, hrest, hpages, hlast⟩
        · exact .inl ⟨hnil, by rw [hpages]⟩
        · exact .inr ⟨board', limit', rest, last, hrest, by rw [hpages, List.cons_append], hlast⟩
    · refine ⟨[page], ?_, List.forall_mem_singleton.mpr hanswered.inOrder,
        ⟨[], (board, limit) :: requests, [], _, rfl, .start,
          fun page hpage => absurd hpage List.not_mem_nil,
          .inr ⟨board, limit, requests, page, rfl, rfl, hnext, hdone⟩⟩⟩
      simp only [followPages, hpage, bind, Except.bind, hnext]
      rfl

variable {timestamp} {requests : List (Board γ × Int)} {pages : List (BoardPage γ)}

theorem ordered_requests (requests : List (Board γ × Int)) :
    ∀ rows ∈ requests.map fun request => request.1.doneRows timestamp,
      Ordered (boardTaskSortKey timestamp) rows := by
  intro rows hrows
  obtain ⟨request, -, rfl⟩ := List.mem_map.mp hrows
  exact request.1.ordered_doneRows timestamp

theorem Followed.ordered (h : Followed timestamp none requests pages) :
    Ordered (boardTaskSortKey timestamp) (pages.flatMap BoardPage.doneTasks) := by
  obtain ⟨asked, unasked, front, next, -, hsteps, -, hend⟩ := h.steps
  rcases hend with ⟨-, rfl⟩ | ⟨board, limit, rest, page, -, rfl, -, hdone⟩
  · rw [List.flatMap_def]
    exact (hsteps.ordered (ordered_requests asked)).1
  · rw [List.flatMap_def, List.map_append, List.map_singleton, hdone]
    exact hsteps.ordered_all (ordered_requests asked) (board.ordered_doneRows timestamp)

theorem Followed.length_le [DecidableEq γ] (h : Followed timestamp none requests pages) :
    pages.length ≤ 1 + arrivals (boardTaskSortKey timestamp) none []
      (requests.map fun request => request.1.doneRows timestamp)
      (pages.map BoardPage.doneTasks) := by
  obtain ⟨asked, unasked, front, next, rfl, hsteps, -, hend⟩ := h.steps
  have hle := @Steps.length_le _ _ _ _ _ _ _ [] _ _ hsteps (ordered_requests asked)
  have hlength : front.length = asked.length := by simpa using hsteps.length_eq
  have hgrow (unasked : List (Board γ × Int)) (more : List (BoardPage γ)) :=
    @arrivals_le_append _ _ _ _ (boardTaskSortKey timestamp) none [] _ _
      (unasked.map fun request => request.1.doneRows timestamp) (more.map BoardPage.doneTasks)
      hsteps.length_eq
  rw [List.length_map, behind, List.filter_nil, List.length_nil, Option.map_none] at hle
  rcases hend with ⟨rfl, rfl⟩ | ⟨board, limit, rest, page, rfl, rfl, -, -⟩
  · have := hgrow [] []
    simp only [List.map_nil, List.append_nil] at this ⊢
    omega
  · have := hgrow ((board, limit) :: rest) [page]
    rw [List.map_append, List.map_append, List.length_append, List.length_singleton]
    omega

theorem Followed.count_eq_one [DecidableEq γ] (h : Followed timestamp none requests pages)
    {task : BoardTask γ} (hdone : task.status = .done)
    (hin : ∀ request ∈ requests.take pages.length, task ∈ request.1.tasks)
    (hended : ∃ page ∈ pages, page.nextCursor = none) :
    (pages.flatMap BoardPage.tasks).count task = 1 := by
  obtain ⟨asked, unasked, front, next, rfl, hsteps, hcursors, hend⟩ := h.steps
  have hlength : front.length = asked.length := by simpa using hsteps.length_eq
  rcases hend with ⟨-, rfl⟩ | ⟨board, limit, rest, page, rfl, rfl, -, hpage⟩
  · obtain ⟨page, hpage, hnone⟩ := hended
    exact absurd hnone (hcursors page hpage)
  · have hused : (asked ++ (board, limit) :: rest).take (front ++ [page]).length =
        asked ++ [(board, limit)] := by
      rw [List.length_append, hlength, List.length_singleton, List.take_length_add_append]
      rfl
    rw [hused] at hin
    have hcount := @Steps.count_eq_one _ _ _ _ _ _ _ task _ _ hsteps (ordered_requests asked) _ _
      (board.ordered_doneRows timestamp)
      (by
        intro rows hrows
        obtain ⟨request, hrequest, rfl⟩ := List.mem_map.mp hrows
        exact (request.1.mem_doneRows timestamp).mpr
          ⟨hin request (List.mem_append_left _ hrequest), hdone⟩)
      ((board.mem_doneRows timestamp).mpr ⟨hin (board, limit) (by simp), hdone⟩) rfl
    rw [← hpage, ← @List.map_singleton _ _ BoardPage.doneTasks, ← List.map_append] at hcount
    rw [← hcount, List.count_flatMap, List.count_flatten, List.map_map]
    congr 1
    apply List.map_congr_left
    intro page _
    exact count_doneTasks hdone page

variable (timestamp)

def noonOfMay : Timestamp where
  fields := ⟨⟨2026, 5, 1, by decide, by decide, by decide, by decide, by decide, by decide⟩,
    12, 0, 0, 0, by decide, DateTime.zero_lt_minutes, DateTime.zero_lt_minutes,
    DateTime.zero_lt_microseconds⟩

def waiting (n : Nat) : BoardTask Unit where
  id := String.ofList (List.replicate (n + 1) 'a')
  status := .done
  createdAt := noonOfMay
  updatedAt := noonOfMay
  details := ()

def byFields (time : Timestamp) : Nat := time.fields.position

theorem replicate_lt {m n : Nat} (h : m < n) :
    List.replicate m 'a' < List.replicate n 'a' := by
  induction m generalizing n with
  | zero =>
    obtain ⟨k, rfl⟩ := Nat.exists_eq_add_of_le' h
    exact List.nil_lt_cons _ _
  | succ m ih =>
    obtain ⟨k, rfl⟩ := Nat.exists_eq_add_of_le' (show 1 ≤ n by omega)
    rw [List.replicate_succ, List.replicate_succ]
    exact List.cons_lt_cons_iff.mpr (.inr ⟨rfl, ih (by omega)⟩)

theorem key_waiting_lt {m n : Nat} (h : m < n) :
    boardTaskSortKey byFields (waiting m) < boardTaskSortKey byFields (waiting n) := by
  have hid : (waiting m).id < (waiting n).id := by
    rw [String.lt_iff_toList_lt]
    simpa [waiting] using replicate_lt (Nat.succ_lt_succ h)
  exact Prod.Lex.toLex_lt_toLex.mpr (.inr ⟨rfl, Prod.Lex.toLex_lt_toLex.mpr (.inr ⟨rfl, hid⟩)⟩)

def waitingBoard (n : Nat) : Board Unit where
  tasks := [waiting (2 * n), waiting (2 * n + 1)]
  ids_nodup := by
    simp only [List.map_cons, List.map_nil, List.nodup_cons, List.mem_singleton,
      List.not_mem_nil, not_false_eq_true, List.nodup_nil, and_self, and_true]
    intro heq
    have hlength := congrArg (fun id : TaskId => id.toList.length) heq
    simp [waiting] at hlength
  id_ne := by
    intro task htask
    simp only [List.mem_cons, List.not_mem_nil, or_false] at htask
    rcases htask with rfl | rfl <;> simp [waiting, List.replicate_succ]

theorem mem_waitingBoard {n : Nat} {task : BoardTask Unit}
    (h : task ∈ (waitingBoard n).doneRows byFields) :
    ∃ m, 2 * n ≤ m ∧ m < 2 * (n + 1) ∧ task = waiting m := by
  have hin := ((waitingBoard n).mem_doneRows byFields |>.mp h).1
  simp only [waitingBoard, List.mem_cons, List.not_mem_nil, or_false] at hin
  rcases hin with rfl | rfl
  · exact ⟨2 * n, by omega, by omega, rfl⟩
  · exact ⟨2 * n + 1, by omega, by omega, rfl⟩

theorem length_behind_waiting {n : Nat} {last : Option (BoardTask Unit)}
    (hlast : ∀ task ∈ last, ∃ m, m < 2 * n ∧ task = waiting m) :
    (behind (boardTaskSortKey byFields) (last.map (boardTaskSortKey byFields))
      ((waitingBoard n).doneRows byFields)).length = 2 := by
  have hall : behind (boardTaskSortKey byFields) (last.map (boardTaskSortKey byFields))
      ((waitingBoard n).doneRows byFields) = (waitingBoard n).doneRows byFields := by
    rw [behind, List.filter_eq_self]
    intro task htask
    obtain ⟨m, hle, -, rfl⟩ := mem_waitingBoard htask
    cases last with
    | none => rfl
    | some last =>
      obtain ⟨k, hk, rfl⟩ := hlast last rfl
      have hlt := key_waiting_lt (show k < m by omega)
      rw [Option.map_some, isBehind, decide_eq_true_eq]
      exact hlt
  have hdone : (splitDoneTasks (waitingBoard n).tasks).2 = (waitingBoard n).tasks :=
    List.filter_eq_self.mpr (by simp [waitingBoard, waiting])
  rw [hall, Board.doneRows, sortedTasks, List.length_mergeSort, hdone]
  rfl

theorem waiting_goes_on (n count : Nat) {last : Option (BoardTask Unit)}
    (hlast : ∀ task ∈ last, ∃ m, m < 2 * n ∧ task = waiting m) {pages : List (BoardPage Unit)}
    (h : followPages byFields (fun _ => []) (last.map BoardTask.cursor)
      ((List.range' n count).map fun n => (waitingBoard n, 1)) = .ok pages) :
    ∀ page ∈ pages, page.nextCursor ≠ none := by
  induction count generalizing n last pages with
  | zero =>
    have hnil : [] = pages := Except.ok.inj h
    rw [← hnil]
    exact fun page hpage => absurd hpage List.not_mem_nil
  | succ count ih =>
    have hids : ∀ task ∈ last, task.id ≠ "" := by
      intro task htask
      obtain ⟨m, -, rfl⟩ := hlast task htask
      simp [waiting, List.replicate_succ]
    obtain ⟨page, hpage, hanswered, hmore⟩ := paginate_answered byFields (fun _ => [])
      (waitingBoard n) (show (1 : Int) ≤ 1 by decide) (by decide) hids
    rw [length_behind_waiting hlast] at hmore
    have hsome := hmore.mpr (by decide)
    rcases hanswered.rows with ⟨front, row, rest, hbehind, -, hnext, -⟩ | ⟨hnone, -⟩
    · have hrow : row ∈ (waitingBoard n).doneRows byFields := by
        have hmem : row ∈ front ++ row :: rest := by simp
        rw [← hbehind] at hmem
        exact (mem_behind.1 hmem).1
      obtain ⟨m, -, hlt, rfl⟩ := mem_waitingBoard hrow
      rw [List.range'_succ, List.map_cons] at h
      simp only [followPages, hpage, bind, Except.bind, hnext] at h
      cases hrest : followPages byFields (fun _ => []) (some (waiting m).cursor)
          ((List.range' (n + 1) count).map fun n => (waitingBoard n, 1)) with
      | error =>
        rw [hrest] at h
        exact absurd h (by simp)
      | ok later =>
        rw [hrest] at h
        have hlater := @ih (n + 1) (some (waiting m))
          (fun task htask => ⟨m, hlt, (Option.some.inj htask).symm⟩) later hrest
        have hpages : page :: later = pages := Except.ok.inj h
        rw [← hpages]
        exact List.forall_mem_cons.mpr ⟨by rw [hnext]; exact Option.some_ne_none _, hlater⟩
    · rw [hnone] at hsome
      exact absurd hsome Bool.false_ne_true

end ClaudeHub
