import Mathlib.Data.List.Basic
import Mathlib.Data.List.Nodup
import Mathlib.Data.List.Perm.Subperm
import Mathlib.Order.Lattice

/-! # Paging with a cursor

Rows are listed in the order of a key, and a page is the front of the rows behind a cursor; the key
of its last row is the cursor of the next page. The list may change between two pages.
-/

namespace Paging

universe u v

section Cursor

variable {α : Type u} {κ : Type v} [LinearOrder κ] (key : α → κ)

def isBehind (cursor : Option κ) (row : α) : Bool :=
  match cursor with
  | none => true
  | some last => decide (last < key row)

def behind (cursor : Option κ) (rows : List α) : List α := rows.filter (isBehind key cursor)

def Ordered (rows : List α) : Prop := rows.Pairwise fun a b => key a < key b

variable {key} {cursor : Option κ} {rows page rest more : List α} {row last : α}

theorem mem_behind : row ∈ behind key cursor rows ↔ row ∈ rows ∧ isBehind key cursor row = true :=
  List.mem_filter

theorem behind_none : behind key none rows = rows := List.filter_eq_self.mpr fun _ _ => rfl

theorem behind_append : behind key cursor (rows ++ more) =
    behind key cursor rows ++ behind key cursor more := List.filter_append ..

theorem Ordered.behind (h : Ordered key rows) : Ordered key (behind key cursor rows) :=
  h.sublist List.filter_sublist

theorem Ordered.nodup (h : Ordered key rows) : rows.Nodup := by
  apply List.Pairwise.imp _ h
  intro a b hlt heq
  rw [heq] at hlt
  exact lt_irrefl _ hlt

/-- A cursor that is a row behind another cursor leaves fewer rows. -/
theorem isBehind_trans (hlast : isBehind key cursor last = true) (h : key last < key row) :
    isBehind key cursor row = true := by
  cases cursor with
  | none => rfl
  | some first =>
    have hfirst : first < key last := of_decide_eq_true hlast
    exact decide_eq_true (lt_trans hfirst h)

theorem behind_behind (hrow : isBehind key cursor row = true) :
    behind key (some (key row)) (behind key cursor rows) = behind key (some (key row)) rows := by
  rw [behind, behind, behind, List.filter_filter]
  apply List.filter_congr
  intro other _
  by_cases hother : isBehind key (some (key row)) other = true
  · have hlt : key row < key other := of_decide_eq_true hother
    rw [hother, isBehind_trans hrow hlt]
    rfl
  · rw [Bool.not_eq_true] at hother
    rw [hother]
    rfl

theorem last_isBehind (hpage : behind key cursor rows = page ++ row :: rest) :
    isBehind key cursor row = true := by
  have hmem : row ∈ behind key cursor rows := by
    rw [hpage]
    simp
  exact (mem_behind.1 hmem).2

theorem behind_last (hordered : Ordered key rows)
    (hpage : Paging.behind key cursor rows = page ++ row :: rest) :
    Paging.behind key (some (key row)) rows = rest := by
  have hsorted : Ordered key (Paging.behind key cursor rows) := hordered.behind
  have hagain := @behind_behind _ _ _ key cursor rows row (last_isBehind hpage)
  rw [hpage] at hsorted hagain
  obtain ⟨-, hrest, hfront⟩ := List.pairwise_append.mp hsorted
  obtain ⟨hlater, -⟩ := List.pairwise_cons.mp hrest
  rw [← hagain, Paging.behind, List.filter_append, List.filter_cons]
  have hself : isBehind key (some (key row)) row = false := decide_eq_false (lt_irrefl _)
  have hnone : page.filter (isBehind key (some (key row))) = [] := by
    rw [List.filter_eq_nil_iff]
    intro other hother
    have hlt := hfront other hother row (List.mem_cons_self ..)
    rw [Bool.not_eq_true]
    exact decide_eq_false (lt_asymm hlt)
  have hall : rest.filter (isBehind key (some (key row))) = rest := by
    rw [List.filter_eq_self]
    intro other hother
    exact decide_eq_true (hlater other hother)
  rw [hnone, hall, hself]
  rfl

/-- The rows behind a row begin at the first one of them. -/
theorem drop_findIdx (hordered : Ordered key rows) :
    rows.drop (rows.findIdx (isBehind key cursor)) = Paging.behind key cursor rows := by
  induction rows with
  | nil => rfl
  | cons row rows ih =>
    obtain ⟨hrow, hrows⟩ := List.pairwise_cons.mp hordered
    rw [List.findIdx_cons, Paging.behind, List.filter_cons]
    cases hbehind : isBehind key cursor row with
    | false =>
      simp only [cond_false, List.drop_succ_cons, Bool.false_eq_true, ↓reduceIte]
      exact ih hrows
    | true =>
      have hall : rows.filter (isBehind key cursor) = rows := by
        rw [List.filter_eq_self]
        intro other hother
        exact isBehind_trans hbehind (hrow other hother)
      rw [cond_true, List.drop_zero, if_pos rfl, hall]

/-- The rows before the first one behind a cursor are those that are not behind it. -/
theorem take_findIdx (hordered : Ordered key rows) :
    rows.take (rows.findIdx (isBehind key cursor)) =
      rows.filter fun row => !isBehind key cursor row := by
  induction rows with
  | nil => rfl
  | cons row rows ih =>
    obtain ⟨hrow, hrows⟩ := List.pairwise_cons.mp hordered
    rw [List.findIdx_cons, List.filter_cons]
    cases hbehind : isBehind key cursor row with
    | false =>
      rw [cond_false, List.take_succ_cons, Bool.not_false, if_pos rfl, ih hrows]
    | true =>
      have hnone : (rows.filter fun row => !isBehind key cursor row) = [] := by
        rw [List.filter_eq_nil_iff]
        intro other hother
        rw [isBehind_trans hbehind (hrow other hother)]
        exact Bool.false_ne_true
      rw [cond_true, List.take_zero, Bool.not_true, if_neg Bool.false_ne_true, hnone]

/-- Among some first rows those behind a cursor begin at the same place. -/
theorem behind_take (hordered : Ordered key rows) (n : Nat) :
    Paging.behind key cursor (rows.take n) =
      (rows.take n).drop (rows.findIdx (isBehind key cursor)) := by
  have htake : Ordered key (rows.take n) := hordered.sublist (List.take_sublist n rows)
  rw [← drop_findIdx htake, List.findIdx_take]
  rcases Nat.le_total (rows.findIdx (isBehind key cursor)) n with hle | hle
  · rw [Nat.min_eq_right hle]
  · have hlength := List.length_take_le n rows
    rw [Nat.min_eq_left hle, List.drop_eq_nil_of_le hlength,
      List.drop_eq_nil_of_le (Nat.le_trans hlength hle)]

theorem Ordered.front (hordered : Ordered key rows)
    (hpage : Paging.behind key cursor rows = page ++ row :: rest) :
    Ordered key (page ++ [row]) ∧
      ∀ other ∈ page ++ [row], isBehind key cursor other = true ∧ key other ≤ key row := by
  have hsorted : Ordered key (Paging.behind key cursor rows) := hordered.behind
  have hsplit : page ++ row :: rest = (page ++ [row]) ++ rest := by simp
  rw [hpage, hsplit] at hsorted
  have hfront := (List.pairwise_append.mp hsorted).1
  constructor
  · exact hfront
  · intro other hother
    constructor
    · have hmem : other ∈ Paging.behind key cursor rows := by
        rw [hpage, hsplit]
        exact List.mem_append_left _ hother
      exact (mem_behind.1 hmem).2
    · rcases List.mem_append.mp hother with hin | hlast
      · exact le_of_lt ((List.pairwise_append.mp hfront).2.2 other hin row (by simp))
      · rw [List.mem_singleton.mp hlast]

end Cursor

section Walk

variable {α : Type u} {κ : Type v} [LinearOrder κ] (key : α → κ)

/-- Pages that are followed by another one: the lists they were taken of, and the cursors before
and after. -/
inductive Steps : Option κ → List (List α) → List (List α) → Option κ → Prop
  | start {cursor : Option κ} : Steps cursor [] [] cursor
  | page {cursor next : Option κ} {rows page rest : List α} {row : α}
      {lists pages : List (List α)}
      (hpage : behind key cursor rows = page ++ row :: rest)
      (hsteps : Steps (some (key row)) lists pages next) :
      Steps cursor (rows :: lists) ((page ++ [row]) :: pages) next

variable {key} {cursor next : Option κ} {rows : List α} {row : α} {lists pages : List (List α)}

section

variable (hsteps : Steps key cursor lists pages next)
include hsteps

theorem Steps.length_eq : pages.length = lists.length := by
  induction hsteps with
  | start => rfl
  | page hpage hsteps ih => rw [List.length_cons, List.length_cons, ih]

theorem Steps.isBehind (h : isBehind key next row = true) : isBehind key cursor row = true := by
  induction hsteps with
  | start => exact h
  | page hpage hsteps ih => exact isBehind_trans (last_isBehind hpage) (of_decide_eq_true (ih h))

section

variable (hordered : ∀ rows ∈ lists, Ordered key rows)
include hordered

/-- The rows of the pages lie between the two cursors, in the order of their keys. -/
theorem Steps.ordered : Ordered key pages.flatten ∧ ∀ row ∈ pages.flatten,
      Paging.isBehind key cursor row = true ∧ Paging.isBehind key next row = false := by
  induction hsteps with
  | start => exact ⟨List.Pairwise.nil, fun row hrow => absurd hrow List.not_mem_nil⟩
  | @page cursor next rows page rest row lists pages hpage hsteps ih =>
    obtain ⟨hlater, hbetween⟩ := ih fun other hother =>
      hordered other (List.mem_cons_of_mem _ hother)
    obtain ⟨hfront, hof⟩ := (hordered rows (List.mem_cons_self ..)).front hpage
    constructor
    · refine List.pairwise_append.mpr ⟨hfront, hlater, fun first hfirst other hother => ?_⟩
      have hafter : key row < key other := of_decide_eq_true (hbetween other hother).1
      exact lt_of_le_of_lt (hof first hfirst).2 hafter
    · intro other hother
      rcases List.mem_append.mp hother with hin | hin
      · refine ⟨(hof other hin).1, Bool.eq_false_iff.mpr fun hbehind => ?_⟩
        have hafter : key row < key other := of_decide_eq_true (hsteps.isBehind hbehind)
        exact absurd (hof other hin).2 (not_le_of_gt hafter)
      · obtain ⟨hafter, hbefore⟩ := hbetween other hin
        exact ⟨isBehind_trans (last_isBehind hpage) (of_decide_eq_true hafter), hbefore⟩

theorem Steps.mem_pages (hrow : ∀ rows ∈ lists, row ∈ rows)
    (hbehind : Paging.isBehind key cursor row = true) :
    row ∈ pages.flatten ∨ Paging.isBehind key next row = true := by
  induction hsteps with
  | start => exact .inr hbehind
  | @page cursor next rows page rest last lists pages hpage hsteps ih =>
    have hlists := fun other hother => hordered other (List.mem_cons_of_mem rows hother)
    have hrows := fun other hother => hrow other (List.mem_cons_of_mem rows hother)
    have hmem : row ∈ (page ++ [last]) ++ rest := by
      have h := mem_behind.2 ⟨hrow rows (List.mem_cons_self ..), hbehind⟩
      rw [hpage] at h
      simpa using h
    rw [List.flatten_cons, List.mem_append]
    rcases List.mem_append.mp hmem with hin | hin
    · exact .inl (.inl hin)
    · rw [← behind_last (hordered rows (List.mem_cons_self ..)) hpage] at hin
      rcases ih hlists hrows (mem_behind.1 hin).2 with hpages | hafter
      · exact .inl (.inr hpages)
      · exact .inr hafter

/-- With the last page, which is what is left behind the cursor, the pages are in order. -/
theorem Steps.ordered_all (hlast : Ordered key rows) :
    Ordered key (pages ++ [behind key next rows]).flatten := by
  obtain ⟨hpages, hbetween⟩ := hsteps.ordered hordered
  rw [List.flatten_append, List.flatten_singleton]
  refine List.pairwise_append.mpr ⟨hpages, hlast.behind, fun row hrow other hother => ?_⟩
  have hafter := (mem_behind.1 hother).2
  have hbefore := (hbetween row hrow).2
  cases next with
  | none => exact Bool.noConfusion hbefore
  | some last =>
    have hle : key row ≤ last := le_of_not_gt (of_decide_eq_false hbefore)
    exact lt_of_le_of_lt hle (of_decide_eq_true hafter)

/-- **Nothing is lost or repeated.** After the last page a row that every list has is on the pages
once. -/
theorem Steps.count_eq_one [BEq α] [LawfulBEq α] (hlast : Ordered key rows)
    (hrow : ∀ rows ∈ lists, row ∈ rows) (hin : row ∈ rows)
    (hbehind : Paging.isBehind key cursor row = true) :
    (pages ++ [behind key next rows]).flatten.count row = 1 := by
  apply List.count_eq_one_of_mem (hsteps.ordered_all hordered hlast).nodup
  rw [List.flatten_append, List.mem_append, List.flatten_singleton]
  rcases hsteps.mem_pages hordered hrow hbehind with hmem | hafter
  · exact .inl hmem
  · exact .inr (mem_behind.2 ⟨hin, hafter⟩)

end

end

end Walk

section Length

variable {α : Type u} {κ : Type v} [LinearOrder κ] [DecidableEq α] (key : α → κ)

def arrived (cursor : Option κ) (before rows : List α) : List α :=
  (behind key cursor rows).filter fun row => decide (row ∉ before)

/-- The rows that came to be behind the cursor between the pages of a walk. -/
def arrivals : Option κ → List α → List (List α) → List (List α) → Nat
  | cursor, before, rows :: lists, page :: pages =>
    (arrived key cursor before rows).length +
      arrivals (page.getLast?.map key) rows lists pages
  | _, _, _, _ => 0

variable {key} {cursor next : Option κ} {before rows : List α} {lists pages : List (List α)}

theorem length_behind_le (hordered : Ordered key rows) :
    (behind key cursor rows).length ≤
      (behind key cursor before).length + (arrived key cursor before rows).length := by
  have hsplit := List.length_eq_length_filter_add (l := behind key cursor rows)
    fun row => decide (row ∉ before)
  have hold : ((behind key cursor rows).filter fun row => !decide (row ∉ before)).length ≤
      (behind key cursor before).length := by
    refine (List.subperm_of_subset (hordered.behind.nodup.filter _) fun row hrow => ?_).length_le
    obtain ⟨hin, hbefore⟩ := List.mem_filter.mp hrow
    exact mem_behind.2 ⟨by simpa using hbefore, (mem_behind.1 hin).2⟩
  unfold arrived
  omega

/-- Every page takes a row away from those behind the cursor. -/
theorem Steps.length_le (hsteps : Steps key cursor lists pages next)
    (hordered : ∀ rows ∈ lists, Ordered key rows) :
    lists.length ≤ (behind key cursor before).length + arrivals key cursor before lists pages := by
  induction hsteps generalizing before with
  | start => exact Nat.zero_le _
  | @page cursor next rows page rest row lists pages hpage hsteps ih =>
    have hrows := hordered rows (List.mem_cons_self ..)
    have hle := @ih rows fun other hother => hordered other (List.mem_cons_of_mem _ hother)
    have hin : (behind key cursor rows).length ≤ (behind key cursor before).length +
        (arrived key cursor before rows).length := length_behind_le hrows
    have hlast : (page ++ [row]).getLast?.map key = some (key row) := by simp
    rw [behind_last hrows hpage] at hle
    rw [hpage, List.length_append, List.length_cons] at hin
    rw [arrivals, hlast, List.length_cons]
    omega

theorem arrivals_le_append {moreLists morePages : List (List α)}
    (hlength : pages.length = lists.length) :
    arrivals key cursor before lists pages ≤
      arrivals key cursor before (lists ++ moreLists) (pages ++ morePages) := by
  induction lists generalizing cursor before pages with
  | nil =>
    rw [List.length_nil, List.length_eq_zero_iff] at hlength
    rw [hlength]
    exact Nat.zero_le _
  | cons rows lists ih =>
    cases pages with
    | nil => exact absurd hlength (Nat.zero_ne_add_one _)
    | cons page pages =>
      have hle := @ih (page.getLast?.map key) rows pages (Nat.succ.inj hlength)
      rw [List.cons_append, List.cons_append, arrivals, arrivals]
      omega

end Length

end Paging
