import Mathlib.Data.List.TakeWhile

/-! # Text files as lists of lines

`splitLines` reads a text the way iterating over a text file does, without the
line ends; `joinLines` writes each line with its line end. A text is a list of
complete lines followed by a tail that a torn write may have left.
-/

namespace Lines

def splitLines : List Char → List (List Char)
  | [] => []
  | c :: cs =>
    if c = '\n' then [] :: splitLines cs
    else
      match splitLines cs with
      | [] => [[c]]
      | line :: lines => (c :: line) :: lines

def joinLines (lines : List (List Char)) : List Char := lines.flatMap fun line => line ++ ['\n']

/-- The lines of a text with their line ends, as a file reads them one by one. -/
def readlines : List Char → List (List Char)
  | [] => []
  | c :: cs =>
    if c = '\n' then [c] :: readlines cs
    else
      match readlines cs with
      | [] => [[c]]
      | line :: lines => (c :: line) :: lines

/-- The white space that stripping removes. -/
def isSpace (c : Char) : Bool :=
  let n := c.toNat
  (9 ≤ n && n ≤ 13) || (28 ≤ n && n ≤ 32) || n = 0x85 || n = 0xA0 || n = 0x1680 ||
    (0x2000 ≤ n && n ≤ 0x200A) || n = 0x2028 || n = 0x2029 || n = 0x202F || n = 0x205F ||
    n = 0x3000

/-- Remove white space from both ends. -/
def strip (text : List Char) : List Char :=
  ((text.dropWhile isSpace).reverse.dropWhile isSpace).reverse

@[simp] theorem joinLines_nil : joinLines [] = [] := rfl

@[simp] theorem joinLines_cons (line : List Char) (lines : List (List Char)) :
    joinLines (line :: lines) = line ++ '\n' :: joinLines lines := by
  simp [joinLines]

@[simp] theorem joinLines_append (lines more : List (List Char)) :
    joinLines (lines ++ more) = joinLines lines ++ joinLines more := by
  simp [joinLines]

@[simp] theorem splitLines_nil : splitLines [] = [] := rfl

attribute [local simp] splitLines

theorem splitLines_line {line : List Char} (h : '\n' ∉ line) (rest : List Char) :
    splitLines (line ++ '\n' :: rest) = line :: splitLines rest := by
  induction line with
  | nil => simp [splitLines]
  | cons c line ih =>
    have hc : c ≠ '\n' := fun heq => h (by simp [heq])
    have hrest : '\n' ∉ line := fun hmem => h (List.mem_cons_of_mem _ hmem)
    simp [splitLines, hc, ih hrest]

theorem splitLines_tail {tail : List Char} (h : '\n' ∉ tail) (hne : tail ≠ []) :
    splitLines tail = [tail] := by
  induction tail with
  | nil => exact (hne rfl).elim
  | cons c tail ih =>
    have hc : c ≠ '\n' := fun heq => h (by simp [heq])
    have hrest : '\n' ∉ tail := fun hmem => h (List.mem_cons_of_mem _ hmem)
    cases tail with
    | nil => simp [splitLines, hc]
    | cons =>
      rw [splitLines, if_neg hc, ih hrest (by simp)]

/-- Reading back written lines, and what a torn write left after them. -/
theorem splitLines_joinLines {lines : List (List Char)} (h : ∀ line ∈ lines, '\n' ∉ line)
    (tail : List Char) : splitLines (joinLines lines ++ tail) = lines ++ splitLines tail := by
  induction lines with
  | nil => simp
  | cons line lines ih =>
    have hline := splitLines_line (h line (by simp)) (joinLines lines ++ tail)
    have hrest := ih fun other hother => h other (List.mem_cons_of_mem _ hother)
    simpa [hrest] using hline

theorem readlines_line {line : List Char} (h : '\n' ∉ line) (rest : List Char) :
    readlines (line ++ '\n' :: rest) = (line ++ ['\n']) :: readlines rest := by
  induction line with
  | nil => simp [readlines]
  | cons c line ih =>
    have hc : c ≠ '\n' := fun heq => h (by simp [heq])
    have hrest : '\n' ∉ line := fun hmem => h (List.mem_cons_of_mem _ hmem)
    simp [readlines, hc, ih hrest]

theorem readlines_joinLines {lines : List (List Char)} (h : ∀ line ∈ lines, '\n' ∉ line) :
    readlines (joinLines lines) = lines.map fun line => line ++ ['\n'] := by
  induction lines with
  | nil => rfl
  | cons line lines ih =>
    have hrest := ih fun other hother => h other (List.mem_cons_of_mem _ hother)
    rw [joinLines_cons, readlines_line (h line (by simp)), hrest, List.map_cons]

theorem strip_newline (line : List Char) : strip (line ++ ['\n']) = strip line := by
  have hspace : isSpace '\n' = true := by decide
  by_cases hblank : ∀ c ∈ line, isSpace c = true
  · have hnil : line.dropWhile isSpace = [] := List.dropWhile_eq_nil_iff.mpr hblank
    have hnil' : (line ++ ['\n']).dropWhile isSpace = [] := by
      refine List.dropWhile_eq_nil_iff.mpr fun c hc => ?_
      rcases List.mem_append.mp hc with hline | hend
      · exact hblank c hline
      · rw [List.mem_singleton.mp hend]
        exact hspace
    rw [strip, strip, hnil, hnil']
  · have hne : line.dropWhile isSpace ≠ [] := fun hnil =>
      hblank (List.dropWhile_eq_nil_iff.mp hnil)
    rw [strip, strip, List.dropWhile_append, if_neg (by simpa using hne), List.reverse_append,
      List.reverse_singleton, List.singleton_append, List.dropWhile_cons_of_pos hspace]

theorem count_dropWhile_isSpace {c : Char} (hc : isSpace c = false) (text : List Char) :
    (text.dropWhile isSpace).count c = text.count c := by
  have hzero : (text.takeWhile isSpace).count c = 0 := by
    refine List.count_eq_zero.mpr fun hmem => ?_
    rw [List.mem_takeWhile_imp hmem] at hc
    exact Bool.noConfusion hc
  have hsplit := congrArg (List.count c) (@List.takeWhile_append_dropWhile _ isSpace text)
  rw [List.count_append, hzero, Nat.zero_add] at hsplit
  exact hsplit

theorem count_strip {c : Char} (hc : isSpace c = false) (text : List Char) :
    (strip text).count c = text.count c := by
  rw [strip, List.count_reverse, count_dropWhile_isSpace hc, List.count_reverse,
    count_dropWhile_isSpace hc]

theorem strip_of_ends {first last : Char} (hfirst : isSpace first = false)
    (hlast : isSpace last = false) (body : List Char) :
    strip (first :: (body ++ [last])) = first :: (body ++ [last]) := by
  simp [strip, hfirst, hlast]

/-! ## Files of bytes -/

section Keepends

universe u

variable {α : Type u} [DecidableEq α] {newline : α}

/-- The lines of a file with their line ends; the last one may have none. -/
def keepends (newline : α) : List α → List (List α)
  | [] => []
  | c :: cs =>
    if c = newline then [c] :: keepends newline cs
    else
      match keepends newline cs with
      | [] => [[c]]
      | line :: lines => (c :: line) :: lines

/-- The line has its line end. -/
def isComplete (newline : α) (line : List α) : Bool := line.getLast? = some newline

def completeLines (newline : α) (text : List α) : List (List α) :=
  (keepends newline text).takeWhile (isComplete newline)

attribute [local simp] keepends

theorem keepends_cons_ne_nil (c : α) (cs : List α) : keepends newline (c :: cs) ≠ [] := by
  rw [keepends]
  split
  · exact List.cons_ne_nil _ _
  · split <;> exact List.cons_ne_nil _ _

@[simp] theorem flatten_keepends (text : List α) : (keepends newline text).flatten = text := by
  induction text with
  | nil => rfl
  | cons c cs ih =>
      rw [keepends]
      split
      · rw [List.flatten_cons, ih, List.singleton_append]
      · cases hlines : keepends newline cs with
        | nil =>
            rw [hlines] at ih
            simpa using ih
        | cons =>
            rw [hlines] at ih
            simpa using ih

theorem keepends_ne_nil {text line : List α} (h : line ∈ keepends newline text) : line ≠ [] := by
  induction text generalizing line with
  | nil => exact absurd h List.not_mem_nil
  | cons c cs ih =>
    rw [keepends] at h
    split at h
    · rcases List.mem_cons.mp h with rfl | hrest
      · exact List.cons_ne_nil _ _
      · exact ih hrest
    · cases hlines : keepends newline cs with
      | nil =>
        rw [hlines] at h
        rw [List.mem_singleton.mp h]
        exact List.cons_ne_nil _ _
      | cons =>
        simp only [hlines] at h
        rcases List.mem_cons.mp h with rfl | hrest
        · exact List.cons_ne_nil _ _
        · exact ih (by rw [hlines]; exact List.mem_cons_of_mem _ hrest)

variable {front : List α}

/-- A text that ends with a line end is split apart from what follows it. -/
theorem keepends_append (h : front = [] ∨ isComplete newline front = true) (rest : List α) :
    keepends newline (front ++ rest) = keepends newline front ++ keepends newline rest := by
  induction front with
  | nil => rfl
  | cons c front ih =>
    have hlast : isComplete newline (c :: front) = true := by
      rcases h with hnil | hlast
      · exact absurd hnil (List.cons_ne_nil _ _)
      · exact hlast
    cases front with
    | nil =>
      have hc : c = newline := by simpa [isComplete] using hlast
      rw [List.singleton_append, keepends, keepends, if_pos hc, if_pos hc]
      rfl
    | cons d front =>
      have hrest : isComplete newline (d :: front) = true := by
        simpa [isComplete, List.getLast?_cons_cons] using hlast
      have hfront := ih (.inr hrest)
      rw [List.cons_append, keepends, keepends, hfront]
      by_cases hc : c = newline
      · rw [if_pos hc, if_pos hc, List.cons_append]
      · rw [if_neg hc, if_neg hc]
        cases hlines : keepends newline (d :: front) with
        | nil => exact absurd hlines (keepends_cons_ne_nil d front)
        | cons => rfl

theorem keepends_complete (h : front = [] ∨ isComplete newline front = true) :
    ∀ line ∈ keepends newline front, isComplete newline line = true := by
  induction front with
  | nil => exact fun line hline => absurd hline List.not_mem_nil
  | cons c front ih =>
    have hlast : isComplete newline (c :: front) = true := by
      rcases h with hnil | hlast
      · exact absurd hnil (List.cons_ne_nil _ _)
      · exact hlast
    intro line hline
    cases front with
    | nil =>
      have hc : c = newline := by simpa [isComplete] using hlast
      rw [keepends, if_pos hc] at hline
      rw [List.mem_singleton.mp hline]
      exact hlast
    | cons d front =>
      have hrest : isComplete newline (d :: front) = true := by
        simpa [isComplete, List.getLast?_cons_cons] using hlast
      have hfront := ih (.inr hrest)
      rw [keepends] at hline
      by_cases hc : c = newline
      · rw [if_pos hc, List.mem_cons] at hline
        rcases hline with rfl | hline
        · simp [isComplete, hc]
        · exact hfront line hline
      · rw [if_neg hc] at hline
        cases hlines : keepends newline (d :: front) with
        | nil => exact absurd hlines (keepends_cons_ne_nil d front)
        | cons first =>
          have hfirst : first ∈ keepends newline (d :: front) := by
            rw [hlines]
            exact List.mem_cons_self
          simp only [hlines, List.mem_cons] at hline
          rcases hline with rfl | hline
          · have hne := keepends_ne_nil hfirst
            have hcomplete := hfront first hfirst
            cases first with
            | nil => exact absurd rfl hne
            | cons => simpa [isComplete, List.getLast?_cons_cons] using hcomplete
          · exact hfront line (by rw [hlines]; exact List.mem_cons_of_mem _ hline)

theorem keepends_tail {tail : List α} (h : newline ∉ tail) (hne : tail ≠ []) :
    keepends newline tail = [tail] := by
  induction tail with
  | nil => exact (hne rfl).elim
  | cons c tail ih =>
    have hc : c ≠ newline := fun heq => h (by simp [heq])
    have hrest : newline ∉ tail := fun hmem => h (List.mem_cons_of_mem _ hmem)
    cases tail with
    | nil => simp [keepends, hc]
    | cons => rw [keepends, if_neg hc, ih hrest (by simp)]

theorem completeLines_tail {tail : List α} (h : newline ∉ tail) : completeLines newline tail = [] := by
  by_cases hne : tail = []
  · rw [hne]
    rfl
  · have hlast : isComplete newline tail = false := by
      rw [isComplete, decide_eq_false_iff_not]
      exact fun hlast => h (List.mem_of_getLast? hlast)
    rw [completeLines, keepends_tail h hne, List.takeWhile_cons, hlast]
    rfl

theorem exists_complete_front (newline : α) (text : List α) :
    ∃ front tail, text = front ++ tail ∧ (front = [] ∨ isComplete newline front = true) ∧
      newline ∉ tail := by
  induction text with
  | nil => exact ⟨[], [], rfl, .inl rfl, List.not_mem_nil⟩
  | cons c cs ih =>
    obtain ⟨front, tail, rfl, hfront, htail⟩ := ih
    rcases hfront with rfl | hlast
    · by_cases hc : c = newline
      · exact ⟨[c], tail, rfl, .inr (by simp [isComplete, hc]), htail⟩
      · refine ⟨[], c :: tail, rfl, .inl rfl, fun hmem => ?_⟩
        rcases List.mem_cons.mp hmem with heq | hin
        · exact hc heq.symm
        · exact htail hin
    · refine ⟨c :: front, tail, rfl, .inr ?_, htail⟩
      cases front with
      | nil => exact Bool.noConfusion hlast
      | cons => simpa [isComplete, List.getLast?_cons_cons] using hlast

theorem completeLines_append (h : front = [] ∨ isComplete newline front = true) (rest : List α) :
    completeLines newline (front ++ rest) = keepends newline front ++ completeLines newline rest := by
  rw [completeLines, completeLines, keepends_append h,
    List.takeWhile_append_of_pos (keepends_complete h)]

end Keepends

end Lines
