import Mathlib.Data.List.TakeWhile

/-! # Patterns over text

Sequences of character classes, greedy repetitions and word boundaries, with the backtracking
search for a match and the substitution of all matches. What counts as a word character is a
parameter.
-/

namespace TextPattern

inductive Atom
  | one (p : Char → Bool)
  | many (p : Char → Bool) (least : Nat) (most : Option Nat)
  | boundary

abbrev Pattern := List Atom

def literal (text : String) : Pattern := text.toList.map fun c => .one (· = c)

variable (isWord : Char → Bool)

def wordAt : Option Char → Bool
  | none => false
  | some c => isWord c

/-- A word starts or ends between two neighbours. -/
def isBoundary (prev next : Option Char) : Bool := wordAt isWord prev != wordAt isWord next

/-- How many characters a repetition may take of a run. -/
def capped (most : Option Nat) (run : Nat) : Nat :=
  match most with
  | none => run
  | some most => min most run

def Matches : Pattern → Option Char → List Char → Option Char → Prop
  | [], _, text, _ => text = []
  | .one p :: rest, _, text, next =>
    ∃ c tail, text = c :: tail ∧ p c = true ∧ Matches rest (some c) tail next
  | .many p least most :: rest, prev, text, next =>
    ∃ run tail, text = run ++ tail ∧ (∀ c ∈ run, p c = true) ∧ least ≤ run.length ∧
      (∀ n, most = some n → run.length ≤ n) ∧ Matches rest (run.getLast?.or prev) tail next
  | .boundary :: rest, prev, text, next =>
    isBoundary isWord prev (text.head?.or next) = true ∧ Matches rest prev text next

/-- The match at the start of a text and what follows it: a repetition gives back characters
until the rest of the pattern matches. -/
def matchAt : Pattern → Option Char → List Char → Option (List Char × List Char)
  | [], _, text => some ([], text)
  | .one p :: rest, _, text =>
    match text with
    | [] => none
    | c :: tail =>
      if p c then (matchAt rest (some c) tail).map fun found => (c :: found.1, found.2)
      else none
  | .many p least most :: rest, prev, text =>
    let limit := capped most (text.takeWhile p).length
    ((List.range (limit + 1 - least)).reverse).findSome? fun i =>
      let run := text.take (least + i)
      (matchAt rest (run.getLast?.or prev) (text.drop (least + i))).map fun found =>
        (run ++ found.1, found.2)
  | .boundary :: rest, prev, text =>
    if isBoundary isWord prev text.head? then matchAt rest prev text else none

variable {isWord} {pattern : Pattern} {prev next : Option Char} {text found rest : List Char}

theorem le_capped {most : Option Nat} {run n : Nat} :
    n ≤ capped most run ↔ n ≤ run ∧ ∀ m, most = some m → n ≤ m := by
  cases most with
  | none => simp [capped]
  | some => simp [capped, Nat.le_min, and_comm]

/-- What the search finds at the start of a text is a match there. -/
theorem matchAt_sound (h : matchAt isWord pattern prev text = some (found, rest)) :
    text = found ++ rest ∧ Matches isWord pattern prev found rest.head? := by
  induction pattern generalizing prev text found rest with
  | nil =>
    obtain ⟨rfl, rfl⟩ : [] = found ∧ text = rest := by simpa [matchAt] using h
    exact ⟨rfl, rfl⟩
  | cons atom pattern ih =>
    cases atom with
    | one p =>
      cases text with
      | nil => simp [matchAt] at h
      | cons c =>
        by_cases hp : p c = true
        · simp only [matchAt, hp, if_true, Option.map_eq_some_iff] at h
          obtain ⟨⟨found', rest'⟩, hfound, heq⟩ := h
          obtain ⟨rfl, rfl⟩ := Prod.mk.inj heq
          obtain ⟨rfl, hmatches⟩ := ih hfound
          exact ⟨rfl, c, found', rfl, hp, hmatches⟩
        · simp [matchAt, hp] at h
    | many p least most =>
      obtain ⟨i, hi, hmap⟩ := List.exists_of_findSome?_eq_some h
      simp only [List.mem_reverse, List.mem_range] at hi
      rw [Option.map_eq_some_iff] at hmap
      obtain ⟨⟨found', rest'⟩, hfound, heq⟩ := hmap
      obtain ⟨rfl, rfl⟩ := Prod.mk.inj heq
      obtain ⟨hdrop, hmatches⟩ := ih hfound
      have hcount : least + i ≤ capped most (text.takeWhile p).length := by omega
      have hrun := (le_capped.1 hcount).1
      have hlength : (text.take (least + i)).length = least + i := by
        have hwhole := (List.takeWhile_prefix p (l := text)).length_le
        rw [List.length_take]
        omega
      have htext : text.take (least + i) = (text.takeWhile p).take (least + i) := by
        rw [(List.prefix_iff_eq_take.mp (List.takeWhile_prefix p (l := text))),
          List.take_take, Nat.min_eq_left hrun]
      refine ⟨?_, text.take (least + i), found', rfl, ?_, by omega, ?_, hmatches⟩
      · rw [List.append_assoc, ← hdrop, List.take_append_drop]
      · intro c hc
        rw [htext] at hc
        exact List.mem_takeWhile_imp (List.mem_of_mem_take hc)
      · intro n hn
        rw [hlength]
        exact (le_capped.1 hcount).2 n hn
    | boundary =>
      by_cases hb : isBoundary isWord prev text.head? = true
      · rw [matchAt, if_pos hb] at h
        obtain ⟨rfl, hmatches⟩ := ih h
        refine ⟨rfl, ?_, hmatches⟩
        rwa [List.head?_append] at hb
      · simp [matchAt, hb] at h

theorem Matches.congr_prev {prev' : Option Char} (h : Matches isWord pattern prev text next)
    (hprev : wordAt isWord prev = wordAt isWord prev') :
    Matches isWord pattern prev' text next := by
  induction pattern generalizing prev prev' text with
  | nil => exact h
  | cons atom pattern ih =>
    cases atom with
    | one => exact h
    | many =>
      obtain ⟨run, tail, rfl, hrun, hleast, hmost, hmatches⟩ := h
      refine ⟨run, tail, rfl, hrun, hleast, hmost, ih hmatches ?_⟩
      cases run.getLast? with
      | none => exact hprev
      | some => rfl
    | boundary =>
      obtain ⟨hb, hmatches⟩ := h
      refine ⟨?_, ih hmatches hprev⟩
      rwa [isBoundary, ← hprev]

def Atom.takes (c : Char) : Atom → Bool
  | .one p => p c
  | .many p _ _ => p c
  | .boundary => false

theorem Matches.not_mem (h : Matches isWord pattern prev text next) {c : Char}
    (hc : pattern.all (fun atom => !atom.takes c) = true) : c ∉ text := by
  induction pattern generalizing prev text with
  | nil =>
    rw [show text = [] from h]
    simp
  | cons atom pattern ih =>
    simp only [List.all_cons, Bool.and_eq_true, Bool.not_eq_true'] at hc
    obtain ⟨hatom, hrest⟩ := hc
    cases atom with
    | one p =>
      obtain ⟨d, tail, rfl, hp, hmatches⟩ := h
      intro hmem
      rcases List.mem_cons.mp hmem with rfl | hmem
      · rw [show p c = false from hatom] at hp
        contradiction
      · exact ih hmatches hrest hmem
    | many p =>
      obtain ⟨run, tail, rfl, hrun, _, _, hmatches⟩ := h
      intro hmem
      rcases List.mem_append.mp hmem with hmem | hmem
      · have hp := hrun c hmem
        rw [show p c = false from hatom] at hp
        contradiction
      · exact ih hmatches hrest hmem
    | boundary => exact ih h.2 hrest

/-- The fewest characters of a match. -/
def minLength : Pattern → Nat
  | [] => 0
  | .one _ :: rest => 1 + minLength rest
  | .many _ least _ :: rest => least + minLength rest
  | .boundary :: rest => minLength rest

theorem Matches.minLength_le (h : Matches isWord pattern prev text next) :
    minLength pattern ≤ text.length := by
  induction pattern generalizing prev text with
  | nil => exact Nat.zero_le _
  | cons atom pattern ih =>
    cases atom with
    | one =>
      obtain ⟨c, tail, rfl, _, hmatches⟩ := h
      have hle := ih hmatches
      simp only [minLength, List.length_cons]
      omega
    | many =>
      obtain ⟨run, tail, rfl, _, hleast, _, hmatches⟩ := h
      have hle := ih hmatches
      simp only [minLength, List.length_append]
      omega
    | boundary => exact ih h.2

theorem Matches.append {more : Pattern} {left right : List Char}
    (h : Matches isWord pattern prev left (right.head?.or next))
    (hmore : Matches isWord more (left.getLast?.or prev) right next) :
    Matches isWord (pattern ++ more) prev (left ++ right) next := by
  induction pattern generalizing prev left with
  | nil =>
    obtain rfl : left = [] := h
    exact hmore
  | cons atom pattern ih =>
    cases atom with
    | one =>
      obtain ⟨c, tail, rfl, hp, hmatches⟩ := h
      refine ⟨c, tail ++ right, rfl, hp, ih hmatches ?_⟩
      cases hlast : tail.getLast? with
      | none =>
        obtain rfl := List.getLast?_eq_none_iff.mp hlast
        simpa using hmore
      | some => simpa [List.getLast?_cons, hlast] using hmore
    | many =>
      obtain ⟨run, tail, rfl, hrun, hleast, hmost, hmatches⟩ := h
      refine ⟨run, tail ++ right, List.append_assoc .., hrun, hleast, hmost,
        ih hmatches ?_⟩
      rwa [List.getLast?_append, Option.or_assoc] at hmore
    | boundary =>
      obtain ⟨hb, hmatches⟩ := h
      refine ⟨?_, ih hmatches hmore⟩
      rwa [List.head?_append, Option.or_assoc]

theorem matches_append {more : Pattern} :
    Matches isWord (pattern ++ more) prev text next ↔
      ∃ left right, text = left ++ right ∧
        Matches isWord pattern prev left (right.head?.or next) ∧
        Matches isWord more (left.getLast?.or prev) right next := by
  constructor
  · intro h
    induction pattern generalizing prev text with
    | nil => exact ⟨[], text, rfl, rfl, h⟩
    | cons atom pattern ih =>
      cases atom with
      | one =>
        obtain ⟨c, tail, rfl, hp, hmatches⟩ := h
        obtain ⟨left, right, rfl, hleft, hright⟩ := ih hmatches
        refine ⟨c :: left, right, rfl, ⟨c, left, rfl, hp, hleft⟩, ?_⟩
        cases hlast : left.getLast? with
        | none =>
          obtain rfl := List.getLast?_eq_none_iff.mp hlast
          simpa using hright
        | some => simpa [List.getLast?_cons, hlast] using hright
      | many =>
        obtain ⟨run, tail, rfl, hrun, hleast, hmost, hmatches⟩ := h
        obtain ⟨left, right, rfl, hleft, hright⟩ := ih hmatches
        refine ⟨run ++ left, right, (List.append_assoc ..).symm,
          ⟨run, left, rfl, hrun, hleast, hmost, hleft⟩, ?_⟩
        rwa [List.getLast?_append, Option.or_assoc]
      | boundary =>
        obtain ⟨hb, hmatches⟩ := h
        obtain ⟨left, right, rfl, hleft, hright⟩ := ih hmatches
        refine ⟨left, right, rfl, ⟨?_, hleft⟩, hright⟩
        rwa [List.head?_append, Option.or_assoc] at hb
  · rintro ⟨left, right, rfl, hleft, hright⟩
    exact hleft.append hright

variable (isWord)

def FoundIn (pattern : Pattern) (text : List Char) : Prop :=
  ∃ before found after, text = before ++ (found ++ after) ∧
    Matches isWord pattern before.getLast? found after.head?

/-- Replace all matches from left to right, for a pattern that takes some character. -/
def substitute (pattern : Pattern) (replacement : List Char) :
    Nat → Option Char → List Char → List Char
  | 0, _, text => text
  | _ + 1, _, [] => []
  | fuel + 1, prev, c :: tail =>
    match matchAt isWord pattern prev (c :: tail) with
    | some (found, rest) =>
      if found = [] then c :: substitute pattern replacement fuel (some c) tail
      else replacement ++ substitute pattern replacement fuel found.getLast? rest
    | none => c :: substitute pattern replacement fuel (some c) tail

variable {isWord}

theorem foundIn_of_matchAt {before : List Char}
    (h : matchAt isWord pattern before.getLast? text = some (found, rest)) :
    FoundIn isWord pattern (before ++ text) := by
  obtain ⟨rfl, hmatches⟩ := matchAt_sound h
  exact ⟨before, found, rest, rfl, hmatches⟩

/-- Nothing is replaced in a text without a match. -/
theorem substitute_eq_self {before replacement : List Char} (fuel : Nat)
    (h : ¬ FoundIn isWord pattern (before ++ text)) :
    substitute isWord pattern replacement fuel before.getLast? text = text := by
  induction fuel generalizing before text with
  | zero => rfl
  | succ fuel ih =>
    cases text with
    | nil => rfl
    | cons c tail =>
      cases hmatch : matchAt isWord pattern before.getLast? (c :: tail) with
      | some => exact absurd (foundIn_of_matchAt hmatch) h
      | none =>
        rw [List.append_cons] at h
        have htail := ih h
        rw [List.getLast?_concat] at htail
        simp only [substitute, hmatch, htail]

end TextPattern
