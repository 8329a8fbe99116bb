import Mathlib.Data.List.Basic
import Mathlib.Data.List.Forall2

/-! # Searching a text for a spelling

A spelling is a list of letters, and a relation says which characters stand for a letter.
Searches return the first or the last place where the rest of the text passes a test.
-/

namespace TextSearch

variable {α β : Type*}

def dropSpelled (same : α → β → Bool) : List α → List β → Option (List β)
  | [], text => some text
  | _ :: _, [] => none
  | p :: ps, c :: cs => if same p c then dropSpelled same ps cs else none

def startsWith (same : α → β → Bool) (needle : List α) (text : List β) : Bool :=
  (dropSpelled same needle text).isSome

/-- The first place where the rest of the text passes the test. -/
def findAt (test : List β → Bool) : List β → Option Nat
  | [] => if test [] then some 0 else none
  | c :: cs => if test (c :: cs) then some 0 else (findAt test cs).map (· + 1)

/-- The last place where the rest of the text passes the test. -/
def rfindAt (test : List β → Bool) : List β → Option Nat
  | [] => if test [] then some 0 else none
  | c :: cs => ((rfindAt test cs).map (· + 1)).or (if test (c :: cs) then some 0 else none)

def Spelled (same : α → β → Bool) (needle : List α) (found : List β) : Prop :=
  List.Forall₂ (fun p c => same p c = true) needle found

variable {same : α → β → Bool} {needle : List α} {test : List β → Bool}
  {text found rest more : List β}

theorem dropSpelled_eq_some :
    dropSpelled same needle text = some rest ↔
      ∃ found, Spelled same needle found ∧ text = found ++ rest := by
  induction needle generalizing text with
  | nil =>
    constructor
    · intro h
      exact ⟨[], .nil, Option.some.inj h⟩
    · rintro ⟨found, hfound, rfl⟩
      cases hfound
      rfl
  | cons p ps ih =>
    cases text with
    | nil => simp [dropSpelled, Spelled]
    | cons c =>
      by_cases hp : same p c = true
      · rw [dropSpelled, if_pos hp, ih]
        constructor
        · rintro ⟨found, hfound, rfl⟩
          exact ⟨c :: found, .cons hp hfound, rfl⟩
        · rintro ⟨found, hfound, htext⟩
          cases hfound with
          | cons _ hrest =>
            obtain ⟨rfl, rfl⟩ := List.cons.inj htext
            exact ⟨_, hrest, rfl⟩
      · rw [dropSpelled, if_neg hp]
        constructor
        · intro h
          contradiction
        · rintro ⟨found, hfound, htext⟩
          cases hfound with
          | cons hsame =>
            obtain ⟨rfl, -⟩ := List.cons.inj htext
            exact absurd hsame hp

@[simp] theorem startsWith_cons_cons {p : α} {c : β} :
    startsWith same (p :: needle) (c :: text) = (same p c && startsWith same needle text) := by
  by_cases hp : same p c = true
  · simp [startsWith, dropSpelled, hp]
  · simp [startsWith, dropSpelled, hp]

theorem startsWith_iff :
    startsWith same needle text = true ↔
      ∃ found rest, Spelled same needle found ∧ text = found ++ rest := by
  rw [startsWith, Option.isSome_iff_exists]
  constructor
  · rintro ⟨rest, hrest⟩
    obtain ⟨found, hfound, rfl⟩ := dropSpelled_eq_some.1 hrest
    exact ⟨found, rest, hfound, rfl⟩
  · rintro ⟨found, rest, hfound, rfl⟩
    exact ⟨rest, dropSpelled_eq_some.2 ⟨found, hfound, rfl⟩⟩

theorem Spelled.length_eq (h : Spelled same needle found) : found.length = needle.length :=
  (List.Forall₂.length_eq h).symm

theorem dropSpelled_append (h : dropSpelled same needle text = some rest) (more : List β) :
    dropSpelled same needle (text ++ more) = some (rest ++ more) := by
  obtain ⟨found, hfound, rfl⟩ := dropSpelled_eq_some.1 h
  exact dropSpelled_eq_some.2 ⟨found, hfound, List.append_assoc found rest more⟩

/-- A text that is long enough starts with a spelling whatever follows it. -/
theorem dropSpelled_append_of_le (h : needle.length ≤ text.length) (more : List β) :
    dropSpelled same needle (text ++ more) = (dropSpelled same needle text).map (· ++ more) := by
  induction needle generalizing text with
  | nil => rfl
  | cons p ps ih =>
    cases text with
    | nil => simp at h
    | cons c =>
      by_cases hp : same p c = true
      · simp only [List.cons_append, dropSpelled, hp, if_true]
        exact ih (by simpa using h)
      · simp [dropSpelled, hp]

/-! ## Places -/

theorem findAt_of_pos (h : test text = true) : findAt test text = some 0 := by
  cases text with
  | nil => rw [findAt, if_pos h]
  | cons => rw [findAt, if_pos h]

theorem findAt_cons_of_neg {c : β} (h : test (c :: text) = false) :
    findAt test (c :: text) = (findAt test text).map (· + 1) := by
  rw [findAt, h, if_neg Bool.false_ne_true]

theorem rfindAt_cons_of_neg {c : β} (h : test (c :: text) = false) :
    rfindAt test (c :: text) = (rfindAt test text).map (· + 1) := by
  rw [rfindAt, h, if_neg Bool.false_ne_true, Option.or_none]

/-- Where no place among the first characters passes the test, a search goes on behind them. -/
theorem findAt_append_of_neg (h : ∀ i < found.length, test (found.drop i ++ text) = false) :
    findAt test (found ++ text) = (findAt test text).map (· + found.length) := by
  induction found with
  | nil => simp
  | cons c found ih =>
    have hzero : test (c :: (found ++ text)) = false := h 0 (Nat.succ_pos _)
    have hrest := ih fun i hi => h (i + 1) (Nat.succ_lt_succ hi)
    rw [List.cons_append, findAt_cons_of_neg hzero, hrest, Option.map_map]
    rfl

theorem rfindAt_append_of_neg (h : ∀ i < found.length, test (found.drop i ++ text) = false) :
    rfindAt test (found ++ text) = (rfindAt test text).map (· + found.length) := by
  induction found with
  | nil => simp
  | cons c found ih =>
    have hzero : test (c :: (found ++ text)) = false := h 0 (Nat.succ_pos _)
    have hrest := ih fun i hi => h (i + 1) (Nat.succ_lt_succ hi)
    rw [List.cons_append, rfindAt_cons_of_neg hzero, hrest, Option.map_map]
    rfl

theorem findAt_eq_none : findAt test text = none ↔ ∀ i ≤ text.length, test (text.drop i) = false := by
  induction text with
  | nil => simp [findAt]
  | cons c cs ih =>
    by_cases hc : test (c :: cs) = true
    · rw [findAt, if_pos hc]
      constructor
      · intro h
        contradiction
      · intro h
        have hzero := h 0 (Nat.zero_le _)
        rw [List.drop_zero, hc] at hzero
        contradiction
    · rw [findAt, if_neg hc, Option.map_eq_none_iff, ih]
      constructor
      · intro h i hi
        cases i with
        | zero => simpa using hc
        | succ i => exact h i (by simpa using hi)
      · intro h i hi
        exact h (i + 1) (by simpa using hi)

theorem findAt_eq_some {i : Nat} :
    findAt test text = some i ↔
      i ≤ text.length ∧ test (text.drop i) = true ∧ ∀ j < i, test (text.drop j) = false := by
  induction text generalizing i with
  | nil =>
    by_cases hc : test [] = true
    · simp only [findAt, hc, if_true, Option.some.injEq, List.length_nil, List.drop_nil]
      constructor
      · rintro rfl
        simp
      · rintro ⟨hi, -, -⟩
        omega
    · simp [findAt, hc]
  | cons c cs ih =>
    by_cases hc : test (c :: cs) = true
    · rw [findAt, if_pos hc]
      constructor
      · intro h
        cases h
        exact ⟨Nat.zero_le _, hc, fun j hj => absurd hj (Nat.not_lt_zero j)⟩
      · rintro ⟨-, -, hbefore⟩
        cases i with
        | zero => rfl
        | succ i =>
          have hzero := hbefore 0 (Nat.succ_pos i)
          rw [List.drop_zero, hc] at hzero
          contradiction
    · rw [findAt, if_neg hc, Option.map_eq_some_iff]
      constructor
      · rintro ⟨k, hk, rfl⟩
        obtain ⟨hle, hat, hbefore⟩ := ih.1 hk
        refine ⟨by simpa using hle, hat, ?_⟩
        intro j hj
        cases j with
        | zero => simpa using hc
        | succ j => exact hbefore j (by omega)
      · rintro ⟨hle, hat, hbefore⟩
        cases i with
        | zero => exact absurd hat hc
        | succ i =>
          refine ⟨i, ih.2 ⟨by simpa using hle, hat, ?_⟩, rfl⟩
          intro j hj
          exact hbefore (j + 1) (by omega)

theorem isSome_findAt : (findAt test text).isSome = true ↔
    ∃ i, i ≤ text.length ∧ test (text.drop i) = true := by
  cases h : findAt test text with
  | none =>
    rw [findAt_eq_none] at h
    simp only [Option.isSome_none, Bool.false_eq_true, false_iff]
    rintro ⟨i, hi, hat⟩
    rw [h i hi] at hat
    contradiction
  | some i =>
    obtain ⟨hle, hat, -⟩ := findAt_eq_some.1 h
    simp only [Option.isSome_some, true_iff]
    exact ⟨i, hle, hat⟩

theorem rfindAt_eq_none :
    rfindAt test text = none ↔ ∀ i ≤ text.length, test (text.drop i) = false := by
  induction text with
  | nil => simp [rfindAt]
  | cons c cs ih =>
    rw [rfindAt, Option.or_eq_none_iff, Option.map_eq_none_iff, ih]
    constructor
    · rintro ⟨h, hzero⟩ i hi
      cases i with
      | zero => simpa using hzero
      | succ i => exact h i (by simpa using hi)
    · intro h
      refine ⟨fun i hi => h (i + 1) (by simpa using hi), ?_⟩
      have hzero := h 0 (Nat.zero_le _)
      rw [List.drop_zero] at hzero
      rw [hzero, if_neg Bool.false_ne_true]

theorem rfindAt_spec {i : Nat} (h : rfindAt test text = some i) :
    i ≤ text.length ∧ test (text.drop i) = true ∧
      ∀ j, i < j → j ≤ text.length → test (text.drop j) = false := by
  induction text generalizing i with
  | nil =>
    by_cases hc : test [] = true
    · rw [rfindAt, if_pos hc] at h
      cases h
      exact ⟨Nat.le_refl _, hc, fun j hj hle => absurd hle (Nat.not_le_of_lt hj)⟩
    · rw [rfindAt, if_neg hc] at h
      contradiction
  | cons c cs ih =>
    rw [rfindAt] at h
    cases hrest : rfindAt test cs with
    | some k =>
      rw [hrest] at h
      obtain rfl : k + 1 = i := by simpa using h
      obtain ⟨hle, hat, hafter⟩ := ih hrest
      refine ⟨by simpa using hle, hat, ?_⟩
      intro j hj hjle
      obtain ⟨j, rfl⟩ : ∃ n, j = n + 1 := ⟨j - 1, by omega⟩
      exact hafter j (by omega) (by simpa using hjle)
    | none =>
      rw [hrest, Option.map_none, Option.none_or] at h
      by_cases hc : test (c :: cs) = true
      · rw [if_pos hc] at h
        cases h
        refine ⟨Nat.zero_le _, hc, ?_⟩
        intro j hj hjle
        obtain ⟨j, rfl⟩ : ∃ n, j = n + 1 := ⟨j - 1, by omega⟩
        exact rfindAt_eq_none.1 hrest j (by simpa using hjle)
      · rw [if_neg hc] at h
        contradiction

end TextSearch
