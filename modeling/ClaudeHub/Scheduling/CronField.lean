import Mathlib.Data.Finset.Lattice.Fold
import ClaudeHub.Lib.Except
import ClaudeHub.Lib.Lines

/-! # The fields of cron expressions

A field is a list of values, ranges and stars, each with or without a step. Its parser splits at
the first of each mark; the grammar says which texts spell which elements.
-/

namespace ClaudeHub

open Lines

def decimalZeros : List Nat :=
  [0x30, 0x660, 0x6F0, 0x7C0, 0x966, 0x9E6, 0xA66, 0xAE6, 0xB66, 0xBE6, 0xC66, 0xCE6, 0xD66,
    0xDE6, 0xE50, 0xED0, 0xF20, 0x1040, 0x1090, 0x17E0, 0x1810, 0x1946, 0x19D0, 0x1A80, 0x1A90,
    0x1B50, 0x1BB0, 0x1C40, 0x1C50, 0xA620, 0xA8D0, 0xA900, 0xA9D0, 0xA9F0, 0xAA50, 0xABF0,
    0xFF10, 0x104A0, 0x10D30, 0x11066, 0x110F0, 0x11136, 0x111D0, 0x112F0, 0x11450, 0x114D0,
    0x11650, 0x116C0, 0x11730, 0x118E0, 0x11950, 0x11C50, 0x11D50, 0x11DA0, 0x16A60, 0x16AC0,
    0x16B50, 0x1D7CE, 0x1D7D8, 0x1D7E2, 0x1D7EC, 0x1D7F6, 0x1E140, 0x1E2F0, 0x1E950, 0x1FBF0]

def decimalDigit (c : Char) : Option Nat :=
  (decimalZeros.find? fun nought => nought ≤ c.toNat && c.toNat < nought + 10).map fun nought =>
    c.toNat - nought

/-- `int` of a text that is all digits. It fails on digits that are not decimal ones, which
`isdigit` lets pass, and on more of them than the interpreter converts. -/
def readInt (text : List Char) : Option Nat :=
  if text = [] ∨ 4300 < text.length then none
  else text.foldlM (fun value c => (decimalDigit c).map fun digit => 10 * value + digit) 0

/-- `split(separator, 1)` where the separator occurs. -/
def splitOnce (separator : Char) : List Char → Option (List Char × List Char)
  | [] => none
  | c :: cs =>
    if c = separator then some ([], cs)
    else (splitOnce separator cs).map fun (before, after) => (c :: before, after)

inductive CronFieldError
  | emptyElement
  | invalidStep (step : List Char)
  | invalidRange (base : List Char)
  | invalidValue (base : List Char)
  | outOfRange (part : List Char)
  | noValues
  deriving DecidableEq, Repr

/-- `range(start, end + 1, step)` -/
def stepRange (start stop step : Nat) : Finset Nat :=
  (Finset.range (stop + 1)).filter fun value => start ≤ value ∧ (value - start) % step = 0

def parseCronStep (part : List Char) : Except CronFieldError (List Char × Nat) :=
  match splitOnce '/' part with
  | some (base, stepText) =>
    match readInt (strip stepText) with
    | some step =>
      if step < 1 then .error (.invalidStep (strip stepText)) else .ok (base, step)
    | none => .error (.invalidStep (strip stepText))
  | none => .ok (part, 1)

def parseCronBase (minVal maxVal : Nat) (base : List Char) (step : Nat) :
    Except CronFieldError (Nat × Nat) :=
  if base = ['*'] then .ok (minVal, maxVal)
  else
    match splitOnce '-' base with
    | some (startText, endText) =>
      match readInt (strip startText), readInt (strip endText) with
      | some start, some stop => .ok (start, stop)
      | _, _ => .error (.invalidRange base)
    | none =>
      match readInt base with
      | some value => .ok (value, if 1 < step then maxVal else value)
      | none => .error (.invalidValue base)

def parseCronElement (minVal maxVal : Nat) (part : List Char) :
    Except CronFieldError (Finset Nat) := do
  let part := strip part
  if part = [] then .error .emptyElement
  else
    let (base, step) ← parseCronStep part
    let (start, stop) ← parseCronBase minVal maxVal base step
    if start < minVal ∨ maxVal < stop ∨ stop < start then .error (.outOfRange part)
    else .ok (stepRange start stop step)

def parseCronField (minVal maxVal : Nat) (expr : List Char) :
    Except CronFieldError (Finset Nat) := do
  let sets ← (expr.splitOn ',').mapM (parseCronElement minVal maxVal)
  let result := sets.foldr (· ∪ ·) ∅
  if result = ∅ then .error .noValues else .ok result

inductive CronBase
  | all
  | value (value : Nat)
  | range (first last : Nat)
  deriving DecidableEq, Repr

structure CronElement where
  base : CronBase
  step : Option Nat
  deriving DecidableEq, Repr

inductive CronBase.SpelledBy : List Char → CronBase → Prop
  | all : SpelledBy ['*'] all
  | value {text : List Char} {n : Nat} (h : readInt text = some n) : SpelledBy text (value n)
  | range {before after : List Char} {first last : Nat} (hfirst : readInt (strip before) = some first)
      (hlast : readInt (strip after) = some last) :
      SpelledBy (before ++ '-' :: after) (range first last)

inductive CronElement.SpelledBy : List Char → CronElement → Prop
  | plain {text : List Char} {base : CronBase} (h : base.SpelledBy text) :
      SpelledBy text ⟨base, none⟩
  | stepped {text stepText : List Char} {base : CronBase} {step : Nat} (h : base.SpelledBy text)
      (hstep : readInt (strip stepText) = some step) :
      SpelledBy (text ++ '/' :: stepText) ⟨base, some step⟩

namespace CronElement

variable (minVal maxVal : Nat) (element : CronElement)

def first : Nat :=
  match element.base with
  | .all => minVal
  | .value n => n
  | .range first _ => first

def last : Nat :=
  match element.base with
  | .all => maxVal
  | .value n => if element.step.isSome then maxVal else n
  | .range _ last => last

def denotes : Finset Nat :=
  stepRange (element.first minVal) (element.last maxVal) (element.step.getD 1)

def parsedLast : Nat :=
  match element.base with
  | .all => maxVal
  | .value n => if 1 < element.step.getD 1 then maxVal else n
  | .range _ last => last

def lists : Finset Nat :=
  stepRange (element.first minVal) (element.parsedLast maxVal) (element.step.getD 1)

def Valid : Prop :=
  element.step ≠ some 0 ∧ minVal ≤ element.first minVal ∧ element.last maxVal ≤ maxVal ∧
    element.first minVal ≤ element.last maxVal

end CronElement

/-- The text of a field spells these elements. -/
def SpellsCron (expr : List Char) (elements : List CronElement) : Prop :=
  List.Forall₂ (fun part element => CronElement.SpelledBy (strip part) element)
    (expr.splitOn ',') elements

def DenotesCron (minVal maxVal : Nat) (expr : List Char) (values : Finset Nat) : Prop :=
  ∃ elements, SpellsCron expr elements ∧ (∀ element ∈ elements, element.Valid minVal maxVal) ∧
    ∀ value, value ∈ values ↔ ∃ element ∈ elements, value ∈ element.denotes minVal maxVal

/-- What a bare value with a step of one denotes is in the list anyway. -/
def CoversUnitSteps (minVal maxVal : Nat) (expr : List Char) : Prop :=
  ∀ elements, SpellsCron expr elements → (∀ element ∈ elements, element.Valid minVal maxVal) →
    ∀ n, ⟨.value n, some 1⟩ ∈ elements → ∀ value, n ≤ value → value ≤ maxVal →
      ∃ element ∈ elements, value ∈ element.lists minVal maxVal

variable {text : List Char}

theorem splitOnce_eq_some {separator : Char} {before after : List Char} :
    splitOnce separator text = some (before, after) ↔
      text = before ++ separator :: after ∧ separator ∉ before := by
  induction text generalizing before with
  | nil => simp [splitOnce]
  | cons c cs ih =>
    unfold splitOnce
    by_cases hc : c = separator
    · subst hc
      rw [if_pos rfl]
      cases before with
      | nil => simp [eq_comm]
      | cons => simp; grind
    · rw [if_neg hc]
      cases before with
      | nil => simp [hc]
      | cons b bs =>
        simp only [Option.map_eq_some_iff, Prod.exists, Prod.mk.injEq, List.cons.injEq,
          List.cons_append, List.mem_cons, not_or]
        constructor
        · rintro ⟨front, back, hsplit, ⟨rfl, rfl⟩, rfl⟩
          obtain ⟨htext, hmem⟩ := ih.mp hsplit
          exact ⟨⟨rfl, htext⟩, fun h => hc h.symm, hmem⟩
        · rintro ⟨⟨rfl, htext⟩, -, hmem⟩
          exact ⟨bs, after, ih.mpr ⟨htext, hmem⟩, ⟨rfl, rfl⟩, rfl⟩

theorem splitOnce_eq_none {separator : Char} :
    splitOnce separator text = none ↔ separator ∉ text := by
  induction text with
  | nil => simp [splitOnce]
  | cons c cs ih =>
    unfold splitOnce
    by_cases hc : c = separator
    · simp [hc]
    · simp [hc, ih, Ne.symm hc]

variable {value n : Nat}

theorem digit_of_mem
    (h : text.foldlM (fun value c => (decimalDigit c).map fun digit => 10 * value + digit) value =
        some n) :
    ∀ c ∈ text, (decimalDigit c).isSome := by
  induction text generalizing value with
  | nil => simp
  | cons c cs ih =>
    rw [List.foldlM_cons] at h
    obtain ⟨next, hnext, hrest⟩ := Option.bind_eq_some_iff.mp h
    obtain ⟨digit, hdigit, -⟩ := Option.map_eq_some_iff.mp hnext
    intro d hd
    rcases List.mem_cons.mp hd with rfl | hd
    · rw [hdigit]
      rfl
    · exact ih hrest d hd

theorem digit_of_mem_numeral (h : readInt text = some n) :
    ∀ c ∈ text, (decimalDigit c).isSome := by
  unfold readInt at h
  split at h
  · contradiction
  · exact digit_of_mem h

variable {c : Char}

theorem not_mem_numeral (h : readInt text = some n) (hc : decimalDigit c = none) : c ∉ text := by
  intro hmem
  have hdigit := digit_of_mem_numeral h c hmem
  rw [hc] at hdigit
  contradiction

theorem mem_dropWhile_or {p : Char → Bool} (h : c ∈ text) :
    p c = true ∨ c ∈ text.dropWhile p := by
  rw [← List.takeWhile_append_dropWhile (p := p) (l := text)] at h
  rcases List.mem_append.mp h with hfront | hback
  · exact .inl (List.mem_takeWhile_imp hfront)
  · exact .inr hback

theorem mem_strip (h : c ∈ text) (hc : isSpace c = false) :
    c ∈ strip text := by
  unfold strip
  rcases mem_dropWhile_or (p := isSpace) h with hspace | hleft
  · rw [hc] at hspace
    contradiction
  · rcases mem_dropWhile_or (p := isSpace) (List.mem_reverse.mpr hleft) with hspace | hright
    · rw [hc] at hspace
      contradiction
    · exact List.mem_reverse.mpr hright

theorem not_mem_of_stripped (h : readInt (strip text) = some n) (hdigit : decimalDigit c = none)
    (hspace : isSpace c = false) : c ∉ text :=
  fun hmem => not_mem_numeral h hdigit (mem_strip hmem hspace)

/-! ## What the parser reads -/

theorem readInt_star : readInt ['*'] = none := by decide

variable {step : Nat}

theorem mem_stepRange {start stop : Nat} :
    value ∈ stepRange start stop step ↔
      (start ≤ value ∧ value ≤ stop) ∧ (value - start) % step = 0 := by
  simp only [stepRange, Finset.mem_filter, Finset.mem_range]
  omega

variable {base : CronBase}

theorem CronBase.SpelledBy.slash_not_mem (h : base.SpelledBy text) : '/' ∉ text := by
  cases h with
  | all => decide
  | value h => exact not_mem_numeral h (by decide)
  | range hfirst hlast =>
    have hbefore := not_mem_of_stripped hfirst (c := '/') (by decide) (by decide)
    have hafter := not_mem_of_stripped hlast (c := '/') (by decide) (by decide)
    simp [hbefore, hafter]

theorem CronBase.SpelledBy.ne_nil (h : base.SpelledBy text) :
    text ≠ [] := by
  cases h with
  | all => decide
  | value h =>
    rintro rfl
    simp [readInt] at h
  | range => simp

theorem parseCronStep_ok_iff {part base : List Char} :
    parseCronStep part = .ok (base, step) ↔
      (∃ stepText, part = base ++ '/' :: stepText ∧ '/' ∉ base ∧
          readInt (strip stepText) = some step ∧ 1 ≤ step) ∨
        ('/' ∉ part ∧ base = part ∧ step = 1) := by
  unfold parseCronStep
  cases hsplit : splitOnce '/' part with
  | none =>
    have hnone := splitOnce_eq_none.1 hsplit
    simp only [Except.ok.injEq, Prod.mk.injEq]
    constructor
    · rintro ⟨rfl, rfl⟩
      exact .inr ⟨hnone, rfl, rfl⟩
    · rintro (⟨stepText, rfl, -⟩ | ⟨-, rfl, rfl⟩)
      · exact absurd (by simp) hnone
      · exact ⟨rfl, rfl⟩
  | some pair =>
    obtain ⟨before, after⟩ := pair
    obtain ⟨hpart, hbefore⟩ := splitOnce_eq_some.1 hsplit
    have hmem : '/' ∈ part := by simp [hpart]
    have hread : (∃ stepText, part = base ++ '/' :: stepText ∧ '/' ∉ base ∧
        readInt (strip stepText) = some step ∧ 1 ≤ step) ↔
        before = base ∧ readInt (strip after) = some step ∧ 1 ≤ step := by
      constructor
      · rintro ⟨stepText, hsame, hbase, hstep, hpos⟩
        have hother := splitOnce_eq_some.2 ⟨hsame, hbase⟩
        rw [hsplit] at hother
        obtain ⟨rfl, rfl⟩ : before = base ∧ after = stepText := by simpa using hother
        exact ⟨rfl, hstep, hpos⟩
      · rintro ⟨rfl, hstep, hpos⟩
        exact ⟨after, hpart, hbefore, hstep, hpos⟩
    rw [hread]
    simp only [hmem, not_true_eq_false, false_and, or_false]
    cases hstep : readInt (strip after) with
    | none => simp
    | some =>
      simp only
      split
      · simp
        omega
      · simp only [Except.ok.injEq, Prod.mk.injEq, Option.some.injEq]
        constructor
        · rintro ⟨rfl, rfl⟩
          exact ⟨rfl, rfl, by omega⟩
        · rintro ⟨rfl, rfl, -⟩
          exact ⟨rfl, rfl⟩

variable {minVal maxVal : Nat}

theorem parseCronBase_ok_iff {start stop : Nat} :
    parseCronBase minVal maxVal text step = .ok (start, stop) ↔
      ∃ base : CronBase, base.SpelledBy text ∧
        start = (CronElement.mk base (some step)).first minVal ∧
        stop = (CronElement.mk base (some step)).parsedLast maxVal := by
  unfold parseCronBase
  constructor
  · intro h
    split at h
    case isTrue hall =>
      obtain ⟨rfl, rfl⟩ : minVal = start ∧ maxVal = stop := by simpa using h
      subst hall
      exact ⟨.all, .all, rfl, rfl⟩
    case isFalse hall =>
      split at h
      case h_1 before after hsplit =>
        split at h
        case h_1 first last hfirst hlast =>
          obtain ⟨rfl, rfl⟩ : first = start ∧ last = stop := by simpa using h
          obtain ⟨rfl, -⟩ := splitOnce_eq_some.1 hsplit
          exact ⟨.range first last, .range hfirst hlast, rfl, rfl⟩
        case h_2 => contradiction
      case h_2 hsplit =>
        split at h
        case h_1 value hvalue =>
          obtain ⟨rfl, rfl⟩ : value = start ∧ (if 1 < step then maxVal else value) = stop := by
            simpa using h
          exact ⟨.value value, .value hvalue, rfl, rfl⟩
        case h_2 => contradiction
  · rintro ⟨base, hspelled, rfl, rfl⟩
    cases hspelled with
    | all => rfl
    | value h =>
      rename_i value
      have hstar : text ≠ ['*'] := by
        rintro rfl
        rw [readInt_star] at h
        contradiction
      have hdash : splitOnce '-' text = none :=
        splitOnce_eq_none.2 (not_mem_numeral h (by decide))
      simp [hstar, hdash, h, CronElement.first, CronElement.parsedLast]
    | range hfirst hlast =>
      rename_i before after first last
      have hstar : before ++ '-' :: after ≠ ['*'] := by
        intro hsame
        have hmem : '-' ∈ ['*'] := hsame ▸ (by simp)
        exact absurd hmem (by decide)
      have hsplit : splitOnce '-' (before ++ '-' :: after) = some (before, after) :=
        splitOnce_eq_some.2 ⟨rfl, not_mem_of_stripped hfirst (by decide) (by decide)⟩
      simp [hstar, hsplit, hfirst, hlast, CronElement.first, CronElement.parsedLast]

theorem CronBase.spelledBy_iff :
    base.SpelledBy text ↔
      match base with
      | .all => text = ['*']
      | .value n => readInt text = some n
      | .range first last => ∃ before after, text = before ++ '-' :: after ∧
          readInt (strip before) = some first ∧ readInt (strip after) = some last := by
  constructor
  · intro h
    cases h with
    | all => rfl
    | value h => exact h
    | range hfirst hlast => exact ⟨_, _, rfl, hfirst, hlast⟩
  · intro h
    cases base with
    | all =>
      subst h
      exact .all
    | value => exact .value h
    | range =>
      obtain ⟨before, after, rfl, hfirst, hlast⟩ := h
      exact .range hfirst hlast

theorem CronBase.SpelledBy.unique {other : CronBase} (h : base.SpelledBy text)
    (hother : other.SpelledBy text) : base = other := by
  have hdash : ∀ {n : Nat} {before after : List Char}, text = before ++ '-' :: after →
      readInt text ≠ some n := by
    intro n before after htext hread
    apply not_mem_numeral hread (c := '-') (by decide)
    rw [htext]
    simp
  have hstar : ∀ {before after : List Char}, text = before ++ '-' :: after → text ≠ ['*'] := by
    intro before after htext hsame
    have hmem : '-' ∈ text := by
      rw [htext]
      simp
    rw [hsame] at hmem
    exact absurd hmem (by decide)
  have hnumeral : ∀ {n : Nat}, readInt text = some n → text ≠ ['*'] := by
    intro n hread hsame
    rw [hsame, readInt_star] at hread
    contradiction
  rw [CronBase.spelledBy_iff] at h hother
  cases base with
  | all =>
    cases other with
    | all => rfl
    | value => exact absurd h (hnumeral hother)
    | range =>
      obtain ⟨before, after, htext, -⟩ := hother
      exact absurd h (hstar htext)
  | value =>
    cases other with
    | all => exact absurd hother (hnumeral h)
    | value =>
      rw [h] at hother
      rw [Option.some.inj hother]
    | range =>
      obtain ⟨before, after, htext, -⟩ := hother
      exact absurd h (hdash htext)
  | range =>
    obtain ⟨before, after, htext, hfirst, hlast⟩ := h
    cases other with
    | all => exact absurd hother (hstar htext)
    | value => exact absurd hother (hdash htext)
    | range =>
      obtain ⟨before', after', htext', hfirst', hlast'⟩ := hother
      have hsplit : splitOnce '-' text = some (before, after) :=
        splitOnce_eq_some.2 ⟨htext, not_mem_of_stripped hfirst (by decide) (by decide)⟩
      have hsplit' : splitOnce '-' text = some (before', after') :=
        splitOnce_eq_some.2 ⟨htext', not_mem_of_stripped hfirst' (by decide) (by decide)⟩
      rw [hsplit] at hsplit'
      obtain ⟨rfl, rfl⟩ : before = before' ∧ after = after' := by simpa using hsplit'
      rw [hfirst] at hfirst'
      rw [hlast] at hlast'
      rw [Option.some.inj hfirst', Option.some.inj hlast']

variable {element : CronElement}

theorem CronElement.spelledBy_iff :
    element.SpelledBy text ↔
      match element.step with
      | none => element.base.SpelledBy text
      | some step => ∃ base stepText, text = base ++ '/' :: stepText ∧
          element.base.SpelledBy base ∧ readInt (strip stepText) = some step := by
  obtain ⟨base, step⟩ := element
  constructor
  · intro h
    cases h with
    | plain h => exact h
    | stepped h hstep => exact ⟨_, _, rfl, h, hstep⟩
  · intro h
    cases step with
    | none => exact .plain h
    | some =>
      obtain ⟨text, stepText, rfl, hbase, hstep⟩ := h
      exact .stepped hbase hstep

theorem parseCronStep_of_spelled (h : element.SpelledBy text) (hstep : element.step ≠ some 0) :
    ∃ base, parseCronStep text = .ok (base, element.step.getD 1) ∧
      element.base.SpelledBy base := by
  rw [CronElement.spelledBy_iff] at h
  cases hread : element.step with
  | none =>
    rw [hread] at h
    exact ⟨text, parseCronStep_ok_iff.2 (.inr ⟨h.slash_not_mem, rfl, rfl⟩), h⟩
  | some step =>
    rw [hread] at h hstep
    obtain ⟨base, stepText, rfl, hbase, hnumeral⟩ := h
    have hpos : 1 ≤ step := by
      rcases Nat.eq_zero_or_pos step with rfl | hpos
      · exact absurd rfl hstep
      · exact hpos
    exact ⟨base, parseCronStep_ok_iff.2
      (.inl ⟨stepText, rfl, hbase.slash_not_mem, hnumeral, hpos⟩), hbase⟩

theorem CronElement.SpelledBy.unique {other : CronElement} (h : element.SpelledBy text)
    (hother : other.SpelledBy text) : element = other := by
  obtain ⟨base, step⟩ := element
  obtain ⟨otherBase, otherStep⟩ := other
  rw [CronElement.spelledBy_iff] at h hother
  cases step with
  | none =>
    cases otherStep with
    | none =>
      have hsame : base = otherBase := h.unique hother
      rw [hsame]
    | some =>
      obtain ⟨before, stepText, rfl, -⟩ := hother
      exact absurd (by simp) h.slash_not_mem
  | some =>
    obtain ⟨before, stepText, rfl, hbase, hstep⟩ := h
    cases otherStep with
    | none => exact absurd (by simp) hother.slash_not_mem
    | some =>
      obtain ⟨before', stepText', htext, hbase', hstep'⟩ := hother
      have hsplit : splitOnce '/' (before ++ '/' :: stepText) = some (before, stepText) :=
        splitOnce_eq_some.2 ⟨rfl, hbase.slash_not_mem⟩
      have hsplit' := splitOnce_eq_some.2 ⟨htext, hbase'.slash_not_mem⟩
      rw [hsplit] at hsplit'
      obtain ⟨rfl, rfl⟩ : before = before' ∧ stepText = stepText' := by simpa using hsplit'
      rw [hstep] at hstep'
      have hsame : base = otherBase := hbase.unique hbase'
      rw [Option.some.inj hstep', hsame]

theorem CronElement.valid_iff :
    element.Valid minVal maxVal ↔ element.step ≠ some 0 ∧ minVal ≤ element.first minVal ∧
      element.parsedLast maxVal ≤ maxVal ∧
        element.first minVal ≤ element.parsedLast maxVal := by
  obtain ⟨base, step⟩ := element
  cases base with
  | all => rfl
  | range => rfl
  | value =>
    cases step with
    | none => simp [Valid, CronElement.first, CronElement.last, CronElement.parsedLast]
    | some =>
      simp only [Valid, CronElement.first, CronElement.last, CronElement.parsedLast,
        Option.isSome_some, Option.getD_some, if_true]
      split
      · rfl
      · constructor
        · rintro ⟨hstep, hmin, -, hmax⟩
          exact ⟨hstep, hmin, hmax, le_refl _⟩
        · rintro ⟨hstep, hmin, hmax, -⟩
          exact ⟨hstep, hmin, le_refl _, hmax⟩

theorem parseCronElement_ok_iff {part : List Char} {values : Finset Nat} :
    parseCronElement minVal maxVal part = .ok values ↔
      ∃ element : CronElement, element.SpelledBy (strip part) ∧ element.Valid minVal maxVal ∧
        values = element.lists minVal maxVal := by
  unfold parseCronElement
  constructor
  · intro h
    simp only at h
    split at h
    · contradiction
    · obtain ⟨⟨base, step⟩, hstep, h⟩ := Except.bind_ok_iff.mp h
      obtain ⟨⟨start, stop⟩, hbase, h⟩ := Except.bind_ok_iff.mp h
      simp only at h
      split at h
      · contradiction
      · rename_i hrange
        cases h
        obtain ⟨cronBase, hspelled, rfl, rfl⟩ := parseCronBase_ok_iff.1 hbase
        simp only [not_or, Nat.not_lt] at hrange
        rcases parseCronStep_ok_iff.1 hstep with ⟨stepText, hpart, -, hread, hpos⟩ | ⟨-, rfl, rfl⟩
        · refine ⟨⟨cronBase, some step⟩, ?_, ?_, rfl⟩
          · rw [hpart]
            exact .stepped hspelled hread
          · rw [CronElement.valid_iff]
            exact ⟨by simp; omega, hrange.1, hrange.2.1, hrange.2.2⟩
        · refine ⟨⟨cronBase, none⟩, .plain hspelled, ?_, rfl⟩
          rw [CronElement.valid_iff]
          exact ⟨by simp, hrange.1, hrange.2.1, hrange.2.2⟩
  · rintro ⟨element, hspelled, hvalid, rfl⟩
    rw [CronElement.valid_iff] at hvalid
    obtain ⟨hstep, hmin, hmax, hle⟩ := hvalid
    obtain ⟨base, hreadStep, hbase⟩ := parseCronStep_of_spelled hspelled hstep
    have hne : strip part ≠ [] := by
      intro hempty
      rw [hempty] at hreadStep
      obtain rfl : [] = base := by
        have hread : parseCronStep [] = .ok ([], 1) := rfl
        rw [hread] at hreadStep
        simpa using congrArg Prod.fst (Except.ok.inj hreadStep)
      exact hbase.ne_nil rfl
    have hreadBase : parseCronBase minVal maxVal base (element.step.getD 1) =
        .ok (element.first minVal, element.parsedLast maxVal) := by
      rw [parseCronBase_ok_iff]
      obtain ⟨cronBase, step⟩ := element
      cases step with
      | none => exact ⟨cronBase, hbase, rfl, rfl⟩
      | some => exact ⟨cronBase, hbase, rfl, rfl⟩
    simp only [if_neg hne, hreadStep]
    rw [Except.bind_ok_iff]
    refine ⟨_, rfl, ?_⟩
    simp only
    rw [hreadBase, Except.bind_ok_iff]
    refine ⟨_, rfl, ?_⟩
    simp only
    rw [if_neg (by omega)]
    rfl

theorem CronElement.Valid.first_mem_lists (h : element.Valid minVal maxVal) :
    element.first minVal ∈ element.lists minVal maxVal := by
  rw [CronElement.valid_iff] at h
  unfold CronElement.lists
  rw [mem_stepRange]
  exact ⟨⟨le_refl _, h.2.2.2⟩, by simp⟩

theorem mem_foldr_union {sets : List (Finset Nat)} :
    value ∈ sets.foldr (· ∪ ·) ∅ ↔ ∃ values ∈ sets, value ∈ values := by
  induction sets with
  | nil => simp
  | cons values sets ih => simp [ih]

theorem parseCronField_ok_iff {expr : List Char} {values : Finset Nat} :
    parseCronField minVal maxVal expr = .ok values ↔
      ∃ elements, SpellsCron expr elements ∧
        (∀ element ∈ elements, element.Valid minVal maxVal) ∧
          values = (elements.map fun element => element.lists minVal maxVal).foldr (· ∪ ·) ∅ := by
  have hparts : ∀ sets, (expr.splitOn ',').mapM (parseCronElement minVal maxVal) = .ok sets ↔
      ∃ elements, SpellsCron expr elements ∧
        (∀ element ∈ elements, element.Valid minVal maxVal) ∧
          sets = elements.map fun element => element.lists minVal maxVal := by
    intro sets
    rw [Except.mapM_ok_iff]
    unfold SpellsCron
    generalize expr.splitOn ',' = parts
    induction parts generalizing sets with
    | nil =>
      constructor
      · intro h
        cases h
        exact ⟨[], .nil, nofun, rfl⟩
      · rintro ⟨elements, hspelled, -, rfl⟩
        cases hspelled
        exact .nil
    | cons part parts ih =>
      constructor
      · intro h
        obtain ⟨set', rest, hset, hrest, rfl⟩ := List.forall₂_cons_left_iff.mp h
        obtain ⟨element, hspelled, hvalid, rfl⟩ := parseCronElement_ok_iff.1 hset
        obtain ⟨elements, hall, hvalids, rfl⟩ := (ih rest).mp hrest
        refine ⟨element :: elements, .cons hspelled hall, ?_, rfl⟩
        intro other hother
        rcases List.mem_cons.mp hother with rfl | hother
        · exact hvalid
        · exact hvalids other hother
      · rintro ⟨elements, hspelled, hvalids, rfl⟩
        obtain ⟨element, rest, helement, hrest, rfl⟩ := List.forall₂_cons_left_iff.mp hspelled
        refine .cons ?_ ?_
        · exact parseCronElement_ok_iff.2
            ⟨element, helement, hvalids element List.mem_cons_self, rfl⟩
        · exact (ih _).mpr ⟨rest, hrest,
            fun other hother => hvalids other (List.mem_cons_of_mem _ hother), rfl⟩
  have hne : expr.splitOn ',' ≠ [] := List.splitOn_ne_nil _ _
  unfold parseCronField
  constructor
  · intro h
    obtain ⟨sets, hsets, h⟩ := Except.bind_ok_iff.mp h
    simp only at h
    split at h
    · contradiction
    · cases h
      obtain ⟨elements, hspelled, hvalids, rfl⟩ := (hparts sets).mp hsets
      exact ⟨elements, hspelled, hvalids, rfl⟩
  · rintro ⟨elements, hspelled, hvalids, rfl⟩
    rw [Except.bind_ok_iff]
    refine ⟨_, (hparts _).mpr ⟨elements, hspelled, hvalids, rfl⟩, ?_⟩
    simp only
    rw [if_neg]
    intro hempty
    -- a field has at least one element, which lists its first value
    cases elements with
    | nil =>
      have hnil : expr.splitOn ',' = [] := List.forall₂_nil_right_iff.mp hspelled
      exact hne hnil
    | cons element rest =>
      have hfirst := (hvalids element List.mem_cons_self).first_mem_lists
      have hmem : element.first minVal ∈ ((element :: rest).map fun element =>
          element.lists minVal maxVal).foldr (· ∪ ·) ∅ :=
        mem_foldr_union.2 ⟨_, List.mem_map.mpr ⟨element, List.mem_cons_self, rfl⟩, hfirst⟩
      rw [hempty] at hmem
      simp at hmem

theorem SpellsCron.unique {expr : List Char} {elements others : List CronElement}
    (h : SpellsCron expr elements) (hothers : SpellsCron expr others) : elements = others := by
  unfold SpellsCron at h hothers
  generalize expr.splitOn ',' = parts at h hothers
  induction h generalizing others with
  | nil =>
    cases hothers
    rfl
  | cons hhead _ ih =>
    obtain ⟨other, rest, hother, hrest, rfl⟩ := List.forall₂_cons_left_iff.mp hothers
    rw [hhead.unique hother, ih hrest]

theorem CronElement.lists_eq_denotes (h : ∀ n, element ≠ ⟨.value n, some 1⟩)
    (hstep : element.step ≠ some 0) :
    element.lists minVal maxVal = element.denotes minVal maxVal := by
  obtain ⟨base, step⟩ := element
  cases base with
  | all => rfl
  | range => rfl
  | value n =>
    cases step with
    | none => rfl
    | some step =>
      have hone : step ≠ 1 := fun hone => h n (by rw [hone])
      have hzero : step ≠ 0 := fun hzero => hstep (by rw [hzero])
      have hlt : 1 < step := by omega
      simp [CronElement.lists, CronElement.denotes, CronElement.parsedLast,
        CronElement.last, hlt]

theorem CronElement.lists_subset (h : element.Valid minVal maxVal)
    (hmem : value ∈ element.lists minVal maxVal) :
    value ∈ element.denotes minVal maxVal := by
  by_cases hunit : ∃ n, element = ⟨.value n, some 1⟩
  · obtain ⟨n, rfl⟩ := hunit
    have hmax := h.2.2.1
    have hle := h.2.2.2
    unfold CronElement.lists at hmem
    unfold CronElement.denotes
    rw [mem_stepRange] at hmem ⊢
    simp only [CronElement.first, CronElement.parsedLast, CronElement.last, Option.getD_some,
      Option.isSome_some, if_true] at hmem hle ⊢
    simp only [Nat.lt_irrefl, if_false] at hmem
    omega
  · rw [← CronElement.lists_eq_denotes (fun n hn => hunit ⟨n, hn⟩) h.1]
    exact hmem

/-- The parser returns what a field denotes, and rejects what denotes nothing, exactly where the
list covers what its bare values with a step of one denote. -/
theorem parseCronField_exact_iff (minVal maxVal : Nat) (expr : List Char) :
    (∀ values, parseCronField minVal maxVal expr = .ok values ↔
      DenotesCron minVal maxVal expr values) ↔ CoversUnitSteps minVal maxVal expr := by
  constructor
  · intro hexact elements hspelled hvalids n hunit value hle hmax
    have hparsed := parseCronField_ok_iff.2 ⟨elements, hspelled, hvalids, rfl⟩
    obtain ⟨others, hothers, -, hdenoted⟩ := (hexact _).mp hparsed
    obtain rfl := hspelled.unique hothers
    have hmem := (hdenoted value).mpr ⟨_, hunit, by
      unfold CronElement.denotes
      rw [mem_stepRange]
      exact ⟨⟨hle, hmax⟩, Nat.mod_one _⟩⟩
    obtain ⟨values, hvalues, hvalue⟩ := mem_foldr_union.1 hmem
    obtain ⟨element, helement, rfl⟩ := List.mem_map.mp hvalues
    exact ⟨element, helement, hvalue⟩
  · intro hcovers values
    rw [parseCronField_ok_iff]
    have hsame : ∀ elements, SpellsCron expr elements →
        (∀ element ∈ elements, element.Valid minVal maxVal) → ∀ value,
          (∃ element ∈ elements, value ∈ element.lists minVal maxVal) ↔
            ∃ element ∈ elements, value ∈ element.denotes minVal maxVal := by
      intro elements hspelled hvalids value
      constructor
      · rintro ⟨element, helement, hvalue⟩
        exact ⟨element, helement, CronElement.lists_subset (hvalids element helement) hvalue⟩
      · rintro ⟨element, helement, hvalue⟩
        by_cases hunit : ∃ n, element = ⟨.value n, some 1⟩
        · obtain ⟨n, rfl⟩ := hunit
          unfold CronElement.denotes at hvalue
          rw [mem_stepRange] at hvalue
          exact hcovers elements hspelled hvalids n helement value hvalue.1.1 hvalue.1.2
        · refine ⟨element, helement, ?_⟩
          rw [CronElement.lists_eq_denotes (fun n hn => hunit ⟨n, hn⟩) (hvalids element helement).1]
          exact hvalue
    constructor
    · rintro ⟨elements, hspelled, hvalids, rfl⟩
      refine ⟨elements, hspelled, hvalids, fun value => ?_⟩
      rw [← hsame elements hspelled hvalids, mem_foldr_union]
      simp
    · rintro ⟨elements, hspelled, hvalids, hvalues⟩
      refine ⟨elements, hspelled, hvalids, ?_⟩
      ext value
      rw [hvalues, ← hsame elements hspelled hvalids, mem_foldr_union]
      simp

end ClaudeHub
