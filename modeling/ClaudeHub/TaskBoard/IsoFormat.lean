import ClaudeHub.Scheduling.Calendar
import Mathlib.Tactic.Ring

/-! # Timestamps as text

`isoformat` of a datetime, with or without an offset from UTC, and `fromisoformat` for the extended
form: dashes, colons and any one character between the date and the time. The basic and the week
forms, which `isoformat` does not write, are refused here.
-/

namespace ClaudeHub

structure UtcOffset where
  west : Bool
  hour : Nat
  minute : Nat
  second : Nat
  microsecond : Nat
  hour_lt : hour < 24
  minute_lt : minute < 60
  second_lt : second < 60
  microsecond_lt : microsecond < 1000000
  east_of_zero : hour = 0 ∧ minute = 0 ∧ second = 0 ∧ microsecond = 0 → west = false

instance : DecidableEq UtcOffset := fun a b =>
  decidable_of_iff (a.west = b.west ∧ a.hour = b.hour ∧ a.minute = b.minute ∧
    a.second = b.second ∧ a.microsecond = b.microsecond) (by cases a; cases b; simp)

/-- A `datetime`: its fields, and its offset when it is aware. -/
structure Timestamp where
  fields : DateTime
  utcoffset : Option UtcOffset := none
  deriving DecidableEq

namespace IsoFormat

/-- The last `width` digits of a number. -/
def padded : Nat → Nat → List Char
  | 0, _ => []
  | width + 1, n => padded width (n / 10) ++ [Nat.digitChar (n % 10)]

def fractionText (microsecond : Nat) : List Char :=
  if microsecond = 0 then [] else '.' :: padded 6 microsecond

def dateText (date : Date) : List Char :=
  padded 4 date.year ++ '-' :: (padded 2 date.month ++ '-' :: padded 2 date.day)

def timeText (time : DateTime) : List Char :=
  padded 2 time.hour ++ ':' :: (padded 2 time.minute ++ ':' :: (padded 2 time.second ++
    fractionText time.microsecond))

def offsetText (offset : UtcOffset) : List Char :=
  (if offset.west then '-' else '+') :: (padded 2 offset.hour ++ ':' :: (padded 2 offset.minute ++
    if offset.second = 0 ∧ offset.microsecond = 0 then []
    else ':' :: (padded 2 offset.second ++ fractionText offset.microsecond)))

def isoformat (time : Timestamp) : List Char :=
  dateText time.fields.date ++ 'T' :: (timeText time.fields ++
    match time.utcoffset with
    | none => []
    | some offset => offsetText offset)

/-- The number in the first `width` characters, all digits, and the rest. -/
def readPadded (width : Nat) (text : List Char) : Option (Nat × List Char) :=
  if (text.take width).length = width ∧ (text.take width).all Char.isDigit then
    some (Nat.ofDigitChars 10 (text.take width) 0, text.drop width)
  else none

def microseconds (digits : List Char) : Nat :=
  Nat.ofDigitChars 10 (digits.take 6) 0 * 10 ^ (6 - digits.length)

def readFraction (text : List Char) : Option (Nat × List Char) :=
  match text with
  | mark :: rest =>
    if mark = '.' ∨ mark = ',' then
      if rest.takeWhile Char.isDigit = [] then none
      else some (microseconds (rest.takeWhile Char.isDigit), rest.dropWhile Char.isDigit)
    else some (0, text)
  | [] => some (0, text)

def readPart (text : List Char) : Option (Option Nat × List Char) :=
  match text with
  | ':' :: rest => (readPadded 2 rest).map fun (n, rest) => (some n, rest)
  | _ => some (none, text)

def readClock (text : List Char) : Option ((Nat × Nat × Nat × Nat) × List Char) := do
  let (hour, rest) ← readPadded 2 text
  let (minute, rest) ← readPart rest
  match minute with
  | none => some ((hour, 0, 0, 0), rest)
  | some minute =>
    let (second, rest) ← readPart rest
    match second with
    | none => some ((hour, minute, 0, 0), rest)
    | some second =>
      let (microsecond, rest) ← readFraction rest
      some ((hour, minute, second, microsecond), rest)

def readDate (text : List Char) : Option (Date × List Char) := do
  let (year, rest) ← readPadded 4 text
  let '-' :: rest := rest | none
  let (month, rest) ← readPadded 2 rest
  let '-' :: rest := rest | none
  let (day, rest) ← readPadded 2 rest
  if h : (1 ≤ year ∧ year ≤ 9999) ∧ (1 ≤ month ∧ month ≤ 12) ∧
      1 ≤ day ∧ day ≤ daysInMonth year month then
    some (⟨year, month, day, h.1.1, h.1.2, h.2.1.1, h.2.1.2, h.2.2.1, h.2.2.2⟩, rest)
  else none

def readOffset (text : List Char) : Option (Option UtcOffset) :=
  match text with
  | [] => some none
  | ['Z'] => some (some ⟨false, 0, 0, 0, 0, DateTime.zero_lt_hours, DateTime.zero_lt_minutes,
      DateTime.zero_lt_minutes, DateTime.zero_lt_microseconds, fun _ => rfl⟩)
  | sign :: rest =>
    if sign = '+' ∨ sign = '-' then
      match readClock rest with
      | some ((hour, minute, second, microsecond), []) =>
        if h : (hour < 24 ∧ minute < 60) ∧ second < 60 ∧ microsecond < 1000000 then
          some (some ⟨sign == '-' && !(hour == 0 && minute == 0 && second == 0 &&
              microsecond == 0), hour, minute, second, microsecond, h.1.1, h.1.2, h.2.1,
            h.2.2, by simp +contextual⟩)
        else none
      | _ => none
    else none

def midnight (date : Date) : DateTime where
  date := date
  hour := 0
  minute := 0
  second := 0
  microsecond := 0
  hour_lt := DateTime.zero_lt_hours
  minute_lt := DateTime.zero_lt_minutes
  second_lt := DateTime.zero_lt_minutes
  microsecond_lt := DateTime.zero_lt_microseconds

def fromisoformat (text : List Char) : Option Timestamp := do
  let (date, rest) ← readDate text
  match rest with
  | [] => some ⟨midnight date, none⟩
  | _ :: rest =>
    let ((hour, minute, second, microsecond), rest) ← readClock rest
    let offset ← readOffset rest
    if h : (hour < 24 ∧ minute < 60) ∧ second < 60 ∧ microsecond < 1000000 then
      some ⟨⟨date, hour, minute, second, microsecond, h.1.1, h.1.2, h.2.1, h.2.2⟩, offset⟩
    else none

/-! ## Reading what was written -/

theorem length_padded (width n : Nat) : (padded width n).length = width := by
  induction width generalizing n with
  | zero => rfl
  | succ width ih => rw [padded, List.length_append, ih, List.length_singleton]

variable {width n : Nat}

theorem isDigit_of_mem_padded {c : Char} (h : c ∈ padded width n) :
    c.isDigit = true := by
  induction width generalizing n with
  | zero => exact absurd h List.not_mem_nil
  | succ width ih =>
    rcases List.mem_append.mp h with hin | hlast
    · exact ih hin
    · rw [List.mem_singleton.mp hlast]
      rw [Nat.isDigit_digitChar]
      exact decide_eq_true (Nat.mod_lt n (by omega))

theorem ofDigitChars_padded (h : n < 10 ^ width) :
    Nat.ofDigitChars 10 (padded width n) 0 = n := by
  induction width generalizing n with
  | zero =>
    rw [pow_zero] at h
    rw [padded, Nat.ofDigitChars_nil]
    omega
  | succ width ih =>
    rw [pow_succ] at h
    rw [padded, Nat.ofDigitChars_append, ih (by omega),
      Nat.ofDigitChars_cons_digitChar_of_lt_ten (Nat.mod_lt n (by omega)), Nat.ofDigitChars_nil]
    omega

theorem readPadded_padded (h : n < 10 ^ width) (rest : List Char) :
    readPadded width (padded width n ++ rest) = some (n, rest) := by
  have hlength := length_padded width n
  have htake : (padded width n ++ rest).take width = padded width n :=
    List.take_left' hlength
  have hdrop : (padded width n ++ rest).drop width = rest := List.drop_left' hlength
  have hdigits : (padded width n).all Char.isDigit = true :=
    List.all_eq_true.mpr fun c hc => isDigit_of_mem_padded hc
  rw [readPadded, htake, hdrop, if_pos ⟨hlength, hdigits⟩, ofDigitChars_padded h]

theorem readPart_padded (h : n < 60) (rest : List Char) :
    readPart (':' :: (padded 2 n ++ rest)) = some (some n, rest) := by
  rw [readPart, readPadded_padded (by omega)]
  rfl

/-- What can follow a time of day: nothing that is read as its fraction. -/
def EndsTime (rest : List Char) : Prop :=
  ∀ c ∈ rest.head?, c ≠ '.' ∧ c ≠ ',' ∧ c.isDigit = false

theorem readFraction_fractionText {microsecond : Nat} (h : microsecond < 1000000)
    {rest : List Char} (hends : EndsTime rest) :
    readFraction (fractionText microsecond ++ rest) = some (microsecond, rest) := by
  unfold fractionText
  by_cases hzero : microsecond = 0
  · rw [if_pos hzero, List.nil_append, hzero]
    cases rest with
    | nil => rfl
    | cons c =>
      obtain ⟨hdot, hcomma, -⟩ := hends c rfl
      simp [readFraction, hdot, hcomma]
  · have hdigits : ∀ c ∈ padded 6 microsecond, c.isDigit = true :=
      fun c hc => isDigit_of_mem_padded hc
    have hnone : rest.takeWhile Char.isDigit = [] ∧ rest.dropWhile Char.isDigit = rest := by
      cases rest with
      | nil => exact ⟨rfl, rfl⟩
      | cons c =>
        have hc := (hends c rfl).2.2
        simp [hc]
    have htake : (padded 6 microsecond ++ rest).takeWhile Char.isDigit = padded 6 microsecond := by
      rw [List.takeWhile_append_of_pos hdigits, hnone.1, List.append_nil]
    have hdrop : (padded 6 microsecond ++ rest).dropWhile Char.isDigit = rest := by
      rw [List.dropWhile_append_of_pos hdigits, hnone.2]
    have hlength := length_padded 6 microsecond
    have hne : padded 6 microsecond ≠ [] := List.ne_nil_of_length_pos (by omega)
    rw [if_neg hzero, List.cons_append, readFraction, if_pos (.inl rfl), htake, hdrop, if_neg hne,
      microseconds, hlength, List.take_of_length_le (le_of_eq hlength),
      ofDigitChars_padded (by omega), Nat.sub_self, pow_zero, mul_one]

theorem readClock_seconds {hour minute second microsecond : Nat} (hhour : hour < 24)
    (hminute : minute < 60) (hsecond : second < 60) (hmicrosecond : microsecond < 1000000)
    {rest : List Char} (hends : EndsTime rest) :
    readClock (padded 2 hour ++ ':' :: (padded 2 minute ++ ':' :: (padded 2 second ++
      (fractionText microsecond ++ rest)))) = some ((hour, minute, second, microsecond), rest) := by
  rw [readClock, readPadded_padded (by omega)]
  simp only [Option.bind_eq_bind, Option.bind_some, readPart_padded hminute,
    readPart_padded hsecond, readFraction_fractionText hmicrosecond hends]

theorem readClock_minutes {hour minute : Nat} (hhour : hour < 24) (hminute : minute < 60) :
    readClock (padded 2 hour ++ ':' :: (padded 2 minute ++ [])) =
      some ((hour, minute, 0, 0), []) := by
  rw [readClock, readPadded_padded (by omega)]
  simp only [Option.bind_eq_bind, Option.bind_some, readPart_padded hminute]
  rfl

theorem readDate_dateText (date : Date) (rest : List Char) :
    readDate (dateText date ++ rest) = some (date, rest) := by
  have hyear := date.year_le
  have hmonth := date.month_le
  have hday := le_trans date.day_le (daysInMonth_le _ _)
  have hvalid : (1 ≤ date.year ∧ date.year ≤ 9999) ∧ (1 ≤ date.month ∧ date.month ≤ 12) ∧
      1 ≤ date.day ∧ date.day ≤ daysInMonth date.year date.month :=
    ⟨⟨date.one_le_year, date.year_le⟩, ⟨date.one_le_month, date.month_le⟩, date.one_le_day,
      date.day_le⟩
  rw [dateText, readDate, List.append_assoc, readPadded_padded (by omega)]
  simp only [Option.bind_eq_bind, Option.bind_some, List.cons_append, List.append_assoc]
  rw [readPadded_padded (by omega)]
  simp only [Option.bind_some]
  rw [readPadded_padded (by omega)]
  simp only [Option.bind_some, dif_pos hvalid]

theorem offset_west (offset : UtcOffset) :
    ((if offset.west then '-' else '+') == '-' && !(offset.hour == 0 && offset.minute == 0 &&
      offset.second == 0 && offset.microsecond == 0)) = offset.west := by
  have hzero := offset.east_of_zero
  cases hwest : offset.west with
  | false => rfl
  | true =>
    rw [hwest] at hzero
    have hne : ¬ (offset.hour = 0 ∧ offset.minute = 0 ∧ offset.second = 0 ∧
        offset.microsecond = 0) := fun h => Bool.noConfusion (hzero h)
    have hsome : (offset.hour == 0 && offset.minute == 0 && offset.second == 0 &&
        offset.microsecond == 0) = false := by
      rw [Bool.eq_false_iff]
      intro h
      simp only [Bool.and_eq_true, beq_iff_eq] at h
      exact hne ⟨h.1.1.1, h.1.1.2, h.1.2, h.2⟩
    rw [hsome]
    rfl

theorem readClock_offset (offset : UtcOffset) :
    readClock (padded 2 offset.hour ++ ':' :: (padded 2 offset.minute ++
      if offset.second = 0 ∧ offset.microsecond = 0 then []
      else ':' :: (padded 2 offset.second ++ fractionText offset.microsecond))) =
      some ((offset.hour, offset.minute, offset.second, offset.microsecond), []) := by
  by_cases hshort : offset.second = 0 ∧ offset.microsecond = 0
  · rw [if_pos hshort, readClock_minutes offset.hour_lt offset.minute_lt, hshort.1, hshort.2]
  · have hclock := @readClock_seconds _ _ _ _ offset.hour_lt offset.minute_lt offset.second_lt
      offset.microsecond_lt [] (fun c hc => by simp at hc)
    rw [if_neg hshort]
    rw [List.append_nil] at hclock
    exact hclock

theorem readOffset_offsetText (offset : UtcOffset) :
    readOffset (offsetText offset) = some (some offset) := by
  have hclock := readClock_offset offset
  have hwest := offset_west offset
  have hsign : (if offset.west then '-' else '+') = '+' ∨
      (if offset.west then '-' else '+') = '-' := by
    cases offset.west
    · exact .inl rfl
    · exact .inr rfl
  have hvalid : (offset.hour < 24 ∧ offset.minute < 60) ∧ offset.second < 60 ∧
      offset.microsecond < 1000000 :=
    ⟨⟨offset.hour_lt, offset.minute_lt⟩, offset.second_lt, offset.microsecond_lt⟩
  rw [offsetText]
  generalize (if offset.west then '-' else '+') = sign at hsign hwest ⊢
  rw [readOffset, if_pos hsign, hclock]
  · simp only [dif_pos hvalid, hwest]
  · intro hz
    rw [hz] at hsign
    exact absurd hsign (by decide)

theorem endsTime_offset (offset : UtcOffset) : EndsTime (offsetText offset) := by
  intro c hc
  rw [offsetText, List.head?_cons, Option.mem_some_iff] at hc
  rw [← hc]
  cases offset.west <;> decide

theorem fromisoformat_isoformat (time : Timestamp) :
    fromisoformat (isoformat time) = some time := by
  obtain ⟨fields, utcoffset⟩ := time
  have hvalid : (fields.hour < 24 ∧ fields.minute < 60) ∧ fields.second < 60 ∧
      fields.microsecond < 1000000 :=
    ⟨⟨fields.hour_lt, fields.minute_lt⟩, fields.second_lt, fields.microsecond_lt⟩
  have hclock {rest : List Char} (hends : EndsTime rest) := readClock_seconds fields.hour_lt
    fields.minute_lt fields.second_lt fields.microsecond_lt hends
  rw [isoformat, fromisoformat, readDate_dateText]
  simp only [Option.bind_eq_bind, Option.bind_some, timeText, List.append_assoc, List.cons_append]
  cases utcoffset with
  | none =>
    rw [hclock fun c hc => by simp at hc]
    simp only [Option.bind_some, readOffset, dif_pos hvalid]
  | some offset =>
    rw [hclock (endsTime_offset offset)]
    simp only [Option.bind_some, readOffset_offsetText, dif_pos hvalid]

end IsoFormat

end ClaudeHub
