import Mathlib.Algebra.BigOperators.Group.Finset.Basic
import Mathlib.Tactic.Ring

/-! # Dates and times of day

The proleptic Gregorian calendar from year 1 to year 9999. A date that cannot be built is an
error, as it is for the constructors and the arithmetic of the standard library.
-/

namespace ClaudeHub

def isLeap (year : Nat) : Bool := year % 4 = 0 && (year % 100 ≠ 0 || year % 400 = 0)

def daysInMonth (year month : Nat) : Nat :=
  if month = 2 then if isLeap year then 29 else 28
  else if month = 4 ∨ month = 6 ∨ month = 9 ∨ month = 11 then 30 else 31

theorem one_le_daysInMonth (year month : Nat) : 1 ≤ daysInMonth year month := by
  unfold daysInMonth
  split
  · split <;> omega
  · split <;> omega

theorem daysInMonth_le (year month : Nat) : daysInMonth year month ≤ 31 := by
  unfold daysInMonth
  split
  · split <;> omega
  · split <;> omega

structure Date where
  year : Nat
  month : Nat
  day : Nat
  one_le_year : 1 ≤ year
  year_le : year ≤ 9999
  one_le_month : 1 ≤ month
  month_le : month ≤ 12
  one_le_day : 1 ≤ day
  day_le : day ≤ daysInMonth year month
  deriving DecidableEq

namespace Date

def daysBeforeYear (year : Nat) : Nat :=
  (year - 1) * 365 + (year - 1) / 4 - (year - 1) / 100 + (year - 1) / 400

def daysBeforeMonth (year month : Nat) : Nat :=
  ((List.range month).map fun earlier =>
    if earlier = 0 then 0 else daysInMonth year earlier).sum

def toOrdinal (date : Date) : Nat :=
  daysBeforeYear date.year + daysBeforeMonth date.year date.month + date.day

/-- `weekday`, with Monday as 0 -/
def weekday (date : Date) : Nat := (date.toOrdinal + 6) % 7

def firstOfMonth (date : Date) (month : Nat) (hpos : 1 ≤ month) (hle : month ≤ 12) : Date where
  year := date.year
  month := month
  day := 1
  one_le_year := date.one_le_year
  year_le := date.year_le
  one_le_month := hpos
  month_le := hle
  one_le_day := le_refl _
  day_le := one_le_daysInMonth _ _

def firstOfYear (year : Nat) (hpos : 1 ≤ year) (hle : year ≤ 9999) : Date where
  year := year
  month := 1
  day := 1
  one_le_year := hpos
  year_le := hle
  one_le_month := le_refl _
  month_le := by omega
  one_le_day := le_refl _
  day_le := one_le_daysInMonth _ _

def nextMonth (date : Date) : Option Date :=
  if h : date.month < 12 then some (date.firstOfMonth (date.month + 1) (by omega) (by omega))
  else if h : date.year < 9999 then some (firstOfYear (date.year + 1) (by omega) (by omega))
  else none

def next (date : Date) : Option Date :=
  if h : date.day < daysInMonth date.year date.month then
    some { date with day := date.day + 1, one_le_day := by omega, day_le := by omega }
  else date.nextMonth

def addDays : Nat → Date → Option Date
  | 0, date => some date
  | days + 1, date => (addDays days date).bind next

def position (date : Date) : Nat := (date.year * 12 + (date.month - 1)) * 31 + (date.day - 1)

variable {date later other : Date}

theorem nextMonth_cases (h : date.nextMonth = some later) :
    (date.month < 12 ∧ later.year = date.year ∧ later.month = date.month + 1 ∧ later.day = 1) ∨
      (date.month = 12 ∧ later.year = date.year + 1 ∧ later.month = 1 ∧ later.day = 1) := by
  unfold nextMonth at h
  split at h
  case isTrue hmonth =>
    cases h
    exact .inl ⟨hmonth, rfl, rfl, rfl⟩
  case isFalse hmonth =>
    split at h
    · cases h
      have hle := date.month_le
      exact .inr ⟨by omega, rfl, rfl, rfl⟩
    · contradiction

theorem next_cases (h : date.next = some later) :
    (date.day < daysInMonth date.year date.month ∧ later.year = date.year ∧
        later.month = date.month ∧ later.day = date.day + 1) ∨
      (date.day = daysInMonth date.year date.month ∧ date.nextMonth = some later) := by
  unfold next at h
  split at h
  case isTrue hday =>
    cases h
    exact .inl ⟨hday, rfl, rfl, rfl⟩
  case isFalse hday =>
    have hle := date.day_le
    exact .inr ⟨by omega, h⟩

theorem nextMonth_eq_none : date.nextMonth = none ↔ date.month = 12 ∧ date.year = 9999 := by
  have hmonth := date.month_le
  have hyear := date.year_le
  unfold nextMonth
  split
  · simp
    omega
  · split
    · simp
      omega
    · simp
      omega

theorem next_eq_none :
    date.next = none ↔ date.year = 9999 ∧ date.month = 12 ∧ date.day = 31 := by
  have hle := date.day_le
  unfold next
  split
  case isTrue hday =>
    simp only [reduceCtorEq, false_iff, not_and]
    intro hyear hmonth hlast
    rw [hyear, hmonth, hlast] at hday
    exact absurd hday (by decide)
  case isFalse hday =>
    rw [nextMonth_eq_none]
    constructor
    · rintro ⟨hmonth, hyear⟩
      refine ⟨hyear, hmonth, ?_⟩
      rw [hyear, hmonth] at hle hday
      have hdays : daysInMonth 9999 12 = 31 := by decide
      omega
    · exact fun ⟨hyear, hmonth, _⟩ => ⟨hmonth, hyear⟩

theorem position_lt_nextMonth (h : date.nextMonth = some later) :
    date.position < later.position := by
  have hday := date.day_le
  have hdays := daysInMonth_le date.year date.month
  have hmonth := date.one_le_month
  unfold position
  rcases nextMonth_cases h with ⟨_, hy, hm, hd⟩ | ⟨_, hy, hm, hd⟩ <;> rw [hy, hm, hd] <;> omega

theorem position_lt_next (h : date.next = some later) : date.position < later.position := by
  rcases next_cases h with ⟨_, hy, hm, hd⟩ | ⟨_, hmonth⟩
  · have hday := date.one_le_day
    unfold position
    rw [hy, hm, hd]
    omega
  · exact position_lt_nextMonth hmonth

theorem month_of_lt_nextMonth (h : date.nextMonth = some later)
    (hle : date.position ≤ other.position) (hlt : other.position < later.position) :
    other.month = date.month := by
  have hday := date.day_le
  have hdays := daysInMonth_le date.year date.month
  have hotherDay := other.day_le
  have hotherDays := daysInMonth_le other.year other.month
  have hmonth := date.one_le_month
  have hotherMonth := other.one_le_month
  have hotherLe := other.month_le
  have hdayPos := date.one_le_day
  have hotherPos := other.one_le_day
  unfold position at hle hlt
  rcases nextMonth_cases h with ⟨_, hy, hm, hd⟩ | ⟨_, hy, hm, hd⟩ <;> rw [hy, hm, hd] at hlt <;>
    omega

theorem eq_of_position (h : date.position = other.position) : date = other := by
  have hday := date.day_le
  have hdays := daysInMonth_le date.year date.month
  have hotherDay := other.day_le
  have hotherDays := daysInMonth_le other.year other.month
  have hmonth := date.one_le_month
  have hmonthLe := date.month_le
  have hotherMonth := other.one_le_month
  have hotherLe := other.month_le
  have hdayPos := date.one_le_day
  have hotherPos := other.one_le_day
  unfold position at h
  cases date
  cases other
  simp only [mk.injEq]
  simp only at *
  omega

theorem eq_of_lt_next (h : date.next = some later) (hle : date.position ≤ other.position)
    (hlt : other.position < later.position) : other = date := by
  apply eq_of_position
  rcases next_cases h with ⟨_, hy, hm, hd⟩ | ⟨hlast, hmonth⟩
  · have hday := date.one_le_day
    unfold position at hle hlt ⊢
    rw [hy, hm, hd] at hlt
    omega
  · have hsame := month_of_lt_nextMonth hmonth hle hlt
    have hday := date.day_le
    have hdays := daysInMonth_le date.year date.month
    have hotherDay := other.day_le
    have hotherDays := daysInMonth_le other.year other.month
    have hdayPos := date.one_le_day
    have hotherPos := other.one_le_day
    have hmonthPos := date.one_le_month
    have hmonthLe := date.month_le
    have hyear : other.year = date.year := by
      unfold position at hle hlt
      rw [hsame] at hle hlt
      rcases nextMonth_cases hmonth with ⟨_, hy, hm, hd⟩ | ⟨_, hy, hm, hd⟩ <;>
        rw [hy, hm, hd] at hlt <;> omega
    rw [hsame, hyear] at hotherDay
    unfold position at hle ⊢
    rw [hsame, hyear] at hle ⊢
    omega

theorem addDays_next (days : Nat) : date.addDays (days + 1) = date.next.bind (addDays days) := by
  induction days with
  | zero => simp [addDays]
  | succ days ih =>
    have hstep : date.addDays (days + 2) = (date.addDays (days + 1)).bind next := rfl
    rw [hstep, ih, Option.bind_assoc]
    rfl

theorem position_le_addDays {days : Nat} (h : date.addDays days = some later) :
    date.position ≤ later.position := by
  induction days generalizing later with
  | zero =>
    cases h
    exact Nat.le_refl _
  | succ days ih =>
    obtain ⟨before, hbefore, hnext⟩ := Option.bind_eq_some_iff.mp h
    exact Nat.le_trans (ih hbefore) (Nat.le_of_lt (position_lt_next hnext))

end Date

/-- A `datetime`. -/
structure DateTime where
  date : Date
  hour : Nat
  minute : Nat
  second : Nat
  microsecond : Nat
  hour_lt : hour < 24
  minute_lt : minute < 60
  second_lt : second < 60
  microsecond_lt : microsecond < 1000000
  deriving DecidableEq

/-- `OverflowError` of the arithmetic, `ValueError` of `replace`. -/
inductive DateTimeError
  | overflow
  | yearOutOfRange
  deriving DecidableEq, Repr

namespace DateTime

theorem zero_lt_hours : 0 < 24 := by decide

theorem zero_lt_minutes : 0 < 60 := by decide

theorem zero_lt_microseconds : 0 < 1000000 := by decide

def minutePosition (time : DateTime) : Nat :=
  (time.date.position * 24 + time.hour) * 60 + time.minute

def position (time : DateTime) : Nat :=
  (time.minutePosition * 60 + time.second) * 1000000 + time.microsecond

/-- `replace(second=0, microsecond=0)` -/
def toMinute (time : DateTime) : DateTime :=
  { time with
    second := 0, microsecond := 0
    second_lt := zero_lt_minutes, microsecond_lt := zero_lt_microseconds }

/-- The times at which a minute begins. -/
def Aligned (time : DateTime) : Prop := time.second = 0 ∧ time.microsecond = 0

instance (time : DateTime) : Decidable time.Aligned := by unfold Aligned; infer_instance

def withDate (time : DateTime) (date : Date) : DateTime := { time with date := date }

/-- `replace(minute=0)` -/
def atHour (time : DateTime) : DateTime := { time with minute := 0, minute_lt := zero_lt_minutes }

/-- `replace(hour=0, minute=0)` -/
def atMidnight (time : DateTime) : DateTime :=
  { time with hour := 0, minute := 0, hour_lt := zero_lt_hours, minute_lt := zero_lt_minutes }

/-- `+ timedelta(days=days)` -/
def addDays (days : Nat) (time : DateTime) : Except DateTimeError DateTime :=
  match time.date.addDays days with
  | some date => .ok (time.withDate date)
  | none => .error .overflow

def addDay (time : DateTime) : Except DateTimeError DateTime :=
  match time.date.next with
  | some date => .ok (time.withDate date)
  | none => .error .overflow

/-- `+ timedelta(hours=1)` -/
def addHour (time : DateTime) : Except DateTimeError DateTime :=
  if h : time.hour < 23 then .ok { time with hour := time.hour + 1, hour_lt := by omega }
  else { time with hour := 0, hour_lt := by omega : DateTime }.addDay

/-- `+ timedelta(minutes=1)` -/
def addMinute (time : DateTime) : Except DateTimeError DateTime :=
  if h : time.minute < 59 then .ok { time with minute := time.minute + 1, minute_lt := by omega }
  else time.atHour.addHour

/-- The first day of the next month, at midnight; the year after the last one is a value error of
`replace`. -/
def nextMonth (time : DateTime) : Except DateTimeError DateTime :=
  match time.date.nextMonth with
  | some date => .ok (time.withDate date).atMidnight
  | none => .error .yearOutOfRange

variable {time later other : DateTime}

theorem addDay_eq_ok (h : time.addDay = .ok later) :
    ∃ date, time.date.next = some date ∧ later = time.withDate date := by
  unfold addDay at h
  split at h
  case h_1 date hdate => exact ⟨date, hdate, (Except.ok.inj h).symm⟩
  case h_2 => contradiction

variable {e : DateTimeError}

theorem addDay_eq_error :
    time.addDay = .error e ↔ time.date.next = none ∧ e = .overflow := by
  unfold addDay
  split
  case h_1 date hdate => simp [hdate]
  case h_2 hnone => simp [hnone, eq_comm]

theorem position_le_iff (h : time.Aligned) :
    time.position ≤ other.position ↔ time.minutePosition ≤ other.minutePosition := by
  have hsecond := other.second_lt
  have hmicrosecond := other.microsecond_lt
  unfold position
  rw [h.1, h.2]
  omega

theorem date_position_bounds (time : DateTime) :
    time.date.position * 1440 ≤ time.minutePosition ∧
      time.minutePosition < time.date.position * 1440 + 1440 := by
  have hhour := time.hour_lt
  have hminute := time.minute_lt
  unfold minutePosition
  omega

theorem date_le_of_le (h : time.minutePosition ≤ other.minutePosition) :
    time.date.position ≤ other.date.position := by
  have htime := time.date_position_bounds
  have hother := other.date_position_bounds
  omega

theorem date_lt_of_lt {date : Date} (h : time.minutePosition < date.position * 1440) :
    time.date.position < date.position := by
  have htime := time.date_position_bounds
  omega

/-! ## What lies between a time and the one that a search goes on to -/

theorem nextMonth_eq_ok (h : time.nextMonth = .ok later) :
    ∃ date, time.date.nextMonth = some date ∧ later = (time.withDate date).atMidnight := by
  unfold nextMonth at h
  split at h
  case h_1 date hdate => exact ⟨date, hdate, (Except.ok.inj h).symm⟩
  case h_2 => contradiction

theorem midnight_position (date : Date) :
    (time.withDate date).atMidnight.minutePosition = date.position * 1440 := by
  simp only [minutePosition, withDate, atMidnight]
  omega

theorem nextMonth_up (h : time.nextMonth = .ok later) :
    time.minutePosition < later.minutePosition := by
  obtain ⟨date, hdate, rfl⟩ := nextMonth_eq_ok h
  have hbounds := time.date_position_bounds
  have hup := Date.position_lt_nextMonth hdate
  rw [midnight_position]
  omega

theorem nextMonth_passes (h : time.nextMonth = .ok later)
    (hle : time.minutePosition ≤ other.minutePosition)
    (hlt : other.minutePosition < later.minutePosition) :
    other.date.month = time.date.month := by
  obtain ⟨date, hdate, rfl⟩ := nextMonth_eq_ok h
  rw [midnight_position] at hlt
  exact Date.month_of_lt_nextMonth hdate (date_le_of_le hle) (date_lt_of_lt hlt)

theorem nextMonth_eq_error : time.nextMonth = .error e ↔
    (time.date.month = 12 ∧ time.date.year = 9999) ∧ e = .yearOutOfRange := by
  rw [← Date.nextMonth_eq_none]
  unfold nextMonth
  split
  case h_1 date hdate => simp [hdate]
  case h_2 hnone => simp [hnone, eq_comm]

theorem nextMonth_ends (h : time.nextMonth = .error e)
    (hle : time.minutePosition ≤ other.minutePosition) :
    other.date.month = time.date.month ∧ other.nextMonth = .error e := by
  obtain ⟨⟨hmonth, hyear⟩, rfl⟩ := nextMonth_eq_error.1 h
  rw [nextMonth_eq_error]
  have hdates := date_le_of_le hle
  have hotherYear := other.date.year_le
  have hotherMonth := other.date.month_le
  have hotherPos := other.date.one_le_month
  have hotherDay := other.date.day_le
  have hdays := daysInMonth_le other.date.year other.date.month
  unfold Date.position at hdates
  rw [hmonth, hyear] at hdates
  refine ⟨by omega, ⟨by omega, by omega⟩, rfl⟩

theorem addDay_up (h : time.addDay = .ok later) :
    time.minutePosition < later.atMidnight.minutePosition := by
  obtain ⟨date, hdate, rfl⟩ := addDay_eq_ok h
  have hbounds := time.date_position_bounds
  have hup := Date.position_lt_next hdate
  rw [midnight_position]
  omega

theorem addDay_passes (h : time.addDay = .ok later)
    (hle : time.minutePosition ≤ other.minutePosition)
    (hlt : other.minutePosition < later.atMidnight.minutePosition) : other.date = time.date := by
  obtain ⟨date, hdate, rfl⟩ := addDay_eq_ok h
  rw [midnight_position] at hlt
  exact Date.eq_of_lt_next hdate (date_le_of_le hle) (date_lt_of_lt hlt)

theorem date_of_last (hlast : time.date.next = none)
    (hle : time.date.position ≤ other.date.position) : other.date = time.date := by
  obtain ⟨hyear, hmonth, hday⟩ := Date.next_eq_none.1 hlast
  apply Date.eq_of_position
  have hotherYear := other.date.year_le
  have hotherMonth := other.date.month_le
  have hotherDay := other.date.day_le
  have hdays := daysInMonth_le other.date.year other.date.month
  unfold Date.position at hle ⊢
  rw [hyear, hmonth, hday] at hle ⊢
  omega

theorem hour_of_between (hle : time.minutePosition ≤ other.minutePosition)
    (hlt : other.minutePosition < (time.date.position * 24 + time.hour + 1) * 60) :
    other.date = time.date ∧ other.hour = time.hour := by
  have hhour := time.hour_lt
  have hminute := time.minute_lt
  have hotherHour := other.hour_lt
  have hotherMinute := other.minute_lt
  unfold minutePosition at hle hlt
  refine ⟨Date.eq_of_position ?_, ?_⟩ <;> omega

/-- What `addHour` gives: the next hour of the day, or the first one of the day after. -/
theorem addHour_cases (h : time.addHour = .ok later) :
    (time.hour < 23 ∧ later.date = time.date ∧ later.hour = time.hour + 1 ∧
        later.minute = time.minute) ∨
      (time.hour = 23 ∧ time.date.next = some later.date ∧ later.hour = 0 ∧
        later.minute = time.minute) := by
  have hhour := time.hour_lt
  unfold addHour at h
  split at h
  case isTrue hlt =>
    cases h
    exact .inl ⟨hlt, rfl, rfl, rfl⟩
  case isFalse hlast =>
    obtain ⟨date, hdate, rfl⟩ := addDay_eq_ok h
    exact .inr ⟨by omega, hdate, rfl, rfl⟩

theorem addHour_eq_error :
    time.addHour = .error e ↔ time.hour = 23 ∧ time.date.next = none ∧ e = .overflow := by
  have hhour := time.hour_lt
  unfold addHour
  split
  case isTrue hlt =>
    simp only [reduceCtorEq, false_iff, not_and]
    omega
  case isFalse hlast =>
    rw [addDay_eq_error]
    constructor
    · exact fun h => ⟨by omega, h⟩
    · exact fun h => h.2

theorem addHour_up (h : time.addHour = .ok later) :
    time.minutePosition < later.atHour.minutePosition := by
  have hminute := time.minute_lt
  simp only [minutePosition, atHour]
  rcases addHour_cases h with ⟨_, hdate, hhour, _⟩ | ⟨hlast, hdate, hhour, _⟩
  · rw [hdate, hhour]
    omega
  · have hup := Date.position_lt_next hdate
    rw [hhour]
    omega

theorem addHour_passes (h : time.addHour = .ok later)
    (hle : time.minutePosition ≤ other.minutePosition)
    (hlt : other.minutePosition < later.atHour.minutePosition) :
    other.date = time.date ∧ other.hour = time.hour := by
  have hbounds : later.atHour.minutePosition =
      (later.date.position * 24 + later.hour) * 60 := rfl
  rw [hbounds] at hlt
  rcases addHour_cases h with ⟨_, hdate, hhour, _⟩ | ⟨hlast, hdate, hhour, _⟩
  · apply hour_of_between hle
    rw [hdate, hhour] at hlt
    omega
  · have hsame : other.date = time.date :=
      Date.eq_of_lt_next hdate (date_le_of_le hle) (date_lt_of_lt (by rw [hhour] at hlt; omega))
    refine ⟨hsame, ?_⟩
    have hotherHour := other.hour_lt
    have hminute := other.minute_lt
    unfold minutePosition at hle
    rw [hsame] at hle
    omega

theorem addHour_ends (h : time.addHour = .error e)
    (hle : time.minutePosition ≤ other.minutePosition) :
    other.date = time.date ∧ other.hour = time.hour := by
  obtain ⟨hlast, hdate, -⟩ := addHour_eq_error.1 h
  have hsame := date_of_last hdate (date_le_of_le hle)
  refine ⟨hsame, ?_⟩
  have hotherHour := other.hour_lt
  have hminute := other.minute_lt
  unfold minutePosition at hle
  rw [hsame] at hle
  omega

theorem eq_of_minutePosition (haligned : time.Aligned) (hother : other.Aligned)
    (h : time.minutePosition = other.minutePosition) : time = other := by
  have hhour := time.hour_lt
  have hotherHour := other.hour_lt
  have hminute := time.minute_lt
  have hotherMinute := other.minute_lt
  unfold minutePosition at h
  have hdate : time.date = other.date := Date.eq_of_position (by omega)
  rw [hdate] at h
  obtain ⟨hsecond, hmicrosecond⟩ := haligned
  obtain ⟨hotherSecond, hotherMicrosecond⟩ := hother
  cases time
  cases other
  simp only [mk.injEq]
  simp only at hdate h hsecond hmicrosecond hotherSecond hotherMicrosecond
  simp only at hhour hotherHour hminute hotherMinute
  refine ⟨hdate, by omega, by omega, by omega, by omega⟩

theorem addMinute_position (h : time.addMinute = .ok later) :
    time.minutePosition < later.minutePosition ∧
      (later.date = time.date → later.minutePosition = time.minutePosition + 1) ∧
      (later.date ≠ time.date → time.date.next = some later.date ∧ time.hour = 23 ∧
        time.minute = 59 ∧ later.hour = 0 ∧ later.minute = 0) := by
  have hminute := time.minute_lt
  unfold addMinute at h
  split at h
  case isTrue hlt =>
    cases h
    simp only [minutePosition]
    refine ⟨by omega, fun _ => by omega, fun hne => absurd rfl hne⟩
  case isFalse hlast =>
    simp only [minutePosition]
    rcases addHour_cases h with ⟨_, hdate, hhour, hlater⟩ | ⟨hhourLast, hdate, hhour, hlater⟩
    · have hdate' : later.date = time.date := hdate
      have hhour' : later.hour = time.hour + 1 := hhour
      have hlater' : later.minute = 0 := hlater
      rw [hdate', hhour', hlater']
      refine ⟨by omega, fun _ => by omega, fun hne => absurd rfl hne⟩
    · have hup : time.date.position < later.date.position := Date.position_lt_next hdate
      have hlastHour : time.hour = 23 := hhourLast
      have hlater' : later.minute = 0 := hlater
      refine ⟨by rw [hhour, hlater']; omega, fun hsame => ?_, fun _ => ?_⟩
      · rw [hsame] at hup
        omega
      · exact ⟨hdate, hlastHour, by omega, hhour, hlater'⟩

theorem addMinute_passes (haligned : time.Aligned) (hother : other.Aligned)
    (h : time.addMinute = .ok later) (hle : time.minutePosition ≤ other.minutePosition)
    (hlt : other.minutePosition < later.minutePosition) : other = time := by
  obtain ⟨-, hsameDay, hnextDay⟩ := addMinute_position h
  apply eq_of_minutePosition hother haligned
  by_cases hdate : later.date = time.date
  · rw [hsameDay hdate] at hlt
    omega
  · obtain ⟨hnext, hhour, hminute, hlaterHour, hlaterMinute⟩ := hnextDay hdate
    have hsame : other.date = time.date := by
      apply Date.eq_of_lt_next hnext (date_le_of_le hle)
      apply date_lt_of_lt
      unfold minutePosition at hlt ⊢
      rw [hlaterHour, hlaterMinute] at hlt
      omega
    have hotherHour := other.hour_lt
    have hotherMinute := other.minute_lt
    unfold minutePosition at hle ⊢
    rw [hsame] at hle ⊢
    omega

theorem addMinute_eq_error : time.addMinute = .error e ↔
    time.minute = 59 ∧ time.hour = 23 ∧ time.date.next = none ∧ e = .overflow := by
  have hminute := time.minute_lt
  unfold addMinute
  split
  case isTrue hlt =>
    simp only [reduceCtorEq, false_iff, not_and]
    omega
  case isFalse hlast =>
    rw [addHour_eq_error]
    constructor
    · exact fun h => ⟨by omega, h⟩
    · exact fun h => h.2

section

variable (haligned : time.Aligned)
include haligned

theorem addMinute_ends (hother : other.Aligned) (h : time.addMinute = .error e)
    (hle : time.minutePosition ≤ other.minutePosition) : other = time := by
  obtain ⟨hlast, hhour, hdate, -⟩ := addMinute_eq_error.1 h
  have hsame : other.date = time.date := date_of_last hdate (date_le_of_le hle)
  have hotherHour := other.hour_lt
  have hotherMinute := other.minute_lt
  apply eq_of_minutePosition hother haligned
  unfold minutePosition at hle ⊢
  rw [hsame] at hle ⊢
  omega

theorem Aligned.nextMonth (h : time.nextMonth = .ok later) : later.Aligned := by
  obtain ⟨date, -, rfl⟩ := nextMonth_eq_ok h
  exact haligned

theorem Aligned.addDay (h : time.addDay = .ok later) : later.Aligned := by
  obtain ⟨date, -, rfl⟩ := addDay_eq_ok h
  exact haligned

theorem Aligned.addHour (h : time.addHour = .ok later) : later.Aligned := by
  unfold DateTime.addHour at h
  split at h
  · cases h
    exact haligned
  · obtain ⟨date, -, rfl⟩ := addDay_eq_ok h
    exact haligned

theorem Aligned.addMinute (h : time.addMinute = .ok later) : later.Aligned := by
  have hhour : time.atHour.Aligned := haligned
  unfold DateTime.addMinute at h
  split at h
  · cases h
    exact haligned
  · exact hhour.addHour h

end

end DateTime

end ClaudeHub
