import ClaudeHub.Lib.SkipSearch
import ClaudeHub.Scheduling.Calendar
import ClaudeHub.Scheduling.CronField

/-! # The next run of a cron expression

The search skips months, days, hours and minutes that the expression leaves out, and the naive scan
looks at every minute up to the limit. They agree wherever the search stays within the calendar.
-/

namespace ClaudeHub

open Lines SkipSearch

structure CronParts where
  minutes : Finset Nat
  hours : Finset Nat
  days : Finset Nat
  months : Finset Nat
  weekdays : Finset Nat
  deriving DecidableEq

def cronDayFull : Finset Nat := stepRange 1 31 1

def cronDowFull : Finset Nat := stepRange 0 6 1

inductive CronError
  | fieldCount (fields : Nat)
  | field (error : CronFieldError)
  | time (error : DateTimeError)
  deriving DecidableEq, Repr

/-- `strip().split()` -/
def cronFields (expr : List Char) : List (List Char) :=
  (expr.splitOnP isSpace).filter fun text => text ≠ []

def parseCronExpression (expr : List Char) : Except CronError CronParts :=
  match cronFields expr with
  | [minute, hour, day, month, weekday] => (do
      let minutes ← parseCronField 0 59 minute
      let hours ← parseCronField 0 23 hour
      let days ← parseCronField 1 31 day
      let months ← parseCronField 1 12 month
      let weekdays ← parseCronField 0 6 weekday
      pure ⟨minutes, hours, days, months, weekdays⟩ : Except CronFieldError CronParts).mapError
        CronError.field
  | fields => .error (.fieldCount fields.length)

namespace CronParts

variable (parts : CronParts)

/-- The day of the month and the day of the week: a restricted one must match, and of two
restricted ones either. -/
def dayMatches (date : Date) : Bool :=
  let domMatch := decide (date.day ∈ parts.days)
  let dowMatch := decide ((date.weekday + 1) % 7 ∈ parts.weekdays)
  if parts.days = cronDayFull ∧ parts.weekdays = cronDowFull then true
  else if parts.days = cronDayFull then dowMatch
  else if parts.weekdays = cronDowFull then domMatch
  else domMatch || dowMatch

def cronMatches (time : DateTime) : Bool :=
  if time.minute ∉ parts.minutes then false
  else if time.hour ∉ parts.hours then false
  else if time.date.month ∉ parts.months then false
  else parts.dayMatches time.date

/-- The loop body of `_next_cron_run`. -/
def visit (candidate : DateTime) : Visit DateTime DateTimeError :=
  if candidate.date.month ∉ parts.months then some candidate.nextMonth
  else if !parts.dayMatches candidate.date then some (candidate.addDay.map DateTime.atMidnight)
  else if candidate.hour ∉ parts.hours then some (candidate.addHour.map DateTime.atHour)
  else if candidate.minute ∉ parts.minutes then some candidate.addMinute
  else none

def withinLimit (limit candidate : DateTime) : Bool := candidate.position ≤ limit.position

/-- The loop of `_next_cron_run`, up to as many turns as there are minutes to the limit. -/
def searchFrom (limit candidate : DateTime) :
    Option (Except DateTimeError (Option DateTime)) :=
  search (withinLimit limit) parts.visit
    (limit.minutePosition + 2 - candidate.minutePosition + 1) candidate

/-- How many days ahead `_next_cron_run` looks. -/
def searchDays : Nat := 366 * 4

/-- `_next_cron_run` with the expression parsed; nothing where the loop does not end. -/
def nextRun (after : DateTime) : Option (Except DateTimeError (Option DateTime)) :=
  match after.toMinute.addMinute with
  | .error e => some (.error e)
  | .ok candidate =>
    match after.addDays searchDays with
    | .error e => some (.error e)
    | .ok limit => parts.searchFrom limit candidate

end CronParts

def nextCronRun (cronExpr : List Char) (after : DateTime) :
    Option (Except CronError (Option DateTime)) :=
  match parseCronExpression cronExpr with
  | .error e => some (.error e)
  | .ok parts => (parts.nextRun after).map fun result => result.mapError CronError.time

namespace CronParts

/-- A minute that the expression matches, behind that of `after` and within the days that are
looked ahead. -/
structure IsRun (parts : CronParts) (after time : DateTime) : Prop where
  aligned : time.Aligned
  behind : after.toMinute.position < time.position
  within : ∃ limit, after.addDays searchDays = .ok limit ∧ time.position ≤ limit.position
  matches' : parts.cronMatches time = true

/-- What the scan of all minutes gives. -/
def IsNextRun (parts : CronParts) (after : DateTime) : Option DateTime → Prop
  | some time => parts.IsRun after time ∧ ∀ other, parts.IsRun after other →
      time.position ≤ other.position
  | none => ∀ time, ¬ parts.IsRun after time

/-- The last minute to be looked at lies where the search would go on to a day that the calendar
does not have. -/
def RunsOff (parts : CronParts) (limit : DateTime) : Prop :=
  (limit.date.year = 9999 ∧ limit.date.month = 12) ∧
    (12 ∉ parts.months ∨ limit.date.day = 31 ∧
      (parts.dayMatches limit.date = false ∨ limit.hour = 23 ∧
        (23 ∉ parts.hours ∨ limit.minute = 59 ∧ 59 ∉ parts.minutes)))

/-- The days that are looked ahead exist, and with no minute that matches the search ends before it
leaves the calendar. -/
def Searchable (parts : CronParts) (after : DateTime) : Prop :=
  ∃ limit, after.addDays searchDays = .ok limit ∧
    ((∃ time, parts.IsRun after time) ∨ ¬ parts.RunsOff limit)

variable {parts : CronParts} {candidate time : DateTime}

/-! ## What a turn of the search skips -/

theorem visit_eq_none : parts.visit time = none ↔ parts.cronMatches time = true := by
  unfold visit cronMatches
  by_cases hmonth : time.date.month ∈ parts.months <;>
    by_cases hday : parts.dayMatches time.date = true <;>
    by_cases hhour : time.hour ∈ parts.hours <;>
    by_cases hminute : time.minute ∈ parts.minutes <;>
    simp [hmonth, hday, hhour, hminute]

theorem cronMatches_iff : parts.cronMatches time = true ↔ time.date.month ∈ parts.months ∧
    parts.dayMatches time.date = true ∧ time.hour ∈ parts.hours ∧
      time.minute ∈ parts.minutes := by
  unfold cronMatches
  by_cases hmonth : time.date.month ∈ parts.months <;>
    by_cases hhour : time.hour ∈ parts.hours <;>
    by_cases hminute : time.minute ∈ parts.minutes <;>
    simp [hmonth, hhour, hminute]

theorem visit_cases {step : Except DateTimeError DateTime} :
    parts.visit candidate = some step ↔
      (candidate.date.month ∉ parts.months ∧ step = candidate.nextMonth) ∨
      (candidate.date.month ∈ parts.months ∧ parts.dayMatches candidate.date = false ∧
        step = candidate.addDay.map DateTime.atMidnight) ∨
      (candidate.date.month ∈ parts.months ∧ parts.dayMatches candidate.date = true ∧
        candidate.hour ∉ parts.hours ∧ step = candidate.addHour.map DateTime.atHour) ∨
      (candidate.date.month ∈ parts.months ∧ parts.dayMatches candidate.date = true ∧
        candidate.hour ∈ parts.hours ∧ candidate.minute ∉ parts.minutes ∧
        step = candidate.addMinute) := by
  unfold visit
  by_cases hmonth : candidate.date.month ∈ parts.months <;>
    by_cases hday : parts.dayMatches candidate.date = true <;>
    by_cases hhour : candidate.hour ∈ parts.hours <;>
    by_cases hminute : candidate.minute ∈ parts.minutes <;>
    simp [hmonth, hday, hhour, hminute, eq_comm]

variable {e : DateTimeError}

theorem map_eq_error {f : DateTime → DateTime} {step : Except DateTimeError DateTime} :
    Except.error e = step.map f ↔ step = .error e := by
  cases step with
  | error => simp [Except.map, eq_comm]
  | ok => simp [Except.map]

variable {s t : DateTime}

theorem visit_passes {next : DateTime} (hs : s.Aligned) (ht : t.Aligned)
    (h : parts.visit s = some (.ok next)) (hle : s.minutePosition ≤ t.minutePosition)
    (hlt : t.minutePosition < next.minutePosition) : parts.cronMatches t = false := by
  rw [Bool.eq_false_iff, ne_eq, cronMatches_iff]
  rintro ⟨hmonth, hday, hhour, hminute⟩
  rcases visit_cases.1 h with ⟨hno, hstep⟩ | ⟨-, hno, hstep⟩ | ⟨-, -, hno, hstep⟩ |
    ⟨-, -, -, hno, hstep⟩
  · rw [← DateTime.nextMonth_passes hstep.symm hle hlt] at hno
    exact hno hmonth
  · obtain ⟨later, hlater, rfl⟩ := Except.map_ok_iff.mp hstep.symm
    rw [← DateTime.addDay_passes hlater hle hlt, hday] at hno
    contradiction
  · obtain ⟨later, hlater, rfl⟩ := Except.map_ok_iff.mp hstep.symm
    rw [← (DateTime.addHour_passes hlater hle hlt).2] at hno
    exact hno hhour
  · rw [← DateTime.addMinute_passes hs ht hstep.symm hle hlt] at hno
    exact hno hminute

theorem visit_ends (hs : s.Aligned) (ht : t.Aligned) (h : parts.visit s = some (.error e))
    (hle : s.minutePosition ≤ t.minutePosition) :
    parts.visit t = some (.error e) := by
  rw [visit_cases] at h ⊢
  rcases h with ⟨hno, hstep⟩ | ⟨hmonth, hno, hstep⟩ | ⟨hmonth, hday, hno, hstep⟩ |
    ⟨hmonth, hday, hhour, hno, hstep⟩
  · obtain ⟨hsame, hends⟩ := DateTime.nextMonth_ends hstep.symm hle
    rw [hsame]
    exact .inl ⟨hno, hends.symm⟩
  · have hlast := DateTime.addDay_eq_error.mp (map_eq_error.1 hstep)
    have hsame := DateTime.date_of_last hlast.1 (DateTime.date_le_of_le hle)
    refine .inr (.inl ⟨by rw [hsame]; exact hmonth, by rw [hsame]; exact hno, ?_⟩)
    rw [map_eq_error, DateTime.addDay_eq_error, hsame]
    exact hlast
  · have hlast := DateTime.addHour_eq_error.mp (map_eq_error.1 hstep)
    obtain ⟨hsame, hhour⟩ := DateTime.addHour_ends (map_eq_error.1 hstep) hle
    refine .inr (.inr (.inl ⟨by rw [hsame]; exact hmonth, by rw [hsame]; exact hday,
      by rw [hhour]; exact hno, ?_⟩))
    rw [map_eq_error, DateTime.addHour_eq_error, hsame, hhour]
    exact hlast
  · rw [DateTime.addMinute_ends hs ht hstep.symm hle]
    exact .inr (.inr (.inr ⟨hmonth, hday, hhour, hno, hstep⟩))

theorem visit_stays {next : DateTime} (hs : s.Aligned) (ht : t.Aligned)
    (h : parts.visit s = some (.ok next)) (hle : s.minutePosition ≤ t.minutePosition)
    (hlt : t.minutePosition < next.minutePosition) : parts.visit t ≠ some (.error e) := by
  intro herror
  rw [visit_cases] at h herror
  rcases h with ⟨hno, hstep⟩ | ⟨hmonth, hno, hstep⟩ | ⟨hmonth, hday, hno, hstep⟩ |
    ⟨hmonth, hday, hhour, hno, hstep⟩
  · have hsame := DateTime.nextMonth_passes hstep.symm hle hlt
    rw [hsame] at herror
    obtain ⟨-, hstepT⟩ : s.date.month ∉ parts.months ∧ Except.error e = t.nextMonth := by
      simpa [hno] using herror
    obtain ⟨hends, -⟩ := DateTime.nextMonth_ends hstepT.symm (Nat.le_of_lt hlt)
    obtain ⟨date, hdate, rfl⟩ := DateTime.nextMonth_eq_ok hstep.symm
    have hdiffers : date.month ≠ s.date.month := by
      rcases Date.nextMonth_cases hdate with ⟨_, _, hm, _⟩ | ⟨_, _, hm, _⟩ <;> omega
    exact hdiffers (by rw [← hsame]; exact hends)
  · obtain ⟨later, hlater, rfl⟩ := Except.map_ok_iff.mp hstep.symm
    have hsame := DateTime.addDay_passes hlater hle hlt
    rw [hsame] at herror
    obtain ⟨-, hstepT⟩ : s.date.month ∈ parts.months ∧
        Except.error e = t.addDay.map DateTime.atMidnight := by
      simpa [hmonth, hno] using herror
    have hlast := (DateTime.addDay_eq_error.mp (map_eq_error.1 hstepT)).1
    obtain ⟨date, hdate, -⟩ := DateTime.addDay_eq_ok hlater
    rw [hsame, hdate] at hlast
    contradiction
  · obtain ⟨later, hlater, rfl⟩ := Except.map_ok_iff.mp hstep.symm
    obtain ⟨hsame, hhour⟩ := DateTime.addHour_passes hlater hle hlt
    rw [hsame, hhour] at herror
    obtain ⟨-, hstepT⟩ : s.date.month ∈ parts.months ∧
        Except.error e = t.addHour.map DateTime.atHour := by
      simpa [hmonth, hday, hno] using herror
    have hlast := DateTime.addHour_eq_error.mp (map_eq_error.1 hstepT)
    rw [hsame, hhour] at hlast
    rw [DateTime.addHour_eq_error.mpr hlast] at hlater
    contradiction
  · obtain rfl := DateTime.addMinute_passes hs ht hstep.symm hle hlt
    rw [← visit_cases, visit_cases.2 (.inr (.inr (.inr ⟨hmonth, hday, hhour, hno, hstep⟩)))]
      at herror
    exact absurd (Option.some.inj herror) (by simp)

theorem visit_line (parts : CronParts) :
    Line DateTime.minutePosition parts.visit DateTime.Aligned where
  place := by
    intro s next hs h
    rcases visit_cases.1 h with ⟨-, hstep⟩ | ⟨-, -, hstep⟩ | ⟨-, -, -, hstep⟩ |
      ⟨-, -, -, -, hstep⟩
    · exact hs.nextMonth hstep.symm
    · obtain ⟨later, hlater, rfl⟩ := Except.map_ok_iff.mp hstep.symm
      have haligned : later.Aligned := hs.addDay hlater
      exact haligned
    · obtain ⟨later, hlater, rfl⟩ := Except.map_ok_iff.mp hstep.symm
      have haligned : later.Aligned := hs.addHour hlater
      exact haligned
    · exact hs.addMinute hstep.symm
  up := by
    intro s next _ h
    rcases visit_cases.1 h with ⟨-, hstep⟩ | ⟨-, -, hstep⟩ | ⟨-, -, -, hstep⟩ |
      ⟨-, -, -, -, hstep⟩
    · exact DateTime.nextMonth_up hstep.symm
    · obtain ⟨later, hlater, rfl⟩ := Except.map_ok_iff.mp hstep.symm
      exact DateTime.addDay_up hlater
    · obtain ⟨later, hlater, rfl⟩ := Except.map_ok_iff.mp hstep.symm
      exact DateTime.addHour_up hlater
    · exact (DateTime.addMinute_position hstep.symm).1
  passes := by
    intro s next t hs ht h hle hlt hit
    have hno := visit_passes hs ht h hle hlt
    rw [visit_eq_none, hno] at hit
    contradiction
  stays := fun hs ht h hle hlt => visit_stays hs ht h hle hlt
  ends := fun hs ht h hle => visit_ends hs ht h hle

theorem runsOff_iff {limit : DateTime} :
    parts.RunsOff limit ↔ ∃ e, parts.visit limit.toMinute = some (.error e) := by
  constructor
  · rintro ⟨⟨hyear, hdecember⟩, hfields⟩
    by_cases hmonth : 12 ∈ parts.months
    · obtain ⟨hday, hfields⟩ := hfields.resolve_left (fun h => h hmonth)
      have hlast := Date.next_eq_none.mpr ⟨hyear, hdecember, hday⟩
      rw [← hdecember] at hmonth
      refine ⟨.overflow, visit_cases.2 ?_⟩
      cases hmatches : parts.dayMatches limit.date with
      | false =>
        exact .inr (.inl ⟨hmonth, hmatches,
          map_eq_error.2 (DateTime.addDay_eq_error.mpr ⟨hlast, rfl⟩)⟩)
      | true =>
        rw [hmatches] at hfields
        obtain ⟨hlastHour, hfields⟩ := hfields.resolve_left (by simp)
        by_cases hin : 23 ∈ parts.hours
        · obtain ⟨hlastMinute, hout⟩ := hfields.resolve_left (fun h => h hin)
          rw [← hlastHour] at hin
          rw [← hlastMinute] at hout
          have hends : limit.toMinute.addMinute = .error .overflow :=
            DateTime.addMinute_eq_error.mpr ⟨hlastMinute, hlastHour, hlast, rfl⟩
          exact .inr (.inr (.inr ⟨hmonth, hmatches, hin, hout, hends.symm⟩))
        · rw [← hlastHour] at hin
          exact .inr (.inr (.inl ⟨hmonth, hmatches, hin,
            map_eq_error.2 (DateTime.addHour_eq_error.mpr ⟨hlastHour, hlast, rfl⟩)⟩))
    · rw [← hdecember] at hmonth
      have hends : limit.toMinute.nextMonth = .error .yearOutOfRange :=
        DateTime.nextMonth_eq_error.mpr ⟨⟨hdecember, hyear⟩, rfl⟩
      exact ⟨.yearOutOfRange, visit_cases.2 (.inl ⟨hmonth, hends.symm⟩)⟩
  · rintro ⟨e, h⟩
    rcases visit_cases.1 h with ⟨hno, hstep⟩ | ⟨-, hno, hstep⟩ | ⟨-, -, hno, hstep⟩ |
      ⟨-, -, -, hno, hstep⟩
    · obtain ⟨⟨hmonth, hyear⟩, -⟩ := DateTime.nextMonth_eq_error.mp hstep.symm
      rw [hmonth] at hno
      exact ⟨⟨hyear, hmonth⟩, .inl hno⟩
    · obtain ⟨hlast, -⟩ := DateTime.addDay_eq_error.mp (map_eq_error.1 hstep)
      obtain ⟨hyear, hmonth, hday⟩ := Date.next_eq_none.mp hlast
      exact ⟨⟨hyear, hmonth⟩, .inr ⟨hday, .inl hno⟩⟩
    · obtain ⟨hlastHour, hlast, -⟩ := DateTime.addHour_eq_error.mp (map_eq_error.1 hstep)
      obtain ⟨hyear, hmonth, hday⟩ := Date.next_eq_none.mp hlast
      rw [hlastHour] at hno
      exact ⟨⟨hyear, hmonth⟩, .inr ⟨hday, .inr ⟨hlastHour, .inl hno⟩⟩⟩
    · obtain ⟨hlastMinute, hlastHour, hlast, -⟩ := DateTime.addMinute_eq_error.mp hstep.symm
      obtain ⟨hyear, hmonth, hday⟩ := Date.next_eq_none.mp hlast
      rw [hlastMinute] at hno
      exact ⟨⟨hyear, hmonth⟩, .inr ⟨hday, .inr ⟨hlastHour, .inr ⟨hlastMinute, hno⟩⟩⟩⟩

/-! ## The loop and the scan -/

variable {after limit : DateTime}

theorem toMinute_aligned (after : DateTime) : after.toMinute.Aligned := ⟨rfl, rfl⟩

theorem minutePosition_toMinute (after : DateTime) :
    after.toMinute.minutePosition = after.minutePosition := rfl

theorem withinLimit_iff (h : time.Aligned) :
    withinLimit limit time = true ↔ time.minutePosition ≤ limit.minutePosition := by
  rw [withinLimit, decide_eq_true_eq, DateTime.position_le_iff h]

theorem searchFrom_isSome (parts : CronParts) (limit : DateTime) (h : candidate.Aligned) :
    ∃ result, parts.searchFrom limit candidate = some result := by
  unfold searchFrom
  have hbound : ∀ s : DateTime, s.Aligned → withinLimit limit s = true →
      s.minutePosition ≤ limit.minutePosition := fun s hs hin => (withinLimit_iff hs).mp hin
  apply exists_result (visit_line parts) hbound h
  · omega
  · omega

theorem withinLimit_mono (hs : s.Aligned) (ht : t.Aligned)
    (hle : s.minutePosition ≤ t.minutePosition) (h : withinLimit limit t = true) :
    withinLimit limit s = true := by
  rw [withinLimit_iff hs]
  rw [withinLimit_iff ht] at h
  omega

section

variable (hcandidate : after.toMinute.addMinute = .ok candidate)
include hcandidate

/-- A minute lies behind that of `after` where it is not before the first candidate. -/
theorem behind_iff (h : time.Aligned) : after.toMinute.position < time.position ↔
      candidate.minutePosition ≤ time.minutePosition := by
  rw [← Nat.not_le, DateTime.position_le_iff h]
  have hup := (DateTime.addMinute_position hcandidate).1
  constructor
  · intro hbehind
    by_contra hbefore
    have hsame := DateTime.addMinute_passes (toMinute_aligned after) h hcandidate
      (by omega) (by omega)
    rw [hsame] at hbehind
    omega
  · intro hle
    omega

theorem isRun_iff (hlimit : after.addDays searchDays = .ok limit) : parts.IsRun after time ↔
      time.Aligned ∧ parts.visit time = none ∧ withinLimit limit time = true ∧
        candidate.minutePosition ≤ time.minutePosition := by
  constructor
  · intro h
    obtain ⟨found, hfound, hwithin⟩ := h.within
    rw [hlimit] at hfound
    cases hfound
    exact ⟨h.aligned, visit_eq_none.2 h.matches', by simpa [withinLimit] using hwithin,
      (behind_iff hcandidate h.aligned).mp h.behind⟩
  · rintro ⟨haligned, hvisit, hwithin, hbehind⟩
    exact ⟨haligned, (behind_iff hcandidate haligned).mpr hbehind,
      ⟨limit, hlimit, by simpa [withinLimit] using hwithin⟩, visit_eq_none.1 hvisit⟩

theorem isNextRun_of_first (hlimit : after.addDays searchDays = .ok limit)
    {result : Option DateTime}
    (h : First DateTime.minutePosition (withinLimit limit) parts.visit DateTime.Aligned candidate
      result) : parts.IsNextRun after result := by
  cases result with
  | some =>
    obtain ⟨⟨haligned, hvisit, hwithin, hle⟩, hleast⟩ := h
    refine ⟨(isRun_iff hcandidate hlimit).mpr ⟨haligned, hvisit, hwithin, hle⟩, ?_⟩
    intro other hother
    obtain ⟨hotherAligned, hotherVisit, -, hotherLe⟩ := (isRun_iff hcandidate hlimit).mp hother
    rw [DateTime.position_le_iff haligned]
    exact hleast other hotherAligned hotherVisit hotherLe
  | none =>
    intro other hother
    obtain ⟨haligned, hvisit, hwithin, hle⟩ := (isRun_iff hcandidate hlimit).mp hother
    exact h other haligned hvisit hwithin hle

end

theorem addDays_of_addMinute_error (h : after.toMinute.addMinute = .error e) :
    after.addDays searchDays = .error .overflow := by
  have hlast : after.date.next = none := (DateTime.addMinute_eq_error.mp h).2.2.1
  have hdays : searchDays = 1463 + 1 := rfl
  unfold DateTime.addDays
  rw [hdays, Date.addDays_next, hlast]
  rfl

theorem candidate_le_limit (hcandidate : after.toMinute.addMinute = .ok candidate)
    (hlimit : after.addDays searchDays = .ok limit) :
    candidate.minutePosition ≤ limit.minutePosition := by
  have hdays : searchDays = 1463 + 1 := rfl
  unfold DateTime.addDays at hlimit
  split at hlimit
  case h_2 => exact absurd hlimit (by simp)
  case h_1 date hdate =>
    cases hlimit
    rw [hdays, Date.addDays_next] at hdate
    obtain ⟨next, hnext, hrest⟩ := Option.bind_eq_some_iff.mp hdate
    have hup := Date.position_lt_next hnext
    have hle := Date.position_le_addDays hrest
    have hlimitBounds := (after.withDate date).date_position_bounds
    have hbounds := candidate.date_position_bounds
    have hsame : (after.withDate date).date = date := rfl
    rw [hsame] at hlimitBounds
    obtain ⟨-, -, hother⟩ := DateTime.addMinute_position hcandidate
    by_cases hday : candidate.date = after.toMinute.date
    · have hposition : candidate.date.position = after.date.position := by rw [hday]; rfl
      omega
    · obtain ⟨hfound, -, -, hhour, hminute⟩ := hother hday
      have hsameNext : some next = some candidate.date := hnext.symm.trans hfound
      have hzero : candidate.minutePosition = candidate.date.position * 1440 := by
        unfold DateTime.minutePosition
        rw [hhour, hminute]
        omega
      rw [← Option.some.inj hsameNext] at hzero
      omega

theorem nextRun_isSome (parts : CronParts) (after : DateTime) :
    ∃ result, parts.nextRun after = some result := by
  unfold nextRun
  split
  · exact ⟨_, rfl⟩
  case h_2 candidate hcandidate =>
    split
    · exact ⟨_, rfl⟩
    · exact searchFrom_isSome parts _ ((toMinute_aligned after).addMinute hcandidate)

/-- The search gives what the scan of all minutes gives, exactly where the days that it looks ahead
exist and it stays within the calendar. -/
theorem nextRun_exact_iff (parts : CronParts) (after : DateTime) :
    (∃ result, parts.nextRun after = some (.ok result) ∧ parts.IsNextRun after result) ↔
      parts.Searchable after := by
  unfold nextRun Searchable
  cases hcandidate : after.toMinute.addMinute with
  | error =>
    rw [addDays_of_addMinute_error hcandidate]
    simp
  | ok candidate =>
    cases hlimit : after.addDays searchDays with
    | error => simp
    | ok limit =>
      have haligned := (toMinute_aligned after).addMinute hcandidate
      obtain ⟨result, hresult⟩ := searchFrom_isSome parts limit haligned
      simp only [hresult, Option.some.injEq, Except.ok.injEq, exists_eq_left']
      cases result with
      | error e =>
        obtain ⟨⟨last, hlast, hin, -, hfell⟩, hnone⟩ :=
          fell_of_search (visit_line parts) haligned hresult
        have hends : parts.RunsOff limit := by
          rw [runsOff_iff]
          refine ⟨e, (visit_line parts).ends hlast (toMinute_aligned limit) hfell ?_⟩
          rw [minutePosition_toMinute]
          exact (withinLimit_iff hlast).mp hin
        simp only [reduceCtorEq, false_and, exists_false, false_iff, not_or, not_not]
        refine ⟨?_, hends⟩
        rintro ⟨time, hrun⟩
        obtain ⟨htime, hvisit, -, hle⟩ := (isRun_iff hcandidate hlimit).mp hrun
        exact hnone time htime hvisit hle
      | ok found =>
        have hfirst := first_of_search (visit_line parts) withinLimit_mono haligned hresult
        have hnext := isNextRun_of_first hcandidate hlimit hfirst
        refine iff_of_true ⟨found, rfl, hnext⟩ ?_
        cases found with
        | some run => exact .inl ⟨run, hnext.1⟩
        | none =>
          right
          rw [runsOff_iff]
          rintro ⟨e, hfell⟩
          have hin : withinLimit limit limit.toMinute = true := by
            rw [withinLimit_iff (toMinute_aligned limit), minutePosition_toMinute]
          have hle : candidate.minutePosition ≤ limit.toMinute.minutePosition := by
            rw [minutePosition_toMinute]
            exact candidate_le_limit hcandidate hlimit
          exact kept_of_search (visit_line parts) withinLimit_mono
            (toMinute_aligned limit) hin haligned hle hresult hfell

end CronParts

/-- A field gives what it denotes exactly where its bare values with a step of one add nothing, and
the search, which always ends, what the scan of all minutes gives exactly where the days that it
looks ahead exist. -/
theorem cron_search_exact_iff (minVal maxVal : Nat) (field expr : List Char) (after : DateTime) :
    ((∀ values, parseCronField minVal maxVal field = .ok values ↔
      DenotesCron minVal maxVal field values) ↔ CoversUnitSteps minVal maxVal field) ∧
    (∃ result, nextCronRun expr after = some result) ∧
    ∀ parts, parseCronExpression expr = .ok parts →
      ((∃ result, nextCronRun expr after = some (.ok result) ∧ parts.IsNextRun after result) ↔
        parts.Searchable after) := by
  refine ⟨parseCronField_exact_iff minVal maxVal field, ?_, fun parts hparts => ?_⟩
  · unfold nextCronRun
    split
    · exact ⟨_, rfl⟩
    case h_2 parts hparts =>
      obtain ⟨result, hresult⟩ := parts.nextRun_isSome after
      rw [hresult]
      exact ⟨_, rfl⟩
  · rw [← CronParts.nextRun_exact_iff]
    unfold nextCronRun
    rw [hparts]
    obtain ⟨result, hresult⟩ := parts.nextRun_isSome after
    cases result with
    | error => simp [hresult, Except.mapError]
    | ok => simp [hresult, Except.mapError]

private def dailyCron : List Char := "30 9 * * *".toList

private def leapDay : DateTime :=
  ⟨⟨2024, 2, 29, by decide, by decide, by decide, by decide, by decide, by decide⟩, 9, 30, 12, 0,
    by decide, by decide, by decide, DateTime.zero_lt_microseconds⟩

theorem cron_search_exact_daily :
    ∃ parts result, parseCronExpression dailyCron = .ok parts ∧
      nextCronRun dailyCron leapDay = some (.ok result) ∧ parts.IsNextRun leapDay result := by
  cases hparts : parseCronExpression dailyCron with
  | error =>
    have hparsed : (parseCronExpression dailyCron).toOption.isSome = true := by decide +kernel
    simp [hparts, Except.toOption] at hparsed
  | ok parts =>
    have hsearchable : parts.Searchable leapDay := by
      have hlimit : (leapDay.addDays CronParts.searchDays).toOption.any
          (fun limit => limit.date.year = 2028) = true := by decide +kernel
      cases hadd : leapDay.addDays CronParts.searchDays with
      | error => simp [hadd, Except.toOption] at hlimit
      | ok limit =>
        simp only [hadd, Except.toOption, Option.any_some, decide_eq_true_eq] at hlimit
        refine ⟨limit, hadd, .inr fun hoff => ?_⟩
        have hlast := hoff.1.1
        omega
    obtain ⟨result, hresult, hnext⟩ :=
      ((cron_search_exact_iff 0 59 dailyCron dailyCron leapDay).2.2 parts hparts).2 hsearchable
    exact ⟨parts, result, rfl, hresult, hnext⟩

private def lastDay : DateTime :=
  ⟨⟨9999, 12, 31, by decide, by decide, by decide, by decide, by decide, by decide⟩, 9, 30, 12, 0,
    by decide, by decide, by decide, DateTime.zero_lt_microseconds⟩

/-- A step of one is no step to the parser, and the search does not end with none where the
calendar ends. -/
theorem cron_search_not_exact :
    (∃ values, parseCronField 0 59 "5/1".toList = .ok values ∧
      ¬ DenotesCron 0 59 "5/1".toList values) ∧
    nextCronRun dailyCron lastDay = some (.error (.time .overflow)) := by
  refine ⟨⟨{5}, by decide +kernel, ?_⟩, by decide +kernel⟩
  rintro ⟨elements, hspells, -, hvalues⟩
  have hwritten : SpellsCron "5/1".toList [⟨.value 5, some 1⟩] :=
    .cons (@CronElement.SpelledBy.stepped ['5'] ['1'] _ _ (.value (by decide)) (by decide)) .nil
  have helements := hspells.unique hwritten
  subst helements
  have hsix : 6 ∈ ({5} : Finset Nat) := (hvalues 6).mpr ⟨_, List.mem_singleton.mpr rfl, by decide⟩
  simp at hsix
end ClaudeHub
