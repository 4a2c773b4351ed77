/-!
# The Gregorian calendar

Dates of the Gregorian calendar, extended over all years, with their neighbours and
their distance in days.

## Main definitions

* `isLeapYear`, `daysInMonth`, `daysInYear` — the lengths of months and years
* `Date` — a day of the calendar
* `Date.next`, `Date.previous` — the days beside it
* `Date.ofDayNumber` — the date of a day counted from 1970-01-01

## Main results

* `monthOfDay_valid` — a day of the year lies in the month that is found for it
-/

namespace GlobalTransaction

/-- Every fourth year is a leap year, but of the full centuries only every fourth. -/
def isLeapYear (year : Int) : Bool := year % 4 = 0 && (year % 100 != 0 || year % 400 = 0)

/-- The number of days of a month, the months being counted from 1. -/
def daysInMonth (year : Int) (month : Nat) : Nat :=
  match month with
  | 2 => if isLeapYear year then 29 else 28
  | 4 | 6 | 9 | 11 => 30
  | _ => 31

/-- The number of days of a year. -/
def daysInYear (year : Int) : Nat := if isLeapYear year then 366 else 365

theorem daysInMonth_pos (year : Int) (month : Nat) : 0 < daysInMonth year month := by
  unfold daysInMonth
  split <;> (try split) <;> decide

theorem daysInYear_pos (year : Int) : 0 < daysInYear year := by
  unfold daysInYear
  split <;> decide

/-- A day of the calendar. -/
structure Date where
  /-- The year; the year before 1 is 0. -/
  year : Int
  /-- The month, counted from 1. -/
  month : Nat
  /-- The day of the month, counted from 1. -/
  day : Nat
  month_mem : 1 ≤ month ∧ month ≤ 12 := by decide
  day_mem : 1 ≤ day ∧ day ≤ daysInMonth year month := by decide
deriving DecidableEq

namespace Date

/-- The date with these numbers, if there is one. -/
def of? (year : Int) (month day : Nat) : Option Date :=
  if hm : 1 ≤ month ∧ month ≤ 12 then
    if hd : 1 ≤ day ∧ day ≤ daysInMonth year month then some ⟨year, month, day, hm, hd⟩
    else none
  else none

@[simp] theorem of?_self (d : Date) : of? d.year d.month d.day = some d := by
  simp [of?, d.month_mem, d.day_mem]

/-- The first day of a year. -/
def newYear (year : Int) : Date :=
  ⟨year, 1, 1, by decide, ⟨Nat.le_refl 1, daysInMonth_pos year 1⟩⟩

/-- The last day of a year. -/
def newYearsEve (year : Int) : Date := ⟨year, 12, 31, by decide, by simp [daysInMonth]⟩

/-- The day after a date. -/
def next (d : Date) : Date :=
  if hday : d.day < daysInMonth d.year d.month then
    ⟨d.year, d.month, d.day + 1, d.month_mem, ⟨Nat.succ_pos _, hday⟩⟩
  else if hmonth : d.month < 12 then
    ⟨d.year, d.month + 1, 1, ⟨Nat.succ_pos _, hmonth⟩, ⟨Nat.le_refl 1, daysInMonth_pos _ _⟩⟩
  else newYear (d.year + 1)

/-- The day before a date. -/
def previous (d : Date) : Date :=
  if hday : 1 < d.day then
    ⟨d.year, d.month, d.day - 1, d.month_mem,
      ⟨Nat.le_sub_one_of_lt hday, Nat.le_trans (Nat.sub_le _ _) d.day_mem.2⟩⟩
  else if hmonth : 1 < d.month then
    ⟨d.year, d.month - 1, daysInMonth d.year (d.month - 1),
      ⟨Nat.le_sub_one_of_lt hmonth, Nat.le_trans (Nat.sub_le _ _) d.month_mem.2⟩,
      ⟨daysInMonth_pos _ _, Nat.le_refl _⟩⟩
  else newYearsEve (d.year - 1)

end Date

/-! ### Days counted through the calendar -/

/-- The year and the day in it, counted from 0, of a day counted from the beginning of a year. -/
def yearOfDay (year : Int) (day : Nat) : Int × Nat :=
  if day < daysInYear year then (year, day) else yearOfDay (year + 1) (day - daysInYear year)
termination_by day
decreasing_by
  have := daysInYear_pos year
  omega

/-- The month and the day in it, counted from 0, of a day counted from the beginning of a month;
`months` further months are looked through. -/
def monthOfDay (year : Int) : (months month day : Nat) → Nat × Nat
  | 0, month, day => (month, min day (daysInMonth year month - 1))
  | months + 1, month, day =>
    if day < daysInMonth year month then (month, day)
    else monthOfDay year months (month + 1) (day - daysInMonth year month)

theorem monthOfDay_valid (year : Int) (months month day : Nat) :
    (month ≤ (monthOfDay year months month day).1 ∧
      (monthOfDay year months month day).1 ≤ month + months) ∧
    (monthOfDay year months month day).2 <
      daysInMonth year (monthOfDay year months month day).1 := by
  induction months generalizing month day with
  | zero =>
    have := daysInMonth_pos year month
    simp only [monthOfDay]
    omega
  | succ months ih =>
    unfold monthOfDay
    split
    · rename_i h
      exact ⟨⟨Nat.le_refl _, Nat.le_add_right _ _⟩, h⟩
    · obtain ⟨⟨h₁, h₂⟩, h₃⟩ := ih (month + 1) (day - daysInMonth year month)
      exact ⟨⟨by omega, by omega⟩, h₃⟩

/-- The days of 400 years, after which the calendar repeats. -/
def daysInCycle : Nat := 146097

/-- The day number of 1970-01-01, counted from 0000-01-01. -/
def epochDay : Nat := 719528

/-- The date of a day counted from 1970-01-01. -/
def Date.ofDayNumber (n : Int) : Date :=
  let day := n + epochDay
  let (year, dayOfYear) := yearOfDay (400 * (day / daysInCycle)) (day % daysInCycle).toNat
  let found := monthOfDay year 11 1 dayOfYear
  have h := monthOfDay_valid year 11 1 dayOfYear
  ⟨year, found.1, found.2 + 1, h.1, ⟨Nat.succ_pos _, h.2⟩⟩

end GlobalTransaction
