import GlobalTransaction.Time.Calendar

/-!
# Instants in universal time

An instant is a date and a time of day in universal time, to the nanosecond. A minute
may have a sixtieth second.

## Main definitions

* `TimeOfDay`, `Timestamp` — the parts and the whole
* `Timestamp.shift` — the same clock reading a number of minutes later
* `Timestamp.ofUnixMillis` — the instant a number of milliseconds after 1970
* `Timestamp.inRange` — the years in which instants can be represented
-/

namespace GlobalTransaction

/-- A time of day. -/
structure TimeOfDay where
  hour : Nat
  minute : Nat
  /-- The second; 60 is a leap second. -/
  second : Nat
  nanosecond : Nat
  hour_lt : hour < 24 := by decide
  minute_lt : minute < 60 := by decide
  second_le : second ≤ 60 := by decide
  nanosecond_lt : nanosecond < 1000000000 := by decide
deriving DecidableEq

/-- The time of day with these numbers, if there is one. -/
def TimeOfDay.of? (hour minute second nanosecond : Nat) : Option TimeOfDay :=
  if h : hour < 24 ∧ minute < 60 ∧ second ≤ 60 ∧ nanosecond < 1000000000 then
    some ⟨hour, minute, second, nanosecond, h.1, h.2.1, h.2.2.1, h.2.2.2⟩
  else none

@[simp] theorem TimeOfDay.of?_self (t : TimeOfDay) :
    of? t.hour t.minute t.second t.nanosecond = some t := by
  simp [of?, t.hour_lt, t.minute_lt, t.second_le, t.nanosecond_lt]

/-- An instant in universal time. -/
structure Timestamp where
  date : Date
  time : TimeOfDay
deriving DecidableEq

namespace Timestamp

/-- The first and the last year in which instants can be represented. -/
def yearRange : Int × Int := (-262143, 262142)

/-- Whether the year of an instant can be represented. -/
def inRange (t : Timestamp) : Bool := yearRange.1 ≤ t.date.year && t.date.year ≤ yearRange.2

/-- The same reading of the seconds hand, the other hands moved by less than a day of minutes. -/
def shift (t : Timestamp) (minutes : Int) : Timestamp :=
  let total := (t.time.hour * 60 + t.time.minute : Nat) + minutes
  let minuteOfDay := (total % 1440).toNat
  have hlt : minuteOfDay < 1440 := by omega
  { date := if total < 0 then t.date.previous else if 1440 ≤ total then t.date.next else t.date
    time := ⟨minuteOfDay / 60, minuteOfDay % 60, t.time.second, t.time.nanosecond, by omega,
      by omega, t.time.second_le, t.time.nanosecond_lt⟩ }

@[simp] theorem shift_zero (t : Timestamp) : t.shift 0 = t := by
  have hhour := t.time.hour_lt
  have hminute := t.time.minute_lt
  obtain ⟨date, hour, minute, second, nanosecond, _, _, _, _⟩ := t
  simp only at hhour hminute
  simp only [shift, Timestamp.mk.injEq, TimeOfDay.mk.injEq]
  refine ⟨?_, by omega, by omega, by simp⟩
  rw [if_neg (by omega), if_neg (by omega)]

/-- The instant a number of milliseconds after the beginning of 1970. -/
def ofUnixMillis (ms : Int) : Timestamp :=
  let milliOfDay := (ms % 86400000).toNat
  have hlt : milliOfDay < 86400000 := by omega
  { date := .ofDayNumber (ms / 86400000)
    time := ⟨milliOfDay / 3600000, milliOfDay / 60000 % 60, milliOfDay / 1000 % 60,
      milliOfDay % 1000 * 1000000, by omega, by omega, by omega, by omega⟩ }

end Timestamp

end GlobalTransaction
