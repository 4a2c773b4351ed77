import GlobalTransaction.Time.Timestamp
import GlobalTransaction.Text.Blank
import GlobalTransaction.Text.Decimal
import GlobalTransaction.Json.Decoder

/-!
# The written form of instants

Instants are written as `YYYY-MM-DDTHH:MM:SSZ`, with a fraction of 3, 6 or 9 digits
where one is needed. The reader is more lenient: it accepts blanks before each number
and each separator, numbers without leading zeros, a blank or a small letter for `T`,
any number of fraction digits, and offsets from universal time.

## Main definitions

* `Timestamp.print` — the written form
* `Timestamp.scan` — the reading of a text
* `Timestamp.toJson`, `Timestamp.asTimestamp` — the form in a JSON text
-/

namespace GlobalTransaction

open Text

namespace Timestamp

/-! ### Writing -/

/-- A year. Outside of the four-digit years it bears its sign. -/
def printYear (year : Int) : List Char :=
  if 0 ≤ year ∧ year ≤ 9999 then paddedDecimal 4 year.toNat
  else (if year < 0 then '-' else '+') :: paddedDecimal 4 year.natAbs

/-- A fraction of a second in the fewest of 0, 3, 6 and 9 digits that lose nothing. -/
def printFraction (nanosecond : Nat) : List Char :=
  if nanosecond = 0 then []
  else if nanosecond % 1000000 = 0 then '.' :: paddedDecimal 3 (nanosecond / 1000000)
  else if nanosecond % 1000 = 0 then '.' :: paddedDecimal 6 (nanosecond / 1000)
  else '.' :: paddedDecimal 9 nanosecond

/-- The written form of an instant. -/
def print (t : Timestamp) : List Char :=
  printYear t.date.year ++ '-' :: paddedDecimal 2 t.date.month ++ '-' :: paddedDecimal 2 t.date.day
    ++ 'T' :: paddedDecimal 2 t.time.hour ++ ':' :: paddedDecimal 2 t.time.minute
    ++ ':' :: paddedDecimal 2 t.time.second ++ printFraction t.time.nanosecond ++ ['Z']

/-- The written form of an instant, as a string. -/
def text (t : Timestamp) : String := String.ofList t.print

/-! ### Reading -/

/-- At most `limit` digits at the beginning of a text, and what follows them. -/
def spanDigitsUpTo : (limit : Nat) → List Char → List Char × List Char
  | limit + 1, c :: cs =>
    if c.isDigit then
      let (ds, rest) := spanDigitsUpTo limit cs
      (c :: ds, rest)
    else ([], c :: cs)
  | _, cs => ([], cs)

/-- A number of at most `limit` digits behind blanks. -/
def scanNumber (limit : Nat) (cs : List Char) : Option (Nat × List Char) :=
  match spanDigitsUpTo limit (trimStart cs) with
  | ([], _) => none
  | (ds, rest) => some (ofDecimal ds, rest)

/-- A separator behind blanks. -/
def scanMark (mark : Char) (cs : List Char) : Option (List Char) :=
  match trimStart cs with
  | c :: rest => if c = mark then some rest else none
  | [] => none

/-- A year behind blanks: four digits at most, or any number of them behind a sign. -/
def scanYear (cs : List Char) : Option (Int × List Char) :=
  match trimStart cs with
  | '-' :: rest => signed (-1) (spanDigits rest)
  | '+' :: rest => signed 1 (spanDigits rest)
  | rest => do
    let (n, rest) ← scanNumber 4 rest
    return ((n : Int), rest)
where
  signed (sign : Int) : List Char × List Char → Option (Int × List Char)
    | ([], _) => none
    | (ds, rest) => some (sign * ofDecimal ds, rest)

/-- A date. -/
def scanDate (cs : List Char) : Option (Date × List Char) := do
  let (year, rest) ← scanYear cs
  let rest ← scanMark '-' rest
  let (month, rest) ← scanNumber 2 rest
  let rest ← scanMark '-' rest
  let (day, rest) ← scanNumber 2 rest
  let date ← Date.of? year month day
  return (date, rest)

/-- The fraction of a second behind a point, in nanoseconds; digits behind the ninth are cut. -/
def scanFraction : List Char → Option (Nat × List Char)
  | '.' :: rest =>
    match spanDigits rest with
    | ([], _) => none
    | (ds, rest) =>
      let kept := ds.take 9
      some (ofDecimal kept * Nat.pow 10 (9 - kept.length), rest)
  | rest => some (0, rest)

/-- A time of day. -/
def scanTime (cs : List Char) : Option (TimeOfDay × List Char) := do
  let (hour, rest) ← scanNumber 2 cs
  let rest ← scanMark ':' rest
  let (minute, rest) ← scanNumber 2 rest
  let rest ← scanMark ':' rest
  let (second, rest) ← scanNumber 2 rest
  let (nanosecond, rest) ← scanFraction rest
  let time ← TimeOfDay.of? hour minute second nanosecond
  return (time, rest)

/-- The hours and minutes of an offset behind its sign: two digits each, with colons and blanks
between them. -/
def scanOffsetDigits : List Char → Option (Nat × List Char)
  | h₁ :: h₂ :: rest =>
    match rest.dropWhile fun c => c = ':' || isBlank c with
    | m₁ :: m₂ :: rest =>
      if h₁.isDigit && h₂.isDigit && m₁.isDigit && m₂.isDigit && m₁ < '6' then
        some (ofDecimal [h₁, h₂] * 60 + ofDecimal [m₁, m₂], rest)
      else none
    | _ => none
  | _ => none

/-- The offset from universal time in minutes, less than a day: a `Z`, the letters `UTC`, or a
sign with hours and minutes. -/
def scanOffset : List Char → Option (Int × List Char)
  | 'Z' :: rest => some (0, rest)
  | 'z' :: rest => some (0, rest)
  | '+' :: rest => bounded 1 (scanOffsetDigits rest)
  | '-' :: rest => bounded (-1) (scanOffsetDigits rest)
  | '\u2212' :: rest => bounded (-1) (scanOffsetDigits rest)
  | u :: t :: c :: rest =>
    if u.toUpper = 'U' ∧ t.toUpper = 'T' ∧ c.toUpper = 'C' then some (0, rest) else none
  | _ => none
where
  bounded (sign : Int) : Option (Nat × List Char) → Option (Int × List Char)
    | some (minutes, rest) => if minutes < 1440 then some (sign * minutes, rest) else none
    | none => none

/-- The instant that a text denotes, if it is one. -/
def scan (cs : List Char) : Option Timestamp := do
  let (date, rest) ← scanDate cs
  match rest with
  | [] => none
  | separator :: rest =>
    if separator ≠ 'T' ∧ separator ≠ 't' ∧ separator ≠ ' ' then none
    let (time, rest) ← scanTime rest
    let (offset, rest) ← scanOffset (trimStart rest)
    if trimStart rest ≠ [] then none
    let written : Timestamp := ⟨date, time⟩
    let instant := written.shift (-offset)
    if written.inRange && instant.inRange then return instant else none

/-! ### Instants in a JSON text -/

/-- An instant as a JSON value. -/
def toJson (t : Timestamp) : Json := .ofText t.text

/-- The instant that a JSON value denotes. -/
def asTimestamp : Json.Decoder Timestamp := fun j => do
  match scan (← Json.asText j).toList with
  | some t => return t
  | none => throw (.wrongValue j "an RFC 3339 formatted date and time")

end Timestamp

end GlobalTransaction
