import GlobalTransaction.Proofs.Text.Digits
import GlobalTransaction.Time.Written

/-!
# The written form of instants is read back

The reader is more lenient than the writer, but it reads what was written, to the nanosecond, as
long as the year has four digits.

## Main definitions

* `Timestamp.HasPlainYear` — the year is written with four digits and without a sign

## Main results

* `Timestamp.scan_print` — the written form denotes the instant
* `Timestamp.asTimestamp_toJson` — so does its form in a JSON text
-/

set_option autoImplicit false

namespace GlobalTransaction.Timestamp

open Text

variable {rest : List Char}

/-! ### Numbers and marks -/

theorem spanDigitsUpTo_append {limit : Nat} {ds : List Char} (hds : ∀ d ∈ ds, d.isDigit)
    (hlength : ds.length = limit) (rest : List Char) :
    spanDigitsUpTo limit (ds ++ rest) = (ds, rest) := by
  induction ds generalizing limit with
  | nil =>
    subst hlength
    cases rest <;> rfl
  | cons d ds ih =>
    subst hlength
    obtain ⟨hd, hrest⟩ := List.forall_mem_cons.1 hds
    rw [List.cons_append, List.length_cons, spanDigitsUpTo, if_pos hd, ih hrest rfl]

theorem trimStart_paddedDecimal (width n : Nat) (rest : List Char) :
    trimStart (paddedDecimal width n ++ rest) = paddedDecimal width n ++ rest := by
  obtain ⟨d, ds, hds, hdigit⟩ := exists_paddedDecimal width n
  rw [hds, List.cons_append, trimStart_cons_of_not_blank (isBlank_of_isDigit hdigit)]

/-- A number that fills its digits is read back. -/
theorem scanNumber_paddedDecimal {width n : Nat} (hwidth : 0 < width) (h : n < 10 ^ width)
    (rest : List Char) : scanNumber width (paddedDecimal width n ++ rest) = some (n, rest) := by
  have hspan := spanDigitsUpTo_append (fun _ => isDigit_of_mem_paddedDecimal)
    (length_paddedDecimal_of_lt hwidth h) rest
  have hspell := ofDecimal_paddedDecimal width n
  obtain ⟨d, ds, hds, -⟩ := exists_paddedDecimal width n
  rw [scanNumber, trimStart_paddedDecimal, hspan]
  rw [hds] at hspell ⊢
  simp [hspell]

theorem scanMark_cons {mark : Char} (h : isBlank mark = false) (rest : List Char) :
    scanMark mark (mark :: rest) = some rest := by
  rw [scanMark, trimStart_cons_of_not_blank h]
  exact if_pos rfl

theorem scanYear_paddedDecimal {n : Nat} (h : n < 10 ^ 4) (rest : List Char) :
    scanYear (paddedDecimal 4 n ++ rest) = some ((n : Int), rest) := by
  have hscan := scanNumber_paddedDecimal (by decide) h rest
  obtain ⟨d, ds, hds, hdigit⟩ := exists_paddedDecimal 4 n
  rw [scanYear, trimStart_paddedDecimal]
  rw [hds, List.cons_append] at hscan ⊢
  -- a digit is no sign
  split
  next heq =>
    obtain ⟨rfl, -⟩ := List.cons.inj heq
    exact nomatch hdigit
  next heq =>
    obtain ⟨rfl, -⟩ := List.cons.inj heq
    exact nomatch hdigit
  next => simp [hscan]

/-! ### Fractions -/

/-- The digits of a fraction count from the point on. -/
theorem scanFraction_point {width n : Nat} (hwidth : 0 < width) (hnine : width ≤ 9)
    (h : n < 10 ^ width) (hrest : ∀ c, rest.head? = some c → c.isDigit = false) :
    scanFraction ('.' :: (paddedDecimal width n ++ rest)) = some (n * 10 ^ (9 - width), rest) := by
  have hlength := length_paddedDecimal_of_lt hwidth h
  have hspell := ofDecimal_paddedDecimal width n
  obtain ⟨d, ds, hds, -⟩ := exists_paddedDecimal width n
  have hdigits : ∀ c ∈ d :: ds, c.isDigit := fun _ hc => isDigit_of_mem_paddedDecimal (hds ▸ hc)
  rw [hds] at hlength hspell ⊢
  rw [scanFraction, spanDigits_append _ _ hdigits hrest]
  have htake : (d :: ds).take 9 = d :: ds := List.take_of_length_le (by omega)
  simp only [htake, hlength, hspell]
  rfl

/-- The fewest digits that lose nothing are enough. -/
theorem scanFraction_print {nanosecond : Nat} (h : nanosecond < 1000000000) :
    scanFraction (printFraction nanosecond ++ ['Z']) = some (nanosecond, ['Z']) := by
  have hend : ∀ c, ['Z'].head? = some c → c.isDigit = false := by
    rintro _ ⟨⟩
    rfl
  rw [printFraction]
  split
  next hzero =>
    subst hzero
    rfl
  next =>
    split
    next hmilli =>
      rw [List.cons_append, scanFraction_point (by decide) (by decide) (by omega) hend]
      congr 2
      omega
    next =>
      split
      next hmicro =>
        rw [List.cons_append, scanFraction_point (by decide) (by decide) (by omega) hend]
        congr 2
        omega
      next =>
        rw [List.cons_append, scanFraction_point (by decide) (by decide) (by omega) hend]
        congr 2
        omega

/-! ### Instants -/

/-- The year is written with four digits and without a sign. -/
def HasPlainYear (t : Timestamp) : Prop := 0 ≤ t.date.year ∧ t.date.year ≤ 9999

instance (t : Timestamp) : Decidable t.HasPlainYear := inferInstanceAs (Decidable (_ ∧ _))

theorem daysInMonth_le (year : Int) (month : Nat) : daysInMonth year month ≤ 31 := by
  unfold daysInMonth
  split <;> (try split) <;> decide

theorem scanDate_print {d : Date} (h : 0 ≤ d.year ∧ d.year ≤ 9999) (rest : List Char) :
    scanDate (printYear d.year ++ '-' :: (paddedDecimal 2 d.month ++ '-' ::
      (paddedDecimal 2 d.day ++ rest))) = some (d, rest) := by
  have hmonth := d.month_mem
  have hday := d.day_mem
  have hdays := daysInMonth_le d.year d.month
  have hyear : ((d.year.toNat : Nat) : Int) = d.year := by omega
  rw [scanDate, printYear, if_pos h, scanYear_paddedDecimal (by omega)]
  simp [scanMark_cons (show isBlank '-' = false by decide), hyear,
    scanNumber_paddedDecimal (show 0 < 2 by decide) (show d.month < 10 ^ 2 by omega),
    scanNumber_paddedDecimal (show 0 < 2 by decide) (show d.day < 10 ^ 2 by omega)]

theorem scanTime_print (t : TimeOfDay) :
    scanTime (paddedDecimal 2 t.hour ++ ':' :: (paddedDecimal 2 t.minute ++ ':' ::
      (paddedDecimal 2 t.second ++ (printFraction t.nanosecond ++ ['Z'])))) = some (t, ['Z']) := by
  have hhour := t.hour_lt
  have hminute := t.minute_lt
  have hsecond := t.second_le
  simp [scanTime, scanMark_cons (show isBlank ':' = false by decide),
    scanNumber_paddedDecimal (show 0 < 2 by decide) (show t.hour < 10 ^ 2 by omega),
    scanNumber_paddedDecimal (show 0 < 2 by decide) (show t.minute < 10 ^ 2 by omega),
    scanNumber_paddedDecimal (show 0 < 2 by decide) (show t.second < 10 ^ 2 by omega),
    scanFraction_print t.nanosecond_lt]

/-- The written form of an instant denotes it. -/
theorem scan_print {t : Timestamp} (h : t.HasPlainYear) : scan t.print = some t := by
  have hrange : t.inRange = true := by
    have hlow : yearRange.1 ≤ t.date.year := Int.le_trans (show yearRange.1 ≤ 0 by decide) h.1
    have hhigh : t.date.year ≤ yearRange.2 := Int.le_trans h.2 (show 9999 ≤ yearRange.2 by decide)
    rw [inRange, decide_eq_true hlow, decide_eq_true hhigh]
    rfl
  have htrim : trimStart ['Z'] = ['Z'] := rfl
  simp only [print, List.append_assoc, List.cons_append]
  rw [scan, scanDate_print h]
  simp [scanTime_print, scanOffset, htrim, hrange]

theorem asTimestamp_toJson {t : Timestamp} (h : t.HasPlainYear) :
    asTimestamp t.toJson = .ok t := by
  simp [asTimestamp, toJson, text, scan_print h, bind, Except.bind]
  rfl

end GlobalTransaction.Timestamp
