import GlobalTransaction.Json.Printer
import GlobalTransaction.Json.Reader
import GlobalTransaction.Proofs.Text.Digits

/-!
# Reading back strings and numbers

A string literal or a number that was written is read back, whatever stands behind the literal.
Behind a number nothing may stand that could belong to it.

## Main definitions

* `Literal.body` — a written literal behind its opening quote
* `Number.EndsBefore` — a text that does not go on with a number

## Main results

* `Json.readLiteral_body` — string literals are read back
* `Json.readNumber_print` — numbers are read back
-/

set_option autoImplicit false

namespace GlobalTransaction

open Text

/-! ### String literals -/

/-- A written literal behind its opening quote. -/
def Literal.body : Literal → List Char
  | .text s => s.toList.flatMap Json.printChar ++ ['"']
  | .unpaired => ['\\', 'u', 'd', '8', '0', '0', '"']

theorem Literal.print_eq (l : Literal) : l.print = '"' :: l.body := by
  cases l <;> rfl

namespace Json

variable {c letter : Char}

/-- The pieces of a literal behind one that stands for a character. -/
def withChar (c : Char) (found : List Piece × List Char) : List Piece × List Char :=
  (.char c :: found.1, found.2)

/-- A character that needs no escape stands for itself. -/
theorem pieces_char (hcontrol : ¬c.toNat < 0x20) (hquote : c ≠ '"') (hslash : c ≠ '\\')
    (rest : List Char) : pieces (c :: rest) = (pieces rest).map (withChar c) := by
  rw [pieces]
  · rw [if_neg (by simp [hcontrol, hslash])]
    cases pieces rest <;> rfl
  · exact hquote
  · exact fun _ _ _ _ _ h _ => hslash h
  · exact fun _ _ h _ => hslash h

/-- An escape by letter stands for its character. -/
theorem pieces_letter (h : escaped? letter = some c) (rest : List Char) :
    pieces ('\\' :: letter :: rest) = (pieces rest).map (withChar c) := by
  have hcode : letter ≠ 'u' := by
    rintro rfl
    exact nomatch h
  rw [pieces, h]
  · cases pieces rest <;> rfl
  · exact fun _ _ _ _ _ hsame _ => hcode hsame

/-- An escape by code point stands for that one, unless it is half of a surrogate pair. -/
theorem pieces_code {n : Nat} (h : n < 0xD800) (rest : List Char) :
    pieces (['\\', 'u'] ++ hexadecimal 4 n ++ rest) =
      (pieces rest).map (withChar (Char.ofNat n)) := by
  have hcode := ofHexadecimal?_hexadecimal 4 n
  rw [Nat.mod_eq_of_lt (Nat.lt_trans h (by decide))] at hcode
  have hpiece : Piece.ofCode n = .char (Char.ofNat n) := if_neg (by omega)
  simp only [hexadecimal, List.nil_append, List.cons_append] at hcode ⊢
  rw [pieces, hcode]
  simp only [Option.bind_eq_bind, Option.bind_some, hpiece]
  cases pieces rest <;> rfl

/-- In whichever way a character is written, it is one piece of a literal. -/
theorem pieces_printChar (c : Char) (rest : List Char) :
    pieces (printChar c ++ rest) = (pieces rest).map (withChar c) := by
  unfold printChar
  split
  iterate 7 exact pieces_letter rfl rest
  -- all that is left has no letter
  next hquote hslash _ _ _ _ _ =>
    split
    next hcontrol =>
      rw [pieces_code (by omega), Char.ofNat_toNat]
    next hcontrol => exact pieces_char hcontrol hquote hslash rest

theorem pieces_flatMap (cs rest : List Char) :
    pieces (cs.flatMap printChar ++ '"' :: rest) = some (cs.map .char, rest) := by
  induction cs with
  | nil => simp [pieces]
  | cons c cs ih => rw [List.flatMap_cons, List.append_assoc, pieces_printChar, ih]; rfl

theorem joinPieces_map_char (cs : List Char) : joinPieces (cs.map .char) = some cs := by
  induction cs with
  | nil => rfl
  | cons c cs ih => rw [List.map_cons, joinPieces, ih]; rfl

/-- A literal is read back up to its closing quote. -/
theorem readLiteral_body (l : Literal) (rest : List Char) :
    readLiteral (l.body ++ rest) = some (l, rest) := by
  cases l with
  | text s =>
    have hpieces := pieces_flatMap s.toList rest
    rw [Literal.body, List.append_assoc, List.singleton_append, readLiteral, hpieces]
    simp [joinPieces_map_char]
  | unpaired =>
    have hcode : ofHexadecimal? ['d', '8', '0', '0'] = some 0xD800 := rfl
    simp [Literal.body, readLiteral, pieces, hcode, Piece.ofCode, joinPieces]

end Json

/-! ### Numbers -/

/-- The text does not begin with a digit, a point or the letter of an exponent. -/
def Number.EndsBefore (rest : List Char) : Prop :=
  ∀ c, rest.head? = some c → c.isDigit = false ∧ c ≠ '.' ∧ c ≠ 'e' ∧ c ≠ 'E'

namespace Json

open Number (EndsBefore)

variable {ds rest : List Char} {negative : Bool} {significand : Nat}

/-- Digits are read up to their end, as long as no zero in front of them is superfluous. -/
theorem readWhole_append (hds : ∀ d ∈ ds, d.isDigit) (hzero : ds.head? ≠ some '0' ∨ ds.length = 1)
    (hne : ds ≠ []) (hrest : ∀ c, rest.head? = some c → c.isDigit = false) :
    readWhole (ds ++ rest) = some (ds, rest) := by
  rw [readWhole, spanDigits_append ds rest hds hrest]
  split
  next heq => exact absurd (Prod.mk.inj heq).1 hne
  next heq =>
    obtain ⟨rfl, -⟩ := Prod.mk.inj heq
    simp at hzero
  next heq =>
    obtain ⟨rfl, rfl⟩ := Prod.mk.inj heq
    rfl

theorem readWhole_decimal (n : Nat) (hrest : ∀ c, rest.head? = some c → c.isDigit = false) :
    readWhole (decimal n ++ rest) = some (decimal n, rest) := by
  refine readWhole_append (fun _ => isDigit_of_mem_decimal) ?_ (decimal_ne_nil n) hrest
  rcases Nat.eq_zero_or_pos n with rfl | hpos
  · exact .inr rfl
  · exact .inl (head?_decimal hpos)

theorem readFraction_point (hds : ∀ d ∈ ds, d.isDigit) (hne : ds ≠ [])
    (hrest : ∀ c, rest.head? = some c → c.isDigit = false) :
    readFraction ('.' :: (ds ++ rest)) = some (ds, rest) := by
  simp [readFraction, spanDigits_append ds rest hds hrest, hne]

theorem readFraction_none (hrest : ∀ c, rest.head? = some c → c ≠ '.') :
    readFraction rest = some ([], rest) := by
  cases rest with
  | nil => rfl
  | cons c rest =>
    rw [readFraction]
    rintro rest' heq
    exact hrest c rfl (List.cons.inj heq).1

theorem readExponent_none (hrest : ∀ c, rest.head? = some c → c ≠ 'e' ∧ c ≠ 'E') :
    readExponent rest = some (none, rest) := by
  cases rest with
  | nil => rfl
  | cons c rest =>
    unfold readExponent
    exact if_neg (not_or.2 (hrest c rfl))

/-- An exponent is written without a sign. -/
theorem readExponent_decimal (n : Nat) (hrest : ∀ c, rest.head? = some c → c.isDigit = false) :
    readExponent ('e' :: (decimal n ++ rest)) = some (some (n : Int), rest) := by
  have hspan : spanDigits (decimal n ++ rest) = (decimal n, rest) :=
    spanDigits_append _ _ (fun _ => isDigit_of_mem_decimal) hrest
  obtain ⟨d, ds, hds, hdigit⟩ := exists_decimal n
  have hsign : ∀ c rest', decimal n ++ rest = c :: rest' → c.isDigit := by
    rintro c rest' heq
    rw [hds, List.cons_append] at heq
    exact (List.cons.inj heq).1 ▸ hdigit
  rw [readExponent, if_pos (.inl rfl)]
  · simp [hspan, decimal_ne_nil]
  · exact fun rest' heq => absurd (hsign _ _ heq) (by decide)
  · exact fun rest' heq => absurd (hsign _ _ heq) (by decide)

/-- The parts of a number are read one after the other. -/
theorem readUnsigned_eq {cs whole fraction rest' rest'' rest''' : List Char} {exponent : Option Int}
    (hwhole : readWhole cs = some (whole, rest'))
    (hfraction : readFraction rest' = some (fraction, rest''))
    (hexponent : readExponent rest'' = some (exponent, rest''')) (negative : Bool) :
    let significand := ofDecimal (whole ++ fraction)
    readUnsigned negative cs =
      some (if fraction.isEmpty && exponent.isNone && !(negative && significand = 0) then
          .integer (if negative then -(significand : Int) else significand)
        else .real negative significand (exponent.getD 0 - fraction.length), rest''') := by
  simp only [readUnsigned, hwhole, hfraction, hexponent, Option.bind_eq_bind, Option.bind_some]
  split
  · rfl
  · rfl

theorem readUnsigned_decimal (negative : Bool) (n : Nat) (hrest : EndsBefore rest)
    (hzero : ¬(negative = true ∧ n = 0)) :
    readUnsigned negative (decimal n ++ rest) =
      some (.integer (if negative then -(n : Int) else n), rest) := by
  rw [readUnsigned_eq (readWhole_decimal n fun c hc => (hrest c hc).1)
    (readFraction_none fun c hc => (hrest c hc).2.1)
    (readExponent_none fun c hc => (hrest c hc).2.2)]
  simp [hzero]

theorem readUnsigned_exponent (negative : Bool) (n exponent : Nat) (hrest : EndsBefore rest) :
    readUnsigned negative (decimal n ++ 'e' :: (decimal exponent ++ rest)) =
      some (.real negative n exponent, rest) := by
  rw [readUnsigned_eq (readWhole_decimal n (by simp)) (readFraction_none (by simp))
    (readExponent_decimal exponent fun c hc => (hrest c hc).1)]
  simp

/-- With so many digits behind the point there is no superfluous zero in front of it. -/
theorem head?_take_paddedDecimal (n places : Nat) :
    let ds := paddedDecimal (places + 1) n
    (ds.take (ds.length - places)).head? ≠ some '0' ∨
      (ds.take (ds.length - places)).length = 1 := by
  intro ds
  have hlength : ds.length = max (places + 1) (decimal n).length := length_paddedDecimal _ n
  rcases Nat.lt_or_ge (places + 1) (decimal n).length with hlong | hshort
  · have hds : ds = decimal n := paddedDecimal_of_le (Nat.le_of_lt hlong)
    have hpos : 0 < n := by
      rcases Nat.eq_zero_or_pos n with rfl | hpos
      · rw [decimal_zero, List.length_singleton] at hlong
        omega
      · exact hpos
    refine .inl ?_
    rw [List.head?_take, if_neg (by omega), hds]
    exact head?_decimal hpos
  · refine .inr ?_
    rw [List.length_take]
    omega

/-- Some digits behind the point make up for an exponent below zero. -/
theorem readUnsigned_places (negative : Bool) (n : Nat) {places : Nat} (hplaces : 0 < places)
    (hrest : EndsBefore rest) :
    readUnsigned negative (Number.printPlaces n places ++ rest) =
      some (.real negative n (-places), rest) := by
  have hspare := head?_take_paddedDecimal n places
  have hlength := length_paddedDecimal (places + 1) n
  have hdigits : ∀ d ∈ paddedDecimal (places + 1) n, d.isDigit :=
    fun _ => isDigit_of_mem_paddedDecimal
  have hspell := ofDecimal_paddedDecimal (places + 1) n
  rw [Number.printPlaces, List.append_assoc, List.cons_append]
  -- from here on it only matters how many digits there are and what they spell
  generalize paddedDecimal (places + 1) n = ds at hspare hlength hdigits hspell ⊢
  have hbehind : (ds.drop (ds.length - places)).length = places := by
    rw [List.length_drop]
    omega
  have hlead : ds.take (ds.length - places) ≠ [] := by
    refine List.ne_nil_of_length_pos ?_
    rw [List.length_take]
    omega
  have hwhole (behind : List Char) :
      readWhole (ds.take (ds.length - places) ++ '.' :: behind) =
        some (ds.take (ds.length - places), '.' :: behind) :=
    readWhole_append (fun d hd => hdigits d (List.mem_of_mem_take hd)) hspare hlead (by simp)
  have hne : ds.drop (ds.length - places) ≠ [] := List.ne_nil_of_length_pos (by omega)
  have hfraction := readFraction_point (fun d hd => hdigits d (List.mem_of_mem_drop hd)) hne
    fun c hc => (hrest c hc).1
  rw [readUnsigned_eq (hwhole _) hfraction (readExponent_none fun c hc => (hrest c hc).2.2),
    List.take_append_drop, hspell, hbehind]
  simp [hne]

/-- A number that begins with a digit has no sign. -/
theorem readNumber_of_isDigit {cs : List Char} (h : ∃ c cs', cs = c :: cs' ∧ c.isDigit = true) :
    readNumber cs = readUnsigned false cs := by
  obtain ⟨c, cs, rfl, hdigit⟩ := h
  rw [readNumber]
  rintro rest heq
  obtain ⟨rfl, -⟩ := List.cons.inj heq
  exact nomatch hdigit

theorem exists_decimal_append (n : Nat) (rest : List Char) :
    ∃ c cs, decimal n ++ rest = c :: cs ∧ c.isDigit = true := by
  obtain ⟨d, ds, hds, hdigit⟩ := exists_decimal n
  exact ⟨d, ds ++ rest, by rw [hds, List.cons_append], hdigit⟩

theorem exists_printPlaces_append (n places : Nat) (rest : List Char) :
    ∃ c cs, Number.printPlaces n places ++ rest = c :: cs ∧ c.isDigit = true := by
  have hlength := length_paddedDecimal (places + 1) n
  obtain ⟨d, ds, hds, hdigit⟩ := exists_paddedDecimal (places + 1) n
  obtain ⟨k, hk⟩ := Nat.exists_eq_add_one_of_ne_zero
    (n := (paddedDecimal (places + 1) n).length - places) (by omega)
  have hprint : Number.printPlaces n places =
      d :: (ds.take k ++ '.' :: (d :: ds).drop (k + 1)) := by
    rw [Number.printPlaces, hk, hds]
    rfl
  exact ⟨d, _, by rw [hprint, List.cons_append], hdigit⟩

/-- The digits of a number behind its sign. -/
theorem readUnsigned_real (negative : Bool) (significand : Nat) (exponent : Int)
    (hrest : EndsBefore rest) :
    let digits :=
      if exponent < 0 then Number.printPlaces significand exponent.natAbs
      else decimal significand ++ 'e' :: decimal exponent.natAbs
    readUnsigned negative (digits ++ rest) = some (.real negative significand exponent, rest) ∧
      ∃ c cs, digits ++ rest = c :: cs ∧ c.isDigit = true := by
  intro digits
  by_cases hexponent : exponent < 0
  · rw [show digits = _ from if_pos hexponent]
    refine ⟨?_, exists_printPlaces_append _ _ _⟩
    rw [readUnsigned_places negative significand (by omega) hrest]
    congr 3
    omega
  · rw [show digits = _ from if_neg hexponent, List.append_assoc, List.cons_append]
    refine ⟨?_, exists_decimal_append _ _⟩
    rw [readUnsigned_exponent negative significand _ hrest]
    congr 3
    omega

/-- A number is read back, as long as nothing that could belong to it stands behind it. -/
theorem readNumber_print (n : Number) (hrest : EndsBefore rest) :
    readNumber (n.print ++ rest) = some (n, rest) := by
  cases n with
  | integer i =>
    rw [Number.print, signedDecimal]
    split
    next hneg =>
      rw [List.cons_append, readNumber, readUnsigned_decimal true _ hrest (by omega)]
      congr 3
      rw [if_pos rfl]
      omega
    next hpos =>
      rw [readNumber_of_isDigit (exists_decimal_append _ rest),
        readUnsigned_decimal false _ hrest (by simp)]
      congr 3
      rw [if_neg Bool.false_ne_true]
      omega
  | real negative significand exponent =>
    obtain ⟨hread, hdigit⟩ := readUnsigned_real negative significand exponent hrest
    cases negative with
    | true => exact hread
    | false => exact (readNumber_of_isDigit hdigit).trans hread

end Json

end GlobalTransaction
