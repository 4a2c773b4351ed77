import GlobalTransaction.Json.Value
import GlobalTransaction.Text.Decimal
import GlobalTransaction.Text.Hexadecimal

/-!
# Reading JSON

The strict grammar: one value, with blanks only between tokens, no other text after
it, no raw controls in strings and no superfluous zeros in numbers.

## Main definitions

* `Json.Piece`, `Json.pieces`, `Json.joinPieces` — a string literal: its characters
  and escapes, and the text they spell
* `Json.readNumber` — a number and the text after it
* `Json.readValue` — a value and the text after it
* `Json.parse` — a whole text
-/

namespace GlobalTransaction.Json

open Text

/-- The blanks between tokens. -/
def isSpace (c : Char) : Bool := c = ' ' || c = '\t' || c = '\n' || c = '\r'

/-- A text without the blanks before its next token. -/
def skipSpace (cs : List Char) : List Char := cs.dropWhile isSpace

/-! ### String literals -/

/-- What one character or escape of a string literal stands for. -/
inductive Piece
  /-- A character. -/
  | char (value : Char)
  /-- Half of a surrogate pair. -/
  | half (code : Nat)
deriving DecidableEq

/-- What an escape by code point stands for. -/
def Piece.ofCode (code : Nat) : Piece :=
  if 0xD800 ≤ code ∧ code ≤ 0xDFFF then .half code else .char (Char.ofNat code)

/-- The character of an escape by letter. -/
def escaped? : Char → Option Char
  | '"' => some '"'
  | '\\' => some '\\'
  | '/' => some '/'
  | 'b' => some '\x08'
  | 'f' => some '\x0c'
  | 'n' => some '\n'
  | 'r' => some '\r'
  | 't' => some '\t'
  | _ => none

/-- The pieces of a string literal behind its opening quote, and the text after it. -/
def pieces : List Char → Option (List Piece × List Char)
  | [] => none
  | '"' :: rest => some ([], rest)
  | '\\' :: 'u' :: a :: b :: c :: d :: rest => do
    let code ← ofHexadecimal? [a, b, c, d]
    let (ps, rest) ← pieces rest
    return (Piece.ofCode code :: ps, rest)
  | '\\' :: letter :: rest => do
    let c ← escaped? letter
    let (ps, rest) ← pieces rest
    return (.char c :: ps, rest)
  | c :: rest =>
    if c.toNat < 0x20 ∨ c = '\\' then none
    else do
      let (ps, rest) ← pieces rest
      return (.char c :: ps, rest)

/-- The text that the pieces of a literal spell, if every half of a pair has its other half. -/
def joinPieces : List Piece → Option (List Char)
  | [] => some []
  | .char c :: ps => (c :: ·) <$> joinPieces ps
  | .half high :: .half low :: ps =>
    if high < 0xDC00 ∧ 0xDC00 ≤ low then
      (Char.ofNat (0x10000 + (high - 0xD800) * 0x400 + (low - 0xDC00)) :: ·) <$> joinPieces ps
    else none
  | .half _ :: _ => none

/-- The content of a string literal behind its opening quote, and the text after it. -/
def readLiteral (cs : List Char) : Option (Literal × List Char) := do
  let (ps, rest) ← pieces cs
  return ((joinPieces ps).elim .unpaired (.text <| String.ofList ·), rest)

/-! ### Numbers -/

/-- The digits behind a point, if there is one. -/
def readFraction : List Char → Option (List Char × List Char)
  | '.' :: rest =>
    let (ds, rest) := spanDigits rest
    if ds.isEmpty then none else some (ds, rest)
  | rest => some ([], rest)

/-- The exponent, if there is one. -/
def readExponent : List Char → Option (Option Int × List Char)
  | c :: rest =>
    if c = 'e' ∨ c = 'E' then
      let (negative, rest) := match rest with
        | '-' :: rest => (true, rest)
        | '+' :: rest => (false, rest)
        | rest => (false, rest)
      let (ds, rest) := spanDigits rest
      if ds.isEmpty then none
      else
        let exponent : Int := ofDecimal ds
        some (some (if negative then -exponent else exponent), rest)
    else some (none, c :: rest)
  | [] => some (none, [])

/-- The digits before the point: one zero, or a run that does not begin with a zero. -/
def readWhole (cs : List Char) : Option (List Char × List Char) :=
  match spanDigits cs with
  | ([], _) => none
  | ('0' :: _ :: _, _) => none
  | (ds, rest) => some (ds, rest)

/-- A number behind its sign, and the text after it. -/
def readUnsigned (negative : Bool) (cs : List Char) : Option (Number × List Char) := do
  let (whole, rest) ← readWhole cs
  let (fraction, rest) ← readFraction rest
  let (exponent, rest) ← readExponent rest
  let significand := ofDecimal (whole ++ fraction)
  if fraction.isEmpty && exponent.isNone && !(negative && significand = 0) then
    return (.integer (if negative then -(significand : Int) else significand), rest)
  else return (.real negative significand (exponent.getD 0 - fraction.length), rest)

/-- A number and the text after it. -/
def readNumber : List Char → Option (Number × List Char)
  | '-' :: rest => readUnsigned true rest
  | rest => readUnsigned false rest

/-! ### Values -/

/-- The text behind a fixed word. -/
def dropWord : (word cs : List Char) → Option (List Char)
  | [], cs => some cs
  | w :: word, c :: cs => if w = c then dropWord word cs else none
  | _ :: _, [] => none

mutual

/-- A value and the text after it; `fuel` bounds the number of values begun inside it. -/
def readValue (fuel : Nat) (cs : List Char) : Option (Json × List Char) :=
  match fuel with
  | 0 => none
  | fuel + 1 =>
    match cs with
    | 'n' :: rest => (.null, ·) <$> dropWord ['u', 'l', 'l'] rest
    | 't' :: rest => (.bool true, ·) <$> dropWord ['r', 'u', 'e'] rest
    | 'f' :: rest => (.bool false, ·) <$> dropWord ['a', 'l', 's', 'e'] rest
    | '"' :: rest => do
      let (s, rest) ← readLiteral rest
      return (.string s, rest)
    | '[' :: rest =>
      match skipSpace rest with
      | ']' :: rest => some (.array [], rest)
      | rest => do
        let (items, rest) ← readItems fuel rest
        return (.array items, rest)
    | '\x7b' :: rest =>
      match skipSpace rest with
      | '\x7d' :: rest => some (.object [], rest)
      | rest => do
        let (members, rest) ← readMembers fuel rest
        return (.object members, rest)
    | rest => do
      let (n, rest) ← readNumber rest
      return (.number n, rest)

/-- The items of an array up to its end, and the text after it. -/
def readItems (fuel : Nat) (cs : List Char) : Option (List Json × List Char) :=
  match fuel with
  | 0 => none
  | fuel + 1 => do
    let (item, rest) ← readValue fuel (skipSpace cs)
    match skipSpace rest with
    | ',' :: rest =>
      let (items, rest) ← readItems fuel rest
      return (item :: items, rest)
    | ']' :: rest => return ([item], rest)
    | _ => none

/-- The members of an object up to its end, and the text after it. -/
def readMembers (fuel : Nat) (cs : List Char) : Option (List (Literal × Json) × List Char) :=
  match fuel with
  | 0 => none
  | fuel + 1 =>
    match skipSpace cs with
    | '"' :: rest => do
      let (name, rest) ← readLiteral rest
      match skipSpace rest with
      | ':' :: rest =>
        let (value, rest) ← readValue fuel (skipSpace rest)
        match skipSpace rest with
        | ',' :: rest =>
          let (members, rest) ← readMembers fuel rest
          return ((name, value) :: members, rest)
        | '\x7d' :: rest => return ([(name, value)], rest)
        | _ => none
      | _ => none
    | _ => none

end

/-- The value that a text denotes. Every value begun takes a character of its own, so the length
of the text is bound enough. -/
def parseChars (cs : List Char) : Option Json := do
  let (j, rest) ← readValue (2 * cs.length + 1) (skipSpace cs)
  match skipSpace rest with
  | [] => return j
  | _ => none

/-- The value that a text denotes, if it is one. -/
def parse (s : String) : Option Json := parseChars s.toList

end GlobalTransaction.Json
