import GlobalTransaction.Json.Value
import GlobalTransaction.Text.Decimal
import GlobalTransaction.Text.Hexadecimal

/-!
# Writing JSON

The compact form of a value: no blanks, members in their given order, and in strings
only the quote, the backslash and the controls below U+0020 escaped.

## Main definitions

* `Json.printChar` — one character inside a string literal
* `Number.print` — a number
* `Json.print` — a whole value
-/

namespace GlobalTransaction

open Text

/-- A character inside a string literal. Everything but the quote, the backslash and the controls
below U+0020 stands for itself. -/
def Json.printChar (c : Char) : List Char :=
  match c with
  | '"' => ['\\', '"']
  | '\\' => ['\\', '\\']
  | '\x08' => ['\\', 'b']
  | '\x0c' => ['\\', 'f']
  | '\n' => ['\\', 'n']
  | '\r' => ['\\', 'r']
  | '\t' => ['\\', 't']
  | c => if c.toNat < 0x20 then ['\\', 'u'] ++ hexadecimal 4 c.toNat else [c]

/-- A string literal. One that spells no text is written as an escape without its other half. -/
def Literal.print : Literal → List Char
  | .text s => '"' :: s.toList.flatMap Json.printChar ++ ['"']
  | .unpaired => ['"', '\\', 'u', 'd', '8', '0', '0', '"']

/-- The digits of a significand with the point before the last `places` of them. -/
def Number.printPlaces (significand places : Nat) : List Char :=
  let ds := paddedDecimal (places + 1) significand
  ds.take (ds.length - places) ++ '.' :: ds.drop (ds.length - places)

/-- A number. One that is not an integer shows a point or an exponent, so that it is not read
back as an integer. -/
def Number.print : Number → List Char
  | .integer i => signedDecimal i
  | .real negative significand exponent =>
    (if negative then ['-'] else []) ++
      if exponent < 0 then printPlaces significand exponent.natAbs
      else decimal significand ++ 'e' :: decimal exponent.natAbs

namespace Json

mutual

/-- The compact text of a value. -/
def print : Json → List Char
  | .null => ['n', 'u', 'l', 'l']
  | .bool true => ['t', 'r', 'u', 'e']
  | .bool false => ['f', 'a', 'l', 's', 'e']
  | .number n => n.print
  | .string s => s.print
  | .array [] => ['[', ']']
  | .array (item :: items) => '[' :: (print item ++ (printItems items ++ [']']))
  | .object [] => ['\x7b', '\x7d']
  | .object ((name, value) :: members) =>
    '\x7b' :: (name.print ++ ':' :: (print value ++ (printMembers members ++ ['\x7d'])))

/-- The further items of an array, each behind a comma. -/
def printItems : List Json → List Char
  | [] => []
  | item :: items => ',' :: (print item ++ printItems items)

/-- The further members of an object, each behind a comma. -/
def printMembers : List (Literal × Json) → List Char
  | [] => []
  | (name, value) :: members =>
    ',' :: (name.print ++ ':' :: (print value ++ printMembers members))

end

/-- The compact text of a value, as a string. -/
def text (j : Json) : String := String.ofList j.print

end Json

end GlobalTransaction
