import GlobalTransaction.Json.Decoder
import GlobalTransaction.Text.Blank

/-!
# Identifiers of state machine instances

An instance is identified by a 128-bit UUID. Its written form is the lower-case
hyphenated one; four spellings are read, in any letter case.

## Main definitions

* `InstanceId` — sixteen bytes
* `InstanceId.text` — the written form
* `InstanceId.ofSpelling?` — the identifier that a spelling denotes
* `InstanceId.ofText?` — the same after removing the blanks around it
* `InstanceId.ofEntropy` — a random identifier from random bytes
-/

namespace GlobalTransaction

open Text

/-- The identifier of one run of a state machine. -/
structure InstanceId where
  /-- The sixteen bytes, the most significant first. -/
  bytes : Vector UInt8 16
deriving DecidableEq

namespace InstanceId

/-- The identifier with these bytes, if there are sixteen. -/
def ofBytes? (bytes : List UInt8) : Option InstanceId :=
  if h : bytes.length = 16 then some ⟨⟨bytes.toArray, by simpa using h⟩⟩ else none

/-! ### Writing -/

/-- The two digits of a byte. -/
def byteDigits (b : UInt8) : List Char := hexadecimal 2 b.toNat

/-- The lengths of the groups of digits. -/
def groupLengths : List Nat := [8, 4, 4, 4, 12]

/-- Cuts a list into groups of the given lengths, and puts the separator between them. -/
def joinGroups (separator : Char) : List Nat → List Char → List Char
  | [], cs => cs
  | [_], cs => cs
  | n :: ns, cs => cs.take n ++ separator :: joinGroups separator ns (cs.drop n)

/-- The thirty-two digits of an identifier. -/
def digits (id : InstanceId) : List Char := id.bytes.toList.flatMap byteDigits

/-- The written form of an identifier, as characters. -/
def print (id : InstanceId) : List Char := joinGroups '-' groupLengths id.digits

/-- The written form of an identifier. -/
def text (id : InstanceId) : String := String.ofList id.print

/-! ### Reading -/

/-- The bytes that pairs of digits denote. -/
def bytesOfDigits? : List Char → Option (List UInt8)
  | [] => some []
  | high :: low :: rest => do
    let value ← ofHexadecimal? [high, low]
    let bytes ← bytesOfDigits? rest
    return UInt8.ofNat value :: bytes
  | [_] => none

/-- The identifier of thirty-two digits. -/
def ofDigits? (cs : List Char) : Option InstanceId := do
  ofBytes? (← bytesOfDigits? cs)

/-- The digits of a hyphenated spelling, if it has its hyphens in their places and no others. -/
def dropHyphens? : List Nat → List Char → Option (List Char)
  | [], _ => none
  | [n], cs => if cs.length = n then some cs else none
  | n :: ns, cs =>
    match cs.drop n with
    | '-' :: rest => (cs.take n ++ ·) <$> dropHyphens? ns rest
    | _ => none

/-- The identifier of a hyphenated spelling. -/
def ofHyphenated? (cs : List Char) : Option InstanceId := do
  ofDigits? (← dropHyphens? groupLengths cs)

/-- The name space that may stand before a hyphenated spelling. -/
def urnScheme : List Char := ['u', 'r', 'n', ':', 'u', 'u', 'i', 'd', ':']

/-- The identifier that a spelling denotes: thirty-two digits, or a hyphenated spelling alone, in
braces, or behind the name space. Letters may have either case. -/
def ofSpelling? (cs : List Char) : Option InstanceId :=
  if cs.length = 32 then ofDigits? cs
  else if cs.length = 36 then ofHyphenated? cs
  else if cs.length = 38 ∧ cs.head? = some '\x7b' ∧ cs.getLast? = some '\x7d' then
    ofHyphenated? (cs.drop 1).dropLast
  else if cs.length = 45 ∧ (cs.take 9).map Char.toLower = urnScheme then
    ofHyphenated? (cs.drop 9)
  else none

/-- The identifier that a text denotes, blanks around it aside. -/
def ofText? (s : String) : Option InstanceId := ofSpelling? (trim s.toList)

/-! ### Random identifiers -/

/-- The identifier made from random bytes: the version is 4 and the variant is the standard one. -/
def ofEntropy (bytes : Vector UInt8 16) : InstanceId :=
  ⟨(bytes.set 6 (bytes[6] &&& 0x0F ||| 0x40)).set 8 (bytes[8] &&& 0x3F ||| 0x80)⟩

/-- The version of an identifier. -/
def version (id : InstanceId) : Nat := (id.bytes[6] >>> 4).toNat

/-! ### Identifiers in a JSON text -/

/-- An identifier as a JSON value. -/
def toJson (id : InstanceId) : Json := .ofText id.text

/-- The identifier that a JSON value denotes, without blanks around it. -/
def asInstanceId : Json.Decoder InstanceId := fun j => do
  match ofSpelling? (← Json.asText j).toList with
  | some id => return id
  | none => throw (.wrongValue j "a UUID string")

end InstanceId

end GlobalTransaction
