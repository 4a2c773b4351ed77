import GlobalTransaction.Json.Printer
import GlobalTransaction.Text.Quoted

/-!
# Decoding JSON values

Typed readings of a value, and what a reading reports about a value that does not
fit.

A record is read from an object, whose unknown members are skipped, or from an array
with exactly its fields in their order. The fields are looked at in the order in
which they are written; a missing one is noticed only after all others were read.

## Main definitions

* `Mismatch` and `Mismatch.message` — the causes of failure and their wording
* `Json.asText`, `Json.asBool`, `Json.asUnsigned`, `Json.asSigned`, `Json.asOptional`,
  `Json.asList`, `Json.asVariant` — readings of plain values
* `Json.Field`, `Json.asRecord`, `Json.Record` — readings of records

## Main results

* `Json.asOptional_ofText?`, `Json.asSigned_ofInt` — what was encoded is read back
-/

namespace GlobalTransaction

open Text

/-- The decimal text of a number in a report. -/
def Number.describe (n : Number) : String := String.ofList n.print

/-- The kind of a value, with its content where that is short. -/
def Json.describe : Json → String
  | .null => "null"
  | .bool true => "boolean `true`"
  | .bool false => "boolean `false`"
  | .number (.integer i) => "integer `" ++ (Number.integer i).describe ++ "`"
  | .number n => "floating point `" ++ n.describe ++ "`"
  | .string (.text s) => "string " ++ quoted s
  | .string .unpaired => "string"
  | .array _ => "sequence"
  | .object _ => "map"

/-- Why a value does not fit a type. -/
inductive Mismatch
  /-- The value is of another kind. -/
  | wrongType (found : Json) (expected : String)
  /-- The kind fits, the value does not. -/
  | wrongValue (found : Json) (expected : String)
  /-- The name is none of an enumeration's names. -/
  | unknownVariant (name : String) (known : List String)
  /-- A record lacks a field that it needs. -/
  | missingField (name : String)
  /-- A record has a field twice. -/
  | repeatedField (name : String)
  /-- An array has another number of elements. -/
  | wrongLength (found : Nat) (expected : String)

/-- The wording of a mismatch. -/
def Mismatch.message : Mismatch → String
  | .wrongType found expected => "invalid type: " ++ found.describe ++ ", expected " ++ expected
  | .wrongValue found expected => "invalid value: " ++ found.describe ++ ", expected " ++ expected
  | .unknownVariant name known =>
    "unknown variant `" ++ name ++ "`, expected one of " ++
      ", ".intercalate (known.map fun k => "`" ++ k ++ "`")
  | .missingField name => "missing field `" ++ name ++ "`"
  | .repeatedField name => "duplicate field `" ++ name ++ "`"
  | .wrongLength found expected =>
    "invalid length " ++ String.ofList (decimal found) ++ ", expected " ++ expected

namespace Json

/-- A typed reading of values. -/
abbrev Decoder (α : Type) := Json → Except Mismatch α

/-! ### Plain values -/

/-- A text. -/
def asText : Decoder String
  | .string (.text s) => .ok s
  | j => .error (.wrongType j "a string")

/-- A truth value. -/
def asBool : Decoder Bool
  | .bool b => .ok b
  | j => .error (.wrongType j "a boolean")

/-- A natural number of so many binary digits at most. -/
def asUnsigned (bits : Nat) : Decoder Nat
  | .number (.integer i) =>
    if 0 ≤ i ∧ i.toNat < Nat.pow 2 bits then .ok i.toNat
    else .error (.wrongValue (ofInt i) ("u" ++ String.ofList (decimal bits)))
  | j => .error (.wrongType j ("u" ++ String.ofList (decimal bits)))

/-- An integer of 64 bits. -/
def asSigned : Decoder Int64
  | .number (.integer i) =>
    if Int64.minValue.toInt ≤ i ∧ i ≤ Int64.maxValue.toInt then .ok (Int64.ofInt i)
    else .error (.wrongValue (ofInt i) "i64")
  | j => .error (.wrongType j "i64")

/-- An optional value, absence being `null`. -/
def asOptional {α : Type} (decode : Decoder α) : Decoder (Option α)
  | .null => .ok none
  | j => some <$> decode j

/-- A list of values. -/
def asList {α : Type} (decode : Decoder α) : Decoder (List α)
  | .array items => items.mapM decode
  | j => .error (.wrongType j "a sequence")

/-- One of an enumeration's values by its name: a string, or an object with the name as its only
key and a payload that carries nothing. -/
def asVariantWith {α : Type} (carriesNothing : Json → Bool) (variants : List (String × α)) :
    Decoder α
  | .string (.text s) => byName s
  | .object [(.text s, payload)] => do
    let a ← byName s
    if carriesNothing payload then return a else throw (.wrongType payload "unit")
  | .object members => .error (.wrongValue (.object members) "map with a single key")
  | j => .error (.wrongType j "string or map")
where
  byName (s : String) : Except Mismatch α :=
    match variants.lookup s with
    | some a => .ok a
    | none => .error (.unknownVariant s (variants.map Prod.fst))

/-- Whether a value is `null`. -/
def isNull : Json → Bool
  | .null => true
  | _ => false

/-- Whether a value is `null` or an object without members. -/
def isVoid : Json → Bool
  | .null => true
  | .object [] => true
  | _ => false

/-- One of an enumeration's values by its name, the payload of the object form being `null`. -/
def asVariant {α : Type} (variants : List (String × α)) : Decoder α :=
  asVariantWith isNull variants

/-! ### Records -/

/-- A field of a record: its name, and the reading that its value has to pass. -/
structure Field where
  /-- The name of the member. -/
  name : String
  /-- The reading, without its result. -/
  check : Decoder Unit

/-- A field with values of one type. -/
def field {α : Type} (name : String) (decode : Decoder α) : Field :=
  ⟨name, fun j => discard (decode j)⟩

/-- The values of a record's fields that are present. -/
abbrev Record := List (String × Json)

namespace Record

/-- The value of a field that has to be present. -/
def required {α : Type} (r : Record) (name : String) (decode : Decoder α) : Except Mismatch α :=
  match r.lookup name with
  | some j => decode j
  | none => .error (.missingField name)

/-- The value of a field that may be missing or `null`. -/
def optional {α : Type} (r : Record) (name : String) (decode : Decoder α) :
    Except Mismatch (Option α) :=
  match r.lookup name with
  | some j => asOptional decode j
  | none => .ok none

end Record

/-- The known members of an object, in their order: each passes its check, and none comes twice. -/
def knownMembers (fields : List Field) (members : List (Literal × Json)) :
    Except Mismatch Record :=
  go [] members
where
  /-- Goes on behind the fields that were seen. -/
  go (seen : Record) : List (Literal × Json) → Except Mismatch Record
    | [] => .ok seen.reverse
    | (.unpaired, _) :: _ => .error (.wrongType (.string .unpaired) "a string")
    | (.text name, value) :: members =>
      match fields.find? (·.name == name) with
      | none => go seen members
      | some f =>
        if (seen.lookup name).isSome then .error (.repeatedField name)
        else do
          f.check value
          go ((name, value) :: seen) members

/-- The items of an array as the fields of a record: one for each, in the order of the fields. -/
def positionalFields (shape : String) (fields : List Field) (items : List Json) :
    Except Mismatch Record := do
  let r ← (fields.zip items).mapM fun (f, item) => do
    f.check item
    return (f.name, item)
  if items.length < fields.length then
    throw (.wrongLength items.length
      (shape ++ " with " ++ String.ofList (decimal fields.length) ++ " elements"))
  if fields.length < items.length then
    throw (.wrongLength items.length "fewer elements in array")
  return r

/-- The fields of a record, from an object or from an array. -/
def asRecord (shape : String) (fields : List Field) : Decoder Record
  | .object members => knownMembers fields members
  | .array items => positionalFields shape fields items
  | j => .error (.wrongType j shape)

/-! ### Reading back what was encoded -/

@[simp] theorem asText_ofText (s : String) : asText (ofText s) = .ok s := rfl

@[simp] theorem asBool_bool (b : Bool) : asBool (.bool b) = .ok b := rfl

@[simp] theorem asSigned_ofInt (n : Int64) : asSigned (ofInt n.toInt) = .ok n := by
  have hlow := n.le_toInt
  have hhigh := n.toInt_lt
  have hbounds : Int64.minValue.toInt ≤ n.toInt ∧ n.toInt ≤ Int64.maxValue.toInt := by
    constructor
    · exact hlow
    · exact Int.le_of_lt_add_one hhigh
  rw [ofInt, asSigned, if_pos hbounds, Int64.ofInt_toInt]

@[simp] theorem asOptional_ofText? (s : Option String) :
    asOptional asText (ofText? s) = .ok s := by
  cases s <;> rfl

end Json

end GlobalTransaction
