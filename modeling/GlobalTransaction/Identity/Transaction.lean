import GlobalTransaction.Json.Decoder

/-!
# Identifiers of global and branch transactions

## Main definitions

* `Xid` — the identifier of a global transaction, a text, which is also its routing key
* `BranchId` — the identifier of a branch transaction, an integer of 64 bits
* `Xid.sort`, `BranchId.sort` — lists in ascending order
* `Xid.distinct` — the different identifiers of a list
-/

namespace GlobalTransaction

/-- The identifier of a global transaction. -/
structure Xid where
  text : String
deriving DecidableEq

namespace Xid

/-- The order by code points. -/
instance : LE Xid := ⟨fun a b => a.text ≤ b.text⟩

instance (a b : Xid) : Decidable (a ≤ b) := inferInstanceAs (Decidable (a.text ≤ b.text))

/-- The identifiers in ascending order. -/
def sort (xs : List Xid) : List Xid := xs.mergeSort fun a b => decide (a ≤ b)

/-- The different identifiers of a list. -/
def distinct (xs : List Xid) : List Xid := xs.eraseDups

/-- An identifier as a JSON value. -/
def toJson (x : Xid) : Json := .ofText x.text

/-- The identifier that a JSON value denotes. -/
def asXid : Json.Decoder Xid := fun j => Xid.mk <$> Json.asText j

@[simp] theorem asXid_toJson (x : Xid) : asXid x.toJson = .ok x := rfl

end Xid

/-- The identifier of a branch transaction. -/
structure BranchId where
  value : Int64
deriving DecidableEq

namespace BranchId

instance : LE BranchId := ⟨fun a b => a.value ≤ b.value⟩

instance (a b : BranchId) : Decidable (a ≤ b) := inferInstanceAs (Decidable (a.value ≤ b.value))

/-- The identifiers in ascending order. -/
def sort (xs : List BranchId) : List BranchId := xs.mergeSort fun a b => decide (a ≤ b)

/-- The decimal text of an identifier. -/
def text (b : BranchId) : String := String.ofList (Text.signedDecimal b.value.toInt)

/-- An identifier as a JSON value. -/
def toJson (b : BranchId) : Json := .ofInt b.value.toInt

/-- The identifier that a JSON value denotes. -/
def asBranchId : Json.Decoder BranchId := fun j => BranchId.mk <$> Json.asSigned j

@[simp] theorem asBranchId_toJson (b : BranchId) : asBranchId b.toJson = .ok b := by
  simp [asBranchId, toJson, Functor.map, Except.map]

end BranchId

end GlobalTransaction
