import GlobalTransaction.Resource.Keeper

/-!
# Connections

Resources that are told apart by a number. A pooled connection belongs to one of the
keepers, and its description tells how much that keeper has in use.

## Main definitions

* `Resource.Connection` — a plain or pooled connection
* `Connection.describe` — its description, which depends on the state of the depot
-/

namespace GlobalTransaction.Resource

variable {n : Nat}

/-- A connection. -/
structure Connection (n : Nat) where
  id : Int
  /-- The keeper to which a pooled connection belongs. -/
  pool : Option (Fin n)
deriving DecidableEq

/-- The description of a connection: its flag, or for a pooled one the number of resources that its
keeper keeps. -/
def Connection.describe (d : Depot (Connection n) n) (c : Connection n) : String :=
  let number := String.ofList (Text.signedDecimal c.id)
  match c.pool with
  | none =>
    "Conn \x7b id: " ++ number ++ ", held: HeldFlag("
      ++ (if d.isHeld c then "true" else "false") ++ ") \x7d"
  | some k =>
    "Pooled \x7b id: " ++ number ++ ", in_use: Some("
      ++ String.ofList (Text.decimal (d.keeper k).size) ++ ") \x7d"

end GlobalTransaction.Resource
