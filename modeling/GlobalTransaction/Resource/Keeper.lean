import GlobalTransaction.Branch.Mode
import GlobalTransaction.Resource.StatusCache
import GlobalTransaction.Table
import GlobalTransaction.Text.Quoted

/-!
# Keepers of resources

A keeper remembers, for one resource manager, which resource is kept for which branch.
A key keeps one resource at most. Every resource has a flag that says that it is held
by somebody; keepers set it and clear it, and read it before they take a resource.

A request that contradicts what is kept is refused, and changes nothing.

Several keepers work on one stock of resources and share one cache of branch statuses.

## Main definitions

* `Resource.Info` — the resource manager that a keeper works for
* `Resource.Keeper` — what is kept for which key
* `Resource.Inconsistency` — the report about a contradiction
* `Resource.Depot` — keepers, the flags of the resources, and the shared cache
* `Depot.hold`, `Depot.release`, `Depot.lookup` — requests to a keeper
* `Depot.Command`, `Depot.step` — runs over everything that a depot can be asked for

## Main results

* `Keeper.lookup_insert`, `Keeper.lookup_erase` — the keys of a keeper are independent
* `Depot.isHeld_setHeld` — so are the flags of resources
-/

namespace GlobalTransaction.Resource

/-- The resource manager that a keeper works for. -/
structure Info where
  resourceId : String
  groupId : Option String
  mode : Branch.Mode
  dbType : Option String
deriving DecidableEq

namespace Info

/-- The information about an unnamed resource manager. -/
def blank : Info := ⟨"", none, .automatic, none⟩

instance : Inhabited Info := ⟨blank⟩

/-- An optional text with its quotes. -/
def optionText : Option String → String
  | none => "None"
  | some s => "Some(" ++ Text.quoted s ++ ")"

/-- The fields with their names. -/
def text (info : Info) : String :=
  "ResourceInfo \x7b resource_id: " ++ Text.quoted info.resourceId
    ++ ", resource_group_id: " ++ optionText info.groupId
    ++ ", branch_type: " ++ info.mode.text
    ++ ", db_type: " ++ optionText info.dbType ++ " \x7d"

end Info

/-! ### One keeper -/

variable {R : Type}

/-- What is kept for one resource manager. -/
structure Keeper (R : Type) where
  info : Info
  /-- Resources have to stay held from phase one to phase two. -/
  shouldBeHeld : Bool
  /-- The resource of each key. -/
  kept : Table String R

namespace Keeper

/-- The keeper that keeps nothing. -/
def empty (info : Info) : Keeper R := ⟨info, false, []⟩

/-- The resource of a key. -/
def lookup (keeper : Keeper R) (key : String) : Option R := keeper.kept.lookup key

/-- The number of resources that are kept. -/
def size (keeper : Keeper R) : Nat := keeper.kept.length

/-- Nothing is kept. -/
def isEmpty (keeper : Keeper R) : Bool := keeper.kept.isEmpty

/-- The keys with a resource, in ascending order. -/
def keys (keeper : Keeper R) : List String :=
  keeper.kept.keys.mergeSort fun a b => decide (a ≤ b)

/-- The keeper with a resource for a key that has none. -/
def insert (keeper : Keeper R) (key : String) (resource : R) : Keeper R :=
  { keeper with kept := (key, resource) :: keeper.kept }

/-- The keeper without the resource of a key. -/
def erase (keeper : Keeper R) (key : String) : Keeper R :=
  { keeper with kept := keeper.kept.erase key }

/-- The information and the number of resources. -/
def text (keeper : Keeper R) : String :=
  "ResourceKeeper \x7b resource: " ++ keeper.info.text
    ++ ", should_be_held: " ++ (if keeper.shouldBeHeld then "true" else "false")
    ++ ", held: " ++ String.ofList (Text.decimal keeper.size) ++ " \x7d"

@[simp] theorem lookup_insert (keeper : Keeper R) (key : String) (resource : R) (other : String) :
    (keeper.insert key resource).lookup other =
      if other = key then some resource else keeper.lookup other :=
  Table.lookup_cons_eq key resource keeper.kept other

@[simp] theorem lookup_erase (keeper : Keeper R) (key other : String) :
    (keeper.erase key).lookup other = if other = key then none else keeper.lookup other :=
  Table.lookup_erase keeper.kept key other

end Keeper

/-! ### Contradictions -/

/-- The requests that can contradict what is kept. -/
inductive Operation
  | hold
  | release
deriving DecidableEq

/-- The name of a request. -/
def Operation.text : Operation → String
  | .hold => "hold"
  | .release => "release"

/-- The report about a request that contradicts what is kept. -/
structure Inconsistency where
  operation : Operation
  key : String
  /-- The description of the resource that is kept for the key, or `"none"`. -/
  kept : String
  /-- The description of the resource of the request. -/
  offered : String
deriving DecidableEq

namespace Inconsistency

/-- The wording of the report. -/
def message (e : Inconsistency) : String :=
  "something wrong with keeper on " ++ e.operation.text ++ ": keeping [" ++ e.kept ++ "] but ["
    ++ e.offered ++ "] was offered with key [" ++ e.key ++ "]"

/-- A contradiction is a fault of the callers, which no retry mends. -/
def isFatal (_ : Inconsistency) : Bool := true

end Inconsistency

/-! ### Keepers that share a stock -/

variable {n : Nat}

/-- Keepers, numbered from zero, with the resources and the cache that they share. -/
structure Depot (R : Type) (n : Nat) where
  keepers : Vector (Keeper R) n
  /-- The resources whose flag is set. -/
  held : List R
  /-- The cache of branch statuses and the time. -/
  statuses : StatusCache.Clocked

namespace Depot

/-- Keepers that keep nothing, over resources of which none is held. -/
def empty (infos : Vector Info n) (cache : StatusCache) : Depot R n where
  keepers := infos.map Keeper.empty
  held := []
  statuses := ⟨cache, 0⟩

/-- The keeper of a number. -/
def keeper (d : Depot R n) (k : Fin n) : Keeper R := d.keepers[k]

/-- The depot with a changed keeper. -/
def withKeeper (d : Depot R n) (k : Fin n) (keeper : Keeper R) : Depot R n :=
  { d with keepers := d.keepers.set k keeper }

/-- The resource that a keeper keeps for a key. -/
def lookup (d : Depot R n) (k : Fin n) (key : String) : Option R :=
  (d.keeper k).lookup key

variable [DecidableEq R]

/-- The flag of a resource is set. -/
def isHeld (d : Depot R n) (resource : R) : Bool := decide (resource ∈ d.held)

/-- The depot with the flag of a resource set or cleared. -/
def setHeld (d : Depot R n) (resource : R) (held : Bool) : Depot R n :=
  let others := d.held.filter fun r => decide (r ≠ resource)
  { d with held := if held then resource :: others else others }

/-- The refusal of a request, with the descriptions of the resources as they are. -/
def refuse {α : Type} (describe : Depot R n → R → String) (d : Depot R n) (operation : Operation)
    (key : String) (kept : Option R) (offered : R) :
    Outcome (Depot R n) (Except Inconsistency α) where
  state := d
  answer := .error {
    operation
    key
    kept := (kept.map (describe d)).getD "none"
    offered := describe d offered }
  journal := [.counted .keeperFatal, .logged .keeperInconsistent]

/-- A keeper is to keep a resource for a key. If it does so already, the flag is set again and the
resource is the answer. Otherwise the key must be free and the resource held by nobody. -/
def hold (describe : Depot R n → R → String) (d : Depot R n) (k : Fin n) (key : String)
    (resource : R) : Outcome (Depot R n) (Except Inconsistency (Option R)) :=
  match d.lookup k key with
  | some kept =>
    -- a repeated request sets the flag once more, whatever it has become meanwhile
    if kept = resource then { state := d.setHeld resource true, answer := .ok (some resource) }
    else d.refuse describe .hold key (some kept) resource
  | none =>
    -- the key is free, but the resource may be kept under another one
    if d.isHeld resource then d.refuse describe .hold key none resource
    else
      { state := (d.withKeeper k ((d.keeper k).insert key resource)).setHeld resource true
        answer := .ok none
        journal := [.counted .hold, .logged .resourceHeld] }

/-- A keeper is to give back the resource that it keeps for a key. -/
def release (describe : Depot R n → R → String) (d : Depot R n) (k : Fin n) (key : String)
    (resource : R) : Outcome (Depot R n) (Except Inconsistency R) :=
  match d.lookup k key with
  | some kept =>
    if kept = resource then
      { state := (d.withKeeper k ((d.keeper k).erase key)).setHeld resource false
        answer := .ok kept
        journal := [.counted .release, .logged .resourceReleased] }
    else d.refuse describe .release key (some kept) resource
  | none => d.refuse describe .release key none resource

/-- The flag of one resource says nothing about another. -/
@[simp] theorem isHeld_setHeld (d : Depot R n) (resource : R) (held : Bool) (other : R) :
    (d.setHeld resource held).isHeld other = if other = resource then held else d.isHeld other := by
  by_cases h : other = resource <;> cases held <;> simp [isHeld, setHeld, h]

@[simp] theorem lookup_setHeld (d : Depot R n) (resource : R) (held : Bool) (k : Fin n)
    (key : String) : (d.setHeld resource held).lookup k key = d.lookup k key := rfl

/-! ### Runs -/

/-- What a depot can be asked for. -/
inductive Command (R : Type) (n : Nat)
  | hold (k : Fin n) (key : String) (resource : R)
  | release (k : Fin n) (key : String) (resource : R)
  | lookup (k : Fin n) (key : String)
  /-- The flag of a resource is set or cleared without a keeper. -/
  | setHeld (resource : R) (held : Bool)
  | setShouldBeHeld (k : Fin n) (shouldBeHeld : Bool)
  | setStatus (k : Fin n) (id : String) (status : Branch.Status)
  | getStatus (k : Fin n) (id : String)
  | clearStatus (k : Fin n) (id : String)
  /-- The shared cache is used without a keeper. -/
  | cache (command : StatusCache.Command)

/-- The answers to commands. -/
inductive Answer (R : Type)
  | done
  | held (result : Except Inconsistency (Option R))
  | released (result : Except Inconsistency R)
  | found (resource : Option R)
  | required (shouldBeHeld : Bool)
  | cached (answer : StatusCache.Answer)

/-- The effect of a command on the shared cache. -/
def onCache (d : Depot R n) (command : StatusCache.Command) : Outcome (Depot R n) (Answer R) :=
  let o := d.statuses.step command
  { state := { d with statuses := o.state }, answer := .cached o.answer, journal := o.journal }

/-- The effect of one command. Every keeper hands questions about statuses on to the shared cache;
a status is not cleared for a blank identifier. -/
def step (describe : Depot R n → R → String) (d : Depot R n) :
    Command R n → Outcome (Depot R n) (Answer R)
  | .hold k key resource => (d.hold describe k key resource).map .held
  | .release k key resource => (d.release describe k key resource).map .released
  | .lookup k key => { state := d, answer := .found (d.lookup k key) }
  | .setHeld resource held => { state := d.setHeld resource held, answer := .done }
  | .setShouldBeHeld k shouldBeHeld =>
    { state := d.withKeeper k { d.keeper k with shouldBeHeld }
      answer := .required shouldBeHeld }
  | .setStatus _ id status => d.onCache (.put id status)
  | .getStatus _ id => d.onCache (.get id)
  | .clearStatus _ id =>
    if Text.isAllBlank id.toList then { state := d, answer := .done }
    else d.onCache (.invalidate id)
  | .cache command => d.onCache command

/-- The effect of commands that follow each other. -/
abbrev run (describe : Depot R n → R → String) :
    Depot R n → List (Command R n) → Outcome (Depot R n) (List (Answer R)) :=
  Outcome.run (step describe)

end Depot

end GlobalTransaction.Resource
