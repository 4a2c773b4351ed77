import GlobalTransaction.Table
import GlobalTransaction.Text.Decimal

/-!
# Rings of positions

Nodes are spread over a circle of 32-bit positions. Each node takes several of them:
the hashes of its identity followed by the number of the replica. A key belongs to
the node at the first position at or after its own hash, and past the last position
to the node at the first.

Where two replicas meet at one position, it belongs to the one that came last.

## Main definitions

* `Routing.Error` — there may be no node at all
* `Routing.Ring` — the occupied positions in ascending order, at least one
* `Ring.ofNodes` — the ring over a list of nodes
* `Ring.select` — the node of a key
* `Ring.nodeAt?` — the node at a position

## Main results

* `Routing.lookup_place` — what a further position changes
* `Ring.size_pos` — a ring is never without positions
-/

namespace GlobalTransaction.Routing

/-- Why there is no node for a key. -/
inductive Error
  | noAvailableNode
deriving DecidableEq

/-- The wording of the failure. -/
def Error.message : Error → String
  | .noAvailableNode => "No available node to route to"

variable {α β : Type}

/-! ### Tables of positions -/

/-- A table of ascending positions with one more position. If it was taken already, it goes over to
the new node. -/
def place (position : UInt32) (node : α) : List (UInt32 × α) → List (UInt32 × α)
  | [] => [(position, node)]
  | (p, n) :: rest =>
    if position < p then (position, node) :: (p, n) :: rest
    else if position = p then (position, node) :: rest
    else (p, n) :: place position node rest

/-- The table after all of some placements, in their order. -/
def placeAll (placements : List (UInt32 × α)) : List (UInt32 × α) :=
  placements.foldl (fun table p => place p.1 p.2 table) []

/-- Positions go up, without repetition. -/
abbrev Ascending (table : List (UInt32 × α)) : Prop := table.Pairwise fun a b => a.1 < b.1

theorem place_ne_nil (position : UInt32) (node : α) (table : List (UInt32 × α)) :
    place position node table ≠ [] := by
  cases table with
  | nil => simp [place]
  | cons head rest =>
    simp only [place]
    split
    · simp
    · split <;> simp

/-- The positions of a table with one more are the new one and those before. -/
theorem exists_mem_place {position : UInt32} {node : α} {table : List (UInt32 × α)} {q : UInt32} :
    (∃ n, (q, n) ∈ place position node table) ↔ q = position ∨ ∃ n, (q, n) ∈ table := by
  induction table with
  | nil => simp [place]
  | cons head rest ih =>
    obtain ⟨p, n⟩ := head
    simp only [place]
    split
    · simp [exists_or]
    · split
      · rename_i h
        subst h
        simp [exists_or]
      · simp only [List.mem_cons, Prod.mk.injEq, exists_or, ih]
        exact or_left_comm

theorem ascending_place {position : UInt32} (node : α) {table : List (UInt32 × α)}
    (h : Ascending table) : Ascending (place position node table) := by
  induction table with
  | nil => simp [place]
  | cons head rest ih =>
    obtain ⟨p, n⟩ := head
    obtain ⟨hhead, hrest⟩ := List.pairwise_cons.1 h
    simp only [place]
    split
    · rename_i hlt
      refine List.pairwise_cons.2 ⟨?_, h⟩
      intro x hx
      rcases List.mem_cons.1 hx with rfl | hx
      · exact hlt
      · exact UInt32.lt_trans hlt (hhead x hx)
    · split
      · rename_i heq
        subst heq
        exact List.pairwise_cons.2 ⟨hhead, hrest⟩
      · rename_i hnlt hne
        refine List.pairwise_cons.2 ⟨?_, ih hrest⟩
        rintro ⟨q, m⟩ hx
        rcases exists_mem_place.1 ⟨m, hx⟩ with rfl | ⟨m', hx⟩
        · exact UInt32.lt_of_le_of_ne (UInt32.not_lt.1 hnlt) (Ne.symm hne)
        · exact hhead (q, m') hx

/-- One more position changes what is found there, and nowhere else. -/
theorem lookup_place (position : UInt32) (node : α) (table : List (UInt32 × α)) (q : UInt32) :
    (place position node table).lookup q = if q = position then some node else table.lookup q := by
  induction table with
  | nil => simp [place, Table.lookup_cons_eq]
  | cons head rest ih =>
    obtain ⟨p, n⟩ := head
    simp only [place]
    split
    · rw [Table.lookup_cons_eq]
    · split
      · rename_i heq
        subst heq
        simp only [Table.lookup_cons_eq]
        split <;> rfl
      · rename_i hne
        simp only [Table.lookup_cons_eq, ih]
        by_cases hp : q = p
        · subst hp
          simp [Ne.symm hne]
        · simp [hp]

theorem placeAll_append_singleton (placements : List (UInt32 × α)) (p : UInt32 × α) :
    placeAll (placements ++ [p]) = place p.1 p.2 (placeAll placements) := by
  simp [placeAll]

theorem foldl_place_ne_nil (placements : List (UInt32 × α)) {table : List (UInt32 × α)}
    (h : table ≠ []) : placements.foldl (fun t p => place p.1 p.2 t) table ≠ [] := by
  induction placements generalizing table with
  | nil => exact h
  | cons p rest ih => exact ih (place_ne_nil p.1 p.2 table)

theorem placeAll_ne_nil {placements : List (UInt32 × α)} (h : placements ≠ []) :
    placeAll placements ≠ [] := by
  cases placements with
  | nil => exact absurd rfl h
  | cons p rest => exact foldl_place_ne_nil rest (place_ne_nil p.1 p.2 [])

theorem foldl_place_ascending (placements : List (UInt32 × α)) {table : List (UInt32 × α)}
    (h : Ascending table) : Ascending (placements.foldl (fun t p => place p.1 p.2 t) table) := by
  induction placements generalizing table with
  | nil => exact h
  | cons p rest ih => exact ih (ascending_place p.2 h)

theorem ascending_placeAll (placements : List (UInt32 × α)) : Ascending (placeAll placements) :=
  foldl_place_ascending placements List.Pairwise.nil

/-! ### Rings -/

/-- The text whose hash is the position of a replica. -/
def replicaName (identity : String) (replica : Nat) : String :=
  identity ++ String.ofList (Text.decimal replica)

/-- The placements of all replicas of all nodes, in their order. A node has one replica at least. -/
def placements (hash : String → UInt32) (identity : α → String) (virtualNodes : Nat)
    (nodes : List α) : List (UInt32 × α) :=
  nodes.flatMap fun node =>
    (List.range (max virtualNodes 1)).map fun replica =>
      (hash (replicaName (identity node) replica), node)

theorem placements_ne_nil (hash : String → UInt32) (identity : α → String) (virtualNodes : Nat)
    {nodes : List α} (h : nodes ≠ []) : placements hash identity virtualNodes nodes ≠ [] := by
  cases nodes with
  | nil => exact absurd rfl h
  | cons node rest =>
    have : List.range (max virtualNodes 1) ≠ [] := by
      rw [Ne, List.range_eq_nil]
      omega
    simp [placements, this]

/-- Nodes on a circle of positions. -/
structure Ring (α : Type) where
  /-- The hash that placed the nodes; keys are hashed alike. -/
  hash : String → UInt32
  /-- The occupied positions with their nodes. -/
  positions : List (UInt32 × α)
  ascending : Ascending positions
  positions_ne_nil : positions ≠ []

namespace Ring

/-- The ring over a list of nodes, which must not be empty. -/
def ofNodes (hash : String → UInt32) (identity : α → String) (virtualNodes : Nat)
    (nodes : List α) : Except Error (Ring α) :=
  if h : nodes = [] then .error .noAvailableNode
  else
    .ok {
      hash
      positions := placeAll (placements hash identity virtualNodes nodes)
      ascending := ascending_placeAll _
      positions_ne_nil := placeAll_ne_nil (placements_ne_nil hash identity virtualNodes h) }

/-- The number of occupied positions. -/
def size (ring : Ring α) : Nat := ring.positions.length

/-- No position is occupied. -/
def isEmpty (ring : Ring α) : Bool := ring.positions.isEmpty

/-- The node at a position. -/
def nodeAt? (ring : Ring α) (position : UInt32) : Option α := ring.positions.lookup position

/-- The node at the lowest position. -/
def first (ring : Ring α) : α := (ring.positions.head ring.positions_ne_nil).2

/-- The node of a key: the one at the first position at or after the hash of the key, or at the
lowest position when there is none. -/
def select (ring : Ring α) (key : String) : α :=
  match ring.positions.find? fun p => ring.hash key ≤ p.1 with
  | some p => p.2
  -- behind the last position the circle begins again
  | none => ring.first

/-- A key belongs to nodes of different identities on two rings. -/
def moves (identity : α → String) (before after : Ring α) (key : String) : Bool :=
  identity (before.select key) != identity (after.select key)

theorem size_pos (ring : Ring α) : 0 < ring.size :=
  List.length_pos_iff.2 ring.positions_ne_nil

/-- There is a ring as soon as there is a node. -/
theorem ofNodes_eq_error_iff {hash : String → UInt32} {identity : α → String} {virtualNodes : Nat}
    {nodes : List α} {e : Error} :
    ofNodes hash identity virtualNodes nodes = .error e ↔ nodes = [] := by
  cases e
  by_cases h : nodes = [] <;> simp [ofNodes, h]

end Ring

end GlobalTransaction.Routing
