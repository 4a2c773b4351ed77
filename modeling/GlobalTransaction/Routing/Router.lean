import GlobalTransaction.Journal
import GlobalTransaction.Routing.Digest
import GlobalTransaction.Routing.Ring
import GlobalTransaction.Setting

/-!
# Routers

A router finds the coordinator for a transaction in whatever list of nodes it is given.
The same list gives the same node for the same transaction.

## Main definitions

* `Routing.Config` — the number of positions of each node, also from the environment
* `Routing.Router` — a hash and a number of positions
* `Router.ring`, `Router.select` — the ring over a list of nodes, and the node of a key
* `Router.selectEach` — the nodes of several keys, over one ring

## Main results

* `Router.selectEach_eq_map` — asking for several keys at once is asking for each of them
-/

namespace GlobalTransaction.Routing

/-- How nodes are spread. -/
structure Config where
  /-- The number of positions of each node. -/
  virtualNodes : Nat
deriving DecidableEq

namespace Config

/-- The variable of the environment with the number of positions. -/
def variableName : String := "TXCORE_LOAD_BALANCE_VIRTUAL_NODES"

/-- The spread when nothing is configured. -/
def standard : Config := ⟨10⟩

instance : Inhabited Config := ⟨standard⟩

/-- The spread that the environment configures. -/
def ofEnvironment (env : Environment) : Config :=
  ⟨env.positive variableName standard.virtualNodes⟩

/-- The spread over a number of positions, at least one. -/
def ofVirtualNodes (virtualNodes : Nat) : Config := ⟨max virtualNodes 1⟩

end Config

/-- A router of transactions to nodes. -/
structure Router where
  /-- The hash that places nodes and keys. -/
  hash : String → UInt32
  /-- The number of positions of each node. -/
  virtualNodes : Nat
  virtualNodes_pos : 0 < virtualNodes

namespace Router

variable {α : Type}

/-- The router of a configuration. -/
def ofConfig (hash : String → UInt32) (config : Config) : Router × Journal :=
  (⟨hash, max config.virtualNodes 1, by omega⟩, [.logged .routerBuilt])

/-- The ring over a list of nodes. -/
def ring (router : Router) (identity : α → String) (nodes : List α) : Except Error (Ring α) :=
  Ring.ofNodes router.hash identity router.virtualNodes nodes

/-- The answer for a key, and what is reported about it, from the attempt at a ring. -/
def answer (ring : Except Error (Ring α)) (key : String) : Except Error α × Journal :=
  match ring with
  | .ok ring => (.ok (ring.select key), [])
  | .error _ => (.error .noAvailableNode, [.counted .noAvailableNode, .logged .noAvailableNode])

/-- The node of a key. -/
def select (router : Router) (identity : α → String) (nodes : List α) (key : String) :
    Except Error α × Journal :=
  answer (router.ring identity nodes) key

/-- The nodes of several keys. -/
def selectEach (router : Router) (identity : α → String) (nodes : List α) (keys : List String) :
    List (Except Error α) × Journal :=
  let ring := router.ring identity nodes
  let answers := keys.map (answer ring)
  (answers.map Prod.fst, answers.flatMap Prod.snd)

theorem selectEach_eq_map (router : Router) (identity : α → String) (nodes : List α)
    (keys : List String) :
    router.selectEach identity nodes keys =
      (keys.map fun key => (router.select identity nodes key).1,
        keys.flatMap fun key => (router.select identity nodes key).2) := by
  simp [selectEach, select, List.flatMap_map]

/-- Only an empty list of nodes leaves a key without a node. -/
theorem select_eq_error_iff {router : Router} {identity : α → String} {nodes : List α}
    {key : String} {e : Error} :
    (router.select identity nodes key).1 = .error e ↔ nodes = [] := by
  cases e
  by_cases h : nodes = []
  · simp [select, ring, answer, Ring.ofNodes, h]
  · simp [select, ring, answer, Ring.ofNodes, h]

end Router

end GlobalTransaction.Routing
