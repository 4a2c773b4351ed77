import GlobalTransaction.Branch.Status
import GlobalTransaction.Journal
import GlobalTransaction.Setting

/-!
# The cache of branch statuses

What was last heard about branches. The cache is small: when it is full, a further
branch takes the place of the one that was longest without an access. It is also
short-lived: a status that was neither written nor read for the idle time is not
given out any more. It stays stored until somebody asks for it or the cache is purged.

Times are milliseconds on a clock that does not go back.

## Main definitions

* `Resource.Config` — size and idle time, also from the environment
* `StatusCache` — the entries, the last accessed one first
* `StatusCache.put`, `StatusCache.get`, `StatusCache.invalidate`, `StatusCache.purge`
* `StatusCache.Clocked`, `StatusCache.Command`, `Clocked.step` — runs with a clock

## Main results

* `StatusCache.purge_answer_add_size` — a purge counts what it drops
-/

namespace GlobalTransaction.Resource

/-- How much the cache remembers, and for how long. -/
structure Config where
  /-- The number of entries. -/
  cacheSize : Nat
  /-- The idle time in seconds. -/
  idleSeconds : Nat
  cacheSize_pos : 0 < cacheSize
deriving DecidableEq

namespace Config

/-- The variable of the environment with the number of entries. -/
def sizeVariable : String := "TXCORE_BRANCH_STATUS_CACHE_SIZE"

/-- The variable of the environment with the idle time. -/
def idleVariable : String := "TXCORE_BRANCH_STATUS_CACHE_IDLE_SECS"

/-- What holds when nothing is configured. -/
def standard : Config := ⟨1024, 600, by decide⟩

instance : Inhabited Config := ⟨standard⟩

/-- What the environment configures. -/
def ofEnvironment (env : Environment) : Config :=
  let size := env.nonzero sizeVariable ⟨standard.cacheSize, standard.cacheSize_pos⟩
  { cacheSize := size.val
    idleSeconds := env.positive idleVariable standard.idleSeconds
    cacheSize_pos := size.property }

end Config

/-- What is remembered about one branch. -/
structure StatusCache.Entry where
  /-- The identifier of the branch. -/
  id : String
  status : Branch.Status
  /-- The time of the last access. -/
  lastAccess : Nat
deriving DecidableEq

/-- The entries about branches. -/
structure StatusCache where
  /-- How many entries there may be. -/
  capacity : Nat
  /-- The idle time in milliseconds. -/
  idle : Nat
  /-- The entries, the last accessed one first. -/
  entries : List StatusCache.Entry
  capacity_pos : 0 < capacity
deriving DecidableEq

namespace StatusCache

/-- A cache without entries. -/
def empty (capacity idle : Nat) (h : 0 < capacity) : StatusCache := ⟨capacity, idle, [], h⟩

/-- The empty cache of a configuration. -/
def ofConfig (config : Config) : StatusCache :=
  empty config.cacheSize (1000 * config.idleSeconds) config.cacheSize_pos

/-- The number of stored entries, those past their idle time included. -/
def size (cache : StatusCache) : Nat := cache.entries.length

/-- Nothing is stored. -/
def isEmpty (cache : StatusCache) : Bool := cache.entries.isEmpty

/-- The entry about a branch. -/
def find? (cache : StatusCache) (id : String) : Option Entry :=
  cache.entries.find? fun e => e.id == id

/-- The entries about all other branches. -/
def others (cache : StatusCache) (id : String) : List Entry :=
  cache.entries.filter fun e => !(e.id == id)

/-- An entry is within its idle time. -/
def isLive (cache : StatusCache) (now : Nat) (e : Entry) : Bool :=
  decide (now - e.lastAccess < cache.idle)

/-- The cache with a status for a branch. When the cache is full and the branch is new to it, the
entry that was longest without an access goes. -/
def put (cache : StatusCache) (now : Nat) (id : String) (status : Branch.Status) : StatusCache :=
  { cache with
    -- the new entry takes one of the places, so the others have one less
    entries := { id, status, lastAccess := now } :: (cache.others id).take (cache.capacity - 1) }

/-- The status of a branch. Reading it is an access. An entry past its idle time is dropped. -/
def get (cache : StatusCache) (now : Nat) (id : String) :
    Outcome StatusCache (Option Branch.Status) :=
  match cache.find? id with
  | some e =>
    if cache.isLive now e then
      { state := { cache with entries := { e with lastAccess := now } :: cache.others id }
        answer := some e.status
        journal := [.counted .cacheHit] }
    else
      { state := { cache with entries := cache.others id }
        answer := none
        journal := [.counted .cacheMiss] }
  | none => { state := cache, answer := none, journal := [.counted .cacheMiss] }

/-- The cache without a branch. -/
def invalidate (cache : StatusCache) (id : String) : StatusCache :=
  { cache with entries := cache.others id }

/-- The cache without the entries past their idle time, and the number of those. -/
def purge (cache : StatusCache) (now : Nat) : Outcome StatusCache Nat where
  state := { cache with entries := cache.entries.filter (cache.isLive now) }
  answer := cache.entries.countP fun e => !cache.isLive now e

/-! ### Sizes -/

theorem size_empty (capacity idle : Nat) (h : 0 < capacity) : (empty capacity idle h).size = 0 :=
  rfl

/-- A purge tells how many entries it dropped. -/
theorem purge_answer_add_size (cache : StatusCache) (now : Nat) :
    (cache.purge now).answer + (cache.purge now).state.size = cache.size := by
  simp only [purge, size]
  rw [← List.countP_eq_length_filter, Nat.add_comm]
  have h := List.length_eq_countP_add_countP (cache.isLive now) (l := cache.entries)
  simp only [Bool.not_eq_true, Bool.decide_eq_false] at h
  exact h.symm

/-! ### Runs -/

/-- A cache and the time. -/
structure Clocked where
  cache : StatusCache
  /-- The time in milliseconds. -/
  now : Nat
deriving DecidableEq

/-- What can be done with a cache, and that time passes. -/
inductive Command
  | put (id : String) (status : Branch.Status)
  | get (id : String)
  | invalidate (id : String)
  | purge
  /-- Some milliseconds pass. -/
  | wait (milliseconds : Nat)
deriving DecidableEq

/-- The answers to commands. -/
inductive Answer
  | done
  | found (status : Option Branch.Status)
  | dropped (count : Nat)
deriving DecidableEq

/-- The effect of one command. -/
def Clocked.step (s : Clocked) : Command → Outcome Clocked Answer
  | .put id status => { state := { s with cache := s.cache.put s.now id status }, answer := .done }
  | .get id =>
    let o := s.cache.get s.now id
    { state := { s with cache := o.state }, answer := .found o.answer, journal := o.journal }
  | .invalidate id => { state := { s with cache := s.cache.invalidate id }, answer := .done }
  | .purge =>
    let o := s.cache.purge s.now
    { state := { s with cache := o.state }, answer := .dropped o.answer }
  | .wait milliseconds => { state := { s with now := s.now + milliseconds }, answer := .done }

/-- The effect of commands that follow each other. -/
abbrev Clocked.run : Clocked → List Command → Outcome Clocked (List Answer) :=
  Outcome.run Clocked.step

end StatusCache

end GlobalTransaction.Resource
