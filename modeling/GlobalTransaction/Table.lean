/-!
# Tables

Finite tables from keys to values. A key that is set gets in front, in the place of
what it had before.

## Main definitions

* `Table` — keys with their values
* `Table.erase`, `Table.insert` — a key loses or gets its value

## Main results

* `Table.lookup_erase`, `Table.lookup_insert` — the keys are independent
* `Table.mem_iff_lookup_eq_some` — the entries are what is looked up
* `Table.lookup_eq_of_perm`, `Table.lookup_filter`, `Table.count_keys_filter` — neither the order
  nor other entries make a difference
* `Table.perm_of_lookup_eq` — what is looked up is all that there is, but for the order
* `Table.nodup_keys_insert`, `Table.nodup_keys_erase` — no key comes twice
-/

namespace GlobalTransaction

/-- Keys with their values. -/
abbrev Table (κ α : Type) := List (κ × α)

namespace Table

variable {κ α : Type} [DecidableEq κ]

/-- The table without a key. -/
def erase (table : Table κ α) (key : κ) : Table κ α :=
  table.filter fun entry => decide (entry.1 ≠ key)

/-- The table with the value of a key set. -/
def insert (table : Table κ α) (key : κ) (value : α) : Table κ α :=
  (key, value) :: table.erase key

/-- The keys of a table. -/
def keys (table : Table κ α) : List κ := table.map Prod.fst

theorem lookup_cons_eq (key : κ) (value : α) (table : Table κ α) (other : κ) :
    ((key, value) :: table).lookup other =
      if other = key then some value else table.lookup other := by
  by_cases h : other = key
  · simp [h]
  · rw [List.lookup_cons, beq_false_of_ne h, if_neg h]

@[simp] theorem lookup_erase (table : Table κ α) (key other : κ) :
    (table.erase key).lookup other = if other = key then none else table.lookup other := by
  induction table with
  | nil => simp [erase]
  | cons entry rest ih =>
    obtain ⟨k, value⟩ := entry
    simp only [erase] at ih ⊢
    by_cases hk : k = key
    · subst hk
      rw [List.filter_cons_of_neg (by simp), ih, lookup_cons_eq]
      split <;> rfl
    · rw [List.filter_cons_of_pos (by simp [hk]), lookup_cons_eq, lookup_cons_eq, ih]
      by_cases ho : other = k
      · subst ho
        simp [hk]
      · simp [ho]

@[simp] theorem lookup_insert (table : Table κ α) (key : κ) (value : α) (other : κ) :
    (table.insert key value).lookup other =
      if other = key then some value else table.lookup other := by
  rw [insert, lookup_cons_eq, lookup_erase]
  split <;> rfl

theorem mem_keys_erase {table : Table κ α} {key other : κ} :
    other ∈ (table.erase key).keys ↔ other ∈ table.keys ∧ other ≠ key := by
  simp only [keys, erase, List.mem_map, List.mem_filter, decide_eq_true_eq]
  constructor
  · rintro ⟨entry, ⟨hmem, hne⟩, rfl⟩
    exact ⟨⟨entry, hmem, rfl⟩, hne⟩
  · rintro ⟨⟨entry, hmem, rfl⟩, hne⟩
    exact ⟨entry, ⟨hmem, hne⟩, rfl⟩

theorem nodup_keys_erase {table : Table κ α} (h : table.keys.Nodup) (key : κ) :
    (table.erase key).keys.Nodup :=
  h.sublist (List.filter_sublist.map Prod.fst)

theorem lookup_eq_none_iff {table : Table κ α} {key : κ} :
    table.lookup key = none ↔ key ∉ table.keys := by
  rw [List.lookup_eq_none_iff, keys, List.mem_map]
  constructor
  · rintro h ⟨entry, hmem, rfl⟩
    simpa using h entry hmem
  · intro h entry hmem
    rw [bne_iff_ne]
    rintro rfl
    exact h ⟨entry, hmem, rfl⟩

theorem mem_of_lookup_eq_some {table : Table κ α} {key : κ} {value : α}
    (h : table.lookup key = some value) : (key, value) ∈ table := by
  obtain ⟨before, behind, rfl, -⟩ := List.lookup_eq_some_iff.1 h
  exact List.mem_append_right before List.mem_cons_self

/-- In a table in which no key comes twice, the entries are what is looked up. -/
theorem mem_iff_lookup_eq_some {table : Table κ α} (h : table.keys.Nodup) {key : κ} {value : α} :
    (key, value) ∈ table ↔ table.lookup key = some value := by
  induction table with
  | nil => simp
  | cons entry rest ih =>
    obtain ⟨k, v⟩ := entry
    obtain ⟨hk, hrest⟩ := List.nodup_cons.1 h
    rw [lookup_cons_eq, List.mem_cons, ih hrest, Prod.mk.injEq]
    by_cases heq : key = k
    · subst heq
      have hnone : List.lookup key rest = none := lookup_eq_none_iff.2 hk
      simp [hnone, eq_comm]
    · simp [heq]

/-- Where no key comes twice, the order of the entries makes no difference. -/
theorem lookup_eq_of_perm {table other : Table κ α} (hperm : table.Perm other)
    (h : table.keys.Nodup) (key : κ) : table.lookup key = other.lookup key := by
  have hother : other.keys.Nodup := (hperm.map Prod.fst).nodup_iff.1 h
  refine Option.ext fun value => ?_
  rw [← mem_iff_lookup_eq_some h, ← mem_iff_lookup_eq_some hother]
  exact hperm.mem_iff

/-- Where no key comes twice, tables in which the same is looked up have the same entries. -/
theorem perm_of_lookup_eq {table other : Table κ α} (h : table.keys.Nodup)
    (hother : other.keys.Nodup) (hlookup : ∀ key, table.lookup key = other.lookup key) :
    table.Perm other := by
  have hentries : ∀ {t : Table κ α}, t.keys.Nodup → t.Nodup :=
    fun ht => List.Pairwise.of_map Prod.fst (fun _ _ hne heq => hne (congrArg Prod.fst heq)) ht
  refine (List.perm_ext_iff_of_nodup (hentries h) (hentries hother)).2 ?_
  rintro ⟨key, value⟩
  rw [mem_iff_lookup_eq_some h, mem_iff_lookup_eq_some hother, hlookup]

/-- A key that stays keeps its value. -/
theorem lookup_filter (stays : κ → Bool) {key : κ} (h : stays key = true) (table : Table κ α) :
    List.lookup key (table.filter fun entry => stays entry.1) = table.lookup key := by
  induction table with
  | nil => rfl
  | cons entry rest ih =>
    obtain ⟨k, value⟩ := entry
    rw [lookup_cons_eq]
    by_cases hk : stays k = true
    · rw [List.filter_cons_of_pos (by exact hk), lookup_cons_eq, ih]
    · have hne : key ≠ k := by
        rintro rfl
        exact hk h
      rw [List.filter_cons_of_neg (by exact hk), if_neg hne, ih]

/-- A key that stays comes as often as before. -/
theorem count_keys_filter (stays : κ → Bool) {key : κ} (h : stays key = true)
    (table : Table κ α) :
    (keys (table.filter fun entry => stays entry.1)).count key = table.keys.count key := by
  have hkeys : keys (table.filter fun entry => stays entry.1) = table.keys.filter stays := by
    rw [keys, keys, List.filter_map]
    rfl
  rw [hkeys, List.count_filter h]

theorem nodup_keys_insert {table : Table κ α} (h : table.keys.Nodup) (key : κ) (value : α) :
    (table.insert key value).keys.Nodup :=
  List.nodup_cons.2 ⟨fun hmem => (mem_keys_erase.1 hmem).2 rfl, nodup_keys_erase h key⟩

end Table

end GlobalTransaction
