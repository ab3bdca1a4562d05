import Mathlib.Algebra.Ring.Nat
import Mathlib.Data.List.AList

/-!
# The load of a table

A table holds one value under each of its keys.  Its load is the sum of the
weights of its entries; with weight one it is the number of entries.
Insertion and removal change the load by the weight of the one entry that they
touch.
-/

namespace KeyedTable

variable {κ α : Type*}

abbrev Table (κ α : Type*) : Type _ := AList (fun _ : κ => α)

def load (weight : κ → α → Nat) (table : Table κ α) : Nat :=
  (table.entries.map (fun entry => weight entry.1 entry.2)).sum

/-- The number of entries. -/
def size (table : Table κ α) : Nat := load (fun _ _ => 1) table

section Change

variable [DecidableEq κ]

/-- The share of one key in the load. -/
def loadAt (weight : κ → α → Nat) (table : Table κ α) (key : κ) : Nat :=
  (table.lookup key).elim 0 (weight key)

theorem loadAt_of_lookup {weight : κ → α → Nat} {table : Table κ α} {key : κ}
    {value : α} (found : table.lookup key = some value) :
    loadAt weight table key = weight key value := by
  rw [loadAt, found]
  rfl

theorem loadAt_of_absent {weight : κ → α → Nat} {table : Table κ α} {key : κ}
    (absent : table.lookup key = none) : loadAt weight table key = 0 := by
  rw [loadAt, absent]
  rfl

theorem mem_of_lookup {table : Table κ α} {key : κ} {value : α}
    (found : table.lookup key = some value) : key ∈ table := by
  rw [← AList.lookup_isSome, found]
  rfl

/-- Tables as functions from keys to values. -/
theorem lookup_insert_eq_update (table : Table κ α) (key : κ) (value : α) :
    (fun other => (table.insert key value).lookup other) =
      Function.update (fun other => table.lookup other) key (some value) := by
  funext other
  by_cases same : other = key
  · subst same
    rw [AList.lookup_insert, Function.update_self]
  · rw [AList.lookup_insert_ne same, Function.update_of_ne same]

theorem lookup_erase_eq_update (table : Table κ α) (key : κ) :
    (fun other => (table.erase key).lookup other) =
      Function.update (fun other => table.lookup other) key none := by
  funext other
  by_cases same : other = key
  · subst same
    rw [AList.lookup_erase, Function.update_self]
  · rw [AList.lookup_erase_ne same, Function.update_of_ne same]

theorem lookup_erase_of_absent {table : Table κ α} {key : κ}
    (absent : table.lookup key = none) :
    (fun other => (table.erase key).lookup other) =
      fun other => table.lookup other := by
  rw [lookup_erase_eq_update]
  exact Function.update_eq_self_iff.mpr absent.symm

private theorem sum_kerase (weight : κ → α → Nat) (key : κ)
    (entries : List (Sigma fun _ : κ => α)) :
    ((entries.kerase key).map (fun entry => weight entry.1 entry.2)).sum +
        (entries.dlookup key).elim 0 (weight key) =
      (entries.map (fun entry => weight entry.1 entry.2)).sum := by
  induction entries with
  | nil => rfl
  | cons entry entries ih =>
      by_cases same : key = entry.1
      · subst same
        rw [List.kerase_cons_eq rfl, List.dlookup_cons_eq, Option.elim_some,
          List.map_cons, List.sum_cons]
        omega
      · rw [List.kerase_cons_ne same, List.dlookup_cons_ne _ _ same,
          List.map_cons, List.sum_cons, List.map_cons, List.sum_cons]
        omega

theorem load_erase (weight : κ → α → Nat) (table : Table κ α) (key : κ) :
    load weight (table.erase key) + loadAt weight table key =
      load weight table :=
  sum_kerase weight key table.entries

theorem load_insert (weight : κ → α → Nat) (table : Table κ α) (key : κ)
    (value : α) :
    load weight (table.insert key value) + loadAt weight table key =
      load weight table + weight key value := by
  have erased := load_erase weight table key
  have entries : load weight (table.insert key value) =
      weight key value + load weight (table.erase key) := by
    rw [load, AList.entries_insert, List.map_cons, List.sum_cons]
    rfl
  omega

private theorem loadAt_one (table : Table κ α) (key : κ) :
    loadAt (fun _ _ => 1) table key = if key ∈ table then 1 else 0 := by
  cases found : table.lookup key with
  | none =>
      rw [if_neg (AList.lookup_eq_none.mp found), loadAt_of_absent found]
  | some value =>
      rw [if_pos (mem_of_lookup found),
        loadAt_of_lookup found]

theorem size_erase (table : Table κ α) (key : κ) :
    size (table.erase key) + (if key ∈ table then 1 else 0) = size table := by
  have erased := load_erase (fun _ _ => 1) table key
  rw [loadAt_one] at erased
  exact erased

theorem size_insert (table : Table κ α) (key : κ) (value : α) :
    size (table.insert key value) + (if key ∈ table then 1 else 0) =
      size table + 1 := by
  have inserted := load_insert (fun _ _ => 1) table key value
  rw [loadAt_one] at inserted
  exact inserted

end Change

theorem mem_entries_unique {table : Table κ α} {key : κ} {left right : α}
    (leftIn : ⟨key, left⟩ ∈ table.entries)
    (rightIn : ⟨key, right⟩ ∈ table.entries) : left = right := by
  classical
  have leftFound := AList.mem_lookup_iff.mpr leftIn
  have rightFound := AList.mem_lookup_iff.mpr rightIn
  rw [Option.mem_def] at leftFound rightFound
  rw [leftFound] at rightFound
  exact Option.some.inj rightFound

/-- Every value is replaced by another one. -/
def mapValues (change : κ → α → α) (table : Table κ α) : Table κ α where
  entries := table.entries.map (fun entry => ⟨entry.1, change entry.1 entry.2⟩)
  nodupKeys := by
    have keys := table.keys_nodup
    rw [List.NodupKeys, List.keys, List.map_map]
    exact keys

variable [DecidableEq κ]

def eraseAll (table : Table κ α) (keys : List κ) : Table κ α :=
  keys.foldl (fun table key => table.erase key) table

private theorem kerase_eq_filter {entries : List (Sigma fun _ : κ => α)}
    (distinct : entries.NodupKeys) (key : κ) :
    entries.kerase key = entries.filter (fun entry => entry.1 ≠ key) := by
  induction entries with
  | nil => rfl
  | cons entry entries ih =>
      obtain ⟨fresh, rest⟩ := List.nodupKeys_cons.mp distinct
      by_cases same : key = entry.1
      · rw [List.kerase_cons_eq same, List.filter_cons_of_neg (by simp [same]),
          ← ih rest, List.kerase_of_notMem_keys (same ▸ fresh)]
      · rw [List.kerase_cons_ne same,
          List.filter_cons_of_pos (by simpa using Ne.symm same), ih rest]

theorem entries_erase (table : Table κ α) (key : κ) :
    (table.erase key).entries =
      table.entries.filter (fun entry => entry.1 ≠ key) :=
  kerase_eq_filter table.nodupKeys key

theorem entries_eraseAll (table : Table κ α) (keys : List κ) :
    (eraseAll table keys).entries =
      table.entries.filter (fun entry => entry.1 ∉ keys) := by
  induction keys generalizing table with
  | nil => simp [eraseAll]
  | cons key keys ih =>
      have rest := ih (table.erase key)
      rw [eraseAll] at rest ⊢
      rw [List.foldl_cons, rest, entries_erase, List.filter_filter]
      simp [Bool.and_comm]

end KeyedTable
