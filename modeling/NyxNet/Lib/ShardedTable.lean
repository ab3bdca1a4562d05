import Mathlib.Algebra.BigOperators.Group.List.Basic
import NyxNet.Lib.KeyedTable

/-!
# Counting a sharded table

A concurrent table spreads its keys over shards and has one lock for each of
them.  Its length is counted shard by shard, so the table may change behind a
count that has begun and ahead of it.  A count that has come to a shard is
compared with the sizes below that shard and from it on.
-/

namespace KeyedTable

variable {κ α : Type*}

structure Shards (κ : Type*) where
  count : Nat
  shardOf : κ → Fin count

/-- A table that is not split. -/
def Shards.single : Shards κ where
  count := 1
  shardOf := fun _ => ⟨0, Nat.one_pos⟩

theorem load_add (left right : κ → α → Nat) (table : Table κ α) :
    load (fun key value => left key value + right key value) table =
      load left table + load right table :=
  List.sum_map_add

theorem load_congr {left right : κ → α → Nat}
    (same : ∀ key value, left key value = right key value)
    (table : Table κ α) : load left table = load right table := by
  have equal : left = right := funext fun key => funext (same key)
  rw [equal]

namespace Shards

variable (shards : Shards κ) (table : Table κ α) (shard : Nat)

/-- The number of entries in the shards with a property. -/
def sizeOf (selects : Nat → Prop) [DecidablePred selects] : Nat :=
  load (fun key _ => if selects (shards.shardOf key) then 1 else 0) table

/-- The number of entries in one shard. -/
def sizeIn : Nat := shards.sizeOf table (· = shard)

/-- The number of entries in the shards before that one. -/
def sizeBelow : Nat := shards.sizeOf table (· < shard)

/-- The number of entries in that shard and those behind it. -/
def sizeFrom : Nat := shards.sizeOf table (shard ≤ ·)

theorem sizeOf_congr {selects other : Nat → Prop} [DecidablePred selects]
    [DecidablePred other]
    (same : ∀ shard < shards.count, selects shard ↔ other shard) :
    shards.sizeOf table selects = shards.sizeOf table other := by
  refine load_congr (fun key _ => ?_) table
  simp only [same _ (shards.shardOf key).isLt]

theorem sizeOf_add (left right both : Nat → Prop) [DecidablePred left]
    [DecidablePred right] [DecidablePred both]
    (split : ∀ shard, both shard ↔ left shard ∨ right shard)
    (apart : ∀ shard, left shard → ¬ right shard) :
    shards.sizeOf table both =
      shards.sizeOf table left + shards.sizeOf table right := by
  rw [sizeOf, sizeOf, sizeOf, ← load_add]
  refine load_congr (fun key _ => ?_) table
  by_cases isLeft : left (shards.shardOf key)
  · rw [if_pos ((split _).mpr (Or.inl isLeft)), if_pos isLeft,
      if_neg (apart _ isLeft)]
  · simp only [split, isLeft, false_or, if_false, Nat.zero_add]

@[simp] theorem sizeOf_true : shards.sizeOf table (fun _ => True) = size table :=
  rfl

@[simp] theorem sizeOf_false : shards.sizeOf table (fun _ => False) = 0 := by
  simp [sizeOf, load]

theorem sizeBelow_zero : shards.sizeBelow table 0 = 0 :=
  (shards.sizeOf_congr table fun _ _ => by simp).trans
    (shards.sizeOf_false table)

theorem sizeBelow_succ :
    shards.sizeBelow table (shard + 1) =
      shards.sizeBelow table shard + shards.sizeIn table shard :=
  shards.sizeOf_add table _ _ _ (fun _ => by omega) (fun _ => by omega)

/-- A count that has come to the last shard has them all behind it. -/
theorem sizeBelow_of_count_le (all : shards.count ≤ shard) :
    shards.sizeBelow table shard = size table :=
  (shards.sizeOf_congr table fun _ among => by
    simp [Nat.lt_of_lt_of_le among all]).trans (shards.sizeOf_true table)

theorem sizeFrom_zero : shards.sizeFrom table 0 = size table :=
  (shards.sizeOf_congr table fun _ _ => by simp).trans
    (shards.sizeOf_true table)

theorem sizeFrom_of_count_le (all : shards.count ≤ shard) :
    shards.sizeFrom table shard = 0 :=
  (shards.sizeOf_congr table fun other among => by
    simp [Nat.lt_of_lt_of_le among all]).trans (shards.sizeOf_false table)

/-- The next shard goes from what is ahead of the count to the count. -/
theorem sizeIn_add_sizeFrom :
    shards.sizeIn table shard + shards.sizeFrom table (shard + 1) =
      shards.sizeFrom table shard :=
  (shards.sizeOf_add table _ _ _ (fun _ => by omega) (fun _ => by omega)).symm

section Change

variable [DecidableEq κ] (selects : Nat → Prop)
  [DecidablePred selects] (key : κ) (value : α)

private theorem loadAt_selected :
    loadAt (fun key _ => if selects (shards.shardOf key) then 1 else 0) table
        key =
      if key ∈ table ∧ selects (shards.shardOf key) then 1 else 0 := by
  cases found : table.lookup key with
  | none =>
      rw [if_neg (fun both => AList.lookup_eq_none.mp found both.1),
        loadAt_of_absent found]
  | some stored =>
      simp only [loadAt_of_lookup found, mem_of_lookup found, true_and]

theorem sizeOf_erase :
    shards.sizeOf (table.erase key) selects +
        (if key ∈ table ∧ selects (shards.shardOf key) then 1 else 0) =
      shards.sizeOf table selects := by
  have erased := load_erase
    (fun key _ => if selects (shards.shardOf key) then 1 else 0) table key
  rw [loadAt_selected] at erased
  exact erased

theorem sizeOf_insert :
    shards.sizeOf (table.insert key value) selects +
        (if key ∈ table ∧ selects (shards.shardOf key) then 1 else 0) =
      shards.sizeOf table selects +
        (if selects (shards.shardOf key) then 1 else 0) := by
  have inserted := load_insert
    (fun key _ => if selects (shards.shardOf key) then 1 else 0) table key value
  rw [loadAt_selected] at inserted
  exact inserted

/-- Another value under a stored key. -/
theorem sizeOf_replace (stored : key ∈ table) :
    shards.sizeOf (table.insert key value) selects =
      shards.sizeOf table selects := by
  have inserted := shards.sizeOf_insert table selects key value
  simp only [stored, true_and] at inserted
  exact Nat.add_right_cancel inserted

end Change

end Shards

end KeyedTable
