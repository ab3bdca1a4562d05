import Mathlib.Data.Finset.Card
import Mathlib.Data.Finset.Image
import Mathlib.Order.Interval.Finset.Nat
import Mathlib.Tactic.Common

/-!
# Ordered finite maps

Facts about `Std.ExtTreeMap` used as an ordered map: its last key and, for
keys that embed into the natural numbers, the finite set of those numbers.
The cardinality bound at the end is the pigeonhole principle for keys that all
lie in an interval.
-/

namespace OrderedMap

variable {κ β : Type} [Ord κ] [Std.TransOrd κ]
  {entries : Std.ExtTreeMap κ β compare}

/-- The last key of an in-order traversal. -/
def lastKey (entries : Std.ExtTreeMap κ β compare) : Option κ :=
  entries.keys.getLast?

theorem lastKey_eq_none_iff : lastKey entries = none ↔ entries.size = 0 := by
  rw [lastKey, List.getLast?_eq_none_iff, ← List.length_eq_zero_iff,
    Std.ExtTreeMap.length_keys]

theorem size_insert_le (key : κ) (value : β) :
    (entries.insert key value).size ≤ entries.size + 1 := by
  rw [Std.ExtTreeMap.size_insert]
  split <;> omega

variable [Std.LawfulEqOrd κ]

theorem lastKey_mem {last : κ} (found : lastKey entries = some last) :
    last ∈ entries := by
  apply Std.ExtTreeMap.mem_keys.mp
  exact List.mem_of_getLast? found

theorem le_lastKey [LE κ] [Std.LawfulOrderOrd κ] {last key : κ}
    (found : lastKey entries = some last) (member : key ∈ entries) :
    key ≤ last := by
  rw [lastKey, ← Std.ExtTreeMap.maxKey?_eq_getLast?_keys,
    Std.ExtTreeMap.maxKey?_eq_some_iff_mem_and_forall] at found
  exact Std.isLE_compare.mp (found.2 key member)

theorem size_erase_of_mem {key : κ} (member : key ∈ entries) :
    (entries.erase key).size + 1 = entries.size := by
  have positive : 0 < entries.size := by
    rw [← Std.ExtTreeMap.length_keys]
    exact List.length_pos_of_mem (Std.ExtTreeMap.mem_keys.mpr member)
  rw [Std.ExtTreeMap.size_erase, if_pos (Std.ExtTreeMap.contains_iff_mem.mpr member)]
  omega

section Lookup

variable [DecidableEq κ]

theorem lookup_insert (key other : κ) (value : β) :
    (entries.insert key value)[other]? =
      if other = key then some value else entries[other]? := by
  rw [Std.ExtTreeMap.getElem?_insert]
  simp only [Std.LawfulEqCmp.compare_eq_iff_eq, @eq_comm κ key]

theorem lookup_erase (key other : κ) :
    (entries.erase key)[other]? =
      if other = key then none else entries[other]? := by
  rw [Std.ExtTreeMap.getElem?_erase]
  simp only [Std.LawfulEqCmp.compare_eq_iff_eq, @eq_comm κ key]

/-- What is found after an insertion is the new entry or an old one. -/
theorem lookup_insert_cases {key other : κ} {value found : β}
    (lookup : (entries.insert key value)[other]? = some found) :
    (other = key ∧ found = value) ∨
      (other ≠ key ∧ entries[other]? = some found) := by
  rw [lookup_insert] at lookup
  by_cases same : other = key
  · rw [if_pos same, Option.some.injEq] at lookup
    exact Or.inl ⟨same, lookup.symm⟩
  · rw [if_neg same] at lookup
    exact Or.inr ⟨same, lookup⟩

/-- What is found after a removal was there before. -/
theorem lookup_of_erase {key other : κ} {found : β}
    (lookup : (entries.erase key)[other]? = some found) :
    other ≠ key ∧ entries[other]? = some found := by
  rw [lookup_erase] at lookup
  by_cases same : other = key
  · rw [if_pos same] at lookup
    cases lookup
  · rw [if_neg same] at lookup
    exact ⟨same, lookup⟩

/-- An insertion changes nothing exactly when the entry is there already. -/
theorem insert_eq_self_iff {key : κ} {value : β} :
    entries.insert key value = entries ↔ entries[key]? = some value := by
  constructor
  · intro same
    rw [← same, lookup_insert, if_pos rfl]
  · intro present
    apply Std.ExtTreeMap.ext_getElem?
    intro other
    rw [lookup_insert]
    by_cases same : other = key
    · rw [if_pos same, same, present]
    · rw [if_neg same]

theorem lookup_modify (key other : κ) (change : β → β) :
    (entries.modify key change)[other]? =
      if other = key then entries[other]?.map change
      else entries[other]? := by
  rw [Std.ExtTreeMap.getElem?_modify]
  simp only [Std.LawfulEqCmp.compare_eq_iff_eq]
  by_cases same : key = other
  · rw [if_pos same, if_pos same.symm, same]
  · rw [if_neg same, if_neg (Ne.symm same)]

/-- The map without the given keys. -/
def eraseAll (entries : Std.ExtTreeMap κ β compare) (keys : List κ) :
    Std.ExtTreeMap κ β compare :=
  keys.foldl (fun rest key => rest.erase key) entries

theorem lookup_eraseAll (keys : List κ) (other : κ) :
    (eraseAll entries keys)[other]? =
      if other ∈ keys then none else entries[other]? := by
  unfold eraseAll
  induction keys generalizing entries with
  | nil => rfl
  | cons key keys ih =>
      rw [List.foldl_cons, ih, lookup_erase]
      by_cases same : other = key
      · simp [same]
      · simp [same]

theorem size_eraseAll {keys : List κ} (distinct : keys.Nodup)
    (members : ∀ key ∈ keys, key ∈ entries) :
    (eraseAll entries keys).size + keys.length = entries.size := by
  unfold eraseAll
  induction keys generalizing entries with
  | nil => rfl
  | cons key keys ih =>
      rw [List.nodup_cons] at distinct
      have removed := size_erase_of_mem (members key List.mem_cons_self)
      have left : ∀ other ∈ keys, other ∈ entries.erase key := by
        intro other member
        rw [Std.ExtTreeMap.mem_iff_isSome_getElem?, lookup_erase]
        have different : other ≠ key := by
          intro same
          exact distinct.1 (same ▸ member)
        rw [if_neg different, ← Std.ExtTreeMap.mem_iff_isSome_getElem?]
        exact members other (List.mem_cons_of_mem _ member)
      have later := ih distinct.2 left
      rw [List.foldl_cons, List.length_cons]
      omega

/-- The keys of a map as a finite set. -/
def keySet (entries : Std.ExtTreeMap κ β compare) : Finset κ :=
  entries.keys.toFinset

theorem mem_keySet {key : κ} :
    key ∈ keySet entries ↔ ∃ value, entries[key]? = some value := by
  rw [keySet, List.mem_toFinset, Std.ExtTreeMap.mem_keys,
    Std.ExtTreeMap.mem_iff_isSome_getElem?, Option.isSome_iff_exists]

theorem notMem_keySet {key : κ} :
    key ∉ keySet entries ↔ entries[key]? = none := by
  rw [mem_keySet, ← Option.isSome_iff_exists, Option.not_isSome_iff_eq_none]

theorem card_keySet : (keySet entries).card = entries.size := by
  have distinct : entries.keys.Nodup := by
    apply entries.distinct_keys.imp
    intro left right different same
    subst same
    exact different (Std.ReflCmp.compare_self)
  rw [keySet, List.toFinset_card_of_nodup distinct,
    Std.ExtTreeMap.length_keys]

theorem keySet_eq_empty_iff : keySet entries = ∅ ↔ entries.isEmpty = true := by
  rw [Std.ExtTreeMap.isEmpty_iff]
  constructor
  · intro none
    apply Std.ExtTreeMap.ext_getElem?
    intro key
    have absent : key ∉ keySet entries := by
      rw [none]
      exact Finset.notMem_empty key
    rw [notMem_keySet.mp absent, Std.ExtTreeMap.getElem?_empty]
  · intro empty
    subst entries
    rfl

end Lookup

/-- The keys of a map as a finite set of natural numbers. -/
def keyNats (toNat : κ → Nat) (entries : Std.ExtTreeMap κ β compare) :
    Finset Nat :=
  (entries.keys.map toNat).toFinset

theorem mem_keyNats {toNat : κ → Nat} {number : Nat} :
    number ∈ keyNats toNat entries ↔
      ∃ key, key ∈ entries ∧ toNat key = number := by
  simp [keyNats]

theorem card_keyNats {toNat : κ → Nat} (injective : Function.Injective toNat) :
    (keyNats toNat entries).card = entries.size := by
  have nodup : (entries.keys.map toNat).Nodup := by
    apply List.Nodup.map injective
    apply List.Pairwise.imp _ (Std.ExtTreeMap.distinct_keys (t := entries))
    intro left right different equality
    exact different (Std.LawfulEqCmp.compare_eq_iff_eq.mpr equality)
  rw [keyNats, List.toFinset_card_of_nodup nodup, List.length_map,
    Std.ExtTreeMap.length_keys]

/-- A map whose keys all lie between two numbers is no larger than the
interval. -/
theorem size_le_of_bounds {toNat : κ → Nat}
    (injective : Function.Injective toNat) {low high : Nat}
    (above : ∀ key ∈ entries, low ≤ toNat key)
    (below : ∀ key ∈ entries, toNat key ≤ high) :
    entries.size ≤ high + 1 - low := by
  rw [← card_keyNats injective, ← Nat.card_Icc]
  apply Finset.card_le_card
  intro number member
  obtain ⟨key, present, equality⟩ := mem_keyNats.mp member
  rw [Finset.mem_Icc, ← equality]
  exact ⟨above key present, below key present⟩

end OrderedMap
