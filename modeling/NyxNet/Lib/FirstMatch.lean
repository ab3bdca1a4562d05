import Mathlib.Data.List.Basic
import Mathlib.Tactic.Common

/-!
# The first match in an arbitrary order

A search that stops at the first item it likes depends on the order of the
items.  What is looked at of the item found does not, when all the items
that could be found look the same, and else there are two orders that differ.
-/

namespace FirstMatch

variable {α β : Type*} {likes : α → Bool} {items : List α}

/-- Every item can be put in front. -/
theorem exists_perm_cons {item : α} (member : item ∈ items) :
    ∃ rest, (item :: rest).Perm items := by
  obtain ⟨before, after, rfl⟩ := List.append_of_mem member
  exact ⟨before ++ after, List.perm_middle.symm⟩

/-- Every item that is liked is found in some order. -/
theorem exists_perm_find? {item : α} (member : item ∈ items)
    (liked : likes item = true) :
    ∃ order : List α, order.Perm items ∧ order.find? likes = some item := by
  obtain ⟨rest, permutation⟩ := exists_perm_cons member
  exact ⟨item :: rest, permutation, List.find?_cons_of_pos liked⟩

/-- What is seen of the item found is the same in all orders when the items
that are liked look alike. -/
theorem find?_map_of_alike {view : α → β}
    (alike : ∀ item ∈ items, ∀ other ∈ items,
      likes item = true → likes other = true → view item = view other)
    {first second : List α} (firstPerm : first.Perm items)
    (secondPerm : second.Perm items) :
    (first.find? likes).map view = (second.find? likes).map view := by
  cases firstFound : first.find? likes with
  | none =>
      have disliked := List.find?_eq_none.mp firstFound
      have nothing : second.find? likes = none := by
        apply List.find?_eq_none.mpr
        intro item member
        exact disliked item
          (firstPerm.mem_iff.mpr (secondPerm.mem_iff.mp member))
      rw [nothing]
  | some item =>
      have member :=
        firstPerm.mem_iff.mp (List.mem_of_find?_eq_some firstFound)
      have liked := List.find?_some firstFound
      cases secondFound : second.find? likes with
      | none =>
          have disliked := List.find?_eq_none.mp secondFound item
            (secondPerm.mem_iff.mpr member)
          exact absurd liked disliked
      | some other =>
          have otherMember :=
            secondPerm.mem_iff.mp (List.mem_of_find?_eq_some secondFound)
          have same := alike item member other otherMember liked
            (List.find?_some secondFound)
          rw [Option.map_some, Option.map_some, same]

section FirstResult

variable {gives : α → Option β}

theorem findSome?_congr {other : α → Option β}
    (same : ∀ item ∈ items, gives item = other item) :
    items.findSome? gives = items.findSome? other := by
  induction items with
  | nil => rfl
  | cons item rest ih =>
      rw [List.findSome?_cons, List.findSome?_cons, same item
        List.mem_cons_self, ih fun later member =>
          same later (List.mem_cons_of_mem item member)]

/-- Further items change nothing exactly when an item before them already gives
a result, should any of them give one. -/
theorem findSome?_append_eq_left_iff {front rest : List α} :
    (front ++ rest).findSome? gives = front.findSome? gives ↔
      ∀ item ∈ rest, gives item ≠ none →
        ∃ other ∈ front, gives other ≠ none := by
  rw [List.findSome?_append]
  cases first : front.findSome? gives with
  | some result =>
      obtain ⟨other, listed, found⟩ := List.exists_of_findSome?_eq_some first
      have useful : gives other ≠ none := by
        rw [found]
        exact Option.some_ne_none result
      exact iff_of_true rfl fun _ _ _ => ⟨other, listed, useful⟩
  | none =>
      rw [List.findSome?_eq_none_iff] at first
      rw [Option.none_or, List.findSome?_eq_none_iff]
      constructor
      · exact fun useless item member useful =>
          absurd (useless item member) useful
      · intro covered item member
        by_contra useful
        obtain ⟨other, listed, found⟩ := covered item member useful
        exact found (first other listed)

end FirstResult

end FirstMatch
