import NyxNet.Lib.DistinctDraws
import Mathlib.Data.List.Perm.Basic
import Mathlib.Order.Defs.LinearOrder

/-!
# Farthest-first selection

Items are taken one after the other, each time one whose score against the items
taken so far is the largest.  Where the score prefers an item of a kind that has
not been taken, the selection shows as many kinds as it can.
-/

namespace FarthestFirst

variable {α δ κ : Type*} [LinearOrder δ]

/-- One turn of the scan; a tie keeps the earlier item. -/
def scanStep (score : α → δ) (best : δ × Nat) (entry : α × Nat) : δ × Nat :=
  if best.1 < score entry.1 then (score entry.1, entry.2) else best

/-- The place of the first item with the largest score above `floor`, and the
first place when no score is above it. -/
def bestIndex (score : α → δ) (floor : δ) (items : List α) : Nat :=
  (items.zipIdx.foldl (scanStep score) (floor, 0)).2

/-- What the scan knows of the items it has passed. -/
structure Scanned (score : α → δ) (floor : δ) (items : List α)
    (best : δ × Nat) : Prop where
  largest : ∀ item ∈ items, score item ≤ best.1
  place : best = (floor, 0) ∨
    ∃ item, items[best.2]? = some item ∧ score item = best.1

theorem scanned (score : α → δ) (floor : δ) (items : List α) :
    Scanned score floor items
      (items.zipIdx.foldl (scanStep score) (floor, 0)) := by
  induction items using List.reverseRecOn with
  | nil => exact ⟨by simp, Or.inl rfl⟩
  | append_singleton items last ih =>
      rw [List.zipIdx_append, List.foldl_append]
      generalize items.zipIdx.foldl (scanStep score) (floor, 0) = best at ih ⊢
      simp only [List.zipIdx_cons, List.zipIdx_nil, List.foldl_cons,
        List.foldl_nil, scanStep, Nat.zero_add]
      by_cases better : best.1 < score last
      · rw [if_pos better]
        constructor
        · intro item member
          rcases List.mem_append.mp member with earlier | isLast
          · exact le_trans (ih.largest item earlier) (le_of_lt better)
          · rw [List.mem_singleton.mp isLast]
        · exact Or.inr ⟨last, List.getElem?_concat_length, rfl⟩
      · rw [if_neg better]
        constructor
        · intro item member
          rcases List.mem_append.mp member with earlier | isLast
          · exact ih.largest item earlier
          · rw [List.mem_singleton.mp isLast]
            exact not_lt.mp better
        · rcases ih.place with untouched | ⟨item, found, same⟩
          · exact Or.inl untouched
          · refine Or.inr ⟨item, ?_, same⟩
            obtain ⟨inside, -⟩ := List.getElem?_eq_some_iff.mp found
            rw [List.getElem?_append_left inside]
            exact found

/-- The scan finds an item, and none above `floor` has a larger score. -/
theorem bestIndex_spec (score : α → δ) (floor : δ) {items : List α}
    (nonempty : items ≠ []) :
    ∃ best, items[bestIndex score floor items]? = some best ∧
      ∀ item ∈ items, floor < score item → score item ≤ score best := by
  have facts := scanned score floor items
  unfold bestIndex
  rcases facts.place with untouched | ⟨best, found, same⟩
  · rw [untouched] at facts ⊢
    obtain ⟨first, rest, rfl⟩ := List.exists_cons_of_ne_nil nonempty
    refine ⟨first, rfl, ?_⟩
    intro item member above
    exact absurd (lt_of_lt_of_le above (facts.largest item member))
      (lt_irrefl floor)
  · refine ⟨best, found, ?_⟩
    intro item member _
    rw [same]
    exact facts.largest item member

/-- The loop of the selection; no result stands for an index out of range. -/
def select (score : List α → α → δ) (floor : δ) :
    Nat → List α → List α → Option (List α)
  | 0, _, chosen => some chosen
  | _ + 1, [], chosen => some chosen
  | count + 1, first :: rest, chosen =>
      let index := bestIndex (score chosen) floor (first :: rest)
      match (first :: rest)[index]? with
      | none => none
      | some best =>
          select score floor count ((first :: rest).eraseIdx index)
            (chosen ++ [best])

/-- Taking an item out leaves the others. -/
theorem cons_eraseIdx_perm {items : List α} {index : Nat} {item : α}
    (found : items[index]? = some item) :
    (item :: items.eraseIdx index).Perm items := by
  obtain ⟨inside, rfl⟩ := List.getElem?_eq_some_iff.mp found
  exact List.getElem_cons_eraseIdx_perm inside

/-- One turn takes an item that is there, and its score is the largest. -/
theorem exists_turn (score : List α → α → δ) (floor : δ) (count : Nat)
    {items : List α} (nonempty : items ≠ []) (chosen : List α) :
    ∃ best rest, (best :: rest).Perm items ∧
      (∀ item ∈ items, floor < score chosen item →
        score chosen item ≤ score chosen best) ∧
      select score floor (count + 1) items chosen =
        select score floor count rest (chosen ++ [best]) := by
  obtain ⟨best, found, largest⟩ :=
    bestIndex_spec (score chosen) floor nonempty
  refine ⟨best, _, cons_eraseIdx_perm found, largest, ?_⟩
  obtain ⟨first, rest, rfl⟩ := List.exists_cons_of_ne_nil nonempty
  rw [select]
  simp only [found]

/-- The selection takes as many items as it is asked for, or all, and none
twice. -/
theorem exists_select (score : List α → α → δ) (floor : δ) (count : Nat)
    (items chosen : List α) :
    ∃ taken rest, select score floor count items chosen =
        some (chosen ++ taken) ∧
      (taken ++ rest).Perm items ∧ taken.length = min count items.length := by
  induction count generalizing items chosen with
  | zero =>
      refine ⟨[], items, ?_, .refl items, (Nat.zero_min _).symm⟩
      rw [select, List.append_nil]
  | succ count ih =>
      by_cases nonempty : items = []
      · subst nonempty
        exact ⟨[], [], by rw [select, List.append_nil], .refl [], rfl⟩
      · obtain ⟨best, others, split, -, turn⟩ :=
          exists_turn score floor count nonempty chosen
        obtain ⟨taken, rest, selected, splitRest, length⟩ :=
          ih others (chosen ++ [best])
        refine ⟨best :: taken, rest, ?_, ?_, ?_⟩
        · rw [turn, selected, List.append_assoc, List.singleton_append]
        · exact (splitRest.cons best).trans split
        · have lengths := split.length_eq
          rw [List.length_cons] at lengths
          rw [List.length_cons, length, ← lengths]
          omega

section Kinds

variable [DecidableEq κ] {kind : α → κ} {score : List α → α → δ} {floor : δ}

/-- Once something is chosen, an item of a new kind has a score above `floor`
and above that of every item of a kind that is chosen. -/
structure PrefersNewKinds (score : List α → α → δ) (floor : δ)
    (kind : α → κ) : Prop where
  above : ∀ chosen ≠ [], ∀ fresh, kind fresh ∉ chosen.map kind →
    floor < score chosen fresh
  preferred : ∀ chosen fresh seen, kind fresh ∉ chosen.map kind →
    kind seen ∈ chosen.map kind → score chosen seen < score chosen fresh

/-- The number of kinds. -/
def kinds (kind : α → κ) (items : List α) : Nat :=
  (items.map kind).toFinset.card

theorem kinds_congr {left right : List α}
    (same : ∀ item, item ∈ left ↔ item ∈ right) :
    kinds kind left = kinds kind right := by
  unfold kinds
  congr 1
  ext found
  simp only [List.mem_toFinset, List.mem_map, same]

theorem kinds_le_append (left right : List α) :
    kinds kind left ≤ kinds kind (left ++ right) := by
  apply Finset.card_le_card
  intro found member
  rw [List.map_append, List.mem_toFinset]
  exact List.mem_append_left _ (List.mem_toFinset.mp member)

theorem kinds_concat (chosen : List α) (item : α) :
    kinds kind (chosen ++ [item]) =
      if kind item ∈ chosen.map kind then kinds kind chosen
      else kinds kind chosen + 1 := by
  unfold kinds
  rw [List.map_append, List.map_singleton]
  split
  · next seen => exact DistinctDraws.card_concat_of_mem seen
  · next fresh => exact DistinctDraws.card_concat_of_notMem fresh

/-- While a kind is left, the next item is of a new kind. -/
theorem fresh_of_largest (prefers : PrefersNewKinds score floor kind)
    {items chosen : List α} {best : α}
    (largest : ∀ item ∈ items, floor < score chosen item →
      score chosen item ≤ score chosen best)
    (left : kinds kind chosen < kinds kind (chosen ++ items)) :
    kind best ∉ chosen.map kind := by
  intro seen
  have nonempty : chosen ≠ [] := by
    rintro rfl
    cases seen
  obtain ⟨fresh, member, isFresh⟩ :
      ∃ fresh ∈ items, kind fresh ∉ chosen.map kind := by
    by_contra none
    push Not at none
    apply Nat.not_le_of_lt left
    apply Finset.card_le_card
    intro found inBoth
    rw [List.map_append, List.mem_toFinset, List.mem_append] at inBoth
    rw [List.mem_toFinset]
    rcases inBoth with old | new
    · exact old
    · obtain ⟨item, inItems, rfl⟩ := List.mem_map.mp new
      exact none item inItems
  exact absurd
    (lt_of_lt_of_le (prefers.preferred chosen fresh best isFresh seen)
      (largest fresh member (prefers.above chosen nonempty fresh isFresh)))
    (lt_irrefl _)

/-- Every item taken shows a new kind, until all kinds are shown. -/
theorem kinds_select (prefers : PrefersNewKinds score floor kind) (count : Nat)
    {items chosen result : List α}
    (selected : select score floor count items chosen = some result) :
    kinds kind result =
      min (kinds kind chosen + count) (kinds kind (chosen ++ items)) := by
  induction count generalizing items chosen with
  | zero =>
      cases selected
      rw [Nat.add_zero, min_eq_left (kinds_le_append result items)]
  | succ count ih =>
      by_cases empty : items = []
      · subst empty
        cases selected
        rw [List.append_nil]
        omega
      · obtain ⟨best, rest, split, largest, turn⟩ :=
          exists_turn score floor count empty chosen
        rw [turn] at selected
        have sameKinds : kinds kind (chosen ++ [best] ++ rest) =
            kinds kind (chosen ++ items) := by
          apply kinds_congr
          intro item
          rw [List.append_assoc, List.singleton_append, List.mem_append,
            List.mem_append, split.mem_iff]
        have shown : kinds kind chosen ≤ kinds kind (chosen ++ items) :=
          kinds_le_append chosen items
        rw [ih selected, sameKinds, kinds_concat]
        by_cases left : kinds kind chosen < kinds kind (chosen ++ items)
        · rw [if_neg (fresh_of_largest prefers largest left)]
          omega
        · split <;> omega

end Kinds

end FarthestFirst
