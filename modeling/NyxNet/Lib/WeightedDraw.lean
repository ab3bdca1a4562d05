import Mathlib.Algebra.Order.BigOperators.Group.List
import Mathlib.Algebra.Order.Field.Basic
import Mathlib.Data.List.Nodup
import Mathlib.Data.List.Perm.Basic

/-!
# Weighted draws without replacement

A draw walks along a list of weighted entries and takes weights off a number
until an entry covers what is left of it.  A number up to the total weight
always finds its entry.  `swapRemove` takes the entry out of the list and puts
the last one in its place.
-/

namespace WeightedDraw

variable {α K : Type*}

section Position

variable [AddCommGroup K]

def total (entries : List (α × K)) : K := (entries.map Prod.snd).sum

theorem total_cons (entry : α × K) (rest : List (α × K)) :
    total (entry :: rest) = entry.2 + total rest := by
  rw [total, List.map_cons, List.sum_cons]
  rfl

variable [LinearOrder K]

/-- The first entry that covers what the entries before it leave over. -/
def position : K → List (α × K) → Option Nat
  | _, [] => none
  | pick, (_, weight) :: rest =>
      if pick ≤ weight then some 0
      else (position (pick - weight) rest).map Nat.succ

theorem position_lt {pick : K} {entries : List (α × K)} {index : Nat}
    (found : position pick entries = some index) : index < entries.length := by
  induction entries generalizing pick index with
  | nil => cases found
  | cons entry rest ih =>
      rw [position] at found
      by_cases covered : pick ≤ entry.2
      · rw [if_pos covered] at found
        cases found
        exact Nat.succ_pos rest.length
      · rw [if_neg covered] at found
        obtain ⟨later, foundLater, rfl⟩ := Option.map_eq_some_iff.mp found
        exact Nat.succ_lt_succ (ih foundLater)

variable [IsOrderedAddMonoid K]

/-- What is left over never exceeds the weights still ahead. -/
theorem exists_position {pick : K} {entries : List (α × K)}
    (nonempty : entries ≠ []) (within : pick ≤ total entries) :
    ∃ index, position pick entries = some index := by
  induction entries generalizing pick with
  | nil => exact absurd rfl nonempty
  | cons entry rest ih =>
      rw [total_cons] at within
      rw [position]
      by_cases covered : pick ≤ entry.2
      · exact ⟨0, if_pos covered⟩
      · have left : pick - entry.2 ≤ total rest := sub_le_iff_le_add'.mpr within
        have more : rest ≠ [] := by
          rintro rfl
          rw [total, List.map_nil, List.sum_nil, add_zero] at within
          exact covered within
        obtain ⟨index, found⟩ := ih more left
        rw [if_neg covered, found]
        exact ⟨index + 1, rfl⟩

end Position

/-- A fraction of a total of weights that are not negative. -/
theorem fraction_le_total [Field K] [LinearOrder K] [IsStrictOrderedRing K]
    {fraction : K} {entries : List (α × K)} (below : fraction ≤ 1)
    (nonneg : ∀ entry ∈ entries, 0 ≤ entry.2) :
    fraction * total entries ≤ total entries := by
  have positive : 0 ≤ total entries := by
    apply List.sum_nonneg
    intro weight member
    obtain ⟨entry, listed, rfl⟩ := List.mem_map.mp member
    exact nonneg entry listed
  exact mul_le_of_le_one_left positive below

/-- `Vec::swap_remove`: the last element takes the place of the removed one. -/
def swapRemove (items : List α) (index : Nat) : List α :=
  match items.getLast? with
  | none => []
  | some last => (items.set index last).dropLast

theorem cons_swapRemove_perm {items : List α} {index : Nat} {item : α}
    (present : items[index]? = some item) :
    (item :: swapRemove items index).Perm items := by
  obtain ⟨within, rfl⟩ := List.getElem?_eq_some_iff.mp present
  have nonempty : items ≠ [] := List.ne_nil_of_length_pos
    (Nat.lt_of_le_of_lt (Nat.zero_le index) within)
  obtain ⟨front, last, rfl⟩ :=
    (List.eq_nil_or_concat' items).resolve_left nonempty
  rw [swapRemove, List.getLast?_concat]
  simp only
  rw [List.length_append, List.length_singleton] at within
  by_cases inFront : index < front.length
  · rw [List.set_append_left _ _ inFront, List.dropLast_concat,
      List.getElem_append_left inFront]
    have replaced := List.set_perm_cons_eraseIdx inFront last
    calc
      List.Perm (front[index] :: front.set index last)
          (front[index] :: last :: front.eraseIdx index) := replaced.cons _
      List.Perm _ (last :: front[index] :: front.eraseIdx index) :=
        List.Perm.swap _ _ _
      List.Perm _ (last :: front) :=
        (List.getElem_cons_eraseIdx_perm inFront).cons last
      List.Perm _ (front ++ [last]) :=
        (List.perm_append_singleton last front).symm
  · have same : index = front.length := by omega
    subst same
    rw [List.set_append_right _ _ (Nat.le_refl _), Nat.sub_self,
      List.set_cons_zero, List.dropLast_concat, List.getElem_concat_length rfl]
    exact (List.perm_append_singleton last front).symm

/-- Different positions of a list without repetition give different items of
it. -/
theorem nodup_of_positions {items read : List α} {positions : List Nat}
    (distinct : items.Nodup) (different : positions.Nodup)
    (same : read.map some = positions.map fun index => items[index]?) :
    read.Nodup ∧ ∀ item ∈ read, item ∈ items := by
  have taken : ∀ index ∈ positions, ∃ item ∈ read,
      items[index]? = some item := by
    intro index member
    have listed : items[index]? ∈ read.map some := by
      rw [same]
      exact List.mem_map.mpr ⟨index, member, rfl⟩
    obtain ⟨item, inRead, present⟩ := List.mem_map.mp listed
    exact ⟨item, inRead, present.symm⟩
  constructor
  · apply List.Nodup.of_map some
    rw [same]
    apply List.Nodup.map_on ?_ different
    intro left inLeft right inRight equal
    obtain ⟨item, -, present⟩ := taken left inLeft
    have within := (List.getElem?_eq_some_iff.mp present).1
    exact (List.getElem?_inj within distinct).mp equal
  · intro item member
    have listed : some item ∈ positions.map fun index => items[index]? := by
      rw [← same]
      exact List.mem_map.mpr ⟨item, member, rfl⟩
    obtain ⟨index, -, present⟩ := List.mem_map.mp listed
    exact List.mem_of_getElem? present

end WeightedDraw
