import Mathlib.Data.Finset.Card
import Mathlib.Tactic.Common

/-!
# Distinct draws

Draws from a finite set, one after the other, may repeat.  They show as many
members as they can, all of the set or a new one with each draw, when no draw
that is needed for it repeats an earlier one.
-/

namespace DistinctDraws

variable {α : Type*} [DecidableEq α]

/-- While no more draws are left than members that have not been drawn, the
next draw is a new one. -/
def Fresh (size : Nat) : List α → List α → Prop
  | _, [] => True
  | earlier, draw :: later =>
      (later.length + 1 ≤ size - earlier.toFinset.card → draw ∉ earlier) ∧
        Fresh size (earlier ++ [draw]) later

instance Fresh.decidable (size : Nat) (earlier draws : List α) :
    Decidable (Fresh size earlier draws) :=
  match draws with
  | [] => isTrue trivial
  | _ :: later => @instDecidableAnd _ _ _ (decidable size _ later)

theorem card_append_le (earlier draws : List α) :
    (earlier ++ draws).toFinset.card ≤
      earlier.toFinset.card + draws.length := by
  rw [List.toFinset_append]
  calc
    (earlier.toFinset ∪ draws.toFinset).card ≤
        earlier.toFinset.card + draws.toFinset.card := Finset.card_union_le _ _
    _ ≤ earlier.toFinset.card + draws.length :=
      Nat.add_le_add_left (List.toFinset_card_le draws) _

theorem card_concat_of_mem {earlier : List α} {draw : α}
    (repeated : draw ∈ earlier) :
    (earlier ++ [draw]).toFinset.card = earlier.toFinset.card := by
  rw [List.toFinset_append, List.toFinset_cons, List.toFinset_nil,
    Finset.union_eq_left.mpr]
  intro other member
  rw [Finset.mem_insert] at member
  rcases member with rfl | none
  · exact List.mem_toFinset.mpr repeated
  · exact (Finset.notMem_empty other none).elim

theorem card_concat_of_notMem {earlier : List α} {draw : α}
    (fresh : draw ∉ earlier) :
    (earlier ++ [draw]).toFinset.card = earlier.toFinset.card + 1 := by
  have notMember : draw ∉ earlier.toFinset :=
    fun member => fresh (List.mem_toFinset.mp member)
  rw [List.toFinset_append, List.toFinset_cons, List.toFinset_nil,
    Finset.union_comm, insert_empty_eq, ← Finset.insert_eq,
    Finset.card_insert_of_notMem notMember]

/-- Draws show as many members of the set as they can exactly when they are
fresh where they have to be. -/
theorem card_eq_iff_fresh {active : Finset α} {earlier draws : List α}
    (within : ∀ draw ∈ earlier ++ draws, draw ∈ active) :
    (earlier ++ draws).toFinset.card =
        earlier.toFinset.card +
          min draws.length (active.card - earlier.toFinset.card) ↔
      Fresh active.card earlier draws := by
  induction draws generalizing earlier with
  | nil =>
      rw [List.append_nil, List.length_nil, Nat.zero_min, Nat.add_zero]
      exact iff_of_true rfl trivial
  | cons draw later ih =>
      have split : earlier ++ draw :: later = (earlier ++ [draw]) ++ later := by
        rw [List.append_assoc, List.singleton_append]
      rw [split] at within
      have step := ih within
      have most := card_append_le (earlier ++ [draw]) later
      have inside : (earlier ++ [draw]).toFinset.card ≤ active.card := by
        apply Finset.card_le_card
        intro other member
        exact within other
          (List.mem_append_left later (List.mem_toFinset.mp member))
      rw [Fresh, ← step, split, List.length_cons]
      by_cases repeated : draw ∈ earlier
      · -- The count stands still, which only spare draws can afford.
        rw [card_concat_of_mem repeated] at most inside ⊢
        by_cases needed :
            later.length + 1 ≤ active.card - earlier.toFinset.card
        · refine iff_of_false (by omega) ?_
          intro facts
          exact facts.1 needed repeated
        · constructor
          · intro counted
            refine ⟨fun isNeeded => absurd isNeeded needed, ?_⟩
            omega
          · intro facts
            have counted := facts.2
            omega
      · rw [card_concat_of_notMem repeated] at most inside ⊢
        constructor
        · intro counted
          refine ⟨fun _ => repeated, ?_⟩
          omega
        · intro facts
          have counted := facts.2
          omega

end DistinctDraws
