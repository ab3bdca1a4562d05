import Mathlib.Data.Finset.Card
import Mathlib.Order.Lattice.Nat
import Mathlib.Tactic.Common

/-!
# In-order delivery of numbered items

Items carry consecutive numbers from `start` on and arrive in any order, some
of them more than once.  Whatever a receiver looks like, the items it can have
released are those below the first number still missing, and what has arrived
beyond that number is waiting.
-/

namespace InOrder

/-- The first number from `start` on that has not arrived. -/
noncomputable def firstMissing (start : Nat) (arrived : List Nat) : Nat :=
  sInf {number | start ≤ number ∧ number ∉ arrived}

/-- The numbers that have arrived and wait for an earlier one. -/
noncomputable def waiting (start : Nat) (arrived : List Nat) : Finset Nat :=
  arrived.toFinset.filter (firstMissing start arrived < ·)

/-- An output stream holds, in order, one supplied item for every number from
`start` on. -/
def Consecutive {α : Type*} (start : Nat) (supplied : Nat → α → Prop)
    (output : List α) : Prop :=
  ∀ position item, output[position]? = some item →
    supplied (start + position) item

theorem firstMissing_eq {start next : Nat} {arrived : List Nat}
    (reached : start ≤ next) (missing : next ∉ arrived)
    (filled : ∀ number, start ≤ number → number < next → number ∈ arrived) :
    firstMissing start arrived = next := by
  apply Nat.le_antisymm
  · exact Nat.sInf_le ⟨reached, missing⟩
  · have attained := Nat.sInf_mem
      (s := {number | start ≤ number ∧ number ∉ arrived})
      ⟨next, reached, missing⟩
    apply Nat.le_of_not_lt
    intro earlier
    exact attained.2 (filled _ attained.1 earlier)

theorem card_waiting_le (start : Nat) (arrived : List Nat) :
    (waiting start arrived).card ≤ arrived.length := by
  calc
    (waiting start arrived).card ≤ arrived.toFinset.card :=
      Finset.card_filter_le _ _
    _ ≤ arrived.length := List.toFinset_card_le arrived

theorem Consecutive.append {α : Type*} {start : Nat}
    {supplied : Nat → α → Prop} {output more : List α}
    (first : Consecutive start supplied output)
    (second : Consecutive (start + output.length) supplied more) :
    Consecutive start supplied (output ++ more) := by
  intro position item found
  by_cases inFirst : position < output.length
  · rw [List.getElem?_append_left inFirst] at found
    exact first position item found
  · rw [List.getElem?_append_right (Nat.le_of_not_lt inFirst)] at found
    have shifted := second _ item found
    have position_eq : start + output.length + (position - output.length) =
        start + position := by omega
    rwa [position_eq] at shifted

theorem Consecutive.mono {α : Type*} {start : Nat}
    {supplied later : Nat → α → Prop} {output : List α}
    (consecutive : Consecutive start supplied output)
    (weaker : ∀ number item, supplied number item → later number item) :
    Consecutive start later output := by
  intro position item found
  exact weaker _ _ (consecutive position item found)

/-- A stream whose supplied items are functionally determined is the list of
those items. -/
theorem Consecutive.eq_of_unique {α : Type*} {start : Nat}
    {supplied : Nat → α → Prop} {output expected : List α}
    (consecutive : Consecutive start supplied output)
    (length : output.length = expected.length)
    (unique : ∀ position item, supplied (start + position) item →
      expected[position]? = some item) :
    output = expected := by
  apply List.ext_getElem?
  intro position
  cases found : output[position]? with
  | none =>
      rw [List.getElem?_eq_none_iff] at found
      rw [eq_comm, List.getElem?_eq_none_iff]
      omega
  | some item => exact (unique position item (consecutive position item found)).symm

end InOrder
