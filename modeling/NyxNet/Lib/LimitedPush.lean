import Mathlib.Data.List.Basic
import Mathlib.Data.List.Nodup
import Mathlib.Tactic.Common

/-!
# Pushing up to a limit

A loop that pushes what it makes of its items and stops as soon as the list that
it pushes to is full.  The limit is tested after a push, so that the list may be
full from the start and still grow by one.  What the loop leaves is the front of
what it would leave without a limit.
-/

namespace LimitedPush

variable {α β κ : Type*} (push : List β → α → Option β)

/-- The loop without a limit. -/
def pushAll : List β → List α → List β
  | pushed, [] => pushed
  | pushed, item :: items =>
      match push pushed item with
      | none => pushAll pushed items
      | some new => pushAll (pushed ++ [new]) items

def pushUpTo (limit : Nat) : List β → List α → List β
  | pushed, [] => pushed
  | pushed, item :: items =>
      match push pushed item with
      | none => pushUpTo limit pushed items
      | some new =>
          if limit ≤ (pushed ++ [new]).length then
            pushed ++ [new]
          else
            pushUpTo limit (pushed ++ [new]) items

variable {push} {limit : Nat} {pushed : List β} {items : List α}

theorem prefix_pushAll : pushed <+: pushAll push pushed items := by
  induction items generalizing pushed with
  | nil => exact List.prefix_rfl
  | cons item items ih =>
      rw [pushAll]
      cases push pushed item with
      | none => exact ih
      | some new => exact (List.prefix_append pushed [new]).trans ih

/-- The limit cuts off what the loop would push behind it. -/
theorem pushUpTo_eq_take :
    pushUpTo push limit pushed items =
      (pushAll push pushed items).take (max (pushed.length + 1) limit) := by
  induction items generalizing pushed with
  | nil =>
      have short : pushed.length ≤ max (pushed.length + 1) limit := by omega
      exact (List.take_of_length_le short).symm
  | cons item items ih =>
      rw [pushUpTo, pushAll]
      cases push pushed item with
      | none => exact ih
      | some new =>
          have length : (pushed ++ [new]).length = pushed.length + 1 :=
            List.length_append
          simp only
          split
          · next full =>
              have cut : max (pushed.length + 1) limit =
                  (pushed ++ [new]).length := by omega
              rw [cut]
              exact List.prefix_iff_eq_take.mp prefix_pushAll
          · next room =>
              have limits : max ((pushed ++ [new]).length + 1) limit =
                  max (pushed.length + 1) limit := by omega
              rw [ih, limits]

theorem length_pushUpTo_le :
    (pushUpTo push limit pushed items).length ≤
      max (pushed.length + 1) limit := by
  rw [pushUpTo_eq_take]
  exact List.length_take_le _ _

theorem mem_pushAll_of_mem_pushUpTo {entry : β}
    (member : entry ∈ pushUpTo push limit pushed items) :
    entry ∈ pushAll push pushed items := by
  rw [pushUpTo_eq_take] at member
  exact List.mem_of_mem_take member

/-- What is pushed was made of an item. -/
theorem mem_pushAll {entry : β} (member : entry ∈ pushAll push pushed items) :
    entry ∈ pushed ∨
      ∃ item ∈ items, ∃ before, push before item = some entry := by
  induction items generalizing pushed with
  | nil => exact .inl member
  | cons item items ih =>
      rw [pushAll] at member
      cases made : push pushed item with
      | none =>
          rw [made] at member
          obtain old | ⟨other, otherMember, others⟩ := ih member
          · exact .inl old
          · exact .inr ⟨other, List.mem_cons_of_mem _ otherMember, others⟩
      | some new =>
          rw [made] at member
          obtain old | ⟨other, otherMember, others⟩ := ih member
          · obtain old | last := List.mem_append.mp old
            · exact .inl old
            · cases List.mem_singleton.mp last
              exact .inr ⟨item, List.mem_cons_self, pushed, made⟩
          · exact .inr ⟨other, List.mem_cons_of_mem _ otherMember, others⟩

/-- A loop that looks at nothing but its item. -/
theorem pushAll_filterMap (make : α → Option β) :
    pushAll (fun _ => make) pushed items =
      pushed ++ items.filterMap make := by
  induction items generalizing pushed with
  | nil => rw [pushAll, List.filterMap_nil, List.append_nil]
  | cons item items ih =>
      rw [pushAll]
      cases made : make item with
      | none => rw [ih, List.filterMap_cons_none made]
      | some new =>
          simp only [ih, List.filterMap_cons_some made, List.append_assoc,
            List.singleton_append]

variable [DecidableEq κ] (key : α → κ)

/-- The item, unless there is one with its key already. -/
def unknown (known : List α) (item : α) : Option α :=
  if known.any fun other => key other = key item then none else some item

variable {key} {known : List α} {item entry : α}

theorem unknown_eq_some_iff :
    unknown key known item = some entry ↔
      item = entry ∧ key entry ∉ known.map key := by
  unfold unknown
  split
  · next found =>
      obtain ⟨other, member, same⟩ := List.any_eq_true.mp found
      constructor
      · intro nothing
        cases nothing
      · rintro ⟨rfl, absent⟩
        exact absurd (List.mem_map.mpr ⟨other, member, of_decide_eq_true same⟩)
          absent
  · next missing =>
      constructor
      · intro made
        cases made
        refine ⟨rfl, ?_⟩
        intro present
        obtain ⟨other, member, same⟩ := List.mem_map.mp present
        exact missing
          (List.any_eq_true.mpr ⟨other, member, decide_eq_true same⟩)
      · rintro ⟨rfl, -⟩
        rfl

theorem nodup_pushAll_unknown (distinct : (known.map key).Nodup) :
    ((pushAll (unknown key) known items).map key).Nodup := by
  induction items generalizing known with
  | nil => exact distinct
  | cons item items ih =>
      rw [pushAll]
      cases made : unknown key known item with
      | none => exact ih distinct
      | some new =>
          apply ih
          rw [List.map_append, List.map_singleton, ← List.concat_eq_append]
          exact distinct.concat (unknown_eq_some_iff.mp made).2

theorem nodup_pushUpTo_unknown (distinct : (known.map key).Nodup) :
    ((pushUpTo (unknown key) limit known items).map key).Nodup := by
  rw [pushUpTo_eq_take, List.map_take]
  exact (nodup_pushAll_unknown distinct).sublist (List.take_sublist _ _)

theorem mem_of_mem_pushAll_unknown
    (member : entry ∈ pushAll (unknown key) known items) :
    entry ∈ known ∨ entry ∈ items := by
  obtain old | ⟨item, itemMember, before, made⟩ := mem_pushAll member
  · exact .inl old
  · cases (unknown_eq_some_iff.mp made).1
    exact .inr itemMember

/-- Of distinct items the loop pushes those that are unknown at its start. -/
theorem pushAll_unknown_of_nodup (distinct : (items.map key).Nodup) :
    pushAll (unknown key) known items =
      known ++ items.filter fun item => key item ∉ known.map key := by
  induction items generalizing known with
  | nil => exact (List.append_nil known).symm
  | cons item items ih =>
      obtain ⟨first, rest⟩ := List.nodup_cons.mp distinct
      rw [pushAll]
      cases made : unknown key known item with
      | none =>
          have present : key item ∈ known.map key := by
            by_contra absent
            rw [unknown_eq_some_iff.mpr ⟨rfl, absent⟩] at made
            cases made
          rw [List.filter_cons_of_neg (by simpa using present)]
          exact ih rest
      | some new =>
          obtain ⟨rfl, absent⟩ := unknown_eq_some_iff.mp made
          have others : ∀ other ∈ items,
              decide (key other ∉ (known ++ [item]).map key) =
                decide (key other ∉ known.map key) := by
            intro other member
            have different : key other ≠ key item := by
              intro same
              exact first (List.mem_map.mpr ⟨other, member, same⟩)
            simp only [List.map_append, List.map_singleton, List.mem_append,
              List.mem_singleton, different, or_false]
          rw [List.filter_cons_of_pos (by simpa using absent)]
          refine (ih rest).trans ?_
          rw [List.filter_congr others, List.append_assoc, List.singleton_append]

/-- As many of them as there is room for, and one where there is none. -/
theorem pushUpTo_unknown_of_nodup (distinct : (items.map key).Nodup) :
    pushUpTo (unknown key) limit known items =
      known ++ (items.filter fun item => key item ∉ known.map key).take
        (max 1 (limit - known.length)) := by
  have room : max (known.length + 1) limit - known.length =
      max 1 (limit - known.length) := by omega
  have enough : known.length ≤ max (known.length + 1) limit := by omega
  rw [pushUpTo_eq_take, pushAll_unknown_of_nodup distinct,
    List.take_append, List.take_of_length_le enough, room]

end LimitedPush
