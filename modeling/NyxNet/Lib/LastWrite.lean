import Mathlib.Data.List.Chain
import Mathlib.Data.List.Induction
import Mathlib.Tactic.Common

/-!
# Tables where the last write wins

A table that is only ever written to holds under every key the last value
written under it.  What a run of such a table does to the values of a key is
then a matter of the order in which that key is written.
-/

namespace LastWrite

variable {κ α ι : Type*} [BEq κ] [LawfulBEq κ] [Hashable κ]

/-- The values written under a key, in order. -/
def writesTo (key : κ) (writes : List (κ × α)) : List α :=
  (writes.filter (fun write => write.1 == key)).map Prod.snd

/-- The table after the writes. -/
def apply (table : Std.ExtHashMap κ α) (writes : List (κ × α)) :
    Std.ExtHashMap κ α :=
  writes.foldl (fun table write => table.insert write.1 write.2) table

theorem apply_cons (table : Std.ExtHashMap κ α) (write : κ × α)
    (writes : List (κ × α)) :
    apply table (write :: writes) =
      apply (table.insert write.1 write.2) writes := rfl

theorem apply_append (table : Std.ExtHashMap κ α)
    (earlier later : List (κ × α)) :
    apply table (earlier ++ later) = apply (apply table earlier) later :=
  List.foldl_append

omit [LawfulBEq κ] [Hashable κ] in
theorem writesTo_append (key : κ) (earlier later : List (κ × α)) :
    writesTo key (earlier ++ later) =
      writesTo key earlier ++ writesTo key later := by
  rw [writesTo, List.filter_append, List.map_append]
  rfl

theorem lookup_apply (table : Std.ExtHashMap κ α) (writes : List (κ × α))
    (key : κ) :
    (apply table writes)[key]? =
      (writesTo key writes).getLast?.or table[key]? := by
  induction writes using List.reverseRecOn with
  | nil => rfl
  | append_singleton writes write ih =>
      rw [apply_append, writesTo_append]
      simp only [apply, List.foldl_cons, List.foldl_nil,
        Std.ExtHashMap.getElem?_insert]
      by_cases same : write.1 == key
      · simp [writesTo, same]
      · simp only [apply] at ih
        simp [writesTo, same, ih]

/-- All the values that a key has had, in order. -/
def valuesOf (table : Std.ExtHashMap κ α) (writes : List (κ × α)) (key : κ) :
    List α :=
  table[key]?.toList ++ writesTo key writes

theorem valuesOf_concat_of_beq {entry : κ × α} {key : κ}
    (same : entry.1 == key) (table : Std.ExtHashMap κ α)
    (writes : List (κ × α)) :
    valuesOf table (writes ++ [entry]) key =
      valuesOf table writes key ++ [entry.2] := by
  rw [valuesOf, writesTo_append, ← List.append_assoc]
  congr 1
  simp [writesTo, same]

theorem valuesOf_concat_of_not_beq {entry : κ × α} {key : κ}
    (different : ¬ entry.1 == key) (table : Std.ExtHashMap κ α)
    (writes : List (κ × α)) :
    valuesOf table (writes ++ [entry]) key = valuesOf table writes key := by
  rw [valuesOf, writesTo_append, ← List.append_assoc]
  simp [writesTo, different, valuesOf]

theorem lookup_apply_valuesOf (table : Std.ExtHashMap κ α)
    (writes : List (κ × α)) (key : κ) :
    (apply table writes)[key]? = (valuesOf table writes key).getLast? := by
  rw [lookup_apply, valuesOf, List.getLast?_append]
  congr 1
  cases table[key]? <;> rfl

section Replacement

variable {related : α → α → Prop} {written : ι → Option (κ × α)}

/-- Whenever an input of the run replaces the value of a key, the old and the
new value are related. -/
def Replaces (related : α → α → Prop) (written : ι → Option (κ × α))
    (table : Std.ExtHashMap κ α) (inputs : List ι) : Prop :=
  ∀ before input, before ++ [input] <+: inputs → ∀ (key : κ) (old new : α),
    (apply table (before.filterMap written))[key]? = some old →
      (apply table ((before ++ [input]).filterMap written))[key]? = some new →
        related old new

theorem replaces_concat_iff {table : Std.ExtHashMap κ α} {inputs : List ι}
    {input : ι} :
    Replaces related written table (inputs ++ [input]) ↔
      Replaces related written table inputs ∧ ∀ (key : κ) (old new : α),
        (apply table (inputs.filterMap written))[key]? = some old →
          (apply table ((inputs ++ [input]).filterMap written))[key]? =
              some new → related old new := by
  constructor
  · intro replaces
    refine ⟨?_, replaces inputs input (List.prefix_refl _)⟩
    intro before earlier isPrefix
    exact replaces before earlier
      (isPrefix.trans (List.prefix_append inputs [input]))
  · intro both before last isPrefix
    obtain ⟨replaces, atEnd⟩ := both
    rcases List.prefix_concat_iff.mp isPrefix with whole | shorter
    · obtain ⟨rfl, same⟩ := List.append_inj' whole rfl
      obtain rfl := List.singleton_inj.mp same
      exact atEnd
    · exact replaces before last shorter

theorem isChain_concat_iff {values : List α} {value : α} :
    (values ++ [value]).IsChain related ↔
      values.IsChain related ∧
        ∀ old, values.getLast? = some old → related old value := by
  rw [List.isChain_append]
  simp

/-- The relation holds exactly when the values of every key come in related
order. -/
theorem replaces_iff (reflexive : ∀ value, related value value)
    (table : Std.ExtHashMap κ α) (inputs : List ι) :
    Replaces related written table inputs ↔
      ∀ key, (valuesOf table (inputs.filterMap written) key).IsChain
        related := by
  induction inputs using List.reverseRecOn with
  | nil =>
      constructor
      · intro _ key
        rw [List.filterMap_nil, valuesOf, writesTo]
        cases table[key]? <;> simp
      · intro _ before input isPrefix
        simp at isPrefix
  | append_singleton inputs input ih =>
      rw [replaces_concat_iff, ih, List.filterMap_append]
      cases write : written input with
      | none =>
          rw [List.filterMap_cons_none write, List.filterMap_nil,
            List.append_nil]
          refine and_iff_left ?_
          intro key old new before after
          rw [before] at after
          rw [Option.some.inj after]
          exact reflexive new
      | some entry =>
          rw [List.filterMap_cons_some write, List.filterMap_nil,
            ← forall_and]
          refine forall_congr' fun key => ?_
          by_cases same : entry.1 == key
          · simp only [lookup_apply_valuesOf, valuesOf_concat_of_beq same,
              isChain_concat_iff, List.getLast?_concat, Option.some.injEq]
            refine and_congr Iff.rfl (forall_congr' fun old => ?_)
            constructor
            · intro atEnd last
              exact atEnd entry.2 last rfl
            · intro atEnd new last same
              rw [← same]
              exact atEnd last
          · simp only [lookup_apply_valuesOf, valuesOf_concat_of_not_beq same]
            refine and_iff_left ?_
            intro old new before after
            rw [before] at after
            rw [Option.some.inj after]
            exact reflexive new

end Replacement

end LastWrite
