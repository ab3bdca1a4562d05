import Mathlib.Data.List.Nodup
import Mathlib.Data.List.Forall2
import Mathlib.Tactic.Common

/-!
# Items sorted into bounded buckets

A list of buckets in which every item sits in the bucket that its key
prescribes.  Keys that are distinct within each bucket are then distinct over
all buckets.  `pushRecent` is the usual way to use a bucket: an item that is
already there moves to the end, and a full bucket makes room at its front.
-/

namespace Buckets

variable {α κ : Type}

/-- Every item is in the bucket of its key, keys are distinct within a bucket
and no bucket exceeds the bound. -/
structure Tidy (key : α → κ) (place : κ → Nat) (bound : Nat)
    (buckets : List (List α)) : Prop where
  placed : ∀ (index : Nat) (bucket : List α),
    buckets[index]? = some bucket → ∀ item ∈ bucket, place (key item) = index
  distinct : ∀ bucket ∈ buckets, (bucket.map key).Nodup
  bounded : ∀ bucket ∈ buckets, bucket.length ≤ bound

variable {key : α → κ} {place : κ → Nat} {bound : Nat}
  {buckets : List (List α)}

theorem tidy_replicate_nil (key : α → κ) (place : κ → Nat) (bound count : Nat) :
    Tidy key place bound (List.replicate count []) := by
  constructor
  · intro index bucket found item member
    have empty := List.eq_of_mem_replicate (List.mem_of_getElem? found)
    rw [empty] at member
    cases member
  · intro bucket member
    rw [List.eq_of_mem_replicate member]
    exact List.nodup_nil
  · intro bucket member
    rw [List.eq_of_mem_replicate member]
    exact Nat.zero_le bound

/-- Distinct in every bucket, hence distinct over all buckets: two buckets
cannot share a key. -/
theorem Tidy.nodup_flatten (tidy : Tidy key place bound buckets) :
    (buckets.flatten.map key).Nodup := by
  rw [List.map_flatten, List.nodup_flatten]
  constructor
  · intro keys member
    obtain ⟨bucket, inBuckets, rfl⟩ := List.mem_map.mp member
    exact tidy.distinct bucket inBuckets
  · rw [List.pairwise_iff_getElem]
    intro left right leftBound rightBound less
    rw [List.length_map] at leftBound rightBound
    rw [List.getElem_map, List.getElem_map]
    intro shared inLeft inRight
    obtain ⟨leftItem, leftMember, rfl⟩ := List.mem_map.mp inLeft
    obtain ⟨rightItem, rightMember, sameKey⟩ := List.mem_map.mp inRight
    have leftPlace := tidy.placed left _ (List.getElem?_eq_getElem leftBound)
      leftItem leftMember
    have rightPlace := tidy.placed right _
      (List.getElem?_eq_getElem rightBound) rightItem rightMember
    rw [sameKey, leftPlace] at rightPlace
    omega

/-- One bucket is replaced by another that fits its place. -/
theorem Tidy.set (tidy : Tidy key place bound buckets) {index : Nat}
    {bucket : List α} (placed : ∀ item ∈ bucket, place (key item) = index)
    (distinct : (bucket.map key).Nodup) (bounded : bucket.length ≤ bound) :
    Tidy key place bound (buckets.set index bucket) := by
  constructor
  · intro other found foundAt item member
    rw [List.getElem?_set] at foundAt
    split at foundAt
    · next same =>
        split at foundAt
        · cases foundAt
          rw [← same]
          exact placed item member
        · cases foundAt
    · exact tidy.placed other found foundAt item member
  · intro found member
    rcases List.mem_or_eq_of_mem_set member with old | new
    · exact tidy.distinct found old
    · rw [new]
      exact distinct
  · intro found member
    rcases List.mem_or_eq_of_mem_set member with old | new
    · exact tidy.bounded found old
    · rw [new]
      exact bounded

/-- Buckets that only lose items stay tidy. -/
theorem Tidy.filter (tidy : Tidy key place bound buckets) (keep : α → Bool) :
    Tidy key place bound (buckets.map (List.filter keep)) := by
  constructor
  · intro index bucket found item member
    rw [List.getElem?_map, Option.map_eq_some_iff] at found
    obtain ⟨old, oldFound, rfl⟩ := found
    exact tidy.placed index old oldFound item (List.mem_of_mem_filter member)
  · intro bucket member
    obtain ⟨old, oldMember, rfl⟩ := List.mem_map.mp member
    exact (tidy.distinct old oldMember).sublist
      (List.filter_sublist.map key)
  · intro bucket member
    obtain ⟨old, oldMember, rfl⟩ := List.mem_map.mp member
    exact Nat.le_trans (List.length_filter_le keep old)
      (tidy.bounded old oldMember)

/-- Only the keys matter. -/
theorem Tidy.congr {others : List (List α)}
    (tidy : Tidy key place bound buckets)
    (sameKeys : others.map (List.map key) = buckets.map (List.map key)) :
    Tidy key place bound others := by
  have counterpart : ∀ (index : Nat) (bucket : List α),
      others[index]? = some bucket →
        ∃ old, buckets[index]? = some old ∧
          bucket.map key = old.map key := by
    intro index bucket found
    have keys := congrArg (fun lists => lists[index]?) sameKeys
    simp only [List.getElem?_map, found, Option.map_some] at keys
    obtain ⟨old, oldFound, equal⟩ := Option.map_eq_some_iff.mp keys.symm
    exact ⟨old, oldFound, equal.symm⟩
  constructor
  · intro index bucket found item member
    obtain ⟨old, oldFound, equal⟩ := counterpart index bucket found
    have keyMember : key item ∈ old.map key := by
      rw [← equal]
      exact List.mem_map_of_mem member
    obtain ⟨oldItem, oldMember, sameKey⟩ := List.mem_map.mp keyMember
    rw [← sameKey]
    exact tidy.placed index old oldFound oldItem oldMember
  · intro bucket member
    obtain ⟨index, found⟩ := List.mem_iff_getElem?.mp member
    obtain ⟨old, oldFound, equal⟩ := counterpart index bucket found
    rw [equal]
    exact tidy.distinct old (List.mem_of_getElem? oldFound)
  · intro bucket member
    obtain ⟨index, found⟩ := List.mem_iff_getElem?.mp member
    obtain ⟨old, oldFound, equal⟩ := counterpart index bucket found
    have lengths := congrArg List.length equal
    rw [List.length_map, List.length_map] at lengths
    rw [lengths]
    exact tidy.bounded old (List.mem_of_getElem? oldFound)

section Recent

variable [DecidableEq κ]

/-- The items of a bucket with other keys, in their order. -/
def withoutKey (key : α → κ) (bucket : List α) (item : α) : List α :=
  bucket.filter (fun other => key other ≠ key item)

/-- An item goes to the end of its bucket; a full bucket loses its first
item. -/
def pushRecent (key : α → κ) (bound : Nat) (bucket : List α) (item : α) :
    List α :=
  let others := withoutKey key bucket item
  (if others.length < bound then others else others.tail) ++ [item]

theorem withoutKey_of_absent {bucket : List α} {item : α}
    (absent : ∀ other ∈ bucket, key other ≠ key item) :
    withoutKey key bucket item = bucket := by
  rw [withoutKey, List.filter_eq_self]
  intro other member
  exact decide_eq_true (absent other member)

theorem length_withoutKey_lt {bucket : List α} {item other : α}
    (member : other ∈ bucket) (sameKey : key other = key item) :
    (withoutKey key bucket item).length < bucket.length := by
  apply List.length_filter_lt_length_iff_exists.mpr
  exact ⟨other, member, by simp [sameKey]⟩

/-- What is pushed out: nothing, or the first item of a full bucket that does
not hold the key yet. -/
theorem pushRecent_spec (key : α → κ) {bucket : List α} (item : α)
    (positive : 1 ≤ bound) (bounded : bucket.length ≤ bound) :
    ∃ dropped kept, withoutKey key bucket item = dropped ++ kept ∧
      pushRecent key bound bucket item = kept ++ [item] ∧
      kept.length < bound ∧ dropped.length ≤ 1 ∧
      (dropped ≠ [] →
        (∀ other ∈ bucket, key other ≠ key item) ∧ bucket.length = bound) := by
  have shorter : (withoutKey key bucket item).length ≤ bucket.length :=
    List.length_filter_le _ bucket
  by_cases room : (withoutKey key bucket item).length < bound
  · refine ⟨[], withoutKey key bucket item, rfl, ?_, room, Nat.zero_le 1, ?_⟩
    · simp only [pushRecent, if_pos room]
    · intro nonempty
      exact absurd rfl nonempty
  · have absent : ∀ other ∈ bucket, key other ≠ key item := by
      intro other member sameKey
      have less := length_withoutKey_lt member sameKey
      omega
    rw [withoutKey_of_absent absent] at room ⊢
    have full : bucket.length = bound := by omega
    cases bucket with
    | nil =>
        simp only [List.length_nil] at full
        omega
    | cons first rest =>
        refine ⟨[first], rest, rfl, ?_, ?_, Nat.le_refl 1, ?_⟩
        · simp only [pushRecent, withoutKey_of_absent absent, if_neg room,
            List.tail_cons]
        · simp only [List.length_cons] at full
          omega
        · intro _
          exact ⟨absent, full⟩

theorem mem_of_mem_withoutKey {bucket : List α} {item other : α}
    (member : other ∈ withoutKey key bucket item) :
    other ∈ bucket ∧ key other ≠ key item := by
  have facts := List.mem_filter.mp member
  exact ⟨facts.1, of_decide_eq_true facts.2⟩

/-- Pushing an item into the bucket of its key keeps the buckets tidy. -/
theorem Tidy.pushRecent (tidy : Tidy key place bound buckets)
    (positive : 1 ≤ bound) {bucket : List α} (item : α)
    (found : buckets[place (key item)]? = some bucket) :
    Tidy key place bound
      (buckets.set (place (key item))
        (Buckets.pushRecent key bound bucket item)) := by
  have member := List.mem_of_getElem? found
  obtain ⟨dropped, kept, split, pushed, room, -⟩ :=
    pushRecent_spec key item positive (tidy.bounded bucket member)
  have fromBucket : ∀ other ∈ kept,
      other ∈ bucket ∧ key other ≠ key item := by
    intro other inKept
    apply mem_of_mem_withoutKey
    rw [split]
    exact List.mem_append_right dropped inKept
  rw [pushed]
  apply tidy.set
  · intro other inNew
    rcases List.mem_append.mp inNew with old | new
    · exact tidy.placed _ bucket found other (fromBucket other old).1
    · rw [List.mem_singleton.mp new]
  · rw [List.map_append, List.map_singleton, List.nodup_append]
    refine ⟨?_, List.nodup_singleton _, ?_⟩
    · have keptSublist : kept.Sublist bucket := by
        refine List.Sublist.trans (List.sublist_append_right dropped kept) ?_
        rw [← split]
        exact List.filter_sublist
      exact (tidy.distinct bucket member).sublist (keptSublist.map key)
    · intro left isOld right isKey sameKey
      obtain ⟨other, inKept, rfl⟩ := List.mem_map.mp isOld
      rw [List.mem_singleton.mp isKey] at sameKey
      exact (fromBucket other inKept).2 sameKey
  · rw [List.length_append, List.length_singleton]
    omega

end Recent

end Buckets
