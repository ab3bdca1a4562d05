import Mathlib.Data.List.Induction
import Mathlib.Data.List.Sort
import Mathlib.Order.Basic
import Mathlib.Tactic.Common

/-!
# Stable sorts

A stable sort by a key is the only sorted list that keeps the items of every key
in their order.  The place of an item in it can be told from the list before the
sort: in front of it are the items with a smaller key, and those with the same
key that were in front of it before.
-/

namespace StableSort

variable {α κ ν : Type*} [LinearOrder κ] [LinearOrder ν]

/-- The stable sort by a key. -/
def sortBy (key : α → κ) (items : List α) : List α :=
  items.mergeSort fun left right => key left ≤ key right

/-- How many items come in front of one with `front` in front of it. -/
def ahead (key : α → κ) (items front : List α) (item : α) : Nat :=
  items.countP (fun other => key other < key item) +
    front.countP (fun other => key other = key item)

variable {key : α → κ} {items : List α}

theorem sortBy_perm (key : α → κ) (items : List α) :
    (sortBy key items).Perm items :=
  List.mergeSort_perm items _

theorem mem_sortBy {item : α} : item ∈ sortBy key items ↔ item ∈ items :=
  List.mem_mergeSort

theorem length_sortBy (key : α → κ) (items : List α) :
    (sortBy key items).length = items.length :=
  List.length_mergeSort items

theorem transitive (key : α → κ) (first second third : α)
    (below : decide (key first ≤ key second) = true)
    (above : decide (key second ≤ key third) = true) :
    decide (key first ≤ key third) = true :=
  decide_eq_true (le_trans (of_decide_eq_true below) (of_decide_eq_true above))

theorem total (key : α → κ) (first second : α) :
    (decide (key first ≤ key second) || decide (key second ≤ key first)) =
      true := by
  rcases le_total (key first) (key second) with below | above
  · rw [decide_eq_true below, Bool.true_or]
  · rw [decide_eq_true above, Bool.or_true]

theorem pairwise_sortBy (key : α → κ) (items : List α) :
    (sortBy key items).Pairwise fun left right => key left ≤ key right :=
  (List.pairwise_mergeSort (transitive key) (total key) items).imp
    of_decide_eq_true

/-- The items of one key stay in their order. -/
theorem filter_sortBy (key : α → κ) (items : List α) (value : κ) :
    (sortBy key items).filter (fun item => key item = value) =
      items.filter (fun item => key item = value) := by
  have level : (items.filter (fun item => key item = value)).Pairwise
      fun left right => decide (key left ≤ key right) = true := by
    rw [List.pairwise_iff_forall_sublist]
    intro left right both
    have leftKey := of_decide_eq_true
      (List.mem_filter.mp (both.subset List.mem_cons_self)).2
    have rightKey := of_decide_eq_true
      (List.mem_filter.mp (both.subset
        (List.mem_cons_of_mem left List.mem_cons_self))).2
    exact decide_eq_true (leftKey.trans rightKey.symm).le
  have kept := List.sublist_mergeSort (transitive key) (total key) level
    List.filter_sublist
  have among := kept.filter (fun item => decide (key item = value))
  rw [List.filter_filter] at among
  simp only [Bool.and_self] at among
  exact (among.eq_of_length
    ((sortBy_perm key items).filter _).length_eq.symm).symm

theorem mem_of_filter {left right : List α} {item : α}
    (same : ∀ value, left.filter (fun item => key item = value) =
      right.filter (fun item => key item = value)) (member : item ∈ left) :
    item ∈ right := by
  have kept : item ∈ left.filter (fun other => key other = key item) :=
    List.mem_filter.mpr ⟨member, decide_eq_true rfl⟩
  rw [same] at kept
  exact (List.mem_filter.mp kept).1

/-- A sorted list is determined by the items of every key. -/
theorem eq_of_filter {left right : List α}
    (leftSorted : left.Pairwise fun first second => key first ≤ key second)
    (rightSorted : right.Pairwise fun first second => key first ≤ key second)
    (same : ∀ value, left.filter (fun item => key item = value) =
      right.filter (fun item => key item = value)) : left = right := by
  induction left generalizing right with
  | nil =>
      cases right with
      | nil => rfl
      | cons first right =>
          have member := mem_of_filter (fun value => (same value).symm)
            (List.mem_cons_self : first ∈ first :: right)
          cases member
  | cons first left ih =>
      cases right with
      | nil =>
          have member := mem_of_filter same
            (List.mem_cons_self : first ∈ first :: left)
          cases member
      | cons head right =>
          rw [List.pairwise_cons] at leftSorted rightSorted
          have below : key first ≤ key head := by
            rcases List.mem_cons.mp (mem_of_filter
              (fun value => (same value).symm) List.mem_cons_self) with
              rfl | later
            · exact le_refl _
            · exact leftSorted.1 head later
          have above : key head ≤ key first := by
            rcases List.mem_cons.mp (mem_of_filter same List.mem_cons_self) with
              rfl | later
            · exact le_refl _
            · exact rightSorted.1 first later
          have sameKey := le_antisymm below above
          have heads :
              first :: left.filter (fun item => key item = key first) =
                head :: right.filter (fun item => key item = key first) := by
            simpa [List.filter_cons, sameKey] using same (key first)
          obtain ⟨rfl, tails⟩ := List.cons.inj heads
          rw [ih leftSorted.2 rightSorted.2]
          intro value
          by_cases isFirst : key first = value
          · rw [← isFirst]
            exact tails
          · have others := same value
            rw [List.filter_cons_of_neg (by simpa using isFirst),
              List.filter_cons_of_neg (by simpa using isFirst)] at others
            exact others

section Places

variable {before behind : List α} {item : α}

/-- In front of an item of the sorted list are the items with a smaller key and
some with its own. -/
theorem length_before
    (split : sortBy key items = before ++ item :: behind) :
    before.length = items.countP (fun other => key other < key item) +
      before.countP (fun other => key other = key item) := by
  have sorted := pairwise_sortBy key items
  rw [split, List.pairwise_append, List.pairwise_cons] at sorted
  obtain ⟨-, ⟨later, -⟩, across⟩ := sorted
  have smaller : items.countP (fun other => key other < key item) =
      before.countP (fun other => key other < key item) := by
    rw [← (sortBy_perm key items).countP_eq, split, List.countP_append]
    have none : (item :: behind).countP
        (fun other => key other < key item) = 0 := by
      rw [List.countP_eq_zero]
      intro other member
      rcases List.mem_cons.mp member with rfl | isLater
      · simp
      · simpa using later other isLater
    rw [none, Nat.add_zero]
  rw [smaller, List.length_eq_countP_add_countP
    (fun other => decide (key other < key item))]
  congr 1
  apply List.countP_congr
  intro other member
  have below := across other member item List.mem_cons_self
  simp only [decide_eq_true_eq, not_lt]
  constructor
  · intro above
    exact le_antisymm below above
  · intro same
    exact same.ge

/-- Two lists with the same items of a kind have the same of them in front of
one and behind it. -/
theorem exists_split_of_filter {kind : α → Bool} {left right : List α}
    (same : left.filter kind = right.filter kind)
    (split : left = before ++ item :: behind) (isKind : kind item = true) :
    ∃ front rest, right = front ++ item :: rest ∧
      front.filter kind = before.filter kind ∧
      rest.filter kind = behind.filter kind := by
  rw [split, List.filter_append, List.filter_cons, if_pos isKind] at same
  obtain ⟨front, others, whole, sameFront, atOthers⟩ :=
    List.filter_eq_append_iff.mp same.symm
  obtain ⟨middle, rest, others, none, -, sameRest⟩ :=
    List.filter_eq_cons_iff.mp atOthers
  refine ⟨front ++ middle, rest, ?_, ?_, sameRest⟩
  · rw [whole, others, List.append_assoc]
  · rw [List.filter_append, List.filter_eq_nil_iff.mpr none, List.append_nil,
      sameFront]

theorem ahead_eq {front : List α}
    (same : before.filter (fun other => key other = key item) =
      front.filter (fun other => key other = key item))
    (split : sortBy key items = before ++ item :: behind) :
    before.length = ahead key items front item := by
  rw [length_before split, List.countP_eq_length_filter,
    List.countP_eq_length_filter, same, ahead, List.countP_eq_length_filter,
    List.countP_eq_length_filter]

/-- Where an item comes from. -/
theorem exists_of_sortBy_split
    (split : sortBy key items = before ++ item :: behind) :
    ∃ front rest, items = front ++ item :: rest ∧
      before.length = ahead key items front item ∧
      before.filter (fun other => key other = key item) =
        front.filter (fun other => key other = key item) ∧
      behind.filter (fun other => key other = key item) =
        rest.filter (fun other => key other = key item) := by
  obtain ⟨front, rest, isSplit, sameFront, sameRest⟩ := exists_split_of_filter
    (filter_sortBy key items (key item)) split (decide_eq_true rfl)
  exact ⟨front, rest, isSplit, ahead_eq sameFront.symm split, sameFront.symm,
    sameRest.symm⟩

/-- Where an item goes to. -/
theorem exists_sortBy_split (key : α → κ) {front rest : List α}
    (split : items = front ++ item :: rest) :
    ∃ before behind, sortBy key items = before ++ item :: behind ∧
      before.length = ahead key items front item ∧
      before.filter (fun other => key other = key item) =
        front.filter (fun other => key other = key item) ∧
      behind.filter (fun other => key other = key item) =
        rest.filter (fun other => key other = key item) := by
  obtain ⟨before, behind, isSplit, sameFront, sameRest⟩ :=
    exists_split_of_filter (filter_sortBy key items (key item)).symm split
      (decide_eq_true rfl)
  exact ⟨before, behind, isSplit, ahead_eq sameFront isSplit, sameFront,
    sameRest⟩

end Places

/-- The first items of the list in order, and others in order that are not
smaller. -/
theorem pairwise_take_append {count : Nat} {rest : List α}
    (least : ∀ front item behind, items = front ++ item :: behind →
      front.length < count → ∀ other ∈ behind, key item ≤ key other)
    (sorted : rest.Pairwise fun left right => key left ≤ key right)
    (among : ∀ item ∈ rest, item ∈ items.drop count) :
    (items.take count ++ rest).Pairwise
      fun left right => key left ≤ key right := by
  induction items generalizing count with
  | nil => simpa using sorted
  | cons item items ih =>
      cases count with
      | zero => exact sorted
      | succ count =>
          rw [List.take_succ_cons, List.cons_append, List.pairwise_cons]
          constructor
          · intro other member
            refine least [] item items rfl (Nat.zero_lt_succ count) other ?_
            rcases List.mem_append.mp member with first | later
            · exact List.mem_of_mem_take first
            · exact List.mem_of_mem_drop (among other later)
          · apply ih
            · intro front first behind split inside
              exact least (item :: front) first behind (by rw [split]; rfl)
                (Nat.succ_lt_succ inside)
            · exact among

theorem sortBy_eq_take_append {count : Nat}
    (least : ∀ front item behind, items = front ++ item :: behind →
      front.length < count → ∀ other ∈ behind, key item ≤ key other) :
    sortBy key items = items.take count ++ sortBy key (items.drop count) := by
  apply eq_of_filter (pairwise_sortBy key items)
  · exact pairwise_take_append least (pairwise_sortBy key _)
      (fun item => mem_sortBy.mp)
  · intro value
    rw [List.filter_append, filter_sortBy, filter_sortBy, ← List.filter_append,
      List.take_append_drop]

/-- The first items of a list are those of its sort exactly when none of them
has an item with a smaller key behind it. -/
theorem take_sortBy_eq_iff (key : α → κ) (items : List α) (count : Nat) :
    (sortBy key items).take count = items.take count ↔
      ∀ front item behind, items = front ++ item :: behind →
        front.length < count → ∀ other ∈ behind, key item ≤ key other := by
  constructor
  · intro same front item behind split inside other member
    have whole := List.take_append_drop count (sortBy key items)
    have firsts : items.take count = front ++ item ::
        behind.take (count - front.length - 1) := by
      rw [split, List.take_append, List.take_of_length_le inside.le,
        List.take_cons (by omega)]
    rw [same, firsts, List.append_assoc, List.cons_append] at whole
    have sorted := pairwise_sortBy key items
    rw [← whole, List.pairwise_append, List.pairwise_cons] at sorted
    have permuted := (sortBy_perm key items).trans (List.Perm.of_eq split)
    rw [← whole, List.perm_append_left_iff, List.perm_cons] at permuted
    exact sorted.2.1.1 other (permuted.mem_iff.mpr member)
  · intro least
    rw [sortBy_eq_take_append least, List.take_append, List.take_take,
      min_self]
    rcases le_total count items.length with inside | beyond
    · rw [List.length_take_of_le inside, Nat.sub_self, List.take_zero,
        List.append_nil]
    · rw [List.drop_of_length_le beyond]
      simp [sortBy]

section Labels

variable {ι : Type*} {label : α → ι}

/-- A relation between every item and those behind it, by the places where the
list is divided. -/
theorem pairwise_iff_split {related : α → α → Prop} :
    items.Pairwise related ↔
      ∀ front item rest, items = front ++ item :: rest →
        ∀ other ∈ front, related other item := by
  constructor
  · intro pairwise front item rest split other member
    rw [split, List.pairwise_append] at pairwise
    exact pairwise.2.2 other member item List.mem_cons_self
  · intro splits
    induction items using List.reverseRecOn with
    | nil => exact List.Pairwise.nil
    | append_singleton items last ih =>
        rw [List.pairwise_append]
        refine ⟨ih ?_, List.pairwise_singleton _ _, ?_⟩
        · intro front item rest split
          exact splits front item (rest ++ [last]) (by rw [split]; simp)
        · intro other member item isLast
          rw [List.mem_singleton.mp isLast]
          exact splits items last [] rfl other member

/-- The nearest items have different labels exactly when every two items with
one label have enough items in front of the second. -/
theorem nodup_take_sortBy_iff
    (sameKey : ∀ left right : α, label left = label right →
      key left = key right) (items : List α) (count : Nat) :
    (((sortBy key items).take count).map label).Nodup ↔
      ∀ front item rest, items = front ++ item :: rest →
        ahead key items front item < count →
          ∀ other ∈ front, label other ≠ label item := by
  rw [List.Nodup, List.pairwise_map, pairwise_iff_split]
  constructor
  · intro different front item rest split inside other member same
    obtain ⟨before, behind, sorted, place, level, -⟩ :=
      exists_sortBy_split key split
    have kept : other ∈ front.filter (fun other => key other = key item) :=
      List.mem_filter.mpr ⟨member, decide_eq_true (sameKey other item same)⟩
    rw [← level] at kept
    refine different before item (behind.take (count - before.length - 1)) ?_
      other (List.mem_of_mem_filter kept) same
    rw [sorted, List.take_append, List.take_of_length_le (by omega),
      List.take_cons (by omega)]
  · intro different before item behind split other member same
    have whole : sortBy key items = before ++ item ::
        (behind ++ (sortBy key items).drop count) := by
      conv_lhs => rw [← List.take_append_drop count (sortBy key items), split]
      rw [List.append_assoc, List.cons_append]
    have inside : before.length < count := by
      have short := List.length_take_le count (sortBy key items)
      rw [split, List.length_append, List.length_cons] at short
      omega
    obtain ⟨front, rest, isSplit, place, level, -⟩ :=
      exists_of_sortBy_split whole
    have kept : other ∈ before.filter (fun other => key other = key item) :=
      List.mem_filter.mpr ⟨member, decide_eq_true (sameKey other item same)⟩
    rw [level] at kept
    exact different front item rest isSplit (place.symm.trans_lt inside) other
      (List.mem_of_mem_filter kept) same

end Labels

section Finer

variable {fine : α → ν}

/-- A sort by a key takes what a sort by a coarser one has done. -/
theorem sortBy_sortBy
    (refines : ∀ left right : α, fine left = fine right → key left = key right)
    (items : List α) : sortBy fine (sortBy key items) = sortBy fine items := by
  apply eq_of_filter (pairwise_sortBy fine _) (pairwise_sortBy fine items)
  intro value
  rw [filter_sortBy, filter_sortBy]
  by_cases present : ∃ item, fine item = value
  · obtain ⟨item, rfl⟩ := present
    have twice : ∀ list : List α,
        list.filter (fun other => fine other = fine item) =
          (list.filter (fun other => key other = key item)).filter
            (fun other => fine other = fine item) := by
      intro list
      rw [List.filter_filter]
      apply List.filter_congr
      intro other _
      by_cases same : fine other = fine item
      · simp [same, refines other item same]
      · simp [same]
    rw [twice, twice items, filter_sortBy]
  · have absent : ∀ list : List α,
        list.filter (fun other => fine other = value) = [] := by
      intro list
      rw [List.filter_eq_nil_iff]
      intro other _ same
      exact present ⟨other, of_decide_eq_true same⟩
    rw [absent, absent]

/-- The nearest items by a coarse key are those by a finer one exactly when of
two with one coarse key the nearer is in front, unless enough others are in
front of both. -/
theorem take_sortBy_eq_take_iff
    (refines : ∀ left right : α, key left < key right →
      fine left < fine right)
    (items : List α) (count : Nat) :
    (sortBy key items).take count = (sortBy fine items).take count ↔
      ∀ front item rest, items = front ++ item :: rest →
        ahead key items front item < count →
          ∀ other ∈ rest, key other = key item → fine item ≤ fine other := by
  have sameKey : ∀ left right : α, fine left = fine right →
      key left = key right := by
    intro left right same
    rcases lt_trichotomy (key left) (key right) with below | equal | above
    · exact absurd same (refines left right below).ne
    · exact equal
    · exact absurd same (refines right left above).ne'
  rw [← sortBy_sortBy sameKey items, eq_comm, take_sortBy_eq_iff]
  constructor
  · intro least front item rest split inside other member same
    obtain ⟨before, behind, sorted, place, -, level⟩ :=
      exists_sortBy_split key split
    refine least before item behind sorted (place.trans_lt inside) other ?_
    have kept : other ∈ rest.filter (fun other => key other = key item) :=
      List.mem_filter.mpr ⟨member, decide_eq_true same⟩
    rw [← level] at kept
    exact List.mem_of_mem_filter kept
  · intro level before item behind split inside other member
    obtain ⟨front, rest, isSplit, place, -, sameLevel⟩ :=
      exists_of_sortBy_split split
    have sorted := pairwise_sortBy key items
    rw [split, List.pairwise_append, List.pairwise_cons] at sorted
    rcases (sorted.2.1.1 other member).lt_or_eq with below | same
    · exact (refines item other below).le
    · refine level front item rest isSplit (place.symm.trans_lt inside) other ?_
        same.symm
      have kept : other ∈ behind.filter (fun other => key other = key item) :=
        List.mem_filter.mpr ⟨member, decide_eq_true same.symm⟩
      rw [sameLevel] at kept
      exact List.mem_of_mem_filter kept

end Finer

end StableSort
