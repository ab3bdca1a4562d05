import Mathlib.Data.List.Basic
import Mathlib.Data.List.Perm.Subperm
import Mathlib.Order.Basic
import Mathlib.Order.Defs.LinearOrder
import Mathlib.Order.Lattice

/-!
# Stable priority queues

A list sorted by falling priority, where items of one priority wait in the order
in which they came.  A new item goes in front of the first one of lower
priority.  `Ledger` is the account of a queue: what was put in has been taken
from the front, has been discarded, or still waits.
-/

namespace PriorityQueue

variable {α π : Type*} [LinearOrder π] (priority : α → π)

def Sorted (queue : List α) : Prop :=
  queue.Pairwise (fun earlier later => priority later ≤ priority earlier)

/-- The items of one priority, in order. -/
def ofPriority (level : π) (queue : List α) : List α :=
  queue.filter (fun item => priority item = level)

/-- In front of the first item of lower priority. -/
def insert (item : α) (queue : List α) : List α :=
  queue.insertIdx
    ((queue.findIdx? (fun other => priority other < priority item)).getD
      queue.length) item

variable {priority}

theorem insert_cons (item first : α) (queue : List α) :
    insert priority item (first :: queue) =
      if priority first < priority item then item :: first :: queue
      else first :: insert priority item queue := by
  unfold insert
  rw [List.findIdx?_cons]
  by_cases lower : priority first < priority item
  · simp [lower]
  · simp only [lower, decide_false, Bool.false_eq_true, if_false]
    cases List.findIdx? (fun other => decide (priority other < priority item))
        queue with
    | none => simp
    | some index => simp

theorem insert_perm (item : α) (queue : List α) :
    (insert priority item queue).Perm (item :: queue) := by
  induction queue with
  | nil => exact List.Perm.refl _
  | cons first queue ih =>
      rw [insert_cons]
      split
      · exact List.Perm.refl _
      · exact (ih.cons first).trans (List.Perm.swap item first queue)

theorem Sorted.insert {queue : List α} (sorted : Sorted priority queue)
    (item : α) : Sorted priority (insert priority item queue) := by
  induction queue with
  | nil => exact List.pairwise_singleton _ item
  | cons first queue ih =>
      obtain ⟨firstHighest, rest⟩ := List.pairwise_cons.mp sorted
      rw [insert_cons]
      split
      · next lower =>
          refine List.pairwise_cons.mpr ⟨?_, sorted⟩
          intro other member
          rcases List.mem_cons.mp member with same | later
          · rw [same]
            exact lower.le
          · exact (firstHighest other later).trans lower.le
      · next notLower =>
          refine List.pairwise_cons.mpr ⟨?_, ih rest⟩
          intro other member
          rcases List.mem_cons.mp ((insert_perm item queue).mem_iff.mp member)
            with same | later
          · rw [same]
            exact not_lt.mp notLower
          · exact firstHighest other later

/-- A new item is the last one of its priority. -/
theorem ofPriority_insert {queue : List α} (sorted : Sorted priority queue)
    (item : α) (level : π) :
    ofPriority priority level (insert priority item queue) =
      ofPriority priority level queue ++
        ofPriority priority level [item] := by
  induction queue with
  | nil => rfl
  | cons first queue ih =>
      obtain ⟨firstHighest, rest⟩ := List.pairwise_cons.mp sorted
      rw [insert_cons]
      split
      · next lower =>
          by_cases same : priority item = level
          · have nobody : ofPriority priority level (first :: queue) = [] := by
              apply List.filter_eq_nil_iff.mpr
              intro other member
              have below : priority other < priority item := by
                rcases List.mem_cons.mp member with isFirst | later
                · rw [isFirst]
                  exact lower
                · exact (firstHighest other later).trans_lt lower
              simp [← same, below.ne]
            rw [nobody, List.nil_append]
            unfold ofPriority at nobody ⊢
            rw [List.filter_cons, nobody]
            simp [same]
          · simp [ofPriority, same]
      · have inside := ih rest
        unfold ofPriority at inside ⊢
        rw [List.filter_cons, List.filter_cons, inside]
        split
        · rfl
        · rfl

theorem Sorted.sublist {queue part : List α} (sorted : Sorted priority queue)
    (sub : part.Sublist queue) : Sorted priority part :=
  List.Pairwise.sublist sub sorted

variable (priority) in
/-- What was put into a queue, what was taken from its front, what was
discarded, and what waits, each in its order. -/
structure Ledger (discardable : π → Prop)
    (given taken discarded queue : List α) : Prop where
  sorted : Sorted priority queue
  /-- Every item is in one place, as often as it was put in. -/
  accounted : (taken ++ discarded ++ queue).Perm given
  /-- What has been taken and what waits come in the order of arrival. -/
  inOrder : ∀ level,
    (ofPriority priority level taken ++ ofPriority priority level queue).Sublist
      (ofPriority priority level given)
  discarded_only : ∀ item ∈ discarded, discardable (priority item)

namespace Ledger

variable {discardable : π → Prop} {given taken discarded queue : List α}

theorem empty : Ledger priority discardable ([] : List α) [] [] [] where
  sorted := List.Pairwise.nil
  accounted := List.Perm.refl []
  inOrder := fun _ => List.Sublist.refl []
  discarded_only := by
    intro item member
    cases member

theorem give (ledger : Ledger priority discardable given taken discarded queue)
    (item : α) :
    Ledger priority discardable (given ++ [item]) taken discarded
      (insert priority item queue) where
  sorted := ledger.sorted.insert item
  accounted := by
    have inserted : (insert priority item queue).Perm (item :: queue) :=
      insert_perm item queue
    refine (inserted.append_left (taken ++ discarded)).trans
      (List.perm_middle.trans ?_)
    exact (ledger.accounted.cons item).trans
      (List.perm_append_singleton item given).symm
  inOrder := by
    intro level
    have grown := (ledger.inOrder level).append
      (List.Sublist.refl (ofPriority priority level [item]))
    rw [ofPriority_insert ledger.sorted, ← List.append_assoc]
    unfold ofPriority at grown ⊢
    rw [List.filter_append given]
    exact grown
  discarded_only := ledger.discarded_only

/-- Items are taken from the front. -/
theorem take (ledger : Ledger priority discardable given taken discarded queue)
    (count : Nat) :
    Ledger priority discardable given (taken ++ queue.take count) discarded
      (queue.drop count) where
  sorted := ledger.sorted.sublist (List.drop_sublist count queue)
  accounted := by
    have shuffled : (taken ++ queue.take count ++ discarded ++
        queue.drop count).Perm
          (taken ++ discarded ++ (queue.take count ++ queue.drop count)) := by
      simp only [List.append_assoc]
      apply List.Perm.append_left
      exact List.perm_append_comm_assoc _ _ _
    rw [List.take_append_drop] at shuffled
    exact shuffled.trans ledger.accounted
  inOrder := by
    intro level
    have whole : ofPriority priority level (queue.take count) ++
        ofPriority priority level (queue.drop count) =
          ofPriority priority level queue := by
      unfold ofPriority
      rw [← List.filter_append, List.take_append_drop]
    unfold ofPriority at whole ⊢
    rw [List.filter_append, List.append_assoc, whole]
    exact ledger.inOrder level
  discarded_only := ledger.discarded_only

/-- Items of low priorities are discarded. -/
theorem discard [DecidableEq α]
    (ledger : Ledger priority discardable given taken discarded queue)
    {kept : List α} (sub : kept.Sublist queue)
    (only : ∀ item ∈ queue.diff kept, discardable (priority item)) :
    Ledger priority discardable given taken (discarded ++ queue.diff kept)
      kept where
  sorted := ledger.sorted.sublist sub
  accounted := by
    have parted : (queue.diff kept ++ kept).Perm queue :=
      List.perm_append_comm.trans
        (List.subperm_append_diff_self_of_count_le
          (fun item _ => sub.count_le item))
    have shuffled := parted.append_left (taken ++ discarded)
    simp only [List.append_assoc] at shuffled ⊢
    refine shuffled.trans ?_
    rw [← List.append_assoc]
    exact ledger.accounted
  inOrder := by
    intro level
    refine List.Sublist.trans ?_ (ledger.inOrder level)
    exact (List.Sublist.refl _).append (sub.filter _)
  discarded_only := by
    intro item member
    rcases List.mem_append.mp member with old | new
    · exact ledger.discarded_only item old
    · exact only item new

/-- Of a priority that is never discarded nothing is missing. -/
theorem complete (ledger : Ledger priority discardable given taken discarded queue)
    {level : π} (precious : ¬ discardable level) :
    ofPriority priority level taken ++ ofPriority priority level queue =
      ofPriority priority level given := by
  apply (ledger.inOrder level).eq_of_length
  have counted := (ledger.accounted.filter
    (fun item => decide (priority item = level))).length_eq
  have nothing : discarded.filter (fun item => priority item = level) = [] := by
    apply List.filter_eq_nil_iff.mpr
    intro item member
    simp only [decide_eq_true_eq]
    intro same
    exact precious (same ▸ ledger.discarded_only item member)
  rw [List.filter_append, List.filter_append, nothing, List.append_nil]
    at counted
  unfold ofPriority
  rw [← counted]

end Ledger

end PriorityQueue
