import Mathlib.Data.List.Infix
import Mathlib.Order.Basic
import Mathlib.Order.Lattice
import Mathlib.Tactic.Common

/-!
# Bounded logs of numbered entries

A log keeps the latest entries, so it is a suffix of all the entries it was ever
given.  Entries are looked up by their number, from the oldest on.  As long as
every number is above the one before, a number stands for one entry, and the
look-up finds the latest entry that was given under it.
-/

namespace BoundedLog

variable {α κ : Type*}

/-- One more entry; the oldest one makes room. -/
def push (bound : Nat) (log : List α) (entry : α) : List α :=
  let grown := log ++ [entry]
  if bound < grown.length then grown.tail else grown

theorem length_push_le {bound : Nat} {log : List α} (entry : α)
    (fits : log.length ≤ bound) : (push bound log entry).length ≤ bound := by
  unfold push
  simp only
  split
  · rw [List.length_tail, List.length_append]
    exact Nat.le_trans (Nat.sub_le_of_le_add (Nat.le_refl _)) fits
  · omega

theorem push_suffix (bound : Nat) (log : List α) (entry : α) :
    push bound log entry <:+ log ++ [entry] := by
  unfold push
  simp only
  split
  · exact List.tail_suffix _
  · exact List.suffix_refl _

/-- The log keeps the latest of the given entries. -/
theorem push_suffix_of_suffix {log given : List α} (latest : log <:+ given)
    (bound : Nat) (entry : α) :
    push bound log entry <:+ given ++ [entry] := by
  obtain ⟨older, rfl⟩ := latest
  apply (push_suffix bound log entry).trans
  rw [List.append_assoc]
  exact List.suffix_append older (log ++ [entry])

/-- The latest entries stay as long as there is room for them. -/
theorem suffix_push {bound : Nat} {log kept : List α}
    (short : kept.length < bound) (latest : kept <:+ log) (entry : α) :
    kept ++ [entry] <:+ push bound log entry := by
  obtain ⟨older, rfl⟩ := latest
  unfold push
  simp only
  split
  · next full =>
      cases older with
      | nil =>
          simp only [List.nil_append, List.length_append, List.length_singleton]
            at full
          omega
      | cons oldest older => exact ⟨older, by simp⟩
  · exact ⟨older, by simp⟩

/-- What stays of a log when it is given one more entry. -/
def kept (bound : Nat) (log : List α) : List α :=
  if bound ≤ log.length then log.tail else log

theorem push_eq_kept {bound : Nat} (positive : 1 ≤ bound) (log : List α)
    (entry : α) : push bound log entry = kept bound log ++ [entry] := by
  unfold push kept
  simp only [List.length_append, List.length_singleton, Nat.lt_succ_iff]
  split
  · next full =>
      cases log with
      | nil =>
          rw [List.length_nil] at full
          omega
      | cons oldest log => rfl
  · rfl

theorem getLast?_push {bound : Nat} (positive : 1 ≤ bound) (log : List α)
    (entry : α) : (push bound log entry).getLast? = some entry := by
  rw [push_eq_kept positive]
  simp

section Numbered

variable (number : α → κ)

/-- Every number is above the ones before. -/
def Ascending [LT κ] (log : List α) : Prop :=
  log.Pairwise fun older newer => number older < number newer

instance Ascending.decidable [LT κ] [DecidableLT κ] (log : List α) :
    Decidable (Ascending number log) :=
  inferInstanceAs (Decidable (List.Pairwise _ log))

variable {number} [LinearOrder κ]

theorem Ascending.suffix {log kept : List α} (ascending : Ascending number log)
    (suffix : kept <:+ log) : Ascending number kept :=
  List.Pairwise.sublist suffix.sublist ascending

/-- Above the newest entry is above all of them. -/
theorem Ascending.le_newest {log : List α} {newest : α}
    (ascending : Ascending number log) (last : log.getLast? = some newest)
    {entry : α} (member : entry ∈ log) : number entry ≤ number newest := by
  obtain ⟨older, rfl⟩ := List.getLast?_eq_some_iff.mp last
  rcases List.mem_append.mp member with isOlder | isNewest
  · exact le_of_lt ((List.pairwise_append.mp ascending).2.2 entry isOlder newest
      (List.mem_singleton_self newest))
  · rw [List.mem_singleton.mp isNewest]

theorem Ascending.concat {log : List α} {newest : α}
    (ascending : Ascending number log) (last : log.getLast? = some newest)
    {entry : α} (above : number newest < number entry) :
    Ascending number (log ++ [entry]) := by
  apply List.pairwise_append.mpr
  refine ⟨ascending, List.pairwise_singleton _ _, ?_⟩
  intro older member added isAdded
  rw [List.mem_singleton.mp isAdded]
  exact lt_of_le_of_lt (ascending.le_newest last member) above

/-- A further entry keeps the numbers ascending when its own is above the
newest. -/
theorem ascending_push_iff {bound : Nat} (roomy : 1 < bound) {log : List α}
    {newest : α} (ascending : Ascending number log)
    (last : log.getLast? = some newest) (entry : α) :
    Ascending number (push bound log entry) ↔
      number newest < number entry := by
  constructor
  · intro kept
    obtain ⟨older, rfl⟩ := List.getLast?_eq_some_iff.mp last
    have pair := kept.suffix
      (suffix_push roomy (List.suffix_append older [newest]) entry)
    exact (List.pairwise_cons.mp pair).1 entry (List.mem_singleton_self entry)
  · intro above
    exact (ascending.concat last above).suffix (push_suffix bound log entry)

/-- The look-up of a number, from the oldest entry on. -/
def lookup (number : α → κ) (log : List α) (wanted : κ) : Option α :=
  log.find? fun entry => number entry = wanted

/-- The latest entry that was given under a number. -/
def latest (number : α → κ) (given : List α) (wanted : κ) : Option α :=
  given.reverse.find? fun entry => number entry = wanted

theorem lookup_of_mem {log : List α} (ascending : Ascending number log)
    {entry : α} (member : entry ∈ log) :
    lookup number log (number entry) = some entry := by
  induction log with
  | nil => cases member
  | cons oldest log ih =>
      obtain ⟨below, rest⟩ := List.pairwise_cons.mp ascending
      unfold lookup at ih ⊢
      rcases List.mem_cons.mp member with rfl | later
      · exact List.find?_cons_of_pos (by simp)
      · have different : number oldest ≠ number entry :=
          ne_of_lt (below entry later)
        rw [List.find?_cons_of_neg (by simp [different])]
        exact ih rest later

/-- While the numbers ascend, the look-up finds the latest entry that was given
under a number that is still there. -/
theorem lookup_eq_latest {log given : List α}
    (ascending : Ascending number log) (suffix : log <:+ given) {wanted : κ}
    (held : ∃ entry ∈ log, number entry = wanted) :
    lookup number log wanted = latest number given wanted := by
  obtain ⟨entry, member, rfl⟩ := held
  obtain ⟨older, rfl⟩ := suffix
  have newestFound :
      log.reverse.find? (fun other => number other = number entry) =
        some entry := by
    cases found : log.reverse.find? (fun other => number other = number entry)
      with
    | none =>
        have absent := List.find?_eq_none.mp found entry
          (List.mem_reverse.mpr member)
        simp at absent
    | some other =>
        have same := List.find?_some found
        have isMember := List.mem_reverse.mp (List.mem_of_find?_eq_some found)
        have first := lookup_of_mem ascending isMember
        rw [of_decide_eq_true same, lookup_of_mem ascending member] at first
        exact first.symm
  rw [lookup_of_mem ascending member, latest, List.reverse_append,
    List.find?_append, newestFound]
  rfl

end Numbered

end BoundedLog
