import Mathlib.Logic.Function.Iterate
import Mathlib.Tactic.Common

/-!
# Tasks with guards

One task that takes and drops guards of many locks.  Its code is a tree: what it
sees under its guards decides how it goes on.  A lock is given for reading
beside other readers and for writing alone, so a task that asks for a lock may
find a guard of its own in the way, and then it waits forever.  `EndsWith`
is the precondition of the code for a condition on its end; the rules say what
every statement does to it.
-/

/-- What a guard allows. -/
inductive Access where
  | read
  | write
  deriving DecidableEq, Repr

structure Guard (L : Type) where
  lock : L
  access : Access
  deriving DecidableEq, Repr

/-- Two guards of one lock exclude each other unless both are for reading. -/
def Guard.Excludes {L : Type} (own asked : Guard L) : Prop :=
  own.lock = asked.lock ∧ (own.access = .write ∨ asked.access = .write)

instance {L : Type} [DecidableEq L] (own asked : Guard L) :
    Decidable (own.Excludes asked) :=
  inferInstanceAs (Decidable (_ ∧ _))

/-- The code of a task over a shared state. -/
inductive GuardedTask (L σ ω : Type) where
  | ended (result : ω)
  | acquire (guard : Guard L) (rest : GuardedTask L σ ω)
  | release (guard : Guard L) (rest : GuardedTask L σ ω)
  | update (change : σ → σ) (rest : GuardedTask L σ ω)
  | look (rest : σ → GuardedTask L σ ω)

namespace GuardedTask

variable {L σ ω : Type} [DecidableEq L]

/-- The shared state, the guards that the task holds, and its code. -/
structure Running (L σ ω : Type) where
  shared : σ
  held : List (Guard L)
  task : GuardedTask L σ ω

/-- None of the guards is in the way of the one that is asked for. -/
def Free (held : List (Guard L)) (asked : Guard L) : Prop :=
  ∀ own ∈ held, ¬ own.Excludes asked

instance Free.decidable (held : List (Guard L)) (asked : Guard L) :
    Decidable (Free held asked) :=
  inferInstanceAs (Decidable (∀ own ∈ held, _))

/-- One statement.  A task that waits or has ended stays as it is. -/
def step (running : Running L σ ω) : Running L σ ω :=
  match running.task with
  | .ended _ => running
  | .acquire guard rest =>
      if Free running.held guard then
        { running with held := guard :: running.held, task := rest }
      else
        running
  | .release guard rest =>
      { running with held := running.held.erase guard, task := rest }
  | .update change rest =>
      { running with shared := change running.shared, task := rest }
  | .look rest => { running with task := rest running.shared }

/-- The task asks for a lock on which it holds a guard that is in the way. -/
def WaitsForItself (running : Running L σ ω) : Prop :=
  ∃ guard rest, running.task = .acquire guard rest ∧
    ¬ Free running.held guard

/-- The task comes to its end, and the end meets the condition. -/
def EndsWith (post : σ → ω → Prop) (running : Running L σ ω) : Prop :=
  ∃ count result, (step^[count] running).task = .ended result ∧
    post (step^[count] running).shared result

/-- The task comes to its end. -/
def Ends (running : Running L σ ω) : Prop :=
  EndsWith (fun _ _ => True) running

section Rules

variable {post : σ → ω → Prop} {shared : σ} {held : List (Guard L)}

theorem endsWith_ended {result : ω} :
    EndsWith post ⟨shared, held, .ended result⟩ ↔ post shared result := by
  constructor
  · intro ends
    obtain ⟨count, other, isEnd, meets⟩ := ends
    have fixed : step (⟨shared, held, .ended result⟩ : Running L σ ω) =
        ⟨shared, held, .ended result⟩ := rfl
    rw [Function.iterate_fixed fixed] at isEnd meets
    cases isEnd
    exact meets
  · intro meets
    exact ⟨0, result, rfl, meets⟩

/-- A statement that is not the end. -/
theorem endsWith_step {running : Running L σ ω}
    (goesOn : ∀ result, running.task ≠ .ended result) :
    EndsWith post running ↔ EndsWith post (step running) := by
  constructor
  · intro ends
    obtain ⟨count, result, isEnd, meets⟩ := ends
    cases count with
    | zero => exact absurd isEnd (goesOn result)
    | succ count => exact ⟨count, result, isEnd, meets⟩
  · intro ends
    obtain ⟨count, result, isEnd, meets⟩ := ends
    exact ⟨count + 1, result, isEnd, meets⟩

theorem endsWith_release {guard : Guard L} {rest : GuardedTask L σ ω} :
    EndsWith post ⟨shared, held, .release guard rest⟩ ↔
      EndsWith post ⟨shared, held.erase guard, rest⟩ :=
  endsWith_step (by simp)

theorem endsWith_update {change : σ → σ} {rest : GuardedTask L σ ω} :
    EndsWith post ⟨shared, held, .update change rest⟩ ↔
      EndsWith post ⟨change shared, held, rest⟩ :=
  endsWith_step (by simp)

theorem endsWith_look {rest : σ → GuardedTask L σ ω} :
    EndsWith post ⟨shared, held, .look rest⟩ ↔
      EndsWith post ⟨shared, held, rest shared⟩ :=
  endsWith_step (by simp)

theorem endsWith_acquire {guard : Guard L} {rest : GuardedTask L σ ω}
    (free : Free held guard) :
    EndsWith post ⟨shared, held, .acquire guard rest⟩ ↔
      EndsWith post ⟨shared, guard :: held, rest⟩ := by
  rw [endsWith_step (by simp)]
  unfold step
  simp only [if_pos free]

/-- A task that waits for itself stays where it is. -/
theorem step_of_waits {running : Running L σ ω}
    (waits : WaitsForItself running) : step running = running := by
  obtain ⟨guard, rest, asks, notFree⟩ := waits
  unfold step
  simp only [asks, if_neg notFree]

theorem not_endsWith_of_waits {running : Running L σ ω}
    (waits : WaitsForItself running) : ¬ EndsWith post running := by
  intro ends
  obtain ⟨count, result, isEnd, _⟩ := ends
  rw [Function.iterate_fixed (step_of_waits waits)] at isEnd
  obtain ⟨guard, rest, asks, _⟩ := waits
  rw [asks] at isEnd
  cases isEnd

theorem not_endsWith_acquire {guard : Guard L} {rest : GuardedTask L σ ω}
    (notFree : ¬ Free held guard) :
    ¬ EndsWith post ⟨shared, held, .acquire guard rest⟩ :=
  not_endsWith_of_waits ⟨guard, rest, rfl, notFree⟩

end Rules

/-- An end is stable, so a task that has ended never waits. -/
theorem not_waits_of_ends {running : Running L σ ω} (ends : Ends running)
    (count : Nat) : ¬ WaitsForItself (step^[count] running) := by
  intro waits
  obtain ⟨length, result, isEnd, _⟩ := ends
  have stuck := Function.iterate_fixed (step_of_waits waits) length
  rw [← Function.iterate_add_apply, Nat.add_comm,
    Function.iterate_add_apply] at stuck
  have fixed : step (step^[length] running) = step^[length] running := by
    rw [step, isEnd]
  rw [Function.iterate_fixed fixed] at stuck
  obtain ⟨guard, rest, asks, _⟩ := waits
  rw [← stuck, isEnd] at asks
  cases asks

/-- Code is a tree without infinite branches, so that a task which never waits
comes to its end. -/
theorem ends_or_waits (task : GuardedTask L σ ω) (shared : σ)
    (held : List (Guard L)) :
    Ends ⟨shared, held, task⟩ ∨
      ∃ count, WaitsForItself (step^[count] ⟨shared, held, task⟩) := by
  induction task generalizing shared held with
  | ended result => exact Or.inl (endsWith_ended.mpr trivial)
  | acquire guard rest ih =>
      by_cases free : Free held guard
      · rcases ih shared (guard :: held) with ends | ⟨count, waits⟩
        · exact Or.inl ((endsWith_acquire free).mpr ends)
        · refine Or.inr ⟨count + 1, ?_⟩
          rw [Function.iterate_succ_apply]
          simp only [step, if_pos free]
          exact waits
      · exact Or.inr ⟨0, guard, rest, rfl, free⟩
  | release guard rest ih =>
      rcases ih shared (held.erase guard) with ends | ⟨count, waits⟩
      · exact Or.inl (endsWith_release.mpr ends)
      · exact Or.inr ⟨count + 1, waits⟩
  | update change rest ih =>
      rcases ih (change shared) held with ends | ⟨count, waits⟩
      · exact Or.inl (endsWith_update.mpr ends)
      · exact Or.inr ⟨count + 1, waits⟩
  | look rest ih =>
      rcases ih shared shared held with ends | ⟨count, waits⟩
      · exact Or.inl (endsWith_look.mpr ends)
      · exact Or.inr ⟨count + 1, waits⟩

/-- A task comes to its end exactly when it never waits for itself. -/
theorem ends_iff_never_waits (running : Running L σ ω) :
    Ends running ↔ ∀ count, ¬ WaitsForItself (step^[count] running) := by
  constructor
  · exact not_waits_of_ends
  · intro never
    obtain ⟨shared, held, task⟩ := running
    rcases ends_or_waits task shared held with ends | ⟨count, waits⟩
    · exact ends
    · exact absurd waits (never count)

/-- The end that the code comes to when every lock is given at once. -/
def unguarded : GuardedTask L σ ω → σ → σ × ω
  | .ended result, shared => (shared, result)
  | .acquire _ rest, shared => unguarded rest shared
  | .release _ rest, shared => unguarded rest shared
  | .update change rest, shared => unguarded rest (change shared)
  | .look rest, shared => unguarded (rest shared) shared

end GuardedTask
