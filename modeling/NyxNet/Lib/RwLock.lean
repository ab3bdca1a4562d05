import Mathlib.Tactic.Common

/-!
# Locks with guards

A value that many may read or one may change.  Guards for reading are counted
while they live; a change whose guard lives no longer than its statement is one
step, which has to wait as long as there is any guard.
-/

variable {α : Type*}

structure RwLock (α : Type*) where
  value : α
  readGuards : Nat
  deriving DecidableEq

namespace RwLock

def new (value : α) : RwLock α where
  value := value
  readGuards := 0

/-- One more guard for reading. -/
def read (lock : RwLock α) : RwLock α :=
  { lock with readGuards := lock.readGuards + 1 }

/-- A guard for reading is dropped. -/
def drop (lock : RwLock α) : RwLock α :=
  { lock with readGuards := lock.readGuards - 1 }

/-- `*lock.write().await = value`; without a result it has to wait. -/
def assign (lock : RwLock α) (value : α) : Option (RwLock α) :=
  if lock.readGuards = 0 then some { lock with value } else none

@[simp] theorem readGuards_read (lock : RwLock α) :
    lock.read.readGuards = lock.readGuards + 1 := rfl

@[simp] theorem value_read (lock : RwLock α) : lock.read.value = lock.value :=
  rfl

theorem eq_of_assign {lock after : RwLock α} {value : α}
    (assigned : lock.assign value = some after) :
    lock.readGuards = 0 ∧ after = new value := by
  unfold assign at assigned
  split at assigned
  · next free =>
      refine ⟨free, ?_⟩
      rw [← Option.some.inj assigned, free]
      rfl
  · cases assigned

end RwLock
