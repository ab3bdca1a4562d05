import Mathlib.Tactic.Common

/-!
# Polling futures

A future runs from one await to the next.  A poll goes on as long as the awaits
are ready, each with its answer, and leaves the future pending at the first one
that is not.  A future that is kept goes on from there when it is polled again;
one that is dropped takes along what it had in hand.
-/

namespace Future

variable {σ φ ψ α ρ θ : Type*}

/-- What a poll makes of a future. -/
inductive Polled (φ ρ : Type*) where
  | pending (place : φ)
  | ready (result : ρ)
  deriving DecidableEq, Repr

/-- What a future does at a place once the await there has its answer. -/
abbrev Resume (σ φ α ρ : Type*) : Type _ := σ → φ → α → σ × Polled φ ρ

/-- A poll, given the answers of the awaits that are ready; those that it did
not need are left over. -/
def poll (resume : Resume σ φ α ρ) :
    σ → φ → List α → (σ × Polled φ ρ) × List α
  | state, place, [] => ((state, .pending place), [])
  | state, place, answer :: answers =>
      match resume state place answer with
      | (after, .pending next) => poll resume after next answers
      | (after, .ready result) => ((after, .ready result), answers)

/-- The polls of a future that is kept between them. -/
def pollAll (resume : Resume σ φ α ρ) :
    σ → φ → List (List α) → (σ × Polled φ ρ) × List α
  | state, place, [] => ((state, .pending place), [])
  | state, place, answers :: polls =>
      match poll resume state place answers with
      | ((after, .pending next), _) => pollAll resume after next polls
      | ((after, .ready result), left) =>
          ((after, .ready result), left ++ polls.flatten)

variable {resume : Resume σ φ α ρ}

/-- A pending future has used all the answers. -/
theorem poll_append (state : σ) (place : φ) (answers more : List α) :
    poll resume state place (answers ++ more) =
      match poll resume state place answers with
      | ((after, .pending next), _) => poll resume after next more
      | ((after, .ready result), left) =>
          ((after, .ready result), left ++ more) := by
  induction answers generalizing state place with
  | nil => rfl
  | cons answer answers ih =>
      rw [List.cons_append, poll, poll]
      cases resume state place answer with
      | mk after polled =>
          cases polled with
          | pending next => exact ih after next
          | ready result => rfl

/-- It does not matter how the answers are spread over the polls of a future
that is kept. -/
theorem pollAll_eq_poll (state : σ) (place : φ) (polls : List (List α)) :
    pollAll resume state place polls =
      poll resume state place polls.flatten := by
  induction polls generalizing state place with
  | nil => rfl
  | cons answers polls ih =>
      rw [pollAll, List.flatten_cons, poll_append]
      split
      · exact ih _ _
      · rfl

/-- What a future that awaits another one makes of a step of the other one. -/
def Polled.await (embed : φ → ψ) (proceed : σ → ρ → σ × Polled ψ θ) :
    σ × Polled φ ρ → σ × Polled ψ θ
  | (after, .pending next) => (after, .pending (embed next))
  | (after, .ready result) => proceed after result

/-- A future goes on with the answers that another one has left over. -/
def goOn (outer : Resume σ ψ α θ) (left : List α) :
    σ × Polled ψ θ → (σ × Polled ψ θ) × List α
  | (after, .pending next) => poll outer after next left
  | (after, .ready result) => ((after, .ready result), left)

/-- A future that awaits another one is polled as the other one and then goes
on with its result. -/
theorem poll_await (inner : Resume σ φ α ρ) (outer : Resume σ ψ α θ)
    (embed : φ → ψ) (proceed : σ → ρ → σ × Polled ψ θ)
    (awaits : ∀ state place answer, outer state (embed place) answer =
      Polled.await embed proceed (inner state place answer))
    (state : σ) (place : φ) (answers : List α) :
    poll outer state (embed place) answers =
      match poll inner state place answers with
      | ((after, .pending next), left) => ((after, .pending (embed next)), left)
      | ((after, .ready result), left) =>
          goOn outer left (proceed after result) := by
  induction answers generalizing state place with
  | nil => rfl
  | cons answer answers ih =>
      rw [poll, poll, awaits]
      cases inner state place answer with
      | mk after polled =>
          cases polled with
          | pending next => exact ih after next
          | ready result =>
              simp only [Polled.await]
              cases proceed after result with
              | mk last polled => cases polled <;> rfl

end Future
