import NyxNet.Lib.TaskPool

/-!
# Checking a limit before an insertion

Tasks share a load that is to stay under a limit.  A task checks in one or more
steps that its share fits and inserts it in a later one.  In between, others may
insert as well.  The limit holds along every run where nobody else inserts
between the first step of a check and the insertion that it was made for.
-/

namespace Admission

open TaskPool

variable {σ τ κ ι ο : Type*} {program : Program σ τ κ ι ο}

/-- A program that checks before it inserts.  `relies` is what a task takes for
granted at the point that it has come to; it holds from the first step of the
check on until somebody else inserts.  A flawed check passes whatever the load
is. -/
structure Scheme (program : Program σ τ κ ι ο) where
  load : σ → Nat
  limit : Nat
  relies : σ → τ → Prop
  isCheck : ο → Bool
  isFlawed : ο → Bool
  isInsertion : ο → Bool
  launched : ∀ shared request, relies shared (program.launch request)
  spawned : ∀ shared task input turn child,
    program.turn shared task input = some turn → child ∈ turn.spawned →
      relies turn.shared child
  inserted : ∀ shared task input turn,
    program.turn shared task input = some turn →
      isInsertion turn.event = true → relies shared task →
        load shared ≤ limit →
          load turn.shared ≤ limit ∧ relies turn.shared turn.task
  shrinks : ∀ shared task input turn,
    program.turn shared task input = some turn →
      isInsertion turn.event = false → load turn.shared ≤ load shared
  own : ∀ shared task input turn,
    program.turn shared task input = some turn →
      isInsertion turn.event = false → isFlawed turn.event = false →
        isCheck turn.event = true ∨ relies shared task →
          relies turn.shared turn.task
  others : ∀ shared task input turn bystander,
    program.turn shared task input = some turn →
      isInsertion turn.event = false → relies shared bystander →
        relies turn.shared bystander

namespace Scheme

variable (scheme : Scheme program)

/-- Another task inserts. -/
def OtherInserts (index : Nat) : Action κ ι × Option ο → Prop
  | (.run other _, some event) =>
      other ≠ index ∧ scheme.isInsertion event = true
  | _ => False

/-- The task makes its check. -/
def Checks (index : Nat) : Action κ ι × Option ο → Prop
  | (.run other _, some event) => other = index ∧ scheme.isCheck event = true
  | _ => False

instance OtherInserts.decidable (index : Nat) :
    DecidablePred (scheme.OtherInserts (ι := ι) (κ := κ) index) := fun entry =>
  match entry with
  | (.run _ _, some _) => inferInstanceAs (Decidable (_ ∧ _))
  | (.run _ _, none) => isFalse id
  | (.call _, _) => isFalse id

instance Checks.decidable (index : Nat) :
    DecidablePred (scheme.Checks (ι := ι) (κ := κ) index) := fun entry =>
  match entry with
  | (.run _ _, some _) => inferInstanceAs (Decidable (_ ∧ _))
  | (.run _ _, none) => isFalse id
  | (.call _, _) => isFalse id

/-- Somebody else has inserted since the task made its check. -/
def Disturbed (index : Nat) (past : Past κ ι ο) : Prop :=
  Trace.Since (scheme.OtherInserts index) (scheme.Checks index) past

/-- No check is flawed, and nobody else has inserted since the check of the
task that inserts. -/
def Undisturbed (past : Past κ ι ο) : Action κ ι → Option ο → Prop
  | .run index _, some event =>
      scheme.isFlawed event = false ∧
        (scheme.isInsertion event = true → ¬ scheme.Disturbed index past)
  | _, _ => True

instance Undisturbed.decidable (past : Past κ ι ο) (action : Action κ ι)
    (event : Option ο) : Decidable (scheme.Undisturbed past action event) :=
  match action, event with
  | .run index _, some event =>
      have : Decidable (scheme.Disturbed index past) :=
        Trace.Since.decidable _ _ past
      inferInstanceAs (Decidable (scheme.isFlawed event = false ∧
        (scheme.isInsertion event = true → ¬ scheme.Disturbed index past)))
  | .run _ _, none => isTrue trivial
  | .call _, _ => isTrue trivial

variable {scheme}

/-- A disturbance lasts until the task checks again. -/
theorem Disturbed.append {index : Nat} {past : Past κ ι ο}
    (disturbed : scheme.Disturbed index past)
    {entry : Action κ ι × Option ο} (unchecked : ¬ scheme.Checks index entry) :
    scheme.Disturbed index (past ++ [entry]) :=
  Trace.since_concat_iff.mpr (Or.inr ⟨disturbed, unchecked⟩)

theorem disturbed_of_insertion {index other : Nat} {event : ο}
    (different : other ≠ index) (inserts : scheme.isInsertion event = true)
    (past : Past κ ι ο) (input : ι) :
    scheme.Disturbed index (past ++ [(.run other input, some event)]) :=
  Trace.since_concat_iff.mpr (Or.inl ⟨different, inserts⟩)

/-- What a task that nobody has disturbed can rely on. -/
def Cleared (scheme : Scheme program) (past : Past κ ι ο) (shared : σ)
    (index : Nat) (task : τ) : Prop :=
  scheme.Disturbed index past ∨ scheme.relies shared task

/-- The task that moves. -/
theorem cleared_turn {past : Past κ ι ο} {shared : σ} {index : Nat} {input : ι}
    {task : τ} {turn : Turn σ τ ο}
    (allowed : scheme.Undisturbed past (.run index input) (some turn.event))
    (taken : program.turn shared task input = some turn)
    (within : scheme.load shared ≤ scheme.limit)
    (cleared : scheme.Cleared past shared index task) :
    scheme.load turn.shared ≤ scheme.limit ∧
      scheme.Cleared (past ++ [(.run index input, some turn.event)])
        turn.shared index turn.task := by
  obtain ⟨sound, undisturbed⟩ := allowed
  cases inserts : scheme.isInsertion turn.event with
  | true =>
      rcases cleared with disturbed | relies
      · exact absurd disturbed (undisturbed inserts)
      · obtain ⟨fits, relying⟩ :=
          scheme.inserted shared task input turn taken inserts relies within
        exact ⟨fits, Or.inr relying⟩
  | false =>
      refine ⟨(scheme.shrinks shared task input turn taken inserts).trans within,
        ?_⟩
      have own := scheme.own shared task input turn taken inserts sound
      cases checks : scheme.isCheck turn.event with
      | true => exact Or.inr (own (Or.inl checks))
      | false =>
          rcases cleared with disturbed | relies
          · refine Or.inl (disturbed.append ?_)
            intro isCheck
            exact Bool.false_ne_true (checks.symm.trans isCheck.2)
          · exact Or.inr (own (Or.inr relies))

/-- The tasks that do not move. -/
theorem cleared_bystander {past : Past κ ι ο} {shared : σ} {index other : Nat}
    {input : ι} {task bystander : τ} {turn : Turn σ τ ο}
    (taken : program.turn shared task input = some turn)
    (different : other ≠ index)
    (cleared : scheme.Cleared past shared other bystander) :
    scheme.Cleared (past ++ [(.run index input, some turn.event)]) turn.shared
      other bystander := by
  cases inserts : scheme.isInsertion turn.event with
  | true =>
      exact Or.inl (disturbed_of_insertion (Ne.symm different) inserts past
        input)
  | false =>
      rcases cleared with disturbed | relies
      · refine Or.inl (disturbed.append ?_)
        intro checks
        exact different checks.1.symm
      · exact Or.inr (scheme.others shared task input turn bystander taken
          inserts relies)

theorem load_le_limit (scheme : Scheme program) {start : Pool σ τ}
    (within : scheme.load start.shared ≤ scheme.limit)
    (empty : start.tasks = []) (actions : List (Action κ ι))
    (along : Trace.AlongPast (perform program)
      (Allowed program scheme.Undisturbed) [] start actions) :
    scheme.load (Trace.final (perform program) start actions).shared ≤
      scheme.limit := by
  refine And.left (every_task_along scheme.Undisturbed
    (fun _ shared => scheme.load shared ≤ scheme.limit) scheme.Cleared within
    empty ?_ ?_ ?_ ?_ ?_ actions along)
  · intro past shared action bounded
    refine ⟨bounded, ?_⟩
    intro index task cleared
    rcases cleared with disturbed | relies
    · refine Or.inl (disturbed.append ?_)
      intro checks
      cases action <;> exact checks
    · exact Or.inr relies
  · intro past shared request index _ _ _
    exact Or.inr (scheme.launched shared request)
  · intro past shared index input task turn allowed taken bounded cleared
    exact cleared_turn allowed taken bounded cleared
  · intro past shared index input task turn fresh child _ taken _ _ isChild _
    exact Or.inr (scheme.spawned shared task input turn child taken isChild)
  · intro past shared index input task turn other bystander _ taken _ _
      different cleared
    exact cleared_bystander taken different cleared

end Scheme

/-- A program that checks in one step.  `share` is what a task that has passed
its check is going to add. -/
structure Shares (program : Program σ τ κ ι ο) where
  load : σ → Nat
  limit : Nat
  share : τ → Option Nat
  isCheck : ο → Bool
  isFlawed : ο → Bool
  isInsertion : ο → Bool
  launched : ∀ request, share (program.launch request) = none
  spawned : ∀ shared task input turn child,
    program.turn shared task input = some turn → child ∈ turn.spawned →
      share child = none
  inserted : ∀ shared task input turn,
    program.turn shared task input = some turn →
      isInsertion turn.event = true →
        share turn.task = none ∧ ∃ amount, share task = some amount ∧
          load turn.shared ≤ load shared + amount
  others : ∀ shared task input turn,
    program.turn shared task input = some turn →
      isInsertion turn.event = false →
        load turn.shared ≤ load shared ∧ ∀ amount,
          share turn.task = some amount →
            share task = some amount ∧ isCheck turn.event = false ∨
              isFlawed turn.event = true ∨ load shared + amount ≤ limit

/-- The share of the task, if it has one, still fits. -/
def Shares.Fits (shares : Shares program) (shared : σ) (task : τ) : Prop :=
  ∀ amount, shares.share task = some amount →
    shares.load shared + amount ≤ shares.limit

theorem Shares.fits_of_none (shares : Shares program) (shared : σ) {task : τ}
    (nothing : shares.share task = none) : shares.Fits shared task := by
  intro amount hasShare
  rw [nothing] at hasShare
  cases hasShare

/-- A task relies on its share to fit. -/
def Shares.scheme (shares : Shares program) : Scheme program where
  load := shares.load
  limit := shares.limit
  relies := shares.Fits
  isCheck := shares.isCheck
  isFlawed := shares.isFlawed
  isInsertion := shares.isInsertion
  launched := fun shared request =>
    shares.fits_of_none shared (shares.launched request)
  spawned := fun shared task input turn child taken member =>
    shares.fits_of_none turn.shared
      (shares.spawned shared task input turn child taken member)
  inserted := by
    intro shared task input turn taken inserts fits _
    obtain ⟨spent, amount, hasShare, bound⟩ :=
      shares.inserted shared task input turn taken inserts
    exact ⟨bound.trans (fits amount hasShare),
      shares.fits_of_none turn.shared spent⟩
  shrinks := fun shared task input turn taken noInsertion =>
    (shares.others shared task input turn taken noInsertion).1
  own := by
    intro shared task input turn taken noInsertion sound relying amount hasShare
    obtain ⟨smaller, backed⟩ :=
      shares.others shared task input turn taken noInsertion
    refine (Nat.add_le_add_right smaller amount).trans ?_
    rcases backed amount hasShare with kept | flawed | fits
    · rcases relying with checks | before
      · rw [kept.2] at checks
        cases checks
      · exact before amount kept.1
    · rw [sound] at flawed
      cases flawed
    · exact fits
  others := by
    intro shared task input turn bystander taken noInsertion fits amount
      hasShare
    have smaller := (shares.others shared task input turn taken noInsertion).1
    exact (Nat.add_le_add_right smaller amount).trans (fits amount hasShare)

end Admission
