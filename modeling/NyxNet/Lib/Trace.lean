import Mathlib.Data.List.Induction
import Mathlib.Tactic.Common

/-!
# Runs of a deterministic machine

A machine answers every input and moves to a next state.  `history` records
each input of a run with its answer and `final` is the state the run ends in.
An invariant may relate the whole past to the current state, which is how
"accepted before" or "used before" is expressed without ghost fields in the
state itself.
-/

namespace Trace

variable {σ ι ο : Type*}

/-- Every input of a run with the answer it got, oldest first. -/
def history (step : σ → ι → ο × σ) : σ → List ι → List (ι × ο)
  | _, [] => []
  | state, input :: inputs =>
      (input, (step state input).1) ::
        history step (step state input).2 inputs

/-- The state a run ends in. -/
def final (step : σ → ι → ο × σ) : σ → List ι → σ
  | state, [] => state
  | state, input :: inputs => final step (step state input).2 inputs

theorem final_append (step : σ → ι → ο × σ) (state : σ)
    (before after : List ι) :
    final step state (before ++ after) =
      final step (final step state before) after := by
  induction before generalizing state with
  | nil => rfl
  | cons input before ih => simp [final, ih]

theorem history_append (step : σ → ι → ο × σ) (state : σ)
    (before after : List ι) :
    history step state (before ++ after) =
      history step state before ++
        history step (final step state before) after := by
  induction before generalizing state with
  | nil => rfl
  | cons input before ih => simp [history, final, ih]

/-- The history lists the inputs themselves, in order. -/
@[simp] theorem map_fst_history (step : σ → ι → ο × σ) (state : σ)
    (inputs : List ι) :
    (history step state inputs).map Prod.fst = inputs := by
  induction inputs generalizing state with
  | nil => rfl
  | cons input inputs ih => simp [history, ih]

/-- A machine fed translated inputs runs as the machine that translates. -/
theorem history_map {κ : Type*} (translate : κ → ι) (step : σ → ι → ο × σ)
    (state : σ) (inputs : List κ) :
    history step state (inputs.map translate) =
      (history (fun state input => step state (translate input)) state
        inputs).map (Prod.map translate id) := by
  induction inputs generalizing state with
  | nil => rfl
  | cons input inputs ih => simp [history, ih]

theorem final_map {κ : Type*} (translate : κ → ι) (step : σ → ι → ο × σ)
    (state : σ) (inputs : List κ) :
    final step state (inputs.map translate) =
      final (fun state input => step state (translate input)) state
        inputs := by
  induction inputs generalizing state with
  | nil => rfl
  | cons input inputs ih => exact ih (step state (translate input)).2

/-- The condition holds of every step of a run: of the state before the step
and of its input. -/
def Along (step : σ → ι → ο × σ) (condition : σ → ι → Prop) :
    σ → List ι → Prop
  | _, [] => True
  | state, input :: inputs =>
      condition state input ∧ Along step condition (step state input).2 inputs

instance Along.decidable (step : σ → ι → ο × σ) (condition : σ → ι → Prop)
    [∀ state input, Decidable (condition state input)]
    (state : σ) (inputs : List ι) :
    Decidable (Along step condition state inputs) :=
  match inputs with
  | [] => isTrue trivial
  | _ :: inputs =>
      @instDecidableAnd _ _ _ (decidable step condition _ inputs)

/-- `Along` for a condition that may look at the whole run before the step. -/
def AlongPast (step : σ → ι → ο × σ)
    (condition : List (ι × ο) → σ → ι → Prop) :
    List (ι × ο) → σ → List ι → Prop
  | _, _, [] => True
  | past, state, input :: inputs =>
      condition past state input ∧
        AlongPast step condition (past ++ [(input, (step state input).1)])
          (step state input).2 inputs

instance AlongPast.decidable (step : σ → ι → ο × σ)
    (condition : List (ι × ο) → σ → ι → Prop)
    [∀ past state input, Decidable (condition past state input)]
    (past : List (ι × ο)) (state : σ) (inputs : List ι) :
    Decidable (AlongPast step condition past state inputs) :=
  match inputs with
  | [] => isTrue trivial
  | _ :: inputs =>
      @instDecidableAnd _ _ _ (decidable step condition _ _ inputs)

theorem AlongPast.mono {step : σ → ι → ο × σ}
    {condition weaker : List (ι × ο) → σ → ι → Prop}
    (weakens : ∀ past state input, condition past state input →
      weaker past state input)
    {past : List (ι × ο)} {state : σ} {inputs : List ι}
    (along : AlongPast step condition past state inputs) :
    AlongPast step weaker past state inputs := by
  induction inputs generalizing past state with
  | nil => trivial
  | cons input inputs ih => exact ⟨weakens _ _ _ along.1, ih along.2⟩

theorem alongPast_append (step : σ → ι → ο × σ)
    (condition : List (ι × ο) → σ → ι → Prop) (past : List (ι × ο))
    (state : σ) (before after : List ι) :
    AlongPast step condition past state (before ++ after) ↔
      AlongPast step condition past state before ∧
        AlongPast step condition (past ++ history step state before)
          (final step state before) after := by
  induction before generalizing past state with
  | nil => simp [AlongPast, history, final]
  | cons input before ih =>
      simp [AlongPast, history, final, ih, and_assoc]

theorem along_iff_alongPast (step : σ → ι → ο × σ)
    (condition : σ → ι → Prop) (past : List (ι × ο)) (state : σ)
    (inputs : List ι) :
    Along step condition state inputs ↔
      AlongPast step (fun _ => condition) past state inputs := by
  induction inputs generalizing past state with
  | nil => exact Iff.rfl
  | cons input inputs ih => exact and_congr Iff.rfl (ih _ _)

/-- Two conditions that an invariant makes equivalent hold along the same
runs; the steps that meet the second keep the invariant. -/
theorem alongPast_iff_of_invariant {step : σ → ι → ο × σ}
    {condition other : List (ι × ο) → σ → ι → Prop}
    (invariant : List (ι × ο) → σ → Prop)
    (exact : ∀ past state input, invariant past state →
      (condition past state input ↔ other past state input))
    (kept : ∀ past state input, invariant past state →
      other past state input →
        invariant (past ++ [(input, (step state input).1)])
          (step state input).2)
    (inputs : List ι) {past : List (ι × ο)} {state : σ}
    (initial : invariant past state) :
    AlongPast step condition past state inputs ↔
      AlongPast step other past state inputs := by
  induction inputs generalizing past state with
  | nil => exact Iff.rfl
  | cons input inputs ih =>
      rw [AlongPast, AlongPast, exact past state input initial]
      apply and_congr_right
      intro meets
      exact ih (kept past state input initial meets)

/-- An invariant of the steps that meet a condition brings a property of every
step along. -/
theorem AlongPast.of_invariant {step : σ → ι → ο × σ}
    {condition property : List (ι × ο) → σ → ι → Prop}
    (invariant : List (ι × ο) → σ → Prop)
    (implies : ∀ past state input, invariant past state →
      condition past state input → property past state input)
    (kept : ∀ past state input, invariant past state →
      condition past state input →
        invariant (past ++ [(input, (step state input).1)])
          (step state input).2)
    (inputs : List ι) {past : List (ι × ο)} {state : σ}
    (initial : invariant past state)
    (along : AlongPast step condition past state inputs) :
    AlongPast step property past state inputs := by
  induction inputs generalizing past state with
  | nil => trivial
  | cons input inputs ih =>
      exact ⟨implies past state input initial along.1,
        ih (kept past state input initial along.1) along.2⟩

/-- A condition holds along the front part of a run. -/
theorem AlongPast.front {step : σ → ι → ο × σ}
    {condition : List (ι × ο) → σ → ι → Prop} {past : List (ι × ο)}
    {state : σ} {before inputs : List ι}
    (along : AlongPast step condition past state inputs)
    (isPrefix : before <+: inputs) :
    AlongPast step condition past state before := by
  obtain ⟨after, split⟩ := isPrefix
  rw [← split, alongPast_append] at along
  exact along.1

theorem Along.front {step : σ → ι → ο × σ} {condition : σ → ι → Prop}
    {state : σ} {before inputs : List ι}
    (along : Along step condition state inputs)
    (isPrefix : before <+: inputs) : Along step condition state before := by
  rw [along_iff_alongPast step condition []] at along ⊢
  exact along.front isPrefix

theorem Along.and {step : σ → ι → ο × σ} {condition other : σ → ι → Prop}
    {state : σ} {inputs : List ι} (along : Along step condition state inputs)
    (alongOther : Along step other state inputs) :
    Along step (fun state input => condition state input ∧ other state input)
      state inputs := by
  induction inputs generalizing state with
  | nil => trivial
  | cons input inputs ih =>
      exact ⟨⟨along.1, alongOther.1⟩, ih along.2 alongOther.2⟩

theorem AlongPast.and_forall {step : σ → ι → ο × σ}
    {condition : List (ι × ο) → σ → ι → Prop} {admissible : ι → Prop}
    {past : List (ι × ο)} {state : σ} {inputs : List ι}
    (along : AlongPast step condition past state inputs)
    (legal : ∀ input ∈ inputs, admissible input) :
    AlongPast step
      (fun past state input => condition past state input ∧ admissible input)
      past state inputs := by
  induction inputs generalizing past state with
  | nil => trivial
  | cons input inputs ih =>
      refine ⟨⟨along.1, legal input List.mem_cons_self⟩, ih along.2 ?_⟩
      intro later member
      exact legal later (List.mem_cons_of_mem input member)

/-- A condition on the inputs alone holds along a run when every input meets
it. -/
theorem alongPast_of_forall {step : σ → ι → ο × σ} {admissible : ι → Prop}
    (inputs : List ι) (legal : ∀ input ∈ inputs, admissible input)
    (past : List (ι × ο)) (state : σ) :
    AlongPast step (fun _ _ => admissible) past state inputs := by
  induction inputs generalizing past state with
  | nil => trivial
  | cons input inputs ih =>
      refine ⟨legal input List.mem_cons_self, ih ?_ _ _⟩
      intro later member
      exact legal later (List.mem_cons_of_mem input member)

/-- What holds at the start and is kept by every step that meets a condition
holds at the end of every run whose steps all meet it. -/
theorem invariant_along
    {step : σ → ι → ο × σ} {start : σ}
    {condition : List (ι × ο) → σ → ι → Prop}
    {invariant : List (ι × ο) → σ → Prop}
    (initial : invariant [] start)
    (preserved : ∀ past state input, condition past state input →
      invariant past state →
        invariant (past ++ [(input, (step state input).1)])
          (step state input).2)
    (inputs : List ι) (along : AlongPast step condition [] start inputs) :
    invariant (history step start inputs) (final step start inputs) := by
  induction inputs using List.reverseRecOn with
  | nil => exact initial
  | append_singleton inputs input ih =>
      obtain ⟨earlier, last, _⟩ :=
        (alongPast_append step condition [] start inputs [input]).mp along
      rw [history_append, final_append]
      exact preserved _ _ input last (ih earlier)

/-- `invariant_along` for a condition on the inputs. -/
theorem invariant_on
    {step : σ → ι → ο × σ} {start : σ} (admissible : ι → Prop)
    {invariant : List (ι × ο) → σ → Prop}
    (initial : invariant [] start)
    (preserved : ∀ past state input, admissible input →
      invariant past state →
        invariant (past ++ [(input, (step state input).1)])
          (step state input).2)
    (inputs : List ι) (legal : ∀ input ∈ inputs, admissible input) :
    invariant (history step start inputs) (final step start inputs) :=
  invariant_along initial preserved inputs
    (alongPast_of_forall inputs legal [] start)

/-- `invariant_on` for machines without inadmissible inputs. -/
theorem invariant
    {step : σ → ι → ο × σ} {start : σ}
    {invariant : List (ι × ο) → σ → Prop}
    (initial : invariant [] start)
    (preserved : ∀ past state input, invariant past state →
      invariant (past ++ [(input, (step state input).1)])
        (step state input).2)
    (inputs : List ι) :
    invariant (history step start inputs) (final step start inputs) :=
  invariant_on (fun _ => True) initial
    (fun past state input _ => preserved past state input)
    inputs (fun _ _ => trivial)

/-- An invariant of the state alone. -/
theorem final_invariant_along
    {step : σ → ι → ο × σ} {condition : σ → ι → Prop} {property : σ → Prop}
    (preserved : ∀ state input, condition state input → property state →
      property (step state input).2)
    (inputs : List ι) {start : σ} (along : Along step condition start inputs)
    (initial : property start) :
    property (final step start inputs) := by
  induction inputs generalizing start with
  | nil => exact initial
  | cons input inputs ih =>
      exact ih along.2 (preserved start input along.1 initial)

theorem final_invariant_on
    {step : σ → ι → ο × σ} (admissible : ι → Prop) {property : σ → Prop}
    (preserved : ∀ state input, admissible input → property state →
      property (step state input).2)
    (inputs : List ι) (legal : ∀ input ∈ inputs, admissible input)
    {start : σ} (initial : property start) :
    property (final step start inputs) := by
  induction inputs generalizing start with
  | nil => exact initial
  | cons input inputs ih =>
      apply ih
      · intro later member
        exact legal later (List.mem_cons_of_mem input member)
      · exact preserved start input (legal input List.mem_cons_self) initial

theorem final_invariant
    {step : σ → ι → ο × σ} {property : σ → Prop}
    (preserved : ∀ state input, property state → property (step state input).2)
    (inputs : List ι) {start : σ} (initial : property start) :
    property (final step start inputs) :=
  final_invariant_on (fun _ => True)
    (fun state input _ => preserved state input)
    inputs (fun _ _ => trivial) initial

/-- A run whose steps may fail and that has not failed ends where the property
holds that its steps keep. -/
theorem foldlM_invariant {step : σ → ι → Option σ} (property : σ → Prop)
    {inputs : List ι} {start last : σ}
    (preserved : ∀ input ∈ inputs, ∀ state next, property state →
      step state input = some next → property next)
    (initial : property start)
    (reached : inputs.foldlM step start = some last) : property last := by
  induction inputs generalizing start with
  | nil =>
      cases reached
      exact initial
  | cons input inputs ih =>
      rw [List.foldlM_cons] at reached
      obtain ⟨next, stepped, later⟩ := Option.bind_eq_some_iff.mp reached
      refine ih ?_ ?_ later
      · intro other member
        exact preserved other (List.mem_cons_of_mem input member)
      · exact preserved input List.mem_cons_self start next initial stepped

/-- A property that cannot be regained, and that a step keeps exactly when it
meets a condition, holds at the end of a run exactly when every step met it. -/
theorem final_iff_along
    {step : σ → ι → ο × σ} {condition : σ → ι → Prop}
    {invariant : σ → Prop} (property : σ → Prop)
    (kept : ∀ state input, invariant state → invariant (step state input).2)
    (exact : ∀ state input, invariant state →
      (property (step state input).2 ↔
        property state ∧ condition state input))
    (inputs : List ι) {start : σ} (initial : invariant start) :
    property (final step start inputs) ↔
      property start ∧ Along step condition start inputs := by
  induction inputs generalizing start with
  | nil => simp [final, Along]
  | cons input inputs ih =>
      rw [final, ih (kept start input initial), exact start input initial,
        and_assoc]
      rfl

/-- Every answer of a run is as wanted exactly when every step meets a
condition, for an invariant that the steps meeting it keep. -/
theorem forall_history_iff_along
    {step : σ → ι → ο × σ} {condition : σ → ι → Prop}
    (invariant : σ → Prop) (wanted : ο → Prop)
    (exact : ∀ state input, invariant state →
      (wanted (step state input).1 ↔ condition state input))
    (kept : ∀ state input, invariant state → condition state input →
      invariant (step state input).2)
    (inputs : List ι) {start : σ} (initial : invariant start) :
    (∀ entry ∈ history step start inputs, wanted entry.2) ↔
      Along step condition start inputs := by
  induction inputs generalizing start with
  | nil => simp [history, Along]
  | cons input inputs ih =>
      rw [history, List.forall_mem_cons, Along, exact start input initial]
      apply and_congr_right
      intro meets
      exact ih (kept start input initial meets)

/-- A property that every step keeps exactly when the step meets a condition
holds throughout a run exactly when every step of the run meets it.  The
invariant is what the step lemma may use besides the property. -/
theorem throughout_past_iff
    {step : σ → ι → ο × σ} {start : σ} {inputs : List ι}
    {condition : List (ι × ο) → σ → ι → Prop}
    (invariant property : List (ι × ο) → σ → Prop)
    (holds : ∀ before, before <+: inputs →
      invariant (history step start before) (final step start before))
    (initial : property [] start)
    (exact : ∀ past state input,
      invariant past state →
        invariant (past ++ [(input, (step state input).1)])
            (step state input).2 →
          property past state →
            (property (past ++ [(input, (step state input).1)])
              (step state input).2 ↔ condition past state input)) :
    (∀ before, before <+: inputs →
        property (history step start before) (final step start before)) ↔
      AlongPast step condition [] start inputs := by
  induction inputs using List.reverseRecOn with
  | nil =>
      constructor
      · intro _
        trivial
      · intro _ before isPrefix
        rw [List.prefix_nil.mp isPrefix]
        exact initial
  | append_singleton inputs input ih =>
      have shorter := ih (fun before isPrefix =>
        holds before (isPrefix.trans (List.prefix_append inputs [input])))
      have atEnd := holds inputs (List.prefix_append inputs [input])
      have afterEnd := holds (inputs ++ [input]) (List.prefix_refl _)
      rw [history_append, final_append] at afterEnd
      rw [alongPast_append, ← shorter, List.nil_append]
      constructor
      · intro throughout
        have earlier : ∀ before, before <+: inputs →
            property (history step start before) (final step start before) :=
          fun before isPrefix => throughout before
            (isPrefix.trans (List.prefix_append inputs [input]))
        refine ⟨earlier, ?_, trivial⟩
        have last := throughout (inputs ++ [input]) (List.prefix_refl _)
        rw [history_append, final_append] at last
        exact (exact _ _ input atEnd afterEnd
          (earlier inputs (List.prefix_refl _))).mp last
      · intro conditions before isPrefix
        obtain ⟨earlier, lastCondition, _⟩ := conditions
        rcases List.prefix_concat_iff.mp isPrefix with whole | shorterPrefix
        · subst whole
          rw [history_append, final_append]
          exact (exact _ _ input atEnd afterEnd
            (earlier inputs (List.prefix_refl _))).mpr lastCondition
        · exact earlier before shorterPrefix

/-- `throughout_past_iff` for a condition on the state before the step. -/
theorem throughout_iff
    {step : σ → ι → ο × σ} {start : σ} {inputs : List ι}
    {condition : σ → ι → Prop} (invariant property : List (ι × ο) → σ → Prop)
    (holds : ∀ before, before <+: inputs →
      invariant (history step start before) (final step start before))
    (initial : property [] start)
    (exact : ∀ past state input,
      invariant past state →
        invariant (past ++ [(input, (step state input).1)])
            (step state input).2 →
          property past state →
            (property (past ++ [(input, (step state input).1)])
              (step state input).2 ↔ condition state input)) :
    (∀ before, before <+: inputs →
        property (history step start before) (final step start before)) ↔
      Along step condition start inputs := by
  rw [along_iff_alongPast step condition []]
  exact throughout_past_iff invariant property holds initial exact

/-- An invariant of the states and a relation on the steps hold throughout every
run whose steps all meet a condition, when each such step keeps the one and
satisfies the other. -/
theorem throughout_steps_of_along
    {step : σ → ι → ο × σ} {condition : σ → ι → Prop}
    (invariant : σ → Prop) (transition : σ → ι → σ → Prop)
    (sound : ∀ state input, invariant state → condition state input →
      invariant (step state input).2 ∧
        transition state input (step state input).2)
    (inputs : List ι) {start : σ} (initial : invariant start)
    (along : Along step condition start inputs) :
    (∀ before, before <+: inputs → invariant (final step start before)) ∧
      ∀ before input, before ++ [input] <+: inputs →
        transition (final step start before) input
          (final step start (before ++ [input])) := by
  induction inputs generalizing start with
  | nil =>
      refine ⟨?_, ?_⟩
      · intro before isPrefix
        rw [List.prefix_nil.mp isPrefix]
        exact initial
      · intro before input isPrefix
        have nothing := List.prefix_nil.mp isPrefix
        simp at nothing
  | cons input inputs ih =>
      obtain ⟨meets, rest⟩ := along
      obtain ⟨kept, moved⟩ := sound start input initial meets
      obtain ⟨states, steps⟩ := ih kept rest
      refine ⟨?_, ?_⟩
      · intro before isPrefix
        cases before with
        | nil => exact initial
        | cons first before =>
            obtain ⟨same, shorter⟩ := List.cons_prefix_cons.mp isPrefix
            rw [same]
            exact states before shorter
      · intro before later isPrefix
        cases before with
        | nil =>
            obtain ⟨same, _⟩ := List.cons_prefix_cons.mp isPrefix
            rw [same]
            exact moved
        | cons first before =>
            obtain ⟨same, shorter⟩ := List.cons_prefix_cons.mp isPrefix
            rw [same]
            exact steps before later shorter

/-- Properties of the states and of the steps of a run together: they hold
throughout the run exactly when every step meets the condition. -/
theorem throughout_steps_iff
    {step : σ → ι → ο × σ} {condition : σ → ι → Prop}
    (invariant property : σ → Prop) (transition : σ → ι → σ → Prop)
    (kept : ∀ state input, invariant state → invariant (step state input).2)
    (exact : ∀ state input, invariant state → property state →
      (property (step state input).2 ∧
          transition state input (step state input).2 ↔
        condition state input))
    (inputs : List ι) {start : σ} (holds : invariant start)
    (initial : property start) :
    ((∀ before, before <+: inputs → property (final step start before)) ∧
        ∀ before input, before ++ [input] <+: inputs →
          transition (final step start before) input
            (final step start (before ++ [input]))) ↔
      Along step condition start inputs := by
  constructor
  · intro throughout
    induction inputs generalizing start with
    | nil => trivial
    | cons input inputs ih =>
        obtain ⟨states, steps⟩ := throughout
        have afterFirst : property (step start input).2 :=
          states [input] (List.prefix_append [input] inputs)
        have firstStep : transition start input (step start input).2 :=
          steps [] input (List.prefix_append [input] inputs)
        refine ⟨(exact start input holds initial).mp ⟨afterFirst, firstStep⟩,
          ih (kept start input holds) afterFirst ⟨?_, ?_⟩⟩
        · intro before isPrefix
          exact states (input :: before) (List.cons_prefix_cons.mpr
            ⟨rfl, isPrefix⟩)
        · intro before later isPrefix
          exact steps (input :: before) later (List.cons_prefix_cons.mpr
            ⟨rfl, isPrefix⟩)
  · intro along
    have sound : ∀ state input, invariant state ∧ property state →
        condition state input →
          (invariant (step state input).2 ∧ property (step state input).2) ∧
            transition state input (step state input).2 := by
      intro state input before meets
      obtain ⟨after, moved⟩ :=
        (exact state input before.1 before.2).mpr meets
      exact ⟨⟨kept state input before.1, after⟩, moved⟩
    obtain ⟨states, steps⟩ := throughout_steps_of_along
      (fun state => invariant state ∧ property state) transition sound inputs
      ⟨holds, initial⟩ along
    exact ⟨fun before isPrefix => (states before isPrefix).2, steps⟩

/-- What a step takes in goes behind the contents, and what it hands out comes
off their front. -/
def FirstInFirstOut {α : Type*} (step : σ → ι → ο × σ)
    (contents : σ → List α) (accepted released : ι × ο → List α) : Prop :=
  ∀ state input,
    contents state ++ accepted (input, (step state input).1) =
      released (input, (step state input).1) ++ contents (step state input).2

/-- Over a run nothing is lost, repeated or moved: what was handed out and what
is still there are what was there and what was taken in. -/
theorem FirstInFirstOut.run {α : Type*} {step : σ → ι → ο × σ}
    {contents : σ → List α} {accepted released : ι × ο → List α}
    (law : FirstInFirstOut step contents accepted released) (inputs : List ι)
    (state : σ) :
    contents state ++ (history step state inputs).flatMap accepted =
      (history step state inputs).flatMap released ++
        contents (final step state inputs) := by
  induction inputs generalizing state with
  | nil => exact List.append_nil _
  | cons input inputs ih =>
      simp only [history, List.flatMap_cons, final]
      rw [← List.append_assoc, law state input, List.append_assoc,
        ih (step state input).2, List.append_assoc]

/-- An event of the first kind has happened, and none of the second kind
since. -/
def Since (mark reset : ο → Prop) (events : List ο) : Prop :=
  ∃ before event after, events = before ++ event :: after ∧ mark event ∧
    ∀ later ∈ after, ¬ reset later

theorem not_since_nil (mark reset : ο → Prop) : ¬ Since mark reset [] := by
  intro since
  obtain ⟨before, event, after, split, -⟩ := since
  simp at split

theorem Since.mono {mark weaker reset stronger : ο → Prop} {events : List ο}
    (weakens : ∀ event, mark event → weaker event)
    (strengthens : ∀ event, stronger event → reset event)
    (since : Since mark reset events) : Since weaker stronger events := by
  obtain ⟨before, event, after, split, isMarked, kept⟩ := since
  refine ⟨before, event, after, split, weakens event isMarked, ?_⟩
  intro later member isReset
  exact kept later member (strengthens later isReset)

theorem since_concat_iff {mark reset : ο → Prop} {events : List ο}
    {event : ο} :
    Since mark reset (events ++ [event]) ↔
      mark event ∨ Since mark reset events ∧ ¬ reset event := by
  constructor
  · intro since
    obtain ⟨before, marked, after, split, isMarked, kept⟩ := since
    induction after using List.reverseRecOn with
    | nil =>
        have same := List.singleton_inj.mp (List.append_inj' split rfl).2
        rw [same]
        exact Or.inl isMarked
    | append_singleton after last _ =>
        rw [← List.cons_append, ← List.append_assoc] at split
        obtain ⟨earlier, same⟩ := List.append_inj' split rfl
        rw [List.singleton_inj] at same
        refine Or.inr ⟨⟨before, marked, after, earlier, isMarked, ?_⟩, ?_⟩
        · intro later member
          exact kept later (List.mem_append_left _ member)
        · rw [same]
          exact kept last (List.mem_append_right _ List.mem_cons_self)
  · intro cases
    rcases cases with isMarked | earlier
    · refine ⟨events, event, [], rfl, isMarked, ?_⟩
      intro later member
      cases member
    · obtain ⟨⟨before, marked, after, rfl, isMarked, kept⟩, keptNow⟩ := earlier
      refine ⟨before, marked, after ++ [event], ?_, isMarked, ?_⟩
      · rw [List.append_assoc, List.cons_append]
      · intro later member
        rcases List.mem_append.mp member with old | new
        · exact kept later old
        · rw [List.mem_singleton.mp new]
          exact keptNow

theorem since_iff_foldl (mark reset : ο → Prop) [DecidablePred mark]
    [DecidablePred reset] (events : List ο) :
    Since mark reset events ↔
      events.foldl (fun since event =>
        decide (mark event) || (since && !decide (reset event))) false =
          true := by
  induction events using List.reverseRecOn with
  | nil => simp [not_since_nil]
  | append_singleton events event ih =>
      rw [since_concat_iff, ih, List.foldl_append]
      simp

instance Since.decidable (mark reset : ο → Prop) [DecidablePred mark]
    [DecidablePred reset] (events : List ο) :
    Decidable (Since mark reset events) :=
  decidable_of_iff _ (since_iff_foldl mark reset events).symm

section Keyed

variable {κ : Type*} [DecidableEq κ] {S : Type*}

/-- A machine whose state is looked up under a key and created by the first
input of that key.  `start` is the state that first input creates. -/
def Keyed (step : σ → ι → ο × σ) (start : ι → σ)
    (lookup : S → κ → Option σ) (keyed : S → κ × ι → ο × S) : Prop :=
  ∀ (state : S) (key : κ) (input : ι),
    (keyed state (key, input)).1 =
        (step ((lookup state key).getD (start input)) input).1 ∧
      ∀ other, lookup (keyed state (key, input)).2 other =
        if other = key then
          some (step ((lookup state key).getD (start input)) input).2
        else lookup state other

/-- The inputs of one key, in order. -/
def inputsOf (key : κ) (calls : List (κ × ι)) : List ι :=
  (calls.filter (fun call => call.1 = key)).map Prod.snd

/-- The history of one key: its inputs with their answers, in order. -/
def historyOf (key : κ) (calls : List ((κ × ι) × ο)) : List (ι × ο) :=
  (calls.filter (fun call => call.1.1 = key)).map
    (fun call => (call.1.2, call.2))

theorem mem_inputsOf {key : κ} {calls : List (κ × ι)} {input : ι} :
    input ∈ inputsOf key calls ↔ (key, input) ∈ calls := by
  simp [inputsOf]

theorem length_inputsOf_le (key : κ) (calls : List (κ × ι)) :
    (inputsOf key calls).length ≤ calls.length := by
  rw [inputsOf, List.length_map]
  exact List.length_filter_le _ _

/-- A table that creates an absent entry and then replaces it by its
successor is keyed. -/
theorem keyed_of_table [Ord κ] [Std.TransOrd κ] [Std.LawfulEqOrd κ]
    {step : σ → ι → ο × σ} {start : ι → σ}
    {table : S → Std.ExtTreeMap κ σ compare} {keyed : S → κ × ι → ο × S}
    (answer : ∀ state key input, (keyed state (key, input)).1 =
      (step ((table state)[key]?.getD (start input)) input).1)
    (update : ∀ state key input, table (keyed state (key, input)).2 =
      (table state).insert key
        (step ((table state)[key]?.getD (start input)) input).2) :
    Keyed step start (fun state key => (table state)[key]?) keyed := by
  intro state key input
  refine ⟨answer state key input, ?_⟩
  intro other
  simp only
  rw [update state key input, Std.ExtTreeMap.getElem?_insert]
  by_cases same : other = key
  · simp [same]
  · have different : ¬ compare key other = .eq := by
      rw [Std.LawfulEqCmp.compare_eq_iff_eq]
      exact fun equality => same equality.symm
    rw [if_neg different, if_neg same]

/-- Once a key has a state, the calls for it behave as that state run alone. -/
theorem Keyed.historyOf_of_lookup
    {step : σ → ι → ο × σ} {start : ι → σ} {lookup : S → κ → Option σ}
    {keyed : S → κ × ι → ο × S} (isKeyed : Keyed step start lookup keyed)
    (key : κ) (calls : List (κ × ι)) (state : S) (component : σ)
    (present : lookup state key = some component) :
    historyOf key (history keyed state calls) =
      history step component (inputsOf key calls) := by
  induction calls generalizing state component with
  | nil => rfl
  | cons call calls ih =>
      obtain ⟨callKey, input⟩ := call
      obtain ⟨answer, update⟩ := isKeyed state callKey input
      by_cases same : callKey = key
      · subst callKey
        have next := ih (keyed state (key, input)).2 (step component input).2
          (by simpa [present] using update key)
        simp only [historyOf, inputsOf] at next ⊢
        simp [history, answer, present, next]
      · have untouched :
            lookup (keyed state (callKey, input)).2 key = some component := by
          rw [update key, if_neg (Ne.symm same), present]
        have next := ih (keyed state (callKey, input)).2 component untouched
        simp only [historyOf, inputsOf] at next ⊢
        simp [history, same, next]

/-- Before its first input a key has no history; afterwards it behaves as the
component which that first input creates. -/
theorem Keyed.historyOf_of_absent
    {step : σ → ι → ο × σ} {start : ι → σ} {lookup : S → κ → Option σ}
    {keyed : S → κ × ι → ο × S} (isKeyed : Keyed step start lookup keyed)
    (key : κ) (calls : List (κ × ι)) (state : S)
    (absent : lookup state key = none) :
    historyOf key (history keyed state calls) =
      match inputsOf key calls with
      | [] => []
      | first :: rest => history step (start first) (first :: rest) := by
  induction calls generalizing state with
  | nil => rfl
  | cons call calls ih =>
      obtain ⟨callKey, input⟩ := call
      obtain ⟨answer, update⟩ := isKeyed state callKey input
      by_cases same : callKey = key
      · subst callKey
        have next := isKeyed.historyOf_of_lookup key calls
          (keyed state (key, input)).2 (step (start input) input).2
          (by simpa [absent] using update key)
        simp only [historyOf, inputsOf] at next ⊢
        simp [history, answer, absent, next]
      · have untouched :
            lookup (keyed state (callKey, input)).2 key = none := by
          rw [update key, if_neg (Ne.symm same), absent]
        have next := ih (keyed state (callKey, input)).2 untouched
        simp only [historyOf, inputsOf] at next ⊢
        simp [history, same, next]

end Keyed

end Trace
