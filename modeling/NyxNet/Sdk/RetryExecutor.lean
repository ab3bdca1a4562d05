import NyxNet.Lib.Time
import NyxNet.Lib.Word
import NyxNet.Sdk.Retry

/-!
# The retry executor

`RetryExecutor::execute` of `nyx-sdk/src/retry.rs`.  The attempt count, the
elapsed time and the kind of the error stop the loop.  The delay in front of the
next call stops it as well: it is multiplied before it is capped, and the
multiplication panics on what is no span of time.
-/

namespace NyxNet.Sdk

/-- `RetryStrategy` with its fields about delays. -/
structure BackoffStrategy extends RetryStrategy where
  initialDelay : Duration
  maxDelay : Duration
  backoffMultiplier : Float
  jitter : Bool
  maxAttempts_lt : maxAttempts < 2 ^ 32

/-- The start of the retries is left out; the time since enters where it is
read. -/
structure RetryContext where
  attempt : Nat
  lastError : Option NyxError
  totalDelay : Duration
  deriving DecidableEq

def RetryContext.new : RetryContext where
  attempt := 0
  lastError := none
  totalDelay := Duration.zero

/-- One call of the operation and what is read behind it: the elapsed time for
the decision, the one for the note, and the random number for the jitter. -/
structure Attempt (α : Type) where
  outcome : Except NyxError α
  elapsed : Duration
  noted : Duration
  draw : Float

/-- How an execution ends, and how often it has called the operation. -/
structure Execution (α : Type) where
  calls : Nat
  result : Outcome NyxError α
  deriving DecidableEq

namespace BackoffStrategy

variable {α : Type} (powi : Float → Int32 → Float) (strategy : BackoffStrategy)

/-- `next_delay`, given the `powi` of the platform and the random number.  No
result stands for a panic of `mul_f64`. -/
def nextDelay (attempt : Nat) (draw : Float) : Option Duration := do
  let baseDelay ←
    if attempt = 0 then
      some strategy.initialDelay
    else do
      let multiplier :=
        powi strategy.backoffMultiplier (Int32.ofNat (attempt - 1))
      let delay ← strategy.initialDelay.mulF64 multiplier
      some (delay.least strategy.maxDelay)
  if strategy.jitter then
    baseDelay.mulF64 (0.75 + draw * 0.5)
  else
    some baseDelay

/-- The sum of the delays with the next one.  The overflow of `+=` panics as
well. -/
def addDelay (totalDelay : Duration) (attempt : Nat) (draw : Float) :
    Option Duration :=
  (strategy.nextDelay powi attempt draw).bind totalDelay.checkedAdd

/-- The body of the loop: the end of the execution, or the context of the next
turn. -/
def turn (attempts : Nat → Attempt α) (context : RetryContext) :
    Execution α ⊕ RetryContext :=
  let attempt := context.attempt + 1
  let call := attempts context.attempt
  match call.outcome with
  | .ok result => .inl ⟨attempt, .returned result⟩
  | .error error =>
      if ¬ strategy.shouldContinue attempt call.elapsed error then
        .inl ⟨attempt, .failed
          (enhanceErrorWithContext error attempt call.noted)⟩
      else
        match strategy.addDelay powi context.totalDelay attempt call.draw with
        | none => .inl ⟨attempt, .panicked⟩
        | some totalDelay =>
            .inr { attempt, lastError := some error, totalDelay }

variable {attempts : Nat → Attempt α} {context : RetryContext}

theorem turn_of_ok {value : α}
    (answer : (attempts context.attempt).outcome = .ok value) :
    strategy.turn powi attempts context =
      .inl ⟨context.attempt + 1, .returned value⟩ := by
  unfold turn
  simp only
  rw [answer]

theorem turn_of_stop {error : NyxError}
    (answer : (attempts context.attempt).outcome = .error error)
    (stops : strategy.shouldContinue (context.attempt + 1)
      (attempts context.attempt).elapsed error = false) :
    strategy.turn powi attempts context =
      .inl ⟨context.attempt + 1, .failed
        (enhanceErrorWithContext error (context.attempt + 1)
          (attempts context.attempt).noted)⟩ := by
  unfold turn
  simp only
  rw [answer]
  exact if_pos (ne_true_of_eq_false stops)

theorem turn_of_retry {error : NyxError}
    (answer : (attempts context.attempt).outcome = .error error)
    (continues : strategy.shouldContinue (context.attempt + 1)
      (attempts context.attempt).elapsed error = true) :
    strategy.turn powi attempts context =
      match strategy.addDelay powi context.totalDelay (context.attempt + 1)
          (attempts context.attempt).draw with
      | none => .inl ⟨context.attempt + 1, .panicked⟩
      | some totalDelay =>
          .inr ⟨context.attempt + 1, some error, totalDelay⟩ := by
  unfold turn
  simp only
  rw [answer]
  exact if_neg (not_not.mpr continues)

/-- A turn that is not the last leaves room for another attempt. -/
theorem attempt_of_turn {next : RetryContext}
    (isRetry : strategy.turn powi attempts context = .inr next) :
    next.attempt = context.attempt + 1 ∧
      next.attempt < strategy.maxAttempts := by
  cases answer : (attempts context.attempt).outcome with
  | ok value =>
      rw [turn_of_ok powi strategy answer] at isRetry
      cases isRetry
  | error error =>
      cases continues : strategy.shouldContinue (context.attempt + 1)
          (attempts context.attempt).elapsed error with
      | false =>
          rw [turn_of_stop powi strategy answer continues] at isRetry
          cases isRetry
      | true =>
          have below := (RetryStrategy.shouldContinue_iff.mp continues).1
          rw [turn_of_retry powi strategy answer continues] at isRetry
          cases added : strategy.addDelay powi context.totalDelay
              (context.attempt + 1) (attempts context.attempt).draw with
          | none =>
              rw [added] at isRetry
              cases isRetry
          | some total =>
              rw [added] at isRetry
              cases isRetry
              exact ⟨rfl, below⟩

/-- The loop of `execute`. -/
def executeFrom (attempts : Nat → Attempt α) (context : RetryContext) :
    Execution α :=
  match _isRetry : strategy.turn powi attempts context with
  | .inl execution => execution
  | .inr next => executeFrom attempts next
termination_by strategy.maxAttempts - context.attempt
decreasing_by
  obtain ⟨advanced, below⟩ := attempt_of_turn powi strategy _isRetry
  omega

def execute (attempts : Nat → Attempt α) : Execution α :=
  strategy.executeFrom powi attempts .new

/-- A failure of call `index` after which no limit is in the way of another
call. -/
def Retried (attempts : Nat → Attempt α) (index : Nat) : Prop :=
  ∃ error, (attempts index).outcome = .error error ∧
    index + 1 < strategy.maxAttempts ∧
    (∀ maxTime, strategy.maxTotalTime = some maxTime →
      (attempts index).elapsed.asNanos < maxTime.asNanos) ∧
    error.isRetryable = true

/-- The error, or the error with a note at the end of its message. -/
def WithNote (error : NyxError) : NyxError → Prop :=
  match error with
  | .daemonConnection message sourceMsg => fun noted =>
      ∃ note, noted = .daemonConnection (message ++ note) sourceMsg
  | .network message endpoint => fun noted =>
      ∃ note, noted = .network (message ++ note) endpoint
  | other => fun noted => noted = other

/-- The result is the one of a call. -/
def IsResultOf (attempt : Attempt α) (result : Outcome NyxError α) : Prop :=
  match attempt.outcome with
  | .ok value => result = .returned value
  | .error error => ∃ noted, WithNote error noted ∧ result = .failed noted

/-- What an execution promises.  Every call but the last failed with no limit in
the way, the last one did not, and its result is the one of the execution. -/
structure KeepsContract (attempts : Nat → Attempt α)
    (execution : Execution α) : Prop where
  called : 1 ≤ execution.calls
  bounded : execution.calls ≤ max 1 strategy.maxAttempts
  retried : ∀ index, index + 1 < execution.calls →
    strategy.Retried attempts index
  stopped : ¬ strategy.Retried attempts (execution.calls - 1)
  result : IsResultOf (attempts (execution.calls - 1)) execution.result

/-- The delays in front of the first `count` retries add up to a span. -/
def totalDelay (attempts : Nat → Attempt α) : Nat → Option Duration
  | 0 => some Duration.zero
  | count + 1 =>
      (totalDelay attempts count).bind fun total =>
        strategy.addDelay powi total (count + 1) (attempts count).draw

/-- No delay in front of a call that is due panics. -/
def DelaysFit (attempts : Nat → Attempt α) : Prop :=
  ∀ index, (∀ earlier ≤ index, strategy.Retried attempts earlier) →
    ∃ total, strategy.totalDelay powi attempts (index + 1) = some total

variable {powi} {strategy}

theorem retried_iff {index : Nat} {error : NyxError}
    (failed : (attempts index).outcome = .error error) :
    strategy.Retried attempts index ↔
      strategy.shouldContinue (index + 1) (attempts index).elapsed error =
        true := by
  rw [RetryStrategy.shouldContinue_iff, Retried]
  constructor
  · intro retried
    obtain ⟨other, same, limits⟩ := retried
    rw [failed] at same
    cases same
    exact limits
  · intro limits
    exact ⟨error, failed, limits⟩

theorem enhanced_withNote (error : NyxError) (attempt : Nat)
    (elapsed : Duration) :
    WithNote error (enhanceErrorWithContext error attempt elapsed) := by
  cases error with
  | daemonConnection message sourceMsg => exact ⟨_, rfl⟩
  | network message endpoint => exact ⟨_, rfl⟩
  | _ => rfl

/-- How the loop ends from the first call that is still to be made: with the
result of a call that is not retried, or with a delay that panics. -/
structure EndsAt (powi : Float → Int32 → Float) (strategy : BackoffStrategy)
    (attempts : Nat → Attempt α) (first last : Nat)
    (execution : Execution α) : Prop where
  behind : first ≤ last
  calls : execution.calls = last + 1
  retried : ∀ index, first ≤ index → index < last →
    strategy.Retried attempts index ∧
      ∃ total, strategy.totalDelay powi attempts (index + 1) = some total
  ending :
    (¬ strategy.Retried attempts last ∧
      IsResultOf (attempts last) execution.result) ∨
    (strategy.Retried attempts last ∧
      strategy.totalDelay powi attempts (last + 1) = none ∧
      execution.result = .panicked)

theorem EndsAt.step {first last : Nat} {execution : Execution α}
    (retried : strategy.Retried attempts first)
    (fits : ∃ total, strategy.totalDelay powi attempts (first + 1) = some total)
    (ends : EndsAt powi strategy attempts (first + 1) last execution) :
    EndsAt powi strategy attempts first last execution where
  behind := Nat.le_of_succ_le ends.behind
  calls := ends.calls
  retried := by
    intro index from_first below
    rcases Nat.eq_or_lt_of_le from_first with rfl | later
    · exact ⟨retried, fits⟩
    · exact ends.retried index later below
  ending := ends.ending

theorem endsAt_now {first : Nat} {result : Outcome NyxError α}
    (ending :
      (¬ strategy.Retried attempts first ∧
        IsResultOf (attempts first) result) ∨
      (strategy.Retried attempts first ∧
        strategy.totalDelay powi attempts (first + 1) = none ∧
        result = .panicked)) :
    EndsAt powi strategy attempts first first ⟨first + 1, result⟩ where
  behind := Nat.le_refl first
  calls := rfl
  retried := by
    intro index from_first below
    omega
  ending := ending

/-- What a turn does with the sum of the delays so far. -/
theorem turn_spec
    (summed : strategy.totalDelay powi attempts context.attempt =
      some context.totalDelay) :
    (∃ result, strategy.turn powi attempts context =
        .inl ⟨context.attempt + 1, result⟩ ∧
      ((¬ strategy.Retried attempts context.attempt ∧
          IsResultOf (attempts context.attempt) result) ∨
        (strategy.Retried attempts context.attempt ∧
          strategy.totalDelay powi attempts (context.attempt + 1) = none ∧
          result = .panicked))) ∨
    (∃ next, strategy.turn powi attempts context = .inr next ∧
      next.attempt = context.attempt + 1 ∧
      strategy.Retried attempts context.attempt ∧
      strategy.totalDelay powi attempts next.attempt =
        some next.totalDelay) := by
  have nextTotal : strategy.totalDelay powi attempts (context.attempt + 1) =
      strategy.addDelay powi context.totalDelay (context.attempt + 1)
        (attempts context.attempt).draw := by
    rw [totalDelay, summed, Option.bind_some]
  cases answer : (attempts context.attempt).outcome with
  | ok value =>
      refine Or.inl ⟨_, turn_of_ok powi strategy answer, Or.inl ⟨?_, ?_⟩⟩
      · intro retried
        obtain ⟨error, failed, -⟩ := retried
        rw [answer] at failed
        cases failed
      · rw [IsResultOf, answer]
  | error error =>
      have decision : strategy.Retried attempts context.attempt ↔ _ :=
        retried_iff answer
      cases continues : strategy.shouldContinue (context.attempt + 1)
          (attempts context.attempt).elapsed error with
      | false =>
          refine Or.inl ⟨_, turn_of_stop powi strategy answer continues,
            Or.inl ⟨?_, ?_⟩⟩
          · intro retried
            rw [decision.mp retried] at continues
            cases continues
          · rw [IsResultOf, answer]
            exact ⟨_, enhanced_withNote error _ _, rfl⟩
      | true =>
          have retried := decision.mpr continues
          have turned := turn_of_retry powi strategy answer continues
          cases added : strategy.addDelay powi context.totalDelay
              (context.attempt + 1) (attempts context.attempt).draw with
          | none =>
              rw [added] at turned nextTotal
              exact Or.inl ⟨.panicked, turned, Or.inr ⟨retried, nextTotal, rfl⟩⟩
          | some total =>
              rw [added] at turned nextTotal
              exact Or.inr ⟨_, turned, rfl, retried, nextTotal⟩

/-- The loop ends. -/
theorem executeFrom_endsAt (context : RetryContext)
    (summed : strategy.totalDelay powi attempts context.attempt =
      some context.totalDelay) :
    ∃ last, EndsAt powi strategy attempts context.attempt last
      (strategy.executeFrom powi attempts context) := by
  rw [executeFrom]
  rcases turn_spec summed with
    ⟨result, isEnd, ending⟩ | ⟨next, goesOn, advanced, retried, nextSummed⟩
  · refine ⟨context.attempt, ?_⟩
    split
    · next execution equality =>
        rw [isEnd] at equality
        cases equality
        exact endsAt_now ending
    · next other equality =>
        rw [isEnd] at equality
        cases equality
  · split
    · next execution equality =>
        rw [goesOn] at equality
        cases equality
    · next other equality =>
        rw [goesOn] at equality
        cases equality
        obtain ⟨last, ends⟩ := executeFrom_endsAt next nextSummed
        rw [advanced] at ends nextSummed
        exact ⟨last, EndsAt.step retried ⟨_, nextSummed⟩ ends⟩
termination_by strategy.maxAttempts - context.attempt
decreasing_by
  obtain ⟨-, below⟩ := attempt_of_turn powi strategy goesOn
  omega

theorem execute_endsAt (powi : Float → Int32 → Float)
    (strategy : BackoffStrategy) (attempts : Nat → Attempt α) :
    ∃ last, EndsAt powi strategy attempts 0 last
      (strategy.execute powi attempts) :=
  executeFrom_endsAt .new rfl

/-- An execution that comes to a result keeps the contract. -/
theorem EndsAt.keepsContract {last : Nat} {execution : Execution α}
    (ends : EndsAt powi strategy attempts 0 last execution)
    (stopped : ¬ strategy.Retried attempts last)
    (result : IsResultOf (attempts last) execution.result) :
    strategy.KeepsContract attempts execution := by
  have lastCall : execution.calls - 1 = last := by
    rw [ends.calls, Nat.add_sub_cancel]
  constructor
  · rw [ends.calls]
    omega
  · rw [ends.calls]
    cases last with
    | zero => omega
    | succ earlier =>
        obtain ⟨⟨-, -, below, -⟩, -⟩ :=
          ends.retried earlier (Nat.zero_le _) (Nat.lt_succ_self _)
        omega
  · intro index inside
    rw [ends.calls] at inside
    exact (ends.retried index (Nat.zero_le _) (by omega)).1
  · rw [lastCall]
    exact stopped
  · rw [lastCall]
    exact result

/-- Where the contract is kept, a call follows every failure that is to be
retried. -/
theorem delaysFit_of_keepsContract {execution : Execution α} {last : Nat}
    (ends : EndsAt powi strategy attempts 0 last execution)
    (contract : strategy.KeepsContract attempts execution) :
    strategy.DelaysFit powi attempts := by
  intro index retried
  rcases ends.ending with ⟨stopped, -⟩ | ⟨isRetried, -, panicked⟩
  · have before : index < last := by
      by_contra behind
      exact stopped (retried last (Nat.le_of_not_lt behind))
    exact (ends.retried index (Nat.zero_le _) before).2
  · exfalso
    have result := contract.result
    rw [ends.calls, Nat.add_sub_cancel, panicked, IsResultOf] at result
    obtain ⟨error, failed, -⟩ := isRetried
    rw [failed] at result
    obtain ⟨noted, -, impossible⟩ := result
    cases impossible

/-- An execution keeps its contract exactly when no delay in front of a call
that is due panics. -/
theorem execute_keepsContract_iff (powi : Float → Int32 → Float)
    (strategy : BackoffStrategy) (attempts : Nat → Attempt α) :
    strategy.KeepsContract attempts (strategy.execute powi attempts) ↔
      strategy.DelaysFit powi attempts := by
  obtain ⟨last, ends⟩ := execute_endsAt powi strategy attempts
  constructor
  · intro contract
    exact delaysFit_of_keepsContract ends contract
  · intro fits
    rcases ends.ending with ⟨stopped, result⟩ | ⟨isRetried, tooLong, -⟩
    · exact ends.keepsContract stopped result
    · obtain ⟨total, sum⟩ := fits last (by
        intro earlier upTo
        rcases Nat.eq_or_lt_of_le upTo with rfl | before
        · exact isRetried
        · exact (ends.retried earlier (Nat.zero_le _) before).1)
      rw [tooLong] at sum
      cases sum

/-- The default delays, many attempts and no limit on the time. -/
def patientStrategy : BackoffStrategy where
  maxAttempts := 100
  maxTotalTime := none
  initialDelay := Duration.fromMillis 100
  maxDelay := Duration.fromSecs 30
  backoffMultiplier := 2.0
  jitter := true
  maxAttempts_lt := by decide

/-- A power by repeated multiplication, as far as the exponent is positive. -/
def multipliedOut (base : Float) (exponent : Int32) : Float :=
  exponent.toNatClampNeg.fold (fun _ _ product => product * base) 1.0

/-- An operation that always fails for the moment. -/
def unreachable (index : Nat) : Attempt Unit where
  outcome := .error (.network "temporary failure" none)
  elapsed := Duration.fromSecs (30 * UInt64.ofNat index)
  noted := Duration.fromSecs (30 * UInt64.ofNat index)
  draw := 0.5

/-- The delay before the 70th call is far above the cap, and the multiplication
in front of the cap has no result. -/
theorem execute_breaksContract :
    ¬ patientStrategy.KeepsContract unreachable
      (patientStrategy.execute multipliedOut unreachable) := by
  obtain ⟨last, ends⟩ :=
    execute_endsAt multipliedOut patientStrategy unreachable
  intro contract
  obtain ⟨total, sum⟩ := delaysFit_of_keepsContract ends contract 68 (by
    intro earlier upTo
    refine ⟨_, rfl, ?_, ?_, rfl⟩
    · exact Nat.lt_of_le_of_lt (Nat.succ_le_succ upTo) (by decide)
    · intro maxTime impossible
      cases impossible)
  have noDelay : patientStrategy.nextDelay multipliedOut 69 0.5 = none := by
    decide +kernel
  obtain ⟨before, -, added⟩ := Option.bind_eq_some_iff.mp sum
  obtain ⟨delay, delayed, -⟩ := Option.bind_eq_some_iff.mp added
  have impossible := noDelay.symm.trans delayed
  cases impossible

end BackoffStrategy

end NyxNet.Sdk
