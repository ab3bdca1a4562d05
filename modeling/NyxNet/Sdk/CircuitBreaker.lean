import Mathlib.Data.List.DropRight
import NyxNet.Lib.Time
import NyxNet.Lib.Trace
import NyxNet.Lib.Word

/-!
# The circuit breaker of the retry module

`CircuitBreaker` of `nyx-sdk/src/retry.rs` under timed calls.  The failures that
it counts in state `Closed` are those since the last success.  It never asks
how old they are, so it opens on a burst exactly when all of them happen to lie
within the failure window.
-/

namespace NyxNet.Sdk

/-- A call of a circuit breaker. -/
inductive BreakerCall where
  | admission
  | success
  | failure
  deriving DecidableEq, Repr

/-- A call with the clock at that moment. -/
structure TimedCall where
  call : BreakerCall
  now : Instant
  deriving DecidableEq, Repr

inductive BreakerReply where
  | admitted (allowed : Bool)
  | recorded
  | panicked
  deriving DecidableEq, Repr

namespace Retry

inductive CircuitBreakerState where
  | closed
  | open
  | halfOpen
  deriving DecidableEq, Repr

structure CircuitBreakerConfig where
  failureThreshold : UInt32
  openTimeout : Duration
  successThreshold : UInt32
  failureWindow : Duration
  deriving DecidableEq, Repr

namespace CircuitBreakerConfig

def default : CircuitBreakerConfig where
  failureThreshold := 5
  openTimeout := Duration.fromSecs 60
  successThreshold := 3
  failureWindow := Duration.fromSecs 60

end CircuitBreakerConfig

structure CircuitBreaker where
  state : CircuitBreakerState
  config : CircuitBreakerConfig
  failureCount : UInt32
  successCount : UInt32
  lastStateChange : Instant
  deriving DecidableEq, Repr

namespace CircuitBreaker

def new (config : CircuitBreakerConfig) (now : Instant) : CircuitBreaker where
  state := .closed
  config := config
  failureCount := 0
  successCount := 0
  lastStateChange := now

def transitionToClosed (breaker : CircuitBreaker) (now : Instant) :
    CircuitBreaker :=
  { breaker with
    state := .closed
    failureCount := 0
    successCount := 0
    lastStateChange := now }

def transitionToOpen (breaker : CircuitBreaker) (now : Instant) :
    CircuitBreaker :=
  { breaker with state := .open, successCount := 0, lastStateChange := now }

def transitionToHalfOpen (breaker : CircuitBreaker) (now : Instant) :
    CircuitBreaker :=
  { breaker with state := .halfOpen, successCount := 0, lastStateChange := now }

def canExecute (breaker : CircuitBreaker) (now : Instant) :
    Bool × CircuitBreaker :=
  match breaker.state with
  | .closed => (true, breaker)
  | .open =>
      if breaker.config.openTimeout.asNanos ≤
          breaker.lastStateChange.elapsed now then
        (true, breaker.transitionToHalfOpen now)
      else
        (false, breaker)
  | .halfOpen => (true, breaker)

/-- `none` is an abort of the addition. -/
def recordSuccess (mode : OverflowMode) (breaker : CircuitBreaker)
    (now : Instant) : Option CircuitBreaker :=
  match breaker.state with
  | .closed => some { breaker with failureCount := 0 }
  | .halfOpen =>
      (mode.fit32 (breaker.successCount.toNat + 1)).map fun successes =>
        let counted := { breaker with successCount := successes }
        if breaker.config.successThreshold ≤ successes then
          counted.transitionToClosed now
        else
          counted
  | .open => some breaker

def recordFailure (mode : OverflowMode) (breaker : CircuitBreaker)
    (now : Instant) : Option CircuitBreaker :=
  match breaker.state with
  | .closed =>
      (mode.fit32 (breaker.failureCount.toNat + 1)).map fun failures =>
        let counted := { breaker with failureCount := failures }
        if breaker.config.failureThreshold ≤ failures then
          counted.transitionToOpen now
        else
          counted
  | .halfOpen => some (breaker.transitionToOpen now)
  | .open => some breaker

/-- A call that aborts leaves the breaker as it was. -/
def recorded (breaker : CircuitBreaker) :
    Option CircuitBreaker → BreakerReply × CircuitBreaker
  | some after => (.recorded, after)
  | none => (.panicked, breaker)

def perform (mode : OverflowMode) (breaker : CircuitBreaker)
    (timed : TimedCall) : BreakerReply × CircuitBreaker :=
  match timed.call with
  | .admission =>
      let (allowed, after) := breaker.canExecute timed.now
      (.admitted allowed, after)
  | .success => breaker.recorded (breaker.recordSuccess mode timed.now)
  | .failure => breaker.recorded (breaker.recordFailure mode timed.now)

/-- A count that is zero or below a limit can be increased. -/
theorem fit32_succ (mode : OverflowMode) {count limit : UInt32}
    (below : count = 0 ∨ count < limit) :
    ∃ next, mode.fit32 (count.toNat + 1) = some next ∧
      next.toNat = count.toNat + 1 := by
  apply mode.exists_fit32
  rcases below with zero | less
  · rw [zero]
    decide
  · have limitFits := limit.toNat_lt
    have lessThan := UInt32.lt_iff_toNat_lt.mp less
    omega

theorem recordFailure_closed (mode : OverflowMode) {breaker : CircuitBreaker}
    (closed : breaker.state = .closed)
    (below : breaker.failureCount = 0 ∨
      breaker.failureCount < breaker.config.failureThreshold)
    (now : Instant) :
    ∃ failures, failures.toNat = breaker.failureCount.toNat + 1 ∧
      breaker.recordFailure mode now = some
        (if breaker.config.failureThreshold ≤ failures then
          { breaker with failureCount := failures }.transitionToOpen now
        else
          { breaker with failureCount := failures }) := by
  obtain ⟨failures, fitted, exact⟩ := fit32_succ mode below
  refine ⟨failures, exact, ?_⟩
  simp only [recordFailure, closed, fitted, Option.map_some]

theorem recordSuccess_halfOpen (mode : OverflowMode)
    {breaker : CircuitBreaker} (halfOpen : breaker.state = .halfOpen)
    (below : breaker.successCount = 0 ∨
      breaker.successCount < breaker.config.successThreshold)
    (now : Instant) :
    ∃ successes, successes.toNat = breaker.successCount.toNat + 1 ∧
      breaker.recordSuccess mode now = some
        (if breaker.config.successThreshold ≤ successes then
          { breaker with successCount := successes }.transitionToClosed now
        else
          { breaker with successCount := successes }) := by
  obtain ⟨successes, fitted, exact⟩ := fit32_succ mode below
  refine ⟨successes, exact, ?_⟩
  simp only [recordSuccess, halfOpen, fitted, Option.map_some]

/-- The failures since the last success, oldest first. -/
def failuresSince (calls : List TimedCall) : List TimedCall :=
  (calls.rtakeWhile (fun timed => timed.call ≠ .success)).filter
    (fun timed => timed.call = .failure)

theorem failuresSince_admission (calls : List TimedCall) {timed : TimedCall}
    (isAdmission : timed.call = .admission) :
    failuresSince (calls ++ [timed]) = failuresSince calls := by
  unfold failuresSince
  rw [List.rtakeWhile_concat_pos _ _ _ (by simp [isAdmission]),
    List.filter_append]
  simp [isAdmission]

theorem failuresSince_success (calls : List TimedCall) {timed : TimedCall}
    (isSuccess : timed.call = .success) :
    failuresSince (calls ++ [timed]) = [] := by
  unfold failuresSince
  rw [List.rtakeWhile_concat_neg _ _ _ (by simp [isSuccess])]
  rfl

theorem failuresSince_failure (calls : List TimedCall) {timed : TimedCall}
    (isFailure : timed.call = .failure) :
    failuresSince (calls ++ [timed]) = failuresSince calls ++ [timed] := by
  unfold failuresSince
  rw [List.rtakeWhile_concat_pos _ _ _ (by simp [isFailure]),
    List.filter_append]
  simp [isFailure]

/-- The call is a failure of the last failure window. -/
def Recent (config : CircuitBreakerConfig) (now : Instant)
    (timed : TimedCall) : Prop :=
  timed.call = .failure ∧
    timed.now.elapsed now ≤ config.failureWindow.asNanos

instance Recent.decidable (config : CircuitBreakerConfig) (now : Instant) :
    DecidablePred (Recent config now) :=
  fun _ => instDecidableAnd

/-- At least as many failures as the threshold asks for, with no success among
them, lie within the last failure window. -/
def Burst (config : CircuitBreakerConfig) (calls : List TimedCall)
    (now : Instant) : Prop :=
  ∃ run, run <:+ calls ∧ (∀ timed ∈ run, timed.call ≠ .success) ∧
    config.failureThreshold.toNat ≤ (run.filter (Recent config now)).length

theorem rtakeWhile_append {α : Type} {keep : α → Bool} (front : List α)
    {kept : List α} (allKept : ∀ item ∈ kept, keep item = true) :
    (front ++ kept).rtakeWhile keep = front.rtakeWhile keep ++ kept := by
  induction kept using List.reverseRecOn with
  | nil => simp
  | append_singleton kept last ih =>
      have keptBefore : ∀ item ∈ kept, keep item = true := by
        intro item member
        exact allKept item (List.mem_append_left _ member)
      have keptLast : keep last = true :=
        allKept last (List.mem_append_right _ List.mem_cons_self)
      rw [← List.append_assoc, List.rtakeWhile_concat_pos _ _ _ keptLast,
        ih keptBefore, List.append_assoc]

theorem burst_iff (config : CircuitBreakerConfig) (calls : List TimedCall)
    (now : Instant) :
    Burst config calls now ↔ config.failureThreshold.toNat ≤
      ((failuresSince calls).filter (Recent config now)).length := by
  have same : (failuresSince calls).filter (Recent config now) =
      (calls.rtakeWhile (fun timed => timed.call ≠ .success)).filter
        (Recent config now) := by
    rw [failuresSince, List.filter_filter]
    apply List.filter_congr
    intro timed _
    by_cases isFailure : timed.call = .failure <;>
      simp [Recent, isFailure]
  rw [same]
  constructor
  · intro burst
    obtain ⟨run, ⟨front, split⟩, noSuccess, enough⟩ := burst
    have kept : ∀ timed ∈ run,
        decide (timed.call ≠ .success) = true := by
      intro timed member
      exact decide_eq_true (noSuccess timed member)
    rw [← split, rtakeWhile_append front kept, List.filter_append,
      List.length_append]
    omega
  · intro enough
    refine ⟨_, List.rtakeWhile_suffix _ _, ?_, enough⟩
    intro timed member
    have kept := List.mem_rtakeWhile_imp member
    exact of_decide_eq_true kept

/-- In state `Closed` the failures since the last success have been counted, and
no count has passed its threshold. -/
structure Tracked (config : CircuitBreakerConfig)
    (past : List (TimedCall × BreakerReply)) (breaker : CircuitBreaker) :
    Prop where
  config : breaker.config = config
  counted : breaker.state = .closed →
    breaker.failureCount.toNat =
      (failuresSince (past.map Prod.fst)).length
  failures : breaker.state = .closed →
    breaker.failureCount = 0 ∨
      breaker.failureCount < breaker.config.failureThreshold
  successes : breaker.successCount = 0 ∨
    breaker.successCount < breaker.config.successThreshold

theorem tracked_new (config : CircuitBreakerConfig) (created : Instant) :
    Tracked config [] (new config created) :=
  ⟨rfl, fun _ => rfl, fun _ => Or.inl rfl, Or.inl rfl⟩

section Steps

variable {mode : OverflowMode} {config : CircuitBreakerConfig}
  {past : List (TimedCall × BreakerReply)} {breaker : CircuitBreaker}

theorem tracked_of_not_closed (same : breaker.config = config)
    (notClosed : breaker.state ≠ .closed)
    (successes : breaker.successCount = 0 ∨
      breaker.successCount < breaker.config.successThreshold) :
    Tracked config past breaker :=
  ⟨same, fun closed => absurd closed notClosed,
    fun closed => absurd closed notClosed, successes⟩

theorem Tracked.admission (tracked : Tracked config past breaker)
    {timed : TimedCall} (isAdmission : timed.call = .admission)
    (reply : BreakerReply) :
    Tracked config (past ++ [(timed, reply)])
      (breaker.canExecute timed.now).2 := by
  have unchanged : Tracked config (past ++ [(timed, reply)]) breaker := by
    refine ⟨tracked.config, ?_, tracked.failures, tracked.successes⟩
    intro closed
    rw [List.map_append, List.map_singleton,
      failuresSince_admission _ isAdmission]
    exact tracked.counted closed
  unfold canExecute
  split
  · exact unchanged
  · split
    · apply tracked_of_not_closed
      · exact tracked.config
      · intro closed
        cases closed
      · exact Or.inl rfl
    · exact unchanged
  · exact unchanged

theorem Tracked.success (mode : OverflowMode)
    (tracked : Tracked config past breaker) {timed : TimedCall}
    (isSuccess : timed.call = .success) (reply : BreakerReply) :
    ∃ after, breaker.recordSuccess mode timed.now = some after ∧
      Tracked config (past ++ [(timed, reply)]) after := by
  have noFailures : failuresSince
      ((past ++ [(timed, reply)]).map Prod.fst) = [] := by
    rw [List.map_append, List.map_singleton,
      failuresSince_success _ isSuccess]
  cases state : breaker.state with
  | closed =>
      refine ⟨{ breaker with failureCount := 0 }, ?_, tracked.config, ?_, ?_,
        tracked.successes⟩
      · simp only [recordSuccess, state]
      · intro _
        rw [noFailures]
        rfl
      · intro _
        exact Or.inl rfl
  | «open» =>
      refine ⟨breaker, ?_, tracked_of_not_closed tracked.config ?_
        tracked.successes⟩
      · simp only [recordSuccess, state]
      · simp [state]
  | halfOpen =>
      obtain ⟨successes, counted, recorded⟩ :=
        recordSuccess_halfOpen mode state tracked.successes timed.now
      refine ⟨_, recorded, ?_⟩
      split
      · refine ⟨tracked.config, ?_, fun _ => Or.inl rfl, Or.inl rfl⟩
        intro _
        rw [noFailures]
        rfl
      · next few =>
          apply tracked_of_not_closed
          · exact tracked.config
          · simp [state]
          · exact Or.inr (UInt32.not_le.mp few)

theorem tracked_transitionToOpen (same : breaker.config = config)
    (now : Instant) : Tracked config past (breaker.transitionToOpen now) := by
  apply tracked_of_not_closed
  · exact same
  · intro closed
    cases closed
  · exact Or.inl rfl

theorem Tracked.failure (mode : OverflowMode)
    (tracked : Tracked config past breaker) {timed : TimedCall}
    (isFailure : timed.call = .failure) (reply : BreakerReply) :
    ∃ after, breaker.recordFailure mode timed.now = some after ∧
      Tracked config (past ++ [(timed, reply)]) after := by
  cases state : breaker.state with
  | closed =>
      obtain ⟨failures, counted, recorded⟩ := recordFailure_closed mode state
        (tracked.failures state) timed.now
      refine ⟨_, recorded, ?_⟩
      split
      · apply tracked_transitionToOpen
        exact tracked.config
      · next few =>
          refine ⟨tracked.config, ?_, fun _ => Or.inr (UInt32.not_le.mp few),
            tracked.successes⟩
          intro _
          rw [List.map_append, List.map_singleton,
            failuresSince_failure _ isFailure, List.length_append,
            ← tracked.counted state]
          exact counted
  | «open» =>
      refine ⟨breaker, ?_, tracked_of_not_closed tracked.config ?_
        tracked.successes⟩
      · simp only [recordFailure, state]
      · simp [state]
  | halfOpen =>
      refine ⟨breaker.transitionToOpen timed.now, ?_,
        tracked_transitionToOpen tracked.config _⟩
      simp only [recordFailure, state]

theorem tracked_perform (timed : TimedCall)
    (tracked : Tracked config past breaker) :
    Tracked config (past ++ [(timed, (breaker.perform mode timed).1)])
      (breaker.perform mode timed).2 := by
  unfold perform
  cases isCall : timed.call with
  | admission => exact tracked.admission isCall _
  | success =>
      obtain ⟨after, succeeded, kept⟩ :=
        tracked.success mode isCall .recorded
      rw [succeeded]
      exact kept
  | failure =>
      obtain ⟨after, failed, kept⟩ :=
        tracked.failure mode isCall .recorded
      rw [failed]
      exact kept

theorem Tracked.not_panicked (tracked : Tracked config past breaker)
    (timed : TimedCall) : (breaker.perform mode timed).1 ≠ .panicked := by
  unfold perform
  cases isCall : timed.call with
  | admission => simp
  | success =>
      obtain ⟨after, succeeded, _⟩ :=
        tracked.success mode isCall .recorded
      simp [succeeded, recorded]
  | failure =>
      obtain ⟨after, failed, _⟩ :=
        tracked.failure mode isCall .recorded
      simp [failed, recorded]

end Steps

theorem tracked_run (mode : OverflowMode) (config : CircuitBreakerConfig)
    (created : Instant) (inputs : List TimedCall) :
    Tracked config
      (Trace.history (perform mode) (new config created) inputs)
      (Trace.final (perform mode) (new config created) inputs) :=
  Trace.invariant (tracked_new config created)
    (fun _ _ timed => tracked_perform timed) inputs

/-- No addition of a run overflows. -/
theorem not_panicked_of_mem (mode : OverflowMode)
    (config : CircuitBreakerConfig) (created : Instant)
    (inputs : List TimedCall) {entry : TimedCall × BreakerReply}
    (member : entry ∈
      Trace.history (perform mode) (new config created) inputs) :
    entry.2 ≠ .panicked := by
  induction inputs using List.reverseRecOn with
  | nil => cases member
  | append_singleton inputs timed ih =>
      rw [Trace.history_append] at member
      rcases List.mem_append.mp member with earlier | last
      · exact ih earlier
      · rw [List.mem_singleton.mp last]
        exact (tracked_run mode config created inputs).not_panicked timed

/-- The call takes the breaker from `Closed` to `Open`. -/
def Opens (mode : OverflowMode) (breaker : CircuitBreaker)
    (timed : TimedCall) : Prop :=
  breaker.state = .closed ∧ (breaker.perform mode timed).2.state = .open

/-- A breaker in state `Closed` records the failure that makes its count reach
the threshold. -/
def AtThreshold (breaker : CircuitBreaker) (timed : TimedCall) : Prop :=
  breaker.state = .closed ∧ timed.call = .failure ∧
    breaker.config.failureThreshold.toNat ≤ breaker.failureCount.toNat + 1

theorem opens_iff {mode : OverflowMode} {config : CircuitBreakerConfig}
    {past : List (TimedCall × BreakerReply)} {breaker : CircuitBreaker}
    (tracked : Tracked config past breaker) (timed : TimedCall) :
    breaker.Opens mode timed ↔ breaker.AtThreshold timed := by
  unfold Opens AtThreshold
  refine and_congr_right ?_
  intro closed
  unfold perform
  cases isCall : timed.call with
  | admission => simp [canExecute, closed]
  | success => simp [recordSuccess, recorded, closed]
  | failure =>
      obtain ⟨failures, counted, failed⟩ := recordFailure_closed mode closed
        (tracked.failures closed) timed.now
      rw [failed, ← counted, ← UInt32.le_iff_toNat_le]
      simp only [recorded, true_and]
      split
      · next many => exact iff_of_true rfl many
      · next few => simp [closed, few]

/-- The failures since the last success are all of the last failure window, or
none is needed. -/
def WithinWindow (config : CircuitBreakerConfig) (calls : List TimedCall)
    (now : Instant) : Prop :=
  config.failureThreshold = 0 ∨ ∀ failure ∈ failuresSince calls,
    failure.now.elapsed now ≤ config.failureWindow.asNanos

theorem failure_of_mem_failuresSince {calls : List TimedCall}
    {timed : TimedCall} (member : timed ∈ failuresSince calls) :
    timed.call = .failure :=
  of_decide_eq_true (List.mem_filter.mp member).2

/-- An opening is on a burst exactly when what was counted is recent. -/
theorem burst_iff_withinWindow {config : CircuitBreakerConfig}
    {past : List (TimedCall × BreakerReply)} {breaker : CircuitBreaker}
    (tracked : Tracked config past breaker) {timed : TimedCall}
    (atThreshold : breaker.AtThreshold timed) :
    Burst config (past.map Prod.fst ++ [timed]) timed.now ↔
      WithinWindow config (past.map Prod.fst ++ [timed]) timed.now := by
  obtain ⟨closed, isFailure, many⟩ := atThreshold
  have counted : (failuresSince (past.map Prod.fst ++ [timed])).length =
      breaker.failureCount.toNat + 1 := by
    rw [failuresSince_failure _ isFailure, List.length_append,
      tracked.counted closed]
    rfl
  rw [burst_iff]
  unfold WithinWindow
  by_cases zero : config.failureThreshold = 0
  · rw [zero]
    exact iff_of_true (Nat.zero_le _) (Or.inl rfl)
  · have exact : config.failureThreshold.toNat =
        (failuresSince (past.map Prod.fst ++ [timed])).length := by
      have positive : config.failureThreshold.toNat ≠ 0 := by
        intro none
        exact zero (UInt32.toNat_inj.mp none)
      rw [tracked.config] at many
      rw [counted]
      rcases tracked.failures closed with first | below
      · rw [first] at many ⊢
        change _ ≤ 0 + 1 at many
        change _ = 0 + 1
        omega
      · rw [tracked.config] at below
        have less := UInt32.lt_iff_toNat_lt.mp below
        omega
    rw [exact, or_iff_right zero]
    constructor
    · intro enough failure member
      have all := List.length_filter_eq_length_iff.mp
        (Nat.le_antisymm (List.length_filter_le _ _) enough)
      exact (of_decide_eq_true (all failure member)).2
    · intro recent
      apply Nat.le_of_eq
      symm
      apply List.length_filter_eq_length_iff.mpr
      intro failure member
      exact decide_eq_true
        ⟨failure_of_mem_failuresSince member, recent failure member⟩

/-- Every opening is at a failure on a burst exactly when at every failure that
reaches the threshold the failures since the last success are recent. -/
theorem opens_on_burst_iff (mode : OverflowMode)
    (config : CircuitBreakerConfig) (created : Instant)
    (inputs : List TimedCall) :
    (∀ before timed, before ++ [timed] <+: inputs →
        Opens mode
          (Trace.final (perform mode) (new config created) before) timed →
          timed.call = .failure ∧
            Burst config (before ++ [timed]) timed.now) ↔
      ∀ before timed, before ++ [timed] <+: inputs →
        AtThreshold
          (Trace.final (perform mode) (new config created) before) timed →
          WithinWindow config (before ++ [timed]) timed.now := by
  refine forall₃_congr ?_
  intro before timed _
  have tracked := tracked_run mode config created before
  rw [opens_iff tracked]
  refine forall_congr' ?_
  intro atThreshold
  have exact := burst_iff_withinWindow tracked atThreshold
  rw [Trace.map_fst_history] at exact
  rw [← exact]
  exact and_iff_right atThreshold.2.1

/-- Five failures, one a minute and a second, open a default breaker. -/
def sampleFailures : List TimedCall :=
  (List.range 5).map (fun minute => ⟨.failure, minute * 61000000000⟩)

theorem opens_on_slow_failures :
    ¬ ∀ before timed, before ++ [timed] <+: sampleFailures →
      Opens .checked (Trace.final (perform .checked)
          (new CircuitBreakerConfig.default 0) before) timed →
        timed.call = .failure ∧
          Burst CircuitBreakerConfig.default (before ++ [timed])
            timed.now := by
  rw [opens_on_burst_iff]
  intro within
  have last := within (sampleFailures.take 4) ⟨.failure, 244000000000⟩
    (by decide) ⟨by decide, rfl, by decide⟩
  rcases last with noThreshold | recent
  · exact absurd noThreshold (by decide)
  · exact absurd (recent ⟨.failure, 0⟩ (by decide)) (by decide)

end CircuitBreaker

end Retry

end NyxNet.Sdk
