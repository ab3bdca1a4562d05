import NyxNet.Sdk.CircuitBreaker

/-!
# The circuit breaker of the reconnection manager

`CircuitBreaker` of `nyx-sdk/src/reconnect.rs` keeps the moment of its opening
in the state and does not clear the count of successes when it opens from
`Closed`.  A simulation shows that it behaves as the breaker of the retry module
all the same.
-/

namespace NyxNet.Sdk.Reconnect

inductive CircuitBreakerState where
  | closed
  | open (openedAt : Instant)
  | halfOpen
  deriving DecidableEq, Repr

structure CircuitBreakerConfig where
  failureThreshold : UInt32
  timeout : Duration
  successThreshold : UInt32
  deriving DecidableEq, Repr

structure CircuitBreaker where
  state : CircuitBreakerState
  failureCount : UInt32
  lastFailure : Option Instant
  successCount : UInt32
  config : CircuitBreakerConfig
  deriving DecidableEq, Repr

namespace CircuitBreaker

/-- A breaker as `ReconnectionManager::new` makes it. -/
def fresh (config : CircuitBreakerConfig) : CircuitBreaker where
  state := .closed
  failureCount := 0
  lastFailure := none
  successCount := 0
  config := config

/-- The configuration that `ReconnectionManager::new` uses. -/
def managerConfig : CircuitBreakerConfig where
  failureThreshold := 5
  timeout := Duration.fromSecs 60
  successThreshold := 2

def canAttempt (breaker : CircuitBreaker) (now : Instant) :
    Bool × CircuitBreaker :=
  match breaker.state with
  | .closed => (true, breaker)
  | .open openedAt =>
      if breaker.config.timeout.asNanos ≤ openedAt.elapsed now then
        (true, { breaker with state := .halfOpen, successCount := 0 })
      else
        (false, breaker)
  | .halfOpen => (true, breaker)

def recordSuccess (mode : OverflowMode) (breaker : CircuitBreaker) :
    BreakerReply × CircuitBreaker :=
  match breaker.state with
  | .closed => (.recorded, { breaker with failureCount := 0 })
  | .halfOpen =>
      match mode.fit32 (breaker.successCount.toNat + 1) with
      | none => (.panicked, breaker)
      | some successes =>
          if breaker.config.successThreshold ≤ successes then
            (.recorded, { breaker with
              state := .closed
              failureCount := 0
              successCount := 0 })
          else
            (.recorded, { breaker with successCount := successes })
  | .open _ => (.recorded, breaker)

def recordFailure (mode : OverflowMode) (breaker : CircuitBreaker)
    (now : Instant) : BreakerReply × CircuitBreaker :=
  -- The time is stored first, so it stays when the addition aborts.
  let noted := { breaker with lastFailure := some now }
  match breaker.state with
  | .closed =>
      match mode.fit32 (breaker.failureCount.toNat + 1) with
      | none => (.panicked, noted)
      | some failures =>
          if breaker.config.failureThreshold ≤ failures then
            (.recorded, { noted with
              state := .open now
              failureCount := failures })
          else
            (.recorded, { noted with failureCount := failures })
  | .halfOpen =>
      (.recorded, { noted with state := .open now, successCount := 0 })
  | .open _ => (.recorded, noted)

def perform (mode : OverflowMode) (breaker : CircuitBreaker)
    (timed : TimedCall) : BreakerReply × CircuitBreaker :=
  match timed.call with
  | .admission =>
      let (allowed, after) := breaker.canAttempt timed.now
      (.admitted allowed, after)
  | .success => breaker.recordSuccess mode
  | .failure => breaker.recordFailure mode timed.now

/-- Thresholds and timeout agree; the failure window has no counterpart. -/
structure SameLimits (retry : Retry.CircuitBreakerConfig)
    (reconnect : CircuitBreakerConfig) : Prop where
  failureThreshold : reconnect.failureThreshold = retry.failureThreshold
  timeout : reconnect.timeout = retry.openTimeout
  successThreshold : reconnect.successThreshold = retry.successThreshold

/-- The state that corresponds to that of a breaker of the retry module. -/
def stateOf (retry : Retry.CircuitBreaker) : CircuitBreakerState :=
  match retry.state with
  | .closed => .closed
  | .open => .open retry.lastStateChange
  | .halfOpen => .halfOpen

/-- The two breakers agree but for the fields that only one of them has.
Outside of `HalfOpen` there are no successes, which is why it does not matter
who clears them. -/
structure Simulates (retry : Retry.CircuitBreaker)
    (reconnect : CircuitBreaker) : Prop where
  state : reconnect.state = stateOf retry
  failureCount : reconnect.failureCount = retry.failureCount
  successCount : reconnect.successCount = retry.successCount
  limits : SameLimits retry.config reconnect.config
  noSuccess : retry.state ≠ .halfOpen → retry.successCount = 0

/-- The same reply, and states that agree. -/
def Alike (retry : BreakerReply × Retry.CircuitBreaker)
    (reconnect : BreakerReply × CircuitBreaker) : Prop :=
  reconnect.1 = retry.1 ∧ Simulates retry.2 reconnect.2

section Steps

variable {retry : Retry.CircuitBreaker} {reconnect : CircuitBreaker}

theorem alike_admission (simulates : Simulates retry reconnect)
    (now : Instant) :
    (reconnect.canAttempt now).1 = (retry.canExecute now).1 ∧
      Simulates (retry.canExecute now).2 (reconnect.canAttempt now).2 := by
  have same := simulates.state
  cases state : retry.state with
  | closed =>
      simp only [stateOf, state] at same
      simp only [canAttempt, same, Retry.CircuitBreaker.canExecute, state]
      exact ⟨trivial, simulates⟩
  | «open» =>
      simp only [stateOf, state] at same
      simp only [canAttempt, same, Retry.CircuitBreaker.canExecute, state,
        simulates.limits.timeout]
      split
      · refine ⟨rfl, rfl, simulates.failureCount, rfl, simulates.limits, ?_⟩
        intro _
        rfl
      · exact ⟨rfl, simulates⟩
  | halfOpen =>
      simp only [stateOf, state] at same
      simp only [canAttempt, same, Retry.CircuitBreaker.canExecute, state]
      exact ⟨trivial, simulates⟩

theorem alike_success (mode : OverflowMode)
    (simulates : Simulates retry reconnect) (now : Instant) :
    Alike (retry.recorded (retry.recordSuccess mode now))
      (reconnect.recordSuccess mode) := by
  have same := simulates.state
  cases state : retry.state with
  | closed =>
      simp only [stateOf, state] at same
      simp only [recordSuccess, same, Retry.CircuitBreaker.recordSuccess,
        state, Retry.CircuitBreaker.recorded]
      refine ⟨rfl, rfl, rfl, simulates.successCount, simulates.limits, ?_⟩
      intro notHalfOpen
      apply simulates.noSuccess
      rw [state]
      exact notHalfOpen
  | «open» =>
      simp only [stateOf, state] at same
      simp only [recordSuccess, same, Retry.CircuitBreaker.recordSuccess,
        state, Retry.CircuitBreaker.recorded]
      exact ⟨rfl, simulates⟩
  | halfOpen =>
      simp only [stateOf, state] at same
      simp only [recordSuccess, same, Retry.CircuitBreaker.recordSuccess,
        state, simulates.successCount, simulates.limits.successThreshold]
      cases mode.fit32 (retry.successCount.toNat + 1) with
      | none => exact ⟨rfl, simulates⟩
      | some successes =>
          simp only [Option.map_some, Retry.CircuitBreaker.recorded]
          split
          · refine ⟨rfl, rfl, rfl, rfl, simulates.limits, ?_⟩
            intro _
            rfl
          · refine ⟨rfl, rfl, simulates.failureCount, rfl,
              simulates.limits, ?_⟩
            intro notHalfOpen
            exact absurd rfl notHalfOpen

theorem alike_failure (mode : OverflowMode)
    (simulates : Simulates retry reconnect) (now : Instant) :
    Alike (retry.recorded (retry.recordFailure mode now))
      (reconnect.recordFailure mode now) := by
  have same := simulates.state
  cases state : retry.state with
  | closed =>
      have noSuccess : retry.successCount = 0 := by
        apply simulates.noSuccess
        simp [state]
      simp only [stateOf, state] at same
      simp only [recordFailure, same, Retry.CircuitBreaker.recordFailure,
        state, simulates.failureCount, simulates.limits.failureThreshold]
      cases mode.fit32 (retry.failureCount.toNat + 1) with
      | none =>
          simp only [Option.map_none, Retry.CircuitBreaker.recorded]
          refine ⟨rfl, ?_, rfl, simulates.successCount, simulates.limits,
            simulates.noSuccess⟩
          simp only [stateOf, state]
      | some failures =>
          simp only [Option.map_some, Retry.CircuitBreaker.recorded]
          split
          · refine ⟨rfl, rfl, rfl, ?_, simulates.limits, fun _ => rfl⟩
            exact simulates.successCount.trans noSuccess
          · exact ⟨rfl, rfl, rfl, simulates.successCount, simulates.limits,
              fun _ => noSuccess⟩
  | «open» =>
      simp only [stateOf, state] at same
      simp only [recordFailure, same, Retry.CircuitBreaker.recordFailure,
        state, Retry.CircuitBreaker.recorded]
      refine ⟨rfl, ?_, simulates.failureCount, simulates.successCount,
        simulates.limits, simulates.noSuccess⟩
      simp only [stateOf, state]
  | halfOpen =>
      simp only [stateOf, state] at same
      simp only [recordFailure, same, Retry.CircuitBreaker.recordFailure,
        state, Retry.CircuitBreaker.recorded]
      exact ⟨rfl, rfl, simulates.failureCount, rfl, simulates.limits,
        fun _ => rfl⟩

/-- One call. -/
theorem alike_perform (mode : OverflowMode)
    (simulates : Simulates retry reconnect) (timed : TimedCall) :
    Alike (retry.perform mode timed) (reconnect.perform mode timed) := by
  unfold perform Retry.CircuitBreaker.perform
  cases timed.call with
  | admission =>
      obtain ⟨allowed, after⟩ := alike_admission simulates timed.now
      exact ⟨congrArg BreakerReply.admitted allowed, after⟩
  | success => exact alike_success mode simulates timed.now
  | failure => exact alike_failure mode simulates timed.now

end Steps

theorem simulates_run (mode : OverflowMode) {retry : Retry.CircuitBreaker}
    {reconnect : CircuitBreaker} (simulates : Simulates retry reconnect)
    (calls : List TimedCall) :
    Trace.history (perform mode) reconnect calls =
        Trace.history (Retry.CircuitBreaker.perform mode) retry calls ∧
      Simulates
        (Trace.final (Retry.CircuitBreaker.perform mode) retry calls)
        (Trace.final (perform mode) reconnect calls) := by
  induction calls generalizing retry reconnect with
  | nil => exact ⟨rfl, simulates⟩
  | cons timed calls ih =>
      obtain ⟨reply, after⟩ := alike_perform mode simulates timed
      obtain ⟨replies, atEnd⟩ := ih after
      refine ⟨?_, atEnd⟩
      rw [Trace.history, Trace.history, reply, replies]

/-- Fresh breakers with the same limits answer every sequence of calls alike,
without an abort, and are in corresponding states after each of them. -/
theorem breakers_behave_alike (mode : OverflowMode)
    (retryConfig : Retry.CircuitBreakerConfig)
    (reconnectConfig : CircuitBreakerConfig)
    (limits : SameLimits retryConfig reconnectConfig) (created : Instant)
    (calls : List TimedCall) :
    Trace.history (perform mode) (fresh reconnectConfig) calls =
        Trace.history (Retry.CircuitBreaker.perform mode)
          (Retry.CircuitBreaker.new retryConfig created) calls ∧
      (∀ entry ∈ Trace.history (perform mode) (fresh reconnectConfig) calls,
        entry.2 ≠ .panicked) ∧
      ∀ before, before <+: calls →
        (Trace.final (perform mode) (fresh reconnectConfig) before).state =
          stateOf (Trace.final (Retry.CircuitBreaker.perform mode)
            (Retry.CircuitBreaker.new retryConfig created) before) := by
  have start : Simulates (Retry.CircuitBreaker.new retryConfig created)
      (fresh reconnectConfig) := ⟨rfl, rfl, rfl, limits, fun _ => rfl⟩
  have replies := (simulates_run mode start calls).1
  refine ⟨replies, ?_, ?_⟩
  · intro entry member
    rw [replies] at member
    exact Retry.CircuitBreaker.not_panicked_of_mem mode retryConfig created
      calls member
  · intro before _
    exact (simulates_run mode start before).2.state

/-- The configuration of the reconnection manager, with two failures after a
timeout that let the half-open breaker open again. -/
theorem breakers_behave_alike_sample :
    Trace.history (perform .checked) (fresh managerConfig)
        [⟨.failure, 0⟩, ⟨.failure, 1⟩, ⟨.failure, 2⟩, ⟨.failure, 3⟩,
          ⟨.failure, 4⟩, ⟨.admission, 5⟩, ⟨.admission, 60000000004⟩,
          ⟨.success, 60000000005⟩, ⟨.failure, 60000000006⟩] =
      Trace.history (Retry.CircuitBreaker.perform .checked)
        (Retry.CircuitBreaker.new
          { Retry.CircuitBreakerConfig.default with successThreshold := 2 } 0)
        [⟨.failure, 0⟩, ⟨.failure, 1⟩, ⟨.failure, 2⟩, ⟨.failure, 3⟩,
          ⟨.failure, 4⟩, ⟨.admission, 5⟩, ⟨.admission, 60000000004⟩,
          ⟨.success, 60000000005⟩, ⟨.failure, 60000000006⟩] :=
  (breakers_behave_alike .checked
    { Retry.CircuitBreakerConfig.default with successThreshold := 2 }
    managerConfig ⟨rfl, rfl, rfl⟩ 0 _).1

end CircuitBreaker

end NyxNet.Sdk.Reconnect
