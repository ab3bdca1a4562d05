import Mathlib.Algebra.Order.Field.Rat
import Mathlib.Algebra.Order.Field.Basic
import Mathlib.Data.Rat.Floor
import Mathlib.Tactic.Linarith
import NyxNet.Lib.Trace
import NyxNet.Lib.Word

/-!
# Adaptive cover traffic

`nyx-mix/src/adaptive.rs` with the generators and the anonymity score that it
uses.  Rates, delays and scores are exact rationals; an `Instant` counts
nanoseconds.  The clock and the samples of the unit exponential distribution
are given.
-/

namespace NyxNet.Mix

/-- A sample of `Exp1`. -/
abbrev Sample : Type := { sample : Rat // 0 < sample }

/-- Poisson cover-traffic interval generator.
λ = target bandwidth factor (events per second). -/
structure CoverGenerator where
  lambda : Rat

/-- Sample next delay duration before sending a cover packet, in seconds.
`Duration::from_secs_f64` panics on a delay that is infinite, negative or too
long. -/
def CoverGenerator.nextDelay (gen : CoverGenerator) (sample : Sample) :
    Option Rat :=
  if gen.lambda = 0 then none
  else
    let delay := sample.val / gen.lambda
    if delay < 0 ∨ 2 ^ 64 ≤ delay then none else some delay

/-- Sliding-window utilization estimator (bytes per second). -/
structure UtilizationEstimator where
  window : List (Nat × UInt64)
  /-- In nanoseconds. -/
  windowLen : Nat
  accumulated : UInt64

namespace UtilizationEstimator

def new (windowSecs : Nat) : UtilizationEstimator :=
  { window := [], windowLen := max windowSecs 1 * 10 ^ 9, accumulated := 0 }

/-- The loop of `purge_old`, with its `saturating_sub`. -/
def purge (windowLen now : Nat) :
    List (Nat × UInt64) → UInt64 → List (Nat × UInt64) × UInt64
  | [], accumulated => ([], accumulated)
  | (ts, bytes) :: rest, accumulated =>
      if windowLen < now - ts then
        purge windowLen now rest
          (UInt64.ofNat (accumulated.toNat - bytes.toNat))
      else ((ts, bytes) :: rest, accumulated)

def purgeOld (estimator : UtilizationEstimator) (now : Nat) :
    UtilizationEstimator :=
  let (window, accumulated) :=
    purge estimator.windowLen now estimator.window estimator.accumulated
  { estimator with window, accumulated }

/-- Record number of real bytes sent at current time. -/
def record (mode : OverflowMode) (estimator : UtilizationEstimator)
    (bytes : UInt64) (now : Nat) : Option UtilizationEstimator := do
  let accumulated ← mode.add estimator.accumulated bytes
  return purgeOld
    { estimator with
      window := estimator.window ++ [(now, bytes)]
      accumulated } now

/-- Current mean throughput in bytes/s over the window. -/
def throughputBps (estimator : UtilizationEstimator) (now : Nat) :
    Rat × UtilizationEstimator :=
  let purged := estimator.purgeOld now
  (purged.accumulated.toNat / (purged.windowLen / 10 ^ 9), purged)

/-- The bytes of a window. -/
def bytesIn (window : List (Nat × UInt64)) : Nat :=
  (window.map fun entry => entry.2.toNat).sum

/-- The sum of the bytes is what the window holds. -/
def Exact (estimator : UtilizationEstimator) : Prop :=
  estimator.accumulated.toNat = bytesIn estimator.window

theorem exact_new (windowSecs : Nat) : (new windowSecs).Exact := rfl

theorem purge_exact (windowLen now : Nat) {window : List (Nat × UInt64)}
    {accumulated : UInt64} (exact : accumulated.toNat = bytesIn window) :
    (purge windowLen now window accumulated).2.toNat =
      bytesIn (purge windowLen now window accumulated).1 := by
  induction window generalizing accumulated with
  | nil => exact exact
  | cons entry rest ih =>
      obtain ⟨ts, bytes⟩ := entry
      rw [purge]
      by_cases old : windowLen < now - ts
      · rw [if_pos old]
        apply ih
        rw [bytesIn, List.map_cons, List.sum_cons] at exact
        have bound := accumulated.toNat_lt
        rw [UInt64.toNat_ofNat', Nat.mod_eq_of_lt (by omega), exact,
          Nat.add_sub_cancel_left]
        rfl
      · rw [if_neg old]
        exact exact

theorem Exact.purgeOld {estimator : UtilizationEstimator}
    (exact : estimator.Exact) (now : Nat) : (estimator.purgeOld now).Exact :=
  purge_exact estimator.windowLen now exact

theorem Exact.record {estimator after : UtilizationEstimator} {bytes : UInt64}
    {now : Nat} (exact : estimator.Exact)
    (stored : estimator.record .checked bytes now = some after) :
    after.Exact := by
  rw [UtilizationEstimator.record, Option.bind_eq_bind,
    Option.bind_eq_some_iff] at stored
  obtain ⟨accumulated, added, same⟩ := stored
  cases same
  refine Exact.purgeOld ?_ now
  have sum := OverflowMode.toNat_of_checked_add added
  rw [Exact, sum, exact, bytesIn, bytesIn, List.map_append, List.sum_append]
  rfl

end UtilizationEstimator

/-- The delays of the last cover packets. -/
structure AnonymityEvaluator where
  window : List Rat

namespace AnonymityEvaluator

def new : AnonymityEvaluator := ⟨[]⟩

/-- Keep size under ~200 samples to bound memory. -/
def recordDelay (evaluator : AnonymityEvaluator) (delay : Rat) :
    AnonymityEvaluator :=
  let window := evaluator.window ++ [delay]
  ⟨if 256 < window.length then window.tail else window⟩

/-- Bucketise delays (0-500ms) into 10 bins; delays >500ms fall into last
bin. -/
def bucket (delay : Rat) : Nat := min (delay * 1000 / 50).floor.toNat 9

def buckets (evaluator : AnonymityEvaluator) : List Nat :=
  (List.range 10).map fun idx =>
    evaluator.window.countP fun delay => bucket delay == idx

/-- Compute anonymity score (0..1). Higher score = higher entropy. -/
def score (log2 : Rat → Rat) (evaluator : AnonymityEvaluator) : Rat :=
  if evaluator.window.isEmpty then 0
  else
    let n : Rat := evaluator.window.length
    let entropy := evaluator.buckets.foldl
      (fun entropy count =>
        if count = 0 then entropy
        else
          let p := count / n
          entropy - p * log2 p)
      0
    let hMax : Rat := Nat.log2 10
    max 0 (min (entropy / hMax) 1)

end AnonymityEvaluator

/-- `MobilePowerState` of `nyx-core`. -/
inductive MobilePowerState where
  | foreground
  | screenOff
  | discharging
  deriving DecidableEq

def MobilePowerState.low : MobilePowerState → Bool
  | foreground => false
  | screenOff => true
  | discharging => true

structure AdaptiveCoverGenerator where
  baseLambda : Rat
  targetRatio : Rat
  gen : CoverGenerator
  estimator : UtilizationEstimator
  manualLowPower : Bool
  anonymityEvaluator : AnonymityEvaluator
  anonymityTarget : Rat
  powerState : MobilePowerState

namespace AdaptiveCoverGenerator

def newWithAnonymity (baseLambda targetRatio anonymityTarget : Rat) :
    AdaptiveCoverGenerator :=
  { baseLambda
    targetRatio := max 0 (min targetRatio 1)
    gen := ⟨baseLambda⟩
    estimator := .new 5
    manualLowPower := false
    anonymityEvaluator := .new
    anonymityTarget := max 0 (min anonymityTarget 1)
    powerState := .foreground }

def new (baseLambda targetRatio : Rat) : AdaptiveCoverGenerator :=
  newWithAnonymity baseLambda targetRatio (8 / 10)

/-- If entering low-power conditions, reduce λ immediately. -/
def applyPowerState (cover : AdaptiveCoverGenerator)
    (state : MobilePowerState) : AdaptiveCoverGenerator :=
  { cover with
    powerState := state
    gen :=
      if state.low then ⟨cover.baseLambda * (1 / 10)⟩
      else ⟨cover.baseLambda⟩ }

def recordRealBytes (mode : OverflowMode) (cover : AdaptiveCoverGenerator)
    (bytes : UInt64) (now : Nat) : Option AdaptiveCoverGenerator := do
  let estimator ← cover.estimator.record mode bytes now
  return { cover with estimator }

def setLowPower (cover : AdaptiveCoverGenerator) (on : Bool) :
    AdaptiveCoverGenerator :=
  { cover with manualLowPower := on }

def currentLambda (cover : AdaptiveCoverGenerator) : Rat := cover.gen.lambda

def epsilon : Rat := 1 / 2 ^ 52

/-- Target cover pps so that cover/(cover+real) ≈ target_ratio, before the
anonymity factor. -/
def targetCoverPps (cover : AdaptiveCoverGenerator) (utilPps : Rat) : Rat :=
  if 1 ≤ cover.targetRatio then cover.baseLambda
  else utilPps * cover.targetRatio / (1 - cover.targetRatio + epsilon)

/-- Increase λ proportional to deficit. -/
def anonFactor (log2 : Rat → Rat) (cover : AdaptiveCoverGenerator) : Rat :=
  let anonymityScore := cover.anonymityEvaluator.score log2
  if anonymityScore < cover.anonymityTarget then
    1 + (cover.anonymityTarget - anonymityScore)
  else 1

/-- `(new_lambda - lambda).abs() / lambda > 0.1`.  In floating point the
quotient by zero is infinite, or no number when both rates are zero. -/
def exceeds (newLambda lambda : Rat) : Bool :=
  if lambda = 0 then newLambda ≠ 0
  else 1 / 10 < |newLambda - lambda| / lambda

/-- Either explicit flag or battery discharging. -/
def lowPowerDetected (cover : AdaptiveCoverGenerator) : Bool :=
  cover.manualLowPower || cover.powerState.low

/-- The generator after the test for low power. -/
def powerScaled (cover : AdaptiveCoverGenerator) : CoverGenerator :=
  if cover.lowPowerDetected then ⟨cover.baseLambda * (1 / 10)⟩ else cover.gen

def newLambda (log2 : Rat → Rat) (cover : AdaptiveCoverGenerator)
    (now : Nat) : Rat :=
  let utilBps := (cover.estimator.throughputBps now).1
  -- Heuristic: assume 1 packet ≈1200B, convert to packets/s
  let utilPps := utilBps / 1200
  max cover.baseLambda (cover.targetCoverPps utilPps * cover.anonFactor log2)

/-- Produce next delay. Internal λ adjusted each call. -/
def nextDelay (log2 : Rat → Rat) (cover : AdaptiveCoverGenerator) (now : Nat)
    (sample : Sample) : Option (Rat × AdaptiveCoverGenerator) := do
  let gen := cover.powerScaled
  let newLambda := cover.newLambda log2 now
  let gen := if exceeds newLambda gen.lambda then ⟨newLambda⟩ else gen
  let d ← gen.nextDelay sample
  return (d, { cover with
    gen
    estimator := (cover.estimator.throughputBps now).2
    anonymityEvaluator := cover.anonymityEvaluator.recordDelay d })

inductive Call where
  | recordRealBytes (bytes : UInt64) (now : Nat)
  | nextDelay (now : Nat) (sample : Sample)
  | applyPowerState (state : MobilePowerState)
  | setLowPower (on : Bool)

variable (log2 : Rat → Rat) (mode : OverflowMode)

/-- One call of a user; `none` when it panics. -/
def apply (cover : AdaptiveCoverGenerator) :
    Call → Option AdaptiveCoverGenerator
  | .recordRealBytes bytes now => cover.recordRealBytes mode bytes now
  | .nextDelay now sample => (cover.nextDelay log2 now sample).map Prod.snd
  | .applyPowerState state => some (cover.applyPowerState state)
  | .setLowPower on => some (cover.setLowPower on)

def run (cover : AdaptiveCoverGenerator) (calls : List Call) :
    Option AdaptiveCoverGenerator :=
  calls.foldlM (apply log2 mode) cover

variable {log2 mode} {cover after : AdaptiveCoverGenerator}

/-- What a delay leaves: the rate that was in force or the new one, and
everything else but the two windows as it was. -/
theorem nextDelay_eq_some {now : Nat} {sample : Sample} {delay : Rat}
    (returned : cover.nextDelay log2 now sample = some (delay, after)) :
    after.gen =
        (if exceeds (cover.newLambda log2 now) cover.powerScaled.lambda then
          ⟨cover.newLambda log2 now⟩
        else cover.powerScaled) ∧
      after.gen.nextDelay sample = some delay ∧
      after.baseLambda = cover.baseLambda ∧
      after.targetRatio = cover.targetRatio ∧
      after.estimator = cover.estimator.purgeOld now := by
  rw [nextDelay, Option.bind_eq_bind, Option.bind_eq_some_iff] at returned
  obtain ⟨d, sampled, same⟩ := returned
  cases same
  exact ⟨rfl, sampled, rfl, rfl, rfl⟩

theorem recordRealBytes_eq_some {bytes : UInt64} {now : Nat}
    (recorded : cover.recordRealBytes mode bytes now = some after) :
    ∃ estimator, cover.estimator.record mode bytes now = some estimator ∧
      after = { cover with estimator } := by
  rw [recordRealBytes, Option.bind_eq_bind, Option.bind_eq_some_iff] at recorded
  obtain ⟨estimator, stored, same⟩ := recorded
  exact ⟨estimator, stored, (Option.some.inj same).symm⟩

theorem settings_of_apply {call : Call}
    (applied : cover.apply log2 mode call = some after) :
    after.baseLambda = cover.baseLambda ∧
      after.targetRatio = cover.targetRatio := by
  cases call with
  | recordRealBytes bytes now =>
      obtain ⟨estimator, -, rfl⟩ := recordRealBytes_eq_some applied
      exact ⟨rfl, rfl⟩
  | nextDelay now sample =>
      obtain ⟨⟨delay, left⟩, returned, rfl⟩ :=
        Option.map_eq_some_iff.mp applied
      obtain ⟨-, -, sameBase, sameTarget, -⟩ := nextDelay_eq_some returned
      exact ⟨sameBase, sameTarget⟩
  | applyPowerState state =>
      cases applied
      exact ⟨rfl, rfl⟩
  | setLowPower on =>
      cases applied
      exact ⟨rfl, rfl⟩

/-- No call changes the base rate or the target. -/
theorem settings_of_run {calls : List Call}
    (reached : run log2 mode cover calls = some after) :
    after.baseLambda = cover.baseLambda ∧
      after.targetRatio = cover.targetRatio := by
  apply Trace.foldlM_invariant
    (fun other => other.baseLambda = cover.baseLambda ∧
      other.targetRatio = cover.targetRatio) ?_ ⟨rfl, rfl⟩ reached
  intro call _ before next same applied
  obtain ⟨sameBase, sameTarget⟩ := settings_of_apply applied
  exact ⟨sameBase.trans same.1, sameTarget.trans same.2⟩

/-- Without overflow the estimator counts the bytes of its window. -/
theorem exact_of_apply {call : Call} (exact : cover.estimator.Exact)
    (applied : cover.apply log2 .checked call = some after) :
    after.estimator.Exact := by
  cases call with
  | recordRealBytes bytes now =>
      obtain ⟨estimator, stored, rfl⟩ := recordRealBytes_eq_some applied
      exact exact.record stored
  | nextDelay now sample =>
      obtain ⟨⟨delay, left⟩, returned, rfl⟩ :=
        Option.map_eq_some_iff.mp applied
      rw [(nextDelay_eq_some returned).2.2.2.2]
      exact exact.purgeOld now
  | applyPowerState state =>
      cases applied
      exact exact
  | setLowPower on =>
      cases applied
      exact exact

theorem exact_of_run {calls : List Call} (exact : cover.estimator.Exact)
    (reached : run log2 .checked cover calls = some after) :
    after.estimator.Exact :=
  Trace.foldlM_invariant (fun other => other.estimator.Exact)
    (fun _ _ _ _ kept applied => exact_of_apply kept applied) exact reached

theorem base_le_newLambda (log2 : Rat → Rat) (cover : AdaptiveCoverGenerator)
    (now : Nat) :
    cover.baseLambda ≤ cover.newLambda log2 now := le_max_left _ _

/-- A tenth of the base rate is too far from every new rate. -/
theorem exceeds_of_base_le {base newLambda : Rat} (positive : 0 < base)
    (above : base ≤ newLambda) :
    exceeds newLambda (base * (1 / 10)) = true := by
  have tenth : 0 < base * (1 / 10) := mul_pos positive (by norm_num)
  rw [exceeds, if_neg tenth.ne', decide_eq_true_iff, lt_div_iff₀ tenth,
    abs_of_nonneg (by linarith)]
  linarith

theorem lambda_pos_of_nextDelay {gen : CoverGenerator} {sample : Sample}
    {delay : Rat} (sampled : gen.nextDelay sample = some delay) :
    0 < gen.lambda := by
  rw [CoverGenerator.nextDelay] at sampled
  by_contra notPositive
  rcases lt_or_eq_of_le (not_lt.mp notPositive) with negative | zero
  · have below := div_neg_of_pos_of_neg sample.property negative
    rw [if_neg negative.ne, if_pos (Or.inl below)] at sampled
    cases sampled
  · rw [if_pos zero] at sampled
    cases sampled

theorem nextDelay_of_lambda_pos {gen : CoverGenerator}
    (positive : 0 < gen.lambda) :
    gen.nextDelay ⟨gen.lambda, positive⟩ = some 1 := by
  rw [CoverGenerator.nextDelay, if_neg positive.ne', div_self positive.ne']
  norm_num

/-- In low power the lowered rate is always replaced. -/
theorem gen_of_low (positive : 0 < cover.baseLambda)
    (low : cover.lowPowerDetected = true) (now : Nat) :
    (if exceeds (cover.newLambda log2 now) cover.powerScaled.lambda then
      (⟨cover.newLambda log2 now⟩ : CoverGenerator)
    else cover.powerScaled) = ⟨cover.newLambda log2 now⟩ := by
  rw [powerScaled, if_pos low,
    if_pos (exceeds_of_base_le positive (base_le_newLambda log2 cover now))]

/-- No real bytes lie in the utilization window. -/
def Idle (cover : AdaptiveCoverGenerator) (now : Nat) : Prop :=
  ∀ entry ∈ (cover.estimator.purgeOld now).window, entry.2 = 0

theorem throughput_of_idle (exact : cover.estimator.Exact) {now : Nat}
    (idle : cover.Idle now) : (cover.estimator.throughputBps now).1 = 0 := by
  have empty : (cover.estimator.purgeOld now).accumulated.toNat = 0 := by
    rw [exact.purgeOld now]
    apply List.sum_eq_zero
    intro bytes member
    obtain ⟨entry, listed, rfl⟩ := List.mem_map.mp member
    rw [idle entry listed]
    rfl
  rw [UtilizationEstimator.throughputBps, empty, Nat.cast_zero, zero_div]

/-- Without real traffic and below a target of one, the new rate is the base
rate. -/
theorem newLambda_of_idle (positive : 0 < cover.baseLambda)
    (below : cover.targetRatio < 1) (exact : cover.estimator.Exact)
    {now : Nat} (idle : cover.Idle now) :
    cover.newLambda log2 now = cover.baseLambda := by
  rw [newLambda, throughput_of_idle exact idle, targetCoverPps,
    if_neg (not_le.mpr below), zero_div, zero_mul, zero_div, zero_mul,
    max_eq_left positive.le]

/-- After any history, a call in low power without real traffic puts the whole
base rate into force. -/
theorem idle_low_power_rate {base targetRatio anonymityTarget : Rat}
    {calls : List Call} (positive : 0 < base) (below : targetRatio < 1)
    (reached : run log2 .checked
      (newWithAnonymity base targetRatio anonymityTarget) calls = some cover)
    (low : cover.lowPowerDetected = true) {now : Nat} (idle : cover.Idle now)
    {sample : Sample} {delay : Rat}
    (returned : cover.nextDelay log2 now sample = some (delay, after)) :
    after.currentLambda = base := by
  obtain ⟨sameBase, sameTarget⟩ := settings_of_run reached
  have exact : cover.estimator.Exact :=
    exact_of_run (UtilizationEstimator.exact_new 5) reached
  have positiveBase : 0 < cover.baseLambda := by
    rw [sameBase]
    exact positive
  have belowOne : cover.targetRatio < 1 := by
    rw [sameTarget]
    exact max_lt zero_lt_one (min_lt_of_left_lt below)
  obtain ⟨inForce, -⟩ := nextDelay_eq_some returned
  rw [currentLambda, inForce, gen_of_low positiveBase low,
    newLambda_of_idle positiveBase belowOne exact idle, sameBase]
  rfl

/-- In low power no call ever returns with the lowered rate in force, and on a
positive base rate calls do return. -/
theorem low_power_rate_replaced (log2 : Rat → Rat) (mode : OverflowMode)
    (base targetRatio anonymityTarget : Rat) (calls : List Call)
    (cover : AdaptiveCoverGenerator) (now : Nat)
    (reached : run log2 mode
      (newWithAnonymity base targetRatio anonymityTarget) calls = some cover)
    (low : cover.lowPowerDetected = true) :
    (0 < base → ∃ sample delay after,
      cover.nextDelay log2 now sample = some (delay, after)) ∧
    ¬ ∃ sample delay after,
      cover.nextDelay log2 now sample = some (delay, after) ∧
        after.currentLambda ≤ base * (1 / 10) := by
  obtain ⟨sameBase, -⟩ := settings_of_run reached
  have sameBase : cover.baseLambda = base := sameBase
  constructor
  · intro positive
    rw [← sameBase] at positive
    have aboveZero : 0 < cover.newLambda log2 now :=
      lt_of_lt_of_le positive (base_le_newLambda log2 cover now)
    refine ⟨⟨cover.newLambda log2 now, aboveZero⟩, 1, ?_⟩
    rw [nextDelay, gen_of_low positive low now, nextDelay_of_lambda_pos]
    exact ⟨_, rfl⟩
  · rintro ⟨sample, delay, after, returned, atMost⟩
    obtain ⟨inForce, sampled, -⟩ := nextDelay_eq_some returned
    have inUse : 0 < after.gen.lambda := lambda_pos_of_nextDelay sampled
    rw [currentLambda] at atMost
    have positive : 0 < base := by
      by_contra notPositive
      linarith
    rw [← sameBase] at positive atMost
    rw [inForce, gen_of_low positive low now] at atMost
    have above := base_le_newLambda log2 cover now
    linarith

/-- The generator of the test for low power, with the screen off. -/
def screenOff : AdaptiveCoverGenerator :=
  (new 10 (4 / 10)).applyPowerState .screenOff

theorem low_power_rate_replaced_screen_off :
    (∃ sample delay after,
      screenOff.nextDelay (fun _ => 0) 0 sample = some (delay, after)) ∧
    ¬ ∃ sample delay after,
      screenOff.nextDelay (fun _ => 0) 0 sample = some (delay, after) ∧
        after.currentLambda ≤ 10 * (1 / 10) :=
  have replaced := low_power_rate_replaced (fun _ => 0) .checked 10 (4 / 10)
    (8 / 10) [.applyPowerState .screenOff] screenOff 0 rfl rfl
  ⟨replaced.1 (by norm_num), replaced.2⟩

def unitSample : Sample := ⟨1, one_pos⟩

/-- The power state lowers the rate from 10 to 1, and the next delay raises it
to 10 again. -/
theorem lowered_rate_lost :
    run (fun _ => 0) .checked (new 10 (4 / 10))
        [.applyPowerState .screenOff] = some screenOff ∧
      screenOff.currentLambda = 1 ∧ screenOff.Idle 0 ∧
      (screenOff.nextDelay (fun _ => 0) 0 unitSample).map
        (fun returned => returned.2.currentLambda) = some 10 := by
  refine ⟨rfl, by decide +kernel, ?_, by decide +kernel⟩
  intro entry absent
  cases absent

end AdaptiveCoverGenerator

end NyxNet.Mix
