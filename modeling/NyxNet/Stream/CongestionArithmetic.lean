import Mathlib.Tactic.Ring
import NyxNet.Stream.FlowController

/-!
# The arithmetic of the congestion controller

Which calls on a `CongestionController` built by `FlowController::new` stay
within `u32` when overflows abort.  Reductions always do: both thresholds are
made from half a window and a few initial windows of at most 64 KiB.  Growth
does so under conditions on the acknowledged bytes.
-/

namespace NyxNet.Flow

open CongestionController

/-- What the calls maintain of a controller built by `FlowController::new`. -/
structure Maintained (controller : CongestionController) : Prop where
  segment : controller.initialCwnd.toNat ≤ 65536
  limit : 10 * controller.initialCwnd.toNat ≤ controller.maxCwnd.toNat
  limitFits : controller.maxCwnd.toNat + 1 < 2 ^ 32
  limitEmpty : controller.initialCwnd = 0 → controller.maxCwnd = 0
  capped : controller.state ≠ .fastRecovery →
    controller.cwnd.toNat ≤ controller.maxCwnd.toNat
  positive : controller.initialCwnd ≠ 0 →
    0 < controller.cwnd.toNat ∧ 0 < controller.ssthresh.toNat

/-- The conditions under which a call computes nothing beyond `u32`: sums of
acknowledged bytes fit, and what is squared in congestion avoidance is below
64 KiB and divided by the window of a controller that did not start empty. -/
def Computable (controller : CongestionController) : Signal → Prop
  | .ack ackedBytes false =>
      controller.bytesAcked.toNat + ackedBytes.toNat < 2 ^ 32 ∧
        (controller.state = .slowStart →
          controller.cwnd.toNat + ackedBytes.toNat < 2 ^ 32) ∧
        (controller.state = .congestionAvoidance →
          ackedBytes.toNat < 2 ^ 16 ∧ controller.initialCwnd ≠ 0)
  | .ack ackedBytes true =>
      controller.duplicateAcks.toNat + 1 < 2 ^ 32 ∧
        (controller.state = .fastRecovery →
          controller.cwnd.toNat + ackedBytes.toNat < 2 ^ 32)
  | .loss => True

instance Computable.decidable (controller : CongestionController)
    (call : Signal) : Decidable (Computable controller call) :=
  match call with
  | .ack _ false => inferInstanceAs (Decidable (_ ∧ (_ → _) ∧ (_ → _ ∧ _)))
  | .ack _ true => inferInstanceAs (Decidable (_ ∧ (_ → _)))
  | .loss => isTrue trivial

/-- Additive growth stays below the word size: the quotient is large only while
the window is small. -/
theorem growth_fits {cwnd acked : Nat} (nonempty : 0 < cwnd)
    (below : cwnd + 1 < 2 ^ 32) (small : acked < 2 ^ 16) :
    cwnd + max (acked * acked / cwnd) 1 < 2 ^ 32 := by
  have square : acked * acked ≤ (2 ^ 16 - 1) * (2 ^ 16 - 1) :=
    Nat.mul_le_mul (Nat.le_sub_one_of_lt small) (Nat.le_sub_one_of_lt small)
  cases quotient : acked * acked / cwnd with
  | zero =>
      rw [Nat.max_eq_right (Nat.zero_le 1)]
      exact below
  | succ whole =>
      have product : (whole + 1) * cwnd ≤ acked * acked := by
        rw [← quotient]
        exact Nat.div_mul_le_self _ _
      obtain ⟨rest, rfl⟩ := Nat.exists_eq_succ_of_ne_zero
        (Nat.ne_of_gt nonempty)
      have expanded : (whole + 1) * (rest + 1) =
          whole * rest + whole + rest + 1 := by ring
      rw [Nat.succ_eq_add_one, expanded] at product
      rw [Nat.max_eq_left (Nat.le_add_left 1 whole), Nat.succ_eq_add_one]
      omega

variable {controller : CongestionController}

theorem pos_iff_ne_zero (word : UInt32) : 0 < word.toNat ↔ word ≠ 0 := by
  rw [Nat.pos_iff_ne_zero, Ne, Ne, eq_zero_iff_toNat]

/-- Outside of fast recovery the window is empty exactly when it started
empty. -/
theorem Maintained.cwnd_ne_zero_iff (maintained : Maintained controller)
    (elsewhere : controller.state ≠ .fastRecovery) :
    controller.cwnd ≠ 0 ↔ controller.initialCwnd ≠ 0 := by
  constructor
  · intro nonempty startedEmpty
    have below := maintained.capped elsewhere
    rw [maintained.limitEmpty startedEmpty] at below
    have positive := (pos_iff_ne_zero _).mpr nonempty
    exact absurd below (Nat.not_le_of_gt positive)
  · intro startedNonempty
    exact (pos_iff_ne_zero _).mp (maintained.positive startedNonempty).1

/-- The threshold that a reduction computes. -/
theorem Maintained.exists_threshold (maintained : Maintained controller) :
    ∃ twice : UInt32,
      OverflowMode.checked.fit32 (2 * controller.initialCwnd.toNat) =
          some twice ∧
        (max (controller.cwnd / 2) twice).toNat =
          max (controller.cwnd.toNat / 2)
            (2 * controller.initialCwnd.toNat) := by
  have segment := maintained.segment
  obtain ⟨twice, fitted, exact⟩ := OverflowMode.checked.exists_fit32
    (show 2 * controller.initialCwnd.toNat < 2 ^ 32 by omega)
  refine ⟨twice, fitted, ?_⟩
  rw [toNat_reduced, exact]

theorem onLoss_returns (maintained : Maintained controller) :
    ∃ after, onLoss .checked controller = (.returned (), after) ∧
      Maintained after := by
  obtain ⟨twice, fittedTwice, reduced⟩ := maintained.exists_threshold
  by_cases recovering : controller.state = .fastRecovery
  · refine ⟨controller, ?_, maintained⟩
    rw [onLoss, recovering]
  · refine ⟨{ controller with
        ssthresh := max (controller.cwnd / 2) twice
        cwnd := max (controller.cwnd / 2) twice
        state := .congestionAvoidance }, ?_, ?_⟩
    · unfold onLoss
      split
      · contradiction
      · simp only [fittedTwice]
    · have limit := maintained.limit
      have capped := maintained.capped recovering
      refine ⟨maintained.segment, limit, maintained.limitFits,
        maintained.limitEmpty, fun _ => ?_, fun startedNonempty => ?_⟩
      · simp only [reduced]
        omega
      · have start : 0 < controller.initialCwnd.toNat :=
          (pos_iff_ne_zero _).mpr startedNonempty
        simp only [reduced]
        omega

theorem enterFastRecovery_returns (maintained : Maintained controller) :
    ∃ after, enterFastRecovery .checked controller = (.returned (), after) ∧
      Maintained after := by
  have segment := maintained.segment
  have window := controller.cwnd.toNat_lt
  obtain ⟨twice, fittedTwice, reduced⟩ := maintained.exists_threshold
  obtain ⟨segments, fittedSegments, exactSegments⟩ :=
    OverflowMode.checked.exists_fit32
      (show 3 * controller.initialCwnd.toNat < 2 ^ 32 by omega)
  obtain ⟨sum, fittedSum, exactSum⟩ := OverflowMode.checked.exists_fit32
    (show (max (controller.cwnd / 2) twice).toNat + segments.toNat <
      2 ^ 32 by omega)
  refine ⟨{ controller with
      ssthresh := max (controller.cwnd / 2) twice
      cwnd := sum
      state := .fastRecovery }, ?_, ?_⟩
  · simp only [enterFastRecovery, fittedTwice, fittedSegments, fittedSum]
  · refine ⟨segment, maintained.limit, maintained.limitFits,
      maintained.limitEmpty, fun elsewhere => (elsewhere rfl).elim,
      fun startedNonempty => ?_⟩
    have start : 0 < controller.initialCwnd.toNat :=
      (pos_iff_ne_zero _).mpr startedNonempty
    simp only [reduced, exactSum]
    omega

/-- The counters take no part in what is maintained. -/
theorem Maintained.counters (maintained : Maintained controller)
    (bytesAcked duplicateAcks : UInt32) :
    Maintained { controller with bytesAcked, duplicateAcks } :=
  ⟨maintained.segment, maintained.limit, maintained.limitFits,
    maintained.limitEmpty, maintained.capped, maintained.positive⟩

/-- The cap at the end of `on_ack`. -/
theorem Maintained.cap (maintained : Maintained controller)
    {grown : CongestionController} (limits : SameLimits controller grown)
    (positive : controller.initialCwnd ≠ 0 →
      0 < grown.cwnd.toNat ∧ 0 < grown.ssthresh.toNat) :
    Maintained { grown with cwnd := min grown.cwnd grown.maxCwnd } := by
  obtain ⟨sameInitial, sameMax⟩ := limits
  refine ⟨?_, ?_, ?_, ?_, ?_, ?_⟩
  · rw [sameInitial]
    exact maintained.segment
  · rw [sameInitial, sameMax]
    exact maintained.limit
  · rw [sameMax]
    exact maintained.limitFits
  · rw [sameInitial, sameMax]
    exact maintained.limitEmpty
  · intro _
    rw [UInt32.toNat_min]
    exact Nat.min_le_right _ _
  · intro startedNonempty
    rw [sameInitial] at startedNonempty
    have start := (pos_iff_ne_zero _).mpr startedNonempty
    have limit := maintained.limit
    have both := positive startedNonempty
    refine ⟨?_, both.2⟩
    rw [UInt32.toNat_min, sameMax]
    exact Nat.lt_min.mpr ⟨both.1, by omega⟩

/-- The part of `Computable` that concerns the growth of the window. -/
def Growable (controller : CongestionController) (ackedBytes : UInt32) :
    Prop :=
  (controller.state = .slowStart →
      controller.cwnd.toNat + ackedBytes.toNat < 2 ^ 32) ∧
    (controller.state = .congestionAvoidance →
      ackedBytes.toNat < 2 ^ 16 ∧ controller.initialCwnd ≠ 0)

theorem grow_of_growable (maintained : Maintained controller)
    {ackedBytes : UInt32} (growable : Growable controller ackedBytes) :
    ∃ grown, grow .checked controller ackedBytes = some grown ∧
      SameLimits controller grown ∧
      (controller.initialCwnd ≠ 0 →
        0 < grown.cwnd.toNat ∧ 0 < grown.ssthresh.toNat) := by
  have positive := maintained.positive
  cases state : controller.state with
  | slowStart =>
      obtain ⟨sum, fitted, exact⟩ :=
        OverflowMode.checked.exists_fit32 (growable.1 state)
      refine ⟨{ controller with
          cwnd := sum
          state := if sum ≥ controller.ssthresh then .congestionAvoidance
            else .slowStart }, ?_, ⟨rfl, rfl⟩, fun startedNonempty => ?_⟩
      · simp only [grow, state, fitted, Option.map_some]
      · have both := positive startedNonempty
        simp only [exact]
        omega
  | congestionAvoidance =>
      obtain ⟨small, startedNonempty⟩ := growable.2 state
      have elsewhere : controller.state ≠ .fastRecovery := by
        rw [state]
        decide
      have both := positive startedNonempty
      have below := maintained.capped elsewhere
      have limit := maintained.limitFits
      have nonempty := (maintained.cwnd_ne_zero_iff elsewhere).mpr
        startedNonempty
      obtain ⟨square, fittedSquare, exactSquare⟩ :=
        OverflowMode.checked.exists_fit32
          (Nat.lt_of_lt_of_eq (Nat.mul_lt_mul'' small small)
            (show 2 ^ 16 * 2 ^ 16 = 2 ^ 32 from rfl))
      have increase : (max (square / controller.cwnd) 1).toNat =
          max (ackedBytes.toNat * ackedBytes.toNat / controller.cwnd.toNat)
            1 := by
        rw [UInt32.toNat_max, UInt32.toNat_div, exactSquare]
        rfl
      have room := growth_fits both.1 (by omega) small
      rw [← increase] at room
      obtain ⟨sum, fitted, exact⟩ := OverflowMode.checked.exists_fit32 room
      refine ⟨{ controller with cwnd := sum }, ?_, ⟨rfl, rfl⟩, fun _ => ?_⟩
      · simp only [grow, state, fittedSquare, if_neg nonempty, fitted,
          Option.map_some]
      · simp only [exact]
        omega
  | fastRecovery =>
      by_cases acked : ackedBytes > 0
      · refine ⟨{ controller with
            cwnd := controller.ssthresh
            state := .congestionAvoidance }, ?_, ⟨rfl, rfl⟩,
          fun startedNonempty => ?_⟩
        · simp only [grow, state, if_pos acked]
        · have both := positive startedNonempty
          exact ⟨both.2, both.2⟩
      · refine ⟨controller, ?_, ⟨rfl, rfl⟩, positive⟩
        simp only [grow, state, if_neg acked]

theorem grow_of_not_growable (maintained : Maintained controller)
    {ackedBytes : UInt32} (notGrowable : ¬ Growable controller ackedBytes) :
    grow .checked controller ackedBytes = none := by
  cases state : controller.state with
  | slowStart =>
      have exceeds :
          ¬ controller.cwnd.toNat + ackedBytes.toNat < 2 ^ 32 := by
        intro fits
        apply notGrowable
        rw [Growable, state]
        refine ⟨fun _ => fits, ?_⟩
        intro equality
        cases equality
      simp only [grow, state, OverflowMode.checked_fit32_eq_none exceeds,
        Option.map_none]
  | congestionAvoidance =>
      have elsewhere : controller.state ≠ .fastRecovery := by
        rw [state]
        decide
      by_cases small : ackedBytes.toNat < 2 ^ 16
      · have empty : controller.cwnd = 0 := by
          by_contra nonempty
          apply notGrowable
          rw [Growable, state]
          refine ⟨?_, fun _ => ⟨small,
            (maintained.cwnd_ne_zero_iff elsewhere).mp nonempty⟩⟩
          intro equality
          cases equality
        simp only [grow, state, if_pos empty]
        cases OverflowMode.checked.fit32
          (ackedBytes.toNat * ackedBytes.toNat) with
        | none => rfl
        | some square => rfl
      · have exceeds :
            ¬ ackedBytes.toNat * ackedBytes.toNat < 2 ^ 32 := by
          intro fits
          apply small
          exact Nat.mul_self_lt_mul_self_iff.mp fits
        simp only [grow, state, OverflowMode.checked_fit32_eq_none exceeds]
  | fastRecovery =>
      refine (notGrowable ⟨?_, ?_⟩).elim
      · intro equality
        rw [state] at equality
        cases equality
      · intro equality
        rw [state] at equality
        cases equality

/-- A call returns exactly when it is computable, and what it leaves is
maintained again. -/
def Exact (controller : CongestionController) (call : Signal)
    (ended : Ended) : Prop :=
  (Computable controller call →
      ∃ after, ended = (.returned (), after) ∧ Maintained after) ∧
    (¬ Computable controller call → ended.1 = .panicked)

theorem Exact.of_computable {call : Signal} {ended : Ended}
    (computable : Computable controller call)
    (returns : ∃ after, ended = (.returned (), after) ∧ Maintained after) :
    Exact controller call ended := by
  refine ⟨fun _ => returns, ?_⟩
  intro notComputable
  exact (notComputable computable).elim

theorem Exact.of_not_computable {call : Signal} {ended : Ended}
    (notComputable : ¬ Computable controller call)
    (panics : ended.1 = .panicked) : Exact controller call ended := by
  refine ⟨?_, fun _ => panics⟩
  intro computable
  exact (notComputable computable).elim

theorem onNewAck_exact (maintained : Maintained controller)
    (ackedBytes : UInt32) :
    Exact controller (.ack ackedBytes false)
      (onNewAck .checked controller ackedBytes) := by
  by_cases counted : controller.bytesAcked.toNat + ackedBytes.toNat < 2 ^ 32
  · obtain ⟨bytesAcked, fitted, -⟩ :=
      OverflowMode.checked.exists_fit32 counted
    have counters := maintained.counters bytesAcked 0
    by_cases growable : Growable
        { controller with bytesAcked, duplicateAcks := 0 } ackedBytes
    · obtain ⟨grown, isGrown, limits, positive⟩ :=
        grow_of_growable counters growable
      refine .of_computable ⟨counted, growable⟩
        ⟨_, ?_, counters.cap limits positive⟩
      simp only [onNewAck, fitted, isGrown]
    · refine .of_not_computable
        (fun computable => growable computable.2) ?_
      simp only [onNewAck, fitted, grow_of_not_growable counters growable]
  · refine .of_not_computable (fun computable => counted computable.1) ?_
    simp only [onNewAck, OverflowMode.checked_fit32_eq_none counted]

theorem onDuplicateAck_exact (maintained : Maintained controller)
    (ackedBytes : UInt32) :
    Exact controller (.ack ackedBytes true)
      (onDuplicateAck .checked controller ackedBytes) := by
  by_cases counted : controller.duplicateAcks.toNat + 1 < 2 ^ 32
  · obtain ⟨duplicateAcks, fitted, -⟩ :=
      OverflowMode.checked.exists_fit32 counted
    have counters :=
      maintained.counters controller.bytesAcked duplicateAcks
    by_cases recovering : controller.state = .fastRecovery
    · by_cases fits : controller.cwnd.toNat + ackedBytes.toNat < 2 ^ 32
      · obtain ⟨sum, fittedSum, exactSum⟩ :=
          OverflowMode.checked.exists_fit32 fits
        refine .of_computable ⟨counted, fun _ => fits⟩
          ⟨{ controller with duplicateAcks, cwnd := sum }, ?_, ?_⟩
        · simp only [onDuplicateAck, fitted, recovering, ne_eq,
            not_true_eq_false, and_false, if_false, if_true, fittedSum]
        · refine ⟨maintained.segment, maintained.limit,
            maintained.limitFits, maintained.limitEmpty,
            fun elsewhere => (elsewhere recovering).elim,
            fun startedNonempty => ?_⟩
          have both := maintained.positive startedNonempty
          simp only [exactSum]
          omega
      · refine .of_not_computable
          (fun computable => fits (computable.2 recovering)) ?_
        simp only [onDuplicateAck, fitted, recovering, ne_eq,
          not_true_eq_false, and_false, if_false, if_true,
          OverflowMode.checked_fit32_eq_none fits]
    · refine .of_computable
        ⟨counted, fun recovers => absurd recovers recovering⟩ ?_
      by_cases third : duplicateAcks = 3
      · obtain ⟨after, entered, isMaintained⟩ :=
          enterFastRecovery_returns counters
        refine ⟨after, ?_, isMaintained⟩
        simp only [onDuplicateAck, fitted, third, recovering, ne_eq,
          not_false_eq_true, and_self, if_true]
        rw [← third]
        exact entered
      · refine ⟨_, ?_, counters⟩
        simp only [onDuplicateAck, fitted, third, recovering, false_and,
          if_false]
  · refine .of_not_computable (fun computable => counted computable.1) ?_
    simp only [onDuplicateAck, OverflowMode.checked_fit32_eq_none counted]

theorem signal_exact (maintained : Maintained controller) (call : Signal) :
    Exact controller call (signal .checked controller call) := by
  cases call with
  | ack ackedBytes isDuplicate =>
      cases isDuplicate with
      | false => exact onNewAck_exact maintained ackedBytes
      | true => exact onDuplicateAck_exact maintained ackedBytes
  | loss => exact .of_computable trivial (onLoss_returns maintained)

theorem maintained_new {initialWindow : UInt32}
    (fits : initialWindow.toNat * 10 < 2 ^ 32) :
    Maintained (.new (min initialWindow 65536) (initialWindow * 10)) := by
  have segment : (min initialWindow 65536).toNat =
      min initialWindow.toNat 65536 := UInt32.toNat_min _ _
  have limit : (initialWindow * 10).toNat = initialWindow.toNat * 10 := by
    rw [UInt32.toNat_mul]
    exact Nat.mod_eq_of_lt fits
  have threshold : (initialWindow * 10 / 2).toNat =
      initialWindow.toNat * 10 / 2 := by
    rw [UInt32.toNat_div, limit]
    rfl
  refine ⟨?_, ?_, ?_, ?_, ?_, ?_⟩
  · simp only [new, segment]
    omega
  · simp only [new, segment, limit]
    omega
  · simp only [new, limit]
    omega
  · simp only [new, eq_zero_iff_toNat, segment, limit]
    omega
  · intro _
    simp only [new, segment, limit]
    omega
  · simp only [new, Ne, eq_zero_iff_toNat, segment, threshold]
    omega

theorem new_checked_eq_some_iff {initialWindow : UInt32}
    {controller : FlowController} :
    FlowController.new .checked initialWindow = some controller ↔
      initialWindow.toNat * 10 < 2 ^ 32 ∧
        controller = .newWithParams initialWindow (initialWindow * 10)
          (min initialWindow 65536) := by
  have product : initialWindow.toNat * 10 < 2 ^ 32 →
      (initialWindow * 10).toNat = initialWindow.toNat * 10 := by
    intro fits
    rw [UInt32.toNat_mul]
    exact Nat.mod_eq_of_lt fits
  rw [FlowController.new, Option.map_eq_some_iff]
  constructor
  · intro built
    obtain ⟨maxWindow, fitted, rfl⟩ := built
    obtain ⟨fits, exact⟩ := OverflowMode.checked_fit32_eq_some_iff.mp fitted
    have same : maxWindow = initialWindow * 10 :=
      UInt32.toNat_inj.mp (exact.trans (product fits).symm)
    rw [same]
    exact ⟨fits, rfl⟩
  · intro facts
    obtain ⟨fits, rfl⟩ := facts
    exact ⟨initialWindow * 10, OverflowMode.checked_fit32_eq_some_iff.mpr
      ⟨fits, product fits⟩, rfl⟩

theorem all_returned_iff (signals : List Signal)
    (maintained : Maintained controller) :
    (∀ entry ∈ Trace.history (signal .checked) controller signals,
        entry.2 = .returned ()) ↔
      Trace.Along (signal .checked) Computable controller signals := by
  refine Trace.forall_history_iff_along Maintained
    (fun answer : Outcome Empty Unit => answer = .returned ()) ?_ ?_ signals
    maintained
  · intro state call maintained
    obtain ⟨returns, panics⟩ := signal_exact maintained call
    constructor
    · intro returned
      by_contra notComputable
      rw [panics notComputable] at returned
      cases returned
    · intro computable
      obtain ⟨after, ended, -⟩ := returns computable
      rw [ended]
  · intro state call maintained computable
    obtain ⟨after, ended, isMaintained⟩ :=
      (signal_exact maintained call).1 computable
    rw [ended]
    exact isMaintained

/-- With overflow checks, creating a controller and running it through any
acknowledgements, duplicates and losses never aborts exactly when ten initial
windows fit and every call is computable. -/
theorem congestion_arithmetic_safe_iff (initialWindow : UInt32)
    (signals : List Signal) :
    (∃ controller,
        FlowController.new .checked initialWindow = some controller ∧
          ∀ entry ∈ Trace.history (signal .checked)
              controller.congestionController signals,
            entry.2 = .returned ()) ↔
      initialWindow.toNat * 10 < 2 ^ 32 ∧
        Trace.Along (signal .checked) Computable
          (.new (min initialWindow 65536) (initialWindow * 10)) signals := by
  constructor
  · intro safe
    obtain ⟨controller, built, returned⟩ := safe
    obtain ⟨fits, rfl⟩ := new_checked_eq_some_iff.mp built
    exact ⟨fits, (all_returned_iff signals (maintained_new fits)).mp returned⟩
  · intro facts
    obtain ⟨fits, along⟩ := facts
    exact ⟨_, new_checked_eq_some_iff.mpr ⟨fits, rfl⟩,
      (all_returned_iff signals (maintained_new fits)).mpr along⟩

example : Trace.Along (signal .checked) Computable (.new 1000 10000)
    [.ack 4000 false, .ack 65535 false, .ack 0 true, .ack 0 true,
      .ack 0 true, .ack 65536 true, .ack 1 false, .loss] := by
  decide +kernel

/-- An acknowledgement of 64 KiB in congestion avoidance overflows its square,
an empty initial window is divided by, and a large one overflows on creation. -/
theorem congestion_arithmetic_unsafe :
    (∃ entry ∈ Trace.history (signal .checked)
        (FlowController.newWithParams 1000 10000 1000).congestionController
        [.ack 5000 false, .ack 65536 false], entry.2 = .panicked) ∧
      (∃ entry ∈ Trace.history (signal .checked)
          (FlowController.newWithParams 0 0 0).congestionController
          [.ack 0 false, .ack 1 false], entry.2 = .panicked) ∧
      FlowController.new .checked 429496730 = none ∧
      ¬ ∀ (initialWindow : UInt32) (signals : List Signal),
        ∃ controller,
          FlowController.new .checked initialWindow = some controller ∧
            ∀ entry ∈ Trace.history (signal .checked)
                controller.congestionController signals,
              entry.2 = .returned () := by
  have overflows : FlowController.new .checked 429496730 = none := by
    decide +kernel
  refine ⟨by decide +kernel, by decide +kernel, overflows, ?_⟩
  intro safe
  obtain ⟨controller, built, -⟩ := safe 429496730 []
  rw [overflows] at built
  cases built

end NyxNet.Flow
