import NyxNet.Lib.Trace
import NyxNet.Lib.Word

/-!
# TCP-like congestion control

`CongestionController` of `flow_controller.rs`: slow start, congestion
avoidance and fast recovery over a window of bytes.  All quantities are `u32`;
an overflow wraps or aborts the call, by the mode of the build, and an aborted
call leaves what it had already written.
-/

namespace NyxNet.Flow

inductive CongestionState where
  | slowStart
  | congestionAvoidance
  | fastRecovery
  deriving DecidableEq, Repr

/-- `CongestionController` without `fast_recovery_exit_point`, which nothing
reads. -/
structure CongestionController where
  cwnd : UInt32
  ssthresh : UInt32
  state : CongestionState
  bytesAcked : UInt32
  duplicateAcks : UInt32
  initialCwnd : UInt32
  maxCwnd : UInt32
  deriving DecidableEq, Repr

namespace CongestionController

def new (initialCwnd maxCwnd : UInt32) : CongestionController :=
  { cwnd := initialCwnd
    ssthresh := maxCwnd / 2
    state := .slowStart
    bytesAcked := 0
    duplicateAcks := 0
    initialCwnd
    maxCwnd }

/-- How a call ends, and the controller it leaves. -/
abbrev Ended : Type := Outcome Empty Unit × CongestionController

/-- `enter_fast_recovery`. -/
def enterFastRecovery (mode : OverflowMode)
    (controller : CongestionController) : Ended :=
  match mode.fit32 (2 * controller.initialCwnd.toNat) with
  | none => (.panicked, controller)
  | some twice =>
      let controller :=
        { controller with ssthresh := max (controller.cwnd / 2) twice }
      match mode.fit32 (3 * controller.initialCwnd.toNat) with
      | none => (.panicked, controller)
      | some segments =>
          match mode.fit32
              (controller.ssthresh.toNat + segments.toNat) with
          | none => (.panicked, controller)
          | some cwnd =>
              (.returned (), { controller with cwnd, state := .fastRecovery })

/-- The branch of `on_ack` for duplicates. -/
def onDuplicateAck (mode : OverflowMode) (controller : CongestionController)
    (ackedBytes : UInt32) : Ended :=
  match mode.fit32 (controller.duplicateAcks.toNat + 1) with
  | none => (.panicked, controller)
  | some duplicateAcks =>
      let controller := { controller with duplicateAcks }
      if controller.duplicateAcks = 3 ∧ controller.state ≠ .fastRecovery then
        enterFastRecovery mode controller
      else if controller.state = .fastRecovery then
        match mode.fit32 (controller.cwnd.toNat + ackedBytes.toNat) with
        | none => (.panicked, controller)
        | some cwnd => (.returned (), { controller with cwnd })
      else (.returned (), controller)

/-- The window after a new acknowledgement, before it is capped. -/
def grow (mode : OverflowMode) (controller : CongestionController)
    (ackedBytes : UInt32) : Option CongestionController :=
  match controller.state with
  | .slowStart =>
      (mode.fit32 (controller.cwnd.toNat + ackedBytes.toNat)).map fun cwnd =>
        { controller with
          cwnd
          state := if cwnd ≥ controller.ssthresh then .congestionAvoidance
            else .slowStart }
  | .congestionAvoidance =>
      match mode.fit32 (ackedBytes.toNat * ackedBytes.toNat) with
      | none => none
      | some square =>
          -- A division by an empty window aborts in every build.
          if controller.cwnd = 0 then none
          else
            let increase := square / controller.cwnd
            (mode.fit32 (controller.cwnd.toNat + (max increase 1).toNat)).map
              fun cwnd => { controller with cwnd }
  | .fastRecovery =>
      if ackedBytes > 0 then
        some { controller with
          cwnd := controller.ssthresh
          state := .congestionAvoidance }
      else some controller

/-- The rest of `on_ack`: a new acknowledgement. -/
def onNewAck (mode : OverflowMode) (controller : CongestionController)
    (ackedBytes : UInt32) : Ended :=
  let controller := { controller with duplicateAcks := 0 }
  match mode.fit32 (controller.bytesAcked.toNat + ackedBytes.toNat) with
  | none => (.panicked, controller)
  | some bytesAcked =>
      let controller := { controller with bytesAcked }
      match grow mode controller ackedBytes with
      | none => (.panicked, controller)
      | some grown =>
          (.returned (), { grown with cwnd := min grown.cwnd grown.maxCwnd })

/-- `on_ack`. -/
def onAck (mode : OverflowMode) (controller : CongestionController)
    (ackedBytes : UInt32) (isDuplicate : Bool) : Ended :=
  if isDuplicate then onDuplicateAck mode controller ackedBytes
  else onNewAck mode controller ackedBytes

/-- `on_loss`. -/
def onLoss (mode : OverflowMode) (controller : CongestionController) : Ended :=
  match controller.state with
  | .fastRecovery => (.returned (), controller)
  | _ =>
      match mode.fit32 (2 * controller.initialCwnd.toNat) with
      | none => (.panicked, controller)
      | some twice =>
          let ssthresh := max (controller.cwnd / 2) twice
          (.returned (), { controller with
            ssthresh
            cwnd := ssthresh
            state := .congestionAvoidance })

/-- `can_send`. -/
def canSend (controller : CongestionController) (bytesInFlight : UInt32) :
    UInt32 :=
  if bytesInFlight ≥ controller.cwnd then 0
  else controller.cwnd - bytesInFlight

end CongestionController

/-- A call on the controller. -/
inductive Signal where
  | ack (ackedBytes : UInt32) (isDuplicate : Bool)
  | loss
  deriving DecidableEq, Repr

open CongestionController

/-- One call; the answer says whether it returned. -/
def signal (mode : OverflowMode) (controller : CongestionController) :
    Signal → Ended
  | .ack ackedBytes isDuplicate =>
      controller.onAck mode ackedBytes isDuplicate
  | .loss => controller.onLoss mode

variable {mode : OverflowMode} {controller : CongestionController}

/-- The limits that `new` sets are never written again. -/
structure SameLimits (before after : CongestionController) : Prop where
  initialCwnd : after.initialCwnd = before.initialCwnd
  maxCwnd : after.maxCwnd = before.maxCwnd

theorem grow_limits {ackedBytes : UInt32} {grown : CongestionController}
    (isGrown : grow mode controller ackedBytes = some grown) :
    SameLimits controller grown ∧
      (grown.state = .fastRecovery → controller.state = .fastRecovery) := by
  unfold grow at isGrown
  cases state : controller.state with
  | slowStart =>
      simp only [state] at isGrown
      obtain ⟨cwnd, _, rfl⟩ := Option.map_eq_some_iff.mp isGrown
      refine ⟨⟨rfl, rfl⟩, ?_⟩
      simp only
      split
      · intro equality
        cases equality
      · intro equality
        cases equality
  | congestionAvoidance =>
      simp only [state] at isGrown
      split at isGrown
      · cases isGrown
      · split at isGrown
        · cases isGrown
        · obtain ⟨cwnd, _, rfl⟩ := Option.map_eq_some_iff.mp isGrown
          exact ⟨⟨rfl, rfl⟩, id⟩
  | fastRecovery =>
      simp only [state] at isGrown
      split at isGrown
      · cases isGrown
        exact ⟨⟨rfl, rfl⟩, fun _ => rfl⟩
      · cases isGrown
        exact ⟨⟨rfl, rfl⟩, fun _ => rfl⟩

variable (mode controller)

/-- A new acknowledgement ends with the cap, or aborts before it has written
the window; it never enters fast recovery. -/
theorem onNewAck_window (ackedBytes : UInt32) :
    SameLimits controller (onNewAck mode controller ackedBytes).2 ∧
      ((onNewAck mode controller ackedBytes).2.cwnd = controller.cwnd ∨
        (onNewAck mode controller ackedBytes).2.cwnd ≤ controller.maxCwnd) ∧
      ((onNewAck mode controller ackedBytes).2.state = .fastRecovery →
        controller.state = .fastRecovery) := by
  unfold onNewAck
  simp only
  split
  · exact ⟨⟨rfl, rfl⟩, Or.inl rfl, id⟩
  · split
    · exact ⟨⟨rfl, rfl⟩, Or.inl rfl, id⟩
    · rename_i grown isGrown
      obtain ⟨⟨sameInitial, sameMax⟩, stays⟩ := grow_limits isGrown
      simp only at sameInitial sameMax stays
      refine ⟨⟨sameInitial, sameMax⟩, Or.inr ?_, stays⟩
      rw [sameMax, UInt32.le_iff_toNat_le, UInt32.toNat_min]
      exact Nat.min_le_right _ _

theorem toNat_reduced (cwnd twice : UInt32) :
    (max (cwnd / 2) twice).toNat = max (cwnd.toNat / 2) twice.toNat := by
  rw [UInt32.toNat_max, UInt32.toNat_div]
  rfl

/-- `on_loss` outside of fast recovery sets the window to half of itself, but
at least twice the initial window. -/
theorem onLoss_window :
    SameLimits controller (onLoss mode controller).2 ∧
      ((onLoss mode controller).2.cwnd = controller.cwnd ∨
        controller.state ≠ .fastRecovery ∧
          (onLoss mode controller).2.cwnd.toNat ≤
            max (controller.cwnd.toNat / 2)
              (2 * controller.initialCwnd.toNat)) := by
  unfold onLoss
  split
  · exact ⟨⟨rfl, rfl⟩, Or.inl rfl⟩
  · rename_i elsewhere
    split
    · exact ⟨⟨rfl, rfl⟩, Or.inl rfl⟩
    · rename_i twice fitted
      refine ⟨⟨rfl, rfl⟩, Or.inr ⟨elsewhere, ?_⟩⟩
      have bound := OverflowMode.toNat_le_of_fit32 fitted
      simp only [toNat_reduced]
      omega

theorem enterFastRecovery_window :
    SameLimits controller (enterFastRecovery mode controller).2 ∧
      ((enterFastRecovery mode controller).2.cwnd = controller.cwnd ∨
        (enterFastRecovery mode controller).2.cwnd.toNat ≤
          max (controller.cwnd.toNat / 2) (2 * controller.initialCwnd.toNat) +
            3 * controller.initialCwnd.toNat) := by
  unfold enterFastRecovery
  split
  · exact ⟨⟨rfl, rfl⟩, Or.inl rfl⟩
  · rename_i twice fitted
    simp only
    split
    · exact ⟨⟨rfl, rfl⟩, Or.inl rfl⟩
    · rename_i segments fittedSegments
      split
      · exact ⟨⟨rfl, rfl⟩, Or.inl rfl⟩
      · rename_i cwnd fittedSum
        refine ⟨⟨rfl, rfl⟩, Or.inr ?_⟩
        have boundTwice := OverflowMode.toNat_le_of_fit32 fitted
        have boundSegments := OverflowMode.toNat_le_of_fit32 fittedSegments
        have boundSum := OverflowMode.toNat_le_of_fit32 fittedSum
        simp only [toNat_reduced] at boundSum
        simp only
        omega

/-- A duplicate inflates the window in fast recovery, enters fast recovery when
it is the third in a row, and leaves the window alone otherwise. -/
theorem onDuplicateAck_window (ackedBytes : UInt32) :
    SameLimits controller (onDuplicateAck mode controller ackedBytes).2 ∧
      ((onDuplicateAck mode controller ackedBytes).2.cwnd = controller.cwnd ∨
        controller.state = .fastRecovery ∧
          (onDuplicateAck mode controller ackedBytes).2.cwnd.toNat ≤
            controller.cwnd.toNat + ackedBytes.toNat ∨
        controller.state ≠ .fastRecovery ∧ controller.duplicateAcks = 2 ∧
          (onDuplicateAck mode controller ackedBytes).2.cwnd.toNat ≤
            max (controller.cwnd.toNat / 2)
              (2 * controller.initialCwnd.toNat) +
                3 * controller.initialCwnd.toNat) := by
  unfold onDuplicateAck
  split
  · exact ⟨⟨rfl, rfl⟩, Or.inl rfl⟩
  · rename_i count fitted
    simp only
    split
    · rename_i entry
      obtain ⟨third, elsewhere⟩ := entry
      obtain ⟨⟨sameInitial, sameMax⟩, window⟩ := enterFastRecovery_window
        mode { controller with duplicateAcks := count }
      refine ⟨⟨sameInitial, sameMax⟩, ?_⟩
      rcases window with unchanged | bound
      · exact Or.inl unchanged
      · refine Or.inr (Or.inr ⟨elsewhere, ?_, bound⟩)
        have counted := OverflowMode.toNat_of_fit32 fitted
        have small := controller.duplicateAcks.toNat_lt
        rw [third, show (3 : UInt32).toNat = 3 from rfl] at counted
        apply UInt32.toNat_inj.mp
        rw [show (2 : UInt32).toNat = 2 from rfl]
        omega
    · split
      · rename_i recovering
        split
        · exact ⟨⟨rfl, rfl⟩, Or.inl rfl⟩
        · rename_i cwnd fittedSum
          exact ⟨⟨rfl, rfl⟩, Or.inr (Or.inl
            ⟨recovering, OverflowMode.toNat_le_of_fit32 fittedSum⟩)⟩
      · exact ⟨⟨rfl, rfl⟩, Or.inl rfl⟩

/-- The call keeps the window within its limits: a duplicate leaves room for
the inflation, an entry into fast recovery finds the window at twice its
initial size and stays below the maximum, and the floor of a reduction does
not exceed the maximum. -/
def Restrained (controller : CongestionController) : Signal → Prop
  | .ack _ false => True
  | .ack ackedBytes true =>
      (controller.state = .fastRecovery →
        controller.cwnd.toNat + ackedBytes.toNat ≤
          controller.maxCwnd.toNat) ∧
      (controller.state ≠ .fastRecovery → controller.duplicateAcks = 2 →
        2 * controller.initialCwnd.toNat ≤ controller.cwnd.toNat ∧
        max (controller.cwnd.toNat / 2) (2 * controller.initialCwnd.toNat) +
          3 * controller.initialCwnd.toNat ≤ controller.maxCwnd.toNat)
  | .loss =>
      controller.state ≠ .fastRecovery →
        2 * controller.initialCwnd.toNat ≤ controller.maxCwnd.toNat

/-- A loss signal leaves the window at most three segments above where it
was. -/
def Bounded (segment : UInt32) (before : CongestionController) (call : Signal)
    (after : CongestionController) : Prop :=
  call = .loss ∨
      before.state ≠ .fastRecovery ∧ after.state = .fastRecovery →
    after.cwnd.toNat ≤ before.cwnd.toNat + 3 * segment.toNat

instance Restrained.decidable (controller : CongestionController)
    (call : Signal) : Decidable (Restrained controller call) :=
  match call with
  | .ack _ false => isTrue trivial
  | .ack _ true => inferInstanceAs (Decidable ((_ → _) ∧ (_ → _ → _ ∧ _)))
  | .loss => inferInstanceAs (Decidable (_ → _))

variable {mode controller}

/-- A restrained call keeps the window below the maximum and its signal
bounded. -/
theorem signal_restrained (mode : OverflowMode) {call : Signal}
    (capped : controller.cwnd ≤ controller.maxCwnd)
    (restrained : Restrained controller call) :
    SameLimits controller (signal mode controller call).2 ∧
      (signal mode controller call).2.cwnd ≤ controller.maxCwnd ∧
      Bounded controller.initialCwnd controller call
        (signal mode controller call).2 := by
  cases call with
  | ack ackedBytes isDuplicate =>
      cases isDuplicate with
      | false =>
          obtain ⟨limits, window, stays⟩ :=
            onNewAck_window mode controller ackedBytes
          refine ⟨limits, ?_, ?_⟩
          · rcases window with unchanged | bound
            · exact unchanged.symm ▸ capped
            · exact bound
          · intro signalled
            rcases signalled with isLoss | ⟨elsewhere, entered⟩
            · cases isLoss
            · exact absurd (stays entered) elsewhere
      | true =>
          obtain ⟨limits, window⟩ :=
            onDuplicateAck_window mode controller ackedBytes
          obtain ⟨roomToInflate, roomToEnter⟩ := restrained
          rcases window with unchanged | ⟨recovering, bound⟩ |
              ⟨elsewhere, second, bound⟩
          · refine ⟨limits, unchanged.symm ▸ capped, fun _ => ?_⟩
            exact Nat.le_trans (Nat.le_of_eq (congrArg UInt32.toNat unchanged))
              (Nat.le_add_right _ _)
          · refine ⟨limits, ?_, ?_⟩
            · exact UInt32.le_iff_toNat_le.mpr
                (Nat.le_trans bound (roomToInflate recovering))
            · intro signalled
              rcases signalled with isLoss | ⟨elsewhere, _⟩
              · cases isLoss
              · exact absurd recovering elsewhere
          · obtain ⟨large, below⟩ := roomToEnter elsewhere second
            refine ⟨limits, ?_, fun _ => ?_⟩
            · exact UInt32.le_iff_toNat_le.mpr (Nat.le_trans bound below)
            · refine Nat.le_trans bound ?_
              omega
  | loss =>
      obtain ⟨limits, window⟩ := onLoss_window mode controller
      rcases window with unchanged | ⟨elsewhere, bound⟩
      · refine ⟨limits, unchanged.symm ▸ capped, fun _ => ?_⟩
        exact Nat.le_trans (Nat.le_of_eq (congrArg UInt32.toNat unchanged))
          (Nat.le_add_right _ _)
      · have below := restrained elsewhere
        rw [UInt32.le_iff_toNat_le] at capped
        refine ⟨limits, ?_, fun _ => ?_⟩
        · refine UInt32.le_iff_toNat_le.mpr (Nat.le_trans bound ?_)
          omega
        · refine Nat.le_trans bound ?_
          omega

/-- In every run of restrained calls the window stays below its maximum, and
no loss signal raises it by more than three segments. -/
theorem window_disciplined (mode : OverflowMode)
    {initialCwnd maxCwnd : UInt32} (ordered : initialCwnd ≤ maxCwnd)
    (calls : List Signal)
    (restrained : Trace.Along (signal mode) Restrained
      (new initialCwnd maxCwnd) calls) :
    (∀ before, before <+: calls →
      (Trace.final (signal mode) (new initialCwnd maxCwnd) before).cwnd ≤
        maxCwnd) ∧
    ∀ before call, before ++ [call] <+: calls →
      Bounded initialCwnd
        (Trace.final (signal mode) (new initialCwnd maxCwnd) before) call
        (Trace.final (signal mode) (new initialCwnd maxCwnd)
          (before ++ [call])) := by
  obtain ⟨states, steps⟩ := Trace.throughout_steps_of_along
    (fun controller => controller.cwnd ≤ controller.maxCwnd ∧
      SameLimits (new initialCwnd maxCwnd) controller)
    (Bounded initialCwnd)
    (by
      intro controller call invariant meets
      obtain ⟨capped, limits⟩ := invariant
      obtain ⟨sameLimits, stillCapped, bounded⟩ :=
        signal_restrained mode capped meets
      rw [limits.initialCwnd] at bounded
      refine ⟨⟨?_, ?_, ?_⟩, bounded⟩
      · rw [sameLimits.maxCwnd]
        exact stillCapped
      · rw [sameLimits.initialCwnd, limits.initialCwnd]
      · rw [sameLimits.maxCwnd, limits.maxCwnd])
    calls ⟨ordered, rfl, rfl⟩ restrained
  refine ⟨?_, steps⟩
  intro before isPrefix
  obtain ⟨capped, limits⟩ := states before isPrefix
  rw [limits.maxCwnd] at capped
  exact capped

/-- Growth, an entry into fast recovery, inflation and a loss, all within the
limits. -/
theorem window_disciplined_recovery :
    (Trace.final (signal .checked) (new 1000 10000)
      [.ack 1500 false, .ack 0 true, .ack 0 true, .ack 0 true, .ack 900 true,
        .ack 10 false, .loss]).cwnd ≤ 10000 :=
  (window_disciplined .checked (by decide)
    [.ack 1500 false, .ack 0 true, .ack 0 true, .ack 0 true, .ack 900 true,
      .ack 10 false, .loss] (by decide +kernel)).1 _ (List.prefix_refl _)

/-- The third duplicate on a fresh controller raises the window fivefold, and
inflation then takes it past the maximum. -/
theorem window_undisciplined :
    ¬ Bounded 1000
        (Trace.final (signal .checked) (new 1000 10000)
          [.ack 0 true, .ack 0 true]) (.ack 0 true)
        (Trace.final (signal .checked) (new 1000 10000)
          [.ack 0 true, .ack 0 true, .ack 0 true]) ∧
      ¬ (Trace.final (signal .checked) (new 1000 10000)
          [.ack 0 true, .ack 0 true, .ack 0 true, .ack 6000 true]).cwnd ≤
        10000 := by
  refine ⟨?_, ?_⟩
  · intro bounded
    exact absurd (bounded (Or.inr (by decide +kernel))) (by decide +kernel)
  · decide +kernel

/-- The exact sums of a call fit 32 bits. -/
def Fits (controller : CongestionController) : Signal → Prop
  | .ack ackedBytes _ =>
      controller.duplicateAcks.toNat + 1 < 2 ^ 32 ∧
      controller.cwnd.toNat + ackedBytes.toNat < 2 ^ 32 ∧
      max (controller.cwnd.toNat / 2) (2 * controller.initialCwnd.toNat) +
        3 * controller.initialCwnd.toNat < 2 ^ 32
  | .loss => 2 * controller.initialCwnd.toNat < 2 ^ 32

theorem onDuplicateAck_inflates (mode : OverflowMode) {ackedBytes : UInt32}
    (fits : Fits controller (.ack ackedBytes true))
    (recovering : controller.state = .fastRecovery) :
    (onDuplicateAck mode controller ackedBytes).2.cwnd.toNat =
      controller.cwnd.toNat + ackedBytes.toNat := by
  obtain ⟨fitsCount, fitsSum, _⟩ := fits
  obtain ⟨count, fittedCount, _⟩ := mode.exists_fit32 fitsCount
  obtain ⟨sum, fittedSum, exactSum⟩ := mode.exists_fit32 fitsSum
  unfold onDuplicateAck
  simp only [fittedCount, recovering, ne_eq, not_true_eq_false, and_false,
    if_false, if_true, fittedSum]
  exact exactSum

theorem onDuplicateAck_enters (mode : OverflowMode) {ackedBytes : UInt32}
    (fits : Fits controller (.ack ackedBytes true))
    (elsewhere : controller.state ≠ .fastRecovery)
    (second : controller.duplicateAcks = 2) :
    (onDuplicateAck mode controller ackedBytes).2.state = .fastRecovery ∧
      (onDuplicateAck mode controller ackedBytes).2.cwnd.toNat =
        max (controller.cwnd.toNat / 2) (2 * controller.initialCwnd.toNat) +
          3 * controller.initialCwnd.toNat := by
  obtain ⟨fitsCount, _, fitsEntry⟩ := fits
  obtain ⟨count, fittedCount, exactCount⟩ := mode.exists_fit32 fitsCount
  obtain ⟨twice, fittedTwice, exactTwice⟩ :=
    mode.exists_fit32
      (show 2 * controller.initialCwnd.toNat < 2 ^ 32 by omega)
  obtain ⟨segments, fittedSegments, exactSegments⟩ :=
    mode.exists_fit32
      (show 3 * controller.initialCwnd.toNat < 2 ^ 32 by omega)
  have sumEq : (max (controller.cwnd / 2) twice).toNat + segments.toNat =
      max (controller.cwnd.toNat / 2) (2 * controller.initialCwnd.toNat) +
        3 * controller.initialCwnd.toNat := by
    rw [toNat_reduced, exactTwice, exactSegments]
  obtain ⟨sum, fittedSum, exactSum⟩ := mode.exists_fit32 fitsEntry
  have third : count = 3 := by
    apply UInt32.toNat_inj.mp
    rw [exactCount, second]
    rfl
  unfold onDuplicateAck
  simp only [fittedCount]
  rw [if_pos ⟨third, elsewhere⟩]
  unfold enterFastRecovery
  simp only [fittedTwice, fittedSegments, sumEq, fittedSum]
  exact ⟨trivial, exactSum⟩

/-- Where nothing overflows, no call that is not restrained keeps the
discipline. -/
theorem restrained_of_disciplined (mode : OverflowMode) {call : Signal}
    (fits : Fits controller call)
    (capped : (signal mode controller call).2.cwnd ≤ controller.maxCwnd)
    (bounded : Bounded controller.initialCwnd controller call
      (signal mode controller call).2) :
    Restrained controller call := by
  cases call with
  | loss =>
      intro elsewhere
      obtain ⟨twice, fitted, exact⟩ := mode.exists_fit32 fits
      rw [UInt32.le_iff_toNat_le, signal, onLoss] at capped
      split at capped
      · exact absurd ‹_› elsewhere
      · simp only [fitted, toNat_reduced] at capped
        omega
  | ack ackedBytes isDuplicate =>
      cases isDuplicate with
      | false => trivial
      | true =>
          rw [UInt32.le_iff_toNat_le] at capped
          refine ⟨?_, ?_⟩
          · intro recovering
            have inflated := onDuplicateAck_inflates mode fits recovering
            exact Nat.le_trans (Nat.le_of_eq inflated.symm) capped
          · intro elsewhere second
            obtain ⟨entered, window⟩ :=
              onDuplicateAck_enters mode fits elsewhere second
            have raised := bounded (Or.inr ⟨elsewhere, entered⟩)
            have isWindow : (signal mode controller
                (.ack ackedBytes true)).2.cwnd.toNat = _ := window
            rw [isWindow] at raised capped
            exact ⟨by omega, capped⟩

end NyxNet.Flow
