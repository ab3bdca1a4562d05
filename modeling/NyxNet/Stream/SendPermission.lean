import NyxNet.Stream.FlowController

/-!
# Permission to send

`can_send` adds to the bytes in flight and compares with both windows,
`available_to_send` subtracts them from both windows with saturation.  The sum
of the first wraps in release builds; what the congestion window admits never
reaches the point where it would.
-/

namespace NyxNet.Flow

/-- The maximum number of bytes that can be sent. -/
def FlowController.availableToSend (controller : FlowController) : UInt32 :=
  let flowAvailable := controller.flowWindow.availableWindow
  let congestionAvailable := controller.congestionController.canSend
    controller.flowWindow.bytesInFlight
  min flowAvailable congestionAvailable

theorem toNat_availableWindow (window : FlowWindow) :
    window.availableWindow.toNat =
      window.windowSize.toNat - window.bytesInFlight.toNat := by
  have small := window.windowSize.toNat_lt
  rw [FlowWindow.availableWindow, UInt32.toNat_ofNat_of_lt']
  exact Nat.lt_of_le_of_lt (Nat.sub_le _ _) small

theorem toNat_congestion_canSend (congestion : CongestionController)
    (bytesInFlight : UInt32) :
    (congestion.canSend bytesInFlight).toNat =
      congestion.cwnd.toNat - bytesInFlight.toNat := by
  rw [CongestionController.canSend]
  by_cases full : bytesInFlight ≥ congestion.cwnd
  · rw [if_pos full]
    rw [ge_iff_le, UInt32.le_iff_toNat_le] at full
    exact (Nat.sub_eq_zero_of_le full).symm
  · rw [if_neg full]
    rw [ge_iff_le, UInt32.le_iff_toNat_le] at full
    exact UInt32.toNat_sub_of_le _ _ (UInt32.le_iff_toNat_le.mpr (by omega))

variable (controller : FlowController)

theorem toNat_availableToSend :
    controller.availableToSend.toNat =
      min
        (controller.flowWindow.windowSize.toNat -
          controller.flowWindow.bytesInFlight.toNat)
        (controller.congestionController.cwnd.toNat -
          controller.flowWindow.bytesInFlight.toNat) := by
  rw [FlowController.availableToSend, UInt32.toNat_min, toNat_availableWindow,
    toNat_congestion_canSend]

/-- The windows that a send of some bytes within the permission leaves room
in. -/
theorem le_availableToSend_iff {bytes : UInt32} (positive : 1 ≤ bytes) :
    bytes ≤ controller.availableToSend ↔
      controller.flowWindow.bytesInFlight.toNat + bytes.toNat ≤
          controller.flowWindow.windowSize.toNat ∧
        controller.flowWindow.bytesInFlight.toNat + bytes.toNat ≤
          controller.congestionController.cwnd.toNat := by
  rw [UInt32.le_iff_toNat_le] at positive ⊢
  rw [toNat_availableToSend]
  change 1 ≤ bytes.toNat at positive
  omega

/-- The two computations of the permission agree. -/
theorem canSend_wrapping_iff {bytes : UInt32} (positive : 1 ≤ bytes) :
    controller.canSend .wrapping bytes = some true ↔
      bytes ≤ controller.availableToSend := by
  rw [le_availableToSend_iff controller positive]
  have cwndSmall := controller.congestionController.cwnd.toNat_lt
  constructor
  · intro admitted
    -- The congestion window alone keeps the sum from wrapping.
    obtain ⟨sum, fitted, exact⟩ :=
      OverflowMode.wrapping.exists_fit32 (sum_fits_of_canSend admitted)
    rw [FlowController.inFlight] at fitted exact
    rw [FlowController.canSend, FlowWindow.canSend, fitted] at admitted
    simp only [Option.map_some, Option.some.injEq, Bool.and_eq_true,
      decide_eq_true_eq, ge_iff_le, UInt32.le_iff_toNat_le, exact,
      toNat_congestion_canSend] at admitted
    rw [UInt32.le_iff_toNat_le] at positive
    change 1 ≤ bytes.toNat at positive
    omega
  · intro fits
    obtain ⟨sum, fitted, exact⟩ := OverflowMode.wrapping.exists_fit32
      (Nat.lt_of_le_of_lt fits.2 cwndSmall)
    rw [FlowController.canSend, FlowWindow.canSend, fitted]
    simp only [Option.map_some, Option.some.injEq, Bool.and_eq_true,
      decide_eq_true_eq, ge_iff_le, UInt32.le_iff_toNat_le, exact,
      toNat_congestion_canSend]
    omega

/-- What a send within the permission does. -/
theorem onDataSent_of_permitted {bytes : UInt32} (positive : 1 ≤ bytes)
    (permitted : bytes ≤ controller.availableToSend) :
    ∃ sum : UInt32,
      sum.toNat =
          controller.flowWindow.bytesInFlight.toNat + bytes.toNat ∧
        controller.onDataSent .wrapping bytes =
          (.returned (), { controller with
            flowWindow := { controller.flowWindow with bytesInFlight := sum }
            bytesSent := controller.bytesSent + bytes.toNat }) := by
  have admitted := (canSend_wrapping_iff controller positive).mpr permitted
  have room := (le_availableToSend_iff controller positive).mp permitted
  obtain ⟨sum, fitted, exact⟩ :=
    OverflowMode.wrapping.exists_fit32 (sum_fits_of_canSend admitted)
  rw [FlowController.inFlight] at fitted exact
  have within : ¬ sum > controller.flowWindow.windowSize := by
    rw [gt_iff_lt, UInt32.lt_iff_toNat_lt]
    omega
  refine ⟨sum, exact, ?_⟩
  rw [FlowController.onDataSent, admitted]
  simp only [FlowWindow.onDataSent, fitted, if_neg within]

/-- A send beyond the permission is refused before anything is written. -/
theorem onDataSent_of_not_permitted {bytes : UInt32} (positive : 1 ≤ bytes)
    (refused : ¬ bytes ≤ controller.availableToSend) :
    controller.onDataSent .wrapping bytes =
      (.failed .congestionWindowExhausted, controller) := by
  have notAdmitted :=
    mt (canSend_wrapping_iff controller positive).mp refused
  rw [FlowController.onDataSent]
  cases admitted : controller.canSend .wrapping bytes with
  | none =>
      rw [FlowController.canSend, FlowWindow.canSend] at admitted
      cases admitted
  | some admits =>
      cases admits with
      | false => rfl
      | true => exact absurd admitted notAdmitted

/-- In every state and for every positive number of bytes, `can_send` holds
and `on_data_sent` succeeds exactly within `available_to_send`; a success adds
the bytes and stays within both windows, a refusal changes nothing. -/
theorem send_permission_exact (bytes : UInt32) (positive : 1 ≤ bytes) :
    (controller.canSend .wrapping bytes = some true ↔
        bytes ≤ controller.availableToSend) ∧
      ((controller.onDataSent .wrapping bytes).1 = .returned () ↔
        bytes ≤ controller.availableToSend) ∧
      (bytes ≤ controller.availableToSend →
        ∃ sum : UInt32,
          sum.toNat =
              controller.flowWindow.bytesInFlight.toNat + bytes.toNat ∧
            sum ≤ min controller.flowWindow.windowSize
              controller.congestionController.cwnd ∧
            (controller.onDataSent .wrapping bytes).2 =
              { controller with
                flowWindow :=
                  { controller.flowWindow with bytesInFlight := sum }
                bytesSent := controller.bytesSent + bytes.toNat }) ∧
      (¬ bytes ≤ controller.availableToSend →
        ∃ error, controller.onDataSent .wrapping bytes =
          (.failed error, controller)) := by
  refine ⟨canSend_wrapping_iff controller positive, ⟨?_, ?_⟩, ?_, ?_⟩
  · intro returned
    by_contra refused
    rw [onDataSent_of_not_permitted controller positive refused] at returned
    cases returned
  · intro permitted
    obtain ⟨sum, -, sent⟩ :=
      onDataSent_of_permitted controller positive permitted
    rw [sent]
  · intro permitted
    obtain ⟨sum, exact, sent⟩ :=
      onDataSent_of_permitted controller positive permitted
    have room := (le_availableToSend_iff controller positive).mp permitted
    refine ⟨sum, exact, ?_, ?_⟩
    · rw [UInt32.le_iff_toNat_le, UInt32.toNat_min, exact]
      exact Nat.le_min.mpr room
    · rw [sent]
  · intro refused
    exact ⟨_, onDataSent_of_not_permitted controller positive refused⟩

/-- A window that shrank below the bytes in flight admits nothing. -/
theorem send_permission_exact_shrunk :
    let controller : FlowController :=
      { FlowController.newWithParams 1000 10000 1000 with
        flowWindow := { windowSize := 300, bytesInFlight := 500,
                        maxWindowSize := 10000 } }
    (1 : UInt32) ≤ 1 ∧ ¬ controller.canSend .wrapping 1 = some true := by
  intro controller
  refine ⟨by decide, ?_⟩
  rw [(send_permission_exact controller 1 (by decide)).1]
  decide

end NyxNet.Flow
