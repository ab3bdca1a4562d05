import Mathlib.Algebra.Ring.Nat
import Mathlib.Data.List.Infix
import NyxNet.Stream.CongestionController

/-!
# The flow controller

`FlowWindow` and `FlowController` of `flow_controller.rs`.  The send buffer,
the RTT estimator and the time of the last tuning take no part in the calls
below.  An acknowledgement may tune the window; the bandwidth-delay product is
computed in `f64` from clock readings and enters with the call.
-/

namespace NyxNet.Flow

/-- `FlowControlError`. -/
inductive FlowControlError where
  | bufferOverflow (available requested : Nat)
  | invalidWindowSize (size : UInt32)
  | congestionWindowExhausted
  | flowControlViolation (message : String)
  deriving DecidableEq, Repr

/-- `FlowWindow` without the record of its updates. -/
structure FlowWindow where
  windowSize : UInt32
  bytesInFlight : UInt32
  maxWindowSize : UInt32
  deriving DecidableEq, Repr

namespace FlowWindow

def new (initialWindow maxWindow : UInt32) : FlowWindow :=
  { windowSize := initialWindow, bytesInFlight := 0, maxWindowSize := maxWindow }

/-- `can_send`; `none` is an overflow of the sum. -/
def canSend (mode : OverflowMode) (window : FlowWindow) (bytes : UInt32) :
    Option Bool :=
  (mode.fit32 (window.bytesInFlight.toNat + bytes.toNat)).map fun sum =>
    decide (sum ≤ window.windowSize)

def availableWindow (window : FlowWindow) : UInt32 :=
  UInt32.ofNat (window.windowSize.toNat - window.bytesInFlight.toNat)

/-- `on_data_sent`. -/
def onDataSent (mode : OverflowMode) (window : FlowWindow) (bytes : UInt32) :
    Outcome FlowControlError Unit × FlowWindow :=
  match mode.fit32 (window.bytesInFlight.toNat + bytes.toNat) with
  | none => (.panicked, window)
  | some sum =>
      if sum > window.windowSize then
        (.failed (.flowControlViolation
          s!"Attempted to send {bytes} bytes but only {window.availableWindow} available"),
          window)
      else (.returned (), { window with bytesInFlight := sum })

/-- `on_ack_received`: a saturating subtraction. -/
def onAckReceived (window : FlowWindow) (ackedBytes : UInt32) : FlowWindow :=
  { window with
    bytesInFlight := UInt32.ofNat
      (window.bytesInFlight.toNat - ackedBytes.toNat) }

/-- `update_window`. -/
def updateWindow (window : FlowWindow) (newWindow : UInt32) :
    Except FlowControlError FlowWindow :=
  if newWindow > window.maxWindowSize then
    .error (.invalidWindowSize newWindow)
  else .ok { window with windowSize := newWindow }

/-- `auto_tune` for a bandwidth-delay product. -/
def autoTune (mode : OverflowMode) (window : FlowWindow) (bdp : UInt32) :
    Outcome Empty Unit × FlowWindow :=
  match mode.fit32 (bdp.toNat * 2) with
  | none => (.panicked, window)
  | some doubled =>
      let targetWindow :=
        max (min doubled window.maxWindowSize) (window.windowSize / 2)
      if targetWindow ≠ window.windowSize then
        match window.updateWindow targetWindow with
        | .ok window => (.returned (), window)
        | .error _ => (.returned (), window)
      else (.returned (), window)

end FlowWindow

/-- `FlowController`; the counters of its statistics take 2^64 bytes to
overflow and are natural numbers. -/
structure FlowController where
  flowWindow : FlowWindow
  congestionController : CongestionController
  bytesSent : Nat
  bytesAcked : Nat
  packetsLost : Nat
  enableAutoTuning : Bool
  deriving DecidableEq, Repr

namespace FlowController

/-- `new_with_params`. -/
def newWithParams (initialWindow maxWindow initialCwnd : UInt32) :
    FlowController :=
  { flowWindow := .new initialWindow maxWindow
    congestionController := .new initialCwnd maxWindow
    bytesSent := 0
    bytesAcked := 0
    packetsLost := 0
    enableAutoTuning := true }

/-- `new`; `none` is an overflow of the maximal window. -/
def new (mode : OverflowMode) (initialWindow : UInt32) :
    Option FlowController :=
  (mode.fit32 (initialWindow.toNat * 10)).map fun maxWindow =>
    newWithParams initialWindow maxWindow (min initialWindow 65536)

/-- `can_send`: both windows have room. -/
def canSend (mode : OverflowMode) (controller : FlowController)
    (bytes : UInt32) : Option Bool :=
  (controller.flowWindow.canSend mode bytes).map fun flowAvailable =>
    flowAvailable && decide (controller.congestionController.canSend
      controller.flowWindow.bytesInFlight ≥ bytes)

/-- `on_data_sent`. -/
def onDataSent (mode : OverflowMode) (controller : FlowController)
    (bytes : UInt32) : Outcome FlowControlError Unit × FlowController :=
  match controller.canSend mode bytes with
  | none => (.panicked, controller)
  | some false => (.failed .congestionWindowExhausted, controller)
  | some true =>
      match controller.flowWindow.onDataSent mode bytes with
      | (.panicked, flowWindow) => (.panicked, { controller with flowWindow })
      | (.failed error, flowWindow) =>
          (.failed error, { controller with flowWindow })
      | (.returned _, flowWindow) =>
          (.returned (), { controller with
            flowWindow
            bytesSent := controller.bytesSent + bytes.toNat })

/-- `maybe_auto_tune`: the product is there when a second has passed since the
last tuning. -/
def maybeAutoTune (mode : OverflowMode) (controller : FlowController)
    (bdp : Option UInt32) :
    Outcome FlowControlError Unit × FlowController :=
  match bdp with
  | none => (.returned (), controller)
  | some bdp =>
      match controller.flowWindow.autoTune mode bdp with
      | (.panicked, flowWindow) => (.panicked, { controller with flowWindow })
      | (_, flowWindow) => (.returned (), { controller with flowWindow })

/-- `on_ack_received`. -/
def onAckReceived (mode : OverflowMode) (controller : FlowController)
    (ackedBytes : UInt32) (isDuplicate : Bool) (bdp : Option UInt32) :
    Outcome FlowControlError Unit × FlowController :=
  let controller := { controller with
    flowWindow := controller.flowWindow.onAckReceived ackedBytes }
  match controller.congestionController.onAck mode ackedBytes isDuplicate with
  | (.panicked, congestionController) =>
      (.panicked, { controller with congestionController })
  | (_, congestionController) =>
      let controller := { controller with congestionController }
      if isDuplicate then (.returned (), controller)
      else
        let controller := { controller with
          bytesAcked := controller.bytesAcked + ackedBytes.toNat }
        if controller.enableAutoTuning then controller.maybeAutoTune mode bdp
        else (.returned (), controller)

/-- `on_packet_lost`.  The lost bytes are only logged. -/
def onPacketLost (mode : OverflowMode) (controller : FlowController)
    (_lostBytes : UInt32) : Outcome FlowControlError Unit × FlowController :=
  match controller.congestionController.onLoss mode with
  | (.panicked, congestionController) =>
      (.panicked, { controller with congestionController })
  | (_, congestionController) =>
      (.returned (), { controller with
        congestionController
        packetsLost := controller.packetsLost + 1 })

/-- `on_data_acked`. -/
def onDataAcked (controller : FlowController) (bytes : UInt32) :
    FlowController :=
  { controller with
    flowWindow := controller.flowWindow.onAckReceived bytes
    bytesAcked := controller.bytesAcked + bytes.toNat }

/-- `on_data_lost`: counts before it signals. -/
def onDataLost (mode : OverflowMode) (controller : FlowController)
    (_bytes : UInt32) : Outcome FlowControlError Unit × FlowController :=
  let controller := { controller with
    packetsLost := controller.packetsLost + 1 }
  match controller.congestionController.onLoss mode with
  | (.panicked, congestionController) =>
      (.panicked, { controller with congestionController })
  | (_, congestionController) =>
      (.returned (), { controller with congestionController })

end FlowController

/-- A call on the flow controller. -/
inductive Call where
  | dataSent (bytes : UInt32)
  | ackReceived (ackedBytes : UInt32) (isDuplicate : Bool)
      (bdp : Option UInt32)
  | dataAcked (bytes : UInt32)
  | packetLost (lostBytes : UInt32)
  | dataLost (bytes : UInt32)
  deriving DecidableEq, Repr

abbrev Answer : Type := Outcome FlowControlError Unit

def call (mode : OverflowMode) (controller : FlowController) :
    Call → Answer × FlowController
  | .dataSent bytes => controller.onDataSent mode bytes
  | .ackReceived ackedBytes isDuplicate bdp =>
      controller.onAckReceived mode ackedBytes isDuplicate bdp
  | .dataAcked bytes => (.returned (), controller.onDataAcked bytes)
  | .packetLost lostBytes => controller.onPacketLost mode lostBytes
  | .dataLost bytes => controller.onDataLost mode bytes

/-- `get_bytes_in_flight`. -/
def FlowController.inFlight (controller : FlowController) : Nat :=
  controller.flowWindow.bytesInFlight.toNat

/-- The bytes that a call sent: what `on_data_sent` accepted. -/
def sentBy : Call × Answer → Nat
  | (.dataSent bytes, .returned _) => bytes.toNat
  | _ => 0

/-- The bytes that a call acknowledged for the first time. -/
def ackedBy : Call × Answer → Nat
  | (.ackReceived ackedBytes false _, _) => ackedBytes.toNat
  | (.dataAcked bytes, _) => bytes.toNat
  | _ => 0

def lostBy : Call × Answer → Nat
  | (.packetLost lostBytes, _) => lostBytes.toNat
  | (.dataLost bytes, _) => bytes.toNat
  | _ => 0

def total (bytesOf : Call × Answer → Nat) (past : List (Call × Answer)) :
    Nat :=
  (past.map bytesOf).sum

@[simp] theorem total_concat (bytesOf : Call × Answer → Nat)
    (past : List (Call × Answer)) (last : Call × Answer) :
    total bytesOf (past ++ [last]) = total bytesOf past + bytesOf last := by
  simp [total]

/-- No byte is acknowledged or reported lost that was not sent, and none
twice. -/
def ReportedOnce (past : List (Call × Answer)) : Prop :=
  total ackedBy past + total lostBy past ≤ total sentBy past

instance ReportedOnce.decidable (past : List (Call × Answer)) :
    Decidable (ReportedOnce past) :=
  inferInstanceAs (Decidable (_ ≤ _))

/-- The bytes in flight are those sent and neither acknowledged nor lost. -/
def Conserved (past : List (Call × Answer)) (controller : FlowController) :
    Prop :=
  controller.inFlight + total ackedBy past + total lostBy past =
    total sentBy past

/-- A duplicate that carries bytes finds nothing in flight, and a loss report
carries none. -/
def Neutral (controller : FlowController) : Call → Prop
  | .ackReceived ackedBytes true _ =>
      ackedBytes = 0 ∨ controller.flowWindow.bytesInFlight = 0
  | .packetLost lostBytes => lostBytes = 0
  | .dataLost bytes => bytes = 0
  | _ => True

instance Neutral.decidable (controller : FlowController) (next : Call) :
    Decidable (Neutral controller next) :=
  match next with
  | .dataSent _ => isTrue trivial
  | .ackReceived _ false _ => isTrue trivial
  | .ackReceived _ true _ => inferInstanceAs (Decidable (_ ∨ _))
  | .dataAcked _ => isTrue trivial
  | .packetLost _ => inferInstanceAs (Decidable (_ = _))
  | .dataLost _ => inferInstanceAs (Decidable (_ = _))

variable {mode : OverflowMode} {controller : FlowController}

theorem onAckReceived_bytesInFlight (window : FlowWindow)
    (ackedBytes : UInt32) :
    (window.onAckReceived ackedBytes).bytesInFlight.toNat =
      window.bytesInFlight.toNat - ackedBytes.toNat := by
  have small := window.bytesInFlight.toNat_lt
  unfold FlowWindow.onAckReceived
  rw [UInt32.toNat_ofNat_of_lt']
  exact Nat.lt_of_le_of_lt (Nat.sub_le _ _) small

theorem autoTune_bytesInFlight (mode : OverflowMode) (window : FlowWindow)
    (bdp : UInt32) :
    (window.autoTune mode bdp).2.bytesInFlight = window.bytesInFlight := by
  unfold FlowWindow.autoTune
  split
  · rfl
  · simp only
    split
    · unfold FlowWindow.updateWindow
      split
      · rename_i updated
        split at updated
        · cases updated
        · cases updated
          rfl
      · rfl
    · rfl

/-- The congestion window of a send that both windows admit keeps the sum
within 32 bits. -/
theorem sum_fits_of_canSend {bytes : UInt32}
    (admitted : controller.canSend mode bytes = some true) :
    controller.inFlight + bytes.toNat < 2 ^ 32 := by
  unfold FlowController.canSend at admitted
  obtain ⟨flowAvailable, _, both⟩ := Option.map_eq_some_iff.mp admitted
  rw [Bool.and_eq_true, decide_eq_true_eq] at both
  have room := UInt32.le_iff_toNat_le.mp both.2
  have small := controller.flowWindow.bytesInFlight.toNat_lt
  have cwndSmall := controller.congestionController.cwnd.toNat_lt
  unfold FlowController.inFlight
  unfold CongestionController.canSend at room
  split at room
  · rw [show (0 : UInt32).toNat = 0 from rfl] at room
    omega
  · rename_i below
    rw [ge_iff_le, UInt32.le_iff_toNat_le] at below
    rw [UInt32.toNat_sub_of_le _ _
      (UInt32.le_iff_toNat_le.mpr (by omega))] at room
    omega

/-- A send that is not accepted changes nothing. -/
theorem onDataSent_inFlight (mode : OverflowMode)
    (controller : FlowController) (bytes : UInt32) :
    (controller.onDataSent mode bytes).2.inFlight =
      controller.inFlight +
        sentBy (.dataSent bytes, (controller.onDataSent mode bytes).1) := by
  unfold FlowController.onDataSent
  split
  · rfl
  · rfl
  · rename_i admitted
    obtain ⟨sum, fitted, exact⟩ :=
      mode.exists_fit32 (sum_fits_of_canSend admitted)
    unfold FlowWindow.onDataSent
    rw [FlowController.inFlight] at fitted exact
    simp only [fitted]
    by_cases exceeds : sum > controller.flowWindow.windowSize
    · rw [if_pos exceeds]
      rfl
    · rw [if_neg exceeds]
      exact exact

theorem maybeAutoTune_inFlight (mode : OverflowMode)
    (controller : FlowController) (bdp : Option UInt32) :
    (controller.maybeAutoTune mode bdp).2.inFlight = controller.inFlight := by
  cases bdp with
  | none => rfl
  | some bdp =>
      have same := congrArg UInt32.toNat
        (autoTune_bytesInFlight mode controller.flowWindow bdp)
      unfold FlowController.maybeAutoTune
      simp only
      split
      · rename_i flowWindow tuned
        rw [tuned] at same
        exact same
      · rename_i flowWindow _ tuned
        rw [tuned] at same
        exact same

/-- Whatever else an acknowledgement does, it takes its bytes out of flight,
a duplicate as well as a new one. -/
theorem onAckReceived_inFlight (mode : OverflowMode)
    (controller : FlowController) (ackedBytes : UInt32) (isDuplicate : Bool)
    (bdp : Option UInt32) :
    (controller.onAckReceived mode ackedBytes isDuplicate bdp).2.inFlight =
      controller.inFlight - ackedBytes.toNat := by
  have taken := onAckReceived_bytesInFlight controller.flowWindow ackedBytes
  unfold FlowController.onAckReceived
  simp only
  split
  · exact taken
  · split
    · exact taken
    · split
      · rw [maybeAutoTune_inFlight]
        exact taken
      · exact taken

theorem onPacketLost_inFlight (mode : OverflowMode)
    (controller : FlowController) (lostBytes : UInt32) :
    (controller.onPacketLost mode lostBytes).2.inFlight =
      controller.inFlight := by
  unfold FlowController.onPacketLost
  split
  · rfl
  · rfl

theorem onDataLost_inFlight (mode : OverflowMode)
    (controller : FlowController) (bytes : UInt32) :
    (controller.onDataLost mode bytes).2.inFlight = controller.inFlight := by
  unfold FlowController.onDataLost
  simp only
  split
  · rfl
  · rfl

theorem eq_zero_iff_toNat (word : UInt32) : word = 0 ↔ word.toNat = 0 := by
  rw [← UInt32.toNat_inj]
  rfl

/-- One call keeps the account exactly when it is neutral. -/
theorem conserved_call_iff {past : List (Call × Answer)} (next : Call)
    (once : ReportedOnce (past ++ [(next, (call mode controller next).1)]))
    (conserved : Conserved past controller) :
    Conserved (past ++ [(next, (call mode controller next).1)])
        (call mode controller next).2 ↔
      Neutral controller next := by
  unfold ReportedOnce at once
  unfold Conserved at conserved ⊢
  simp only [total_concat] at once ⊢
  cases next with
  | dataSent bytes =>
      have sent := onDataSent_inFlight mode controller bytes
      simp only [call, ackedBy, lostBy] at once ⊢
      exact iff_of_true (by omega) trivial
  | ackReceived ackedBytes isDuplicate bdp =>
      have taken := onAckReceived_inFlight mode controller ackedBytes
        isDuplicate bdp
      cases isDuplicate with
      | false =>
          simp only [call, sentBy, ackedBy, lostBy] at once ⊢
          exact iff_of_true (by omega) trivial
      | true =>
          simp only [call, sentBy, ackedBy, lostBy, Neutral, eq_zero_iff_toNat,
            taken]
          unfold FlowController.inFlight at conserved ⊢
          omega
  | dataAcked bytes =>
      have taken : (controller.onDataAcked bytes).inFlight =
          controller.inFlight - bytes.toNat :=
        onAckReceived_bytesInFlight controller.flowWindow bytes
      simp only [call, sentBy, ackedBy, lostBy] at once ⊢
      exact iff_of_true (by omega) trivial
  | packetLost lostBytes =>
      have kept := onPacketLost_inFlight mode controller lostBytes
      simp only [call, sentBy, ackedBy, lostBy, Neutral,
        eq_zero_iff_toNat] at once ⊢
      omega
  | dataLost bytes =>
      have kept := onDataLost_inFlight mode controller bytes
      simp only [call, sentBy, ackedBy, lostBy, Neutral,
        eq_zero_iff_toNat] at once ⊢
      omega

/-- Duplicates leave the bytes in flight alone. -/
def DuplicatesIgnored (before : FlowController) (next : Call)
    (after : FlowController) : Prop :=
  ∀ ackedBytes bdp, next = .ackReceived ackedBytes true bdp →
    after.inFlight = before.inFlight

/-- The account holds throughout a run in which every byte is reported at most
once, and duplicates do not touch it, exactly when every call is neutral:
every duplicate that carries bytes releases them once more, and no lost byte
is ever released. -/
theorem inFlight_conserved_iff (mode : OverflowMode)
    (initialWindow maxWindow initialCwnd : UInt32) (calls : List Call)
    (once : ∀ before, before <+: calls → ReportedOnce
      (Trace.history (call mode)
        (.newWithParams initialWindow maxWindow initialCwnd) before)) :
    ((∀ before, before <+: calls → Conserved
        (Trace.history (call mode)
          (.newWithParams initialWindow maxWindow initialCwnd) before)
        (Trace.final (call mode)
          (.newWithParams initialWindow maxWindow initialCwnd) before)) ∧
      ∀ before next, before ++ [next] <+: calls → DuplicatesIgnored
        (Trace.final (call mode)
          (.newWithParams initialWindow maxWindow initialCwnd) before) next
        (Trace.final (call mode)
          (.newWithParams initialWindow maxWindow initialCwnd)
            (before ++ [next]))) ↔
      Trace.Along (call mode) Neutral
        (.newWithParams initialWindow maxWindow initialCwnd) calls := by
  refine Iff.trans ?_ (Trace.throughout_iff
    (fun past _ => ReportedOnce past) Conserved once rfl
    (fun past controller next _ after conserved =>
      conserved_call_iff next after conserved))
  -- A duplicate adds to none of the three totals.
  refine ⟨And.left, fun throughout => ⟨throughout, ?_⟩⟩
  intro before next isPrefix ackedBytes bdp isDuplicate
  have atStart := throughout before
    ((List.prefix_append before [next]).trans isPrefix)
  have atEnd := throughout (before ++ [next]) isPrefix
  rw [Trace.history_append, isDuplicate] at atEnd
  unfold Conserved at atStart atEnd
  simp only [Trace.history, total_concat, sentBy, ackedBy, lostBy] at atEnd
  rw [isDuplicate]
  omega

theorem inFlight_conserved_exchange :
    Conserved
      (Trace.history (call .checked) (.newWithParams 1000 10000 1000)
        [.dataSent 500, .ackReceived 0 true none,
          .ackReceived 200 false (some 400), .dataAcked 300])
      (Trace.final (call .checked) (.newWithParams 1000 10000 1000)
        [.dataSent 500, .ackReceived 0 true none,
          .ackReceived 200 false (some 400), .dataAcked 300]) := by
  have once : ∀ before ∈ [.dataSent 500, .ackReceived 0 true none,
      .ackReceived 200 false (some 400), Call.dataAcked 300].inits,
      ReportedOnce (Trace.history (call .checked)
        (.newWithParams 1000 10000 1000) before) := by
    decide +kernel
  have neutral : Trace.Along (call .checked) Neutral
      (.newWithParams 1000 10000 1000)
      [.dataSent 500, .ackReceived 0 true none,
        .ackReceived 200 false (some 400), .dataAcked 300] := by
    decide +kernel
  exact ((inFlight_conserved_iff .checked 1000 10000 1000 _
    (fun before isPrefix =>
      once before ((List.mem_inits _ _).mpr isPrefix))).mpr neutral).1 _
        (List.prefix_refl _)

/-- Five hundred bytes are lost and stay in flight; two hundred bytes
acknowledged by a duplicate are released before their acknowledgement. -/
theorem inFlight_not_conserved :
    ((∀ before ∈ [.dataSent 500, Call.packetLost 500].inits,
        ReportedOnce (Trace.history (call .checked)
          (.newWithParams 1000 10000 1000) before)) ∧
      ¬ Conserved
        (Trace.history (call .checked) (.newWithParams 1000 10000 1000)
          [.dataSent 500, .packetLost 500])
        (Trace.final (call .checked) (.newWithParams 1000 10000 1000)
          [.dataSent 500, .packetLost 500])) ∧
    (∀ before ∈ [.dataSent 500, Call.ackReceived 200 true none].inits,
        ReportedOnce (Trace.history (call .checked)
          (.newWithParams 1000 10000 1000) before)) ∧
      ¬ Conserved
        (Trace.history (call .checked) (.newWithParams 1000 10000 1000)
          [.dataSent 500, .ackReceived 200 true none])
        (Trace.final (call .checked) (.newWithParams 1000 10000 1000)
          [.dataSent 500, .ackReceived 200 true none]) := by
  refine ⟨⟨by decide +kernel, ?_⟩, by decide +kernel, ?_⟩
  · unfold Conserved
    decide +kernel
  · unfold Conserved
    decide +kernel

end NyxNet.Flow
