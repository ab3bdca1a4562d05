import NyxNet.Lib.Bytes
import NyxNet.Stream.SendPermission

/-!
# The send buffer of the flow controller

`buffer_data` and `get_sendable_data` of `flow_controller.rs`, among all the
other operations of `FlowController`.  Those move the two windows, and with
them what may be taken out of the buffer, but do not touch the buffer itself.
-/

namespace NyxNet.Flow

namespace FlowController

/-- Handle data received for flow control. -/
def onDataReceived (mode : OverflowMode) (controller : FlowController)
    (bytes : UInt32) : Outcome FlowControlError Unit × FlowController :=
  match controller.flowWindow.onDataSent mode bytes with
  | (.returned _, flowWindow) =>
      (.returned (), { controller with
        flowWindow
        bytesSent := controller.bytesSent + bytes.toNat })
  | (ended, flowWindow) => (ended, { controller with flowWindow })

/-- Consume send window. -/
def consumeSendWindow (mode : OverflowMode) (controller : FlowController)
    (bytes : UInt32) : Outcome FlowControlError Unit × FlowController :=
  let (ended, flowWindow) := controller.flowWindow.onDataSent mode bytes
  (ended, { controller with flowWindow })

/-- Restore send window. -/
def restoreSendWindow (controller : FlowController) (bytes : UInt32) :
    FlowController :=
  { controller with flowWindow := controller.flowWindow.onAckReceived bytes }

/-- Update flow control window. -/
def updateFlowWindow (controller : FlowController) (newWindow : UInt32) :
    Except FlowControlError FlowController :=
  (controller.flowWindow.updateWindow newWindow).map fun flowWindow =>
    { controller with flowWindow }

/-- An update whose refusal is ignored. -/
def tryUpdateFlowWindow (controller : FlowController) (newWindow : UInt32) :
    FlowController :=
  match controller.updateFlowWindow newWindow with
  | .ok updated => updated
  | .error _ => controller

/-- Update flow control parameters based on network conditions.  The delay is
in nanoseconds. -/
def adaptiveFlowControlUpdate (controller : FlowController)
    (networkDelay : Nat) (packetLossRate : Float) : FlowController :=
  if !controller.enableAutoTuning then controller
  else
    let currentWindow := controller.flowWindow.windowSize
    if networkDelay < 50000000 && packetLossRate < 0.001 then
      let newWindow := (currentWindow.toFloat * 1.1).toUInt32
      controller.tryUpdateFlowWindow
        (min newWindow controller.flowWindow.maxWindowSize)
    else if networkDelay > 200000000 || packetLossRate > 0.01 then
      let newWindow := (currentWindow.toFloat * 0.9).toUInt32
      controller.tryUpdateFlowWindow (max newWindow 1024)
    else controller

/-- Apply backpressure when buffer is getting full. -/
def applyBackpressure (controller : FlowController) (pendingBytes : UInt32) :
    FlowController :=
  let currentWindow := controller.flowWindow.windowSize
  let reducedWindow :=
    max (UInt32.ofNat (currentWindow.toNat - pendingBytes.toNat)) 1024
  controller.tryUpdateFlowWindow reducedWindow

/-- Enable or disable auto-tuning. -/
def setAutoTuning (controller : FlowController) (enabled : Bool) :
    FlowController :=
  { controller with enableAutoTuning := enabled }

end FlowController

/-- An operation on the flow controller other than those of its buffer. -/
inductive WindowOperation where
  | call (next : Call)
  | dataReceived (bytes : UInt32)
  | consumeSendWindow (bytes : UInt32)
  | restoreSendWindow (bytes : UInt32)
  | updateFlowWindow (newWindow : UInt32)
  | adaptiveFlowControlUpdate (networkDelay : Nat) (packetLossRate : Float)
  | applyBackpressure (pendingBytes : UInt32)
  | setAutoTuning (enabled : Bool)
  /-- `update_rtt`, `update_receive_metrics`, `set_backpressure_threshold`,
  `consume_receive_window` and the methods that only read: they write no field
  that is modelled. -/
  | metrics

def operate (mode : OverflowMode) (controller : FlowController) :
    WindowOperation → Answer × FlowController
  | .call next => call mode controller next
  | .dataReceived bytes => controller.onDataReceived mode bytes
  | .consumeSendWindow bytes => controller.consumeSendWindow mode bytes
  | .restoreSendWindow bytes =>
      (.returned (), controller.restoreSendWindow bytes)
  | .updateFlowWindow newWindow =>
      match controller.updateFlowWindow newWindow with
      | .ok updated => (.returned (), updated)
      | .error error => (.failed error, controller)
  | .adaptiveFlowControlUpdate networkDelay packetLossRate =>
      (.returned (),
        controller.adaptiveFlowControlUpdate networkDelay packetLossRate)
  | .applyBackpressure pendingBytes =>
      (.returned (), controller.applyBackpressure pendingBytes)
  | .setAutoTuning enabled => (.returned (), controller.setAutoTuning enabled)
  | .metrics => (.returned (), controller)

/-- A `FlowController` with its buffer of bytes to be sent. -/
structure BufferedController where
  controller : FlowController
  sendBuffer : Bytes
  maxSendBuffer : Nat
  deriving DecidableEq, Repr

namespace BufferedController

/-- `new_with_params`. -/
def newWithParams (initialWindow maxWindow initialCwnd : UInt32)
    (maxSendBuffer : Nat) : BufferedController :=
  { controller := .newWithParams initialWindow maxWindow initialCwnd
    sendBuffer := []
    maxSendBuffer }

/-- `new`; `none` is an overflow of the maximal window. -/
def new (mode : OverflowMode) (initialWindow : UInt32) :
    Option BufferedController :=
  (FlowController.new mode initialWindow).map fun controller =>
    { controller
      sendBuffer := []
      maxSendBuffer := initialWindow.toNat * 4 }

/-- Buffer data for sending. -/
def bufferData (state : BufferedController) (data : Bytes) :
    Except FlowControlError Nat × BufferedController :=
  let availableBuffer := state.maxSendBuffer - state.sendBuffer.length
  if data.length > availableBuffer then
    (.error (.bufferOverflow availableBuffer data.length), state)
  else
    (.ok data.length, { state with sendBuffer := state.sendBuffer ++ data })

/-- Get buffered data that can be sent. -/
def getSendableData (state : BufferedController) (maxBytes : UInt32) :
    Bytes × BufferedController :=
  let available := (min state.controller.availableToSend maxBytes).toNat
  let toSend := min available state.sendBuffer.length
  if toSend = 0 then ([], state)
  else
    (state.sendBuffer.take toSend,
      { state with sendBuffer := state.sendBuffer.drop toSend })

end BufferedController

/-- An operation on the flow controller. -/
inductive BufferOperation where
  | bufferData (data : Bytes)
  | getSendableData (maxBytes : UInt32)
  | window (operation : WindowOperation)

inductive BufferAnswer where
  | buffered (result : Except FlowControlError Nat)
  | sendable (data : Bytes)
  | ended (answer : Answer)

namespace BufferedController

def perform (mode : OverflowMode) (state : BufferedController) :
    BufferOperation → BufferAnswer × BufferedController
  | .bufferData data =>
      let (result, state) := state.bufferData data
      (.buffered result, state)
  | .getSendableData maxBytes =>
      let (data, state) := state.getSendableData maxBytes
      (.sendable data, state)
  | .window operation =>
      let (answer, controller) := operate mode state.controller operation
      (.ended answer, { state with controller })

/-- The data that `buffer_data` accepted in a call. -/
def acceptedBy : BufferOperation × BufferAnswer → Bytes
  | (.bufferData data, .buffered (.ok _)) => data
  | _ => []

/-- The data that a call of `get_sendable_data` returned. -/
def releasedBy : BufferOperation × BufferAnswer → Bytes
  | (.getSendableData _, .sendable data) => data
  | _ => []

theorem bufferData_refused {state : BufferedController} {data : Bytes}
    {error : FlowControlError}
    (refused : (state.bufferData data).1 = .error error) :
    (state.bufferData data).2 = state := by
  rw [bufferData] at refused ⊢
  by_cases exceeds :
      data.length > state.maxSendBuffer - state.sendBuffer.length
  · rw [if_pos exceeds]
  · rw [if_neg exceeds] at refused
    cases refused

/-- The branch for nothing to send does what the other would. -/
theorem getSendableData_eq (state : BufferedController) (maxBytes : UInt32) :
    state.getSendableData maxBytes =
      (state.sendBuffer.take
          (min state.controller.availableToSend maxBytes).toNat,
        { state with
          sendBuffer := state.sendBuffer.drop
            (min state.controller.availableToSend maxBytes).toNat }) := by
  rw [getSendableData]
  by_cases nothing : min (min state.controller.availableToSend maxBytes).toNat
      state.sendBuffer.length = 0
  · rw [if_pos nothing]
    rcases Nat.min_eq_zero_iff.mp nothing with closed | empty
    · rw [closed, List.take_zero, List.drop_zero]
    · have buffer := List.length_eq_zero_iff.mp empty
      rw [buffer, List.take_nil, List.drop_nil, ← buffer]
  · rw [if_neg nothing, ← List.take_eq_take_min, ← List.drop_eq_drop_min]

theorem getSendableData_bounded (state : BufferedController)
    (maxBytes : UInt32) :
    (state.getSendableData maxBytes).1.length ≤
        state.controller.availableToSend.toNat ∧
      (state.getSendableData maxBytes).1.length ≤ maxBytes.toNat := by
  rw [getSendableData_eq, List.length_take, UInt32.toNat_min]
  omega

theorem perform_fifo (mode : OverflowMode) :
    Trace.FirstInFirstOut (perform mode) sendBuffer acceptedBy releasedBy := by
  intro state operation
  cases operation with
  | bufferData data =>
      simp only [perform, bufferData]
      by_cases exceeds :
          data.length > state.maxSendBuffer - state.sendBuffer.length
      · simp only [if_pos exceeds, acceptedBy, releasedBy, List.append_nil,
          List.nil_append]
      · simp only [if_neg exceeds, acceptedBy, releasedBy, List.nil_append]
  | getSendableData maxBytes =>
      simp only [perform, getSendableData_eq, acceptedBy, releasedBy,
        List.append_nil, List.take_append_drop]
  | window operation =>
      simp only [perform, acceptedBy, releasedBy, List.append_nil,
        List.nil_append]

/-- The buffer holds at most what it may. -/
def Fits (maxSendBuffer : Nat) (state : BufferedController) : Prop :=
  state.maxSendBuffer = maxSendBuffer ∧
    state.sendBuffer.length ≤ maxSendBuffer

theorem fits_perform (mode : OverflowMode) {maxSendBuffer : Nat}
    (state : BufferedController) (operation : BufferOperation)
    (fits : Fits maxSendBuffer state) :
    Fits maxSendBuffer (state.perform mode operation).2 := by
  obtain ⟨rfl, within⟩ := fits
  cases operation with
  | bufferData data =>
      simp only [perform, bufferData]
      by_cases exceeds :
          data.length > state.maxSendBuffer - state.sendBuffer.length
      · rw [if_pos exceeds]
        exact ⟨rfl, within⟩
      · rw [if_neg exceeds]
        refine ⟨rfl, ?_⟩
        rw [List.length_append]
        omega
  | getSendableData maxBytes =>
      simp only [perform, getSendableData_eq]
      refine ⟨rfl, ?_⟩
      rw [List.length_drop]
      omega
  | window operation => exact ⟨rfl, within⟩

/-- The send buffer is a bounded queue: over every run what was returned,
followed by what is still buffered, is what was accepted, in order; the buffer
keeps its bound, a refusal changes nothing, and no more is returned than both
limits of the call admit. -/
theorem send_buffer_bounded_fifo (mode : OverflowMode)
    (initialWindow maxWindow initialCwnd : UInt32) (maxSendBuffer : Nat)
    (operations : List BufferOperation) :
    let start :=
      newWithParams initialWindow maxWindow initialCwnd maxSendBuffer
    let past := Trace.history (perform mode) start operations
    let state := Trace.final (perform mode) start operations
    past.flatMap releasedBy ++ state.sendBuffer = past.flatMap acceptedBy ∧
      (state.maxSendBuffer = maxSendBuffer ∧
        state.sendBuffer.length ≤ maxSendBuffer) ∧
      (∀ data error, (state.bufferData data).1 = .error error →
        (state.bufferData data).2 = state) ∧
      ∀ maxBytes,
        (state.getSendableData maxBytes).1.length ≤
            state.controller.availableToSend.toNat ∧
          (state.getSendableData maxBytes).1.length ≤ maxBytes.toNat := by
  intro start past state
  refine ⟨?_, ?_, ?_, getSendableData_bounded state⟩
  · exact ((perform_fifo mode).run operations start).symm
  · exact Trace.final_invariant (fits_perform mode) operations
      ⟨rfl, Nat.zero_le _⟩
  · intro data error refused
    exact bufferData_refused refused

end BufferedController

end NyxNet.Flow
