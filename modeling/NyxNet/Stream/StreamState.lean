import NyxNet.Lib.OrderedMap
import NyxNet.Lib.Trace
import NyxNet.Stream.StreamFrame

/-!
# Stream state machine

`nyx-stream/src/state.rs`.  Offsets are 32-bit words and wrap; the panic of
`send_data` in a state that does not allow sending is `none`.  Instants are
nanoseconds and inputs of the calls that read the clock.
-/

namespace NyxNet.StreamMachine

open NyxNet.Stream

inductive StreamState where
  | idle
  | open
  | halfClosedLocal
  | halfClosedRemote
  | closed
  deriving DecidableEq, Repr

structure SentSegment where
  offset : UInt32
  len : Nat
  timestamp : Nat
  deriving DecidableEq, Repr

structure Stream where
  id : UInt32
  state : StreamState
  sendOffset : UInt32
  recvOffset : UInt32
  sent : Std.ExtTreeMap UInt32 SentSegment compare
  rto : Nat

namespace Stream

def new (id : UInt32) : Stream :=
  { id, state := .idle, sendOffset := 0, recvOffset := 0, sent := ∅
    rto := 250000000 }

/-- The states in which `send_data` passes its assertion. -/
def maySend : StreamState → Bool
  | .idle | .open | .halfClosedRemote => true
  | .halfClosedLocal | .closed => false

def sendData (stream : Stream) (data : Bytes) (now : Nat) :
    Option (Bytes × Stream) :=
  if maySend stream.state then
    let state := if stream.state = .idle then .open else stream.state
    let frame : StreamFrame :=
      { streamId := stream.id, offset := stream.sendOffset, fin := false
        data }
    let segment : SentSegment :=
      { offset := stream.sendOffset, len := data.length, timestamp := now }
    some (buildStreamFrame frame,
      { stream with
        state
        sent := stream.sent.insert stream.sendOffset segment
        sendOffset := stream.sendOffset + UInt32.ofNat data.length })
  else none

def finish (stream : Stream) : Option Bytes × Stream :=
  let frame : StreamFrame :=
    { streamId := stream.id, offset := stream.sendOffset, fin := true
      data := [] }
  match stream.state with
  | .open =>
      (some (buildStreamFrame frame), { stream with state := .halfClosedLocal })
  | .halfClosedRemote =>
      (some (buildStreamFrame frame), { stream with state := .closed })
  | _ => (none, stream)

/-- The state after a frame with this fin flag.  A FIN in any state other than
`Open` and `HalfClosedLocal` changes nothing. -/
def afterFin (state : StreamState) (fin : Bool) : StreamState :=
  if fin then
    match state with
    | .open => .halfClosedRemote
    | .halfClosedLocal => .closed
    | other => other
  else state

/-- Returns the offset offered to the ACK channel. -/
def onReceive (stream : Stream) (frame : StreamFrame) : UInt32 × Stream :=
  let recvOffset :=
    if frame.offset = stream.recvOffset then
      stream.recvOffset + UInt32.ofNat frame.data.length
    else stream.recvOffset
  (recvOffset,
    { stream with recvOffset, state := afterFin stream.state frame.fin })

def onAck (stream : Stream) (largest : UInt32) : Stream :=
  { stream with
    sent := stream.sent.filter (fun offset segment =>
      !decide (offset + UInt32.ofNat segment.len ≤ largest)) }

/-- One round of `loss_retransmit_loop` at the instant `now`: the frames it
sends, with zeros in place of the data.  `resentAt` gives the instants of the
resent segments. -/
def lossRetransmit (stream : Stream) (now : Nat) (resentAt : UInt32 → Nat) :
    List Bytes × Stream :=
  let lost := (stream.sent.toList.map Prod.snd).filter
    (fun segment => stream.rto ≤ now - segment.timestamp)
  (lost.map (fun segment => buildStreamFrame
      { streamId := stream.id, offset := segment.offset, fin := false
        data := List.replicate segment.len 0 }),
    { stream with
      sent := lost.foldl
        (fun sent segment => sent.modify segment.offset
          (fun orig => { orig with timestamp := resentAt segment.offset }))
        stream.sent })

theorem toNat_add_length {offset : UInt32} {length : Nat}
    (fits : offset.toNat + length < 2 ^ 32) :
    (offset + UInt32.ofNat length).toNat = offset.toNat + length := by
  have short : length < 2 ^ 32 := by omega
  rw [UInt32.toNat_add, UInt32.toNat_ofNat_of_lt' short,
    Nat.mod_eq_of_lt fits]

/-- An ACK adds no segment and changes none. -/
theorem lookup_of_onAck {stream : Stream} {largest offset : UInt32}
    {segment : SentSegment}
    (found : (stream.onAck largest).sent[offset]? = some segment) :
    stream.sent[offset]? = some segment := by
  rw [onAck, Std.ExtTreeMap.getElem?_filter'] at found
  exact (Option.filter_eq_some_iff.mp found).1

inductive Call where
  | sendData (data : Bytes) (now : Nat)
  | finish
  | onReceive (frame : StreamFrame)
  | onAck (largest : UInt32)
  deriving DecidableEq, Repr

inductive Answer where
  | panicked
  | frame (bytes : Bytes)
  | finished (bytes : Option Bytes)
  | acknowledges (largest : UInt32)
  | done
  deriving DecidableEq, Repr

def perform (stream : Stream) : Call → Answer × Stream
  | .sendData data now =>
      match stream.sendData data now with
      | none => (.panicked, stream)
      | some (bytes, stream) => (.frame bytes, stream)
  | .finish => (.finished stream.finish.1, stream.finish.2)
  | .onReceive frame =>
      (.acknowledges (stream.onReceive frame).1, (stream.onReceive frame).2)
  | .onAck largest => (.done, stream.onAck largest)

/-- A frame with FIN was received. -/
def FinReceived (past : List (Call × Answer)) : Prop :=
  ∃ frame answer, (.onReceive frame, answer) ∈ past ∧ frame.fin = true

/-- A call of `finish` returned a frame. -/
def Finished (past : List (Call × Answer)) : Prop :=
  ∃ bytes, (.finish, .finished (some bytes)) ∈ past

/-- A stream that both sides have finished is closed. -/
def ClosesWhenFinished (past : List (Call × Answer)) (stream : Stream) :
    Prop :=
  FinReceived past → Finished past → stream.state = .closed

/-- `finish` is not called on a stream that is still `Open` although a FIN was
received. -/
def FinNoticed (past : List (Call × Answer)) (stream : Stream) (call : Call) :
    Prop :=
  call = .finish → stream.state = .open → ¬ FinReceived past

theorem finReceived_append {past : List (Call × Answer)} {call : Call}
    {answer : Answer} :
    FinReceived (past ++ [(call, answer)]) ↔
      FinReceived past ∨ ∃ frame, call = .onReceive frame ∧ frame.fin = true := by
  constructor
  · intro received
    obtain ⟨frame, given, member, fin⟩ := received
    rcases List.mem_append.mp member with old | new
    · exact Or.inl ⟨frame, given, old, fin⟩
    · rw [List.mem_singleton] at new
      cases new
      exact Or.inr ⟨frame, rfl, fin⟩
  · intro received
    rcases received with old | new
    · obtain ⟨frame, given, member, fin⟩ := old
      exact ⟨frame, given, List.mem_append_left _ member, fin⟩
    · obtain ⟨frame, rfl, fin⟩ := new
      exact ⟨frame, answer, List.mem_append_right _ List.mem_cons_self, fin⟩

theorem finished_append {past : List (Call × Answer)} {call : Call}
    {answer : Answer} :
    Finished (past ++ [(call, answer)]) ↔
      Finished past ∨
        ∃ bytes, call = .finish ∧ answer = .finished (some bytes) := by
  constructor
  · intro finished
    obtain ⟨bytes, member⟩ := finished
    rcases List.mem_append.mp member with old | new
    · exact Or.inl ⟨bytes, old⟩
    · rw [List.mem_singleton] at new
      cases new
      exact Or.inr ⟨bytes, rfl, rfl⟩
  · intro finished
    rcases finished with old | new
    · obtain ⟨bytes, member⟩ := old
      exact ⟨bytes, List.mem_append_left _ member⟩
    · obtain ⟨bytes, rfl, rfl⟩ := new
      exact ⟨bytes, List.mem_append_right _ List.mem_cons_self⟩

/-- Both halves of the close go through states that sending never leaves. -/
def FinishKept (past : List (Call × Answer)) (stream : Stream) : Prop :=
  Finished past → stream.state = .halfClosedLocal ∨ stream.state = .closed

theorem state_sendData {stream next : Stream} {data bytes : Bytes} {now : Nat}
    (sent : stream.sendData data now = some (bytes, next)) :
    (stream.state = .idle ∧ next.state = .open) ∨
      (stream.state = .open ∧ next.state = .open) ∨
        (stream.state = .halfClosedRemote ∧
          next.state = .halfClosedRemote) := by
  rw [sendData] at sent
  split at sent
  · next allowed =>
      cases sent
      cases state : stream.state with
      | idle => exact Or.inl ⟨rfl, rfl⟩
      | «open» => exact Or.inr (Or.inl ⟨rfl, rfl⟩)
      | halfClosedRemote => exact Or.inr (Or.inr ⟨rfl, rfl⟩)
      | halfClosedLocal =>
          rw [state] at allowed
          cases allowed
      | closed =>
          rw [state] at allowed
          cases allowed
  · cases sent

theorem finish_cases (stream : Stream) :
    (stream.state = .open ∧ stream.finish.1.isSome ∧
        stream.finish.2.state = .halfClosedLocal) ∨
      (stream.state = .halfClosedRemote ∧ stream.finish.1.isSome ∧
        stream.finish.2.state = .closed) ∨
      (stream.state ≠ .open ∧ stream.state ≠ .halfClosedRemote ∧
        stream.finish = (none, stream)) := by
  cases state : stream.state with
  | «open» => exact Or.inl (by simp [finish, state])
  | halfClosedRemote => exact Or.inr (Or.inl (by simp [finish, state]))
  | idle => exact Or.inr (Or.inr (by simp [finish, state]))
  | halfClosedLocal => exact Or.inr (Or.inr (by simp [finish, state]))
  | closed => exact Or.inr (Or.inr (by simp [finish, state]))

theorem finishKept_perform (past : List (Call × Answer)) (stream : Stream)
    (call : Call) (kept : FinishKept past stream) :
    FinishKept (past ++ [(call, (stream.perform call).1)])
      (stream.perform call).2 := by
  intro finished
  rcases finished_append.mp finished with before | now
  · have ended := kept before
    cases call with
    | sendData data now =>
        simp only [perform]
        split
        · exact ended
        · next sent =>
            rcases state_sendData sent with idle | opened | remote
            · simp [idle.1] at ended
            · simp [opened.1] at ended
            · simp [remote.1] at ended
    | finish =>
        rcases finish_cases stream with opened | remote | other
        · simp [opened.1] at ended
        · simp [remote.1] at ended
        · simp only [perform, other.2.2]
          exact ended
    | onReceive frame =>
        rcases ended with halfClosed | closed
        · cases fin : frame.fin with
          | false =>
              exact Or.inl (by simp [perform, onReceive, afterFin, fin, halfClosed])
          | true =>
              exact Or.inr (by simp [perform, onReceive, afterFin, fin, halfClosed])
        · exact Or.inr (by simp [perform, onReceive, afterFin, closed])
    | onAck largest => exact ended
  · obtain ⟨bytes, rfl, answer⟩ := now
    rcases finish_cases stream with opened | remote | other
    · exact Or.inl opened.2.2
    · exact Or.inr remote.2.2
    · simp [perform, other.2.2] at answer

theorem sendData_of_closed {stream : Stream} (closed : stream.state = .closed)
    (data : Bytes) (now : Nat) : stream.sendData data now = none := by
  simp [sendData, closed, maySend]

/-- One call keeps the closing law exactly when it is not a `finish` of an
`Open` stream that has received a FIN. -/
theorem closesWhenFinished_perform_iff (past : List (Call × Answer))
    (stream : Stream) (call : Call) (kept : FinishKept past stream)
    (closes : ClosesWhenFinished past stream) :
    ClosesWhenFinished (past ++ [(call, (stream.perform call).1)])
        (stream.perform call).2 ↔ FinNoticed past stream call := by
  rw [ClosesWhenFinished, finReceived_append, finished_append]
  cases call with
  | sendData data now =>
      refine iff_of_true ?_ (fun isFinish => by cases isFinish)
      intro received finished
      have closed := closes (by simpa using received) (by simpa using finished)
      simp only [perform, sendData_of_closed closed]
      exact closed
  | finish =>
      rcases finish_cases stream with opened | remote | other
      · obtain ⟨bytes, some⟩ := Option.isSome_iff_exists.mp opened.2.1
        constructor
        · intro law _ _ received
          have closed := law (Or.inl received)
            (Or.inr ⟨bytes, rfl, congrArg Answer.finished some⟩)
          rw [perform, opened.2.2] at closed
          cases closed
        · intro noticed received
          exact absurd (by simpa using received) (noticed rfl opened.1)
      · refine iff_of_true (fun _ _ => remote.2.2) ?_
        intro _ isOpen
        rw [remote.1] at isOpen
        cases isOpen
      · refine iff_of_true ?_ (fun _ isOpen => absurd isOpen other.1)
        simp only [perform, other.2.2]
        intro received finished
        exact closes (by simpa using received) (by simpa using finished)
  | onReceive frame =>
      refine iff_of_true ?_ (fun isFinish => by cases isFinish)
      intro received finished
      have before : Finished past := by simpa using finished
      cases fin : frame.fin with
      | true =>
          rcases kept before with halfClosed | closed
          · simp [perform, onReceive, afterFin, fin, halfClosed]
          · simp [perform, onReceive, afterFin, closed]
      | false =>
          have closed := closes (by simpa [fin] using received) before
          simp [perform, onReceive, afterFin, closed]
  | onAck largest =>
      refine iff_of_true ?_ (fun isFinish => by cases isFinish)
      intro received finished
      exact closes (by simpa using received) (by simpa using finished)

/-- Throughout a run a stream that received a FIN and returned a frame from
`finish` is closed, exactly when `finish` is never called on an `Open` stream
that has received a FIN. -/
theorem close_order_independent_iff (id : UInt32) (calls : List Call) :
    (∀ before, before <+: calls →
      ClosesWhenFinished (Trace.history perform (new id) before)
        (Trace.final perform (new id) before)) ↔
      Trace.AlongPast perform FinNoticed [] (new id) calls := by
  refine Trace.throughout_past_iff FinishKept ClosesWhenFinished ?_ ?_ ?_
  · intro before _
    apply Trace.invariant _ finishKept_perform
    intro finished
    obtain ⟨bytes, member⟩ := finished
    cases member
  · intro received
    obtain ⟨frame, answer, member, -⟩ := received
    cases member
  · intro past stream call kept _ closes
    exact closesWhenFinished_perform_iff past stream call kept closes

/-- The FIN arrives before the first byte is sent. -/
def finBeforeOpen : List Call :=
  [.onReceive { streamId := 1, offset := 0, fin := true, data := [] },
   .sendData [1, 2] 0, .finish]

theorem fin_in_idle_is_lost :
    ¬ ClosesWhenFinished (Trace.history perform (new 1) finBeforeOpen)
      (Trace.final perform (new 1) finBeforeOpen) := by
  intro closes
  have closed := closes
    ⟨{ streamId := 1, offset := 0, fin := true, data := [] }, _,
      List.mem_cons_self, rfl⟩
    ⟨_, List.mem_cons_of_mem _ (List.mem_cons_of_mem _ List.mem_cons_self)⟩
  exact absurd closed (by decide)

end Stream

end NyxNet.StreamMachine
