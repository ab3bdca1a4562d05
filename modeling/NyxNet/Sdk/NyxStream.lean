import NyxNet.Lib.BytesMut
import NyxNet.Lib.Future
import NyxNet.Sdk.Retry

/-!
# Writing to a stream of the SDK

The writing side of `NyxStream` in `nyx-sdk/src/stream.rs`.  `poll_write` fills
a buffer; `flush_internal` takes its content out and hands it to the daemon.
`poll_flush` makes a new flush future for every poll and drops it when it is
pending, whereas the future of `close` belongs to the caller, who may poll it
as often as needed.
-/

namespace NyxNet.Sdk

open Future

structure StreamOptions where
  bufferSize : Nat
  operationTimeout : Duration
  collectStats : Bool
  deriving DecidableEq

def StreamOptions.default : StreamOptions where
  bufferSize := 8192
  operationTimeout := Duration.fromSecs 30
  collectStats := true

inductive StreamState where
  | connecting
  | open
  | halfClosed
  | closed
  | error
  deriving DecidableEq, Repr

/-- The counters of `StreamStats` that a flush changes. -/
structure StreamStats where
  bytesWritten : UInt64
  writeOps : UInt64
  deriving DecidableEq, Repr

structure NyxStream where
  streamId : UInt32
  options : StreamOptions
  state : StreamState
  stats : StreamStats
  writeBuffer : BytesMut
  deriving DecidableEq

namespace NyxStream

def new (allocation : Allocation) (streamId : UInt32)
    (options : StreamOptions) : NyxStream where
  streamId := streamId
  options := options
  state := .open
  stats := ⟨0, 0⟩
  writeBuffer := .withCapacity allocation options.bufferSize

/-- The strategy that `new` makes for the retries. -/
def retryStrategy (stream : NyxStream) : RetryStrategy where
  maxAttempts := 2
  maxTotalTime := some stream.options.operationTimeout

end NyxStream

/-- `std::io::ErrorKind`. -/
inductive ErrorKind where
  | brokenPipe
  | notConnected
  | other
  deriving DecidableEq, Repr

structure IoError where
  kind : ErrorKind
  message : String
  deriving DecidableEq, Repr

inductive Poll (α : Type) where
  | pending
  | ready (result : Except IoError α)
  deriving DecidableEq

/-- `poll_write`, given whether the lock of the state and the one of the buffer
are free. -/
def NyxStream.pollWrite (allocation : Allocation) (stream : NyxStream)
    (buf : Bytes) (stateFree bufferFree : Bool) : Poll Nat × NyxStream :=
  if stateFree = false then
    (.pending, stream)
  else
    match stream.state with
    | .open =>
        if bufferFree = false then
          (.pending, stream)
        else
          let toWrite := min buf.length stream.writeBuffer.room
          if 0 < toWrite then
            (.ready (.ok toWrite),
              { stream with
                writeBuffer := stream.writeBuffer.extendFromSlice allocation
                  (buf.take toWrite) })
          else
            (.pending, stream)
    | .closed =>
        (.ready (.error ⟨.brokenPipe, "Stream is closed for writing"⟩), stream)
    | .halfClosed =>
        (.ready (.error ⟨.brokenPipe, "Stream is closed for writing"⟩), stream)
    | .error =>
        (.ready (.error ⟨.brokenPipe, "Stream is in error state"⟩), stream)
    | .connecting =>
        (.ready (.error ⟨.notConnected, "Stream is not ready for writing"⟩),
          stream)

structure DataResponse where
  success : Bool
  error : String
  deriving DecidableEq, Repr

/-- What an await gives when it is ready: the call of `send_data` its response,
with the time since the first attempt at the check and in the report; locks and
delays give nothing. -/
structure Answer where
  response : Except Status DataResponse
  elapsed : Duration
  reportedElapsed : Duration

/-- A stream, the bytes that `poll_write` has accepted, and those that the daemon
was handed in successful calls of `send_data`. -/
structure Session where
  stream : NyxStream
  accepted : Bytes
  delivered : Bytes
  deriving DecidableEq

namespace Session

def new (allocation : Allocation) (streamId : UInt32)
    (options : StreamOptions) : Session where
  stream := .new allocation streamId options
  accepted := []
  delivered := []

def buffer (session : Session) : BytesMut := session.stream.writeBuffer

def withBuffer (session : Session) (writeBuffer : BytesMut) : Session :=
  { session with stream := { session.stream with writeBuffer } }

def withState (session : Session) (state : StreamState) : Session :=
  { session with stream := { session.stream with state } }

def deliver (session : Session) (data : Bytes) : Session :=
  { session with delivered := session.delivered ++ data }

/-- The update of the statistics after a flush. -/
def record (session : Session) (bytesToSend : Nat) : Session :=
  let stats := session.stream.stats
  { session with
    stream := { session.stream with
      stats := {
        bytesWritten := stats.bytesWritten + UInt64.ofNat bytesToSend
        writeOps := stats.writeOps + 1 } } }

@[simp] theorem buffer_withBuffer (session : Session) (writeBuffer : BytesMut) :
    (session.withBuffer writeBuffer).buffer = writeBuffer := rfl

@[simp] theorem accepted_withBuffer (session : Session)
    (writeBuffer : BytesMut) :
    (session.withBuffer writeBuffer).accepted = session.accepted := rfl

@[simp] theorem delivered_withBuffer (session : Session)
    (writeBuffer : BytesMut) :
    (session.withBuffer writeBuffer).delivered = session.delivered := rfl

@[simp] theorem state_withBuffer (session : Session) (writeBuffer : BytesMut) :
    (session.withBuffer writeBuffer).stream.state = session.stream.state := rfl

@[simp] theorem options_withBuffer (session : Session)
    (writeBuffer : BytesMut) :
    (session.withBuffer writeBuffer).stream.options =
      session.stream.options := rfl

@[simp] theorem buffer_withState (session : Session) (state : StreamState) :
    (session.withState state).buffer = session.buffer := rfl

@[simp] theorem accepted_withState (session : Session) (state : StreamState) :
    (session.withState state).accepted = session.accepted := rfl

@[simp] theorem delivered_withState (session : Session) (state : StreamState) :
    (session.withState state).delivered = session.delivered := rfl

@[simp] theorem state_withState (session : Session) (state : StreamState) :
    (session.withState state).stream.state = state := rfl

@[simp] theorem buffer_deliver (session : Session) (data : Bytes) :
    (session.deliver data).buffer = session.buffer := rfl

@[simp] theorem accepted_deliver (session : Session) (data : Bytes) :
    (session.deliver data).accepted = session.accepted := rfl

@[simp] theorem delivered_deliver (session : Session) (data : Bytes) :
    (session.deliver data).delivered = session.delivered ++ data := rfl

@[simp] theorem state_deliver (session : Session) (data : Bytes) :
    (session.deliver data).stream.state = session.stream.state := rfl

end Session

/-- The result of the operation that is retried. -/
def sendResult (streamId : UInt32) :
    Except Status DataResponse → Except NyxError Unit
  | .ok response =>
      if response.success then
        .ok ()
      else
        .error (.streamError s!"Failed to send data: {response.error}"
          (some streamId))
  | .error status => .error (.ofStatus status)

/-- The data in front of what the buffer holds. -/
def putBack (allocation : Allocation) (data : Bytes) (writeBuffer : BytesMut) :
    BytesMut :=
  (BytesMut.ofSlice allocation data).extendFromSlice allocation
    writeBuffer.content

/-- The awaits of `flush_internal`, each with what the future has in hand. -/
inductive FlushAt where
  | lockingBuffer
  | lockingClient (attempt : Nat) (data : Bytes)
  | sending (attempt : Nat) (data : Bytes)
  | sleeping (attempt : Nat) (data : Bytes)
  | recording (bytesToSend : Nat)
  deriving DecidableEq, Repr

/-- `flush_internal` from one await to the next. -/
def flushInternal (allocation : Allocation) :
    Resume Session FlushAt Answer (Except NyxError Unit) :=
  fun session place answer =>
    match place with
    | .lockingBuffer =>
        if session.buffer.content = [] then
          (session, .ready (.ok ()))
        else
          let (data, rest) := session.buffer.split
          (session.withBuffer rest, .pending (.lockingClient 1 data))
    | .lockingClient attempt data =>
        (session, .pending (.sending attempt data))
    | .sending attempt data =>
        match sendResult session.stream.streamId answer.response with
        | .ok () =>
            let sent := session.deliver data
            if sent.stream.options.collectStats then
              (sent, .pending (.recording data.length))
            else
              (sent, .ready (.ok ()))
        | .error error =>
            if session.stream.retryStrategy.shouldContinue attempt
                answer.elapsed error then
              (session, .pending (.sleeping attempt data))
            else
              (session.withBuffer (putBack allocation data session.buffer),
                .ready (.error (enhanceErrorWithContext error attempt
                  answer.reportedElapsed)))
    | .sleeping attempt data =>
        (session, .pending (.lockingClient (attempt + 1) data))
    | .recording bytesToSend => (session.record bytesToSend, .ready (.ok ()))

/-- The awaits of `close`. -/
inductive CloseAt where
  | lockingState
  | flushing (place : FlushAt)
  | recording
  deriving DecidableEq, Repr

/-- `close` after its flush, which an error ends. -/
def afterFlush (session : Session) :
    Except NyxError Unit → Session × Polled CloseAt (Except NyxError Unit)
  | .ok () => (session, .pending .recording)
  | .error error => (session, .ready (.error error))

/-- `close` from one await to the next; the times that it records are left
out. -/
def close (allocation : Allocation) :
    Resume Session CloseAt Answer (Except NyxError Unit) :=
  fun session place answer =>
    match place with
    | .lockingState =>
        (session.withState .closed, .pending (.flushing .lockingBuffer))
    | .flushing inner =>
        Polled.await .flushing afterFlush
          (flushInternal allocation session inner answer)
    | .recording => (session, .ready (.ok ()))

/-- A call with what the awaits in it answer, as far as they are ready.  `close`
is given the answers of every poll of its future; a future that is still pending
after the last one is dropped. -/
inductive Call where
  | pollWrite (buf : Bytes) (stateFree bufferFree : Bool)
  | pollFlush (answers : List Answer)
  | close (polls : List (List Answer))
  | pollShutdown (answers : List Answer)

/-- What the caller of `poll_flush` or `poll_shutdown` sees; the place of a
pending future is lost with the future. -/
def Poll.ofPolled {φ : Type} : Polled φ (Except NyxError Unit) → Poll Unit
  | .pending _ => .pending
  | .ready (.ok ()) => .ready (.ok ())
  | .ready (.error error) => .ready (.error ⟨.other, error.display⟩)

inductive Output where
  | wrote (result : Poll Nat)
  | polled (result : Poll Unit)
  | closed (result : Option (Except NyxError Unit))
  deriving DecidableEq

variable (allocation : Allocation)

/-- The bytes of a write that were accepted. -/
def acceptedBytes (buf : Bytes) : Poll Nat → Bytes
  | .ready (.ok count) => buf.take count
  | _ => []

def flush (session : Session) (answers : List Answer) :
    (Session × Polled FlushAt (Except NyxError Unit)) × List Answer :=
  poll (flushInternal allocation) session .lockingBuffer answers

def perform (session : Session) : Call → Output × Session
  | .pollWrite buf stateFree bufferFree =>
      let (result, stream) :=
        session.stream.pollWrite allocation buf stateFree bufferFree
      (.wrote result, { session with
        stream := stream
        accepted := session.accepted ++ acceptedBytes buf result })
  | .pollFlush answers =>
      match flush allocation session answers with
      | ((after, polled), _) => (.polled (.ofPolled polled), after)
  | .close polls =>
      match pollAll (close allocation) session .lockingState polls with
      | ((after, .ready result), _) => (.closed (some result), after)
      | ((after, .pending _), _) => (.closed none, after)
  | .pollShutdown answers =>
      match flush allocation session answers with
      | ((after, .ready (.ok ())), left) =>
          match poll (close allocation) after .lockingState left with
          | ((last, polled), _) => (.polled (.ofPolled polled), last)
      | ((after, polled), _) => (.polled (.ofPolled polled), after)

/-- How the attempts to send end, given the answers after the lock of the
buffer: they are cut short, the daemon takes the data, or the last attempt
fails. -/
inductive Fate where
  | interrupted
  | delivered (left : List Answer)
  | failed (error : NyxError) (left : List Answer)

/-- The lock of the client, the response, and the delay before the next
attempt. -/
def fate (streamId : UInt32) (strategy : RetryStrategy) (attempt : Nat) :
    List Answer → Fate
  | _ :: answer :: rest =>
      match sendResult streamId answer.response with
      | .ok () => .delivered rest
      | .error error =>
          if strategy.shouldContinue attempt answer.elapsed error then
            match rest with
            | _ :: more => fate streamId strategy (attempt + 1) more
            | [] => .interrupted
          else
            .failed (enhanceErrorWithContext error attempt
              answer.reportedElapsed) rest
  | _ => .interrupted

/-- `fate` for a flush of this stream. -/
def Session.fate (session : Session) (answers : List Answer) : Fate :=
  Sdk.fate session.stream.streamId session.stream.retryStrategy 1 answers

/-- The statistics wait for their lock. -/
def recordSent (session : Session) (bytesToSend : Nat) (left : List Answer) :
    (Session × Polled FlushAt (Except NyxError Unit)) × List Answer :=
  if session.stream.options.collectStats then
    match left with
    | [] => ((session, .pending (.recording bytesToSend)), [])
    | _ :: more => ((session.record bytesToSend, .ready (.ok ())), more)
  else
    ((session, .ready (.ok ())), left)

/-- From the lock of the client on a flush meets the fate of its answers. -/
theorem poll_lockingClient (session : Session) (attempt : Nat) (data : Bytes)
    (answers : List Answer) :
    match fate session.stream.streamId session.stream.retryStrategy attempt
        answers with
    | .interrupted => ∃ place,
        poll (flushInternal allocation) session (.lockingClient attempt data)
          answers = ((session, .pending place), [])
    | .delivered left =>
        poll (flushInternal allocation) session (.lockingClient attempt data)
          answers = recordSent (session.deliver data) data.length left
    | .failed error left =>
        poll (flushInternal allocation) session (.lockingClient attempt data)
          answers =
            ((session.withBuffer (putBack allocation data session.buffer),
              .ready (.error error)), left) := by
  fun_induction fate session.stream.streamId session.stream.retryStrategy
      attempt answers with
  | case1 attempt lock answer rest sent =>
      simp only [poll, flushInternal, sent, recordSent]
      by_cases collects : (session.deliver data).stream.options.collectStats
      · rw [if_pos collects, if_pos collects]
        cases rest with
        | nil => rfl
        | cons stats more => rfl
      · rw [if_neg collects, if_neg collects]
  | case2 attempt lock answer error failed goesOn delay more ih =>
      simp only [poll, flushInternal, failed, goesOn, if_true]
      exact ih
  | case3 attempt lock answer error failed goesOn =>
      refine ⟨.sleeping attempt data, ?_⟩
      simp only [poll, flushInternal, failed, goesOn, if_true]
  | case4 attempt lock answer rest error failed ends =>
      simp only [poll, flushInternal, failed, ends, if_false,
        Bool.false_eq_true]
  | case5 answers attempt short =>
      cases answers with
      | nil => exact ⟨.lockingClient attempt data, rfl⟩
      | cons lock rest =>
          cases rest with
          | nil => exact ⟨.sending attempt data, rfl⟩
          | cons answer rest => exact absurd rfl (short lock answer rest)

/-- Everything that a flush can do. -/
inductive Flushes (allocation : Allocation) (session : Session) :
    List Answer →
      (Session × Polled FlushAt (Except NyxError Unit)) × List Answer →
        Prop where
  | waiting :
      Flushes allocation session [] ((session, .pending .lockingBuffer), [])
  | nothing (answer : Answer) (left : List Answer)
      (empty : session.buffer.content = []) :
      Flushes allocation session (answer :: left)
        ((session, .ready (.ok ())), left)
  | interrupted (answer : Answer) (rest : List Answer) (place : FlushAt)
      (full : session.buffer.content ≠ [])
      (cut : session.fate rest = .interrupted) :
      Flushes allocation session (answer :: rest)
        ((session.withBuffer session.buffer.split.2, .pending place), [])
  | delivered (answer : Answer) (rest left : List Answer)
      (full : session.buffer.content ≠ [])
      (sent : session.fate rest = .delivered left) :
      Flushes allocation session (answer :: rest)
        (recordSent ((session.withBuffer session.buffer.split.2).deliver
          session.buffer.content) session.buffer.content.length left)
  | failed (answer : Answer) (rest left : List Answer) (error : NyxError)
      (full : session.buffer.content ≠ [])
      (refused : session.fate rest = .failed error left) :
      Flushes allocation session (answer :: rest)
        ((session.withBuffer (putBack allocation session.buffer.content
          session.buffer.split.2), .ready (.error error)), left)

theorem flush_flushes (session : Session) (answers : List Answer) :
    Flushes allocation session answers (flush allocation session answers) := by
  cases answers with
  | nil => exact .waiting
  | cons answer rest =>
      by_cases empty : session.buffer.content = []
      · have done : flush allocation session (answer :: rest) =
            ((session, .ready (.ok ())), rest) := by
          simp only [flush, poll, flushInternal, empty, if_true]
        rw [done]
        exact .nothing answer rest empty
      · have goesOn : flush allocation session (answer :: rest) =
            poll (flushInternal allocation)
              (session.withBuffer session.buffer.split.2)
              (.lockingClient 1 session.buffer.content) rest := by
          simp only [flush, poll, flushInternal, empty, if_false]
          rfl
        have ending := poll_lockingClient allocation
          (session.withBuffer session.buffer.split.2) 1 session.buffer.content
          rest
        have same : fate
            (session.withBuffer session.buffer.split.2).stream.streamId
            (session.withBuffer session.buffer.split.2).stream.retryStrategy 1
            rest = session.fate rest := rfl
        rw [same] at ending
        cases outcome : session.fate rest with
        | interrupted =>
            rw [outcome] at ending
            obtain ⟨place, polled⟩ := ending
            rw [goesOn, polled]
            exact .interrupted answer rest place empty outcome
        | delivered left =>
            rw [outcome] at ending
            rw [goesOn, ending]
            exact .delivered answer rest left empty outcome
        | failed error left =>
            rw [outcome] at ending
            rw [goesOn, ending]
            exact .failed answer rest left error empty outcome

end NyxNet.Sdk
