import NyxNet.Lib.Bytes
import NyxNet.Lib.KeyedTable
import NyxNet.Lib.Trace

/-!
# The transmit queue

`TxQueue` of `nyx-stream/src/tx.rs` with the `Sequencer` of `sequencer.rs` and
the `TimingObfuscator` of `nyx-fec/src/timing.rs`.  Any number of calls run
over one queue, together with the worker that delays packets, the task that
forwards them and the receiver.  Each step names who moves; a step that has to
wait leaves the state as it is, so a delay is any number of steps of others.  The
`sigma_ms` of the configuration is finite; with another one the worker panics at
its first packet.
-/

namespace NyxNet.Tx

open KeyedTable

structure Sequencer where
  counters : Table UInt8 UInt64

namespace Sequencer

def new : Sequencer := ⟨∅⟩

/-- The number that comes next on a path. -/
def counter (sequencer : Sequencer) (pathId : UInt8) : UInt64 :=
  (sequencer.counters.lookup pathId).getD 0

def next (sequencer : Sequencer) (pathId : UInt8) : UInt64 × Sequencer :=
  let seq := sequencer.counter pathId
  (seq, ⟨sequencer.counters.insert pathId (seq + 1)⟩)

theorem counter_next_self (sequencer : Sequencer) (pathId : UInt8) :
    (sequencer.next pathId).2.counter pathId =
      sequencer.counter pathId + 1 := by
  rw [next, counter, AList.lookup_insert]
  rfl

theorem counter_next_of_ne (sequencer : Sequencer) {pathId other : UInt8}
    (different : other ≠ pathId) :
    (sequencer.next pathId).2.counter other = sequencer.counter other := by
  rw [next, counter, AList.lookup_insert_ne different]
  rfl

end Sequencer

/-- All three channels are made with this capacity. -/
def channelCapacity : Nat := 1024

/-- Where packets are between a call and the receiver. -/
structure Pipeline where
  intQueue : List Bytes
  workerHand : Option Bytes
  obfQueue : List Bytes
  forwarderHand : Option Bytes
  outQueue : List Bytes
  received : List Bytes
  deriving DecidableEq

namespace Pipeline

def new : Pipeline := ⟨[], none, [], none, [], []⟩

def HasRoom (queue : List Bytes) : Prop := queue.length < channelCapacity

instance (queue : List Bytes) : Decidable (HasRoom queue) :=
  inferInstanceAs (Decidable (_ < _))

/-- `int_rx.recv()`; the worker then sleeps with the packet in its hand.  The
delay can be drawn, `sigma_ms` being finite. -/
def workerRecv (pipeline : Pipeline) : Pipeline :=
  match pipeline.workerHand, pipeline.intQueue with
  | none, packet :: rest =>
      { pipeline with workerHand := some packet, intQueue := rest }
  | _, _ => pipeline

/-- `out_tx.send(pkt)` of the worker. -/
def workerSend (pipeline : Pipeline) : Pipeline :=
  match pipeline.workerHand with
  | some packet =>
      if HasRoom pipeline.obfQueue then
        { pipeline with
          workerHand := none, obfQueue := pipeline.obfQueue ++ [packet] }
      else pipeline
  | none => pipeline

/-- `recv_obf.recv()`. -/
def forwarderRecv (pipeline : Pipeline) : Pipeline :=
  match pipeline.forwarderHand, pipeline.obfQueue with
  | none, packet :: rest =>
      { pipeline with forwarderHand := some packet, obfQueue := rest }
  | _, _ => pipeline

/-- `out_tx.send(bytes)` of the forwarding task. -/
def forwarderSend (pipeline : Pipeline) : Pipeline :=
  match pipeline.forwarderHand with
  | some packet =>
      if HasRoom pipeline.outQueue then
        { pipeline with
          forwarderHand := none, outQueue := pipeline.outQueue ++ [packet] }
      else pipeline
  | none => pipeline

/-- `TxQueue::recv`. -/
def recv (pipeline : Pipeline) : Pipeline :=
  match pipeline.outQueue with
  | packet :: rest =>
      { pipeline with
        outQueue := rest, received := pipeline.received ++ [packet] }
  | [] => pipeline

/-- A packet enters; the caller has made sure that there is room. -/
def push (pipeline : Pipeline) (packet : Bytes) : Pipeline :=
  { pipeline with intQueue := pipeline.intQueue ++ [packet] }

/-- The packets that are still under way, the one that entered first first. -/
def underway (pipeline : Pipeline) : List Bytes :=
  pipeline.outQueue ++ pipeline.forwarderHand.toList ++ pipeline.obfQueue ++
    pipeline.workerHand.toList ++ pipeline.intQueue

def contents (pipeline : Pipeline) : List Bytes :=
  pipeline.received ++ pipeline.underway

end Pipeline

/-- The steps of the worker, the forwarding task and the receiver. -/
inductive Relay where
  | workerRecv
  | workerSend
  | forwarderRecv
  | forwarderSend
  | recv
  deriving DecidableEq, Repr

def Pipeline.relay (pipeline : Pipeline) : Relay → Pipeline
  | .workerRecv => pipeline.workerRecv
  | .workerSend => pipeline.workerSend
  | .forwarderRecv => pipeline.forwarderRecv
  | .forwarderSend => pipeline.forwarderSend
  | .recv => pipeline.recv

/-- How far a call has got.  From `numbering` to `unlocking` it holds the
lock on the sequencer. -/
inductive Call where
  | locking (pathId : UInt8) (bytes : Bytes)
  | numbering (pathId : UInt8) (bytes : Bytes)
  | sendingNumbered (pathId : UInt8) (bytes : Bytes) (number : UInt64)
  | unlocking (pathId : UInt8) (bytes : Bytes) (number : UInt64)
  | returnedNumber (pathId : UInt8) (bytes : Bytes) (number : UInt64)
  | sending (bytes : Bytes)
  | returned (bytes : Bytes)
  deriving DecidableEq, Repr

structure TxQueue where
  sequencer : Sequencer
  holder : Option Nat
  pipeline : Pipeline
  calls : List Call

def TxQueue.new : TxQueue where
  sequencer := .new
  holder := none
  pipeline := .new
  calls := []

/-- The sequence number, 8 bytes little-endian, then the bytes. -/
def numberedPacket (number : UInt64) (bytes : Bytes) : Bytes :=
  (Bytes.leBytes 8 number.toNat).toList ++ bytes

namespace TxQueue

def become (queue : TxQueue) (index : Nat) (call : Call) : TxQueue :=
  { queue with calls := queue.calls.set index call }

def push (queue : TxQueue) (packet : Bytes) : TxQueue :=
  { queue with pipeline := queue.pipeline.push packet }

/-- The next step of a call. -/
def run (queue : TxQueue) (index : Nat) : TxQueue :=
  match queue.calls[index]? with
  | some (.locking pathId bytes) =>
      if queue.holder = none then
        { queue.become index (.numbering pathId bytes) with
          holder := some index }
      else queue
  | some (.numbering pathId bytes) =>
      let (number, sequencer) := queue.sequencer.next pathId
      { queue.become index (.sendingNumbered pathId bytes number) with
        sequencer }
  | some (.sendingNumbered pathId bytes number) =>
      if Pipeline.HasRoom queue.pipeline.intQueue then
        (queue.become index (.unlocking pathId bytes number)).push
          (numberedPacket number bytes)
      else queue
  | some (.unlocking pathId bytes number) =>
      { queue.become index (.returnedNumber pathId bytes number) with
        holder := none }
  | some (.sending bytes) =>
      if Pipeline.HasRoom queue.pipeline.intQueue then
        (queue.become index (.returned bytes)).push bytes
      else queue
  | some (.returnedNumber _ _ _) => queue
  | some (.returned _) => queue
  | none => queue

end TxQueue

inductive Action where
  | send (bytes : Bytes)
  | sendWithPath (pathId : UInt8) (bytes : Bytes)
  | run (index : Nat)
  | relay (step : Relay)
  deriving DecidableEq, Repr

def act (queue : TxQueue) : Action → Unit × TxQueue
  | .send bytes =>
      ((), { queue with calls := queue.calls ++ [.sending bytes] })
  | .sendWithPath pathId bytes =>
      ((), { queue with calls := queue.calls ++ [.locking pathId bytes] })
  | .run index => ((), queue.run index)
  | .relay step =>
      ((), { queue with pipeline := queue.pipeline.relay step })

namespace Pipeline

theorem contents_relay (pipeline : Pipeline) (step : Relay) :
    (pipeline.relay step).contents = pipeline.contents := by
  cases step with
  | workerRecv =>
      rw [relay, workerRecv]
      split
      · next packet rest idle pending =>
          simp [contents, underway, idle, pending]
      · rfl
  | workerSend =>
      rw [relay, workerSend]
      split
      · next packet inHand =>
          split
          · simp [contents, underway, inHand]
          · rfl
      · rfl
  | forwarderRecv =>
      rw [relay, forwarderRecv]
      split
      · next packet rest idle pending =>
          simp [contents, underway, idle, pending]
      · rfl
  | forwarderSend =>
      rw [relay, forwarderSend]
      split
      · next packet inHand =>
          split
          · simp [contents, underway, inHand]
          · rfl
      · rfl
  | recv =>
      rw [relay, recv]
      split
      · next packet rest pending => simp [contents, underway, pending]
      · rfl

theorem contents_push (pipeline : Pipeline) (packet : Bytes) :
    (pipeline.push packet).contents = pipeline.contents ++ [packet] := by
  simp [push, contents, underway]

/-- The number of steps that the packets under way still have to go. -/
def distance (pipeline : Pipeline) : Nat :=
  5 * pipeline.intQueue.length + 4 * pipeline.workerHand.toList.length +
    3 * pipeline.obfQueue.length + 2 * pipeline.forwarderHand.toList.length +
      pipeline.outQueue.length

/-- Whatever is under way, someone can move: the packet that is furthest
always can. -/
theorem exists_relay {pipeline : Pipeline}
    (busy : pipeline.underway ≠ []) :
    ∃ step, (pipeline.relay step).distance < pipeline.distance := by
  obtain ⟨intQueue, workerHand, obfQueue, forwarderHand, outQueue,
    received⟩ := pipeline
  cases outQueue with
  | cons packet rest =>
      exact ⟨.recv, by simp [relay, recv, distance]⟩
  | nil =>
  cases forwarderHand with
  | some packet =>
      refine ⟨.forwarderSend, ?_⟩
      simp [relay, forwarderSend, distance, HasRoom, channelCapacity]
  | none =>
  cases obfQueue with
  | cons packet rest =>
      refine ⟨.forwarderRecv, ?_⟩
      simp [relay, forwarderRecv, distance]
      omega
  | nil =>
  cases workerHand with
  | some packet =>
      refine ⟨.workerSend, ?_⟩
      simp [relay, workerSend, distance, HasRoom, channelCapacity]
  | none =>
  cases intQueue with
  | cons packet rest =>
      refine ⟨.workerRecv, ?_⟩
      simp [relay, workerRecv, distance]
      omega
  | nil => exact absurd rfl busy

/-- The worker, the forwarding task and the receiver bring out everything
that is under way. -/
theorem exists_drained (pipeline : Pipeline) :
    ∃ steps : List Relay,
      (steps.foldl relay pipeline).received = pipeline.contents := by
  induction bound : pipeline.distance using Nat.strongRecOn
    generalizing pipeline with
  | ind distance ih =>
      by_cases busy : pipeline.underway = []
      · refine ⟨[], ?_⟩
        rw [contents, busy, List.append_nil]
        rfl
      · obtain ⟨step, closer⟩ := exists_relay busy
        obtain ⟨steps, drained⟩ := ih _ (bound ▸ closer) _ rfl
        refine ⟨step :: steps, ?_⟩
        rw [List.foldl_cons, drained, contents_relay]

end Pipeline

end NyxNet.Tx
