import NyxNet.Lib.Bytes
import NyxNet.Stream.ReorderCapacity

/-!
# Multipath receiver

`MultipathReceiver` of `nyx-stream/src/receiver.rs`: one reordering buffer per
path, created by the first packet seen on that path and starting at its
number.  The receiver is a keyed machine whose component is a buffer, so each
path behaves as a standalone buffer fed with that path's packets.
-/

namespace NyxNet.Stream

structure MultipathReceiver where
  buffers : Std.ExtTreeMap UInt8 (ReorderBuffer Bytes) compare

namespace MultipathReceiver

def new : MultipathReceiver :=
  { buffers := ∅ }

def push (receiver : MultipathReceiver) (pathId : UInt8) (seq : UInt64)
    (payload : Bytes) : List Bytes × MultipathReceiver :=
  let buf := receiver.buffers[pathId]?.getD (ReorderBuffer.new seq)
  let (ready, buf) := buf.push seq payload
  (ready, { buffers := receiver.buffers.insert pathId buf })

/-- One call of `push`, with its arguments as the input. -/
def arrive (receiver : MultipathReceiver) (call : UInt8 × UInt64 × Bytes) :
    List Bytes × MultipathReceiver :=
  receiver.push call.1 call.2.1 call.2.2

theorem arrive_keyed :
    Trace.Keyed ReorderBuffer.receive
      (fun packet : UInt64 × Bytes => ReorderBuffer.new packet.1)
      (fun receiver pathId => receiver.buffers[pathId]?) arrive :=
  Trace.keyed_of_table (fun _ _ _ => rfl) (fun _ _ _ => rfl)

/-- A buffer created with the number of the first packet and fed all of them,
with what it returns for each. -/
def standalone (packets : List (UInt64 × Bytes)) :
    List ((UInt64 × Bytes) × List Bytes) :=
  match packets with
  | [] => []
  | first :: rest =>
      Trace.history ReorderBuffer.receive (ReorderBuffer.new first.1)
        (first :: rest)

/-- The calls for one path with what they returned. -/
def pathHistory (pathId : UInt8) (calls : List (UInt8 × UInt64 × Bytes)) :
    List ((UInt64 × Bytes) × List Bytes) :=
  Trace.historyOf pathId (Trace.history arrive new calls)

theorem pathHistory_eq_standalone (pathId : UInt8)
    (calls : List (UInt8 × UInt64 × Bytes)) :
    pathHistory pathId calls = standalone (Trace.inputsOf pathId calls) := by
  unfold pathHistory
  rw [arrive_keyed.historyOf_of_absent pathId calls new (by simp [new])]
  cases Trace.inputsOf pathId calls with
  | nil => rfl
  | cons first rest => rfl

theorem path_isolation (pathId : UInt8)
    (calls : List (UInt8 × UInt64 × Bytes)) :
    pathHistory pathId calls = standalone (Trace.inputsOf pathId calls) ∧
      ∀ others : List (UInt8 × UInt64 × Bytes),
        Trace.inputsOf pathId others = Trace.inputsOf pathId calls →
          pathHistory pathId others = pathHistory pathId calls := by
  refine ⟨pathHistory_eq_standalone pathId calls, ?_⟩
  intro others sameInputs
  rw [pathHistory_eq_standalone, pathHistory_eq_standalone, sameInputs]

theorem path_isolation_sample :
    pathHistory 1 [(1, 1, [1]), (2, 5, [5]), (1, 0, [0]), (2, 6, [6])] =
        pathHistory 1 [(1, 1, [1]), (1, 0, [0])] :=
  (path_isolation 1 [(1, 1, [1]), (1, 0, [0])]).2 _ rfl

example : (pathHistory 1
    [(1, 1, [1]), (2, 5, [5]), (1, 0, [0]), (2, 6, [6])]).map Prod.snd =
      [[[1]], []] := by decide

end MultipathReceiver

end NyxNet.Stream
