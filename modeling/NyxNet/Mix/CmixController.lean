import NyxNet.Lib.Trace
import NyxNet.Lib.Word
import NyxNet.Mix.Cmix

/-!
# cMix controller

The task that `CmixController::new` of `nyx-mix/src/cmix.rs` spawns.  One
iteration of its loop waits for a packet, for the deadline or for the closing
of the channel, and may emit the shuffled buffer as a batch.  A task whose
output channel is closed, or which panics or hangs while it proves a batch,
takes no further step.
-/

namespace NyxNet.Mix

/-- VDF iterations per millisecond. -/
def vdfItersPerMs : UInt64 := 10000

structure CmixController where
  batchSize : Nat
  delayMs : UInt64
  params : AccumulatorParams

/-- The local variables of the task; `buffer` lists the oldest packet first. -/
structure CmixTask where
  acc : RsaAccumulator
  buffer : List Bytes
  nextDeadline : Option Nat
  running : Bool

/-- What ends the wait of an iteration.  A deadline can only pass while one
is set; an iteration that finds nothing to do leaves the task as it is. -/
inductive Wakeup where
  | packet (pkt : Bytes)
  | timeout
  | closed

/-- The `packet_opt` of the loop. -/
def Wakeup.packetOpt : Wakeup → Option Bytes
  | .packet pkt => some pkt
  | .timeout => none
  | .closed => none

/-- What the random shuffle of an iteration does to a buffer. -/
structure Shuffle where
  order : List Bytes → List Bytes
  permutes : ∀ packets, (order packets).Perm packets

/-- The environment of one iteration: the wakeup, the clock, the shuffle and
whether the receiver of batches is still there. -/
structure Turn where
  wakeup : Wakeup
  now : Nat
  shuffle : Shuffle
  outOpen : Bool

/-- The packet an iteration took from the channel and the batch it sent. -/
structure Activity where
  received : Option Bytes
  emitted : Option CmixBatch

namespace CmixController

variable (sha256 : Bytes → Vector UInt8 32) (controller : CmixController)

def bsize : Nat := max controller.batchSize 1

def start : CmixTask :=
  { acc := RsaAccumulator.new controller.params
    buffer := []
    nextDeadline := none
    running := true }

/-- The first half of an iteration: the packet joins the buffer, and the first
packet of a buffer sets the deadline. -/
def receive (task : CmixTask) (packetOpt : Option Bytes) (now : Nat) :
    CmixTask :=
  match packetOpt with
  | none => task
  | some pkt =>
      let buffer := task.buffer ++ [pkt]
      { task with
        buffer
        nextDeadline :=
          if buffer.length = 1 then some (now + controller.delayMs.toNat)
          else task.nextDeadline }

def shouldEmit (task : CmixTask) (noPacket : Bool) : Bool :=
  task.buffer.length ≥ controller.bsize ||
    noPacket && !task.buffer.isEmpty

def iters : UInt64 := controller.delayMs.saturatingMul vdfItersPerMs

/-- The fields of a batch in their wire encoding. -/
def packBatch (buffer : List Bytes) (y pi accValue witness : Nat) :
    CmixBatch :=
  { packets := buffer
    digest := sha256 buffer.flatten
    vdfY := Bytes.toBytesBe y
    vdfPi := Bytes.toBytesBe pi
    vdfIters := controller.iters
    accValue := Bytes.toBytesBe accValue
    witness := Bytes.toBytesBe witness }

/-- The batch for a shuffled buffer, with the accumulator after it. -/
def proveBatch (buffer : List Bytes) (acc : RsaAccumulator) :
    Option (CmixBatch × RsaAccumulator) := do
  let digest := sha256 buffer.flatten
  let x := Bytes.ofBeBytes digest.toList
  let (y, pi) ← Vdf.proveMont x controller.params.n controller.iters
  let elem ← Accumulator.hashToPrime sha256 digest.toList
  let (witness, acc) ← acc.add elem
  return (controller.packBatch sha256 buffer y pi acc.value witness, acc)

/-- The second half of an iteration that emits. -/
def emit (task : CmixTask) (turn : Turn) : Option CmixBatch × CmixTask :=
  let buffer := turn.shuffle.order task.buffer
  match controller.proveBatch sha256 buffer task.acc with
  | none => (none, { task with buffer, running := false })
  | some (batch, acc) =>
      if turn.outOpen then
        (some batch, { task with acc, buffer := [], nextDeadline := none })
      else (none, { task with acc, buffer, running := false })

def iterate (task : CmixTask) (turn : Turn) : Activity × CmixTask :=
  if task.running then
    let packetOpt := turn.wakeup.packetOpt
    let task := controller.receive task packetOpt turn.now
    if controller.shouldEmit task packetOpt.isNone then
      let (emitted, task) := controller.emit sha256 task turn
      ({ received := packetOpt, emitted }, task)
    else ({ received := packetOpt, emitted := none }, task)
  else ({ received := none, emitted := none }, task)

section Proving

variable {sha256 controller}

theorem proveBatch_eq_some {buffer : List Bytes} {acc : RsaAccumulator}
    {elem : Nat} (modulus : 2 ^ 256 < controller.params.n)
    (params : acc.params = controller.params)
    (found : Accumulator.hashToPrime sha256
      (sha256 buffer.flatten).toList = some elem) :
    ∃ batch acc', controller.proveBatch sha256 buffer acc =
        some (batch, acc') ∧
      batch.packets = buffer ∧ acc'.params = controller.params ∧
      batch.Equations sha256 controller.params := by
  have positive : controller.params.n ≠ 0 := by omega
  have accPositive : acc.params.n ≠ 0 := by rw [params]; exact positive
  have digestBound := Bytes.ofBeBytes_lt (sha256 buffer.flatten).toList
  rw [Vector.length_toList] at digestBound
  have reduced : Bytes.ofBeBytes (sha256 buffer.flatten).toList <
      controller.params.n := Nat.lt_trans digestBound modulus
  obtain ⟨y, pi, proved, delayed⟩ :=
    Vdf.proveMont_equation positive _ controller.iters (Or.inr reduced)
  have added := RsaAccumulator.add_eq_some accPositive elem
  refine ⟨controller.packBatch sha256 buffer y pi
      (acc.value ^ elem % acc.params.n) acc.value,
    { acc with value := acc.value ^ elem % acc.params.n }, ?_, rfl, params,
    positive, rfl, ?_, elem, found, ?_⟩
  · rw [proveBatch]
    simp only [proved, found, added, Option.bind_eq_bind, Option.bind_some]
    rfl
  · rw [CmixBatch.Delayed, packBatch, Bytes.ofBeBytes_toBytesBe,
      Bytes.ofBeBytes_toBytesBe]
    exact delayed
  · rw [packBatch, Bytes.ofBeBytes_toBytesBe, Bytes.ofBeBytes_toBytesBe,
      params]

theorem proveBatch_of_hang {buffer : List Bytes} {acc : RsaAccumulator}
    (hangs : Accumulator.hashToPrime sha256
      (sha256 buffer.flatten).toList = none) :
    controller.proveBatch sha256 buffer acc = none := by
  rw [proveBatch]
  cases Vdf.proveMont (Bytes.ofBeBytes (sha256 buffer.flatten).toList)
      controller.params.n controller.iters with
  | none => rfl
  | some proof => simp only [hangs, Option.bind_eq_bind, Option.bind_some,
      Option.bind_none]

/-- A batch that was proved verifies and carries the buffer. -/
theorem proveBatch_sound {buffer : List Bytes} {acc acc' : RsaAccumulator}
    {batch : CmixBatch} (modulus : 2 ^ 256 < controller.params.n)
    (params : acc.params = controller.params)
    (proved : controller.proveBatch sha256 buffer acc = some (batch, acc')) :
    batch.packets = buffer ∧ acc'.params = controller.params ∧
      batch.Equations sha256 controller.params := by
  cases found : Accumulator.hashToPrime sha256
      (sha256 buffer.flatten).toList with
  | none =>
      rw [proveBatch_of_hang found] at proved
      cases proved
  | some elem =>
      obtain ⟨batch', acc'', computed, sound⟩ :=
        proveBatch_eq_some modulus params found
      rw [computed] at proved
      cases proved
      exact sound

end Proving

section Conservation

/-- What every reached state of the task satisfies. -/
structure Consistent (task : CmixTask) : Prop where
  params : task.acc.params = controller.params
  deadline : task.nextDeadline.isSome ↔ task.buffer ≠ []
  below : task.running = true → task.buffer.length < controller.bsize

/-- What every emitted batch satisfies. -/
structure Sound (batch : CmixBatch) : Prop where
  nonempty : batch.packets ≠ []
  within : batch.packets.length ≤ controller.bsize
  equations : batch.Equations sha256 controller.params

/-- The packets of a batch, if there is one. -/
def packetsOf (emitted : Option CmixBatch) : List Bytes :=
  emitted.toList.flatMap CmixBatch.packets

theorem receive_buffer (task : CmixTask) (packetOpt : Option Bytes)
    (now : Nat) :
    (controller.receive task packetOpt now).buffer =
      task.buffer ++ packetOpt.toList := by
  cases packetOpt with
  | none => exact (List.append_nil task.buffer).symm
  | some pkt => rfl

theorem receive_acc (task : CmixTask) (packetOpt : Option Bytes) (now : Nat) :
    (controller.receive task packetOpt now).acc = task.acc := by
  cases packetOpt with
  | none => rfl
  | some pkt => rfl

theorem receive_running (task : CmixTask) (packetOpt : Option Bytes)
    (now : Nat) :
    (controller.receive task packetOpt now).running = task.running := by
  cases packetOpt with
  | none => rfl
  | some pkt => rfl

/-- The deadline is set with the first packet and not touched by the others. -/
theorem receive_deadline {task : CmixTask} (packetOpt : Option Bytes)
    (now : Nat) (deadline : task.nextDeadline.isSome ↔ task.buffer ≠ []) :
    (controller.receive task packetOpt now).nextDeadline.isSome ↔
      (controller.receive task packetOpt now).buffer ≠ [] := by
  cases packetOpt with
  | none => exact deadline
  | some pkt =>
      have nonempty : task.buffer ++ [pkt] ≠ [] := by simp
      refine iff_of_true ?_ nonempty
      by_cases first : task.buffer = []
      · simp [receive, first]
      · have later : (task.buffer ++ [pkt]).length ≠ 1 := by
          simpa using first
        simp only [receive, if_neg later]
        exact deadline.mpr first

variable {sha256 controller}

theorem consistent_start : controller.Consistent controller.start := by
  refine ⟨rfl, by simp [start], ?_⟩
  intro _
  exact Nat.lt_of_lt_of_le Nat.one_pos (Nat.le_max_right _ _)

/-- Emission moves the whole buffer into the batch, or stops the task. -/
theorem emit_spec {task : CmixTask} (turn : Turn)
    (modulus : 2 ^ 256 < controller.params.n)
    (params : task.acc.params = controller.params)
    (deadline : task.nextDeadline.isSome ↔ task.buffer ≠ [])
    (nonempty : task.buffer ≠ [])
    (within : task.buffer.length ≤ controller.bsize) :
    controller.Consistent (controller.emit sha256 task turn).2 ∧
      (packetsOf (controller.emit sha256 task turn).1 ++
        (controller.emit sha256 task turn).2.buffer).Perm task.buffer ∧
      ∀ batch ∈ (controller.emit sha256 task turn).1,
        controller.Sound sha256 batch := by
  have permuted := turn.shuffle.permutes task.buffer
  have stillNonempty : turn.shuffle.order task.buffer ≠ [] := by
    intro empty
    rw [empty] at permuted
    exact nonempty permuted.nil_eq.symm
  have stopped : task.nextDeadline.isSome ↔
      turn.shuffle.order task.buffer ≠ [] :=
    iff_of_true (deadline.mpr nonempty) stillNonempty
  rw [emit]
  cases proved : controller.proveBatch sha256
      (turn.shuffle.order task.buffer) task.acc with
  | none =>
      refine ⟨⟨params, stopped, ?_⟩, permuted, ?_⟩
      · intro equality
        cases equality
      · intro batch equality
        cases equality
  | some result =>
      obtain ⟨batch, acc⟩ := result
      obtain ⟨packets, accParams, equations⟩ :=
        proveBatch_sound modulus params proved
      cases outOpen : turn.outOpen with
      | false =>
          simp only [Bool.false_eq_true, if_false]
          refine ⟨⟨accParams, stopped, ?_⟩, permuted, ?_⟩
          · intro equality
            cases equality
          · intro batch equality
            cases equality
      | true =>
          simp only [if_true]
          refine ⟨⟨accParams, by simp, ?_⟩, ?_, ?_⟩
          · intro _
            exact Nat.lt_of_lt_of_le Nat.one_pos (Nat.le_max_right _ _)
          · simpa [packetsOf, packets] using permuted
          · intro batch equality
            cases equality
            refine ⟨?_, ?_, equations⟩
            · rw [packets]
              exact stillNonempty
            · rw [packets, permuted.length_eq]
              exact within

/-- The task after the first half of an iteration. -/
def received (controller : CmixController) (task : CmixTask) (turn : Turn) :
    CmixTask :=
  controller.receive task turn.wakeup.packetOpt turn.now

theorem iterate_of_stopped {task : CmixTask} (turn : Turn)
    (stopped : task.running = false) :
    controller.iterate sha256 task turn =
      ({ received := none, emitted := none }, task) := by
  simp [iterate, stopped]

theorem iterate_of_quiet {task : CmixTask} {turn : Turn}
    (running : task.running = true)
    (quiet : ¬ controller.shouldEmit (controller.received task turn)
      turn.wakeup.packetOpt.isNone = true) :
    controller.iterate sha256 task turn =
      ({ received := turn.wakeup.packetOpt, emitted := none },
        controller.received task turn) := by
  rw [iterate, if_pos running]
  exact if_neg quiet

theorem iterate_of_shouldEmit {task : CmixTask} {turn : Turn}
    (running : task.running = true)
    (emits : controller.shouldEmit (controller.received task turn)
      turn.wakeup.packetOpt.isNone = true) :
    controller.iterate sha256 task turn =
      ({ received := turn.wakeup.packetOpt
         emitted :=
          (controller.emit sha256 (controller.received task turn) turn).1 },
        (controller.emit sha256 (controller.received task turn) turn).2) := by
  rw [iterate, if_pos running]
  exact if_pos emits

theorem nonempty_of_shouldEmit {task : CmixTask} {noPacket : Bool}
    (emits : controller.shouldEmit task noPacket = true) :
    task.buffer ≠ [] := by
  intro empty
  have positive : 0 < controller.bsize :=
    Nat.lt_of_lt_of_le Nat.one_pos (Nat.le_max_right _ _)
  rw [shouldEmit, empty, Bool.or_eq_true, decide_eq_true_iff] at emits
  rcases emits with full | waiting
  · exact absurd full (Nat.not_le_of_gt positive)
  · simp at waiting

variable (sha256) in
/-- One iteration keeps the state consistent and loses no packet. -/
theorem iterate_spec {task : CmixTask} (turn : Turn)
    (modulus : 2 ^ 256 < controller.params.n)
    (consistent : controller.Consistent task) :
    controller.Consistent (controller.iterate sha256 task turn).2 ∧
      (packetsOf (controller.iterate sha256 task turn).1.emitted ++
          (controller.iterate sha256 task turn).2.buffer).Perm
        (task.buffer ++
          (controller.iterate sha256 task turn).1.received.toList) ∧
      ∀ batch ∈ (controller.iterate sha256 task turn).1.emitted,
        controller.Sound sha256 batch := by
  cases running : task.running with
  | false =>
      rw [iterate_of_stopped turn running]
      refine ⟨consistent, ?_, ?_⟩
      · simp [packetsOf]
      · intro batch equality
        cases equality
  | true =>
      have buffer : (controller.received task turn).buffer =
          task.buffer ++ turn.wakeup.packetOpt.toList :=
        receive_buffer controller task turn.wakeup.packetOpt turn.now
      have params : (controller.received task turn).acc.params =
          controller.params := by
        rw [received, receive_acc]
        exact consistent.params
      have deadline := receive_deadline controller turn.wakeup.packetOpt
        turn.now consistent.deadline
      by_cases emits : controller.shouldEmit (controller.received task turn)
          turn.wakeup.packetOpt.isNone = true
      · have within : (controller.received task turn).buffer.length ≤
            controller.bsize := by
          have small := consistent.below running
          have single : turn.wakeup.packetOpt.toList.length ≤ 1 :=
            Option.length_toList_le
          rw [buffer, List.length_append]
          omega
        rw [iterate_of_shouldEmit running emits, ← buffer]
        exact emit_spec turn modulus params deadline
          (nonempty_of_shouldEmit emits) within
      · rw [iterate_of_quiet running emits]
        refine ⟨⟨params, deadline, ?_⟩, ?_, ?_⟩
        · intro _
          rw [shouldEmit, Bool.or_eq_true, decide_eq_true_iff] at emits
          exact Nat.lt_of_not_le (fun full => emits (Or.inl full))
        · rw [← buffer]
          exact List.Perm.refl _
        · intro batch equality
          cases equality

/-- The batches a run sent, oldest first. -/
def emitted (past : List (Turn × Activity)) : List CmixBatch :=
  past.filterMap (fun turn => turn.2.emitted)

/-- The packets a run took from the channel, oldest first. -/
def receivedPackets (past : List (Turn × Activity)) : List Bytes :=
  past.filterMap (fun turn => turn.2.received)

/-- What relates the past of a run to the task it left. -/
structure Conserving (sha256 : Bytes → Vector UInt8 32)
    (controller : CmixController) (past : List (Turn × Activity))
    (task : CmixTask) : Prop where
  consistent : controller.Consistent task
  conserved : ((emitted past).flatMap CmixBatch.packets ++ task.buffer).Perm
    (receivedPackets past)
  sound : ∀ batch ∈ emitted past, controller.Sound sha256 batch

theorem emitted_append (past : List (Turn × Activity)) (turn : Turn)
    (activity : Activity) :
    emitted (past ++ [(turn, activity)]) =
      emitted past ++ activity.emitted.toList := by
  rw [emitted, List.filterMap_append]
  cases present : activity.emitted with
  | none => simp [present, emitted]
  | some batch => simp [present, emitted]

theorem receivedPackets_append (past : List (Turn × Activity)) (turn : Turn)
    (activity : Activity) :
    receivedPackets (past ++ [(turn, activity)]) =
      receivedPackets past ++ activity.received.toList := by
  rw [receivedPackets, List.filterMap_append]
  cases present : activity.received with
  | none => simp [present, receivedPackets]
  | some pkt => simp [present, receivedPackets]

theorem conserving_iterate (modulus : 2 ^ 256 < controller.params.n)
    (past : List (Turn × Activity)) (task : CmixTask) (turn : Turn)
    (conserving : controller.Conserving sha256 past task) :
    controller.Conserving sha256
      (past ++ [(turn, (controller.iterate sha256 task turn).1)])
      (controller.iterate sha256 task turn).2 := by
  obtain ⟨consistent, conserved, sound⟩ := conserving
  obtain ⟨consistent', kept, sound'⟩ :=
    iterate_spec sha256 turn modulus consistent
  refine ⟨consistent', ?_, ?_⟩
  · rw [emitted_append, receivedPackets_append, List.flatMap_append,
      List.append_assoc]
    have moved := kept.append_left ((emitted past).flatMap CmixBatch.packets)
    rw [← List.append_assoc _ task.buffer] at moved
    exact moved.trans (conserved.append_right _)
  · intro batch member
    rw [emitted_append, List.mem_append] at member
    rcases member with old | new
    · exact sound batch old
    · exact sound' batch (Option.mem_toList.mp new)

variable (sha256) in
theorem conserving_run (modulus : 2 ^ 256 < controller.params.n)
    (turns : List Turn) :
    controller.Conserving sha256
      (Trace.history (controller.iterate sha256) controller.start turns)
      (Trace.final (controller.iterate sha256) controller.start turns) := by
  apply Trace.invariant
  · exact ⟨consistent_start, List.Perm.refl _, by simp [emitted]⟩
  · exact conserving_iterate modulus

/-- A task that can hash every digest to a prime and whose batches are taken
never stops. -/
theorem running_iterate (modulus : 2 ^ 256 < controller.params.n)
    (total : ∀ digest : Vector UInt8 32,
      (Accumulator.hashToPrime sha256 digest.toList).isSome)
    {task : CmixTask} {turn : Turn} (consistent : controller.Consistent task)
    (running : task.running = true) (outOpen : turn.outOpen = true) :
    (controller.iterate sha256 task turn).2.running = true ∧
      (controller.iterate sha256 task turn).1.received =
        turn.wakeup.packetOpt := by
  have running' : (controller.received task turn).running = true := by
    rw [received, receive_running]
    exact running
  have params : (controller.received task turn).acc.params =
      controller.params := by
    rw [received, receive_acc]
    exact consistent.params
  by_cases emits : controller.shouldEmit (controller.received task turn)
      turn.wakeup.packetOpt.isNone = true
  · rw [iterate_of_shouldEmit running emits]
    refine ⟨?_, rfl⟩
    obtain ⟨elem, found⟩ := Option.isSome_iff_exists.mp (total
      (sha256 (turn.shuffle.order
        (controller.received task turn).buffer).flatten))
    obtain ⟨batch, acc, proved, -⟩ := proveBatch_eq_some modulus params found
    rw [emit, proved]
    simp only [outOpen, if_true]
    exact running'
  · rw [iterate_of_quiet running emits]
    exact ⟨running', rfl⟩

/-- The task is still at work and has taken every packet it was offered. -/
structure AtWork (controller : CmixController)
    (past : List (Turn × Activity)) (task : CmixTask) : Prop where
  consistent : controller.Consistent task
  running : task.running = true
  received : receivedPackets past =
    (past.map Prod.fst).filterMap (fun turn => turn.wakeup.packetOpt)

theorem atWork_run (modulus : 2 ^ 256 < controller.params.n)
    (total : ∀ digest : Vector UInt8 32,
      (Accumulator.hashToPrime sha256 digest.toList).isSome)
    (turns : List Turn) (outOpen : ∀ turn ∈ turns, turn.outOpen = true) :
    controller.AtWork
      (Trace.history (controller.iterate sha256) controller.start turns)
      (Trace.final (controller.iterate sha256) controller.start turns) := by
  apply Trace.invariant_on (fun turn => turn.outOpen = true) _ _ turns outOpen
  · exact ⟨consistent_start, rfl, rfl⟩
  · intro past task turn isOpen atWork
    obtain ⟨running, taken⟩ := running_iterate modulus total
      atWork.consistent atWork.running isOpen
    refine ⟨(iterate_spec sha256 turn modulus atWork.consistent).1,
      running, ?_⟩
    rw [receivedPackets_append, atWork.received, taken, List.map_append,
      List.filterMap_append]
    cases present : turn.wakeup.packetOpt with
    | none => simp [present]
    | some pkt => simp [present]

end Conservation

/-- Every packet of a run is in exactly one emitted batch or still waiting,
and every emitted batch verifies. -/
theorem cmix_controller_conserves_packets
    (sha256 : Bytes → Vector UInt8 32) (controller : CmixController)
    (turns : List Turn) (modulus : 2 ^ 256 < controller.params.n)
    (total : ∀ digest : Vector UInt8 32,
      (Accumulator.hashToPrime sha256 digest.toList).isSome) :
    let past := Trace.history (controller.iterate sha256) controller.start turns
    let task := Trace.final (controller.iterate sha256) controller.start turns
    (∀ batch ∈ emitted past,
      batch.packets ≠ [] ∧
        batch.packets.length ≤ max controller.batchSize 1 ∧
        ∀ expectedIters,
          batch.verifyBatch sha256 controller.params expectedIters =
            some true) ∧
      ((emitted past).flatMap CmixBatch.packets ++ task.buffer).Perm
        (receivedPackets past) ∧
      (task.nextDeadline.isSome ↔ task.buffer ≠ []) ∧
      ((∀ turn ∈ turns, turn.outOpen = true) →
        task.running = true ∧
          receivedPackets past =
            turns.filterMap (fun turn => turn.wakeup.packetOpt)) := by
  intro past task
  obtain ⟨consistent, conserved, sound⟩ :=
    conserving_run sha256 modulus turns
  refine ⟨?_, conserved, consistent.deadline, ?_⟩
  · intro batch member
    obtain ⟨nonempty, within, equations⟩ := sound batch member
    refine ⟨nonempty, within, ?_⟩
    intro expectedIters
    exact (CmixBatch.verifyBatch_eq_true_iff expectedIters).mpr equations
  · intro outOpen
    obtain ⟨-, running, received⟩ := atWork_run modulus total turns outOpen
    rw [Trace.map_fst_history] at received
    exact ⟨running, received⟩

/-- SHA-256 at the packet `[0, 59]` and at its digest with counter 0.  The
second value already makes a prime and serves for all other inputs. -/
def sampleSha256 (data : Bytes) : Vector UInt8 32 :=
  if data = [0, 59] then
    Bytes.beBytes 32
      0x75f8e0fe5d8f56d466a452cf43a316f11b85eccca065342d65543eef6f8e49cd
  else
    Bytes.beBytes 32
      0xc700bb67865c3d8cc4806c52abd80f32307672a6c91428c9af2dda8c942d4f67

def samplePrime : Nat :=
  Bytes.ofLeBytes (sampleSha256 []).toList ||| 2 ^ 255 ||| 1

theorem primalCheck_samplePrime :
    Accumulator.primalCheck samplePrime = some true := by
  decide +kernel

theorem hashToPrime_sampleSha256 (digest : Vector UInt8 32) :
    Accumulator.hashToPrime sampleSha256 digest.toList = some samplePrime := by
  have longer : digest.toList ++ (Bytes.leBytes 4 0).toList ≠ [0, 59] := by
    intro equal
    have lengths := congrArg List.length equal
    simp at lengths
  have first : Accumulator.candidate sampleSha256 digest.toList 0 =
      samplePrime := by
    rw [Accumulator.candidate, sampleSha256, if_neg longer]
    rfl
  rw [Accumulator.hashToPrime, show 2 ^ 32 = 4294967295 + 1 from rfl,
    Accumulator.hashToPrimeFrom, first, primalCheck_samplePrime]
  rfl

def sampleController : CmixController :=
  { batchSize := 2, delayMs := 50, params := { n := 2 ^ 256 + 297, g := 2 } }

/-- A packet that waits for company until the deadline passes. -/
def sampleTurns : List Turn :=
  [{ wakeup := .packet [0, 59], now := 0
     shuffle := ⟨id, List.Perm.refl⟩, outOpen := true },
   { wakeup := .timeout, now := 50
     shuffle := ⟨id, List.Perm.refl⟩, outOpen := true }]

theorem cmix_controller_conserves_sample_packets :
    let past := Trace.history (sampleController.iterate sampleSha256)
      sampleController.start sampleTurns
    let task := Trace.final (sampleController.iterate sampleSha256)
      sampleController.start sampleTurns
    ((emitted past).flatMap CmixBatch.packets ++ task.buffer).Perm
        (receivedPackets past) ∧
      task.running = true ∧ receivedPackets past = [[0, 59]] := by
  have total : ∀ digest : Vector UInt8 32,
      (Accumulator.hashToPrime sampleSha256 digest.toList).isSome := by
    intro digest
    rw [hashToPrime_sampleSha256]
    rfl
  obtain ⟨-, conserved, -, atWork⟩ := cmix_controller_conserves_packets
    sampleSha256 sampleController sampleTurns (by decide) total
  obtain ⟨running, received⟩ := atWork (by decide)
  exact ⟨conserved, running, received⟩

end CmixController

end NyxNet.Mix
