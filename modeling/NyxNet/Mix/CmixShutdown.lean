import NyxNet.Mix.CmixController

/-!
# Shutting down the cMix controller

The loop of `CmixController::new` after its input channel is closed.  From then
on `recv` returns `None` at once, which the loop takes for a timeout: it emits
what is left and goes on asking the closed channel.  The only way out of the
loop is a batch that nobody takes.
-/

namespace NyxNet.Mix.CmixController

variable {sha256 : Bytes → Vector UInt8 32} {controller : CmixController}

theorem proveBatch_packets {buffer : List Bytes} {acc acc' : RsaAccumulator}
    {batch : CmixBatch}
    (proved : controller.proveBatch sha256 buffer acc = some (batch, acc')) :
    batch.packets = buffer := by
  simp only [proveBatch, Option.bind_eq_bind, Option.bind_eq_some_iff]
    at proved
  obtain ⟨_, -, _, -, _, -, built⟩ := proved
  cases built
  rfl

variable (sha256 controller) in
/-- An emission sends the whole buffer, or leaves the loop and keeps it. -/
theorem emit_cases (task : CmixTask) (turn : Turn) :
    ((controller.emit sha256 task turn).1 = none ∧
        (controller.emit sha256 task turn).2.running = false ∧
        (controller.emit sha256 task turn).2.buffer.Perm task.buffer) ∨
      ∃ batch, (controller.emit sha256 task turn).1 = some batch ∧
        batch.packets.Perm task.buffer ∧
        (controller.emit sha256 task turn).2.running = task.running ∧
        (controller.emit sha256 task turn).2.buffer = [] := by
  have permuted := turn.shuffle.permutes task.buffer
  rw [emit]
  cases proved : controller.proveBatch sha256
      (turn.shuffle.order task.buffer) task.acc with
  | none => exact Or.inl ⟨rfl, rfl, permuted⟩
  | some result =>
      obtain ⟨batch, acc⟩ := result
      cases outOpen : turn.outOpen with
      | false => exact Or.inl ⟨rfl, rfl, permuted⟩
      | true =>
          refine Or.inr ⟨batch, rfl, ?_, rfl, rfl⟩
          rw [proveBatch_packets proved]
          exact permuted

theorem received_of_closed {task : CmixTask} {turn : Turn}
    (closed : turn.wakeup = .closed) :
    controller.received task turn = task := by
  rw [received, closed]
  rfl

/-- Nothing is left to emit, and the iteration changes nothing. -/
theorem iterate_of_drained {task : CmixTask} {turn : Turn}
    (closed : turn.wakeup = .closed) (running : task.running = true)
    (drained : task.buffer = []) :
    controller.iterate sha256 task turn =
      ({ received := none, emitted := none }, task) := by
  have quiet : ¬ controller.shouldEmit (controller.received task turn)
      turn.wakeup.packetOpt.isNone = true := by
    rw [received_of_closed closed]
    exact fun emits => nonempty_of_shouldEmit emits drained
  rw [iterate_of_quiet running quiet, received_of_closed closed, closed]
  rfl

theorem iterate_of_waiting {task : CmixTask} {turn : Turn}
    (closed : turn.wakeup = .closed) (running : task.running = true)
    (waiting : task.buffer ≠ []) :
    controller.iterate sha256 task turn =
      ({ received := none, emitted := (controller.emit sha256 task turn).1 },
        (controller.emit sha256 task turn).2) := by
  have emits : controller.shouldEmit (controller.received task turn)
      turn.wakeup.packetOpt.isNone = true := by
    rw [received_of_closed closed, closed, shouldEmit]
    cases buffer : task.buffer with
    | nil => exact absurd buffer waiting
    | cons packet rest => simp [Wakeup.packetOpt]
  rw [iterate_of_shouldEmit running emits, received_of_closed closed, closed]
  rfl

/-- A task that an iteration leaves as it is. -/
def Idle (task : CmixTask) : Prop :=
  task.running = false ∨ task.buffer = []

variable (sha256 controller) in
/-- A task that has left the loop, or has nothing to emit, stays as it is. -/
theorem run_of_idle {task : CmixTask} {closing : List Turn}
    (closed : ∀ turn ∈ closing, turn.wakeup = .closed)
    (idle : Idle task) :
    Trace.final (controller.iterate sha256) task closing = task ∧
      emitted (Trace.history (controller.iterate sha256) task closing) =
        [] := by
  induction closing with
  | nil => exact ⟨rfl, rfl⟩
  | cons turn closing ih =>
      have same : controller.iterate sha256 task turn =
          ({ received := none, emitted := none }, task) := by
        cases running : task.running with
        | false => exact iterate_of_stopped turn running
        | true =>
            refine iterate_of_drained (closed turn List.mem_cons_self) running
              (idle.resolve_left ?_)
            rw [running]
            exact Bool.true_eq_false.mp
      obtain ⟨final, silent⟩ := ih
        (fun later member => closed later (List.mem_cons_of_mem _ member))
      rw [Trace.final, Trace.history, same]
      exact ⟨final, silent⟩

variable (sha256 controller) in
/-- An emission leaves nothing to do: the task has left the loop, or its buffer
is empty. -/
theorem idle_emit (task : CmixTask) (turn : Turn) :
    Idle (controller.emit sha256 task turn).2 := by
  rcases emit_cases sha256 controller task turn with kept | sent
  · exact Or.inl kept.2.1
  · obtain ⟨batch, -, -, -, empty⟩ := sent
    exact Or.inr empty

theorem emitted_cons (turn : Turn) (activity : Activity)
    (past : List (Turn × Activity)) :
    emitted ((turn, activity) :: past) =
      activity.emitted.toList ++ emitted past := by
  rw [emitted, List.filterMap_cons]
  cases activity.emitted with
  | none => rfl
  | some batch => rfl

variable (sha256 controller) in
/-- With packets in the buffer the first turn emits, and the others change
nothing. -/
theorem run_of_waiting {task : CmixTask} {turn : Turn} {closing : List Turn}
    (closed : ∀ later ∈ turn :: closing, later.wakeup = .closed)
    (running : task.running = true) (waiting : task.buffer ≠ []) :
    Trace.final (controller.iterate sha256) task (turn :: closing) =
        (controller.emit sha256 task turn).2 ∧
      emitted (Trace.history (controller.iterate sha256) task
          (turn :: closing)) =
        (controller.emit sha256 task turn).1.toList := by
  obtain ⟨closedNow, closedLater⟩ := List.forall_mem_cons.mp closed
  obtain ⟨final, silent⟩ :=
    run_of_idle sha256 controller closedLater
      (idle_emit sha256 controller task turn)
  rw [Trace.final, Trace.history, emitted_cons,
    iterate_of_waiting closedNow running waiting]
  refine ⟨final, ?_⟩
  rw [silent, List.append_nil]

/-- Where batches can be proved and are taken, the closing of the channel
empties the buffer, and the loop goes on. -/
theorem drained_on_close {task : CmixTask} {turn : Turn} {closing : List Turn}
    (modulus : 2 ^ 256 < controller.params.n)
    (total : ∀ digest : Vector UInt8 32,
      (Accumulator.hashToPrime sha256 digest.toList).isSome)
    (consistent : controller.Consistent task)
    (closed : ∀ later ∈ turn :: closing, later.wakeup = .closed)
    (running : task.running = true) (waiting : task.buffer ≠ [])
    (outOpen : turn.outOpen = true) :
    (Trace.final (controller.iterate sha256) task
        (turn :: closing)).running = true ∧
      ∃ batch, emitted (Trace.history (controller.iterate sha256) task
          (turn :: closing)) = [batch] ∧
        batch.packets.Perm task.buffer := by
  have stays :=
    (running_iterate modulus total consistent running outOpen).1
  rw [iterate_of_waiting (closed turn List.mem_cons_self) running waiting]
    at stays
  obtain ⟨final, all⟩ :=
    run_of_waiting sha256 controller closed running waiting
  rw [final, all]
  refine ⟨stays, ?_⟩
  rcases emit_cases sha256 controller task turn with kept | sent
  · rw [kept.2.1] at stays
    cases stays
  · obtain ⟨batch, isSent, permuted, -, -⟩ := sent
    rw [isSent]
    exact ⟨batch, rfl, permuted⟩

/-- A task that has left the loop left it with packets in its buffer. -/
def KeepsPackets (task : CmixTask) : Prop :=
  task.running = false → task.buffer ≠ []

theorem keepsPackets_iterate (task : CmixTask) (turn : Turn)
    (keeps : KeepsPackets task) :
    KeepsPackets (controller.iterate sha256 task turn).2 := by
  cases running : task.running with
  | false =>
      rw [iterate_of_stopped turn running]
      exact keeps
  | true =>
      have stillRunning : (controller.received task turn).running = true := by
        rw [received, receive_running]
        exact running
      intro stopped
      by_cases emits : controller.shouldEmit (controller.received task turn)
          turn.wakeup.packetOpt.isNone = true
      · rw [iterate_of_shouldEmit running emits] at stopped ⊢
        rcases emit_cases sha256 controller (controller.received task turn)
          turn with kept | sent
        · intro empty
          have permuted := kept.2.2
          rw [empty] at permuted
          exact nonempty_of_shouldEmit emits permuted.nil_eq.symm
        · obtain ⟨batch, -, -, same, -⟩ := sent
          rw [same, stillRunning] at stopped
          cases stopped
      · rw [iterate_of_quiet running emits, stillRunning] at stopped
        cases stopped

variable (sha256 controller) in
/-- On the closed channel the task leaves its loop, and what was left of the
buffer has been emitted. -/
def StopsAfterEmitting (task : CmixTask) (closing : List Turn) : Prop :=
  (Trace.final (controller.iterate sha256) task closing).running = false ∧
    ((emitted (Trace.history (controller.iterate sha256) task
      closing)).flatMap CmixBatch.packets).Perm task.buffer

theorem not_stopsAfterEmitting {task : CmixTask} {closing : List Turn}
    (closed : ∀ turn ∈ closing, turn.wakeup = .closed)
    (keeps : KeepsPackets task) :
    ¬ controller.StopsAfterEmitting sha256 task closing := by
  intro stops
  obtain ⟨stopped, emittedAll⟩ := stops
  cases running : task.running with
  | false =>
      rw [(run_of_idle sha256 controller closed (Or.inl running)).2,
        List.flatMap_nil] at emittedAll
      exact keeps running emittedAll.nil_eq.symm
  | true =>
      by_cases drained : task.buffer = []
      · rw [(run_of_idle sha256 controller closed (Or.inr drained)).1,
          running] at stopped
        cases stopped
      · cases closing with
        | nil =>
            rw [Trace.final, running] at stopped
            cases stopped
        | cons turn closing =>
            obtain ⟨final, all⟩ :=
              run_of_waiting sha256 controller closed running drained
            rw [final] at stopped
            rw [all] at emittedAll
            rcases emit_cases sha256 controller task turn with kept | sent
            · rw [kept.1] at emittedAll
              exact drained emittedAll.nil_eq.symm
            · obtain ⟨batch, -, -, same, -⟩ := sent
              rw [same, running] at stopped
              cases stopped

/-- After any run, however long the channel has been closed, the task has not
left its loop with the remaining buffer emitted. -/
theorem closed_input_never_stops (sha256 : Bytes → Vector UInt8 32)
    (controller : CmixController) (turns closing : List Turn)
    (closed : ∀ turn ∈ closing, turn.wakeup = .closed) :
    ¬ controller.StopsAfterEmitting sha256
      (Trace.final (controller.iterate sha256) controller.start turns)
      closing := by
  apply not_stopsAfterEmitting closed
  apply Trace.final_invariant keepsPackets_iterate turns
  intro stopped
  cases stopped

/-- A turn of the loop after the closing of the channel. -/
def closedTurn : Turn :=
  { wakeup := .closed, now := 50, shuffle := ⟨id, List.Perm.refl⟩
    outOpen := true }

theorem closed_input_never_stops_sample :
    ¬ sampleController.StopsAfterEmitting sampleSha256
      (Trace.final (sampleController.iterate sampleSha256)
        sampleController.start sampleTurns)
      [closedTurn, closedTurn] :=
  closed_input_never_stops sampleSha256 sampleController sampleTurns
    [closedTurn, closedTurn] (by simp [closedTurn])

/-- Without a single packet, no number of turns on the closed channel ends the
loop. -/
theorem idle_controller_spins :
    ¬ ∃ rounds, (Trace.final (sampleController.iterate sampleSha256)
      sampleController.start
      (List.replicate rounds closedTurn)).running = false := by
  intro stops
  obtain ⟨rounds, stopped⟩ := stops
  have closed : ∀ turn ∈ List.replicate rounds closedTurn,
      turn.wakeup = .closed := by
    intro turn member
    rw [List.eq_of_mem_replicate member]
    rfl
  rw [(run_of_idle sampleSha256 sampleController closed (Or.inr rfl)).1]
    at stopped
  cases stopped

end NyxNet.Mix.CmixController
