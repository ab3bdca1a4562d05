import NyxNet.Lib.ByteParser
import NyxNet.Lib.TaskPool

/-!
# ACK frames and the generator that coalesces them

`nyx-stream/src/ack.rs`.  `AckGenerator::ack` spawns a task that raises a
pending value, sleeps, takes the pending value and sends it on its generator's
channel.  The pending value is a `static`: there is one cell for the tasks of
all generators.  The tasks run in any order, one atomic step at a time; the
sleep is part of the schedule.
-/

namespace NyxNet.Stream

open ByteParser TaskPool

structure AckFrame where
  largestAck : UInt32
  ackDelayMicros : UInt32
  deriving DecidableEq, Repr

def buildAckFrame (ack : AckFrame) : Bytes :=
  (Bytes.beBytes 4 ack.largestAck.toNat).toList ++
    (Bytes.beBytes 4 ack.ackDelayMicros.toNat).toList

def parseAckFrame : Parser AckFrame := fun input => do
  let (input, largest) ← beU32 input
  let (input, delay) ← beU32 input
  return (input, { largestAck := largest, ackDelayMicros := delay })

theorem parseAckFrame_build (ack : AckFrame) (rest : Bytes) :
    parseAckFrame (buildAckFrame ack ++ rest) = .ok (rest, ack) := by
  rw [buildAckFrame, List.append_assoc]
  refine bind_eq_ok_iff.mpr ⟨(_, ack.largestAck), beU32_eq_ok_iff.mpr rfl, ?_⟩
  exact bind_eq_ok_iff.mpr
    ⟨(rest, ack.ackDelayMicros), beU32_eq_ok_iff.mpr rfl, rfl⟩

/-- A generator is its channel and its delay in microseconds; a clone of it is
the same value. -/
structure AckGenerator (χ : Type) where
  tx : χ
  delay : Nat
  deriving DecidableEq, Repr

inductive AckPhase where
  | spawned
  | sleeping
  | sending (val : UInt32)
  | done
  deriving DecidableEq, Repr

structure AckTask (χ : Type) where
  generator : AckGenerator χ
  largest : UInt32
  phase : AckPhase
  deriving DecidableEq, Repr

inductive AckEvent (χ : Type) where
  | fetchMax (tx : χ) (largest : UInt32)
  | swapped (tx : χ) (val : UInt32)
  | sent (tx : χ) (bytes : Bytes)
  | refused (tx : χ)
  deriving DecidableEq, Repr

variable {χ : Type}

/-- The call that spawned the task. -/
def AckTask.call (task : AckTask χ) : AckGenerator χ × UInt32 :=
  (task.generator, task.largest)

/-- `ack` spawns its task and returns. -/
def AckGenerator.ack (generator : AckGenerator χ) (largest : UInt32) :
    AckTask χ :=
  { generator, largest, phase := .spawned }

def AckGenerator.frame (generator : AckGenerator χ) (val : UInt32) :
    AckFrame :=
  { largestAck := val, ackDelayMicros := UInt32.ofNat generator.delay }

/-- `AtomicU32::fetch_max` on the value of the cell. -/
def fetchMax (cell value : UInt32) : UInt32 :=
  if cell < value then value else cell

/-- The next atomic step of a task.  The input says whether the channel still
takes frames; the result of `send` is ignored. -/
def AckTask.turn (pending : UInt32) (task : AckTask χ) (accepted : Bool) :
    Option (Turn UInt32 (AckTask χ) (AckEvent χ)) :=
  match task.phase with
  | .spawned =>
      some
        { event := .fetchMax task.generator.tx task.largest
          shared := fetchMax pending task.largest
          task := { task with phase := .sleeping }
          spawned := [] }
  | .sleeping =>
      some
        { event := .swapped task.generator.tx pending
          shared := 0
          task :=
            { task with
              phase := if pending != 0 then .sending pending else .done }
          spawned := [] }
  | .sending val =>
      some
        { event :=
            if accepted then
              .sent task.generator.tx
                (buildAckFrame (task.generator.frame val))
            else .refused task.generator.tx
          shared := pending
          task := { task with phase := .done }
          spawned := [] }
  | .done => none

def ackProgram : Program UInt32 (AckTask χ) (AckGenerator χ × UInt32) Bool
    (AckEvent χ) where
  launch := fun call => call.1.ack call.2
  turn := AckTask.turn

abbrev AckAction (χ : Type) := Action (AckGenerator χ × UInt32) Bool

abbrev AckPast (χ : Type) := Past (AckGenerator χ × UInt32) Bool (AckEvent χ)

/-- Nothing is pending before the first call. -/
def ackStart : Pool UInt32 (AckTask χ) :=
  { shared := 0, tasks := [] }

def ackHistory (actions : List (AckAction χ)) : AckPast χ :=
  Trace.history (perform ackProgram) ackStart actions

def ackFinal (actions : List (AckAction χ)) : Pool UInt32 (AckTask χ) :=
  Trace.final (perform ackProgram) ackStart actions

/-- The three steps of a task. -/
theorem turn_cases {pending : UInt32} {task : AckTask χ} {accepted : Bool}
    {turn : Turn UInt32 (AckTask χ) (AckEvent χ)}
    (taken : task.turn pending accepted = some turn) :
    (task.phase = .spawned ∧
        turn = ⟨.fetchMax task.generator.tx task.largest,
          fetchMax pending task.largest, { task with phase := .sleeping }, []⟩) ∨
      (task.phase = .sleeping ∧
        turn = ⟨.swapped task.generator.tx pending, 0,
          { task with
            phase := if pending != 0 then .sending pending else .done },
          []⟩) ∨
      ∃ val, task.phase = .sending val ∧
        turn = ⟨if accepted then .sent task.generator.tx
              (buildAckFrame (task.generator.frame val))
            else .refused task.generator.tx,
          pending, { task with phase := .done }, []⟩ := by
  rw [AckTask.turn] at taken
  cases phase : task.phase with
  | spawned =>
      rw [phase] at taken
      exact Or.inl ⟨rfl, (Option.some.inj taken).symm⟩
  | sleeping =>
      rw [phase] at taken
      exact Or.inr (Or.inl ⟨rfl, (Option.some.inj taken).symm⟩)
  | sending val =>
      rw [phase] at taken
      exact Or.inr (Or.inr ⟨val, rfl, (Option.some.inj taken).symm⟩)
  | done =>
      rw [phase] at taken
      cases taken

theorem spawned_turn {pending : UInt32} {task : AckTask χ} {accepted : Bool}
    {turn : Turn UInt32 (AckTask χ) (AckEvent χ)}
    (taken : task.turn pending accepted = some turn) : turn.spawned = [] := by
  rcases turn_cases taken with raise | swap | send
  · rw [raise.2]
  · rw [swap.2]
  · obtain ⟨val, -, equation⟩ := send
    rw [equation]

/-- The calls of `ack` in a schedule, oldest first. -/
def ackCalls (actions : List (AckAction χ)) :
    List (AckGenerator χ × UInt32) :=
  actions.filterMap (fun action =>
    match action with
    | .call call => some call
    | .run _ _ => none)

/-- The value was passed to `ack` of a generator on this channel. -/
def PassedTo (past : AckPast χ) (tx : χ) (value : UInt32) : Prop :=
  ∃ call ∈ ackCalls (past.map Prod.fst), call.1.tx = tx ∧ call.2 = value

theorem PassedTo.append {past : AckPast χ} {tx : χ} {value : UInt32}
    (passed : PassedTo past tx value) (later : AckPast χ) :
    PassedTo (past ++ later) tx value := by
  obtain ⟨call, member, facts⟩ := passed
  refine ⟨call, ?_, facts⟩
  rw [List.map_append, ackCalls, List.filterMap_append]
  exact List.mem_append_left _ member

/-- Every frame sent on a channel carries a value that was passed before to
`ack` of a generator on this channel. -/
def AcksIsolated (past : AckPast χ) : Prop :=
  ∀ position index tx bytes, Did past position index (.sent tx bytes) →
    ∃ frame, parseAckFrame bytes = .ok ([], frame) ∧
      PassedTo (past.take position) tx frame.largestAck

theorem acksIsolated_nil : AcksIsolated ([] : AckPast χ) := by
  intro position index tx bytes did
  exact absurd did.lt (Nat.not_lt_zero position)

private theorem isolated_of_old {past : AckPast χ} (isolated : AcksIsolated past)
    {position index : Nat} {tx : χ} {bytes : Bytes}
    (did : Did past position index (.sent tx bytes))
    (later : AckPast χ) :
    ∃ frame, parseAckFrame bytes = .ok ([], frame) ∧
      PassedTo ((past ++ later).take position) tx frame.largestAck := by
  rw [List.take_append_of_le_length (Nat.le_of_lt did.lt)]
  exact isolated position index tx bytes did

theorem AcksIsolated.quiet {past : AckPast χ} (isolated : AcksIsolated past)
    (action : AckAction χ) : AcksIsolated (past ++ [(action, none)]) := by
  intro position index tx bytes did
  exact isolated_of_old isolated (did_append_none did) _

/-- Isolation is kept by a step of a task that has taken a value of its own. -/
theorem AcksIsolated.turn {past : AckPast χ} {pending : UInt32}
    {task : AckTask χ} {accepted : Bool}
    {turn : Turn UInt32 (AckTask χ) (AckEvent χ)}
    (isolated : AcksIsolated past)
    (taken : task.turn pending accepted = some turn)
    (ownValue : ∀ val, task.phase = .sending val →
      PassedTo past task.generator.tx val) (index : Nat) :
    AcksIsolated (past ++ [(.run index accepted, some turn.event)]) := by
  intro position other tx bytes did
  rcases did_append_run did with old | last
  · exact isolated_of_old isolated old _
  · obtain ⟨here, -, sentNow⟩ := last
    rw [here, List.take_left]
    rcases turn_cases taken with raise | swap | send
    · rw [raise.2] at sentNow
      cases sentNow
    · rw [swap.2] at sentNow
      cases sentNow
    · obtain ⟨val, phase, equation⟩ := send
      rw [equation] at sentNow
      cases accepted with
      | false => cases sentNow
      | true =>
          cases sentNow
          refine ⟨task.generator.frame val, ?_, ownValue val phase⟩
          have parsed := parseAckFrame_build (task.generator.frame val) []
          rwa [List.append_nil] at parsed

/-- The largest value raised since the last swap, whoever raised it. -/
def largestRaised (events : List (AckEvent χ)) : UInt32 :=
  events.foldl
    (fun largest event =>
      match event with
      | .fetchMax _ value => fetchMax largest value
      | .swapped _ _ => 0
      | .sent _ _ => largest
      | .refused _ => largest)
    0

/-- When a task swaps, the largest value raised since the last swap was passed
to `ack` on the task's own channel, or nothing was raised. -/
def SwapsOwnValue (past : AckPast χ) (pool : Pool UInt32 (AckTask χ)) :
    AckAction χ → Prop
  | .call _ => True
  | .run index _ =>
      ∀ task ∈ pool.tasks[index]?, task.phase = .sleeping →
        largestRaised (events past) = 0 ∨
          PassedTo past task.generator.tx (largestRaised (events past))

structure Attributed (past : AckPast χ) (pool : Pool UInt32 (AckTask χ)) :
    Prop where
  pending : pool.shared = largestRaised (events past)
  sending : ∀ (index : Nat) (task : AckTask χ) (val : UInt32),
    pool.tasks[index]? = some task → task.phase = .sending val →
      PassedTo past task.generator.tx val
  isolated : AcksIsolated past

theorem largestRaised_turn {past : AckPast χ} {pending : UInt32}
    {task : AckTask χ} {accepted : Bool}
    {turn : Turn UInt32 (AckTask χ) (AckEvent χ)}
    (taken : task.turn pending accepted = some turn)
    (raised : pending = largestRaised (events past)) :
    turn.shared = largestRaised (events past ++ [turn.event]) := by
  rw [largestRaised, List.foldl_concat]
  rcases turn_cases taken with raise | swap | send
  · rw [raise.2, raised]
    rfl
  · rw [swap.2]
  · obtain ⟨val, -, equation⟩ := send
    rw [equation, raised]
    cases accepted with
    | false => rfl
    | true => rfl

theorem Attributed.turn {past : AckPast χ} {pool : Pool UInt32 (AckTask χ)}
    {index : Nat} {task : AckTask χ} {accepted : Bool}
    {turn : Turn UInt32 (AckTask χ) (AckEvent χ)}
    (attributed : Attributed past pool)
    (present : pool.tasks[index]? = some task)
    (taken : task.turn pool.shared accepted = some turn)
    (swapsOwn : SwapsOwnValue past pool (.run index accepted)) :
    Attributed (past ++ [(.run index accepted, some turn.event)])
      (pool.resume index turn) := by
  constructor
  · rw [events_append_some]
    exact largestRaised_turn taken attributed.pending
  · intro other found val foundAt phase
    apply PassedTo.append
    rcases Pool.lookup_resume foundAt with self | bystander | spawned
    · obtain ⟨-, rfl⟩ := self
      rcases turn_cases taken with raise | swap | send
      · rw [raise.2] at phase
        cases phase
      · rw [swap.2] at phase ⊢
        have own := swapsOwn task present swap.1
        rw [← attributed.pending] at own
        by_cases nothing : pool.shared = 0
        · simp [nothing] at phase
        · have taken : pool.shared = val := by simpa [nothing] using phase
          rw [← taken]
          exact own.resolve_left nothing
      · obtain ⟨_, _, equation⟩ := send
        rw [equation] at phase
        cases phase
    · exact attributed.sending other found val bystander.2 phase
    · exact absurd spawned.2 (by simp [spawned_turn taken])
  · exact attributed.isolated.turn taken
      (fun val phase => attributed.sending index task val present phase) index

/-- In every run in which each swap takes a value of the swapping task's own
generator, the generators are isolated. -/
theorem acks_isolated_of_own_swaps (actions : List (AckAction χ))
    (ownSwaps : Trace.AlongPast (perform ackProgram) SwapsOwnValue []
      ackStart actions) :
    AcksIsolated (ackHistory actions) := by
  suffices attributed : Attributed (ackHistory actions) (ackFinal actions) by
    exact attributed.isolated
  refine invariant_along Attributed ?_ ?_ ?_ ?_ actions ownSwaps
  · refine ⟨rfl, ?_, acksIsolated_nil⟩
    intro index task val present
    cases present
  · intro past pool index input attributed
    refine ⟨?_, ?_, attributed.isolated.quiet _⟩
    · rw [events_append_none]
      exact attributed.pending
    · intro index task val present phase
      exact (attributed.sending index task val present phase).append _
  · intro past pool request _ attributed
    refine ⟨?_, ?_, attributed.isolated.quiet _⟩
    · rw [events_append_none]
      exact attributed.pending
    · intro index task val present phase
      rcases Pool.lookup_join present with old | fresh
      · exact (attributed.sending index task val old phase).append _
      · rw [fresh.2] at phase
        cases phase
  · intro past pool index input task turn swapsOwn present taken attributed
    exact attributed.turn present taken swapsOwn

instance [DecidableEq χ] (past : AckPast χ) (tx : χ) (value : UInt32) :
    Decidable (PassedTo past tx value) :=
  inferInstanceAs (Decidable (∃ call ∈ ackCalls (past.map Prod.fst), _))

instance [DecidableEq χ] (past : AckPast χ)
    (pool : Pool UInt32 (AckTask χ)) (action : AckAction χ) :
    Decidable (SwapsOwnValue past pool action) :=
  match action with
  | .call _ => inferInstanceAs (Decidable True)
  | .run index _ =>
      inferInstanceAs (Decidable (∀ task ∈ pool.tasks[index]?, _))

/-- Two generators whose tasks do not overlap. -/
def takingTurns : List (AckAction Nat) :=
  [.call (⟨0, 25000⟩, 7), .run 0 true, .run 0 true, .call (⟨1, 25000⟩, 3),
   .run 0 true, .run 1 true, .run 1 true, .run 1 true]

theorem acks_isolated_taking_turns : AcksIsolated (ackHistory takingTurns) :=
  acks_isolated_of_own_swaps takingTurns (by decide)

/-- The second generator's task takes the first generator's value. -/
def overlapping : List (AckAction Nat) :=
  [.call (⟨0, 25000⟩, 7), .call (⟨1, 25000⟩, 3), .run 0 true, .run 1 true,
   .run 1 true, .run 1 true]

theorem ack_sent_on_foreign_channel :
    ¬ AcksIsolated (ackHistory overlapping) := by
  intro isolated
  have did : Did (ackHistory overlapping) 5 1
      (.sent 1 (buildAckFrame ⟨7, 25000⟩)) := ⟨true, rfl⟩
  obtain ⟨frame, parsed, passed⟩ := isolated 5 1 1 _ did
  have read := parseAckFrame_build ⟨7, 25000⟩ []
  rw [List.append_nil, parsed] at read
  cases read
  exact absurd passed (by decide)

theorem le_fetchMax_left (cell value : UInt32) : cell ≤ fetchMax cell value := by
  rw [fetchMax]
  split
  · next less => exact UInt32.le_of_lt less
  · exact UInt32.le_refl cell

theorem le_fetchMax_right (cell value : UInt32) :
    value ≤ fetchMax cell value := by
  rw [fetchMax]
  split
  · exact UInt32.le_refl value
  · next notLess => exact UInt32.not_lt.mp notLess

theorem fetchMax_cases (cell value : UInt32) :
    fetchMax cell value = cell ∨ fetchMax cell value = value := by
  rw [fetchMax]
  split
  · exact Or.inr rfl
  · exact Or.inl rfl

/-- Only this generator is used, with values from 1 on, and its channel takes
every frame. -/
def UsesAlone (generator : AckGenerator χ) : AckAction χ → Prop
  | .call call => call.1 = generator ∧ 1 ≤ call.2
  | .run _ accepted => accepted = true

instance [DecidableEq χ] (generator : AckGenerator χ) (action : AckAction χ) :
    Decidable (UsesAlone generator action) :=
  match action with
  | .call _ => inferInstanceAs (Decidable (_ ∧ _))
  | .run _ _ => inferInstanceAs (Decidable (_ = _))

/-- A value raised at this position is still pending or was taken, within a
value that is at least as large, by a later swap. -/
def Caught (past : AckPast χ) (pending : UInt32) (tx : χ) (raisedAt : Nat)
    (value : UInt32) : Prop :=
  value ≤ pending ∨
    ∃ swappedAt flusher val, raisedAt < swappedAt ∧
      Did past swappedAt flusher (.swapped tx val) ∧ value ≤ val

/-- What one task of the generator has done so far. -/
structure Tracked (generator : AckGenerator χ) (past : AckPast χ)
    (pending : UInt32) (index : Nat) (task : AckTask χ) : Prop where
  owner : task.generator = generator
  positive : 1 ≤ task.largest
  passed : PassedTo past generator.tx task.largest
  sending : ∀ val, task.phase = .sending val → PassedTo past generator.tx val
  raised : task.phase ≠ .spawned →
    ∃ raisedAt, Did past raisedAt index (.fetchMax generator.tx task.largest) ∧
      Caught past pending generator.tx raisedAt task.largest
  flushed : ∀ swappedAt val,
    Did past swappedAt index (.swapped generator.tx val) → val ≠ 0 →
      task.phase = .sending val ∨
        ∃ sentAt, swappedAt < sentAt ∧
          Did past sentAt index
            (.sent generator.tx (buildAckFrame (generator.frame val)))

section Alone

variable {generator : AckGenerator χ} {past : AckPast χ} {pending : UInt32}
  {index : Nat} {task : AckTask χ}
  {step : Turn UInt32 (AckTask χ) (AckEvent χ)}

theorem Caught.append {tx : χ} {raisedAt : Nat} {value : UInt32}
    (caught : Caught past pending tx raisedAt value) (later : AckPast χ) :
    Caught (past ++ later) pending tx raisedAt value := by
  rcases caught with stillPending | taken
  · exact Or.inl stillPending
  · obtain ⟨swappedAt, flusher, val, after, did, covers⟩ := taken
    exact Or.inr ⟨swappedAt, flusher, val, after, did.append later, covers⟩

/-- No step loses a value: the swap that clears it takes it. -/
theorem Caught.turn {accepted : Bool} {raisedAt : Nat} {value : UInt32}
    (caught : Caught past pending task.generator.tx raisedAt value)
    (earlier : raisedAt < past.length)
    (taken : task.turn pending accepted = some step) (index : Nat) :
    Caught (past ++ [(.run index accepted, some step.event)]) step.shared
      task.generator.tx raisedAt value := by
  rcases caught.append [(.run index accepted, some step.event)]
    with stillPending | covered
  · rcases turn_cases taken with raise | swap | send
    · rw [raise.2]
      exact Or.inl (UInt32.le_trans stillPending (le_fetchMax_left _ _))
    · rw [swap.2]
      exact Or.inr ⟨past.length, index, pending, earlier,
        did_last past index accepted _, stillPending⟩
    · obtain ⟨val, -, equation⟩ := send
      rw [equation]
      exact Or.inl stillPending
  · exact Or.inr covered

/-- A task's record stands while others move. -/
theorem Tracked.kept {later : AckPast χ} {pending' : UInt32}
    (tracked : Tracked generator past pending index task)
    (caught : ∀ raisedAt value, raisedAt < past.length →
      Caught past pending generator.tx raisedAt value →
        Caught (past ++ later) pending' generator.tx raisedAt value)
    (unmoved : ∀ position event,
      Did (past ++ later) position index event →
        Did past position index event) :
    Tracked generator (past ++ later) pending' index task := by
  refine ⟨tracked.owner, tracked.positive, tracked.passed.append later,
    ?_, ?_, ?_⟩
  · intro val phase
    exact (tracked.sending val phase).append later
  · intro started
    obtain ⟨raisedAt, did, isCaught⟩ := tracked.raised started
    exact ⟨raisedAt, did.append later,
      caught raisedAt task.largest did.lt isCaught⟩
  · intro swappedAt val did nonzero
    rcases tracked.flushed swappedAt val (unmoved _ _ did) nonzero
      with sending | sent
    · exact Or.inl sending
    · obtain ⟨sentAt, after, didSend⟩ := sent
      exact Or.inr ⟨sentAt, after, didSend.append later⟩

theorem Tracked.quiet (tracked : Tracked generator past pending index task)
    (action : AckAction χ) :
    Tracked generator (past ++ [(action, none)]) pending index task := by
  apply tracked.kept
  · intro raisedAt value _ caught
    exact caught.append _
  · intro position event did
    exact did_append_none did

theorem tracked_ack {call : AckGenerator χ × UInt32}
    (alone : UsesAlone generator (.call call)) (unused : Unused past index) :
    Tracked generator (past ++ [(.call call, none)]) pending index
      (call.1.ack call.2) := by
  refine ⟨alone.1, alone.2, ⟨call, ?_, congrArg _ alone.1, rfl⟩, ?_, ?_, ?_⟩
  · simp [ackCalls]
  · intro val phase
    cases phase
  · intro started
    exact absurd rfl started
  · intro swappedAt val did _
    exact absurd (did_append_none did) (unused swappedAt _)

/-- Of a task that is not about to send, every value it took is sent. -/
theorem Tracked.sent (tracked : Tracked generator past pending index task)
    (notSending : ∀ val, task.phase ≠ .sending val) {swappedAt : Nat}
    {val : UInt32} (did : Did past swappedAt index (.swapped generator.tx val))
    (nonzero : val ≠ 0) :
    ∃ sentAt, swappedAt < sentAt ∧
      Did past sentAt index
        (.sent generator.tx (buildAckFrame (generator.frame val))) := by
  rcases tracked.flushed swappedAt val did nonzero with sending | sent
  · exact absurd sending (notSending val)
  · exact sent

/-- The three steps of the task itself. -/
theorem Tracked.turn (tracked : Tracked generator past pending index task)
    (sourced : pending = 0 ∨ PassedTo past generator.tx pending)
    (taken : task.turn pending true = some step) :
    Tracked generator (past ++ [(.run index true, some step.event)])
      step.shared index step.task := by
  have caughtKept : ∀ raisedAt value, raisedAt < past.length →
      Caught past pending generator.tx raisedAt value →
        Caught (past ++ [(.run index true, some step.event)]) step.shared
          generator.tx raisedAt value := by
    intro raisedAt value earlier caught
    rw [← tracked.owner] at caught ⊢
    exact caught.turn earlier taken index
  have record := tracked
  obtain ⟨rfl, positive, passed, sending, raised, flushed⟩ := record
  rcases turn_cases taken with raise | swap | send
  · obtain ⟨phase, rfl⟩ := raise
    refine ⟨rfl, positive, passed.append _, ?_, ?_, ?_⟩
    · intro val impossible
      cases impossible
    · intro _
      exact ⟨past.length, did_last past index true _,
        Or.inl (le_fetchMax_right _ _)⟩
    · intro swappedAt val did nonzero
      rcases did_append_run did with old | last
      · obtain ⟨sentAt, after, didSend⟩ :=
          tracked.sent (by simp [phase]) old nonzero
        exact Or.inr ⟨sentAt, after, didSend.append _⟩
      · cases last.2.2
  · obtain ⟨phase, rfl⟩ := swap
    refine ⟨rfl, positive, passed.append _, ?_, ?_, ?_⟩
    · intro val sendingNow
      by_cases nothing : pending = 0
      · simp [nothing] at sendingNow
      · have equal : pending = val := by simpa [nothing] using sendingNow
        rw [← equal]
        exact (sourced.resolve_left nothing).append _
    · intro _
      obtain ⟨raisedAt, did, caught⟩ := raised (by rw [phase]; decide)
      exact ⟨raisedAt, did.append _, caughtKept _ _ did.lt caught⟩
    · intro swappedAt val did nonzero
      rcases did_append_run did with old | last
      · obtain ⟨sentAt, after, didSend⟩ :=
          tracked.sent (by simp [phase]) old nonzero
        exact Or.inr ⟨sentAt, after, didSend.append _⟩
      · cases last.2.2
        left
        simp [nonzero]
  · obtain ⟨val, phase, rfl⟩ := send
    refine ⟨rfl, positive, passed.append _, ?_, ?_, ?_⟩
    · intro val impossible
      cases impossible
    · intro _
      obtain ⟨raisedAt, did, caught⟩ :=
        raised (by rw [phase]; exact AckPhase.noConfusion)
      exact ⟨raisedAt, did.append _, caughtKept _ _ did.lt caught⟩
    · intro swappedAt taken did nonzero
      rcases did_append_run did with old | last
      · right
        rcases flushed swappedAt taken old nonzero with sendingNow | sent
        · rw [phase] at sendingNow
          cases sendingNow
          exact ⟨past.length, old.lt, did_last past index true _⟩
        · obtain ⟨sentAt, after, didSend⟩ := sent
          exact ⟨sentAt, after, didSend.append _⟩
      · cases last.2.2

/-- What was sent and what is pending comes from calls of the generator. -/
structure Sourced (generator : AckGenerator χ) (past : AckPast χ)
    (pending : UInt32) : Prop where
  isolated : AcksIsolated past
  pending : pending = 0 ∨ PassedTo past generator.tx pending

theorem Sourced.quiet (sourced : Sourced generator past pending)
    (action : AckAction χ) :
    Sourced generator (past ++ [(action, none)]) pending := by
  refine ⟨sourced.isolated.quiet action, ?_⟩
  rcases sourced.pending with nothing | passed
  · exact Or.inl nothing
  · exact Or.inr (passed.append _)

theorem Sourced.turn {accepted : Bool} (sourced : Sourced generator past pending)
    (tracked : Tracked generator past pending index task)
    (taken : task.turn pending accepted = some step) :
    Sourced generator (past ++ [(.run index accepted, some step.event)])
      step.shared := by
  constructor
  · apply sourced.isolated.turn taken
    intro val phase
    rw [tracked.owner]
    exact tracked.sending val phase
  · have kept : pending = 0 ∨ PassedTo
        (past ++ [(.run index accepted, some step.event)]) generator.tx
        pending := by
      rcases sourced.pending with nothing | passed
      · exact Or.inl nothing
      · exact Or.inr (passed.append _)
    rcases turn_cases taken with raise | swap | send
    · have shared : step.shared = fetchMax pending task.largest := by
        rw [raise.2]
      rw [shared]
      rcases fetchMax_cases pending task.largest with old | new
      · rw [old]
        exact kept
      · rw [new]
        exact Or.inr (tracked.passed.append _)
    · exact Or.inl (by rw [swap.2])
    · obtain ⟨val, -, equation⟩ := send
      have shared : step.shared = pending := by rw [equation]
      rw [shared]
      exact kept

/-- The tasks are the calls, and what is pending is waited for by a task. -/
structure Attended (past : AckPast χ) (pool : Pool UInt32 (AckTask χ)) :
    Prop where
  calls : pool.tasks.map AckTask.call = ackCalls (past.map Prod.fst)
  sleeper : pool.shared ≠ 0 → ∃ (index : Nat) (task : AckTask χ),
    pool.tasks[index]? = some task ∧ task.phase = .sleeping

theorem call_turn {accepted : Bool}
    (taken : task.turn pending accepted = some step) :
    step.task.call = task.call := by
  rcases turn_cases taken with raise | swap | send
  · rw [raise.2]
    rfl
  · rw [swap.2]
    rfl
  · obtain ⟨val, -, equation⟩ := send
    rw [equation]
    rfl

theorem Attended.turn {pool : Pool UInt32 (AckTask χ)} {accepted : Bool}
    (attended : Attended past pool)
    (present : pool.tasks[index]? = some task)
    (taken : task.turn pool.shared accepted = some step) :
    Attended (past ++ [(.run index accepted, some step.event)])
      (pool.resume index step) := by
  constructor
  · have restored : pool.tasks.set index task = pool.tasks := by
      obtain ⟨bound, rfl⟩ := List.getElem?_eq_some_iff.mp present
      exact List.set_getElem_self bound
    have unchanged : (pool.tasks.set index step.task).map AckTask.call =
        pool.tasks.map AckTask.call := by
      calc
        (pool.tasks.set index step.task).map AckTask.call =
            (pool.tasks.map AckTask.call).set index step.task.call :=
          List.map_set
        _ = (pool.tasks.map AckTask.call).set index task.call := by
          rw [call_turn taken]
        _ = (pool.tasks.set index task).map AckTask.call :=
          List.map_set.symm
        _ = pool.tasks.map AckTask.call := by rw [restored]
    simp only [Pool.resume, spawned_turn taken, List.append_nil, unchanged,
      attended.calls]
    simp [ackCalls]
  · intro pendingNow
    rcases turn_cases taken with raise | swap | send
    · refine ⟨index, step.task, Pool.lookup_resume_self present, ?_⟩
      rw [raise.2]
    · rw [Pool.resume_shared, swap.2] at pendingNow
      exact absurd rfl pendingNow
    · obtain ⟨val, phase, equation⟩ := send
      rw [Pool.resume_shared, equation] at pendingNow
      obtain ⟨other, found, foundAt, sleeping⟩ := attended.sleeper pendingNow
      have different : other ≠ index := by
        intro same
        rw [same, present] at foundAt
        cases foundAt
        rw [phase] at sleeping
        cases sleeping
      exact ⟨other, found, Pool.lookup_resume_other different foundAt,
        sleeping⟩

theorem attended_run (actions : List (AckAction χ)) :
    Attended (ackHistory actions) (ackFinal actions) := by
  refine invariant_on (fun _ => True) Attended ?_ ?_ ?_ ?_ actions
    (fun _ _ => trivial)
  · exact ⟨rfl, fun pendingNow => absurd rfl pendingNow⟩
  · intro past pool index input attended
    refine ⟨?_, attended.sleeper⟩
    rw [attended.calls]
    simp [ackCalls]
  · intro past pool request _ attended
    refine ⟨?_, ?_⟩
    · simp only [Pool.join, List.map_append, attended.calls]
      simp [ackCalls, ackProgram, AckGenerator.ack, AckTask.call]
    · intro pendingNow
      obtain ⟨index, task, present, sleeping⟩ := attended.sleeper pendingNow
      exact ⟨index, task, Pool.lookup_join_of_lookup present _, sleeping⟩
  · intro past pool index input task turn _ present taken attended
    exact attended.turn present taken

theorem tracked_run (generator : AckGenerator χ)
    (actions : List (AckAction χ))
    (alone : ∀ action ∈ actions, UsesAlone generator action) :
    Sourced generator (ackHistory actions) (ackFinal actions).shared ∧
      ∀ index task, (ackFinal actions).tasks[index]? = some task →
        Tracked generator (ackHistory actions) (ackFinal actions).shared index
          task := by
  refine every_task (UsesAlone generator) (Sourced generator)
    (Tracked generator) ⟨acksIsolated_nil, Or.inl rfl⟩ rfl ?_ ?_ ?_ ?_ ?_
    actions alone
  · intro past pending action sourced
    refine ⟨sourced.quiet action, ?_⟩
    intro index task tracked
    exact tracked.quiet action
  · intro past pending call index allowed _ unused
    exact tracked_ack allowed unused
  · intro past pending index accepted task step allowed taken sourced tracked
    obtain rfl : accepted = true := allowed
    exact ⟨sourced.turn tracked taken,
      tracked.turn sourced.pending taken⟩
  · intro past pending index accepted task step fresh child _ taken _ _ member
    rw [show step.spawned = [] from spawned_turn taken] at member
    cases member
  · intro past pending index accepted task step other bystander _ taken _
      tracked different record
    apply record.kept
    · intro raisedAt value earlier caught
      rw [← tracked.owner] at caught ⊢
      exact caught.turn earlier taken index
    · intro position event did
      rcases did_append_run did with old | last
      · exact old
      · exact absurd last.2.1 different

end Alone

theorem mem_ackCalls {actions : List (AckAction χ)}
    {call : AckGenerator χ × UInt32} :
    call ∈ ackCalls actions ↔ .call call ∈ actions := by
  rw [ackCalls, List.mem_filterMap]
  constructor
  · intro found
    obtain ⟨action, member, equation⟩ := found
    cases action with
    | call request =>
        cases equation
        exact member
    | run index accepted => cases equation
  · intro member
    exact ⟨.call call, member, rfl⟩

/-- A value passed on any channel in a run of one generator was passed to
it. -/
theorem PassedTo.mem_ackCalls {generator : AckGenerator χ}
    {actions : List (AckAction χ)} {tx : χ} {value : UInt32} {position : Nat}
    (passed : PassedTo ((ackHistory actions).take position) tx value)
    (alone : ∀ action ∈ actions, UsesAlone generator action) :
    (generator, value) ∈ ackCalls actions := by
  obtain ⟨call, member, -, rfl⟩ := passed
  rw [Stream.mem_ackCalls, List.map_take, ackHistory, Trace.map_fst_history]
    at member
  have called := List.mem_of_mem_take member
  have owner : call.1 = generator := (alone _ called).1
  rw [← owner, Stream.mem_ackCalls]
  exact called

/-- Once all tasks of a generator used alone are done, every value passed to
`ack` is covered by a frame: a value at least as large was taken after the
value was raised, and sent.  Every frame carries a value that was passed, and
nothing is pending. -/
theorem no_ack_lost (generator : AckGenerator χ)
    (actions : List (AckAction χ))
    (alone : ∀ action ∈ actions, UsesAlone generator action)
    (finished : ∀ task ∈ (ackFinal actions).tasks, task.phase = .done) :
    (∀ index value, (ackCalls actions)[index]? = some (generator, value) →
      ∃ raisedAt swappedAt sentAt flusher val,
        raisedAt < swappedAt ∧ swappedAt < sentAt ∧ value ≤ val ∧
          Did (ackHistory actions) raisedAt index
            (.fetchMax generator.tx value) ∧
          Did (ackHistory actions) swappedAt flusher
            (.swapped generator.tx val) ∧
          Did (ackHistory actions) sentAt flusher
            (.sent generator.tx (buildAckFrame (generator.frame val)))) ∧
      (∀ position index tx bytes,
        Did (ackHistory actions) position index (.sent tx bytes) →
          ∃ frame, parseAckFrame bytes = .ok ([], frame) ∧
            (generator, frame.largestAck) ∈ ackCalls actions) ∧
      (ackFinal actions).shared = 0 := by
  obtain ⟨sourced, tracked⟩ := tracked_run generator actions alone
  have attended := attended_run actions
  have nothingPending : (ackFinal actions).shared = 0 := by
    by_contra pendingNow
    obtain ⟨index, task, present, sleeping⟩ := attended.sleeper pendingNow
    rw [finished task (List.mem_of_getElem? present)] at sleeping
    cases sleeping
  refine ⟨?_, ?_, nothingPending⟩
  · intro index value called
    have spawned := congrArg (fun calls => calls[index]?) attended.calls
    simp only [ackHistory, Trace.map_fst_history, called, List.getElem?_map,
      Option.map_eq_some_iff] at spawned
    obtain ⟨task, present, call⟩ := spawned
    cases call
    have record := tracked index task present
    have done := finished task (List.mem_of_getElem? present)
    obtain ⟨raisedAt, raised, caught⟩ := record.raised (by simp [done])
    rcases caught with stillPending | taken
    · -- Nothing is pending any more, so the value would be 0.
      rw [nothingPending] at stillPending
      exact absurd (UInt32.le_trans record.positive stillPending) (by decide)
    · obtain ⟨swappedAt, flusher, val, after, swapped, covers⟩ := taken
      have bound : flusher < (ackFinal actions).tasks.length :=
        indexed_run actions swappedAt flusher _ swapped
      have taker := tracked flusher _ (List.getElem?_eq_getElem bound)
      have takerDone := finished _ (List.getElem_mem bound)
      have nonzero : val ≠ 0 := by
        intro zero
        rw [zero] at covers
        exact absurd (UInt32.le_trans record.positive covers) (by decide)
      obtain ⟨sentAt, later, sent⟩ :=
        taker.sent (by simp [takerDone]) swapped nonzero
      exact ⟨raisedAt, swappedAt, sentAt, flusher, val, after, later, covers,
        raised, swapped, sent⟩
  · intro position index tx bytes sent
    obtain ⟨frame, parsed, passed⟩ :=
      sourced.isolated position index tx bytes sent
    exact ⟨frame, parsed, passed.mem_ackCalls alone⟩

/-- The second task takes the first one's value, and the first finds nothing. -/
def stolen : List (AckAction Nat) :=
  [.call (⟨0, 25000⟩, 7), .call (⟨0, 25000⟩, 3), .run 0 true, .run 1 true,
   .run 1 true, .run 0 true, .run 1 true]

theorem no_ack_lost_when_stolen :
    (∀ action ∈ stolen, UsesAlone ⟨0, 25000⟩ action) ∧
      (∀ task ∈ (ackFinal stolen).tasks, task.phase = .done) ∧
      (ackFinal stolen).shared = 0 := by
  have alone : ∀ action ∈ stolen, UsesAlone ⟨0, 25000⟩ action := by decide
  have finished : ∀ task ∈ (ackFinal stolen).tasks, task.phase = .done := by
    decide
  exact ⟨alone, finished,
    (no_ack_lost ⟨0, 25000⟩ stolen alone finished).2.2⟩

end NyxNet.Stream
