import NyxNet.Daemon.StreamManager
import Mathlib.Algebra.BigOperators.Intervals

/-!
# The gauge of active streams

`open_stream` and `close_stream` of `nyx-daemon/src/stream_manager.rs` change the
gauge after they have changed the map, and the monitoring loop writes over it what
it has added up from the shards of the map.  What a call under way still owes to the
gauge is lost or counted twice then.
-/

namespace NyxNet.Streams

open KeyedTable TaskPool

variable {config : StreamManagerConfig} {shards : Shards}

/-- A stream is inserted and not counted yet. -/
def Task.owesCount : Task → Nat
  | .counting _ _ => 1
  | _ => 0

/-- A stream is removed and still counted. -/
def Task.owesDiscount : Task → Nat
  | .uncounting => 1
  | .uncountingExpired _ _ => 1
  | _ => 0

def owedCounts (pool : Pool StreamManager Task) : Nat :=
  (pool.tasks.map Task.owesCount).sum

def owedDiscounts (pool : Pool StreamManager Task) : Nat :=
  (pool.tasks.map Task.owesDiscount).sum

namespace Event

/-- A session takes the place of another one with its number. -/
def isReplacement : Event → Bool
  | .inserted _ replaced => replaced
  | _ => false

/-- The monitoring loop writes the gauge. -/
def isStore : Event → Bool
  | .stored _ => true
  | _ => false

end Event

/-- What the gauge is going to be too high when all calls have ended, up to
multiples of 2^32. -/
def drift (pool : Pool StreamManager Task) : Int :=
  pool.shared.activeStreams.toNat + owedCounts pool - owedDiscounts pool -
    size pool.shared.streams

theorem toNat_incrementActiveStreams (manager : StreamManager) :
    manager.incrementActiveStreams.activeStreams.toNat =
      (manager.activeStreams.toNat + 1) % 4294967296 :=
  UInt32.toNat_add manager.activeStreams 1

theorem toNat_decrementActiveStreams (manager : StreamManager) :
    manager.decrementActiveStreams.activeStreams.toNat =
      (4294967295 + manager.activeStreams.toNat) % 4294967296 :=
  UInt32.toNat_sub manager.activeStreams 1

/-- What one step changes in the books. -/
theorem drift_of_moves {before after : StreamManager} {input : Input}
    {task rest : Task} {event : Event}
    (moves : Moves config shards before input task event after rest)
    (keeps : event.isStore = false) :
    (after.activeStreams.toNat + rest.owesCount + task.owesDiscount +
        size before.streams : Int) % 4294967296 =
      (before.activeStreams.toNat + task.owesCount + rest.owesDiscount +
        size after.streams + event.isReplacement.toNat) % 4294967296 := by
  cases moves with
  | inserted targetAddress session =>
      have grown := size_insert before.streams session.streamId session
      simp only [StreamManager.withStreams, Event.isReplacement,
        Task.owesCount, Task.owesDiscount]
      by_cases taken : session.streamId ∈ before.streams
      · rw [if_pos taken] at grown
        rw [decide_eq_true taken, Bool.toNat_true]
        omega
      · rw [if_neg taken] at grown
        rw [decide_eq_false taken, Bool.toNat_false]
        omega
  | removed streamId session found | expired _ _ streamId _ session found =>
      have shrunk := size_erase before.streams streamId
      rw [if_pos (mem_of_lookup found)] at shrunk
      simp only [StreamManager.withStreams, Event.isReplacement,
        Task.owesCount, Task.owesDiscount, Bool.toNat_false]
      omega
  | missed streamId absent | vanished _ _ streamId _ absent =>
      have same := size_erase before.streams streamId
      rw [if_neg (AList.lookup_eq_none.mp absent)] at same
      simp only [StreamManager.withStreams, Event.isReplacement,
        Task.owesCount, Task.owesDiscount, Bool.toNat_false]
      omega
  | counted targetAddress streamId =>
      rw [toNat_incrementActiveStreams]
      simp only [StreamManager.incrementActiveStreams, Event.isReplacement,
        Task.owesCount, Task.owesDiscount, Bool.toNat_false]
      omega
  | uncounted | uncountedExpired =>
      rw [toNat_decrementActiveStreams]
      simp only [StreamManager.decrementActiveStreams, Event.isReplacement,
        Task.owesCount, Task.owesDiscount, Bool.toNat_false]
      omega
  | stored => cases keeps
  | _ =>
      simp [StreamManager.drawNumber, Event.isReplacement, Task.owesCount,
        Task.owesDiscount]

theorem drift_perform (config : StreamManagerConfig) (shards : Shards)
    (pool : Pool StreamManager Task) (action : Action Request Input)
    (keeps : ∀ event ∈ (perform (program config shards) pool action).1,
      event.isStore = false) :
    drift (perform (program config shards) pool action).2 % 4294967296 =
      (drift pool + ((perform (program config shards) pool action).1.elim 0
        fun event => event.isReplacement.toNat : Nat)) % 4294967296 := by
  have moved := perform_moved (program config shards) pool action
  generalize perform (program config shards) pool action = outcome at moved keeps ⊢
  cases moved with
  | called request =>
      have owesNothing : (launch request).owesCount = 0 ∧
          (launch request).owesDiscount = 0 := by
        cases request <;> exact ⟨rfl, rfl⟩
      have same : drift (pool.join (launch request)) = drift pool := by
        simp [drift, owedCounts, owedDiscounts, Pool.join, owesNothing]
      simp only [program, same, Option.elim_none]
      omega
  | waited index input blocked => simp
  | turned index input task turned present taken =>
      obtain ⟨moves, alone⟩ := turn_moves taken
      have step := drift_of_moves moves (keeps turned.event rfl)
      have counts := sum_map_resume Task.owesCount present turned
      have discounts := sum_map_resume Task.owesDiscount present turned
      simp only [alone, List.map_nil, List.sum_nil, Nat.add_zero]
        at counts discounts
      simp only [drift, owedCounts, owedDiscounts, Pool.resume_shared,
        Option.elim_some]
      omega

/-- Over a run in which the monitoring loop does not write the gauge. -/
theorem drift_run (late : List (Action Request Input))
    {pool : Pool StreamManager Task}
    (keeps : ∀ event ∈ events (Trace.history (perform (program config shards))
      pool late), event.isStore = false) :
    drift (Trace.final (perform (program config shards)) pool late) %
        4294967296 =
      (drift pool + (events (Trace.history (perform (program config shards))
        pool late)).countP Event.isReplacement) % 4294967296 := by
  induction late generalizing pool with
  | nil => simp [Trace.final, Trace.history]
  | cons action late ih =>
      have step := drift_perform config shards pool action
      rw [Trace.history, events, List.filterMap_cons] at keeps ⊢
      rw [Trace.final]
      cases answer : (perform (program config shards) pool action).1 with
      | none =>
          rw [answer] at step keeps
          have first := step (fun event isNone => by cases isNone)
          have rest := ih keeps
          simp only [Option.elim_none] at first
          rw [rest, ← events, ← Int.emod_add_emod, first, Int.emod_add_emod]
          simp
      | some event =>
          rw [answer] at step keeps
          have first := step (fun other isSome => by
            cases isSome
            exact keeps event List.mem_cons_self)
          have rest := ih (fun other member =>
            keeps other (List.mem_cons_of_mem event member))
          simp only [Option.elim_some] at first
          rw [rest, List.countP_cons, ← events, ← Int.emod_add_emod, first,
            Int.emod_add_emod]
          cases event.isReplacement with
          | false => simp
          | true =>
              simp only [Bool.toNat_true, if_true]
              omega

/-- The sum of the sizes that the shards before that one had at moments of the run,
each of them a turn of the call and later than the one before it. -/
def Measures (config : StreamManagerConfig) (shards : Shards)
    (actions : List (Action Request Input)) (index shard sum : Nat) : Prop :=
  ∃ moments : Nat → List (Action Request Input),
    (∀ earlier < shard, ∃ input,
      moments earlier ++ [.run index input] <+: actions) ∧
    (∀ earlier later, earlier < later → later < shard →
      (moments earlier).length < (moments later).length) ∧
    sum = ∑ earlier ∈ Finset.range shard, shards.sizeIn
      (finalPool config shards (moments earlier)).shared.streams earlier

theorem measures_zero (config : StreamManagerConfig) (shards : Shards)
    (actions : List (Action Request Input)) (index : Nat) :
    Measures config shards actions index 0 0 := by
  refine ⟨fun _ => [], ?_, ?_, rfl⟩
  · intro earlier before
    exact absurd before (Nat.not_lt_zero earlier)
  · intro earlier later _ before
    exact absurd before (Nat.not_lt_zero later)

variable {actions : List (Action Request Input)} {index shard sum : Nat}

theorem Measures.append (measures : Measures config shards actions index shard sum)
    (action : Action Request Input) :
    Measures config shards (actions ++ [action]) index shard sum := by
  obtain ⟨moments, turns, ordered, adds⟩ := measures
  refine ⟨moments, ?_, ordered, adds⟩
  intro earlier before
  obtain ⟨input, isPrefix⟩ := turns earlier before
  exact ⟨input, isPrefix.trans (List.prefix_append _ _)⟩

/-- The next shard is read at this moment. -/
theorem Measures.step (measures : Measures config shards actions index shard sum)
    (input : Input) :
    Measures config shards (actions ++ [.run index input]) index (shard + 1)
      (sum + shards.sizeIn (finalPool config shards actions).shared.streams
        shard) := by
  obtain ⟨moments, turns, ordered, adds⟩ := measures
  have before : ∀ earlier < shard,
      Function.update moments shard actions earlier = moments earlier :=
    fun earlier less => Function.update_of_ne (Nat.ne_of_lt less) _ _
  have now : Function.update moments shard actions shard = actions :=
    Function.update_self _ _ _
  refine ⟨Function.update moments shard actions, ?_, ?_, ?_⟩
  · intro earlier less
    rcases Nat.lt_succ_iff_lt_or_eq.mp less with old | same
    · obtain ⟨turn, isPrefix⟩ := turns earlier old
      rw [before earlier old]
      exact ⟨turn, isPrefix.trans (List.prefix_append _ _)⟩
    · rw [same, now]
      exact ⟨input, List.prefix_refl _⟩
  · intro earlier later less within
    rcases Nat.lt_succ_iff_lt_or_eq.mp within with old | same
    · rw [before earlier (less.trans old), before later old]
      exact ordered earlier later less old
    · rw [same] at less ⊢
      obtain ⟨turn, isPrefix⟩ := turns earlier less
      rw [before earlier less, now]
      have shorter := isPrefix.length_le
      rw [List.length_append] at shorter
      exact shorter
  · rw [Finset.sum_range_succ, now, adds]
    refine congrArg (· + _) (Finset.sum_congr rfl fun earlier member => ?_)
    rw [before earlier (Finset.mem_range.mp member)]

/-- What a turn of the loop has added up, and what it is going to write. -/
def TaskMeasures (config : StreamManagerConfig) (shards : Shards)
    (actions : List (Action Request Input)) (index : Nat) : Task → Prop
  | .measuring shard sum =>
      shard ≤ shards.count ∧ Measures config shards actions index shard sum
  | .storing count =>
      ∃ sum, Measures config shards actions index shards.count sum ∧
        count = asU32 sum
  | _ => True

theorem TaskMeasures.append {task : Task}
    (measures : TaskMeasures config shards actions index task)
    (action : Action Request Input) :
    TaskMeasures config shards (actions ++ [action]) index task := by
  cases task with
  | measuring shard sum => exact ⟨measures.1, measures.2.append action⟩
  | storing count =>
      obtain ⟨sum, measured, same⟩ := measures
      exact ⟨sum, measured.append action, same⟩
  | _ => trivial

theorem taskMeasures_of_moves {after : StreamManager} {input : Input}
    {task rest : Task} {event : Event}
    (measures : TaskMeasures config shards actions index task)
    (moves : Moves config shards (finalPool config shards actions).shared input
      task event after rest) :
    TaskMeasures config shards (actions ++ [.run index input]) index rest := by
  cases moves with
  | measuredShard shard sum among =>
      exact ⟨among, measures.2.step input⟩
  | measured shard sum all =>
      obtain ⟨within, measured⟩ := measures
      rw [Nat.le_antisymm within all] at measured
      exact ⟨sum, measured.append _, rfl⟩
  | _ => trivial

theorem taskMeasures_run (config : StreamManagerConfig) (shards : Shards)
    (actions : List (Action Request Input)) {index : Nat} {task : Task}
    (present : (finalPool config shards actions).tasks[index]? = some task) :
    TaskMeasures config shards actions index task := by
  induction actions using List.reverseRecOn generalizing index task with
  | nil => cases present
  | append_singleton actions action ih =>
      rw [finalPool, Trace.final_append, ← finalPool] at present
      have moved := perform_moved (program config shards)
        (finalPool config shards actions) action
      simp only [Trace.final] at present
      generalize perform (program config shards)
        (finalPool config shards actions) action = outcome at moved present
      cases moved with
      | called request =>
          rcases Pool.lookup_join present with old | ⟨_, launched⟩
          · exact (ih old).append _
          · rw [launched]
            cases request with
            | monitoringLoop =>
                exact ⟨Nat.zero_le _, measures_zero config shards _ index⟩
            | _ => trivial
      | waited other input blocked => exact (ih present).append _
      | turned other input task turned here taken =>
          obtain ⟨moves, alone⟩ := turn_moves taken
          rcases Pool.lookup_resume present with
            ⟨same, isRest⟩ | ⟨_, old⟩ | ⟨_, spawned⟩
          · rw [same, isRest]
            exact taskMeasures_of_moves (ih here) moves
          · exact (ih old).append _
          · rw [alone] at spawned
            cases spawned

def Task.isReturned : Task → Bool
  | .returned _ => true
  | _ => false

/-- No call is under way. -/
def Quiescent (pool : Pool StreamManager Task) : Prop :=
  ∀ task ∈ pool.tasks, task.isReturned = true

instance Quiescent.decidable (pool : Pool StreamManager Task) :
    Decidable (Quiescent pool) :=
  inferInstanceAs (Decidable (∀ task ∈ pool.tasks, task.isReturned = true))

theorem sum_owed_eq_zero {pool : Pool StreamManager Task}
    (quiescent : Quiescent pool) {weight : Task → Nat}
    (paid : ∀ outcome, weight (.returned outcome) = 0) :
    (pool.tasks.map weight).sum = 0 := by
  refine List.sum_eq_zero ?_
  intro amount member
  obtain ⟨task, isTask, rfl⟩ := List.mem_map.mp member
  have returned := quiescent task isTask
  cases task with
  | returned outcome => exact paid outcome
  | _ => cases returned

theorem gauge_iff_of_quiescent {pool : Pool StreamManager Task}
    (quiescent : Quiescent pool) :
    pool.shared.activeStreams = UInt32.ofNat (size pool.shared.streams) ↔
      drift pool % 4294967296 = 0 := by
  have counts : owedCounts pool = 0 :=
    sum_owed_eq_zero quiescent (fun _ => rfl)
  have discounts : owedDiscounts pool = 0 :=
    sum_owed_eq_zero quiescent (fun _ => rfl)
  have small := pool.shared.activeStreams.toNat_lt
  rw [← UInt32.toNat_inj, UInt32.toNat_ofNat', drift, counts, discounts]
  omega

theorem drift_store {pool : Pool StreamManager Task} {index : Nat}
    {input : Input} {count : UInt32}
    (stores : (perform (program config shards) pool (.run index input)).1 =
      some (.stored count)) :
    pool.tasks[index]? = some (.storing count) ∧
      drift (perform (program config shards) pool (.run index input)).2 =
        count.toNat + owedCounts pool - owedDiscounts pool -
          size pool.shared.streams := by
  obtain ⟨task, turned, present, same, alone, moves⟩ :=
    moves_of_performed stores
  have counts := sum_map_resume Task.owesCount present turned
  have discounts := sum_map_resume Task.owesDiscount present turned
  rw [same]
  obtain ⟨event, shared, rest, spawned⟩ := turned
  dsimp only at moves alone
  cases moves with
  | stored =>
      subst alone
      simp only [List.map_nil, List.sum_nil, Nat.add_zero, Task.owesCount,
        Task.owesDiscount] at counts discounts
      refine ⟨present, ?_⟩
      simp only [drift, owedCounts, owedDiscounts, counts, discounts]
      rfl

/-- In a state without calls under way the gauge is right exactly when, up to
multiples of 2^32, the number that was written last makes up for what was owed at
that moment and for the streams that were replaced since.  The number is what the
shards had at moments before, one after the other. -/
theorem gauge_exact_iff (config : StreamManagerConfig) (shards : Shards)
    (early late : List (Action Request Input)) (index : Nat) (input : Input)
    (count : UInt32)
    (stores : (perform (program config shards) (finalPool config shards early)
      (.run index input)).1 = some (.stored count))
    (last : ∀ event ∈ events (Trace.history (perform (program config shards))
      (finalPool config shards (early ++ [.run index input])) late),
        event.isStore = false)
    (quiescent : Quiescent
      (finalPool config shards (early ++ [.run index input] ++ late))) :
    (∃ sum, Measures config shards early index shards.count sum ∧
      count = asU32 sum) ∧
    ((finalPool config shards
        (early ++ [.run index input] ++ late)).shared.activeStreams =
        UInt32.ofNat (size (finalPool config shards
          (early ++ [.run index input] ++ late)).shared.streams) ↔
      (count.toNat + owedCounts (finalPool config shards early) +
          (events (Trace.history (perform (program config shards))
            (finalPool config shards (early ++ [.run index input]))
            late)).countP Event.isReplacement) % 4294967296 =
        (size (finalPool config shards early).shared.streams +
          owedDiscounts (finalPool config shards early)) % 4294967296) := by
  obtain ⟨storing, afterStore⟩ := drift_store stores
  refine ⟨taskMeasures_run config shards early storing, ?_⟩
  rw [gauge_iff_of_quiescent quiescent]
  have sinceStore := drift_run late last
  have stored : finalPool config shards (early ++ [.run index input]) =
      (perform (program config shards) (finalPool config shards early)
        (.run index input)).2 := Trace.final_append _ _ _ _
  rw [finalPool, Trace.final_append, ← finalPool, sinceStore, stored, afterStore]
  omega

def sampleInput : Input where
  now := .unixEpoch
  sessionId := Vector.replicate 12 0
  pathId := 0
  choice := 0

def runs (index : Nat) : Action Request Input := .run index sampleInput

/-- The only stream is opened, and removed by a call that has not discounted it when
the monitoring loop measures. -/
def closedBeforeStore : List (Action Request Input) :=
  [.call (.openStream ⟨"10.0.0.1:443", none⟩), runs 0, runs 0, runs 0, runs 0,
    runs 0, .call .monitoringLoop, .call (.closeStream 1), runs 2, runs 1,
    runs 1]

/-- The gauge stays at 4294967295. -/
theorem gauge_below_zero :
    (finalPool .default .single
        (closedBeforeStore ++ [runs 1] ++ [runs 2])).shared.activeStreams ≠
      UInt32.ofNat (size (finalPool .default .single
        (closedBeforeStore ++ [runs 1] ++ [runs 2])).shared.streams) := by
  intro right
  have exact := (gauge_exact_iff .default .single closedBeforeStore
    [runs 2] 1 sampleInput 0 (by decide +kernel) (by decide +kernel)
    (by decide +kernel)).2.mp right
  exact absurd exact (by decide +kernel)

end NyxNet.Streams
