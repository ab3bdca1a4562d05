import NyxNet.Lib.DistinctDraws
import NyxNet.Stream.SchedulerChurn

/-!
# Multipath redundant dispatch

`nyx-stream/src/mpr.rs`.  Every packet is to go out on `k` distinct paths; the
dispatcher draws `k` times from the weighted scheduler and drops repetitions.
The hash map of the scheduler keeps its order during one call of
`choose_paths`, which brings that order.
-/

namespace NyxNet.Stream

/-- Dispatcher that picks `k` distinct paths for redundant transmission. -/
structure MprDispatcher where
  scheduler : WeightedRrScheduler
  k : Nat
  maxK : Nat
  /-- The success history, oldest first. -/
  window : List Bool
  windowCap : Nat

namespace MprDispatcher

open WeightedRrScheduler (PathWeight)

/-- Create with an existing scheduler and redundancy degree `k` (>=1). -/
def new (scheduler : WeightedRrScheduler) (initialK : Nat) : MprDispatcher :=
  { scheduler
    k := max initialK 1
    maxK := 4
    window := []
    windowCap := 100 }

/-- Update RTT for a path; simply forwarded to internal scheduler. -/
def updateRtt (dispatcher : MprDispatcher) (pathId : UInt8)
    (newWeight : PathWeight) : MprDispatcher :=
  { dispatcher with
    scheduler := dispatcher.scheduler.updatePath pathId newWeight.value }

/-- Remove a failed path. -/
def removePath (dispatcher : MprDispatcher) (pathId : UInt8) :
    MprDispatcher :=
  { dispatcher with scheduler := dispatcher.scheduler.removePath pathId }

/-- Record whether the last packet replica set was delivered.  The ratio of
two counts of at most 100 is on the same side of 0.2 and 0.05 as its rounding
to `f64`, so the comparisons are those of the counts. -/
def recordFeedback (dispatcher : MprDispatcher) (success : Bool) :
    MprDispatcher :=
  let kept :=
    if dispatcher.window.length = dispatcher.windowCap then
      dispatcher.window.drop 1
    else dispatcher.window
  let window := kept ++ [success]
  let losses := window.countP (fun delivered => !delivered)
  let dispatcher := { dispatcher with window }
  if window.length < 5 * losses ∧ dispatcher.k < dispatcher.maxK then
    { dispatcher with k := dispatcher.k + 1 }
  else if 20 * losses < window.length ∧ dispatcher.k > 1 then
    { dispatcher with k := dispatcher.k - 1 }
  else dispatcher

/-- The loop of `choose_paths`, for the number of rounds left. -/
def drawPaths (order : IterationOrder) :
    Nat → WeightedRrScheduler → List UInt8 → List UInt8 × WeightedRrScheduler
  | 0, scheduler, paths => (paths, scheduler)
  | rounds + 1, scheduler, paths =>
      match scheduler.next order with
      | (none, scheduler) => drawPaths order rounds scheduler paths
      | (some pid, scheduler) =>
          -- ensure uniqueness within this batch
          drawPaths order rounds scheduler
            (if paths.contains pid then paths else paths ++ [pid])

/-- Choose up to `k` distinct path IDs for the next packet.  That `k` bytes can
be allocated for them (`Vec::with_capacity`) is taken for granted. -/
def choosePaths (dispatcher : MprDispatcher) (order : IterationOrder) :
    List UInt8 × MprDispatcher :=
  let (paths, scheduler) :=
    drawPaths order dispatcher.k dispatcher.scheduler []
  (paths, { dispatcher with scheduler })

inductive Call where
  | updateRtt (pathId : UInt8) (newWeight : PathWeight)
  | removePath (pathId : UInt8)
  | recordFeedback (success : Bool)
  | choosePaths (order : IterationOrder)

/-- One call; only `choose_paths` answers with paths. -/
def perform (dispatcher : MprDispatcher) : Call → List UInt8 × MprDispatcher
  | .updateRtt pathId newWeight => ([], dispatcher.updateRtt pathId newWeight)
  | .removePath pathId => ([], dispatcher.removePath pathId)
  | .recordFeedback success => ([], dispatcher.recordFeedback success)
  | .choosePaths order => dispatcher.choosePaths order

end MprDispatcher

namespace WeightedRrScheduler

/-- The credit with which a path competes for the next draw, after the draws
of this batch. -/
def competing (scheduler : WeightedRrScheduler) (drawn : List UInt8)
    (id : UInt8) : Int :=
  scheduler.currentOf id + (drawn.length + 1) * scheduler.weightOf id -
    drawn.count id * scheduler.totalWeight

/-- The path that leads after these draws: the last in the order among those
with the largest credit. -/
def leader (scheduler : WeightedRrScheduler) (order : IterationOrder)
    (drawn : List UInt8) : Option UInt8 :=
  maxByKey (scheduler.competing drawn)
    (order.ids.filter (fun id => scheduler.paths.contains id))

/-- The leaders of the next rounds. -/
def leaders (scheduler : WeightedRrScheduler) (order : IterationOrder) :
    Nat → List UInt8 → List UInt8
  | 0, _ => []
  | rounds + 1, drawn =>
      match scheduler.leader order drawn with
      | none => []
      | some pid =>
          pid :: leaders scheduler order rounds (drawn ++ [pid])

/-- What the draws of a batch make of the scheduler it starts from. -/
structure Drawn (start : WeightedRrScheduler) (drawn : List UInt8)
    (scheduler : WeightedRrScheduler) : Prop where
  ids : scheduler.ids = start.ids
  weights : scheduler.weightOf = start.weightOf
  totalWeight : scheduler.totalWeight = start.totalWeight
  credits : ∀ id, scheduler.currentOf id + scheduler.weightOf id =
    start.competing drawn id

variable {start scheduler : WeightedRrScheduler} {drawn : List UInt8}

theorem drawn_start : Drawn start [] start := by
  refine ⟨rfl, rfl, rfl, ?_⟩
  intro id
  simp [competing]

theorem mem_ids_iff_contains (id : UInt8) :
    id ∈ scheduler.ids ↔ scheduler.paths.contains id = true := by
  rw [ids, OrderedMap.mem_keySet, ← Option.isSome_iff_exists,
    Std.ExtTreeMap.contains_eq_isSome_getElem?]

/-- The pick of `next` is the leader. -/
theorem pick_eq_leader (isDrawn : Drawn start drawn scheduler)
    (order : IterationOrder) :
    scheduler.increase.pick order = start.leader order drawn := by
  have keys : scheduler.increase.currentOf = start.competing drawn := by
    funext id
    rw [currentOf_increase]
    exact isDrawn.credits id
  have present : ∀ id, scheduler.increase.paths.contains id =
      start.paths.contains id := by
    intro id
    have sameIds : scheduler.increase.ids = start.ids := by
      rw [← isDrawn.ids]
      exact ids_eq_of_map lookup_increase
    rw [Bool.eq_iff_iff, ← mem_ids_iff_contains, ← mem_ids_iff_contains,
      sameIds]
  rw [pick, leader, keys]
  simp only [present]

theorem leader_eq_none_iff (order : IterationOrder) :
    start.leader order drawn = none ↔ start.ids = ∅ := by
  rw [leader, maxByKey_eq_none_iff, List.filter_eq_nil_iff]
  constructor
  · intro absent
    apply Finset.eq_empty_of_forall_notMem
    intro id member
    exact absent id (order.complete id) ((mem_ids_iff_contains id).mp member)
  · intro empty id _ present
    have member := (mem_ids_iff_contains id).mpr present
    rw [empty] at member
    exact Finset.notMem_empty id member

theorem mem_ids_of_leader {order : IterationOrder} {pid : UInt8}
    (leads : start.leader order drawn = some pid) : pid ∈ start.ids := by
  have listed := (maxByKey_spec leads).1
  exact (mem_ids_iff_contains pid).mpr (List.mem_filter.mp listed).2

/-- A draw gives the leader and settles its credit. -/
theorem next_of_leader (isDrawn : Drawn start drawn scheduler)
    {order : IterationOrder} {pid : UInt8}
    (leads : start.leader order drawn = some pid) :
    scheduler.next order = (some pid, scheduler.increase.reduce pid) ∧
      Drawn start (drawn ++ [pid]) (scheduler.increase.reduce pid) := by
  have member : pid ∈ scheduler.ids := by
    rw [isDrawn.ids]
    exact mem_ids_of_leader leads
  have occupied : ¬ scheduler.paths.isEmpty = true := by
    intro empty
    rw [ids, OrderedMap.keySet_eq_empty_iff.mpr empty] at member
    exact Finset.notMem_empty pid member
  refine ⟨?_, ?_, ?_, isDrawn.totalWeight, ?_⟩
  · rw [next, if_neg occupied]
    simp only [pick_eq_leader isDrawn, leads]
  · rw [ids_reduce_increase, isDrawn.ids]
  · rw [weightOf_reduce_increase, isDrawn.weights]
  · intro id
    have credit := isDrawn.credits id
    rw [currentOf_reduce member, weightOf_reduce_increase, credit,
      isDrawn.weights, isDrawn.totalWeight, competing, competing,
      List.length_append, List.count_append, List.length_singleton]
    by_cases same : id = pid
    · subst id
      rw [if_pos rfl, List.count_singleton_self]
      push_cast
      ring
    · have absent : [pid].count id = 0 :=
        List.count_eq_zero.mpr (by simpa using same)
      rw [if_neg same, absent]
      push_cast
      ring

theorem length_leaders (order : IterationOrder) (nonempty : start.ids ≠ ∅)
    (rounds : Nat) (drawn : List UInt8) :
    (start.leaders order rounds drawn).length = rounds := by
  induction rounds generalizing drawn with
  | zero => rfl
  | succ rounds ih =>
      rw [leaders]
      cases leads : start.leader order drawn with
      | none => exact absurd ((leader_eq_none_iff order).mp leads) nonempty
      | some pid =>
          simp only
          rw [List.length_cons, ih]

theorem mem_ids_of_leaders {order : IterationOrder} {rounds : Nat}
    {id : UInt8} (member : id ∈ start.leaders order rounds drawn) :
    id ∈ start.ids := by
  induction rounds generalizing drawn with
  | zero => cases member
  | succ rounds ih =>
      rw [leaders] at member
      cases leads : start.leader order drawn with
      | none =>
          rw [leads] at member
          cases member
      | some pid =>
          rw [leads] at member
          rcases List.mem_cons.mp member with rfl | later
          · exact mem_ids_of_leader leads
          · exact ih later

end WeightedRrScheduler

namespace MprDispatcher

open WeightedRrScheduler

theorem drawPaths_of_empty {scheduler : WeightedRrScheduler}
    (empty : scheduler.ids = ∅) (order : IterationOrder) (rounds : Nat)
    (paths : List UInt8) :
    drawPaths order rounds scheduler paths = (paths, scheduler) := by
  induction rounds with
  | zero => rfl
  | succ rounds ih =>
      rw [drawPaths, next_of_empty empty]
      exact ih

/-- Appending what is not there yet. -/
theorem toFinset_push (paths : List UInt8) (pid : UInt8) :
    (if paths.contains pid then paths else paths ++ [pid]).toFinset =
      insert pid paths.toFinset := by
  by_cases present : paths.contains pid = true
  · rw [if_pos present, Finset.insert_eq_of_mem]
    rw [List.contains_iff_mem] at present
    exact List.mem_toFinset.mpr present
  · rw [if_neg present, List.toFinset_append, List.toFinset_cons,
      List.toFinset_nil, Finset.union_comm, insert_empty_eq,
      ← Finset.insert_eq]

theorem nodup_push {paths : List UInt8} (distinct : paths.Nodup)
    (pid : UInt8) :
    (if paths.contains pid then paths else paths ++ [pid]).Nodup := by
  by_cases present : paths.contains pid = true
  · rw [if_pos present]
    exact distinct
  · rw [if_neg present]
    rw [List.contains_iff_mem] at present
    apply List.nodup_append.mpr
    refine ⟨distinct, List.nodup_singleton pid, ?_⟩
    intro path member other isPid same
    rw [List.mem_singleton.mp isPid] at same
    subst same
    exact present member

/-- The loop collects the leaders, each once. -/
theorem drawPaths_spec {start scheduler : WeightedRrScheduler}
    {drawn paths : List UInt8} (isDrawn : Drawn start drawn scheduler)
    (nonempty : start.ids ≠ ∅) (distinct : paths.Nodup)
    (order : IterationOrder) (rounds : Nat) :
    (drawPaths order rounds scheduler paths).1.Nodup ∧
      (drawPaths order rounds scheduler paths).1.toFinset =
        paths.toFinset ∪ (start.leaders order rounds drawn).toFinset := by
  induction rounds generalizing scheduler drawn paths with
  | zero => exact ⟨distinct, (Finset.union_empty _).symm⟩
  | succ rounds ih =>
      cases leads : start.leader order drawn with
      | none => exact absurd ((leader_eq_none_iff order).mp leads) nonempty
      | some pid =>
          obtain ⟨returned, isDrawnNext⟩ := next_of_leader isDrawn leads
          obtain ⟨stillDistinct, collected⟩ :=
            ih isDrawnNext (nodup_push distinct pid)
          rw [drawPaths, returned, leaders, leads]
          refine ⟨stillDistinct, ?_⟩
          rw [collected, toFinset_push, List.toFinset_cons,
            Finset.insert_union, Finset.union_insert]

/-- The batch is as redundant as it is meant to be: distinct active paths, `k`
of them or all. -/
structure Redundant (dispatcher : MprDispatcher) (paths : List UInt8) :
    Prop where
  distinct : paths.Nodup
  active : ∀ id ∈ paths, id ∈ dispatcher.scheduler.paths
  length : paths.length = min dispatcher.k dispatcher.scheduler.paths.size

/-- While no more draws are left than active paths not yet drawn, a path leads
that has not been drawn in this batch. -/
def Spread (dispatcher : MprDispatcher) (order : IterationOrder) : Prop :=
  DistinctDraws.Fresh dispatcher.scheduler.paths.size []
    (dispatcher.scheduler.leaders order dispatcher.k [])

instance Spread.decidable (dispatcher : MprDispatcher)
    (order : IterationOrder) : Decidable (dispatcher.Spread order) :=
  inferInstanceAs (Decidable (DistinctDraws.Fresh _ _ _))

theorem leaders_of_empty {start : WeightedRrScheduler}
    (empty : start.ids = ∅) (order : IterationOrder) (rounds : Nat)
    (drawn : List UInt8) : start.leaders order rounds drawn = [] := by
  cases rounds with
  | zero => rfl
  | succ rounds =>
      rw [leaders, (leader_eq_none_iff order).mpr empty]

/-- A batch holds the leaders, each once. -/
theorem choosePaths_spec {dispatcher : MprDispatcher}
    (nonempty : dispatcher.scheduler.ids ≠ ∅) (order : IterationOrder) :
    (dispatcher.choosePaths order).1.Nodup ∧
      (dispatcher.choosePaths order).1.toFinset =
        (dispatcher.scheduler.leaders order dispatcher.k []).toFinset := by
  obtain ⟨distinct, collected⟩ :=
    drawPaths_spec drawn_start nonempty List.nodup_nil order dispatcher.k
  rw [List.toFinset_nil, Finset.empty_union] at collected
  exact ⟨distinct, collected⟩

theorem size_paths (scheduler : WeightedRrScheduler) :
    scheduler.paths.size = scheduler.ids.card :=
  OrderedMap.card_keySet.symm

/-- A batch from a scheduler with paths is as long as it is meant to be exactly
when the leaders are spread. -/
theorem length_choosePaths_iff {dispatcher : MprDispatcher}
    (nonempty : dispatcher.scheduler.ids ≠ ∅) (order : IterationOrder) :
    (dispatcher.choosePaths order).1.length =
        min dispatcher.k dispatcher.scheduler.paths.size ↔
      dispatcher.Spread order := by
  obtain ⟨distinct, collected⟩ := choosePaths_spec nonempty order
  have within : ∀ draw ∈
      [] ++ dispatcher.scheduler.leaders order dispatcher.k [],
        draw ∈ dispatcher.scheduler.ids := by
    intro draw member
    exact mem_ids_of_leaders member
  have counted := DistinctDraws.card_eq_iff_fresh within
  rw [List.nil_append, List.toFinset_nil, Finset.card_empty, Nat.zero_add,
    Nat.sub_zero, length_leaders order nonempty] at counted
  rw [← List.toFinset_card_of_nodup distinct, collected, Spread, size_paths]
  exact counted

/-- The batch is redundant exactly when the leaders are spread. -/
theorem redundant_iff_spread (dispatcher : MprDispatcher)
    (order : IterationOrder) :
    dispatcher.Redundant (dispatcher.choosePaths order).1 ↔
      dispatcher.Spread order := by
  by_cases empty : dispatcher.scheduler.ids = ∅
  · have size : dispatcher.scheduler.paths.size = 0 := by
      rw [size_paths, empty]
      rfl
    have nothing : (dispatcher.choosePaths order).1 = [] := by
      rw [choosePaths, drawPaths_of_empty empty]
    rw [Spread, leaders_of_empty empty, nothing]
    refine iff_of_true ⟨List.nodup_nil, ?_, ?_⟩ trivial
    · intro id member
      cases member
    · rw [size, Nat.min_zero]
      rfl
  · rw [← length_choosePaths_iff empty order]
    obtain ⟨distinct, collected⟩ := choosePaths_spec empty order
    constructor
    · intro redundant
      exact redundant.length
    · intro length
      refine ⟨distinct, ?_, length⟩
      intro id member
      have leads := List.mem_toFinset.mpr member
      rw [collected, List.mem_toFinset] at leads
      have active := mem_ids_of_leaders leads
      rw [mem_ids_iff_contains] at active
      exact Std.ExtTreeMap.contains_iff_mem.mp active

/-- In every state that any calls on a dispatcher lead to, `choose_paths`
returns distinct active paths, as many as it should, exactly when the leaders
of its draws are spread. -/
theorem dispatch_redundant_iff
    (schedulerCalls : List WeightedRrScheduler.Call) (initialK : Nat)
    (calls : List Call) (order : IterationOrder) :
    let start := new
      (Trace.final WeightedRrScheduler.perform .new schedulerCalls) initialK
    let dispatcher := Trace.final perform start calls
    dispatcher.Redundant (dispatcher.choosePaths order).1 ↔
      dispatcher.Spread order := by
  intro start dispatcher
  exact redundant_iff_spread dispatcher order

-- Round-trip times of 10 ms and 20 ms.
example : (Trace.final perform (new .new 2)
    [.updateRtt 1 ⟨100, by decide, by decide⟩,
      .updateRtt 2 ⟨50, by decide, by decide⟩]).Spread ascendingOrder := by
  decide +kernel

/-- Two paths with round-trip times of 1 ms and 1000 ms. -/
def unevenPaths : List Call :=
  [.updateRtt 1 ⟨1000, by decide, by decide⟩,
   .updateRtt 2 ⟨1, by decide, by decide⟩]

/-- The heavy path takes both draws and the batch has one path instead of
two. -/
theorem heavy_path_drawn_twice :
    let dispatcher := Trace.final perform (new .new 2) unevenPaths
    (dispatcher.choosePaths ascendingOrder).1 = [1] ∧
      dispatcher.k = 2 ∧ dispatcher.scheduler.paths.size = 2 ∧
      ¬ dispatcher.Redundant (dispatcher.choosePaths ascendingOrder).1 := by
  intro dispatcher
  have batch : (dispatcher.choosePaths ascendingOrder).1 = [1] := by
    decide +kernel
  have size : dispatcher.scheduler.paths.size = 2 := by
    decide +kernel
  refine ⟨batch, rfl, size, ?_⟩
  intro redundant
  have length := redundant.length
  rw [batch, size] at length
  exact absurd length (by decide)

end MprDispatcher

end NyxNet.Stream
