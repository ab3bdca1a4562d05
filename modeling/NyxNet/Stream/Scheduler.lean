import Mathlib.Algebra.Order.Field.Rat
import NyxNet.Lib.OrderedMap
import NyxNet.Lib.SmoothRoundRobin
import NyxNet.Lib.Trace

/-!
# Weighted round-robin path scheduler

`nyx-stream/src/scheduler.rs`.  The `i32` fields are integers here; that no
operation on them leaves the `i32` range is proved in `SchedulerChurn`.  The
hash map iterates in an order of its own, which decides between paths of equal
credit; every call of `next` brings the order it meets.
-/

namespace NyxNet.Stream

structure PathState where
  weight : Int
  current : Int
  deriving DecidableEq, Repr

structure WeightedRrScheduler where
  paths : Std.ExtTreeMap UInt8 PathState compare
  totalWeight : Int

/-- An order in which the hash map may list path ids.  The ids that are not in
the map are skipped. -/
structure IterationOrder where
  ids : List UInt8
  nodup : ids.Nodup
  complete : ∀ id, id ∈ ids

/-- `max_by_key`: the last of the items with the largest key. -/
def maxByKey {α : Type} (key : α → Int) : List α → Option α
  | [] => none
  | item :: items =>
      match maxByKey key items with
      | none => some item
      | some best => if key item ≤ key best then some best else some item

namespace WeightedRrScheduler

def new : WeightedRrScheduler := { paths := ∅, totalWeight := 0 }

/-- Inserts or updates a path.  `newWeight` is the weight computed from the
round-trip time. -/
def updatePath (scheduler : WeightedRrScheduler) (pathId : UInt8)
    (newWeight : Int) : WeightedRrScheduler :=
  match scheduler.paths[pathId]? with
  | some state =>
      { paths := scheduler.paths.insert pathId
          { state with weight := newWeight }
        totalWeight := scheduler.totalWeight + (newWeight - state.weight) }
  | none =>
      { paths := scheduler.paths.insert pathId
          { weight := newWeight, current := 0 }
        totalWeight := scheduler.totalWeight + newWeight }

def removePath (scheduler : WeightedRrScheduler) (pathId : UInt8) :
    WeightedRrScheduler :=
  match scheduler.paths[pathId]? with
  | some state =>
      { paths := scheduler.paths.erase pathId
        totalWeight := scheduler.totalWeight - state.weight }
  | none => scheduler

/-- Step 1 of `next`: every `current` grows by its weight. -/
def increase (scheduler : WeightedRrScheduler) : WeightedRrScheduler :=
  { scheduler with
    paths := scheduler.paths.map (fun _ state =>
      { state with current := state.current + state.weight }) }

/-- The `current` of a path; 0 for an id without a path. -/
def currentOf (scheduler : WeightedRrScheduler) (id : UInt8) : Int :=
  (scheduler.paths[id]?).elim 0 PathState.current

/-- The weight of a path; 0 for an id without a path. -/
def weightOf (scheduler : WeightedRrScheduler) (id : UInt8) : Int :=
  (scheduler.paths[id]?).elim 0 PathState.weight

/-- Step 2 of `next`: the path with the highest `current`. -/
def pick (scheduler : WeightedRrScheduler) (order : IterationOrder) :
    Option UInt8 :=
  maxByKey scheduler.currentOf
    (order.ids.filter (fun id => scheduler.paths.contains id))

/-- Step 3 of `next`: the picked path pays the total weight. -/
def reduce (scheduler : WeightedRrScheduler) (pid : UInt8) :
    WeightedRrScheduler :=
  { scheduler with
    paths := scheduler.paths.modify pid (fun state =>
      { state with current := state.current - scheduler.totalWeight }) }

def next (scheduler : WeightedRrScheduler) (order : IterationOrder) :
    Option UInt8 × WeightedRrScheduler :=
  if scheduler.paths.isEmpty then (none, scheduler)
  else
    let scheduler := scheduler.increase
    match scheduler.pick order with
    | none => (none, scheduler)
    | some pid => (some pid, scheduler.reduce pid)

end WeightedRrScheduler

section MaxByKey

variable {α : Type} {key : α → Int}

theorem maxByKey_eq_none_iff {items : List α} :
    maxByKey key items = none ↔ items = [] := by
  cases items with
  | nil => exact iff_of_true rfl rfl
  | cons item items =>
      refine iff_of_false ?_ (List.cons_ne_nil item items)
      rw [maxByKey]
      cases maxByKey key items with
      | none => exact Option.some_ne_none item
      | some best =>
          by_cases smaller : key item ≤ key best
          · simp [smaller]
          · simp [smaller]

theorem maxByKey_spec {items : List α} {best : α}
    (found : maxByKey key items = some best) :
    best ∈ items ∧ ∀ item ∈ items, key item ≤ key best := by
  induction items generalizing best with
  | nil => cases found
  | cons item items ih =>
      rw [maxByKey] at found
      cases rest : maxByKey key items with
      | none =>
          rw [rest] at found
          cases found
          have empty := maxByKey_eq_none_iff.mp rest
          subst items
          simp
      | some later =>
          rw [rest] at found
          obtain ⟨member, maximal⟩ := ih rest
          by_cases smaller : key item ≤ key later
          · simp only [if_pos smaller, Option.some.injEq] at found
            subst later
            refine ⟨List.mem_cons_of_mem item member, ?_⟩
            intro other otherMember
            rcases List.mem_cons.mp otherMember with rfl | tail
            · exact smaller
            · exact maximal other tail
          · simp only [if_neg smaller, Option.some.injEq] at found
            subst best
            refine ⟨List.mem_cons_self, ?_⟩
            intro other otherMember
            rcases List.mem_cons.mp otherMember with rfl | tail
            · exact Int.le_refl _
            · exact Int.le_trans (maximal other tail)
                (Int.le_of_lt (Int.lt_of_not_ge smaller))

end MaxByKey

namespace WeightedRrScheduler

open SmoothRoundRobin

/-- The ids of the present paths. -/
def ids (scheduler : WeightedRrScheduler) : Finset UInt8 :=
  OrderedMap.keySet scheduler.paths

/-- The sum of the stored weights. -/
def weightSum (scheduler : WeightedRrScheduler) : Int :=
  total scheduler.ids scheduler.weightOf

section Next

variable {scheduler : WeightedRrScheduler}

theorem weightOf_eq {id : UInt8} {state : PathState}
    (present : scheduler.paths[id]? = some state) :
    scheduler.weightOf id = state.weight := by
  rw [weightOf, present]
  rfl

theorem currentOf_eq {id : UInt8} {state : PathState}
    (present : scheduler.paths[id]? = some state) :
    scheduler.currentOf id = state.current := by
  rw [currentOf, present]
  rfl

theorem ids_eq_of_map {other : WeightedRrScheduler}
    {change : UInt8 → PathState → PathState}
    (mapped : ∀ id : UInt8,
      other.paths[id]? = scheduler.paths[id]?.map (change id)) :
    other.ids = scheduler.ids := by
  ext id
  rw [ids, ids, OrderedMap.mem_keySet, OrderedMap.mem_keySet, mapped id]
  simp

theorem lookup_increase (id : UInt8) :
    scheduler.increase.paths[id]? =
      scheduler.paths[id]?.map (fun state =>
        { state with current := state.current + state.weight }) :=
  Std.ExtTreeMap.getElem?_map

theorem currentOf_increase (id : UInt8) :
    scheduler.increase.currentOf id =
      scheduler.currentOf id + scheduler.weightOf id := by
  rw [currentOf, lookup_increase, currentOf, weightOf]
  cases scheduler.paths[id]? with
  | none => rfl
  | some state => rfl

/-- What the second and third step of `next` leave of a path. -/
theorem lookup_reduce_increase (pid id : UInt8) :
    (scheduler.increase.reduce pid).paths[id]? =
      scheduler.paths[id]?.map (fun state =>
        { state with
          current := state.current + state.weight -
            if id = pid then scheduler.totalWeight else 0 }) := by
  rw [reduce, OrderedMap.lookup_modify, lookup_increase]
  by_cases same : id = pid
  · simp only [if_pos same, Option.map_map]
    rfl
  · simp only [if_neg same, sub_zero]

theorem ids_reduce_increase (pid : UInt8) :
    (scheduler.increase.reduce pid).ids = scheduler.ids :=
  ids_eq_of_map (lookup_reduce_increase pid)

theorem weightOf_reduce_increase (pid : UInt8) :
    (scheduler.increase.reduce pid).weightOf = scheduler.weightOf := by
  funext id
  rw [weightOf, lookup_reduce_increase, weightOf]
  cases scheduler.paths[id]? with
  | none => rfl
  | some state => rfl

/-- Every present path gains its weight, and the picked one pays. -/
theorem currentOf_reduce {pid : UInt8} (member : pid ∈ scheduler.ids)
    (id : UInt8) :
    (scheduler.increase.reduce pid).currentOf id =
      scheduler.currentOf id + scheduler.weightOf id -
        if id = pid then scheduler.totalWeight else 0 := by
  rw [currentOf, lookup_reduce_increase, currentOf, weightOf]
  cases present : scheduler.paths[id]? with
  | none =>
      have different : id ≠ pid := by
        intro same
        subst id
        exact OrderedMap.notMem_keySet.mpr present member
      simp [different]
  | some state => rfl

/-- With an exact total the credits are settled as in the abstract scheme. -/
theorem currentOf_reduce_increase {pid : UInt8}
    (exact : scheduler.totalWeight = scheduler.weightSum)
    (member : pid ∈ scheduler.ids) :
    (scheduler.increase.reduce pid).currentOf =
      settle scheduler.ids scheduler.weightOf scheduler.currentOf pid := by
  funext id
  rw [currentOf_reduce member, settle, exact, weightSum]

theorem next_of_empty (empty : scheduler.ids = ∅) (order : IterationOrder) :
    scheduler.next order = (none, scheduler) :=
  if_pos (OrderedMap.keySet_eq_empty_iff.mp empty)

/-- A present path of the highest credit is chosen, whatever the order. -/
theorem next_of_nonempty (nonempty : scheduler.ids ≠ ∅)
    (order : IterationOrder) :
    ∃ pid, Selects scheduler.ids scheduler.weightOf scheduler.currentOf pid ∧
      scheduler.next order = (some pid, scheduler.increase.reduce pid) := by
  have listed : ∀ id, id ∈ order.ids.filter
      (fun id => scheduler.increase.paths.contains id) ↔
        id ∈ scheduler.ids := by
    intro id
    rw [List.mem_filter, ids, OrderedMap.mem_keySet,
      Std.ExtTreeMap.contains_eq_isSome_getElem?, lookup_increase,
      Option.isSome_map, Option.isSome_iff_exists]
    exact and_iff_right (order.complete id)
  have notEmpty : ¬ scheduler.paths.isEmpty = true :=
    fun empty => nonempty (OrderedMap.keySet_eq_empty_iff.mpr empty)
  cases picked : scheduler.increase.pick order with
  | none =>
      obtain ⟨id, member⟩ := Finset.nonempty_iff_ne_empty.mpr nonempty
      have visited := (listed id).mpr member
      rw [maxByKey_eq_none_iff.mp picked] at visited
      cases visited
  | some pid =>
      obtain ⟨member, maximal⟩ := maxByKey_spec picked
      refine ⟨pid, ⟨(listed pid).mp member, ?_⟩, ?_⟩
      · intro id present
        have highest := maximal id ((listed id).mpr present)
        rw [currentOf_increase, currentOf_increase] at highest
        exact highest
      · rw [next, if_neg notEmpty]
        simp only [picked]

end Next

section Rotation

/-- The paths a run chose, oldest first. -/
def picks (past : List (IterationOrder × Option UInt8)) : List UInt8 :=
  past.filterMap Prod.snd

/-- What `n` calls of `next` keep of the scheduler they started from. -/
structure Rotated (start : WeightedRrScheduler)
    (past : List (IterationOrder × Option UInt8))
    (scheduler : WeightedRrScheduler) : Prop where
  ids : scheduler.ids = start.ids
  weights : scheduler.weightOf = start.weightOf
  totalWeight : scheduler.totalWeight = start.totalWeight
  length : (picks past).length = past.length
  fair : Fair start.ids start.weightOf scheduler.currentOf
  ledger : Ledger start.ids start.weightOf (picks past) scheduler.currentOf

/-- Positive weights, their exact sum, and no credit yet. -/
structure Fresh (scheduler : WeightedRrScheduler) : Prop where
  positive : ∀ id ∈ scheduler.ids, 0 < scheduler.weightOf id
  total : scheduler.totalWeight = scheduler.weightSum
  zero : ∀ id, scheduler.currentOf id = 0

variable {start scheduler : WeightedRrScheduler}

theorem fresh_of_lookups
    (positive : ∀ (id : UInt8) (state : PathState),
      start.paths[id]? = some state → 0 < state.weight)
    (total : start.totalWeight = start.weightSum)
    (zero : ∀ (id : UInt8) (state : PathState),
      start.paths[id]? = some state → state.current = 0) :
    start.Fresh := by
  refine ⟨?_, total, ?_⟩
  · intro id member
    obtain ⟨state, present⟩ := OrderedMap.mem_keySet.mp member
    rw [weightOf_eq present]
    exact positive id state present
  · intro id
    cases present : start.paths[id]? with
    | none =>
        rw [currentOf, present]
        rfl
    | some state =>
        rw [currentOf_eq present]
        exact zero id state present

theorem rotated_start (fresh : start.Fresh) : Rotated start [] start := by
  refine ⟨rfl, rfl, rfl, rfl, ⟨?_, ?_⟩, ?_⟩
  · exact Finset.sum_eq_zero (fun id _ => fresh.zero id)
  · intro id member
    have positive := total_pos fresh.positive member
    rw [fresh.zero id]
    linarith
  · intro id _
    simp [picks, fresh.zero id]

theorem rotated_next (fresh : start.Fresh) (nonempty : start.ids ≠ ∅)
    {past : List (IterationOrder × Option UInt8)}
    (rotated : Rotated start past scheduler) (order : IterationOrder) :
    Rotated start (past ++ [(order, (scheduler.next order).1)])
      (scheduler.next order).2 := by
  obtain ⟨sameIds, sameWeights, sameTotal, length, fair, ledger⟩ := rotated
  have exact : scheduler.totalWeight = scheduler.weightSum := by
    rw [sameTotal, fresh.total, weightSum, weightSum, sameIds, sameWeights]
  obtain ⟨pid, selects, result⟩ :=
    next_of_nonempty (by rw [sameIds]; exact nonempty) order
  have picked : picks (past ++ [(order, some pid)]) = picks past ++ [pid] := by
    simp [picks]
  have currents := currentOf_reduce_increase exact selects.member
  rw [sameIds, sameWeights] at selects currents
  rw [result]
  refine ⟨?_, ?_, sameTotal, ?_, ?_, ?_⟩
  · rw [ids_reduce_increase, sameIds]
  · rw [weightOf_reduce_increase, sameWeights]
  · rw [picked, List.length_append, List.length_append, length]
    rfl
  · rw [currents]
    exact fair.settle selects fresh.positive
  · rw [currents, picked]
    exact ledger.settle pid

theorem rotated_run (fresh : start.Fresh) (nonempty : start.ids ≠ ∅)
    (orders : List IterationOrder) :
    Rotated start (Trace.history next start orders)
      (Trace.final next start orders) := by
  apply Trace.invariant (rotated_start fresh)
  intro past scheduler order rotated
  exact rotated_next fresh nonempty rotated order

theorem final_of_empty (empty : start.ids = ∅)
    (orders : List IterationOrder) :
    Trace.final next start orders = start := by
  induction orders with
  | nil => rfl
  | cons order orders ih =>
      rw [Trace.final, next_of_empty empty]
      exact ih

theorem eq_of_views (sameIds : scheduler.ids = start.ids)
    (sameWeights : scheduler.weightOf = start.weightOf)
    (sameCurrents : ∀ id ∈ start.ids,
      scheduler.currentOf id = start.currentOf id)
    (sameTotal : scheduler.totalWeight = start.totalWeight) :
    scheduler = start := by
  have samePaths : scheduler.paths = start.paths := by
    apply Std.ExtTreeMap.ext_getElem?
    intro id
    by_cases member : id ∈ start.ids
    · obtain ⟨state, present⟩ := OrderedMap.mem_keySet.mp member
      have member' : id ∈ scheduler.ids := by rw [sameIds]; exact member
      obtain ⟨state', present'⟩ := OrderedMap.mem_keySet.mp member'
      have weight := congrFun sameWeights id
      have current := sameCurrents id member
      rw [weightOf_eq present, weightOf_eq present'] at weight
      rw [currentOf_eq present, currentOf_eq present'] at current
      rw [present, present']
      cases state
      cases state'
      simp only at weight current
      rw [weight, current]
    · have absent : id ∉ scheduler.ids := by rw [sameIds]; exact member
      rw [OrderedMap.notMem_keySet.mp member,
        OrderedMap.notMem_keySet.mp absent]
  cases scheduler
  cases start
  simp only at samePaths sameTotal
  rw [samePaths, sameTotal]

end Rotation

/-- Every path is chosen less than once more often than its share, and after
as many calls as the total weight exactly as often as its weight, which brings
the scheduler back to where it started. -/
theorem swrr_proportional (scheduler : WeightedRrScheduler)
    (positive : ∀ (id : UInt8) (state : PathState),
      scheduler.paths[id]? = some state → 0 < state.weight)
    (total : scheduler.totalWeight = scheduler.weightSum)
    (zero : ∀ (id : UInt8) (state : PathState),
      scheduler.paths[id]? = some state → state.current = 0)
    (orders : List IterationOrder) :
    let chosen := picks (Trace.history next scheduler orders)
    (∀ (id : UInt8) (state : PathState),
      scheduler.paths[id]? = some state →
        (chosen.count id : ℚ) <
          orders.length * state.weight / scheduler.totalWeight + 1) ∧
      ((orders.length : ℤ) = scheduler.totalWeight →
        (∀ (id : UInt8) (state : PathState),
          scheduler.paths[id]? = some state →
            (chosen.count id : ℤ) = state.weight) ∧
          Trace.final next scheduler orders = scheduler) := by
  intro chosen
  have fresh := fresh_of_lookups positive total zero
  by_cases empty : scheduler.ids = ∅
  · have absent : ∀ (id : UInt8) (state : PathState),
        ¬ scheduler.paths[id]? = some state := by
      intro id state present
      have member := OrderedMap.mem_keySet.mpr ⟨state, present⟩
      rw [← ids, empty] at member
      exact Finset.notMem_empty id member
    refine ⟨fun id state present => (absent id state present).elim, ?_⟩
    intro _
    refine ⟨fun id state present => (absent id state present).elim, ?_⟩
    exact final_of_empty empty orders
  · obtain ⟨sameIds, sameWeights, sameTotal, length, fair, ledger⟩ :=
      rotated_run fresh empty orders
    have calls : chosen.length = orders.length := by
      rw [length, ← List.length_map Prod.fst, Trace.map_fst_history]
    constructor
    · intro id state present
      have member := OrderedMap.mem_keySet.mpr ⟨state, present⟩
      have share := count_lt fair ledger member
      have totalPositive := total_pos fresh.positive member
      rw [calls, weightOf_eq present] at share
      rw [← weightSum, ← fresh.total] at share totalPositive
      have denominator : (0 : ℚ) < scheduler.totalWeight := by
        exact_mod_cast totalPositive
      rw [div_add_one denominator.ne', lt_div_iff₀ denominator, mul_comm]
      exact_mod_cast share
    · intro round
      have full : (chosen.length : ℤ) =
          SmoothRoundRobin.total scheduler.ids scheduler.weightOf := by
        rw [calls, round, fresh.total, weightSum]
      constructor
      · intro id state present
        rw [← weightOf_eq present]
        exact count_eq_of_round fair ledger fresh.positive full id
          (OrderedMap.mem_keySet.mpr ⟨state, present⟩)
      · apply eq_of_views sameIds sameWeights _ sameTotal
        intro id member
        rw [credit_eq_zero_of_round fair ledger fresh.positive full id member,
          fresh.zero id]

/-- The ids from 0 to 255. -/
def ascendingOrder : IterationOrder where
  ids := (List.finRange 256).map UInt8.ofFin
  nodup := by
    apply List.Nodup.map _ (List.nodup_finRange 256)
    intro left right same
    exact congrArg UInt8.toFin same
  complete := by
    intro id
    apply List.mem_map.mpr
    exact ⟨id.toFin, List.mem_finRange _, UInt8.ofFin_toFin id⟩

/-- Two paths with the weights 2 and 1. -/
def sampleScheduler : WeightedRrScheduler :=
  (new.updatePath 1 2).updatePath 2 1

theorem lookup_sampleScheduler (id : UInt8) :
    sampleScheduler.paths[id]? =
      if id = 2 then some { weight := 1, current := 0 }
      else if id = 1 then some { weight := 2, current := 0 }
      else none := by
  have paths : sampleScheduler.paths =
      ((∅ : Std.ExtTreeMap UInt8 PathState compare).insert 1
        { weight := 2, current := 0 }).insert 2
          { weight := 1, current := 0 } := rfl
  rw [paths, OrderedMap.lookup_insert, OrderedMap.lookup_insert,
    Std.ExtTreeMap.getElem?_empty]

theorem sampleScheduler_paths (id : UInt8) (state : PathState)
    (present : sampleScheduler.paths[id]? = some state) :
    0 < state.weight ∧ state.current = 0 := by
  rw [lookup_sampleScheduler] at present
  by_cases second : id = 2
  · rw [if_pos second] at present
    cases present
    decide
  · rw [if_neg second] at present
    by_cases first : id = 1
    · rw [if_pos first] at present
      cases present
      decide
    · rw [if_neg first] at present
      cases present

theorem swrr_proportional_sample :
    let chosen := picks (Trace.history next sampleScheduler
      [ascendingOrder, ascendingOrder, ascendingOrder])
    chosen.count 1 = 2 ∧ chosen.count 2 = 1 ∧
      Trace.final next sampleScheduler
        [ascendingOrder, ascendingOrder, ascendingOrder] =
          sampleScheduler := by
  intro chosen
  obtain ⟨counts, returned⟩ := (swrr_proportional sampleScheduler
    (fun id state present => (sampleScheduler_paths id state present).1)
    (by decide +kernel)
    (fun id state present => (sampleScheduler_paths id state present).2)
    [ascendingOrder, ascendingOrder, ascendingOrder]).2 (by decide +kernel)
  refine ⟨?_, ?_, returned⟩
  · exact Int.ofNat_inj.mp
      (counts 1 { weight := 2, current := 0 } (lookup_sampleScheduler 1))
  · exact Int.ofNat_inj.mp
      (counts 2 { weight := 1, current := 0 } (lookup_sampleScheduler 2))

end WeightedRrScheduler

end NyxNet.Stream
