import NyxNet.Stream.Scheduler

/-!
# The scheduler under churn

Paths come, go and change their weight between calls of `next`.  A removed path
takes its credit along, so the credits no longer sum to zero; they stay bounded
nevertheless, and every `i32` operation of the scheduler stays in range.
-/

namespace NyxNet.Stream.WeightedRrScheduler

open SmoothRoundRobin

/-- A weight as `update_path` computes it: 1000 over a round-trip time of at
least one millisecond, rounded, and at least 1. -/
structure PathWeight where
  value : Int
  atLeast : 1 ≤ value
  atMost : value ≤ 1000

inductive Call where
  | updatePath (pathId : UInt8) (newWeight : PathWeight)
  | removePath (pathId : UInt8)
  | next (order : IterationOrder)

def perform (scheduler : WeightedRrScheduler) :
    Call → Option UInt8 × WeightedRrScheduler
  | .updatePath pathId newWeight =>
      (none, scheduler.updatePath pathId newWeight.value)
  | .removePath pathId => (none, scheduler.removePath pathId)
  | .next order => scheduler.next order

/-- The results of all `i32` additions and subtractions of a call. -/
def arithmetic (scheduler : WeightedRrScheduler) : Call → List Int
  | .updatePath pathId newWeight =>
      match scheduler.paths[pathId]? with
      | some state =>
          [newWeight.value - state.weight,
            scheduler.totalWeight + (newWeight.value - state.weight)]
      | none => [scheduler.totalWeight + newWeight.value]
  | .removePath pathId =>
      match scheduler.paths[pathId]? with
      | some state => [scheduler.totalWeight - state.weight]
      | none => []
  | .next order =>
      scheduler.paths.toList.map
          (fun entry => entry.2.current + entry.2.weight) ++
        match scheduler.increase.pick order with
        | none => []
        | some pid =>
            [scheduler.increase.currentOf pid - scheduler.totalWeight]

/-- The range of `i32`. -/
def InI32 (number : Int) : Prop := -2 ^ 31 ≤ number ∧ number < 2 ^ 31

/-- No more ids than bytes, each of weight 1000 at most. -/
def heaviestLoad : Int := 256000

structure Sane (scheduler : WeightedRrScheduler) : Prop where
  total : scheduler.totalWeight = scheduler.weightSum
  weights : ∀ id ∈ scheduler.ids,
    1 ≤ scheduler.weightOf id ∧ scheduler.weightOf id ≤ 1000
  bounded : Bounded 256 heaviestLoad scheduler.ids scheduler.currentOf

section Updates

variable {scheduler : WeightedRrScheduler} {pathId : UInt8}

theorem card_ids_le (scheduler : WeightedRrScheduler) :
    scheduler.ids.card ≤ 256 := by
  have image : (scheduler.ids.image UInt8.toNat).card = scheduler.ids.card :=
    Finset.card_image_of_injective _ (fun left right => UInt8.toNat_inj.mp)
  have bytes : scheduler.ids.image UInt8.toNat ⊆ Finset.range 256 := by
    intro number member
    obtain ⟨id, -, rfl⟩ := Finset.mem_image.mp member
    exact Finset.mem_range.mpr id.toNat_lt
  have bound := Finset.card_le_card bytes
  rw [image, Finset.card_range] at bound
  exact bound

theorem ids_updatePath (newWeight : Int) :
    (scheduler.updatePath pathId newWeight).ids =
      insert pathId scheduler.ids := by
  have inserted : ∀ state, OrderedMap.keySet
      (scheduler.paths.insert pathId state) = insert pathId scheduler.ids := by
    intro state
    ext id
    rw [Finset.mem_insert, ids, OrderedMap.mem_keySet, OrderedMap.mem_keySet,
      OrderedMap.lookup_insert]
    by_cases same : id = pathId
    · simp [same]
    · simp [same]
  rw [updatePath]
  cases scheduler.paths[pathId]? with
  | none => exact inserted _
  | some state => exact inserted _

theorem weightOf_updatePath (newWeight : Int) :
    (scheduler.updatePath pathId newWeight).weightOf =
      Function.update scheduler.weightOf pathId newWeight := by
  funext id
  rw [Function.update_apply, weightOf, updatePath]
  cases scheduler.paths[pathId]? with
  | none =>
      simp only [OrderedMap.lookup_insert]
      by_cases same : id = pathId
      · simp [same]
      · simp [same, weightOf]
  | some state =>
      simp only [OrderedMap.lookup_insert]
      by_cases same : id = pathId
      · simp [same]
      · simp [same, weightOf]

/-- Updating a path leaves every credit as it is. -/
theorem currentOf_updatePath (newWeight : Int) :
    (scheduler.updatePath pathId newWeight).currentOf =
      scheduler.currentOf := by
  funext id
  rw [currentOf, currentOf, updatePath]
  cases present : scheduler.paths[pathId]? with
  | none =>
      simp only [OrderedMap.lookup_insert]
      by_cases same : id = pathId
      · simp [same, present]
      · simp [same]
  | some state =>
      simp only [OrderedMap.lookup_insert]
      by_cases same : id = pathId
      · simp [same, present]
      · simp [same]

theorem removePath_of_absent (absent : pathId ∉ scheduler.ids) :
    scheduler.removePath pathId = scheduler := by
  rw [removePath, OrderedMap.notMem_keySet.mp absent]

theorem lookup_removePath (id : UInt8) :
    (scheduler.removePath pathId).paths[id]? =
      if id = pathId then none else scheduler.paths[id]? := by
  rw [removePath]
  cases present : scheduler.paths[pathId]? with
  | none =>
      by_cases same : id = pathId
      · simp [same, present]
      · simp [same]
  | some state => exact OrderedMap.lookup_erase pathId id

theorem ids_removePath :
    (scheduler.removePath pathId).ids = scheduler.ids.erase pathId := by
  ext id
  rw [Finset.mem_erase, ids, ids, OrderedMap.mem_keySet, OrderedMap.mem_keySet,
    lookup_removePath]
  by_cases same : id = pathId
  · simp [same]
  · simp [same]

theorem views_removePath {id : UInt8}
    (member : id ∈ scheduler.ids.erase pathId) :
    (scheduler.removePath pathId).weightOf id = scheduler.weightOf id ∧
      (scheduler.removePath pathId).currentOf id = scheduler.currentOf id := by
  have different := Finset.ne_of_mem_erase member
  rw [weightOf, currentOf, lookup_removePath, if_neg different]
  exact ⟨rfl, rfl⟩

theorem weightOf_of_absent (absent : pathId ∉ scheduler.ids) :
    scheduler.weightOf pathId = 0 := by
  rw [weightOf, OrderedMap.notMem_keySet.mp absent]
  rfl

theorem currentOf_of_absent (absent : pathId ∉ scheduler.ids) :
    scheduler.currentOf pathId = 0 := by
  rw [currentOf, OrderedMap.notMem_keySet.mp absent]
  rfl

theorem totalWeight_updatePath (newWeight : Int) :
    (scheduler.updatePath pathId newWeight).totalWeight =
      scheduler.totalWeight + (newWeight - scheduler.weightOf pathId) := by
  rw [updatePath, weightOf]
  cases scheduler.paths[pathId]? with
  | none =>
      change scheduler.totalWeight + newWeight =
        scheduler.totalWeight + (newWeight - 0)
      rw [sub_zero]
  | some state => rfl

theorem totalWeight_removePath :
    (scheduler.removePath pathId).totalWeight =
      scheduler.totalWeight - scheduler.weightOf pathId := by
  rw [removePath, weightOf]
  cases scheduler.paths[pathId]? with
  | none => exact (Int.sub_zero scheduler.totalWeight).symm
  | some state => rfl

end Updates

section Steps

variable {scheduler : WeightedRrScheduler}

theorem sane_new : Sane new := by
  have empty : new.ids = ∅ := rfl
  refine ⟨rfl, ?_, ?_, ?_⟩
  · intro id member
    rw [empty] at member
    exact (Finset.notMem_empty id member).elim
  · rw [empty]
    decide
  · intro part subset
    rw [empty] at subset
    rw [Finset.subset_empty.mp subset]
    decide

theorem Sane.weightSum_le (sane : scheduler.Sane) :
    scheduler.weightSum ≤ heaviestLoad := by
  have sum := Finset.sum_le_card_nsmul scheduler.ids scheduler.weightOf 1000
    (fun id member => (sane.weights id member).2)
  have size : (scheduler.ids.card : Int) ≤ 256 := by
    exact_mod_cast card_ids_le scheduler
  rw [nsmul_eq_mul] at sum
  rw [weightSum, SmoothRoundRobin.total, heaviestLoad]
  linarith

theorem Sane.weightSum_nonneg (sane : scheduler.Sane) :
    0 ≤ scheduler.weightSum := by
  rw [weightSum, SmoothRoundRobin.total]
  apply Finset.sum_nonneg
  intro id member
  have weight := sane.weights id member
  linarith

theorem sane_updatePath (sane : scheduler.Sane) (pathId : UInt8)
    (newWeight : PathWeight) :
    (scheduler.updatePath pathId newWeight.value).Sane := by
  obtain ⟨exact, weights, bounded⟩ := sane
  constructor
  · rw [totalWeight_updatePath, exact, weightSum, weightSum, ids_updatePath,
      weightOf_updatePath]
    by_cases member : pathId ∈ scheduler.ids
    · rw [Finset.insert_eq_of_mem member, total_update member]
    · rw [total_insert member, weightOf_of_absent member, sub_zero]
  · intro id member
    rw [ids_updatePath, Finset.mem_insert] at member
    rw [weightOf_updatePath, Function.update_apply]
    by_cases same : id = pathId
    · rw [if_pos same]
      exact ⟨newWeight.atLeast, newWeight.atMost⟩
    · rw [if_neg same]
      exact weights id (member.resolve_left same)
  · rw [ids_updatePath, currentOf_updatePath]
    by_cases member : pathId ∈ scheduler.ids
    · rw [Finset.insert_eq_of_mem member]
      exact bounded
    · apply bounded.insert member (currentOf_of_absent member) (by decide)
      rw [← ids_updatePath newWeight.value]
      exact card_ids_le _

theorem sane_removePath (sane : scheduler.Sane) (pathId : UInt8) :
    (scheduler.removePath pathId).Sane := by
  by_cases member : pathId ∈ scheduler.ids
  · obtain ⟨exact, weights, bounded⟩ := sane
    constructor
    · rw [totalWeight_removePath, exact, weightSum, weightSum, ids_removePath,
        ← total_erase member]
      exact Finset.sum_congr rfl
        (fun id remaining => (views_removePath remaining).1.symm)
    · intro id remaining
      rw [ids_removePath] at remaining
      rw [(views_removePath remaining).1]
      exact weights id (Finset.mem_of_mem_erase remaining)
    · rw [ids_removePath]
      apply (bounded.erase pathId).congr
      intro id remaining
      exact (views_removePath remaining).2
  · rw [removePath_of_absent member]
    exact sane

theorem sane_next (sane : scheduler.Sane) (order : IterationOrder) :
    (scheduler.next order).2.Sane := by
  by_cases empty : scheduler.ids = ∅
  · rw [next_of_empty empty]
    exact sane
  · obtain ⟨pid, selects, result⟩ := next_of_nonempty empty order
    have small := sane.weightSum_le
    obtain ⟨exact, weights, bounded⟩ := sane
    rw [result]
    constructor
    · rw [weightSum, ids_reduce_increase, weightOf_reduce_increase]
      exact exact
    · rw [ids_reduce_increase, weightOf_reduce_increase]
      exact weights
    · rw [ids_reduce_increase,
        currentOf_reduce_increase exact selects.member]
      apply bounded.settle selects _ (card_ids_le scheduler) small
      intro id member
      have weight := weights id member
      linarith

theorem sane_perform (sane : scheduler.Sane) (call : Call) :
    (scheduler.perform call).2.Sane := by
  cases call with
  | updatePath pathId newWeight =>
      exact sane_updatePath sane pathId newWeight
  | removePath pathId => exact sane_removePath sane pathId
  | next order => exact sane_next sane order

theorem sane_run (calls : List Call) :
    (Trace.final perform new calls).Sane := by
  have preserved : ∀ scheduler call, Sane scheduler →
      Sane (scheduler.perform call).2 := by
    intro scheduler call sane
    exact sane_perform sane call
  exact Trace.final_invariant preserved calls sane_new

/-- The bounds on weights and credits; an absent path has neither. -/
theorem Sane.view_bounds (sane : scheduler.Sane) (id : UInt8) :
    (0 ≤ scheduler.weightOf id ∧ scheduler.weightOf id ≤ 1000) ∧
      -(256 * heaviestLoad) ≤ scheduler.currentOf id ∧
      scheduler.currentOf id ≤ 256 * heaviestLoad := by
  by_cases member : id ∈ scheduler.ids
  · have weights := sane.weights id member
    refine ⟨⟨?_, weights.2⟩, sane.bounded.ge member, sane.bounded.le member⟩
    linarith
  · rw [weightOf_of_absent member, currentOf_of_absent member]
    decide

theorem Sane.state_bounds (sane : scheduler.Sane) {id : UInt8}
    {state : PathState} (present : scheduler.paths[id]? = some state) :
    (0 ≤ state.weight ∧ state.weight ≤ 1000) ∧
      -(256 * heaviestLoad) ≤ state.current ∧
      state.current ≤ 256 * heaviestLoad := by
  have bounds := sane.view_bounds id
  rw [weightOf_eq present, currentOf_eq present] at bounds
  exact bounds

theorem Sane.arithmetic_inI32 (sane : scheduler.Sane) (call : Call) :
    ∀ number ∈ scheduler.arithmetic call, InI32 number := by
  have heaviest := sane.weightSum_le
  have nonnegative := sane.weightSum_nonneg
  rw [← sane.total] at heaviest nonnegative
  have load : heaviestLoad = 256000 := rfl
  intro number member
  rw [InI32]
  cases call with
  | updatePath pathId newWeight =>
      have atLeast := newWeight.atLeast
      have atMost := newWeight.atMost
      cases present : scheduler.paths[pathId]? with
      | none =>
          simp only [arithmetic, present, List.mem_singleton] at member
          omega
      | some state =>
          have bounds := sane.state_bounds present
          simp only [arithmetic, present, List.mem_cons, List.not_mem_nil,
            or_false] at member
          omega
  | removePath pathId =>
      cases present : scheduler.paths[pathId]? with
      | none =>
          simp only [arithmetic, present, List.not_mem_nil] at member
      | some state =>
          have bounds := sane.state_bounds present
          simp only [arithmetic, present, List.mem_singleton] at member
          omega
  | next order =>
      simp only [arithmetic, List.mem_append, List.mem_map] at member
      rcases member with ⟨⟨id, state⟩, listed, rfl⟩ | picked
      · have present := Std.ExtTreeMap.mem_toList_iff_getElem?_eq_some.mp listed
        have bounds := sane.state_bounds present
        dsimp only
        omega
      · cases pick : scheduler.increase.pick order with
        | none =>
            rw [pick] at picked
            cases picked
        | some pid =>
            have bounds := sane.view_bounds pid
            simp only [pick, List.mem_singleton, currentOf_increase] at picked
            omega

end Steps

/-- In every state that any sequence of calls leads to, the total is exact,
`next` chooses a present path if there is one, and no call overflows. -/
theorem scheduler_bookkeeping (calls : List Call) :
    let scheduler := Trace.final perform new calls
    scheduler.totalWeight = ∑ id ∈ scheduler.ids, scheduler.weightOf id ∧
      (∀ order, (∃ id, (scheduler.next order).1 = some id) ↔
        ∃ id, id ∈ scheduler.paths) ∧
      (∀ order id, (scheduler.next order).1 = some id →
        id ∈ scheduler.paths) ∧
      ∀ call, ∀ number ∈ scheduler.arithmetic call,
        -2 ^ 31 ≤ number ∧ number < 2 ^ 31 := by
  intro scheduler
  have sane : scheduler.Sane := sane_run calls
  have present : ∀ id, id ∈ scheduler.ids ↔ id ∈ scheduler.paths := by
    intro id
    rw [ids, OrderedMap.mem_keySet, Std.ExtTreeMap.mem_iff_isSome_getElem?,
      Option.isSome_iff_exists]
  have chosen : ∀ order id, (scheduler.next order).1 = some id →
      id ∈ scheduler.paths := by
    intro order id returned
    by_cases empty : scheduler.ids = ∅
    · rw [next_of_empty empty] at returned
      cases returned
    · obtain ⟨pid, selects, result⟩ := next_of_nonempty empty order
      rw [result] at returned
      cases returned
      exact (present id).mp selects.member
  refine ⟨sane.total, ?_, chosen, sane.arithmetic_inI32⟩
  intro order
  constructor
  · intro returns
    obtain ⟨id, returned⟩ := returns
    exact ⟨id, chosen order id returned⟩
  · intro occupied
    obtain ⟨id, member⟩ := occupied
    have nonempty : scheduler.ids ≠ ∅ :=
      Finset.ne_empty_of_mem ((present id).mpr member)
    obtain ⟨pid, -, result⟩ := next_of_nonempty nonempty order
    exact ⟨pid, congrArg Prod.fst result⟩

end NyxNet.Stream.WeightedRrScheduler
