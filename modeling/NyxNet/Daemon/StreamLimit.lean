import NyxNet.Daemon.StreamManager
import Mathlib.Logic.Relation
import Mathlib.Order.Bounds.Defs

/-!
# The limit on streams

`open_stream` of `nyx-daemon/src/stream_manager.rs` checks the limit before it
inserts the session.  Calls that have begun their check and have not inserted yet
can exceed it together, by one less than their number.
-/

namespace NyxNet.Streams

open KeyedTable TaskPool

variable {config : StreamManagerConfig} {shards : Shards}

/-- The call has begun its check and has not inserted yet. -/
def Task.underWay : Task → Nat
  | .checking _ shard _ => if shard = 0 then 0 else 1
  | .numbering _ => 1
  | .inserting _ _ => 1
  | _ => 0

/-- The call has passed its check and has not inserted yet. -/
def Task.admitted : Task → Nat
  | .numbering _ => 1
  | .inserting _ _ => 1
  | _ => 0

/-- The check has begun and would come to no more than `bound` if nothing changed
any more. -/
def Task.pending (shards : Shards) (bound : Nat) (manager : StreamManager) :
    Task → Nat
  | .checking _ shard sum =>
      if shard ≠ 0 ∧ sum + shards.sizeFrom manager.streams shard ≤ bound then 1
      else 0
  | _ => 0

/-- The calls that have begun their check and have not inserted yet. -/
def underWay (pool : Pool StreamManager Task) : Nat :=
  (pool.tasks.map Task.underWay).sum

/-- At no moment of the run more than that many calls have begun their check and
have not inserted yet. -/
def AtMostUnderWay (config : StreamManagerConfig) (shards : Shards)
    (calls : Nat) (actions : List (Action Request Input)) : Prop :=
  ∀ before, before <+: actions →
    underWay (finalPool config shards before) ≤ calls

/-- The streams, the calls that are going to add one, and the checks that may
still pass below the bound. -/
def expected (shards : Shards) (bound : Nat)
    (pool : Pool StreamManager Task) : Nat :=
  size pool.shared.streams + (pool.tasks.map Task.admitted).sum +
    (pool.tasks.map (Task.pending shards bound pool.shared)).sum

theorem expected_le (shards : Shards) (bound : Nat)
    (pool : Pool StreamManager Task) :
    expected shards bound pool ≤ size pool.shared.streams + underWay pool := by
  rw [expected, Nat.add_assoc, underWay, ← List.sum_map_add]
  refine Nat.add_le_add_left (List.sum_le_sum fun task _ => ?_) _
  cases task with
  | checking request shard sum =>
      simp only [Task.admitted, Task.pending, Task.underWay]
      split_ifs <;> simp_all
  | _ => simp [Task.admitted, Task.pending, Task.underWay]

/-- A check that has as much ahead of it, up to the change of the bound. -/
theorem pending_mono {before after : StreamManager} {bound more : Nat}
    (ahead : ∀ shard, shards.sizeFrom before.streams shard + bound ≤
      shards.sizeFrom after.streams shard + more) (task : Task) :
    task.pending shards bound after ≤ task.pending shards more before := by
  cases task with
  | checking request shard sum =>
      have here := ahead shard
      simp only [Task.pending]
      by_cases small : shard ≠ 0 ∧
          sum + shards.sizeFrom after.streams shard ≤ bound
      · have still : shard ≠ 0 ∧
            sum + shards.sizeFrom before.streams shard ≤ more :=
          ⟨small.1, by omega⟩
        rw [if_pos small, if_pos still]
      · rw [if_neg small]
        exact Nat.zero_le _
  | _ => exact le_refl _

/-- A stream less lets a check come to one less. -/
theorem pending_erase (shards : Shards) (bound : Nat) (manager : StreamManager)
    (streamId : UInt32) (task : Task) :
    task.pending shards bound
        (manager.withStreams (manager.streams.erase streamId)) ≤
      task.pending shards
        (bound + if streamId ∈ manager.streams then 1 else 0) manager := by
  refine pending_mono (fun shard => ?_) task
  have ahead := shards.sizeOf_erase manager.streams (shard ≤ ·) streamId
  simp only [StreamManager.withStreams, KeyedTable.Shards.sizeFrom, ← ahead]
  by_cases stored : streamId ∈ manager.streams
  · simp only [stored, true_and, if_true]
    split <;> omega
  · simp only [stored, false_and, if_false]
    omega

theorem pending_insert (shards : Shards) (bound : Nat) (manager : StreamManager)
    (streamId : UInt32) (session : StreamSession) (task : Task) :
    task.pending shards bound
        (manager.withStreams (manager.streams.insert streamId session)) ≤
      task.pending shards bound manager := by
  refine pending_mono (fun shard => ?_) task
  have ahead :=
    shards.sizeOf_insert manager.streams (shard ≤ ·) streamId session
  simp only [StreamManager.withStreams, KeyedTable.Shards.sizeFrom]
  by_cases stored : streamId ∈ manager.streams
  · simp only [stored, true_and] at ahead
    omega
  · simp only [stored, false_and, if_false] at ahead
    omega

/-- The streams that a step adds were expected, unless it begins a check that finds
no more than the bound. -/
def Expects (shards : Shards) (bound : Nat) (before : StreamManager)
    (task : Task) (after : StreamManager) (rest : Task) : Prop :=
  ∃ fewer, (∀ other : Task, other.pending shards bound after ≤
      other.pending shards (bound + fewer) before) ∧
    (size after.streams + rest.admitted + rest.pending shards bound after +
        fewer ≤
      size before.streams + task.admitted + task.pending shards bound after ∨
      size after.streams ≤ bound)

theorem expects_of_moves {before after : StreamManager} {input : Input}
    {task rest : Task} {event : Event} {bound : Nat}
    (moves : Moves config shards before input task event after rest)
    (large : config.maxConcurrentStreams.toNat - 1 ≤ bound) :
    Expects shards bound before task after rest := by
  cases moves with
  | readShard request shard sum among =>
      refine ⟨0, fun _ => le_refl _, ?_⟩
      have ahead := shards.sizeIn_add_sizeFrom before.streams shard
      simp only [Task.admitted, Task.pending, Nat.add_assoc sum, ahead]
      by_cases begins : shard = 0
      · have whole := shards.sizeFrom_zero before.streams
        rw [← begins] at whole
        split_ifs <;> omega
      · left
        split_ifs <;> omega
  | admitted request shard sum all room =>
      refine ⟨0, fun _ => le_refl _, Or.inl ?_⟩
      have some : shard ≠ 0 := by
        have among := (shards.shardOf 0).isLt
        omega
      have nothing := shards.sizeFrom_of_count_le before.streams shard all
      have passes : shard ≠ 0 ∧
          sum + shards.sizeFrom before.streams shard ≤ bound := by
        rw [nothing]
        exact ⟨some, by omega⟩
      simp only [Task.admitted, Task.pending, if_pos passes]
      omega
  | refused request shard sum all full =>
      refine ⟨0, fun _ => le_refl _, Or.inl ?_⟩
      simp only [Task.admitted, Task.pending]
      omega
  | inserted targetAddress session =>
      have grown := size_insert before.streams session.streamId session
      refine ⟨0, pending_insert shards bound before _ session, Or.inl ?_⟩
      simp only [StreamManager.withStreams, Task.admitted, Task.pending]
      omega
  | removed streamId | missed streamId | expired _ _ streamId
  | vanished _ _ streamId =>
      have shrunk := size_erase before.streams streamId
      refine ⟨_, pending_erase shards bound before streamId, Or.inl ?_⟩
      simp only [StreamManager.withStreams, Task.admitted, Task.pending]
      omega
  | numbered | misdirected =>
      refine ⟨0, fun _ => le_refl _, Or.inl ?_⟩
      simp [Task.admitted, Task.pending, StreamManager.drawNumber]
  | _ => exact ⟨0, fun _ => le_refl _, Or.inl (le_refl _)⟩

theorem sum_map_set {pool : Pool StreamManager Task} {index : Nat}
    {task : Task} (present : pool.tasks[index]? = some task) (other : Task)
    (weight : Task → Nat) :
    ((pool.tasks.set index other).map weight).sum + weight task =
      (pool.tasks.map weight).sum + weight other := by
  have owed := sum_map_resume weight present
    (⟨.scanEnded, pool.shared, other, []⟩ : Turn StreamManager Task Event)
  rw [Pool.resume, List.append_nil, List.map_nil, List.sum_nil,
    Nat.add_zero] at owed
  exact owed

/-- The step of a call keeps what is expected within the bound and the calls. -/
theorem expected_resume {pool : Pool StreamManager Task} {calls bound index : Nat}
    {task rest : Task} {after : StreamManager}
    (present : pool.tasks[index]? = some task)
    (expects : Expects shards bound pool.shared task after rest)
    (few : underWay ⟨after, pool.tasks.set index rest⟩ ≤ calls)
    (within : ∀ more, bound ≤ more → expected shards more pool ≤ more + calls) :
    expected shards bound ⟨after, pool.tasks.set index rest⟩ ≤
      bound + calls := by
  obtain ⟨fewer, pending, accounted | small⟩ := expects
  · have before := within (bound + fewer) (Nat.le_add_right _ _)
    have others : (pool.tasks.map (Task.pending shards bound after)).sum ≤
        (pool.tasks.map
          (Task.pending shards (bound + fewer) pool.shared)).sum :=
      List.sum_le_sum fun other _ => pending other
    have admitted := sum_map_set present rest Task.admitted
    have checks := sum_map_set present rest (Task.pending shards bound after)
    rw [expected] at before ⊢
    dsimp only
    omega
  · have most := expected_le shards bound ⟨after, pool.tasks.set index rest⟩
    dsimp only at most
    omega

/-- A call that joins is not under way yet. -/
theorem launch_weights (shards : Shards) (bound : Nat) (manager : StreamManager)
    (request : Request) :
    (launch request).admitted = 0 ∧
      (launch request).pending shards bound manager = 0 ∧
      (launch request).underWay = 0 := by
  cases request <;> simp [launch, Task.admitted, Task.pending, Task.underWay]

theorem expected_join (shards : Shards) (bound : Nat)
    (pool : Pool StreamManager Task) (request : Request) :
    expected shards bound (pool.join (launch request)) =
      expected shards bound pool := by
  obtain ⟨admitted, pending, -⟩ :=
    launch_weights shards bound pool.shared request
  simp [expected, Pool.join, admitted, pending]

theorem underWay_join (pool : Pool StreamManager Task) (request : Request) :
    underWay (pool.join (launch request)) = underWay pool := by
  have nothing : (launch request).underWay = 0 := by
    cases request <;> rfl
  rw [underWay, Pool.join, List.map_append, List.sum_append, List.map_cons,
    nothing]
  rfl

/-- The streams and the calls that are going to add one. -/
theorem expected_run {calls : Nat} (actions : List (Action Request Input))
    (few : AtMostUnderWay config shards calls actions) {bound : Nat}
    (large : config.maxConcurrentStreams.toNat - 1 ≤ bound) :
    expected shards bound (finalPool config shards actions) ≤ bound + calls := by
  induction actions using List.reverseRecOn generalizing bound with
  | nil => exact Nat.zero_le _
  | append_singleton actions action ih =>
      have earlier : ∀ more, bound ≤ more →
          expected shards more (finalPool config shards actions) ≤
            more + calls := by
        intro more further
        refine ih ?_ (large.trans further)
        intro before isPrefix
        exact few before (isPrefix.trans (List.prefix_append _ _))
      have now := few _ (List.prefix_refl _)
      rw [finalPool, Trace.final_append, ← finalPool] at now ⊢
      generalize finalPool config shards actions = pool at earlier now ⊢
      have moved := perform_moved (program config shards) pool action
      simp only [Trace.final] at now ⊢
      generalize perform (program config shards) pool action = outcome
        at moved now ⊢
      cases moved with
      | called request =>
          exact (expected_join shards bound pool request).trans_le
            (earlier bound (le_refl _))
      | waited index input blocked => exact earlier bound (le_refl _)
      | turned index input task turned present taken =>
          obtain ⟨moves, alone⟩ := turn_moves taken
          dsimp only [Pool.resume] at now ⊢
          rw [alone, List.append_nil] at now ⊢
          exact expected_resume present (expects_of_moves moves large) now
            earlier

/-- One action after which not too many calls are under way. -/
def Advances (config : StreamManagerConfig) (shards : Shards) (calls : Nat)
    (pool after : Pool StreamManager Task) : Prop :=
  underWay after ≤ calls ∧ ∃ action : Action Request Input,
    (perform (program config shards) pool action).2 = after

theorem exists_run_of_advances {calls : Nat}
    {after : Pool StreamManager Task}
    (advances : Relation.ReflTransGen (Advances config shards calls) start
      after) :
    ∃ actions, finalPool config shards actions = after ∧
      AtMostUnderWay config shards calls actions := by
  induction advances with
  | refl =>
      refine ⟨[], rfl, ?_⟩
      intro before isPrefix
      rw [List.prefix_nil.mp isPrefix]
      exact Nat.zero_le _
  | @tail middle after _ last ih =>
      obtain ⟨actions, reaches, few⟩ := ih
      obtain ⟨fewNow, action, performed⟩ := last
      have whole : finalPool config shards (actions ++ [action]) = after := by
        rw [finalPool, Trace.final_append, ← finalPool, reaches]
        exact performed
      refine ⟨actions ++ [action], whole, ?_⟩
      intro before isPrefix
      rcases List.prefix_concat_iff.mp isPrefix with same | earlier
      · rw [same, whole]
        exact fewNow
      · exact few before earlier

theorem underWay_set {pool : Pool StreamManager Task} {index : Nat}
    {task : Task} (present : pool.tasks[index]? = some task)
    (shared : StreamManager) (other : Task) :
    underWay ⟨shared, pool.tasks.set index other⟩ + task.underWay =
      underWay pool + other.underWay :=
  sum_map_set present other Task.underWay

theorem underWay_concat (shared : StreamManager) (tasks : List Task)
    (task : Task) :
    underWay ⟨shared, tasks ++ [task]⟩ =
      (tasks.map Task.underWay).sum + task.underWay := by
  simp [underWay]

/-- The call that has joined last reads the shards that are left. -/
theorem advances_reading (config : StreamManagerConfig)
    (manager : StreamManager) {tasks : List Task} {calls : Nat}
    (few : (tasks.map Task.underWay).sum < calls) (request : OpenRequest)
    (input : Input) (left : Nat) {shard : Nat} (sum : Nat)
    (fits : shard + left = shards.count) :
    Relation.ReflTransGen (Advances config shards calls)
      ⟨manager, tasks ++ [.checking request shard sum]⟩
      ⟨manager, tasks ++ [.checking request shards.count
        (sum + shards.sizeFrom manager.streams shard)]⟩ := by
  induction left generalizing shard sum with
  | zero =>
      have all : shard = shards.count := fits
      rw [all, shards.sizeFrom_of_count_le _ _ (le_refl _), Nat.add_zero]
  | succ left ih =>
      have among : shard < shards.count := by omega
      have behind : shard + 1 + left = shards.count := by omega
      have rest := ih (sum + shards.sizeIn manager.streams shard) behind
      rw [Nat.add_assoc, shards.sizeIn_add_sizeFrom] at rest
      refine .head ⟨?_, .run tasks.length input, ?_⟩ rest
      · rw [underWay_concat]
        exact few
      · rw [perform_readShard among]

/-- That many streams, numbered one after the other, and that many calls that have
passed the check and not drawn a number yet. -/
structure Filled (request : OpenRequest) (live waiting : Nat)
    (pool : Pool StreamManager Task) : Prop where
  stored : size pool.shared.streams = live
  numbered : pool.shared.nextStreamId = UInt32.ofNat (live + 1)
  below : ∀ streamId ∈ pool.shared.streams, streamId.toNat ≤ live
  calls : underWay pool = waiting
  waiting : pool.tasks.count (.numbering request) = waiting

variable {request : OpenRequest} {calls live waiting : Nat}
  {pool : Pool StreamManager Task}

/-- Another call passes the check. -/
theorem Filled.admit (config : StreamManagerConfig) (shards : Shards)
    (filled : Filled request live waiting pool)
    (room : live < config.maxConcurrentStreams.toNat)
    (few : waiting < calls) (input : Input) :
    ∃ after, Filled request live (waiting + 1) after ∧
      Relation.ReflTransGen (Advances config shards calls) pool after := by
  have called : Advances config shards calls pool
      (pool.join (.checking request 0 0)) := by
    refine ⟨?_, .call (.openStream request), rfl⟩
    have same := underWay_join pool (.openStream request)
    rw [launch] at same
    rw [same, filled.calls]
    exact Nat.le_of_lt few
  have others : (pool.tasks.map Task.underWay).sum = waiting := filled.calls
  have reads := advances_reading config pool.shared (others.trans_lt few)
    request input shards.count 0 (Nat.zero_add _)
  rw [shards.sizeFrom_zero, filled.stored, Nat.zero_add] at reads
  have moreUnderWay : underWay
      ⟨pool.shared, pool.tasks ++ [.numbering request]⟩ = waiting + 1 := by
    rw [underWay_concat, others]
    rfl
  have passed : Advances config shards calls
      ⟨pool.shared, pool.tasks ++ [.checking request shards.count live]⟩
      ⟨pool.shared, pool.tasks ++ [.numbering request]⟩ := by
    refine ⟨moreUnderWay.trans_le few, .run pool.tasks.length input, ?_⟩
    rw [perform_admitted room]
  refine ⟨⟨pool.shared, pool.tasks ++ [.numbering request]⟩, ?_,
    .head called (.tail reads passed)⟩
  refine ⟨filled.stored, filled.numbered, filled.below, moreUnderWay, ?_⟩
  rw [List.count_append, filled.waiting]
  simp

/-- One of them draws a number and inserts its session. -/
theorem Filled.insert (config : StreamManagerConfig) (shards : Shards)
    (filled : Filled request live (waiting + 1) pool)
    {target : SocketAddr}
    (valid : SocketAddr.fromStr request.targetAddress = some target)
    (fits : live + 1 < 4294967296) (few : waiting < calls) (input : Input) :
    ∃ after, Filled request (live + 1) waiting after ∧
      Relation.ReflTransGen (Advances config shards calls) pool after := by
  obtain ⟨index, present⟩ : ∃ index : Nat,
      pool.tasks[index]? = some (.numbering request) := by
    apply List.getElem?_of_mem
    rw [← List.count_pos_iff, filled.waiting]
    exact Nat.succ_pos waiting
  obtain ⟨session, sessionEq⟩ : ∃ session, session =
      newSession config request target pool.shared.nextStreamId input :=
    ⟨_, rfl⟩
  have inRange := (List.getElem?_eq_some_iff.mp present).1
  have draws : turn config shards pool.shared (.numbering request) input =
      some ⟨.numbered pool.shared.nextStreamId true, pool.shared.drawNumber,
        .inserting request.targetAddress session, []⟩ := by
    simp only [turn, valid, sessionEq]
    rfl
  have drawn : Advances config shards calls pool
      ⟨pool.shared.drawNumber,
        pool.tasks.set index (.inserting request.targetAddress session)⟩ := by
    refine ⟨?_, .run index input, ?_⟩
    · have same := underWay_set present pool.shared.drawNumber
        (.inserting request.targetAddress session)
      rw [filled.calls] at same
      exact (Nat.add_right_cancel same).trans_le few
    · rw [perform_run present draws]
      simp [Pool.resume]
  have inserts : turn config shards pool.shared.drawNumber
      (.inserting request.targetAddress session) input =
        some ⟨.inserted session (session.streamId ∈ pool.shared.streams),
          pool.shared.drawNumber.withStreams
            (pool.shared.streams.insert session.streamId session),
          .counting request.targetAddress session.streamId, []⟩ := rfl
  have fewer := underWay_set present
    (pool.shared.drawNumber.withStreams
      (pool.shared.streams.insert session.streamId session))
    (.counting request.targetAddress session.streamId)
  rw [filled.calls] at fewer
  have inserted : Advances config shards calls
      ⟨pool.shared.drawNumber,
        pool.tasks.set index (.inserting request.targetAddress session)⟩
      ⟨pool.shared.drawNumber.withStreams
        (pool.shared.streams.insert session.streamId session),
        pool.tasks.set index
          (.counting request.targetAddress session.streamId)⟩ := by
    refine ⟨(Nat.add_right_cancel fewer).trans_le (Nat.le_of_lt few),
      .run index input, ?_⟩
    rw [perform_run (List.getElem?_set_self inRange) inserts]
    simp [Pool.resume]
  have sameId : session.streamId = UInt32.ofNat (live + 1) := by
    rw [sessionEq, ← filled.numbered]
    rfl
  have idNat : session.streamId.toNat = live + 1 := by
    rw [sameId, UInt32.toNat_ofNat']
    exact Nat.mod_eq_of_lt fits
  have fresh : session.streamId ∉ pool.shared.streams := by
    intro member
    have small := filled.below _ member
    omega
  refine ⟨_, ⟨?_, ?_, ?_, Nat.add_right_cancel fewer, ?_⟩,
    .tail (.single drawn) inserted⟩
  · have grown := size_insert pool.shared.streams session.streamId session
    rw [if_neg fresh, filled.stored] at grown
    exact grown
  · have drawnNext : pool.shared.drawNumber.nextStreamId =
        UInt32.ofNat (live + 1) + 1 := by
      rw [← filled.numbered]
      rfl
    exact drawnNext.trans (UInt32.ofNat_add (live + 1) 1).symm
  · intro streamId member
    rcases (AList.mem_insert _).mp member with same | earlier
    · rw [same, idNat]
    · exact Nat.le_succ_of_le (filled.below streamId earlier)
  · have here : pool.tasks[index] = .numbering request :=
      (List.getElem?_eq_some_iff.mp present).2
    rw [List.count_set inRange, here, filled.waiting]
    simp

theorem filled_start : Filled request 0 0 start := by
  refine ⟨rfl, rfl, ?_, rfl, rfl⟩
  intro streamId member
  cases member

section Reaching

variable {target : SocketAddr}

/-- So many streams, opened one after the other. -/
theorem exists_filled_live (config : StreamManagerConfig)
    (shards : Shards)
    (valid : SocketAddr.fromStr request.targetAddress = some target)
    (concurrent : 0 < calls) (input : Input) (live : Nat)
    (room : live ≤ config.maxConcurrentStreams.toNat) :
    ∃ after, Filled request live 0 after ∧
      Relation.ReflTransGen (Advances config shards calls) start after := by
  induction live with
  | zero => exact ⟨start, filled_start, .refl⟩
  | succ live ih =>
      obtain ⟨pool, filled, reached⟩ := ih (Nat.le_of_succ_le room)
      obtain ⟨middle, admitted, toMiddle⟩ :=
        filled.admit config shards room concurrent input
      have fits : live + 1 < 4294967296 :=
        Nat.lt_of_le_of_lt room config.maxConcurrentStreams.toNat_lt
      obtain ⟨after, inserted, toAfter⟩ :=
        admitted.insert config shards valid fits concurrent input
      exact ⟨after, inserted, reached.trans (toMiddle.trans toAfter)⟩

/-- So many calls pass the check beside each other. -/
theorem exists_filled_waiting (config : StreamManagerConfig)
    (shards : Shards) (filled : Filled request live 0 pool)
    (room : live < config.maxConcurrentStreams.toNat) (input : Input)
    (waiting : Nat) (few : waiting ≤ calls) :
    ∃ after, Filled request live waiting after ∧
      Relation.ReflTransGen (Advances config shards calls) pool after := by
  induction waiting with
  | zero => exact ⟨pool, filled, .refl⟩
  | succ waiting ih =>
      obtain ⟨middle, admitted, toMiddle⟩ := ih (Nat.le_of_succ_le few)
      obtain ⟨after, more, toAfter⟩ := admitted.admit config shards room few input
      exact ⟨after, more, toMiddle.trans toAfter⟩

/-- All of them insert. -/
theorem exists_filled_inserted (config : StreamManagerConfig)
    (shards : Shards)
    (valid : SocketAddr.fromStr request.targetAddress = some target)
    (input : Input) (filled : Filled request live waiting pool)
    (few : waiting ≤ calls) (fits : live + waiting < 4294967296) :
    ∃ after, Filled request (live + waiting) 0 after ∧
      Relation.ReflTransGen (Advances config shards calls) pool after := by
  induction waiting generalizing live pool with
  | zero => exact ⟨pool, filled, .refl⟩
  | succ waiting ih =>
      obtain ⟨middle, inserted, toMiddle⟩ :=
        filled.insert config shards valid (by omega) few input
      obtain ⟨after, all, toAfter⟩ :=
        ih inserted (Nat.le_of_succ_le few) (by omega)
      rw [Nat.add_right_comm] at all
      exact ⟨after, all, toMiddle.trans toAfter⟩

end Reaching

/-- The most streams that can be open while never more than that many calls have
begun their check and have not inserted yet. -/
theorem most_streams (config : StreamManagerConfig) (shards : Shards)
    (calls : Nat) (limited : 0 < config.maxConcurrentStreams.toNat)
    (concurrent : 0 < calls)
    (fits : config.maxConcurrentStreams.toNat - 1 + calls < 4294967296) :
    IsGreatest {live | ∃ actions, AtMostUnderWay config shards calls actions ∧
        size (finalPool config shards actions).shared.streams = live}
      (config.maxConcurrentStreams.toNat - 1 + calls) := by
  constructor
  · -- Up to one below the limit one after the other, and the rest together.
    let request : OpenRequest := ⟨"10.0.0.1:443", none⟩
    obtain ⟨target, valid⟩ : ∃ target,
        SocketAddr.fromStr request.targetAddress = some target :=
      Option.isSome_iff_exists.mp (by decide)
    let input : Input := ⟨SystemTime.unixEpoch, Vector.replicate 12 0, 0, 0⟩
    obtain ⟨alone, filled, toAlone⟩ :=
      exists_filled_live config shards valid concurrent input
        (config.maxConcurrentStreams.toNat - 1) (Nat.sub_le _ _)
    obtain ⟨beside, waiting, toBeside⟩ :=
      exists_filled_waiting config shards filled (by omega) input calls
        (Nat.le_refl _)
    obtain ⟨after, inserted, toAfter⟩ :=
      exists_filled_inserted config shards valid input waiting (Nat.le_refl _)
        fits
    obtain ⟨actions, reaches, few⟩ := exists_run_of_advances
      (toAlone.trans (toBeside.trans toAfter))
    exact ⟨actions, few, by rw [reaches, inserted.stored]⟩
  · rintro live ⟨actions, few, same⟩
    have bounded := expected_run actions few (le_refl _)
    rw [expected] at bounded
    omega

/-- Two calls that overlap are one stream too many. -/
theorem most_streams_default :
    IsGreatest {live | ∃ actions,
        AtMostUnderWay .default .single 2 actions ∧
          size (finalPool .default .single actions).shared.streams =
            live}
      (StreamManagerConfig.default.maxConcurrentStreams.toNat - 1 + 2) :=
  most_streams .default .single 2 (by decide) (by decide) (by decide)

end NyxNet.Streams
