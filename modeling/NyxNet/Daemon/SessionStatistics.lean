import NyxNet.Daemon.SessionManager

/-!
# Statistics of the session manager

The counters of `nyx-daemon/src/session_manager.rs` when no call is under way.
`create_session` and the cleanup pass count the stored sessions after they have
changed them; `remove_session` does not, so the number is wrong from then until
one of the others has counted the shard again.  `close_session` would count, but
it hangs before it has removed anything.
-/

namespace NyxNet.Sessions

open KeyedTable TaskPool

variable {config : SessionManagerConfig} {shards : Shards}

namespace Event

def isInsertion : Event → Bool
  | .inserted _ _ => true
  | _ => false

def isReplacement : Event → Bool
  | .inserted _ replaced => replaced
  | _ => false

def isRemoval : Event → Bool
  | .removed _ found => found
  | _ => false

def isExpiry : Event → Bool
  | .expired _ session _ _ => session.isSome
  | _ => false

end Event

/-- A call of `remove_session` takes a session out of its shard, and the holder of
the lock on the statistics counts the shard. -/
def trackRemoval (shards : Shards) (removed : List (Fin shards.count)) :
    Event → List (Fin shards.count)
  | .removed cid true => shards.shardOf cid :: removed
  | .measured shard => removed.filter fun other => other.val ≠ shard
  | _ => removed

/-- The shards of the sessions that `remove_session` has removed since the shard
was last counted for the statistics. -/
def unrecorded (shards : Shards) (events : List Event) :
    List (Fin shards.count) :=
  events.foldl (trackRemoval shards) []

theorem unrecorded_concat (shards : Shards) (events : List Event)
    (event : Event) :
    unrecorded shards (events ++ [event]) =
      trackRemoval shards (unrecorded shards events) event := by
  simp only [unrecorded, List.foldl_append, List.foldl_cons, List.foldl_nil]

namespace Task

/-- A session is inserted and not counted yet. -/
def owesCreated : Task → Nat
  | .recordingCreated _ => 1
  | _ => 0

def owesExpired : Task → Nat
  | .recordingExpired _ _ => 1
  | _ => 0

/-- The call is going to count the sessions. -/
def owesRecord : Task → Nat
  | .recordingCreated _ => 1
  | .recordingExpired _ _ => 1
  | _ => 0

/-- The call holds the lock on the statistics. -/
def holdsStatistics : Task → Nat
  | .countingCreated _ => 1
  | .countingExpired _ _ => 1
  | _ => 0

end Task

theorem toNat_asU32 (count : Nat) :
    (asU32 count).toNat = if count < 4294967296 then count else 0 := by
  unfold asU32
  split
  · next small =>
      rw [UInt32.toNat_ofNat']
      exact Nat.mod_eq_of_lt small
  · rfl

/-- The number that was written, or the sum that the holder of the lock has come
to, is that of the sessions that are stored and of those removed since. -/
def Tallied (shards : Shards) (manager : SessionManager)
    (removed : List (Fin shards.count)) : Prop :=
  match manager.counting with
  | none =>
      manager.statistics.activeSessions =
        asU32 (size manager.sessions + removed.length)
  | some (shard, sum) =>
      sum = shards.sizeBelow manager.sessions shard +
        removed.countP (fun other => other.val < shard)

theorem Tallied.of_same {before after : SessionManager}
    {removed : List (Fin shards.count)} (tallied : Tallied shards before removed)
    (counting : after.counting = before.counting)
    (statistics : after.statistics = before.statistics)
    (sizes : ∀ (selects : Nat → Prop) [DecidablePred selects],
      shards.sizeOf after.sessions selects =
        shards.sizeOf before.sessions selects) :
    Tallied shards after removed := by
  have whole : size after.sessions = size before.sessions :=
    sizes (fun _ => True)
  unfold Tallied at tallied ⊢
  rw [counting]
  split at tallied
  · rw [statistics, whole]
    exact tallied
  · rw [KeyedTable.Shards.sizeBelow, sizes]
    exact tallied

/-- A shard joins the count. -/
theorem Tallied.measure {manager : SessionManager}
    {removed : List (Fin shards.count)}
    (tallied : Tallied shards manager removed) {shard sum : Nat}
    (counted : manager.counting = some (shard, sum)) :
    Tallied shards (manager.measureShard shards shard sum)
      (removed.filter fun other => other.val ≠ shard) := by
  unfold Tallied at tallied
  rw [counted] at tallied
  simp only [Tallied, SessionManager.measureShard, shards.sizeBelow_succ,
    List.countP_filter]
  have same : removed.countP (fun other =>
      decide (other.val < shard + 1) && decide (other.val ≠ shard)) =
        removed.countP (fun other => decide (other.val < shard)) := by
    refine List.countP_congr fun other _ => ?_
    simp only [Bool.and_eq_true, decide_eq_true_eq]
    omega
  rw [same, tallied]
  omega

/-- A count that has come through is written. -/
theorem Tallied.record {manager : SessionManager}
    {removed : List (Fin shards.count)}
    (tallied : Tallied shards manager removed) {shard sum : Nat}
    (counted : manager.counting = some (shard, sum))
    (all : shards.count ≤ shard) :
    Tallied shards (manager.record sum) removed := by
  unfold Tallied at tallied
  rw [counted] at tallied
  have every : removed.countP (fun other => decide (other.val < shard)) =
      removed.length := by
    refine List.countP_eq_length.mpr fun other _ => ?_
    exact decide_eq_true (Nat.lt_of_lt_of_le other.isLt all)
  simp only [shards.sizeBelow_of_count_le _ _ all, every] at tallied
  simp only [Tallied, SessionManager.record, tallied]

theorem Tallied.erase {manager : SessionManager}
    {removed : List (Fin shards.count)}
    (tallied : Tallied shards manager removed) {cid : ConnectionId}
    (stored : cid ∈ manager.sessions) :
    Tallied shards (manager.withSessions (manager.sessions.erase cid))
      (shards.shardOf cid :: removed) := by
  unfold Tallied at tallied ⊢
  split at tallied
  · next none =>
      have erased := size_erase manager.sessions cid
      rw [if_pos stored] at erased
      simp only [SessionManager.withSessions, none, List.length_cons]
      rw [tallied, ← erased, Nat.add_assoc, Nat.add_comm 1]
  · next shard sum counted =>
      have below := shards.sizeOf_erase manager.sessions (· < shard) cid
      simp only [stored, true_and] at below
      simp only [SessionManager.withSessions, counted, List.countP_cons,
        decide_eq_true_eq, KeyedTable.Shards.sizeBelow] at tallied ⊢
      omega

/-- What one step changes in the books. -/
structure Entry (shards : Shards) (before : SessionManager) (task : Task)
    (event : Event) (after : SessionManager) (rest : Task) : Prop where
  created : after.statistics.totalSessionsCreated + rest.owesCreated =
    before.statistics.totalSessionsCreated + task.owesCreated +
      event.isInsertion.toNat
  expired : after.statistics.expiredSessions + rest.owesExpired =
    before.statistics.expiredSessions + task.owesExpired +
      event.isExpiry.toNat
  stored : size after.sessions + event.isReplacement.toNat +
      event.isExpiry.toNat + event.isRemoval.toNat =
    size before.sessions + event.isInsertion.toNat
  holder : after.counting.isSome.toNat + task.holdsStatistics =
    before.counting.isSome.toNat + rest.holdsStatistics
  tallied : rest.owesRecord = 0 → ∀ removed,
    (task.owesRecord = 0 → Tallied shards before removed) →
      Tallied shards after (trackRemoval shards removed event)

private theorem toNat_decide (proposition : Prop) [Decidable proposition] :
    (decide proposition).toNat = if proposition then 1 else 0 := by
  split
  · next holds => rw [decide_eq_true holds, Bool.toNat_true]
  · next fails => rw [decide_eq_false fails, Bool.toNat_false]

/-- The lock has been taken and nothing is counted yet. -/
theorem tallied_lockStatistics (shards : Shards) (manager : SessionManager)
    (created expired : Nat) (removed : List (Fin shards.count)) :
    Tallied shards (manager.lockStatistics created expired) removed := by
  simp [Tallied, SessionManager.lockStatistics, shards.sizeBelow_zero]

theorem entry_of_moves {before after : SessionManager} {input : Input}
    {task rest : Task} {event : Event}
    (moves : Moves config shards before input task event after rest) :
    Entry shards before task event after rest := by
  cases moves with
  | inserted cid =>
      have grown := size_insert before.sessions cid (newSession cid input.now)
      rw [← toNat_decide] at grown
      exact ⟨rfl, rfl, grown, rfl, fun owed => by cases owed⟩
  | removed cid =>
      have erased := size_erase before.sessions cid
      rw [← toNat_decide] at erased
      refine ⟨rfl, rfl, erased, rfl, fun _ removed tallied => ?_⟩
      by_cases stored : cid ∈ before.sessions
      · rw [decide_eq_true stored]
        exact (tallied rfl).erase stored
      · rw [decide_eq_false stored]
        refine (tallied rfl).of_same rfl rfl fun selects _ => ?_
        have same := shards.sizeOf_erase before.sessions selects cid
        simp only [stored, false_and, if_false] at same
        exact same
  | expired started expired cid chosen _ session found =>
      have erased := size_erase before.sessions cid
      rw [if_pos (mem_of_lookup found)] at erased
      exact ⟨rfl, rfl, erased, rfl, fun owed => by cases owed⟩
  | vanished started expired cid chosen absent =>
      have missing := AList.lookup_eq_none.mp absent
      have erased := size_erase before.sessions cid
      rw [if_neg missing] at erased
      refine ⟨rfl, rfl, erased, rfl, fun _ removed tallied => ?_⟩
      refine (tallied rfl).of_same rfl rfl fun selects _ => ?_
      have same := shards.sizeOf_erase before.sessions selects cid
      simp only [missing, false_and, if_false] at same
      exact same
  | updated cid update session changed _ found applied =>
      have same := size_insert before.sessions cid changed
      rw [if_pos (mem_of_lookup found)] at same
      have kept := Nat.add_right_cancel same
      refine ⟨rfl, rfl, kept, rfl, fun _ removed tallied => ?_⟩
      exact (tallied rfl).of_same rfl rfl fun selects _ =>
        shards.sizeOf_replace before.sessions selects cid changed
          (mem_of_lookup found)
  | lockedCreated cid free | lockedExpired started expired free =>
      refine ⟨rfl, rfl, rfl, ?_, fun _ removed _ => ?_⟩
      · rw [free]
        rfl
      · exact tallied_lockStatistics shards before _ _ removed
  | measuredCreated cid shard sum counted
  | measuredExpired started expired shard sum counted =>
      refine ⟨rfl, rfl, rfl, ?_, fun _ removed tallied => ?_⟩
      · rw [counted]
        rfl
      · exact (tallied rfl).measure counted
  | recordedCreated cid shard sum counted all
  | recordedExpired started expired shard sum counted all =>
      refine ⟨rfl, rfl, rfl, ?_, fun _ removed tallied => ?_⟩
      · rw [counted]
        rfl
      · exact (tallied rfl).record counted all
  | _ =>
      refine ⟨rfl, rfl, rfl, rfl, fun _ removed tallied => ?_⟩
      exact (tallied rfl).of_same rfl rfl fun _ _ => rfl

/-- What is stored and counted, against the events of the run and what the
calls under way still owe. -/
structure Books (shards : Shards) (past : Past Request Input Event)
    (pool : Pool SessionManager Task) : Prop where
  created : pool.shared.statistics.totalSessionsCreated +
      (pool.tasks.map Task.owesCreated).sum =
    (events past).countP Event.isInsertion
  expired : pool.shared.statistics.expiredSessions +
      (pool.tasks.map Task.owesExpired).sum =
    (events past).countP Event.isExpiry
  stored : size pool.shared.sessions +
      (events past).countP Event.isReplacement +
      (events past).countP Event.isExpiry +
      (events past).countP Event.isRemoval =
    (events past).countP Event.isInsertion
  holder : pool.shared.counting.isSome.toNat =
    (pool.tasks.map Task.holdsStatistics).sum
  tallied : (pool.tasks.map Task.owesRecord).sum = 0 →
    Tallied shards pool.shared (unrecorded shards (events past))

theorem books_quiet {past : Past Request Input Event}
    {pool : Pool SessionManager Task} (books : Books shards past pool)
    (action : Action Request Input) :
    Books shards (past ++ [(action, none)]) pool := by
  obtain ⟨created, expired, stored, holder, tallied⟩ := books
  constructor <;> try rw [events_append_none]
  all_goals assumption

theorem books_join {past : Past Request Input Event}
    {pool : Pool SessionManager Task} (books : Books shards past pool)
    (request : Request) :
    Books shards (past ++ [(.call request, none)])
      (pool.join (launch request)) := by
  obtain ⟨created, expired, stored, holder, tallied⟩ := books
  have owesNothing : (launch request).owesCreated = 0 ∧
      (launch request).owesExpired = 0 ∧ (launch request).owesRecord = 0 ∧
        (launch request).holdsStatistics = 0 := by
    cases request <;> exact ⟨rfl, rfl, rfl, rfl⟩
  constructor <;> simpa [Pool.join, owesNothing] using by assumption

private theorem countP_concat (property : Event → Bool) (events : List Event)
    (event : Event) :
    (events ++ [event]).countP property =
      events.countP property + (property event).toNat := by
  rw [List.countP_append, List.countP_singleton]
  cases property event <;> rfl

theorem books_resume {past : Past Request Input Event}
    {pool : Pool SessionManager Task} {index : Nat} {input : Input}
    {task : Task} {turned : Turn SessionManager Task Event}
    (books : Books shards past pool)
    (present : pool.tasks[index]? = some task)
    (taken : turn config shards pool.shared task input = some turned) :
    Books shards (past ++ [(.run index input, some turned.event)])
      (pool.resume index turned) := by
  obtain ⟨moves, noneSpawned⟩ := turn_moves taken
  have entry := entry_of_moves moves
  have owed := fun weight : Task → Nat => sum_map_resume weight present turned
  simp only [noneSpawned, List.map_nil, List.sum_nil, Nat.add_zero] at owed
  obtain ⟨created, expired, stored, holder, tallied⟩ := books
  constructor
  · have step := owed Task.owesCreated
    have change := entry.created
    rw [events_append_some, countP_concat, Pool.resume_shared]
    omega
  · have step := owed Task.owesExpired
    have change := entry.expired
    rw [events_append_some, countP_concat, Pool.resume_shared]
    omega
  · have change := entry.stored
    simp only [events_append_some, countP_concat, Pool.resume_shared]
    omega
  · have step := owed Task.holdsStatistics
    have change := entry.holder
    rw [Pool.resume_shared]
    omega
  · intro settled
    have step := owed Task.owesRecord
    have own : task.owesRecord ≤ (pool.tasks.map Task.owesRecord).sum :=
      List.single_le_sum (fun _ _ => Nat.zero_le _) _
        (List.mem_map_of_mem (List.mem_of_getElem? present))
    rw [events_append_some, unrecorded_concat, Pool.resume_shared]
    refine entry.tallied (by omega) _ fun clear => ?_
    exact tallied (by omega)

theorem books_run (config : SessionManagerConfig) (shards : Shards)
    (actions : List (Action Request Input)) :
    Books shards
      (Trace.history (perform (program config shards)) start actions)
      (Trace.final (perform (program config shards)) start actions) := by
  refine invariant_on (fun _ => True) (Books shards) ?_ ?_ ?_ ?_ actions
    (fun _ _ => trivial)
  · exact ⟨rfl, rfl, rfl, rfl, fun _ => rfl⟩
  · intro past pool index input books
    exact books_quiet books (.run index input)
  · intro past pool request _ books
    exact books_join books request
  · intro past pool index input task turned _ present taken books
    exact books_resume books present taken

def Task.isReturned : Task → Bool
  | .returned _ => true
  | _ => false

/-- No call is under way. -/
def Quiescent (pool : Pool SessionManager Task) : Prop :=
  ∀ task ∈ pool.tasks, task.isReturned = true

instance Quiescent.decidable (pool : Pool SessionManager Task) :
    Decidable (Quiescent pool) :=
  inferInstanceAs (Decidable (∀ task ∈ pool.tasks, task.isReturned = true))

/-- The statistics tell how many sessions there are and where the others went;
only `remove_session` and the cleanup remove any. -/
def Exact (past : Past Request Input Event) (manager : SessionManager) : Prop :=
  manager.statistics.activeSessions.toNat = size manager.sessions ∧
    manager.statistics.totalSessionsCreated =
      manager.statistics.activeSessions.toNat +
        manager.statistics.expiredSessions +
        (events past).countP Event.isRemoval

theorem sum_owed_eq_zero {pool : Pool SessionManager Task}
    (quiescent : Quiescent pool) {weight : Task → Nat}
    (paid : ∀ outcome, weight (.returned outcome) = 0) :
    (pool.tasks.map weight).sum = 0 := by
  refine List.sum_eq_zero ?_
  intro amount member
  obtain ⟨task, isTask, rfl⟩ := List.mem_map.mp member
  have returned := quiescent task isTask
  cases task with
  | returned outcome => exact paid outcome
  | _ => cases returned

/-- In a state without calls under way the statistics are exact if no session
was removed by `remove_session` since its shard was counted, no created session
replaced another one and the number of sessions fits in 32 bits.  The number
that does not fit is written as zero, which is right if all are removed. -/
theorem statistics_exact_iff (config : SessionManagerConfig) (shards : Shards)
    (actions : List (Action Request Input))
    (quiescent : Quiescent
      (Trace.final (perform (program config shards)) start actions)) :
    Exact (Trace.history (perform (program config shards)) start actions)
        (Trace.final (perform (program config shards)) start actions).shared ↔
      (events (Trace.history (perform (program config shards)) start
        actions)).countP Event.isReplacement = 0 ∧
      (unrecorded shards (events (Trace.history
          (perform (program config shards)) start actions)) = [] ∧
        size (Trace.final (perform (program config shards)) start
          actions).shared.sessions < 4294967296 ∨
      size (Trace.final (perform (program config shards)) start
          actions).shared.sessions = 0 ∧
        4294967296 ≤ (unrecorded shards (events (Trace.history
          (perform (program config shards)) start actions))).length) := by
  obtain ⟨created, expired, stored, holder, tallied⟩ :=
    books_run config shards actions
  generalize Trace.history (perform (program config shards)) start actions =
    past at created expired stored tallied ⊢
  generalize Trace.final (perform (program config shards)) start actions =
    pool at quiescent created expired stored holder tallied ⊢
  rw [sum_owed_eq_zero quiescent (fun _ => rfl), Nat.add_zero] at created
  rw [sum_owed_eq_zero quiescent (fun _ => rfl), Nat.add_zero] at expired
  rw [sum_owed_eq_zero quiescent (fun _ => rfl)] at holder
  have written := tallied (sum_owed_eq_zero quiescent (fun _ => rfl))
  -- Nobody holds the lock, so the number has been written.
  have unlocked : pool.shared.counting = none := by
    cases counting : pool.shared.counting with
    | none => rfl
    | some progress =>
        rw [counting] at holder
        cases holder
  unfold Tallied at written
  rw [unlocked] at written
  have counted := congrArg UInt32.toNat written
  rw [toNat_asU32] at counted
  rw [Exact, created, expired, counted, ← List.length_eq_zero_iff]
  split
  · omega
  · omega

/-- A call of `close_session` that has found its session never ends, so there is
no state without calls under way any more. -/
theorem not_quiescent_of_hanging (actions : List (Action Request Input))
    {pool : Pool SessionManager Task} {cid : ConnectionId}
    (hangs : .hanging cid ∈ pool.tasks) :
    ¬ Quiescent (Trace.final (perform (program config shards)) pool
      actions) := by
  induction actions generalizing pool with
  | nil =>
      intro quiescent
      cases quiescent _ hangs
  | cons action actions ih =>
      apply ih
      have moved := perform_moved (program config shards) pool action
      generalize perform (program config shards) pool action = outcome at moved
      cases moved with
      | called request => exact Pool.mem_join.mpr (Or.inl hangs)
      | waited index input blocked => exact hangs
      | turned index input task turned present taken =>
          obtain ⟨other, found⟩ := List.getElem?_of_mem hangs
          have different : other ≠ index := by
            intro same
            rw [same, present] at found
            cases found
            cases taken
          exact List.mem_of_getElem?
            (Pool.lookup_resume_other different found)

/-- A session is created and removed, and another one is created. -/
def removedAndReplaced : List (Action Request Input) :=
  creating 0 firstCid ++
    [.call (.removeSession firstCid), drawing 1 firstCid] ++
    creating 2 secondCid

theorem statistics_exact_iff_sample :
    Quiescent (Trace.final (perform (program sampleConfig .single)) start
        removedAndReplaced) ∧
      size (Trace.final (perform (program sampleConfig .single)) start
        removedAndReplaced).shared.sessions = 1 ∧
      Exact (Trace.history (perform (program sampleConfig .single)) start
          removedAndReplaced)
        (Trace.final (perform (program sampleConfig .single)) start
          removedAndReplaced).shared := by
  have quiescent : Quiescent (Trace.final
      (perform (program sampleConfig .single)) start removedAndReplaced) := by
    decide +kernel
  have one : size (Trace.final (perform (program sampleConfig .single)) start
      removedAndReplaced).shared.sessions = 1 := by
    decide +kernel
  refine ⟨quiescent, one, ?_⟩
  refine (statistics_exact_iff sampleConfig .single removedAndReplaced
    quiescent).mpr ⟨?_, Or.inl ⟨?_, ?_⟩⟩
  · decide +kernel
  · decide +kernel
  · rw [one]
    decide

/-- A session is created and removed with `remove_session`. -/
def createdAndRemoved : List (Action Request Input) :=
  creating 0 firstCid ++
    [.call (.removeSession firstCid), drawing 1 firstCid]

theorem removed_session_counted :
    Quiescent (Trace.final (perform (program sampleConfig .single)) start
        createdAndRemoved) ∧
      size (Trace.final (perform (program sampleConfig .single)) start
        createdAndRemoved).shared.sessions = 0 ∧
      (Trace.final (perform (program sampleConfig .single)) start
        createdAndRemoved).shared.statistics.activeSessions = 1 ∧
      ¬ Exact (Trace.history (perform (program sampleConfig .single)) start
          createdAndRemoved)
        (Trace.final (perform (program sampleConfig .single)) start
          createdAndRemoved).shared := by
  have none : size (Trace.final (perform (program sampleConfig .single)) start
      createdAndRemoved).shared.sessions = 0 := by
    decide +kernel
  have one : (Trace.final (perform (program sampleConfig .single)) start
      createdAndRemoved).shared.statistics.activeSessions = 1 := by
    decide +kernel
  refine ⟨by decide +kernel, none, one, ?_⟩
  intro isExact
  have same := isExact.1
  rw [none, one] at same
  cases same

end NyxNet.Sessions
