import NyxNet.Daemon.ConfigManager
import NyxNet.Lib.RwLock
import NyxNet.Lib.TaskPool
import NyxNet.Lib.Time

/-!
# The rollback monitor

`schedule_rollback`, `confirm_changes` and `rollback_monitor_loop` of
`nyx-daemon/src/config_manager.rs`.  The monitor looks at the time of the
pending rollback under one guard and at its version under another.  The second
guard lives to the end of the `if let`, where the monitor asks for a guard for
writing.
-/

namespace NyxNet.Config

open TaskPool

variable {NyxConfig : Type}

/-- What the monitor and the calls share. -/
structure RollbackShared (NyxConfig : Type) where
  manager : ConfigManager NyxConfig
  pendingRollback : RwLock (Option (UInt64 × SystemTime))

def rollbackTimeout : Duration := .fromSecs 300

/-- Where `rollback_monitor_loop` stands: before the next tick, or at one of the
statements of its second half. -/
inductive Monitor where
  | ticking
  | reading
  | rollingBack (version : UInt64)
  | clearing
  deriving DecidableEq

inductive RollbackTask where
  | monitor (stage : Monitor)
  | scheduling (version : UInt64)
  | storing (version : UInt64) (rollbackTime : SystemTime)
  | confirming
  | returned
  | aborted
  deriving DecidableEq

inductive RollbackRequest where
  | scheduleRollback (version : UInt64)
  | confirmChanges
  deriving DecidableEq

inductive RollbackEvent where
  | checked (shouldRollback : Bool)
  | passed
  | triggered (version : UInt64) (rollbackTime now : SystemTime)
  | rolledBack (version : UInt64)
  | cleared
  | timed
  | stored (version : UInt64) (rollbackTime : SystemTime)
  | confirmed
  | aborted
  deriving DecidableEq

/-- The first half of the loop, whose guard is dropped at its end. -/
def shouldRollback (pending : Option (UInt64 × SystemTime))
    (now : SystemTime) : Bool :=
  match pending with
  | some (_, rollbackTime) => rollbackTime.asNanos ≤ now.asNanos
  | none => false

namespace RollbackShared

variable (shared : RollbackShared NyxConfig)

def withPending (pending : RwLock (Option (UInt64 × SystemTime))) :
    RollbackShared NyxConfig :=
  { shared with pendingRollback := pending }

end RollbackShared

/-- A step gets the time.  The locks of `rollback_to_version` are not held by
anyone here. -/
def rollbackTurn (shared : RollbackShared NyxConfig) (task : RollbackTask)
    (now : SystemTime) :
    Option (Turn (RollbackShared NyxConfig) RollbackTask RollbackEvent) :=
  match task with
  | .monitor .ticking =>
      let due := shouldRollback shared.pendingRollback.value now
      next (.checked due) shared
        (.monitor (if due then .reading else .ticking))
  | .monitor .reading =>
      match shared.pendingRollback.value with
      | some (version, rollbackTime) =>
          -- the guard of the scrutinee stays
          next (.triggered version rollbackTime now)
            (shared.withPending shared.pendingRollback.read)
            (.monitor (.rollingBack version))
      | none => next .passed shared (.monitor .ticking)
  | .monitor (.rollingBack version) =>
      next (.rolledBack version)
        { shared with manager := (shared.manager.rollbackToVersion version).2 }
        (.monitor .clearing)
  | .monitor .clearing =>
      match shared.pendingRollback.assign none with
      | some pending =>
          next .cleared (shared.withPending pending.drop) (.monitor .ticking)
      | none => none
  | .scheduling version =>
      match now.checkedAdd rollbackTimeout with
      | some rollbackTime => next .timed shared (.storing version rollbackTime)
      | none => next .aborted shared .aborted
  | .storing version rollbackTime =>
      match shared.pendingRollback.assign (some (version, rollbackTime)) with
      | some pending =>
          next (.stored version rollbackTime) (shared.withPending pending)
            .returned
      | none => none
  | .confirming =>
      match shared.pendingRollback.assign none with
      | some pending => next .confirmed (shared.withPending pending) .returned
      | none => none
  | .returned => none
  | .aborted => none

def rollbackProgram : Program (RollbackShared NyxConfig) RollbackTask
    RollbackRequest SystemTime RollbackEvent where
  launch
    | .scheduleRollback version => .scheduling version
    | .confirmChanges => .confirming
  turn := rollbackTurn

abbrev RollbackPast : Type := Past RollbackRequest SystemTime RollbackEvent

abbrev RollbackPool (NyxConfig : Type) : Type :=
  Pool (RollbackShared NyxConfig) RollbackTask

abbrev RollbackAction : Type := Action RollbackRequest SystemTime

/-- A manager whose monitor has been started. -/
def startedMonitor (manager : ConfigManager NyxConfig) :
    RollbackPool NyxConfig where
  shared := ⟨manager, .new none⟩
  tasks := [.monitor .ticking]

/-- The guards on the pending rollback that the monitor holds between its
steps. -/
def Monitor.guards : Monitor → Nat
  | .rollingBack _ | .clearing => 1
  | .ticking | .reading => 0

def RollbackTask.guards : RollbackTask → Nat
  | .monitor stage => stage.guards
  | _ => 0

/-- The next statement of the task asks for a guard on the pending rollback. -/
def RollbackTask.asksForGuard : RollbackTask → Bool
  | .monitor .ticking | .monitor .reading | .monitor .clearing |
    .storing .. | .confirming => true
  | _ => false

/-- The monitor has read a version to roll back to. -/
def Triggered (past : RollbackPast) (position index : Nat) (version : UInt64)
    (rollbackTime now : SystemTime) : Prop :=
  Did past position index (.triggered version rollbackTime now)

/-- The pending entry is stored or taken away. -/
def ReplacesEntry : RollbackEvent → Prop
  | .stored .. | .confirmed | .cleared => True
  | _ => False

/-- When the monitor reads the version to roll back to, it is that of the entry
stored last, whose time has passed; no task waits for a guard while it holds
one; and after a version has been read the entry can still be cleared. -/
structure SafeRollback (past : RollbackPast) (pool : RollbackPool NyxConfig) :
    Prop where
  pending : ∀ position index version rollbackTime now,
    Triggered past position index version rollbackTime now →
      Trace.Since (· = .stored version rollbackTime) ReplacesEntry
        (events (past.take position))
  timely : ∀ position index version rollbackTime now,
    Triggered past position index version rollbackTime now →
      rollbackTime.asNanos ≤ now.asNanos
  free : ∀ task ∈ pool.tasks, ¬ (0 < task.guards ∧ task.asksForGuard = true)
  clearable : ∀ position index version rollbackTime now,
    Triggered past position index version rollbackTime now →
      ∃ more later, position < later ∧
        Did (past ++ Trace.history (perform rollbackProgram) pool more) later
          index .cleared

/-- The monitor does not find an entry when it comes to read a version. -/
def FindsNothing (pool : RollbackPool NyxConfig) : RollbackAction → Prop
  | .call _ => True
  | .run index _ => pool.tasks[index]? = some (.monitor .reading) →
      pool.shared.pendingRollback.value = none

def RollbackTask.isMonitor : RollbackTask → Bool
  | .monitor _ => true
  | _ => false

/-- The events of the monitor alone. -/
def RollbackEvent.ofMonitor : RollbackEvent → Bool
  | .triggered .. | .cleared => true
  | _ => false

/-- Everything that a step does to the pending rollback. -/
inductive RollbackMoves (shared : RollbackShared NyxConfig) :
    RollbackTask → RollbackEvent → RollbackShared NyxConfig →
      RollbackTask → Prop where
  | checked (due : Bool) (rest : Monitor) (guardless : rest.guards = 0) :
      RollbackMoves shared (.monitor .ticking) (.checked due) shared
        (.monitor rest)
  | passed (nothing : shared.pendingRollback.value = none) :
      RollbackMoves shared (.monitor .reading) .passed shared
        (.monitor .ticking)
  | triggered (version : UInt64) (rollbackTime now : SystemTime)
      (entry : shared.pendingRollback.value = some (version, rollbackTime)) :
      RollbackMoves shared (.monitor .reading)
        (.triggered version rollbackTime now)
        (shared.withPending shared.pendingRollback.read)
        (.monitor (.rollingBack version))
  | rolledBack (version : UInt64) (after : RollbackShared NyxConfig)
      (same : after.pendingRollback = shared.pendingRollback) :
      RollbackMoves shared (.monitor (.rollingBack version))
        (.rolledBack version) after (.monitor .clearing)
  | cleared (after : RollbackShared NyxConfig)
      (free : shared.pendingRollback.readGuards = 0) :
      RollbackMoves shared (.monitor .clearing) .cleared after
        (.monitor .ticking)
  | called (task rest : RollbackTask) (event : RollbackEvent)
      (pending : RwLock (Option (UInt64 × SystemTime)))
      (isCall : task.isMonitor = false) (restIsCall : rest.isMonitor = false)
      (quiet : event.ofMonitor = false)
      (guards : pending.readGuards = shared.pendingRollback.readGuards) :
      RollbackMoves shared task event (shared.withPending pending) rest

theorem rollbackMoves_of_next {before after : RollbackShared NyxConfig}
    {task rest : RollbackTask} {event : RollbackEvent}
    {turn : Turn (RollbackShared NyxConfig) RollbackTask RollbackEvent}
    (taken : next event after rest = some turn)
    (moves : RollbackMoves before task event after rest) :
    RollbackMoves before task turn.event turn.shared turn.task ∧
      turn.spawned = [] := by
  rw [eq_of_next taken]
  exact ⟨moves, rfl⟩

theorem rollbackTurn_moves {shared : RollbackShared NyxConfig}
    {task : RollbackTask} {now : SystemTime}
    {turn : Turn (RollbackShared NyxConfig) RollbackTask RollbackEvent}
    (taken : rollbackTurn shared task now = some turn) :
    RollbackMoves shared task turn.event turn.shared turn.task ∧
      turn.spawned = [] := by
  -- a call that got its guard found no other one
  have stored : ∀ {value : Option (UInt64 × SystemTime)}
      {pending : RwLock (Option (UInt64 × SystemTime))},
      shared.pendingRollback.assign value = some pending →
        pending.readGuards = shared.pendingRollback.readGuards := by
    intro value pending assigned
    obtain ⟨free, isNew⟩ := RwLock.eq_of_assign assigned
    rw [isNew, free]
    rfl
  cases task with
  | monitor stage =>
      cases stage with
      | ticking =>
          apply rollbackMoves_of_next taken
          apply RollbackMoves.checked
          cases shouldRollback shared.pendingRollback.value now <;> rfl
      | reading =>
          simp only [rollbackTurn] at taken
          split at taken
          · next version rollbackTime entry =>
              exact rollbackMoves_of_next taken
                (.triggered version rollbackTime now entry)
          · next nothing =>
              exact rollbackMoves_of_next taken (.passed nothing)
      | rollingBack version =>
          exact rollbackMoves_of_next taken (.rolledBack version _ rfl)
      | clearing =>
          simp only [rollbackTurn] at taken
          split at taken
          · next pending assigned =>
              exact rollbackMoves_of_next taken
                (.cleared _ (RwLock.eq_of_assign assigned).1)
          · cases taken
  | scheduling version =>
      simp only [rollbackTurn] at taken
      split at taken
      · exact rollbackMoves_of_next taken
          (.called _ _ _ shared.pendingRollback rfl rfl rfl rfl)
      · exact rollbackMoves_of_next taken
          (.called _ _ _ shared.pendingRollback rfl rfl rfl rfl)
  | storing version rollbackTime =>
      simp only [rollbackTurn] at taken
      split at taken
      · next pending assigned =>
          exact rollbackMoves_of_next taken
            (.called _ _ _ pending rfl rfl rfl (stored assigned))
      · cases taken
  | confirming =>
      simp only [rollbackTurn] at taken
      split at taken
      · next pending assigned =>
          exact rollbackMoves_of_next taken
            (.called _ _ _ pending rfl rfl rfl (stored assigned))
      · cases taken
  | returned => cases taken
  | aborted => cases taken

/-- A version has been read, by whichever task. -/
def HasTriggered (past : RollbackPast) : Prop :=
  ∃ position index version rollbackTime now,
    Triggered past position index version rollbackTime now

/-- The one monitor has the only guard, it has it from its first trigger on, and
nothing has been cleared. -/
structure Watched (past : RollbackPast) (pool : RollbackPool NyxConfig) :
    Prop where
  monitor : ∃ stage, pool.tasks[0]? = some (.monitor stage) ∧
    pool.shared.pendingRollback.readGuards = stage.guards ∧
    (stage.guards = 1 ↔ HasTriggered past)
  alone : ∀ index stage,
    pool.tasks[index]? = some (.monitor stage) → index = 0
  uncleared : ∀ position index, ¬ Did past position index .cleared

theorem watched_startedMonitor (manager : ConfigManager NyxConfig) :
    Watched [] (startedMonitor manager) where
  monitor := by
    refine ⟨.ticking, rfl, rfl, ?_⟩
    constructor
    · intro held
      cases held
    · intro triggered
      obtain ⟨position, index, version, rollbackTime, now, did⟩ := triggered
      exact absurd did.lt (Nat.not_lt_zero position)
  alone := by
    intro index stage present
    cases index with
    | zero => rfl
    | succ index => cases present
  uncleared := by
    intro position index did
    exact absurd did.lt (Nat.not_lt_zero position)

theorem hasTriggered_append_none {past : RollbackPast}
    {action : RollbackAction} :
    HasTriggered (past ++ [(action, none)]) ↔ HasTriggered past := by
  simp only [HasTriggered, Triggered, did_append_none_iff]

theorem hasTriggered_append_run {past : RollbackPast} {index : Nat}
    {input : SystemTime} {event : RollbackEvent} :
    HasTriggered (past ++ [(.run index input, some event)]) ↔
      HasTriggered past ∨
        ∃ version rollbackTime now,
          event = .triggered version rollbackTime now := by
  constructor
  · intro triggered
    obtain ⟨position, other, version, rollbackTime, now, did⟩ := triggered
    rcases did_append_run did with old | new
    · exact Or.inl ⟨position, other, version, rollbackTime, now, old⟩
    · exact Or.inr ⟨version, rollbackTime, now, new.2.2.symm⟩
  · intro triggered
    rcases triggered with old | new
    · obtain ⟨position, other, version, rollbackTime, now, did⟩ := old
      exact ⟨position, other, version, rollbackTime, now, did.append _⟩
    · obtain ⟨version, rollbackTime, now, rfl⟩ := new
      exact ⟨past.length, index, version, rollbackTime, now,
        did_last past index input _⟩

theorem hasTriggered_append_other {past : RollbackPast} {index : Nat}
    {input : SystemTime} {event : RollbackEvent}
    (noTrigger : ∀ version rollbackTime now,
      event ≠ .triggered version rollbackTime now) :
    HasTriggered (past ++ [(.run index input, some event)]) ↔
      HasTriggered past := by
  rw [hasTriggered_append_run]
  constructor
  · intro either
    rcases either with old | new
    · exact old
    · obtain ⟨version, rollbackTime, now, isTriggered⟩ := new
      exact absurd isTriggered (noTrigger version rollbackTime now)
  · exact Or.inl

theorem Watched.quiet {past : RollbackPast} {pool : RollbackPool NyxConfig}
    (watched : Watched past pool) (action : RollbackAction) :
    Watched (past ++ [(action, none)]) pool where
  monitor := by
    obtain ⟨stage, present, guards, held⟩ := watched.monitor
    exact ⟨stage, present, guards, held.trans hasTriggered_append_none.symm⟩
  alone := watched.alone
  uncleared := by
    intro position index did
    exact watched.uncleared position index (did_append_none did)

theorem Watched.join {past : RollbackPast} {pool : RollbackPool NyxConfig}
    (watched : Watched past pool) {task : RollbackTask}
    (isCall : task.isMonitor = false) : Watched past (pool.join task) where
  monitor := by
    obtain ⟨stage, present, guards, held⟩ := watched.monitor
    exact ⟨stage, Pool.lookup_join_of_lookup present task, guards, held⟩
  alone := by
    intro index stage present
    rcases Pool.lookup_join present with old | fresh
    · exact watched.alone index stage old
    · rw [← fresh.2] at isCall
      cases isCall
  uncleared := watched.uncleared

theorem uncleared_append {past : RollbackPast} {index : Nat}
    {input : SystemTime} {event : RollbackEvent}
    (uncleared : ∀ position other, ¬ Did past position other .cleared)
    (notCleared : event ≠ .cleared) (position other : Nat) :
    ¬ Did (past ++ [(.run index input, some event)]) position other
      .cleared := by
  intro did
  rcases did_append_run did with old | new
  · exact uncleared position other old
  · exact notCleared new.2.2.symm

/-- A step of the monitor. -/
theorem Watched.resume_monitor {past : RollbackPast}
    {pool : RollbackPool NyxConfig} (watched : Watched past pool)
    {stage rest : Monitor} (present : pool.tasks[0]? = some (.monitor stage))
    {event : RollbackEvent} {after : RollbackShared NyxConfig}
    {now : SystemTime}
    (guards : after.pendingRollback.readGuards = rest.guards)
    (held : rest.guards = 1 ↔
      HasTriggered (past ++ [(.run 0 now, some event)]))
    (notCleared : event ≠ .cleared) :
    Watched (past ++ [(.run 0 now, some event)])
      (pool.resume 0 ⟨event, after, .monitor rest, []⟩) where
  monitor := ⟨rest, Pool.lookup_resume_self present, guards, held⟩
  alone := by
    intro other later found
    rcases Pool.lookup_resume found with self | bystander | child
    · exact self.1
    · exact watched.alone other later bystander.2
    · cases child.2
  uncleared := uncleared_append watched.uncleared notCleared

/-- A step of a call. -/
theorem Watched.resume_call {past : RollbackPast}
    {pool : RollbackPool NyxConfig} (watched : Watched past pool) {index : Nat}
    {task rest : RollbackTask} (present : pool.tasks[index]? = some task)
    (isCall : task.isMonitor = false) (restIsCall : rest.isMonitor = false)
    {event : RollbackEvent} (quiet : event.ofMonitor = false)
    {after : RollbackShared NyxConfig}
    (guards : after.pendingRollback.readGuards =
      pool.shared.pendingRollback.readGuards) {now : SystemTime} :
    Watched (past ++ [(.run index now, some event)])
      (pool.resume index ⟨event, after, rest, []⟩) where
  monitor := by
    obtain ⟨stage, presentMonitor, held, triggered⟩ := watched.monitor
    have other : 0 ≠ index := by
      rintro rfl
      rw [present] at presentMonitor
      cases presentMonitor
      cases isCall
    refine ⟨stage, Pool.lookup_resume_other other presentMonitor,
      guards.trans held, ?_⟩
    rw [triggered, hasTriggered_append_other]
    rintro version rollbackTime now rfl
    cases quiet
  alone := by
    intro other stage found
    rcases Pool.lookup_resume found with self | bystander | child
    · have isMonitor : .monitor stage = rest := self.2
      rw [← isMonitor] at restIsCall
      cases restIsCall
    · exact watched.alone other stage bystander.2
    · cases child.2
  uncleared := by
    apply uncleared_append watched.uncleared
    rintro rfl
    cases quiet

theorem Watched.resume {past : RollbackPast} {pool : RollbackPool NyxConfig}
    (watched : Watched past pool) {index : Nat} {task : RollbackTask}
    (present : pool.tasks[index]? = some task)
    {turn : Turn (RollbackShared NyxConfig) RollbackTask RollbackEvent}
    (moves : RollbackMoves pool.shared task turn.event turn.shared turn.task)
    (alone : turn.spawned = []) (now : SystemTime) :
    Watched (past ++ [(.run index now, some turn.event)])
      (pool.resume index turn) := by
  obtain ⟨event, after, rest, spawned⟩ := turn
  simp only at moves alone
  subst alone
  obtain ⟨stage, presentMonitor, held, triggered⟩ := watched.monitor
  -- the monitor that moves is the one at the start of the pool
  have isFirst : ∀ {moving : Monitor}, task = .monitor moving →
      index = 0 ∧ stage = moving := by
    intro moving isMonitor
    rw [isMonitor] at present
    have first := watched.alone index moving present
    rw [first, presentMonitor] at present
    cases present
    exact ⟨first, rfl⟩
  cases moves with
  | checked due rest guardless =>
      obtain ⟨rfl, rfl⟩ := isFirst rfl
      apply watched.resume_monitor presentMonitor
      · rw [held, guardless]
        rfl
      · rw [hasTriggered_append_other (by simp), ← triggered, guardless]
        rfl
      · simp
  | passed nothing =>
      obtain ⟨rfl, rfl⟩ := isFirst rfl
      apply watched.resume_monitor presentMonitor
      · exact held
      · rw [hasTriggered_append_other (by simp), ← triggered]
        rfl
      · simp
  | triggered version rollbackTime now entry =>
      obtain ⟨rfl, rfl⟩ := isFirst rfl
      apply watched.resume_monitor presentMonitor
      · exact congrArg (· + 1) held
      · rw [hasTriggered_append_run]
        exact iff_of_true rfl (Or.inr ⟨version, rollbackTime, now, rfl⟩)
      · simp
  | rolledBack version after same =>
      obtain ⟨rfl, rfl⟩ := isFirst rfl
      apply watched.resume_monitor presentMonitor
      · rw [same, held]
        rfl
      · rw [hasTriggered_append_other (by simp), ← triggered]
        rfl
      · simp
  | cleared after free =>
      obtain ⟨rfl, rfl⟩ := isFirst rfl
      rw [free] at held
      cases held
  | called task rest event pending isCall restIsCall quiet guards =>
      exact watched.resume_call present isCall restIsCall quiet guards

/-- Whatever comes after, nothing is cleared. -/
theorem Watched.onward {past : RollbackPast} {pool : RollbackPool NyxConfig}
    (watched : Watched past pool) (more : List RollbackAction) :
    Watched (past ++ Trace.history (perform rollbackProgram) pool more)
      (Trace.final (perform rollbackProgram) pool more) := by
  refine invariant_on (fun _ => True)
    (fun later pool => Watched (past ++ later) pool) ?_ ?_ ?_ ?_ more
    (fun _ _ => trivial)
  · rw [List.append_nil]
    exact watched
  · intro later pool index input holds
    rw [← List.append_assoc]
    exact holds.quiet _
  · intro later pool request _ holds
    rw [← List.append_assoc]
    apply (holds.quiet _).join
    cases request <;> rfl
  · intro later pool index input task turn _ present taken holds
    have step : rollbackTurn pool.shared task input = some turn := taken
    obtain ⟨moves, alone⟩ := rollbackTurn_moves step
    rw [← List.append_assoc]
    exact holds.resume present moves alone input

/-- Safety ends with the first trigger. -/
theorem Watched.safeRollback_iff {past : RollbackPast}
    {pool : RollbackPool NyxConfig} (watched : Watched past pool) :
    SafeRollback past pool ↔ ¬ HasTriggered past := by
  constructor
  · intro safe triggered
    obtain ⟨position, index, version, rollbackTime, now, did⟩ := triggered
    obtain ⟨more, later, _, cleared⟩ :=
      safe.clearable position index version rollbackTime now did
    exact (watched.onward more).uncleared later index cleared
  · intro untriggered
    have never : ∀ position index version rollbackTime now,
        ¬ Triggered past position index version rollbackTime now :=
      fun position index version rollbackTime now did =>
        untriggered ⟨position, index, version, rollbackTime, now, did⟩
    refine ⟨?_, ?_, ?_, ?_⟩
    · intro position index version rollbackTime now did
      exact absurd did (never position index version rollbackTime now)
    · intro position index version rollbackTime now did
      exact absurd did (never position index version rollbackTime now)
    · intro task member waiting
      obtain ⟨index, bound, isTask⟩ := List.mem_iff_getElem.mp member
      have present : pool.tasks[index]? = some task := by
        rw [List.getElem?_eq_getElem bound, isTask]
      cases task with
      | monitor stage =>
          obtain ⟨only, presentMonitor, _, triggered⟩ := watched.monitor
          have first := watched.alone index stage present
          rw [first, presentMonitor] at present
          cases present
          have guardless : stage.guards ≠ 1 :=
            fun held => untriggered (triggered.mp held)
          cases stage with
          | ticking => exact absurd waiting.1 (Nat.lt_irrefl 0)
          | reading => exact absurd waiting.1 (Nat.lt_irrefl 0)
          | rollingBack version => exact guardless rfl
          | clearing => exact guardless rfl
      | _ => exact absurd waiting.1 (Nat.lt_irrefl 0)
    · intro position index version rollbackTime now did
      exact absurd did (never position index version rollbackTime now)

/-- The monitor triggers when it finds an entry. -/
theorem triggered_step_iff {past : RollbackPast}
    {pool : RollbackPool NyxConfig} (action : RollbackAction)
    (untriggered : ¬ HasTriggered past) :
    ¬ HasTriggered (past ++
        [(action, (perform rollbackProgram pool action).1)]) ↔
      FindsNothing pool action := by
  have moved := perform_moved rollbackProgram pool action
  generalize perform rollbackProgram pool action = outcome at moved
  cases moved with
  | called request =>
      rw [hasTriggered_append_none]
      exact iff_of_true untriggered trivial
  | waited index now blocked =>
      rw [hasTriggered_append_none]
      refine iff_of_true untriggered ?_
      intro isReading
      have stuck : rollbackTurn pool.shared (.monitor .reading) now = none :=
        blocked _ isReading
      cases entry : pool.shared.pendingRollback.value with
      | none => rfl
      | some entryValue => simp [rollbackTurn, entry, next] at stuck
  | turned index now task turn present taken =>
      have step : rollbackTurn pool.shared task now = some turn := taken
      obtain ⟨moves, -⟩ := rollbackTurn_moves step
      rw [hasTriggered_append_run]
      simp only [untriggered, false_or]
      have elsewhere : (∀ version rollbackTime now,
          turn.event ≠ .triggered version rollbackTime now) →
            task ≠ .monitor .reading →
              ((¬ ∃ version rollbackTime now,
                  turn.event = .triggered version rollbackTime now) ↔
                FindsNothing pool (.run index now)) := by
        intro noTrigger notReading
        refine iff_of_true ?_ ?_
        · intro triggered
          obtain ⟨version, rollbackTime, now, isTriggered⟩ := triggered
          exact noTrigger version rollbackTime now isTriggered
        · intro isReading
          rw [present] at isReading
          exact absurd (Option.some.inj isReading) notReading
      generalize turn.event = event at moves elsewhere
      generalize turn.shared = after at moves
      generalize turn.task = rest at moves
      cases moves with
      | checked due rest guardless => exact elsewhere (by simp) (by simp)
      | passed nothing =>
          refine iff_of_true ?_ (fun _ => nothing)
          rintro ⟨version, rollbackTime, now, isTriggered⟩
          cases isTriggered
      | triggered version rollbackTime now entry =>
          refine iff_of_false (fun never => never ⟨_, _, _, rfl⟩) ?_
          intro nothing
          rw [nothing present] at entry
          cases entry
      | rolledBack version after same => exact elsewhere (by simp) (by simp)
      | cleared after free => exact elsewhere (by simp) (by simp)
      | called task rest event pending isCall restIsCall quiet guards =>
          apply elsewhere
          · rintro version rollbackTime now rfl
            cases quiet
          · rintro rfl
            cases isCall

theorem automatic_rollback_safe_iff (manager : ConfigManager NyxConfig)
    (actions : List RollbackAction) :
    (∀ before, before <+: actions →
        SafeRollback
          (Trace.history (perform rollbackProgram) (startedMonitor manager)
            before)
          (Trace.final (perform rollbackProgram) (startedMonitor manager)
            before)) ↔
      Trace.Along (perform rollbackProgram) FindsNothing
        (startedMonitor manager) actions := by
  refine Trace.throughout_iff Watched SafeRollback ?_ ?_ ?_
  · intro before _
    have onward := (watched_startedMonitor manager).onward before
    rw [List.nil_append] at onward
    exact onward
  · apply (watched_startedMonitor manager).safeRollback_iff.mpr
    intro triggered
    obtain ⟨position, index, version, rollbackTime, now, did⟩ := triggered
    exact absurd did.lt (Nat.not_lt_zero position)
  · intro past pool action watched after safe
    have untriggered := watched.safeRollback_iff.mp safe
    rw [after.safeRollback_iff]
    exact triggered_step_iff action untriggered

def atSecs (count : UInt16) : SystemTime :=
  .ofUnixSecs count.toNat (by have bound := count.toNat_lt; omega)

/-- A rollback is scheduled anew when the monitor has looked at the time of the
first one and not yet read its version. -/
def rescheduledRollback : List RollbackAction :=
  [.call (.scheduleRollback 1), .run 1 (atSecs 0), .run 1 (atSecs 0),
    .run 0 (atSecs 300), .call (.scheduleRollback 1), .run 2 (atSecs 300),
    .run 2 (atSecs 300), .run 0 (atSecs 300), .run 0 (atSecs 300)]

/-- The rollback comes 300 seconds early, and then the monitor waits for its own
guard. -/
theorem rescheduled_rollback_early :
    let past := Trace.history (perform rollbackProgram)
      (startedMonitor (.new () none)) rescheduledRollback
    let pool := Trace.final (perform rollbackProgram)
      (startedMonitor (.new () none)) rescheduledRollback
    Triggered past 7 0 1 (atSecs 600) (atSecs 300) ∧
      pool.tasks[0]? = some (.monitor .clearing) ∧
      pool.shared.pendingRollback = ⟨some (1, atSecs 600), 1⟩ ∧
      (∀ more position index, ¬ Did
        (past ++ Trace.history (perform rollbackProgram) pool more) position
          index .cleared) ∧
      ¬ SafeRollback past pool := by
  intro past pool
  have early : Triggered past 7 0 1 (atSecs 600) (atSecs 300) :=
    ⟨atSecs 300, by decide +kernel⟩
  have watched : Watched past pool := by
    have onward := (watched_startedMonitor (.new () none)).onward
      rescheduledRollback
    rw [List.nil_append] at onward
    exact onward
  refine ⟨early, by decide +kernel, by decide +kernel, ?_, ?_⟩
  · intro more
    exact (watched.onward more).uncleared
  · intro safe
    have passed := safe.timely 7 0 1 (atSecs 600) (atSecs 300) early
    revert passed
    decide

end NyxNet.Config
