import NyxNet.Lib.Trace
import Mathlib.Algebra.BigOperators.Group.Finset.Basic
import Mathlib.Algebra.BigOperators.Group.Finset.Piecewise
import Mathlib.Algebra.Order.BigOperators.Group.Finset
import Mathlib.Algebra.Ring.Nat

/-!
# Pools of tasks over shared state

Any number of tasks run over one shared state.  A call adds a task; a turn
lets one task do its next atomic step, which may change the shared state,
leave an event and spawn further tasks.  The schedule is an input of the run:
each action names the task that moves.  A task that has nothing to do, or has
to wait, leaves the pool as it is.
-/

namespace TaskPool

variable {σ τ κ ι ο : Type*}

structure Pool (σ τ : Type*) where
  shared : σ
  tasks : List τ

/-- What one atomic step of a task does. -/
structure Turn (σ τ ο : Type*) where
  event : ο
  shared : σ
  task : τ
  spawned : List τ

/-- A step that leaves an event, the shared state and the rest of its task. -/
def next (event : ο) (shared : σ) (task : τ) : Option (Turn σ τ ο) :=
  some ⟨event, shared, task, []⟩

theorem eq_of_next {event : ο} {shared : σ} {task : τ} {turn : Turn σ τ ο}
    (taken : next event shared task = some turn) :
    turn = ⟨event, shared, task, []⟩ :=
  (Option.some.inj taken).symm

structure Program (σ τ κ ι ο : Type*) where
  launch : κ → τ
  turn : σ → τ → ι → Option (Turn σ τ ο)

inductive Action (κ ι : Type*) where
  | call (request : κ)
  | run (index : Nat) (input : ι)
deriving DecidableEq, Repr

namespace Pool

/-- A new task joins; tasks keep the index they join with. -/
def join (pool : Pool σ τ) (task : τ) : Pool σ τ :=
  { pool with tasks := pool.tasks ++ [task] }

def resume (pool : Pool σ τ) (index : Nat) (turn : Turn σ τ ο) : Pool σ τ :=
  { shared := turn.shared
    tasks := pool.tasks.set index turn.task ++ turn.spawned }

@[simp] theorem join_shared (pool : Pool σ τ) (task : τ) :
    (pool.join task).shared = pool.shared := rfl

@[simp] theorem resume_shared (pool : Pool σ τ) (index : Nat)
    (turn : Turn σ τ ο) : (pool.resume index turn).shared = turn.shared := rfl

theorem mem_join {pool : Pool σ τ} {task other : τ} :
    other ∈ (pool.join task).tasks ↔ other ∈ pool.tasks ∨ other = task := by
  simp [join]

theorem lookup_join {pool : Pool σ τ} {task other : τ} {index : Nat}
    (present : (pool.join task).tasks[index]? = some other) :
    pool.tasks[index]? = some other ∨
      index = pool.tasks.length ∧ other = task := by
  simp only [join, List.getElem?_append] at present
  split at present
  · exact Or.inl present
  · rw [List.getElem?_singleton] at present
    split at present
    · exact Or.inr ⟨by omega, (Option.some.inj present).symm⟩
    · cases present

theorem lookup_join_of_lookup {pool : Pool σ τ} {other : τ} {index : Nat}
    (present : pool.tasks[index]? = some other) (task : τ) :
    (pool.join task).tasks[index]? = some other := by
  rw [join, List.getElem?_append_left]
  · exact present
  · exact (List.getElem?_eq_some_iff.mp present).1

theorem lookup_resume {pool : Pool σ τ} {turn : Turn σ τ ο}
    {index other : Nat} {found : τ}
    (present : (pool.resume index turn).tasks[other]? = some found) :
    other = index ∧ found = turn.task ∨
      other ≠ index ∧ pool.tasks[other]? = some found ∨
        pool.tasks.length ≤ other ∧ found ∈ turn.spawned := by
  simp only [resume, List.getElem?_append, List.length_set] at present
  split at present
  · rw [List.getElem?_set] at present
    split at present
    · next same =>
        refine Or.inl ⟨same.symm, ?_⟩
        split at present
        · exact (Option.some.inj present).symm
        · cases present
    · next different =>
        exact Or.inr (Or.inl ⟨Ne.symm different, present⟩)
  · exact Or.inr (Or.inr ⟨by omega, List.mem_of_getElem? present⟩)

theorem lookup_resume_self {pool : Pool σ τ} {turn : Turn σ τ ο}
    {index : Nat} {task : τ} (present : pool.tasks[index]? = some task) :
    (pool.resume index turn).tasks[index]? = some turn.task := by
  have bound := (List.getElem?_eq_some_iff.mp present).1
  rw [resume, List.getElem?_append_left (by simpa using bound),
    List.getElem?_set_self bound]

theorem lookup_resume_other {pool : Pool σ τ} {turn : Turn σ τ ο}
    {index other : Nat} {found : τ} (different : other ≠ index)
    (present : pool.tasks[other]? = some found) :
    (pool.resume index turn).tasks[other]? = some found := by
  have bound := (List.getElem?_eq_some_iff.mp present).1
  rw [resume, List.getElem?_append_left (by simpa using bound),
    List.getElem?_set_ne (Ne.symm different)]
  exact present

end Pool

/-- One action; the answer is the event of the task that moved, if one did. -/
def perform (program : Program σ τ κ ι ο) (pool : Pool σ τ) :
    Action κ ι → Option ο × Pool σ τ
  | .call request => (none, pool.join (program.launch request))
  | .run index input =>
      match pool.tasks[index]?.bind
          (fun task => program.turn pool.shared task input) with
      | none => (none, pool)
      | some turn => (some turn.event, pool.resume index turn)

/-- The record of a run: every action with the event it led to. -/
abbrev Past (κ ι ο : Type*) := List (Action κ ι × Option ο)

/-- Everything an action can do. -/
inductive Moved (program : Program σ τ κ ι ο) (pool : Pool σ τ) :
    Action κ ι → Option ο × Pool σ τ → Prop where
  | called (request : κ) :
      Moved program pool (.call request)
        (none, pool.join (program.launch request))
  | waited (index : Nat) (input : ι)
      (blocked : ∀ task, pool.tasks[index]? = some task →
        program.turn pool.shared task input = none) :
      Moved program pool (.run index input) (none, pool)
  | turned (index : Nat) (input : ι) (task : τ) (turn : Turn σ τ ο)
      (present : pool.tasks[index]? = some task)
      (taken : program.turn pool.shared task input = some turn) :
      Moved program pool (.run index input)
        (some turn.event, pool.resume index turn)

theorem perform_moved (program : Program σ τ κ ι ο) (pool : Pool σ τ)
    (action : Action κ ι) :
    Moved program pool action (perform program pool action) := by
  cases action with
  | call request => exact .called request
  | run index input =>
      simp only [perform]
      split
      · next blocked =>
          refine .waited index input ?_
          intro task present
          rw [present] at blocked
          exact blocked
      · next turn taken =>
          obtain ⟨task, present, step⟩ := Option.bind_eq_some_iff.mp taken
          exact .turned index input task turn present step

theorem perform_run {program : Program σ τ κ ι ο} {pool : Pool σ τ}
    {index : Nat} {input : ι} {task : τ} {turn : Turn σ τ ο}
    (present : pool.tasks[index]? = some task)
    (taken : program.turn pool.shared task input = some turn) :
    perform program pool (.run index input) =
      (some turn.event, pool.resume index turn) := by
  simp only [perform, present, Option.bind_some, taken]

/-- The events of a run, oldest first. -/
def events (past : Past κ ι ο) : List ο :=
  past.filterMap Prod.snd

@[simp] theorem events_nil : events ([] : Past κ ι ο) = [] := rfl

@[simp] theorem events_append_none (past : Past κ ι ο) (action : Action κ ι) :
    events (past ++ [(action, none)]) = events past := by
  simp [events]

@[simp] theorem events_append_some (past : Past κ ι ο) (action : Action κ ι)
    (event : ο) :
    events (past ++ [(action, some event)]) = events past ++ [event] := by
  simp [events]

/-- At this position of the run the task of this index left the event. -/
def Did (past : Past κ ι ο) (position index : Nat) (event : ο) : Prop :=
  ∃ input, past[position]? = some (.run index input, some event)

theorem Did.lt {past : Past κ ι ο} {position index : Nat} {event : ο}
    (did : Did past position index event) : position < past.length := by
  obtain ⟨input, entry⟩ := did
  exact (List.getElem?_eq_some_iff.mp entry).1

theorem Did.append {past : Past κ ι ο} {position index : Nat} {event : ο}
    (did : Did past position index event) (later : Past κ ι ο) :
    Did (past ++ later) position index event := by
  have bound := did.lt
  obtain ⟨input, entry⟩ := did
  exact ⟨input, by rw [List.getElem?_append_left bound]; exact entry⟩

theorem did_last (past : Past κ ι ο) (index : Nat) (input : ι) (event : ο) :
    Did (past ++ [(Action.run index input, some event)]) past.length index event :=
  ⟨input, List.getElem?_concat_length⟩

theorem did_append_run {past : Past κ ι ο} {position index other : Nat}
    {input : ι} {event found : ο}
    (did : Did (past ++ [(Action.run index input, some event)]) position other
      found) :
    Did past position other found ∨
      position = past.length ∧ other = index ∧ found = event := by
  obtain ⟨otherInput, entry⟩ := did
  rw [List.getElem?_append] at entry
  split at entry
  · exact Or.inl ⟨otherInput, entry⟩
  · rw [List.getElem?_singleton] at entry
    split at entry
    · simp only [Option.some.injEq, Prod.mk.injEq, Action.run.injEq] at entry
      exact Or.inr ⟨by omega, entry.1.1.symm, entry.2.symm⟩
    · cases entry

theorem did_append_none {past : Past κ ι ο} {position other : Nat}
    {action : Action κ ι} {found : ο}
    (did : Did (past ++ [(action, none)]) position other found) :
    Did past position other found := by
  obtain ⟨otherInput, entry⟩ := did
  rw [List.getElem?_append] at entry
  split at entry
  · exact ⟨otherInput, entry⟩
  · rw [List.getElem?_singleton] at entry
    split at entry
    · cases entry
    · cases entry

theorem did_append_run_iff {past : Past κ ι ο} {position index other : Nat}
    {input : ι} {event found : ο} :
    Did (past ++ [(Action.run index input, some event)]) position other found ↔
      Did past position other found ∨
        position = past.length ∧ other = index ∧ found = event := by
  constructor
  · exact did_append_run
  · intro did
    rcases did with old | new
    · exact old.append _
    · obtain ⟨rfl, rfl, rfl⟩ := new
      exact did_last past other input found

theorem did_append_none_iff {past : Past κ ι ο} {position index : Nat}
    {action : Action κ ι} {event : ο} :
    Did (past ++ [(action, none)]) position index event ↔
      Did past position index event :=
  ⟨did_append_none, fun did => did.append _⟩

section Invariants

variable {program : Program σ τ κ ι ο} {start : Pool σ τ}

/-- What holds at the start and is kept by every call and every turn that
meets a condition holds at the end of every run whose actions all meet it. -/
theorem invariant_along
    {condition : Past κ ι ο → Pool σ τ → Action κ ι → Prop}
    (property : Past κ ι ο → Pool σ τ → Prop)
    (initial : property [] start)
    (waited : ∀ past pool index input, property past pool →
      property (past ++ [(Action.run index input, none)]) pool)
    (called : ∀ past pool request, condition past pool (.call request) →
      property past pool →
        property (past ++ [(Action.call request, none)])
          (pool.join (program.launch request)))
    (turned : ∀ past pool index input task turn,
      condition past pool (.run index input) →
        pool.tasks[index]? = some task →
          program.turn pool.shared task input = some turn →
            property past pool →
              property (past ++ [(Action.run index input, some turn.event)])
                (pool.resume index turn))
    (actions : List (Action κ ι))
    (along : Trace.AlongPast (perform program) condition [] start actions) :
    property (Trace.history (perform program) start actions)
      (Trace.final (perform program) start actions) := by
  apply Trace.invariant_along initial _ actions along
  intro past pool action allowed holds
  have moved := perform_moved program pool action
  generalize perform program pool action = outcome at moved
  cases moved with
  | called request => exact called past pool request allowed holds
  | waited index input _ => exact waited past pool index input holds
  | turned index input task turn present taken =>
      exact turned past pool index input task turn allowed present taken holds

/-- `invariant_along` for a condition on the actions. -/
theorem invariant_on (admissible : Action κ ι → Prop)
    (property : Past κ ι ο → Pool σ τ → Prop)
    (initial : property [] start)
    (waited : ∀ past pool index input, property past pool →
      property (past ++ [(Action.run index input, none)]) pool)
    (called : ∀ past pool request, admissible (.call request) →
      property past pool →
        property (past ++ [(Action.call request, none)])
          (pool.join (program.launch request)))
    (turned : ∀ past pool index input task turn,
      admissible (.run index input) → pool.tasks[index]? = some task →
        program.turn pool.shared task input = some turn →
          property past pool →
            property (past ++ [(Action.run index input, some turn.event)])
              (pool.resume index turn))
    (actions : List (Action κ ι))
    (legal : ∀ action ∈ actions, admissible action) :
    property (Trace.history (perform program) start actions)
      (Trace.final (perform program) start actions) :=
  invariant_along property initial waited called turned actions
    (Trace.alongPast_of_forall actions legal [] start)

/-- Only tasks of the pool have left events. -/
def Indexed (past : Past κ ι ο) (pool : Pool σ τ) : Prop :=
  ∀ position index event, Did past position index event →
    index < pool.tasks.length

theorem Indexed.quiet {past : Past κ ι ο} {pool : Pool σ τ}
    (indexed : Indexed past pool) (action : Action κ ι) :
    Indexed (past ++ [(action, none)]) pool := by
  intro position index event did
  exact indexed position index event (did_append_none did)

theorem Indexed.join {past : Past κ ι ο} {pool : Pool σ τ}
    (indexed : Indexed past pool) (action : Action κ ι) (task : τ) :
    Indexed (past ++ [(action, none)]) (pool.join task) := by
  intro position index event did
  have before := indexed position index event (did_append_none did)
  simp only [Pool.join, List.length_append]
  omega

theorem Indexed.resume {past : Past κ ι ο} {pool : Pool σ τ} {index : Nat}
    {task : τ} (indexed : Indexed past pool)
    (present : pool.tasks[index]? = some task) (input : ι)
    (turn : Turn σ τ ο) :
    Indexed (past ++ [(Action.run index input, some turn.event)])
      (pool.resume index turn) := by
  intro position other event did
  simp only [Pool.resume, List.length_append, List.length_set]
  rcases did_append_run did with old | last
  · have before := indexed position other event old
    omega
  · have bound := (List.getElem?_eq_some_iff.mp present).1
    omega

theorem indexed_run (actions : List (Action κ ι)) :
    Indexed (Trace.history (perform program) start actions)
      (Trace.final (perform program) start actions) := by
  refine invariant_on (fun _ => True) Indexed ?_ ?_ ?_ ?_ actions
    (fun _ _ => trivial)
  · intro position index event did
    exact absurd did.lt (Nat.not_lt_zero position)
  · intro past pool index input indexed
    exact indexed.quiet (.run index input)
  · intro past pool request _ indexed
    exact indexed.join (.call request) _
  · intro past pool index input task turn _ present _ indexed
    exact indexed.resume present input turn

/-- No event of a task with this index yet. -/
def Unused (past : Past κ ι ο) (index : Nat) : Prop :=
  ∀ position event, ¬ Did past position index event

theorem Indexed.unused {past : Past κ ι ο} {pool : Pool σ τ}
    (indexed : Indexed past pool) {index : Nat}
    (beyond : pool.tasks.length ≤ index) : Unused past index := by
  intro position event did
  exact absurd (indexed position index event did) (Nat.not_lt.mpr beyond)

/-- The condition on a run that every action with its event is allowed after
what came before. -/
def Allowed (program : Program σ τ κ ι ο)
    (allowed : Past κ ι ο → Action κ ι → Option ο → Prop)
    (past : Past κ ι ο) (pool : Pool σ τ) (action : Action κ ι) : Prop :=
  allowed past action (perform program pool action).1

instance Allowed.decidable (program : Program σ τ κ ι ο)
    (allowed : Past κ ι ο → Action κ ι → Option ο → Prop)
    [∀ past action event, Decidable (allowed past action event)]
    (past : Past κ ι ο) (pool : Pool σ τ) (action : Action κ ι) :
    Decidable (Allowed program allowed past pool action) :=
  inferInstanceAs (Decidable (allowed past action _))

/-- A fact about the shared state and a fact about every task, each of which
may look at the past.  Besides its own turn, a task's fact has to survive the
turns of the others. -/
theorem every_task_along
    (allowed : Past κ ι ο → Action κ ι → Option ο → Prop)
    (common : Past κ ι ο → σ → Prop)
    (own : Past κ ι ο → σ → Nat → τ → Prop)
    (initial : common [] start.shared) (empty : start.tasks = [])
    (quiet : ∀ past shared action, common past shared →
      common (past ++ [(action, none)]) shared ∧
        ∀ index task, own past shared index task →
          own (past ++ [(action, none)]) shared index task)
    (called : ∀ past shared request index,
      allowed past (.call request) none →
        common past shared → Unused past index →
          own (past ++ [(Action.call request, none)]) shared index
            (program.launch request))
    (turned : ∀ past shared index input task turn,
      allowed past (.run index input) (some turn.event) →
        program.turn shared task input = some turn →
          common past shared → own past shared index task →
            common (past ++ [(Action.run index input, some turn.event)])
                turn.shared ∧
              own (past ++ [(Action.run index input, some turn.event)])
                turn.shared index turn.task)
    (spawned : ∀ past shared index input task turn fresh child,
      allowed past (.run index input) (some turn.event) →
        program.turn shared task input = some turn →
          common past shared → own past shared index task →
            child ∈ turn.spawned → Unused past fresh →
              own (past ++ [(Action.run index input, some turn.event)])
                turn.shared fresh child)
    (stable : ∀ past shared index input task turn other bystander,
      allowed past (.run index input) (some turn.event) →
        program.turn shared task input = some turn →
          common past shared → own past shared index task →
            other ≠ index → own past shared other bystander →
              own (past ++ [(Action.run index input, some turn.event)])
                turn.shared other bystander)
    (actions : List (Action κ ι))
    (along : Trace.AlongPast (perform program) (Allowed program allowed) []
      start actions) :
    common (Trace.history (perform program) start actions)
        (Trace.final (perform program) start actions).shared ∧
      ∀ index task,
        (Trace.final (perform program) start actions).tasks[index]? =
            some task →
          own (Trace.history (perform program) start actions)
            (Trace.final (perform program) start actions).shared index
            task := by
  refine And.right (invariant_along (fun past pool =>
    Indexed past pool ∧ common past pool.shared ∧ ∀ index task,
      pool.tasks[index]? = some task → own past pool.shared index task)
    ⟨?_, initial, ?_⟩ ?_ ?_ ?_ actions along)
  · intro position index event did
    exact absurd did.lt (Nat.not_lt_zero position)
  · intro index task present
    rw [empty] at present
    cases present
  · intro past pool index input holds
    obtain ⟨indexed, shared, own⟩ := holds
    obtain ⟨kept, tasksKept⟩ :=
      quiet past pool.shared (.run index input) shared
    exact ⟨indexed.quiet (.run index input), kept, fun index task present =>
      tasksKept index task (own index task present)⟩
  · intro past pool request isAllowed holds
    obtain ⟨indexed, shared, own⟩ := holds
    obtain ⟨kept, tasksKept⟩ := quiet past pool.shared (.call request) shared
    refine ⟨indexed.join (.call request) _, kept, ?_⟩
    intro index task present
    rcases Pool.lookup_join present with old | fresh
    · exact tasksKept index task (own index task old)
    · rw [fresh.2]
      exact called past pool.shared request index isAllowed shared
        (indexed.unused (Nat.le_of_eq fresh.1.symm))
  · intro past pool index input task turn isAllowed present taken holds
    obtain ⟨indexed, shared, own⟩ := holds
    rw [Allowed, perform_run present taken] at isAllowed
    have mine := own index task present
    obtain ⟨kept, ownKept⟩ := turned past pool.shared index input task turn
      isAllowed taken shared mine
    refine ⟨indexed.resume present input turn, kept, ?_⟩
    intro other found foundAt
    rcases Pool.lookup_resume foundAt with self | bystander | child
    · rw [self.1, self.2]
      exact ownKept
    · exact stable past pool.shared index input task turn other found isAllowed
        taken shared mine bystander.1 (own other found bystander.2)
    · exact spawned past pool.shared index input task turn other found
        isAllowed taken shared mine child.2 (indexed.unused child.1)

/-- `every_task_along` for a condition on the actions. -/
theorem every_task (admissible : Action κ ι → Prop)
    (common : Past κ ι ο → σ → Prop)
    (own : Past κ ι ο → σ → Nat → τ → Prop)
    (initial : common [] start.shared) (empty : start.tasks = [])
    (quiet : ∀ past shared action, common past shared →
      common (past ++ [(action, none)]) shared ∧
        ∀ index task, own past shared index task →
          own (past ++ [(action, none)]) shared index task)
    (called : ∀ past shared request index, admissible (.call request) →
      common past shared → Unused past index →
        own (past ++ [(Action.call request, none)]) shared index
          (program.launch request))
    (turned : ∀ past shared index input task turn,
      admissible (.run index input) →
        program.turn shared task input = some turn →
          common past shared → own past shared index task →
            common (past ++ [(Action.run index input, some turn.event)])
                turn.shared ∧
              own (past ++ [(Action.run index input, some turn.event)])
                turn.shared index turn.task)
    (spawned : ∀ past shared index input task turn fresh child,
      admissible (.run index input) →
        program.turn shared task input = some turn →
          common past shared → own past shared index task →
            child ∈ turn.spawned → Unused past fresh →
              own (past ++ [(Action.run index input, some turn.event)])
                turn.shared fresh child)
    (stable : ∀ past shared index input task turn other bystander,
      admissible (.run index input) →
        program.turn shared task input = some turn →
          common past shared → own past shared index task →
            other ≠ index → own past shared other bystander →
              own (past ++ [(Action.run index input, some turn.event)])
                turn.shared other bystander)
    (actions : List (Action κ ι))
    (legal : ∀ action ∈ actions, admissible action) :
    common (Trace.history (perform program) start actions)
        (Trace.final (perform program) start actions).shared ∧
      ∀ index task,
        (Trace.final (perform program) start actions).tasks[index]? =
            some task →
          own (Trace.history (perform program) start actions)
            (Trace.final (perform program) start actions).shared index
            task :=
  every_task_along (fun _ action _ => admissible action) common own initial
    empty quiet called turned spawned stable actions
    (Trace.alongPast_of_forall actions legal [] start)

end Invariants

private theorem sum_map_set (weight : τ → Nat) (tasks : List τ) (index : Nat)
    (task replacement : τ) (present : tasks[index]? = some task) :
    ((tasks.set index replacement).map weight).sum + weight task =
      (tasks.map weight).sum + weight replacement := by
  induction tasks generalizing index with
  | nil => cases present
  | cons head tail ih =>
      cases index with
      | zero =>
          simp only [List.getElem?_cons_zero, Option.some.injEq] at present
          subst present
          simp only [List.set_cons_zero, List.map_cons, List.sum_cons]
          omega
      | succ index =>
          have rest := ih index present
          simp only [List.set_cons_succ, List.map_cons, List.sum_cons]
          omega

/-- The weights of the tasks change with the task that moves. -/
theorem sum_map_resume (weight : τ → Nat) {pool : Pool σ τ} {index : Nat}
    {task : τ} (present : pool.tasks[index]? = some task)
    (turn : Turn σ τ ο) :
    ((pool.resume index turn).tasks.map weight).sum + weight task =
      (pool.tasks.map weight).sum + weight turn.task +
        (turn.spawned.map weight).sum := by
  have replaced := sum_map_set weight pool.tasks index task turn.task present
  simp only [Pool.resume, List.map_append, List.sum_append]
  omega

/-- What the events of a run cost is covered by what they bring in, when no
turn spends more than it brings in, than the shared state has in reserve and
than its task has left. -/
theorem cost_le_allowance {program : Program σ τ κ ι ο} {start : Pool σ τ}
    (cost allowance : ο → Nat) (reserve : σ → Nat) (weight : τ → Nat)
    (nothing : reserve start.shared = 0) (empty : start.tasks = [])
    (launched : ∀ request, weight (program.launch request) = 0)
    (paid : ∀ shared task input turn,
      program.turn shared task input = some turn →
        cost turn.event + reserve turn.shared + weight turn.task +
            (turn.spawned.map weight).sum ≤
          allowance turn.event + reserve shared + weight task)
    (actions : List (Action κ ι)) :
    ((events (Trace.history (perform program) start actions)).map cost).sum ≤
      ((events (Trace.history (perform program) start actions)).map
        allowance).sum := by
  let covered := fun (past : Past κ ι ο) (pool : Pool σ τ) =>
    ((events past).map cost).sum + reserve pool.shared +
      (pool.tasks.map weight).sum ≤ ((events past).map allowance).sum
  suffices balance : covered (Trace.history (perform program) start actions)
      (Trace.final (perform program) start actions) by
    have total := balance
    simp only [covered] at total
    omega
  refine invariant_on (fun _ => True) covered ?_ ?_ ?_ ?_ actions
    (fun _ _ => trivial)
  · simp [covered, nothing, empty]
  · intro past pool index input holds
    simpa [covered] using holds
  · intro past pool request _ holds
    simpa [covered, Pool.join, launched] using holds
  · intro past pool index input task turn _ present taken holds
    have step := paid pool.shared task input turn taken
    have replaced := sum_map_resume weight present turn
    simp only [covered, events_append_some, Pool.resume_shared,
      List.map_append, List.sum_append, List.map_cons, List.map_nil,
      List.sum_cons, List.sum_nil] at holds ⊢
    omega

private theorem sum_by_key {γ : Type*} [DecidableEq γ] (key : ο → γ)
    (amount : ο → Nat) (events : List ο) (keys : Finset γ)
    (within : ∀ event ∈ events, key event ∈ keys) :
    ∑ k ∈ keys, (events.map
        (fun event => if key event = k then amount event else 0)).sum =
      (events.map amount).sum := by
  induction events with
  | nil => simp
  | cons event events ih =>
      have rest := ih (fun later member =>
        within later (List.mem_cons_of_mem event member))
      have here := within event List.mem_cons_self
      simp only [List.map_cons, List.sum_cons, Finset.sum_add_distrib, rest,
        Finset.sum_ite_eq, if_pos here]

/-- `cost_le_allowance` with separate books for every key: each turn has to
balance under every key, and the totals then balance as well. -/
theorem cost_le_allowance_by_key {γ : Type*} [DecidableEq γ]
    {program : Program σ τ κ ι ο} {start : Pool σ τ} (key : ο → γ)
    (cost allowance : ο → Nat) (reserve : γ → σ → Nat) (weight : γ → τ → Nat)
    (nothing : ∀ k, reserve k start.shared = 0) (empty : start.tasks = [])
    (launched : ∀ k request, weight k (program.launch request) = 0)
    (paid : ∀ k shared task input turn,
      program.turn shared task input = some turn →
        (if key turn.event = k then cost turn.event else 0) +
            reserve k turn.shared + weight k turn.task +
            (turn.spawned.map (weight k)).sum ≤
          (if key turn.event = k then allowance turn.event else 0) +
            reserve k shared + weight k task)
    (actions : List (Action κ ι)) :
    ((events (Trace.history (perform program) start actions)).map cost).sum ≤
      ((events (Trace.history (perform program) start actions)).map
        allowance).sum := by
  have balanced : ∀ k, _ ≤ _ := fun k =>
    cost_le_allowance
      (fun event => if key event = k then cost event else 0)
      (fun event => if key event = k then allowance event else 0)
      (reserve k) (weight k) (nothing k) empty (launched k) (paid k) actions
  generalize events (Trace.history (perform program) start actions) = found
    at balanced ⊢
  have within : ∀ event ∈ found, key event ∈ (found.map key).toFinset := by
    intro event member
    exact List.mem_toFinset.mpr (List.mem_map_of_mem member)
  rw [← sum_by_key key cost found _ within,
    ← sum_by_key key allowance found _ within]
  exact Finset.sum_le_sum (fun k _ => balanced k)

/-- An amount due at every event of a kind. -/
theorem sum_map_ite (kind : ο → Bool) (amount : Nat) (events : List ο) :
    (events.map (fun event => if kind event then amount else 0)).sum =
      amount * events.countP kind := by
  induction events with
  | nil => rfl
  | cons event events ih =>
      rw [List.map_cons, List.sum_cons, ih, List.countP_cons]
      cases kind event with
      | false => simp
      | true =>
          simp only [if_true, Nat.mul_add, Nat.mul_one]
          omega

end TaskPool
