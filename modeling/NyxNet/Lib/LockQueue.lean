import NyxNet.Lib.GuardedTask
import Mathlib.Data.List.Nodup

/-!
# Tasks that queue for locks

Several tasks take and drop guards of the same locks.  Every lock is given in the
order in which it was asked for, so that a task also waits behind those who wait
before it.  When all locks but one are only ever asked for reading, and no task
asks for that one under a guard of its own, the tasks never wait for each other
without end.
-/

namespace LockQueue

/-- A statement of a task, as far as locks go. -/
inductive LockStep (L : Type) where
  | acquire (guard : Guard L)
  | release (guard : Guard L)
  deriving DecidableEq, Repr

structure Worker (L : Type) where
  held : List (Guard L)
  code : List (LockStep L)
  deriving DecidableEq

/-- The tasks, and who waits for which guard, the longest waiting first. -/
structure Crew (L : Type) where
  workers : List (Worker L)
  waiting : List (Nat × Guard L)
  deriving DecidableEq

variable {L : Type} [DecidableEq L]

/-- No guard of any task is in the way. -/
def Crew.Free (crew : Crew L) (asked : Guard L) : Prop :=
  ∀ worker ∈ crew.workers, GuardedTask.Free worker.held asked

instance Crew.Free.decidable (crew : Crew L) (asked : Guard L) :
    Decidable (crew.Free asked) :=
  inferInstanceAs (Decidable (∀ worker ∈ crew.workers, _))

/-- The first who waits for that lock. -/
def Crew.next (crew : Crew L) (lock : L) : Option (Nat × Guard L) :=
  crew.waiting.find? fun request => request.2.lock = lock

/-- One step of a task; there is none when it has to wait or has ended. -/
def step (crew : Crew L) (index : Nat) : Option (Crew L) :=
  match crew.workers[index]? with
  | none => none
  | some ⟨_, []⟩ => none
  | some ⟨held, .release guard :: code⟩ =>
      some { crew with
        workers := crew.workers.set index ⟨held.erase guard, code⟩ }
  | some ⟨held, .acquire guard :: code⟩ =>
      if (index, guard) ∈ crew.waiting then
        if crew.next guard.lock = some (index, guard) ∧ crew.Free guard then
          some {
            workers := crew.workers.set index ⟨guard :: held, code⟩
            waiting := crew.waiting.erase (index, guard) }
        else none
      else some { crew with waiting := crew.waiting ++ [(index, guard)] }

/-- A run: in every turn one task moves if it can. -/
def run (crew : Crew L) : List Nat → Crew L
  | [] => crew
  | index :: schedule => run ((step crew index).getD crew) schedule

def Crew.Ended (crew : Crew L) : Prop :=
  ∀ worker ∈ crew.workers, worker.code = []

/-- Not all have ended, and none can move. -/
def Crew.Stuck (crew : Crew L) : Prop :=
  ¬ crew.Ended ∧ ∀ index, step crew index = none

/-- The tasks before their first statement. -/
def start (codes : List (List (LockStep L))) : Crew L where
  workers := codes.map fun code => ⟨[], code⟩
  waiting := []

theorem run_append (crew : Crew L) (early late : List Nat) :
    run crew (early ++ late) = run (run crew early) late := by
  induction early generalizing crew with
  | nil => rfl
  | cons index early ih => exact ih _

/-- Everything a step can do: drop a guard, take one or ask for one. -/
inductive Moved (crew : Crew L) (index : Nat) : Crew L → Prop where
  | release {held : List (Guard L)} {guard : Guard L}
      {code : List (LockStep L)}
      (here : crew.workers[index]? = some ⟨held, .release guard :: code⟩) :
      Moved crew index { crew with
        workers := crew.workers.set index ⟨held.erase guard, code⟩ }
  | grant {held : List (Guard L)} {guard : Guard L} {code : List (LockStep L)}
      (here : crew.workers[index]? = some ⟨held, .acquire guard :: code⟩)
      (asked : (index, guard) ∈ crew.waiting) (free : crew.Free guard) :
      Moved crew index {
        workers := crew.workers.set index ⟨guard :: held, code⟩
        waiting := crew.waiting.erase (index, guard) }
  | ask {held : List (Guard L)} {guard : Guard L} {code : List (LockStep L)}
      (here : crew.workers[index]? = some ⟨held, .acquire guard :: code⟩)
      (fresh : (index, guard) ∉ crew.waiting) :
      Moved crew index
        { crew with waiting := crew.waiting ++ [(index, guard)] }

theorem moved_of_step {crew after : Crew L} {index : Nat}
    (stepped : step crew index = some after) : Moved crew index after := by
  unfold step at stepped
  split at stepped
  · cases stepped
  · cases stepped
  · next held guard code here =>
      cases stepped
      exact .release here
  · next held guard code here =>
      split at stepped
      · next asked =>
          split at stepped
          · next given =>
              cases stepped
              exact .grant here asked given.2
          · cases stepped
      · next fresh =>
          cases stepped
          exact .ask here fresh

/-- Who cannot move asks for a guard, and it is not its turn or a guard is in the
way. -/
theorem waits_of_step_eq_none {crew : Crew L} {index : Nat}
    {held : List (Guard L)} {first : LockStep L} {code : List (LockStep L)}
    (here : crew.workers[index]? = some ⟨held, first :: code⟩)
    (blocked : step crew index = none) :
    ∃ guard, first = .acquire guard ∧ (index, guard) ∈ crew.waiting ∧
      ¬ (crew.next guard.lock = some (index, guard) ∧ crew.Free guard) := by
  unfold step at blocked
  rw [here] at blocked
  cases first with
  | release guard => cases blocked
  | acquire guard =>
      dsimp only at blocked
      split at blocked
      · next asked =>
          split at blocked
          · cases blocked
          · next refused => exact ⟨guard, rfl, asked, refused⟩
      · cases blocked

section Contested

variable (hot : L)

/-- From a point where it holds that guard of the contested lock, if any, the
code asks for other locks for reading only, does not ask for the contested lock
again and ends without a guard of it. -/
def Disciplined : Option (Guard L) → List (LockStep L) → Bool
  | own, [] => own.isNone
  | own, .acquire guard :: code =>
      if guard.lock = hot then own.isNone && Disciplined (some guard) code
      else guard.access = .read && Disciplined own code
  | own, .release guard :: code =>
      if guard.lock = hot then own = some guard && Disciplined none code
      else Disciplined own code

theorem disciplined_append {own : Option (Guard L)}
    {early late : List (LockStep L)}
    (first : Disciplined hot own early = true)
    (second : Disciplined hot none late = true) :
    Disciplined hot own (early ++ late) = true := by
  induction early generalizing own with
  | nil =>
      rw [Disciplined, Option.isNone_iff_eq_none] at first
      rw [first]
      exact second
  | cons statement early ih =>
      rw [List.cons_append]
      cases statement with
      | acquire guard =>
          rw [Disciplined] at first ⊢
          split at first
          · next contested =>
              rw [if_pos contested]
              rw [Bool.and_eq_true] at first ⊢
              exact ⟨first.1, ih first.2⟩
          · next other =>
              rw [if_neg other]
              rw [Bool.and_eq_true] at first ⊢
              exact ⟨first.1, ih first.2⟩
      | release guard =>
          rw [Disciplined] at first ⊢
          split at first
          · next contested =>
              rw [if_pos contested]
              rw [Bool.and_eq_true] at first ⊢
              exact ⟨first.1, ih first.2⟩
          · next other =>
              rw [if_neg other]
              exact ih first

/-- A loop of so many turns. -/
theorem disciplined_replicate {turn : List (LockStep L)}
    (disciplined : Disciplined hot none turn = true) (count : Nat) :
    Disciplined hot none (List.replicate count turn).flatten = true := by
  induction count with
  | zero => rfl
  | succ count ih =>
      rw [List.replicate_succ, List.flatten_cons]
      exact disciplined_append hot disciplined ih

/-- The guards of a task that goes by the discipline. -/
structure Worker.Sound (worker : Worker L) (own : Option (Guard L)) :
    Prop where
  contested : worker.held.filter (fun guard => guard.lock = hot) = own.toList
  read : ∀ guard ∈ worker.held, guard.lock ≠ hot → guard.access = .read
  code : Disciplined hot own worker.code = true

/-- Every task goes by the discipline, and who waits is about to take what it
waits for. -/
structure Crew.Sound (crew : Crew L) : Prop where
  workers : ∀ worker ∈ crew.workers, ∃ own, worker.Sound hot own
  waiting : ∀ request ∈ crew.waiting, ∃ held code,
    crew.workers[request.1]? = some ⟨held, .acquire request.2 :: code⟩
  nodup : crew.waiting.Nodup

variable {hot}

theorem Worker.Sound.acquire {held : List (Guard L)} {guard : Guard L}
    {code : List (LockStep L)} {own : Option (Guard L)}
    (sound : Worker.Sound hot ⟨held, .acquire guard :: code⟩ own) :
    ∃ after, Worker.Sound hot ⟨guard :: held, code⟩ after := by
  obtain ⟨hotHeld, read, disciplined⟩ := sound
  rw [Disciplined] at disciplined
  by_cases contested : guard.lock = hot
  · rw [if_pos contested, Bool.and_eq_true, Option.isNone_iff_eq_none]
      at disciplined
    refine ⟨some guard, ?_, ?_, disciplined.2⟩
    · rw [disciplined.1] at hotHeld
      rw [List.filter_cons_of_pos (by simpa using contested), hotHeld]
      rfl
    · intro other member different
      rcases List.mem_cons.mp member with same | earlier
      · exact absurd (same ▸ contested) different
      · exact read other earlier different
  · rw [if_neg contested, Bool.and_eq_true, decide_eq_true_iff] at disciplined
    refine ⟨own, ?_, ?_, disciplined.2⟩
    · rw [List.filter_cons_of_neg (by simpa using contested)]
      exact hotHeld
    · intro other member different
      rcases List.mem_cons.mp member with same | earlier
      · rw [same]
        exact disciplined.1
      · exact read other earlier different

theorem Worker.Sound.release {held : List (Guard L)} {guard : Guard L}
    {code : List (LockStep L)} {own : Option (Guard L)}
    (sound : Worker.Sound hot ⟨held, .release guard :: code⟩ own) :
    ∃ after, Worker.Sound hot ⟨held.erase guard, code⟩ after := by
  obtain ⟨hotHeld, read, disciplined⟩ := sound
  rw [Disciplined] at disciplined
  have readAfter : ∀ other ∈ held.erase guard, other.lock ≠ hot →
      other.access = .read :=
    fun other member => read other (List.mem_of_mem_erase member)
  by_cases contested : guard.lock = hot
  · rw [if_pos contested, Bool.and_eq_true, decide_eq_true_iff] at disciplined
    refine ⟨none, ?_, readAfter, disciplined.2⟩
    rw [disciplined.1] at hotHeld
    rw [← List.erase_filter, hotHeld]
    simp
  · rw [if_neg contested] at disciplined
    refine ⟨own, ?_, readAfter, disciplined⟩
    rw [← List.erase_filter, hotHeld, List.erase_of_not_mem]
    intro member
    rw [← hotHeld, List.mem_filter, decide_eq_true_iff] at member
    exact contested member.2

variable {crew : Crew L}

/-- Another statement of the same task is not the one it waits at. -/
theorem Crew.Sound.ne_of_waiting (sound : crew.Sound hot) {index : Nat}
    {worker : Worker L} {request : Nat × Guard L}
    (here : crew.workers[index]? = some worker)
    (member : request ∈ crew.waiting) (same : request.1 = index) :
    ∃ held code, worker = ⟨held, .acquire request.2 :: code⟩ := by
  obtain ⟨held, code, found⟩ := sound.waiting request member
  rw [same, here] at found
  exact ⟨held, code, Option.some.inj found⟩

theorem Crew.Sound.set (sound : crew.Sound hot) {index : Nat}
    {worker : Worker L} (changed : ∃ own, worker.Sound hot own) :
    ∀ other ∈ crew.workers.set index worker, ∃ own, other.Sound hot own := by
  intro other member
  rcases List.mem_or_eq_of_mem_set member with earlier | same
  · exact sound.workers other earlier
  · rw [same]
    exact changed

theorem Crew.Sound.moved (sound : crew.Sound hot) {index : Nat}
    {after : Crew L} (moved : Moved crew index after) :
    after.Sound hot := by
  cases moved with
  | @release held guard code here =>
      obtain ⟨own, soundHere⟩ :=
        sound.workers _ (List.mem_of_getElem? here)
      refine ⟨sound.set soundHere.release, ?_, sound.nodup⟩
      intro request member
      by_cases same : request.1 = index
      · obtain ⟨_, _, eq⟩ := sound.ne_of_waiting here member same
        cases eq
      · rw [List.getElem?_set_ne (Ne.symm same)]
        exact sound.waiting request member
  | @grant held guard code here asked free =>
      obtain ⟨own, soundHere⟩ :=
        sound.workers _ (List.mem_of_getElem? here)
      refine ⟨sound.set soundHere.acquire, ?_, sound.nodup.erase _⟩
      intro request member
      obtain ⟨different, earlier⟩ := sound.nodup.mem_erase_iff.mp member
      by_cases same : request.1 = index
      · obtain ⟨_, _, eq⟩ := sound.ne_of_waiting here earlier same
        cases eq
        exact (different (Prod.ext same rfl)).elim
      · rw [List.getElem?_set_ne (Ne.symm same)]
        exact sound.waiting request earlier
  | @ask held guard code here fresh =>
      refine ⟨sound.workers, ?_, ?_⟩
      · intro request member
        rcases List.mem_append.mp member with earlier | last
        · exact sound.waiting request earlier
        · rw [List.mem_singleton.mp last]
          exact ⟨held, code, here⟩
      · rw [← List.concat_eq_append]
        exact List.Nodup.concat fresh sound.nodup

theorem Crew.Sound.run (sound : crew.Sound hot) (schedule : List Nat) :
    (run crew schedule).Sound hot := by
  induction schedule generalizing crew with
  | nil => exact sound
  | cons index schedule ih =>
      rw [LockQueue.run]
      cases stepped : step crew index with
      | none => exact ih sound
      | some after => exact ih (sound.moved (moved_of_step stepped))

theorem sound_start (codes : List (List (LockStep L)))
    (disciplined : ∀ code ∈ codes, Disciplined hot none code = true) :
    (start codes).Sound hot := by
  refine ⟨?_, List.forall_mem_nil _, List.nodup_nil⟩
  intro worker member
  obtain ⟨code, among, same⟩ := List.mem_map.mp member
  rw [← same]
  exact ⟨none, rfl, List.forall_mem_nil _, disciplined code among⟩

/-- What a task asks for beside the contested lock nobody is in the way of. -/
theorem Crew.Sound.free (sound : crew.Sound hot) {index : Nat}
    {held : List (Guard L)} {guard : Guard L} {code : List (LockStep L)}
    (here : crew.workers[index]? = some ⟨held, .acquire guard :: code⟩)
    (other : guard.lock ≠ hot) : crew.Free guard := by
  obtain ⟨_, _, _, disciplined⟩ :=
    sound.workers _ (List.mem_of_getElem? here)
  rw [Disciplined, if_neg other, Bool.and_eq_true, decide_eq_true_iff]
    at disciplined
  intro worker member own among excludes
  obtain ⟨_, _, read, _⟩ := sound.workers worker member
  have ownRead := read own among (excludes.1 ▸ other)
  rcases excludes.2 with isWrite | isWrite
  · rw [ownRead] at isWrite
    cases isWrite
  · rw [disciplined.1] at isWrite
    cases isWrite

/-- When nobody can move, whoever waits waits for the contested lock, and it is
taken. -/
theorem Crew.Sound.taken_of_blocked (sound : crew.Sound hot)
    (blocked : ∀ index, step crew index = none)
    {request : Nat × Guard L} (waits : request ∈ crew.waiting) :
    request.2.lock = hot ∧ ∃ worker ∈ crew.workers,
      ∃ own ∈ worker.held, own.lock = hot := by
  -- The first in the queue for that lock would be next.
  obtain ⟨first, next⟩ : ∃ first, crew.next request.2.lock = some first := by
    apply Option.isSome_iff_exists.mp
    rw [Crew.next, List.find?_isSome]
    exact ⟨request, waits, decide_eq_true rfl⟩
  have found := next
  unfold Crew.next at found
  have sameLock : first.2.lock = request.2.lock := by
    simpa using List.find?_some found
  have firstWaits := List.mem_of_find?_eq_some found
  obtain ⟨held, code, here⟩ := sound.waiting first firstWaits
  obtain ⟨guard, same, _, refused⟩ :=
    waits_of_step_eq_none here (blocked first.1)
  cases same
  have notFree : ¬ crew.Free first.2 := by
    intro free
    apply refused
    rw [sameLock]
    exact ⟨next, free⟩
  have contested : first.2.lock = hot := by
    by_contra other
    exact notFree (sound.free here other)
  refine ⟨sameLock.symm.trans contested, ?_⟩
  unfold Crew.Free GuardedTask.Free at notFree
  push Not at notFree
  obtain ⟨worker, member, own, among, excludes⟩ := notFree
  exact ⟨worker, member, own, among, excludes.1.trans contested⟩

/-- The tasks never block each other: who holds the contested lock can go on. -/
theorem Crew.Sound.not_stuck (sound : crew.Sound hot) : ¬ crew.Stuck := by
  intro stuck
  obtain ⟨notEnded, blocked⟩ := stuck
  unfold Crew.Ended at notEnded
  push Not at notEnded
  obtain ⟨worker, member, going⟩ := notEnded
  obtain ⟨index, here⟩ := List.getElem?_of_mem member
  obtain ⟨held, code⟩ := worker
  cases code with
  | nil => exact going rfl
  | cons first code =>
      obtain ⟨guard, _, waits, _⟩ := waits_of_step_eq_none here (blocked index)
      obtain ⟨_, holder, among, own, holds, contested⟩ :=
        sound.taken_of_blocked blocked waits
      obtain ⟨position, there⟩ := List.getElem?_of_mem among
      obtain ⟨held, code⟩ := holder
      obtain ⟨guards, contestedGuards, _, disciplined⟩ :=
        sound.workers _ among
      have some : guards = Option.some own := by
        have listed : own ∈ guards.toList := by
          rw [← contestedGuards]
          exact List.mem_filter.mpr ⟨holds, decide_eq_true contested⟩
        exact Option.mem_toList.mp listed
      rw [some] at disciplined
      cases code with
      | nil => cases disciplined
      | cons second code =>
          obtain ⟨asked, same, waitsToo, _⟩ :=
            waits_of_step_eq_none there (blocked position)
          have again := (sound.taken_of_blocked blocked waitsToo).1
          rw [same, Disciplined, if_pos again] at disciplined
          cases disciplined

end Contested

section Deadlock

omit [DecidableEq L] in
theorem mem_start {codes : List (List (LockStep L))} {worker : Worker L}
    (member : worker ∈ (start codes).workers) :
    worker.held = [] ∧ worker.code ∈ codes := by
  obtain ⟨code, among, rfl⟩ := List.mem_map.mp member
  exact ⟨rfl, among⟩

omit [DecidableEq L] in
theorem held_start (codes : List (List (LockStep L))) :
    ∀ worker ∈ (start codes).workers, worker.held ⊆ [] := by
  intro worker member
  rw [(mem_start member).1]
  exact List.Subset.refl _

omit [DecidableEq L] in
theorem getElem?_start {codes : List (List (LockStep L))} {index : Nat}
    {code : List (LockStep L)} (there : codes[index]? = some code) :
    (start codes).workers[index]? = some ⟨[], code⟩ := by
  rw [start, List.getElem?_map, there]
  rfl

variable {crew : Crew L}

/-- The guards after that code. -/
def holds : List (Guard L) → List (LockStep L) → List (Guard L)
  | held, [] => held
  | held, .acquire guard :: code => holds (guard :: held) code
  | held, .release guard :: code => holds (held.erase guard) code

/-- Nothing in the code has to wait as long as the others hold no more than
that. -/
def Passes (others : List (Guard L)) :
    List (Guard L) → List (LockStep L) → Bool
  | _, [] => true
  | held, .acquire guard :: code =>
      GuardedTask.Free others guard && GuardedTask.Free held guard &&
        Passes others (guard :: held) code
  | held, .release guard :: code => Passes others (held.erase guard) code

/-- One task at some point of its code, and nobody waits. -/
def alone (workers : List (Worker L)) (index : Nat) (worker : Worker L) :
    Crew L where
  workers := workers.set index worker
  waiting := []

section Alone

variable {workers : List (Worker L)} {index : Nat}
  {held others : List (Guard L)} {guard : Guard L}
  {code rest : List (LockStep L)}

omit [DecidableEq L] in
theorem alone_eq {worker : Worker L}
    (here : workers[index]? = some worker) :
    alone workers index worker = ⟨workers, []⟩ := by
  obtain ⟨inRange, rfl⟩ := List.getElem?_eq_some_iff.mp here
  rw [alone, List.set_getElem_self]

theorem run_alone_acquire (inRange : index < workers.length)
    (free : (alone workers index ⟨held, .acquire guard :: code⟩).Free guard) :
    run (alone workers index ⟨held, .acquire guard :: code⟩) [index, index] =
      alone workers index ⟨guard :: held, code⟩ := by
  have here := List.getElem?_set_self
    (a := ⟨held, .acquire guard :: code⟩) inRange
  have asked :
      step (alone workers index ⟨held, .acquire guard :: code⟩) index = some {
        workers := workers.set index ⟨held, .acquire guard :: code⟩
        waiting := [(index, guard)] } := by
    simp only [step, alone, here]
    exact if_neg List.not_mem_nil
  have given : step {
        workers := workers.set index ⟨held, .acquire guard :: code⟩
        waiting := [(index, guard)] } index =
      some (alone workers index ⟨guard :: held, code⟩) := by
    have next : Crew.next {
          workers := workers.set index ⟨held, .acquire guard :: code⟩
          waiting := [(index, guard)] } guard.lock = some (index, guard) := by
      simp [Crew.next]
    simp only [step, here]
    rw [if_pos List.mem_cons_self, if_pos ⟨next, free⟩]
    simp [alone]
  rw [run, asked, Option.getD_some, run, given]
  rfl

theorem run_alone_release (inRange : index < workers.length) :
    run (alone workers index ⟨held, .release guard :: code⟩) [index] =
      alone workers index ⟨held.erase guard, code⟩ := by
  have here := List.getElem?_set_self
    (a := ⟨held, .release guard :: code⟩) inRange
  simp only [run, step, alone, here, Option.getD_some, List.set_set]

omit [DecidableEq L] in
theorem free_alone (bounded : ∀ worker ∈ workers, worker.held ⊆ others)
    (freeOthers : GuardedTask.Free others guard)
    (freeHere : GuardedTask.Free held guard) :
    (alone workers index ⟨held, code⟩).Free guard := by
  intro worker member
  rcases List.mem_or_eq_of_mem_set member with earlier | rfl
  · exact fun own among => freeOthers own (bounded worker earlier among)
  · exact freeHere

/-- A task that nobody is in the way of comes to the end of that code. -/
theorem exists_run_alone (inRange : index < workers.length)
    (bounded : ∀ worker ∈ workers, worker.held ⊆ others)
    (passes : Passes others held code = true) :
    ∃ schedule, run (alone workers index ⟨held, code ++ rest⟩) schedule =
      alone workers index ⟨holds held code, rest⟩ := by
  induction code generalizing held with
  | nil => exact ⟨[], rfl⟩
  | cons statement code ih =>
      cases statement with
      | acquire guard =>
          rw [Passes, Bool.and_eq_true, Bool.and_eq_true, decide_eq_true_iff,
            decide_eq_true_iff] at passes
          obtain ⟨⟨freeOthers, freeHere⟩, passesRest⟩ := passes
          obtain ⟨schedule, reaches⟩ := ih passesRest
          refine ⟨[index, index] ++ schedule, ?_⟩
          have taken :
              run (alone workers index
                ⟨held, .acquire guard :: (code ++ rest)⟩) [index, index] = _ :=
            run_alone_acquire inRange
              (free_alone bounded freeOthers freeHere)
          rw [run_append, List.cons_append, taken]
          exact reaches
      | release guard =>
          obtain ⟨schedule, reaches⟩ := ih passes
          refine ⟨[index] ++ schedule, ?_⟩
          rw [run_append, List.cons_append, run_alone_release inRange]
          exact reaches

/-- The same from the middle of a run; the others stay where they are. -/
theorem exists_run_from {crew : Crew L} (idle : crew.waiting = [])
    (here : crew.workers[index]? = some ⟨held, code ++ rest⟩)
    (bounded : ∀ worker ∈ crew.workers, worker.held ⊆ others)
    (passes : Passes others held code = true) :
    ∃ schedule, (run crew schedule).waiting = [] ∧
      (run crew schedule).workers[index]? = some ⟨holds held code, rest⟩ ∧
      ∀ other, index ≠ other →
        (run crew schedule).workers[other]? = crew.workers[other]? := by
  obtain ⟨workers, waiting⟩ := crew
  cases idle
  have inRange := (List.getElem?_eq_some_iff.mp here).1
  obtain ⟨schedule, reaches⟩ := exists_run_alone inRange bounded passes
  rw [alone_eq here] at reaches
  refine ⟨schedule, ?_⟩
  rw [reaches]
  exact ⟨rfl, List.getElem?_set_self inRange,
    fun other different => List.getElem?_set_ne different⟩

end Alone

/-- Whoever goes on asks for a guard that another one is in the way of. -/
def Crew.Blocked (crew : Crew L) : Prop :=
  ∀ worker ∈ crew.workers, ∀ first code, worker.code = first :: code →
    ∃ guard, first = .acquire guard ∧ ¬ crew.Free guard

omit [DecidableEq L] in
theorem Crew.Blocked.of_workers {after : Crew L} (blocked : crew.Blocked)
    (same : after.workers = crew.workers) : after.Blocked := by
  unfold Crew.Blocked Crew.Free
  rw [same]
  exact blocked

/-- The only thing left to do is to ask. -/
theorem Crew.Blocked.step (blocked : crew.Blocked) (index : Nat) :
    ((step crew index).getD crew).workers = crew.workers ∧
      crew.waiting ⊆ ((LockQueue.step crew index).getD crew).waiting ∧
      (∀ held guard code,
        crew.workers[index]? = some ⟨held, .acquire guard :: code⟩ →
          (index, guard) ∈ ((LockQueue.step crew index).getD crew).waiting) := by
  cases stepped : LockQueue.step crew index with
  | none =>
      refine ⟨rfl, List.Subset.refl _, ?_⟩
      intro held guard code here
      obtain ⟨_, same, waits, _⟩ := waits_of_step_eq_none here stepped
      cases same
      exact waits
  | some after =>
      cases moved_of_step stepped with
      | release here =>
          obtain ⟨_, same, _⟩ :=
            blocked _ (List.mem_of_getElem? here) _ _ rfl
          cases same
      | grant here asked free =>
          obtain ⟨_, same, taken⟩ :=
            blocked _ (List.mem_of_getElem? here) _ _ rfl
          cases same
          exact absurd free taken
      | ask here fresh =>
          refine ⟨rfl, List.subset_append_left _ _, ?_⟩
          intro held guard code there
          rw [here] at there
          cases there
          exact List.mem_append_right _ (List.mem_singleton_self _)

theorem Crew.Blocked.run (blocked : crew.Blocked) (schedule : List Nat) :
    (run crew schedule).workers = crew.workers ∧
      crew.waiting ⊆ (LockQueue.run crew schedule).waiting ∧
      (∀ index ∈ schedule, ∀ held guard code,
        crew.workers[index]? = some ⟨held, .acquire guard :: code⟩ →
          (index, guard) ∈ (LockQueue.run crew schedule).waiting) := by
  induction schedule generalizing crew with
  | nil => exact ⟨rfl, List.Subset.refl _, List.forall_mem_nil _⟩
  | cons index schedule ih =>
      obtain ⟨sameWorkers, kept, asks⟩ := blocked.step index
      obtain ⟨workersAfter, keptAfter, asksAfter⟩ :=
        ih (blocked.of_workers sameWorkers)
      refine ⟨workersAfter.trans sameWorkers,
        fun _ member => keptAfter (kept member), ?_⟩
      intro other member held guard code here
      rcases List.mem_cons.mp member with rfl | later
      · exact keptAfter (asks held guard code here)
      · exact asksAfter other later held guard code (sameWorkers ▸ here)

/-- Once everyone has asked nobody moves again. -/
theorem Crew.Blocked.exists_stuck (blocked : crew.Blocked)
    (going : ¬ crew.Ended) : ∃ schedule, (LockQueue.run crew schedule).Stuck := by
  refine ⟨List.range crew.workers.length, ?_, ?_⟩
  · unfold Crew.Ended
    rw [(blocked.run _).1]
    exact going
  · intro index
    obtain ⟨sameWorkers, _, asks⟩ :=
      blocked.run (List.range crew.workers.length)
    by_contra moves
    obtain ⟨after, stepped⟩ := Option.ne_none_iff_exists'.mp moves
    have stillBlocked := blocked.of_workers sameWorkers
    cases moved_of_step stepped with
    | release here =>
        obtain ⟨_, same, _⟩ :=
          stillBlocked _ (List.mem_of_getElem? here) _ _ rfl
        cases same
    | grant here asked free =>
        obtain ⟨_, same, taken⟩ :=
          stillBlocked _ (List.mem_of_getElem? here) _ _ rfl
        cases same
        exact taken free
    | ask here fresh =>
        rw [sameWorkers] at here
        obtain ⟨inRange, _⟩ := List.getElem?_eq_some_iff.mp here
        exact fresh (asks index (List.mem_range.mpr inRange) _ _ _ here)

/-- Two tasks deadlock all when each can come to a point where it asks for what
the other one holds, and everyone else begins with what one of them holds. -/
theorem exists_stuck_of_crossed {codes : List (List (LockStep L))}
    {first second : Nat} (different : first ≠ second)
    {firstEarly firstLate secondEarly secondLate : List (LockStep L)}
    {firstAsked secondAsked : Guard L}
    (firstCode :
      codes[first]? = some (firstEarly ++ .acquire firstAsked :: firstLate))
    (secondCode :
      codes[second]? = some (secondEarly ++ .acquire secondAsked :: secondLate))
    (firstPasses : Passes [] [] firstEarly = true)
    (secondPasses : Passes (holds [] firstEarly) [] secondEarly = true)
    (firstWaits : ¬ GuardedTask.Free (holds [] secondEarly) firstAsked)
    (secondWaits : ¬ GuardedTask.Free (holds [] firstEarly) secondAsked)
    (othersWait : ∀ code ∈ codes, ∀ statement rest, code = statement :: rest →
      ∃ asked, statement = .acquire asked ∧
        ¬ GuardedTask.Free (holds [] firstEarly ++ holds [] secondEarly)
          asked) :
    ∃ schedule, (run (start codes) schedule).Stuck := by
  -- The first one alone, then the second one beside it.
  obtain ⟨firstSchedule, firstIdle, firstHere, firstFrame⟩ :=
    exists_run_from rfl (getElem?_start firstCode) (held_start codes)
      firstPasses
  have others : ∀ {index : Nat} {worker : Worker L}, first ≠ index →
      (run (start codes) firstSchedule).workers[index]? = some worker →
        worker.held = [] ∧ worker.code ∈ codes := by
    intro index worker different here
    exact mem_start (List.mem_of_getElem? (firstFrame index different ▸ here))
  obtain ⟨secondSchedule, secondIdle, secondHere, secondFrame⟩ :=
    exists_run_from firstIdle
      ((firstFrame second different).trans (getElem?_start secondCode))
      (fun worker member => by
        obtain ⟨index, here⟩ := List.getElem?_of_mem member
        by_cases same : first = index
        · rw [← same, firstHere] at here
          cases here
          exact List.Subset.refl _
        · rw [(others same here).1]
          exact List.nil_subset _) secondPasses
  have firstThere :=
    (secondFrame first (Ne.symm different)).trans firstHere
  -- Each of the two holds what the other asks for.
  have blocked :
      (run (run (start codes) firstSchedule) secondSchedule).Blocked := by
    have byFirst := List.mem_of_getElem? firstThere
    have bySecond := List.mem_of_getElem? secondHere
    intro worker member statement rest begins
    obtain ⟨index, here⟩ := List.getElem?_of_mem member
    by_cases isFirst : first = index
    · rw [← isFirst, firstThere] at here
      cases here
      cases begins
      exact ⟨_, rfl, fun free => firstWaits (free _ bySecond)⟩
    · by_cases isSecond : second = index
      · rw [← isSecond, secondHere] at here
        cases here
        cases begins
        exact ⟨_, rfl, fun free => secondWaits (free _ byFirst)⟩
      · rw [secondFrame index isSecond] at here
        obtain ⟨asked, same, taken⟩ :=
          othersWait _ (others isFirst here).2 statement rest begins
        refine ⟨asked, same, fun free => taken ?_⟩
        intro own held
        rcases List.mem_append.mp held with inFirst | inSecond
        · exact free _ byFirst own inFirst
        · exact free _ bySecond own inSecond
  obtain ⟨asking, stuck⟩ := blocked.exists_stuck
    (fun ended =>
      List.cons_ne_nil _ _ (ended _ (List.mem_of_getElem? firstThere)))
  refine ⟨firstSchedule ++ secondSchedule ++ asking, ?_⟩
  rw [run_append, run_append]
  exact stuck

end Deadlock

end LockQueue
