import Mathlib.Data.List.Count
import Mathlib.Data.Nat.Basic
import Mathlib.Tactic.Common
import NyxNet.Lib.PriorityQueue
import NyxNet.Lib.Time
import NyxNet.Lib.Trace
import NyxNet.Lib.Word

/-!
# The event queue

`EventSystem` of `nyx-daemon/src/event_system.rs`: publishers insert events by
priority, the processor takes up to ten from the front and hands them to the
subscribers.  A full queue makes room at the cost of its low-priority events.
A critical event that could not be distributed would go back to the front, but
the distribution never reports a failure.
-/

namespace NyxNet.Events

inductive EventPriority where
  | low
  | normal
  | high
  | critical
  deriving Repr

namespace EventPriority

/-- The discriminant, by which priorities are ordered. -/
def rank : EventPriority → Nat
  | .low => 0
  | .normal => 1
  | .high => 2
  | .critical => 3

theorem rank_injective : Function.Injective rank := by
  intro left right same
  cases left <;> cases right <;> first | rfl | cases same

instance : LinearOrder EventPriority :=
  LinearOrder.lift' rank rank_injective

def fromSeverity (severity : String) : EventPriority :=
  if severity = "critical" then .critical
  else if severity = "error" then .high
  else if severity = "warn" ∨ severity = "warning" then .normal
  else .low

end EventPriority

inductive EventData where
  | streamEvent (streamId : UInt32)
  | other
  deriving DecidableEq, Repr

structure Event where
  type : String
  detail : String
  severity : String
  attributes : List (String × String)
  eventData : Option EventData
  deriving DecidableEq, Repr

structure PrioritizedEvent where
  event : Event
  priority : EventPriority
  createdAt : SystemTime
  retryCount : UInt32
  deriving DecidableEq

def PrioritizedEvent.new (event : Event) (now : SystemTime) :
    PrioritizedEvent where
  event := event
  priority := .fromSeverity event.severity
  createdAt := now
  retryCount := 0

structure InternalEventFilter where
  types : List String
  streamIds : List UInt32
  severities : List String
  attributes : List (String × String)
  deriving DecidableEq, Repr

/-- Whether an event carries the value that a filter asks for. -/
def Event.hasAttribute (event : Event) (expected : String × String) : Bool :=
  event.attributes.lookup expected.1 = some expected.2

def InternalEventFilter.matches (filter : InternalEventFilter)
    (event : Event) : Bool :=
  if ¬ filter.types.isEmpty ∧ ¬ filter.types.contains event.type then
    false
  else if ¬ filter.severities.isEmpty ∧
      ¬ filter.severities.contains event.severity then
    false
  else
    let streamMatches :=
      if filter.streamIds.isEmpty then
        true
      else
        match event.eventData with
        | some (.streamEvent streamId) => filter.streamIds.contains streamId
        | some .other => false
        | none => false
    streamMatches && filter.attributes.all event.hasAttribute

structure EventSubscriber where
  id : String
  filter : InternalEventFilter
  isActive : Bool
  deriving DecidableEq, Repr

/-- How `timeout` around the sending ends. -/
inductive SendResult where
  | sent
  | failed
  | timedOut
  deriving DecidableEq, Repr

/-- The failed deliveries of an event.  A copy of the subscriber does the
sending, so that the subscribers stay as they are. -/
def failedDeliveries (subscribers : List EventSubscriber)
    (sendEvent : EventSubscriber → SendResult) (event : Event) : Nat :=
  subscribers.countP (fun subscriber =>
    subscriber.isActive && subscriber.filter.matches event &&
      sendEvent subscriber != .sent)

/-- `distribute_event` with what it adds to `failed_deliveries`.  Whatever the
subscribers do, it returns `Ok(())`. -/
def distributeEvent (subscribers : List EventSubscriber)
    (sendEvent : EventSubscriber → SendResult) (event : Event) :
    Except String Unit × Nat :=
  (.ok (), failedDeliveries subscribers sendEvent event)

abbrev Queue : Type := List PrioritizedEvent

def staleAfter : Duration := Duration.fromSecs 300

/-- The loop that goes on while the queue is longer than the limit and has a
low-priority event. -/
def dropOldestLow (limit : Nat) (queue : Queue) : Queue :=
  if limit < queue.length then
    match _found : queue.findIdx? (fun event => event.priority = .low) with
    | some pos => dropOldestLow limit (queue.eraseIdx pos)
    | none => queue
  else
    queue
termination_by queue.length
decreasing_by
  have inside := (List.findIdx?_eq_some_iff_findIdx_eq.mp _found).1
  rw [List.length_eraseIdx_of_lt inside]
  omega

/-- `usize` multiplication; no result is a panic. -/
def mulUsize : OverflowMode → UInt64 → UInt64 → Option UInt64
  | .wrapping, left, right => some (left * right)
  | .checked, left, right =>
      if left.toNat * right.toNat < 2 ^ 64 then some (left * right) else none

/-- `drop_low_priority_events`.  An error is a panic with the queue it leaves:
the time is computed before and the limit after the first events are gone. -/
def dropLowPriorityEvents (mode : OverflowMode) (maxQueueSize : UInt64)
    (now : SystemTime) (queue : Queue) : Except Queue Queue :=
  match now.checkedSub staleAfter with
  | none => .error queue
  | some cutoffTime =>
      let retained := queue.filter (fun event =>
        ¬ (event.priority = .low ∧ event.createdAt.asNanos < cutoffTime.asNanos))
      match mulUsize mode maxQueueSize 9 with
      | none => .error retained
      | some product => .ok (dropOldestLow (product / 10).toNat retained)

def makeRoom (mode : OverflowMode) (maxQueueSize : UInt64) (now : SystemTime)
    (queue : Queue) : Except Queue Queue :=
  if maxQueueSize.toNat ≤ queue.length then
    dropLowPriorityEvents mode maxQueueSize now queue
  else
    .ok queue

def insertByPriority (event : PrioritizedEvent) (queue : Queue) : Queue :=
  let insertPos := (queue.findIdx? (fun other =>
    other.priority < event.priority)).getD queue.length
  queue.insertIdx insertPos event

/-- The queue, and what each call of `process_event_batch` still has to
distribute. -/
structure EventSystem where
  queue : Queue
  batches : List (List PrioritizedEvent)

def EventSystem.new : EventSystem := ⟨[], []⟩

structure Config where
  mode : OverflowMode
  maxQueueSize : UInt64
  subscribers : List EventSubscriber

/-- A step under the lock of the queue, or the distribution of one event. -/
inductive Step where
  | publishEvent (event : Event) (createdAt now : SystemTime)
  | takeBatch
  | distribute (batch : Nat) (sendEvent : EventSubscriber → SendResult)

/-- What a step puts into the queue, takes from its front, discards, and puts
back. -/
structure Change where
  published : List PrioritizedEvent
  taken : List PrioritizedEvent
  dropped : List PrioritizedEvent
  retried : List PrioritizedEvent
  deriving DecidableEq

def publishEvent (config : Config) (system : EventSystem) (event : Event)
    (createdAt now : SystemTime) : Change × EventSystem :=
  let prioritizedEvent := PrioritizedEvent.new event createdAt
  match makeRoom config.mode config.maxQueueSize now system.queue with
  | .error left =>
      (⟨[], [], system.queue.diff left, []⟩, { system with queue := left })
  | .ok room =>
      (⟨[prioritizedEvent], [], system.queue.diff room, []⟩,
        { system with queue := insertByPriority prioritizedEvent room })

/-- The first lock of `process_event_batch`. -/
def takeBatch (system : EventSystem) : Change × EventSystem :=
  let batchSize := min 10 system.queue.length
  let batch := system.queue.take batchSize
  (⟨[], batch, [], []⟩,
    { queue := system.queue.drop batchSize
      batches := system.batches ++ [batch] })

/-- One turn of the loop of `process_event_batch`. -/
def distributeNext (config : Config) (system : EventSystem) (index : Nat)
    (sendEvent : EventSubscriber → SendResult) : Change × EventSystem :=
  match system.batches[index]? with
  | some (prioritizedEvent :: rest) =>
      let batches := system.batches.set index rest
      match (distributeEvent config.subscribers sendEvent
          prioritizedEvent.event).1 with
      | .ok () => (⟨[], [], [], []⟩, { system with batches })
      | .error _ =>
          if prioritizedEvent.priority = .critical ∧
              prioritizedEvent.retryCount < 3 then
            let retryEvent := { prioritizedEvent with
              retryCount := prioritizedEvent.retryCount + 1 }
            (⟨[], [], [], [retryEvent]⟩,
              { queue := retryEvent :: system.queue, batches })
          else
            (⟨[], [], [], []⟩, { system with batches })
  | _ => (⟨[], [], [], []⟩, system)

def step (config : Config) (system : EventSystem) :
    Step → Change × EventSystem
  | .publishEvent event createdAt now =>
      publishEvent config system event createdAt now
  | .takeBatch => takeBatch system
  | .distribute batch sendEvent => distributeNext config system batch sendEvent

/-- Making room panics: the time or the limit does not fit its type. -/
def PanicsOnRoom (config : Config) (now : SystemTime) : Prop :=
  now.checkedSub staleAfter = none ∨
    mulUsize config.mode config.maxQueueSize 9 = none

/-- The event that a step wants to publish. -/
def Step.offered : Step → List PrioritizedEvent
  | .publishEvent event createdAt _ => [PrioritizedEvent.new event createdAt]
  | .takeBatch => []
  | .distribute .. => []

def Step.Panics (config : Config) : Step → Prop
  | .publishEvent _ _ now => PanicsOnRoom config now
  | .takeBatch => False
  | .distribute .. => False

theorem insertByPriority_eq (event : PrioritizedEvent) (queue : Queue) :
    insertByPriority event queue =
      PriorityQueue.insert PrioritizedEvent.priority event queue := rfl

/-- Only low-priority events are missing. -/
structure DropsLow (before after : Queue) : Prop where
  sub : after.Sublist before
  low : ∀ event ∈ before.diff after, event.priority = .low

theorem mem_diff_of_sublist {before after : Queue}
    (sub : after.Sublist before) {event : PrioritizedEvent}
    (missing : event ∈ before.diff after) :
    after.count event < before.count event := by
  have counted := List.count_diff event before after
  have positive := List.count_pos_iff.mpr missing
  have fewer := sub.count_le event
  omega

theorem dropsLow_of_kept {before after : Queue} (sub : after.Sublist before)
    (kept : ∀ event, event.priority ≠ .low →
      after.count event = before.count event) : DropsLow before after where
  sub := sub
  low := by
    intro event missing
    by_contra precious
    have fewer := mem_diff_of_sublist sub missing
    rw [kept event precious] at fewer
    exact Nat.lt_irrefl _ fewer

theorem DropsLow.kept {before after : Queue} (drops : DropsLow before after)
    {event : PrioritizedEvent} (precious : event.priority ≠ .low) :
    after.count event = before.count event := by
  have counted := List.count_diff event before after
  have fewer := drops.sub.count_le event
  have nobody : (before.diff after).count event = 0 :=
    List.count_eq_zero.mpr (fun missing =>
      precious (drops.low event missing))
  omega

theorem DropsLow.refl (queue : Queue) : DropsLow queue queue :=
  dropsLow_of_kept (List.Sublist.refl queue) (fun _ _ => rfl)

theorem DropsLow.trans {first second third : Queue}
    (before : DropsLow first second) (after : DropsLow second third) :
    DropsLow first third :=
  dropsLow_of_kept (after.sub.trans before.sub) (fun _ precious =>
    (after.kept precious).trans (before.kept precious))

theorem dropsLow_filter (queue : Queue) (keeps : PrioritizedEvent → Bool)
    (precious : ∀ event, event.priority ≠ .low → keeps event = true) :
    DropsLow queue (queue.filter keeps) := by
  apply dropsLow_of_kept List.filter_sublist
  intro event notLow
  exact List.count_filter (precious event notLow)

theorem dropsLow_eraseIdx {queue : Queue} {pos : Nat}
    {event : PrioritizedEvent} (found : queue[pos]? = some event)
    (low : event.priority = .low) : DropsLow queue (queue.eraseIdx pos) := by
  apply dropsLow_of_kept (List.eraseIdx_sublist queue pos)
  intro other notLow
  obtain ⟨inside, here⟩ := List.getElem?_eq_some_iff.mp found
  have split : queue = queue.take pos ++ event :: queue.drop (pos + 1) := by
    rw [← here, ← List.drop_eq_getElem_cons inside, List.take_append_drop]
  have different : event ≠ other := by
    intro same
    exact notLow (same ▸ low)
  rw [List.eraseIdx_eq_take_drop_succ]
  conv => rhs; rw [split]
  rw [List.count_append, List.count_append, List.count_cons_of_ne different]

theorem dropOldestLow_dropsLow (limit : Nat) (queue : Queue) :
    DropsLow queue (dropOldestLow limit queue) := by
  fun_induction dropOldestLow limit queue with
  | case1 queue tooLong pos found ih =>
      obtain ⟨inside, isLow, _⟩ := List.findIdx?_eq_some_iff_getElem.mp found
      have here := List.getElem?_eq_getElem inside
      exact (dropsLow_eraseIdx here (of_decide_eq_true isLow)).trans ih
  | case2 queue tooLong nothing => exact DropsLow.refl queue
  | case3 queue short => exact DropsLow.refl queue

/-- The loop stops only when the queue is short enough or has nothing left that
may be dropped. -/
theorem dropOldestLow_done (limit : Nat) (queue : Queue) :
    (dropOldestLow limit queue).length ≤ limit ∨
      ∀ event ∈ dropOldestLow limit queue, event.priority ≠ .low := by
  fun_induction dropOldestLow limit queue with
  | case1 queue tooLong pos found ih => exact ih
  | case2 queue tooLong nothing =>
      right
      intro event member
      simpa using List.findIdx?_eq_none_iff.mp nothing event member
  | case3 queue short => exact Or.inl (Nat.le_of_not_lt short)

/-- A full queue makes room, and a panic on the way leaves it, without any but
low-priority events. -/
theorem makeRoom_dropsLow {mode : OverflowMode} {maxQueueSize : UInt64}
    {now : SystemTime} {queue after : Queue}
    (made : makeRoom mode maxQueueSize now queue = .ok after ∨
      makeRoom mode maxQueueSize now queue = .error after) :
    DropsLow queue after := by
  unfold makeRoom dropLowPriorityEvents at made
  split at made
  · split at made
    · simp only [reduceCtorEq, Except.error.injEq, false_or] at made
      exact made ▸ DropsLow.refl queue
    · next cutoffTime _ =>
        have retains : DropsLow queue (queue.filter (fun event =>
            ¬ (event.priority = .low ∧
              event.createdAt.asNanos < cutoffTime.asNanos))) := by
          apply dropsLow_filter
          intro event notLow
          simp [notLow]
        simp only at made
        split at made
        · simp only [reduceCtorEq, Except.error.injEq, false_or] at made
          exact made ▸ retains
        · next product _ =>
            simp only [reduceCtorEq, Except.ok.injEq, or_false] at made
            exact made ▸ retains.trans (dropOldestLow_dropsLow _ _)
  · simp only [reduceCtorEq, Except.ok.injEq, or_false] at made
    exact made ▸ DropsLow.refl queue

/-- The distribution puts nothing back. -/
theorem distributeNext_queue (config : Config) (system : EventSystem)
    (index : Nat) (sendEvent : EventSubscriber → SendResult) :
    (distributeNext config system index sendEvent).1 = ⟨[], [], [], []⟩ ∧
      (distributeNext config system index sendEvent).2.queue =
        system.queue := by
  unfold distributeNext
  split
  · exact ⟨rfl, rfl⟩
  · exact ⟨rfl, rfl⟩

theorem makeRoom_ok {config : Config} {now : SystemTime}
    (noPanic : ¬ PanicsOnRoom config now) (queue : Queue) :
    ∃ room, makeRoom config.mode config.maxQueueSize now queue = .ok room := by
  unfold PanicsOnRoom at noPanic
  unfold makeRoom dropLowPriorityEvents
  split
  · cases cutoff : now.checkedSub staleAfter with
    | none => exact absurd (.inl cutoff) noPanic
    | some cutoffTime =>
        cases product : mulUsize config.mode config.maxQueueSize 9 with
        | none => exact absurd (.inr product) noPanic
        | some limit => exact ⟨_, rfl⟩
  · exact ⟨queue, rfl⟩

/-- A step publishes the event that it is called with, unless it panics. -/
theorem published_step (config : Config) (system : EventSystem) (input : Step) :
    (step config system input).1.published.Sublist input.offered ∧
      (¬ input.Panics config →
        (step config system input).1.published = input.offered) := by
  cases input with
  | publishEvent event createdAt now =>
      rw [step, publishEvent]
      split
      · next left panics =>
          refine ⟨List.nil_sublist _, fun noPanic => ?_⟩
          obtain ⟨room, made⟩ := makeRoom_ok noPanic system.queue
          rw [panics] at made
          cases made
      · exact ⟨List.Sublist.refl _, fun _ => rfl⟩
  | takeBatch => exact ⟨List.Sublist.refl _, fun _ => rfl⟩
  | distribute batch sendEvent =>
      rw [step, (distributeNext_queue config system batch sendEvent).1]
      exact ⟨List.Sublist.refl _, fun _ => rfl⟩

abbrev Past : Type := List (Step × Change)

def published (past : Past) : List PrioritizedEvent :=
  past.flatMap (fun entry => entry.2.published)

/-- The events that left the queue for processing, in order. -/
def taken (past : Past) : List PrioritizedEvent :=
  past.flatMap (fun entry => entry.2.taken)

def dropped (past : Past) : List PrioritizedEvent :=
  past.flatMap (fun entry => entry.2.dropped)

def retried (past : Past) : List PrioritizedEvent :=
  past.flatMap (fun entry => entry.2.retried)

/-- The account of the queue after a run. -/
structure Kept (past : Past) (system : EventSystem) : Prop where
  ledger : PriorityQueue.Ledger PrioritizedEvent.priority (· = .low)
    (published past) (taken past) (dropped past) system.queue
  noRetry : retried past = []

theorem Kept.quiet {past : Past} {before after : EventSystem}
    (kept : Kept past before) (same : after.queue = before.queue)
    (input : Step) : Kept (past ++ [(input, ⟨[], [], [], []⟩)]) after where
  ledger := by
    rw [same]
    simpa [published, taken, dropped] using kept.ledger
  noRetry := by simpa [retried] using kept.noRetry

theorem Kept.publishEvent {config : Config} {past : Past}
    {system : EventSystem} (kept : Kept past system) (event : Event)
    (createdAt now : SystemTime) (input : Step) :
    Kept (past ++
        [(input, (publishEvent config system event createdAt now).1)])
      (publishEvent config system event createdAt now).2 := by
  unfold Events.publishEvent
  simp only
  split
  · next left panics =>
      have drops := makeRoom_dropsLow (Or.inr panics)
      have ledger := kept.ledger.discard drops.sub drops.low
      constructor
      · simpa [published, taken, dropped] using ledger
      · simpa [retried] using kept.noRetry
  · next room made =>
      have drops := makeRoom_dropsLow (Or.inl made)
      have ledger := (kept.ledger.discard drops.sub drops.low).give
        (PrioritizedEvent.new event createdAt)
      constructor
      · rw [insertByPriority_eq]
        simpa [published, taken, dropped] using ledger
      · simpa [retried] using kept.noRetry

theorem Kept.takeBatch {past : Past} {system : EventSystem}
    (kept : Kept past system) (input : Step) :
    Kept (past ++ [(input, (takeBatch system).1)]) (takeBatch system).2 where
  ledger := by
    have ledger := kept.ledger.take (min 10 system.queue.length)
    simpa [published, taken, dropped, Events.takeBatch] using ledger
  noRetry := by simpa [retried, Events.takeBatch] using kept.noRetry

theorem Kept.step {config : Config} {past : Past} {system : EventSystem}
    (kept : Kept past system) (input : Step) :
    Kept (past ++ [(input, (step config system input).1)])
      (step config system input).2 := by
  cases input with
  | publishEvent event createdAt now =>
      exact kept.publishEvent event createdAt now _
  | takeBatch => exact kept.takeBatch _
  | distribute batch sendEvent =>
      obtain ⟨nothing, same⟩ :=
        distributeNext_queue config system batch sendEvent
      rw [Events.step, nothing]
      exact kept.quiet same _

theorem kept_run (config : Config) (steps : List Step) :
    Kept (Trace.history (step config) .new steps)
      (Trace.final (step config) .new steps) := by
  apply Trace.invariant
  · exact ⟨PriorityQueue.Ledger.empty, rfl⟩
  · intro past system input kept
    exact kept.step input

/-- What is published was to be published, and without a panic nothing of it is
left out. -/
theorem published_history (config : Config) (system : EventSystem)
    (steps : List Step) :
    (published (Trace.history (step config) system steps)).Sublist
        (steps.flatMap Step.offered) ∧
      ((∀ input ∈ steps, ¬ input.Panics config) →
        published (Trace.history (step config) system steps) =
          steps.flatMap Step.offered) := by
  induction steps generalizing system with
  | nil => exact ⟨List.Sublist.refl _, fun _ => rfl⟩
  | cons input steps ih =>
      obtain ⟨within, all⟩ := published_step config system input
      obtain ⟨restWithin, restAll⟩ := ih (step config system input).2
      rw [Trace.history, published, List.flatMap_cons, List.flatMap_cons]
      refine ⟨within.append restWithin, fun noPanic => ?_⟩
      rw [all (noPanic input List.mem_cons_self)]
      exact congrArg (input.offered ++ ·) (restAll fun other member =>
        noPanic other (List.mem_cons_of_mem _ member))

/-- The events are published as the calls hand them in.  At the end of every run
the queue is sorted and stable, every event that was published is taken, dropped
or waiting exactly once, only low-priority events are dropped, and the others
leave in the order of their publication. -/
theorem events_in_order (config : Config) (steps : List Step) :
    let past := Trace.history (step config) .new steps
    let queue := (Trace.final (step config) .new steps).queue
    (published past).Sublist (steps.flatMap Step.offered) ∧
      ((∀ input ∈ steps, ¬ input.Panics config) →
        published past = steps.flatMap Step.offered) ∧
      queue.Pairwise (fun earlier later => later.priority ≤ earlier.priority) ∧
      (∀ level, (queue.filter (fun event => event.priority = level)).Sublist
        ((published past).filter (fun event => event.priority = level))) ∧
      (taken past ++ dropped past ++ queue).Perm (published past) ∧
      retried past = [] ∧
      (∀ event ∈ dropped past, event.priority < .normal) ∧
      ∀ level ≥ EventPriority.normal,
        (taken past).filter (fun event => event.priority = level) ++
            queue.filter (fun event => event.priority = level) =
          (published past).filter (fun event => event.priority = level) := by
  intro past queue
  obtain ⟨within, all⟩ := published_history config .new steps
  obtain ⟨ledger, noRetry⟩ := kept_run config steps
  refine ⟨within, all, ledger.sorted, ?_, ledger.accounted, noRetry, ?_, ?_⟩
  · intro level
    exact (List.sublist_append_right _ _).trans (ledger.inOrder level)
  · intro event isDropped
    rw [ledger.discarded_only event isDropped]
    decide
  · intro level important
    apply ledger.complete
    rintro rfl
    revert important
    decide

theorem length_insertByPriority (event : PrioritizedEvent) (queue : Queue) :
    (insertByPriority event queue).length = queue.length + 1 := by
  rw [insertByPriority_eq]
  exact (PriorityQueue.insert_perm event queue).length_eq

/-- A publication that finds the queue full finds an event of low priority, or
panics before it inserts its own. -/
def FindsRoom (config : Config) (system : EventSystem) : Step → Prop
  | .publishEvent _ _ now =>
      system.queue.length < config.maxQueueSize.toNat ∨
        (∃ event ∈ system.queue, event.priority = .low) ∨
        PanicsOnRoom config now
  | .takeBatch => True
  | .distribute .. => True

theorem toNat_le_of_mulUsize {mode : OverflowMode}
    {left right product : UInt64}
    (multiplied : mulUsize mode left right = some product) :
    product.toNat ≤ left.toNat * right.toNat := by
  have same : product = left * right := by
    cases mode with
    | wrapping => exact (Option.some.inj multiplied).symm
    | checked =>
        rw [mulUsize] at multiplied
        split at multiplied
        · exact (Option.some.inj multiplied).symm
        · cases multiplied
  rw [same, UInt64.toNat_mul]
  exact Nat.mod_le _ _

/-- The limit of the loop lies below the size of a queue that is not empty. -/
theorem limit_lt {mode : OverflowMode} {maxQueueSize product : UInt64}
    (multiplied : mulUsize mode maxQueueSize 9 = some product)
    (positive : 0 < maxQueueSize.toNat) :
    (product / 10).toNat < maxQueueSize.toNat := by
  have bound := toNat_le_of_mulUsize multiplied
  change product.toNat ≤ maxQueueSize.toNat * 9 at bound
  rw [UInt64.toNat_div]
  change product.toNat / 10 < maxQueueSize.toNat
  omega

section FullQueue

variable {mode : OverflowMode} {maxQueueSize : UInt64} {now : SystemTime}
  {queue room : Queue}

/-- A full queue with an event of low priority gets shorter. -/
theorem length_lt_of_low (full : queue.length = maxQueueSize.toNat)
    (made : makeRoom mode maxQueueSize now queue = .ok room)
    (hasLow : ∃ event ∈ queue, event.priority = .low) :
    room.length < maxQueueSize.toNat := by
  obtain ⟨event, member, isLow⟩ := hasLow
  have positive : 0 < maxQueueSize.toNat := by
    rw [← full]
    exact List.length_pos_of_mem member
  have drops := makeRoom_dropsLow (Or.inl made)
  have done : room.length < maxQueueSize.toNat ∨
      ∀ kept ∈ room, kept.priority ≠ .low := by
    unfold makeRoom dropLowPriorityEvents at made
    rw [if_pos (Nat.le_of_eq full.symm)] at made
    split at made
    · cases made
    · simp only at made
      split at made
      · cases made
      · next product multiplied =>
          rw [← Except.ok.inj made]
          rcases dropOldestLow_done (product / 10).toNat _ with short | noLow
          · exact Or.inl (Nat.lt_of_le_of_lt short
              (limit_lt multiplied positive))
          · exact Or.inr noLow
  rcases done with short | noLow
  · exact short
  · have fewer : room.length ≤ queue.length := drops.sub.length_le
    rw [← full]
    apply Nat.lt_of_le_of_ne fewer
    intro sameLength
    have same : room = queue := drops.sub.eq_of_length sameLength
    rw [same] at noLow
    exact noLow event member isLow

/-- Without an event of low priority nothing is dropped. -/
theorem length_eq_of_no_low
    (made : makeRoom mode maxQueueSize now queue = .ok room)
    (noLow : ∀ event ∈ queue, event.priority ≠ .low) :
    room.length = queue.length := by
  have drops := makeRoom_dropsLow (Or.inl made)
  apply Nat.le_antisymm drops.sub.length_le
  have kept : queue.Subperm room := by
    rw [List.subperm_ext_iff]
    intro event member
    rw [drops.kept (noLow event member)]
  exact kept.length_le

theorem panicsOnRoom_iff {config : Config}
    (full : queue.length = config.maxQueueSize.toNat) :
    PanicsOnRoom config now ↔
      ∃ left, makeRoom config.mode config.maxQueueSize now queue =
        .error left := by
  unfold PanicsOnRoom makeRoom dropLowPriorityEvents
  rw [if_pos (Nat.le_of_eq full.symm)]
  cases now.checkedSub staleAfter with
  | none => simp
  | some cutoffTime =>
      cases mulUsize config.mode config.maxQueueSize 9 <;> simp

end FullQueue

/-- One publication. -/
theorem publishEvent_bounded_iff (config : Config) (system : EventSystem)
    (event : Event) (createdAt now : SystemTime)
    (bounded : system.queue.length ≤ config.maxQueueSize.toNat) :
    (publishEvent config system event createdAt now).2.queue.length ≤
        config.maxQueueSize.toNat ↔
      FindsRoom config system (.publishEvent event createdAt now) := by
  change _ ↔ system.queue.length < config.maxQueueSize.toNat ∨
    (∃ event ∈ system.queue, event.priority = .low) ∨
      PanicsOnRoom config now
  rcases Nat.lt_or_eq_of_le bounded with space | full
  · have made : makeRoom config.mode config.maxQueueSize now system.queue =
        .ok system.queue := if_neg (Nat.not_le.mpr space)
    apply iff_of_true _ (Or.inl space)
    simp only [publishEvent, made, length_insertByPriority]
    omega
  · rw [or_iff_right (Nat.not_lt.mpr (Nat.le_of_eq full.symm)),
      panicsOnRoom_iff full]
    cases made : makeRoom config.mode config.maxQueueSize now
        system.queue with
    | error left =>
        apply iff_of_true _ (Or.inr ⟨left, rfl⟩)
        simp only [publishEvent, made]
        exact (makeRoom_dropsLow (Or.inr made)).sub.length_le.trans bounded
    | ok room =>
        simp only [publishEvent, made, length_insertByPriority, reduceCtorEq,
          exists_false, or_false]
        constructor
        · intro fits
          by_contra noLow
          push Not at noLow
          have same := length_eq_of_no_low made noLow
          omega
        · intro hasLow
          exact length_lt_of_low full made hasLow

/-- The queue never exceeds its size exactly when every publication that finds
it full finds an event of low priority or panics. -/
theorem queue_bounded_iff (config : Config) (steps : List Step) :
    (∀ before, before <+: steps →
        (Trace.final (step config) .new before).queue.length ≤
          config.maxQueueSize.toNat) ↔
      Trace.Along (step config) (FindsRoom config) .new steps := by
  refine Trace.throughout_iff (fun _ _ => True)
    (fun _ (system : EventSystem) =>
      system.queue.length ≤ config.maxQueueSize.toNat) ?_ ?_ ?_
  · intro _ _
    trivial
  · exact Nat.zero_le _
  · intro _ system input _ _ bounded
    cases input with
    | publishEvent event createdAt now =>
        exact publishEvent_bounded_iff config system event createdAt now
          bounded
    | takeBatch =>
        apply iff_of_true _ trivial
        simp only [step, takeBatch, List.length_drop]
        omega
    | distribute batch sendEvent =>
        apply iff_of_true _ trivial
        rw [step, (distributeNext_queue config system batch sendEvent).2]
        exact bounded

/-- A queue that only gets more important events is never shortened. -/
theorem length_flood (config : Config) {event : Event}
    (notLow : EventPriority.fromSeverity event.severity ≠ .low)
    (createdAt : SystemTime) {now : SystemTime}
    (noPanic : ¬ PanicsOnRoom config now) (count : Nat) :
    let system := Trace.final (step config) .new
      (List.replicate count (.publishEvent event createdAt now))
    system.queue.length = count ∧
      ∀ waiting ∈ system.queue, waiting.priority ≠ .low := by
  induction count with
  | zero =>
      refine ⟨rfl, ?_⟩
      intro waiting member
      cases member
  | succ count ih =>
      rw [List.replicate_succ', Trace.final_append]
      generalize Trace.final (step config) .new
        (List.replicate count (.publishEvent event createdAt now)) =
          system at ih
      obtain ⟨length, important⟩ := ih
      obtain ⟨room, made⟩ := makeRoom_ok noPanic system.queue
      have sub := (makeRoom_dropsLow (Or.inl made)).sub
      have same : room = system.queue :=
        sub.eq_of_length (length_eq_of_no_low made important)
      rw [same] at made
      simp only [Trace.final, step, publishEvent, made]
      constructor
      · rw [length_insertByPriority, length]
      · intro waiting member
        rw [insertByPriority_eq] at member
        have perm := @PriorityQueue.insert_perm _ _ _
          PrioritizedEvent.priority (PrioritizedEvent.new event createdAt)
          system.queue
        rcases List.mem_cons.mp (perm.mem_iff.mp member) with new | old
        · rw [new]
          exact notLow
        · exact important waiting old

def criticalEvent : Event where
  type := "system"
  detail := "failure"
  severity := "critical"
  attributes := []
  eventData := none

/-- One critical event more than the size of a new event system. -/
theorem critical_flood_exceeds_bound :
    ¬ ∀ before, before <+: List.replicate 10001 (.publishEvent criticalEvent
        SystemTime.unixEpoch SystemTime.unixEpoch) →
      (Trace.final (step ⟨.checked, 10000, []⟩) .new before).queue.length ≤
        10000 := by
  intro bounded
  have whole := bounded _ (List.prefix_refl _)
  have notLow : EventPriority.fromSeverity criticalEvent.severity ≠ .low := by
    decide
  have noPanic : ¬ PanicsOnRoom ⟨.checked, 10000, []⟩
      SystemTime.unixEpoch := by
    unfold PanicsOnRoom
    decide
  rw [(length_flood _ notLow _ noPanic _).1] at whole
  omega

end NyxNet.Events
