import NyxNet.Lib.Admission
import NyxNet.Lib.KeyedTable
import NyxNet.Lib.Time
import NyxNet.Lib.Word

/-!
# The resource manager of a stream

`ResourceManager` of `nyx-stream/src/resource_manager.rs`.  Its methods run
concurrently.  Each hold of a lock is one atomic step, except that the
background cleanup keeps the write lock on the resources while it runs the
callbacks of those it has removed.  `register_resource` checks the limits under
one hold of the lock and inserts under another.
-/

namespace NyxNet.Resources

open KeyedTable TaskPool

/-- A point on the monotonic clock, in nanoseconds. -/
abbrev Instant : Type := Nat

inductive ResourceType where
  | buffer
  | fileHandle
  | connection
  | task
  | timer
  | cryptoContext
  | custom (name : String)
  deriving DecidableEq

inductive ResourceError where
  | notFound (id : String)
  | alreadyCleanedUp (id : String)
  | cleanupFailed (message : String)
  | limitExceeded (resourceType : ResourceType) (limit current : Nat)
  deriving DecidableEq

structure ResourceInfo where
  id : String
  resourceType : ResourceType
  sizeBytes : UInt64
  createdAt : Instant
  lastAccessed : Instant
  accessCount : UInt64
  hasCleanupCallback : Bool
  hasAsyncCleanupCallback : Bool
  isCleanedUp : Bool
  deriving DecidableEq

namespace ResourceInfo

def new (id : String) (resourceType : ResourceType) (sizeBytes : UInt64)
    (now : Instant) : ResourceInfo where
  id := id
  resourceType := resourceType
  sizeBytes := sizeBytes
  createdAt := now
  lastAccessed := now
  accessCount := 0
  hasCleanupCallback := false
  hasAsyncCleanupCallback := false
  isCleanedUp := false

def access (resource : ResourceInfo) (now : Instant) : ResourceInfo :=
  { resource with
    lastAccessed := now
    accessCount := resource.accessCount + 1 }

/-- `duration_since` of an instant that lies ahead is zero. -/
def age (resource : ResourceInfo) (now : Instant) : Nat :=
  now - resource.createdAt

def idleTime (resource : ResourceInfo) (now : Instant) : Nat :=
  now - resource.lastAccessed

end ResourceInfo

structure ResourceLimits where
  maxTotalMemory : UInt64
  maxResourcesPerType : ResourceType → Option Nat
  maxIdleTime : Duration
  maxResourceAge : Duration

def ResourceLimits.default : ResourceLimits where
  maxTotalMemory := 100 * 1024 * 1024
  maxResourcesPerType
    | .buffer => some 1000
    | .connection => some 100
    | .task => some 500
    | .timer => some 200
    | .fileHandle => some 50
    | .cryptoContext => some 100
    | .custom _ => none
  maxIdleTime := .fromSecs 300
  maxResourceAge := .fromSecs 3600

/-- What does not change while calls are under way. -/
structure Config where
  limits : ResourceLimits
  enableMemoryMonitoring : Bool
  overflow : OverflowMode

abbrev ResourceTable : Type := Table String ResourceInfo

/-- What the calls share. -/
structure ResourceManager where
  resources : ResourceTable
  writeHeld : Bool
  weakRefs : List String
  cleanupSuccesses : Nat
  cleanupFailures : Nat
  resourcesCleanedUp : Nat

def ResourceManager.new : ResourceManager where
  resources := ∅
  writeHeld := false
  weakRefs := []
  cleanupSuccesses := 0
  cleanupFailures := 0
  resourcesCleanedUp := 0

def countOf (resources : ResourceTable) (resourceType : ResourceType) : Nat :=
  load (fun _ resource =>
    if resource.resourceType = resourceType then 1 else 0) resources

/-- The bytes that the resources take together. -/
def memoryOf (resources : ResourceTable) : Nat :=
  load (fun _ resource => resource.sizeBytes.toNat) resources

/-- The sum of the sizes as the code computes it; `none` is an abort. -/
def totalMemory (mode : OverflowMode) (resources : ResourceTable) :
    Option UInt64 :=
  resources.entries.foldl (fun total entry =>
    total.bind (fun sum => mode.add sum entry.2.sizeBytes)) (some 0)

/-- The sizes and the new one do not fit in a word together. -/
def overflows (resources : ResourceTable) (resource : ResourceInfo) : Bool :=
  18446744073709551616 ≤ memoryOf resources + resource.sizeBytes.toNat

def checkTypeLimit (config : Config) (resources : ResourceTable)
    (resource : ResourceInfo) : Outcome ResourceError Unit :=
  match config.limits.maxResourcesPerType resource.resourceType with
  | some limit =>
      if limit ≤ countOf resources resource.resourceType then
        .failed (.limitExceeded resource.resourceType limit
          (countOf resources resource.resourceType))
      else
        .returned ()
  | none => .returned ()

def checkMemoryLimit (config : Config) (resources : ResourceTable)
    (resource : ResourceInfo) : Outcome ResourceError Unit :=
  if config.enableMemoryMonitoring then
    match (totalMemory config.overflow resources).bind
        (fun total => config.overflow.add total resource.sizeBytes) with
    | some total =>
        if config.limits.maxTotalMemory < total then
          .failed (.limitExceeded .buffer config.limits.maxTotalMemory.toNat
            total.toNat)
        else
          .returned ()
    | none => .panicked
  else
    .returned ()

def checkLimits (config : Config) (resources : ResourceTable)
    (resource : ResourceInfo) : Outcome ResourceError Unit :=
  match checkTypeLimit config resources resource with
  | .returned () => checkMemoryLimit config resources resource
  | outcome => outcome

inductive Request where
  | registerResource (resource : ResourceInfo)
  | registerResourceWithAutoCleanup (resource : ResourceInfo)
  | accessResource (id : String)
  | cleanupResource (id : String)
  | cleanupAll
  | forceCleanupOverLimits
  | automaticCleanup
  deriving DecidableEq

inductive Answer where
  | done
  | cleanedUp (count : Nat)
  | failed (error : ResourceError)
  | failedAll (errors : List ResourceError)
  | panicked
  deriving DecidableEq

/-- Who waits for a resource to be cleaned up, with what is left to do. -/
inductive Caller where
  | cleanupResource
  | cleanupAll (rest : List String) (errors : List ResourceError)
  | forceCleanup (rest : List String) (cleanedUp : Nat)
      (errors : List ResourceError)
  | idlePass (rest : List String)
  deriving DecidableEq

/-- How far a call has got.  A call that is cleaning references or idle
resources holds the write lock. -/
inductive Task where
  | checking (resource : ResourceInfo) (auto : Bool)
  | accessing (resource : ResourceInfo) (auto : Bool)
  | inserting (resource : ResourceInfo) (auto : Bool)
  | addingWeakRef (id : String)
  | touching (id : String)
  | removing (id : String) (caller : Caller)
  | executing (resource : ResourceInfo) (caller : Caller)
  | countingSuccess (caller : Caller)
  | countingCleanedUp (caller : Caller)
  | countingFailure (message : String) (caller : Caller)
  | listingAll
  | cleaningAll (rest : List String) (errors : List ResourceError)
  | clearingWeakRefs (errors : List ResourceError)
  | findingOver
  | forcing (rest : List String) (cleanedUp : Nat)
      (errors : List ResourceError)
  | drainingWeakRefs
  | lockingWeak (ids : List String)
  | cleaningWeak (ids : List String)
  | findingIdle
  | lockingIdle (ids : List String)
  | cleaningIdle (ids : List String)
  | returned (answer : Answer)
  deriving DecidableEq

/-- What a step takes from outside: the time, which of the ids comes next, and
what a callback gives; `none` is a callback that has not ended. -/
structure Input where
  now : Instant
  choice : Nat
  result : Option (Except String Unit)

inductive Event where
  | checked (admitted overflowed : Bool)
  | inserted (resource : ResourceInfo)
  | worked
  deriving DecidableEq

/-- The call goes on with what became of its resource. -/
def Caller.receive : Caller → Except ResourceError Unit → Task
  | .cleanupResource, .ok () => .returned .done
  | .cleanupResource, .error error => .returned (.failed error)
  | .cleanupAll rest errors, .ok () => .cleaningAll rest errors
  | .cleanupAll rest errors, .error error =>
      .cleaningAll rest (errors ++ [error])
  | .forceCleanup rest cleanedUp errors, .ok () =>
      .forcing rest (cleanedUp + 1) errors
  | .forceCleanup rest cleanedUp errors, .error error =>
      .forcing rest cleanedUp (errors ++ [error])
  | .idlePass rest, _ => .cleaningIdle rest

/-- What the callbacks of a resource give, the asynchronous one before the
other. -/
def executeCleanup (resource : ResourceInfo)
    (result : Option (Except String Unit)) : Option (Except String Unit) :=
  if resource.isCleanedUp then some (.ok ())
  else if resource.hasAsyncCleanupCallback then result
  else if resource.hasCleanupCallback then result
  else some (.ok ())

def ResourceLimits.shouldCleanup (limits : ResourceLimits) (now : Instant)
    (resource : ResourceInfo) : Bool :=
  limits.maxIdleTime.asNanos < resource.idleTime now ||
    limits.maxResourceAge.asNanos < resource.age now

def launch : Request → Task
  | .registerResource resource => .checking resource false
  | .registerResourceWithAutoCleanup resource => .checking resource true
  | .accessResource id => .touching id
  | .cleanupResource id => .removing id .cleanupResource
  | .cleanupAll => .listingAll
  | .forceCleanupOverLimits => .findingOver
  | .automaticCleanup => .drainingWeakRefs

def ResourceManager.withResources (manager : ResourceManager)
    (resources : ResourceTable) : ResourceManager :=
  { manager with resources }

/-- A loop over ids in the unknown order of a map: the body gets the next one
and those that are left. -/
def eachId (ids : List String) (choice : Nat)
    (body : String → List String → Option (Turn ResourceManager Task Event))
    (finish : Option (Turn ResourceManager Task Event)) :
    Option (Turn ResourceManager Task Event) :=
  match ids[choice]? with
  | some id => body id (ids.eraseIdx choice)
  | none => if ids = [] then finish else none

/-- The task waits while another one holds the write lock. -/
def unlocked (manager : ResourceManager)
    (step : Option (Turn ResourceManager Task Event)) :
    Option (Turn ResourceManager Task Event) :=
  if manager.writeHeld then none else step

def turn (config : Config) (manager : ResourceManager) (task : Task)
    (input : Input) : Option (Turn ResourceManager Task Event) :=
  match task with
  | .checking resource auto =>
      unlocked manager (
        let overflowed := overflows manager.resources resource
        match checkLimits config manager.resources resource with
        | .returned () =>
            next (.checked true overflowed) manager (.accessing resource auto)
        | .failed error =>
            next (.checked false overflowed) manager
              (.returned (.failed error))
        | .panicked =>
            next (.checked false overflowed) manager (.returned .panicked))
  | .accessing resource auto =>
      next .worked manager (.inserting (resource.access input.now) auto)
  | .inserting resource auto =>
      unlocked manager (
        next (.inserted resource)
          (manager.withResources
            (manager.resources.insert resource.id resource))
          (if auto then .addingWeakRef resource.id else .returned .done))
  | .addingWeakRef id =>
      next .worked { manager with weakRefs := manager.weakRefs.insert id }
        (.returned .done)
  | .touching id =>
      unlocked manager (
        match manager.resources.lookup id with
        | some resource =>
            next .worked (manager.withResources (manager.resources.insert id
              (resource.access input.now))) (.returned .done)
        | none => next .worked manager (.returned (.failed (.notFound id))))
  | .removing id caller =>
      unlocked manager (
        match manager.resources.lookup id with
        | some resource =>
            next .worked (manager.withResources (manager.resources.erase id))
              (if resource.isCleanedUp then
                caller.receive (.error (.alreadyCleanedUp id))
              else .executing resource caller)
        | none =>
            next .worked manager (caller.receive (.error (.notFound id))))
  | .executing resource caller =>
      match executeCleanup resource input.result, caller with
      | some (.ok ()), caller =>
          next .worked manager (.countingSuccess caller)
      | some (.error message), caller =>
          next .worked manager (.countingFailure message caller)
      | none, .idlePass rest =>
          next .worked manager (.countingFailure "Timeout" (.idlePass rest))
      | none, _ => none
  | .countingSuccess caller =>
      next .worked
        { manager with cleanupSuccesses := manager.cleanupSuccesses + 1 }
        (.countingCleanedUp caller)
  | .countingCleanedUp caller =>
      next .worked
        { manager with resourcesCleanedUp := manager.resourcesCleanedUp + 1 }
        (caller.receive (.ok ()))
  | .countingFailure message caller =>
      next .worked
        { manager with cleanupFailures := manager.cleanupFailures + 1 }
        (caller.receive (.error (.cleanupFailed message)))
  | .listingAll =>
      unlocked manager (
        next .worked manager (.cleaningAll manager.resources.keys []))
  | .cleaningAll ids errors =>
      eachId ids input.choice
        (fun id rest =>
          next .worked manager (.removing id (.cleanupAll rest errors)))
        (next .worked manager (.clearingWeakRefs errors))
  | .clearingWeakRefs errors =>
      next .worked { manager with weakRefs := [] }
        (.returned (if errors = [] then .done else .failedAll errors))
  | .findingOver =>
      unlocked manager (
        next .worked manager (.forcing
          ((manager.resources.entries.filter (fun entry =>
            config.limits.shouldCleanup input.now entry.2)).map
              (fun entry => entry.1)) 0 []))
  | .forcing ids cleanedUp errors =>
      eachId ids input.choice
        (fun id rest =>
          next .worked manager
            (.removing id (.forceCleanup rest cleanedUp errors)))
        (next .worked manager (.returned
          (if errors = [] then .cleanedUp cleanedUp else .failedAll errors)))
  | .drainingWeakRefs =>
      next .worked { manager with weakRefs := [] }
        (if manager.weakRefs = [] then .findingIdle
        else .lockingWeak manager.weakRefs)
  | .lockingWeak ids =>
      unlocked manager (
        next .worked { manager with writeHeld := true } (.cleaningWeak ids))
  | .cleaningWeak ids =>
      eachId ids input.choice
        (fun id rest =>
          next .worked (manager.withResources (manager.resources.erase id))
            (.cleaningWeak rest))
        (next .worked { manager with writeHeld := false } .findingIdle)
  | .findingIdle =>
      unlocked manager (
        let found := (manager.resources.entries.filter (fun entry =>
          !entry.2.isCleanedUp &&
            config.limits.shouldCleanup input.now entry.2)).map
              (fun entry => entry.1)
        next .worked manager
          (if found = [] then .returned .done else .lockingIdle found))
  | .lockingIdle ids =>
      unlocked manager (
        next .worked { manager with writeHeld := true } (.cleaningIdle ids))
  | .cleaningIdle ids =>
      eachId ids input.choice
        (fun id rest =>
          next .worked (manager.withResources (manager.resources.erase id))
            (match manager.resources.lookup id with
            | some resource => .executing resource (.idlePass rest)
            | none => .cleaningIdle rest))
        (next .worked { manager with writeHeld := false } (.returned .done))
  | .returned _ => none

def program (config : Config) :
    Program ResourceManager Task Request Input Event where
  launch := launch
  turn := turn config

variable {config : Config}

/-- The resource of a call that has passed its check. -/
def Task.admitted : Task → Option ResourceInfo
  | .accessing resource _ => some resource
  | .inserting resource _ => some resource
  | _ => none

/-- The resources after a step, with what a registration relies on. -/
inductive Moves (config : Config) (resources : ResourceTable) (now : Instant) :
    Task → Event → ResourceTable → Task → Prop where
  | refused (resource : ResourceInfo) (auto : Bool) (answer : Answer) :
      Moves config resources now (.checking resource auto)
        (.checked false (overflows resources resource)) resources
        (.returned answer)
  | admitted (resource : ResourceInfo) (auto : Bool)
      (passed : checkLimits config resources resource = .returned ()) :
      Moves config resources now (.checking resource auto)
        (.checked true (overflows resources resource)) resources
        (.accessing resource auto)
  | accessed (resource : ResourceInfo) (auto : Bool) :
      Moves config resources now (.accessing resource auto) .worked resources
        (.inserting (resource.access now) auto)
  | inserted (resource : ResourceInfo) (auto : Bool) (rest : Task)
      (ended : rest.admitted = none) :
      Moves config resources now (.inserting resource auto)
        (.inserted resource) (resources.insert resource.id resource) rest
  | touched (id : String) (resource : ResourceInfo) (rest : Task)
      (found : resources.lookup id = some resource)
      (ended : rest.admitted = none) :
      Moves config resources now (.touching id) .worked
        (resources.insert id (resource.access now)) rest
  | erased (task : Task) (id : String) (rest : Task)
      (ended : rest.admitted = none) :
      Moves config resources now task .worked (resources.erase id) rest
  | kept (task rest : Task) (ended : rest.admitted = none) :
      Moves config resources now task .worked resources rest

theorem of_unlocked {manager : ResourceManager}
    {step : Option (Turn ResourceManager Task Event)}
    {turned : Turn ResourceManager Task Event}
    (taken : unlocked manager step = some turned) : step = some turned := by
  unfold unlocked at taken
  split at taken
  · cases taken
  · exact taken

theorem eachId_cases {ids : List String} {choice : Nat}
    {body : String → List String → Option (Turn ResourceManager Task Event)}
    {finish : Option (Turn ResourceManager Task Event)}
    {turned : Turn ResourceManager Task Event}
    (taken : eachId ids choice body finish = some turned) :
    (∃ id, ids[choice]? = some id ∧
      body id (ids.eraseIdx choice) = some turned) ∨
      ids = [] ∧ finish = some turned := by
  unfold eachId at taken
  split at taken
  · next id chosen => exact Or.inl ⟨id, chosen, taken⟩
  · split at taken
    · next isEmpty => exact Or.inr ⟨isEmpty, taken⟩
    · cases taken

theorem of_eachId {ids : List String} {choice : Nat}
    {body : String → List String → Option (Turn ResourceManager Task Event)}
    {finish : Option (Turn ResourceManager Task Event)}
    {turned : Turn ResourceManager Task Event}
    (taken : eachId ids choice body finish = some turned) :
    (∃ id rest, body id rest = some turned) ∨ finish = some turned := by
  rcases eachId_cases taken with inLoop | afterLoop
  · obtain ⟨id, _, step⟩ := inLoop
    exact Or.inl ⟨id, _, step⟩
  · exact Or.inr afterLoop.2

theorem moves_of_next {resources : ResourceTable} {now : Instant}
    {task rest : Task} {event : Event} {after : ResourceManager}
    {turned : Turn ResourceManager Task Event}
    (taken : next event after rest = some turned)
    (moves : Moves config resources now task event after.resources rest) :
    Moves config resources now task turned.event turned.shared.resources
        turned.task ∧ turned.spawned = [] := by
  rw [eq_of_next taken]
  exact ⟨moves, rfl⟩

@[simp] theorem admitted_receive (caller : Caller)
    (result : Except ResourceError Unit) :
    (caller.receive result).admitted = none := by
  cases caller <;> cases result <;> rfl

theorem turn_moves {manager : ResourceManager} {task : Task} {input : Input}
    {turned : Turn ResourceManager Task Event}
    (taken : turn config manager task input = some turned) :
    Moves config manager.resources input.now task turned.event
        turned.shared.resources turned.task ∧ turned.spawned = [] := by
  unfold turn at taken
  cases task with
  | checking resource auto =>
      have step := of_unlocked taken
      simp only at step
      split at step
      · next passed =>
          exact moves_of_next step (.admitted resource auto passed)
      · exact moves_of_next step (.refused resource auto _)
      · exact moves_of_next step (.refused resource auto _)
  | accessing resource auto =>
      exact moves_of_next taken (.accessed resource auto)
  | inserting resource auto =>
      refine moves_of_next (of_unlocked taken) (.inserted resource auto _ ?_)
      cases auto <;> rfl
  | touching id =>
      have step := of_unlocked taken
      split at step
      · next resource found =>
          exact moves_of_next step (.touched id resource _ found rfl)
      · exact moves_of_next step (.kept _ _ rfl)
  | removing id caller =>
      have step := of_unlocked taken
      split at step
      · next resource found =>
          refine moves_of_next step (.erased _ id _ ?_)
          split
          · exact admitted_receive caller _
          · rfl
      · exact moves_of_next step (.kept _ _ (admitted_receive caller _))
  | executing resource caller =>
      simp only at taken
      split at taken
      · exact moves_of_next taken (.kept _ _ rfl)
      · exact moves_of_next taken (.kept _ _ rfl)
      · exact moves_of_next taken (.kept _ _ rfl)
      · cases taken
  | countingCleanedUp caller | countingFailure message caller =>
      exact moves_of_next taken (.kept _ _ (admitted_receive caller _))
  | addingWeakRef | countingSuccess | clearingWeakRefs =>
      exact moves_of_next taken (.kept _ _ rfl)
  | listingAll | findingOver | lockingWeak | lockingIdle =>
      exact moves_of_next (of_unlocked taken) (.kept _ _ rfl)
  | cleaningAll ids errors | forcing ids cleanedUp errors =>
      rcases of_eachId taken with inLoop | afterLoop
      · obtain ⟨id, rest, step⟩ := inLoop
        exact moves_of_next step (.kept _ _ rfl)
      · exact moves_of_next afterLoop (.kept _ _ rfl)
  | drainingWeakRefs =>
      refine moves_of_next taken (.kept _ _ ?_)
      split <;> rfl
  | cleaningWeak ids =>
      rcases of_eachId taken with inLoop | afterLoop
      · obtain ⟨id, rest, step⟩ := inLoop
        exact moves_of_next step (.erased _ id _ rfl)
      · exact moves_of_next afterLoop (.kept _ _ rfl)
  | findingIdle =>
      refine moves_of_next (of_unlocked taken) (.kept _ _ ?_)
      split <;> rfl
  | cleaningIdle ids =>
      rcases of_eachId taken with inLoop | afterLoop
      · obtain ⟨id, rest, step⟩ := inLoop
        refine moves_of_next step (.erased _ id _ ?_)
        split <;> rfl
      · exact moves_of_next afterLoop (.kept _ _ rfl)
  | returned answer => cases taken

end NyxNet.Resources
