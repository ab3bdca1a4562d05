import NyxNet.Stream.ResourceManager

/-!
# The limits of the resource manager

The number of resources of a type and the bytes of all resources, along every
run of the calls of `nyx-stream/src/resource_manager.rs`.  Both are kept by the
checks as long as registrations do not meet between a check and its insertion.
-/

namespace NyxNet.Resources

open KeyedTable TaskPool

variable {config : Config}

theorem foldl_add_none (mode : OverflowMode)
    (entries : List (Sigma fun _ : String => ResourceInfo)) :
    entries.foldl (fun total entry =>
      total.bind (fun sum => mode.add sum entry.2.sizeBytes)) none = none := by
  induction entries with
  | nil => rfl
  | cons entry entries ih => exact ih

theorem toNat_foldl_add {mode : OverflowMode}
    (entries : List (Sigma fun _ : String => ResourceInfo))
    {start total : UInt64}
    (added : entries.foldl (fun total entry =>
      total.bind (fun sum => mode.add sum entry.2.sizeBytes)) (some start) =
        some total) :
    total.toNat = (start.toNat +
      (entries.map (fun entry => entry.2.sizeBytes.toNat)).sum) % 2 ^ 64 := by
  induction entries generalizing start with
  | nil =>
      rw [← Option.some.inj added]
      exact (Nat.mod_eq_of_lt start.toNat_lt).symm
  | cons entry entries ih =>
      rw [List.foldl_cons, Option.bind_some] at added
      cases first : mode.add start entry.2.sizeBytes with
      | none =>
          rw [first, foldl_add_none] at added
          cases added
      | some sum =>
          rw [first] at added
          rw [ih added, OverflowMode.toNat_of_add first, Nat.mod_add_mod,
            List.map_cons, List.sum_cons, Nat.add_assoc]

theorem toNat_totalMemory {mode : OverflowMode} {resources : ResourceTable}
    {total : UInt64} (summed : totalMemory mode resources = some total) :
    total.toNat = memoryOf resources % 2 ^ 64 := by
  rw [toNat_foldl_add resources.entries summed]
  exact congrArg (· % 2 ^ 64) (Nat.zero_add _)

theorem checks_of_passed {resources : ResourceTable}
    {resource : ResourceInfo}
    (passed : checkLimits config resources resource = .returned ()) :
    checkTypeLimit config resources resource = .returned () ∧
      checkMemoryLimit config resources resource = .returned () := by
  unfold checkLimits at passed
  split at passed
  · next typePassed => exact ⟨typePassed, passed⟩
  · next notPassed => exact absurd passed notPassed

theorem countOf_lt_of_passed {resources : ResourceTable}
    {resource : ResourceInfo} {limit : Nat}
    (passed : checkLimits config resources resource = .returned ())
    (configured : config.limits.maxResourcesPerType resource.resourceType =
      some limit) :
    countOf resources resource.resourceType < limit := by
  have typePassed := (checks_of_passed passed).1
  rw [checkTypeLimit, configured] at typePassed
  simp only at typePassed
  split at typePassed
  · cases typePassed
  · next room => exact Nat.lt_of_not_le room

theorem memoryOf_le_of_passed {resources : ResourceTable}
    {resource : ResourceInfo}
    (passed : checkLimits config resources resource = .returned ())
    (monitored : config.enableMemoryMonitoring = true)
    (fits : overflows resources resource = false) :
    memoryOf resources + resource.sizeBytes.toNat ≤
      config.limits.maxTotalMemory.toNat := by
  have memoryPassed := (checks_of_passed passed).2
  have small := of_decide_eq_false fits
  rw [checkMemoryLimit, if_pos monitored] at memoryPassed
  split at memoryPassed
  · next sum summed =>
      split at memoryPassed
      · cases memoryPassed
      · next room =>
          obtain ⟨total, isTotal, added⟩ := Option.bind_eq_some_iff.mp summed
          have exactTotal := toNat_totalMemory isTotal
          have exactSum := OverflowMode.toNat_of_add added
          have bound := UInt64.le_iff_toNat_le.mp (UInt64.not_lt.mp room)
          omega
  · cases memoryPassed

namespace Event

def isCheck : Event → Bool
  | .checked _ _ => true
  | _ => false

/-- A check that passes because its sum has wrapped. -/
def isWrapped : Event → Bool
  | .checked admitted overflowed => admitted && overflowed
  | _ => false

def inserts (counts : ResourceInfo → Bool) : Event → Bool
  | .inserted resource => counts resource
  | _ => false

end Event

/-- A load of the resources that the checks keep under a limit.  A resource
that counts adds its weight, and accesses do not change the weight. -/
structure Quota (config : Config) where
  weight : ResourceInfo → Nat
  counts : ResourceInfo → Bool
  limit : Nat
  isFlawed : Event → Bool
  uncounted : ∀ resource, counts resource = false → weight resource = 0
  accessed : ∀ resource now, weight (resource.access now) = weight resource ∧
    counts (resource.access now) = counts resource
  passed : ∀ resources resource, counts resource = true →
    checkLimits config resources resource = .returned () →
      isFlawed (.checked true (overflows resources resource)) = true ∨
        load (fun _ => weight) resources + weight resource ≤ limit

namespace Quota

variable (quota : Quota config)

def share (task : Task) : Option Nat :=
  (task.admitted.filter quota.counts).map quota.weight

theorem share_of_admitted_none {task : Task} (ended : task.admitted = none) :
    quota.share task = none := by
  rw [share, ended]
  rfl

theorem load_insert_le (resources : ResourceTable) (id : String)
    (resource : ResourceInfo) :
    load (fun _ => quota.weight) (resources.insert id resource) ≤
      load (fun _ => quota.weight) resources + quota.weight resource := by
  have changed := load_insert (fun _ => quota.weight) resources id resource
  omega

theorem load_erase_le (resources : ResourceTable) (id : String) :
    load (fun _ => quota.weight) (resources.erase id) ≤
      load (fun _ => quota.weight) resources := by
  have changed := load_erase (fun _ => quota.weight) resources id
  omega

theorem load_access (resources : ResourceTable) {id : String}
    {resource : ResourceInfo} (found : resources.lookup id = some resource)
    (now : Instant) :
    load (fun _ => quota.weight) (resources.insert id (resource.access now)) =
      load (fun _ => quota.weight) resources := by
  have changed := load_insert (fun _ => quota.weight) resources id
    (resource.access now)
  rw [loadAt_of_lookup found, (quota.accessed resource now).1] at changed
  exact Nat.add_right_cancel changed

theorem share_of_counted {task : Task} {resource : ResourceInfo}
    (admitted : task.admitted = some resource)
    (counted : quota.counts resource = true) :
    quota.share task = some (quota.weight resource) := by
  simp only [share, admitted, Option.filter, counted, if_true, Option.map_some]

theorem admitted_of_share {task : Task} {amount : Nat}
    (hasShare : quota.share task = some amount) :
    ∃ resource, task.admitted = some resource ∧
      quota.counts resource = true ∧ amount = quota.weight resource := by
  obtain ⟨resource, found, weighs⟩ := Option.map_eq_some_iff.mp hasShare
  obtain ⟨admitted, counted⟩ := Option.filter_eq_some_iff.mp found
  exact ⟨resource, admitted, counted, weighs.symm⟩

theorem insertion_share {before after : ResourceTable} {now : Instant}
    {task rest : Task} {event : Event}
    (moves : Moves config before now task event after rest)
    (inserts : event.inserts quota.counts = true) :
    quota.share rest = none ∧ ∃ amount, quota.share task = some amount ∧
      load (fun _ => quota.weight) after ≤
        load (fun _ => quota.weight) before + amount := by
  cases moves with
  | inserted resource auto rest ended =>
      exact ⟨quota.share_of_admitted_none ended, quota.weight resource,
        quota.share_of_counted rfl inserts, quota.load_insert_le _ _ _⟩
  | _ => cases inserts

theorem load_le_of_moves {before after : ResourceTable} {now : Instant}
    {task rest : Task} {event : Event}
    (moves : Moves config before now task event after rest)
    (noInsertion : event.inserts quota.counts = false) :
    load (fun _ => quota.weight) after ≤
      load (fun _ => quota.weight) before := by
  cases moves with
  | inserted resource auto rest ended =>
      have bound := quota.load_insert_le before resource.id resource
      rw [quota.uncounted resource noInsertion] at bound
      exact bound
  | touched id resource rest found ended =>
      exact (quota.load_access before found now).le
  | erased task id rest ended => exact quota.load_erase_le before id
  | refused | admitted | accessed | kept => exact le_refl _

/-- A share comes from a check or from the step before. -/
theorem share_of_moves {before after : ResourceTable} {now : Instant}
    {task rest : Task} {event : Event} {amount : Nat}
    (moves : Moves config before now task event after rest)
    (hasShare : quota.share rest = some amount) :
    quota.share task = some amount ∧ event.isCheck = false ∨
      quota.isFlawed event = true ∨
        load (fun _ => quota.weight) before + amount ≤ quota.limit := by
  obtain ⟨resource, isAdmitted, counted, rfl⟩ := quota.admitted_of_share hasShare
  cases moves with
  | admitted checked auto passed =>
      obtain rfl := Option.some.inj isAdmitted
      exact Or.inr (quota.passed before checked counted passed)
  | accessed checked auto =>
      obtain rfl := Option.some.inj isAdmitted
      obtain ⟨sameWeight, sameCounts⟩ := quota.accessed checked now
      rw [sameCounts] at counted
      rw [sameWeight]
      exact Or.inl ⟨quota.share_of_counted rfl counted, rfl⟩
  | refused => cases isAdmitted
  | inserted _ _ _ ended | touched _ _ _ _ ended | erased _ _ _ ended
  | kept _ _ ended =>
      rw [ended] at isAdmitted
      cases isAdmitted

/-- A resource is checked and inserted in different steps. -/
def shares : Admission.Shares (program config) where
  load := fun manager => load (fun _ => quota.weight) manager.resources
  limit := quota.limit
  share := quota.share
  isCheck := Event.isCheck
  isFlawed := quota.isFlawed
  isInsertion := Event.inserts quota.counts
  launched := by
    intro request
    cases request <;> rfl
  spawned := by
    intro manager task input turned child taken member
    rw [(turn_moves taken).2] at member
    cases member
  inserted := by
    intro manager task input turned taken inserts
    exact quota.insertion_share (turn_moves taken).1 inserts
  others := by
    intro manager task input turned taken noInsertion
    have moves := (turn_moves taken).1
    refine ⟨quota.load_le_of_moves moves noInsertion, ?_⟩
    intro amount hasShare
    exact quota.share_of_moves moves hasShare

def scheme : Admission.Scheme (program config) := quota.shares.scheme

end Quota

def typeQuota (config : Config) (resourceType : ResourceType) (limit : Nat)
    (configured : config.limits.maxResourcesPerType resourceType =
      some limit) : Quota config where
  weight := fun resource =>
    if resource.resourceType = resourceType then 1 else 0
  counts := fun resource => resource.resourceType = resourceType
  limit := limit
  isFlawed := fun _ => false
  uncounted := by
    intro resource different
    exact if_neg (of_decide_eq_false different)
  accessed := fun _ _ => ⟨rfl, rfl⟩
  passed := by
    intro resources resource same passed
    obtain rfl := of_decide_eq_true same
    rw [if_pos rfl]
    exact Or.inr (countOf_lt_of_passed passed configured)

def memoryQuota (config : Config)
    (monitored : config.enableMemoryMonitoring = true) : Quota config where
  weight := fun resource => resource.sizeBytes.toNat
  counts := fun _ => true
  limit := config.limits.maxTotalMemory.toNat
  isFlawed := Event.isWrapped
  uncounted := by
    intro resource never
    cases never
  accessed := fun _ _ => ⟨rfl, rfl⟩
  passed := by
    intro resources resource _ passed
    cases wrapped : overflows resources resource with
    | true => exact Or.inl rfl
    | false => exact Or.inr (memoryOf_le_of_passed passed monitored wrapped)

/-- Another call inserts a resource of the same type, or any resource while the
memory is monitored. -/
def Rivals (config : Config) (index : Nat) (resourceType : ResourceType) :
    Action Request Input × Option Event → Prop
  | (.run other _, some (.inserted rival)) =>
      other ≠ index ∧ (rival.resourceType = resourceType ∨
        config.enableMemoryMonitoring = true)
  | _ => False

/-- The call checks the limits. -/
def Checks (index : Nat) : Action Request Input × Option Event → Prop
  | (.run other _, some (.checked _ _)) => other = index
  | _ => False

/-- A resource is inserted only if no rival has been since the check, and the
sum of a check that passes has not wrapped. -/
def Unrivalled (config : Config) (past : Past Request Input Event) :
    Action Request Input → Option Event → Prop
  | .run index _, some (.inserted resource) =>
      ¬ Trace.Since (Rivals config index resource.resourceType) (Checks index)
        past
  | .run _ _, some (.checked admitted overflowed) =>
      config.enableMemoryMonitoring = true → admitted = true →
        overflowed = false
  | _, _ => True

/-- A manager before its first call. -/
def start : Pool ResourceManager Task := ⟨.new, []⟩

theorem schemeChecks_of_checks (quota : Quota config) {index : Nat}
    {entry : Action Request Input × Option Event}
    (checks : Checks index entry) : quota.scheme.Checks index entry := by
  obtain ⟨action, outcome⟩ := entry
  cases action with
  | call request => exact checks
  | run other input =>
      cases outcome with
      | none => exact checks
      | some event =>
          cases event with
          | checked admitted overflowed => exact ⟨checks, rfl⟩
          | inserted | worked => exact absurd checks id

theorem rivals_of_otherInserts (quota : Quota config) {index : Nat}
    {resource : ResourceInfo}
    (competes : ∀ rival, quota.counts rival = true →
      rival.resourceType = resource.resourceType ∨
        config.enableMemoryMonitoring = true)
    {entry : Action Request Input × Option Event}
    (others : quota.scheme.OtherInserts index entry) :
    Rivals config index resource.resourceType entry := by
  obtain ⟨action, outcome⟩ := entry
  cases action with
  | call request => exact others
  | run other input =>
      cases outcome with
      | none => exact others
      | some event =>
          cases event with
          | inserted rival => exact ⟨others.1, competes rival others.2⟩
          | checked | worked => exact absurd others.2 Bool.false_ne_true

/-- The load stays under its limit when resources that count compete and
wrapped checks are excluded. -/
theorem Quota.load_le_limit (quota : Quota config)
    (competes : ∀ resource rival, quota.counts resource = true →
      quota.counts rival = true →
        rival.resourceType = resource.resourceType ∨
          config.enableMemoryMonitoring = true)
    (sound : ∀ past index input event,
      Unrivalled config past (.run index input) (some event) →
        quota.isFlawed event = false)
    (actions : List (Action Request Input))
    (along : Trace.AlongPast (perform (program config))
      (Allowed (program config) (Unrivalled config)) [] start actions) :
    load (fun _ => quota.weight)
        (Trace.final (perform (program config)) start
          actions).shared.resources ≤ quota.limit := by
  refine quota.scheme.load_le_limit (Nat.zero_le _) rfl actions
    (along.mono ?_)
  intro past pool action allowed
  unfold Allowed at allowed ⊢
  generalize (perform (program config) pool action).1 = outcome at allowed ⊢
  cases action with
  | call request => exact trivial
  | run index input =>
      cases outcome with
      | none => exact trivial
      | some event =>
          refine ⟨sound past index input event allowed, ?_⟩
          intro inserts disturbed
          cases event with
          | inserted resource =>
              refine allowed (disturbed.mono ?_ ?_)
              · intro entry others
                exact rivals_of_otherInserts quota
                  (fun rival => competes resource rival inserts) others
              · intro entry checks
                exact schemeChecks_of_checks quota checks
          | checked | worked => cases inserts

theorem isWrapped_of_unrivalled {past : Past Request Input Event} {index : Nat}
    {input : Input} {event : Event}
    (monitored : config.enableMemoryMonitoring = true)
    (allowed : Unrivalled config past (.run index input) (some event)) :
    event.isWrapped = false := by
  cases event with
  | checked admitted overflowed =>
      cases admitted with
      | true => exact allowed monitored rfl
      | false => rfl
  | inserted | worked => rfl

theorem resources_within_limits (config : Config)
    (actions : List (Action Request Input))
    (along : Trace.AlongPast (perform (program config))
      (Allowed (program config) (Unrivalled config)) [] start actions) :
    (∀ resourceType limit,
      config.limits.maxResourcesPerType resourceType = some limit →
        countOf (Trace.final (perform (program config)) start
          actions).shared.resources resourceType ≤ limit) ∧
      (config.enableMemoryMonitoring = true →
        memoryOf (Trace.final (perform (program config)) start
          actions).shared.resources ≤ config.limits.maxTotalMemory.toNat) := by
  constructor
  · intro resourceType limit configured
    refine (typeQuota config resourceType limit configured).load_le_limit ?_ ?_
      actions along
    · intro resource rival sameType rivalType
      exact Or.inl ((of_decide_eq_true rivalType).trans
        (of_decide_eq_true sameType).symm)
    · intro past index input event allowed
      rfl
  · intro monitored
    refine (memoryQuota config monitored).load_le_limit ?_ ?_ actions along
    · intro resource rival _ _
      exact Or.inr monitored
    · intro past index input event allowed
      exact isWrapped_of_unrivalled monitored allowed

instance Rivals.decidable (config : Config) (index : Nat)
    (resourceType : ResourceType) :
    DecidablePred (Rivals config index resourceType) := fun entry =>
  match entry with
  | (.run _ _, some (.inserted _)) => inferInstanceAs (Decidable (_ ∧ _))
  | (.run _ _, some (.checked _ _)) | (.run _ _, some .worked) => isFalse id
  | (.run _ _, none) => isFalse id
  | (.call _, _) => isFalse id

instance Checks.decidable (index : Nat) : DecidablePred (Checks index) :=
  fun entry =>
    match entry with
    | (.run _ _, some (.checked _ _)) => inferInstanceAs (Decidable (_ = _))
    | (.run _ _, some (.inserted _)) | (.run _ _, some .worked) => isFalse id
    | (.run _ _, none) => isFalse id
    | (.call _, _) => isFalse id

instance Unrivalled.decidable (config : Config)
    (past : Past Request Input Event) (action : Action Request Input)
    (event : Option Event) :
    Decidable (Unrivalled config past action event) :=
  match action, event with
  | .run index _, some (.inserted resource) =>
      have : Decidable (Trace.Since
          (Rivals config index resource.resourceType) (Checks index) past) :=
        Trace.Since.decidable _ _ past
      inferInstanceAs (Decidable (¬ Trace.Since
        (Rivals config index resource.resourceType) (Checks index) past))
  | .run _ _, some (.checked _ _) => inferInstanceAs (Decidable (_ → _ → _))
  | .run _ _, some .worked => isTrue trivial
  | .run _ _, none => isTrue trivial
  | .call _, _ => isTrue trivial

/-- One timer, and a hundred bytes. -/
def sampleConfig : Config where
  limits := { ResourceLimits.default with
    maxTotalMemory := 100
    maxResourcesPerType := fun resourceType =>
      if resourceType = .timer then some 1 else none }
  enableMemoryMonitoring := true
  overflow := .wrapping

def firstTimer : ResourceInfo := .new "first" .timer 60 0

def secondTimer : ResourceInfo := .new "second" .timer 60 0

def working (index : Nat) : Action Request Input := .run index ⟨0, 0, none⟩

/-- The second timer is registered after the first one was cleaned up. -/
def successiveTimers : List (Action Request Input) :=
  [.call (.registerResource firstTimer), working 0, working 0, working 0,
    .call (.cleanupResource "first"), working 1, working 1, working 1,
    working 1, .call (.registerResource secondTimer), working 2, working 2,
    working 2]

theorem resources_within_limits_sample :
    Trace.AlongPast (perform (program sampleConfig))
        (Allowed (program sampleConfig) (Unrivalled sampleConfig)) [] start
        successiveTimers ∧
      sampleConfig.limits.maxResourcesPerType .timer = some 1 ∧
      countOf (Trace.final (perform (program sampleConfig)) start
        successiveTimers).shared.resources .timer ≤ 1 ∧
      memoryOf (Trace.final (perform (program sampleConfig)) start
        successiveTimers).shared.resources ≤ 100 := by
  have along : Trace.AlongPast (perform (program sampleConfig))
      (Allowed (program sampleConfig) (Unrivalled sampleConfig)) [] start
      successiveTimers := by
    decide +kernel
  obtain ⟨counts, memory⟩ :=
    resources_within_limits sampleConfig successiveTimers along
  exact ⟨along, rfl, counts .timer 1 rfl, memory rfl⟩

/-- Both calls check the limits before either of them inserts. -/
def overlappingTimers : List (Action Request Input) :=
  [.call (.registerResource firstTimer), .call (.registerResource secondTimer),
    working 0, working 1, working 0, working 1, working 0, working 1]

theorem resources_exceed_limits :
    countOf (Trace.final (perform (program sampleConfig)) start
        overlappingTimers).shared.resources .timer = 2 ∧
      memoryOf (Trace.final (perform (program sampleConfig)) start
        overlappingTimers).shared.resources = 120 ∧
      ¬ (∀ resourceType limit,
        sampleConfig.limits.maxResourcesPerType resourceType = some limit →
          countOf (Trace.final (perform (program sampleConfig)) start
            overlappingTimers).shared.resources resourceType ≤ limit) ∧
      ¬ (sampleConfig.enableMemoryMonitoring = true →
        memoryOf (Trace.final (perform (program sampleConfig)) start
          overlappingTimers).shared.resources ≤
            sampleConfig.limits.maxTotalMemory.toNat) := by
  have two : countOf (Trace.final (perform (program sampleConfig)) start
      overlappingTimers).shared.resources .timer = 2 := by
    decide +kernel
  have bytes : memoryOf (Trace.final (perform (program sampleConfig)) start
      overlappingTimers).shared.resources = 120 := by
    decide +kernel
  refine ⟨two, bytes, ?_, ?_⟩
  · intro within
    have bound := within .timer 1 rfl
    rw [two] at bound
    exact absurd bound (by decide)
  · intro within
    have bound := within rfl
    rw [bytes] at bound
    exact absurd bound (by decide)

end NyxNet.Resources
