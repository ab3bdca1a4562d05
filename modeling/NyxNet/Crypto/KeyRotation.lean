import NyxNet.Crypto.Encryptor

/-!
# Key rotation manager

`KeyRotationManager` of `nyx-crypto/src/aead.rs`.  The manager keeps its own
copy of every context it looks after.  Clock readings, the key returned by the
callback and the way a thread is attached to tokio enter each call as an
`Environment`; times are in nanoseconds.  Rotation events go to a channel that
nothing here reads and are left out.
-/

namespace NyxNet.Crypto

structure RotationConfig where
  nonceThreshold : UInt64
  timeThreshold : Nat
  autoRotate : Bool
  deriving DecidableEq, Repr

inductive RotationReason where
  | nonceThreshold
  | timeThreshold
  deriving DecidableEq, Repr

/-- Where a blocking call runs.  `Handle::try_current` fails without a
runtime, and `block_on` panics on a thread that already drives one. -/
inductive RuntimeContext where
  | absent
  | entered
  | asynchronous
  deriving DecidableEq, Repr

/-- What one call reads from its surroundings.  `newKey` is what the rotation
callback returns if the call gets to invoke it. -/
structure Environment where
  runtime : RuntimeContext
  now : Nat
  rotatedAt : Nat
  newKey : SessionKey
  deriving DecidableEq, Repr

structure KeyRotationManager where
  contexts : Std.ExtTreeMap ContextId EncryptionContext compare
  rotationConfigs : Std.ExtTreeMap ContextId RotationConfig compare
  lastRotation : Std.ExtTreeMap ContextId Nat compare
  hasCallback : Bool

namespace KeyRotationManager

def new : KeyRotationManager :=
  { contexts := ∅, rotationConfigs := ∅, lastRotation := ∅,
    hasCallback := false }

def addContext (manager : KeyRotationManager) (contextId : ContextId)
    (context : EncryptionContext) (config : RotationConfig) (now : Nat) :
    KeyRotationManager :=
  { manager with
    contexts := manager.contexts.insert contextId context
    rotationConfigs := manager.rotationConfigs.insert contextId config
    lastRotation := manager.lastRotation.insert contextId now }

def setRotationCallback (manager : KeyRotationManager) : KeyRotationManager :=
  { manager with hasCallback := true }

def getContext (manager : KeyRotationManager) (contextId : ContextId) :
    Except AeadError EncryptionContext :=
  match manager.contexts[contextId]? with
  | none => .error (.contextNotFound contextId)
  | some context => .ok context

/-- Time since the last rotation. -/
def elapsed (manager : KeyRotationManager) (contextId : ContextId)
    (now : Nat) : Nat :=
  -- Contexts are added together with their time, so the default is unused.
  now - manager.lastRotation[contextId]?.getD now

/-- The first half of `check_and_rotate_context`: why the manager would
rotate, judged by its own copy of the context. -/
def rotationReason (manager : KeyRotationManager) (contextId : ContextId)
    (now : Nat) : Except AeadError (Option RotationReason) :=
  match manager.contexts[contextId]?, manager.rotationConfigs[contextId]? with
  | some context, some config =>
      if ¬ config.autoRotate then .ok none
      else if context.sendNonce > config.nonceThreshold then
        .ok (some .nonceThreshold)
      else if manager.elapsed contextId now > config.timeThreshold then
        .ok (some .timeThreshold)
      else .ok none
  | _, _ => .error (.contextNotFound contextId)

/-- Store a rotated context. -/
def install (manager : KeyRotationManager) (contextId : ContextId)
    (context : EncryptionContext) (rotatedAt : Nat) : KeyRotationManager :=
  { manager with
    contexts := manager.contexts.insert contextId context
    lastRotation := manager.lastRotation.insert contextId rotatedAt }

def checkAndRotateContext (manager : KeyRotationManager)
    (contextId : ContextId) (environment : Environment) :
    Except AeadError Bool × KeyRotationManager :=
  match manager.rotationReason contextId environment.now with
  | .error error => (.error error, manager)
  | .ok none => (.ok false, manager)
  | .ok (some _) =>
      if manager.hasCallback then
        match manager.contexts[contextId]? with
        | none => (.error (.contextNotFound contextId), manager)
        | some context =>
            (.ok true, manager.install contextId
              (context.updateSessionKey environment.newKey)
              environment.rotatedAt)
      else (.ok false, manager)

def checkAndRotate (manager : KeyRotationManager) (contextId : ContextId)
    (environment : Environment) :
    Outcome AeadError Bool × KeyRotationManager :=
  match environment.runtime with
  | .absent =>
      (.failed (.encryptionFailed "No tokio runtime available"), manager)
  | .asynchronous => (.panicked, manager)
  | .entered =>
      match manager.checkAndRotateContext contextId environment with
      | (.error error, next) => (.failed error, next)
      | (.ok rotated, next) => (.returned rotated, next)

/-- What `check_and_rotate` is about to do: refuse, leave the context alone or
put the returned context in its place. -/
def rotation (manager : KeyRotationManager) (contextId : ContextId)
    (environment : Environment) :
    Outcome AeadError (Option EncryptionContext) :=
  match environment.runtime with
  | .absent => .failed (.encryptionFailed "No tokio runtime available")
  | .asynchronous => .panicked
  | .entered =>
      match manager.rotationReason contextId environment.now with
      | .error error => .failed error
      | .ok none => .returned none
      | .ok (some _) =>
          .returned (if manager.hasCallback then
            manager.contexts[contextId]?.map
              (fun context => context.updateSessionKey environment.newKey)
          else none)

@[simp] theorem getContext_install (manager : KeyRotationManager)
    (contextId : ContextId) (context : EncryptionContext) (rotatedAt : Nat) :
    (manager.install contextId context rotatedAt).getContext contextId =
      .ok context := by
  simp [getContext, install]

/-- A reason to rotate is only found for a context the manager has. -/
theorem exists_context_of_rotationReason {manager : KeyRotationManager}
    {contextId : ContextId} {now : Nat} {reason : Option RotationReason}
    (found : manager.rotationReason contextId now = .ok reason) :
    ∃ context, manager.contexts[contextId]? = some context := by
  unfold rotationReason at found
  cases lookup : manager.contexts[contextId]? with
  | none => simp [lookup] at found
  | some context => exact ⟨context, rfl⟩

theorem checkAndRotate_eq (manager : KeyRotationManager)
    (contextId : ContextId) (environment : Environment) :
    manager.checkAndRotate contextId environment =
      match manager.rotation contextId environment with
      | .failed error => (.failed error, manager)
      | .panicked => (.panicked, manager)
      | .returned none => (.returned false, manager)
      | .returned (some context) =>
          (.returned true,
            manager.install contextId context environment.rotatedAt) := by
  unfold checkAndRotate rotation checkAndRotateContext
  cases environment.runtime with
  | absent => rfl
  | asynchronous => rfl
  | entered =>
      cases found : manager.rotationReason contextId environment.now with
      | error error => rfl
      | ok reason =>
          obtain ⟨context, lookup⟩ := exists_context_of_rotationReason found
          cases reason with
          | none => rfl
          | some reason =>
              by_cases callback : manager.hasCallback
              · simp [callback, lookup]
              · simp [callback]

/-- A context under automatic rotation. -/
structure Managed (contextId : ContextId) (config : RotationConfig)
    (manager : KeyRotationManager) : Prop where
  copy : ∃ context, manager.contexts[contextId]? = some context
  configured : manager.rotationConfigs[contextId]? = some config
  automatic : config.autoRotate = true
  callback : manager.hasCallback = true

/-- A managed context is rotated whenever the manager finds a reason. -/
theorem rotation_of_managed {manager : KeyRotationManager}
    {contextId : ContextId} {config : RotationConfig}
    (managed : Managed contextId config manager) {environment : Environment}
    (entered : environment.runtime = .entered) :
    ∃ context reason,
      manager.rotationReason contextId environment.now = .ok reason ∧
        manager.rotation contextId environment = .returned
          (reason.map (fun _ =>
            EncryptionContext.updateSessionKey context
              environment.newKey)) := by
  obtain ⟨context, lookup⟩ := managed.copy
  have found : ∃ reason,
      manager.rotationReason contextId environment.now = .ok reason := by
    simp only [rotationReason, lookup, managed.configured]
    split
    · exact ⟨_, rfl⟩
    · split
      · exact ⟨_, rfl⟩
      · split <;> exact ⟨_, rfl⟩
  obtain ⟨reason, found⟩ := found
  refine ⟨context, reason, found, ?_⟩
  unfold rotation
  rw [entered, found]
  cases reason with
  | none => rfl
  | some reason => simp [managed.callback, lookup]

theorem managed_install {manager : KeyRotationManager}
    {contextId : ContextId} {config : RotationConfig}
    (managed : Managed contextId config manager)
    (context : EncryptionContext) (rotatedAt : Nat) :
    Managed contextId config
      (manager.install contextId context rotatedAt) :=
  ⟨⟨context, Std.ExtTreeMap.getElem?_insert_self⟩, managed.configured,
    managed.automatic, managed.callback⟩

/-- The manager's copy of the context has not crossed the threshold. -/
def CopyBelow (contextId : ContextId) (config : RotationConfig)
    (manager : KeyRotationManager) : Prop :=
  ∀ context, manager.contexts[contextId]? = some context →
    context.sendNonce ≤ config.nonceThreshold

/-- Then only the clock gives a reason to rotate. -/
theorem rotationReason_of_copyBelow {manager : KeyRotationManager}
    {contextId : ContextId} {config : RotationConfig}
    (managed : Managed contextId config manager)
    (below : CopyBelow contextId config manager) (now : Nat) :
    manager.rotationReason contextId now =
      .ok (if manager.elapsed contextId now > config.timeThreshold then
        some .timeThreshold else none) := by
  obtain ⟨context, lookup⟩ := managed.copy
  have notAbove : ¬ context.sendNonce > config.nonceThreshold :=
    UInt64.not_lt.mpr (below context lookup)
  by_cases passed : manager.elapsed contextId now > config.timeThreshold
  · simp [rotationReason, lookup, managed.configured, managed.automatic,
      notAbove, passed]
  · simp [rotationReason, lookup, managed.configured, managed.automatic,
      notAbove, passed]

theorem copyBelow_install (manager : KeyRotationManager)
    (contextId : ContextId) (config : RotationConfig)
    (context : EncryptionContext) (newKey : SessionKey) (rotatedAt : Nat) :
    CopyBelow contextId config
      (manager.install contextId (context.updateSessionKey newKey)
        rotatedAt) := by
  intro stored lookup
  have updated : some (context.updateSessionKey newKey) = some stored := by
    rw [← lookup]
    exact Std.ExtTreeMap.getElem?_insert_self.symm
  cases updated
  exact UInt64.zero_le

end KeyRotationManager

end NyxNet.Crypto
