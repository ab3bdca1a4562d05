import NyxNet.Crypto.KeyRotation

/-!
# Encryption with failure handling and key rotation

`SafeEncryptionHandler` of `nyx-crypto/src/aead.rs`.  The handler holds an
encryptor, a failure count per context and possibly a key rotation manager.
Encryptor and manager each have a copy of a context; an encryption advances
the counter of the encryptor's copy alone, and a rotation replaces the
encryptor's copy by the manager's.

The results count how often a session key is handed to the cipher in a run of
`safe_encrypt` calls and say exactly when the configured nonce threshold
bounds that number.
-/

namespace NyxNet.Crypto

structure SafeEncryptionHandler where
  encryptor : Encryptor
  failureCount : Std.ExtTreeMap ContextId UInt32 compare
  maxFailures : UInt32
  keyRotationManager : Option KeyRotationManager

namespace SafeEncryptionHandler

def new (maxFailures : UInt32) : SafeEncryptionHandler :=
  { encryptor := Encryptor.new, failureCount := ∅, maxFailures,
    keyRotationManager := none }

def withKeyRotation (maxFailures : UInt32)
    (rotationManager : KeyRotationManager) : SafeEncryptionHandler :=
  { encryptor := Encryptor.new, failureCount := ∅, maxFailures,
    keyRotationManager := some rotationManager }

def addContext (handler : SafeEncryptionHandler) (contextId : ContextId)
    (context : EncryptionContext) :
    Except AeadError Unit × SafeEncryptionHandler :=
  let (result, encryptor) := handler.encryptor.addContext contextId context
  (result,
    { handler with
      encryptor
      failureCount := handler.failureCount.insert contextId 0 })

def getFailureCount (handler : SafeEncryptionHandler)
    (contextId : ContextId) : UInt32 :=
  handler.failureCount[contextId]?.getD 0

/-- The first half of `safe_encrypt`: let the manager rotate and take over its
copy of the context if it did. -/
def rotateIfDue (handler : SafeEncryptionHandler) (contextId : ContextId)
    (environment : Environment) :
    Outcome AeadError Unit × SafeEncryptionHandler :=
  match handler.keyRotationManager with
  | none => (.returned (), handler)
  | some manager =>
      let (rotated, nextManager) :=
        manager.checkAndRotate contextId environment
      let checked := { handler with keyRotationManager := some nextManager }
      match rotated with
      | .failed error => (.failed error, checked)
      | .panicked => (.panicked, checked)
      | .returned false => (.returned (), checked)
      | .returned true =>
          match nextManager.getContext contextId with
          | .error error => (.failed error, checked)
          | .ok newContext =>
              -- Ignore the error if the context does not exist.
              let (_, removed) := handler.encryptor.removeContext contextId
              match removed.addContext contextId newContext with
              | (.error error, encryptor) =>
                  (.failed error, { checked with encryptor })
              | (.ok (), encryptor) =>
                  (.returned (), { checked with encryptor })

/-- What both calls do with the result of the cipher: reset the failure count
or drop the context after too many failures. -/
def recordResult (handler : SafeEncryptionHandler) (contextId : ContextId)
    (result : Except AeadError Bytes) : SafeEncryptionHandler :=
  match result with
  | .ok _ =>
      { handler with failureCount := handler.failureCount.insert contextId 0 }
  | .error _ =>
      let count := handler.getFailureCount contextId + 1
      if count ≥ handler.maxFailures then
        let (_, encryptor) := handler.encryptor.removeContext contextId
        { handler with
          encryptor
          failureCount := handler.failureCount.erase contextId }
      else
        { handler with
          failureCount := handler.failureCount.insert contextId count }

def safeEncrypt (aead : Aead) (handler : SafeEncryptionHandler)
    (contextId : ContextId) (plaintext aad : Bytes)
    (environment : Environment) :
    Outcome AeadError Bytes × SafeEncryptionHandler :=
  match handler.rotateIfDue contextId environment with
  | (.failed error, next) => (.failed error, next)
  | (.panicked, next) => (.panicked, next)
  | (.returned (), next) =>
      let (result, encryptor) :=
        next.encryptor.encrypt aead contextId plaintext aad
      let recorded := { next with encryptor }.recordResult contextId result
      match result with
      | .ok ciphertext => (.returned ciphertext, recorded)
      | .error error => (.failed error, recorded)

def safeDecrypt (aead : Aead) (handler : SafeEncryptionHandler)
    (contextId : ContextId) (nonceCounter : UInt64)
    (ciphertext aad : Bytes) :
    Except AeadError Bytes × SafeEncryptionHandler :=
  let (result, encryptor) :=
    handler.encryptor.decrypt aead contextId nonceCounter ciphertext aad
  (result, { handler with encryptor }.recordResult contextId result)

/-- What the manager is about to do before an encryption. -/
def rotation (handler : SafeEncryptionHandler) (contextId : ContextId)
    (environment : Environment) :
    Outcome AeadError (Option EncryptionContext) :=
  match handler.keyRotationManager with
  | none => .returned none
  | some manager => manager.rotation contextId environment

/-- A context is kept unless its cipher call is the failure that exhausts the
allowance. -/
def survives (handler : SafeEncryptionHandler) (contextId : ContextId)
    (accepted : Bool) : Bool :=
  accepted ||
    decide (handler.getFailureCount contextId + 1 < handler.maxFailures)

/-- The handler after the manager let the call go on: a replacement takes the
place of the encryptor's and of the manager's entry, and nothing else moves. -/
structure Checked (handler next : SafeEncryptionHandler)
    (contextId : ContextId) (replacement : Option EncryptionContext)
    (rotatedAt : Nat) : Prop where
  lookup : ∀ other : ContextId, next.encryptor.contexts[other]? =
    if other = contextId then
      replacement.or handler.encryptor.contexts[contextId]?
    else handler.encryptor.contexts[other]?
  failureCount : next.failureCount = handler.failureCount
  maxFailures : next.maxFailures = handler.maxFailures
  manager : next.keyRotationManager = handler.keyRotationManager.map
    (fun manager => replacement.elim manager
      (fun context => manager.install contextId context rotatedAt))

theorem Checked.survives {handler next : SafeEncryptionHandler}
    {contextId : ContextId} {replacement : Option EncryptionContext}
    {rotatedAt : Nat}
    (checked : Checked handler next contextId replacement rotatedAt)
    (encryptor : Encryptor) (accepted : Bool) :
    { next with encryptor }.survives contextId accepted =
      handler.survives contextId accepted := by
  unfold SafeEncryptionHandler.survives getFailureCount
  rw [checked.failureCount, checked.maxFailures]

theorem checked_of_none (handler : SafeEncryptionHandler)
    (contextId : ContextId) (rotatedAt : Nat) :
    Checked handler handler contextId none rotatedAt := by
  refine ⟨?_, rfl, rfl, ?_⟩
  · intro other
    by_cases same : other = contextId
    · rw [if_pos same, same, Option.none_or]
    · rw [if_neg same]
  · cases handler.keyRotationManager <;> rfl

theorem rotateIfDue_spec (handler : SafeEncryptionHandler)
    (contextId : ContextId) (environment : Environment) :
    match handler.rotation contextId environment with
    | .failed error =>
        handler.rotateIfDue contextId environment = (.failed error, handler)
    | .panicked =>
        handler.rotateIfDue contextId environment = (.panicked, handler)
    | .returned replacement =>
        ∃ next, handler.rotateIfDue contextId environment =
            (.returned (), next) ∧
          Checked handler next contextId replacement
            environment.rotatedAt := by
  obtain ⟨encryptor, failureCount, maxFailures, keyRotationManager⟩ := handler
  cases keyRotationManager with
  | none => exact ⟨_, rfl, checked_of_none _ _ _⟩
  | some manager =>
      simp only [rotation, rotateIfDue, manager.checkAndRotate_eq]
      cases manager.rotation contextId environment with
      | failed error => rfl
      | panicked => rfl
      | returned replacement =>
          cases replacement with
          | none => exact ⟨_, rfl, checked_of_none _ _ _⟩
          | some context =>
              obtain ⟨next, replaced, lookups⟩ :=
                encryptor.addContext_removeContext contextId context
              simp only [KeyRotationManager.getContext_install, replaced]
              exact ⟨_, rfl, lookups, rfl, rfl, rfl⟩

/-- The failure count is set to zero before the encryptor finds that it has the
context already. -/
theorem addContext_of_present {handler : SafeEncryptionHandler}
    {contextId : ContextId}
    (present : handler.encryptor.contexts[contextId]?.isSome)
    (context : EncryptionContext) :
    handler.addContext contextId context =
      (.error (.contextExists contextId),
        { handler with
          failureCount := handler.failureCount.insert contextId 0 }) := by
  unfold addContext
  rw [Encryptor.addContext_of_present present]

theorem failureCount_kept_iff (handler : SafeEncryptionHandler)
    (contextId : ContextId) :
    ({ handler with
      failureCount := handler.failureCount.insert contextId 0 } :
        SafeEncryptionHandler) = handler ↔
      handler.failureCount[contextId]? = some 0 := by
  rw [← OrderedMap.insert_eq_self_iff]
  constructor
  · intro same
    exact congrArg SafeEncryptionHandler.failureCount same
  · intro same
    rw [same]

theorem lookup_recordResult (handler : SafeEncryptionHandler)
    (contextId : ContextId) (result : Except AeadError Bytes)
    (other : ContextId) :
    (handler.recordResult contextId result).encryptor.contexts[other]? =
      if other = contextId then
        if handler.survives contextId result.isOk then
          handler.encryptor.contexts[contextId]?
        else none
      else handler.encryptor.contexts[other]? := by
  cases result with
  | ok value =>
      by_cases same : other = contextId
      · simp [recordResult, survives, same, Except.isOk, Except.toBool]
      · simp [recordResult, same]
  | error error =>
      by_cases dropped :
          handler.getFailureCount contextId + 1 ≥ handler.maxFailures
      · simp [recordResult, survives, dropped, UInt32.not_lt.mpr dropped,
          Encryptor.lookup_removeContext, Except.isOk, Except.toBool]
      · by_cases same : other = contextId
        · simp [recordResult, survives, dropped, same,
            UInt32.not_le.mp dropped]
        · simp [recordResult, dropped, same]

theorem keyRotationManager_recordResult (handler : SafeEncryptionHandler)
    (contextId : ContextId) (result : Except AeadError Bytes) :
    (handler.recordResult contextId result).keyRotationManager =
      handler.keyRotationManager := by
  cases result with
  | ok value => rfl
  | error error =>
      by_cases dropped :
          handler.getFailureCount contextId + 1 ≥ handler.maxFailures
      · simp only [recordResult, if_pos dropped]
      · simp only [recordResult, if_neg dropped]

/-- The state after `safe_encrypt`, whatever the cipher answers. -/
theorem safeEncrypt_state (aead : Aead) (handler : SafeEncryptionHandler)
    (contextId : ContextId) (plaintext aad : Bytes)
    {environment : Environment} {next : SafeEncryptionHandler}
    (passed : handler.rotateIfDue contextId environment =
      (.returned (), next)) :
    (handler.safeEncrypt aead contextId plaintext aad environment).2 =
      { next with
        encryptor := (next.encryptor.encrypt aead contextId plaintext
          aad).2 }.recordResult contextId
            (next.encryptor.encrypt aead contextId plaintext aad).1 := by
  unfold safeEncrypt
  rw [passed]
  dsimp only
  split <;> rfl

theorem lookup_safeEncrypt (aead : Aead) {handler : SafeEncryptionHandler}
    {contextId : ContextId} {environment : Environment}
    {replacement : Option EncryptionContext}
    (passed : handler.rotation contextId environment = .returned replacement)
    (plaintext aad : Bytes) (other : ContextId) :
    (handler.safeEncrypt aead contextId plaintext aad
        environment).2.encryptor.contexts[other]? =
      if other = contextId then
        if handler.survives contextId
            ((replacement.or handler.encryptor.contexts[contextId]?).any
              (fun context => context.seals aead plaintext aad)) then
          (replacement.or handler.encryptor.contexts[contextId]?).map
            EncryptionContext.spent
        else none
      else handler.encryptor.contexts[other]? := by
  have spec := handler.rotateIfDue_spec contextId environment
  rw [passed] at spec
  obtain ⟨next, resumed, checked⟩ := spec
  have inForce := checked.lookup contextId
  rw [if_pos rfl] at inForce
  rw [handler.safeEncrypt_state aead contextId plaintext aad resumed,
    lookup_recordResult, checked.survives, Encryptor.isOk_encrypt, inForce]
  by_cases same : other = contextId
  · simp only [if_pos same, Encryptor.lookup_encrypt, if_true, inForce]
  · simp only [if_neg same, Encryptor.lookup_encrypt, checked.lookup other]

/-- Without the manager's consent nothing happens at all. -/
theorem safeEncrypt_of_refused (aead : Aead)
    {handler : SafeEncryptionHandler} {contextId : ContextId}
    {environment : Environment}
    (refused : ∀ replacement,
      handler.rotation contextId environment ≠ .returned replacement)
    (plaintext aad : Bytes) :
    (handler.safeEncrypt aead contextId plaintext aad environment).2 =
      handler := by
  have spec := handler.rotateIfDue_spec contextId environment
  unfold safeEncrypt
  cases outcome : handler.rotation contextId environment with
  | returned replacement => exact (refused replacement outcome).elim
  | failed error =>
      rw [outcome] at spec
      rw [spec]
  | panicked =>
      rw [outcome] at spec
      rw [spec]

theorem lookup_safeDecrypt (aead : Aead) (handler : SafeEncryptionHandler)
    (contextId : ContextId) (nonceCounter : UInt64) (ciphertext aad : Bytes)
    (other : ContextId) :
    (handler.safeDecrypt aead contextId nonceCounter ciphertext
        aad).2.encryptor.contexts[other]? =
      if other = contextId then
        if handler.survives contextId
            (handler.encryptor.contexts[contextId]?.any
              (fun context =>
                context.opens aead nonceCounter ciphertext aad)) then
          handler.encryptor.contexts[contextId]?
        else none
      else handler.encryptor.contexts[other]? := by
  unfold safeDecrypt
  rw [lookup_recordResult, Encryptor.isOk_decrypt, Encryptor.decrypt_state]

theorem keyRotationManager_safeEncrypt (aead : Aead)
    {handler : SafeEncryptionHandler} {contextId : ContextId}
    {environment : Environment} {replacement : Option EncryptionContext}
    (passed : handler.rotation contextId environment = .returned replacement)
    (plaintext aad : Bytes) :
    (handler.safeEncrypt aead contextId plaintext aad
        environment).2.keyRotationManager =
      handler.keyRotationManager.map (fun manager => replacement.elim manager
        (fun context =>
          manager.install contextId context environment.rotatedAt)) := by
  have spec := handler.rotateIfDue_spec contextId environment
  rw [passed] at spec
  obtain ⟨next, resumed, checked⟩ := spec
  rw [handler.safeEncrypt_state aead contextId plaintext aad resumed,
    keyRotationManager_recordResult]
  exact checked.manager

/-- A stored count is zero or has not yet exhausted the allowance. -/
def CountsBelow (handler : SafeEncryptionHandler) : Prop :=
  ∀ (contextId : ContextId) count,
    handler.failureCount[contextId]? = some count →
      count = 0 ∨ count < handler.maxFailures

/-- Counting one more failure does not overflow. -/
theorem CountsBelow.fits {handler : SafeEncryptionHandler}
    (below : handler.CountsBelow) (contextId : ContextId) :
    (handler.getFailureCount contextId).toNat + 1 < 2 ^ 32 := by
  unfold getFailureCount
  cases lookup : handler.failureCount[contextId]? with
  | none => decide
  | some count =>
      rw [Option.getD_some]
      rcases below contextId count lookup with zero | bounded
      · rw [zero]
        decide
      · have strict := UInt32.lt_iff_toNat_lt.mp bounded
        have limit := handler.maxFailures.toNat_lt
        omega

theorem countsBelow_insert {handler next : SafeEncryptionHandler}
    (below : handler.CountsBelow) {contextId : ContextId} {count : UInt32}
    (small : count = 0 ∨ count < handler.maxFailures)
    (inserted : next.failureCount =
      handler.failureCount.insert contextId count)
    (sameLimit : next.maxFailures = handler.maxFailures) :
    next.CountsBelow := by
  intro other stored lookup
  rw [inserted] at lookup
  rw [sameLimit]
  rcases OrderedMap.lookup_insert_cases lookup with ⟨_, isNew⟩ | ⟨_, old⟩
  · rw [isNew]
    exact small
  · exact below other stored old

theorem countsBelow_recordResult {handler : SafeEncryptionHandler}
    (below : handler.CountsBelow) (contextId : ContextId)
    (result : Except AeadError Bytes) :
    (handler.recordResult contextId result).CountsBelow := by
  cases result with
  | ok value => exact countsBelow_insert below (.inl rfl) rfl rfl
  | error error =>
      by_cases dropped :
          handler.getFailureCount contextId + 1 ≥ handler.maxFailures
      · simp only [recordResult, if_pos dropped]
        intro other stored lookup
        exact below other stored (OrderedMap.lookup_of_erase lookup).2
      · simp only [recordResult, if_neg dropped]
        exact countsBelow_insert below (.inr (UInt32.not_le.mp dropped)) rfl
          rfl

theorem countsBelow_safeEncrypt (aead : Aead)
    {handler : SafeEncryptionHandler} (below : handler.CountsBelow)
    (contextId : ContextId) (plaintext aad : Bytes)
    (environment : Environment) :
    (handler.safeEncrypt aead contextId plaintext aad
      environment).2.CountsBelow := by
  have spec := handler.rotateIfDue_spec contextId environment
  cases outcome : handler.rotation contextId environment with
  | returned replacement =>
      rw [outcome] at spec
      obtain ⟨next, resumed, checked⟩ := spec
      rw [handler.safeEncrypt_state aead contextId plaintext aad resumed]
      apply countsBelow_recordResult
      intro other stored lookup
      simp only [checked.failureCount] at lookup
      rw [checked.maxFailures]
      exact below other stored lookup
  | failed error =>
      rw [safeEncrypt_of_refused aead (by simp [outcome])]
      exact below
  | panicked =>
      rw [safeEncrypt_of_refused aead (by simp [outcome])]
      exact below

/-- One `safe_encrypt` call on a context. -/
structure Call where
  plaintext : Bytes
  aad : Bytes
  environment : Environment
  deriving DecidableEq, Repr

/-- What a call does with session keys: the key a rotation installs and the
key that is handed to the cipher. -/
structure Activity where
  installed : Option SessionKey
  used : Option SessionKey
  deriving DecidableEq, Repr

/-- Run one call on `contextId` and record what it does with session keys. -/
def perform (aead : Aead) (contextId : ContextId)
    (handler : SafeEncryptionHandler) (call : Call) :
    Activity × SafeEncryptionHandler :=
  ({ installed :=
      match handler.rotation contextId call.environment with
      | .returned replacement => replacement.map EncryptionContext.sessionKey
      | _ => none
     used :=
      match handler.rotateIfDue contextId call.environment with
      | (.returned (), next) =>
          (next.encryptor.cipherInput contextId).map Prod.fst
      | _ => none },
    (handler.safeEncrypt aead contextId call.plaintext call.aad
      call.environment).2)

def installedKeys (past : List (Call × Activity)) : List SessionKey :=
  past.filterMap (fun entry => entry.2.installed)

def usedKeys (past : List (Call × Activity)) : List SessionKey :=
  past.filterMap (fun entry => entry.2.used)

/-- The key a context hands to the cipher. -/
def keyOnUse (entry : Option EncryptionContext) : Option SessionKey :=
  entry.bind (fun context =>
    if context.sendNonce < maxNonce then some context.sessionKey else none)

theorem perform_of_returned (aead : Aead) {handler : SafeEncryptionHandler}
    {contextId : ContextId} {call : Call}
    {replacement : Option EncryptionContext}
    (passed : handler.rotation contextId call.environment =
      .returned replacement) :
    (perform aead contextId handler call).1 =
      ⟨replacement.map EncryptionContext.sessionKey,
        keyOnUse
          (replacement.or handler.encryptor.contexts[contextId]?)⟩ := by
  have spec := handler.rotateIfDue_spec contextId call.environment
  rw [passed] at spec
  obtain ⟨next, resumed, checked⟩ := spec
  have inForce := checked.lookup contextId
  rw [if_pos rfl] at inForce
  simp only [perform, passed, resumed, Encryptor.cipherInput_eq, inForce,
    keyOnUse]
  cases replacement.or handler.encryptor.contexts[contextId]? with
  | none => rfl
  | some context =>
      by_cases within : context.sendNonce < maxNonce
      · simp [within]
      · simp [within]

/-- Every use so far was of an installed key, and the counter of the live
context is the number of times its key was used. -/
structure Tracks (keys used : List SessionKey)
    (entry : Option EncryptionContext) : Prop where
  known : ∀ key ∈ used, key ∈ keys
  live : ∀ context, entry = some context →
    context.sessionKey ∈ keys ∧
      used.count context.sessionKey = context.sendNonce.toNat

theorem Tracks.drop {keys used : List SessionKey}
    {entry : Option EncryptionContext} (tracks : Tracks keys used entry) :
    Tracks keys used none := by
  refine ⟨tracks.known, ?_⟩
  intro context isLive
  cases isLive

theorem Tracks.replace {keys used : List SessionKey}
    {entry replacement : Option EncryptionContext}
    (tracks : Tracks keys used entry)
    (reset : ∀ context, replacement = some context → context.sendNonce = 0)
    (fresh : (keys ++
      (replacement.map EncryptionContext.sessionKey).toList).Nodup) :
    Tracks (keys ++ (replacement.map EncryptionContext.sessionKey).toList)
      used (replacement.or entry) := by
  cases replacement with
  | none => simpa using tracks
  | some context =>
      have isNew : context.sessionKey ∉ keys := by
        intro member
        exact (List.nodup_append.mp fresh).2.2 _ member _
          List.mem_cons_self rfl
      constructor
      · intro key member
        exact List.mem_append_left _ (tracks.known key member)
      · intro live isLive
        rw [Option.some_or, Option.some.injEq] at isLive
        subst live
        refine ⟨List.mem_append_right _ List.mem_cons_self, ?_⟩
        rw [reset context rfl]
        apply List.count_eq_zero_of_not_mem
        intro member
        exact isNew (tracks.known _ member)

theorem Tracks.use {keys used : List SessionKey}
    {entry : Option EncryptionContext} (tracks : Tracks keys used entry) :
    Tracks keys (used ++ (keyOnUse entry).toList)
      (entry.map EncryptionContext.spent) := by
  cases entry with
  | none => simpa [keyOnUse] using tracks
  | some context =>
      obtain ⟨isKnown, count⟩ := tracks.live context rfl
      by_cases within : context.sendNonce < maxNonce
      · have next := EncryptionContext.toNat_sendNonce_succ
          (UInt64.lt_iff_toNat_lt.mp within)
        constructor
        · intro key member
          rcases List.mem_append.mp member with earlier | last
          · exact tracks.known key earlier
          · have same : key = context.sessionKey := by
              simpa [keyOnUse, within] using last
            rw [same]
            exact isKnown
        · intro live isLive
          have equality : { context with
              sendNonce := context.sendNonce + 1 } = live := by
            simpa [EncryptionContext.spent, within] using isLive
          subst equality
          refine ⟨isKnown, ?_⟩
          simp [keyOnUse, within, next, count]
      · simpa [keyOnUse, EncryptionContext.spent, within] using tracks

/-- No key was used more often than the threshold allows. -/
def UseBounded (threshold : UInt64) (used : List SessionKey) : Prop :=
  ∀ key, used.count key ≤ threshold.toNat + 1

theorem useBounded_use_iff {keys used : List SessionKey}
    {entry : Option EncryptionContext} {threshold : UInt64}
    (tracks : Tracks keys used entry) (bounded : UseBounded threshold used) :
    UseBounded threshold (used ++ (keyOnUse entry).toList) ↔
      ∀ context, entry = some context → context.sendNonce < maxNonce →
        context.sendNonce ≤ threshold := by
  cases entry with
  | none => simpa [keyOnUse] using bounded
  | some context =>
      have count := (tracks.live context rfl).2
      by_cases within : context.sendNonce < maxNonce
      · have used_eq : (keyOnUse (some context)).toList =
            [context.sessionKey] := by
          simp [keyOnUse, within]
        rw [used_eq]
        constructor
        · intro after live isLive _
          rw [Option.some.injEq] at isLive
          subst live
          have atKey := after context.sessionKey
          rw [List.count_append, count, List.count_singleton_self] at atKey
          exact UInt64.le_iff_toNat_le.mpr (Nat.le_of_add_le_add_right atKey)
        · intro below key
          have bound := UInt64.le_iff_toNat_le.mp (below context rfl within)
          by_cases same : key = context.sessionKey
          · rw [same, List.count_append, count, List.count_singleton_self]
            omega
          · rw [List.count_append, List.count_singleton,
              if_neg (by simpa using Ne.symm same)]
            exact bounded key
      · constructor
        · intro _ live isLive unspent
          rw [Option.some.injEq] at isLive
          subst live
          exact (within unspent).elim
        · intro _
          simpa [keyOnUse, within] using bounded

/-- A rotation manager looks after the context. -/
def IsManaged (contextId : ContextId) (config : RotationConfig)
    (handler : SafeEncryptionHandler) : Prop :=
  ∃ manager, handler.keyRotationManager = some manager ∧
    KeyRotationManager.Managed contextId config manager

/-- A call that gets past the rotation check without a rotation finds the
encryptor's counter at or below the threshold.  The manager looks for a reason
to rotate in its own copy of the context. -/
def WithinThreshold (contextId : ContextId) (config : RotationConfig)
    (handler : SafeEncryptionHandler) (call : Call) : Prop :=
  call.environment.runtime = .entered →
    (∀ manager, handler.keyRotationManager = some manager →
      manager.rotationReason contextId call.environment.now = .ok none) →
      ∀ context, handler.encryptor.contexts[contextId]? = some context →
        context.sendNonce < maxNonce →
          context.sendNonce ≤ config.nonceThreshold

theorem sendNonce_of_updated (copy : EncryptionContext)
    (newKey : SessionKey) (context : EncryptionContext)
    (updated : some (copy.updateSessionKey newKey) = some context) :
    context.sendNonce = 0 := by
  cases updated
  rfl

section Step

variable (aead : Aead) {contextId : ContextId} {config : RotationConfig}
  {handler : SafeEncryptionHandler} {manager : KeyRotationManager}
  {keys used : List SessionKey}

/-- A thread that cannot block on the runtime leaves everything as it was;
otherwise the call starts with a rotation if the manager has a reason. -/
theorem check_cases (hasManager : handler.keyRotationManager = some manager)
    (managed : KeyRotationManager.Managed contextId config manager)
    (call : Call) :
    (call.environment.runtime ≠ .entered ∧
        perform aead contextId handler call = (⟨none, none⟩, handler)) ∨
      (call.environment.runtime = .entered ∧
        manager.rotationReason contextId call.environment.now = .ok none ∧
        handler.rotation contextId call.environment = .returned none) ∨
      (manager.rotationReason contextId call.environment.now ≠ .ok none ∧
        ∃ copy, handler.rotation contextId call.environment =
          .returned (some (EncryptionContext.updateSessionKey copy
            call.environment.newKey))) := by
  have delegated : handler.rotation contextId call.environment =
      manager.rotation contextId call.environment := by
    simp only [rotation, hasManager]
  have spec := handler.rotateIfDue_spec contextId call.environment
  cases runtime : call.environment.runtime with
  | absent =>
      left
      simp only [delegated, KeyRotationManager.rotation, runtime] at spec
      refine ⟨by simp, ?_⟩
      simp only [perform, safeEncrypt, delegated,
        KeyRotationManager.rotation, runtime, spec]
  | asynchronous =>
      left
      simp only [delegated, KeyRotationManager.rotation, runtime] at spec
      refine ⟨by simp, ?_⟩
      simp only [perform, safeEncrypt, delegated,
        KeyRotationManager.rotation, runtime, spec]
  | entered =>
      right
      obtain ⟨copy, reason, found, due⟩ :=
        KeyRotationManager.rotation_of_managed managed runtime
      rw [delegated, due, found]
      cases reason with
      | none =>
          left
          exact ⟨rfl, rfl, rfl⟩
      | some reason =>
          right
          exact ⟨by simp, copy, rfl⟩

/-- A call leaves the manager alone or stores a rotated context in it. -/
theorem manager_perform (hasManager : handler.keyRotationManager = some manager)
    (managed : KeyRotationManager.Managed contextId config manager)
    (call : Call) :
    (perform aead contextId handler call).2.keyRotationManager =
        some manager ∨
      ∃ copy, (perform aead contextId handler call).2.keyRotationManager =
        some (manager.install contextId
          (EncryptionContext.updateSessionKey copy call.environment.newKey)
          call.environment.rotatedAt) := by
  rcases check_cases aead hasManager managed call with
    ⟨_, unchanged⟩ | ⟨_, _, passed⟩ | ⟨_, copy, passed⟩
  · left
    rw [unchanged]
    exact hasManager
  · left
    have after := keyRotationManager_safeEncrypt aead passed
      call.plaintext call.aad
    rw [hasManager] at after
    exact after
  · right
    have after := keyRotationManager_safeEncrypt aead passed
      call.plaintext call.aad
    rw [hasManager] at after
    exact ⟨copy, after⟩

theorem isManaged_perform (managed : IsManaged contextId config handler)
    (call : Call) :
    IsManaged contextId config (perform aead contextId handler call).2 := by
  obtain ⟨manager, hasManager, holds⟩ := managed
  rcases manager_perform aead hasManager holds call with same | ⟨copy, stored⟩
  · exact ⟨manager, same, holds⟩
  · exact ⟨_, stored, KeyRotationManager.managed_install holds _ _⟩

/-- Once the check let a call pass, the key of the replacement, or else of the
live context, is used. -/
theorem tracks_of_returned {call : Call}
    {replacement : Option EncryptionContext}
    (tracks : Tracks keys used handler.encryptor.contexts[contextId]?)
    (passed : handler.rotation contextId call.environment =
      .returned replacement)
    (reset : ∀ context, replacement = some context → context.sendNonce = 0)
    (fresh : (keys ++ (perform aead contextId handler
      call).1.installed.toList).Nodup) :
    Tracks (keys ++ (perform aead contextId handler call).1.installed.toList)
      (used ++ (perform aead contextId handler call).1.used.toList)
      (perform aead contextId handler
        call).2.encryptor.contexts[contextId]? := by
  have after := lookup_safeEncrypt aead passed call.plaintext call.aad
    contextId
  rw [if_pos rfl] at after
  rw [perform_of_returned aead passed] at fresh ⊢
  have inForce := (tracks.replace reset fresh).use
  simp only [perform]
  rw [after]
  split
  · exact inForce
  · exact inForce.drop

theorem tracks_perform (managed : IsManaged contextId config handler)
    (tracks : Tracks keys used handler.encryptor.contexts[contextId]?)
    (call : Call)
    (fresh : (keys ++ (perform aead contextId handler
      call).1.installed.toList).Nodup) :
    Tracks (keys ++ (perform aead contextId handler call).1.installed.toList)
      (used ++ (perform aead contextId handler call).1.used.toList)
      (perform aead contextId handler
        call).2.encryptor.contexts[contextId]? := by
  obtain ⟨manager, hasManager, holds⟩ := managed
  rcases check_cases aead hasManager holds call with
    ⟨_, unchanged⟩ | ⟨_, _, passed⟩ | ⟨_, copy, passed⟩
  · rw [unchanged]
    simpa using tracks
  · apply tracks_of_returned aead tracks passed _ fresh
    intro context isReplacement
    cases isReplacement
  · exact tracks_of_returned aead tracks passed
      (sendNonce_of_updated copy call.environment.newKey) fresh

/-- A call keeps the bound exactly when it is within the threshold. -/
theorem useBounded_perform_iff (managed : IsManaged contextId config handler)
    (tracks : Tracks keys used handler.encryptor.contexts[contextId]?)
    (call : Call)
    (fresh : (keys ++ (perform aead contextId handler
      call).1.installed.toList).Nodup)
    (bounded : UseBounded config.nonceThreshold used) :
    UseBounded config.nonceThreshold
        (used ++ (perform aead contextId handler call).1.used.toList) ↔
      WithinThreshold contextId config handler call := by
  obtain ⟨manager, hasManager, holds⟩ := managed
  rcases check_cases aead hasManager holds call with
    ⟨outside, unchanged⟩ | ⟨entered, idle, passed⟩ | ⟨due, copy, passed⟩
  · rw [unchanged]
    constructor
    · intro _ entered
      exact (outside entered).elim
    · intro _
      simpa using bounded
  · rw [perform_of_returned aead passed, Option.none_or,
      useBounded_use_iff tracks bounded]
    constructor
    · intro below _ _
      exact below
    · intro within
      apply within entered
      intro other isOther
      rw [hasManager, Option.some.injEq] at isOther
      rw [← isOther]
      exact idle
  · rw [perform_of_returned aead passed] at fresh ⊢
    have inForce := tracks.replace
      (sendNonce_of_updated copy call.environment.newKey) fresh
    rw [useBounded_use_iff inForce bounded]
    constructor
    · intro _ _ idle
      exact (due (idle manager hasManager)).elim
    · intro _ context isReplacement _
      cases isReplacement
      exact UInt64.zero_le

end Step

/-- The handler as set up for rotation: encryptor and manager both know the
context and nothing was encrypted yet. -/
structure Configured (contextId : ContextId) (key : SessionKey)
    (config : RotationConfig) (handler : SafeEncryptionHandler) : Prop where
  fresh : ∃ context,
    handler.encryptor.contexts[contextId]? = some context ∧
      context.sessionKey = key ∧ context.sendNonce = 0
  managed : IsManaged contextId config handler

/-- The keys of a run: the initial one and every key a rotation installed. -/
def keysOf (key : SessionKey) (past : List (Call × Activity)) :
    List SessionKey :=
  key :: installedKeys past

theorem keysOf_append (key : SessionKey) (past : List (Call × Activity))
    (call : Call) (activity : Activity) :
    keysOf key (past ++ [(call, activity)]) =
      keysOf key past ++ activity.installed.toList := by
  cases installed : activity.installed <;>
    simp [keysOf, installedKeys, installed]

theorem usedKeys_append (past : List (Call × Activity)) (call : Call)
    (activity : Activity) :
    usedKeys (past ++ [(call, activity)]) =
      usedKeys past ++ activity.used.toList := by
  cases used : activity.used <;> simp [usedKeys, used]

/-- The invariant of a run in which the callback supplies fresh keys. -/
def KeyRunInvariant (contextId : ContextId) (key : SessionKey)
    (config : RotationConfig) (past : List (Call × Activity))
    (handler : SafeEncryptionHandler) : Prop :=
  IsManaged contextId config handler ∧
    ((keysOf key past).Nodup → Tracks (keysOf key past) (usedKeys past)
      handler.encryptor.contexts[contextId]?)

theorem keyRunInvariant_run (aead : Aead) {contextId : ContextId}
    {key : SessionKey} {config : RotationConfig}
    {handler : SafeEncryptionHandler}
    (configured : Configured contextId key config handler)
    (calls : List Call) :
    KeyRunInvariant contextId key config
      (Trace.history (perform aead contextId) handler calls)
      (Trace.final (perform aead contextId) handler calls) := by
  apply Trace.invariant
  · refine ⟨configured.managed, ?_⟩
    intro _
    obtain ⟨context, lookup, hasKey, unused⟩ := configured.fresh
    constructor
    · intro used member
      cases member
    · intro live isLive
      rw [lookup, Option.some.injEq] at isLive
      subst live
      rw [hasKey, unused]
      exact ⟨List.mem_cons_self, rfl⟩
  · intro past state call holds
    obtain ⟨managed, tracks⟩ := holds
    refine ⟨isManaged_perform aead managed call, ?_⟩
    intro fresh
    rw [keysOf_append] at fresh ⊢
    rw [usedKeys_append]
    exact tracks_perform aead managed (tracks (List.nodup_append.mp fresh).1)
      call fresh

/-- Keys are only ever added to a history. -/
theorem usedKeys_isPrefix (aead : Aead) (contextId : ContextId)
    (handler : SafeEncryptionHandler) {before calls : List Call}
    (isPrefix : before <+: calls) :
    (usedKeys (Trace.history (perform aead contextId) handler before)).Sublist
      (usedKeys (Trace.history (perform aead contextId) handler calls)) := by
  obtain ⟨after, rfl⟩ := isPrefix
  rw [Trace.history_append, usedKeys, usedKeys, List.filterMap_append]
  exact List.sublist_append_left _ _

theorem keysOf_isPrefix (aead : Aead) (contextId : ContextId)
    (key : SessionKey) (handler : SafeEncryptionHandler)
    {before calls : List Call} (isPrefix : before <+: calls) :
    (keysOf key
      (Trace.history (perform aead contextId) handler before)).Sublist
      (keysOf key
        (Trace.history (perform aead contextId) handler calls)) := by
  obtain ⟨after, rfl⟩ := isPrefix
  rw [Trace.history_append, keysOf, keysOf, installedKeys, installedKeys,
    List.filterMap_append]
  exact (List.sublist_append_left _ _).cons_cons key

theorem key_use_bounded_iff (aead : Aead) {contextId : ContextId}
    {key : SessionKey} {config : RotationConfig}
    {handler : SafeEncryptionHandler}
    (configured : Configured contextId key config handler)
    (calls : List Call)
    (fresh : (keysOf key
      (Trace.history (perform aead contextId) handler calls)).Nodup) :
    UseBounded config.nonceThreshold
        (usedKeys (Trace.history (perform aead contextId) handler calls)) ↔
      Trace.Along (perform aead contextId) (WithinThreshold contextId config)
        handler calls := by
  -- Uses only accumulate, so the bound at the end covers every prefix.
  have throughout : UseBounded config.nonceThreshold
        (usedKeys (Trace.history (perform aead contextId) handler calls)) ↔
      ∀ before, before <+: calls → UseBounded config.nonceThreshold
        (usedKeys
          (Trace.history (perform aead contextId) handler before)) := by
    constructor
    · intro bounded before isPrefix used
      exact Nat.le_trans ((usedKeys_isPrefix aead contextId handler
        isPrefix).count_le used) (bounded used)
    · intro bounded
      exact bounded calls (List.prefix_refl calls)
  rw [throughout]
  apply Trace.throughout_iff
    (fun past state => (keysOf key past).Nodup ∧
      KeyRunInvariant contextId key config past state)
    (fun past _ => UseBounded config.nonceThreshold (usedKeys past))
  · intro before isPrefix
    refine ⟨?_, keyRunInvariant_run aead configured before⟩
    exact fresh.sublist (keysOf_isPrefix aead contextId key handler isPrefix)
  · intro used
    exact Nat.zero_le _
  · intro past state call holds after bounded
    obtain ⟨isFresh, managed, tracks⟩ := holds
    have stillFresh := after.1
    rw [keysOf_append] at stillFresh
    rw [usedKeys_append]
    exact useBounded_perform_iff aead managed (tracks isFresh) call
      stillFresh bounded

/-- The manager's copy of the counter is not past the threshold. -/
def IsManagedBelow (contextId : ContextId) (config : RotationConfig)
    (handler : SafeEncryptionHandler) : Prop :=
  ∃ manager, handler.keyRotationManager = some manager ∧
    KeyRotationManager.Managed contextId config manager ∧
      KeyRotationManager.CopyBelow contextId config manager

theorem isManagedBelow_perform (aead : Aead) {contextId : ContextId}
    {config : RotationConfig} (handler : SafeEncryptionHandler) (call : Call)
    (holds : IsManagedBelow contextId config handler) :
    IsManagedBelow contextId config
      (perform aead contextId handler call).2 := by
  obtain ⟨manager, hasManager, managed, below⟩ := holds
  rcases manager_perform aead hasManager managed call with
    same | ⟨copy, stored⟩
  · exact ⟨manager, same, managed, below⟩
  · exact ⟨_, stored, KeyRotationManager.managed_install managed _ _,
      KeyRotationManager.copyBelow_install manager contextId config copy _ _⟩

/-- The nonce threshold never brings a rotation about: encryptions advance the
encryptor's copy of the counter, and the manager's copy stays where it was
until the clock resets it. -/
theorem only_clock_rotates (aead : Aead) {contextId : ContextId}
    {config : RotationConfig} {handler : SafeEncryptionHandler}
    (holds : IsManagedBelow contextId config handler) (calls : List Call)
    (now : Nat) :
    ∃ manager,
      (Trace.final (perform aead contextId) handler
          calls).keyRotationManager = some manager ∧
        manager.rotationReason contextId now =
          .ok (if manager.elapsed contextId now > config.timeThreshold then
            some .timeThreshold else none) := by
  obtain ⟨manager, hasManager, managed, below⟩ :=
    Trace.final_invariant (isManagedBelow_perform aead) calls holds
  exact ⟨manager, hasManager,
    KeyRotationManager.rotationReason_of_copyBelow managed below now⟩

/-- Four messages sealed by ChaCha20-Poly1305 under the session key
`[100; 32]` in direction 0. -/
def rotationLog : List Sealed :=
  [{ nonce := directionNonce 0 0
     plaintext := [116, 101, 115, 116, 32, 109, 101, 115, 115, 97, 103, 101]
     aad := [97, 97, 100]
     ciphertext := [172, 45, 121, 7, 68, 98, 111, 222, 96, 12, 206, 240, 246,
       162, 69, 137, 4, 186, 97, 22, 235, 197, 155, 222, 56, 226, 9, 158] },
   { nonce := directionNonce 0 1
     plaintext := [116, 101, 115, 116, 32, 109, 101, 115, 115, 97, 103, 101]
     aad := [97, 97, 100]
     ciphertext := [45, 70, 73, 215, 190, 88, 222, 225, 186, 193, 211, 207,
       215, 219, 112, 73, 32, 245, 214, 129, 162, 49, 11, 76, 143, 110, 52,
       130] },
   { nonce := directionNonce 0 2
     plaintext := [116, 101, 115, 116, 32, 109, 101, 115, 115, 97, 103, 101]
     aad := [97, 97, 100]
     ciphertext := [9, 190, 157, 156, 229, 174, 115, 86, 240, 161, 85, 53,
       177, 27, 61, 107, 69, 149, 47, 1, 74, 253, 127, 73, 245, 112, 131,
       56] },
   { nonce := directionNonce 0 3
     plaintext := [116, 101, 115, 116, 32, 109, 101, 115, 115, 97, 103, 101]
     aad := [97, 97, 100]
     ciphertext := [164, 0, 131, 251, 93, 164, 138, 241, 241, 27, 73, 149,
       124, 88, 82, 208, 23, 174, 19, 39, 78, 34, 108, 114, 57, 33, 34,
       107] }]

/-- Nonce threshold 2 and one hour between rotations. -/
def sampleConfig : RotationConfig :=
  { nonceThreshold := 2, timeThreshold := 3600000000000, autoRotate := true }

def rotationKey : SessionKey := ⟨Vector.replicate 32 100⟩

/-- The handler of the test `safe_encryption_handler_with_rotation`. -/
def rotatingHandler : SafeEncryptionHandler :=
  let context := EncryptionContext.new rotationKey 0
  let manager := (KeyRotationManager.new.addContext 1 context sampleConfig
    0).setRotationCallback
  ((withKeyRotation 3 manager).addContext 1 context).2

/-- One of its calls, a second after the start. -/
def rotationCall : Call :=
  { plaintext := [116, 101, 115, 116, 32, 109, 101, 115, 115, 97, 103, 101]
    aad := [97, 97, 100]
    environment :=
      { runtime := .entered, now := 1000000000, rotatedAt := 1000000000,
        newKey := ⟨(Vector.replicate 32 100).set 0 101⟩ } }

theorem configured_rotatingHandler :
    Configured 1 rotationKey sampleConfig rotatingHandler := by
  refine ⟨⟨.new rotationKey 0, by decide, rfl, rfl⟩, _, rfl, ?_⟩
  exact ⟨⟨.new rotationKey 0, by decide⟩, by decide, rfl, rfl⟩

theorem key_use_bounded_iff_at_threshold_two :
    UseBounded 2 (usedKeys (Trace.history
        (perform (tableAead rotationLog) 1) rotatingHandler
        (List.replicate 4 rotationCall))) ↔
      Trace.Along (perform (tableAead rotationLog) 1)
        (WithinThreshold 1 sampleConfig) rotatingHandler
        (List.replicate 4 rotationCall) :=
  key_use_bounded_iff (tableAead rotationLog) configured_rotatingHandler
    (List.replicate 4 rotationCall) (by decide +kernel)

/-- All four calls use the first key: the manager's counter stays at zero. -/
theorem key_used_past_threshold :
    Configured 1 rotationKey sampleConfig rotatingHandler ∧
      (keysOf rotationKey (Trace.history (perform (tableAead rotationLog) 1)
        rotatingHandler (List.replicate 4 rotationCall))).Nodup ∧
      ¬ UseBounded 2 (usedKeys (Trace.history
        (perform (tableAead rotationLog) 1) rotatingHandler
        (List.replicate 4 rotationCall))) := by
  refine ⟨configured_rotatingHandler, by decide +kernel, ?_⟩
  intro bounded
  have used := bounded rotationKey
  revert used
  decide +kernel

end SafeEncryptionHandler

end NyxNet.Crypto
