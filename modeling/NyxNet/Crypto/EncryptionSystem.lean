import NyxNet.Crypto.SafeEncryption

/-!
# Sessions of the encryption system

`NyxEncryptionSystem` of `nyx-crypto/src/aead.rs`: a `SafeEncryptionHandler`
together with a table of session metadata.  `create_session` fills both
tables and `cleanup_old_sessions` empties both, but an encryption or a
decryption may drop or restore a context of the handler without a word to the
metadata.  The main theorem says exactly which calls keep the tables in
agreement.

Times are readings of the system clock, passed to each call.
-/

namespace NyxNet.Crypto

structure SessionMetadata where
  createdAt : Nat
  lastUsed : Nat
  operationsCount : UInt64
  bytesEncrypted : UInt64
  bytesDecrypted : UInt64
  deriving DecidableEq, Repr

namespace SessionMetadata

def new (now : Nat) : SessionMetadata :=
  { createdAt := now, lastUsed := now, operationsCount := 0,
    bytesEncrypted := 0, bytesDecrypted := 0 }

def updateEncryption (metadata : SessionMetadata) (bytes : UInt64)
    (now : Nat) : SessionMetadata :=
  { metadata with
    lastUsed := now
    operationsCount := metadata.operationsCount + 1
    bytesEncrypted := metadata.bytesEncrypted + bytes }

def updateDecryption (metadata : SessionMetadata) (bytes : UInt64)
    (now : Nat) : SessionMetadata :=
  { metadata with
    lastUsed := now
    operationsCount := metadata.operationsCount + 1
    bytesDecrypted := metadata.bytesDecrypted + bytes }

end SessionMetadata

structure NyxEncryptionSystem where
  safeHandler : SafeEncryptionHandler
  sessionMetadata : Std.ExtTreeMap ContextId SessionMetadata compare

namespace NyxEncryptionSystem

def new (maxFailures : UInt32) : NyxEncryptionSystem :=
  { safeHandler := .new maxFailures, sessionMetadata := ∅ }

def withKeyRotation (maxFailures : UInt32)
    (rotationManager : KeyRotationManager) : NyxEncryptionSystem :=
  { safeHandler := .withKeyRotation maxFailures rotationManager
    sessionMetadata := ∅ }

def createSession (system : NyxEncryptionSystem) (contextId : ContextId)
    (sessionKey : SessionKey) (directionId : UInt32) (now : Nat) :
    Except AeadError Unit × NyxEncryptionSystem :=
  match system.safeHandler.addContext contextId
      (.new sessionKey directionId) with
  | (.error error, safeHandler) => (.error error, { system with safeHandler })
  | (.ok (), safeHandler) =>
      (.ok (),
        { safeHandler
          sessionMetadata :=
            system.sessionMetadata.insert contextId (.new now) })

def encrypt (aead : Aead) (system : NyxEncryptionSystem)
    (contextId : ContextId) (plaintext aad : Bytes)
    (environment : Environment) (now : Nat) :
    Outcome AeadError Bytes × NyxEncryptionSystem :=
  match system.safeHandler.safeEncrypt aead contextId plaintext aad
      environment with
  | (.returned ciphertext, safeHandler) =>
      (.returned ciphertext,
        { safeHandler
          sessionMetadata := system.sessionMetadata.modify contextId
            (fun metadata => metadata.updateEncryption
              (UInt64.ofNat plaintext.length) now) })
  | (failure, safeHandler) => (failure, { system with safeHandler })

def decrypt (aead : Aead) (system : NyxEncryptionSystem)
    (contextId : ContextId) (nonceCounter : UInt64) (ciphertext aad : Bytes)
    (now : Nat) : Except AeadError Bytes × NyxEncryptionSystem :=
  match system.safeHandler.safeDecrypt aead contextId nonceCounter ciphertext
      aad with
  | (.ok plaintext, safeHandler) =>
      (.ok plaintext,
        { safeHandler
          sessionMetadata := system.sessionMetadata.modify contextId
            (fun metadata => metadata.updateDecryption
              (UInt64.ofNat plaintext.length) now) })
  | (.error error, safeHandler) => (.error error, { system with safeHandler })

/-- The loop of `cleanup_old_sessions` over the sessions found to be old. -/
def removeSessions (system : NyxEncryptionSystem) :
    List ContextId → List ContextId × NyxEncryptionSystem
  | [] => ([], system)
  | contextId :: oldContexts =>
      match system.safeHandler.encryptor.removeContext contextId with
      | (.ok (), encryptor) =>
          let (removed, next) := removeSessions
            { safeHandler := { system.safeHandler with encryptor }
              sessionMetadata := system.sessionMetadata.erase contextId }
            oldContexts
          (contextId :: removed, next)
      | (.error _, _) => removeSessions system oldContexts

/-- `cleanup_old_sessions`.  A clock that went backwards counts as no time. -/
def cleanupOldSessions (system : NyxEncryptionSystem) (maxAge now : Nat) :
    List ContextId × NyxEncryptionSystem :=
  let oldContexts := system.sessionMetadata.toList.filterMap
    (fun entry =>
      if now - entry.2.lastUsed > maxAge then some entry.1 else none)
  system.removeSessions oldContexts

def listActiveSessions (system : NyxEncryptionSystem) : List ContextId :=
  system.sessionMetadata.keys

inductive Call where
  | createSession (contextId : ContextId) (sessionKey : SessionKey)
      (directionId : UInt32) (now : Nat)
  | encrypt (contextId : ContextId) (plaintext aad : Bytes)
      (environment : Environment) (now : Nat)
  | decrypt (contextId : ContextId) (nonceCounter : UInt64)
      (ciphertext aad : Bytes) (now : Nat)
  | cleanupOldSessions (maxAge now : Nat)
  deriving DecidableEq, Repr

inductive Response where
  | created (result : Except AeadError Unit)
  | encrypted (result : Outcome AeadError Bytes)
  | decrypted (result : Except AeadError Bytes)
  | removed (contextIds : List ContextId)

def perform (aead : Aead) (system : NyxEncryptionSystem) :
    Call → Response × NyxEncryptionSystem
  | .createSession contextId sessionKey directionId now =>
      Prod.map .created id
        (system.createSession contextId sessionKey directionId now)
  | .encrypt contextId plaintext aad environment now =>
      Prod.map .encrypted id
        (system.encrypt aead contextId plaintext aad environment now)
  | .decrypt contextId nonceCounter ciphertext aad now =>
      Prod.map .decrypted id
        (system.decrypt aead contextId nonceCounter ciphertext aad now)
  | .cleanupOldSessions maxAge now =>
      Prod.map .removed id (system.cleanupOldSessions maxAge now)

/-- The two constructors: without and with a rotation manager. -/
def start (maxFailures : UInt32) :
    Option KeyRotationManager → NyxEncryptionSystem
  | none => .new maxFailures
  | some rotationManager => .withKeyRotation maxFailures rotationManager

theorem isSome_modify (table : Std.ExtTreeMap ContextId SessionMetadata compare)
    (contextId : ContextId) (change : SessionMetadata → SessionMetadata)
    (other : ContextId) :
    (table.modify contextId change)[other]?.isSome = table[other]?.isSome := by
  rw [OrderedMap.lookup_modify]
  split
  · exact Option.isSome_map
  · rfl

theorem encrypt_tables (aead : Aead) (system : NyxEncryptionSystem)
    (contextId : ContextId) (plaintext aad : Bytes)
    (environment : Environment) (now : Nat) :
    (system.encrypt aead contextId plaintext aad environment
          now).2.safeHandler =
        (system.safeHandler.safeEncrypt aead contextId plaintext aad
          environment).2 ∧
      ∀ other : ContextId,
        (system.encrypt aead contextId plaintext aad environment
            now).2.sessionMetadata[other]?.isSome =
          system.sessionMetadata[other]?.isSome := by
  unfold encrypt
  generalize system.safeHandler.safeEncrypt aead contextId plaintext aad
    environment = outcome
  obtain ⟨result, safeHandler⟩ := outcome
  cases result with
  | returned ciphertext => exact ⟨rfl, isSome_modify _ _ _⟩
  | failed error => exact ⟨rfl, fun _ => rfl⟩
  | panicked => exact ⟨rfl, fun _ => rfl⟩

theorem decrypt_tables (aead : Aead) (system : NyxEncryptionSystem)
    (contextId : ContextId) (nonceCounter : UInt64)
    (ciphertext aad : Bytes) (now : Nat) :
    (system.decrypt aead contextId nonceCounter ciphertext aad
          now).2.safeHandler =
        (system.safeHandler.safeDecrypt aead contextId nonceCounter ciphertext
          aad).2 ∧
      ∀ other : ContextId,
        (system.decrypt aead contextId nonceCounter ciphertext aad
            now).2.sessionMetadata[other]?.isSome =
          system.sessionMetadata[other]?.isSome := by
  unfold decrypt
  generalize system.safeHandler.safeDecrypt aead contextId nonceCounter
    ciphertext aad = outcome
  obtain ⟨result, safeHandler⟩ := outcome
  cases result with
  | ok plaintext => exact ⟨rfl, isSome_modify _ _ _⟩
  | error error => exact ⟨rfl, fun _ => rfl⟩

theorem countsBelow_removeSessions {system : NyxEncryptionSystem}
    (below : system.safeHandler.CountsBelow) (oldContexts : List ContextId) :
    (system.removeSessions oldContexts).2.safeHandler.CountsBelow := by
  induction oldContexts generalizing system with
  | nil => exact below
  | cons contextId oldContexts ih =>
      unfold removeSessions
      generalize system.safeHandler.encryptor.removeContext contextId =
        outcome
      obtain ⟨result, encryptor⟩ := outcome
      cases result with
      | error error => exact ih below
      | ok => exact ih below

theorem countsBelow_perform (aead : Aead) {system : NyxEncryptionSystem}
    (below : system.safeHandler.CountsBelow) (call : Call) :
    (system.perform aead call).2.safeHandler.CountsBelow := by
  cases call with
  | createSession contextId sessionKey directionId now =>
      have inserted : (system.safeHandler.addContext contextId
          (.new sessionKey directionId)).2.CountsBelow :=
        SafeEncryptionHandler.countsBelow_insert below (.inl rfl) rfl rfl
      simp only [perform, createSession, Prod.map_snd, id]
      generalize system.safeHandler.addContext contextId
        (.new sessionKey directionId) = outcome at inserted ⊢
      obtain ⟨result, safeHandler⟩ := outcome
      cases result <;> exact inserted
  | encrypt contextId plaintext aad environment now =>
      simp only [perform, Prod.map_snd, id,
        (encrypt_tables aead system contextId plaintext aad environment now).1]
      exact SafeEncryptionHandler.countsBelow_safeEncrypt aead below contextId
        plaintext aad environment
  | decrypt contextId nonceCounter ciphertext aad now =>
      simp only [perform, Prod.map_snd, id,
        (decrypt_tables aead system contextId nonceCounter ciphertext aad
          now).1]
      apply SafeEncryptionHandler.countsBelow_recordResult
      exact below
  | cleanupOldSessions maxAge now =>
      exact countsBelow_removeSessions below _

/-- `*count += 1` stays within 32 bits in every reachable state. -/
theorem failure_counts_fit (aead : Aead) (maxFailures : UInt32)
    (rotationManager : Option KeyRotationManager) (calls : List Call)
    (contextId : ContextId) :
    ((Trace.final (perform aead) (start maxFailures rotationManager)
      calls).safeHandler.getFailureCount contextId).toNat + 1 < 2 ^ 32 := by
  have initial :
      (start maxFailures rotationManager).safeHandler.CountsBelow := by
    intro other count lookup
    cases rotationManager with
    | none => simp [start, new, SafeEncryptionHandler.new] at lookup
    | some manager =>
        simp [start, withKeyRotation, SafeEncryptionHandler.withKeyRotation]
          at lookup
  have preserved : ∀ (system : NyxEncryptionSystem) (call : Call),
      system.safeHandler.CountsBelow →
        (system.perform aead call).2.safeHandler.CountsBelow :=
    fun _ call below => countsBelow_perform aead below call
  apply SafeEncryptionHandler.CountsBelow.fits
  exact Trace.final_invariant preserved calls initial

/-- The reported sessions are the contexts the encryptor has. -/
def TablesAgree (system : NyxEncryptionSystem) : Prop :=
  system.listActiveSessions.toFinset =
    OrderedMap.keySet system.safeHandler.encryptor.contexts

theorem tablesAgree_iff (system : NyxEncryptionSystem) :
    system.TablesAgree ↔ ∀ contextId : ContextId,
      system.sessionMetadata[contextId]?.isSome =
        system.safeHandler.encryptor.contexts[contextId]?.isSome := by
  unfold TablesAgree listActiveSessions
  rw [← OrderedMap.keySet, Finset.ext_iff]
  apply forall_congr'
  intro contextId
  rw [OrderedMap.mem_keySet, OrderedMap.mem_keySet,
    ← Option.isSome_iff_exists, ← Option.isSome_iff_exists]
  exact Bool.eq_iff_iff.symm

/-- The calls that keep the tables in agreement.  A decryption must not be the
failure that drops a live session.  An encryption for which the manager lets a
context be used must leave that context in the table exactly when the session
was live before: it neither drops a live session nor restores one that is
gone. -/
def KeepsTables (aead : Aead) (system : NyxEncryptionSystem) : Call → Prop
  | .createSession .. => True
  | .encrypt contextId plaintext aad environment _ =>
      ∀ replacement, system.safeHandler.rotation contextId environment =
          .returned replacement →
        ∀ context, replacement.or
            system.safeHandler.encryptor.contexts[contextId]? =
          some context →
        system.safeHandler.survives contextId
            (context.seals aead plaintext aad) =
          system.safeHandler.encryptor.contexts[contextId]?.isSome
  | .decrypt contextId nonceCounter ciphertext aad _ =>
      ∀ context, system.safeHandler.encryptor.contexts[contextId]? =
          some context →
        system.safeHandler.survives contextId
          (context.opens aead nonceCounter ciphertext aad) = true
  | .cleanupOldSessions .. => True

theorem tablesAgree_start (maxFailures : UInt32)
    (rotationManager : Option KeyRotationManager) :
    (start maxFailures rotationManager).TablesAgree := by
  cases rotationManager <;> rfl

/-- `create_session` fills both tables or neither. -/
theorem tablesAgree_createSession {system : NyxEncryptionSystem}
    (agree : system.TablesAgree) (contextId : ContextId)
    (sessionKey : SessionKey) (directionId : UInt32) (now : Nat) :
    (system.createSession contextId sessionKey directionId
      now).2.TablesAgree := by
  unfold createSession SafeEncryptionHandler.addContext
  cases lookup : system.safeHandler.encryptor.contexts[contextId]? with
  | some context =>
      rw [Encryptor.addContext_of_present (by rw [lookup]; rfl)]
      exact agree
  | none =>
      obtain ⟨added, lookups⟩ := Encryptor.addContext_of_absent lookup
        (.new sessionKey directionId)
      generalize system.safeHandler.encryptor.addContext contextId
        (.new sessionKey directionId) = outcome at added lookups
      obtain ⟨result, encryptor⟩ := outcome
      subst added
      rw [tablesAgree_iff] at agree ⊢
      intro other
      simp only [lookups, OrderedMap.lookup_insert]
      by_cases same : other = contextId
      · rw [if_pos same, if_pos same]
        rfl
      · rw [if_neg same, if_neg same]
        exact agree other

/-- The loop removes a session from both tables or from neither. -/
theorem tablesAgree_removeSessions {system : NyxEncryptionSystem}
    (agree : system.TablesAgree) (oldContexts : List ContextId) :
    (system.removeSessions oldContexts).2.TablesAgree := by
  induction oldContexts generalizing system with
  | nil => exact agree
  | cons contextId oldContexts ih =>
      have lookups :=
        system.safeHandler.encryptor.lookup_removeContext contextId
      unfold removeSessions
      generalize system.safeHandler.encryptor.removeContext contextId =
        outcome at lookups
      obtain ⟨result, encryptor⟩ := outcome
      cases result with
      | error error => exact ih agree
      | ok =>
          apply ih
          rw [tablesAgree_iff] at agree ⊢
          intro other
          simp only [lookups, OrderedMap.lookup_erase]
          by_cases same : other = contextId
          · rw [if_pos same, if_pos same]
            rfl
          · rw [if_neg same, if_neg same]
            exact agree other

/-- A call that leaves the reported sessions alone and touches one context
keeps the agreement exactly when it keeps that context's presence. -/
theorem tablesAgree_iff_of_touched {system next : NyxEncryptionSystem}
    (agree : system.TablesAgree) (contextId : ContextId)
    (sameSessions : ∀ other : ContextId,
      next.sessionMetadata[other]?.isSome =
        system.sessionMetadata[other]?.isSome)
    (others : ∀ other : ContextId, other ≠ contextId →
      next.safeHandler.encryptor.contexts[other]? =
        system.safeHandler.encryptor.contexts[other]?) :
    next.TablesAgree ↔
      next.safeHandler.encryptor.contexts[contextId]?.isSome =
        system.safeHandler.encryptor.contexts[contextId]?.isSome := by
  rw [tablesAgree_iff] at agree ⊢
  constructor
  · intro after
    rw [← after contextId, sameSessions, agree]
  · intro kept other
    rw [sameSessions, agree]
    by_cases same : other = contextId
    · rw [same, kept]
    · rw [others other same]

theorem isSome_kept (kept : Bool) (context : EncryptionContext) :
    (if kept then some context else none).isSome = kept := by
  cases kept <;> rfl

section Step

variable (aead : Aead) {system : NyxEncryptionSystem}

theorem tablesAgree_decrypt_iff (agree : system.TablesAgree)
    (contextId : ContextId) (nonceCounter : UInt64) (ciphertext aad : Bytes)
    (now : Nat) :
    (system.decrypt aead contextId nonceCounter ciphertext aad
        now).2.TablesAgree ↔
      system.KeepsTables aead
        (.decrypt contextId nonceCounter ciphertext aad now) := by
  obtain ⟨sameHandler, sameSessions⟩ :=
    decrypt_tables aead system contextId nonceCounter ciphertext aad now
  have lookups := system.safeHandler.lookup_safeDecrypt aead contextId
    nonceCounter ciphertext aad
  rw [tablesAgree_iff_of_touched agree contextId sameSessions,
    sameHandler, lookups contextId, if_pos rfl]
  · simp only [KeepsTables]
    cases system.safeHandler.encryptor.contexts[contextId]? with
    | none => simp
    | some context =>
        simp only [Option.any_some, Option.isSome_some, Option.some.injEq,
          forall_eq', isSome_kept]
  · intro other different
    rw [sameHandler, lookups other, if_neg different]

theorem tablesAgree_encrypt_iff (agree : system.TablesAgree)
    (contextId : ContextId) (plaintext aad : Bytes)
    (environment : Environment) (now : Nat) :
    (system.encrypt aead contextId plaintext aad environment
        now).2.TablesAgree ↔
      system.KeepsTables aead
        (.encrypt contextId plaintext aad environment now) := by
  obtain ⟨sameHandler, sameSessions⟩ :=
    encrypt_tables aead system contextId plaintext aad environment now
  by_cases passes : ∃ replacement,
      system.safeHandler.rotation contextId environment =
        .returned replacement
  · obtain ⟨replacement, passed⟩ := passes
    have lookups := SafeEncryptionHandler.lookup_safeEncrypt aead passed
      plaintext aad
    rw [tablesAgree_iff_of_touched agree contextId sameSessions,
      sameHandler, lookups contextId, if_pos rfl]
    · simp only [KeepsTables, passed, Outcome.returned.injEq, forall_eq']
      cases inForce : replacement.or
          system.safeHandler.encryptor.contexts[contextId]? with
      | none =>
          have absent := (Option.or_eq_none_iff.mp inForce).2
          simp [absent]
      | some context =>
          simp only [Option.any_some, Option.map_some, isSome_kept,
            Option.some.injEq, forall_eq']
    · intro other different
      rw [sameHandler, lookups other, if_neg different]
  · have unchanged := SafeEncryptionHandler.safeEncrypt_of_refused aead
      (not_exists.mp passes) plaintext aad
    rw [tablesAgree_iff_of_touched agree contextId sameSessions,
      sameHandler, unchanged]
    · simp only [true_iff]
      intro replacement passed
      exact (passes ⟨replacement, passed⟩).elim
    · intro other _
      rw [sameHandler, unchanged]

/-- One call keeps the agreement exactly when it meets the condition. -/
theorem tablesAgree_perform_iff (agree : system.TablesAgree) (call : Call) :
    (system.perform aead call).2.TablesAgree ↔
      system.KeepsTables aead call := by
  cases call with
  | createSession contextId sessionKey directionId now =>
      simp only [KeepsTables, iff_true]
      exact tablesAgree_createSession agree contextId sessionKey directionId
        now
  | encrypt contextId plaintext aad environment now =>
      exact tablesAgree_encrypt_iff aead agree contextId plaintext aad
        environment now
  | decrypt contextId nonceCounter ciphertext aad now =>
      exact tablesAgree_decrypt_iff aead agree contextId nonceCounter
        ciphertext aad now
  | cleanupOldSessions maxAge now =>
      simp only [KeepsTables, iff_true]
      exact tablesAgree_removeSessions agree _

end Step

theorem session_tables_agree_iff (aead : Aead) (maxFailures : UInt32)
    (rotationManager : Option KeyRotationManager) (calls : List Call) :
    (∀ before, before <+: calls →
        (Trace.final (perform aead) (start maxFailures rotationManager)
          before).TablesAgree) ↔
      Trace.Along (perform aead) (KeepsTables aead)
        (start maxFailures rotationManager) calls := by
  apply Trace.throughout_iff (fun _ _ => True)
    (fun _ (system : NyxEncryptionSystem) => system.TablesAgree)
  · intro before _
    trivial
  · exact tablesAgree_start maxFailures rotationManager
  · intro past system call _ _ agree
    exact tablesAgree_perform_iff aead agree call

/-- After three forged messages the context is gone, but the session is still
reported as active. -/
theorem dropped_session_stays_listed :
    ¬ (Trace.final (perform (tableAead sampleLog)) (start 3 none)
      [.createSession 1 ⟨Vector.replicate 32 7⟩ 0 0,
       .decrypt 1 0 [0] [104, 100, 114] 1,
       .decrypt 1 0 [0] [104, 100, 114] 2,
       .decrypt 1 0 [0] [104, 100, 114] 3]).TablesAgree := by
  rw [tablesAgree_iff]
  intro agree
  have atOne := agree 1
  revert atOne
  decide +kernel

theorem createSession_of_present {system : NyxEncryptionSystem}
    {contextId : ContextId}
    (present : system.safeHandler.encryptor.contexts[contextId]?.isSome)
    (sessionKey : SessionKey) (directionId : UInt32) (now : Nat) :
    system.createSession contextId sessionKey directionId now =
      (.error (.contextExists contextId),
        { system with
          safeHandler := { system.safeHandler with
            failureCount :=
              system.safeHandler.failureCount.insert contextId 0 } }) := by
  unfold createSession
  rw [SafeEncryptionHandler.addContext_of_present present]

/-- A session or context that exists already is refused, and the refusal leaves
everything as it was exactly when no failure has been counted for it. -/
theorem refused_creation_atomic_iff (contextId : ContextId) :
    (∀ system : NyxEncryptionSystem,
      system.safeHandler.encryptor.contexts[contextId]?.isSome →
        ∀ sessionKey directionId now,
          (system.createSession contextId sessionKey directionId now =
              (.error (.contextExists contextId), system) ↔
            system.safeHandler.failureCount[contextId]? = some 0)) ∧
      ∀ handler : SafeEncryptionHandler,
        handler.encryptor.contexts[contextId]?.isSome →
          ∀ context,
            (handler.addContext contextId context =
                (.error (.contextExists contextId), handler) ↔
              handler.failureCount[contextId]? = some 0) := by
  constructor
  · intro system present sessionKey directionId now
    rw [createSession_of_present present,
      ← SafeEncryptionHandler.failureCount_kept_iff]
    constructor
    · intro same
      exact congrArg safeHandler (Prod.mk.inj same).2
    · intro same
      rw [same]
  · intro handler present context
    rw [SafeEncryptionHandler.addContext_of_present present,
      ← SafeEncryptionHandler.failureCount_kept_iff]
    constructor
    · intro same
      exact (Prod.mk.inj same).2
    · intro same
      rw [same]

theorem refused_creation_atomic_sample :
    (Trace.final (perform (tableAead sampleLog)) (start 3 none)
        [.createSession 1 ⟨Vector.replicate 32 7⟩ 0 0]).createSession 1
          ⟨Vector.replicate 32 9⟩ 0 2 =
      (.error (.contextExists 1),
        Trace.final (perform (tableAead sampleLog)) (start 3 none)
          [.createSession 1 ⟨Vector.replicate 32 7⟩ 0 0]) := by
  apply ((refused_creation_atomic_iff 1).1 _ _ _ _ _).mpr
  · decide +kernel
  · decide +kernel

/-- After one forged message, creating the session again is refused but makes
the handler forget the failure. -/
theorem refused_creation_forgets_failure :
    (Trace.final (perform (tableAead sampleLog)) (start 3 none)
        [.createSession 1 ⟨Vector.replicate 32 7⟩ 0 0,
         .decrypt 1 0 [0] [104, 100, 114] 1]).safeHandler.encryptor.contexts[
          (1 : ContextId)]?.isSome ∧
      ¬ (Trace.final (perform (tableAead sampleLog)) (start 3 none)
          [.createSession 1 ⟨Vector.replicate 32 7⟩ 0 0,
           .decrypt 1 0 [0] [104, 100, 114] 1]).createSession 1
            ⟨Vector.replicate 32 9⟩ 0 2 =
        (.error (.contextExists 1),
          Trace.final (perform (tableAead sampleLog)) (start 3 none)
            [.createSession 1 ⟨Vector.replicate 32 7⟩ 0 0,
             .decrypt 1 0 [0] [104, 100, 114] 1]) := by
  constructor
  · decide +kernel
  · intro same
    have counts := congrArg (fun outcome =>
      outcome.2.safeHandler.getFailureCount 1) same
    revert counts
    decide +kernel

end NyxEncryptionSystem

end NyxNet.Crypto
