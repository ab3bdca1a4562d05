import NyxNet.Crypto.Aead
import NyxNet.Lib.OrderedMap
import NyxNet.Lib.Trace

/-!
# Table of encryption contexts

`EncryptionContext` and `ChaCha20Poly1305Encryptor` of
`nyx-crypto/src/aead.rs`.  The context table is a `HashMap` behind a mutex; no
function iterates over it, so it is kept as a finite map and every call runs
with the lock held.

The nonce argument is about the pairs (session key, direction id): contexts
with different pairs never build the same nonce under the same key, and inside
one context the send counter only grows until the key is replaced.
-/

namespace NyxNet.Crypto

/-- Largest send counter before the key has to be rotated. -/
def maxNonce : UInt64 := ((1 : UInt64) <<< 63) - 1

structure EncryptionContext where
  sessionKey : SessionKey
  sendNonce : UInt64
  recvNonce : UInt64
  directionId : UInt32
  deriving DecidableEq, Repr

namespace EncryptionContext

def new (sessionKey : SessionKey) (directionId : UInt32) : EncryptionContext :=
  { sessionKey, sendNonce := 0, recvNonce := 0, directionId }

def nextSendNonce (context : EncryptionContext) :
    Except AeadError (UInt64 × EncryptionContext) :=
  if context.sendNonce ≥ maxNonce then .error .nonceOverflow
  else
    .ok (context.sendNonce,
      { context with sendNonce := context.sendNonce + 1 })

def updateSessionKey (context : EncryptionContext) (newKey : SessionKey) :
    EncryptionContext :=
  -- Reset nonces when the key is updated.
  { context with sessionKey := newKey, sendNonce := 0, recvNonce := 0 }

/-- The counter and the cipher let the context seal this message. -/
def seals (aead : Aead) (context : EncryptionContext)
    (plaintext aad : Bytes) : Bool :=
  context.sendNonce < maxNonce &&
    (aead.encrypt context.sessionKey
      (directionNonce context.directionId context.sendNonce)
      plaintext aad).isSome

/-- The cipher opens this message for the context. -/
def opens (aead : Aead) (context : EncryptionContext) (nonceCounter : UInt64)
    (ciphertext aad : Bytes) : Bool :=
  (aead.decrypt context.sessionKey
    (directionNonce context.directionId nonceCounter) ciphertext aad).isSome

/-- The context after an attempt to seal; an exhausted counter stays. -/
def spent (context : EncryptionContext) : EncryptionContext :=
  if context.sendNonce < maxNonce then
    { context with sendNonce := context.sendNonce + 1 }
  else context

/-- What has to be fresh: the key together with the direction. -/
def keyPair (context : EncryptionContext) : SessionKey × UInt32 :=
  (context.sessionKey, context.directionId)

/-- The counter does not wrap below its limit. -/
theorem toNat_sendNonce_succ {context : EncryptionContext}
    (below : context.sendNonce.toNat < maxNonce.toNat) :
    (context.sendNonce + 1).toNat = context.sendNonce.toNat + 1 := by
  apply UInt64.toNat_add_of_fits
  have limit : maxNonce.toNat < 2 ^ 63 := by decide
  change context.sendNonce.toNat + 1 < 2 ^ 64
  omega

end EncryptionContext

structure Encryptor where
  contexts : Std.ExtTreeMap ContextId EncryptionContext compare
  defaultContext : Option ContextId

namespace Encryptor

def new : Encryptor := { contexts := ∅, defaultContext := none }

def addContext (encryptor : Encryptor) (contextId : ContextId)
    (context : EncryptionContext) : Except AeadError Unit × Encryptor :=
  if contextId ∈ encryptor.contexts then
    (.error (.contextExists contextId), encryptor)
  else
    (.ok (),
      { contexts := encryptor.contexts.insert contextId context
        defaultContext :=
          -- Set as default if it is the first context.
          if encryptor.defaultContext.isNone then some contextId
          else encryptor.defaultContext })

def removeContext (encryptor : Encryptor) (contextId : ContextId) :
    Except AeadError Unit × Encryptor :=
  match encryptor.contexts[contextId]? with
  | none => (.error (.contextNotFound contextId), encryptor)
  | some _ =>
      (.ok (),
        { contexts := encryptor.contexts.erase contextId
          defaultContext :=
            if encryptor.defaultContext = some contextId then none
            else encryptor.defaultContext })

def updateSessionKey (encryptor : Encryptor) (contextId : ContextId)
    (newKey : SessionKey) : Except AeadError Unit × Encryptor :=
  match encryptor.contexts[contextId]? with
  | none => (.error (.contextNotFound contextId), encryptor)
  | some context =>
      (.ok (),
        { encryptor with
          contexts := encryptor.contexts.insert contextId
            (context.updateSessionKey newKey) })

def constructNonce (directionId : UInt32) (counter : UInt64) :
    Except AeadError Nonce :=
  .ok (directionNonce directionId counter)

/-- The first half of `encrypt`: look up the context, advance its counter and
build the nonce.  The result is what the cipher is then called with. -/
def prepareSeal (encryptor : Encryptor) (contextId : ContextId) :
    Except AeadError ((SessionKey × Nonce) × Encryptor) := do
  match encryptor.contexts[contextId]? with
  | none => .error (.contextNotFound contextId)
  | some context =>
      let (counter, advanced) ← context.nextSendNonce
      let nonce ← constructNonce advanced.directionId counter
      return ((advanced.sessionKey, nonce),
        { encryptor with
          contexts := encryptor.contexts.insert contextId advanced })

def encrypt (aead : Aead) (encryptor : Encryptor) (contextId : ContextId)
    (plaintext aad : Bytes) : Except AeadError Bytes × Encryptor :=
  match encryptor.prepareSeal contextId with
  | .error error => (.error error, encryptor)
  | .ok ((key, nonce), next) =>
      match aead.encrypt key nonce plaintext aad with
      | some ciphertext => (.ok ciphertext, next)
      | none =>
          (.error (.encryptionFailed
            "ChaCha20Poly1305 encryption failed: Error"), next)

def encryptDefault (aead : Aead) (encryptor : Encryptor)
    (plaintext aad : Bytes) : Except AeadError Bytes × Encryptor :=
  match encryptor.defaultContext with
  | none => (.error (.contextNotFound 0), encryptor)
  | some contextId => encryptor.encrypt aead contextId plaintext aad

def decrypt (aead : Aead) (encryptor : Encryptor) (contextId : ContextId)
    (nonceCounter : UInt64) (ciphertext aad : Bytes) :
    Except AeadError Bytes × Encryptor :=
  match encryptor.contexts[contextId]? with
  | none => (.error (.contextNotFound contextId), encryptor)
  | some context =>
      match constructNonce context.directionId nonceCounter with
      | .error error => (.error error, encryptor)
      | .ok nonce =>
          match aead.decrypt context.sessionKey nonce ciphertext aad with
          | some plaintext => (.ok plaintext, encryptor)
          | none =>
              (.error (.decryptionFailed
                "ChaCha20Poly1305 decryption failed: Error"), encryptor)

def decryptDefault (aead : Aead) (encryptor : Encryptor)
    (nonceCounter : UInt64) (ciphertext aad : Bytes) :
    Except AeadError Bytes × Encryptor :=
  match encryptor.defaultContext with
  | none => (.error (.contextNotFound 0), encryptor)
  | some contextId =>
      encryptor.decrypt aead contextId nonceCounter ciphertext aad

inductive Command where
  | addContext (contextId : ContextId) (context : EncryptionContext)
  | removeContext (contextId : ContextId)
  | updateSessionKey (contextId : ContextId) (newKey : SessionKey)
  | encrypt (contextId : ContextId) (plaintext aad : Bytes)
  | encryptDefault (plaintext aad : Bytes)
  | decrypt (contextId : ContextId) (nonceCounter : UInt64)
      (ciphertext aad : Bytes)
  | decryptDefault (nonceCounter : UInt64) (ciphertext aad : Bytes)
  deriving DecidableEq, Repr

/-- What one command does besides moving the state: the pair it installs, if
it installs one, and the key and nonce of a successful encryption. -/
structure Effect where
  installed : Option (SessionKey × UInt32)
  sealedWith : Option (SessionKey × Nonce)
  deriving DecidableEq, Repr

/-- The key and nonce `encrypt` hands to the cipher under `contextId`. -/
def cipherInput (encryptor : Encryptor) (contextId : ContextId) :
    Option (SessionKey × Nonce) :=
  match encryptor.prepareSeal contextId with
  | .error _ => none
  | .ok (pair, _) => some pair

/-- Keep an observation of a call only if the call succeeded. -/
def onSuccess {α β : Type} (result : Except AeadError α)
    (observed : Option β) : Option β :=
  match result with
  | .ok _ => observed
  | .error _ => none

/-- Run one command and record its effect next to the state it leads to. -/
def perform (aead : Aead) (encryptor : Encryptor) :
    Command → Effect × Encryptor
  | .addContext contextId context =>
      let (result, next) := encryptor.addContext contextId context
      (⟨onSuccess result (some context.keyPair), none⟩, next)
  | .removeContext contextId =>
      let (_, next) := encryptor.removeContext contextId
      (⟨none, none⟩, next)
  | .updateSessionKey contextId newKey =>
      let (result, next) := encryptor.updateSessionKey contextId newKey
      (⟨onSuccess result ((encryptor.contexts[contextId]?).map
        (fun context => (newKey, context.directionId))), none⟩, next)
  | .encrypt contextId plaintext aad =>
      let (result, next) := encryptor.encrypt aead contextId plaintext aad
      (⟨none, onSuccess result (encryptor.cipherInput contextId)⟩, next)
  | .encryptDefault plaintext aad =>
      let (result, next) := encryptor.encryptDefault aead plaintext aad
      (⟨none, onSuccess result
        (encryptor.defaultContext.bind encryptor.cipherInput)⟩, next)
  | .decrypt contextId nonceCounter ciphertext aad =>
      let (_, next) :=
        encryptor.decrypt aead contextId nonceCounter ciphertext aad
      (⟨none, none⟩, next)
  | .decryptDefault nonceCounter ciphertext aad =>
      let (_, next) :=
        encryptor.decryptDefault aead nonceCounter ciphertext aad
      (⟨none, none⟩, next)

def installedPairs (past : List (Command × Effect)) :
    List (SessionKey × UInt32) :=
  past.filterMap (fun entry => entry.2.installed)

def sealedPairs (past : List (Command × Effect)) :
    List (SessionKey × Nonce) :=
  past.filterMap (fun entry => entry.2.sealedWith)

/-- Everything a command can do to the table of contexts. -/
inductive Change (before after : Encryptor) : Effect → Prop where
  | unchanged : after.contexts = before.contexts →
      Change before after ⟨none, none⟩
  | install (contextId : ContextId) (context : EncryptionContext) :
      after.contexts = before.contexts.insert contextId context →
      Change before after ⟨some context.keyPair, none⟩
  | remove (contextId : ContextId) :
      after.contexts = before.contexts.erase contextId →
      Change before after ⟨none, none⟩
  | advance (contextId : ContextId) (context : EncryptionContext)
      (sealed : Option (SessionKey × Nonce)) :
      before.contexts[contextId]? = some context →
      context.sendNonce.toNat < maxNonce.toNat →
      after.contexts = before.contexts.insert contextId
        { context with sendNonce := context.sendNonce + 1 } →
      (sealed = none ∨ sealed = some (context.sessionKey,
        directionNonce context.directionId context.sendNonce)) →
      Change before after ⟨none, sealed⟩

theorem prepareSeal_eq (encryptor : Encryptor) (contextId : ContextId) :
    encryptor.prepareSeal contextId =
      match encryptor.contexts[contextId]? with
      | none => .error (.contextNotFound contextId)
      | some context =>
          if context.sendNonce ≥ maxNonce then .error .nonceOverflow
          else
            .ok ((context.sessionKey,
                directionNonce context.directionId context.sendNonce),
              { encryptor with
                contexts := encryptor.contexts.insert contextId
                  { context with sendNonce := context.sendNonce + 1 } }) := by
  unfold prepareSeal EncryptionContext.nextSendNonce constructNonce
  cases encryptor.contexts[contextId]? with
  | none => rfl
  | some context =>
      by_cases exhausted : context.sendNonce ≥ maxNonce
      · simp [exhausted, bind, Except.bind]
      · simp [exhausted, bind, Except.bind, pure, Except.pure]

theorem encrypt_change (aead : Aead) (encryptor : Encryptor)
    (contextId : ContextId) (plaintext aad : Bytes) :
    Change encryptor (encryptor.encrypt aead contextId plaintext aad).2
      ⟨none, onSuccess (encryptor.encrypt aead contextId plaintext aad).1
        (encryptor.cipherInput contextId)⟩ := by
  unfold encrypt cipherInput
  rw [prepareSeal_eq]
  cases lookup : encryptor.contexts[contextId]? with
  | none => exact .unchanged rfl
  | some context =>
      by_cases exhausted : context.sendNonce ≥ maxNonce
      · simp only [if_pos exhausted]
        exact .unchanged rfl
      · simp only [if_neg exhausted]
        have below : context.sendNonce.toNat < maxNonce.toNat := by
          rw [ge_iff_le, UInt64.le_iff_toNat_le] at exhausted
          omega
        cases aead.encrypt context.sessionKey
            (directionNonce context.directionId context.sendNonce)
            plaintext aad with
        | none => exact .advance contextId context none lookup below rfl (.inl rfl)
        | some ciphertext =>
            exact .advance contextId context _ lookup below rfl (.inr rfl)

/-- Decryption never touches the table. -/
theorem decrypt_state (aead : Aead) (encryptor : Encryptor)
    (contextId : ContextId) (nonceCounter : UInt64) (ciphertext aad : Bytes) :
    (encryptor.decrypt aead contextId nonceCounter ciphertext aad).2 =
      encryptor := by
  unfold decrypt constructNonce
  split
  · rfl
  · dsimp only
    split <;> rfl

theorem perform_change (aead : Aead) (encryptor : Encryptor)
    (command : Command) :
    Change encryptor (encryptor.perform aead command).2
      (encryptor.perform aead command).1 := by
  cases command with
  | addContext contextId context =>
      by_cases present : contextId ∈ encryptor.contexts
      · simp only [perform, addContext, if_pos present]
        exact .unchanged rfl
      · simp only [perform, addContext, if_neg present]
        exact .install contextId context rfl
  | removeContext contextId =>
      cases lookup : encryptor.contexts[contextId]? with
      | none =>
          simp only [perform, removeContext, lookup]
          exact .unchanged rfl
      | some context =>
          simp only [perform, removeContext, lookup]
          exact .remove contextId rfl
  | updateSessionKey contextId newKey =>
      cases lookup : encryptor.contexts[contextId]? with
      | none =>
          simp only [perform, updateSessionKey, lookup]
          exact .unchanged rfl
      | some context =>
          simp only [perform, updateSessionKey, lookup]
          exact .install contextId (context.updateSessionKey newKey) rfl
  | encrypt contextId plaintext aad =>
      exact encrypt_change aead encryptor contextId plaintext aad
  | encryptDefault plaintext aad =>
      cases default : encryptor.defaultContext with
      | none =>
          simp only [perform, encryptDefault, default]
          exact .unchanged rfl
      | some contextId =>
          simp only [perform, encryptDefault, default]
          exact encrypt_change aead encryptor contextId plaintext aad
  | decrypt contextId nonceCounter ciphertext aad =>
      simp only [perform, decrypt_state]
      exact .unchanged rfl
  | decryptDefault nonceCounter ciphertext aad =>
      cases default : encryptor.defaultContext with
      | none =>
          simp only [perform, decryptDefault, default]
          exact .unchanged rfl
      | some contextId =>
          simp only [perform, decryptDefault, default, decrypt_state]
          exact .unchanged rfl

theorem lookup_removeContext (encryptor : Encryptor)
    (contextId other : ContextId) :
    (encryptor.removeContext contextId).2.contexts[other]? =
      if other = contextId then none else encryptor.contexts[other]? := by
  unfold removeContext
  cases lookup : encryptor.contexts[contextId]? with
  | none =>
      by_cases same : other = contextId
      · rw [if_pos same, same, lookup]
      · rw [if_neg same]
  | some context => exact OrderedMap.lookup_erase contextId other

theorem addContext_of_absent {encryptor : Encryptor} {contextId : ContextId}
    (absent : encryptor.contexts[contextId]? = none)
    (context : EncryptionContext) :
    (encryptor.addContext contextId context).1 = .ok () ∧
      ∀ other : ContextId,
        (encryptor.addContext contextId context).2.contexts[other]? =
          if other = contextId then some context
          else encryptor.contexts[other]? := by
  have notMember : contextId ∉ encryptor.contexts := by
    rw [Std.ExtTreeMap.mem_iff_isSome_getElem?, absent]
    exact Bool.false_ne_true
  unfold addContext
  rw [if_neg notMember]
  refine ⟨rfl, ?_⟩
  intro other
  exact OrderedMap.lookup_insert contextId other context

/-- Removing an entry makes room for its successor. -/
theorem addContext_removeContext (encryptor : Encryptor)
    (contextId : ContextId) (context : EncryptionContext) :
    ∃ next, (encryptor.removeContext contextId).2.addContext contextId
        context = (.ok (), next) ∧
      ∀ other : ContextId, next.contexts[other]? =
        if other = contextId then some context
        else encryptor.contexts[other]? := by
  have absent :
      (encryptor.removeContext contextId).2.contexts[contextId]? = none := by
    rw [lookup_removeContext, if_pos rfl]
  obtain ⟨added, lookups⟩ := addContext_of_absent absent context
  refine ⟨_, Prod.ext added rfl, ?_⟩
  intro other
  rw [lookups other, lookup_removeContext]
  by_cases same : other = contextId
  · rw [if_pos same, if_pos same]
  · rw [if_neg same, if_neg same, if_neg same]

theorem addContext_of_present {encryptor : Encryptor} {contextId : ContextId}
    (present : encryptor.contexts[contextId]?.isSome)
    (context : EncryptionContext) :
    encryptor.addContext contextId context =
      (.error (.contextExists contextId), encryptor) := by
  unfold addContext
  rw [if_pos (Std.ExtTreeMap.mem_iff_isSome_getElem?.mpr present)]

theorem cipherInput_eq (encryptor : Encryptor) (contextId : ContextId) :
    encryptor.cipherInput contextId =
      encryptor.contexts[contextId]?.bind (fun context =>
        if context.sendNonce < maxNonce then
          some (context.sessionKey,
            directionNonce context.directionId context.sendNonce)
        else none) := by
  unfold cipherInput
  rw [prepareSeal_eq]
  cases encryptor.contexts[contextId]? with
  | none => rfl
  | some context =>
      by_cases exhausted : context.sendNonce ≥ maxNonce
      · simp [exhausted, UInt64.not_lt.mpr exhausted]
      · simp [exhausted, UInt64.not_le.mp exhausted]

theorem lookup_encrypt (aead : Aead) (encryptor : Encryptor)
    (contextId : ContextId) (plaintext aad : Bytes) (other : ContextId) :
    (encryptor.encrypt aead contextId plaintext aad).2.contexts[other]? =
      if other = contextId then
        encryptor.contexts[contextId]?.map EncryptionContext.spent
      else encryptor.contexts[other]? := by
  unfold encrypt
  rw [prepareSeal_eq]
  cases lookup : encryptor.contexts[contextId]? with
  | none =>
      by_cases same : other = contextId
      · rw [if_pos same, same]
        exact lookup
      · rw [if_neg same]
  | some context =>
      by_cases exhausted : context.sendNonce ≥ maxNonce
      · simp only [if_pos exhausted, Option.map_some, EncryptionContext.spent,
          if_neg (UInt64.not_lt.mpr exhausted)]
        by_cases same : other = contextId
        · rw [if_pos same, same, lookup]
        · rw [if_neg same]
      · simp only [if_neg exhausted, Option.map_some, EncryptionContext.spent,
          if_pos (UInt64.not_le.mp exhausted)]
        split <;> exact OrderedMap.lookup_insert contextId other _

theorem isOk_encrypt (aead : Aead) (encryptor : Encryptor)
    (contextId : ContextId) (plaintext aad : Bytes) :
    (encryptor.encrypt aead contextId plaintext aad).1.isOk =
      encryptor.contexts[contextId]?.any
        (fun context => context.seals aead plaintext aad) := by
  unfold encrypt
  rw [prepareSeal_eq]
  cases encryptor.contexts[contextId]? with
  | none => rfl
  | some context =>
      simp only [Option.any_some, EncryptionContext.seals]
      by_cases exhausted : context.sendNonce ≥ maxNonce
      · simp only [if_pos exhausted, UInt64.not_lt.mpr exhausted]
        rfl
      · simp only [if_neg exhausted, UInt64.not_le.mp exhausted]
        cases aead.encrypt context.sessionKey
          (directionNonce context.directionId context.sendNonce)
          plaintext aad <;> rfl

theorem isOk_decrypt (aead : Aead) (encryptor : Encryptor)
    (contextId : ContextId) (nonceCounter : UInt64) (ciphertext aad : Bytes) :
    (encryptor.decrypt aead contextId nonceCounter ciphertext aad).1.isOk =
      encryptor.contexts[contextId]?.any
        (fun context => context.opens aead nonceCounter ciphertext aad) := by
  unfold decrypt constructNonce
  cases encryptor.contexts[contextId]? with
  | none => rfl
  | some context =>
      simp only [Option.any_some, EncryptionContext.opens]
      cases aead.decrypt context.sessionKey
        (directionNonce context.directionId nonceCounter) ciphertext aad <;> rfl

/-- Live contexts hold pairwise different installed pairs, and every nonce
used so far lies below the counter of the context that could reuse it. -/
structure NonceInvariant (installed : List (SessionKey × UInt32))
    (used : List (SessionKey × Nonce)) (encryptor : Encryptor) : Prop where
  live : ∀ (contextId : ContextId) context,
    encryptor.contexts[contextId]? = some context →
      context.keyPair ∈ installed
  separate : ∀ (left right : ContextId) leftContext rightContext,
    encryptor.contexts[left]? = some leftContext →
      encryptor.contexts[right]? = some rightContext →
        leftContext.keyPair = rightContext.keyPair → left = right
  spent : ∀ pair ∈ used, ∃ key direction counter,
    pair = (key, directionNonce direction counter) ∧
      (key, direction) ∈ installed ∧
      ∀ (contextId : ContextId) context,
        encryptor.contexts[contextId]? = some context →
          context.keyPair = (key, direction) →
            counter.toNat < context.sendNonce.toNat
  once : used.Nodup

theorem nonceInvariant_new : NonceInvariant [] [] Encryptor.new := by
  constructor
  · intro contextId context lookup
    simp [Encryptor.new] at lookup
  · intro left right leftContext rightContext lookup
    simp [Encryptor.new] at lookup
  · intro pair member
    cases member
  · exact List.nodup_nil

section Preservation

variable {installed : List (SessionKey × UInt32)}
  {used : List (SessionKey × Nonce)} {before after : Encryptor}

/-- Every context of the later table was in the earlier one. -/
private theorem nonceInvariant_of_subtable
    (holds : NonceInvariant installed used before)
    (subtable : ∀ (contextId : ContextId) context,
      after.contexts[contextId]? = some context →
        before.contexts[contextId]? = some context) :
    NonceInvariant installed used after := by
  constructor
  · intro contextId context lookup
    exact holds.live contextId context (subtable contextId context lookup)
  · intro left right leftContext rightContext leftLookup rightLookup samePair
    exact holds.separate left right leftContext rightContext
      (subtable left leftContext leftLookup)
      (subtable right rightContext rightLookup) samePair
  · intro pair member
    obtain ⟨key, direction, counter, shape, known, below⟩ :=
      holds.spent pair member
    refine ⟨key, direction, counter, shape, known, ?_⟩
    intro contextId context lookup samePair
    exact below contextId context (subtable contextId context lookup) samePair
  · exact holds.once

/-- A fresh pair collides with no live context and no spent nonce. -/
private theorem nonceInvariant_install
    (holds : NonceInvariant installed used before)
    {contextId : ContextId} {context : EncryptionContext}
    (result : after.contexts = before.contexts.insert contextId context)
    (fresh : context.keyPair ∉ installed) :
    NonceInvariant (installed ++ [context.keyPair]) used after := by
  have lookups : ∀ (other : ContextId) found,
      after.contexts[other]? = some found →
        (other = contextId ∧ found = context) ∨
          (other ≠ contextId ∧ before.contexts[other]? = some found) := by
    intro other found lookup
    rw [result] at lookup
    exact OrderedMap.lookup_insert_cases lookup
  constructor
  · intro other found lookup
    rcases lookups other found lookup with ⟨_, rfl⟩ | ⟨_, old⟩
    · exact List.mem_append_right installed List.mem_cons_self
    · exact List.mem_append_left _ (holds.live other found old)
  · intro left right leftContext rightContext leftLookup rightLookup samePair
    rcases lookups left leftContext leftLookup with ⟨rfl, rfl⟩ | ⟨_, leftOld⟩
    · rcases lookups right rightContext rightLookup with ⟨rfl, _⟩ | ⟨_, old⟩
      · rfl
      · exact (fresh (samePair ▸ holds.live right rightContext old)).elim
    · rcases lookups right rightContext rightLookup with
        ⟨rfl, rfl⟩ | ⟨_, rightOld⟩
      · exact (fresh (samePair ▸ holds.live left leftContext leftOld)).elim
      · exact holds.separate left right leftContext rightContext leftOld
          rightOld samePair
  · intro pair member
    obtain ⟨key, direction, counter, shape, known, below⟩ :=
      holds.spent pair member
    refine ⟨key, direction, counter, shape, List.mem_append_left _ known, ?_⟩
    intro other found lookup samePair
    rcases lookups other found lookup with ⟨_, rfl⟩ | ⟨_, old⟩
    · exact (fresh (samePair ▸ known)).elim
    · exact below other found old samePair
  · exact holds.once

/-- The nonce a live context is about to use was never used before: equal
nonces would mean that its counter was already spent. -/
private theorem next_pair_unused
    (holds : NonceInvariant installed used before)
    {contextId : ContextId} {context : EncryptionContext}
    (lookup : before.contexts[contextId]? = some context) :
    (context.sessionKey,
      directionNonce context.directionId context.sendNonce) ∉ used := by
  intro member
  obtain ⟨key, direction, spentCounter, shape, _, earlier⟩ :=
    holds.spent _ member
  rw [Prod.mk.injEq] at shape
  obtain ⟨sameDirection, sameCounter⟩ := directionNonce_inj shape.2
  have strict := earlier contextId context lookup
    (by rw [EncryptionContext.keyPair, shape.1, sameDirection])
  rw [sameCounter] at strict
  exact Nat.lt_irrefl _ strict

/-- Advancing a counter keeps every pair in its place, and only the counter of
the one context grows. -/
private theorem lookup_of_advance
    {contextId : ContextId} {context : EncryptionContext}
    (lookup : before.contexts[contextId]? = some context)
    (below : context.sendNonce.toNat < maxNonce.toNat)
    (result : after.contexts = before.contexts.insert contextId
      { context with sendNonce := context.sendNonce + 1 })
    (other : ContextId) (found : EncryptionContext)
    (afterLookup : after.contexts[other]? = some found) :
    ∃ old, before.contexts[other]? = some old ∧
      old.keyPair = found.keyPair ∧
      old.sendNonce.toNat ≤ found.sendNonce.toNat ∧
      (other = contextId →
        found.sendNonce.toNat = context.sendNonce.toNat + 1) := by
  have counter := EncryptionContext.toNat_sendNonce_succ below
  rw [result] at afterLookup
  rcases OrderedMap.lookup_insert_cases afterLookup with
    ⟨same, isAdvanced⟩ | ⟨different, old⟩
  · rw [same, isAdvanced]
    refine ⟨context, lookup, rfl, ?_, fun _ => counter⟩
    change context.sendNonce.toNat ≤ (context.sendNonce + 1).toNat
    omega
  · exact ⟨found, old, rfl, Nat.le_refl _,
      fun equality => (different equality).elim⟩

/-- Advancing a counter spends at most the old value. -/
private theorem nonceInvariant_advance
    (holds : NonceInvariant installed used before)
    {contextId : ContextId} {context : EncryptionContext}
    {sealed : Option (SessionKey × Nonce)}
    (lookup : before.contexts[contextId]? = some context)
    (below : context.sendNonce.toNat < maxNonce.toNat)
    (result : after.contexts = before.contexts.insert contextId
      { context with sendNonce := context.sendNonce + 1 })
    (recorded : sealed = none ∨ sealed = some (context.sessionKey,
      directionNonce context.directionId context.sendNonce)) :
    NonceInvariant installed (used ++ sealed.toList) after := by
  have lookups := lookup_of_advance lookup below result
  constructor
  · intro other found afterLookup
    obtain ⟨old, oldLookup, samePair, _⟩ := lookups other found afterLookup
    exact samePair ▸ holds.live other old oldLookup
  · intro left right leftContext rightContext leftLookup rightLookup samePair
    obtain ⟨leftOld, leftOldLookup, leftPair, _⟩ :=
      lookups left leftContext leftLookup
    obtain ⟨rightOld, rightOldLookup, rightPair, _⟩ :=
      lookups right rightContext rightLookup
    exact holds.separate left right leftOld rightOld leftOldLookup
      rightOldLookup (leftPair.trans (samePair.trans rightPair.symm))
  · intro pair member
    rcases List.mem_append.mp member with old | last
    · obtain ⟨key, direction, spentCounter, shape, known, earlier⟩ :=
        holds.spent pair old
      refine ⟨key, direction, spentCounter, shape, known, ?_⟩
      intro other found afterLookup samePair
      obtain ⟨previous, previousLookup, pairEq, grown, _⟩ :=
        lookups other found afterLookup
      exact Nat.lt_of_lt_of_le
        (earlier other previous previousLookup (pairEq.trans samePair)) grown
    · rcases recorded with rfl | rfl
      · cases last
      · have pairShape : pair = (context.sessionKey,
            directionNonce context.directionId context.sendNonce) := by
          simpa using last
        refine ⟨context.sessionKey, context.directionId, context.sendNonce,
          pairShape, holds.live contextId context lookup, ?_⟩
        intro other found afterLookup samePair
        obtain ⟨previous, previousLookup, pairEq, _, moved⟩ :=
          lookups other found afterLookup
        have sameContext : other = contextId :=
          holds.separate other contextId previous context previousLookup lookup
            (pairEq.trans samePair)
        have grown := moved sameContext
        omega
  · rcases recorded with rfl | rfl
    · simpa using holds.once
    · rw [Option.toList_some, List.nodup_append]
      refine ⟨holds.once, List.nodup_singleton _, ?_⟩
      intro pair member last isLast equality
      rw [List.mem_singleton] at isLast
      apply next_pair_unused holds lookup
      rw [← isLast, ← equality]
      exact member

end Preservation

theorem installedPairs_append (past : List (Command × Effect))
    (command : Command) (effect : Effect) :
    installedPairs (past ++ [(command, effect)]) =
      installedPairs past ++ effect.installed.toList := by
  cases installed : effect.installed <;> simp [installedPairs, installed]

theorem sealedPairs_append (past : List (Command × Effect))
    (command : Command) (effect : Effect) :
    sealedPairs (past ++ [(command, effect)]) =
      sealedPairs past ++ effect.sealedWith.toList := by
  cases sealed : effect.sealedWith <;> simp [sealedPairs, sealed]

/-- One command keeps the nonce invariant as long as what it installs is
fresh. -/
theorem nonceInvariant_change {installed : List (SessionKey × UInt32)}
    {used : List (SessionKey × Nonce)} {before after : Encryptor}
    {effect : Effect} (change : Change before after effect)
    (holds : NonceInvariant installed used before)
    (fresh : (installed ++ effect.installed.toList).Nodup) :
    NonceInvariant (installed ++ effect.installed.toList)
      (used ++ effect.sealedWith.toList) after := by
  cases change with
  | unchanged same =>
      simpa using nonceInvariant_of_subtable holds
        (fun contextId context lookup => same ▸ lookup)
  | install contextId context result =>
      have isNew : context.keyPair ∉ installed := by
        intro member
        exact (List.nodup_append.mp fresh).2.2 _ member _
          List.mem_cons_self rfl
      simpa using nonceInvariant_install holds result isNew
  | remove contextId result =>
      have subtable : ∀ (other : ContextId) context,
          after.contexts[other]? = some context →
            before.contexts[other]? = some context := by
        intro other context lookup
        rw [result] at lookup
        exact (OrderedMap.lookup_of_erase lookup).2
      simpa using nonceInvariant_of_subtable holds subtable
  | advance contextId context sealed lookup below result recorded =>
      simpa using nonceInvariant_advance holds lookup below result recorded

/-- The nonce invariant of a run, provided the run installs fresh pairs. -/
def FreshRunInvariant (past : List (Command × Effect))
    (encryptor : Encryptor) : Prop :=
  (installedPairs past).Nodup →
    NonceInvariant (installedPairs past) (sealedPairs past) encryptor

theorem freshRunInvariant_run (aead : Aead) (commands : List Command) :
    FreshRunInvariant
      (Trace.history (perform aead) Encryptor.new commands)
      (Trace.final (perform aead) Encryptor.new commands) := by
  apply Trace.invariant
  · intro _
    exact nonceInvariant_new
  · intro past encryptor command holds nodup
    -- Freshness of the longer run gives freshness of the shorter one.
    rw [installedPairs_append] at nodup ⊢
    rw [sealedPairs_append]
    exact nonceInvariant_change (perform_change aead encryptor command)
      (holds (List.nodup_append.mp nodup).1) nodup

/-- The default context, when set, is in the table. -/
def DefaultLive (encryptor : Encryptor) : Prop :=
  ∀ contextId, encryptor.defaultContext = some contextId →
    contextId ∈ encryptor.contexts

/-- A context that is put in or replaced takes no other one out. -/
theorem DefaultLive.insert {encryptor : Encryptor}
    (live : encryptor.DefaultLive) (contextId : ContextId)
    (context : EncryptionContext) :
    DefaultLive
      { encryptor with
        contexts := encryptor.contexts.insert contextId context } := by
  intro other isDefault
  exact Std.ExtTreeMap.mem_insert.mpr (Or.inr (live other isDefault))

/-- Encryption keeps the set of live contexts and the default. -/
theorem defaultLive_encrypt (aead : Aead) {encryptor : Encryptor}
    (live : encryptor.DefaultLive) (contextId : ContextId)
    (plaintext aad : Bytes) :
    (encryptor.encrypt aead contextId plaintext aad).2.DefaultLive := by
  unfold encrypt
  rw [prepareSeal_eq]
  cases encryptor.contexts[contextId]? with
  | none => exact live
  | some context =>
      by_cases exhausted : context.sendNonce ≥ maxNonce
      · simpa only [if_pos exhausted] using live
      · simp only [if_neg exhausted]
        have inserted := live.insert contextId
          { context with sendNonce := context.sendNonce + 1 }
        split <;> exact inserted

theorem defaultLive_perform (aead : Aead) {encryptor : Encryptor}
    (live : encryptor.DefaultLive) (command : Command) :
    (encryptor.perform aead command).2.DefaultLive := by
  cases command with
  | addContext contextId context =>
      by_cases present : contextId ∈ encryptor.contexts
      · simpa only [perform, addContext, if_pos present] using live
      · simp only [perform, addContext, if_neg present]
        intro other isDefault
        apply Std.ExtTreeMap.mem_insert.mpr
        cases default : encryptor.defaultContext with
        | none =>
            left
            simpa [default] using isDefault
        | some previous =>
            right
            apply live
            simpa [default] using isDefault
  | removeContext contextId =>
      cases lookup : encryptor.contexts[contextId]? with
      | none => simpa only [perform, removeContext, lookup] using live
      | some context =>
          simp only [perform, removeContext, lookup]
          intro other isDefault
          by_cases removed : encryptor.defaultContext = some contextId
          · simp [removed] at isDefault
          · simp only [if_neg removed] at isDefault
            have different : contextId ≠ other := by
              intro equality
              exact removed (equality ▸ isDefault)
            apply Std.ExtTreeMap.mem_erase.mpr
            exact ⟨by simpa using different, live other isDefault⟩
  | updateSessionKey contextId newKey =>
      cases lookup : encryptor.contexts[contextId]? with
      | none => simpa only [perform, updateSessionKey, lookup] using live
      | some context =>
          simp only [perform, updateSessionKey, lookup]
          exact live.insert contextId (context.updateSessionKey newKey)
  | encrypt contextId plaintext aad =>
      exact defaultLive_encrypt aead live contextId plaintext aad
  | encryptDefault plaintext aad =>
      cases default : encryptor.defaultContext with
      | none => simpa only [perform, encryptDefault, default] using live
      | some contextId =>
          simp only [perform, encryptDefault, default]
          exact defaultLive_encrypt aead live contextId plaintext aad
  | decrypt contextId nonceCounter ciphertext aad =>
      simpa only [perform, decrypt_state] using live
  | decryptDefault nonceCounter ciphertext aad =>
      cases default : encryptor.defaultContext with
      | none => simpa only [perform, decryptDefault, default] using live
      | some contextId =>
          simpa only [perform, decryptDefault, default, decrypt_state]
            using live

theorem defaultLive_run (aead : Aead) (commands : List Command) :
    (Trace.final (perform aead) Encryptor.new commands).DefaultLive := by
  apply Trace.final_invariant
  · intro encryptor command live
    exact defaultLive_perform aead live command
  · intro contextId isDefault
    cases isDefault

/-- An exhausted counter makes encryption fail without any state change. -/
theorem encrypt_exhausted (aead : Aead) {encryptor : Encryptor}
    {contextId : ContextId} {context : EncryptionContext}
    (lookup : encryptor.contexts[contextId]? = some context)
    (exhausted : maxNonce ≤ context.sendNonce) (plaintext aad : Bytes) :
    encryptor.encrypt aead contextId plaintext aad =
      (.error .nonceOverflow, encryptor) := by
  have isExhausted : context.sendNonce ≥ maxNonce := exhausted
  unfold encrypt
  rw [prepareSeal_eq, lookup]
  simp only [if_pos isExhausted]

/-- What a run of commands guarantees about nonces and the default context. -/
structure NonceSafe (aead : Aead) (commands : List Command) : Prop where
  unique : (sealedPairs
    (Trace.history (perform aead) Encryptor.new commands)).Nodup
  exhausted : ∀ (contextId : ContextId) context,
    (Trace.final (perform aead) Encryptor.new commands).contexts[contextId]? =
        some context →
      maxNonce ≤ context.sendNonce → ∀ plaintext aad,
        (Trace.final (perform aead) Encryptor.new commands).encrypt aead
            contextId plaintext aad =
          (.error .nonceOverflow,
            Trace.final (perform aead) Encryptor.new commands)
  defaultLive : (Trace.final (perform aead) Encryptor.new commands).DefaultLive

theorem nonce_uniqueness (aead : Aead) (commands : List Command)
    (fresh : (installedPairs
      (Trace.history (perform aead) Encryptor.new commands)).Nodup) :
    NonceSafe aead commands := by
  refine ⟨?_, ?_, defaultLive_run aead commands⟩
  · exact (freshRunInvariant_run aead commands fresh).once
  · intro contextId context lookup exhausted plaintext aad
    exact encrypt_exhausted aead lookup exhausted plaintext aad

theorem nonce_uniqueness_sample :
    NonceSafe (tableAead sampleLog)
      [.addContext 1 (.new ⟨Vector.replicate 32 7⟩ 0),
       .encrypt 1 [104, 105] [104, 100, 114],
       .encryptDefault [120] [104, 100, 114],
       .updateSessionKey 1 ⟨Vector.replicate 32 8⟩,
       .removeContext 1,
       .addContext 1 (.new ⟨Vector.replicate 32 9⟩ 0)] :=
  nonce_uniqueness _ _ (by decide)

end Encryptor

end NyxNet.Crypto
