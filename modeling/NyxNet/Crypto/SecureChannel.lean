import NyxNet.Crypto.FrameCrypter
import NyxNet.Lib.Trace

/-!
# The channel between two frame crypters

One crypter encrypts, another with the same key decrypts, and the network in
between loses, repeats, reorders and forges packets at will.  The invariant of
the receiver is carried over every delivery schedule; the channel guarantee is
read off from it with an ideal cipher.
-/

namespace NyxNet.Crypto

namespace FrameCrypter

/-- What reaches the receiver: a genuine packet or a forgery. -/
structure Attempt where
  dir : UInt32
  seq : UInt64
  ciphertext : Bytes
  aad : Bytes
  deriving DecidableEq, Repr

def receive (aead : Aead) (mode : OverflowMode) (crypter : FrameCrypter)
    (attempt : Attempt) : Outcome AeadError Bytes × FrameCrypter :=
  crypter.decrypt aead mode attempt.dir attempt.seq attempt.ciphertext
    attempt.aad

/-- The sequence numbers for which a run returned a plaintext, in order. -/
def acceptedSeqs (past : List (Attempt × Outcome AeadError Bytes)) :
    List UInt64 :=
  past.filterMap fun
    | (attempt, .returned _) => some attempt.seq
    | _ => none

/-- The sender encrypts messages (plaintext and header) one after the other.
`none` when some call aborts. -/
def sealAll (aead : Aead) (dir : UInt32) :
    FrameCrypter → List (Bytes × Bytes) → Option (List Sealed)
  | _, [] => some []
  | crypter, (plaintext, aad) :: messages =>
      match crypter.encrypt aead dir plaintext aad with
      | (.returned ciphertext, next) =>
          (sealAll aead dir next messages).map
            ({ nonce := makeNonce dir crypter.sendSeq
               plaintext, aad, ciphertext } :: ·)
      | _ => none

/-- One delivery: either nothing changes and nothing is returned, or a number
never accepted before is opened by the cipher and recorded. -/
theorem receive_cases (aead : Aead) (mode : OverflowMode)
    {crypter : FrameCrypter} {accepted : List UInt64}
    (tracks : crypter.Tracks accepted) (attempt : Attempt) :
    ((∀ plaintext, (crypter.receive aead mode attempt).1 ≠
          .returned plaintext) ∧
        (crypter.receive aead mode attempt).2 = crypter) ∨
      ∃ plaintext,
        crypter.receive aead mode attempt =
            (.returned plaintext, crypter.markSeen attempt.seq) ∧
          attempt.seq ∉ accepted ∧
          (crypter.markSeen attempt.seq).Tracks (accepted ++ [attempt.seq]) ∧
          aead.decrypt crypter.key (makeNonce attempt.dir attempt.seq)
            attempt.ciphertext attempt.aad = some plaintext := by
  unfold receive decrypt
  cases checked : crypter.checkReplay mode attempt.seq with
  | panicked => simp
  | failed error => simp
  | returned _ =>
      obtain ⟨unseen, reachable⟩ := checkReplay_sound tracks checked
      cases opened : aead.decrypt crypter.key
          (makeNonce attempt.dir attempt.seq) attempt.ciphertext attempt.aad with
      | none => simp
      | some plaintext =>
          exact Or.inr ⟨plaintext, rfl, unseen,
            tracks_markSeen tracks reachable, rfl⟩

@[simp] theorem markSeen_key (crypter : FrameCrypter) (seq : UInt64) :
    (crypter.markSeen seq).key = crypter.key := by
  unfold markSeen
  by_cases newer : crypter.recvHighest < seq
  · simp only [if_pos newer]
    split <;> simp [bitmapSet]
  · simp only [if_neg newer]
    split <;> rfl

theorem acceptedSeqs_append (past : List (Attempt × Outcome AeadError Bytes))
    (attempt : Attempt) (outcome : Outcome AeadError Bytes) :
    acceptedSeqs (past ++ [(attempt, outcome)]) =
      acceptedSeqs past ++
        (match outcome with
          | .returned _ => [attempt.seq]
          | _ => []) := by
  cases outcome <;> simp [acceptedSeqs]

/-- Everything that holds of a receiver after any delivery schedule. -/
structure ReceiverInvariant (aead : Aead) (key : SessionKey)
    (past : List (Attempt × Outcome AeadError Bytes))
    (crypter : FrameCrypter) : Prop where
  sameKey : crypter.key = key
  tracks : crypter.Tracks (acceptedSeqs past)
  once : (acceptedSeqs past).Nodup
  opened : ∀ attempt plaintext, (attempt, .returned plaintext) ∈ past →
    aead.decrypt key (makeNonce attempt.dir attempt.seq) attempt.ciphertext
      attempt.aad = some plaintext

theorem receiverInvariant_step (aead : Aead) (mode : OverflowMode)
    (key : SessionKey) (past : List (Attempt × Outcome AeadError Bytes))
    (crypter : FrameCrypter) (attempt : Attempt)
    (holds : ReceiverInvariant aead key past crypter) :
    ReceiverInvariant aead key
      (past ++ [(attempt, (crypter.receive aead mode attempt).1)])
      (crypter.receive aead mode attempt).2 := by
  rcases receive_cases aead mode holds.tracks attempt with
    ⟨silent, unchanged⟩ | ⟨plaintext, answer, unseen, tracks, opened⟩
  · have sameAccepted : acceptedSeqs
        (past ++ [(attempt, (crypter.receive aead mode attempt).1)]) =
          acceptedSeqs past := by
      rw [acceptedSeqs_append]
      split
      · rename_i value returned
        exact (silent value returned).elim
      · exact List.append_nil _
    rw [unchanged]
    refine ⟨holds.sameKey, ?_, ?_, ?_⟩
    · rw [sameAccepted]
      exact holds.tracks
    · rw [sameAccepted]
      exact holds.once
    · intro earlier value member
      rcases List.mem_append.mp member with old | last
      · exact holds.opened earlier value old
      · simp only [List.mem_singleton, Prod.mk.injEq] at last
        exact (silent value last.2.symm).elim
  · rw [answer]
    have nowAccepted : acceptedSeqs
        (past ++ [(attempt, .returned plaintext)]) =
          acceptedSeqs past ++ [attempt.seq] := acceptedSeqs_append _ _ _
    refine ⟨?_, ?_, ?_, ?_⟩
    · exact (markSeen_key crypter attempt.seq).trans holds.sameKey
    · rw [nowAccepted]
      exact tracks
    · rw [nowAccepted, List.nodup_append]
      refine ⟨holds.once, by simp, ?_⟩
      intro earlier member other isNew
      rw [List.mem_singleton.mp isNew]
      intro equality
      exact unseen (equality ▸ member)
    · intro earlier value member
      rcases List.mem_append.mp member with old | last
      · exact holds.opened earlier value old
      · simp only [List.mem_singleton, Prod.mk.injEq,
          Outcome.returned.injEq] at last
        obtain ⟨sameAttempt, sameValue⟩ := last
        subst sameAttempt sameValue
        rw [← holds.sameKey]
        exact opened

theorem receiverInvariant_run (aead : Aead) (mode : OverflowMode)
    (key : SessionKey) (attempts : List Attempt) :
    ReceiverInvariant aead key
      (Trace.history (receive aead mode) (new key) attempts)
      (Trace.final (receive aead mode) (new key) attempts) := by
  apply Trace.invariant
  · exact ⟨rfl, tracks_new key, List.nodup_nil, by simp⟩
  · intro past crypter attempt holds
    exact receiverInvariant_step aead mode key past crypter attempt holds

/-- Packet `k` of the sender carries sequence number `start + k` and its own
message. -/
theorem sealAll_getElem? {aead : Aead} {dir : UInt32}
    {crypter : FrameCrypter} {messages : List (Bytes × Bytes)}
    {log : List Sealed} (sent : sealAll aead dir crypter messages = some log)
    (position : Nat) :
    (log[position]?).map
        (fun packet => (packet.nonce, packet.plaintext, packet.aad)) =
      (messages[position]?).map (fun message =>
        (makeNonce dir (crypter.sendSeq + UInt64.ofNat position),
          message.1, message.2)) := by
  induction messages generalizing crypter log position with
  | nil =>
      simp only [sealAll, Option.some.injEq] at sent
      subst log
      simp
  | cons message messages ih =>
      obtain ⟨plaintext, aad⟩ := message
      unfold sealAll encrypt at sent
      cases encrypted : aead.encrypt crypter.key
          (makeNonce dir crypter.sendSeq) plaintext aad with
      | none => simp [encrypted] at sent
      | some ciphertext =>
          simp only [encrypted, Option.map_eq_some_iff] at sent
          obtain ⟨rest, restSent, shape⟩ := sent
          subst log
          cases position with
          | zero => simp
          | succ position =>
              have later := ih restSent position
              simpa [UInt64.add_one_add_ofNat] using later

/-- The guarantee of one channel after a delivery schedule `attempts`. -/
structure ExactlyOnce (aead : Aead) (mode : OverflowMode) (key : SessionKey)
    (dir : UInt32) (messages : List (Bytes × Bytes)) (log : List Sealed)
    (attempts : List Attempt) : Prop where
  /-- No sequence number is returned twice. -/
  once : (acceptedSeqs
    (Trace.history (receive aead mode) (new key) attempts)).Nodup
  /-- What is returned for number `k` is message `k`. -/
  authentic : ∀ attempt plaintext,
    (attempt, .returned plaintext) ∈
        Trace.history (receive aead mode) (new key) attempts →
      ∃ message, messages[attempt.seq.toNat]? = some message ∧
        message.1 = plaintext
  /-- A genuine packet not returned before is returned when it arrives next,
  unless some accepted number is a full window ahead of it. -/
  delivered : ∀ k message packet,
    messages[k]? = some message → log[k]? = some packet →
      UInt64.ofNat k ∉ acceptedSeqs
        (Trace.history (receive aead mode) (new key) attempts) →
      (∀ seq ∈ acceptedSeqs
          (Trace.history (receive aead mode) (new key) attempts),
        seq.toNat < k + 2 ^ 20) →
      ((Trace.final (receive aead mode) (new key) attempts).receive aead mode
          { dir, seq := UInt64.ofNat k, ciphertext := packet.ciphertext,
            aad := packet.aad }).1 = .returned message.1

private theorem genuine_packet {aead : Aead} {key : SessionKey} {dir : UInt32}
    {messages : List (Bytes × Bytes)} {log : List Sealed}
    (sent : sealAll aead dir (new key) messages = some log)
    {position : Nat} {packet : Sealed} (found : log[position]? = some packet) :
    ∃ message, messages[position]? = some message ∧
      packet.nonce = makeNonce dir (UInt64.ofNat position) ∧
      packet.plaintext = message.1 ∧ packet.aad = message.2 := by
  have shape := sealAll_getElem? sent position
  rw [found] at shape
  cases lookup : messages[position]? with
  | none => simp [lookup] at shape
  | some message =>
      simp only [lookup, Option.map_some, Option.some.injEq, Prod.mk.injEq]
        at shape
      obtain ⟨nonce, plaintext, aad⟩ := shape
      refine ⟨message, rfl, ?_, plaintext, aad⟩
      rw [nonce]
      change makeNonce dir (0 + UInt64.ofNat position) = _
      rw [UInt64.zero_add]

theorem secure_channel_exactly_once (aead : Aead) (mode : OverflowMode)
    (key : SessionKey) (dir : UInt32) (messages : List (Bytes × Bytes))
    (short : messages.length < 2 ^ 63) (log : List Sealed)
    (sent : sealAll aead dir (new key) messages = some log)
    (ideal : aead.IdealFor key log) (attempts : List Attempt) :
    ExactlyOnce aead mode key dir messages log attempts := by
  have holds := receiverInvariant_run aead mode key attempts
  refine ⟨holds.once, ?_, ?_⟩
  · intro attempt plaintext member
    have opened := holds.opened attempt plaintext member
    have logged := (ideal _ _ _ _).mp opened
    obtain ⟨position, bound, found⟩ := List.mem_iff_getElem.mp logged
    obtain ⟨message, lookup, nonce, samePlaintext, _⟩ :=
      genuine_packet sent (List.getElem?_eq_some_iff.mpr ⟨bound, found⟩)
    have seqEq := (directionNonce_inj nonce).2
    have inRange : position < messages.length :=
      (List.getElem?_eq_some_iff.mp lookup).1
    have seqNat : attempt.seq.toNat = position := by
      rw [seqEq]
      exact UInt64.toNat_ofNat_of_fits (by omega)
    exact ⟨message, by rw [seqNat, lookup], samePlaintext.symm⟩
  · intro k message packet lookup found unseen reachable
    obtain ⟨message', lookup', nonce, plaintext, aad⟩ :=
      genuine_packet sent found
    rw [lookup] at lookup'
    cases lookup'
    have inRange : k < messages.length :=
      (List.getElem?_eq_some_iff.mp lookup).1
    have seqNat : (UInt64.ofNat k).toNat = k :=
      UInt64.toNat_ofNat_of_fits (by omega)
    have passed := checkReplay_complete mode holds.tracks
      (by rw [seqNat, windowSize_eq]; omega) unseen
      (by rw [seqNat]; exact reachable)
    have opened : aead.decrypt key (makeNonce dir (UInt64.ofNat k))
        packet.ciphertext packet.aad = some message.1 := by
      apply (ideal _ _ _ _).mpr
      rw [← nonce, ← plaintext]
      exact List.mem_of_getElem? found
    simp [receive, decrypt, passed, holds.sameKey, opened]

/-- Out of order, replayed and forged deliveries of the two sample frames. -/
theorem secure_channel_sample :
    ExactlyOnce (tableAead sampleLog) .checked ⟨Vector.replicate 32 7⟩ 0
      [([104, 105], [104, 100, 114]), ([120], [104, 100, 114])] sampleLog
      [⟨0, 1, [194, 209, 237, 154, 80, 142, 79, 239, 27, 130, 28, 181, 159, 17,
          22, 191, 245], [104, 100, 114]⟩,
       ⟨0, 1, [194, 209, 237, 154, 80, 142, 79, 239, 27, 130, 28, 181, 159, 17,
          22, 191, 245], [104, 100, 114]⟩,
       ⟨0, 18446744073709551615, [0], []⟩] :=
  secure_channel_exactly_once _ _ _ _ _ (by decide) _ (by decide)
    (tableAead_idealFor _ (by decide)) _

end FrameCrypter

end NyxNet.Crypto
