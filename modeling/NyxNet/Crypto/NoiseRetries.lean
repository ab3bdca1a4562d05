import NyxNet.Crypto.NoiseAgreement

/-!
# Failed handshake calls and retries

A call of `nyx-crypto/src/noise.rs` that fails leaves the handshake as it was,
except for one: the responder's first read has absorbed the ephemeral key when
it finds that the payload does not fit.  An exchange in which calls fail and are
made again ends in equal transcripts exactly when that does not happen.
-/

namespace NyxNet.Crypto

namespace NoiseHandshake

variable {primitives : Primitives}

/-- A failure leaves everything as it was. -/
def FailureAtomic (handshake : NoiseHandshake primitives)
    (call : Call primitives) : Prop :=
  Reply.succeeded (handshake.perform call).1 = false →
    (handshake.perform call).2 = handshake

/-- A responder's first read of a message that is long enough, into a buffer
that is too small for its payload. -/
def Slips (handshake : NoiseHandshake primitives) : Call primitives → Prop
  | .write .. => False
  | .read message payload =>
      handshake.role = .responder ∧ handshake.state = .initial ∧
        32 ≤ message.length ∧ payload.length < message.length - 32

section Single

variable (handshake : NoiseHandshake primitives)

theorem writeInitiatorFirstMessage_atomic (ephemeral : primitives.Secret)
    (payload message : Bytes)
    (failed : Reply.succeeded (handshake.writeInitiatorFirstMessage ephemeral
      payload message).1 = false) :
    (handshake.writeInitiatorFirstMessage ephemeral payload message).2 =
      handshake := by
  unfold writeInitiatorFirstMessage at failed ⊢
  split
  · rfl
  · next fits =>
      rw [if_neg fits] at failed
      cases failed

theorem writeResponderSecondMessage_atomic (ephemeral : primitives.Secret)
    (payload message : Bytes)
    (failed : Reply.succeeded (handshake.writeResponderSecondMessage ephemeral
      payload message).1 = false) :
    (handshake.writeResponderSecondMessage ephemeral payload message).2 =
      handshake := by
  unfold writeResponderSecondMessage at failed ⊢
  split
  · rfl
  · next fits =>
      rw [if_neg fits] at failed
      dsimp only at failed ⊢
      cases known : handshake.localStatic with
      | none => rfl
      | some key =>
          rw [known] at failed
          cases failed

theorem writeInitiatorThirdMessage_atomic (payload message : Bytes)
    (failed : Reply.succeeded (handshake.writeInitiatorThirdMessage payload
      message).1 = false) :
    (handshake.writeInitiatorThirdMessage payload message).2 = handshake := by
  unfold writeInitiatorThirdMessage at failed ⊢
  split
  · rfl
  · next fits =>
      rw [if_neg fits] at failed
      cases known : handshake.localStatic with
      | none => rfl
      | some key =>
          rw [known] at failed
          cases failed

theorem readResponderSecondMessage_atomic (message payload : Bytes)
    (failed : Reply.succeeded (handshake.readResponderSecondMessage message
      payload).1 = false) :
    (handshake.readResponderSecondMessage message payload).2 = handshake := by
  unfold readResponderSecondMessage at failed ⊢
  split
  · rfl
  · next long =>
      rw [if_neg long] at failed
      dsimp only at failed ⊢
      split
      · rfl
      · next fits =>
          rw [if_neg fits] at failed
          cases failed

theorem readInitiatorThirdMessage_atomic (message payload : Bytes)
    (failed : Reply.succeeded (handshake.readInitiatorThirdMessage message
      payload).1 = false) :
    (handshake.readInitiatorThirdMessage message payload).2 = handshake := by
  unfold readInitiatorThirdMessage at failed ⊢
  split
  · rfl
  · next long =>
      rw [if_neg long] at failed
      dsimp only at failed ⊢
      split
      · rfl
      · next fits =>
          rw [if_neg fits] at failed
          cases failed

theorem readInitiatorFirstMessage_atomic (message payload : Bytes)
    (fits : message.length - 32 ≤ payload.length)
    (failed : Reply.succeeded (handshake.readInitiatorFirstMessage message
      payload).1 = false) :
    (handshake.readInitiatorFirstMessage message payload).2 = handshake := by
  unfold readInitiatorFirstMessage at failed ⊢
  split
  · rfl
  · next long =>
      rw [if_neg long] at failed
      dsimp only at failed
      rw [if_neg (Nat.not_lt.mpr fits)] at failed
      cases failed

theorem writeMessage_atomic (ephemeral : primitives.Secret)
    (payload message : Bytes)
    (failed : Reply.succeeded
      (handshake.writeMessage ephemeral payload message).1 = false) :
    (handshake.writeMessage ephemeral payload message).2 = handshake := by
  unfold writeMessage at failed ⊢
  split
  · next role state =>
      rw [role, state] at failed
      exact writeInitiatorFirstMessage_atomic _ _ _ _ failed
  · next role state =>
      rw [role, state] at failed
      exact writeResponderSecondMessage_atomic _ _ _ _ failed
  · next role state =>
      rw [role, state] at failed
      exact writeInitiatorThirdMessage_atomic _ _ _ failed
  · rfl

theorem readMessage_atomic (message payload : Bytes)
    (noSlip : ¬ handshake.Slips (.read message payload))
    (failed : Reply.succeeded (handshake.readMessage message payload).1 =
      false) :
    (handshake.readMessage message payload).2 = handshake := by
  unfold readMessage at failed ⊢
  split
  · next role state =>
      rw [role, state] at failed
      by_cases long : 32 ≤ message.length
      · apply readInitiatorFirstMessage_atomic _ _ _ _ failed
        by_contra small
        exact noSlip ⟨role, state, long, Nat.lt_of_not_le small⟩
      · apply readInitiatorFirstMessage_atomic _ _ _ _ failed
        omega
  · next role state =>
      rw [role, state] at failed
      exact readResponderSecondMessage_atomic _ _ _ failed
  · next role state =>
      rw [role, state] at failed
      exact readInitiatorThirdMessage_atomic _ _ _ failed
  · rfl

theorem perform_atomic {call : Call primitives}
    (noSlip : ¬ handshake.Slips call) : handshake.FailureAtomic call := by
  intro failed
  cases call with
  | write ephemeral payload message =>
      exact writeMessage_atomic handshake ephemeral payload message failed
  | read message payload =>
      exact readMessage_atomic handshake message payload noSlip failed

/-- A call that slips fails after it has absorbed the ephemeral key. -/
theorem perform_of_slips {call : Call primitives}
    (slips : handshake.Slips call) :
    Reply.succeeded (handshake.perform call).1 = false ∧
      ∃ key : Vector UInt8 32, (handshake.perform call).2 =
        handshake.updateHandshakeHash key.toList := by
  cases call with
  | write ephemeral payload message => cases slips
  | read message payload =>
      obtain ⟨role, state, long, small⟩ := slips
      simp only [perform, readMessage, role, state, readInitiatorFirstMessage,
        if_neg (Nat.not_lt.mpr long), if_pos small]
      exact ⟨rfl, _, rfl⟩

theorem failureAtomic_iff (call : Call primitives) :
    handshake.FailureAtomic call ↔ ¬ handshake.Slips call := by
  constructor
  · intro atomic slips
    obtain ⟨failed, key, after⟩ := perform_of_slips handshake slips
    have lengths := congrArg
      (fun other : NoiseHandshake primitives => other.handshakeHash.length)
      (after.symm.trans (atomic failed))
    simp [updateHandshakeHash] at lengths
  · exact perform_atomic handshake

end Single

/-- The first handshake is the second with a longer transcript. -/
structure Follows (extra : Nat) (longer shorter : NoiseHandshake primitives) :
    Prop where
  rest : longer = { shorter with handshakeHash := longer.handshakeHash }
  length : longer.handshakeHash.length =
    shorter.handshakeHash.length + extra

/-- The same call on both gives the same reply and keeps the difference. -/
def Parallel (extra : Nat)
    (longer shorter : Reply × NoiseHandshake primitives) : Prop :=
  longer.1 = shorter.1 ∧ Follows extra longer.2 shorter.2

section Parallel

variable {extra : Nat} {shorter : NoiseHandshake primitives} {hash : Bytes}

theorem writeInitiatorFirstMessage_parallel
    (longer : hash.length = shorter.handshakeHash.length + extra)
    (ephemeral : primitives.Secret) (payload message : Bytes) :
    Parallel extra
      ({ shorter with handshakeHash := hash }.writeInitiatorFirstMessage
        ephemeral payload message)
      (shorter.writeInitiatorFirstMessage ephemeral payload message) := by
  unfold writeInitiatorFirstMessage
  split
  · exact ⟨rfl, rfl, longer⟩
  · refine ⟨rfl, rfl, ?_⟩
    simp [updateHandshakeHash, longer]
    omega

theorem readInitiatorFirstMessage_parallel
    (longer : hash.length = shorter.handshakeHash.length + extra)
    (message payload : Bytes) :
    Parallel extra
      ({ shorter with handshakeHash := hash }.readInitiatorFirstMessage
        message payload)
      (shorter.readInitiatorFirstMessage message payload) := by
  unfold readInitiatorFirstMessage
  split
  · exact ⟨rfl, rfl, longer⟩
  · dsimp only
    split
    · refine ⟨rfl, rfl, ?_⟩
      simp [updateHandshakeHash, longer]
      omega
    · refine ⟨rfl, rfl, ?_⟩
      simp [updateHandshakeHash, longer]
      omega

theorem writeResponderSecondMessage_parallel
    (longer : hash.length = shorter.handshakeHash.length + extra)
    (ephemeral : primitives.Secret) (payload message : Bytes) :
    Parallel extra
      ({ shorter with handshakeHash := hash }.writeResponderSecondMessage
        ephemeral payload message)
      (shorter.writeResponderSecondMessage ephemeral payload message) := by
  unfold writeResponderSecondMessage
  split
  · exact ⟨rfl, rfl, longer⟩
  · dsimp only
    split
    · exact ⟨rfl, rfl, longer⟩
    · refine ⟨rfl, rfl, ?_⟩
      simp [updateHandshakeHash, longer]
      omega

theorem readResponderSecondMessage_parallel
    (longer : hash.length = shorter.handshakeHash.length + extra)
    (message payload : Bytes) :
    Parallel extra
      ({ shorter with handshakeHash := hash }.readResponderSecondMessage
        message payload)
      (shorter.readResponderSecondMessage message payload) := by
  unfold readResponderSecondMessage
  split
  · exact ⟨rfl, rfl, longer⟩
  · dsimp only
    split
    · exact ⟨rfl, rfl, longer⟩
    · refine ⟨rfl, rfl, ?_⟩
      simp [updateHandshakeHash, longer]
      omega

theorem writeInitiatorThirdMessage_parallel
    (longer : hash.length = shorter.handshakeHash.length + extra)
    (payload message : Bytes) :
    Parallel extra
      ({ shorter with handshakeHash := hash }.writeInitiatorThirdMessage
        payload message)
      (shorter.writeInitiatorThirdMessage payload message) := by
  unfold writeInitiatorThirdMessage
  split
  · exact ⟨rfl, rfl, longer⟩
  · dsimp only
    split
    · exact ⟨rfl, rfl, longer⟩
    · refine ⟨rfl, rfl, ?_⟩
      simp [updateHandshakeHash, longer]
      omega

theorem readInitiatorThirdMessage_parallel
    (longer : hash.length = shorter.handshakeHash.length + extra)
    (message payload : Bytes) :
    Parallel extra
      ({ shorter with handshakeHash := hash }.readInitiatorThirdMessage
        message payload)
      (shorter.readInitiatorThirdMessage message payload) := by
  unfold readInitiatorThirdMessage
  split
  · exact ⟨rfl, rfl, longer⟩
  · dsimp only
    split
    · exact ⟨rfl, rfl, longer⟩
    · refine ⟨rfl, rfl, ?_⟩
      simp [updateHandshakeHash, longer]
      omega

theorem perform_parallel {longer : NoiseHandshake primitives}
    (follows : Follows extra longer shorter) (call : Call primitives) :
    Parallel extra (longer.perform call) (shorter.perform call) := by
  have length := follows.length
  rw [follows.rest]
  generalize longer.handshakeHash = hash at length ⊢
  cases call with
  | write ephemeral payload message =>
      unfold perform writeMessage
      dsimp only
      split
      · exact writeInitiatorFirstMessage_parallel length _ _ _
      · exact writeResponderSecondMessage_parallel length _ _ _
      · exact writeInitiatorThirdMessage_parallel length _ _
      · exact ⟨rfl, rfl, length⟩
  | read message payload =>
      unfold perform readMessage
      dsimp only
      split
      · exact readInitiatorFirstMessage_parallel length _ _
      · exact readResponderSecondMessage_parallel length _ _
      · exact readInitiatorThirdMessage_parallel length _ _
      · exact ⟨rfl, rfl, length⟩

end Parallel

/-- A call that goes through, with the attempts made before it. -/
abbrev Retried (primitives : Primitives) : Type :=
  List (Call primitives) × Call primitives

/-- All calls of a run, in order. -/
def allCalls (steps : List (Retried primitives)) : List (Call primitives) :=
  steps.flatMap (fun step => step.1 ++ [step.2])

/-- Every attempt fails. -/
def AttemptsFail :
    NoiseHandshake primitives → List (Retried primitives) → Prop
  | _, [] => True
  | handshake, (attempts, call) :: steps =>
      (∀ entry ∈ Trace.history perform handshake attempts,
          Reply.succeeded entry.2 = false) ∧
        AttemptsFail
          ((Trace.final perform handshake attempts).perform call).2 steps

/-- No call of a run slips. -/
def NeverSlips (handshake : NoiseHandshake primitives)
    (calls : List (Call primitives)) : Prop :=
  Trace.Along perform (fun handshake call => ¬ handshake.Slips call) handshake
    calls

theorem neverSlips_append {handshake : NoiseHandshake primitives}
    {before after : List (Call primitives)} :
    handshake.NeverSlips (before ++ after) ↔
      handshake.NeverSlips before ∧
        (Trace.final perform handshake before).NeverSlips after := by
  unfold NeverSlips
  rw [Trace.along_iff_alongPast perform _ [], Trace.alongPast_append,
    Trace.along_iff_alongPast perform _ [],
    Trace.along_iff_alongPast perform _ ([] ++ _)]

/-- Failed attempts make the transcript longer unless none of them slips. -/
theorem follows_attempts {extra : Nat}
    {longer shorter : NoiseHandshake primitives}
    (follows : Follows extra longer shorter)
    (attempts : List (Call primitives))
    (fail : ∀ entry ∈ Trace.history perform longer attempts,
      Reply.succeeded entry.2 = false) :
    ∃ more, Follows (extra + more) (Trace.final perform longer attempts)
        shorter ∧
      (more = 0 ↔ longer.NeverSlips attempts) := by
  induction attempts generalizing extra longer with
  | nil => exact ⟨0, follows, iff_of_true rfl trivial⟩
  | cons call attempts ih =>
      have failed : Reply.succeeded (longer.perform call).1 = false :=
        fail (call, _) List.mem_cons_self
      have failLater : ∀ entry ∈ Trace.history perform (longer.perform call).2
          attempts, Reply.succeeded entry.2 = false := by
        intro entry member
        exact fail entry (List.mem_cons_of_mem _ member)
      by_cases slips : longer.Slips call
      · obtain ⟨_, key, after⟩ := perform_of_slips longer slips
        have grown : Follows (extra + 32) (longer.perform call).2 shorter := by
          rw [after]
          constructor
          · rw [follows.rest]
            rfl
          · simp [updateHandshakeHash, follows.length]
            omega
        obtain ⟨more, later, _⟩ := ih grown failLater
        refine ⟨32 + more, ?_, ?_⟩
        · rw [Trace.final, ← Nat.add_assoc]
          exact later
        · apply iff_of_false
          · omega
          · intro never
            exact never.1 slips
      · have same := perform_atomic longer slips failed
        rw [same] at failLater
        obtain ⟨more, later, exact⟩ := ih follows failLater
        refine ⟨more, ?_, ?_⟩
        · rw [Trace.final, same]
          exact later
        · rw [exact]
          unfold NeverSlips
          rw [Trace.Along, same]
          exact (and_iff_right slips).symm

theorem Follows.slips_iff {extra : Nat}
    {longer shorter : NoiseHandshake primitives}
    (follows : Follows extra longer shorter) (call : Call primitives) :
    longer.Slips call ↔ shorter.Slips call := by
  rw [follows.rest]
  cases call with
  | write ephemeral payload message => exact Iff.rfl
  | read message payload => exact Iff.rfl

theorem allCalls_cons (attempts : List (Call primitives))
    (call : Call primitives) (steps : List (Retried primitives)) :
    allCalls ((attempts, call) :: steps) =
      attempts ++ call :: allCalls steps := by
  simp [allCalls]

/-- A run with failed attempts ends as the run without them, but for a longer
transcript if an attempt slips. -/
theorem follows_retried {extra : Nat}
    {longer shorter : NoiseHandshake primitives}
    (follows : Follows extra longer shorter)
    (steps : List (Retried primitives))
    (fail : longer.AttemptsFail steps)
    (atomic : shorter.NeverSlips (steps.map Prod.snd)) :
    ∃ more, Follows (extra + more)
        (Trace.final perform longer (allCalls steps))
        (Trace.final perform shorter (steps.map Prod.snd)) ∧
      (more = 0 ↔ longer.NeverSlips (allCalls steps)) := by
  induction steps generalizing extra longer shorter with
  | nil => exact ⟨0, follows, iff_of_true rfl trivial⟩
  | cons step steps ih =>
      obtain ⟨attempts, call⟩ := step
      obtain ⟨failNow, failLater⟩ := fail
      obtain ⟨noSlip, atomicLater⟩ := atomic
      obtain ⟨before, attempted, exactBefore⟩ :=
        follows_attempts follows attempts failNow
      obtain ⟨_, performed⟩ := perform_parallel attempted call
      obtain ⟨after, later, exactAfter⟩ :=
        ih performed failLater atomicLater
      refine ⟨before + after, ?_, ?_⟩
      · rw [allCalls_cons, Trace.final_append, ← Nat.add_assoc]
        exact later
      · rw [allCalls_cons, neverSlips_append, ← exactBefore]
        unfold NeverSlips at exactAfter ⊢
        rw [Trace.Along, ← exactAfter, attempted.slips_iff]
        constructor
        · intro nothing
          exact ⟨by omega, noSlip, by omega⟩
        · intro nothing
          obtain ⟨noBefore, _, noAfter⟩ := nothing
          omega

/-- Failed attempts that do not slip can be left out. -/
theorem final_attempts {handshake : NoiseHandshake primitives}
    {attempts : List (Call primitives)}
    (fail : ∀ entry ∈ Trace.history perform handshake attempts,
      Reply.succeeded entry.2 = false)
    (never : handshake.NeverSlips attempts) :
    Trace.final perform handshake attempts = handshake := by
  induction attempts with
  | nil => rfl
  | cons call attempts ih =>
      obtain ⟨noSlip, neverLater⟩ := never
      have failed : Reply.succeeded (handshake.perform call).1 = false :=
        fail (call, _) List.mem_cons_self
      have same := (failureAtomic_iff handshake call).mpr noSlip failed
      rw [Trace.final, same]
      rw [same] at neverLater
      apply ih _ neverLater
      intro entry member
      rw [Trace.history, same] at fail
      exact fail entry (List.mem_cons_of_mem _ member)

theorem final_retried {handshake : NoiseHandshake primitives}
    {steps : List (Retried primitives)} (fail : handshake.AttemptsFail steps)
    (never : handshake.NeverSlips (allCalls steps)) :
    Trace.final perform handshake (allCalls steps) =
      Trace.final perform handshake (steps.map Prod.snd) := by
  induction steps generalizing handshake with
  | nil => rfl
  | cons step steps ih =>
      obtain ⟨attempts, call⟩ := step
      obtain ⟨failNow, failLater⟩ := fail
      rw [allCalls_cons] at never ⊢
      obtain ⟨neverNow, neverLater⟩ := neverSlips_append.mp never
      have same := final_attempts failNow neverNow
      rw [same] at neverLater failLater
      rw [Trace.final_append, same]
      exact ih failLater neverLater.2

/-- The messages as they go over the wire. -/
def Exchange.firstMessage (exchange : Exchange primitives) : Bytes :=
  (primitives.publicKey exchange.initiatorEphemeral).toList ++
    exchange.first.payload

def Exchange.secondMessage (exchange : Exchange primitives) : Bytes :=
  (primitives.publicKey exchange.responderEphemeral).toList ++
    (primitives.publicKey exchange.responderStatic).toList ++
    exchange.second.payload

def Exchange.thirdMessage (exchange : Exchange primitives) : Bytes :=
  (primitives.publicKey exchange.initiatorStatic).toList ++
    exchange.third.payload

/-- The three calls of each end that go through. -/
def Exchange.initiatorCalls (exchange : Exchange primitives) :
    List (Call primitives) :=
  [.write exchange.initiatorEphemeral exchange.first.payload
      exchange.first.message,
    .read exchange.secondMessage exchange.second.received,
    .write exchange.initiatorEphemeral exchange.third.payload
      exchange.third.message]

def Exchange.responderCalls (exchange : Exchange primitives) :
    List (Call primitives) :=
  [.read exchange.firstMessage exchange.first.received,
    .write exchange.responderEphemeral exchange.second.payload
      exchange.second.message,
    .read exchange.thirdMessage exchange.third.received]

theorem Exchange.final_initiatorCalls (exchange : Exchange primitives) :
    Trace.final perform (newInitiator exchange.initiatorStatic)
        exchange.initiatorCalls =
      exchange.ending .initiator exchange.initiatorStatic
        exchange.initiatorEphemeral exchange.responderStatic
        exchange.responderEphemeral := by
  simp only [Trace.final, Exchange.initiatorCalls, Exchange.secondMessage,
    newInitiator, newWithRole, perform, writeMessage, readMessage,
    writeInitiatorFirstMessage_eq _ _ exchange.first.messageFits,
    readResponderSecondMessage_eq _ _ _ exchange.second.receivedFits,
    writeInitiatorThirdMessage_eq _ exchange.initiatorStatic
      exchange.third.messageFits]
  rfl

theorem Exchange.final_responderCalls (exchange : Exchange primitives) :
    Trace.final perform (newResponder exchange.responderStatic)
        exchange.responderCalls =
      exchange.ending .responder exchange.responderStatic
        exchange.responderEphemeral exchange.initiatorStatic
        exchange.initiatorEphemeral := by
  simp only [Trace.final, Exchange.responderCalls, Exchange.firstMessage,
    Exchange.thirdMessage, newResponder, newWithRole, perform, writeMessage,
    readMessage,
    readInitiatorFirstMessage_eq _ _ exchange.first.receivedFits,
    writeResponderSecondMessage_eq _ _ exchange.responderStatic
      exchange.second.messageFits,
    readInitiatorThirdMessage_eq _ _ exchange.third.receivedFits]
  rfl

/-- Both ends are done and saw the same transcript. -/
structure EqualEnds (initiator responder : NoiseHandshake primitives) :
    Prop where
  initiatorCompleted : initiator.state = .completed
  responderCompleted : responder.state = .completed
  transcript : initiator.handshakeHash = responder.handshakeHash

theorem neverSlips_of_initiator {handshake : NoiseHandshake primitives}
    (isInitiator : handshake.role = .initiator)
    (calls : List (Call primitives)) : handshake.NeverSlips calls := by
  induction calls generalizing handshake with
  | nil => trivial
  | cons call calls ih =>
      constructor
      · intro slips
        cases call with
        | write ephemeral payload message => exact slips
        | read message payload =>
            have isResponder := slips.1
            rw [isInitiator] at isResponder
            cases isResponder
      · obtain ⟨_, moves, _⟩ := perform_moves handshake call
        apply ih
        rw [moves.role]
        exact isInitiator

/-- A read into a buffer that has room for the payload does not slip. -/
theorem not_slips_of_fits (handshake : NoiseHandshake primitives)
    (point : Point) {payload buffer : Bytes}
    (fits : payload.length ≤ buffer.length) :
    ¬ handshake.Slips (.read (point.toList ++ payload) buffer) := by
  intro slips
  have small := slips.2.2.2
  rw [List.length_append, Vector.length_toList] at small
  omega

theorem Exchange.neverSlips_responderCalls (exchange : Exchange primitives)
    (handshake : NoiseHandshake primitives) :
    handshake.NeverSlips exchange.responderCalls :=
  ⟨not_slips_of_fits _ _ exchange.first.receivedFits, id,
    not_slips_of_fits _ _ exchange.third.receivedFits, trivial⟩

/-- The ends of an exchange with failed attempts agree exactly when no read of
the responder slips. -/
theorem Exchange.equalEnds_iff (exchange : Exchange primitives)
    {initiatorSteps responderSteps : List (Retried primitives)}
    (initiatorGoesOn :
      initiatorSteps.map Prod.snd = exchange.initiatorCalls)
    (responderGoesOn :
      responderSteps.map Prod.snd = exchange.responderCalls)
    (initiatorFails :
      (newInitiator exchange.initiatorStatic).AttemptsFail initiatorSteps)
    (responderFails :
      (newResponder exchange.responderStatic).AttemptsFail responderSteps) :
    EqualEnds
        (Trace.final perform (newInitiator exchange.initiatorStatic)
          (allCalls initiatorSteps))
        (Trace.final perform (newResponder exchange.responderStatic)
          (allCalls responderSteps)) ↔
      (newResponder exchange.responderStatic).NeverSlips
        (allCalls responderSteps) := by
  have initiatorEnd := final_retried initiatorFails
    (neverSlips_of_initiator rfl (allCalls initiatorSteps))
  rw [initiatorGoesOn, exchange.final_initiatorCalls] at initiatorEnd
  constructor
  · intro equal
    have start : Follows 0 (newResponder exchange.responderStatic)
        (newResponder exchange.responderStatic) := ⟨rfl, rfl⟩
    have atomic := exchange.neverSlips_responderCalls
      (newResponder exchange.responderStatic)
    rw [← responderGoesOn] at atomic
    obtain ⟨more, follows, exact⟩ :=
      follows_retried start responderSteps responderFails atomic
    apply exact.mp
    have lengths := follows.length
    rw [responderGoesOn, exchange.final_responderCalls,
      ← equal.transcript, initiatorEnd] at lengths
    change exchange.transcript.length =
      exchange.transcript.length + (0 + more) at lengths
    omega
  · intro never
    have responderEnd := final_retried responderFails never
    rw [responderGoesOn, exchange.final_responderCalls] at responderEnd
    rw [initiatorEnd, responderEnd]
    exact ⟨rfl, rfl, rfl⟩

/-- A call that fails changes nothing exactly when it does not slip, and an
exchange in which failed calls are made again completes with equal transcripts
exactly when no call of the responder slips. -/
theorem handshake_errors_atomic_iff (primitives : Primitives) :
    (∀ (handshake : NoiseHandshake primitives) (call : Call primitives),
        handshake.FailureAtomic call ↔ ¬ handshake.Slips call) ∧
      ∀ (exchange : Exchange primitives)
        (initiatorSteps responderSteps : List (Retried primitives)),
        initiatorSteps.map Prod.snd = exchange.initiatorCalls →
        responderSteps.map Prod.snd = exchange.responderCalls →
        (newInitiator exchange.initiatorStatic).AttemptsFail initiatorSteps →
        (newResponder exchange.responderStatic).AttemptsFail responderSteps →
          (EqualEnds
              (Trace.final perform (newInitiator exchange.initiatorStatic)
                (allCalls initiatorSteps))
              (Trace.final perform (newResponder exchange.responderStatic)
                (allCalls responderSteps)) ↔
            (newResponder exchange.responderStatic).NeverSlips
              (allCalls responderSteps)) := by
  refine ⟨failureAtomic_iff, ?_⟩
  intro exchange initiatorSteps responderSteps initiatorGoesOn responderGoesOn
    initiatorFails responderFails
  exact exchange.equalEnds_iff initiatorGoesOn responderGoesOn initiatorFails
    responderFails

/-- Each end first tries a buffer or a message that is too short. -/
def sampleInitiatorSteps : List (Retried samplePrimitives) :=
  [([.write false [1, 2] (List.replicate 33 0)],
      .write false [1, 2] (List.replicate 40 0)),
    ([], .read sampleExchange.secondMessage (List.replicate 8 0)),
    ([], .write false [] (List.replicate 32 0))]

def sampleResponderSteps : List (Retried samplePrimitives) :=
  [([.read (List.replicate 31 0) []],
      .read sampleExchange.firstMessage (List.replicate 8 0)),
    ([], .write true [3] (List.replicate 72 0)),
    ([], .read sampleExchange.thirdMessage [])]

theorem handshake_errors_atomic_sample :
    EqualEnds
      (Trace.final perform (newInitiator sampleExchange.initiatorStatic)
        (allCalls sampleInitiatorSteps))
      (Trace.final perform (newResponder sampleExchange.responderStatic)
        (allCalls sampleResponderSteps)) := by
  have initiatorFails : (newInitiator
      sampleExchange.initiatorStatic).AttemptsFail sampleInitiatorSteps := by
    refine ⟨?_, ?_, ?_, trivial⟩ <;>
      simp [Trace.history, perform, writeMessage, newInitiator, newWithRole,
        writeInitiatorFirstMessage, Reply.succeeded, Except.isOk,
        Except.toBool]
  have responderFails : (newResponder
      sampleExchange.responderStatic).AttemptsFail sampleResponderSteps := by
    refine ⟨?_, ?_, ?_, trivial⟩ <;>
      simp [Trace.history, perform, readMessage, newResponder, newWithRole,
        readInitiatorFirstMessage, Reply.succeeded, Except.isOk,
        Except.toBool]
  apply ((handshake_errors_atomic_iff samplePrimitives).2 sampleExchange
    sampleInitiatorSteps sampleResponderSteps rfl rfl initiatorFails
    responderFails).mpr
  refine ⟨?_, sampleExchange.neverSlips_responderCalls _⟩
  intro slips
  have long := slips.2.2.1
  rw [List.length_replicate] at long
  omega

/-- The responder tries the first message with an empty buffer: the key stays
in its transcript, and the retry ends in unequal transcripts. -/
theorem failed_read_extends_transcript :
    ¬ (newResponder sampleExchange.responderStatic).FailureAtomic
        (.read sampleExchange.firstMessage []) ∧
      ¬ EqualEnds
        (Trace.final perform (newInitiator sampleExchange.initiatorStatic)
          sampleExchange.initiatorCalls)
        (Trace.final perform (newResponder sampleExchange.responderStatic)
          (.read sampleExchange.firstMessage [] ::
            sampleExchange.responderCalls)) := by
  have slips : (newResponder sampleExchange.responderStatic).Slips
      (.read sampleExchange.firstMessage []) := by
    refine ⟨rfl, rfl, ?_, ?_⟩ <;>
      simp [Exchange.firstMessage, sampleExchange]
  constructor
  · intro atomic
    exact (failureAtomic_iff _ _).mp atomic slips
  · intro equal
    have initiatorFails : (newInitiator
        sampleExchange.initiatorStatic).AttemptsFail
          (sampleExchange.initiatorCalls.map (fun call => ([], call))) := by
      refine ⟨?_, ?_, ?_, trivial⟩ <;> simp [Trace.history]
    have responderFails : (newResponder
        sampleExchange.responderStatic).AttemptsFail
          [([.read sampleExchange.firstMessage []],
              .read sampleExchange.firstMessage
                sampleExchange.first.received),
            ([], .write sampleExchange.responderEphemeral
              sampleExchange.second.payload sampleExchange.second.message),
            ([], .read sampleExchange.thirdMessage
              sampleExchange.third.received)] := by
      refine ⟨?_, ?_, ?_, trivial⟩
      · intro entry member
        rw [List.mem_singleton.mp member]
        exact (perform_of_slips _ slips).1
      · simp [Trace.history]
      · simp [Trace.history]
    have never := (sampleExchange.equalEnds_iff rfl rfl initiatorFails
      responderFails).mp equal
    exact never.1 slips

end NoiseHandshake

end NyxNet.Crypto
