import NyxNet.Crypto.Noise

/-!
# The XX pattern as an automaton

Every call either fails and stays in its state or takes one of the six
transitions of the XX pattern.  What a run has done so far is therefore a
prefix of its role's script, and the chaining key is never touched.
-/

namespace NyxNet.Crypto

namespace NoiseHandshake

variable {primitives : Primitives}

inductive Direction where
  | write
  | read
  deriving DecidableEq, Repr

/-- One call of the handshake API. -/
inductive Call (primitives : Primitives) where
  | write (ephemeral : primitives.Secret) (payload message : Bytes)
  | read (message payload : Bytes)

def Call.direction : Call primitives → Direction
  | .write _ _ _ => .write
  | .read _ _ => .read

def perform (handshake : NoiseHandshake primitives) :
    Call primitives → Reply × NoiseHandshake primitives
  | .write ephemeral payload message =>
      handshake.writeMessage ephemeral payload message
  | .read message payload => handshake.readMessage message payload

def Reply.succeeded (reply : Reply) : Bool := reply.1.isOk

/-- The transitions of the XX pattern. -/
inductive Transition : Role → HandshakeState → Direction → HandshakeState →
    Prop where
  | sendFirst : Transition .initiator .initial .write .initiatorSentFirst
  | receiveFirst :
      Transition .responder .initial .read .responderReceivedFirst
  | sendSecond : Transition .responder .responderReceivedFirst .write
      .responderSentSecond
  | receiveSecond : Transition .initiator .initiatorSentFirst .read
      .initiatorReceivedSecond
  | sendThird :
      Transition .initiator .initiatorReceivedSecond .write .completed
  | receiveThird :
      Transition .responder .responderSentSecond .read .completed

/-- A call that moves to `target` when it succeeds and touches neither the
role nor the chaining key. -/
structure Moves (target : HandshakeState)
    (before : NoiseHandshake primitives)
    (outcome : Reply × NoiseHandshake primitives) : Prop where
  role : outcome.2.role = before.role
  chainingKey : outcome.2.chainingKey = before.chainingKey
  state : outcome.2.state =
    if Reply.succeeded outcome.1 then target else before.state

variable (handshake : NoiseHandshake primitives)

theorem writeInitiatorFirstMessage_moves (ephemeral : primitives.Secret)
    (payload message : Bytes) :
    Moves .initiatorSentFirst handshake
      (handshake.writeInitiatorFirstMessage ephemeral payload message) := by
  unfold writeInitiatorFirstMessage
  split
  · exact ⟨rfl, rfl, rfl⟩
  · exact ⟨rfl, rfl, rfl⟩

theorem readInitiatorFirstMessage_moves (message payload : Bytes) :
    Moves .responderReceivedFirst handshake
      (handshake.readInitiatorFirstMessage message payload) := by
  unfold readInitiatorFirstMessage
  split
  · exact ⟨rfl, rfl, rfl⟩
  · dsimp only
    split
    · exact ⟨rfl, rfl, rfl⟩
    · exact ⟨rfl, rfl, rfl⟩

theorem writeResponderSecondMessage_moves (ephemeral : primitives.Secret)
    (payload message : Bytes) :
    Moves .responderSentSecond handshake
      (handshake.writeResponderSecondMessage ephemeral payload message) := by
  unfold writeResponderSecondMessage
  split
  · exact ⟨rfl, rfl, rfl⟩
  · dsimp only
    split
    · exact ⟨rfl, rfl, rfl⟩
    · exact ⟨rfl, rfl, rfl⟩

theorem readResponderSecondMessage_moves (message payload : Bytes) :
    Moves .initiatorReceivedSecond handshake
      (handshake.readResponderSecondMessage message payload) := by
  unfold readResponderSecondMessage
  split
  · exact ⟨rfl, rfl, rfl⟩
  · dsimp only
    split
    · exact ⟨rfl, rfl, rfl⟩
    · exact ⟨rfl, rfl, rfl⟩

theorem writeInitiatorThirdMessage_moves (payload message : Bytes) :
    Moves .completed handshake
      (handshake.writeInitiatorThirdMessage payload message) := by
  unfold writeInitiatorThirdMessage
  split
  · exact ⟨rfl, rfl, rfl⟩
  · split
    · exact ⟨rfl, rfl, rfl⟩
    · exact ⟨rfl, rfl, rfl⟩

theorem readInitiatorThirdMessage_moves (message payload : Bytes) :
    Moves .completed handshake
      (handshake.readInitiatorThirdMessage message payload) := by
  unfold readInitiatorThirdMessage
  split
  · exact ⟨rfl, rfl, rfl⟩
  · dsimp only
    split
    · exact ⟨rfl, rfl, rfl⟩
    · exact ⟨rfl, rfl, rfl⟩

theorem writeMessage_moves (ephemeral : primitives.Secret)
    (payload message : Bytes) :
    ∃ target, Moves target handshake
        (handshake.writeMessage ephemeral payload message) ∧
      (Reply.succeeded (handshake.writeMessage ephemeral payload message).1 =
        true → Transition handshake.role handshake.state .write target) := by
  unfold writeMessage
  split
  · rename_i role state
    rw [role, state]
    exact ⟨_, writeInitiatorFirstMessage_moves _ _ _ _, fun _ => .sendFirst⟩
  · rename_i role state
    rw [role, state]
    exact ⟨_, writeResponderSecondMessage_moves _ _ _ _, fun _ => .sendSecond⟩
  · rename_i role state
    rw [role, state]
    exact ⟨_, writeInitiatorThirdMessage_moves _ _ _, fun _ => .sendThird⟩
  · refine ⟨handshake.state, ⟨rfl, rfl, rfl⟩, ?_⟩
    intro impossible
    cases impossible

theorem readMessage_moves (message payload : Bytes) :
    ∃ target, Moves target handshake
        (handshake.readMessage message payload) ∧
      (Reply.succeeded (handshake.readMessage message payload).1 = true →
        Transition handshake.role handshake.state .read target) := by
  unfold readMessage
  split
  · rename_i role state
    rw [role, state]
    exact ⟨_, readInitiatorFirstMessage_moves _ _ _, fun _ => .receiveFirst⟩
  · rename_i role state
    rw [role, state]
    exact ⟨_, readResponderSecondMessage_moves _ _ _, fun _ => .receiveSecond⟩
  · rename_i role state
    rw [role, state]
    exact ⟨_, readInitiatorThirdMessage_moves _ _ _, fun _ => .receiveThird⟩
  · refine ⟨handshake.state, ⟨rfl, rfl, rfl⟩, ?_⟩
    intro impossible
    cases impossible

/-- A call refines the automaton: it takes a transition or stays. -/
theorem perform_moves (call : Call primitives) :
    ∃ target, Moves target handshake (handshake.perform call) ∧
      (Reply.succeeded (handshake.perform call).1 = true →
        Transition handshake.role handshake.state call.direction target) := by
  cases call with
  | write ephemeral payload message =>
      exact writeMessage_moves handshake ephemeral payload message
  | read message payload => exact readMessage_moves handshake message payload

/-- The three steps of a role, in order. -/
def script : Role → List Direction
  | .initiator => [.write, .read, .write]
  | .responder => [.read, .write, .read]

/-- How many steps of the script lead to a state. -/
def stage : HandshakeState → Nat
  | .initial => 0
  | .initiatorSentFirst => 1
  | .responderReceivedFirst => 1
  | .responderSentSecond => 2
  | .initiatorReceivedSecond => 2
  | .completed => 3

/-- The directions of the calls that succeeded, in order. -/
def successes (past : List (Call primitives × Reply)) : List Direction :=
  (past.filter (fun entry => Reply.succeeded entry.2)).map
    (fun entry => entry.1.direction)

theorem Transition.advances {role : Role} {before after : HandshakeState}
    {direction : Direction}
    (transition : Transition role before direction after) :
    stage after = stage before + 1 ∧
      (script role)[stage before]? = some direction := by
  cases transition <;> exact ⟨rfl, rfl⟩

/-- A run has done the first steps of its script and nothing else. -/
structure Progress (role : Role) (past : List (Call primitives × Reply))
    (handshake : NoiseHandshake primitives) : Prop where
  role_eq : handshake.role = role
  chainingKey_eq :
    handshake.chainingKey = primitives.blake3 protocolName
  done : successes past = (script role).take (stage handshake.state)

theorem progress_new (role : Role) (localStatic : primitives.Secret) :
    Progress role [] (newWithRole role localStatic) :=
  ⟨rfl, rfl, rfl⟩

theorem progress_perform {role : Role}
    {past : List (Call primitives × Reply)}
    {handshake : NoiseHandshake primitives}
    (holds : Progress role past handshake) (call : Call primitives) :
    Progress role (past ++ [(call, (handshake.perform call).1)])
      (handshake.perform call).2 := by
  obtain ⟨target, moves, allowed⟩ := perform_moves handshake call
  constructor
  · rw [moves.role]
    exact holds.role_eq
  · rw [moves.chainingKey]
    exact holds.chainingKey_eq
  · cases succeeded : Reply.succeeded (handshake.perform call).1 with
    | false =>
        have state := moves.state
        rw [succeeded] at state
        simpa [successes, succeeded, state] using holds.done
    | true =>
        have state := moves.state
        rw [succeeded, if_pos rfl] at state
        obtain ⟨advanced, next⟩ := (allowed succeeded).advances
        rw [holds.role_eq] at next
        have done := holds.done
        unfold successes at done ⊢
        rw [state, advanced, List.take_add_one, next, ← done]
        simp [succeeded]

theorem progress_run (role : Role) (localStatic : primitives.Secret)
    (calls : List (Call primitives)) :
    Progress role
      (Trace.history perform (newWithRole role localStatic) calls)
      (Trace.final perform (newWithRole role localStatic) calls) := by
  apply Trace.invariant (progress_new role localStatic)
  intro past handshake call holds
  exact progress_perform holds call

theorem take_script_eq_iff (role : Role) (state : HandshakeState) :
    (script role).take (stage state) = script role ↔
      state = .completed := by
  cases role <;> cases state <;> decide

theorem completed_iff_successes {role : Role}
    {past : List (Call primitives × Reply)}
    {handshake : NoiseHandshake primitives}
    (holds : Progress role past handshake) :
    handshake.state = .completed ↔ successes past = script role := by
  rw [holds.done, take_script_eq_iff]

theorem intoTransportMode_isOk_iff (handshake : NoiseHandshake primitives) :
    (∃ transport, handshake.intoTransportMode = .ok transport) ↔
      handshake.state = .completed := by
  unfold intoTransportMode isCompleted
  by_cases completed : handshake.state = .completed
  · cases role : handshake.role <;> simp [completed]
  · simp [completed]

end NoiseHandshake

end NyxNet.Crypto
