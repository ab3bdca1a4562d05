import NyxNet.Lib.TaskPool
import NyxNet.Stream.FrameHeader
import Mathlib.Logic.Function.Basic

/-!
# Path validation

`nyx-transport/src/path_validation.rs`: a validator challenges an address with
a random token and waits for the response, retrying a few times.  Calls of
`validate_path` and `wait_validation`, the detached retry loops and inbound
datagrams are tasks over one table of entries; one turn is what a task does
under one acquisition of the table's lock, or one datagram it sends.

A `Notify` is a number, and `calls` counts its `notify_waiters`.  A future made
by `notified()` remembers the count it was made at and is ready once the count
has moved on, so `notify_waiters` wakes exactly the futures that already exist.
-/

namespace NyxNet.PathValidation

open ByteParser NyxNet.Stream TaskPool

def framePathChallenge : UInt8 := 0x33

def framePathResponse : UInt8 := 0x34

def maxRetries : Nat := 3

def tokenLen : Nat := 16

abbrev Token := Vector UInt8 16

/-- `parse_path_challenge_frame` and `parse_path_response_frame`: both take a
token. -/
def parseToken : Parser Token := fun input => do
  let (input, bytes) ← take tokenLen input
  return (input, Vector.ofFn (fun index : Fin 16 => bytes.getD index 0))

def parsePathChallengeFrame : Parser Token := parseToken

def parsePathResponseFrame : Parser Token := parseToken

/-- A Control packet with one management frame. -/
def controlPacket (frameType : UInt8) (token : Token) : Bytes :=
  let payload := frameType :: token.toList
  (buildHeader
    { frameType := 1, flags := 0
      length := UInt16.ofNat payload.length }).toList ++ payload

def challengePacket (token : Token) : Bytes :=
  controlPacket framePathChallenge token

def responsePacket (token : Token) : Bytes :=
  controlPacket framePathResponse token

inductive Incoming where
  | ignored
  | challenge (token : Token)
  | response (token : Token)
  deriving DecidableEq

/-- What `process_incoming` makes of a datagram before it touches the table. -/
def readIncoming (data : Bytes) : Incoming :=
  match parseHeaderExt data with
  | .error _ => .ignored
  | .ok (payload, parsed) =>
      if parsed.hdr.frameType ≠ 1 then .ignored
      else
        match payload with
        | [] => .ignored
        | frameType :: payload =>
            if frameType = framePathChallenge then
              match parsePathChallengeFrame payload with
              | .ok (_, token) => .challenge token
              | .error _ => .ignored
            else if frameType = framePathResponse then
              match parsePathResponseFrame payload with
              | .ok (_, token) => .response token
              | .error _ => .ignored
            else .ignored

/-- A Control datagram that carries a PATH_RESPONSE with this token. -/
def CarriesResponse (data : Bytes) (token : Token) : Prop :=
  ∃ payload parsed rest, parseHeaderExt data = .ok (payload, parsed) ∧
    parsed.hdr.frameType = 1 ∧
      payload = framePathResponse :: (token.toList ++ rest)

theorem parseToken_eq_ok_iff {input rest : Bytes} {token : Token} :
    parseToken input = .ok (rest, token) ↔ input = token.toList ++ rest := by
  rw [parseToken, bind_eq_ok_iff]
  constructor
  · intro facts
    obtain ⟨⟨rest', bytes⟩, taken, ⟨⟩⟩ := facts
    obtain ⟨rfl, length⟩ := take_eq_ok_iff.mp taken
    refine congrArg (fun front => front ++ rest) ?_
    apply List.ext_getElem
    · rw [length]
      simp [tokenLen]
    · intro index inBytes inToken
      simp [inBytes]
  · intro equality
    subst equality
    refine ⟨(rest, token.toList), ?_, ?_⟩
    · exact take_eq_ok_iff.mpr ⟨rfl, Vector.length_toList⟩
    · have same : Vector.ofFn
          (fun index : Fin 16 => token.toList.getD index 0) = token := by
        ext index inRange
        simp
      simp only [same]
      rfl

theorem readIncoming_eq_response_iff {data : Bytes} {token : Token} :
    readIncoming data = .response token ↔ CarriesResponse data token := by
  constructor
  · intro reads
    rw [readIncoming] at reads
    split at reads
    · cases reads
    · next payload parsed headerRead =>
        split at reads
        · cases reads
        · next control =>
            split at reads
            · cases reads
            · next frameType payload =>
                split at reads
                · split at reads
                  · cases reads
                  · cases reads
                · split at reads
                  · next isResponse =>
                      split at reads
                      · next rest found tokenRead =>
                          cases reads
                          refine ⟨_, parsed, rest, headerRead,
                            not_not.mp control, ?_⟩
                          rw [isResponse, parseToken_eq_ok_iff.mp tokenRead]
                      · cases reads
                  · cases reads
  · intro carries
    obtain ⟨payload, parsed, rest, headerRead, control, rfl⟩ := carries
    have tokenRead : parsePathResponseFrame (token.toList ++ rest) =
        .ok (rest, token) := parseToken_eq_ok_iff.mpr rfl
    have different : framePathResponse ≠ framePathChallenge := by decide
    simp [readIncoming, headerRead, control, different, tokenRead]

private theorem headerRead_controlPacket (frameType : UInt8) (token : Token) :
    parseHeaderExt (controlPacket frameType token) =
      .ok (frameType :: token.toList,
        { hdr := { frameType := 1, flags := 0, length := 17 }
          pathId := none }) := by
  have length : (frameType :: token.toList).length = 17 := by simp
  rw [controlPacket]
  simp only [length]
  have inRange : FrameHeader.InRange ⟨1, 0, 17⟩ := by constructor <;> decide
  exact FrameHeader.parseHeaderExt_build inRange none
    (frameType :: token.toList) (by decide)

@[simp] theorem readIncoming_challengePacket (token : Token) :
    readIncoming (challengePacket token) = .challenge token := by
  have tokenRead : parsePathChallengeFrame token.toList = .ok ([], token) :=
    parseToken_eq_ok_iff.mpr (List.append_nil _).symm
  simp [readIncoming, challengePacket, headerRead_controlPacket, tokenRead]

@[simp] theorem readIncoming_responsePacket (token : Token) :
    readIncoming (responsePacket token) = .response token := by
  refine readIncoming_eq_response_iff.mpr ?_
  exact ⟨_, _, [], headerRead_controlPacket framePathResponse token, rfl,
    by rw [List.append_nil]⟩

structure Entry where
  token : Token
  retriesLeft : Nat
  validated : Bool
  waker : Nat
  deriving DecidableEq

structure Validator (α : Type) where
  entries : α → Option Entry
  calls : List Nat

inductive ValidatePhase where
  | checking
  | inserting
  | sending (token : Token)
  | returned
  deriving DecidableEq

inductive RetryPhase where
  | sleeping
  | removing
  | sending (token : Token)
  | ended
  deriving DecidableEq

inductive WaitPhase where
  | looking
  | holding (waker : Nat)
  | parked (waker seen : Nat)
  | returned (result : Bool)
  deriving DecidableEq

inductive Task (α : Type) where
  | validatePath (addr : α) (phase : ValidatePhase)
  | retryLoop (addr : α) (phase : RetryPhase)
  | waitValidation (addr : α) (phase : WaitPhase)
  | handlePacket (src : α) (data : Bytes) (handled : Bool)
  deriving DecidableEq

inductive Request (α : Type) where
  | validatePath (addr : α)
  | waitValidation (addr : α)
  | handlePacket (src : α) (data : Bytes)
  deriving DecidableEq

/-- `looked` carries the result when the wait is over, `processed` whether the
datagram validated the entry, and `failed` stands for the recorded
`PathValidationFailed`. -/
inductive Event (α : Type) where
  | checked (addr : α)
  | inserted (addr : α) (token : Token)
  | sent (addr : α) (packet : Bytes)
  | ticked (addr : α)
  | failed (addr : α)
  | removed (addr : α)
  | looked (addr : α) (result : Option Bool)
  | registered (addr : α)
  | woken (addr : α)
  | processed (src : α) (data : Bytes) (matched : Bool)
  deriving DecidableEq

variable {α : Type} [DecidableEq α]

namespace Validator

def new : Validator α :=
  { entries := fun _ => none, calls := [] }

def setEntry (validator : Validator α) (addr : α) (entry : Option Entry) :
    Validator α :=
  { validator with entries := Function.update validator.entries addr entry }

def notifyWaiters (validator : Validator α) (waker : Nat) : Validator α :=
  { validator with calls := validator.calls.modify waker (· + 1) }

/-- The new entry gets a `Notify` of its own. -/
def insert (validator : Validator α) (addr : α) (token : Token) :
    Validator α :=
  { entries := Function.update validator.entries addr (some
      { token, retriesLeft := maxRetries, validated := false
        waker := validator.calls.length })
    calls := validator.calls ++ [0] }

def callsOf (validator : Validator α) (waker : Nat) : Nat :=
  validator.calls.getD waker 0

end Validator

abbrev ValidatorTurn (α : Type) := Turn (Validator α) (Task α) (Event α)

/-- The loop sleeps before its first look at the table, so spawning it in the
turn of the insertion leaves out no order of lock acquisitions. -/
def validatePathTurn (validator : Validator α) (addr : α) (token : Token) :
    ValidatePhase → Option (ValidatorTurn α)
  | .checking =>
      let phase :=
        match validator.entries addr with
        | some entry => if entry.validated then .returned else .inserting
        | none => .inserting
      some ⟨.checked addr, validator, .validatePath addr phase, []⟩
  | .inserting =>
      some ⟨.inserted addr token, validator.insert addr token,
        .validatePath addr (.sending token), [.retryLoop addr .sleeping]⟩
  | .sending token =>
      some ⟨.sent addr (challengePacket token), validator,
        .validatePath addr .returned, []⟩
  | .returned => none

def retryLoopTurn (validator : Validator α) (addr : α) :
    RetryPhase → Option (ValidatorTurn α)
  | .sleeping =>
      match validator.entries addr with
      | none => some ⟨.ticked addr, validator, .retryLoop addr .ended, []⟩
      | some entry =>
          if entry.validated then
            some ⟨.ticked addr, validator, .retryLoop addr .removing, []⟩
          else if entry.retriesLeft = 0 then
            some ⟨.failed addr, validator.notifyWaiters entry.waker,
              .retryLoop addr .removing, []⟩
          else
            some ⟨.ticked addr,
              validator.setEntry addr
                (some { entry with retriesLeft := entry.retriesLeft - 1 }),
              .retryLoop addr (.sending entry.token), []⟩
  | .removing =>
      some ⟨.removed addr, validator.setEntry addr none,
        .retryLoop addr .ended, []⟩
  | .sending token =>
      some ⟨.sent addr (challengePacket token), validator,
        .retryLoop addr .sleeping, []⟩
  | .ended => none

/-- `wait_validation` reads the entry under the lock and makes its future only
after the lock is released. -/
def waitValidationTurn (validator : Validator α) (addr : α) :
    WaitPhase → Option (ValidatorTurn α)
  | .looking =>
      match validator.entries addr with
      | none =>
          some ⟨.looked addr (some false), validator,
            .waitValidation addr (.returned false), []⟩
      | some entry =>
          if entry.validated then
            some ⟨.looked addr (some true), validator,
              .waitValidation addr (.returned true), []⟩
          else if entry.retriesLeft = 0 then
            some ⟨.looked addr (some false), validator,
              .waitValidation addr (.returned false), []⟩
          else
            some ⟨.looked addr none, validator,
              .waitValidation addr (.holding entry.waker), []⟩
  | .holding waker =>
      some ⟨.registered addr, validator,
        .waitValidation addr (.parked waker (validator.callsOf waker)), []⟩
  | .parked waker seen =>
      if validator.callsOf waker = seen then none
      else some ⟨.woken addr, validator, .waitValidation addr .looking, []⟩
  | .returned _ => none

def handlePacketTurn (validator : Validator α) (src : α) (data : Bytes) :
    Bool → Option (ValidatorTurn α)
  | true => none
  | false =>
      match readIncoming data with
      | .ignored =>
          some ⟨.processed src data false, validator,
            .handlePacket src data true, []⟩
      | .challenge token =>
          some ⟨.sent src (responsePacket token), validator,
            .handlePacket src data true, []⟩
      | .response token =>
          match validator.entries src with
          | none =>
              some ⟨.processed src data false, validator,
                .handlePacket src data true, []⟩
          | some entry =>
              if entry.token = token then
                some ⟨.processed src data true,
                  (validator.setEntry src
                    (some { entry with validated := true })).notifyWaiters
                      entry.waker,
                  .handlePacket src data true, []⟩
              else
                some ⟨.processed src data false, validator,
                  .handlePacket src data true, []⟩

/-- The input of a turn is the token that the random generator would give. -/
def taskTurn (validator : Validator α) (task : Task α) (token : Token) :
    Option (ValidatorTurn α) :=
  match task with
  | .validatePath addr phase => validatePathTurn validator addr token phase
  | .retryLoop addr phase => retryLoopTurn validator addr phase
  | .waitValidation addr phase => waitValidationTurn validator addr phase
  | .handlePacket src data handled =>
      handlePacketTurn validator src data handled

def validatorProgram : Program (Validator α) (Task α) (Request α) Token
    (Event α) where
  launch := fun request =>
    match request with
    | .validatePath addr => .validatePath addr .checking
    | .waitValidation addr => .waitValidation addr .looking
    | .handlePacket src data => .handlePacket src data false
  turn := taskTurn

/-- Everything a turn can do. -/
inductive TaskStep (validator : Validator α) :
    Task α → Token → ValidatorTurn α → Prop where
  | checked (addr : α) (input : Token) (phase : ValidatePhase)
      (next : phase = .inserting ∨ phase = .returned) :
      TaskStep validator (.validatePath addr .checking) input
        ⟨.checked addr, validator, .validatePath addr phase, []⟩
  | inserted (addr : α) (token : Token) :
      TaskStep validator (.validatePath addr .inserting) token
        ⟨.inserted addr token, validator.insert addr token,
          .validatePath addr (.sending token), [.retryLoop addr .sleeping]⟩
  | challenged (addr : α) (input token : Token) :
      TaskStep validator (.validatePath addr (.sending token)) input
        ⟨.sent addr (challengePacket token), validator,
          .validatePath addr .returned, []⟩
  | foundNothing (addr : α) (input : Token)
      (absent : validator.entries addr = none) :
      TaskStep validator (.retryLoop addr .sleeping) input
        ⟨.ticked addr, validator, .retryLoop addr .ended, []⟩
  | foundValidated (addr : α) (input : Token) (entry : Entry)
      (present : validator.entries addr = some entry)
      (validated : entry.validated = true) :
      TaskStep validator (.retryLoop addr .sleeping) input
        ⟨.ticked addr, validator, .retryLoop addr .removing, []⟩
  | foundExhausted (addr : α) (input : Token) (entry : Entry)
      (present : validator.entries addr = some entry)
      (pending : entry.validated = false) (exhausted : entry.retriesLeft = 0) :
      TaskStep validator (.retryLoop addr .sleeping) input
        ⟨.failed addr, validator.notifyWaiters entry.waker,
          .retryLoop addr .removing, []⟩
  | retried (addr : α) (input : Token) (entry : Entry)
      (present : validator.entries addr = some entry)
      (pending : entry.validated = false) (left : entry.retriesLeft ≠ 0) :
      TaskStep validator (.retryLoop addr .sleeping) input
        ⟨.ticked addr,
          validator.setEntry addr
            (some { entry with retriesLeft := entry.retriesLeft - 1 }),
          .retryLoop addr (.sending entry.token), []⟩
  | removed (addr : α) (input : Token) :
      TaskStep validator (.retryLoop addr .removing) input
        ⟨.removed addr, validator.setEntry addr none,
          .retryLoop addr .ended, []⟩
  | rechallenged (addr : α) (input token : Token) :
      TaskStep validator (.retryLoop addr (.sending token)) input
        ⟨.sent addr (challengePacket token), validator,
          .retryLoop addr .sleeping, []⟩
  | finished (addr : α) (input : Token) (result : Bool)
      (found : match validator.entries addr with
        | none => result = false
        | some entry => entry.validated = result ∧
            (result = false → entry.retriesLeft = 0)) :
      TaskStep validator (.waitValidation addr .looking) input
        ⟨.looked addr (some result), validator,
          .waitValidation addr (.returned result), []⟩
  | keptWaiting (addr : α) (input : Token) (entry : Entry)
      (present : validator.entries addr = some entry)
      (pending : entry.validated = false) (left : entry.retriesLeft ≠ 0) :
      TaskStep validator (.waitValidation addr .looking) input
        ⟨.looked addr none, validator,
          .waitValidation addr (.holding entry.waker), []⟩
  | registered (addr : α) (input : Token) (waker : Nat) :
      TaskStep validator (.waitValidation addr (.holding waker)) input
        ⟨.registered addr, validator,
          .waitValidation addr (.parked waker (validator.callsOf waker)), []⟩
  | woken (addr : α) (input : Token) (waker seen : Nat)
      (moved : validator.callsOf waker ≠ seen) :
      TaskStep validator (.waitValidation addr (.parked waker seen)) input
        ⟨.woken addr, validator, .waitValidation addr .looking, []⟩
  | unmatched (src : α) (input : Token) (data : Bytes)
      (different : ∀ token entry, readIncoming data = .response token →
        validator.entries src = some entry → entry.token ≠ token) :
      TaskStep validator (.handlePacket src data false) input
        ⟨.processed src data false, validator, .handlePacket src data true, []⟩
  | responded (src : α) (input : Token) (data : Bytes) (token : Token)
      (challenge : readIncoming data = .challenge token) :
      TaskStep validator (.handlePacket src data false) input
        ⟨.sent src (responsePacket token), validator,
          .handlePacket src data true, []⟩
  | matched (src : α) (input : Token) (data : Bytes) (entry : Entry)
      (response : readIncoming data = .response entry.token)
      (present : validator.entries src = some entry) :
      TaskStep validator (.handlePacket src data false) input
        ⟨.processed src data true,
          (validator.setEntry src
            (some { entry with validated := true })).notifyWaiters entry.waker,
          .handlePacket src data true, []⟩

theorem retryLoopTurn_step {validator : Validator α} {addr : α}
    {phase : RetryPhase} (input : Token) {turn : ValidatorTurn α}
    (taken : retryLoopTurn validator addr phase = some turn) :
    TaskStep validator (.retryLoop addr phase) input turn := by
  cases phase with
  | sleeping =>
      rw [retryLoopTurn] at taken
      split at taken
      · next absent =>
          cases taken
          exact .foundNothing addr input absent
      · next entry present =>
          split at taken
          · next validated =>
              cases taken
              exact .foundValidated addr input entry present validated
          · next pending =>
              rw [Bool.not_eq_true] at pending
              split at taken
              · next exhausted =>
                  cases taken
                  exact .foundExhausted addr input entry present pending
                    exhausted
              · next left =>
                  cases taken
                  exact .retried addr input entry present pending left
  | removing =>
      cases taken
      exact .removed addr input
  | sending token =>
      cases taken
      exact .rechallenged addr input token
  | ended => cases taken

theorem waitValidationTurn_step {validator : Validator α} {addr : α}
    {phase : WaitPhase} (input : Token) {turn : ValidatorTurn α}
    (taken : waitValidationTurn validator addr phase = some turn) :
    TaskStep validator (.waitValidation addr phase) input turn := by
  cases phase with
  | looking =>
      rw [waitValidationTurn] at taken
      split at taken
      · next absent =>
          cases taken
          exact .finished addr input false (by simp [absent])
      · next entry present =>
          split at taken
          · next validated =>
              cases taken
              exact .finished addr input true (by simp [present, validated])
          · next pending =>
              rw [Bool.not_eq_true] at pending
              split at taken
              · next exhausted =>
                  cases taken
                  exact .finished addr input false
                    (by simp [present, pending, exhausted])
              · next left =>
                  cases taken
                  exact .keptWaiting addr input entry present pending left
  | holding waker =>
      cases taken
      exact .registered addr input waker
  | parked waker seen =>
      rw [waitValidationTurn] at taken
      split at taken
      · cases taken
      · next moved =>
          cases taken
          exact .woken addr input waker seen moved
  | returned result => cases taken

theorem handlePacketTurn_step {validator : Validator α} {src : α}
    {data : Bytes} {handled : Bool} (input : Token) {turn : ValidatorTurn α}
    (taken : handlePacketTurn validator src data handled = some turn) :
    TaskStep validator (.handlePacket src data handled) input turn := by
  cases handled with
  | true => cases taken
  | false =>
      rw [handlePacketTurn] at taken
      split at taken
      · next ignored =>
          cases taken
          exact .unmatched src input data (by simp [ignored])
      · next token challenge =>
          cases taken
          exact .responded src input data token challenge
      · next token response =>
          split at taken
          · next absent =>
              cases taken
              exact .unmatched src input data (by simp [absent])
          · next entry present =>
              split at taken
              · next same =>
                  cases taken
                  rw [← same] at response
                  exact .matched src input data entry response present
              · next different =>
                  cases taken
                  refine .unmatched src input data ?_
                  intro other found reads foundAt
                  rw [response] at reads
                  rw [present] at foundAt
                  cases reads
                  cases foundAt
                  exact different

theorem taskTurn_step {validator : Validator α} {task : Task α}
    {input : Token} {turn : ValidatorTurn α}
    (taken : taskTurn validator task input = some turn) :
    TaskStep validator task input turn := by
  cases task with
  | validatePath addr phase =>
      cases phase with
      | checking =>
          cases taken
          refine .checked addr input _ ?_
          split
          · next entry _ =>
              cases entry.validated with
              | false => exact Or.inl rfl
              | true => exact Or.inr rfl
          · exact Or.inl rfl
      | inserting =>
          cases taken
          exact .inserted addr input
      | sending token =>
          cases taken
          exact .challenged addr input token
      | returned => cases taken
  | retryLoop addr phase => exact retryLoopTurn_step input taken
  | waitValidation addr phase => exact waitValidationTurn_step input taken
  | handlePacket src data handled => exact handlePacketTurn_step input taken

abbrev ValidatorPool (α : Type) := Pool (Validator α) (Task α)

abbrev ValidatorAction (α : Type) := Action (Request α) Token

abbrev ValidatorPast (α : Type) := Past (Request α) Token (Event α)

def validatorStart : ValidatorPool α :=
  { shared := .new, tasks := [] }

def validatorHistory (actions : List (ValidatorAction α)) :
    ValidatorPast α :=
  Trace.history (perform validatorProgram) validatorStart actions

def validatorFinal (actions : List (ValidatorAction α)) : ValidatorPool α :=
  Trace.final (perform validatorProgram) validatorStart actions

@[simp] theorem entries_setEntry (validator : Validator α) (addr other : α)
    (entry : Option Entry) :
    (validator.setEntry addr entry).entries other =
      if other = addr then entry else validator.entries other := by
  rw [Validator.setEntry]
  exact Function.update_apply validator.entries addr entry other

@[simp] theorem entries_insert (validator : Validator α) (addr other : α)
    (token : Token) :
    (validator.insert addr token).entries other =
      if other = addr then
        some ⟨token, maxRetries, false, validator.calls.length⟩
      else validator.entries other := by
  rw [Validator.insert]
  exact Function.update_apply validator.entries addr _ other

omit [DecidableEq α] in
@[simp] theorem entries_notifyWaiters (validator : Validator α) (waker : Nat) :
    (validator.notifyWaiters waker).entries = validator.entries := rfl

/-- Where an entry of the table comes from: this very turn inserts it, or it
was there with the same token and is validated only by a matching response. -/
theorem entry_after_step {validator : Validator α} {task : Task α}
    {input : Token} {turn : ValidatorTurn α}
    (step : TaskStep validator task input turn) {addr : α} {entry : Entry}
    (present : turn.shared.entries addr = some entry) :
    (turn.event = .inserted addr entry.token ∧ entry.validated = false) ∨
      ((∀ token, turn.event ≠ .inserted addr token) ∧
        ∃ before, validator.entries addr = some before ∧
          before.token = entry.token ∧
          (entry.validated = true → before.validated = true ∨
            ∃ data, turn.event = .processed addr data true ∧
              CarriesResponse data entry.token)) := by
  cases step with
  | inserted other token =>
      rw [entries_insert] at present
      split at present
      · next same =>
          cases present
          exact Or.inl ⟨by rw [same], rfl⟩
      · next different =>
          refine Or.inr ⟨?_, entry, present, rfl, Or.inl⟩
          intro token inserted
          cases inserted
          exact different rfl
  | retried other input old oldPresent pending left =>
      refine Or.inr ⟨by simp, ?_⟩
      rw [entries_setEntry] at present
      split at present
      · next same =>
          cases present
          rw [same]
          exact ⟨old, oldPresent, rfl, Or.inl⟩
      · exact ⟨entry, present, rfl, Or.inl⟩
  | removed other input =>
      refine Or.inr ⟨by simp, ?_⟩
      rw [entries_setEntry] at present
      split at present
      · cases present
      · exact ⟨entry, present, rfl, Or.inl⟩
  | matched src input data old response oldPresent =>
      refine Or.inr ⟨by simp, ?_⟩
      rw [entries_notifyWaiters, entries_setEntry] at present
      split at present
      · next same =>
          cases present
          rw [same]
          refine ⟨old, oldPresent, rfl, fun _ => Or.inr ⟨data, rfl, ?_⟩⟩
          exact readIncoming_eq_response_iff.mp response
      · exact ⟨entry, present, rfl, Or.inl⟩
  | checked | challenged | foundNothing | foundValidated | foundExhausted
  | rechallenged | finished | keptWaiting | registered | woken | unmatched
  | responded =>
      exact Or.inr ⟨by simp, entry, present, rfl, Or.inl⟩

/-- The last insertion at the address put this entry there, and it is validated
only if a datagram from the address brought its token since. -/
def Justified (events : List (Event α)) (addr : α) (entry : Entry) : Prop :=
  ∃ before after,
    events = before ++ .inserted addr entry.token :: after ∧
      (∀ token, .inserted addr token ∉ after) ∧
      (entry.validated = true →
        ∃ data, .processed addr data true ∈ after ∧
          CarriesResponse data entry.token)

theorem justified_step {events : List (Event α)} {validator : Validator α}
    {task : Task α} {input : Token} {turn : ValidatorTurn α}
    (justified : ∀ addr entry, validator.entries addr = some entry →
      Justified events addr entry)
    (step : TaskStep validator task input turn) {addr : α} {entry : Entry}
    (present : turn.shared.entries addr = some entry) :
    Justified (events ++ [turn.event]) addr entry := by
  rcases entry_after_step step present with new | old
  · refine ⟨events, [], by rw [new.1], fun _ => List.not_mem_nil, ?_⟩
    intro validated
    rw [new.2] at validated
    cases validated
  · obtain ⟨notInserted, previous, previousPresent, sameToken, validates⟩ := old
    obtain ⟨before, after, split, last, response⟩ :=
      justified addr previous previousPresent
    refine ⟨before, after ++ [turn.event], ?_, ?_, ?_⟩
    · rw [split, sameToken, List.append_assoc, List.cons_append]
    · intro token member
      rcases List.mem_append.mp member with earlier | now
      · exact last token earlier
      · exact notInserted token (List.mem_singleton.mp now).symm
    · intro validated
      rcases validates validated with before | now
      · obtain ⟨data, member, carries⟩ := response before
        rw [sameToken] at carries
        exact ⟨data, List.mem_append_left _ member, carries⟩
      · obtain ⟨data, event, carries⟩ := now
        exact ⟨data, List.mem_append_right _ (by rw [event]; simp), carries⟩

theorem justified_run (actions : List (ValidatorAction α)) (addr : α)
    (entry : Entry)
    (present : (validatorFinal actions).shared.entries addr = some entry) :
    Justified (events (validatorHistory actions)) addr entry := by
  refine invariant_on (fun _ => True)
    (fun past (pool : ValidatorPool α) => ∀ addr entry,
      pool.shared.entries addr = some entry →
        Justified (events past) addr entry) ?_ ?_ ?_ ?_ actions
    (fun _ _ => trivial) addr entry present
  · intro addr entry present
    cases present
  · intro past pool index input justified addr entry present
    rw [events_append_none]
    exact justified addr entry present
  · intro past pool request _ justified addr entry present
    rw [events_append_none]
    exact justified addr entry present
  · intro past pool index input task turn _ _ taken justified addr entry
      present
    rw [events_append_some]
    exact justified_step justified (taskTurn_step taken) present

def Event.addr : Event α → α
  | .checked addr | .inserted addr _ | .sent addr _ | .ticked addr
  | .failed addr | .removed addr | .looked addr _ | .registered addr
  | .woken addr | .processed addr _ _ => addr

/-- A datagram that the peer reads as a challenge with this token. -/
def challengesWith (token : Token) : Event α → Bool
  | .sent _ packet => readIncoming packet = .challenge token
  | _ => false

def draws (token : Token) : Event α → Bool
  | .inserted _ drawn => drawn = token
  | _ => false

/-- The retries that the entry at an address still has for a token. -/
def retriesFor (token : Token) (addr : α) (validator : Validator α) : Nat :=
  match validator.entries addr with
  | some entry => if entry.token = token then entry.retriesLeft else 0
  | none => 0

/-- A task that is about to send the token to the address. -/
def sendsNext (token : Token) (addr : α) (task : Task α) : Nat :=
  if task = .validatePath addr (.sending token) ∨
      task = .retryLoop addr (.sending token) then 1 else 0

@[simp] theorem sendsNext_validatePath (token : Token) (addr other : α)
    (phase : ValidatePhase) :
    sendsNext token addr (.validatePath other phase) =
      if other = addr ∧ phase = .sending token then 1 else 0 := by
  simp [sendsNext]

@[simp] theorem sendsNext_retryLoop (token : Token) (addr other : α)
    (phase : RetryPhase) :
    sendsNext token addr (.retryLoop other phase) =
      if other = addr ∧ phase = .sending token then 1 else 0 := by
  simp [sendsNext]

@[simp] theorem sendsNext_waitValidation (token : Token) (addr other : α)
    (phase : WaitPhase) :
    sendsNext token addr (.waitValidation other phase) = 0 := by
  simp [sendsNext]

@[simp] theorem sendsNext_handlePacket (token : Token) (addr src : α)
    (data : Bytes) (handled : Bool) :
    sendsNext token addr (.handlePacket src data handled) = 0 := by
  simp [sendsNext]

/-- No turn sends a challenge that the insertion of its token did not pay
for: one for the first send, and one for every retry of the entry. -/
theorem probe_paid (token : Token) (addr : α) {validator : Validator α}
    {task : Task α} {input : Token} {turn : ValidatorTurn α}
    (step : TaskStep validator task input turn) :
    (if turn.event.addr = addr then
        (if challengesWith token turn.event then 1 else 0) else 0) +
          retriesFor token addr turn.shared + sendsNext token addr turn.task +
          (turn.spawned.map (sendsNext token addr)).sum ≤
      (if turn.event.addr = addr then
        (if draws token turn.event then 1 + maxRetries else 0) else 0) +
          retriesFor token addr validator + sendsNext token addr task := by
  cases step with
  | checked other input phase next =>
      rcases next with inserting | returned
      · simp [Event.addr, challengesWith, draws, inserting]
      · simp [Event.addr, challengesWith, draws, returned]
  | inserted other input =>
      by_cases here : other = addr
      · by_cases same : input = token
        · simp [Event.addr, challengesWith, draws, here, same, retriesFor]
          omega
        · simp [Event.addr, challengesWith, draws, here, same, retriesFor]
      · simp [Event.addr, here, retriesFor, Ne.symm here]
  | challenged other input sending =>
      by_cases here : other = addr
      · by_cases same : sending = token
        · simp [Event.addr, challengesWith, draws, here, same]
          omega
        · simp [Event.addr, challengesWith, draws, here, same]
      · simp [Event.addr, here]
  | rechallenged other input sending =>
      by_cases here : other = addr
      · by_cases same : sending = token
        · simp [Event.addr, challengesWith, draws, here, same]
          omega
        · simp [Event.addr, challengesWith, draws, here, same]
      · simp [Event.addr, here]
  | retried other input entry present pending left =>
      by_cases here : other = addr
      · rw [here] at present
        by_cases same : entry.token = token
        · simp [Event.addr, challengesWith, draws, here, same, retriesFor,
            present]
          omega
        · simp [Event.addr, challengesWith, draws, here, same, retriesFor,
            present]
      · simp [Event.addr, here, retriesFor, Ne.symm here]
  | removed other input =>
      by_cases here : other = addr
      · simp [Event.addr, challengesWith, draws, here, retriesFor]
      · simp [Event.addr, here, retriesFor, Ne.symm here]
  | matched src input data entry response present =>
      by_cases here : src = addr
      · rw [here] at present
        simp [Event.addr, challengesWith, draws, here, retriesFor, present]
      · simp [Event.addr, here, retriesFor, Ne.symm here]
  | foundExhausted | foundNothing | foundValidated | finished | keptWaiting
  | registered | woken | unmatched | responded =>
      simp [Event.addr, challengesWith, draws, retriesFor]

theorem challenges_le_draws (actions : List (ValidatorAction α))
    (token : Token) :
    (events (validatorHistory actions)).countP (challengesWith token) ≤
      (1 + maxRetries) *
        (events (validatorHistory actions)).countP (draws token) := by
  have counted : ((events (validatorHistory actions)).map
        (fun event => if challengesWith token event then 1 else 0)).sum ≤
      ((events (validatorHistory actions)).map
        (fun event => if draws token event then 1 + maxRetries else 0)).sum := by
    refine cost_le_allowance_by_key Event.addr _ _ (retriesFor token)
      (sendsNext token) (fun _ => rfl) rfl ?_ ?_ actions
    · intro addr request
      cases request with
      | validatePath other => simp [validatorProgram]
      | waitValidation other => simp [validatorProgram]
      | handlePacket src data => simp [validatorProgram]
    · intro addr validator task input turn taken
      exact probe_paid token addr (taskTurn_step taken)
  rw [sum_map_ite, sum_map_ite, Nat.one_mul] at counted
  exact counted

/-- In every run, a validated entry was confirmed by a Control datagram from
its address that brought a PATH_RESPONSE with the entry's token after the
entry was inserted; and a token is sent in at most `1 + MAX_RETRIES`
challenges, for every time the random generator has drawn it. -/
theorem path_validation_sound (actions : List (ValidatorAction α)) :
    (∀ addr entry,
      (validatorFinal actions).shared.entries addr = some entry →
        entry.validated = true →
          ∃ before after data,
            events (validatorHistory actions) =
                before ++ .inserted addr entry.token :: after ∧
              (∀ token, .inserted addr token ∉ after) ∧
              .processed addr data true ∈ after ∧
              CarriesResponse data entry.token) ∧
      ∀ token,
        (events (validatorHistory actions)).countP (challengesWith token) ≤
            (1 + maxRetries) *
              (events (validatorHistory actions)).countP (draws token) ∧
          ((events (validatorHistory actions)).countP (draws token) ≤ 1 →
            (events (validatorHistory actions)).countP
              (challengesWith token) ≤ 1 + maxRetries) := by
  constructor
  · intro addr entry present validated
    obtain ⟨before, after, split, last, response⟩ :=
      justified_run actions addr entry present
    obtain ⟨data, member, carries⟩ := response validated
    exact ⟨before, after, data, split, last, member, carries⟩
  · intro token
    have bound := challenges_le_draws actions token
    refine ⟨bound, ?_⟩
    intro once
    calc
      (events (validatorHistory actions)).countP (challengesWith token) ≤
          (1 + maxRetries) *
            (events (validatorHistory actions)).countP (draws token) := bound
      _ ≤ (1 + maxRetries) * 1 := Nat.mul_le_mul_left _ once
      _ = 1 + maxRetries := Nat.mul_one _

end NyxNet.PathValidation
