import NyxNet.Lib.DebugFormat

/-!
# Errors and retries of the SDK

`NyxError` of `nyx-sdk/src/error.rs` and the decision of `RetryExecutor` in
`nyx-sdk/src/retry.rs` whether a failed operation is tried again.
-/

namespace NyxNet.Sdk

inductive NyxError where
  | daemonConnection (message : String) (sourceMsg : Option String)
  | stream (message : String) (streamId : Option UInt32)
  | network (message : String) (endpoint : Option String)
  | config (message : String) (path : Option String)
  | auth (message : String)
  | protocol (message : String) (code : Option UInt16)
  | timeout (duration : Duration)
  | notFound (resource : String)
  | alreadyExists (resource : String)
  | permissionDenied (operation : String)
  | invalidInput (message : String) (field : Option String)
  | internal (message : String)
  | cancelled
  deriving DecidableEq, Repr

/-- `tonic::Code`. -/
inductive Code where
  | ok
  | cancelled
  | unknown
  | invalidArgument
  | deadlineExceeded
  | notFound
  | alreadyExists
  | permissionDenied
  | resourceExhausted
  | failedPrecondition
  | aborted
  | outOfRange
  | unimplemented
  | internal
  | unavailable
  | dataLoss
  | unauthenticated
  deriving DecidableEq, Repr

/-- `tonic::Status`. -/
structure Status where
  code : Code
  message : String
  deriving DecidableEq, Repr

namespace NyxError

def streamError (message : String) (streamId : Option UInt32) : NyxError :=
  .stream message streamId

def ofStatus (status : Status) : NyxError :=
  match status.code with
  | .ok => .internal "Received OK status as error"
  | .cancelled => .cancelled
  | .unknown => .internal s!"Unknown gRPC error: {status.message}"
  | .invalidArgument => .invalidInput status.message none
  | .deadlineExceeded => .timeout (Duration.fromSecs 30)
  | .notFound => .notFound status.message
  | .alreadyExists => .alreadyExists status.message
  | .permissionDenied => .permissionDenied status.message
  | .resourceExhausted =>
      .network s!"Resource exhausted: {status.message}" none
  | .failedPrecondition =>
      -- The code is written in hexadecimal, so it counts as a server error.
      .protocol s!"Failed precondition: {status.message}" (some 0x428)
  | .aborted => .network s!"Operation aborted: {status.message}" none
  | .outOfRange => .invalidInput s!"Out of range: {status.message}" none
  | .unimplemented =>
      .protocol s!"Unimplemented: {status.message}" (some 0x501)
  | .internal => .internal s!"Internal server error: {status.message}"
  | .unavailable =>
      .daemonConnection s!"Daemon unavailable: {status.message}" none
  | .dataLoss => .network s!"Data loss detected: {status.message}" none
  | .unauthenticated => .auth s!"Authentication failed: {status.message}"

def isRetryable : NyxError → Bool
  | .daemonConnection _ _ => true
  | .network _ _ => true
  | .timeout _ => true
  | .internal _ => true
  | .protocol _ (some code) => 500 ≤ code
  | .protocol _ none => true
  | _ => false

def display : NyxError → String
  | .daemonConnection message _ =>
      s!"Failed to connect to Nyx daemon: {message}"
  | .stream message _ => s!"Stream operation failed: {message}"
  | .network message _ => s!"Network error: {message}"
  | .config message _ => s!"Configuration error: {message}"
  | .auth message => s!"Authentication error: {message}"
  | .protocol message _ => s!"Protocol error: {message}"
  | .timeout duration =>
      "Operation timed out after " ++
        String.ofList (DebugFormat.debugDuration duration)
  | .notFound resource => s!"Resource not found: {resource}"
  | .alreadyExists resource => s!"Resource already exists: {resource}"
  | .permissionDenied operation => s!"Permission denied: {operation}"
  | .invalidInput message _ => s!"Invalid input: {message}"
  | .internal message => s!"Internal error: {message}"
  | .cancelled => "Operation cancelled"

end NyxError

/-- What of `RetryStrategy` decides whether there is another attempt; the rest
of it is about delays. -/
structure RetryStrategy where
  maxAttempts : Nat
  maxTotalTime : Option Duration
  deriving DecidableEq

namespace RetryStrategy

variable (strategy : RetryStrategy)

/-- `should_continue` after an attempt with that number. -/
def shouldContinue (attempt : Nat) (elapsed : Duration) (lastError : NyxError) :
    Bool :=
  if strategy.maxAttempts ≤ attempt then
    false
  else if strategy.maxTotalTime.any
      (fun maxTime => maxTime.asNanos ≤ elapsed.asNanos) then
    false
  else
    lastError.isRetryable

variable {strategy}

theorem shouldContinue_iff {attempt : Nat} {elapsed : Duration}
    {lastError : NyxError} :
    strategy.shouldContinue attempt elapsed lastError = true ↔
      attempt < strategy.maxAttempts ∧
        (∀ maxTime, strategy.maxTotalTime = some maxTime →
          elapsed.asNanos < maxTime.asNanos) ∧
        lastError.isRetryable = true := by
  unfold shouldContinue
  by_cases spent : strategy.maxAttempts ≤ attempt
  · rw [if_pos spent]
    refine iff_of_false Bool.false_ne_true ?_
    intro facts
    exact absurd facts.1 (Nat.not_lt_of_le spent)
  · rw [if_neg spent, and_iff_right (Nat.lt_of_not_le spent)]
    cases strategy.maxTotalTime with
    | none =>
        rw [Option.any_none, if_neg Bool.false_ne_true]
        refine (and_iff_right ?_).symm
        intro maxTime impossible
        cases impossible
    | some maxTime =>
        rw [Option.any_some]
        by_cases late : maxTime.asNanos ≤ elapsed.asNanos
        · rw [decide_eq_true late, if_pos rfl]
          refine iff_of_false Bool.false_ne_true ?_
          intro facts
          exact absurd (facts.1 maxTime rfl) (Nat.not_lt_of_le late)
        · rw [decide_eq_false late, if_neg Bool.false_ne_true]
          refine (and_iff_right ?_).symm
          intro other same
          cases same
          exact Nat.lt_of_not_le late

end RetryStrategy

/-- `enhance_error_with_context`. -/
def enhanceErrorWithContext (error : NyxError) (attempt : Nat)
    (elapsed : Duration) : NyxError :=
  let context :=
    s!" (failed after {attempt} attempts in " ++
      String.ofList (DebugFormat.debugDuration elapsed) ++ ")"
  match error with
  | .daemonConnection message sourceMsg =>
      .daemonConnection (message ++ context) sourceMsg
  | .network message endpoint => .network (message ++ context) endpoint
  | other => other

end NyxNet.Sdk
