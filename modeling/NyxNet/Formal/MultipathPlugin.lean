import Mathlib.Data.Set.Card
import Mathlib.Logic.Relation
import Mathlib.Order.Interval.Finset.Nat

/-!
# The specification of the multipath protocol

The state machine of `formal/nyx_multipath_plugin.tla`, its type invariant and
those of its other invariants that its runs keep.

`stream_states` begins as the function on no stream, and an update outside of
the domain of a function changes nothing.  The function is applied outside of
its domain all the same, and throughput is divided by an operator that the
specification does not import.  Both values are given.
-/

namespace NyxNet.Formal

inductive ProtocolState where
  | init
  | pathBuilding
  | capabilityNegotiation
  | cryptoHandshake
  | streamSetup
  | active
  | degraded
  | recovery
  | closing
  | closed
  deriving DecidableEq, Repr

inductive ErrorCode where
  | none
  | unsupportedCap
  | invalidPath
  | cryptoError
  | timeoutError
  | streamError
  | networkError
  | resourceError
  deriving DecidableEq, Repr

inductive PowerState where
  | normal
  | lowPower
  | hibernation
  deriving DecidableEq, Repr

inductive StreamState where
  | idle
  | opening
  | active
  | closing
  | closed
  | error
  deriving DecidableEq, Repr

inductive CryptoState where
  | init
  | handshaking
  | established
  | failed
  deriving DecidableEq, Repr

inductive NetworkConditions where
  | good
  | fair
  | poor
  | disconnected
  deriving DecidableEq, Repr

structure Constants where
  nodeCount : Nat
  capSet : Set Nat
  maxStreams : Nat
  maxRetries : Nat
  timeoutLimit : Nat

/-- The values that the specification does not determine.  That half of the
throughput is a natural number again is an assumption. -/
structure Unspecified where
  outside : Nat → Option StreamState
  half : Nat → Nat

structure FlowControl where
  windowSize : Nat
  bytesInFlight : Nat

structure PerformanceMetrics where
  latency : Nat
  throughput : Nat
  errorRate : Nat

/-- The variables.  `streamStates` has a value on its domain only. -/
structure Vars where
  state : ProtocolState
  prevState : ProtocolState
  error : ErrorCode
  retryCount : Nat
  path : List Nat
  backupPaths : Set (Set (List Nat))
  pathQuality : Nat
  cReq : Set Nat
  cSup : Set Nat
  negotiatedCaps : Set Nat
  cryptoState : CryptoState
  sessionKeys : Set String
  keyRotationTimer : Nat
  activeStreams : Set Nat
  streamStates : Nat → Option StreamState
  flowControl : FlowControl
  power : PowerState
  performanceMetrics : PerformanceMetrics
  networkConditions : NetworkConditions
  operationTimer : Nat
  lastActivity : Nat
  timeoutCount : Nat

/-- `[states EXCEPT ![streamId] = new]`. -/
def except (states : Nat → Option StreamState) (streamId : Nat)
    (new : StreamState) : Nat → Option StreamState :=
  fun other =>
    if other = streamId then (states other).map fun _ => new else states other

/-- `states[streamId]`. -/
def Unspecified.at (unspecified : Unspecified)
    (states : Nat → Option StreamState) (streamId : Nat) : Option StreamState :=
  (states streamId).or (unspecified.outside streamId)

/-- `Init`, for the capabilities that it leaves open. -/
def Vars.start (cReq cSup : Set Nat) : Vars where
  state := .init
  prevState := .init
  error := .none
  retryCount := 0
  path := []
  backupPaths := ∅
  pathQuality := 0
  cReq := cReq
  cSup := cSup
  negotiatedCaps := ∅
  cryptoState := .init
  sessionKeys := ∅
  keyRotationTimer := 0
  activeStreams := ∅
  streamStates := fun _ => none
  flowControl := ⟨1024, 0⟩
  power := .normal
  performanceMetrics := ⟨0, 0, 0⟩
  networkConditions := .good
  operationTimer := 0
  lastActivity := 0
  timeoutCount := 0

/-- Three to seven nodes without a repetition. -/
structure IsRoute (constants : Constants) (path : List Nat) : Prop where
  nodes : ∀ node ∈ path, 1 ≤ node ∧ node ≤ constants.nodeCount
  length_ge : 3 ≤ path.length
  length_le : path.length ≤ 7
  distinct : path.Nodup

/-- `Next`, one constructor for each action. -/
inductive Next (constants : Constants) (unspecified : Unspecified) :
    Vars → Vars → Prop
  | startPathBuilding (vars : Vars) (inInit : vars.state = .init) :
      Next constants unspecified vars
        { vars with
          state := .pathBuilding
          prevState := .init
          operationTimer := 0 }
  | buildPath (vars : Vars) (building : vars.state = .pathBuilding)
      (unbuilt : vars.path = []) (newPath : List Nat)
      (route : IsRoute constants newPath) :
      Next constants unspecified vars
        { vars with
          path := newPath
          pathQuality := newPath.length * 10
          state := .capabilityNegotiation
          prevState := .pathBuilding }
  | pathBuildingFailed (vars : Vars) (building : vars.state = .pathBuilding)
      (retries : vars.retryCount < constants.maxRetries) :
      Next constants unspecified vars
        { vars with
          error := .invalidPath
          retryCount := vars.retryCount + 1
          state := .recovery
          prevState := .pathBuilding }
  | negotiateCapabilities (vars : Vars)
      (negotiating : vars.state = .capabilityNegotiation)
      (supported : vars.cReq ⊆ vars.cSup) :
      Next constants unspecified vars
        { vars with
          negotiatedCaps := vars.cReq ∩ vars.cSup
          state := .cryptoHandshake
          prevState := .capabilityNegotiation
          error := .none }
  | capabilityNegotiationFailed (vars : Vars)
      (negotiating : vars.state = .capabilityNegotiation)
      (unsupported : ¬ vars.cReq ⊆ vars.cSup) :
      Next constants unspecified vars
        { vars with
          error := .unsupportedCap
          state := .closing
          prevState := .capabilityNegotiation }
  | startCryptoHandshake (vars : Vars)
      (inHandshake : vars.state = .cryptoHandshake)
      (fresh : vars.cryptoState = .init) :
      Next constants unspecified vars
        { vars with
          cryptoState := .handshaking
          sessionKeys := {"temp_key"}
          keyRotationTimer := 100 }
  | completeCryptoHandshake (vars : Vars)
      (inHandshake : vars.state = .cryptoHandshake)
      (handshaking : vars.cryptoState = .handshaking) :
      Next constants unspecified vars
        { vars with
          cryptoState := .established
          state := .streamSetup
          prevState := .cryptoHandshake }
  | cryptoHandshakeFailed (vars : Vars)
      (inHandshake : vars.state = .cryptoHandshake)
      (handshaking : vars.cryptoState = .handshaking) :
      Next constants unspecified vars
        { vars with
          error := .cryptoError
          state := .recovery
          prevState := .cryptoHandshake
          cryptoState := .failed }
  | setupStreams (vars : Vars) (inSetup : vars.state = .streamSetup)
      (idle : vars.activeStreams = ∅) (streamId : Nat) (positive : 1 ≤ streamId)
      (fits : streamId ≤ constants.maxStreams) :
      Next constants unspecified vars
        { vars with
          activeStreams := {streamId}
          streamStates := except vars.streamStates streamId .opening
          state := .active
          prevState := .streamSetup
          lastActivity := vars.operationTimer }
  | normalOperation (vars : Vars) (isActive : vars.state = .active)
      (sound : vars.error = .none) (streamId : Nat)
      (member : streamId ∈ vars.activeStreams)
      (opening : unspecified.at vars.streamStates streamId = some .opening) :
      Next constants unspecified vars
        { vars with
          streamStates := except vars.streamStates streamId .active
          performanceMetrics := { vars.performanceMetrics with
            throughput := vars.performanceMetrics.throughput + 10 }
          lastActivity := vars.operationTimer }
  | enterLowPower (vars : Vars) (isActive : vars.state = .active)
      (isNormal : vars.power = .normal)
      (inactive : vars.lastActivity + 50 < vars.operationTimer) :
      Next constants unspecified vars
        { vars with
          power := .lowPower
          performanceMetrics := { vars.performanceMetrics with
            throughput :=
              unspecified.half vars.performanceMetrics.throughput } }
  | exitLowPower (vars : Vars) (isActive : vars.state = .active)
      (isLow : vars.power = .lowPower) :
      Next constants unspecified vars
        { vars with
          power := .normal
          lastActivity := vars.operationTimer
          performanceMetrics := { vars.performanceMetrics with
            throughput := vars.performanceMetrics.throughput * 2 } }
  | startRecovery (vars : Vars) (recovering : vars.state = .recovery)
      (retries : vars.retryCount < constants.maxRetries) :
      Next constants unspecified vars
        { vars with
          retryCount := vars.retryCount + 1
          state := vars.prevState
          error := .none }
  | recoveryFailed (vars : Vars) (recovering : vars.state = .recovery)
      (exhausted : constants.maxRetries ≤ vars.retryCount) :
      Next constants unspecified vars
        { vars with
          state := .closing
          prevState := .recovery }
  | handleTimeout (vars : Vars)
      (late : constants.timeoutLimit < vars.operationTimer) :
      Next constants unspecified vars
        { vars with
          timeoutCount := vars.timeoutCount + 1
          error := .timeoutError
          state := .recovery
          prevState := vars.state
          operationTimer := 0 }
  -- Without an active stream the next `stream_states` is left open.
  | startClosing (vars : Vars)
      (isOpen : vars.state = .active ∨ vars.state = .degraded)
      (newStates : Nat → Option StreamState)
      (closing : ∀ streamId ∈ vars.activeStreams,
        newStates = except vars.streamStates streamId .closing) :
      Next constants unspecified vars
        { vars with
          state := .closing
          prevState := vars.state
          streamStates := newStates }
  | completeClosing (vars : Vars) (isClosing : vars.state = .closing)
      (allClosing : ∀ streamId ∈ vars.activeStreams,
        unspecified.at vars.streamStates streamId = some .closing) :
      Next constants unspecified vars
        { vars with
          state := .closed
          activeStreams := ∅
          streamStates := fun _ => none
          sessionKeys := ∅ }
  | advanceTimer (vars : Vars) :
      Next constants unspecified vars
        { vars with operationTimer := vars.operationTimer + 1 }
  | terminal (vars : Vars) (isClosed : vars.state = .closed) :
      Next constants unspecified vars vars

/-- The states of the runs of `Spec`. -/
def Reachable (constants : Constants) (unspecified : Unspecified)
    (vars : Vars) : Prop :=
  ∃ cReq cSup, cReq ⊆ constants.capSet ∧ cSup ⊆ constants.capSet ∧
    Relation.ReflTransGen (Next constants unspecified) (Vars.start cReq cSup)
      vars

/-- `Inv_PathLen`, `Inv_PathUniqueness` and `Inv_NetworkConditions`, and of
`Inv_RetryBounds`, `Inv_CapabilityConsistency`, `Inv_CryptoStateConsistency`,
`Inv_StreamConsistency`, `Inv_ErrorConsistency` and `Inv_ResourceManagement` the
parts that the runs keep. -/
structure SpecInvariants (constants : Constants) (vars : Vars) : Prop where
  pathLen : vars.state ∈ [.capabilityNegotiation, .cryptoHandshake,
      .streamSetup, .active, .degraded] →
    3 ≤ vars.path.length ∧ vars.path.length ≤ 7
  pathUniqueness : vars.path ≠ [] → vars.path.Nodup
  disconnected : vars.networkConditions = .disconnected →
    vars.state ∈ [.recovery, .closing, .closed]
  networkConditions : vars.state = .active ∧ vars.error = .none →
    vars.networkConditions = .good ∨ vars.networkConditions = .fair
  retryBounds : vars.retryCount ≤ constants.maxRetries
  negotiated : vars.state = .active →
    vars.negotiatedCaps = vars.cReq ∩ vars.cSup
  supported : vars.state = .active → vars.cReq ⊆ vars.cSup
  established : vars.state = .active → vars.cryptoState = .established
  noStreams : vars.state = .closed → vars.activeStreams = ∅
  streamCount : vars.activeStreams.ncard ≤ constants.maxStreams
  unsupportedCap :
    vars.state = .closed ∧ vars.prevState = .capabilityNegotiation →
      vars.error = .unsupportedCap
  timeoutError : vars.error = .timeoutError → 0 < vars.timeoutCount
  bytesInFlight : vars.flowControl.bytesInFlight ≤ vars.flowControl.windowSize

/-- `TypeInvariant`, as far as the types do not say it. -/
structure TypeInvariant (constants : Constants) (vars : Vars) : Prop where
  retryCount : vars.retryCount ≤ constants.maxRetries
  path : ∀ node ∈ vars.path, 1 ≤ node ∧ node ≤ constants.nodeCount
  backupPaths : ∀ paths ∈ vars.backupPaths, ∀ path ∈ paths, ∀ node ∈ path,
    1 ≤ node ∧ node ≤ constants.nodeCount
  cReq : vars.cReq ⊆ constants.capSet
  cSup : vars.cSup ⊆ constants.capSet
  negotiatedCaps : vars.negotiatedCaps ⊆ constants.capSet
  activeStreams : ∀ streamId ∈ vars.activeStreams,
    1 ≤ streamId ∧ streamId ≤ constants.maxStreams
  streamStates : ∀ streamId,
    (vars.streamStates streamId).isSome ↔ streamId ∈ vars.activeStreams
  windowSize : vars.flowControl.windowSize ≠ 0
  errorRate : vars.performanceMetrics.errorRate ≤ 100

/-- Where the machine stands, or returns to when it has recovered. -/
def Vars.stage (vars : Vars) : ProtocolState :=
  if vars.state = .recovery then vars.prevState else vars.state

/-- Both sides agree on the capabilities that are required. -/
def Vars.Agreed (vars : Vars) : Prop :=
  vars.negotiatedCaps = vars.cReq ∩ vars.cSup ∧ vars.cReq ⊆ vars.cSup

/-- What the machine has achieved at a stage. -/
def Vars.Achieved (vars : Vars) : ProtocolState → Prop
  | .capabilityNegotiation => vars.path ≠ []
  | .cryptoHandshake => vars.path ≠ [] ∧ vars.Agreed
  | .streamSetup =>
      vars.path ≠ [] ∧ vars.Agreed ∧ vars.cryptoState = .established
  | .active =>
      vars.path ≠ [] ∧ vars.Agreed ∧ vars.cryptoState = .established ∧
        vars.activeStreams ≠ ∅
  | .closed => vars.activeStreams = ∅
  | .init | .pathBuilding | .degraded | .recovery | .closing => True

/-- Where a machine stands whose handshake failed. -/
def afterFailure : List ProtocolState :=
  [.cryptoHandshake, .recovery, .closing, .closed]

theorem cryptoHandshake_mem : .cryptoHandshake ∈ afterFailure := by decide

theorem recovery_mem : .recovery ∈ afterFailure := by decide

theorem closing_mem : .closing ∈ afterFailure := by decide

theorem closed_mem : .closed ∈ afterFailure := by decide

/-- The induction hypothesis over the runs. -/
structure Kept (constants : Constants) (vars : Vars) : Prop where
  achieved : vars.Achieved vars.stage
  retries : vars.retryCount ≤ constants.maxRetries
  route : vars.path = [] ∨ IsRoute constants vars.path
  noBackups : vars.backupPaths = ∅
  required : vars.cReq ⊆ constants.capSet
  supported : vars.cSup ⊆ constants.capSet
  within : vars.negotiatedCaps ⊆ constants.capSet
  streams : vars.activeStreams = ∅ ∨ vars.path ≠ [] ∧ ∃ streamId,
    1 ≤ streamId ∧ streamId ≤ constants.maxStreams ∧
      vars.activeStreams = {streamId}
  failed : vars.cryptoState = .failed →
    vars.stage ∈ afterFailure
  untyped : vars.streamStates = fun _ => none
  undegraded : ProtocolState.degraded ∉ [vars.state, vars.prevState]
  rejected : vars.state ∈ [ProtocolState.closing, .closed] →
    vars.prevState = .capabilityNegotiation → vars.error = .unsupportedCap
  timedOut : vars.error = .timeoutError → 0 < vars.timeoutCount
  conditions : vars.networkConditions = .good
  awake : vars.power ≠ .hibernation
  flow : vars.flowControl = ⟨1024, 0⟩
  metrics : vars.performanceMetrics.latency = 0 ∧
    vars.performanceMetrics.errorRate = 0

theorem stage_of_ne {vars : Vars} (standing : vars.state ≠ .recovery) :
    vars.stage = vars.state :=
  if_neg standing

theorem stage_of_recovery {vars : Vars} (recovering : vars.state = .recovery) :
    vars.stage = vars.prevState :=
  if_pos recovering

theorem except_untyped (streamId : Nat) (new : StreamState) :
    except (fun _ => none) streamId new = fun _ => none := by
  funext other
  unfold except
  split <;> rfl

variable {constants : Constants} {unspecified : Unspecified} {vars after : Vars}

theorem kept_start {cReq cSup : Set Nat} (required : cReq ⊆ constants.capSet)
    (supported : cSup ⊆ constants.capSet) :
    Kept constants (Vars.start cReq cSup) where
  achieved := trivial
  retries := Nat.zero_le _
  route := .inl rfl
  noBackups := rfl
  required := required
  supported := supported
  within := Set.empty_subset _
  streams := .inl rfl
  failed := fun same => nomatch same
  untyped := rfl
  undegraded := by simp [Vars.start]
  rejected := fun _ same => nomatch same
  timedOut := fun same => nomatch same
  conditions := rfl
  awake := fun same => nomatch same
  flow := rfl
  metrics := ⟨rfl, rfl⟩

/-- What is achieved where the machine stands. -/
theorem Kept.achievedAt (kept : Kept constants vars) {state : ProtocolState}
    (standing : vars.state = state) (notRecovering : state ≠ .recovery) :
    vars.Achieved state := by
  have achieved := kept.achieved
  rw [stage_of_ne (standing ▸ notRecovering), standing] at achieved
  exact achieved

theorem Kept.achieved_state (kept : Kept constants vars) :
    vars.Achieved vars.state := by
  by_cases recovering : vars.state = .recovery
  · rw [recovering]
    trivial
  · exact kept.achievedAt rfl recovering

theorem Kept.not_degraded (kept : Kept constants vars) :
    ProtocolState.degraded ≠ vars.state ∧
      ProtocolState.degraded ≠ vars.prevState := by
  have apart := kept.undegraded
  rw [List.mem_cons, List.mem_singleton, not_or] at apart
  exact apart

theorem Kept.state_of_failed (kept : Kept constants vars)
    (failed : vars.cryptoState = .failed) : vars.state ∈ afterFailure := by
  by_cases recovering : vars.state = .recovery
  · rw [recovering]
    exact recovery_mem
  · rw [← stage_of_ne recovering]
    exact kept.failed failed

theorem Kept.not_failed (kept : Kept constants vars)
    (elsewhere : vars.state ∉ afterFailure) : vars.cryptoState ≠ .failed :=
  fun failed => elsewhere (kept.state_of_failed failed)

/-- One constructor for each action.  The achievements are those of the stage
that the action leads to, everything else is told by the variables that it
changes. -/
theorem kept_next (kept : Kept constants vars)
    (step : Next constants unspecified vars after) : Kept constants after := by
  cases step with
  | startPathBuilding inInit =>
      have notFailed := kept.not_failed (by rw [inInit]; decide)
      exact
        { kept with
          achieved := trivial
          failed := fun failed => absurd failed notFailed
          undegraded := by simp
          rejected := fun member => absurd member (by simp) }
  | buildPath building unbuilt newPath route =>
      have nonempty : newPath ≠ [] :=
        List.ne_nil_of_length_pos (Nat.lt_of_lt_of_le (by decide)
          route.length_ge)
      have notFailed := kept.not_failed (by rw [building]; decide)
      exact
        { kept with
          achieved := nonempty
          failed := fun failed => absurd failed notFailed
          streams := .inl (kept.streams.resolve_right fun streaming =>
            streaming.1 unbuilt)
          route := .inr route
          undegraded := by simp
          rejected := fun member => absurd member (by simp) }
  | pathBuildingFailed building retries =>
      have notFailed := kept.not_failed (by rw [building]; decide)
      exact
        { kept with
          achieved := trivial
          failed := fun failed => absurd failed notFailed
          retries := retries
          undegraded := by simp
          rejected := fun member => absurd member (by simp)
          timedOut := fun same => nomatch same }
  | negotiateCapabilities negotiating supported =>
      exact
        { kept with
          achieved := ⟨kept.achievedAt negotiating (by decide), rfl, supported⟩
          failed := fun _ => cryptoHandshake_mem
          within := Set.inter_subset_left.trans kept.required
          undegraded := by simp
          rejected := fun member => absurd member (by simp)
          timedOut := fun same => nomatch same }
  | capabilityNegotiationFailed negotiating unsupported =>
      exact
        { kept with
          achieved := trivial
          failed := fun _ => closing_mem
          undegraded := by simp
          rejected := fun _ _ => rfl
          timedOut := fun same => nomatch same }
  | startCryptoHandshake inHandshake fresh =>
      have agreed := kept.achievedAt inHandshake (by decide)
      have standing : vars.state ≠ .recovery := by
        rw [inHandshake]
        decide
      refine { kept with achieved := ?_, failed := fun same => nomatch same }
      change Vars.Achieved _ vars.stage
      rw [stage_of_ne standing, inHandshake]
      exact agreed
  | completeCryptoHandshake inHandshake handshaking =>
      obtain ⟨built, agreed⟩ := kept.achievedAt inHandshake (by decide)
      exact
        { kept with
          achieved := ⟨built, agreed, rfl⟩
          failed := fun same => nomatch same
          undegraded := by simp
          rejected := fun member => absurd member (by simp) }
  | cryptoHandshakeFailed inHandshake handshaking =>
      exact
        { kept with
          achieved := kept.achievedAt inHandshake (by decide)
          failed := fun _ => cryptoHandshake_mem
          undegraded := by simp
          rejected := fun member => absurd member (by simp)
          timedOut := fun same => nomatch same }
  | setupStreams inSetup idle streamId positive fits =>
      obtain ⟨built, agreed, established⟩ :=
        kept.achievedAt inSetup (by decide)
      exact
        { kept with
          achieved := ⟨built, agreed, established, Set.singleton_ne_empty _⟩
          streams := .inr ⟨built, streamId, positive, fits, rfl⟩
          failed := fun failed => nomatch established.symm.trans failed
          untyped := by rw [kept.untyped, except_untyped]
          undegraded := by simp
          rejected := fun member => absurd member (by simp) }
  | normalOperation isActive sound streamId member opening =>
      exact
        { kept with
          untyped := by rw [kept.untyped, except_untyped] }
  | enterLowPower isActive isNormal inactive =>
      exact { kept with awake := fun same => nomatch same }
  | exitLowPower isActive isLow =>
      exact { kept with awake := fun same => nomatch same }
  | startRecovery recovering retries =>
      have achieved := kept.achieved
      rw [stage_of_recovery recovering] at achieved
      refine
        { kept with
          achieved := ?_
          failed := fun failed => ?_
          retries := retries
          undegraded := by simp [kept.not_degraded]
          rejected := fun member same => ?_
          timedOut := fun same => nomatch same }
      · unfold Vars.stage
        rw [ite_self]
        exact achieved
      · have stands := kept.failed failed
        rw [stage_of_recovery recovering] at stands
        unfold Vars.stage
        rw [ite_self]
        exact stands
      · have returned : vars.prevState ∈ [ProtocolState.closing, .closed] :=
          member
        rw [show vars.prevState = .capabilityNegotiation from same] at returned
        exact absurd returned (by decide)
  | recoveryFailed recovering exhausted =>
      exact
        { kept with
          achieved := trivial
          failed := fun _ => closing_mem
          undegraded := by simp
          rejected := fun _ same => nomatch same }
  | handleTimeout late =>
      exact
        { kept with
          achieved := kept.achieved_state
          failed := kept.state_of_failed
          undegraded := by simp [kept.not_degraded.1]
          rejected := fun member => absurd member (by simp)
          timedOut := fun _ => Nat.succ_pos _ }
  | startClosing isOpen newStates closing =>
      have isActive := isOpen.resolve_right fun same =>
        kept.not_degraded.1 same.symm
      obtain ⟨-, -, -, streaming⟩ := kept.achievedAt isActive (by decide)
      obtain ⟨streamId, member⟩ := Set.nonempty_iff_ne_empty.mpr streaming
      have untyped : newStates = fun _ => none := by
        rw [closing streamId member, kept.untyped, except_untyped]
      refine
        { kept with
          achieved := trivial
          failed := fun _ => closing_mem
          untyped := untyped
          undegraded := by simp [kept.not_degraded]
          rejected := fun _ same => ?_ }
      exact absurd (isActive.symm.trans same) (by decide)
  | completeClosing isClosing allClosing =>
      refine
        { kept with
          achieved := rfl
          streams := .inl rfl
          failed := fun _ => closed_mem
          untyped := rfl
          undegraded := by simp [kept.not_degraded]
          rejected := fun _ same => kept.rejected ?_ same }
      rw [isClosing]
      exact List.mem_cons_self
  | advanceTimer => exact { kept with }
  | terminal isClosed => exact kept

theorem kept_of_reachable (reached : Reachable constants unspecified vars) :
    Kept constants vars := by
  obtain ⟨cReq, cSup, required, supported, steps⟩ := reached
  induction steps with
  | refl => exact kept_start required supported
  | tail _ step ih => exact kept_next ih step

theorem Kept.built (kept : Kept constants vars)
    (built : vars.state ∈ [.capabilityNegotiation, .cryptoHandshake,
      .streamSetup, .active, .degraded]) : vars.path ≠ [] := by
  have achieved := kept.achieved_state
  revert achieved built
  cases standing : vars.state with
  | capabilityNegotiation => exact fun _ achieved => achieved
  | cryptoHandshake | streamSetup | active => exact fun _ achieved => achieved.1
  | degraded => exact absurd standing.symm kept.not_degraded.1
  | init | pathBuilding | recovery | closing | closed =>
      exact fun built => absurd built (by decide)

theorem typeInvariant_iff (reached : Reachable constants unspecified vars) :
    TypeInvariant constants vars ↔ vars.activeStreams = ∅ := by
  have kept := kept_of_reachable reached
  constructor
  · intro types
    rw [Set.eq_empty_iff_forall_notMem]
    intro streamId member
    have defined := (types.streamStates streamId).mpr member
    rw [kept.untyped] at defined
    cases defined
  · intro idle
    exact
      { retryCount := kept.retries
        path := by
          obtain unbuilt | route := kept.route
          · rw [unbuilt]
            exact fun node member => nomatch member
          · exact route.nodes
        backupPaths := by
          rw [kept.noBackups]
          exact fun paths member => member.elim
        cReq := kept.required
        cSup := kept.supported
        negotiatedCaps := kept.within
        activeStreams := by
          rw [idle]
          exact fun streamId member => member.elim
        streamStates := by
          rw [idle, kept.untyped]
          exact fun streamId => ⟨fun isSome => (nomatch isSome),
            fun member => member.elim⟩
        windowSize := by
          rw [kept.flow]
          decide
        errorRate := by
          rw [kept.metrics.2]
          exact Nat.zero_le _ }

/-- There are at least as many nodes as a path has hops. -/
theorem IsRoute.nodeCount_ge {path : List Nat}
    (route : IsRoute constants path) : 3 ≤ constants.nodeCount := by
  have within : path.toFinset ⊆ Finset.Icc 1 constants.nodeCount := by
    intro node member
    exact Finset.mem_Icc.mpr (route.nodes node (List.mem_toFinset.mp member))
  have count := Finset.card_le_card within
  rw [List.toFinset_card_of_nodup route.distinct, Nat.card_Icc,
    Nat.add_sub_cancel] at count
  exact route.length_ge.trans count

/-- A run up to the handshake. -/
theorem exists_handshaking (unspecified : Unspecified)
    (nodes : 3 ≤ constants.nodeCount) :
    ∃ vars, Reachable constants unspecified vars ∧
      vars.state = .cryptoHandshake ∧ vars.cryptoState = .handshaking ∧
        vars.activeStreams = ∅ := by
  have route : IsRoute constants [1, 2, 3] :=
    { nodes := by
        intro node member
        simp only [List.mem_cons, List.not_mem_nil, or_false] at member
        omega
      length_ge := by decide
      length_le := by decide
      distinct := by decide }
  have building : Relation.ReflTransGen (Next constants unspecified)
      (Vars.start ∅ ∅) _ :=
    .single (.startPathBuilding _ rfl)
  have built := building.tail (.buildPath _ rfl rfl [1, 2, 3] route)
  have agreed := built.tail
    (.negotiateCapabilities _ rfl (Set.empty_subset _))
  have handshaking := agreed.tail (.startCryptoHandshake _ rfl rfl)
  exact ⟨_, ⟨∅, ∅, Set.empty_subset _, Set.empty_subset _, handshaking⟩, rfl,
    rfl, rfl⟩

theorem Reachable.tail (reached : Reachable constants unspecified vars)
    (step : Next constants unspecified vars after) :
    Reachable constants unspecified after := by
  obtain ⟨cReq, cSup, required, supported, steps⟩ := reached
  exact ⟨cReq, cSup, required, supported, steps.tail step⟩

/-- A run up to the first stream. -/
theorem exists_active (unspecified : Unspecified)
    (nodes : 3 ≤ constants.nodeCount) (streams : 1 ≤ constants.maxStreams) :
    ∃ vars, Reachable constants unspecified vars ∧ vars.state = .active ∧
      vars.activeStreams = {1} := by
  obtain ⟨vars, reached, inHandshake, handshaking, idle⟩ :=
    exists_handshaking unspecified nodes
  let secured : Vars :=
    { vars with
      cryptoState := .established
      state := .streamSetup
      prevState := .cryptoHandshake }
  have completed : Reachable constants unspecified secured :=
    reached.tail (.completeCryptoHandshake vars inHandshake handshaking)
  exact ⟨_, completed.tail (.setupStreams secured rfl idle 1 le_rfl streams),
    rfl, rfl⟩

/-- What of the invariants of the specification its runs keep, whatever the
constants are. -/
theorem spec_invariants (constants : Constants) (unspecified : Unspecified)
    (vars : Vars) (reached : Reachable constants unspecified vars) :
    SpecInvariants constants vars := by
  have kept := kept_of_reachable reached
  have routed : vars.path ≠ [] → IsRoute constants vars.path :=
    kept.route.resolve_left
  have isActive : vars.state = .active → vars.Achieved .active :=
    fun standing => kept.achievedAt standing (by decide)
  exact
    { pathLen := fun member =>
        have route := routed (kept.built member)
        ⟨route.length_ge, route.length_le⟩
      pathUniqueness := fun built => (routed built).distinct
      disconnected := fun same => nomatch kept.conditions.symm.trans same
      networkConditions := fun _ => .inl kept.conditions
      retryBounds := kept.retries
      negotiated := fun standing => (isActive standing).2.1.1
      supported := fun standing => (isActive standing).2.1.2
      established := fun standing => (isActive standing).2.2.1
      noStreams := fun standing => kept.achievedAt standing (by decide)
      streamCount := by
        obtain idle | ⟨-, streamId, positive, fits, only⟩ := kept.streams
        · rw [idle, Set.ncard_empty]
          exact Nat.zero_le _
        · rw [only, Set.ncard_singleton]
          exact positive.trans fits
      unsupportedCap := by
        rintro ⟨standing, before⟩
        refine kept.rejected ?_ before
        rw [standing]
        decide
      timeoutError := kept.timedOut
      bytesInFlight := by
        rw [kept.flow]
        exact Nat.zero_le _ }

def sampleConstants : Constants where
  nodeCount := 8
  capSet := Set.univ
  maxStreams := 16
  maxRetries := 3
  timeoutLimit := 1000

def sampleUnspecified : Unspecified := ⟨fun _ => none, fun count => count / 2⟩

theorem spec_invariants_active :
    ∃ vars, vars.state = .active ∧ SpecInvariants sampleConstants vars := by
  obtain ⟨vars, reached, isActive, -⟩ :=
    exists_active sampleUnspecified (by decide : 3 ≤ sampleConstants.nodeCount)
      (by decide)
  exact ⟨vars, isActive,
    spec_invariants sampleConstants sampleUnspecified vars reached⟩

/-- The type invariant, for which the specification has a proof, fails exactly
where a stream is active: `stream_states` never gets a domain.  There are such
states unless there are too few nodes for a path or no stream may be opened. -/
theorem typeInvariant_fails_iff (constants : Constants)
    (unspecified : Unspecified) :
    (∀ vars, Reachable constants unspecified vars →
      (TypeInvariant constants vars ↔ vars.activeStreams = ∅)) ∧
    ((∃ vars, Reachable constants unspecified vars ∧
        ¬ TypeInvariant constants vars) ↔
      3 ≤ constants.nodeCount ∧ 1 ≤ constants.maxStreams) := by
  refine ⟨fun vars => typeInvariant_iff, ?_, ?_⟩
  · rintro ⟨vars, reached, untyped⟩
    have kept := kept_of_reachable reached
    have streaming := (not_congr (typeInvariant_iff reached)).mp untyped
    obtain ⟨built, streamId, positive, fits, -⟩ :=
      kept.streams.resolve_left streaming
    exact ⟨(kept.route.resolve_left built).nodeCount_ge, positive.trans fits⟩
  · rintro ⟨nodes, streams⟩
    obtain ⟨vars, reached, -, active⟩ := exists_active unspecified nodes streams
    refine ⟨vars, reached, ?_⟩
    rw [typeInvariant_iff reached, active]
    exact Set.singleton_ne_empty 1

theorem failed_next (step : Next constants unspecified vars after)
    (failed : vars.cryptoState = .failed) : after.cryptoState = .failed := by
  cases step with
  | startCryptoHandshake inHandshake fresh =>
      rw [failed] at fresh
      cases fresh
  | completeCryptoHandshake inHandshake handshaking =>
      rw [failed] at handshaking
      cases handshaking
  | cryptoHandshakeFailed inHandshake handshaking => rfl
  | startPathBuilding | buildPath | pathBuildingFailed | negotiateCapabilities
  | capabilityNegotiationFailed | setupStreams | normalOperation | enterLowPower
  | exitLowPower | startRecovery | recoveryFailed | handleTimeout | startClosing
  | completeClosing | advanceTimer | terminal => exact failed

/-- A handshake that failed is not repeated: recovery returns to a state that
only a timeout leaves, and no later state sets up streams. -/
theorem failed_handshake_is_final (constants : Constants)
    (unspecified : Unspecified) (vars after : Vars)
    (reached : Reachable constants unspecified vars)
    (failed : vars.cryptoState = .failed)
    (steps : Relation.ReflTransGen (Next constants unspecified) vars after) :
    after.cryptoState = .failed ∧
      after.state ∈ [.cryptoHandshake, .recovery, .closing, .closed] := by
  obtain ⟨cReq, cSup, required, supported, before⟩ := reached
  have kept := kept_of_reachable
    ⟨cReq, cSup, required, supported, before.trans steps⟩
  have still : after.cryptoState = .failed := by
    clear kept
    induction steps with
    | refl => exact failed
    | tail _ step ih => exact failed_next step ih
  exact ⟨still, kept.state_of_failed still⟩

theorem failed_handshake_is_final_sample :
    ∃ vars, vars.cryptoState = .failed ∧ vars.state = .recovery ∧
      ∀ after, Relation.ReflTransGen (Next sampleConstants sampleUnspecified)
          vars after →
        after.cryptoState = .failed ∧
          after.state ∈ [.cryptoHandshake, .recovery, .closing, .closed] := by
  obtain ⟨vars, reached, inHandshake, handshaking, -⟩ :=
    exists_handshaking sampleUnspecified
      (by decide : 3 ≤ sampleConstants.nodeCount)
  have failed := reached.tail
    (.cryptoHandshakeFailed vars inHandshake handshaking)
  refine ⟨_, ?_, ?_, fun after steps => failed_handshake_is_final
    sampleConstants sampleUnspecified _ after failed rfl steps⟩
  · rfl
  · rfl

end NyxNet.Formal
