import NyxNet.Lib.DependencyOrder
import NyxNet.Lib.OrderedMap

/-!
# The layer manager

The layers of `nyx-daemon/src/layer_manager.rs`, their health and the ways to
recover them.  The layers themselves are placeholders there; what is kept is a
table of their health, the crypto sessions and the events on status changes.
The clock does not run back, and some time passes before every reading.
-/

namespace NyxNet.Layers

inductive LayerStatus where
  | initializing
  | active
  | degraded
  | failed
  | shutdown
  deriving DecidableEq, Repr

structure LayerMetrics where
  throughputMbps : Float
  latencyMs : Float
  errorRate : Float
  cpuUsage : Float
  memoryUsageMb : Float

def LayerMetrics.default : LayerMetrics := ⟨0.0, 0.0, 0.0, 0.0, 0.0⟩

/-- The times are readings of the clock in nanoseconds. -/
structure LayerHealth where
  layerName : String
  status : LayerStatus
  lastCheck : Nat
  errorCount : UInt32
  lastError : Option String
  performanceMetrics : LayerMetrics

/-- Some time passes before every reading. -/
structure Clock where
  delay : Nat → Nat
  readings : Nat
  time : Nat

def Clock.read (clock : Clock) : Clock :=
  { clock with
    readings := clock.readings + 1
    time := clock.time + clock.delay clock.readings }

structure LayerManager where
  clock : Clock
  layerHealth : List LayerHealth
  activeSessions : Std.ExtTreeMap String Unit compare
  /-- The events on status changes, oldest first. -/
  changes : List (String × LayerStatus)

abbrev Outcome : Type := LayerManager × Except String Unit

/-- An error is handed on. -/
def Outcome.andThen (outcome : Outcome) (next : LayerManager → Outcome) :
    Outcome :=
  match outcome with
  | (manager, .ok ()) => next manager
  | (manager, .error error) => (manager, .error error)

theorem Outcome.andThen_ok {outcome : Outcome} {manager : LayerManager}
    {next : LayerManager → Outcome} (isOk : outcome = (manager, .ok ())) :
    outcome.andThen next = next manager := by
  rw [isOk, andThen]

theorem Outcome.andThen_error {outcome : Outcome} {manager : LayerManager}
    {error : String} {next : LayerManager → Outcome}
    (isError : outcome = (manager, .error error)) :
    outcome.andThen next = (manager, .error error) := by
  rw [isError, andThen]

def seconds (count : Nat) : Nat := count * 1000000000

/-- The first entry with this name is changed. -/
def modifyLayer (name : String) (change : LayerHealth → LayerHealth) :
    List LayerHealth → List LayerHealth
  | [] => []
  | layer :: layers =>
      if layer.layerName = name then change layer :: layers
      else layer :: modifyLayer name change layers

namespace LayerManager

def layer (manager : LayerManager) (name : String) : Option LayerHealth :=
  manager.layerHealth.find? fun layer => layer.layerName = name

def getLayerStatus (manager : LayerManager) (name : String) :
    Option LayerStatus :=
  (manager.layer name).map LayerHealth.status

def getLayerMetrics (manager : LayerManager) (name : String) :
    Option LayerMetrics :=
  (manager.layer name).map LayerHealth.performanceMetrics

def readClock (manager : LayerManager) : LayerManager :=
  { manager with clock := manager.clock.read }

def sleep (manager : LayerManager) (nanos : Nat) : LayerManager :=
  { manager with
    clock := { manager.clock with time := manager.clock.time + nanos } }

def modify (manager : LayerManager) (name : String)
    (change : LayerHealth → LayerHealth) : LayerManager :=
  { manager with layerHealth := modifyLayer name change manager.layerHealth }

def clearSessions (manager : LayerManager) : LayerManager :=
  { manager with activeSessions := ∅ }

def updateLayerStatus (manager : LayerManager) (name : String)
    (status : LayerStatus) : LayerManager :=
  let manager := manager.readClock
  { manager.modify name fun layer =>
      { layer with status := status, lastCheck := manager.clock.time } with
    changes := manager.changes ++ [(name, status)] }

/-- The updates of several layers to one status, in the order given. -/
def updateAll (manager : LayerManager) (names : List String)
    (status : LayerStatus) : LayerManager :=
  names.foldl (fun manager name => manager.updateLayerStatus name status)
    manager

def emergencyShutdown (manager : LayerManager) : LayerManager :=
  manager.updateAll ["mix", "stream", "fec", "crypto", "transport"] .shutdown

def degradeCryptoLayer (manager : LayerManager) : LayerManager :=
  (manager.updateLayerStatus "crypto" .degraded).clearSessions

def degradeFecLayer (manager : LayerManager) : LayerManager :=
  manager.updateLayerStatus "fec" .degraded

def degradeStreamLayer (manager : LayerManager) : LayerManager :=
  manager.updateLayerStatus "stream" .degraded

def degradeMixLayer (manager : LayerManager) : LayerManager :=
  manager.updateLayerStatus "mix" .degraded

def handleLayerFailure (manager : LayerManager) (name error : String) :
    LayerManager :=
  let manager := (manager.updateLayerStatus name .failed).modify name
    fun layer =>
      { layer with
        errorCount := layer.errorCount + 1
        lastError := some error }
  match name with
  | "transport" => manager.emergencyShutdown
  | "crypto" => manager.degradeCryptoLayer
  | "fec" => manager.degradeFecLayer
  | "stream" => manager.degradeStreamLayer
  | "mix" => manager.degradeMixLayer
  | _ => manager

/-- A layer is a placeholder, and its start is a change of its status. -/
def startLayer (manager : LayerManager) (name : String) : Outcome :=
  (manager.updateLayerStatus name .active, .ok ())

def startTransportLayer (manager : LayerManager) : Outcome :=
  manager.startLayer "transport"

def startCryptoLayer (manager : LayerManager) : Outcome :=
  manager.startLayer "crypto"

def startFecLayer (manager : LayerManager) : Outcome :=
  manager.startLayer "fec"

def startStreamLayer (manager : LayerManager) : Outcome :=
  manager.startLayer "stream"

def startMixLayer (manager : LayerManager) : Outcome :=
  manager.startLayer "mix"

/-- A failed start is handled, and the next layer is started all the same. -/
def settleStart (outcome : Outcome) (name : String) : LayerManager :=
  match outcome with
  | (manager, .ok ()) => manager
  | (manager, .error error) => manager.handleLayerFailure name error

/-- `start` without the background tasks. -/
def start (manager : LayerManager) : LayerManager :=
  let manager := settleStart manager.startTransportLayer "transport"
  let manager := settleStart manager.startCryptoLayer "crypto"
  let manager := settleStart manager.startFecLayer "fec"
  let manager := settleStart manager.startStreamLayer "stream"
  settleStart manager.startMixLayer "mix"

def restartLayer (manager : LayerManager) (name : String) : Outcome :=
  let manager := manager.updateLayerStatus name .initializing
  let started : Option Outcome :=
    match name with
    | "transport" => some manager.startTransportLayer
    | "crypto" => some manager.startCryptoLayer
    | "fec" => some manager.startFecLayer
    | "stream" => some manager.startStreamLayer
    | "mix" => some manager.startMixLayer
    | _ => none
  match started with
  | none => (manager, .error ("Unknown layer: " ++ name))
  | some (manager, .ok ()) =>
      (manager.modify name fun layer =>
        { layer with errorCount := 0, lastError := none }, .ok ())
  | some (manager, .error error) =>
      (manager.handleLayerFailure name error,
        .error ("Failed to restart layer " ++ name))

def gracefulLayerStop (manager : LayerManager) (name : String) :
    LayerManager :=
  let manager := (manager.updateLayerStatus name .shutdown).sleep (seconds 2)
  match name with
  | "crypto" => manager.clearSessions
  | _ => manager

def stopLayers (manager : LayerManager) (names : List String) :
    LayerManager :=
  names.foldl gracefulLayerStop manager

end LayerManager

/-- The layer works within its limits. -/
def LayerMetrics.withinLimits (metrics : LayerMetrics) : Bool :=
  metrics.errorRate < 0.1 && metrics.cpuUsage < 90.0 &&
    metrics.latencyMs < 1000.0

/-- A time before the last check counts as no time since then. -/
def LayerHealth.healthyAt (layer : LayerHealth) (now : Nat) : Bool :=
  (layer.status = .active && layer.errorCount < 5) &&
    layer.performanceMetrics.withinLimits &&
    now - layer.lastCheck < seconds 60

namespace LayerManager

def isLayerHealthy (manager : LayerManager) (name : String) :
    LayerManager × Bool :=
  match manager.layer name with
  | some layer =>
      let manager := manager.readClock
      (manager, layer.healthyAt manager.clock.time)
  | none => (manager, false)

/-- What the check of each layer finds. -/
def checkedMetrics (sessions : Nat) : String → Option LayerMetrics
  | "crypto" => some ⟨150.0, 5.0, 0.001, 15.0, sessions.toFloat * 0.5⟩
  | "stream" => some ⟨120.0, 25.0, 0.005, 20.0, 50.0⟩
  | "mix" => some ⟨80.0, 75.0, 0.02, 30.0, 100.0⟩
  | "fec" => some ⟨200.0, 10.0, 0.001, 25.0, 75.0⟩
  | "transport" => some ⟨100.0, 50.0, 0.01, 10.0, 25.0⟩
  | _ => none

/-- The check looks at no layer: it finds each of them active. -/
def checkLayer (sessions now : Nat) (layer : LayerHealth) : LayerHealth :=
  match checkedMetrics sessions layer.layerName with
  | some metrics =>
      { layer with
        status := .active
        performanceMetrics := metrics
        lastCheck := now }
  | none => { layer with lastCheck := now }

/-- The loop of the check over the rest of the table. -/
def checkLayers (sessions : Nat) :
    List LayerHealth → Clock → Clock × List LayerHealth
  | [], clock => (clock, [])
  | layer :: layers, clock =>
      let clock := clock.read
      let checked := checkLayers sessions layers clock
      (checked.1, checkLayer sessions clock.time layer :: checked.2)

def checkAllLayersHealth (manager : LayerManager) : LayerManager :=
  let checked := checkLayers manager.activeSessions.size manager.layerHealth
    manager.clock
  { manager with clock := checked.1, layerHealth := checked.2 }

theorem le_time_readClock (manager : LayerManager) :
    manager.clock.time ≤ manager.readClock.clock.time :=
  Nat.le_add_right _ _

theorem le_time_isLayerHealthy (manager : LayerManager) (name : String) :
    manager.clock.time ≤ (manager.isLayerHealthy name).1.clock.time := by
  unfold isLayerHealthy
  split
  · exact manager.le_time_readClock
  · exact Nat.le_refl _

/-- The loop of `wait_for_layer_stability` after so many stable checks. -/
def stabilityLoop (name : String) (startTime timeout stableChecks : Nat)
    (manager : LayerManager) : Outcome :=
  if manager.readClock.clock.time - startTime < timeout then
    let checked := manager.readClock.isLayerHealthy name
    if checked.2 then
      if 3 ≤ stableChecks + 1 then (checked.1, .ok ())
      else
        stabilityLoop name startTime timeout (stableChecks + 1)
          (checked.1.sleep (seconds 2))
    else
      stabilityLoop name startTime timeout 0 (checked.1.sleep (seconds 2))
  else
    (manager.readClock, .error ("Layer " ++ name ++
      " did not stabilize within timeout"))
  termination_by startTime + timeout - manager.clock.time
  decreasing_by
    all_goals
      have read := manager.le_time_readClock
      have checked := manager.readClock.le_time_isLayerHealthy name
      simp only [sleep, seconds]
      omega

def waitForLayerStability (manager : LayerManager) (name : String)
    (timeout : Nat) : Outcome :=
  let manager := manager.readClock
  stabilityLoop name manager.clock.time timeout 0 manager

def getLayerDependencies : String → List String
  | "transport" => []
  | "crypto" => ["transport"]
  | "fec" => ["transport"]
  | "stream" => ["transport", "crypto", "fec"]
  | "mix" => ["transport", "crypto", "fec", "stream"]
  | _ => []

def getLayerDependents : String → List String
  | "transport" => ["crypto", "fec", "stream", "mix"]
  | "crypto" => ["stream", "mix"]
  | "fec" => ["stream", "mix"]
  | "stream" => ["mix"]
  | "mix" => []
  | _ => []

end LayerManager

/-- The layers in the order in which they are started. -/
def layerNames : List String := ["transport", "crypto", "fec", "stream", "mix"]

/-- How many layers deep the dependencies of a layer go. -/
def layerRank : String → Nat
  | "transport" => 0
  | "crypto" => 1
  | "fec" => 1
  | "stream" => 2
  | "mix" => 3
  | _ => 0

/-- The dependencies have no circles. -/
def layerNeeds : Needs String where
  needs := LayerManager.getLayerDependencies
  rank := layerRank
  rank_lt := by
    intro node need needed
    unfold LayerManager.getLayerDependencies at needed
    split at needed <;>
      simp only [List.mem_cons, List.not_mem_nil, or_false] at needed
    · rw [needed]
      decide
    · rw [needed]
      decide
    · rcases needed with rfl | rfl | rfl <;> decide
    · rcases needed with rfl | rfl | rfl | rfl <;> decide

namespace LayerManager

/-- `build_dependency_chain`; its recursion is the walk over the
dependencies. -/
def buildDependencyChain (name : String) : List String :=
  let chain := layerNeeds.chainOf name
  if name ∈ chain then chain else chain ++ [name]

example : buildDependencyChain "mix" =
    ["transport", "crypto", "fec", "stream", "mix"] := by
  decide

/-- The dependencies that are not healthy are recovered first. -/
def recoverDependencies (recover : LayerManager → String → Outcome) :
    LayerManager → List String → Outcome
  | manager, [] => (manager, .ok ())
  | manager, dependency :: dependencies =>
      let checked := manager.isLayerHealthy dependency
      if checked.2 then
        recoverDependencies recover checked.1 dependencies
      else
        match recover checked.1 dependency with
        | (manager, .ok ()) => recoverDependencies recover manager dependencies
        | (manager, .error _) => (manager, .error "Dependency recovery failed")

/-- A dependent that does not start or does not stabilize is left to itself. -/
def restartDependents (manager : LayerManager) :
    List String → LayerManager
  | [] => manager
  | dependent :: dependents =>
      match manager.restartLayer dependent with
      | (manager, .error _) => manager.restartDependents dependents
      | (manager, .ok ()) =>
          (manager.waitForLayerStability dependent (seconds 15)).1
            |>.restartDependents dependents

/-- The dependents are stopped before the layer itself. -/
def stopForRecovery (manager : LayerManager) (name : String) : LayerManager :=
  (manager.stopLayers (getLayerDependents name)).gracefulLayerStop name

/-- `recover_layer_with_dependencies` to the depth given. -/
def recoverTo : Nat → LayerManager → String → Outcome
  | 0, manager, _ => (manager, .error "")
  | depth + 1, manager, name =>
      (recoverDependencies (recoverTo depth) (manager.stopForRecovery name)
        (getLayerDependencies name)).andThen fun manager =>
      (manager.restartLayer name).andThen fun manager =>
      (manager.waitForLayerStability name (seconds 30)).andThen fun manager =>
        (manager.restartDependents (getLayerDependents name), .ok ())

/-- Dependencies are recovered by the same function, so that its depth is the
rank of the layer. -/
def recoverLayerWithDependencies (manager : LayerManager) (name : String) :
    Outcome :=
  recoverTo (layerRank name + 1) manager name

/-- Layers are started one after another, each when the one before is stable. -/
def startInOrder (manager : LayerManager) : List String → Outcome
  | [] => (manager, .ok ())
  | name :: names =>
      (manager.restartLayer name).andThen fun manager =>
      (manager.waitForLayerStability name (seconds 30)).andThen fun manager =>
        manager.startInOrder names

def sequentialRecovery (manager : LayerManager) (name : String) : Outcome :=
  let chain := buildDependencyChain name
  ((manager.stopLayers chain.reverse).sleep (seconds 3)).startInOrder chain

/-- All layers are looked at until one is not healthy. -/
def verifyHealthy (manager : LayerManager) :
    List String → LayerManager × Bool
  | [] => (manager, true)
  | name :: names =>
      let checked := manager.isLayerHealthy name
      if checked.2 then checked.1.verifyHealthy names else (checked.1, false)

def verifyAllLayersHealthy (manager : LayerManager) : LayerManager × Bool :=
  manager.verifyHealthy ["transport", "crypto", "fec", "stream", "mix"]

def rollbackToState (manager : LayerManager)
    (previousState : List LayerHealth) : LayerManager :=
  { manager with layerHealth := previousState }

def recoveryWithRollback (manager : LayerManager) (name : String) : Outcome :=
  let initialState := manager.layerHealth
  match manager.sequentialRecovery name with
  | (manager, .ok ()) =>
      let verified := manager.verifyAllLayersHealthy
      if verified.2 then (verified.1, .ok ())
      else
        (verified.1.rollbackToState initialState,
          .error "Recovery succeeded but system health check failed")
  | (manager, .error error) =>
      (manager.rollbackToState initialState, .error error)

/-- The restarts of a cold restart, some seconds apart. -/
def coldStart (manager : LayerManager) : List String → Outcome
  | [] => (manager, .ok ())
  | name :: names =>
      match manager.restartLayer name with
      | (manager, .error _) =>
          (manager, .error ("Cold restart failed at layer " ++ name))
      | (manager, .ok ()) => (manager.sleep (seconds 3)).coldStart names

def coldRestartStrategy (manager : LayerManager) : Outcome :=
  ((manager.stopLayers ["mix", "stream", "fec", "crypto", "transport"]).sleep
    (seconds 5)).coldStart ["transport", "crypto", "fec", "stream", "mix"]

def bypassLayerStrategy (manager : LayerManager) (name : String) : Outcome :=
  let manager := manager.updateLayerStatus name .shutdown
  match name with
  | "crypto" => (manager, .error "Cannot bypass critical crypto layer")
  | "transport" => (manager, .error "Cannot bypass critical transport layer")
  | _ => (manager, .ok ())

/-- The failure is only reported. -/
def escalateRecoveryFailure (manager : LayerManager) : Outcome :=
  (manager, .ok ())

/-- A cold restart, and a bypass after it. -/
def coldRestartOrBypass (manager : LayerManager) (name : String) : Outcome :=
  match manager.coldRestartStrategy with
  | (manager, .ok ()) => (manager, .ok ())
  | (manager, .error _) =>
      match manager.bypassLayerStrategy name with
      | (manager, .ok ()) => (manager, .ok ())
      | (manager, .error _) => manager.escalateRecoveryFailure

def escalateRecoveryWithAlternatives (manager : LayerManager)
    (name : String) : Outcome :=
  match manager.restartLayer name with
  | (manager, .ok ()) =>
      let checked := manager.isLayerHealthy name
      if checked.2 then (checked.1, .ok ())
      else checked.1.coldRestartOrBypass name
  | (manager, .error _) => manager.coldRestartOrBypass name

def handleTemporaryDegradation (manager : LayerManager)
    (affectedLayers : List String) : LayerManager :=
  manager.updateAll affectedLayers .degraded

def recoverLayer (manager : LayerManager) (name : String) : Outcome :=
  match (manager.handleTemporaryDegradation [name])
      |>.recoverLayerWithDependencies name with
  | (manager, .ok ()) =>
      let checked := manager.isLayerHealthy name
      if checked.2 then (checked.1, .ok ())
      else checked.1.escalateRecoveryWithAlternatives name
  | (manager, .error _) => manager.escalateRecoveryWithAlternatives name

/-- The first layer of the table that needs recovery. -/
def layerToRecover (clock : Clock) :
    List LayerHealth → Clock × Option String
  | [] => (clock, none)
  | layer :: layers =>
      if layer.status = .failed then (clock, some layer.layerName)
      else
        let looked := if layer.status = .degraded then clock.read else clock
        if layer.status = .degraded ∧
            seconds 300 < looked.time - layer.lastCheck then
          (looked, some layer.layerName)
        else if 10 < layer.errorCount then (looked, some layer.layerName)
        else layerToRecover looked layers

def checkLayerRecoveryNeeds (manager : LayerManager) : Outcome :=
  match layerToRecover manager.clock manager.layerHealth with
  | (clock, some name) => { manager with clock := clock }.recoverLayer name
  | (clock, none) => ({ manager with clock := clock }, .ok ())

/-- The restarts of `trigger_system_recovery`. -/
def restartFailed (manager : LayerManager) (failedLayers : List String) :
    List String → Outcome
  | [] => (manager, .ok ())
  | name :: names =>
      if name ∈ failedLayers then
        match manager.restartLayer name with
        | (manager, .ok ()) => manager.restartFailed failedLayers names
        | (manager, .error _) =>
            if name = "transport" ∨ name = "crypto" then
              manager.escalateRecoveryFailure
            else manager.restartFailed failedLayers names
      else manager.restartFailed failedLayers names

def triggerSystemRecovery (manager : LayerManager) : Outcome :=
  let failedLayers := (manager.layerHealth.filter fun layer =>
    layer.status = .failed).map LayerHealth.layerName
  manager.restartFailed failedLayers
    ["transport", "crypto", "fec", "stream", "mix"]

end LayerManager

inductive LayerCriticality where
  | critical
  | important
  | optional
  deriving DecidableEq, Repr

namespace LayerManager

def determineLayerCriticality : String → LayerCriticality
  | "transport" => .critical
  | "crypto" => .critical
  | "stream" => .important
  | "fec" => .important
  | "mix" => .optional
  | _ => .optional

def lastResortRecovery (manager : LayerManager) (name : String) : Outcome :=
  match name with
  | "transport" => manager.startTransportLayer
  | "crypto" => manager.clearSessions.startCryptoLayer
  | _ => manager.restartLayer name

def initiateControlledShutdown (manager : LayerManager) : LayerManager :=
  manager.stopLayers ["mix", "stream", "fec", "crypto", "transport"]

def initiateEmergencyProcedures (manager : LayerManager) (name : String) :
    Outcome :=
  match manager.lastResortRecovery name with
  | (manager, .ok ()) => (manager, .ok ())
  | (manager, .error _) => (manager.initiateControlledShutdown, .ok ())

def continueWithDegradedService (manager : LayerManager) (name : String) :
    LayerManager :=
  manager.updateLayerStatus name .shutdown

/-- The alternatives for an important layer change nothing yet. -/
def enhancedEscalation (manager : LayerManager) (name : String) : Outcome :=
  match determineLayerCriticality name with
  | .critical => manager.initiateEmergencyProcedures name
  | .important => (manager, .ok ())
  | .optional => (manager.continueWithDegradedService name, .ok ())

def addCryptoSession (manager : LayerManager) (session : String) :
    LayerManager :=
  { manager with activeSessions := manager.activeSessions.insert session () }

def removeCryptoSession (manager : LayerManager) (session : String) :
    LayerManager :=
  { manager with activeSessions := manager.activeSessions.erase session }

def shutdownAllLayers (manager : LayerManager) : LayerManager :=
  (manager.updateAll ["mix", "stream", "fec", "crypto", "transport"]
    .shutdown).clearSessions

def updateLayerMetrics (manager : LayerManager) (name : String)
    (throughput latency : Float) : LayerManager :=
  let manager := manager.readClock
  manager.modify name fun layer =>
    { layer with
      performanceMetrics :=
        { layer.performanceMetrics with
          throughputMbps := throughput / 1000000.0
          latencyMs := latency }
      lastCheck := manager.clock.time }

/-- The lengths of the sample on its way through the layers. -/
def processDataPipeline (manager : LayerManager) : LayerManager :=
  let length := "test_data_for_pipeline".utf8ByteSize
  let transported := length + 8
  let encoded := transported + 2 + min 32 (transported / 4)
  let encrypted := encoded + 30
  let streamed := encrypted + 8
  manager.updateLayerMetrics "transport" length.toFloat 2.0
    |>.updateLayerMetrics "fec" transported.toFloat 1.5
    |>.updateLayerMetrics "crypto" encoded.toFloat 3.0
    |>.updateLayerMetrics "stream" encrypted.toFloat 4.0
    |>.updateLayerMetrics "mix" streamed.toFloat 8.0

end LayerManager

def LayerHealth.new (name : String) (now : Nat) : LayerHealth where
  layerName := name
  status := .initializing
  lastCheck := now
  errorCount := 0
  lastError := none
  performanceMetrics := .default

/-- A new manager; the layers are listed at readings of the clock. -/
def LayerManager.new (clock : Clock) : LayerManager where
  clock := clock.read.read.read.read.read
  layerHealth :=
    [.new "crypto" clock.read.time,
      .new "stream" clock.read.read.time,
      .new "mix" clock.read.read.read.time,
      .new "fec" clock.read.read.read.read.time,
      .new "transport" clock.read.read.read.read.read.time]
  activeSessions := ∅
  changes := []

end NyxNet.Layers
