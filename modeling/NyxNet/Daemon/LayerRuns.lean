import NyxNet.Daemon.LayerRecovery

/-!
# Runs of the layer manager

No call on the layer manager of `nyx-daemon/src/layer_manager.rs` ever records a
failure, so its own check for layers that need recovery finds nothing but layers
that were degraded from outside.
-/

namespace NyxNet.Layers

/-- The calls on a manager and the turns of its background loops. -/
inductive Request where
  | restartLayer (name : String)
  | recoverLayer (name : String)
  | recoverLayerWithDependencies (name : String)
  | sequentialRecovery (name : String)
  | recoveryWithRollback (name : String)
  | escalateRecoveryWithAlternatives (name : String)
  | enhancedEscalation (name : String)
  | handleTemporaryDegradation (affectedLayers : List String)
  | triggerSystemRecovery
  | shutdown
  | addCryptoSession (session : String)
  | removeCryptoSession (session : String)
  | checkAllLayersHealth
  | checkLayerRecoveryNeeds
  | processDataPipeline
  deriving DecidableEq, Repr

namespace LayerManager

def perform (manager : LayerManager) : Request → LayerManager
  | .restartLayer name => (manager.restartLayer name).1
  | .recoverLayer name => (manager.recoverLayer name).1
  | .recoverLayerWithDependencies name =>
      (manager.recoverLayerWithDependencies name).1
  | .sequentialRecovery name => (manager.sequentialRecovery name).1
  | .recoveryWithRollback name => (manager.recoveryWithRollback name).1
  | .escalateRecoveryWithAlternatives name =>
      (manager.escalateRecoveryWithAlternatives name).1
  | .enhancedEscalation name => (manager.enhancedEscalation name).1
  | .handleTemporaryDegradation affectedLayers =>
      manager.handleTemporaryDegradation affectedLayers
  | .triggerSystemRecovery => manager.triggerSystemRecovery.1
  | .shutdown => manager.shutdownAllLayers
  | .addCryptoSession session => manager.addCryptoSession session
  | .removeCryptoSession session => manager.removeCryptoSession session
  | .checkAllLayersHealth => manager.checkAllLayersHealth
  | .checkLayerRecoveryNeeds => manager.checkLayerRecoveryNeeds.1
  | .processDataPipeline => manager.processDataPipeline

def run (manager : LayerManager) (requests : List Request) : LayerManager :=
  requests.foldl perform manager

end LayerManager

/-- A layer on which no failure is recorded. -/
structure LayerHealth.Sane (layer : LayerHealth) : Prop where
  status : layer.status ≠ .failed
  errorCount : layer.errorCount = 0
  lastError : layer.lastError = none
  limits : layer.performanceMetrics.withinLimits = true

namespace LayerManager

/-- The table lists the layers, and no failure is recorded in it. -/
structure Sane (manager : LayerManager) (delay : Nat → Nat) : Prop where
  delay : manager.clock.delay = delay
  names : manager.layerHealth.map LayerHealth.layerName =
    ["crypto", "stream", "mix", "fec", "transport"]
  layers : ∀ layer ∈ manager.layerHealth, layer.Sane

variable {manager : LayerManager} {name : String} {delay : Nat → Nat}

theorem Sane.of_layerHealth {before after : LayerManager}
    (sane : before.Sane delay)
    (table : after.layerHealth = before.layerHealth)
    (same : after.clock.delay = before.clock.delay) : after.Sane delay := by
  refine ⟨same.trans sane.delay, ?_, ?_⟩
  · rw [table]
    exact sane.names
  · rw [table]
    exact sane.layers

theorem forall_modifyLayer {P : LayerHealth → Prop}
    {change : LayerHealth → LayerHealth} (layers : List LayerHealth)
    (holds : ∀ layer ∈ layers, P layer)
    (changed : ∀ layer, P layer → P (change layer)) :
    ∀ layer ∈ modifyLayer name change layers, P layer := by
  induction layers with
  | nil => exact List.forall_mem_nil _
  | cons layer layers ih =>
      obtain ⟨here, rest⟩ := List.forall_mem_cons.mp holds
      rw [modifyLayer]
      split
      · exact List.forall_mem_cons.mpr ⟨changed layer here, rest⟩
      · exact List.forall_mem_cons.mpr ⟨here, ih rest⟩

theorem Sane.modify {change : LayerHealth → LayerHealth}
    (sane : manager.Sane delay)
    (keepsName : ∀ layer, (change layer).layerName = layer.layerName)
    (changed : ∀ layer : LayerHealth, layer.Sane → (change layer).Sane) :
    (manager.modify name change).Sane delay := by
  refine ⟨sane.delay, ?_, forall_modifyLayer _ sane.layers changed⟩
  exact (map_layerName_modifyLayer keepsName _).trans sane.names

theorem Sane.updateLayerStatus {status : LayerStatus} (sane : manager.Sane delay)
    (notFailed : status ≠ .failed) :
    (manager.updateLayerStatus name status).Sane delay := by
  have read : manager.readClock.Sane delay := sane.of_layerHealth rfl rfl
  have changed : (manager.readClock.modify name fun layer =>
      { layer with
        status := status
        lastCheck := manager.readClock.clock.time }).Sane delay :=
    read.modify (fun _ => rfl) fun layer saneLayer =>
      ⟨notFailed, saneLayer.errorCount, saneLayer.lastError, saneLayer.limits⟩
  exact changed.of_layerHealth rfl rfl

theorem Sane.updateAll {status : LayerStatus} (names : List String)
    (sane : manager.Sane delay) (notFailed : status ≠ .failed) :
    (manager.updateAll names status).Sane delay := by
  induction names generalizing manager with
  | nil => exact sane
  | cons name names ih => exact ih (sane.updateLayerStatus notFailed)

theorem Sane.gracefulLayerStop (sane : manager.Sane delay) :
    (manager.gracefulLayerStop name).Sane delay :=
  (sane.updateLayerStatus (by decide)).of_layerHealth
    layerHealth_gracefulLayerStop Kept.gracefulLayerStop.delay

theorem Sane.stopLayers (names : List String) (sane : manager.Sane delay) :
    (manager.stopLayers names).Sane delay := by
  induction names generalizing manager with
  | nil => exact sane
  | cons name names ih => exact ih sane.gracefulLayerStop

theorem Sane.restartLayer (sane : manager.Sane delay) :
    (manager.restartLayer name).1.Sane delay := by
  by_cases known : name ∈ layerNames
  · rw [restartLayer_of_mem known]
    have started : ((manager.updateLayerStatus name
        .initializing).updateLayerStatus name .active).Sane delay :=
      (sane.updateLayerStatus (by decide)).updateLayerStatus (by decide)
    exact started.modify (fun _ => rfl) fun layer saneLayer =>
      ⟨saneLayer.status, rfl, rfl, saneLayer.limits⟩
  · rw [restartLayer_of_not_mem known]
    exact sane.updateLayerStatus (by decide)

theorem Sane.waited {before after : LayerManager} (sane : before.Sane delay)
    (waited : Waited before after) : after.Sane delay :=
  sane.of_layerHealth waited.layerHealth waited.delay

end LayerManager

/-- Whatever comes of it, no failure is recorded. -/
def Outcome.Sane (outcome : Outcome) (delay : Nat → Nat) : Prop :=
  outcome.1.Sane delay

theorem Outcome.Sane.andThen {outcome : Outcome} {delay : Nat → Nat}
    {next : LayerManager → Outcome} (sane : outcome.Sane delay)
    (nextSane : ∀ manager : LayerManager, manager.Sane delay →
      (next manager).Sane delay) :
    (outcome.andThen next).Sane delay := by
  cases outcome with
  | mk manager result =>
      cases result with
      | ok _ => exact nextSane manager sane
      | error error => exact sane

namespace LayerManager

variable {manager : LayerManager} {name : String} {delay : Nat → Nat}

theorem Sane.isLayerHealthy (sane : manager.Sane delay) :
    (manager.isLayerHealthy name).1.Sane delay :=
  sane.waited waited_isLayerHealthy

theorem Sane.waitForLayerStability (timeout : Nat) (sane : manager.Sane delay) :
    (manager.waitForLayerStability name timeout).1.Sane delay :=
  sane.waited (waited_waitForLayerStability timeout)

theorem Sane.recoverDependencies {recover : LayerManager → String → Outcome}
    (recovers : ∀ (before : LayerManager) (name : String), before.Sane delay →
      (recover before name).Sane delay)
    (dependencies : List String) (sane : manager.Sane delay) :
    (recoverDependencies recover manager dependencies).Sane delay := by
  induction dependencies generalizing manager with
  | nil => exact sane
  | cons dependency dependencies ih =>
      rw [LayerManager.recoverDependencies]
      split
      · exact ih sane.isLayerHealthy
      · have one := recovers (manager.isLayerHealthy dependency).1 dependency
          sane.isLayerHealthy
        split
        · next outcome =>
            rw [outcome] at one
            exact ih one
        · next outcome =>
            rw [outcome] at one
            exact one

theorem Sane.restartDependents (dependents : List String)
    (sane : manager.Sane delay) :
    (manager.restartDependents dependents).Sane delay := by
  induction dependents generalizing manager with
  | nil => exact sane
  | cons dependent dependents ih =>
      have restarted : (manager.restartLayer dependent).1.Sane delay :=
        sane.restartLayer
      rw [LayerManager.restartDependents]
      split
      · next outcome =>
          rw [outcome] at restarted
          exact ih restarted
      · next outcome =>
          rw [outcome] at restarted
          exact ih (restarted.waitForLayerStability _)

theorem Sane.recoverTo (depth : Nat) (sane : manager.Sane delay) :
    (recoverTo depth manager name).Sane delay := by
  induction depth generalizing manager name with
  | zero => exact sane
  | succ depth ih =>
      have stopped : (manager.stopForRecovery name).Sane delay :=
        (sane.stopLayers _).gracefulLayerStop
      rw [LayerManager.recoverTo]
      apply (stopped.recoverDependencies (fun _ _ before => ih before) _).andThen
      intro recovered saneRecovered
      apply Outcome.Sane.andThen saneRecovered.restartLayer
      intro restarted saneRestarted
      apply Outcome.Sane.andThen (saneRestarted.waitForLayerStability _)
      intro stable saneStable
      exact saneStable.restartDependents _

theorem Sane.startInOrder (names : List String) (sane : manager.Sane delay) :
    (manager.startInOrder names).Sane delay := by
  induction names generalizing manager with
  | nil => exact sane
  | cons name names ih =>
      rw [LayerManager.startInOrder]
      apply Outcome.Sane.andThen sane.restartLayer
      intro restarted saneRestarted
      apply Outcome.Sane.andThen (saneRestarted.waitForLayerStability _)
      intro stable saneStable
      exact ih saneStable

theorem Sane.sequentialRecovery (sane : manager.Sane delay) :
    (manager.sequentialRecovery name).Sane delay :=
  ((sane.stopLayers _).waited (waited_sleep _)).startInOrder _

theorem Sane.verifyHealthy (names : List String) (sane : manager.Sane delay) :
    (manager.verifyHealthy names).1.Sane delay := by
  induction names generalizing manager with
  | nil => exact sane
  | cons name names ih =>
      rw [LayerManager.verifyHealthy]
      split
      · exact ih sane.isLayerHealthy
      · exact sane.isLayerHealthy

/-- A rollback brings back a table without failures. -/
theorem Sane.recoveryWithRollback (sane : manager.Sane delay) :
    (manager.recoveryWithRollback name).Sane delay := by
  have recovered : (manager.sequentialRecovery name).Sane delay :=
    sane.sequentialRecovery
  have restored : ∀ other : LayerManager, other.Sane delay →
      (other.rollbackToState manager.layerHealth).Sane delay :=
    fun other saneOther => ⟨saneOther.delay, sane.names, sane.layers⟩
  unfold LayerManager.recoveryWithRollback
  dsimp only
  split
  · next outcome =>
      rw [outcome] at recovered
      have verified := Sane.verifyHealthy layerNames recovered
      split
      · exact verified
      · exact restored _ verified
  · next outcome =>
      rw [outcome] at recovered
      exact restored _ recovered

theorem Sane.coldStart (names : List String) (sane : manager.Sane delay) :
    (manager.coldStart names).Sane delay := by
  induction names generalizing manager with
  | nil => exact sane
  | cons name names ih =>
      have restarted : (manager.restartLayer name).1.Sane delay := sane.restartLayer
      rw [LayerManager.coldStart]
      split
      · next outcome =>
          rw [outcome] at restarted
          exact restarted
      · next outcome =>
          rw [outcome] at restarted
          exact ih (restarted.waited (waited_sleep _))

theorem Sane.coldRestartStrategy (sane : manager.Sane delay) :
    manager.coldRestartStrategy.Sane delay :=
  ((sane.stopLayers _).waited (waited_sleep _)).coldStart _

theorem Sane.bypassLayerStrategy (sane : manager.Sane delay) :
    (manager.bypassLayerStrategy name).Sane delay := by
  have bypassed : (manager.updateLayerStatus name .shutdown).Sane delay :=
    sane.updateLayerStatus (by decide)
  unfold LayerManager.bypassLayerStrategy
  dsimp only
  split <;> exact bypassed

theorem Sane.coldRestartOrBypass (sane : manager.Sane delay) :
    (manager.coldRestartOrBypass name).Sane delay := by
  have restarted := sane.coldRestartStrategy
  unfold LayerManager.coldRestartOrBypass
  split
  · next outcome =>
      rw [outcome] at restarted
      exact restarted
  · next after _ outcome =>
      rw [outcome] at restarted
      have bypassed : (after.bypassLayerStrategy name).Sane delay :=
        Sane.bypassLayerStrategy restarted
      split
      · next last =>
          rw [last] at bypassed
          exact bypassed
      · next last =>
          rw [last] at bypassed
          exact bypassed

theorem Sane.escalateRecoveryWithAlternatives (sane : manager.Sane delay) :
    (manager.escalateRecoveryWithAlternatives name).Sane delay := by
  have restarted : (manager.restartLayer name).1.Sane delay := sane.restartLayer
  unfold LayerManager.escalateRecoveryWithAlternatives
  split
  · next outcome =>
      rw [outcome] at restarted
      dsimp only
      split
      · exact restarted.isLayerHealthy
      · exact Sane.coldRestartOrBypass restarted.isLayerHealthy
  · next outcome =>
      rw [outcome] at restarted
      exact Sane.coldRestartOrBypass restarted

theorem Sane.recoverLayer (sane : manager.Sane delay) :
    (manager.recoverLayer name).Sane delay := by
  have degraded : (manager.handleTemporaryDegradation [name]).Sane delay :=
    sane.updateAll _ (by decide)
  have recovered : ((manager.handleTemporaryDegradation
      [name]).recoverLayerWithDependencies name).Sane delay := degraded.recoverTo _
  unfold LayerManager.recoverLayer
  split
  · next outcome =>
      rw [outcome] at recovered
      dsimp only
      split
      · exact Sane.isLayerHealthy recovered
      · exact Sane.escalateRecoveryWithAlternatives
          (Sane.isLayerHealthy recovered)
  · next outcome =>
      rw [outcome] at recovered
      exact Sane.escalateRecoveryWithAlternatives recovered

theorem Sane.restartFailed (failedLayers names : List String)
    (sane : manager.Sane delay) :
    (manager.restartFailed failedLayers names).Sane delay := by
  induction names generalizing manager with
  | nil => exact sane
  | cons name names ih =>
      have restarted : (manager.restartLayer name).1.Sane delay := sane.restartLayer
      rw [LayerManager.restartFailed]
      split
      · split
        · next outcome =>
            rw [outcome] at restarted
            exact ih restarted
        · next outcome =>
            rw [outcome] at restarted
            split
            · exact restarted
            · exact ih restarted
      · exact ih sane

theorem Sane.enhancedEscalation (sane : manager.Sane delay) :
    (manager.enhancedEscalation name).Sane delay := by
  unfold LayerManager.enhancedEscalation
  split
  · have resorted : (manager.lastResortRecovery name).Sane delay := by
      unfold LayerManager.lastResortRecovery
      split
      · exact sane.updateLayerStatus (by decide)
      · have cleared : manager.clearSessions.Sane delay :=
          sane.of_layerHealth rfl rfl
        exact cleared.updateLayerStatus (by decide)
      · exact sane.restartLayer
    unfold LayerManager.initiateEmergencyProcedures
    split
    · next outcome =>
        rw [outcome] at resorted
        exact resorted
    · next outcome =>
        rw [outcome] at resorted
        exact Sane.stopLayers _ resorted
  · exact sane
  · exact sane.updateLayerStatus (by decide)

/-- The memory has no limit. -/
theorem withinLimits_crypto (memory : Float) :
    (⟨150.0, 5.0, 0.001, 15.0, memory⟩ : LayerMetrics).withinLimits =
      true := by
  change (⟨150.0, 5.0, 0.001, 15.0, 0.0⟩ : LayerMetrics).withinLimits = true
  decide +kernel

theorem withinLimits_of_checkedMetrics {sessions : Nat}
    {metrics : LayerMetrics}
    (checked : checkedMetrics sessions name = some metrics) :
    metrics.withinLimits = true := by
  unfold checkedMetrics at checked
  split at checked <;> cases checked
  · exact withinLimits_crypto _
  · decide +kernel
  · decide +kernel
  · decide +kernel
  · decide +kernel

theorem checkLayer_sane {sessions now : Nat} {layer : LayerHealth}
    (sane : layer.Sane) : (checkLayer sessions now layer).Sane := by
  unfold checkLayer
  split
  · next metrics checked =>
      exact ⟨by simp, sane.errorCount, sane.lastError,
        withinLimits_of_checkedMetrics checked⟩
  · exact ⟨sane.status, sane.errorCount, sane.lastError, sane.limits⟩

theorem layerName_checkLayer {sessions now : Nat} {layer : LayerHealth} :
    (checkLayer sessions now layer).layerName = layer.layerName := by
  unfold checkLayer
  split <;> rfl

theorem map_layerName_checkLayers (sessions : Nat) (layers : List LayerHealth)
    (clock : Clock) :
    (checkLayers sessions layers clock).2.map LayerHealth.layerName =
      layers.map LayerHealth.layerName := by
  induction layers generalizing clock with
  | nil => rfl
  | cons layer layers ih =>
      rw [checkLayers, List.map_cons, List.map_cons, layerName_checkLayer, ih]

theorem forall_checkLayers {P : LayerHealth → Prop} (sessions : Nat)
    (layers : List LayerHealth) (clock : Clock)
    (checked : ∀ layer ∈ layers, ∀ now, P (checkLayer sessions now layer)) :
    ∀ layer ∈ (checkLayers sessions layers clock).2, P layer := by
  induction layers generalizing clock with
  | nil => exact List.forall_mem_nil _
  | cons layer layers ih =>
      obtain ⟨here, rest⟩ := List.forall_mem_cons.mp checked
      rw [checkLayers]
      exact List.forall_mem_cons.mpr ⟨here _, ih _ rest⟩

theorem delay_checkLayers (sessions : Nat) (layers : List LayerHealth)
    (clock : Clock) :
    (checkLayers sessions layers clock).1.delay = clock.delay := by
  induction layers generalizing clock with
  | nil => rfl
  | cons layer layers ih => exact ih clock.read

theorem Sane.checkAllLayersHealth (sane : manager.Sane delay) :
    manager.checkAllLayersHealth.Sane delay :=
  ⟨(delay_checkLayers _ _ _).trans sane.delay,
    (map_layerName_checkLayers _ _ _).trans sane.names,
    forall_checkLayers _ _ _ fun layer member _ =>
      checkLayer_sane (sane.layers layer member)⟩

theorem Sane.updateLayerMetrics {throughput latency : Float}
    (sane : manager.Sane delay) (fast : decide (latency < 1000.0) = true) :
    (manager.updateLayerMetrics name throughput latency).Sane delay := by
  have read : manager.readClock.Sane delay := sane.of_layerHealth rfl rfl
  apply read.modify
  · intro layer
    rfl
  · intro layer saneLayer
    refine ⟨saneLayer.status, saneLayer.errorCount, saneLayer.lastError, ?_⟩
    have limits := saneLayer.limits
    unfold LayerMetrics.withinLimits at limits ⊢
    rw [Bool.and_eq_true] at limits ⊢
    exact ⟨limits.1, fast⟩

theorem Sane.processDataPipeline (sane : manager.Sane delay) :
    manager.processDataPipeline.Sane delay := by
  unfold LayerManager.processDataPipeline
  dsimp only
  apply Sane.updateLayerMetrics _ (by decide +kernel)
  apply Sane.updateLayerMetrics _ (by decide +kernel)
  apply Sane.updateLayerMetrics _ (by decide +kernel)
  apply Sane.updateLayerMetrics _ (by decide +kernel)
  exact sane.updateLayerMetrics (by decide +kernel)

theorem delay_layerToRecover (layers : List LayerHealth) (clock : Clock) :
    (layerToRecover clock layers).1.delay = clock.delay := by
  induction layers generalizing clock with
  | nil => rfl
  | cons layer layers ih =>
      rw [layerToRecover]
      have looked : (if layer.status = .degraded then clock.read
          else clock).delay = clock.delay := by
        split <;> rfl
      dsimp only
      generalize (if layer.status = .degraded then clock.read else clock) =
        now at looked ⊢
      split
      · rfl
      · split
        · exact looked
        · split
          · exact looked
          · exact (ih now).trans looked

theorem Sane.checkLayerRecoveryNeeds (sane : manager.Sane delay) :
    manager.checkLayerRecoveryNeeds.Sane delay := by
  have same := delay_layerToRecover manager.layerHealth manager.clock
  unfold LayerManager.checkLayerRecoveryNeeds
  split
  · next selected =>
      rw [selected] at same
      exact Sane.recoverLayer (sane.of_layerHealth rfl same)
  · next selected =>
      rw [selected] at same
      exact sane.of_layerHealth rfl same

theorem sane_new (clock : Clock) :
    (LayerManager.new clock).Sane clock.delay := by
  have limits : LayerMetrics.default.withinLimits = true := by decide +kernel
  refine ⟨rfl, rfl, ?_⟩
  intro layer member
  simp only [LayerManager.new, List.mem_cons, List.not_mem_nil, or_false]
    at member
  rcases member with rfl | rfl | rfl | rfl | rfl <;>
    exact ⟨by simp [LayerHealth.new], rfl, rfl, limits⟩

theorem start_eq : manager.start = manager.updateAll layerNames .active := rfl

theorem sane_start (clock : Clock) :
    (LayerManager.new clock).start.Sane clock.delay := by
  rw [start_eq]
  exact (sane_new clock).updateAll _ (by decide)

theorem Sane.perform (sane : manager.Sane delay) (request : Request) :
    (manager.perform request).Sane delay := by
  cases request with
  | restartLayer name => exact sane.restartLayer
  | recoverLayer name => exact sane.recoverLayer
  | recoverLayerWithDependencies name => exact sane.recoverTo _
  | sequentialRecovery name => exact sane.sequentialRecovery
  | recoveryWithRollback name => exact sane.recoveryWithRollback
  | escalateRecoveryWithAlternatives name =>
      exact sane.escalateRecoveryWithAlternatives
  | enhancedEscalation name => exact sane.enhancedEscalation
  | handleTemporaryDegradation affectedLayers =>
      exact sane.updateAll _ (by decide)
  | triggerSystemRecovery => exact sane.restartFailed _ _
  | shutdown => exact (sane.updateAll _ (by decide)).of_layerHealth rfl rfl
  | addCryptoSession session => exact sane.of_layerHealth rfl rfl
  | removeCryptoSession session => exact sane.of_layerHealth rfl rfl
  | checkAllLayersHealth => exact sane.checkAllLayersHealth
  | checkLayerRecoveryNeeds => exact sane.checkLayerRecoveryNeeds
  | processDataPipeline => exact sane.processDataPipeline

theorem Sane.run (requests : List Request) (sane : manager.Sane delay) :
    (manager.run requests).Sane delay := by
  induction requests generalizing manager with
  | nil => exact sane
  | cons request requests ih => exact ih (sane.perform request)

theorem Sane.layer (sane : manager.Sane delay) (known : name ∈ layerNames) :
    ∃ layer, manager.layer name = some layer ∧ layer.Sane := by
  have listed : name ∈ manager.layerHealth.map LayerHealth.layerName := by
    rw [sane.names]
    revert known
    simp only [layerNames, List.mem_cons, List.not_mem_nil, or_false]
    rintro (rfl | rfl | rfl | rfl | rfl) <;> simp
  obtain ⟨layer, member, named⟩ := List.mem_map.mp listed
  cases found : manager.layer name with
  | none =>
      have missing := List.find?_eq_none.mp found layer member
      simp [named] at missing
  | some first =>
      exact ⟨first, rfl, sane.layers first (List.mem_of_find?_eq_some found)⟩

theorem Sane.within (sane : manager.Sane delay) (known : name ∈ layerNames) :
    manager.Within name := by
  obtain ⟨layer, present, saneLayer⟩ := sane.layer known
  exact (within_iff_of_layer present).mpr saneLayer.limits

theorem Sane.listed (sane : manager.Sane delay) : manager.Listed := by
  intro name known
  obtain ⟨metrics, present, _⟩ := sane.within known
  exact ⟨metrics, present⟩

/-- Among layers without failures only one that was degraded for long is
selected. -/
theorem layerToRecover_of_sane {selected : String} {after : Clock}
    (layers : List LayerHealth) (clock : Clock)
    (sane : ∀ layer ∈ layers, layer.Sane)
    (found : layerToRecover clock layers = (after, some selected)) :
    ∃ layer ∈ layers, layer.layerName = selected ∧
      layer.status = .degraded ∧
        seconds 300 < after.time - layer.lastCheck := by
  induction layers generalizing clock with
  | nil => cases found
  | cons layer layers ih =>
      obtain ⟨here, rest⟩ := List.forall_mem_cons.mp sane
      rw [layerToRecover, if_neg here.status] at found
      dsimp only at found
      generalize (if layer.status = .degraded then clock.read else clock) =
        now at found
      by_cases long : layer.status = .degraded ∧
          seconds 300 < now.time - layer.lastCheck
      · rw [if_pos long] at found
        cases found
        exact ⟨layer, List.mem_cons_self, rfl, long⟩
      · have few : ¬ 10 < layer.errorCount := by
          rw [here.errorCount]
          decide
        rw [if_neg long, if_neg few] at found
        obtain ⟨other, member, selected⟩ := ih now rest found
        exact ⟨other, List.mem_cons_of_mem _ member, selected⟩

/-- Whatever calls are made after the start, no failure is ever recorded.  So
every layer can be recovered at any time, unless the clock is read late, and the
check for layers that need recovery selects none but one that was degraded for
more than five minutes. -/
theorem run_records_no_failure (clock : Clock) (requests : List Request) :
    ((LayerManager.new clock).start.run requests).Sane clock.delay ∧
      (Clock.Timely clock.delay → ∀ name ∈ layerNames,
        (((LayerManager.new clock).start.run
            requests).recoverLayerWithDependencies name).2 = .ok () ∧
          (((LayerManager.new clock).start.run
            requests).sequentialRecovery name).2 = .ok ()) ∧
      ∀ after selected,
        layerToRecover ((LayerManager.new clock).start.run requests).clock
          ((LayerManager.new clock).start.run requests).layerHealth =
            (after, some selected) →
        ∃ layer ∈ ((LayerManager.new clock).start.run requests).layerHealth,
          layer.layerName = selected ∧ layer.status = .degraded ∧
            seconds 300 < after.time - layer.lastCheck := by
  have sane := (sane_start clock).run requests
  refine ⟨sane, ?_, ?_⟩
  · intro timely name known
    have timelyNow : Clock.Timely
        ((LayerManager.new clock).start.run requests).clock.delay := by
      rw [sane.delay]
      exact timely
    constructor
    · have recovers := recoverTo_recovers (layerRank name + 1) known
        (Nat.lt_succ_self _) sane.listed timelyNow
      apply recovers.ok_iff.mpr
      intro other member
      apply sane.within
      rcases List.mem_cons.mp member with same | dependency
      · rw [same]
        exact known
      · exact known_dependency known dependency
    · apply (sequentialRecovery_ok_iff known sane.listed timelyNow).mpr
      intro other member
      exact sane.within (known_of_mem_chain known member)
  · intro after selected found
    exact layerToRecover_of_sane _ _ sane.layers found

theorem run_records_no_failure_sample :
    (((LayerManager.new ⟨fun _ => 0, 0, 0⟩).start.run
      [.handleTemporaryDegradation ["fec"], .enhancedEscalation "mix",
        .recoverLayer "stream"]).recoverLayerWithDependencies "mix").2 =
          .ok () :=
  ((run_records_no_failure ⟨fun _ => 0, 0, 0⟩ _).2.1 (fun _ => Nat.zero_le _)
    "mix" (by decide)).1

/-- The turns of the background loops. -/
def Background (request : Request) : Prop :=
  request = .checkAllLayersHealth ∨ request = .checkLayerRecoveryNeeds ∨
    request = .processDataPipeline

instance Background.decidable (request : Request) :
    Decidable (Background request) :=
  inferInstanceAs (Decidable (_ ∨ _ ∨ _))

/-- All layers are listed as active, and no further change was sent. -/
structure Quiet (manager : LayerManager) (sent : List (String × LayerStatus)) :
    Prop where
  active : ∀ layer ∈ manager.layerHealth, layer.status = .active
  changes : manager.changes = sent

variable {sent : List (String × LayerStatus)}

theorem status_checkLayer {sessions now : Nat} {layer : LayerHealth}
    (among : layer.layerName ∈ layerNames) :
    (checkLayer sessions now layer).status = .active := by
  have looked : ∃ metrics,
      checkedMetrics sessions layer.layerName = some metrics := by
    revert among
    simp only [layerNames, List.mem_cons, List.not_mem_nil, or_false]
    rintro (named | named | named | named | named) <;>
      rw [named] <;> exact ⟨_, rfl⟩
  obtain ⟨metrics, checked⟩ := looked
  rw [checkLayer, checked]

theorem Sane.layerName_mem (sane : manager.Sane delay) {layer : LayerHealth}
    (member : layer ∈ manager.layerHealth) :
    layer.layerName ∈ layerNames := by
  have listed := List.mem_map_of_mem (f := LayerHealth.layerName) member
  rw [sane.names] at listed
  revert listed
  simp only [layerNames, List.mem_cons, List.not_mem_nil, or_false]
  rintro (named | named | named | named | named) <;> simp [named]

/-- The health check finds all layers active, whatever they were before. -/
theorem Sane.quiet_checkAllLayersHealth (sane : manager.Sane delay) :
    manager.checkAllLayersHealth.Quiet manager.changes :=
  ⟨forall_checkLayers _ _ _ fun _ member _ =>
    status_checkLayer (sane.layerName_mem member), rfl⟩

theorem Quiet.updateLayerMetrics (throughput latency : Float)
    (quiet : manager.Quiet sent) :
    (manager.updateLayerMetrics name throughput latency).Quiet sent :=
  ⟨forall_modifyLayer _ quiet.active fun _ active => active, quiet.changes⟩

theorem layerToRecover_of_active (layers : List LayerHealth) (clock : Clock)
    (active : ∀ layer ∈ layers, layer.status = .active)
    (sane : ∀ layer ∈ layers, layer.Sane) :
    layerToRecover clock layers = (clock, none) := by
  induction layers generalizing clock with
  | nil => rfl
  | cons layer layers ih =>
      obtain ⟨here, activeRest⟩ := List.forall_mem_cons.mp active
      obtain ⟨saneHere, saneRest⟩ := List.forall_mem_cons.mp sane
      have rest := ih clock activeRest saneRest
      have few : ¬ (10 : UInt32) < 0 := by decide
      simp only [layerToRecover, here, saneHere.errorCount, reduceCtorEq,
        if_false, false_and, few, rest]

/-- What the loops find active they leave active. -/
theorem Quiet.perform (quiet : manager.Quiet sent)
    (sane : manager.Sane delay) {request : Request}
    (background : Background request) :
    (manager.perform request).Quiet sent := by
  rcases background with rfl | rfl | rfl
  · have checked := sane.quiet_checkAllLayersHealth
    exact ⟨checked.active, checked.changes.trans quiet.changes⟩
  · have selected := layerToRecover_of_active manager.layerHealth
      manager.clock quiet.active sane.layers
    have unchanged : manager.checkLayerRecoveryNeeds = (manager, .ok ()) := by
      rw [checkLayerRecoveryNeeds, selected]
    change manager.checkLayerRecoveryNeeds.1.Quiet sent
    rw [unchanged]
    exact quiet
  · change manager.processDataPipeline.Quiet sent
    unfold processDataPipeline
    exact ((((quiet.updateLayerMetrics _ _).updateLayerMetrics _
      _).updateLayerMetrics _ _).updateLayerMetrics _ _).updateLayerMetrics _ _

theorem Quiet.run (requests : List Request) (quiet : manager.Quiet sent)
    (sane : manager.Sane delay)
    (background : ∀ request ∈ requests, Background request) :
    (manager.run requests).Quiet sent := by
  induction requests generalizing manager with
  | nil => exact quiet
  | cons request requests ih =>
      obtain ⟨here, rest⟩ := List.forall_mem_cons.mp background
      exact ih (quiet.perform sane here) (sane.perform request) rest

theorem run_append (early late : List Request) :
    manager.run (early ++ late) = (manager.run early).run late :=
  List.foldl_append

/-- After whatever calls the next health check lists all layers as active, those
that were stopped among them, and they stay so as long as the background loops
run alone.  No layer is started for it. -/
theorem layers_up_after_check (clock : Clock)
    (requests turns : List Request)
    (background : ∀ turn ∈ turns, Background turn) :
    (∀ name ∈ layerNames, ((LayerManager.new clock).start.run
        (requests ++ .checkAllLayersHealth :: turns)).Up name) ∧
      ((LayerManager.new clock).start.run
        (requests ++ .checkAllLayersHealth :: turns)).changes =
          ((LayerManager.new clock).start.run requests).changes := by
  have sane := (sane_start clock).run requests
  have saneEnd := (sane_start clock).run
    (requests ++ .checkAllLayersHealth :: turns)
  have quiet : ((LayerManager.new clock).start.run
      (requests ++ .checkAllLayersHealth :: turns)).Quiet
        ((LayerManager.new clock).start.run requests).changes := by
    rw [run_append]
    exact sane.quiet_checkAllLayersHealth.run turns
      sane.checkAllLayersHealth background
  refine ⟨?_, quiet.changes⟩
  intro name known
  obtain ⟨layer, present, _⟩ := saneEnd.layer known
  unfold Up getLayerStatus
  rw [present, Option.map_some,
    quiet.active layer (List.mem_of_find?_eq_some present)]

/-- An escalation that goes on without a layer. -/
theorem layers_up_after_check_sample :
    ¬ ((LayerManager.new ⟨fun _ => 0, 0, 0⟩).start.run
        [.handleTemporaryDegradation ["fec"], .enhancedEscalation "mix"]).Up
          "mix" ∧
      ((LayerManager.new ⟨fun _ => 0, 0, 0⟩).start.run
        [.handleTemporaryDegradation ["fec"], .enhancedEscalation "mix",
          .checkAllLayersHealth, .checkLayerRecoveryNeeds]).Up "mix" := by
  constructor
  · unfold Up
    decide +kernel
  · exact (layers_up_after_check ⟨fun _ => 0, 0, 0⟩
      [.handleTemporaryDegradation ["fec"], .enhancedEscalation "mix"]
      [.checkLayerRecoveryNeeds] (by decide)).1 "mix" (by decide)

end LayerManager

end NyxNet.Layers
