import NyxNet.Daemon.LayerManager

/-!
# Recovery of layers

When a recovery of `nyx-daemon/src/layer_manager.rs` succeeds and what it leaves
behind.
-/

namespace NyxNet.Layers

namespace LayerManager

theorem find?_modifyLayer {name other : String}
    {change : LayerHealth → LayerHealth}
    (keeps : ∀ layer, (change layer).layerName = layer.layerName)
    (layers : List LayerHealth) :
    (modifyLayer name change layers).find? (fun layer =>
        layer.layerName = other) =
      if other = name then
        (layers.find? fun layer => layer.layerName = other).map change
      else layers.find? fun layer => layer.layerName = other := by
  induction layers with
  | nil => simp [modifyLayer]
  | cons layer layers ih =>
      rw [modifyLayer]
      by_cases here : layer.layerName = name
      · rw [if_pos here]
        by_cases same : other = name
        · have found : layer.layerName = other := here.trans same.symm
          simp [keeps, found, same]
        · have passed : layer.layerName ≠ other := fun found =>
            same (found.symm.trans here)
          simp [keeps, passed, same]
      · rw [if_neg here, List.find?_cons, List.find?_cons, ih]
        by_cases found : layer.layerName = other
        · have different : other ≠ name := fun same => here (found.trans same)
          simp [found, different]
        · simp [found]

theorem map_layerName_modifyLayer {name : String}
    {change : LayerHealth → LayerHealth}
    (keeps : ∀ layer, (change layer).layerName = layer.layerName)
    (layers : List LayerHealth) :
    (modifyLayer name change layers).map LayerHealth.layerName =
      layers.map LayerHealth.layerName := by
  induction layers with
  | nil => rfl
  | cons layer layers ih =>
      rw [modifyLayer]
      split
      · rw [List.map_cons, List.map_cons, keeps]
      · rw [List.map_cons, List.map_cons, ih]

theorem layer_modify {manager : LayerManager} {name : String}
    {change : LayerHealth → LayerHealth}
    (keeps : ∀ layer, (change layer).layerName = layer.layerName)
    (other : String) :
    (manager.modify name change).layer other =
      if other = name then (manager.layer other).map change
      else manager.layer other :=
  find?_modifyLayer keeps manager.layerHealth

variable {manager : LayerManager} {name : String}

theorem layer_updateLayerStatus {status : LayerStatus} (other : String) :
    (manager.updateLayerStatus name status).layer other =
      if other = name then
        (manager.layer other).map fun layer =>
          { layer with
            status := status
            lastCheck := (manager.updateLayerStatus name status).clock.time }
      else manager.layer other := by
  unfold updateLayerStatus
  exact @layer_modify manager.readClock name
    (fun layer =>
      { layer with
        status := status
        lastCheck := manager.readClock.clock.time })
    (fun _ => rfl) other

theorem getLayerStatus_updateLayerStatus {status : LayerStatus}
    (other : String) :
    (manager.updateLayerStatus name status).getLayerStatus other =
      if other = name then (manager.getLayerStatus other).map fun _ => status
      else manager.getLayerStatus other := by
  unfold getLayerStatus
  rw [layer_updateLayerStatus]
  split
  · rw [Option.map_map, Option.map_map]
    rfl
  · rfl

/-- What no step of a recovery changes. -/
structure Kept (before after : LayerManager) : Prop where
  names : after.layerHealth.map LayerHealth.layerName =
    before.layerHealth.map LayerHealth.layerName
  metrics : ∀ name, after.getLayerMetrics name = before.getLayerMetrics name
  delay : after.clock.delay = before.clock.delay

theorem Kept.refl (manager : LayerManager) : Kept manager manager :=
  ⟨rfl, fun _ => rfl, rfl⟩

theorem Kept.trans {first second third : LayerManager}
    (early : Kept first second) (late : Kept second third) :
    Kept first third :=
  ⟨late.names.trans early.names,
    fun name => (late.metrics name).trans (early.metrics name),
    late.delay.trans early.delay⟩

/-- A step that leaves the table alone. -/
theorem Kept.of_layerHealth {before after : LayerManager}
    (table : after.layerHealth = before.layerHealth)
    (delay : after.clock.delay = before.clock.delay) : Kept before after := by
  refine ⟨by rw [table], ?_, delay⟩
  intro name
  unfold getLayerMetrics layer
  rw [table]

theorem Kept.modify {change : LayerHealth → LayerHealth}
    (keepsName : ∀ layer, (change layer).layerName = layer.layerName)
    (keepsMetrics : ∀ layer,
      (change layer).performanceMetrics = layer.performanceMetrics) :
    Kept manager (manager.modify name change) := by
  refine ⟨map_layerName_modifyLayer keepsName _, ?_, rfl⟩
  intro other
  unfold getLayerMetrics
  rw [layer_modify keepsName]
  split
  · rw [Option.map_map]
    congr 1
    funext layer
    exact keepsMetrics layer
  · rfl

theorem Kept.updateLayerStatus (status : LayerStatus) :
    Kept manager (manager.updateLayerStatus name status) := by
  have read : Kept manager manager.readClock := .of_layerHealth rfl rfl
  have changed : Kept manager.readClock (manager.readClock.modify name
      fun layer =>
        { layer with
          status := status
          lastCheck := manager.readClock.clock.time }) :=
    .modify (fun _ => rfl) (fun _ => rfl)
  exact (read.trans changed).trans (.of_layerHealth rfl rfl)

theorem layerHealth_gracefulLayerStop :
    (manager.gracefulLayerStop name).layerHealth =
      (manager.updateLayerStatus name .shutdown).layerHealth := by
  unfold gracefulLayerStop
  dsimp only
  split <;> rfl

theorem changes_gracefulLayerStop :
    (manager.gracefulLayerStop name).changes =
      manager.changes ++ [(name, .shutdown)] := by
  unfold gracefulLayerStop
  dsimp only
  split <;> rfl

theorem Kept.gracefulLayerStop :
    Kept manager (manager.gracefulLayerStop name) := by
  apply (@Kept.updateLayerStatus manager name .shutdown).trans
  apply Kept.of_layerHealth layerHealth_gracefulLayerStop
  unfold LayerManager.gracefulLayerStop
  dsimp only
  split <;> rfl

theorem getLayerStatus_gracefulLayerStop (other : String) :
    (manager.gracefulLayerStop name).getLayerStatus other =
      if other = name then
        (manager.getLayerStatus other).map fun _ => .shutdown
      else manager.getLayerStatus other := by
  rw [← getLayerStatus_updateLayerStatus]
  unfold getLayerStatus layer
  rw [layerHealth_gracefulLayerStop]

theorem Kept.stopLayers (names : List String) :
    Kept manager (manager.stopLayers names) := by
  induction names generalizing manager with
  | nil => exact Kept.refl manager
  | cons name names ih => exact Kept.gracefulLayerStop.trans ih

theorem getLayerStatus_stopLayers_of_not_mem {names : List String}
    {other : String} (apart : other ∉ names) :
    (manager.stopLayers names).getLayerStatus other =
      manager.getLayerStatus other := by
  induction names generalizing manager with
  | nil => rfl
  | cons name names ih =>
      rw [List.mem_cons, not_or] at apart
      have rest := @ih (manager.gracefulLayerStop name) apart.2
      rw [getLayerStatus_gracefulLayerStop, if_neg apart.1] at rest
      exact rest

theorem getLayerStatus_stopLayers_of_mem {names : List String}
    {other : String} (among : other ∈ names) :
    (manager.stopLayers names).getLayerStatus other =
      (manager.getLayerStatus other).map fun _ => .shutdown := by
  induction names generalizing manager with
  | nil => cases among
  | cons name names ih =>
      change ((manager.gracefulLayerStop name).stopLayers
        names).getLayerStatus other = _
      by_cases later : other ∈ names
      · rw [ih later, getLayerStatus_gracefulLayerStop]
        split
        · rw [Option.map_map]
          rfl
        · rfl
      · rw [getLayerStatus_stopLayers_of_not_mem later,
          getLayerStatus_gracefulLayerStop,
          if_pos ((List.mem_cons.mp among).resolve_right later)]

theorem changes_stopLayers (names : List String) :
    (manager.stopLayers names).changes =
      manager.changes ++ names.map fun name => (name, .shutdown) := by
  induction names generalizing manager with
  | nil => exact (List.append_nil _).symm
  | cons name names ih =>
      have rest := @ih (manager.gracefulLayerStop name)
      rw [changes_gracefulLayerStop, List.append_assoc] at rest
      exact rest

theorem restartLayer_of_mem (known : name ∈ layerNames) :
    manager.restartLayer name =
      (((manager.updateLayerStatus name .initializing).updateLayerStatus name
          .active).modify name
        fun layer => { layer with errorCount := 0, lastError := none },
        .ok ()) := by
  simp only [layerNames, List.mem_cons, List.not_mem_nil, or_false] at known
  rcases known with rfl | rfl | rfl | rfl | rfl <;> rfl

theorem restartLayer_of_not_mem (unknown : name ∉ layerNames) :
    manager.restartLayer name =
      (manager.updateLayerStatus name .initializing,
        .error ("Unknown layer: " ++ name)) := by
  simp only [layerNames, List.mem_cons, List.not_mem_nil, or_false, not_or]
    at unknown
  unfold restartLayer
  simp [unknown]

/-- What a restart leaves of a layer at that time. -/
def restarted (now : Nat) (layer : LayerHealth) : LayerHealth :=
  { layer with
    status := .active
    lastCheck := now
    errorCount := 0
    lastError := none }

theorem layer_restartLayer (known : name ∈ layerNames) (other : String) :
    (manager.restartLayer name).1.layer other =
      if other = name then
        (manager.layer other).map
          (restarted (manager.restartLayer name).1.clock.time)
      else manager.layer other := by
  rw [restartLayer_of_mem known]
  dsimp only
  rw [layer_modify (by intro layer; rfl)]
  by_cases same : other = name
  · rw [if_pos same, if_pos same, layer_updateLayerStatus, if_pos same,
      layer_updateLayerStatus, if_pos same, Option.map_map, Option.map_map]
    rfl
  · rw [if_neg same, if_neg same, layer_updateLayerStatus, if_neg same,
      layer_updateLayerStatus, if_neg same]

theorem getLayerStatus_restartLayer (known : name ∈ layerNames)
    (other : String) :
    (manager.restartLayer name).1.getLayerStatus other =
      if other = name then (manager.getLayerStatus other).map fun _ => .active
      else manager.getLayerStatus other := by
  unfold getLayerStatus
  rw [layer_restartLayer known]
  split
  · rw [Option.map_map, Option.map_map]
    rfl
  · rfl

theorem changes_restartLayer (known : name ∈ layerNames) :
    (manager.restartLayer name).1.changes =
      manager.changes ++ [(name, .initializing), (name, .active)] := by
  rw [restartLayer_of_mem known]
  exact List.append_assoc manager.changes _ _

theorem Kept.restartLayer : Kept manager (manager.restartLayer name).1 := by
  by_cases known : name ∈ layerNames
  · rw [restartLayer_of_mem known]
    exact ((Kept.updateLayerStatus .initializing).trans
      (Kept.updateLayerStatus .active)).trans
        (Kept.modify (fun _ => rfl) (fun _ => rfl))
  · rw [restartLayer_of_not_mem known]
    exact Kept.updateLayerStatus .initializing

/-- The clock has gone on, and nothing else has happened. -/
structure Waited (before after : LayerManager) : Prop where
  layerHealth : after.layerHealth = before.layerHealth
  activeSessions : after.activeSessions = before.activeSessions
  changes : after.changes = before.changes
  delay : after.clock.delay = before.clock.delay

theorem Waited.refl (manager : LayerManager) : Waited manager manager :=
  ⟨rfl, rfl, rfl, rfl⟩

theorem Waited.trans {first second third : LayerManager}
    (early : Waited first second) (late : Waited second third) :
    Waited first third :=
  ⟨late.layerHealth.trans early.layerHealth,
    late.activeSessions.trans early.activeSessions,
    late.changes.trans early.changes, late.delay.trans early.delay⟩

theorem Waited.kept {before after : LayerManager}
    (waited : Waited before after) : Kept before after :=
  .of_layerHealth waited.layerHealth waited.delay

theorem Waited.layer {before after : LayerManager}
    (waited : Waited before after) (name : String) :
    after.layer name = before.layer name := by
  unfold LayerManager.layer
  rw [waited.layerHealth]

theorem Waited.getLayerStatus {before after : LayerManager}
    (waited : Waited before after) (name : String) :
    after.getLayerStatus name = before.getLayerStatus name := by
  unfold LayerManager.getLayerStatus
  rw [waited.layer]

theorem waited_readClock : Waited manager manager.readClock :=
  ⟨rfl, rfl, rfl, rfl⟩

theorem waited_sleep (nanos : Nat) : Waited manager (manager.sleep nanos) :=
  ⟨rfl, rfl, rfl, rfl⟩

theorem waited_isLayerHealthy :
    Waited manager (manager.isLayerHealthy name).1 := by
  unfold isLayerHealthy
  split
  · exact waited_readClock
  · exact .refl manager

/-- One turn of the loop. -/
theorem waited_turn : Waited manager
    ((manager.readClock.isLayerHealthy name).1.sleep (seconds 2)) :=
  (waited_readClock.trans waited_isLayerHealthy).trans (waited_sleep _)

theorem waited_stabilityLoop (startTime timeout stableChecks : Nat) :
    Waited manager
      (stabilityLoop name startTime timeout stableChecks manager).1 := by
  induction stableChecks, manager using
      stabilityLoop.induct name startTime timeout with
  | case1 stableChecks manager running checked healthy enough =>
      rw [stabilityLoop, if_pos running]
      dsimp only
      rw [if_pos healthy, if_pos enough]
      exact waited_readClock.trans waited_isLayerHealthy
  | case2 stableChecks manager running checked healthy more ih =>
      rw [stabilityLoop, if_pos running]
      dsimp only
      rw [if_pos healthy, if_neg more]
      exact waited_turn.trans ih
  | case3 stableChecks manager running checked unhealthy ih =>
      rw [stabilityLoop, if_pos running]
      dsimp only
      rw [if_neg unhealthy]
      exact waited_turn.trans ih
  | case4 stableChecks manager late =>
      rw [stabilityLoop, if_neg late]
      exact waited_readClock

theorem waited_waitForLayerStability (timeout : Nat) :
    Waited manager (manager.waitForLayerStability name timeout).1 :=
  waited_readClock.trans (waited_stabilityLoop _ _ _)

/-- A layer beyond its limits is never healthy. -/
theorem isLayerHealthy_of_limits {layer : LayerHealth}
    (present : manager.layer name = some layer)
    (beyond : layer.performanceMetrics.withinLimits = false) :
    (manager.isLayerHealthy name).2 = false := by
  unfold isLayerHealthy
  rw [present]
  dsimp only
  unfold LayerHealth.healthyAt
  rw [beyond, Bool.and_false, Bool.false_and]

theorem stabilityLoop_of_limits {layer : LayerHealth}
    (startTime timeout stableChecks : Nat)
    (present : manager.layer name = some layer)
    (beyond : layer.performanceMetrics.withinLimits = false) :
    (stabilityLoop name startTime timeout stableChecks manager).2 ≠ .ok () := by
  induction stableChecks, manager using
      stabilityLoop.induct name startTime timeout with
  | case1 stableChecks manager running checked healthy enough =>
      have unhealthy := @isLayerHealthy_of_limits manager.readClock
        name _ present beyond
      exact absurd healthy (by simp [checked, unhealthy])
  | case2 stableChecks manager running checked healthy more ih =>
      have unhealthy := @isLayerHealthy_of_limits manager.readClock
        name _ present beyond
      exact absurd healthy (by simp [checked, unhealthy])
  | case3 stableChecks manager running checked unhealthy ih =>
      rw [stabilityLoop, if_pos running]
      dsimp only
      rw [if_neg unhealthy]
      apply ih
      rw [waited_turn.layer]
      exact present
  | case4 stableChecks manager late =>
      rw [stabilityLoop, if_neg late]
      simp

/-- No reading of the clock is late by more than four seconds. -/
def Clock.Timely (delay : Nat → Nat) : Prop :=
  ∀ reading, delay reading ≤ seconds 4

theorem time_readClock_le (timely : Clock.Timely manager.clock.delay) :
    manager.readClock.clock.time ≤ manager.clock.time + seconds 4 :=
  Nat.add_le_add_left (timely _) _

/-- A layer that is active, without errors and within its limits is found healthy
for a minute after its last check. -/
theorem isLayerHealthy_of_recent {layer : LayerHealth}
    (timely : Clock.Timely manager.clock.delay)
    (present : manager.layer name = some layer)
    (active : layer.status = .active) (errors : layer.errorCount = 0)
    (limits : layer.performanceMetrics.withinLimits = true)
    (recent : manager.clock.time + seconds 4 <
      layer.lastCheck + seconds 60) :
    (manager.isLayerHealthy name).2 = true ∧
      (manager.isLayerHealthy name).1.clock.time ≤
        manager.clock.time + seconds 4 := by
  have read := time_readClock_le timely
  unfold isLayerHealthy
  rw [present]
  refine ⟨?_, read⟩
  dsimp only
  unfold LayerHealth.healthyAt
  have inMinute :
      manager.readClock.clock.time - layer.lastCheck < seconds 60 := by
    unfold seconds at read recent ⊢
    omega
  rw [active, errors, limits, decide_eq_true inMinute]
  decide

/-- As many stable checks as are left take ten seconds each at most. -/
theorem stabilityLoop_ok {layer : LayerHealth}
    (startTime timeout left stableChecks : Nat)
    (timely : Clock.Timely manager.clock.delay)
    (present : manager.layer name = some layer)
    (active : layer.status = .active) (errors : layer.errorCount = 0)
    (limits : layer.performanceMetrics.withinLimits = true)
    (count : stableChecks + left + 1 = 3)
    (started : startTime ≤ manager.clock.time)
    (inTime : manager.clock.time + (left + 1) * seconds 10 ≤
      startTime + timeout)
    (recent : manager.clock.time + (left + 1) * seconds 10 ≤
      layer.lastCheck + seconds 60) :
    (stabilityLoop name startTime timeout stableChecks manager).2 =
      .ok () := by
  induction left generalizing stableChecks manager with
  | zero =>
      have read := time_readClock_le timely
      have healthy := @isLayerHealthy_of_recent manager.readClock name _
        timely present active errors limits (by
          unfold seconds at read recent ⊢
          omega)
      have running : manager.readClock.clock.time - startTime < timeout := by
        unfold seconds at read inTime
        omega
      have enough : 3 ≤ stableChecks + 1 := by omega
      rw [stabilityLoop, if_pos running]
      dsimp only
      rw [if_pos healthy.1, if_pos enough]
  | succ left ih =>
      have read := time_readClock_le timely
      have healthy := @isLayerHealthy_of_recent manager.readClock name _
        timely present active errors limits (by
          unfold seconds at read recent ⊢
          omega)
      have running : manager.readClock.clock.time - startTime < timeout := by
        unfold seconds at read inTime
        omega
      have more : ¬ 3 ≤ stableChecks + 1 := by omega
      have passed := healthy.2
      rw [stabilityLoop, if_pos running]
      dsimp only
      rw [if_pos healthy.1, if_neg more]
      apply ih
      · rw [waited_turn.delay]
        exact timely
      · rw [waited_turn.layer]
        exact present
      · omega
      · have later := manager.le_time_readClock
        have checked := manager.readClock.le_time_isLayerHealthy name
        simp only [sleep]
        omega
      · simp only [sleep]
        unfold seconds at read passed inTime ⊢
        omega
      · simp only [sleep]
        unfold seconds at read passed recent ⊢
        omega

/-- A layer that was just restarted becomes stable exactly when it works within
its limits. -/
theorem waitForLayerStability_ok_iff {layer : LayerHealth}
    (timely : Clock.Timely manager.clock.delay)
    (present : manager.layer name = some layer)
    (active : layer.status = .active) (errors : layer.errorCount = 0)
    (checked : layer.lastCheck = manager.clock.time) :
    (manager.waitForLayerStability name (seconds 30)).2 = .ok () ↔
      layer.performanceMetrics.withinLimits = true := by
  constructor
  · intro stable
    by_contra beyond
    exact @stabilityLoop_of_limits manager.readClock name _ _ _ _ present
      (Bool.eq_false_iff.mpr beyond) stable
  · intro limits
    have read := time_readClock_le timely
    apply @stabilityLoop_ok manager.readClock name _ _ _ 2 0 timely
      present active errors limits rfl (Nat.le_refl _)
    · unfold seconds
      omega
    · rw [checked]
      unfold seconds at read ⊢
      omega

/-- The table lists all layers. -/
def Listed (manager : LayerManager) : Prop :=
  ∀ name ∈ layerNames, ∃ metrics, manager.getLayerMetrics name = some metrics

/-- The layer works within its limits. -/
def Within (manager : LayerManager) (name : String) : Prop :=
  ∃ metrics, manager.getLayerMetrics name = some metrics ∧
    metrics.withinLimits = true

def Up (manager : LayerManager) (name : String) : Prop :=
  manager.getLayerStatus name = some .active

/-- Every layer is as it was, or else it is up. -/
def Spared (before after : LayerManager) : Prop :=
  ∀ name ∈ layerNames,
    after.getLayerStatus name = before.getLayerStatus name ∨ after.Up name

theorem Kept.listed {before after : LayerManager} (kept : Kept before after)
    (listed : before.Listed) : after.Listed := by
  intro name known
  rw [kept.metrics]
  exact listed name known

theorem Kept.within_iff {before after : LayerManager}
    (kept : Kept before after) : after.Within name ↔ before.Within name := by
  unfold Within
  rw [kept.metrics]

theorem Kept.timely {before after : LayerManager} (kept : Kept before after)
    (timely : Clock.Timely before.clock.delay) :
    Clock.Timely after.clock.delay := by
  rw [kept.delay]
  exact timely

theorem Listed.layer (listed : manager.Listed) (known : name ∈ layerNames) :
    ∃ layer, manager.layer name = some layer := by
  obtain ⟨metrics, present⟩ := listed name known
  obtain ⟨layer, found, _⟩ := Option.map_eq_some_iff.mp present
  exact ⟨layer, found⟩

theorem within_iff_of_layer {layer : LayerHealth}
    (present : manager.layer name = some layer) :
    manager.Within name ↔ layer.performanceMetrics.withinLimits = true := by
  unfold Within getLayerMetrics
  rw [present, Option.map_some]
  constructor
  · intro within
    obtain ⟨metrics, same, limits⟩ := within
    rw [Option.some.inj same]
    exact limits
  · intro limits
    exact ⟨_, rfl, limits⟩

theorem Spared.refl (manager : LayerManager) : Spared manager manager :=
  fun _ _ => Or.inl rfl

theorem Spared.up {before after : LayerManager} (spared : Spared before after)
    (known : name ∈ layerNames) (up : before.Up name) : after.Up name := by
  rcases spared name known with same | isUp
  · exact same.trans up
  · exact isUp

theorem Spared.trans {first second third : LayerManager}
    (early : Spared first second) (late : Spared second third) :
    Spared first third := by
  intro name known
  rcases early name known with same | isUp
  · rcases late name known with still | isUp
    · exact Or.inl (still.trans same)
    · exact Or.inr isUp
  · exact Or.inr (late.up known isUp)

theorem Waited.spared {before after : LayerManager}
    (waited : Waited before after) : Spared before after :=
  fun name _ => Or.inl (waited.getLayerStatus name)

/-- A layer found healthy is up and within its limits. -/
theorem up_within_of_healthy
    (healthy : (manager.isLayerHealthy name).2 = true) :
    manager.Up name ∧ manager.Within name := by
  unfold isLayerHealthy at healthy
  cases present : manager.layer name with
  | none =>
      rw [present] at healthy
      cases healthy
  | some layer =>
      rw [present] at healthy
      simp only [LayerHealth.healthyAt, Bool.and_eq_true, decide_eq_true_eq]
        at healthy
      constructor
      · unfold Up getLayerStatus
        rw [present, Option.map_some, healthy.1.1.1]
      · exact (within_iff_of_layer present).mpr healthy.1.2

theorem up_restartLayer (listed : manager.Listed)
    (known : name ∈ layerNames) : (manager.restartLayer name).1.Up name := by
  obtain ⟨layer, present⟩ := listed.layer known
  unfold Up
  rw [getLayerStatus_restartLayer known, if_pos rfl, getLayerStatus, present]
  rfl

theorem restartLayer_ok (known : name ∈ layerNames) :
    (manager.restartLayer name).2 = .ok () := by
  rw [restartLayer_of_mem known]

theorem restartLayer_eq (known : name ∈ layerNames) :
    manager.restartLayer name =
      ((manager.restartLayer name).1, .ok ()) :=
  Prod.ext rfl (restartLayer_ok known)

/-- A known layer that was restarted becomes stable exactly when it works within
its limits. -/
theorem restarted_stable_iff (listed : manager.Listed)
    (timely : Clock.Timely manager.clock.delay)
    (known : name ∈ layerNames) :
    ((manager.restartLayer name).1.waitForLayerStability name
      (seconds 30)).2 = .ok () ↔ manager.Within name := by
  obtain ⟨layer, present⟩ := listed.layer known
  have after := @layer_restartLayer manager name known name
  rw [if_pos rfl, present, Option.map_some] at after
  rw [waitForLayerStability_ok_iff (Kept.restartLayer.timely timely) after
    rfl rfl rfl, within_iff_of_layer present]
  rfl

theorem restartDependents_cons {dependent : String} {dependents : List String}
    (known : dependent ∈ layerNames) :
    manager.restartDependents (dependent :: dependents) =
      ((manager.restartLayer dependent).1.waitForLayerStability dependent
        (seconds 15)).1.restartDependents dependents := by
  rw [restartDependents, restartLayer_of_mem known]

/-- The dependents are up afterwards, and no other layer is touched. -/
theorem restartDependents_spec (dependents : List String)
    (listed : manager.Listed)
    (known : ∀ dependent ∈ dependents, dependent ∈ layerNames) :
    Kept manager (manager.restartDependents dependents) ∧
      (∀ dependent ∈ dependents,
        (manager.restartDependents dependents).Up dependent) ∧
      ∀ other ∉ dependents,
        (manager.restartDependents dependents).getLayerStatus other =
          manager.getLayerStatus other := by
  induction dependents generalizing manager with
  | nil =>
      exact ⟨.refl manager, List.forall_mem_nil _, fun _ _ => rfl⟩
  | cons dependent dependents ih =>
      have isKnown := known dependent List.mem_cons_self
      have restarted : Kept manager (manager.restartLayer dependent).1 :=
        Kept.restartLayer
      have waited := @waited_waitForLayerStability
        (manager.restartLayer dependent).1 dependent (seconds 15)
      have kept := restarted.trans waited.kept
      obtain ⟨keptRest, upRest, sameRest⟩ := ih (kept.listed listed)
        fun other member => known other (List.mem_cons_of_mem _ member)
      rw [restartDependents_cons isKnown]
      refine ⟨kept.trans keptRest, ?_, ?_⟩
      · intro other member
        by_cases later : other ∈ dependents
        · exact upRest other later
        · have here := (List.mem_cons.mp member).resolve_right later
          rw [here] at later ⊢
          unfold Up
          rw [sameRest dependent later, waited.getLayerStatus]
          exact up_restartLayer listed isKnown
      · intro other apart
        rw [List.mem_cons, not_or] at apart
        rw [sameRest other apart.2, waited.getLayerStatus,
          getLayerStatus_restartLayer isKnown, if_neg apart.1]

/-- One of the layers depends on the other, or they are the same. -/
def Related (name other : String) : Prop :=
  other = name ∨ other ∈ getLayerDependencies name ∨
    other ∈ getLayerDependents name

instance Related.decidable (name other : String) :
    Decidable (Related name other) :=
  inferInstanceAs (Decidable (_ ∨ _ ∨ _))

/-- The related layers are up; another layer is as it was, unless it is up
too. -/
def Recovered (name : String) (before after : LayerManager) : Prop :=
  ∀ other ∈ layerNames, (Related name other → after.Up other) ∧
    (after.getLayerStatus other = before.getLayerStatus other ∨
      after.Up other)

/-- What a recovery does to a known layer. -/
structure Recovers (recover : LayerManager → String → Outcome)
    (manager : LayerManager) (name : String) : Prop where
  kept : Kept manager (recover manager name).1
  ok_iff : (recover manager name).2 = .ok () ↔
    ∀ other ∈ name :: getLayerDependencies name, manager.Within other
  recovered : (recover manager name).2 = .ok () →
    Recovered name manager (recover manager name).1

/-- What recovering the dependencies does. -/
structure RecoversAll (recover : LayerManager → String → Outcome)
    (manager : LayerManager) (dependencies : List String) : Prop where
  kept : Kept manager (recoverDependencies recover manager dependencies).1
  within : (recoverDependencies recover manager dependencies).2 = .ok () →
    ∀ dependency ∈ dependencies, manager.Within dependency
  ok : (∀ dependency ∈ dependencies,
      ∀ other ∈ dependency :: getLayerDependencies dependency,
        manager.Within other) →
    (recoverDependencies recover manager dependencies).2 = .ok ()
  up : (recoverDependencies recover manager dependencies).2 = .ok () →
    ∀ dependency ∈ dependencies,
      (recoverDependencies recover manager dependencies).1.Up dependency
  spared : (recoverDependencies recover manager dependencies).2 = .ok () →
    Spared manager (recoverDependencies recover manager dependencies).1

section Dependencies

variable {recover : LayerManager → String → Outcome} {dependency : String}
  {dependencies : List String}

/-- A healthy dependency is passed over. -/
theorem RecoversAll.pass (known : dependency ∈ layerNames)
    (healthy : (manager.isLayerHealthy dependency).2 = true)
    (rest : RecoversAll recover (manager.isLayerHealthy dependency).1
      dependencies) :
    RecoversAll recover manager (dependency :: dependencies) := by
  have waited := @waited_isLayerHealthy manager dependency
  have unfolded : recoverDependencies recover manager
      (dependency :: dependencies) =
      recoverDependencies recover (manager.isLayerHealthy dependency).1
        dependencies := by
    rw [recoverDependencies]
    exact if_pos healthy
  obtain ⟨isUp, within⟩ := up_within_of_healthy healthy
  constructor <;> rw [unfolded]
  · exact waited.kept.trans rest.kept
  · intro ok other member
    rcases List.mem_cons.mp member with same | later
    · rw [same]
      exact within
    · exact waited.kept.within_iff.mp (rest.within ok other later)
  · intro limits
    apply rest.ok
    intro other member inner among
    exact waited.kept.within_iff.mpr
      (limits other (List.mem_cons_of_mem _ member) inner among)
  · intro ok other member
    rcases List.mem_cons.mp member with same | later
    · rw [same]
      apply (rest.spared ok).up known
      exact waited.spared.up known isUp
    · exact rest.up ok other later
  · intro ok
    exact waited.spared.trans (rest.spared ok)

variable {after : LayerManager}

/-- A dependency that cannot be recovered ends the recovery. -/
theorem RecoversAll.fail {error : String}
    (unhealthy : (manager.isLayerHealthy dependency).2 = false)
    (one : Recovers recover (manager.isLayerHealthy dependency).1 dependency)
    (outcome : recover (manager.isLayerHealthy dependency).1 dependency =
      (after, .error error)) :
    RecoversAll recover manager (dependency :: dependencies) := by
  have waited := @waited_isLayerHealthy manager dependency
  have unfolded : recoverDependencies recover manager
      (dependency :: dependencies) =
      (after, .error "Dependency recovery failed") := by
    simp [recoverDependencies, unhealthy, outcome]
  obtain ⟨keptOne, okOne, _⟩ := one
  rw [outcome] at keptOne okOne
  constructor <;> rw [unfolded]
  · exact waited.kept.trans keptOne
  · exact fun ok => nomatch ok
  · intro limits
    have recovered := okOne.mpr fun other member =>
      waited.kept.within_iff.mpr
        (limits dependency List.mem_cons_self other member)
    cases recovered
  · exact fun ok => nomatch ok
  · exact fun ok => nomatch ok

/-- A dependency that was recovered stays up. -/
theorem RecoversAll.next (known : dependency ∈ layerNames)
    (unhealthy : (manager.isLayerHealthy dependency).2 = false)
    (one : Recovers recover (manager.isLayerHealthy dependency).1 dependency)
    (outcome : recover (manager.isLayerHealthy dependency).1 dependency =
      (after, .ok ()))
    (rest : RecoversAll recover after dependencies) :
    RecoversAll recover manager (dependency :: dependencies) := by
  have waited := @waited_isLayerHealthy manager dependency
  have unfolded : recoverDependencies recover manager
      (dependency :: dependencies) =
      recoverDependencies recover after dependencies := by
    simp [recoverDependencies, unhealthy, outcome]
  obtain ⟨keptOne, okOne, recoveredOne⟩ := one
  rw [outcome] at keptOne okOne recoveredOne
  have kept := waited.kept.trans keptOne
  have now := recoveredOne rfl
  have sparedOne : Spared manager after :=
    waited.spared.trans fun other among => (now other among).2
  constructor <;> rw [unfolded]
  · exact kept.trans rest.kept
  · intro ok other member
    rcases List.mem_cons.mp member with same | later
    · rw [same]
      exact waited.kept.within_iff.mp
        (okOne.mp rfl dependency List.mem_cons_self)
    · exact kept.within_iff.mp (rest.within ok other later)
  · intro limits
    apply rest.ok
    intro other member inner among
    exact kept.within_iff.mpr
      (limits other (List.mem_cons_of_mem _ member) inner among)
  · intro ok other member
    rcases List.mem_cons.mp member with same | later
    · rw [same]
      exact (rest.spared ok).up known ((now dependency known).1 (Or.inl rfl))
    · exact rest.up ok other later
  · intro ok
    exact sparedOne.trans (rest.spared ok)

theorem recoverDependencies_spec (listed : manager.Listed)
    (timely : Clock.Timely manager.clock.delay)
    (known : ∀ dependency ∈ dependencies, dependency ∈ layerNames)
    (recovers : ∀ dependency ∈ dependencies, ∀ before : LayerManager,
      before.Listed → Clock.Timely before.clock.delay →
        Recovers recover before dependency) :
    RecoversAll recover manager dependencies := by
  induction dependencies generalizing manager with
  | nil =>
      exact ⟨.refl manager, fun _ => List.forall_mem_nil _, fun _ => rfl,
        fun _ => List.forall_mem_nil _, fun _ => .refl manager⟩
  | cons dependency dependencies ih =>
      have isKnown := known dependency List.mem_cons_self
      have rest := fun (before : LayerManager) (listedBefore : before.Listed)
          (timelyBefore : Clock.Timely before.clock.delay) =>
        ih listedBefore timelyBefore
          (fun other member => known other (List.mem_cons_of_mem _ member))
          (fun other member =>
            recovers other (List.mem_cons_of_mem dependency member))
      have checked := (@waited_isLayerHealthy manager dependency).kept
      by_cases healthy : (manager.isLayerHealthy dependency).2 = true
      · exact .pass isKnown healthy
          (rest _ (checked.listed listed) (checked.timely timely))
      · have unhealthy := Bool.eq_false_iff.mpr healthy
        have one := recovers dependency List.mem_cons_self _
          (checked.listed listed) (checked.timely timely)
        cases outcome : recover (manager.isLayerHealthy dependency).1
            dependency with
        | mk after result =>
            have kept := checked.trans one.kept
            rw [outcome] at kept
            cases result with
            | error error => exact .fail unhealthy one outcome
            | ok _ =>
                exact .next isKnown unhealthy one outcome
                  (rest after (kept.listed listed) (kept.timely timely))

end Dependencies

theorem known_dependency (known : name ∈ layerNames) {other : String}
    (member : other ∈ getLayerDependencies name) : other ∈ layerNames := by
  have table : ∀ name ∈ layerNames, ∀ other ∈ getLayerDependencies name,
      other ∈ layerNames := by decide
  exact table name known other member

theorem known_dependent (known : name ∈ layerNames) {other : String}
    (member : other ∈ getLayerDependents name) : other ∈ layerNames := by
  have table : ∀ name ∈ layerNames, ∀ other ∈ getLayerDependents name,
      other ∈ layerNames := by decide
  exact table name known other member

/-- Dependencies of dependencies are listed as dependencies. -/
theorem dependency_trans (known : name ∈ layerNames) {other inner : String}
    (member : other ∈ getLayerDependencies name)
    (deeper : inner ∈ getLayerDependencies other) :
    inner ∈ getLayerDependencies name := by
  have table : ∀ name ∈ layerNames, ∀ other ∈ getLayerDependencies name,
      ∀ inner ∈ getLayerDependencies other,
        inner ∈ getLayerDependencies name := by decide
  exact table name known other member inner deeper

theorem dependency_apart (known : name ∈ layerNames) {other : String}
    (member : other ∈ getLayerDependencies name) :
    other ≠ name ∧ other ∉ getLayerDependents name := by
  have table : ∀ name ∈ layerNames, ∀ other ∈ getLayerDependencies name,
      other ≠ name ∧ other ∉ getLayerDependents name := by decide
  exact table name known other member

theorem dependent_apart (known : name ∈ layerNames) :
    name ∉ getLayerDependents name := by
  have table : ∀ name ∈ layerNames, name ∉ getLayerDependents name := by
    decide
  exact table name known

theorem kept_stopForRecovery : Kept manager (manager.stopForRecovery name) :=
  (Kept.stopLayers _).trans Kept.gracefulLayerStop

theorem getLayerStatus_stopForRecovery {other : String}
    (different : other ≠ name) (apart : other ∉ getLayerDependents name) :
    (manager.stopForRecovery name).getLayerStatus other =
      manager.getLayerStatus other := by
  unfold stopForRecovery
  rw [getLayerStatus_gracefulLayerStop, if_neg different,
    getLayerStatus_stopLayers_of_not_mem apart]

section Steps

variable {depth : Nat} {middle stable : LayerManager}

theorem recoverTo_of_dependencies_error {error : String}
    (outcome : recoverDependencies (recoverTo depth)
      (manager.stopForRecovery name) (getLayerDependencies name) =
        (middle, .error error)) :
    recoverTo (depth + 1) manager name = (middle, .error error) := by
  rw [recoverTo, Outcome.andThen_error outcome]

theorem recoverTo_of_unstable {error : String} (known : name ∈ layerNames)
    (outcome : recoverDependencies (recoverTo depth)
      (manager.stopForRecovery name) (getLayerDependencies name) =
        (middle, .ok ()))
    (waited : (middle.restartLayer name).1.waitForLayerStability name
      (seconds 30) = (stable, .error error)) :
    recoverTo (depth + 1) manager name = (stable, .error error) := by
  rw [recoverTo, Outcome.andThen_ok outcome,
    Outcome.andThen_ok (restartLayer_eq known), Outcome.andThen_error waited]

theorem recoverTo_of_stable (known : name ∈ layerNames)
    (outcome : recoverDependencies (recoverTo depth)
      (manager.stopForRecovery name) (getLayerDependencies name) =
        (middle, .ok ()))
    (waited : (middle.restartLayer name).1.waitForLayerStability name
      (seconds 30) = (stable, .ok ())) :
    recoverTo (depth + 1) manager name =
      (stable.restartDependents (getLayerDependents name), .ok ()) := by
  rw [recoverTo, Outcome.andThen_ok outcome,
    Outcome.andThen_ok (restartLayer_eq known), Outcome.andThen_ok waited]

/-- From healthy dependencies the restart brings the layer up and its dependents
after it. -/
theorem recovered_of_stable (known : name ∈ layerNames)
    (listed : manager.Listed)
    (keptMiddle : Kept manager middle)
    (spared : Spared (manager.stopForRecovery name) middle)
    (up : ∀ dependency ∈ getLayerDependencies name, middle.Up dependency)
    (waited : Waited (middle.restartLayer name).1 stable) :
    Kept manager (stable.restartDependents (getLayerDependents name)) ∧
      Recovered name manager
        (stable.restartDependents (getLayerDependents name)) := by
  have listedMiddle := keptMiddle.listed listed
  have keptStable := (keptMiddle.trans Kept.restartLayer).trans waited.kept
  obtain ⟨kept, upDependents, same⟩ := restartDependents_spec
    (getLayerDependents name) (keptStable.listed listed)
    (fun _ member => known_dependent known member)
  refine ⟨keptStable.trans kept, ?_⟩
  -- A layer beside the dependents keeps what the restart left.
  have beside : ∀ other ∉ getLayerDependents name, other ≠ name →
      (stable.restartDependents (getLayerDependents name)).getLayerStatus
        other = middle.getLayerStatus other := by
    intro other apart different
    rw [same other apart, waited.getLayerStatus,
      getLayerStatus_restartLayer known, if_neg different]
  have itself :
      (stable.restartDependents (getLayerDependents name)).Up name := by
    unfold Up
    rw [same name (dependent_apart known), waited.getLayerStatus]
    exact up_restartLayer listedMiddle known
  intro other among
  constructor
  · intro related
    rcases related with isSame | isDependency | isDependent
    · rw [isSame]
      exact itself
    · obtain ⟨different, apart⟩ := dependency_apart known isDependency
      unfold Up
      rw [beside other apart different]
      exact up other isDependency
    · exact upDependents other isDependent
  · by_cases isDependent : other ∈ getLayerDependents name
    · exact Or.inr (upDependents other isDependent)
    · by_cases isSame : other = name
      · rw [isSame]
        exact Or.inr itself
      · have stopped := @getLayerStatus_stopForRecovery manager _ _
          isSame isDependent
        rw [Up, beside other isDependent isSame, ← stopped]
        exact spared other among

end Steps

/-- By induction on the depth: the dependencies of a layer have lower ranks. -/
theorem recoverTo_recovers (depth : Nat) (known : name ∈ layerNames)
    (deep : layerRank name < depth) (listed : manager.Listed)
    (timely : Clock.Timely manager.clock.delay) :
    Recovers (recoverTo depth) manager name := by
  induction depth generalizing manager name with
  | zero => exact absurd deep (Nat.not_lt_zero _)
  | succ depth ih =>
      have stopped := @kept_stopForRecovery manager name
      have dependencies := @recoverDependencies_spec _ (recoverTo depth) _
        (stopped.listed listed) (stopped.timely timely)
        (fun _ member => known_dependency known member)
        (fun dependency member before listedBefore timelyBefore =>
          ih (known_dependency known member)
            (Nat.lt_of_lt_of_le (layerNeeds.rank_lt member)
              (Nat.le_of_lt_succ deep)) listedBefore timelyBefore)
      obtain ⟨kept, within, ok, up, spared⟩ := dependencies
      cases outcome : recoverDependencies (recoverTo depth)
          (manager.stopForRecovery name) (getLayerDependencies name) with
      | mk middle result =>
          rw [outcome] at kept within ok up spared
          have keptMiddle := stopped.trans kept
          cases result with
          | error error =>
              have result := recoverTo_of_dependencies_error outcome
              constructor <;> rw [result]
              · exact keptMiddle
              · refine iff_of_false (by simp) ?_
                intro limits
                have recovered := ok fun dependency member other among => by
                  apply stopped.within_iff.mpr
                  apply limits
                  apply List.mem_cons_of_mem
                  rcases List.mem_cons.mp among with same | deeper
                  · rw [same]
                    exact member
                  · exact dependency_trans known member deeper
                cases recovered
              · exact fun ok => nomatch ok
          | ok _ =>
              have stable_iff := restarted_stable_iff
                (keptMiddle.listed listed) (keptMiddle.timely timely) known
              have waited := @waited_waitForLayerStability
                (middle.restartLayer name).1 name (seconds 30)
              cases wait : (middle.restartLayer name).1.waitForLayerStability
                  name (seconds 30) with
              | mk stable result =>
                  rw [wait] at stable_iff waited
                  cases result with
                  | error error =>
                      have result := recoverTo_of_unstable known outcome wait
                      constructor <;> rw [result]
                      · exact (keptMiddle.trans Kept.restartLayer).trans
                          waited.kept
                      · refine iff_of_false (by simp) ?_
                        intro limits
                        have stable := stable_iff.mpr
                          (keptMiddle.within_iff.mpr
                            (limits name List.mem_cons_self))
                        cases stable
                      · exact fun ok => nomatch ok
                  | ok _ =>
                      have result := recoverTo_of_stable known outcome wait
                      obtain ⟨keptAll, recovered⟩ := recovered_of_stable known
                        listed keptMiddle (spared rfl) (up rfl) waited
                      constructor <;> rw [result]
                      · exact keptAll
                      · refine iff_of_true rfl ?_
                        intro other member
                        rcases List.mem_cons.mp member with same | deeper
                        · rw [same]
                          exact keptMiddle.within_iff.mp (stable_iff.mp rfl)
                        · exact stopped.within_iff.mp (within rfl other deeper)
                      · exact fun _ => recovered

theorem recoverTo_unknown (depth : Nat) (unknown : name ∉ layerNames) :
    (recoverTo (depth + 1) manager name).2 ≠ .ok () := by
  have none : getLayerDependencies name = [] := by
    simp only [layerNames, List.mem_cons, List.not_mem_nil, or_false, not_or]
      at unknown
    unfold getLayerDependencies
    simp [unknown]
  have outcome : recoverDependencies (recoverTo depth)
      (manager.stopForRecovery name) (getLayerDependencies name) =
        (manager.stopForRecovery name, .ok ()) := by
    rw [none, recoverDependencies]
  rw [recoverTo, Outcome.andThen_ok outcome,
    Outcome.andThen_error (restartLayer_of_not_mem unknown)]
  simp

theorem getLayerMetrics_new (clock : Clock) (known : name ∈ layerNames) :
    (LayerManager.new clock).getLayerMetrics name = some .default := by
  simp only [layerNames, List.mem_cons, List.not_mem_nil, or_false] at known
  rcases known with rfl | rfl | rfl | rfl | rfl <;> rfl

theorem listed_new (clock : Clock) : (LayerManager.new clock).Listed :=
  fun _ known => ⟨_, getLayerMetrics_new clock known⟩

theorem within_new (clock : Clock) (known : name ∈ layerNames) :
    (LayerManager.new clock).Within name := by
  refine ⟨_, getLayerMetrics_new clock known, ?_⟩
  decide +kernel

/-- The recovery of a layer succeeds exactly when it is one of the layers and it
and its dependencies work within their limits, whatever their statuses and their
errors were.  It leaves every layer up that depends on it or that it depends on,
and it spares the others. -/
theorem recoverLayerWithDependencies_ok_iff (manager : LayerManager)
    (name : String) (listed : manager.Listed)
    (timely : Clock.Timely manager.clock.delay) :
    ((manager.recoverLayerWithDependencies name).2 = .ok () ↔
        name ∈ layerNames ∧
          ∀ other ∈ name :: getLayerDependencies name, manager.Within other) ∧
      ((manager.recoverLayerWithDependencies name).2 = .ok () →
        Recovered name manager
          (manager.recoverLayerWithDependencies name).1) := by
  unfold recoverLayerWithDependencies
  by_cases known : name ∈ layerNames
  · have recovers := recoverTo_recovers (layerRank name + 1) known
      (Nat.lt_succ_self _) listed timely
    refine ⟨?_, recovers.recovered⟩
    rw [recovers.ok_iff]
    exact ⟨fun limits => ⟨known, limits⟩, And.right⟩
  · have failed := @recoverTo_unknown manager name (layerRank name)
      known
    exact ⟨iff_of_false failed fun claim => known claim.1,
      fun ok => absurd ok failed⟩

theorem recoverLayerWithDependencies_sample :
    ((LayerManager.new ⟨fun _ => 0, 0, 0⟩).recoverLayerWithDependencies
        "stream").2 = .ok () ∧
      ((LayerManager.new ⟨fun _ => 0, 0, 0⟩).recoverLayerWithDependencies
        "stream").1.Up "mix" := by
  obtain ⟨ok_iff, recovered⟩ := recoverLayerWithDependencies_ok_iff
    (.new ⟨fun _ => 0, 0, 0⟩) "stream" (listed_new _) (fun _ => Nat.zero_le _)
  have ok := ok_iff.mpr ⟨by decide, fun other member => within_new _ (by
    rcases List.mem_cons.mp member with same | dependency
    · rw [same]
      decide
    · exact known_dependency (by decide) dependency)⟩
  exact ⟨ok, (recovered ok "mix" (by decide)).1 (by decide)⟩

/-- Which layers are up. -/
def standing (manager : LayerManager) (name : String) : Bool :=
  manager.getLayerStatus name = some .active

/-- What an event on a status change says about the layer being up. -/
def upChange (change : String × LayerStatus) : String × Bool :=
  (change.1, change.2 = .active)

/-- What a start of layers in a list does; it may end early. -/
structure StartsInOrder (manager : LayerManager) (names front : List String) :
    Prop where
  kept : Kept manager (manager.startInOrder names).1
  ok_iff : (manager.startInOrder names).2 = .ok () ↔
    ∀ name ∈ names, manager.Within name
  isPrefix : front <+: names
  whole : (manager.startInOrder names).2 = .ok () → front = names
  up : ∀ name ∈ front, (manager.startInOrder names).1.Up name
  others : ∀ other ∉ front,
    (manager.startInOrder names).1.getLayerStatus other =
      manager.getLayerStatus other
  changes : (manager.startInOrder names).1.changes = manager.changes ++
    front.flatMap fun name => [(name, .initializing), (name, .active)]

theorem startInOrder_spec (names : List String) (nodup : names.Nodup)
    (listed : manager.Listed) (timely : Clock.Timely manager.clock.delay)
    (known : ∀ name ∈ names, name ∈ layerNames) :
    ∃ front, StartsInOrder manager names front := by
  induction names generalizing manager with
  | nil =>
      exact ⟨[], .refl manager, iff_of_true rfl (List.forall_mem_nil _),
        List.prefix_rfl, fun _ => rfl, List.forall_mem_nil _, fun _ _ => rfl,
        (List.append_nil _).symm⟩
  | cons name names ih =>
      have isKnown := known name List.mem_cons_self
      obtain ⟨apart, nodupRest⟩ := List.nodup_cons.mp nodup
      have stable_iff := restarted_stable_iff listed timely isKnown
      have waited := @waited_waitForLayerStability
        (manager.restartLayer name).1 name (seconds 30)
      have kept : Kept manager
          ((manager.restartLayer name).1.waitForLayerStability name
            (seconds 30)).1 := Kept.restartLayer.trans waited.kept
      have sent := waited.changes.trans
        (@changes_restartLayer manager _ isKnown)
      have up : ((manager.restartLayer name).1.waitForLayerStability name
          (seconds 30)).1.Up name := by
        unfold Up
        rw [waited.getLayerStatus]
        exact up_restartLayer listed isKnown
      have others : ∀ other, other ≠ name →
          ((manager.restartLayer name).1.waitForLayerStability name
            (seconds 30)).1.getLayerStatus other =
              manager.getLayerStatus other := by
        intro other different
        rw [waited.getLayerStatus, getLayerStatus_restartLayer isKnown,
          if_neg different]
      cases wait : (manager.restartLayer name).1.waitForLayerStability name
          (seconds 30) with
      | mk stable result =>
          rw [wait] at stable_iff kept sent up others
          cases result with
          | error error =>
              have unfolded : manager.startInOrder (name :: names) =
                  (stable, .error error) := by
                rw [startInOrder, Outcome.andThen_ok (restartLayer_eq isKnown),
                  Outcome.andThen_error wait]
              refine ⟨[name], ?_⟩
              constructor <;> try rw [unfolded]
              · exact kept
              · refine iff_of_false (by simp) ?_
                intro limits
                cases stable_iff.mpr (limits name List.mem_cons_self)
              · exact ⟨names, rfl⟩
              · exact fun ok => nomatch ok
              · intro other member
                rw [List.mem_singleton.mp member]
                exact up
              · intro other missing
                exact others other (mt List.mem_singleton.mpr missing)
              · exact sent
          | ok _ =>
              have unfolded : manager.startInOrder (name :: names) =
                  stable.startInOrder names := by
                rw [startInOrder, Outcome.andThen_ok (restartLayer_eq isKnown),
                  Outcome.andThen_ok wait]
              obtain ⟨front, rest⟩ := ih nodupRest (kept.listed listed)
                (kept.timely timely)
                (fun other member => known other (List.mem_cons_of_mem _ member))
              refine ⟨name :: front, ?_⟩
              constructor <;> try rw [unfolded]
              · exact kept.trans rest.kept
              · rw [rest.ok_iff, List.forall_mem_cons]
                constructor
                · intro limits
                  exact ⟨stable_iff.mp rfl, fun other member =>
                    kept.within_iff.mp (limits other member)⟩
                · intro limits other member
                  exact kept.within_iff.mpr (limits.2 other member)
              · exact List.cons_prefix_cons.mpr ⟨rfl, rest.isPrefix⟩
              · exact fun ok => congrArg (name :: ·) (rest.whole ok)
              · rw [List.forall_mem_cons]
                refine ⟨?_, rest.up⟩
                unfold Up
                rw [rest.others name fun member =>
                  apart (rest.isPrefix.subset member)]
                exact up
              · intro other missing
                rw [List.mem_cons, not_or] at missing
                rw [rest.others other missing.2, others other missing.1]
              · rw [rest.changes, sent, List.append_assoc]
                rfl

theorem mem_buildDependencyChain_iff (known : name ∈ layerNames)
    {other : String} :
    other ∈ buildDependencyChain name ↔
      other ∈ name :: getLayerDependencies name := by
  have table : ∀ name ∈ layerNames,
      (∀ other ∈ buildDependencyChain name,
        other ∈ name :: getLayerDependencies name) ∧
      ∀ other ∈ name :: getLayerDependencies name,
        other ∈ buildDependencyChain name := by decide
  exact ⟨(table name known).1 other, (table name known).2 other⟩

/-- The chain is the walk over the dependencies. -/
theorem buildDependencyChain_eq :
    buildDependencyChain name = layerNeeds.chainOf name :=
  if_pos (Needs.mem_chainOf_iff.mpr .refl)

theorem known_of_mem_chain (known : name ∈ layerNames) {other : String}
    (member : other ∈ buildDependencyChain name) : other ∈ layerNames := by
  rcases List.mem_cons.mp ((mem_buildDependencyChain_iff known).mp member) with
    same | dependency
  · rw [same]
    exact known
  · exact known_dependency known dependency

/-- Transport is in every chain, and everything else needs it. -/
theorem apart_iff (known : name ∈ layerNames) (standing : String → Bool) :
    layerNeeds.Apart standing (buildDependencyChain name) ↔
      ∀ other ∈ layerNames, other ∉ buildDependencyChain name →
        standing other = false := by
  have transport : ∀ name ∈ layerNames,
      "transport" ∈ buildDependencyChain name := by decide
  have needed : ∀ other ∈ layerNames, other = "transport" ∨
      "transport" ∈ layerNeeds.needs other := by decide
  constructor
  · intro apart other among missing
    apply Bool.eq_false_iff.mpr
    intro stands
    rcases needed other among with same | needs
    · rw [same] at missing
      exact missing (transport name known)
    · exact apart other stands missing "transport" needs (transport name known)
  · intro down node stands missing need needed
    by_cases among : node ∈ layerNames
    · rw [down node among missing] at stands
      cases stands
    · have none : layerNeeds.needs node = [] := by
        simp only [layerNames, List.mem_cons, List.not_mem_nil, or_false,
          not_or] at among
        simp [layerNeeds, getLayerDependencies, among]
      rw [none] at needed
      cases needed

theorem map_upChange_stops (names : List String) :
    (names.reverse.map fun name => (name, LayerStatus.shutdown)).map upChange =
      Needs.takeDown names := by
  rw [List.map_map]
  rfl

theorem map_upChange_starts (names : List String) :
    (names.flatMap fun name =>
      [(name, LayerStatus.initializing), (name, LayerStatus.active)]).map
        upChange = Needs.putUp names := by
  rw [List.map_flatMap]
  rfl

theorem standing_eq_true_iff :
    manager.standing name = true ↔ manager.Up name :=
  decide_eq_true_iff

/-- The whole chain is stopped before any of it is started. -/
def stopChain (manager : LayerManager) (name : String) : LayerManager :=
  (manager.stopLayers (buildDependencyChain name).reverse).sleep (seconds 3)

theorem kept_stopChain : Kept manager (manager.stopChain name) :=
  (Kept.stopLayers _).trans (waited_sleep _).kept

theorem nodup_buildDependencyChain : (buildDependencyChain name).Nodup := by
  rw [buildDependencyChain_eq]
  exact Needs.chainOf_nodup name

theorem startInOrder_stopChain (known : name ∈ layerNames)
    (listed : manager.Listed) (timely : Clock.Timely manager.clock.delay) :
    ∃ front, StartsInOrder (manager.stopChain name)
      (buildDependencyChain name) front :=
  startInOrder_spec _ nodup_buildDependencyChain
    (kept_stopChain.listed listed) (kept_stopChain.timely timely)
    (fun _ member => known_of_mem_chain known member)

theorem sequentialRecovery_ok_iff (known : name ∈ layerNames)
    (listed : manager.Listed) (timely : Clock.Timely manager.clock.delay) :
    (manager.sequentialRecovery name).2 = .ok () ↔
      ∀ other ∈ buildDependencyChain name, manager.Within other := by
  obtain ⟨front, starts⟩ := startInOrder_stopChain known listed timely
  apply starts.ok_iff.trans
  apply forall₂_congr
  intro other _
  exact kept_stopChain.within_iff

/-- Recovery in sequence succeeds exactly when the layer and its dependencies
work within their limits, and it leaves them up.  At every one of its status
changes, which lead to the table at the end, the layers that are up have their
dependencies up exactly when they had before and no layer outside the chain was
up. -/
theorem sequentialRecovery_spec (manager : LayerManager) (name : String)
    (known : name ∈ layerNames) (listed : manager.Listed)
    (timely : Clock.Timely manager.clock.delay) :
    ((manager.sequentialRecovery name).2 = .ok () ↔
        ∀ other ∈ buildDependencyChain name, manager.Within other) ∧
      ((manager.sequentialRecovery name).2 = .ok () →
        ∀ other ∈ buildDependencyChain name,
          (manager.sequentialRecovery name).1.Up other) ∧
      ∃ sent, (manager.sequentialRecovery name).1.changes =
          manager.changes ++ sent ∧
        (∀ other,
          Needs.after manager.standing (sent.map upChange) other =
            (manager.sequentialRecovery name).1.standing other) ∧
        (layerNeeds.Steady manager.standing (sent.map upChange) ↔
          layerNeeds.Supported (manager.standing · = true) ∧
            ∀ other ∈ layerNames, other ∉ buildDependencyChain name →
              ¬ manager.Up other) := by
  have ordered : layerNeeds.Ordered (buildDependencyChain name) := by
    rw [buildDependencyChain_eq]
    exact Needs.chainOf_ordered name
  obtain ⟨front, starts⟩ := startInOrder_stopChain known listed timely
  have sent := starts.changes
  rw [stopChain, (waited_sleep _).changes, changes_stopLayers,
    List.append_assoc] at sent
  refine ⟨sequentialRecovery_ok_iff known listed timely, ?_, _, sent, ?_, ?_⟩
  · intro ok other member
    apply starts.up
    rw [starts.whole ok]
    exact member
  · intro other
    rw [List.map_append, map_upChange_stops, map_upChange_starts]
    apply Bool.eq_iff_iff.mpr
    rw [Needs.after_append, Needs.after_putUp, Needs.after_takeDown,
      standing_eq_true_iff, standing_eq_true_iff]
    by_cases started : other ∈ front
    · exact iff_of_true (Or.inr started) (starts.up other started)
    · have unchanged : (manager.sequentialRecovery name).1.getLayerStatus
          other = (manager.stopLayers
            (buildDependencyChain name).reverse).getLayerStatus other :=
        starts.others other started
      rw [or_iff_left started, Up, Up, unchanged]
      by_cases member : other ∈ buildDependencyChain name
      · rw [getLayerStatus_stopLayers_of_mem (List.mem_reverse.mpr member)]
        refine iff_of_false (fun claim => claim.2 member) ?_
        cases manager.getLayerStatus other <;> simp
      · rw [getLayerStatus_stopLayers_of_not_mem
          (mt List.mem_reverse.mp member), and_iff_left member]
  · rw [List.map_append, map_upChange_stops, map_upChange_starts,
      Needs.steady_cycle_iff ordered nodup_buildDependencyChain
        starts.isPrefix, apart_iff known]
    apply and_congr_right
    intro _
    apply forall₃_congr
    intro other _ _
    rw [Bool.eq_false_iff, Ne, standing_eq_true_iff]

theorem sequentialRecovery_sample :
    ((LayerManager.new ⟨fun _ => 0, 0, 0⟩).sequentialRecovery "fec").2 =
        .ok () ∧
      ((LayerManager.new ⟨fun _ => 0, 0, 0⟩).sequentialRecovery
        "fec").1.Up "transport" := by
  obtain ⟨ok_iff, up, _⟩ := sequentialRecovery_spec
    (.new ⟨fun _ => 0, 0, 0⟩) "fec" (by decide) (listed_new _)
    (fun _ => Nat.zero_le _)
  have ok := ok_iff.mpr fun other member =>
    within_new _ (known_of_mem_chain (by decide) member)
  exact ⟨ok, up ok "transport" (by decide)⟩

end LayerManager

end NyxNet.Layers
