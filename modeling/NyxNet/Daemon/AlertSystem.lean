import NyxNet.Daemon.HealthMonitor

/-!
# The alert system

`check_thresholds` of `nyx-daemon/src/alert_system.rs`.  The thresholds stay
locked for reading while the new alerts are processed, and processing an alert
asks for the thresholds for writing.  The check comes to its end exactly when
there is no new alert.
-/

namespace NyxNet.Alerts

open GuardedTask

inductive AlertSeverity where
  | info
  | warning
  | critical
  deriving DecidableEq, Repr

inductive LayerType where
  | crypto
  | stream
  | mix
  | fec
  | transport
  deriving DecidableEq, Repr

inductive ThresholdComparison where
  | greaterThan
  | lessThan
  | equal
  deriving DecidableEq, Repr

structure AlertThreshold where
  metric : String
  threshold : Float
  severity : AlertSeverity
  comparison : ThresholdComparison
  layer : Option LayerType
  enabled : Bool
  cooldownDuration : Duration
  lastTriggered : Option SystemTime

structure Alert where
  id : String
  timestamp : SystemTime
  severity : AlertSeverity
  title : String
  metric : String
  currentValue : Float
  threshold : Float
  layer : Option LayerType
  resolved : Bool
  resolvedAt : Option SystemTime

inductive AlertAction where
  | created
  | resolved
  | suppressed
  | escalated
  deriving DecidableEq, Repr

structure AlertHistoryEntry where
  alert : Alert
  action : AlertAction
  timestamp : SystemTime

inductive AlertHandler where
  | log
  | email (address : String)
  | webhook (url : String)
  | console
  deriving DecidableEq, Repr

structure AlertRoute where
  severityFilter : List AlertSeverity
  layerFilter : List LayerType
  handler : AlertHandler

structure SuppressionRule where
  id : String
  metricPattern : String
  layer : Option LayerType
  duration : Duration
  maxAlerts : UInt32
  createdAt : SystemTime

structure LayerMetrics where
  throughput : Float
  errorRate : Float
  queueDepth : UInt32
  activeConnections : UInt32

structure SystemMetrics where
  cpuUsagePercent : Float
  memoryUsageBytes : UInt64
  memoryTotalBytes : UInt64

structure NetworkMetrics where
  totalConnections : UInt64
  failedConnections : UInt64

structure PerformanceMetrics where
  avgLatencyMs : Float
  packetLossRate : Float

structure MetricsSnapshot where
  layerMetrics : LayerType → Option LayerMetrics
  systemMetrics : SystemMetrics
  networkMetrics : NetworkMetrics
  errorRate : Float
  performanceMetrics : PerformanceMetrics

def LayerMetrics.value (metrics : LayerMetrics) (metric : String) :
    Option Float :=
  if metric = "throughput" then some metrics.throughput
  else if metric = "layer_error_rate" then some metrics.errorRate
  else if metric = "queue_depth" then some metrics.queueDepth.toFloat
  else if metric = "active_connections" then
    some metrics.activeConnections.toFloat
  else none

/-- A share of a total in percent, unless the total is zero. -/
def percentage (part total : UInt64) : Option Float :=
  if 0 < total then some (part.toFloat / total.toFloat * 100.0) else none

def MetricsSnapshot.extractMetricValue (snapshot : MetricsSnapshot)
    (metric : String) (layer : Option LayerType) : Option Float :=
  if metric = "cpu_usage" then
    some snapshot.systemMetrics.cpuUsagePercent
  else if metric = "memory_usage" then
    percentage snapshot.systemMetrics.memoryUsageBytes
      snapshot.systemMetrics.memoryTotalBytes
  else if metric = "error_rate" then
    some snapshot.errorRate
  else if metric = "avg_latency_ms" then
    some snapshot.performanceMetrics.avgLatencyMs
  else if metric = "packet_loss_rate" then
    some (snapshot.performanceMetrics.packetLossRate * 100.0)
  else if metric = "connection_failure_rate" then
    percentage snapshot.networkMetrics.failedConnections
      snapshot.networkMetrics.totalConnections
  else
    match layer with
    | some layerType =>
        match snapshot.layerMetrics layerType with
        | some layerMetrics => layerMetrics.value metric
        | none => none
    | none => none

/-- The time since, nothing when it lies ahead. -/
def sinceOrDefault (now earlier : SystemTime) : Nat :=
  (now.durationSince earlier).elim 0 Duration.asNanos

def AlertThreshold.coolsDown (threshold : AlertThreshold)
    (now : SystemTime) : Bool :=
  match threshold.lastTriggered with
  | some lastTriggered =>
      sinceOrDefault now lastTriggered < threshold.cooldownDuration.asNanos
  | none => false

def AlertThreshold.isExceeded (threshold : AlertThreshold)
    (value : Float) : Bool :=
  match threshold.comparison with
  | .greaterThan => threshold.threshold < value
  | .lessThan => value < threshold.threshold
  | .equal => (value - threshold.threshold).abs < 2.220446049250313e-16

/-- `str::contains`. -/
def containsText (text pattern : String) : Bool :=
  pattern.toList <:+: text.toList

/-- The rule is about the metric and the layer, and still active. -/
def SuppressionRule.applies (rule : SuppressionRule) (metric : String)
    (layer : Option LayerType) (now : SystemTime) : Bool :=
  containsText metric rule.metricPattern &&
    !(rule.layer.isSome && rule.layer != layer) &&
    decide (sinceOrDefault now rule.createdAt < rule.duration.asNanos)

/-- The map of thresholds is the list of its entries in the order in which it
gives them.  `handled` and `broadcast` are what the handlers and the subscribers
of the channel were given. -/
structure AlertSystem where
  thresholds : List (String × AlertThreshold)
  activeAlerts : Std.ExtTreeMap String Alert compare
  alertHistory : List AlertHistoryEntry
  routes : List AlertRoute
  suppressionRules : List SuppressionRule
  maxHistorySize : Nat
  handled : List (AlertHandler × Alert)
  broadcast : List Alert

def AlertSystem.matchingAlerts (system : AlertSystem) (pattern : String) :
    Nat :=
  system.activeAlerts.toList.countP (fun entry =>
    containsText entry.2.metric pattern)

inductive Lock where
  | thresholds
  | activeAlerts
  | alertHistory
  | routes
  | suppressionRules
  deriving DecidableEq, Repr

abbrev AlertTask : Type := GuardedTask Lock AlertSystem (List Alert)

/-- The loop of `should_suppress_alert`. -/
def suppressionLoop (metric : String) (layer : Option LayerType)
    (now : SystemTime) (next : Bool → AlertTask) :
    List SuppressionRule → AlertTask
  | [] => .release ⟨.suppressionRules, .read⟩ (next false)
  | rule :: rules =>
      if rule.applies metric layer now then
        .acquire ⟨.activeAlerts, .read⟩ <|
        .look fun system =>
          if rule.maxAlerts.toNat ≤
              system.matchingAlerts rule.metricPattern then
            .release ⟨.activeAlerts, .read⟩ <|
            .release ⟨.suppressionRules, .read⟩ (next true)
          else
            .release ⟨.activeAlerts, .read⟩
              (suppressionLoop metric layer now next rules)
      else
        suppressionLoop metric layer now next rules

def shouldSuppressAlert (metric : String) (layer : Option LayerType)
    (now : SystemTime) (next : Bool → AlertTask) : AlertTask :=
  .acquire ⟨.suppressionRules, .read⟩ <|
  .look fun system =>
    suppressionLoop metric layer now next system.suppressionRules

/-- What the turn of the loop for a threshold reads from the clock, and the id
that it draws. -/
structure Moment where
  cooldownAt : SystemTime
  suppressionAt : SystemTime
  createdAt : SystemTime
  alertId : String

def createAlert (threshold : AlertThreshold) (currentValue : Float)
    (moment : Moment) : Alert where
  id := moment.alertId
  timestamp := moment.createdAt
  severity := threshold.severity
  title := threshold.metric ++ " threshold exceeded"
  metric := threshold.metric
  currentValue := currentValue
  threshold := threshold.threshold
  layer := threshold.layer
  resolved := false
  resolvedAt := none

/-- The first loop of `check_thresholds`. -/
def checkLoop (snapshot : MetricsSnapshot) (moments : String → Moment)
    (next : List Alert → AlertTask) :
    List (String × AlertThreshold) → List Alert → AlertTask
  | [], newAlerts => next newAlerts
  | (thresholdId, threshold) :: thresholds, newAlerts =>
      if ¬ threshold.enabled then
        checkLoop snapshot moments next thresholds newAlerts
      else if threshold.coolsDown (moments thresholdId).cooldownAt then
        checkLoop snapshot moments next thresholds newAlerts
      else
        match snapshot.extractMetricValue threshold.metric
            threshold.layer with
        | some value =>
            if threshold.isExceeded value then
              shouldSuppressAlert threshold.metric threshold.layer
                (moments thresholdId).suppressionAt fun suppress =>
                  if ¬ suppress then
                    checkLoop snapshot moments next thresholds
                      (newAlerts ++
                        [createAlert threshold value (moments thresholdId)])
                  else
                    checkLoop snapshot moments next thresholds newAlerts
            else
              checkLoop snapshot moments next thresholds newAlerts
        | none => checkLoop snapshot moments next thresholds newAlerts

def addToHistory (alert : Alert) (action : AlertAction)
    (timestamp : SystemTime) (rest : AlertTask) : AlertTask :=
  .acquire ⟨.alertHistory, .write⟩ <|
  .update
    (fun system =>
      let history := system.alertHistory ++ [⟨alert, action, timestamp⟩]
      { system with
        alertHistory :=
          if system.maxHistorySize < history.length then history.tail
          else history }) <|
  .release ⟨.alertHistory, .write⟩ rest

def AlertRoute.accepts (route : AlertRoute) (alert : Alert) : Bool :=
  if ¬ route.severityFilter.isEmpty ∧
      ¬ route.severityFilter.contains alert.severity then
    false
  else if ¬ route.layerFilter.isEmpty then
    match alert.layer with
    | some alertLayer => route.layerFilter.contains alertLayer
    | none => false
  else
    true

def routeAlert (alert : Alert) (rest : AlertTask) : AlertTask :=
  .acquire ⟨.routes, .read⟩ <|
  .update
    (fun system =>
      { system with
        handled := system.handled ++
          (system.routes.filter (fun route => route.accepts alert)).map
            (fun route => (route.handler, alert)) }) <|
  .release ⟨.routes, .read⟩ rest

def processAlert (recordedAt : String → SystemTime) (alert : Alert)
    (rest : AlertTask) : AlertTask :=
  .acquire ⟨.activeAlerts, .write⟩ <|
  .update
    (fun system =>
      { system with
        activeAlerts := system.activeAlerts.insert alert.id alert }) <|
  .release ⟨.activeAlerts, .write⟩ <|
  addToHistory alert .created (recordedAt alert.id) <|
  .acquire ⟨.thresholds, .write⟩ <|
  .update
    (fun system =>
      { system with
        thresholds := system.thresholds.map fun entry =>
          if entry.2.metric = alert.metric ∧
              entry.2.layer = alert.layer then
            (entry.1, { entry.2 with lastTriggered := some alert.timestamp })
          else
            entry }) <|
  .release ⟨.thresholds, .write⟩ <|
  routeAlert alert <|
  .update
    (fun system => { system with broadcast := system.broadcast ++ [alert] })
    rest

/-- The second loop of `check_thresholds`. -/
def processAlerts (recordedAt : String → SystemTime) (rest : AlertTask) :
    List Alert → AlertTask
  | [] => rest
  | alert :: alerts =>
      processAlert recordedAt alert (processAlerts recordedAt rest alerts)

def checkThresholds (snapshot : MetricsSnapshot) (moments : String → Moment)
    (recordedAt : String → SystemTime) : AlertTask :=
  .acquire ⟨.thresholds, .read⟩ <|
  .look fun system =>
    checkLoop snapshot moments
      (fun newAlerts =>
        processAlerts recordedAt
          (.release ⟨.thresholds, .read⟩ (.ended newAlerts)) newAlerts)
      system.thresholds []

/-- The task with nothing held. -/
def AlertSystem.running (system : AlertSystem) (task : AlertTask) :
    Running Lock AlertSystem (List Alert) :=
  ⟨system, [], task⟩

/-- Some rule that applies has enough active alerts. -/
def AlertSystem.suppresses (system : AlertSystem) (metric : String)
    (layer : Option LayerType) (now : SystemTime) : Bool :=
  system.suppressionRules.any (fun rule =>
    rule.applies metric layer now &&
      decide (rule.maxAlerts.toNat ≤
        system.matchingAlerts rule.metricPattern))

/-- The threshold is enabled, has cooled down, is exceeded and not
suppressed. -/
def Fires (system : AlertSystem) (snapshot : MetricsSnapshot)
    (moment : Moment) (threshold : AlertThreshold) : Prop :=
  threshold.enabled = true ∧
    threshold.coolsDown moment.cooldownAt = false ∧
    (∃ value, snapshot.extractMetricValue threshold.metric threshold.layer =
        some value ∧ threshold.isExceeded value = true) ∧
    system.suppresses threshold.metric threshold.layer
      moment.suppressionAt = false

/-- The alert that the first loop makes for a threshold. -/
def newAlert (system : AlertSystem) (snapshot : MetricsSnapshot)
    (moment : Moment) (threshold : AlertThreshold) : Option Alert :=
  if threshold.enabled && !threshold.coolsDown moment.cooldownAt then
    match snapshot.extractMetricValue threshold.metric threshold.layer with
    | some value =>
        if threshold.isExceeded value &&
            !system.suppresses threshold.metric threshold.layer
              moment.suppressionAt then
          some (createAlert threshold value moment)
        else
          none
    | none => none
  else
    none

theorem newAlert_eq_none_iff {system : AlertSystem}
    {snapshot : MetricsSnapshot} {moment : Moment}
    {threshold : AlertThreshold} :
    newAlert system snapshot moment threshold = none ↔
      ¬ Fires system snapshot moment threshold := by
  unfold newAlert Fires
  cases threshold.enabled with
  | false => simp
  | true =>
      cases threshold.coolsDown moment.cooldownAt with
      | true => simp
      | false =>
          cases snapshot.extractMetricValue threshold.metric
              threshold.layer with
          | none => simp
          | some value => simp

/-- The guard that lives from the first statement to the last. -/
def thresholdsGuard : Guard Lock := ⟨.thresholds, .read⟩

section Checking

variable {post : AlertSystem → List Alert → Prop} {system : AlertSystem}

theorem endsWith_suppressionLoop {metric : String}
    {layer : Option LayerType} {now : SystemTime} {next : Bool → AlertTask}
    (rules : List SuppressionRule) :
    EndsWith post ⟨system, [⟨.suppressionRules, .read⟩, thresholdsGuard],
        suppressionLoop metric layer now next rules⟩ ↔
      EndsWith post ⟨system, [thresholdsGuard],
        next (rules.any (fun rule => rule.applies metric layer now &&
          decide (rule.maxAlerts.toNat ≤
            system.matchingAlerts rule.metricPattern)))⟩ := by
  induction rules with
  | nil =>
      unfold suppressionLoop
      rw [endsWith_release, List.erase_cons_head]
      rfl
  | cons rule rules ih =>
      unfold suppressionLoop
      by_cases applies : rule.applies metric layer now = true
      · rw [if_pos applies, endsWith_acquire (by decide), endsWith_look,
          List.any_cons, applies, Bool.true_and]
        by_cases enough : rule.maxAlerts.toNat ≤
            system.matchingAlerts rule.metricPattern
        · rw [if_pos enough, endsWith_release, List.erase_cons_head,
            endsWith_release, List.erase_cons_head, decide_eq_true enough,
            Bool.true_or]
        · rw [if_neg enough, endsWith_release, List.erase_cons_head, ih,
            decide_eq_false enough, Bool.false_or]
      · have notApplies := Bool.eq_false_of_not_eq_true applies
        rw [if_neg applies, ih, List.any_cons, notApplies, Bool.false_and,
          Bool.false_or]

theorem endsWith_shouldSuppressAlert {metric : String}
    {layer : Option LayerType} {now : SystemTime} {next : Bool → AlertTask} :
    EndsWith post ⟨system, [thresholdsGuard],
        shouldSuppressAlert metric layer now next⟩ ↔
      EndsWith post ⟨system, [thresholdsGuard],
        next (system.suppresses metric layer now)⟩ := by
  unfold shouldSuppressAlert
  rw [endsWith_acquire (by decide), endsWith_look]
  exact endsWith_suppressionLoop system.suppressionRules

/-- One turn of the first loop. -/
theorem endsWith_checkLoop_cons {snapshot : MetricsSnapshot}
    {moments : String → Moment} {next : List Alert → AlertTask}
    (thresholdId : String) (threshold : AlertThreshold)
    (thresholds : List (String × AlertThreshold)) (newAlerts : List Alert) :
    EndsWith post ⟨system, [thresholdsGuard],
        checkLoop snapshot moments next
          ((thresholdId, threshold) :: thresholds) newAlerts⟩ ↔
      EndsWith post ⟨system, [thresholdsGuard],
        checkLoop snapshot moments next thresholds (newAlerts ++
          (newAlert system snapshot (moments thresholdId)
            threshold).toList)⟩ := by
  unfold newAlert
  rw [checkLoop]
  cases threshold.enabled with
  | false => simp
  | true =>
      cases threshold.coolsDown (moments thresholdId).cooldownAt with
      | true => simp
      | false =>
          cases snapshot.extractMetricValue threshold.metric
              threshold.layer with
          | none => simp
          | some value =>
              cases exceeded : threshold.isExceeded value with
              | false => simp [exceeded]
              | true =>
                  cases suppressed : system.suppresses threshold.metric
                      threshold.layer
                      (moments thresholdId).suppressionAt with
                  | true =>
                      simp [exceeded, endsWith_shouldSuppressAlert,
                        suppressed]
                  | false =>
                      simp [exceeded, endsWith_shouldSuppressAlert,
                        suppressed]

/-- The first loop goes on with the alerts of the thresholds that fire. -/
theorem endsWith_checkLoop {snapshot : MetricsSnapshot}
    {moments : String → Moment} {next : List Alert → AlertTask}
    (thresholds : List (String × AlertThreshold)) (newAlerts : List Alert) :
    EndsWith post ⟨system, [thresholdsGuard],
        checkLoop snapshot moments next thresholds newAlerts⟩ ↔
      EndsWith post ⟨system, [thresholdsGuard],
        next (newAlerts ++ thresholds.filterMap (fun entry =>
          newAlert system snapshot (moments entry.1) entry.2))⟩ := by
  induction thresholds generalizing newAlerts with
  | nil =>
      rw [List.filterMap_nil, List.append_nil]
      exact Iff.rfl
  | cons entry thresholds ih =>
      obtain ⟨thresholdId, threshold⟩ := entry
      rw [endsWith_checkLoop_cons, ih, List.append_assoc,
        List.filterMap_cons]
      cases newAlert system snapshot (moments thresholdId) threshold with
      | none => exact Iff.rfl
      | some alert => exact Iff.rfl

/-- The thresholds are locked for reading when an alert asks to change them. -/
theorem not_endsWith_processAlert {recordedAt : String → SystemTime}
    {alert : Alert} {rest : AlertTask} :
    ¬ EndsWith post ⟨system, [thresholdsGuard],
      processAlert recordedAt alert rest⟩ := by
  unfold processAlert addToHistory
  rw [endsWith_acquire (by decide), endsWith_update, endsWith_release,
    List.erase_cons_head, endsWith_acquire (by decide), endsWith_update,
    endsWith_release, List.erase_cons_head]
  apply not_endsWith_acquire
  decide

end Checking

/-- A check comes to its end, with no alert, exactly when no threshold
fires. -/
theorem endsWith_checkThresholds_iff {post : AlertSystem → List Alert → Prop}
    (system : AlertSystem) (snapshot : MetricsSnapshot)
    (moments : String → Moment) (recordedAt : String → SystemTime) :
    EndsWith post
        (system.running (checkThresholds snapshot moments recordedAt)) ↔
      (∀ entry ∈ system.thresholds,
        ¬ Fires system snapshot (moments entry.1) entry.2) ∧
      post system [] := by
  unfold AlertSystem.running checkThresholds
  rw [endsWith_acquire (by decide), endsWith_look]
  change EndsWith post ⟨system, [thresholdsGuard], _⟩ ↔ _
  rw [endsWith_checkLoop, List.nil_append]
  have silent : (∀ entry ∈ system.thresholds,
      ¬ Fires system snapshot (moments entry.1) entry.2) ↔
        system.thresholds.filterMap (fun entry =>
          newAlert system snapshot (moments entry.1) entry.2) = [] := by
    rw [List.filterMap_eq_nil_iff]
    exact forall₂_congr (fun _ _ => newAlert_eq_none_iff.symm)
  rw [silent]
  generalize system.thresholds.filterMap (fun entry =>
    newAlert system snapshot (moments entry.1) entry.2) = newAlerts
  cases newAlerts with
  | nil =>
      unfold processAlerts
      rw [endsWith_release, endsWith_ended]
      exact (and_iff_right rfl).symm
  | cons alert alerts =>
      refine iff_of_false not_endsWith_processAlert ?_
      intro impossible
      cases impossible.1

/-- Running the health checks never comes to its end, and a check of the
thresholds comes to its end exactly when no threshold fires. -/
theorem monitoring_tasks_end_iff (monitor : Health.HealthMonitor)
    (measure : String → Health.Measurement) (system : AlertSystem)
    (snapshot : MetricsSnapshot) (moments : String → Moment)
    (recordedAt : String → SystemTime) :
    (¬ EndsWith
          (fun after _ => Health.IsWorst after.overallStatus after.checks)
          (monitor.running (Health.runAllChecks measure)) ∧
        ∃ count, WaitsForItself
          (step^[count] (monitor.running (Health.runAllChecks measure)))) ∧
      (Ends (system.running
          (checkThresholds snapshot moments recordedAt)) ↔
        ∀ entry ∈ system.thresholds,
          ¬ Fires system snapshot (moments entry.1) entry.2) ∧
      ((∀ count, ¬ WaitsForItself (step^[count]
          (system.running
            (checkThresholds snapshot moments recordedAt)))) ↔
        ∀ entry ∈ system.thresholds,
          ¬ Fires system snapshot (moments entry.1) entry.2) := by
  have neverEnds := Health.not_endsWith_runAllChecks
    (fun after _ => Health.IsWorst after.overallStatus after.checks)
    monitor measure
  have waits : ∃ count, WaitsForItself
      (step^[count] (monitor.running (Health.runAllChecks measure))) := by
    rcases ends_or_waits (Health.runAllChecks measure) monitor [] with
      ends | waits
    · exact absurd ends (Health.not_endsWith_runAllChecks _ monitor measure)
    · exact waits
  have endsIff : Ends (system.running
      (checkThresholds snapshot moments recordedAt)) ↔
        ∀ entry ∈ system.thresholds,
          ¬ Fires system snapshot (moments entry.1) entry.2 :=
    (endsWith_checkThresholds_iff system snapshot moments recordedAt).trans
      (and_iff_left trivial)
  exact ⟨⟨neverEnds, waits⟩, endsIff,
    (ends_iff_never_waits _).symm.trans endsIff⟩

/-- A new monitor never comes to the end of its first run. -/
theorem new_monitor_waits_for_itself :
    ¬ ∀ (monitor : Health.HealthMonitor)
        (measure : String → Health.Measurement),
      EndsWith (fun after _ => Health.IsWorst after.overallStatus after.checks)
        (monitor.running (Health.runAllChecks measure)) := by
  intro ends
  exact Health.not_endsWith_runAllChecks _ _ _
    (ends (.new SystemTime.unixEpoch)
      (fun _ => ⟨SystemTime.unixEpoch, 0.0⟩))

end NyxNet.Alerts
