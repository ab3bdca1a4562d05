import NyxNet.Daemon.AlertSystem
import NyxNet.Lib.Trace

/-!
# Cooldowns of alerts

Checks of the thresholds in a row, as if every lock were given at once.  A
threshold reads its own time of the last alert, and an alert writes that time to
all thresholds with its metric and its layer.
-/

namespace NyxNet.Alerts

open GuardedTask

/-- One call of `check_thresholds` and what it reads from the clock. -/
structure Check where
  snapshot : MetricsSnapshot
  moments : String → Moment
  recordedAt : String → SystemTime

namespace AlertSystem

variable (system : AlertSystem) (check : Check)

def checked : AlertSystem × List Alert :=
  (checkThresholds check.snapshot check.moments check.recordedAt).unguarded
    system

/-- The alert that a threshold raises. -/
def alertOf (entry : String × AlertThreshold) : Option Alert :=
  newAlert system check.snapshot (check.moments entry.1) entry.2

/-- The new alerts, each with the id of the threshold that raised it. -/
def raised : List (String × Alert) :=
  system.thresholds.filterMap fun entry =>
    (system.alertOf check entry).map (Prod.mk entry.1)

def step : List (String × Alert) × AlertSystem :=
  (system.raised check, (system.checked check).1)

/-- The threshold is enabled, exceeded and not suppressed. -/
def Due (entry : String × AlertThreshold) : Prop :=
  entry.2.enabled = true ∧
    (∃ value,
      check.snapshot.extractMetricValue entry.2.metric entry.2.layer =
        some value ∧ entry.2.isExceeded value = true) ∧
    system.suppresses entry.2.metric entry.2.layer
      (check.moments entry.1).suppressionAt = false

end AlertSystem

/-- A check returns the alerts of its thresholds, and one that is due is left
out only within the cooldown of an alert of its own. -/
structure ChecksRightly (past : List (Check × List (String × Alert)))
    (system : AlertSystem) (check : Check) : Prop where
  returned : (system.checked check).2 = (system.raised check).map Prod.snd
  skipped : ∀ entry ∈ system.thresholds, system.Due check entry →
    system.alertOf check entry = none →
      ∃ earlier ∈ past, ∃ alert, (entry.1, alert) ∈ earlier.2 ∧
        sinceOrDefault (check.moments entry.1).cooldownAt alert.timestamp <
          entry.2.cooldownDuration.asNanos

/-- Whichever threshold raises an alert, no other one that is enabled and has a
cooldown is about the same metric and layer. -/
def RaisesAlone (system : AlertSystem) (check : Check) : Prop :=
  ∀ entry ∈ system.thresholds, ∀ alert,
    system.alertOf check entry = some alert →
      ∀ other ∈ system.thresholds, other.1 ≠ entry.1 →
        other.2.metric = entry.2.metric → other.2.layer = entry.2.layer →
          other.2.enabled = true → other.2.cooldownDuration.asNanos = 0

section Unguarded

variable {system : AlertSystem}

theorem unguarded_suppressionLoop {metric : String}
    {layer : Option LayerType} {now : SystemTime} {next : Bool → AlertTask}
    (rules : List SuppressionRule) :
    (suppressionLoop metric layer now next rules).unguarded system =
      (next (rules.any (fun rule => rule.applies metric layer now &&
        decide (rule.maxAlerts.toNat ≤
          system.matchingAlerts rule.metricPattern)))).unguarded system := by
  induction rules with
  | nil => rfl
  | cons rule rules ih =>
      unfold suppressionLoop
      by_cases applies : rule.applies metric layer now = true
      · rw [if_pos applies, List.any_cons, applies, Bool.true_and]
        simp only [unguarded]
        by_cases enough : rule.maxAlerts.toNat ≤
            system.matchingAlerts rule.metricPattern
        · rw [if_pos enough, decide_eq_true enough, Bool.true_or]
          rfl
        · rw [if_neg enough, decide_eq_false enough, Bool.false_or]
          exact ih
      · rw [if_neg applies, ih, List.any_cons,
          Bool.eq_false_of_not_eq_true applies, Bool.false_and, Bool.false_or]

theorem unguarded_shouldSuppressAlert {metric : String}
    {layer : Option LayerType} {now : SystemTime} {next : Bool → AlertTask} :
    (shouldSuppressAlert metric layer now next).unguarded system =
      (next (system.suppresses metric layer now)).unguarded system :=
  unguarded_suppressionLoop system.suppressionRules

/-- One turn of the first loop. -/
theorem unguarded_checkLoop_cons {snapshot : MetricsSnapshot}
    {moments : String → Moment} {next : List Alert → AlertTask}
    (thresholdId : String) (threshold : AlertThreshold)
    (thresholds : List (String × AlertThreshold)) (newAlerts : List Alert) :
    (checkLoop snapshot moments next
        ((thresholdId, threshold) :: thresholds) newAlerts).unguarded system =
      (checkLoop snapshot moments next thresholds (newAlerts ++
        (newAlert system snapshot (moments thresholdId)
          threshold).toList)).unguarded system := by
  unfold newAlert
  rw [checkLoop]
  cases threshold.enabled with
  | false => simp
  | true =>
      cases threshold.coolsDown (moments thresholdId).cooldownAt with
      | true => simp
      | false =>
          cases snapshot.extractMetricValue threshold.metric
              threshold.layer with
          | none => simp
          | some value =>
              cases exceeded : threshold.isExceeded value with
              | false => simp [exceeded]
              | true =>
                  cases suppressed : system.suppresses threshold.metric
                      threshold.layer
                      (moments thresholdId).suppressionAt with
                  | true =>
                      simp [exceeded, unguarded_shouldSuppressAlert,
                        suppressed]
                  | false =>
                      simp [exceeded, unguarded_shouldSuppressAlert,
                        suppressed]

theorem unguarded_checkLoop {snapshot : MetricsSnapshot}
    {moments : String → Moment} {next : List Alert → AlertTask}
    (thresholds : List (String × AlertThreshold)) (newAlerts : List Alert) :
    (checkLoop snapshot moments next thresholds newAlerts).unguarded system =
      (next (newAlerts ++ thresholds.filterMap (fun entry =>
        newAlert system snapshot (moments entry.1) entry.2))).unguarded
          system := by
  induction thresholds generalizing newAlerts with
  | nil =>
      rw [List.filterMap_nil, List.append_nil]
      rfl
  | cons entry thresholds ih =>
      obtain ⟨thresholdId, threshold⟩ := entry
      rw [unguarded_checkLoop_cons, ih, List.append_assoc,
        List.filterMap_cons]
      cases newAlert system snapshot (moments thresholdId) threshold with
      | none => rfl
      | some alert => rfl

end Unguarded

/-- What an alert does to a threshold. -/
def triggeredBy (alert : Alert) (entry : String × AlertThreshold) :
    String × AlertThreshold :=
  if entry.2.metric = alert.metric ∧ entry.2.layer = alert.layer then
    (entry.1, { entry.2 with lastTriggered := some alert.timestamp })
  else
    entry

/-- Alerts that are processed leave their traces in the thresholds. -/
theorem unguarded_processAlerts {recordedAt : String → SystemTime}
    {rest : AlertTask} (alerts : List Alert) (system : AlertSystem) :
    ∃ after, (processAlerts recordedAt rest alerts).unguarded system =
        rest.unguarded after ∧
      after.thresholds = system.thresholds.map
        (fun entry => alerts.foldl (fun entry alert => triggeredBy alert entry)
          entry) := by
  induction alerts generalizing system with
  | nil => exact ⟨system, rfl, (List.map_id' _).symm⟩
  | cons alert alerts ih =>
      obtain ⟨after, result, thresholds⟩ := ih _
      refine ⟨after, result, ?_⟩
      rw [thresholds]
      exact List.map_map

namespace AlertSystem

variable {system : AlertSystem} {check : Check}

theorem map_snd_raised :
    (system.raised check).map Prod.snd =
      system.thresholds.filterMap (system.alertOf check) := by
  unfold raised
  rw [List.map_filterMap]
  congr 1
  funext entry
  cases system.alertOf check entry <;> rfl

theorem checked_spec (system : AlertSystem) (check : Check) :
    (system.checked check).2 = (system.raised check).map Prod.snd ∧
      (system.checked check).1.thresholds = system.thresholds.map
        (fun entry => ((system.raised check).map Prod.snd).foldl
          (fun entry alert => triggeredBy alert entry) entry) := by
  unfold checked checkThresholds
  simp only [unguarded]
  rw [unguarded_checkLoop, List.nil_append, map_snd_raised]
  obtain ⟨after, result, thresholds⟩ := unguarded_processAlerts _ system
  rw [result]
  exact ⟨rfl, thresholds⟩

theorem mem_raised {thresholdId : String} {alert : Alert} :
    (thresholdId, alert) ∈ system.raised check ↔
      ∃ entry ∈ system.thresholds, entry.1 = thresholdId ∧
        system.alertOf check entry = some alert := by
  unfold raised
  rw [List.mem_filterMap]
  constructor
  · intro member
    obtain ⟨entry, isEntry, mapped⟩ := member
    obtain ⟨other, isAlert, same⟩ := Option.map_eq_some_iff.mp mapped
    cases same
    exact ⟨entry, isEntry, rfl, isAlert⟩
  · intro facts
    obtain ⟨entry, isEntry, rfl, isAlert⟩ := facts
    exact ⟨entry, isEntry, by rw [isAlert]; rfl⟩

/-- An alert has the metric and the layer of its threshold. -/
theorem about_of_alertOf {entry : String × AlertThreshold} {alert : Alert}
    (isAlert : system.alertOf check entry = some alert) :
    alert.metric = entry.2.metric ∧ alert.layer = entry.2.layer := by
  unfold alertOf newAlert at isAlert
  split at isAlert
  · split at isAlert
    · split at isAlert
      · cases isAlert
        exact ⟨rfl, rfl⟩
      · cases isAlert
    · cases isAlert
  · cases isAlert

/-- A threshold that is due is left out for its time of the last alert. -/
theorem triggered_of_skipped {entry : String × AlertThreshold}
    (due : system.Due check entry)
    (skipped : system.alertOf check entry = none) :
    ∃ time, entry.2.lastTriggered = some time ∧
      sinceOrDefault (check.moments entry.1).cooldownAt time <
        entry.2.cooldownDuration.asNanos := by
  obtain ⟨enabled, exceeded, notSuppressed⟩ := due
  have coolsDown :
      entry.2.coolsDown (check.moments entry.1).cooldownAt = true := by
    by_contra cooledDown
    exact newAlert_eq_none_iff.mp skipped
      ⟨enabled, Bool.eq_false_of_not_eq_true cooledDown, exceeded,
        notSuppressed⟩
  unfold AlertThreshold.coolsDown at coolsDown
  cases triggered : entry.2.lastTriggered with
  | none =>
      rw [triggered] at coolsDown
      cases coolsDown
  | some time =>
      rw [triggered] at coolsDown
      exact ⟨time, rfl, of_decide_eq_true coolsDown⟩

end AlertSystem

/-- Only the time of the last alert changes, and only to the time of an alert
about the same metric and layer. -/
theorem foldl_triggeredBy (alerts : List Alert)
    (entry : String × AlertThreshold) :
    ∃ time, alerts.foldl (fun entry alert => triggeredBy alert entry) entry =
        (entry.1, { entry.2 with lastTriggered := time }) ∧
      (time = entry.2.lastTriggered ∨ ∃ alert ∈ alerts,
        entry.2.metric = alert.metric ∧ entry.2.layer = alert.layer ∧
          time = some alert.timestamp) := by
  induction alerts generalizing entry with
  | nil => exact ⟨_, rfl, Or.inl rfl⟩
  | cons alert alerts ih =>
      rw [List.foldl_cons]
      by_cases about : entry.2.metric = alert.metric ∧
          entry.2.layer = alert.layer
      · rw [triggeredBy, if_pos about]
        obtain ⟨time, result, origin⟩ :=
          ih (entry.1, { entry.2 with lastTriggered := some alert.timestamp })
        refine ⟨time, result, Or.inr ?_⟩
        rcases origin with kept | ⟨other, member, sameMetric, sameLayer, isTime⟩
        · exact ⟨alert, List.mem_cons_self, about.1, about.2, kept⟩
        · exact ⟨other, List.mem_cons_of_mem alert member, sameMetric,
            sameLayer, isTime⟩
      · rw [triggeredBy, if_neg about]
        obtain ⟨time, result, origin⟩ := ih entry
        refine ⟨time, result, ?_⟩
        rcases origin with kept | ⟨other, member, facts⟩
        · exact Or.inl kept
        · exact Or.inr ⟨other, List.mem_cons_of_mem alert member, facts⟩

/-- The time that a threshold with a cooldown remembers is one of an alert of
its own. -/
def RemembersOwn (past : List (Check × List (String × Alert)))
    (system : AlertSystem) : Prop :=
  ∀ entry ∈ system.thresholds, entry.2.enabled = true →
    entry.2.cooldownDuration.asNanos ≠ 0 →
      ∀ time, entry.2.lastTriggered = some time →
        ∃ earlier ∈ past, ∃ alert, (entry.1, alert) ∈ earlier.2 ∧
          alert.timestamp = time

section Runs

variable {past : List (Check × List (String × Alert))}
  {system : AlertSystem} {check : Check}

theorem checksRightly_of_remembersOwn (remembers : RemembersOwn past system) :
    ChecksRightly past system check where
  returned := (AlertSystem.checked_spec system check).1
  skipped := by
    intro entry member due skipped
    obtain ⟨time, triggered, recent⟩ :=
      AlertSystem.triggered_of_skipped due skipped
    obtain ⟨earlier, isEarlier, alert, isAlert, sameTime⟩ :=
      remembers entry member due.1 (by omega) time triggered
    rw [← sameTime] at recent
    exact ⟨earlier, isEarlier, alert, isAlert, recent⟩

theorem remembersOwn_step (alone : RaisesAlone system check)
    (remembers : RemembersOwn past system) :
    RemembersOwn (past ++ [(check, (system.step check).1)])
      (system.step check).2 := by
  intro changed isChanged enabled cooldown time triggered
  have thresholds := (AlertSystem.checked_spec system check).2
  rw [AlertSystem.step, thresholds] at isChanged
  obtain ⟨entry, member, rfl⟩ := List.mem_map.mp isChanged
  obtain ⟨newTime, result, origin⟩ :=
    foldl_triggeredBy ((system.raised check).map Prod.snd) entry
  rw [result] at enabled cooldown triggered ⊢
  rcases origin with kept | ⟨alert, isNew, sameMetric, sameLayer, isTime⟩
  · obtain ⟨earlier, isEarlier, found⟩ :=
      remembers entry member enabled cooldown time (kept.symm.trans triggered)
    exact ⟨earlier, List.mem_append_left _ isEarlier, found⟩
  · obtain ⟨⟨raiserId, other⟩, isRaised, rfl⟩ := List.mem_map.mp isNew
    refine ⟨_, List.mem_append_right _ List.mem_cons_self, other, ?_,
      Option.some.inj (isTime.symm.trans triggered)⟩
    obtain ⟨raiser, isRaiser, rfl, isAlert⟩ :=
      AlertSystem.mem_raised.mp isRaised
    by_cases own : entry.1 = raiser.1
    · rw [own]
      exact isRaised
    · obtain ⟨metric, layer⟩ := AlertSystem.about_of_alertOf isAlert
      exact absurd (alone raiser isRaiser other isAlert entry member own
        (sameMetric.trans metric) (sameLayer.trans layer) enabled) cooldown

/-- As long as every threshold raises its alerts alone, none is masked by
another one. -/
theorem checks_unmasked (system : AlertSystem) (checks : List Check)
    (fresh : ∀ entry ∈ system.thresholds, entry.2.lastTriggered = none)
    (alone : Trace.Along AlertSystem.step RaisesAlone system checks) :
    Trace.AlongPast AlertSystem.step ChecksRightly [] system checks := by
  have initial : RemembersOwn [] system := by
    intro entry member _ _ time triggered
    rw [fresh entry member] at triggered
    cases triggered
  rw [Trace.along_iff_alongPast _ _ []] at alone
  exact Trace.AlongPast.of_invariant RemembersOwn
    (fun _ _ _ remembers _ => checksRightly_of_remembersOwn remembers)
    (fun _ _ _ remembers isAlone => remembersOwn_step isAlone remembers)
    checks initial alone

end Runs

/-- Thresholds that differ in the metric or the layer raise their alerts
alone. -/
theorem raisesAlone_of_distinct (system : AlertSystem) (checks : List Check)
    (distinct : ∀ entry ∈ system.thresholds, ∀ other ∈ system.thresholds,
      other.2.metric = entry.2.metric → other.2.layer = entry.2.layer →
        other.1 = entry.1) :
    Trace.Along AlertSystem.step RaisesAlone system checks := by
  induction checks generalizing system with
  | nil => trivial
  | cons check checks ih =>
      refine ⟨?_, ih _ ?_⟩
      · intro entry member _ _ other otherMember different metric layer _
        exact absurd (distinct entry member other otherMember metric layer)
          different
      · rw [AlertSystem.step, (AlertSystem.checked_spec system check).2]
        intro changed isChanged otherChanged isOtherChanged
        obtain ⟨entry, member, rfl⟩ := List.mem_map.mp isChanged
        obtain ⟨other, otherMember, rfl⟩ := List.mem_map.mp isOtherChanged
        obtain ⟨time, result, -⟩ :=
          foldl_triggeredBy ((system.raised check).map Prod.snd) entry
        obtain ⟨otherTime, otherResult, -⟩ :=
          foldl_triggeredBy ((system.raised check).map Prod.snd) other
        rw [result, otherResult]
        exact distinct entry member other otherMember

def cpuWarning : String × AlertThreshold :=
  ("cpu_usage",
    { metric := "cpu_usage"
      threshold := 80.0
      severity := .warning
      comparison := .greaterThan
      layer := none
      enabled := true
      cooldownDuration := Duration.fromSecs 300
      lastTriggered := none })

def cpuCritical : String × AlertThreshold :=
  ("cpu_usage_critical",
    { metric := "cpu_usage"
      threshold := 95.0
      severity := .critical
      comparison := .greaterThan
      layer := none
      enabled := true
      cooldownDuration := Duration.fromSecs 60
      lastTriggered := none })

def systemWith (thresholds : List (String × AlertThreshold)) :
    AlertSystem where
  thresholds := thresholds
  activeAlerts := ∅
  alertHistory := []
  routes := []
  suppressionRules := []
  maxHistorySize := 10000
  handled := []
  broadcast := []

/-- A check at a second that finds the processors that busy. -/
def cpuCheck (cpuUsagePercent : Float) (now : SystemTime) : Check where
  snapshot :=
    { layerMetrics := fun _ => none
      systemMetrics := ⟨cpuUsagePercent, 0, 0⟩
      networkMetrics := ⟨0, 0⟩
      errorRate := 0.0
      performanceMetrics := ⟨0.0, 0.0⟩ }
  moments := fun thresholdId => ⟨now, now, now, thresholdId⟩
  recordedAt := fun _ => now

def risingCpu : List Check :=
  [cpuCheck 85.0 SystemTime.unixEpoch,
    cpuCheck 99.0 (SystemTime.ofUnixSecs 10 (by decide))]

/-- The critical threshold without a cooldown. -/
def cpuCriticalAtOnce : String × AlertThreshold :=
  (cpuCritical.1, { cpuCritical.2 with cooldownDuration := Duration.zero })

def busyCpu : List Check :=
  [cpuCheck 85.0 SystemTime.unixEpoch,
    cpuCheck 90.0 (SystemTime.ofUnixSecs 10 (by decide))]

/-- The warning alone is raised, and ten seconds later it is left out for its own
cooldown. -/
theorem checks_unmasked_busyCpu :
    Trace.AlongPast AlertSystem.step ChecksRightly []
      (systemWith [cpuWarning, cpuCriticalAtOnce]) busyCpu := by
  have alone : ∀ {system : AlertSystem} {check : Check},
      (∀ entry ∈ system.thresholds, (system.alertOf check entry).isSome →
        ∀ other ∈ system.thresholds, other.1 ≠ entry.1 →
          other.2.metric = entry.2.metric → other.2.layer = entry.2.layer →
            other.2.enabled = true → other.2.cooldownDuration.asNanos = 0) →
      RaisesAlone system check := by
    intro system check apart entry member alert raised
    exact apart entry member (Option.isSome_of_eq_some raised)
  apply checks_unmasked (systemWith [cpuWarning, cpuCriticalAtOnce]) busyCpu
  · intro entry member
    rcases List.mem_pair.mp member with rfl | rfl <;> rfl
  · exact ⟨alone (by decide +kernel), alone (by decide +kernel), trivial⟩

/-- A warning silences the critical threshold ten seconds later. -/
theorem rising_cpu_masked :
    ¬ ∀ (thresholds : List (String × AlertThreshold)) (checks : List Check),
      (∀ entry ∈ thresholds, entry.2.lastTriggered = none) →
        Trace.AlongPast AlertSystem.step ChecksRightly []
          (systemWith thresholds) checks := by
  intro unmasked
  have rightly := (unmasked [cpuWarning, cpuCritical] risingCpu (by
    intro entry member
    rcases List.mem_pair.mp member with rfl | rfl <;> rfl)).2.1
  let warned := (systemWith [cpuWarning, cpuCritical]).step
    (cpuCheck 85.0 (SystemTime.ofUnixSecs 0 (by decide)))
  let check := cpuCheck 99.0 (SystemTime.ofUnixSecs 10 (by decide))
  have raisers : ∀ raised ∈ warned.1, raised.1 = "cpu_usage" := by
    decide +kernel
  obtain ⟨entry, member, critical, enabled, exceeded, notSuppressed, skipped⟩ :
      ∃ entry ∈ warned.2.thresholds,
        entry.1 = "cpu_usage_critical" ∧ entry.2.enabled = true ∧
          (check.snapshot.extractMetricValue entry.2.metric
            entry.2.layer).any entry.2.isExceeded = true ∧
          warned.2.suppresses entry.2.metric entry.2.layer
            (check.moments entry.1).suppressionAt = false ∧
          (warned.2.alertOf check entry).isNone = true := by
    decide +kernel
  obtain ⟨earlier, isEarlier, alert, isAlert, -⟩ :=
    rightly.skipped entry member
      ⟨enabled, (Option.any_eq_true _ _).mp exceeded, notSuppressed⟩
      (Option.isNone_iff_eq_none.mp skipped)
  rw [List.mem_singleton.mp isEarlier, critical] at isAlert
  have sameId : "cpu_usage_critical" = "cpu_usage" := raisers _ isAlert
  exact absurd sameId (by decide)

end NyxNet.Alerts
