import NyxNet.Lib.GuardedTask
import NyxNet.Lib.OrderedMap
import NyxNet.Lib.Time

/-!
# The health monitor

`run_all_checks` of `nyx-daemon/src/health_monitor.rs`.  The guard for writing
the checks lives to the end of the function, which asks for the same lock again
when it updates the overall status.
-/

namespace NyxNet.Health

open GuardedTask

inductive HealthStatus where
  | healthy
  | degraded
  | unhealthy
  deriving DecidableEq, Repr

/-- How bad a status is. -/
def HealthStatus.rank : HealthStatus → Nat
  | .healthy => 0
  | .degraded => 1
  | .unhealthy => 2

structure HealthCheck where
  name : String
  status : HealthStatus
  message : String
  responseTimeMs : Float
  lastChecked : SystemTime
  checkCount : UInt64
  failureCount : UInt64

def HealthCheck.new (name : String) (now : SystemTime) : HealthCheck where
  name := name
  status := .healthy
  message := "Not yet checked"
  responseTimeMs := 0.0
  lastChecked := now
  checkCount := 0
  failureCount := 0

abbrev Checks : Type := Std.ExtTreeMap String HealthCheck compare

/-- A check gives a message or an error. -/
abbrev HealthCheckFn : Type := Unit → Except String String

structure HealthMonitor where
  checks : Checks
  checkFunctions : Std.ExtTreeMap String HealthCheckFn compare
  overallStatus : HealthStatus

/-- The locks of a monitor. -/
inductive Lock where
  | checks
  | checkFunctions
  | overallStatus
  deriving DecidableEq, Repr

/-- The time of a check and how long it took. -/
structure Measurement where
  lastChecked : SystemTime
  responseTimeMs : Float

abbrev HealthTask : Type := GuardedTask Lock HealthMonitor Unit

/-- The checks that `HealthMonitor::new` registers. -/
def defaultChecks : List (String × HealthCheckFn) :=
  [("system_memory", fun _ => .ok "Memory check: OK (simplified)"),
    ("system_cpu", fun _ => .ok "CPU check: OK (simplified)"),
    ("disk_space", fun _ => .ok "Disk space check not implemented"),
    ("network_connectivity", fun _ => .ok "Network connectivity healthy"),
    ("file_descriptors", fun _ => .ok "File descriptors healthy"),
    ("storage", fun _ => .ok "Storage systems healthy"),
    ("service_dependencies", fun _ => .ok "Service dependencies healthy")]

/-- The task that `register_check` spawns, seen from its end. -/
def HealthMonitor.registerCheck (monitor : HealthMonitor) (name : String)
    (checkFn : HealthCheckFn) (now : SystemTime) : HealthMonitor :=
  { monitor with
    checkFunctions := monitor.checkFunctions.insert name checkFn
    checks := monitor.checks.insert name (.new name now) }

/-- A new monitor whose default checks are registered. -/
def HealthMonitor.new (now : SystemTime) : HealthMonitor :=
  defaultChecks.foldl
    (fun monitor check => monitor.registerCheck check.1 check.2 now)
    ⟨∅, ∅, .healthy⟩

/-- What a check that was run leaves in its record. -/
def HealthCheck.record (check : HealthCheck) (result : Except String String)
    (measurement : Measurement) : HealthCheck :=
  match result with
  | .ok message =>
      { check with
        checkCount := check.checkCount + 1
        lastChecked := measurement.lastChecked
        status := .healthy
        message := message
        responseTimeMs := measurement.responseTimeMs }
  | .error error =>
      { check with
        checkCount := check.checkCount + 1
        lastChecked := measurement.lastChecked
        status := .unhealthy
        message := error
        failureCount := check.failureCount + 1
        responseTimeMs := measurement.responseTimeMs }

/-- The loop of `run_all_checks`. -/
def runChecks (measure : String → Measurement)
    (rest : HealthTask) : List (String × HealthCheckFn) → HealthTask
  | [] => rest
  | (name, checkFn) :: functions =>
      .update
        (fun monitor =>
          { monitor with
            checks := monitor.checks.modify name
              (fun check => check.record (checkFn ()) (measure name)) })
        (runChecks measure rest functions)

/-- How many checks have that status. -/
def statusCount (checks : Checks) (status : HealthStatus) : Nat :=
  checks.toList.countP (fun entry => entry.2.status = status)

/-- The status that `update_overall_status` finds. -/
def newStatus (checks : Checks) : HealthStatus :=
  if 0 < statusCount checks .unhealthy then .unhealthy
  else if 0 < statusCount checks .degraded then .degraded
  else .healthy

def updateOverallStatus (rest : HealthTask) : HealthTask :=
  .acquire ⟨.checks, .read⟩ <|
  .acquire ⟨.overallStatus, .write⟩ <|
  .update
    (fun monitor =>
      if monitor.overallStatus = newStatus monitor.checks then monitor
      else { monitor with overallStatus := newStatus monitor.checks }) <|
  .release ⟨.overallStatus, .write⟩ <|
  .release ⟨.checks, .read⟩ rest

def runAllChecks (measure : String → Measurement) : HealthTask :=
  .acquire ⟨.checkFunctions, .read⟩ <|
  .acquire ⟨.checks, .write⟩ <|
  .look fun monitor =>
    runChecks measure
      (updateOverallStatus <|
        .release ⟨.checks, .write⟩ <|
        .release ⟨.checkFunctions, .read⟩ (.ended ()))
      monitor.checkFunctions.toList

/-- The task with nothing held. -/
def HealthMonitor.running (monitor : HealthMonitor) (task : HealthTask) :
    Running Lock HealthMonitor Unit :=
  ⟨monitor, [], task⟩

/-- No check is worse, and some check is as bad unless all is well. -/
structure IsWorst (status : HealthStatus) (checks : Checks) : Prop where
  bound : ∀ (name : String) (check : HealthCheck),
    checks[name]? = some check → check.status.rank ≤ status.rank
  attained : status = .healthy ∨ ∃ (name : String) (check : HealthCheck),
    checks[name]? = some check ∧ check.status = status

theorem statusCount_pos_iff {checks : Checks} {status : HealthStatus} :
    0 < statusCount checks status ↔
      ∃ (name : String) (check : HealthCheck),
        checks[name]? = some check ∧ check.status = status := by
  unfold statusCount
  rw [List.countP_pos_iff]
  constructor
  · intro counted
    obtain ⟨⟨name, check⟩, stored, same⟩ := counted
    exact ⟨name, check,
      Std.ExtTreeMap.mem_toList_iff_getElem?_eq_some.mp stored,
      of_decide_eq_true same⟩
  · intro found
    obtain ⟨name, check, stored, same⟩ := found
    exact ⟨(name, check),
      Std.ExtTreeMap.mem_toList_iff_getElem?_eq_some.mpr stored,
      decide_eq_true same⟩

theorem status_ne_of_not_counted {checks : Checks} {status : HealthStatus}
    {name : String} {check : HealthCheck}
    (notCounted : ¬ 0 < statusCount checks status)
    (stored : checks[name]? = some check) : check.status ≠ status := by
  intro same
  exact notCounted (statusCount_pos_iff.mpr ⟨name, check, stored, same⟩)

theorem newStatus_isWorst (checks : Checks) :
    IsWorst (newStatus checks) checks := by
  unfold newStatus
  by_cases unhealthy : 0 < statusCount checks .unhealthy
  · rw [if_pos unhealthy]
    refine ⟨?_, Or.inr (statusCount_pos_iff.mp unhealthy)⟩
    intro name check _
    cases check.status <;> decide
  · rw [if_neg unhealthy]
    by_cases degraded : 0 < statusCount checks .degraded
    · rw [if_pos degraded]
      refine ⟨?_, Or.inr (statusCount_pos_iff.mp degraded)⟩
      intro name check stored
      have notUnhealthy := status_ne_of_not_counted unhealthy stored
      revert notUnhealthy
      cases check.status <;> decide
    · rw [if_neg degraded]
      refine ⟨?_, Or.inl rfl⟩
      intro name check stored
      have notUnhealthy := status_ne_of_not_counted unhealthy stored
      have notDegraded := status_ne_of_not_counted degraded stored
      revert notUnhealthy notDegraded
      cases check.status <;> decide

/-- The update alone does what it should. -/
theorem updateOverallStatus_ends (monitor : HealthMonitor) :
    EndsWith (fun after _ => IsWorst after.overallStatus after.checks)
      (monitor.running (updateOverallStatus (.ended ()))) := by
  unfold HealthMonitor.running updateOverallStatus
  rw [endsWith_acquire (by decide), endsWith_acquire (by decide),
    endsWith_update, endsWith_release, endsWith_release, endsWith_ended]
  split
  · next same =>
      rw [same]
      exact newStatus_isWorst monitor.checks
  · exact newStatus_isWorst monitor.checks

theorem endsWith_runChecks {post : HealthMonitor → Unit → Prop}
    {measure : String → Measurement} {rest : HealthTask}
    {held : List (Guard Lock)} (functions : List (String × HealthCheckFn))
    (monitor : HealthMonitor)
    (ends : EndsWith post
      ⟨monitor, held, runChecks measure rest functions⟩) :
    ∃ after, EndsWith post ⟨after, held, rest⟩ := by
  induction functions generalizing monitor with
  | nil => exact ⟨monitor, ends⟩
  | cons entry functions ih =>
      unfold runChecks at ends
      rw [endsWith_update] at ends
      exact ih _ ends

/-- The checks are locked for writing when the update asks to read them. -/
theorem not_endsWith_runAllChecks (post : HealthMonitor → Unit → Prop)
    (monitor : HealthMonitor) (measure : String → Measurement) :
    ¬ EndsWith post (monitor.running (runAllChecks measure)) := by
  unfold HealthMonitor.running runAllChecks
  rw [endsWith_acquire (by decide), endsWith_acquire (by decide),
    endsWith_look]
  intro ends
  obtain ⟨after, endsAfter⟩ := endsWith_runChecks _ _ ends
  unfold updateOverallStatus at endsAfter
  revert endsAfter
  apply not_endsWith_acquire
  decide

end NyxNet.Health
