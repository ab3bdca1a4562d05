import NyxNet.Lib.LockQueue
import NyxNet.Daemon.LayerManager

/-!
# The locks of the layer manager

The background loops of `nyx-daemon/src/layer_manager.rs` take the lock of the
health table under those of the layers, and the health check takes those of the
layers under the lock of the table.
-/

namespace NyxNet.Layers

open LockQueue

/-- The locks of a layer manager. -/
inductive Lock where
  | layerHealth
  | cryptoLayer
  | activeSessions
  | streamLayer
  | fecEncoder
  | fecDecoder
  | config
  deriving DecidableEq, Repr

abbrev LockCode : Type := List (LockStep Lock)

/-- The code under a guard, which is dropped at its end. -/
def withGuard (lock : Lock) (access : Access) (code : LockCode) : LockCode :=
  .acquire ⟨lock, access⟩ :: code ++ [.release ⟨lock, access⟩]

namespace LockCode

def updateLayerStatus : LockCode := withGuard .layerHealth .write []

def updateLayerMetrics : LockCode := withGuard .layerHealth .write []

def checkCryptoHealth : LockCode :=
  withGuard .cryptoLayer .read (withGuard .activeSessions .read [])

def checkStreamHealth : LockCode := withGuard .streamLayer .read []

def checkFecHealth : LockCode :=
  withGuard .fecEncoder .read (withGuard .fecDecoder .read [])

/-- The checks of the mix and the transport layer take no lock. -/
def checkAllLayersHealth : LockCode :=
  withGuard .layerHealth .write
    (checkCryptoHealth ++ checkStreamHealth ++ checkFecHealth)

/-- No layer needs recovery. -/
def checkLayerRecoveryNeeds : LockCode := withGuard .layerHealth .read []

def processDataPipeline : LockCode :=
  updateLayerMetrics ++
    withGuard .fecEncoder .read updateLayerMetrics ++
    withGuard .cryptoLayer .read updateLayerMetrics ++
    withGuard .streamLayer .read updateLayerMetrics ++
    updateLayerMetrics

def coordinateCryptoStream : LockCode :=
  withGuard .cryptoLayer .read (withGuard .streamLayer .read [])

def coordinateStreamMix : LockCode := withGuard .streamLayer .read []

def coordinateFecTransport : LockCode :=
  withGuard .fecEncoder .read (withGuard .fecDecoder .read [])

def optimizeCrossLayerPerformance : LockCode :=
  withGuard .layerHealth .read []

/-- `get_system_load` and `assess_network_conditions`. -/
def synchronizeLayerStates : LockCode :=
  withGuard .layerHealth .read [] ++ withGuard .layerHealth .read []

def coordinateLayerInteractions : LockCode :=
  coordinateCryptoStream ++ coordinateStreamMix ++ coordinateFecTransport ++
    optimizeCrossLayerPerformance ++ synchronizeLayerStates

def optimizeLayerPerformance : LockCode := withGuard .layerHealth .read []

def coordinateFullStack : LockCode :=
  processDataPipeline ++ coordinateLayerInteractions ++
    optimizeLayerPerformance

def synchronizeLayerConfigs : LockCode := withGuard .config .read []

def coordinateLayers : LockCode :=
  coordinateFullStack ++ synchronizeLayerConfigs

/-- A turn of `health_monitoring_loop`. -/
def healthTurn : LockCode := checkAllLayersHealth ++ checkLayerRecoveryNeeds

/-- A loop of so many turns. -/
def loop (turns : Nat) (turn : LockCode) : LockCode :=
  (List.replicate turns turn).flatten

/-- The health, the integration and the coordination loop. -/
def backgroundTasks (checks integrations coordinations : Nat) :
    List LockCode :=
  [loop checks healthTurn, loop integrations coordinateLayers,
    loop coordinations coordinateFullStack]

def startCryptoLayer : LockCode :=
  withGuard .cryptoLayer .write updateLayerStatus

def startStreamLayer : LockCode :=
  withGuard .streamLayer .write updateLayerStatus

/-- The error count is reset. -/
def resetErrors : LockCode := withGuard .layerHealth .write []

def restartLayer (name : String) : LockCode :=
  updateLayerStatus ++
    match name with
    | "transport" => updateLayerStatus ++ resetErrors
    | "crypto" => startCryptoLayer ++ resetErrors
    | "fec" => updateLayerStatus ++ resetErrors
    | "stream" => startStreamLayer ++ resetErrors
    | "mix" => updateLayerStatus ++ resetErrors
    | _ => []

variable {checks integrations coordinations : Nat}

theorem disciplined_backgroundTasks :
    ∀ code ∈ backgroundTasks checks integrations coordinations,
      Disciplined Lock.layerHealth none code = true := by
  unfold backgroundTasks
  intro code member
  simp only [List.mem_cons, List.not_mem_nil, or_false] at member
  rcases member with rfl | rfl | rfl <;>
    exact disciplined_replicate _ (by decide) _

/-- A restart that holds no lock of a layer while it updates the table. -/
theorem disciplined_restartLayer {name : String} (notCrypto : name ≠ "crypto")
    (notStream : name ≠ "stream") :
    Disciplined Lock.layerHealth none (restartLayer name) = true := by
  unfold restartLayer
  split
  · decide
  · exact absurd rfl notCrypto
  · decide
  · exact absurd rfl notStream
  · decide
  · decide

/-- Code that begins with a change of the table, if it does anything. -/
def OpensTable (code : LockCode) : Prop :=
  ∀ statement rest, code = statement :: rest →
    statement = .acquire ⟨.layerHealth, .write⟩

theorem opensTable_loop {turn rest : LockCode}
    (opens : turn = .acquire ⟨.layerHealth, .write⟩ :: rest) (turns : Nat) :
    OpensTable (loop turns turn) := by
  intro statement after begins
  cases turns with
  | zero => cases begins
  | succ turns =>
      rw [opens, loop, List.replicate_succ] at begins
      cases begins
      rfl

theorem opensTable_tasks (names : List String) :
    ∀ code ∈ backgroundTasks checks integrations coordinations ++
      names.map restartLayer, OpensTable code := by
  intro code member
  rcases List.mem_append.mp member with background | restart
  · unfold backgroundTasks at background
    simp only [List.mem_cons, List.not_mem_nil, or_false] at background
    rcases background with rfl | rfl | rfl
    · exact opensTable_loop rfl _
    · exact opensTable_loop rfl _
    · exact opensTable_loop rfl _
  · obtain ⟨name, _, rfl⟩ := List.mem_map.mp restart
    intro statement rest begins
    cases begins
    rfl

/-- A health check comes to ask for the lock of a layer under that of the table,
and the restart for that of the table under that of the layer. -/
theorem exists_stuck_of_restart {names : List String} {name : String}
    (member : name ∈ names) {layer : Lock}
    {checkEarly checkLate early late : LockCode}
    (check : healthTurn = checkEarly ++ .acquire ⟨layer, .read⟩ :: checkLate)
    (restart : restartLayer name =
      early ++ .acquire ⟨.layerHealth, .write⟩ :: late)
    (passes : Passes [] [] early = true)
    (checkPasses : Passes (holds [] early) [] checkEarly = true)
    (holdsLayer : holds [] early = [⟨layer, .write⟩])
    (checkHolds : holds [] checkEarly = [⟨.layerHealth, .write⟩]) :
    ∃ schedule, (run (start
      (backgroundTasks (checks + 1) integrations coordinations ++
        names.map restartLayer)) schedule).Stuck := by
  obtain ⟨position, there⟩ := List.getElem?_of_mem member
  have restartCode :
      (backgroundTasks (checks + 1) integrations coordinations ++
        names.map restartLayer)[3 + position]? =
          some (early ++ .acquire ⟨.layerHealth, .write⟩ :: late) := by
    rw [List.getElem?_append_right (Nat.le_add_right 3 position),
      List.getElem?_map]
    simp [backgroundTasks, there, restart]
  have checkCode :
      (backgroundTasks (checks + 1) integrations coordinations ++
        names.map restartLayer)[0]? =
          some (checkEarly ++ .acquire ⟨layer, .read⟩ ::
            (checkLate ++ loop checks healthTurn)) := by
    rw [backgroundTasks, loop, List.replicate_succ, List.flatten_cons, check]
    simp [loop]
  have tableTaken : ¬ GuardedTask.Free (holds [] checkEarly)
      ⟨Lock.layerHealth, .write⟩ := by
    rw [checkHolds]
    exact fun free => free _ (List.mem_singleton_self _) ⟨rfl, .inl rfl⟩
  have layerTaken : ¬ GuardedTask.Free (holds [] early) ⟨layer, .read⟩ := by
    rw [holdsLayer]
    exact fun free => free _ (List.mem_singleton_self _) ⟨rfl, .inl rfl⟩
  apply exists_stuck_of_crossed (by omega) restartCode checkCode passes
    checkPasses tableTaken layerTaken
  intro code among statement rest begins
  refine ⟨_, opensTable_tasks names code among statement rest begins, ?_⟩
  exact fun free => tableTaken fun own held =>
    free own (List.mem_append_right _ held)

/-- The loops never wait for each other without end, beside any restarts of the
other layers.  Beside a restart of the crypto or the stream layer, which holds the
lock of the layer while it updates the table, they can. -/
theorem restarts_deadlock_iff (names : List String)
    (checks integrations coordinations : Nat) :
    (∃ schedule, (run (start
      (backgroundTasks (checks + 1) integrations coordinations ++
        names.map restartLayer)) schedule).Stuck) ↔
      "crypto" ∈ names ∨ "stream" ∈ names := by
  constructor
  · rintro ⟨schedule, stuck⟩
    by_contra neither
    rw [not_or] at neither
    have disciplined :
        ∀ code ∈ backgroundTasks (checks + 1) integrations coordinations ++
          names.map restartLayer,
            Disciplined Lock.layerHealth none code = true := by
      intro code member
      rcases List.mem_append.mp member with background | restart
      · exact disciplined_backgroundTasks code background
      · obtain ⟨name, among, rfl⟩ := List.mem_map.mp restart
        exact disciplined_restartLayer
          (fun same => neither.1 (same ▸ among))
          (fun same => neither.2 (same ▸ among))
    exact ((sound_start _ disciplined).run schedule).not_stuck stuck
  · rintro (crypto | stream)
    · have check : healthTurn = [.acquire ⟨.layerHealth, .write⟩] ++
          .acquire ⟨.cryptoLayer, .read⟩ :: healthTurn.drop 2 := rfl
      have restart : restartLayer "crypto" =
          (updateLayerStatus ++ [.acquire ⟨.cryptoLayer, .write⟩]) ++
            .acquire ⟨.layerHealth, .write⟩ ::
              (restartLayer "crypto").drop 4 := rfl
      exact exists_stuck_of_restart crypto check restart (by decide)
        (by decide) rfl rfl
    · have check : healthTurn =
          (.acquire ⟨.layerHealth, .write⟩ :: checkCryptoHealth) ++
            .acquire ⟨.streamLayer, .read⟩ :: healthTurn.drop 6 := rfl
      have restart : restartLayer "stream" =
          (updateLayerStatus ++ [.acquire ⟨.streamLayer, .write⟩]) ++
            .acquire ⟨.layerHealth, .write⟩ ::
              (restartLayer "stream").drop 4 := rfl
      exact exists_stuck_of_restart stream check restart (by decide)
        (by decide) rfl rfl

end LockCode

end NyxNet.Layers
