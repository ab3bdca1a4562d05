import NyxNet.Daemon.ConfigManager
import NyxNet.Lib.TaskPool

/-!
# Concurrent updates of the configuration

Calls of `update_config` that run at the same time.  Every hold of one of the
manager's locks is one atomic step; the counter and the table of versions change
in one step, since the table is locked while the guard of the counter is held.
-/

namespace NyxNet.Config

open TaskPool

variable {NyxConfig : Type}

/-- `ConfigUpdate`, its map in the order of the iteration. -/
structure ConfigUpdate where
  settings : List (String × String)
  distinct : (settings.map Prod.fst).Nodup
  deriving DecidableEq

/-- What a version is made for. -/
inductive Purpose where
  | preUpdate
  | updated (updatedFields : List String)
  deriving DecidableEq

def Purpose.description : Purpose → String
  | .preUpdate => "Pre-update backup"
  | .updated updatedFields =>
      "Updated: " ++ String.intercalate ", " updatedFields

/-- The variables of `update_config`. -/
structure Locals where
  backupVersion : UInt64
  updatedFields : List String
  validationErrors : List String
  deriving DecidableEq

/-- How far a call has got. -/
inductive Stage (NyxConfig : Type) where
  | readConfig (purpose : Purpose)
  | readDynamicConfig (purpose : Purpose) (config : NyxConfig)
  | pushVersion (purpose : Purpose) (config : NyxConfig)
      (dynamicConfig : DynamicConfig)
  | applySetting (locals : Locals) (entry : String × String)
      (rest : List (String × String))
  | findVersion (locals : Locals)
  | writeConfig (locals : Locals) (version : ConfigVersion NyxConfig)
  | writeDynamicConfig (locals : Locals) (version : ConfigVersion NyxConfig)
  | writeCurrentVersion (locals : Locals) (version : ConfigVersion NyxConfig)
  | returned (response : ConfigResponse)
  | aborted
  deriving DecidableEq

/-- A call of `update_config`. -/
structure UpdateTask (NyxConfig : Type) where
  update : ConfigUpdate
  stage : Stage NyxConfig

inductive UpdateEvent where
  | moved
  | applied (key value : String)
  | returned (response : ConfigResponse)
  | aborted
  deriving DecidableEq

/-- What comes after the settings so far. -/
def Locals.onward (locals : Locals) :
    List (String × String) → Stage NyxConfig
  | entry :: rest => .applySetting locals entry rest
  | [] =>
      if locals.validationErrors = [] then
        .readConfig (.updated locals.updatedFields)
      else
        .findVersion locals

def Locals.rejection (locals : Locals) : ConfigResponse where
  success := false
  message := "Configuration validation failed"
  validationErrors := locals.validationErrors

def updateTurn (mode : OverflowMode) (manager : ConfigManager NyxConfig)
    (task : UpdateTask NyxConfig) (_ : Unit) :
    Option (Turn (ConfigManager NyxConfig) (UpdateTask NyxConfig)
      UpdateEvent) :=
  match task.stage with
  | .readConfig purpose =>
      next .moved manager
        { task with stage := .readDynamicConfig purpose manager.config }
  | .readDynamicConfig purpose config =>
      next .moved manager
        { task with stage := .pushVersion purpose config manager.dynamicConfig }
  | .pushVersion purpose config dynamicConfig =>
      match mode.add manager.currentVersion 1 with
      | none => next .aborted manager { task with stage := .aborted }
      | some versionNumber =>
          let saved := manager.withVersion
            ⟨versionNumber, config, dynamicConfig, purpose.description⟩
          match purpose with
          | .preUpdate =>
              next .moved saved { task with
                stage := Locals.onward ⟨versionNumber, [], []⟩
                  task.update.settings }
          | .updated updatedFields =>
              let response : ConfigResponse :=
                { success := true
                  message := s!"Updated {updatedFields.length} settings"
                  validationErrors := [] }
              next (.returned response) saved
                { task with stage := .returned response }
  | .applySetting locals entry rest =>
      match manager.validateAndApplySetting entry.1 entry.2 with
      | .ok changed =>
          let locals := { locals with
            updatedFields := locals.updatedFields ++ [entry.1] }
          next (.applied entry.1 entry.2) changed
            { task with stage := locals.onward rest }
      | .error error =>
          let locals := { locals with
            validationErrors :=
              locals.validationErrors ++ [s!"{entry.1}: {error}"] }
          next .moved manager { task with stage := locals.onward rest }
  | .findVersion locals =>
      match manager.findVersion locals.backupVersion with
      | some version =>
          next .moved manager { task with stage := .writeConfig locals version }
      | none =>
          next (.returned locals.rejection) manager
            { task with stage := .returned locals.rejection }
  | .writeConfig locals version =>
      next .moved { manager with config := version.config }
        { task with stage := .writeDynamicConfig locals version }
  | .writeDynamicConfig locals version =>
      next .moved { manager with dynamicConfig := version.dynamicConfig }
        { task with stage := .writeCurrentVersion locals version }
  | .writeCurrentVersion locals version =>
      next (.returned locals.rejection)
        { manager with currentVersion := version.version }
        { task with stage := .returned locals.rejection }
  | .returned _ => none
  | .aborted => none

def updateProgram (mode : OverflowMode) :
    Program (ConfigManager NyxConfig) (UpdateTask NyxConfig) ConfigUpdate Unit
      UpdateEvent where
  launch update := ⟨update, .readConfig .preUpdate⟩
  turn := updateTurn mode

/-- Everything a step of a call can do. -/
inductive UpdateMoves (mode : OverflowMode)
    (manager : ConfigManager NyxConfig) (settings : List (String × String)) :
    Stage NyxConfig → UpdateEvent → ConfigManager NyxConfig →
      Stage NyxConfig → Prop where
  | readConfig (purpose : Purpose) :
      UpdateMoves mode manager settings (.readConfig purpose) .moved manager
        (.readDynamicConfig purpose manager.config)
  | readDynamicConfig (purpose : Purpose) (config : NyxConfig) :
      UpdateMoves mode manager settings (.readDynamicConfig purpose config)
        .moved manager (.pushVersion purpose config manager.dynamicConfig)
  | aborted (purpose : Purpose) (config : NyxConfig)
      (dynamicConfig : DynamicConfig)
      (overflow : mode.add manager.currentVersion 1 = none) :
      UpdateMoves mode manager settings
        (.pushVersion purpose config dynamicConfig) .aborted manager .aborted
  | backedUp (config : NyxConfig) (dynamicConfig : DynamicConfig)
      (version : ConfigVersion NyxConfig) :
      UpdateMoves mode manager settings
        (.pushVersion .preUpdate config dynamicConfig) .moved
        (manager.withVersion version)
        (Locals.onward ⟨version.version, [], []⟩ settings)
  | succeeded (updatedFields : List String) (config : NyxConfig)
      (dynamicConfig : DynamicConfig) (version : ConfigVersion NyxConfig)
      (response : ConfigResponse) (success : response.success = true) :
      UpdateMoves mode manager settings
        (.pushVersion (.updated updatedFields) config dynamicConfig)
        (.returned response) (manager.withVersion version) (.returned response)
  | applied (locals changed : Locals) (key value : String)
      (rest : List (String × String)) (setting : Setting)
      (after : ConfigManager NyxConfig)
      (checked : validateSetting key value = .ok setting)
      (dynamicConfig :
        after.dynamicConfig = setting.apply manager.dynamicConfig)
      (errors : changed.validationErrors = locals.validationErrors) :
      UpdateMoves mode manager settings (.applySetting locals (key, value) rest)
        (.applied key value) after (changed.onward rest)
  | refused (locals changed : Locals) (key value error : String)
      (rest : List (String × String))
      (checked : validateSetting key value = .error error)
      (errors : changed.validationErrors ≠ []) :
      UpdateMoves mode manager settings (.applySetting locals (key, value) rest)
        .moved manager (changed.onward rest)
  | found (locals : Locals) (version : ConfigVersion NyxConfig)
      (held : manager.findVersion locals.backupVersion = some version) :
      UpdateMoves mode manager settings (.findVersion locals) .moved manager
        (.writeConfig locals version)
  | missed (locals : Locals)
      (gone : manager.findVersion locals.backupVersion = none) :
      UpdateMoves mode manager settings (.findVersion locals)
        (.returned locals.rejection) manager (.returned locals.rejection)
  | wroteConfig (locals : Locals) (version : ConfigVersion NyxConfig)
      (after : ConfigManager NyxConfig)
      (dynamicConfig : after.dynamicConfig = manager.dynamicConfig) :
      UpdateMoves mode manager settings (.writeConfig locals version) .moved
        after (.writeDynamicConfig locals version)
  | wroteDynamicConfig (locals : Locals) (version : ConfigVersion NyxConfig)
      (after : ConfigManager NyxConfig)
      (dynamicConfig : after.dynamicConfig = version.dynamicConfig) :
      UpdateMoves mode manager settings (.writeDynamicConfig locals version)
        .moved after (.writeCurrentVersion locals version)
  | wroteCurrentVersion (locals : Locals) (version : ConfigVersion NyxConfig)
      (after : ConfigManager NyxConfig)
      (dynamicConfig : after.dynamicConfig = manager.dynamicConfig) :
      UpdateMoves mode manager settings (.writeCurrentVersion locals version)
        (.returned locals.rejection) after (.returned locals.rejection)

/-- The rest of a task, which is for the same update and alone. -/
structure Continues (mode : OverflowMode) (manager : ConfigManager NyxConfig)
    (task : UpdateTask NyxConfig)
    (turn : Turn (ConfigManager NyxConfig) (UpdateTask NyxConfig)
      UpdateEvent) : Prop where
  moves : UpdateMoves mode manager task.update.settings task.stage turn.event
    turn.shared turn.task.stage
  update : turn.task.update = task.update
  alone : turn.spawned = []

theorem continues_of_next {mode : OverflowMode}
    {before after : ConfigManager NyxConfig} {update : ConfigUpdate}
    {stage rest : Stage NyxConfig} {event : UpdateEvent}
    {turn : Turn (ConfigManager NyxConfig) (UpdateTask NyxConfig) UpdateEvent}
    (taken : next event after ⟨update, rest⟩ = some turn)
    (moves : UpdateMoves mode before update.settings stage event after rest) :
    Continues mode before ⟨update, stage⟩ turn := by
  rw [eq_of_next taken]
  exact ⟨moves, rfl, rfl⟩

theorem updateTurn_continues {mode : OverflowMode}
    {manager : ConfigManager NyxConfig} {task : UpdateTask NyxConfig}
    {input : Unit}
    {turn : Turn (ConfigManager NyxConfig) (UpdateTask NyxConfig) UpdateEvent}
    (taken : updateTurn mode manager task input = some turn) :
    Continues mode manager task turn := by
  obtain ⟨update, stage⟩ := task
  cases stage with
  | readConfig purpose =>
      exact continues_of_next taken (.readConfig purpose)
  | readDynamicConfig purpose config =>
      exact continues_of_next taken (.readDynamicConfig purpose config)
  | pushVersion purpose config dynamicConfig =>
      simp only [updateTurn] at taken
      split at taken
      · next overflow =>
          exact continues_of_next taken (.aborted _ _ _ overflow)
      · next number counted =>
          cases purpose with
          | preUpdate =>
              exact continues_of_next taken (.backedUp config dynamicConfig
                ⟨number, config, dynamicConfig, _⟩)
          | updated updatedFields =>
              exact continues_of_next taken
                (.succeeded updatedFields config dynamicConfig _ _ rfl)
  | applySetting locals entry rest =>
      obtain ⟨key, value⟩ := entry
      simp only [updateTurn, ConfigManager.validateAndApplySetting] at taken
      cases checked : validateSetting key value with
      | error error =>
          rw [checked] at taken
          refine continues_of_next taken
            (.refused locals _ key value error rest checked ?_)
          simp
      | ok setting =>
          rw [checked] at taken
          exact continues_of_next taken
            (.applied locals _ key value rest setting _ checked rfl rfl)
  | findVersion locals =>
      simp only [updateTurn] at taken
      split at taken
      · next version held =>
          exact continues_of_next taken (.found locals version held)
      · next gone =>
          exact continues_of_next taken (.missed locals gone)
  | writeConfig locals version =>
      exact continues_of_next taken (.wroteConfig locals version _ rfl)
  | writeDynamicConfig locals version =>
      exact continues_of_next taken (.wroteDynamicConfig locals version _ rfl)
  | writeCurrentVersion locals version =>
      exact continues_of_next taken (.wroteCurrentVersion locals version _ rfl)
  | returned response => cases taken
  | aborted => cases taken

end NyxNet.Config
