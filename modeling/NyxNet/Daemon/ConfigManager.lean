import NyxNet.Lib.BoundedLog
import NyxNet.Lib.Str
import NyxNet.Lib.Word

/-!
# The configuration manager

`ConfigManager` of `nyx-daemon/src/config_manager.rs`.  An update makes a backup,
applies its settings one by one, and makes a second version when all of them
were valid; otherwise it rolls back to the backup.  A rollback sets the version
counter back and leaves the later versions where they are.
-/

namespace NyxNet.Config

/-- Dynamic configuration that can be updated at runtime. -/
structure DynamicConfig where
  logLevel : Option String
  maxStreams : Option UInt32
  connectionTimeoutMs : Option UInt32
  enableMultipath : Option Bool
  coverTrafficRate : Option Float
  pathSelectionStrategy : Option String
  enableMetrics : Option Bool
  metricsIntervalSecs : Option UInt64
  cryptoKeyRotationInterval : Option UInt64
  fecRedundancyLevel : Option Float
  streamBufferSize : Option UInt32
  mixBatchSize : Option UInt32
  transportPacketSize : Option UInt32
  deriving DecidableEq

def DynamicConfig.initial : DynamicConfig where
  logLevel := none
  maxStreams := none
  connectionTimeoutMs := none
  enableMultipath := none
  coverTrafficRate := none
  pathSelectionStrategy := none
  enableMetrics := none
  metricsIntervalSecs := none
  cryptoKeyRotationInterval := none
  fecRedundancyLevel := none
  streamBufferSize := none
  mixBatchSize := none
  transportPacketSize := none

/-- A setting that passed its check. -/
inductive Setting where
  | logLevel (level : String)
  | maxStreams (count : UInt32)
  | connectionTimeoutMs (timeout : UInt32)
  | enableMultipath (enable : Bool)
  | coverTrafficRate (rate : Float)
  | pathSelectionStrategy (strategy : String)
  | enableMetrics (enable : Bool)
  | metricsIntervalSecs (interval : UInt64)
  | cryptoKeyRotationInterval (interval : UInt64)
  | fecRedundancyLevel (level : Float)
  | streamBufferSize (size : UInt32)
  | mixBatchSize (size : UInt32)
  | transportPacketSize (size : UInt32)
  deriving DecidableEq

namespace Setting

def key : Setting → String
  | .logLevel _ => "log_level"
  | .maxStreams _ => "max_streams"
  | .connectionTimeoutMs _ => "connection_timeout_ms"
  | .enableMultipath _ => "enable_multipath"
  | .coverTrafficRate _ => "cover_traffic_rate"
  | .pathSelectionStrategy _ => "path_selection_strategy"
  | .enableMetrics _ => "enable_metrics"
  | .metricsIntervalSecs _ => "metrics_interval_secs"
  | .cryptoKeyRotationInterval _ => "crypto_key_rotation_interval"
  | .fecRedundancyLevel _ => "fec_redundancy_level"
  | .streamBufferSize _ => "stream_buffer_size"
  | .mixBatchSize _ => "mix_batch_size"
  | .transportPacketSize _ => "transport_packet_size"

def apply (config : DynamicConfig) : Setting → DynamicConfig
  | .logLevel level => { config with logLevel := some level }
  | .maxStreams count => { config with maxStreams := some count }
  | .connectionTimeoutMs timeout =>
      { config with connectionTimeoutMs := some timeout }
  | .enableMultipath enable => { config with enableMultipath := some enable }
  | .coverTrafficRate rate => { config with coverTrafficRate := some rate }
  | .pathSelectionStrategy strategy =>
      { config with pathSelectionStrategy := some strategy }
  | .enableMetrics enable => { config with enableMetrics := some enable }
  | .metricsIntervalSecs interval =>
      { config with metricsIntervalSecs := some interval }
  | .cryptoKeyRotationInterval interval =>
      { config with cryptoKeyRotationInterval := some interval }
  | .fecRedundancyLevel level =>
      { config with fecRedundancyLevel := some level }
  | .streamBufferSize size => { config with streamBufferSize := some size }
  | .mixBatchSize size => { config with mixBatchSize := some size }
  | .transportPacketSize size =>
      { config with transportPacketSize := some size }

/-- What the setting makes of the variable `RUST_LOG`. -/
def rustLog (environment : Option String) : Setting → Option String
  | .logLevel level => some level
  | _ => environment

end Setting

/-- One of a few texts. -/
def oneOf (allowed : List String) (message value : String)
    (setting : String → Setting) : Except String Setting :=
  if value ∈ allowed then .ok (setting value) else .error message

/-- An integer of a type with a bound, within a range. -/
def bounded (bound low high : Nat) (message value : String)
    (setting : Nat → Setting) : Except String Setting :=
  match Str.parseUnsigned bound value.toList with
  | .error kind => .error kind.display
  | .ok number =>
      if low ≤ number ∧ number ≤ high then .ok (setting number)
      else .error message

def boolean (value : String) (setting : Bool → Setting) :
    Except String Setting :=
  match Str.parseBool value with
  | .error message => .error message
  | .ok enable => .ok (setting enable)

/-- A float within a range. -/
def ranged (low high : Float) (message value : String)
    (setting : Float → Setting) : Except String Setting :=
  match Str.parseFloat value.toList with
  | .error error => .error error
  | .ok number =>
      if low ≤ number ∧ number ≤ high then .ok (setting number)
      else .error message

def u32Bound : Nat := 4294967296

def u64Bound : Nat := 18446744073709551616

/-- The checks of `validate_and_apply_setting`. -/
def validateSetting (key value : String) : Except String Setting :=
  match key with
  | "log_level" =>
      oneOf ["trace", "debug", "info", "warn", "error"]
        ("Invalid log level: " ++ value) value .logLevel
  | "max_streams" =>
      bounded u32Bound 1 100000 "max_streams must be between 1 and 100000"
        value fun count => .maxStreams (.ofNat count)
  | "connection_timeout_ms" =>
      bounded u32Bound 1000 300000
        "connection_timeout_ms must be between 1000 and 300000" value
        fun timeout => .connectionTimeoutMs (.ofNat timeout)
  | "enable_multipath" => boolean value .enableMultipath
  | "cover_traffic_rate" =>
      ranged 0 1000 "cover_traffic_rate must be between 0.0 and 1000.0" value
        .coverTrafficRate
  | "path_selection_strategy" =>
      oneOf ["latency_weighted", "random", "lowest_latency", "load_balance"]
        ("Invalid path selection strategy: " ++ value) value
        .pathSelectionStrategy
  | "enable_metrics" => boolean value .enableMetrics
  | "metrics_interval_secs" =>
      bounded u64Bound 1 3600
        "metrics_interval_secs must be between 1 and 3600" value
        fun interval => .metricsIntervalSecs (.ofNat interval)
  | "crypto_key_rotation_interval" =>
      bounded u64Bound 60 86400
        "crypto_key_rotation_interval must be between 60 and 86400 seconds"
        value fun interval => .cryptoKeyRotationInterval (.ofNat interval)
  | "fec_redundancy_level" =>
      ranged 0.1 0.9 "fec_redundancy_level must be between 0.1 and 0.9" value
        .fecRedundancyLevel
  | "stream_buffer_size" =>
      bounded u32Bound 1024 1048576
        "stream_buffer_size must be between 1024 and 1048576 bytes" value
        fun size => .streamBufferSize (.ofNat size)
  | "mix_batch_size" =>
      bounded u32Bound 1 1000 "mix_batch_size must be between 1 and 1000" value
        fun size => .mixBatchSize (.ofNat size)
  | "transport_packet_size" =>
      bounded u32Bound 512 65536
        "transport_packet_size must be between 512 and 65536 bytes" value
        fun size => .transportPacketSize (.ofNat size)
  | _ => .error ("Unknown configuration key: " ++ key)

section Checks

variable {value : String} {result : Setting} {key : String}

theorem key_of_oneOf {allowed : List String} {message : String}
    {setting : String → Setting} (named : ∀ text, (setting text).key = key)
    (checked : oneOf allowed message value setting = .ok result) :
    result.key = key := by
  unfold oneOf at checked
  split at checked
  · cases checked
    exact named value
  · cases checked

theorem key_of_bounded {bound low high : Nat} {message : String}
    {setting : Nat → Setting} (named : ∀ number, (setting number).key = key)
    (checked : bounded bound low high message value setting = .ok result) :
    result.key = key := by
  unfold bounded at checked
  split at checked
  · cases checked
  · next number _ =>
      split at checked
      · cases checked
        exact named number
      · cases checked

theorem key_of_boolean {setting : Bool → Setting}
    (named : ∀ enable, (setting enable).key = key)
    (checked : boolean value setting = .ok result) : result.key = key := by
  unfold boolean at checked
  split at checked
  · cases checked
  · next enable _ =>
      cases checked
      exact named enable

theorem key_of_ranged {low high : Float} {message : String}
    {setting : Float → Setting} (named : ∀ number, (setting number).key = key)
    (checked : ranged low high message value setting = .ok result) :
    result.key = key := by
  unfold ranged at checked
  split at checked
  · cases checked
  · next number _ =>
      split at checked
      · cases checked
        exact named number
      · cases checked

/-- A setting is for the key that it was given under. -/
theorem key_of_validateSetting
    (checked : validateSetting key value = .ok result) : result.key = key := by
  unfold validateSetting at checked
  split at checked
  · exact key_of_oneOf (fun _ => rfl) checked
  · exact key_of_bounded (fun _ => rfl) checked
  · exact key_of_bounded (fun _ => rfl) checked
  · exact key_of_boolean (fun _ => rfl) checked
  · exact key_of_ranged (fun _ => rfl) checked
  · exact key_of_oneOf (fun _ => rfl) checked
  · exact key_of_boolean (fun _ => rfl) checked
  · exact key_of_bounded (fun _ => rfl) checked
  · exact key_of_bounded (fun _ => rfl) checked
  · exact key_of_ranged (fun _ => rfl) checked
  · exact key_of_bounded (fun _ => rfl) checked
  · exact key_of_bounded (fun _ => rfl) checked
  · exact key_of_bounded (fun _ => rfl) checked
  · cases checked

end Checks

/-- Nothing here looks into a `NyxConfig`. -/
structure ConfigVersion (NyxConfig : Type) where
  version : UInt64
  config : NyxConfig
  dynamicConfig : DynamicConfig
  description : String
  deriving DecidableEq

/-- The manager, with the variable `RUST_LOG` of its process. -/
structure ConfigManager (NyxConfig : Type) where
  config : NyxConfig
  dynamicConfig : DynamicConfig
  configVersions : List (ConfigVersion NyxConfig)
  currentVersion : UInt64
  rustLog : Option String
  deriving DecidableEq

def maxVersions : Nat := 10

/-- `ConfigResponse`. -/
structure ConfigResponse where
  success : Bool
  message : String
  validationErrors : List String
  deriving DecidableEq, Repr

namespace ConfigManager

variable {NyxConfig : Type}

def initialVersion (config : NyxConfig) : ConfigVersion NyxConfig where
  version := 1
  config := config
  dynamicConfig := .initial
  description := "Initial configuration"

def new (config : NyxConfig) (rustLog : Option String) :
    ConfigManager NyxConfig where
  config := config
  dynamicConfig := .initial
  configVersions := [initialVersion config]
  currentVersion := 1
  rustLog := rustLog

/-- A version of the present configuration. -/
def capture (manager : ConfigManager NyxConfig) (version : UInt64)
    (description : String) : ConfigVersion NyxConfig where
  version := version
  config := manager.config
  dynamicConfig := manager.dynamicConfig
  description := description

/-- The manager with one more version, which is the current one. -/
def withVersion (manager : ConfigManager NyxConfig)
    (version : ConfigVersion NyxConfig) : ConfigManager NyxConfig :=
  { manager with
    currentVersion := version.version
    configVersions :=
      BoundedLog.push maxVersions manager.configVersions version }

/-- The version that is made, and the manager with it; no result stands for an
overflow that aborts the call. -/
def createVersionBackup (mode : OverflowMode)
    (manager : ConfigManager NyxConfig) (description : String) :
    Option (ConfigVersion NyxConfig × ConfigManager NyxConfig) :=
  match mode.add manager.currentVersion 1 with
  | none => none
  | some versionNumber =>
      let version := manager.capture versionNumber description
      some (version, manager.withVersion version)

/-- The manager with the configuration and the number of a version. -/
def restore (manager : ConfigManager NyxConfig)
    (version : ConfigVersion NyxConfig) : ConfigManager NyxConfig :=
  { manager with
    config := version.config
    dynamicConfig := version.dynamicConfig
    currentVersion := version.version }

/-- The first version with the number. -/
def findVersion (manager : ConfigManager NyxConfig) (version : UInt64) :
    Option (ConfigVersion NyxConfig) :=
  manager.configVersions.find? fun held => held.version = version

def rollbackToVersion (manager : ConfigManager NyxConfig) (version : UInt64) :
    Except String ConfigResponse × ConfigManager NyxConfig :=
  match manager.findVersion version with
  | some versionData =>
      (.ok { success := true
             message := s!"Rolled back to version {version}"
             validationErrors := [] },
        manager.restore versionData)
  | none => (.error s!"Configuration version {version} not found", manager)

/-- `validate_and_apply_setting`; the value that was there before only goes to
the notifications, which are left out. -/
def validateAndApplySetting (manager : ConfigManager NyxConfig)
    (key value : String) : Except String (ConfigManager NyxConfig) :=
  match validateSetting key value with
  | .error error => .error error
  | .ok setting => .ok { manager with
      dynamicConfig := setting.apply manager.dynamicConfig
      rustLog := setting.rustLog manager.rustLog }

/-- What the loop over the settings has so far. -/
structure Progress (NyxConfig : Type) where
  manager : ConfigManager NyxConfig
  updatedFields : List String
  validationErrors : List String

/-- One round of the loop. -/
def applySetting (progress : Progress NyxConfig) (entry : String × String) :
    Progress NyxConfig :=
  match progress.manager.validateAndApplySetting entry.1 entry.2 with
  | .ok manager =>
      { progress with
        manager
        updatedFields := progress.updatedFields ++ [entry.1] }
  | .error error =>
      { progress with
        validationErrors :=
          progress.validationErrors ++ [s!"{entry.1}: {error}"] }

def applySettings (manager : ConfigManager NyxConfig)
    (settings : List (String × String)) : Progress NyxConfig :=
  settings.foldl applySetting ⟨manager, [], []⟩

/-- What a call of `update_config` answers, if it is not aborted, and the
versions that it made. -/
structure UpdateReport (NyxConfig : Type) where
  response : Option ConfigResponse
  created : List (ConfigVersion NyxConfig)

/-- `update_config`, given the settings in the order of the map's iteration. -/
def updateConfig (mode : OverflowMode) (manager : ConfigManager NyxConfig)
    (settings : List (String × String)) :
    UpdateReport NyxConfig × ConfigManager NyxConfig :=
  match manager.createVersionBackup mode "Pre-update backup" with
  | none => (⟨none, []⟩, manager)
  | some (backup, saved) =>
      let progress := saved.applySettings settings
      if progress.validationErrors = [] then
        let description :=
          "Updated: " ++ String.intercalate ", " progress.updatedFields
        match progress.manager.createVersionBackup mode description with
        | none => (⟨none, [backup]⟩, progress.manager)
        | some (version, updated) =>
            (⟨some { success := true
                     message :=
                       s!"Updated {progress.updatedFields.length} settings"
                     validationErrors := [] }, [backup, version]⟩, updated)
      else
        let rolledBack :=
          (progress.manager.rollbackToVersion backup.version).2
        (⟨some { success := false
                 message := "Configuration validation failed"
                 validationErrors := progress.validationErrors }, [backup]⟩,
          rolledBack)

end ConfigManager

/-- The settings that pass their checks. -/
def accepted (settings : List (String × String)) : List Setting :=
  settings.filterMap fun entry =>
    match validateSetting entry.1 entry.2 with
    | .ok setting => some setting
    | .error _ => none

/-- The entry passes its check. -/
def isValid (entry : String × String) : Bool :=
  match validateSetting entry.1 entry.2 with
  | .ok _ => true
  | .error _ => false

/-- Every setting passes its check. -/
def AllValid (settings : List (String × String)) : Prop :=
  ∀ entry ∈ settings, isValid entry = true

instance AllValid.decidable (settings : List (String × String)) :
    Decidable (AllValid settings) :=
  inferInstanceAs (Decidable (∀ entry ∈ settings, _ = true))

namespace ConfigManager

variable {NyxConfig : Type}

/-- The manager after settings that passed their checks. -/
def withSettings (manager : ConfigManager NyxConfig)
    (settings : List Setting) : ConfigManager NyxConfig :=
  { manager with
    dynamicConfig := settings.foldl Setting.apply manager.dynamicConfig
    rustLog := settings.foldl Setting.rustLog manager.rustLog }

theorem foldl_applySetting (progress : Progress NyxConfig)
    (settings : List (String × String)) :
    (settings.foldl applySetting progress).manager =
        progress.manager.withSettings (accepted settings) ∧
      ((settings.foldl applySetting progress).validationErrors = [] ↔
        progress.validationErrors = [] ∧ AllValid settings) := by
  induction settings generalizing progress with
  | nil => exact ⟨rfl, by simp [AllValid]⟩
  | cons entry settings ih =>
      obtain ⟨manager, errors⟩ := ih (applySetting progress entry)
      rw [List.foldl_cons, manager, errors]
      cases checked : validateSetting entry.1 entry.2 with
      | error error =>
          simp [applySetting, validateAndApplySetting, checked, accepted,
            AllValid, isValid]
      | ok setting =>
          simp [applySetting, validateAndApplySetting, checked, accepted,
            AllValid, isValid, withSettings]

/-- Everything that `update_config` can do. -/
inductive Updates (mode : OverflowMode) (manager : ConfigManager NyxConfig)
    (settings : List (String × String)) :
    UpdateReport NyxConfig × ConfigManager NyxConfig → Prop where
  | aborted (overflow : mode.add manager.currentVersion 1 = none) :
      Updates mode manager settings (⟨none, []⟩, manager)
  | abortedLate (number : UInt64) (backup : ConfigVersion NyxConfig)
      (counted : mode.add manager.currentVersion 1 = some number)
      (saved : backup = manager.capture number "Pre-update backup")
      (valid : AllValid settings) (overflow : mode.add number 1 = none) :
      Updates mode manager settings (⟨none, [backup]⟩,
        (manager.withVersion backup).withSettings (accepted settings))
  | accepted (number second : UInt64) (backup version : ConfigVersion NyxConfig)
      (response : ConfigResponse) (description : String)
      (counted : mode.add manager.currentVersion 1 = some number)
      (saved : backup = manager.capture number "Pre-update backup")
      (valid : AllValid settings)
      (countedOn : mode.add number 1 = some second)
      (captured : version = ((manager.withVersion backup).withSettings
        (accepted settings)).capture second description)
      (success : response.success = true) :
      Updates mode manager settings (⟨some response, [backup, version]⟩,
        ((manager.withVersion backup).withSettings
          (accepted settings)).withVersion version)
  | rejected (number : UInt64) (backup : ConfigVersion NyxConfig)
      (response : ConfigResponse)
      (counted : mode.add manager.currentVersion 1 = some number)
      (saved : backup = manager.capture number "Pre-update backup")
      (invalid : ¬ AllValid settings) (failure : response.success = false) :
      Updates mode manager settings (⟨some response, [backup]⟩,
        (((manager.withVersion backup).withSettings
          (accepted settings)).rollbackToVersion number).2)

theorem updateConfig_updates (mode : OverflowMode)
    (manager : ConfigManager NyxConfig) (settings : List (String × String)) :
    Updates mode manager settings (manager.updateConfig mode settings) := by
  unfold updateConfig createVersionBackup
  cases counted : mode.add manager.currentVersion 1 with
  | none => exact .aborted counted
  | some number =>
      obtain ⟨applied, errors⟩ := foldl_applySetting
        ⟨manager.withVersion (manager.capture number "Pre-update backup"),
          [], []⟩ settings
      simp only [applySettings, applied, errors, true_and]
      split
      · next valid =>
          have onward : ((manager.withVersion (manager.capture number
              "Pre-update backup")).withSettings
                (accepted settings)).currentVersion = number := rfl
          rw [onward]
          cases countedOn : mode.add number 1 with
          | none => exact .abortedLate number _ counted rfl valid countedOn
          | some second =>
              exact .accepted number second _ _ _ _ counted rfl valid countedOn
                rfl rfl
      · next invalid =>
          exact .rejected number _ _ counted rfl invalid rfl

end ConfigManager

end NyxNet.Config
