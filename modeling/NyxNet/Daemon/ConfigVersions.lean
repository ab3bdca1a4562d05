import NyxNet.Daemon.ConfigManager
import NyxNet.Lib.Trace

/-!
# Versions of the configuration

The numbers of the held versions ascend as long as no backup is made while the
version counter stands below the newest held version, where a rollback to an
older version leaves it.  A rejected update goes back to the first version with
the number of its backup; it does not go back in the environment.
-/

namespace NyxNet.Config

variable {NyxConfig : Type}

/-- A call of the manager. -/
inductive Call where
  | updateConfig (settings : List (String × String))
  | rollbackToVersion (version : UInt64)
  deriving DecidableEq

/-- The versions that a call made are those that its calls of
`create_version_backup` returned. -/
def performCall (mode : OverflowMode) (manager : ConfigManager NyxConfig) :
    Call → List (ConfigVersion NyxConfig) × ConfigManager NyxConfig
  | .updateConfig settings =>
      let (report, after) := manager.updateConfig mode settings
      (report.created, after)
  | .rollbackToVersion version => ([], (manager.rollbackToVersion version).2)

/-- All versions ever made, from the initial one on. -/
def captured (config : NyxConfig)
    (past : List (Call × List (ConfigVersion NyxConfig))) :
    List (ConfigVersion NyxConfig) :=
  ConfigManager.initialVersion config :: past.flatMap Prod.snd

/-- The latest version that was made under a number. -/
def latestBackup (given : List (ConfigVersion NyxConfig)) (number : UInt64) :
    Option (ConfigVersion NyxConfig) :=
  given.reverse.find? fun version => version.version = number

/-- The number of a version as a natural number. -/
def ConfigVersion.number (version : ConfigVersion NyxConfig) : Nat :=
  version.version.toNat

/-- The numbers of the held versions ascend, there are not too many of them, and
a rollback to one restores what was captured last under its number. -/
def Unambiguous (given : List (ConfigVersion NyxConfig))
    (manager : ConfigManager NyxConfig) : Prop :=
  manager.configVersions.length ≤ maxVersions ∧
    BoundedLog.Ascending ConfigVersion.number manager.configVersions ∧
    ∀ held ∈ manager.configVersions, ∃ version,
      latestBackup given held.version = some version ∧
      (manager.rollbackToVersion held.version).2.config = version.config ∧
      (manager.rollbackToVersion held.version).2.dynamicConfig =
        version.dynamicConfig

/-- The number that is counted next is above the given one. -/
def CountsAbove (mode : OverflowMode) (current newest : UInt64) : Prop :=
  ∀ number, mode.add current 1 = some number → newest.toNat < number.toNat

/-- An update makes its backup when the version counter is not below the newest
held version, and neither it nor its second version starts over at zero. -/
def CountsOn (mode : OverflowMode) (manager : ConfigManager NyxConfig) :
    Call → Prop
  | .updateConfig settings =>
      (∀ newest, manager.configVersions.getLast? = some newest →
        CountsAbove mode manager.currentVersion newest.version) ∧
      (AllValid settings → ∀ number,
        mode.add manager.currentVersion 1 = some number →
          CountsAbove mode number number)
  | .rollbackToVersion _ => True

/-- The held versions are the latest ones that were made. -/
structure Logged (given : List (ConfigVersion NyxConfig))
    (manager : ConfigManager NyxConfig) : Prop where
  bounded : manager.configVersions.length ≤ maxVersions
  latest : manager.configVersions <:+ given
  nonempty : ∃ newest, manager.configVersions.getLast? = some newest

theorem Logged.withVersion {given : List (ConfigVersion NyxConfig)}
    {manager : ConfigManager NyxConfig} (logged : Logged given manager)
    (version : ConfigVersion NyxConfig) :
    Logged (given ++ [version]) (manager.withVersion version) where
  bounded := BoundedLog.length_push_le version logged.bounded
  latest := BoundedLog.push_suffix_of_suffix logged.latest maxVersions version
  nonempty := ⟨version, BoundedLog.getLast?_push (by decide) _ version⟩

theorem Logged.congr {given : List (ConfigVersion NyxConfig)}
    {before : ConfigManager NyxConfig} (logged : Logged given before)
    {after : ConfigManager NyxConfig}
    (same : after.configVersions = before.configVersions) :
    Logged given after := by
  obtain ⟨bounded, latest, nonempty⟩ := logged
  rw [← same] at bounded latest nonempty
  exact ⟨bounded, latest, nonempty⟩

theorem configVersions_rollbackToVersion (manager : ConfigManager NyxConfig)
    (number : UInt64) :
    (manager.rollbackToVersion number).2.configVersions =
      manager.configVersions := by
  unfold ConfigManager.rollbackToVersion
  split
  · rfl
  · rfl

theorem performCall_logged (mode : OverflowMode)
    {given : List (ConfigVersion NyxConfig)}
    {manager : ConfigManager NyxConfig} (logged : Logged given manager)
    (call : Call) :
    Logged (given ++ (performCall mode manager call).1)
      (performCall mode manager call).2 := by
  cases call with
  | rollbackToVersion number =>
      simp only [performCall, List.append_nil]
      exact logged.congr (configVersions_rollbackToVersion manager number)
  | updateConfig settings =>
      have updates := manager.updateConfig_updates mode settings
      simp only [performCall]
      generalize manager.updateConfig mode settings = outcome at updates
      cases updates with
      | aborted overflow =>
          simp only [List.append_nil]
          exact logged
      | abortedLate number backup counted saved valid overflow =>
          exact (logged.withVersion backup).congr rfl
      | accepted number second backup version response description counted saved
          valid countedOn captured success =>
          have first : Logged (given ++ [backup])
              ((manager.withVersion backup).withSettings (accepted settings)) :=
            (logged.withVersion backup).congr rfl
          have both := first.withVersion version
          rw [List.append_assoc] at both
          exact both
      | rejected number backup response counted saved invalid failure =>
          exact (logged.withVersion backup).congr
            (configVersions_rollbackToVersion _ number)

theorem ascending_withVersion_iff {given : List (ConfigVersion NyxConfig)}
    {manager : ConfigManager NyxConfig} (logged : Logged given manager)
    (ascending :
      BoundedLog.Ascending ConfigVersion.number manager.configVersions)
    (version : ConfigVersion NyxConfig) :
    BoundedLog.Ascending ConfigVersion.number
        (manager.withVersion version).configVersions ↔
      ∀ newest, manager.configVersions.getLast? = some newest →
        newest.version.toNat < version.version.toNat := by
  obtain ⟨newest, last⟩ := logged.nonempty
  have roomy : 1 < maxVersions := by decide
  rw [last]
  simp only [Option.some.injEq, forall_eq']
  exact BoundedLog.ascending_push_iff roomy ascending last version

/-- A number out of order is still there after the next version. -/
theorem ascending_of_withVersion {given : List (ConfigVersion NyxConfig)}
    {manager between : ConfigManager NyxConfig} (logged : Logged given manager)
    (ascending :
      BoundedLog.Ascending ConfigVersion.number manager.configVersions)
    {first second : ConfigVersion NyxConfig}
    (same : between.configVersions =
      (manager.withVersion first).configVersions)
    (after : BoundedLog.Ascending ConfigVersion.number
      (between.withVersion second).configVersions) :
    BoundedLog.Ascending ConfigVersion.number
      (manager.withVersion first).configVersions := by
  obtain ⟨newest, last⟩ := logged.nonempty
  have roomy : 1 < maxVersions := by decide
  obtain ⟨older, split⟩ := List.getLast?_eq_some_iff.mp last
  have latest : [newest] <:+ manager.configVersions := by
    rw [split]
    exact List.suffix_append older [newest]
  have pair : [newest, first] <:+
      (manager.withVersion first).configVersions :=
    BoundedLog.suffix_push roomy latest first
  have triple : [newest, first] ++ [second] <:+
      (between.withVersion second).configVersions := by
    have stillRoomy : [newest, first].length < maxVersions := by
      simp [maxVersions]
    rw [← same] at pair
    exact BoundedLog.suffix_push stillRoomy pair second
  apply (ascending_withVersion_iff logged ascending first).mpr
  intro other isLast
  rw [last] at isLast
  cases isLast
  have apart := after.suffix triple
  exact (List.pairwise_cons.mp apart).1 first List.mem_cons_self

/-- A call keeps the numbers ascending when it counts on. -/
theorem performCall_ascending_iff (mode : OverflowMode)
    {given : List (ConfigVersion NyxConfig)}
    {manager : ConfigManager NyxConfig} (logged : Logged given manager)
    (ascending :
      BoundedLog.Ascending ConfigVersion.number manager.configVersions)
    (call : Call) :
    BoundedLog.Ascending ConfigVersion.number
        (performCall mode manager call).2.configVersions ↔
      CountsOn mode manager call := by
  cases call with
  | rollbackToVersion number =>
      simp only [performCall, CountsOn, iff_true,
        configVersions_rollbackToVersion]
      exact ascending
  | updateConfig settings =>
      have updates := manager.updateConfig_updates mode settings
      simp only [performCall, CountsOn, CountsAbove]
      generalize manager.updateConfig mode settings = outcome at updates
      cases updates with
      | aborted overflow => simp [overflow, ascending]
      | abortedLate number backup counted saved valid overflow =>
          subst saved
          simp only [counted, overflow, Option.some.injEq, forall_eq',
            reduceCtorEq, false_implies, implies_true, and_true]
          exact ascending_withVersion_iff logged ascending _
      | rejected number backup response counted saved invalid failure =>
          subst saved
          simp only [counted, invalid, Option.some.injEq, forall_eq',
            false_implies, and_true, configVersions_rollbackToVersion]
          exact ascending_withVersion_iff logged ascending _
      | accepted number second backup version response description counted saved
          valid countedOn captured success =>
          have first := ascending_withVersion_iff logged ascending backup
          have numbered : backup.version = number := by
            rw [saved]
            rfl
          have numberedSecond : version.version = second := by
            rw [captured]
            rfl
          simp only [counted, countedOn, valid, Option.some.injEq, forall_eq',
            forall_const]
          rw [numbered] at first
          rw [← first]
          have backed : Logged (given ++ [backup])
              ((manager.withVersion backup).withSettings (accepted settings)) :=
            (logged.withVersion backup).congr rfl
          have last : ((manager.withVersion backup).withSettings
              (accepted settings)).configVersions.getLast? = some backup :=
            BoundedLog.getLast?_push (by decide) _ backup
          constructor
          · intro both
            have once := ascending_of_withVersion logged ascending rfl both
            have twice := (ascending_withVersion_iff backed once version).mp
              both backup last
            rw [numbered, numberedSecond] at twice
            exact ⟨once, twice⟩
          · intro each
            obtain ⟨once, twice⟩ := each
            apply (ascending_withVersion_iff backed once version).mpr
            intro newest isLast
            rw [last] at isLast
            cases isLast
            rw [numbered, numberedSecond]
            exact twice

theorem findVersion_eq_lookup (manager : ConfigManager NyxConfig)
    (number : UInt64) :
    manager.findVersion number = BoundedLog.lookup ConfigVersion.number
      manager.configVersions number.toNat := by
  simp only [ConfigManager.findVersion, BoundedLog.lookup,
    ConfigVersion.number, UInt64.toNat_inj]

theorem latestBackup_eq_latest (given : List (ConfigVersion NyxConfig))
    (number : UInt64) :
    latestBackup given number =
      BoundedLog.latest ConfigVersion.number given number.toNat := by
  simp only [latestBackup, BoundedLog.latest, ConfigVersion.number,
    UInt64.toNat_inj]

/-- Only ascending numbers make the held versions unambiguous. -/
theorem Logged.unambiguous_iff {given : List (ConfigVersion NyxConfig)}
    {manager : ConfigManager NyxConfig} (logged : Logged given manager) :
    Unambiguous given manager ↔
      BoundedLog.Ascending ConfigVersion.number manager.configVersions := by
  refine ⟨fun unambiguous => unambiguous.2.1, ?_⟩
  intro ascending
  refine ⟨logged.bounded, ascending, ?_⟩
  intro held member
  have found := BoundedLog.lookup_of_mem ascending member
  have latest := BoundedLog.lookup_eq_latest ascending logged.latest
    ⟨held, member, rfl⟩
  have version : manager.findVersion held.version = some held := by
    rw [findVersion_eq_lookup]
    exact found
  refine ⟨held, ?_, ?_, ?_⟩
  · rw [latestBackup_eq_latest]
    exact latest.symm.trans found
  · simp only [ConfigManager.rollbackToVersion, version]
    rfl
  · simp only [ConfigManager.rollbackToVersion, version]
    rfl

theorem new_logged (config : NyxConfig) (rustLog : Option String) :
    Logged [ConfigManager.initialVersion config] (.new config rustLog) where
  bounded := by simp [ConfigManager.new, maxVersions]
  latest := List.suffix_refl _
  nonempty := ⟨_, rfl⟩

theorem versions_unambiguous_iff (mode : OverflowMode) (config : NyxConfig)
    (rustLog : Option String) (calls : List Call) :
    (∀ before, before <+: calls →
        Unambiguous
          (captured config (Trace.history (performCall mode)
            (.new config rustLog) before))
          (Trace.final (performCall mode) (.new config rustLog) before)) ↔
      Trace.Along (performCall mode) (CountsOn mode) (.new config rustLog)
        calls := by
  have onward : ∀ past (manager : ConfigManager NyxConfig) call,
      Logged (captured config past) manager →
        Logged (captured config
            (past ++ [(call, (performCall mode manager call).1)]))
          (performCall mode manager call).2 := by
    intro past manager call logged
    have after := performCall_logged mode logged call
    simpa [captured] using after
  have initially : Logged (captured config [])
      (ConfigManager.new config rustLog) := new_logged config rustLog
  refine Trace.throughout_iff (fun past manager =>
    Logged (captured config past) manager) (fun past manager =>
      Unambiguous (captured config past) manager) ?_ ?_ ?_
  · intro before _
    exact Trace.invariant initially onward before
  · apply initially.unambiguous_iff.mpr
    exact List.pairwise_singleton _ _
  · intro past manager call logged after unambiguous
    have ascending := logged.unambiguous_iff.mp unambiguous
    rw [after.unambiguous_iff]
    exact performCall_ascending_iff mode logged ascending call

/-- An update, a rollback to the initial version, and a further update. -/
def rewindingCalls : List Call :=
  [.updateConfig [("max_streams", "5")], .rollbackToVersion 1,
    .updateConfig [("max_streams", "6")]]

/-- Five versions with the numbers 1, 2, 3, 2, 3, and a rollback to version 3
restores the older one. -/
theorem rewound_versions_ambiguous :
    let manager := Trace.final (performCall .checked) (.new () none)
      rewindingCalls
    let given := captured () (Trace.history (performCall .checked)
      (.new () none) rewindingCalls)
    manager.configVersions.map ConfigVersion.version = [1, 2, 3, 2, 3] ∧
      (latestBackup given 3).map (fun version =>
        version.dynamicConfig.maxStreams) = some (some 6) ∧
      (manager.rollbackToVersion 3).2.dynamicConfig.maxStreams = some 5 ∧
      ¬ Unambiguous given manager := by
  intro manager given
  have numbers : manager.configVersions.map ConfigVersion.version =
      [1, 2, 3, 2, 3] := by
    decide +kernel
  refine ⟨numbers, by decide +kernel, by decide +kernel, ?_⟩
  intro unambiguous
  have ascending : BoundedLog.Ascending id
      (manager.configVersions.map ConfigVersion.number) :=
    List.pairwise_map.mpr unambiguous.2.1
  have plain : manager.configVersions.map ConfigVersion.number =
      [1, 2, 3, 2, 3] := by
    decide +kernel
  rw [plain] at ascending
  revert ascending
  decide

/-- If a version that stays has the number of the backup, the first such version
has the present configuration. -/
def RestoresBackup (manager : ConfigManager NyxConfig) (number : UInt64) :
    Prop :=
  ∀ older, (BoundedLog.kept maxVersions manager.configVersions).find?
      (fun held => held.version = number) = some older →
    older.config = manager.config ∧
      older.dynamicConfig = manager.dynamicConfig

/-- Among the settings there is no valid level that `RUST_LOG` does not have. -/
def KeepsRustLog (manager : ConfigManager NyxConfig)
    (settings : List (String × String)) : Prop :=
  ∀ level, ("log_level", level) ∈ settings →
    isValid ("log_level", level) = true → manager.rustLog = some level

theorem rustLog_eq_of_key {setting : Setting}
    (other : setting.key ≠ "log_level") (environment : Option String) :
    setting.rustLog environment = environment := by
  cases setting with
  | logLevel level => exact absurd rfl other
  | _ => rfl

/-- A level that passes its check is put into the environment as it is. -/
theorem rustLog_of_validateSetting {value : String} {setting : Setting}
    (checked : validateSetting "log_level" value = .ok setting)
    (environment : Option String) :
    setting.rustLog environment = some value := by
  have isOneOf : oneOf ["trace", "debug", "info", "warn", "error"]
      ("Invalid log level: " ++ value) value .logLevel = .ok setting := checked
  unfold oneOf at isOneOf
  split at isOneOf
  · cases isOneOf
    rfl
  · cases isOneOf

/-- A setting that is not a valid level says nothing about the environment. -/
theorem levels_cons_iff {entry : String × String}
    (noLevel : entry.1 = "log_level" → isValid entry = false)
    {settings : List (String × String)} {environment : Option String} :
    (∀ level, ("log_level", level) ∈ entry :: settings →
        isValid ("log_level", level) = true → environment = some level) ↔
      ∀ level, ("log_level", level) ∈ settings →
        isValid ("log_level", level) = true → environment = some level := by
  constructor
  · intro quiet level member
    exact quiet level (List.mem_cons_of_mem _ member)
  · intro quiet level member valid
    rcases List.mem_cons.mp member with same | inRest
    · rw [← same] at noLevel
      rw [noLevel rfl] at valid
      cases valid
    · exact quiet level inRest valid

/-- Keys are distinct, so at most one setting reaches the environment. -/
theorem rustLog_accepted {settings : List (String × String)}
    (distinct : (settings.map Prod.fst).Nodup) (environment : Option String) :
    (accepted settings).foldl Setting.rustLog environment = environment ↔
      ∀ level, ("log_level", level) ∈ settings →
        isValid ("log_level", level) = true → environment = some level := by
  induction settings generalizing environment with
  | nil => simp [accepted]
  | cons entry settings ih =>
      obtain ⟨key, value⟩ := entry
      obtain ⟨fresh, rest⟩ := List.nodup_cons.mp distinct
      have later := ih rest
      cases checked : validateSetting key value with
      | error error =>
          have skipped : accepted ((key, value) :: settings) =
              accepted settings := by
            simp [accepted, checked]
          have invalid : isValid (key, value) = false := by
            simp [isValid, checked]
          rw [skipped, later environment, levels_cons_iff (fun _ => invalid)]
      | ok setting =>
          have taken : accepted ((key, value) :: settings) =
              setting :: accepted settings := by
            simp [accepted, checked]
          rw [taken, List.foldl_cons]
          by_cases named : key = "log_level"
          · subst named
            have valid : isValid ("log_level", value) = true := by
              simp [isValid, checked]
            have alone : ∀ level, ("log_level", level) ∉ settings := by
              intro level member
              exact fresh (List.mem_map.mpr ⟨_, member, rfl⟩)
            have unchanged : (accepted settings).foldl Setting.rustLog
                (some value) = some value := by
              apply (later (some value)).mpr
              intro level member
              exact absurd member (alone level)
            rw [rustLog_of_validateSetting checked, unchanged]
            constructor
            · intro same level member _
              rcases List.mem_cons.mp member with here | inRest
              · cases here
                exact same.symm
              · exact absurd inRest (alone level)
            · intro quiet
              exact (quiet value List.mem_cons_self valid).symm
          · have other : setting.key ≠ "log_level" := by
              rw [key_of_validateSetting checked]
              exact named
            rw [rustLog_eq_of_key other, later environment,
              levels_cons_iff (fun same => absurd same named)]

/-- What a rollback to a number that is held takes from the first version with
that number. -/
theorem rollbackToVersion_found {manager : ConfigManager NyxConfig}
    {number : UInt64} {version : ConfigVersion NyxConfig}
    (found : manager.findVersion number = some version) :
    (manager.rollbackToVersion number).2 = manager.restore version := by
  simp only [ConfigManager.rollbackToVersion, found]

theorem findVersion_withVersion (manager : ConfigManager NyxConfig)
    (version : ConfigVersion NyxConfig) :
    (manager.withVersion version).findVersion version.version =
      some (((BoundedLog.kept maxVersions manager.configVersions).find?
        fun held => held.version = version.version).getD version) := by
  have pushed : (manager.withVersion version).configVersions =
      BoundedLog.kept maxVersions manager.configVersions ++ [version] :=
    BoundedLog.push_eq_kept (by decide) _ version
  rw [ConfigManager.findVersion, pushed, List.find?_append]
  cases BoundedLog.kept maxVersions manager.configVersions |>.find?
      (fun held => held.version = version.version) with
  | none => simp
  | some older => rfl

/-- The backup of a rejected update is at hand, and the environment stays. -/
def BacksOut (mode : OverflowMode) (manager : ConfigManager NyxConfig)
    (settings : List (String × String)) : Prop :=
  ∀ number, mode.add manager.currentVersion 1 = some number →
    RestoresBackup manager number ∧ KeepsRustLog manager settings

/-- Two managers with the same configuration and environment. -/
def SameSettings (before after : ConfigManager NyxConfig) : Prop :=
  after.config = before.config ∧ after.dynamicConfig = before.dynamicConfig ∧
    after.rustLog = before.rustLog

theorem updateConfig_sameSettings_iff (mode : OverflowMode)
    (manager : ConfigManager NyxConfig) (settings : List (String × String))
    (distinct : (settings.map Prod.fst).Nodup)
    (rejected : ((manager.updateConfig mode settings).1.response.map
      ConfigResponse.success) = some false) :
    SameSettings manager (manager.updateConfig mode settings).2 ↔
      BacksOut mode manager settings := by
  have updates := manager.updateConfig_updates mode settings
  generalize manager.updateConfig mode settings = outcome at updates rejected
  cases updates with
  | aborted overflow => cases rejected
  | abortedLate number backup counted saved valid overflow => cases rejected
  | accepted number second backup version response description counted saved
      valid countedOn captured success =>
      rw [Option.map_some, success] at rejected
      cases rejected
  | rejected number backup response counted saved invalid failure =>
      have numbered : backup.version = number := by
        rw [saved]
        rfl
      obtain ⟨applied, isApplied⟩ : ∃ applied, applied =
          (manager.withVersion backup).withSettings (accepted settings) :=
        ⟨_, rfl⟩
      have found : applied.findVersion number =
          some (((BoundedLog.kept maxVersions manager.configVersions).find?
            fun held => held.version = number).getD backup) := by
        rw [isApplied, ← numbered]
        exact findVersion_withVersion manager backup
      have environment : applied.rustLog =
          (accepted settings).foldl Setting.rustLog manager.rustLog := by
        rw [isApplied]
        rfl
      have quiet := rustLog_accepted distinct manager.rustLog
      rw [← isApplied]
      simp only [SameSettings, BacksOut, rollbackToVersion_found found,
        ConfigManager.restore, environment, quiet, KeepsRustLog, ← and_assoc,
        counted, Option.some.injEq, forall_eq']
      refine and_congr ?_ Iff.rfl
      rw [RestoresBackup]
      cases older : (BoundedLog.kept maxVersions manager.configVersions).find?
          (fun held => held.version = number) with
      | none =>
          rw [saved]
          exact iff_of_true ⟨rfl, rfl⟩ (fun other isOther => nomatch isOther)
      | some version =>
          simp only [Option.getD_some, Option.some.injEq, forall_eq']

theorem rejected_update_atomic_iff (mode : OverflowMode) (config : NyxConfig)
    (rustLog : Option String) (calls : List Call)
    (settings : List (String × String))
    (distinct : (settings.map Prod.fst).Nodup) :
    let manager := Trace.final (performCall mode) (.new config rustLog) calls
    let (report, after) := manager.updateConfig mode settings
    report.response.map ConfigResponse.success = some false →
      (SameSettings manager after ↔ BacksOut mode manager settings) := by
  intro manager
  exact updateConfig_sameSettings_iff mode manager settings distinct

theorem rejected_update_atomic_max_streams :
    let manager : ConfigManager Unit := .new () none
    SameSettings manager
        (manager.updateConfig .checked [("max_streams", "0")]).2 ↔
      BacksOut .checked manager [("max_streams", "0")] :=
  rejected_update_atomic_iff .checked () none [] [("max_streams", "0")]
    (by decide) (by decide +kernel)

/-- The valid level stays in the environment; and after a rollback to version 2
the backup is a second version 3, so the rejected update goes back to the first
one. -/
theorem rejected_update_leaves_traces :
    let start : ConfigManager Unit := .new () none
    let rewound := Trace.final (performCall .checked) start
      [.updateConfig [("max_streams", "5")], .rollbackToVersion 2]
    let (report, after) := start.updateConfig .checked
      [("log_level", "debug"), ("max_streams", "0")]
    let (reportRewound, afterRewound) :=
      rewound.updateConfig .checked [("max_streams", "0")]
    (report.response.map ConfigResponse.success = some false ∧
        after.rustLog = some "debug" ∧ ¬ SameSettings start after) ∧
      reportRewound.response.map ConfigResponse.success = some false ∧
      rewound.dynamicConfig.maxStreams = none ∧
      afterRewound.dynamicConfig.maxStreams = some 5 ∧
      ¬ SameSettings rewound afterRewound := by
  unfold SameSettings
  decide +kernel

end NyxNet.Config
