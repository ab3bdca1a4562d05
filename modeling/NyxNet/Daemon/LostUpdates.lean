import NyxNet.Daemon.ConfigUpdates

/-!
# Lost updates of the configuration

A rejected update writes back what its version holds, and with it undoes what
other updates have set since that version was made.  As long as no stale version
is written back, either the latest values are there or a rejected update has yet
to write its version back.
-/

namespace NyxNet.Config

open TaskPool

variable {NyxConfig : Type}

abbrev UpdatePast : Type := Past ConfigUpdate Unit UpdateEvent

abbrev UpdatePool (NyxConfig : Type) : Type :=
  Pool (ConfigManager NyxConfig) (UpdateTask NyxConfig)

/-- The value is there: to set it again changes nothing. -/
def Holds (config : DynamicConfig) (key value : String) : Prop :=
  ∃ setting, validateSetting key value = .ok setting ∧
    setting.apply config = config

theorem holds_of_apply {key value : String} {setting : Setting}
    (checked : validateSetting key value = .ok setting)
    (config : DynamicConfig) : Holds (setting.apply config) key value := by
  refine ⟨setting, checked, ?_⟩
  cases setting <;> rfl

/-- Settings of different keys do not get in each other's way. -/
theorem apply_comm {first second : Setting}
    (different : first.key ≠ second.key) (config : DynamicConfig) :
    first.apply (second.apply config) = second.apply (first.apply config) := by
  cases first <;> cases second <;>
    first
    | rfl
    | exact absurd rfl different

theorem Holds.apply {config : DynamicConfig} {key value : String}
    (holds : Holds config key value) {other newer : String} {setting : Setting}
    (checked : validateSetting other newer = .ok setting)
    (different : key ≠ other) : Holds (setting.apply config) key value := by
  obtain ⟨held, heldChecked, same⟩ := holds
  refine ⟨held, heldChecked, ?_⟩
  rw [apply_comm, same]
  rw [key_of_validateSetting heldChecked, key_of_validateSetting checked]
  exact different

/-- The call has returned with success. -/
def Succeeded (past : UpdatePast) (index : Nat) : Prop :=
  ∃ position response, Did past position index (.returned response) ∧
    response.success = true

/-- A value is there when its call succeeded and no other call that succeeded
has set the key afterwards. -/
def NoLostUpdate (past : UpdatePast) (config : DynamicConfig) : Prop :=
  ∀ position index key value, Did past position index (.applied key value) →
    Succeeded past index →
      (∀ later other newer, position < later → other ≠ index →
        Did past later other (.applied key newer) → ¬ Succeeded past other) →
        Holds config key value

/-- All settings of the call are valid. -/
def IsValidCall (pool : UpdatePool NyxConfig) (index : Nat) : Prop :=
  ∃ task, pool.tasks[index]? = some task ∧ AllValid task.update.settings

/-- For every key, the value that a call with only valid settings set last. -/
def HoldsLatest (past : UpdatePast) (pool : UpdatePool NyxConfig)
    (config : DynamicConfig) : Prop :=
  ∀ position index key value, Did past position index (.applied key value) →
    IsValidCall pool index →
      (∀ later other newer, position < later →
        Did past later other (.applied key newer) →
          ¬ IsValidCall pool other) →
        Holds config key value

/-- From its first setting on a call has not yet written its version back. -/
def Stage.unwritten : Stage NyxConfig → Bool
  | .applySetting .. | .findVersion _ | .writeConfig .. |
    .writeDynamicConfig .. => true
  | _ => false

/-- The call will be rejected, and has yet to write its version back. -/
def UpdateTask.WillUndo (task : UpdateTask NyxConfig) : Prop :=
  ¬ AllValid task.update.settings ∧ task.stage.unwritten = true

/-- Another call will still write its version back. -/
def UndoneByAnother (pool : UpdatePool NyxConfig) (index : Nat) : Prop :=
  ∃ other task, other ≠ index ∧ pool.tasks[other]? = some task ∧ task.WillUndo

/-- The version that a rejected call writes back, or what is there when it finds
no version, has what the calls with only valid settings set last, unless another
call is still to write its version back.  A call with only valid settings does
not run into an overflow of the version counter. -/
def KeepsLatest (mode : OverflowMode) (past : UpdatePast)
    (pool : UpdatePool NyxConfig) (index : Nat) : Stage NyxConfig → Prop
  | .findVersion locals =>
      pool.shared.findVersion locals.backupVersion = none →
        HoldsLatest past pool pool.shared.dynamicConfig ∨
          UndoneByAnother pool index
  | .writeDynamicConfig _ version =>
      HoldsLatest past pool version.dynamicConfig ∨ UndoneByAnother pool index
  | .pushVersion (.updated _) _ _ =>
      mode.add pool.shared.currentVersion 1 ≠ none
  | _ => True

def WritesBackLatest (mode : OverflowMode) (past : UpdatePast)
    (pool : UpdatePool NyxConfig) : Action ConfigUpdate Unit → Prop
  | .call _ => True
  | .run index _ => ∀ task, pool.tasks[index]? = some task →
      KeepsLatest mode past pool index task.stage

/-- The call has not set anything. -/
def Untouched (past : UpdatePast) (index : Nat) : Prop :=
  ∀ position key value, ¬ Did past position index (.applied key value)

/-- The settings that a call is through with. -/
structure Processed (past : UpdatePast) (index : Nat) (locals : Locals)
    (done : List (String × String)) : Prop where
  errors : locals.validationErrors = [] ↔ AllValid done
  keys : ∀ position key value,
    Did past position index (.applied key value) → key ∈ done.map Prod.fst

def PurposeKnown (past : UpdatePast) (index : Nat)
    (settings : List (String × String)) : Purpose → Prop
  | .preUpdate => Untouched past index
  | .updated _ => AllValid settings

def StageKnown (past : UpdatePast) (index : Nat)
    (settings : List (String × String)) : Stage NyxConfig → Prop
  | .readConfig purpose | .readDynamicConfig purpose _ |
    .pushVersion purpose _ _ => PurposeKnown past index settings purpose
  | .applySetting locals entry rest => ∃ done,
      settings = done ++ entry :: rest ∧ Processed past index locals done
  | .findVersion _ | .writeConfig .. | .writeDynamicConfig .. |
    .writeCurrentVersion .. => ¬ AllValid settings
  | .returned _ => AllValid settings → Succeeded past index
  | .aborted => Untouched past index

/-- A call is where its settings have brought it, has set no key twice, and
succeeds only with valid settings. -/
structure Accounted (past : UpdatePast) (index : Nat)
    (task : UpdateTask NyxConfig) : Prop where
  stage : StageKnown past index task.update.settings task.stage
  once : ∀ position later key value newer,
    Did past position index (.applied key value) →
      Did past later index (.applied key newer) → position = later
  valid : Succeeded past index → AllValid task.update.settings

/-- Only a step that sets a value adds to the values that were set. -/
theorem did_applied_iff {past : UpdatePast} {index : Nat} {input : Unit}
    {event : UpdateEvent} (noValue : ∀ key value, event ≠ .applied key value)
    {position other : Nat} {key value : String} :
    Did (past ++ [(.run index input, some event)]) position other
        (.applied key value) ↔
      Did past position other (.applied key value) := by
  rw [did_append_run_iff]
  constructor
  · intro did
    rcases did with old | new
    · exact old
    · exact absurd new.2.2.symm (noValue key value)
  · exact Or.inl

theorem Untouched.mono {past longer : UpdatePast} {index : Nat}
    (untouched : Untouched past index)
    (nothingNew : ∀ position key value,
      Did longer position index (.applied key value) →
        Did past position index (.applied key value)) :
    Untouched longer index := by
  intro position key value did
  exact untouched position key value (nothingNew position key value did)

theorem PurposeKnown.mono {past longer : UpdatePast} {index : Nat}
    {settings : List (String × String)} {purpose : Purpose}
    (known : PurposeKnown past index settings purpose)
    (nothingNew : ∀ position key value,
      Did longer position index (.applied key value) →
        Did past position index (.applied key value)) :
    PurposeKnown longer index settings purpose := by
  cases purpose with
  | preUpdate => exact Untouched.mono known nothingNew
  | updated updatedFields => exact known

theorem StageKnown.mono {past longer : UpdatePast} {index : Nat}
    {settings : List (String × String)} {stage : Stage NyxConfig}
    (known : StageKnown past index settings stage)
    (nothingNew : ∀ position key value,
      Did longer position index (.applied key value) →
        Did past position index (.applied key value))
    (succeeds : Succeeded past index → Succeeded longer index) :
    StageKnown longer index settings stage := by
  cases stage with
  | readConfig purpose => exact PurposeKnown.mono known nothingNew
  | readDynamicConfig purpose config => exact PurposeKnown.mono known nothingNew
  | pushVersion purpose config dynamicConfig =>
      exact PurposeKnown.mono known nothingNew
  | applySetting locals entry rest =>
      obtain ⟨done, split, errors, keys⟩ := known
      refine ⟨done, split, errors, ?_⟩
      intro position key value did
      exact keys position key value (nothingNew position key value did)
  | findVersion locals => exact known
  | writeConfig locals version => exact known
  | writeDynamicConfig locals version => exact known
  | writeCurrentVersion locals version => exact known
  | returned response => exact fun valid => succeeds (known valid)
  | aborted => exact Untouched.mono known nothingNew

/-- Nothing changes for a call by what it has no part in. -/
theorem Accounted.congr {past longer : UpdatePast} {index : Nat}
    {task : UpdateTask NyxConfig} (accounted : Accounted past index task)
    (same : ∀ position event,
      Did longer position index event ↔ Did past position index event) :
    Accounted longer index task where
  stage := by
    apply accounted.stage.mono
    · intro position key value did
      exact (same position _).mp did
    · intro succeeded
      obtain ⟨position, response, did, success⟩ := succeeded
      exact ⟨position, response, (same position _).mpr did, success⟩
  once := by
    intro position later key value newer first second
    exact accounted.once position later key value newer
      ((same position _).mp first) ((same later _).mp second)
  valid := by
    intro succeeded
    obtain ⟨position, response, did, success⟩ := succeeded
    exact accounted.valid
      ⟨position, response, (same position _).mp did, success⟩

/-- When the settings are through, their errors decide. -/
theorem Processed.onward {past : UpdatePast} {index : Nat} {locals : Locals}
    {settings done rest : List (String × String)}
    (processed : Processed past index locals done)
    (split : settings = done ++ rest) :
    StageKnown past index settings
      (locals.onward rest : Stage NyxConfig) := by
  cases rest with
  | cons entry rest => exact ⟨done, split, processed⟩
  | nil =>
      rw [List.append_nil] at split
      subst split
      simp only [Locals.onward]
      split
      · next clean => exact processed.errors.mp clean
      · next failed => exact fun valid => failed (processed.errors.mpr valid)

theorem allValid_concat_iff {done : List (String × String)}
    {entry : String × String} :
    AllValid (done ++ [entry]) ↔ AllValid done ∧ isValid entry = true := by
  simp [AllValid, or_imp, forall_and]

/-- One more setting, whatever became of it. -/
theorem Processed.next {past : UpdatePast} {index : Nat} {input : Unit}
    {event : UpdateEvent} {locals changed : Locals}
    {done : List (String × String)} {entry : String × String}
    (processed : Processed past index locals done)
    (errors : changed.validationErrors = [] ↔
      locals.validationErrors = [] ∧ isValid entry = true)
    (ownKey : ∀ key value, event = .applied key value → key = entry.1) :
    Processed (past ++ [(.run index input, some event)]) index changed
      (done ++ [entry]) where
  errors := by
    rw [errors, processed.errors, allValid_concat_iff]
  keys := by
    intro position key value did
    rw [List.map_append]
    apply List.mem_append.mpr
    rcases did_append_run_iff.mp did with old | new
    · exact Or.inl (processed.keys position key value old)
    · rw [ownKey key value new.2.2.symm]
      exact Or.inr List.mem_cons_self

/-- A call stays accounted for in its own steps, as long as no call is aborted
after its settings. -/
theorem stageKnown_moves {mode : OverflowMode} {past : UpdatePast}
    {manager after : ConfigManager NyxConfig}
    {settings : List (String × String)} {index : Nat}
    {stage rest : Stage NyxConfig} {event : UpdateEvent}
    (moves : UpdateMoves mode manager settings stage event after rest)
    (known : StageKnown past index settings stage)
    (onlyEarly : ∀ updatedFields config dynamicConfig,
      stage = .pushVersion (.updated updatedFields) config dynamicConfig →
        mode.add manager.currentVersion 1 ≠ none) (input : Unit) :
    StageKnown (past ++ [(.run index input, some event)]) index settings
      rest := by
  have nothingNew : (∀ key value, event ≠ .applied key value) →
      ∀ position key value,
        Did (past ++ [(.run index input, some event)]) position index
            (.applied key value) →
          Did past position index (.applied key value) := by
    intro noValue position key value
    exact (did_applied_iff noValue).mp
  cases moves with
  | readConfig purpose => exact PurposeKnown.mono known (nothingNew (by simp))
  | readDynamicConfig purpose config =>
      exact PurposeKnown.mono known (nothingNew (by simp))
  | aborted purpose config dynamicConfig overflow =>
      cases purpose with
      | preUpdate => exact Untouched.mono known (nothingNew (by simp))
      | updated updatedFields =>
          exact absurd overflow (onlyEarly updatedFields _ _ rfl)
  | backedUp config dynamicConfig version =>
      have processed : Processed (past ++ [(.run index input, some .moved)])
          index ⟨version.version, [], []⟩ [] := by
        refine ⟨by simp [AllValid], ?_⟩
        intro position key value did
        exact absurd (nothingNew (by simp) position key value did)
          (known position key value)
      exact processed.onward rfl
  | succeeded updatedFields config dynamicConfig version response success =>
      intro _
      exact ⟨past.length, response, did_last past index input _, success⟩
  | applied locals changed key value rest setting after checked dynamicConfig
      errors =>
      obtain ⟨done, split, processed⟩ := known
      have valid : isValid (key, value) = true := by
        simp [isValid, checked]
      have further : Processed
          (past ++ [(.run index input, some (.applied key value))]) index
          changed (done ++ [(key, value)]) := by
        apply processed.next
        · rw [errors, valid, eq_self, and_true]
        · intro other newer same
          cases same
          rfl
      apply further.onward
      rw [split, List.append_assoc]
      rfl
  | refused locals changed key value error rest checked errors =>
      obtain ⟨done, split, processed⟩ := known
      have invalid : isValid (key, value) = false := by
        simp [isValid, checked]
      have further : Processed (past ++ [(.run index input, some .moved)])
          index changed (done ++ [(key, value)]) := by
        apply processed.next
        · simp only [errors, invalid, Bool.false_eq_true, and_false]
        · intro other newer impossible
          cases impossible
      apply further.onward
      rw [split, List.append_assoc]
      rfl
  | found locals version held => exact known
  | missed locals gone => exact fun valid => absurd valid known
  | wroteConfig locals version after dynamicConfig => exact known
  | wroteDynamicConfig locals version after dynamicConfig => exact known
  | wroteCurrentVersion locals version after dynamicConfig =>
      exact fun valid => absurd valid known

/-- A call sets a key that it has not set before. -/
theorem fresh_of_moves {mode : OverflowMode} {past : UpdatePast}
    {manager after : ConfigManager NyxConfig}
    {settings : List (String × String)} {index : Nat} {key newer : String}
    {stage rest : Stage NyxConfig}
    (moves : UpdateMoves mode manager settings stage (.applied key newer) after
      rest)
    (known : StageKnown past index settings stage)
    (distinct : (settings.map Prod.fst).Nodup) (position : Nat)
    (value : String) : ¬ Did past position index (.applied key value) := by
  intro did
  cases moves with
  | applied locals changed key newer remaining setting after checked
      dynamicConfig errors =>
      obtain ⟨done, split, processed⟩ := known
      have twice := processed.keys position key value did
      rw [split, List.map_append, List.map_cons] at distinct
      have separate := (List.nodup_append.mp distinct).2.2
      exact separate key twice key List.mem_cons_self rfl

theorem allValid_of_moves {mode : OverflowMode} {past : UpdatePast}
    {manager after : ConfigManager NyxConfig}
    {settings : List (String × String)} {index : Nat}
    {response : ConfigResponse} {stage rest : Stage NyxConfig}
    (moves : UpdateMoves mode manager settings stage (.returned response) after
      rest)
    (known : StageKnown past index settings stage)
    (success : response.success = true) : AllValid settings := by
  cases moves with
  | succeeded updatedFields config dynamicConfig version response success =>
      exact known
  | missed locals gone => cases success
  | wroteCurrentVersion locals version after dynamicConfig => cases success

/-- What a step does to the record of its own call. -/
theorem accounted_moves {mode : OverflowMode} {past : UpdatePast}
    {manager : ConfigManager NyxConfig} {task : UpdateTask NyxConfig}
    {turn : Turn (ConfigManager NyxConfig) (UpdateTask NyxConfig) UpdateEvent}
    {index : Nat} (continues : Continues mode manager task turn)
    (accounted : Accounted past index task)
    (onlyEarly : ∀ updatedFields config dynamicConfig,
      task.stage = .pushVersion (.updated updatedFields) config dynamicConfig →
        mode.add manager.currentVersion 1 ≠ none) (input : Unit) :
    Accounted (past ++ [(.run index input, some turn.event)]) index
      turn.task where
  stage := by
    rw [continues.update]
    exact stageKnown_moves continues.moves accounted.stage onlyEarly input
  once := by
    have fresh : ∀ position key value newer, turn.event = .applied key newer →
        ¬ Did past position index (.applied key value) := by
      intro position key value newer isApplied
      have moves := continues.moves
      rw [isApplied] at moves
      exact fresh_of_moves moves accounted.stage task.update.distinct position
        value
    intro position later key value newer first second
    rcases did_append_run_iff.mp first with firstOld | firstNew
    · rcases did_append_run_iff.mp second with secondOld | secondNew
      · exact accounted.once position later key value newer firstOld secondOld
      · exact absurd firstOld
          (fresh position key value newer secondNew.2.2.symm)
    · rcases did_append_run_iff.mp second with secondOld | secondNew
      · exact absurd secondOld (fresh later key newer value firstNew.2.2.symm)
      · exact firstNew.1.trans secondNew.1.symm
  valid := by
    rw [continues.update]
    intro succeeded
    obtain ⟨position, response, did, success⟩ := succeeded
    rcases did_append_run_iff.mp did with old | new
    · exact accounted.valid ⟨position, response, old, success⟩
    · have moves := continues.moves
      rw [← new.2.2] at moves
      exact allValid_of_moves moves accounted.stage success

theorem isValidCall_join_iff {past : UpdatePast} {pool : UpdatePool NyxConfig}
    (indexed : Indexed past pool) (task : UpdateTask NyxConfig)
    {position index : Nat} {event : UpdateEvent}
    (did : Did past position index event) :
    IsValidCall (pool.join task) index ↔ IsValidCall pool index := by
  constructor
  · intro valid
    obtain ⟨found, present, settings⟩ := valid
    rcases Pool.lookup_join present with old | fresh
    · exact ⟨found, old, settings⟩
    · have early := indexed position index event did
      exact absurd early (Nat.not_lt.mpr (Nat.le_of_eq fresh.1.symm))
  · intro valid
    obtain ⟨found, present, settings⟩ := valid
    exact ⟨found, Pool.lookup_join_of_lookup present task, settings⟩

theorem isValidCall_resume_iff {mode : OverflowMode}
    {pool : UpdatePool NyxConfig} {index : Nat} {task : UpdateTask NyxConfig}
    {turn : Turn (ConfigManager NyxConfig) (UpdateTask NyxConfig) UpdateEvent}
    (present : pool.tasks[index]? = some task)
    (continues : Continues mode pool.shared task turn) (other : Nat) :
    IsValidCall (pool.resume index turn) other ↔ IsValidCall pool other := by
  constructor
  · intro valid
    obtain ⟨found, foundAt, settings⟩ := valid
    rcases Pool.lookup_resume foundAt with self | bystander | child
    · rw [self.2, continues.update] at settings
      rw [self.1]
      exact ⟨task, present, settings⟩
    · exact ⟨found, bystander.2, settings⟩
    · rw [continues.alone] at child
      cases child.2
  · intro valid
    obtain ⟨found, foundAt, settings⟩ := valid
    by_cases same : other = index
    · subst same
      rw [present] at foundAt
      cases foundAt
      rw [← continues.update] at settings
      exact ⟨turn.task, Pool.lookup_resume_self present, settings⟩
    · exact ⟨found, Pool.lookup_resume_other same foundAt, settings⟩

/-- The latest values do not change when no value is set. -/
theorem holdsLatest_congr {past longer : UpdatePast}
    {before after : UpdatePool NyxConfig}
    (sameValues : ∀ position index key value,
      Did longer position index (.applied key value) ↔
        Did past position index (.applied key value))
    (sameCalls : ∀ position index key value,
      Did past position index (.applied key value) →
        (IsValidCall after index ↔ IsValidCall before index))
    (config : DynamicConfig) :
    HoldsLatest longer after config ↔ HoldsLatest past before config := by
  constructor
  · intro holds position index key value did valid latest
    apply holds position index key value ((sameValues ..).mpr did)
    · exact (sameCalls position index key value did).mpr valid
    · intro later other newer isLater did isValid
      have old := (sameValues later other key newer).mp did
      exact latest later other newer isLater old
        ((sameCalls later other key newer old).mp isValid)
  · intro holds position index key value did valid latest
    have old := (sameValues position index key value).mp did
    apply holds position index key value old
    · exact (sameCalls position index key value old).mp valid
    · intro later other newer isLater did isValid
      exact latest later other newer isLater ((sameValues ..).mpr did)
        ((sameCalls later other key newer did).mpr isValid)

/-- A call with only valid settings sets a further value. -/
theorem HoldsLatest.apply {past : UpdatePast}
    {before after : UpdatePool NyxConfig} {config : DynamicConfig}
    (holds : HoldsLatest past before config)
    (sameCalls : ∀ index, IsValidCall after index ↔ IsValidCall before index)
    {index : Nat} (valid : IsValidCall before index) {key value : String}
    {setting : Setting} (checked : validateSetting key value = .ok setting)
    (input : Unit) :
    HoldsLatest (past ++ [(.run index input, some (.applied key value))]) after
      (setting.apply config) := by
  intro position setter other earlier did isValid latest
  rcases did_append_run_iff.mp did with old | new
  · have different : other ≠ key := by
      intro same
      subst same
      exact latest past.length index value old.lt
        (did_last past index input _) ((sameCalls index).mpr valid)
    apply Holds.apply _ checked different
    apply holds position setter other earlier old
      ((sameCalls setter).mp isValid)
    intro later overwriter newer isLater did isValid
    exact latest later overwriter newer isLater (did.append _)
      ((sameCalls overwriter).mpr isValid)
  · cases new.2.2
    exact holds_of_apply checked config

/-- What a step does to the values, as far as they count: the call is to write
its version back, no value is set, a call with only valid settings sets one, or
a rejected call is through. -/
inductive Effect (past : UpdatePast) (pool : UpdatePool NyxConfig)
    (index : Nat) (settings : List (String × String))
    (stage : Stage NyxConfig) (after : DynamicConfig) (event : UpdateEvent)
    (rest : Stage NyxConfig) : Prop where
  | willUndo (invalid : ¬ AllValid settings)
      (unwritten : rest.unwritten = true)
  | kept (noValue : ∀ key value, event ≠ .applied key value)
      (same : after = pool.shared.dynamicConfig)
      (written : stage.unwritten = false)
  | set (key value : String) (setting : Setting)
      (isSet : event = .applied key value)
      (checked : validateSetting key value = .ok setting)
      (changed : after = setting.apply pool.shared.dynamicConfig)
      (valid : AllValid settings)
  | wroteBack (noValue : ∀ key value, event ≠ .applied key value)
      (latest : HoldsLatest past pool after ∨ UndoneByAnother pool index)

/-- A call with an invalid setting does not get around its rollback. -/
theorem unwritten_onward {past : UpdatePast} {index : Nat}
    {settings rest : List (String × String)} {locals : Locals}
    (known : StageKnown past index settings
      (locals.onward rest : Stage NyxConfig))
    (invalid : ¬ AllValid settings) :
    (locals.onward rest : Stage NyxConfig).unwritten = true := by
  cases rest with
  | cons entry rest => rfl
  | nil =>
      simp only [Locals.onward] at known ⊢
      split at known
      · exact absurd known invalid
      · next failed => rw [if_neg failed]; rfl

theorem effect_of_moves {mode : OverflowMode} {past longer : UpdatePast}
    {pool : UpdatePool NyxConfig} {after : ConfigManager NyxConfig}
    {settings : List (String × String)} {index : Nat}
    {stage rest : Stage NyxConfig} {event : UpdateEvent}
    (moves : UpdateMoves mode pool.shared settings stage event after rest)
    (known : StageKnown past index settings stage)
    (knownAfter : StageKnown longer index settings rest)
    (keeps : KeepsLatest mode past pool index stage) :
    Effect past pool index settings stage after.dynamicConfig event rest := by
  cases moves with
  | readConfig purpose => exact .kept (by simp) rfl rfl
  | readDynamicConfig purpose config => exact .kept (by simp) rfl rfl
  | aborted purpose config dynamicConfig overflow =>
      exact .kept (by simp) rfl rfl
  | backedUp config dynamicConfig version => exact .kept (by simp) rfl rfl
  | succeeded updatedFields config dynamicConfig version response success =>
      exact .kept (by simp) rfl rfl
  | applied locals changed key value remaining setting after checked
      dynamicConfig errors =>
      by_cases valid : AllValid settings
      · exact .set key value setting rfl checked dynamicConfig valid
      · exact .willUndo valid (unwritten_onward knownAfter valid)
  | refused locals changed key value error remaining checked errors =>
      have invalid : ¬ AllValid settings := by
        obtain ⟨done, split, -⟩ := known
        intro valid
        have entry := valid (key, value) (by simp [split])
        simp [isValid, checked] at entry
      exact .willUndo invalid (unwritten_onward knownAfter invalid)
  | found locals version held => exact .willUndo known rfl
  | missed locals gone => exact .wroteBack (by simp) (keeps gone)
  | wroteConfig locals version after dynamicConfig =>
      exact .willUndo known rfl
  | wroteDynamicConfig locals version after dynamicConfig =>
      rw [dynamicConfig]
      exact .wroteBack (by simp) keeps
  | wroteCurrentVersion locals version after dynamicConfig =>
      exact .kept (by simp) dynamicConfig rfl

/-- The latest values are there, or a rejected call has yet to write its version
back. -/
def HeldOrUndone (past : UpdatePast) (pool : UpdatePool NyxConfig) : Prop :=
  HoldsLatest past pool pool.shared.dynamicConfig ∨
    ∃ (index : Nat) (task : UpdateTask NyxConfig),
      pool.tasks[index]? = some task ∧ task.WillUndo

theorem heldOrUndone_resume {mode : OverflowMode} {past : UpdatePast}
    {pool : UpdatePool NyxConfig} {index : Nat} {task : UpdateTask NyxConfig}
    {turn : Turn (ConfigManager NyxConfig) (UpdateTask NyxConfig) UpdateEvent}
    (present : pool.tasks[index]? = some task)
    (continues : Continues mode pool.shared task turn)
    (effect : Effect past pool index task.update.settings task.stage
      turn.shared.dynamicConfig turn.event turn.task.stage)
    (held : HeldOrUndone past pool) (input : Unit) :
    HeldOrUndone (past ++ [(.run index input, some turn.event)])
      (pool.resume index turn) := by
  have sameCalls := isValidCall_resume_iff present continues
  have undone : UndoneByAnother pool index →
      HeldOrUndone (past ++ [(.run index input, some turn.event)])
        (pool.resume index turn) := by
    intro undone
    obtain ⟨other, bystander, different, found, willUndo⟩ := undone
    exact Or.inr ⟨other, bystander,
      Pool.lookup_resume_other different found, willUndo⟩
  have carried : (∀ key value, turn.event ≠ .applied key value) →
      HoldsLatest past pool turn.shared.dynamicConfig →
        HeldOrUndone (past ++ [(.run index input, some turn.event)])
          (pool.resume index turn) := by
    intro noValue holds
    refine Or.inl (?_ : HoldsLatest _ _ _)
    apply (holdsLatest_congr ?_ ?_ _).mpr holds
    · intro position other key value
      exact did_applied_iff noValue
    · intro position other key value _
      exact sameCalls other
  have before : ¬ task.WillUndo →
      HoldsLatest past pool pool.shared.dynamicConfig ∨
        UndoneByAnother pool index := by
    intro undoesNothing
    rcases held with holds | waiting
    · exact Or.inl holds
    · obtain ⟨other, bystander, found, willUndo⟩ := waiting
      by_cases same : other = index
      · subst same
        rw [present] at found
        cases found
        exact absurd willUndo undoesNothing
      · exact Or.inr ⟨other, bystander, same, found, willUndo⟩
  cases effect with
  | willUndo invalid unwritten =>
      refine Or.inr ⟨index, turn.task, Pool.lookup_resume_self present, ?_⟩
      refine ⟨?_, unwritten⟩
      rw [continues.update]
      exact invalid
  | kept noValue same written =>
      have undoesNothing : ¬ task.WillUndo := by
        intro willUndo
        rw [willUndo.2] at written
        cases written
      rcases before undoesNothing with holds | other
      · rw [← same] at holds
        exact carried noValue holds
      · exact undone other
  | set key value setting isSet checked changed valid =>
      rcases before (fun willUndo => willUndo.1 valid) with holds | other
      · refine Or.inl ?_
        rw [isSet, Pool.resume_shared, changed]
        exact holds.apply sameCalls ⟨task, present, valid⟩ checked input
      · exact undone other
  | wroteBack noValue latest =>
      rcases latest with holds | other
      · exact carried noValue holds
      · exact undone other

/-- The invariant of a run. -/
structure Tracked (past : UpdatePast) (pool : UpdatePool NyxConfig) :
    Prop where
  indexed : Indexed past pool
  calls : ∀ index task, pool.tasks[index]? = some task →
    Accounted past index task
  held : HeldOrUndone past pool

theorem tracked_start (manager : ConfigManager NyxConfig) :
    Tracked [] ⟨manager, []⟩ where
  indexed := by
    intro position index event did
    exact absurd did.lt (Nat.not_lt_zero position)
  calls := by
    intro index task present
    cases present
  held := by
    refine Or.inl ?_
    intro position index key value did
    exact absurd did.lt (Nat.not_lt_zero position)

theorem Tracked.quiet {past : UpdatePast} {pool : UpdatePool NyxConfig}
    (tracked : Tracked past pool) (action : Action ConfigUpdate Unit) :
    Tracked (past ++ [(action, none)]) pool where
  indexed := tracked.indexed.quiet action
  calls := by
    intro index task present
    apply (tracked.calls index task present).congr
    intro position event
    exact did_append_none_iff
  held := by
    rcases tracked.held with holds | waiting
    · refine Or.inl ((holdsLatest_congr ?_ ?_ _).mpr holds)
      · intro position index key value
        exact did_append_none_iff
      · intro position index key value _
        exact Iff.rfl
    · exact Or.inr waiting

theorem Tracked.join {past : UpdatePast} {pool : UpdatePool NyxConfig}
    (tracked : Tracked past pool) (update : ConfigUpdate) :
    Tracked (past ++ [(.call update, none)])
      (pool.join ⟨update, .readConfig .preUpdate⟩) where
  indexed := tracked.indexed.join (.call update) _
  calls := by
    intro index task present
    have longer := tracked.quiet (.call update)
    rcases Pool.lookup_join present with old | fresh
    · exact longer.calls index task old
    · obtain ⟨isLast, isNew⟩ := fresh
      subst isNew
      have unused : ∀ position event,
          ¬ Did (past ++ [(.call update, none)]) position index event :=
        longer.indexed.unused (Nat.le_of_eq isLast.symm)
      refine ⟨?_, ?_, ?_⟩
      · intro position key value did
        exact unused position _ did
      · intro position later key value newer did
        exact absurd did (unused position _)
      · intro succeeded
        obtain ⟨position, response, did, -⟩ := succeeded
        exact absurd did (unused position _)
  held := by
    rcases tracked.held with holds | waiting
    · refine Or.inl ((holdsLatest_congr ?_ ?_ _).mpr holds)
      · intro position index key value
        exact did_append_none_iff
      · intro position index key value did
        exact isValidCall_join_iff tracked.indexed _ did
    · obtain ⟨index, task, present, willUndo⟩ := waiting
      exact Or.inr ⟨index, task, Pool.lookup_join_of_lookup present _, willUndo⟩

theorem Tracked.resume {mode : OverflowMode} {past : UpdatePast}
    {pool : UpdatePool NyxConfig} (tracked : Tracked past pool) {index : Nat}
    {task : UpdateTask NyxConfig}
    {turn : Turn (ConfigManager NyxConfig) (UpdateTask NyxConfig) UpdateEvent}
    (present : pool.tasks[index]? = some task)
    (continues : Continues mode pool.shared task turn)
    (keeps : KeepsLatest mode past pool index task.stage) (input : Unit) :
    Tracked (past ++ [(.run index input, some turn.event)])
      (pool.resume index turn) := by
  have accounted := tracked.calls index task present
  have own : Accounted (past ++ [(.run index input, some turn.event)]) index
      turn.task := by
    apply accounted_moves continues accounted
    intro updatedFields config dynamicConfig isPush
    rw [isPush] at keeps
    exact keeps
  refine ⟨tracked.indexed.resume present input turn, ?_, ?_⟩
  · intro other found foundAt
    rcases Pool.lookup_resume foundAt with self | bystander | child
    · rw [self.1, self.2]
      exact own
    · apply (tracked.calls other found bystander.2).congr
      intro position event
      rw [did_append_run_iff]
      constructor
      · intro did
        rcases did with old | new
        · exact old
        · exact absurd new.2.1 bystander.1
      · exact Or.inl
    · rw [continues.alone] at child
      cases child.2
  · have known := own.stage
    rw [continues.update] at known
    have effect := effect_of_moves continues.moves accounted.stage known keeps
    exact heldOrUndone_resume present continues effect tracked.held input

theorem tracked_along (mode : OverflowMode)
    (manager : ConfigManager NyxConfig)
    (actions : List (Action ConfigUpdate Unit))
    (along : Trace.AlongPast (perform (updateProgram mode))
      (WritesBackLatest mode) [] ⟨manager, []⟩ actions) :
    Tracked (Trace.history (perform (updateProgram mode)) ⟨manager, []⟩ actions)
      (Trace.final (perform (updateProgram mode)) ⟨manager, []⟩ actions) := by
  refine invariant_along Tracked (tracked_start manager) ?_ ?_ ?_ actions along
  · intro past pool index input tracked
    exact tracked.quiet (.run index input)
  · intro past pool update _ tracked
    exact tracked.join update
  · intro past pool index input task turn keeps present taken tracked
    have step : updateTurn mode pool.shared task input = some turn := taken
    exact tracked.resume present (updateTurn_continues step)
      (keeps task present) input

/-- The call has returned, or an overflow has aborted it. -/
def Stage.finished : Stage NyxConfig → Bool
  | .returned _ | .aborted => true
  | _ => false

theorem written_of_finished {stage : Stage NyxConfig}
    (finished : stage.finished = true) : stage.unwritten = false := by
  cases stage with
  | returned response => rfl
  | aborted => rfl
  | _ => cases finished

theorem Tracked.noLostUpdate {past : UpdatePast} {pool : UpdatePool NyxConfig}
    (tracked : Tracked past pool)
    (finished : ∀ task ∈ pool.tasks, task.stage.finished = true) :
    NoLostUpdate past pool.shared.dynamicConfig := by
  have latest : HoldsLatest past pool pool.shared.dynamicConfig := by
    rcases tracked.held with holds | waiting
    · exact holds
    · obtain ⟨index, task, present, -, unwritten⟩ := waiting
      have through := finished task (List.mem_of_getElem? present)
      rw [written_of_finished through] at unwritten
      cases unwritten
  intro position index key value did succeeded alone
  have early := tracked.indexed position index _ did
  have accounted := tracked.calls index _ (List.getElem?_eq_getElem early)
  apply latest position index key value did
  · exact ⟨_, List.getElem?_eq_getElem early, accounted.valid succeeded⟩
  · intro later other newer isLater overwrote isValid
    obtain ⟨task, present, valid⟩ := isValid
    by_cases same : other = index
    · subst same
      have twice := accounted.once position later key value newer did overwrote
      omega
    · apply alone later other newer isLater same overwrote
      have known := (tracked.calls other task present).stage
      have through := finished task (List.mem_of_getElem? present)
      generalize task.stage = stage at known through
      cases stage with
      | returned response => exact known valid
      | aborted => exact absurd overwrote (known later key newer)
      | _ => cases through

theorem no_lost_update (mode : OverflowMode) (manager : ConfigManager NyxConfig)
    (actions : List (Action ConfigUpdate Unit))
    (along : Trace.AlongPast (perform (updateProgram mode))
      (WritesBackLatest mode) [] ⟨manager, []⟩ actions) :
    let past := Trace.history (perform (updateProgram mode)) ⟨manager, []⟩
      actions
    let pool := Trace.final (perform (updateProgram mode)) ⟨manager, []⟩ actions
    (∀ task ∈ pool.tasks, task.stage.finished = true) →
      NoLostUpdate past pool.shared.dynamicConfig :=
  (tracked_along mode manager actions along).noLostUpdate

/-- A level that is set. -/
def levelUpdate : ConfigUpdate where
  settings := [("log_level", "debug")]
  distinct := by decide

/-- An update that is rejected. -/
def invalidUpdate : ConfigUpdate where
  settings := [("max_streams", "0")]
  distinct := by decide

/-- The values that were set, with their calls. -/
def valuesSet (past : UpdatePast) : List (Nat × String × String) :=
  past.filterMap fun
    | (.run index _, some (.applied key value)) => some (index, key, value)
    | _ => none

theorem mem_valuesSet {past : UpdatePast} {position index : Nat}
    {key value : String} (did : Did past position index (.applied key value)) :
    (index, key, value) ∈ valuesSet past := by
  obtain ⟨input, entry⟩ := did
  exact List.mem_filterMap.mpr ⟨_, List.mem_of_getElem? entry, rfl⟩

/-- A number of steps of one call. -/
def steps (index count : Nat) : List (Action ConfigUpdate Unit) :=
  List.replicate count (.run index ())

/-- The level is set, and a rejected update comes up to its rollback. -/
def updatesInTurn : List (Action ConfigUpdate Unit) :=
  [.call levelUpdate] ++ steps 0 7 ++ [.call invalidUpdate] ++ steps 1 6

/-- No step writes back a configuration, misses a version or overflows. -/
def isPlain (mode : OverflowMode) (pool : UpdatePool NyxConfig) :
    Action ConfigUpdate Unit → Bool
  | .call _ => true
  | .run index _ =>
      match pool.tasks[index]?.map UpdateTask.stage with
      | some (.findVersion locals) =>
          (pool.shared.findVersion locals.backupVersion).isSome
      | some (.pushVersion (.updated _) _ _) =>
          (mode.add pool.shared.currentVersion 1).isSome
      | some (.writeDynamicConfig ..) => false
      | _ => true

theorem writesBackLatest_of_isPlain {mode : OverflowMode} {past : UpdatePast}
    {pool : UpdatePool NyxConfig} {action : Action ConfigUpdate Unit}
    (plain : isPlain mode pool action = true) :
    WritesBackLatest mode past pool action := by
  cases action with
  | call update => trivial
  | run index input =>
      intro task present
      simp only [isPlain, present, Option.map_some] at plain
      cases current : task.stage with
      | findVersion locals =>
          intro gone
          simp [current, gone] at plain
      | pushVersion purpose config dynamicConfig =>
          cases purpose with
          | preUpdate => trivial
          | updated updatedFields =>
              intro overflow
              simp [current, overflow] at plain
      | writeDynamicConfig locals version => simp [current] at plain
      | _ => trivial

theorem writesBackLatest_along (mode : OverflowMode) {past : UpdatePast}
    {pool : UpdatePool NyxConfig} {actions : List (Action ConfigUpdate Unit)}
    (plain : Trace.Along (perform (updateProgram mode))
      (fun pool action => isPlain mode pool action = true) pool actions) :
    Trace.AlongPast (perform (updateProgram mode)) (WritesBackLatest mode) past
      pool actions := by
  have alongPast := (Trace.along_iff_alongPast _ _ past _ _).mp plain
  apply Trace.AlongPast.mono _ alongPast
  intro past pool action isPlain
  exact writesBackLatest_of_isPlain isPlain

theorem no_lost_update_level :
    let actions := updatesInTurn ++ ([.run 1 ()] ++ steps 1 1)
    let past := Trace.history (perform (updateProgram .checked))
      ⟨.new () none, []⟩ actions
    let pool := Trace.final (perform (updateProgram .checked))
      ⟨.new () none, []⟩ actions
    NoLostUpdate past pool.shared.dynamicConfig := by
  intro actions past pool
  have along : Trace.AlongPast (perform (updateProgram .checked))
      (WritesBackLatest .checked) [] ⟨.new () none, []⟩ actions := by
    rw [Trace.alongPast_append, Trace.alongPast_append]
    refine ⟨writesBackLatest_along .checked (by decide +kernel),
      ⟨?_, trivial⟩, writesBackLatest_along .checked (by decide +kernel)⟩
    have isWrite : (Trace.final (perform (updateProgram .checked))
        ⟨.new () none, []⟩ updatesInTurn).tasks[1]?.map UpdateTask.stage =
          some (.writeDynamicConfig
            ⟨4, [], ["max_streams: max_streams must be between 1 and 100000"]⟩
            ⟨4, (), { DynamicConfig.initial with logLevel := some "debug" },
              "Pre-update backup"⟩) := by
      decide +kernel
    have onlyLevel : valuesSet (Trace.history (perform (updateProgram .checked))
        ⟨.new () none, []⟩ updatesInTurn) = [(0, "log_level", "debug")] := by
      decide +kernel
    intro task present
    rw [present] at isWrite
    rw [Option.some.inj isWrite]
    refine Or.inl ?_
    intro position index key value did _ _
    have member := mem_valuesSet did
    rw [List.nil_append, onlyLevel] at member
    cases List.mem_singleton.mp member
    exact ⟨.logLevel "debug", rfl, rfl⟩
  exact no_lost_update .checked (.new () none) actions along (by decide +kernel)

/-- The level is set between the backup of the rejected update and its
rollback. -/
def overlappingUpdates : List (Action ConfigUpdate Unit) :=
  [.call invalidUpdate, .call levelUpdate] ++ steps 0 3 ++ steps 1 7 ++
    steps 0 5

theorem level_lost :
    let past := Trace.history (perform (updateProgram .checked))
      ⟨.new () none, []⟩ overlappingUpdates
    let pool := Trace.final (perform (updateProgram .checked))
      ⟨.new () none, []⟩ overlappingUpdates
    (∀ task ∈ pool.tasks, task.stage.finished = true) ∧
      pool.shared.dynamicConfig.logLevel = none ∧
      ¬ NoLostUpdate past pool.shared.dynamicConfig := by
  intro past pool
  have level : pool.shared.dynamicConfig.logLevel = none := by
    decide +kernel
  refine ⟨by decide +kernel, level, ?_⟩
  intro noLostUpdate
  have onlyOne : valuesSet past = [(1, "log_level", "debug")] := by
    decide +kernel
  have set : Did past 8 1 (.applied "log_level" "debug") :=
    ⟨(), by decide +kernel⟩
  have succeeded : Succeeded past 1 :=
    ⟨11, ⟨true, "Updated 1 settings", []⟩, ⟨(), by decide +kernel⟩, rfl⟩
  have holds : Holds pool.shared.dynamicConfig "log_level" "debug" := by
    apply noLostUpdate 8 1 "log_level" "debug" set succeeded
    intro later other newer _ different did
    have member := mem_valuesSet did
    rw [onlyOne] at member
    cases List.mem_singleton.mp member
    exact absurd rfl different
  obtain ⟨setting, checked, same⟩ := holds
  have debug : setting = .logLevel "debug" := by
    have known : validateSetting "log_level" "debug" =
        .ok (.logLevel "debug") := rfl
    rw [known] at checked
    cases checked
    rfl
  rw [debug] at same
  have some := congrArg DynamicConfig.logLevel same
  rw [level] at some
  cases some

end NyxNet.Config
