import Mathlib.Logic.Function.Basic
import Mathlib.Tactic.Common

/-!
# Values in custody

Values are stored under keys, later taken out and used.  Each time a value is
stored a receipt is made out; it counts how often the value was used since.
Storing a value under a key whose value is still waiting loses that value: its
receipt never gets its use.
-/

namespace Custody

variable {κ α : Type*} [DecidableEq κ]

structure Receipt (α : Type*) where
  value : α
  uses : Nat
  deriving DecidableEq

/-- The last receipt of every key, and all those before. -/
structure Receipts (κ α : Type*) where
  current : κ → Option (Receipt α)
  superseded : List (Receipt α)

namespace Receipts

def none : Receipts κ α where
  current := fun _ => .none
  superseded := []

def store (receipts : Receipts κ α) (key : κ) (value : α) : Receipts κ α where
  current := Function.update receipts.current key (some ⟨value, 0⟩)
  superseded := (receipts.current key).toList ++ receipts.superseded

def use (receipts : Receipts κ α) (key : κ) : Receipts κ α :=
  { receipts with
    current := Function.update receipts.current key
      ((receipts.current key).map fun receipt =>
        { receipt with uses := receipt.uses + 1 }) }

/-- The receipt was made out at some time. -/
def Issued (receipts : Receipts κ α) (receipt : Receipt α) : Prop :=
  receipt ∈ receipts.superseded ∨ ∃ key, receipts.current key = some receipt

end Receipts

/-- Where the values are: stored, or taken out and about to be used. -/
structure Keeper (κ α : Type*) where
  held : κ → Option α
  hand : Option (κ × α)
  receipts : Receipts κ α

/-- Values are meant to be used when `wanted`, and can be as long as they are
not `spent`. -/
structure Purpose (α : Type*) where
  wanted : α → Bool
  spent : α → Bool

def Purpose.due (purpose : Purpose α) (value : α) : Bool :=
  purpose.wanted value && !purpose.spent value

def Purpose.Alike (purpose : Purpose α) (left right : α) : Prop :=
  purpose.wanted left = purpose.wanted right ∧
    purpose.spent left = purpose.spent right

theorem Purpose.Alike.due_eq {purpose : Purpose α} {left right : α}
    (alike : purpose.Alike left right) :
    purpose.due left = purpose.due right := by
  rw [due, due, alike.1, alike.2]

variable {purpose : Purpose α}

namespace Keeper

def without (keeper : Keeper κ α) (key : κ) : κ → Option α :=
  Function.update keeper.held key none

/-- What may happen to the values.  The label says what was stored. -/
inductive Move (purpose : Purpose α) (keeper : Keeper κ α) :
    Option (κ × α) → Keeper κ α → Prop where
  | store (key : κ) (value : α) (free : keeper.hand = none) :
      Move purpose keeper (some (key, value))
        { held := Function.update keeper.held key (some value)
          hand := none
          receipts := keeper.receipts.store key value }
  | change (key : κ) (old new : α) (found : keeper.held key = some old)
      (alike : purpose.Alike old new) :
      Move purpose keeper none
        { keeper with held := Function.update keeper.held key (some new) }
  | take (key : κ) (value : α) (found : keeper.held key = some value)
      (free : keeper.hand = none) :
      Move purpose keeper none
        { keeper with held := keeper.without key, hand := some (key, value) }
  | discard (key : κ) (value : α) (found : keeper.held key = some value)
      (notDue : purpose.due value = false) :
      Move purpose keeper none { keeper with held := keeper.without key }
  | release (key : κ) (value : α) (found : keeper.held key = some value)
      (due : purpose.due value = true) :
      Move purpose keeper none
        { keeper with
          held := keeper.without key
          receipts := keeper.receipts.use key }
  | use (key : κ) (value : α) (inHand : keeper.hand = some (key, value))
      (due : purpose.due value = true) :
      Move purpose keeper none
        { keeper with hand := none, receipts := keeper.receipts.use key }
  | letGo (key : κ) (value : α) (inHand : keeper.hand = some (key, value))
      (notDue : purpose.due value = false) :
      Move purpose keeper none { keeper with hand := none }
  | stay : Move purpose keeper none keeper

/-- A value that is stored or in hand has a receipt without a use; the last
receipt of any other key has been used once if the value was due. -/
structure Tracked (purpose : Purpose α) (keeper : Keeper κ α) : Prop where
  stored : ∀ key value, keeper.held key = some value →
    ∃ original, keeper.receipts.current key = some ⟨original, 0⟩ ∧
      purpose.Alike original value
  inHand : ∀ key value, keeper.hand = some (key, value) →
    keeper.held key = none ∧
      ∃ original, keeper.receipts.current key = some ⟨original, 0⟩ ∧
        purpose.Alike original value
  settled : ∀ key receipt, keeper.receipts.current key = some receipt →
    keeper.held key = none → (∀ value, keeper.hand ≠ some (key, value)) →
      receipt.uses = if purpose.due receipt.value then 1 else 0

/-- So far no value has missed its use: the old receipts have one each, and
no value came in spent. -/
structure Sound (purpose : Purpose α) (receipts : Receipts κ α) : Prop where
  superseded : ∀ receipt ∈ receipts.superseded,
    purpose.wanted receipt.value = true → receipt.uses = 1
  current : ∀ key receipt, receipts.current key = some receipt →
    purpose.wanted receipt.value = true → purpose.spent receipt.value = false

/-- Every value that is meant to be used has been used exactly once. -/
def UsedOnce (purpose : Purpose α) (receipts : Receipts κ α) : Prop :=
  ∀ receipt, receipts.Issued receipt → purpose.wanted receipt.value = true →
    receipt.uses = 1

/-- Storing the value loses nothing, and the value can be used. -/
def Allowed (purpose : Purpose α) (keeper : Keeper κ α) (key : κ)
    (value : α) : Prop :=
  (∀ old, keeper.held key = some old → purpose.due old = false) ∧
    (purpose.wanted value = true → purpose.spent value = false)

theorem current_store_of_ne (receipts : Receipts κ α) {key other : κ}
    (different : other ≠ key) (value : α) :
    (receipts.store key value).current other = receipts.current other :=
  Function.update_of_ne different _ _

theorem current_use_self {receipts : Receipts κ α} {key : κ} {value : α}
    {uses : Nat} (issued : receipts.current key = some ⟨value, uses⟩) :
    (receipts.use key).current key = some ⟨value, uses + 1⟩ := by
  simp only [Receipts.use, Function.update_self, issued, Option.map_some]

theorem current_use_of_ne (receipts : Receipts κ α) {key other : κ}
    (different : other ≠ key) :
    (receipts.use key).current other = receipts.current other :=
  Function.update_of_ne different _ _

theorem of_update {held : κ → Option α} {key other : κ} {value found : α}
    (holds : Function.update held key (some value) other = some found) :
    other = key ∧ found = value ∨ other ≠ key ∧ held other = some found := by
  by_cases same : other = key
  · subst same
    rw [Function.update_self] at holds
    exact Or.inl ⟨rfl, (Option.some.inj holds).symm⟩
  · rw [Function.update_of_ne same] at holds
    exact Or.inr ⟨same, holds⟩

theorem absent_of_update {held : κ → Option α} {key other : κ} {value : α}
    (absent : Function.update held key (some value) other = none) :
    other ≠ key ∧ held other = none := by
  by_cases same : other = key
  · subst same
    rw [Function.update_self] at absent
    cases absent
  · rw [Function.update_of_ne same] at absent
    exact ⟨same, absent⟩

theorem of_without {keeper : Keeper κ α} {key other : κ} {value : α}
    (found : keeper.without key other = some value) :
    other ≠ key ∧ keeper.held other = some value := by
  by_cases same : other = key
  · subst same
    rw [without, Function.update_self] at found
    cases found
  · rw [without, Function.update_of_ne same] at found
    exact ⟨same, found⟩

theorem without_of_ne (keeper : Keeper κ α) {key other : κ}
    (different : other ≠ key) : keeper.without key other = keeper.held other :=
  Function.update_of_ne different _ _

theorem without_of_none {keeper : Keeper κ α} {other : κ}
    (absent : keeper.held other = none) (key : κ) :
    keeper.without key other = none := by
  by_cases same : other = key
  · subst same
    exact Function.update_self _ _ _
  · rw [keeper.without_of_ne same, absent]

namespace Tracked

variable {keeper : Keeper κ α}

omit [DecidableEq κ] in
theorem uses_of_stored (tracked : Tracked purpose keeper) {key : κ}
    {value : α} {receipt : Receipt α} (found : keeper.held key = some value)
    (issued : keeper.receipts.current key = some receipt) :
    receipt.uses = 0 ∧ purpose.due receipt.value = purpose.due value := by
  obtain ⟨original, current, alike⟩ := tracked.stored key value found
  rw [← Option.some.inj (current.symm.trans issued)]
  exact ⟨rfl, alike.due_eq⟩

omit [DecidableEq κ] in
theorem ne_of_inHand (tracked : Tracked purpose keeper) {key other : κ}
    {value held : α} (inHand : keeper.hand = some (key, value))
    (found : keeper.held other = some held) : other ≠ key := by
  intro same
  subst same
  rw [(tracked.inHand other value inHand).1] at found
  cases found

theorem store (tracked : Tracked purpose keeper) (key : κ) (value : α)
    (free : keeper.hand = none) :
    Tracked purpose
      { held := Function.update keeper.held key (some value)
        hand := none
        receipts := keeper.receipts.store key value } where
  stored := by
    intro other held found
    rcases of_update found with replaced | kept
    · rw [replaced.1, replaced.2]
      exact ⟨value, Function.update_self _ _ _, rfl, rfl⟩
    · rw [current_store_of_ne _ kept.1]
      exact tracked.stored other held kept.2
  inHand := by
    intro other held inHand
    cases inHand
  settled := by
    intro other receipt issued absent _
    obtain ⟨different, absentBefore⟩ := absent_of_update absent
    rw [current_store_of_ne _ different] at issued
    refine tracked.settled other receipt issued absentBefore ?_
    intro held inHand
    rw [free] at inHand
    cases inHand

theorem change (tracked : Tracked purpose keeper) {key : κ} {old new : α}
    (found : keeper.held key = some old) (alike : purpose.Alike old new) :
    Tracked purpose
      { keeper with held := Function.update keeper.held key (some new) } where
  stored := by
    intro other held holds
    rcases of_update holds with replaced | kept
    · obtain ⟨original, issued, before⟩ := tracked.stored key old found
      rw [replaced.1, replaced.2]
      exact ⟨original, issued, before.1.trans alike.1,
        before.2.trans alike.2⟩
    · exact tracked.stored other held kept.2
  inHand := by
    intro other held inHand
    obtain ⟨absent, issued⟩ := tracked.inHand other held inHand
    have different := (tracked.ne_of_inHand inHand found).symm
    exact ⟨(Function.update_of_ne different _ _).trans absent, issued⟩
  settled := by
    intro other receipt issued absent
    exact tracked.settled other receipt issued (absent_of_update absent).2

theorem take (tracked : Tracked purpose keeper) {key : κ} {value : α}
    (found : keeper.held key = some value) (free : keeper.hand = none) :
    Tracked purpose
      { keeper with
        held := keeper.without key, hand := some (key, value) } where
  stored := by
    intro other held holds
    exact tracked.stored other held (of_without holds).2
  inHand := by
    intro other held inHand
    cases inHand
    exact ⟨Function.update_self _ _ _, tracked.stored key value found⟩
  settled := by
    intro other receipt issued absent notInHand
    have different : other ≠ key := by
      intro same
      subst same
      exact notInHand value rfl
    refine tracked.settled other receipt issued
      ((keeper.without_of_ne different).symm.trans absent) ?_
    intro held inHand
    rw [free] at inHand
    cases inHand

theorem discard (tracked : Tracked purpose keeper) {key : κ} {value : α}
    (found : keeper.held key = some value)
    (notDue : purpose.due value = false) :
    Tracked purpose { keeper with held := keeper.without key } where
  stored := by
    intro other held holds
    exact tracked.stored other held (of_without holds).2
  inHand := by
    intro other held inHand
    obtain ⟨absent, issued⟩ := tracked.inHand other held inHand
    exact ⟨without_of_none absent key, issued⟩
  settled := by
    intro other receipt issued absent notInHand
    by_cases same : other = key
    · subst same
      obtain ⟨unused, sameDue⟩ := tracked.uses_of_stored found issued
      rw [unused, sameDue, notDue]
      rfl
    · exact tracked.settled other receipt issued
        ((keeper.without_of_ne same).symm.trans absent) notInHand

theorem release (tracked : Tracked purpose keeper) {key : κ} {value : α}
    (found : keeper.held key = some value)
    (due : purpose.due value = true) :
    Tracked purpose
      { keeper with
        held := keeper.without key
        receipts := keeper.receipts.use key } where
  stored := by
    intro other held holds
    obtain ⟨different, holdsBefore⟩ := of_without holds
    rw [current_use_of_ne _ different]
    exact tracked.stored other held holdsBefore
  inHand := by
    intro other held inHand
    obtain ⟨absent, issued⟩ := tracked.inHand other held inHand
    have different := (tracked.ne_of_inHand inHand found).symm
    rw [current_use_of_ne _ different]
    exact ⟨without_of_none absent key, issued⟩
  settled := by
    intro other receipt issued absent notInHand
    by_cases same : other = key
    · subst same
      obtain ⟨original, before, alike⟩ := tracked.stored other value found
      rw [current_use_self before] at issued
      cases Option.some.inj issued
      rw [alike.due_eq, due]
      rfl
    · rw [current_use_of_ne _ same] at issued
      exact tracked.settled other receipt issued
        ((keeper.without_of_ne same).symm.trans absent) notInHand

theorem use (tracked : Tracked purpose keeper) {key : κ} {value : α}
    (inHand : keeper.hand = some (key, value))
    (due : purpose.due value = true) :
    Tracked purpose
      { keeper with
        hand := none, receipts := keeper.receipts.use key } where
  stored := by
    intro other held holds
    rw [current_use_of_ne _ (tracked.ne_of_inHand inHand holds)]
    exact tracked.stored other held holds
  inHand := by
    intro other held later
    cases later
  settled := by
    intro other receipt issued absent _
    by_cases same : other = key
    · subst same
      obtain ⟨_, original, before, alike⟩ := tracked.inHand other value inHand
      rw [current_use_self before] at issued
      cases Option.some.inj issued
      rw [alike.due_eq, due]
      rfl
    · rw [current_use_of_ne _ same] at issued
      refine tracked.settled other receipt issued absent ?_
      intro held alsoInHand
      cases Option.some.inj (inHand.symm.trans alsoInHand)
      exact same rfl

theorem letGo (tracked : Tracked purpose keeper) {key : κ} {value : α}
    (inHand : keeper.hand = some (key, value))
    (notDue : purpose.due value = false) :
    Tracked purpose { keeper with hand := none } where
  stored := tracked.stored
  inHand := by
    intro other held later
    cases later
  settled := by
    intro other receipt issued absent _
    by_cases same : other = key
    · subst same
      obtain ⟨_, original, before, alike⟩ := tracked.inHand other value inHand
      cases Option.some.inj (before.symm.trans issued)
      rw [alike.due_eq, notDue]
      rfl
    · refine tracked.settled other receipt issued absent ?_
      intro held alsoInHand
      cases Option.some.inj (inHand.symm.trans alsoInHand)
      exact same rfl

theorem move (tracked : Tracked purpose keeper) {label : Option (κ × α)}
    {after : Keeper κ α} (move : Move purpose keeper label after) :
    Tracked purpose after := by
  cases move with
  | store key value free => exact tracked.store key value free
  | change key old new found alike => exact tracked.change found alike
  | take key value found free => exact tracked.take found free
  | discard key value found notDue => exact tracked.discard found notDue
  | release key value found due => exact tracked.release found due
  | use key value inHand due => exact tracked.use inHand due
  | letGo key value inHand notDue => exact tracked.letGo inHand notDue
  | stay => exact tracked

end Tracked

theorem mem_superseded_store {receipts : Receipts κ α} {key : κ} {value : α}
    {receipt : Receipt α} :
    receipt ∈ (receipts.store key value).superseded ↔
      receipts.current key = some receipt ∨
        receipt ∈ receipts.superseded := by
  rw [Receipts.store, List.mem_append, Option.mem_toList]

omit [DecidableEq κ] in
theorem Tracked.settled_of_free {keeper : Keeper κ α}
    (tracked : Tracked purpose keeper) (free : keeper.hand = none) {key : κ}
    {receipt : Receipt α}
    (issued : keeper.receipts.current key = some receipt)
    (absent : keeper.held key = none) :
    receipt.uses = if purpose.due receipt.value then 1 else 0 := by
  refine tracked.settled key receipt issued absent ?_
  intro held inHand
  rw [free] at inHand
  cases inHand

/-- A value with a receipt that was used once when it was due, and was used
once, is not spent. -/
theorem unspent_of_used {receipt : Receipt α}
    (wanted : purpose.wanted receipt.value = true)
    (settled : receipt.uses = if purpose.due receipt.value then 1 else 0)
    (used : receipt.uses = 1) : purpose.spent receipt.value = false := by
  rw [used] at settled
  split at settled
  · next due =>
      rw [Purpose.due, wanted, Bool.true_and] at due
      simpa using due
  · cases settled

theorem Sound.of_store {keeper : Keeper κ α}
    (tracked : Tracked purpose keeper) (free : keeper.hand = none) {key : κ}
    {value : α} (sound : Sound purpose (keeper.receipts.store key value)) :
    Sound purpose keeper.receipts ∧ Allowed purpose keeper key value := by
  have oldUsed : ∀ receipt, keeper.receipts.current key = some receipt →
      purpose.wanted receipt.value = true → receipt.uses = 1 :=
    fun receipt issued =>
      sound.superseded receipt (mem_superseded_store.mpr (Or.inl issued))
  -- A receipt with a use belongs to a value that is no longer held.
  have gone : ∀ receipt, keeper.receipts.current key = some receipt →
      purpose.wanted receipt.value = true → keeper.held key = none := by
    intro receipt issued wanted
    cases found : keeper.held key with
    | none => rfl
    | some old =>
        have unused := (tracked.uses_of_stored found issued).1
        rw [oldUsed receipt issued wanted] at unused
        cases unused
  refine ⟨⟨?_, ?_⟩, ?_, ?_⟩
  · intro receipt member
    exact sound.superseded receipt (mem_superseded_store.mpr (Or.inr member))
  · intro other receipt issued wanted
    by_cases same : other = key
    · subst same
      exact unspent_of_used wanted
        (tracked.settled_of_free free issued (gone receipt issued wanted))
        (oldUsed receipt issued wanted)
    · exact sound.current other receipt
        ((current_store_of_ne _ same value).trans issued) wanted
  · intro old found
    obtain ⟨original, issued, alike⟩ := tracked.stored key old found
    rw [← alike.due_eq]
    cases wanted : purpose.wanted original with
    | false => rw [Purpose.due, wanted, Bool.false_and]
    | true => cases oldUsed _ issued wanted
  · exact sound.current key _ (Function.update_self _ _ _)

theorem Sound.store {keeper : Keeper κ α} (tracked : Tracked purpose keeper)
    (free : keeper.hand = none) {key : κ} {value : α}
    (sound : Sound purpose keeper.receipts)
    (allowed : Allowed purpose keeper key value) :
    Sound purpose (keeper.receipts.store key value) := by
  obtain ⟨nothingLost, usable⟩ := allowed
  refine ⟨?_, ?_⟩
  · intro receipt member wanted
    rcases mem_superseded_store.mp member with issued | older
    · have due : purpose.due receipt.value = true := by
        rw [Purpose.due, wanted, sound.current key receipt issued wanted]
        rfl
      have absent : keeper.held key = none := by
        cases found : keeper.held key with
        | none => rfl
        | some old =>
            have sameDue := (tracked.uses_of_stored found issued).2
            rw [due, nothingLost old found] at sameDue
            cases sameDue
      rw [tracked.settled_of_free free issued absent, due]
      rfl
    · exact sound.superseded receipt older wanted
  · intro other receipt issued wanted
    by_cases same : other = key
    · subst same
      have isNew : some receipt = some ⟨value, 0⟩ :=
        issued.symm.trans (Function.update_self _ _ _)
      rw [Option.some.inj isNew] at wanted ⊢
      exact usable wanted
    · exact sound.current other receipt
        ((current_store_of_ne _ same value).symm.trans issued) wanted

/-- Storing keeps the receipts sound exactly when nothing that waits is lost
and the value itself can be used. -/
theorem sound_store_iff {keeper : Keeper κ α}
    (tracked : Tracked purpose keeper) (free : keeper.hand = none) (key : κ)
    (value : α) :
    Sound purpose (keeper.receipts.store key value) ↔
      Sound purpose keeper.receipts ∧ Allowed purpose keeper key value := by
  constructor
  · intro sound
    exact Sound.of_store tracked free sound
  · intro both
    exact Sound.store tracked free both.1 both.2

theorem value_current_use (receipts : Receipts κ α) (key other : κ) :
    ((receipts.use key).current other).map Receipt.value =
      (receipts.current other).map Receipt.value := by
  by_cases same : other = key
  · subst same
    simp only [Receipts.use, Function.update_self, Option.map_map]
    rfl
  · rw [current_use_of_ne _ same]

omit [DecidableEq κ] in
theorem Sound.of_values {left right : Receipts κ α}
    (sound : Sound purpose left) (sameOld : left.superseded = right.superseded)
    (sameValues : ∀ key, (left.current key).map Receipt.value =
      (right.current key).map Receipt.value) :
    Sound purpose right := by
  refine ⟨sameOld ▸ sound.superseded, ?_⟩
  intro key receipt issued
  have sameValue := sameValues key
  rw [issued, Option.map_some] at sameValue
  obtain ⟨found, isFound, valueEq⟩ := Option.map_eq_some_iff.mp sameValue
  rw [← valueEq]
  exact sound.current key found isFound

theorem sound_use_iff (receipts : Receipts κ α) (key : κ) :
    Sound purpose (receipts.use key) ↔ Sound purpose receipts := by
  constructor
  · intro sound
    exact sound.of_values rfl (value_current_use receipts key)
  · intro sound
    exact sound.of_values rfl
      (fun other => (value_current_use receipts key other).symm)

theorem sound_move_iff {keeper after : Keeper κ α}
    (tracked : Tracked purpose keeper) {label : Option (κ × α)}
    (move : Move purpose keeper label after) :
    Sound purpose after.receipts ↔
      Sound purpose keeper.receipts ∧
        ∀ stored ∈ label, Allowed purpose keeper stored.1 stored.2 := by
  cases move with
  | store key value free =>
      rw [sound_store_iff tracked free]
      simp
  | release key value found due => simp [sound_use_iff]
  | use key value inHand due => simp [sound_use_iff]
  | change | take | discard | letGo | stay => simp

omit [DecidableEq κ] in
/-- When nothing is stored or in hand any more, the receipts are sound exactly
when every value was used once. -/
theorem usedOnce_iff_sound {keeper : Keeper κ α}
    (tracked : Tracked purpose keeper) (free : keeper.hand = none)
    (empty : ∀ key, keeper.held key = none) :
    UsedOnce purpose keeper.receipts ↔ Sound purpose keeper.receipts := by
  have settled : ∀ key receipt, keeper.receipts.current key = some receipt →
      receipt.uses = if purpose.due receipt.value then 1 else 0 :=
    fun key _ issued => tracked.settled_of_free free issued (empty key)
  constructor
  · intro usedOnce
    refine ⟨fun receipt member => usedOnce receipt (Or.inl member), ?_⟩
    intro key receipt issued wanted
    exact unspent_of_used wanted (settled key receipt issued)
      (usedOnce receipt (Or.inr ⟨key, issued⟩) wanted)
  · intro sound receipt issued wanted
    rcases issued with member | isCurrent
    · exact sound.superseded receipt member wanted
    · obtain ⟨key, isLast⟩ := isCurrent
      rw [settled key receipt isLast, Purpose.due, wanted,
        sound.current key receipt isLast wanted]
      rfl

end Keeper
end Custody
