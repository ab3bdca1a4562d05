import Mathlib.Data.List.Induction
import NyxNet.Lib.ByteParser

/-!
# SETTINGS frames

`StreamSettings` of `nyx-stream/src/settings.rs` and the SETTINGS frame of
`management.rs`: a list of 16-bit ids with 32-bit values, big-endian, one after
the other.
-/

namespace NyxNet.Settings

open ByteParser

structure Setting where
  id : UInt16
  value : UInt32
  deriving DecidableEq, Repr

structure SettingsFrame where
  settings : List Setting
  deriving DecidableEq, Repr

def encodeSetting (setting : Setting) : Bytes :=
  (Bytes.beBytes 2 setting.id.toNat).toList ++
    (Bytes.beBytes 4 setting.value.toNat).toList

/-- `build_settings_frame`. -/
def buildSettingsFrame (settings : List Setting) : Bytes :=
  settings.flatMap encodeSetting

/-- The loop of `parse_settings_frame`: two bytes of id and four of value in
every round. -/
def parseSettings : Bytes → Except ParseError (List Setting)
  | [] => .ok []
  | id0 :: id1 :: value0 :: value1 :: value2 :: value3 :: rest => do
      let settings ← parseSettings rest
      return { id := UInt16.ofNat (Bytes.ofBeBytes [id0, id1])
               value := UInt32.ofNat
                 (Bytes.ofBeBytes [value0, value1, value2, value3]) } ::
        settings
  | [byte] => .error ⟨[byte], .eof⟩
  | _ :: _ :: short => .error ⟨short, .eof⟩

def parseSettingsFrame : Parser SettingsFrame := fun input => do
  let settings ← parseSettings input
  return ([], { settings })

structure StreamSettings where
  maxStreams : UInt32
  maxData : UInt32
  idleTimeout : UInt16
  pqSupported : Bool
  deriving DecidableEq, Repr

namespace StreamSettings

/-- `StreamSettings::default`. -/
def initial : StreamSettings :=
  { maxStreams := 256, maxData := 1048576, idleTimeout := 30,
    pqSupported := false }

/-- One round of `apply`. -/
def applySetting (settings : StreamSettings) (setting : Setting) :
    StreamSettings :=
  if setting.id = 0x01 then { settings with maxStreams := setting.value }
  else if setting.id = 0x02 then { settings with maxData := setting.value }
  else if setting.id = 0x03 then
    { settings with idleTimeout := setting.value.toUInt16 }
  else if setting.id = 0x04 then
    { settings with pqSupported := setting.value != 0 }
  else settings

/-- Apply values from a received SETTINGS frame. -/
def apply (settings : StreamSettings) (frame : SettingsFrame) :
    StreamSettings :=
  frame.settings.foldl applySetting settings

/-- Build a SETTINGS frame representing current config. -/
def toFrame (settings : StreamSettings) : SettingsFrame :=
  { settings :=
      [{ id := 0x01, value := settings.maxStreams },
       { id := 0x02, value := settings.maxData },
       { id := 0x03, value := settings.idleTimeout.toUInt32 },
       { id := 0x04, value := if settings.pqSupported then 1 else 0 }] }

end StreamSettings

theorem parseSettings_encode_append (setting : Setting) (rest : Bytes) :
    parseSettings (encodeSetting setting ++ rest) =
      (parseSettings rest).map (fun settings => setting :: settings) := by
  have idFits : setting.id.toNat < 256 ^ 2 := setting.id.toNat_lt
  have valueFits : setting.value.toNat < 256 ^ 4 := setting.value.toNat_lt
  have idBack := Bytes.ofBeBytes_beBytes idFits
  have valueBack := Bytes.ofBeBytes_beBytes valueFits
  obtain ⟨id0, id1, idBytes⟩ : ∃ id0 id1,
      (Bytes.beBytes 2 setting.id.toNat).toList = [id0, id1] := by
    rw [Bytes.toList_beBytes]
    exact ⟨_, _, rfl⟩
  obtain ⟨value0, value1, value2, value3, valueBytes⟩ :
      ∃ value0 value1 value2 value3,
        (Bytes.beBytes 4 setting.value.toNat).toList =
          [value0, value1, value2, value3] := by
    rw [Bytes.toList_beBytes]
    exact ⟨_, _, _, _, rfl⟩
  rw [idBytes] at idBack
  rw [valueBytes] at valueBack
  rw [encodeSetting, idBytes, valueBytes]
  simp only [List.cons_append, List.nil_append]
  rw [parseSettings, idBack, valueBack, UInt16.ofNat_toNat,
    UInt32.ofNat_toNat]
  cases parseSettings rest with
  | error error => rfl
  | ok settings => rfl

theorem parseSettingsFrame_build (settings : List Setting) :
    parseSettingsFrame (buildSettingsFrame settings) =
      .ok ([], { settings }) := by
  have parsed : parseSettings (buildSettingsFrame settings) = .ok settings := by
    induction settings with
    | nil => rfl
    | cons setting settings ih =>
        rw [buildSettingsFrame, List.flatMap_cons, parseSettings_encode_append]
        rw [buildSettingsFrame] at ih
        rw [ih]
        rfl
  rw [parseSettingsFrame, parsed]
  rfl

/-- The bytes are a SETTINGS frame that sets every value, to these. -/
def Encodes (bytes : Bytes) (settings : StreamSettings) : Prop :=
  ∃ rest frame, parseSettingsFrame bytes = .ok (rest, frame) ∧
    ∀ old : StreamSettings, old.apply frame = settings

theorem Encodes.unique {bytes : Bytes} {left right : StreamSettings}
    (encodesLeft : Encodes bytes left) (encodesRight : Encodes bytes right) :
    left = right := by
  obtain ⟨_, frame, parsed, applied⟩ := encodesLeft
  obtain ⟨_, other, parsedAgain, appliedAgain⟩ := encodesRight
  have same : frame = other :=
    congrArg Prod.snd (Except.ok.inj (parsed.symm.trans parsedAgain))
  rw [← applied left, ← appliedAgain left, same]

theorem apply_toFrame (old settings : StreamSettings) :
    old.apply settings.toFrame = settings := by
  obtain ⟨maxStreams, maxData, idleTimeout, pqSupported⟩ := settings
  cases pqSupported with
  | false => simp [StreamSettings.apply, StreamSettings.toFrame,
      StreamSettings.applySetting]
  | true => simp [StreamSettings.apply, StreamSettings.toFrame,
      StreamSettings.applySetting]

theorem encodes_build (settings : StreamSettings) :
    Encodes (buildSettingsFrame settings.toFrame.settings) settings :=
  ⟨[], settings.toFrame, parseSettingsFrame_build _, fun old =>
    apply_toFrame old settings⟩

/-- Six bytes are the encoding of what a round reads off them. -/
theorem encodeSetting_of_bytes (id0 id1 value0 value1 value2 value3 : UInt8) :
    encodeSetting
        { id := UInt16.ofNat (Bytes.ofBeBytes [id0, id1])
          value := UInt32.ofNat
            (Bytes.ofBeBytes [value0, value1, value2, value3]) } =
      [id0, id1, value0, value1, value2, value3] := by
  have idFits : Bytes.ofBeBytes [id0, id1] < 256 ^ 2 :=
    Bytes.ofBeBytes_lt [id0, id1]
  have valueFits :
      Bytes.ofBeBytes [value0, value1, value2, value3] < 256 ^ 4 :=
    Bytes.ofBeBytes_lt [value0, value1, value2, value3]
  have idBytes : (Bytes.beBytes 2 (Bytes.ofBeBytes [id0, id1])).toList =
      [id0, id1] := Bytes.beBytes_ofBeBytes [id0, id1]
  have valueBytes :
      (Bytes.beBytes 4
        (Bytes.ofBeBytes [value0, value1, value2, value3])).toList =
          [value0, value1, value2, value3] :=
    Bytes.beBytes_ofBeBytes [value0, value1, value2, value3]
  rw [encodeSetting, UInt16.toNat_ofNat_of_lt' idFits,
    UInt32.toNat_ofNat_of_lt' valueFits, idBytes, valueBytes]
  rfl

/-- The loop accepts the built frames only. -/
theorem build_of_parseSettings {input : Bytes} {settings : List Setting}
    (parsed : parseSettings input = .ok settings) :
    buildSettingsFrame settings = input := by
  induction input using parseSettings.induct generalizing settings with
  | case1 =>
      cases parsed
      rfl
  | case2 id0 id1 value0 value1 value2 value3 rest ih =>
      rw [parseSettings, bind_eq_ok_iff] at parsed
      obtain ⟨later, parsedRest, ⟨⟩⟩ := parsed
      have back := ih parsedRest
      rw [buildSettingsFrame] at back
      rw [buildSettingsFrame, List.flatMap_cons, back, encodeSetting_of_bytes]
      rfl
  | case3 byte => cases parsed
  | case4 first second short incomplete =>
      rw [parseSettings.eq_4 _ _ _ incomplete] at parsed
      cases parsed

theorem length_encodeSetting (setting : Setting) :
    (encodeSetting setting).length = 6 := by
  rw [encodeSetting, List.length_append, Vector.length_toList,
    Vector.length_toList]

theorem length_buildSettingsFrame (settings : List Setting) :
    (buildSettingsFrame settings).length = 6 * settings.length := by
  induction settings with
  | nil => rfl
  | cons setting settings ih =>
      rw [buildSettingsFrame] at ih
      rw [buildSettingsFrame, List.flatMap_cons, List.length_append, ih,
        length_encodeSetting, List.length_cons]
      omega

theorem parseSettings_of_length {input : Bytes}
    (whole : input.length % 6 = 0) :
    ∃ settings, parseSettings input = .ok settings := by
  induction input using parseSettings.induct with
  | case1 => exact ⟨[], rfl⟩
  | case2 id0 id1 value0 value1 value2 value3 rest ih =>
      simp only [List.length_cons] at whole
      obtain ⟨settings, parsed⟩ := ih (by omega)
      rw [parseSettings, parsed]
      exact ⟨_, rfl⟩
  | case3 byte => cases whole
  | case4 first second short incomplete =>
      rcases short with
        _ | ⟨value0, _ | ⟨value1, _ | ⟨value2, _ | ⟨value3, rest⟩⟩⟩⟩
      · cases whole
      · cases whole
      · cases whole
      · cases whole
      · exact (incomplete value0 value1 value2 value3 rest rfl).elim

theorem parseSettingsFrame_eq_ok_iff {input rest : Bytes}
    {frame : SettingsFrame} :
    parseSettingsFrame input = .ok (rest, frame) ↔
      rest = [] ∧ input = buildSettingsFrame frame.settings := by
  constructor
  · intro accepted
    rw [parseSettingsFrame, bind_eq_ok_iff] at accepted
    obtain ⟨settings, parsed, ⟨⟩⟩ := accepted
    exact ⟨rfl, (build_of_parseSettings parsed).symm⟩
  · intro facts
    obtain ⟨rfl, rfl⟩ := facts
    exact parseSettingsFrame_build frame.settings

theorem parseSettingsFrame_accepts_iff {input : Bytes} :
    (∃ rest frame, parseSettingsFrame input = .ok (rest, frame)) ↔
      input.length % 6 = 0 := by
  constructor
  · intro accepted
    obtain ⟨rest, frame, parsed⟩ := accepted
    obtain ⟨-, rfl⟩ := parseSettingsFrame_eq_ok_iff.mp parsed
    rw [length_buildSettingsFrame]
    exact Nat.mul_mod_right 6 _
  · intro whole
    obtain ⟨settings, parsed⟩ := parseSettings_of_length whole
    refine ⟨[], { settings }, parseSettingsFrame_eq_ok_iff.mpr ⟨rfl, ?_⟩⟩
    exact (build_of_parseSettings parsed).symm

/-- The value of the last occurrence of an id. -/
def lastValue (id : UInt16) (settings : List Setting) : Option UInt32 :=
  (settings.reverse.find? (fun setting => setting.id = id)).map Setting.value

theorem lastValue_concat (id : UInt16) (settings : List Setting)
    (setting : Setting) :
    lastValue id (settings ++ [setting]) =
      if setting.id = id then some setting.value
      else lastValue id settings := by
  rw [lastValue, List.reverse_append, List.reverse_singleton,
    List.singleton_append, List.find?_cons]
  by_cases same : setting.id = id
  · simp only [same, decide_true, if_true, Option.map_some]
  · simp only [same, decide_false, if_false, lastValue]

/-- `apply` field by field: the last occurrence wins, cut to the field. -/
theorem apply_eq (old : StreamSettings) (settings : List Setting) :
    old.apply { settings } =
      { maxStreams := (lastValue 0x01 settings).getD old.maxStreams
        maxData := (lastValue 0x02 settings).getD old.maxData
        idleTimeout :=
          ((lastValue 0x03 settings).map UInt32.toUInt16).getD old.idleTimeout
        pqSupported :=
          ((lastValue 0x04 settings).map (fun value => value != 0)).getD
            old.pqSupported } := by
  induction settings using List.reverseRecOn with
  | nil => rfl
  | append_singleton settings setting ih =>
      have last : old.apply { settings := settings ++ [setting] } =
          (old.apply { settings }).applySetting setting := by
        simp only [StreamSettings.apply, List.foldl_append, List.foldl_cons,
          List.foldl_nil]
      rw [last, ih, StreamSettings.applySetting]
      simp only [lastValue_concat]
      by_cases first : setting.id = 0x01
      · simp [first]
      · by_cases second : setting.id = 0x02
        · simp [second]
        · by_cases third : setting.id = 0x03
          · simp [third]
          · by_cases fourth : setting.id = 0x04
            · simp [fourth]
            · simp [first, second, third, fourth]

/-- Every known id has got the value of its last occurrence, as a number; an id
that does not occur keeps its value.  A flag is on when the value is not 0. -/
structure Applied (old : StreamSettings) (settings : List Setting)
    (new : StreamSettings) : Prop where
  maxStreams : new.maxStreams.toNat =
    ((lastValue 0x01 settings).map UInt32.toNat).getD old.maxStreams.toNat
  maxData : new.maxData.toNat =
    ((lastValue 0x02 settings).map UInt32.toNat).getD old.maxData.toNat
  idleTimeout : new.idleTimeout.toNat =
    ((lastValue 0x03 settings).map UInt32.toNat).getD old.idleTimeout.toNat
  pqSupported : new.pqSupported = true ↔
    ((lastValue 0x04 settings).map (fun value => value ≠ 0)).getD
      (old.pqSupported = true)

theorem toNat_getD (value : Option UInt32) (old : UInt32) :
    (value.getD old).toNat = (value.map UInt32.toNat).getD old.toNat := by
  cases value with
  | none => rfl
  | some value => rfl

theorem applied_iff (old : StreamSettings) (settings : List Setting) :
    Applied old settings (old.apply { settings }) ↔
      ∀ value, lastValue 0x03 settings = some value →
        value.toNat < 2 ^ 16 := by
  have timeout : ∀ value : UInt32, value.toUInt16.toNat = value.toNat ↔
      value.toNat < 2 ^ 16 := by
    intro value
    rw [UInt32.toNat_toUInt16]
    omega
  rw [apply_eq]
  constructor
  · intro applied value last
    have exact := applied.idleTimeout
    rw [last] at exact
    exact (timeout value).mp exact
  · intro fits
    refine ⟨toNat_getD _ _, toNat_getD _ _, ?_, ?_⟩
    · cases last : lastValue 0x03 settings with
      | none => rfl
      | some value => exact (timeout value).mpr (fits value last)
    · cases lastValue 0x04 settings with
      | none => exact Iff.rfl
      | some value => exact bne_iff_ne

/-- The codec is exact in both directions and a frame of one's own settings
restores them.  Applying a frame is exact unless the last idle timeout in it
does not fit 16 bits. -/
theorem settings_exact_iff (input : Bytes) (settings : List Setting)
    (old new : StreamSettings) :
    ((∃ rest frame, parseSettingsFrame input = .ok (rest, frame)) ↔
        input.length % 6 = 0) ∧
      parseSettingsFrame (buildSettingsFrame settings) =
        .ok ([], { settings }) ∧
      (∀ rest frame, parseSettingsFrame input = .ok (rest, frame) →
        rest = [] ∧ buildSettingsFrame frame.settings = input) ∧
      old.apply new.toFrame = new ∧
      (Applied old settings (old.apply { settings }) ↔
        ∀ value, lastValue 0x03 settings = some value →
          value.toNat < 2 ^ 16) := by
  refine ⟨parseSettingsFrame_accepts_iff, parseSettingsFrame_build settings,
    ?_, apply_toFrame old new, applied_iff old settings⟩
  intro rest frame parsed
  obtain ⟨nothing, built⟩ := parseSettingsFrame_eq_ok_iff.mp parsed
  exact ⟨nothing, built.symm⟩

/-- An idle timeout of 65566 is applied as 30. -/
theorem idle_timeout_truncated :
    (StreamSettings.initial.apply
        { settings := [{ id := 0x03, value := 65566 }] }).idleTimeout = 30 ∧
      ¬ ∀ (old : StreamSettings) (settings : List Setting),
        Applied old settings (old.apply { settings }) := by
  refine ⟨by decide, ?_⟩
  intro exact
  have applied := exact StreamSettings.initial [{ id := 0x03, value := 65566 }]
  have fits := (applied_iff _ _).mp applied 65566 (by decide)
  exact absurd fits (by decide)

end NyxNet.Settings
