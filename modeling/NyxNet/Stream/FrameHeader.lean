import Mathlib.Data.List.Basic
import NyxNet.Lib.ByteParser

/-!
# Frame headers

`nyx-stream/src/frame.rs` and `nyx-stream/src/builder.rs`: the four-byte
header with two type bits, six flag bits, fourteen length bits and a reserved
byte, and the path id that follows it when its flag is set.
-/

namespace NyxNet.Stream

open ByteParser

/-- The flag that announces a path id behind the four-byte header. -/
def flagHasPathId : UInt8 := 0x20

@[ext]
structure FrameHeader where
  frameType : UInt8
  flags : UInt8
  length : UInt16
  deriving DecidableEq, Repr

structure ParsedHeader where
  hdr : FrameHeader
  pathId : Option UInt8
  deriving DecidableEq, Repr

def parseHeader : Parser FrameHeader := fun input => do
  let (input, byte0) ← u8 input
  let (input, byte1) ← u8 input
  let (input, lenBytes) ← take 2 input
  let lenHigh := byte1.toUInt16 <<< 8 ||| (lenBytes.getD 0 0).toUInt16
  return (input,
    { frameType := byte0 >>> 6
      flags := byte0 &&& 0x3F
      length := lenHigh &&& 0x3FFF })

def parseHeaderExt : Parser ParsedHeader := fun input => do
  let (input, hdr) ← parseHeader input
  if hdr.flags &&& flagHasPathId ≠ 0 then
    let (input, pid) ← u8 input
    return (input, { hdr, pathId := some pid })
  else return (input, { hdr, pathId := none })

def buildHeader (hdr : FrameHeader) : Vector UInt8 4 :=
  #v[hdr.frameType <<< 6 ||| (hdr.flags &&& 0x3F),
    (hdr.length >>> 8 &&& 0x3F).toUInt8,
    (hdr.length &&& 0xFF).toUInt8,
    0]

def buildHeaderExt (hdr : FrameHeader) (pathId : Option UInt8) : Bytes :=
  let out := (buildHeader hdr).toList
  match pathId with
  | none => out
  | some pid => out.modify 0 (fun byte => byte ||| flagHasPathId) ++ [pid]

theorem toList_buildHeader (hdr : FrameHeader) :
    (buildHeader hdr).toList =
      [hdr.frameType <<< 6 ||| (hdr.flags &&& 0x3F),
        (hdr.length >>> 8 &&& 0x3F).toUInt8,
        (hdr.length &&& 0xFF).toUInt8, 0] := rfl

namespace FrameHeader

/-- The header that three bytes denote. -/
def ofBytes (byte0 byte1 byte2 : UInt8) : FrameHeader :=
  { frameType := byte0 >>> 6
    flags := byte0 &&& 0x3F
    length := (byte1.toUInt16 <<< 8 ||| byte2.toUInt16) &&& 0x3FFF }

theorem parseHeader_eq_ok_iff {input rest : Bytes} {hdr : FrameHeader} :
    parseHeader input = .ok (rest, hdr) ↔
      ∃ byte0 byte1 byte2 byte3, hdr = ofBytes byte0 byte1 byte2 ∧
        input = byte0 :: byte1 :: byte2 :: byte3 :: rest := by
  constructor
  · intro accepted
    obtain ⟨⟨after0, byte0⟩, read0, accepted⟩ := bind_eq_ok_iff.mp accepted
    obtain ⟨⟨after1, byte1⟩, read1, accepted⟩ := bind_eq_ok_iff.mp accepted
    obtain ⟨⟨rest', lenBytes⟩, taken, ⟨⟩⟩ := bind_eq_ok_iff.mp accepted
    obtain ⟨split, two⟩ := take_eq_ok_iff.mp taken
    obtain ⟨byte2, byte3, rfl⟩ := List.length_eq_two.mp two
    rw [u8_eq_ok_iff] at read0 read1
    refine ⟨byte0, byte1, byte2, byte3, rfl, ?_⟩
    rw [read0, read1, split]
    rfl
  · intro facts
    obtain ⟨byte0, byte1, byte2, byte3, rfl, rfl⟩ := facts
    refine bind_eq_ok_iff.mpr ⟨(_, byte0), u8_eq_ok_iff.mpr rfl, ?_⟩
    refine bind_eq_ok_iff.mpr ⟨(_, byte1), u8_eq_ok_iff.mpr rfl, ?_⟩
    refine bind_eq_ok_iff.mpr ⟨(rest, [byte2, byte3]), ?_, rfl⟩
    exact take_eq_ok_iff.mpr ⟨rfl, rfl⟩

/-- A path id is read exactly when the flag is set. -/
theorem parseHeaderExt_eq_ok_iff {input rest : Bytes}
    {parsed : ParsedHeader} :
    parseHeaderExt input = .ok (rest, parsed) ↔
      ∃ byte0 byte1 byte2 byte3,
        parsed.hdr = ofBytes byte0 byte1 byte2 ∧
        (parsed.pathId.isSome ↔ parsed.hdr.flags &&& flagHasPathId ≠ 0) ∧
        input = byte0 :: byte1 :: byte2 :: byte3 ::
          (parsed.pathId.toList ++ rest) := by
  obtain ⟨hdr, pathId⟩ := parsed
  rw [parseHeaderExt, bind_eq_ok_iff]
  constructor
  · intro facts
    obtain ⟨⟨after, hdr'⟩, headerRead, accepted⟩ := facts
    obtain ⟨byte0, byte1, byte2, byte3, header, rfl⟩ :=
      parseHeader_eq_ok_iff.mp headerRead
    by_cases flag : hdr'.flags &&& flagHasPathId ≠ 0
    · simp only [if_pos flag] at accepted
      obtain ⟨⟨rest', pid⟩, pidRead, ⟨⟩⟩ := bind_eq_ok_iff.mp accepted
      rw [u8_eq_ok_iff] at pidRead
      refine ⟨byte0, byte1, byte2, byte3, header, iff_of_true rfl flag, ?_⟩
      rw [pidRead]
      rfl
    · simp only [if_neg flag] at accepted
      cases accepted
      exact ⟨byte0, byte1, byte2, byte3, header,
        iff_of_false Bool.false_ne_true flag, rfl⟩
  · intro facts
    obtain ⟨byte0, byte1, byte2, byte3, header, flag, rfl⟩ := facts
    refine ⟨(pathId.toList ++ rest, hdr), ?_, ?_⟩
    · exact parseHeader_eq_ok_iff.mpr
        ⟨byte0, byte1, byte2, byte3, header, rfl⟩
    · cases pathId with
      | none =>
          have clear : ¬ hdr.flags &&& flagHasPathId ≠ 0 :=
            fun set => Bool.false_ne_true (flag.mpr set)
          simp only [if_neg clear]
          rfl
      | some pid =>
          simp only [if_pos (flag.mp rfl)]
          rfl

theorem toNat_and_low_six (byte : UInt8) :
    (byte &&& 0x3F).toNat = byte.toNat % 64 := by
  rw [UInt8.toNat_and]
  exact Nat.and_two_pow_sub_one_eq_mod byte.toNat 6

theorem toNat_byte0 (frameType flags : UInt8) :
    (frameType <<< 6 ||| (flags &&& 0x3F)).toNat =
      64 * (frameType.toNat % 4) + flags.toNat % 64 := by
  have small : flags.toNat % 64 < 2 ^ 6 := Nat.mod_lt _ (by decide)
  have shifted : (frameType <<< 6).toNat = (frameType.toNat % 4) <<< 6 := by
    rw [UInt8.toNat_shiftLeft]
    simp only [Nat.shiftLeft_eq]
    change frameType.toNat * 64 % 256 = frameType.toNat % 4 * 64
    omega
  rw [UInt8.toNat_or, toNat_and_low_six, shifted,
    ← Nat.shiftLeft_add_eq_or_of_lt small, Nat.shiftLeft_eq]
  omega

theorem toNat_word (high low : UInt8) :
    (high.toUInt16 <<< 8 ||| low.toUInt16).toNat =
      256 * high.toNat + low.toNat := by
  have highSmall : high.toNat < 256 := high.toNat_lt
  have lowSmall : low.toNat < 2 ^ 8 := low.toNat_lt
  have shifted : (high.toUInt16 <<< 8).toNat = high.toNat <<< 8 := by
    rw [UInt16.toNat_shiftLeft, UInt8.toNat_toUInt16]
    simp only [Nat.shiftLeft_eq]
    change high.toNat * 256 % 65536 = high.toNat * 256
    omega
  rw [UInt16.toNat_or, UInt8.toNat_toUInt16, shifted,
    ← Nat.shiftLeft_add_eq_or_of_lt lowSmall, Nat.shiftLeft_eq]
  omega

theorem toNat_frameType_ofBytes (byte0 byte1 byte2 : UInt8) :
    (ofBytes byte0 byte1 byte2).frameType.toNat = byte0.toNat / 64 := by
  rw [ofBytes, UInt8.toNat_shiftRight]
  exact Nat.shiftRight_eq_div_pow byte0.toNat 6

theorem toNat_flags_ofBytes (byte0 byte1 byte2 : UInt8) :
    (ofBytes byte0 byte1 byte2).flags.toNat = byte0.toNat % 64 :=
  toNat_and_low_six byte0

theorem toNat_length_ofBytes (byte0 byte1 byte2 : UInt8) :
    (ofBytes byte0 byte1 byte2).length.toNat =
      (256 * byte1.toNat + byte2.toNat) % 16384 := by
  rw [ofBytes, UInt16.toNat_and, toNat_word]
  exact Nat.and_two_pow_sub_one_eq_mod _ 14

theorem toNat_byte1 (length : UInt16) :
    (length >>> 8 &&& 0x3F).toUInt8.toNat = length.toNat / 256 % 64 := by
  have masked : length.toNat >>> 8 &&& 63 = length.toNat / 256 % 64 := by
    rw [Nat.shiftRight_eq_div_pow]
    exact Nat.and_two_pow_sub_one_eq_mod _ 6
  rw [UInt16.toNat_toUInt8, UInt16.toNat_and, UInt16.toNat_shiftRight]
  change (length.toNat >>> 8 &&& 63) % 256 = _
  rw [masked]
  omega

theorem toNat_byte2 (length : UInt16) :
    (length &&& 0xFF).toUInt8.toNat = length.toNat % 256 := by
  have masked : length.toNat &&& 255 = length.toNat % 256 :=
    Nat.and_two_pow_sub_one_eq_mod _ 8
  rw [UInt16.toNat_toUInt8, UInt16.toNat_and]
  change (length.toNat &&& 255) % 256 = _
  rw [masked]
  omega

/-- The widths the fields have on the wire. -/
structure InRange (hdr : FrameHeader) : Prop where
  frameType : hdr.frameType < 4
  flags : hdr.flags < 64
  length : hdr.length < 16384

/-- Reading the three bytes of a header whose fields fit. -/
theorem ofBytes_build {hdr : FrameHeader} (inRange : hdr.InRange) :
    ofBytes (hdr.frameType <<< 6 ||| (hdr.flags &&& 0x3F))
      (hdr.length >>> 8 &&& 0x3F).toUInt8 (hdr.length &&& 0xFF).toUInt8 =
        hdr := by
  have typeBound : hdr.frameType.toNat < 4 :=
    UInt8.lt_iff_toNat_lt.mp inRange.frameType
  have flagsBound : hdr.flags.toNat < 64 :=
    UInt8.lt_iff_toNat_lt.mp inRange.flags
  have lengthBound : hdr.length.toNat < 16384 :=
    UInt16.lt_iff_toNat_lt.mp inRange.length
  have byte0 := toNat_byte0 hdr.frameType hdr.flags
  apply FrameHeader.ext
  · apply UInt8.toNat_inj.mp
    rw [toNat_frameType_ofBytes, byte0]
    omega
  · apply UInt8.toNat_inj.mp
    rw [toNat_flags_ofBytes, byte0]
    omega
  · apply UInt16.toNat_inj.mp
    rw [toNat_length_ofBytes, toNat_byte1, toNat_byte2]
    omega

/-- The three bytes again, with the two highest length bits cleared. -/
theorem build_ofBytes (byte0 byte1 byte2 : UInt8) :
    (buildHeader (ofBytes byte0 byte1 byte2)).toList =
      [byte0, byte1 &&& 0x3F, byte2, 0] := by
  have small0 : byte0.toNat < 256 := byte0.toNat_lt
  have small1 : byte1.toNat < 256 := byte1.toNat_lt
  have small2 : byte2.toNat < 256 := byte2.toNat_lt
  have length := toNat_length_ofBytes byte0 byte1 byte2
  have first : (ofBytes byte0 byte1 byte2).frameType <<< 6 |||
      ((ofBytes byte0 byte1 byte2).flags &&& 0x3F) = byte0 := by
    apply UInt8.toNat_inj.mp
    rw [toNat_byte0, toNat_frameType_ofBytes, toNat_flags_ofBytes]
    omega
  have second : ((ofBytes byte0 byte1 byte2).length >>> 8 &&& 0x3F).toUInt8 =
      byte1 &&& 0x3F := by
    apply UInt8.toNat_inj.mp
    rw [toNat_byte1, length, toNat_and_low_six]
    omega
  have third : ((ofBytes byte0 byte1 byte2).length &&& 0xFF).toUInt8 =
      byte2 := by
    apply UInt8.toNat_inj.mp
    rw [toNat_byte2, length]
    omega
  rw [toList_buildHeader, first, second, third]

theorem masked_or_flag (flags : UInt8) :
    (flags &&& 0x3F) ||| flagHasPathId =
      (flags ||| flagHasPathId) &&& 0x3F := by
  revert flags
  exact Bytes.forall_byte (by decide +kernel)

theorem or_flag_spec (flags : UInt8) :
    (flags ||| flagHasPathId) &&& flagHasPathId ≠ 0 ∧
      (flags < 64 → flags ||| flagHasPathId < 64) := by
  revert flags
  exact Bytes.forall_byte (by decide +kernel)

theorem or_flag_of_set (byte : UInt8)
    (set : byte &&& 0x3F &&& flagHasPathId ≠ 0) :
    byte ||| flagHasPathId = byte := by
  revert byte
  exact Bytes.forall_byte (by decide +kernel)

theorem clear_flag_eq_iff (flags : UInt8) :
    flags &&& ~~~flagHasPathId = flags ↔ flags &&& flagHasPathId = 0 := by
  revert flags
  exact Bytes.forall_byte (by decide +kernel)

theorem buildHeaderExt_some (hdr : FrameHeader) (pid : UInt8) :
    buildHeaderExt hdr (some pid) =
      (buildHeader { hdr with flags := hdr.flags ||| flagHasPathId }).toList ++
        [pid] := by
  simp only [buildHeaderExt, toList_buildHeader, List.modify_zero_cons]
  rw [UInt8.or_assoc, masked_or_flag]

/-- What the parser makes of a built header whose fields fit. -/
theorem parseHeaderExt_build {hdr : FrameHeader} (inRange : hdr.InRange)
    (pathId : Option UInt8) (rest : Bytes)
    (flag : pathId.isSome ↔ hdr.flags &&& flagHasPathId ≠ 0) :
    parseHeaderExt ((buildHeader hdr).toList ++ (pathId.toList ++ rest)) =
      .ok (rest, { hdr, pathId }) :=
  parseHeaderExt_eq_ok_iff.mpr
    ⟨_, _, _, 0, (ofBytes_build inRange).symm, flag, rfl⟩

/-- The flags with the path flag set exactly when there is a path id. -/
def flagsWith (flags : UInt8) (pathId : Option UInt8) : UInt8 :=
  if pathId.isSome then flags ||| flagHasPathId
  else flags &&& ~~~flagHasPathId

/-- Parsing a built header gives back the header, the path id and the rest. -/
def RoundTrips (hdr : FrameHeader) (pathId : Option UInt8) (rest : Bytes) :
    Prop :=
  parseHeaderExt (buildHeaderExt hdr pathId ++ rest) =
    .ok (rest, { hdr := { hdr with flags := flagsWith hdr.flags pathId }
                 pathId })

theorem roundTrips_some {hdr : FrameHeader} (inRange : hdr.InRange)
    (pid : UInt8) (rest : Bytes) : hdr.RoundTrips (some pid) rest := by
  obtain ⟨set, small⟩ := or_flag_spec hdr.flags
  have extended :
      ({ hdr with flags := hdr.flags ||| flagHasPathId } :
        FrameHeader).InRange :=
    ⟨inRange.frameType, small inRange.flags, inRange.length⟩
  rw [RoundTrips, buildHeaderExt_some, List.append_assoc]
  exact parseHeaderExt_build extended (some pid) rest (iff_of_true rfl set)

/-- Without a path id a flag set by the caller stays in the header, and the
parser takes the next byte for a path id. -/
theorem roundTrips_none_iff {hdr : FrameHeader} (inRange : hdr.InRange)
    (rest : Bytes) :
    hdr.RoundTrips none rest ↔ hdr.flags &&& flagHasPathId = 0 := by
  constructor
  · intro roundTrips
    obtain ⟨byte0, byte1, byte2, byte3, header, -, built⟩ :=
      parseHeaderExt_eq_ok_iff.mp roundTrips
    have bytes : byte0 = hdr.frameType <<< 6 ||| (hdr.flags &&& 0x3F) ∧
        byte1 = (hdr.length >>> 8 &&& 0x3F).toUInt8 ∧
        byte2 = (hdr.length &&& 0xFF).toUInt8 := by
      cases built
      exact ⟨rfl, rfl, rfl⟩
    obtain ⟨rfl, rfl, rfl⟩ := bytes
    rw [ofBytes_build inRange] at header
    exact (clear_flag_eq_iff hdr.flags).mp (congrArg FrameHeader.flags header)
  · intro clear
    have unchanged : flagsWith hdr.flags none = hdr.flags :=
      (clear_flag_eq_iff hdr.flags).mpr clear
    rw [RoundTrips, unchanged]
    exact parseHeaderExt_build inRange none rest
      (iff_of_false Bool.false_ne_true (fun set => set clear))

/-- The reserved bits of a header set to zero: the two highest bits of the
second byte and the fourth byte. -/
def clearReserved (header : Bytes) : Bytes :=
  (header.modify 1 (fun byte => byte &&& 0x3F)).set 3 0

theorem rebuild_parsed {input rest : Bytes} {parsed : ParsedHeader}
    (accepted : parseHeaderExt input = .ok (rest, parsed)) :
    ∃ consumed, input = consumed ++ rest ∧
      clearReserved consumed = buildHeaderExt parsed.hdr parsed.pathId := by
  obtain ⟨byte0, byte1, byte2, byte3, header, flag, rfl⟩ :=
    parseHeaderExt_eq_ok_iff.mp accepted
  refine ⟨byte0 :: byte1 :: byte2 :: byte3 :: parsed.pathId.toList, rfl, ?_⟩
  cases pathId : parsed.pathId with
  | none =>
      rw [buildHeaderExt, header, build_ofBytes]
      rfl
  | some pid =>
      rw [pathId, header] at flag
      have set : byte0 ||| flagHasPathId = byte0 :=
        or_flag_of_set byte0 (flag.mp rfl)
      simp only [buildHeaderExt, header, build_ofBytes,
        List.modify_zero_cons, set]
      rfl

/-- A built header reads back exactly when the caller leaves the path flag to
the builder, and an accepted header always rebuilds. -/
theorem extended_header_round_trips_iff (hdr : FrameHeader)
    (pathId : Option UInt8) (rest : Bytes) (frameType : hdr.frameType < 4)
    (flags : hdr.flags < 64) (length : hdr.length < 16384) :
    (hdr.RoundTrips pathId rest ↔
        pathId.isSome ∨ hdr.flags &&& flagHasPathId = 0) ∧
      ∀ (input remaining : Bytes) (parsed : ParsedHeader),
        parseHeaderExt input = .ok (remaining, parsed) →
          ∃ consumed, input = consumed ++ remaining ∧
            clearReserved consumed =
              buildHeaderExt parsed.hdr parsed.pathId := by
  refine ⟨?_, fun input remaining parsed accepted => rebuild_parsed accepted⟩
  have inRange : hdr.InRange := ⟨frameType, flags, length⟩
  cases pathId with
  | none =>
      rw [roundTrips_none_iff inRange]
      simp
  | some pid =>
      exact iff_of_true (roundTrips_some inRange pid rest) (Or.inl rfl)

theorem extended_header_round_trips_at_seven :
    ({ frameType := 2, flags := 5, length := 50 } : FrameHeader).RoundTrips
      (some 7) [1, 2, 3] :=
  (extended_header_round_trips_iff { frameType := 2, flags := 5, length := 50 }
    (some 7) [1, 2, 3] (by decide) (by decide) (by decide)).1.mpr (Or.inl rfl)

/-- The first payload byte disappears as the path id. -/
theorem extended_header_flag_set_by_caller :
    let hdr : FrameHeader := { frameType := 0, flags := 0x20, length := 1 }
    parseHeaderExt (buildHeaderExt hdr none ++ [7]) =
        .ok ([], { hdr, pathId := some 7 }) ∧
      ¬ hdr.RoundTrips none [7] := by
  refine ⟨rfl, ?_⟩
  rw [RoundTrips]
  decide

end FrameHeader

end NyxNet.Stream
