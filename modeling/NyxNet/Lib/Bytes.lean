import Mathlib.Tactic.Common
import Mathlib.Data.Nat.Bitwise

/-!
# Byte strings and fixed-width integer encodings

`leBytes` and `beBytes` write the low bytes of a number in little-endian and
big-endian order; `ofLeBytes` and `ofBeBytes` read them back.  The width is a
parameter, so the same lemmas serve 32-bit length prefixes, 64-bit counters
and arbitrary-precision integers.
-/

/-- A byte string. -/
abbrev Bytes : Type := List UInt8

namespace Bytes

/-- The number a little-endian byte string denotes. -/
def ofLeBytes : Bytes → Nat
  | [] => 0
  | byte :: rest => byte.toNat + 256 * ofLeBytes rest

/-- The number a big-endian byte string denotes. -/
def ofBeBytes (bytes : Bytes) : Nat := ofLeBytes bytes.reverse

/-- The lowest `width` bytes of a number, least significant first. -/
def leList : Nat → Nat → Bytes
  | 0, _ => []
  | width + 1, number => UInt8.ofNat number :: leList width (number / 256)

@[simp] theorem length_leList (width number : Nat) :
    (leList width number).length = width := by
  induction width generalizing number with
  | zero => rfl
  | succ width ih => simp [leList, ih]

/-- `to_le_bytes` for an integer of `width` bytes. -/
def leBytes (width number : Nat) : Vector UInt8 width :=
  ⟨(leList width number).toArray, by simp⟩

/-- `to_be_bytes` for an integer of `width` bytes. -/
def beBytes (width number : Nat) : Vector UInt8 width :=
  (leBytes width number).reverse

@[simp] theorem toList_leBytes (width number : Nat) :
    (leBytes width number).toList = leList width number := rfl

@[simp] theorem toList_beBytes (width number : Nat) :
    (beBytes width number).toList = (leList width number).reverse := by
  simp [beBytes]

/-- Reading back the lowest `width` bytes reduces modulo `256 ^ width`. -/
theorem ofLeBytes_leList (width number : Nat) :
    ofLeBytes (leList width number) = number % 256 ^ width := by
  induction width generalizing number with
  | zero => simp [leList, ofLeBytes, Nat.mod_one]
  | succ width ih =>
      have split : number % 256 ^ (width + 1) =
          number % 256 + 256 * (number / 256 % 256 ^ width) := by
        rw [Nat.pow_succ', Nat.mod_mul]
      simp [leList, ofLeBytes, ih, split]

theorem ofLeBytes_leBytes {width number : Nat}
    (fits : number < 256 ^ width) :
    ofLeBytes (leBytes width number).toList = number := by
  rw [toList_leBytes, ofLeBytes_leList, Nat.mod_eq_of_lt fits]

theorem ofBeBytes_beBytes_mod (width number : Nat) :
    ofBeBytes (beBytes width number).toList = number % 256 ^ width := by
  rw [toList_beBytes, ofBeBytes, List.reverse_reverse, ofLeBytes_leList]

theorem ofBeBytes_beBytes {width number : Nat}
    (fits : number < 256 ^ width) :
    ofBeBytes (beBytes width number).toList = number := by
  rw [ofBeBytes_beBytes_mod, Nat.mod_eq_of_lt fits]

/-- A byte string of `n` bytes denotes a number below `256 ^ n`. -/
theorem ofLeBytes_lt (bytes : Bytes) :
    ofLeBytes bytes < 256 ^ bytes.length := by
  induction bytes with
  | nil => simp [ofLeBytes]
  | cons byte rest ih =>
      have small : byte.toNat < 256 := byte.toNat_lt
      rw [ofLeBytes, List.length_cons, Nat.pow_succ']
      omega

theorem ofBeBytes_lt (bytes : Bytes) :
    ofBeBytes bytes < 256 ^ bytes.length := by
  have bound := ofLeBytes_lt bytes.reverse
  rw [List.length_reverse] at bound
  exact bound

theorem ofLeBytes_append (front back : Bytes) :
    ofLeBytes (front ++ back) =
      ofLeBytes front + 256 ^ front.length * ofLeBytes back := by
  induction front with
  | nil => simp [ofLeBytes]
  | cons byte front ih =>
      rw [List.cons_append, ofLeBytes, ofLeBytes, ih, List.length_cons,
        Nat.pow_succ', Nat.mul_add, Nat.add_assoc, Nat.mul_assoc]

/-- The first byte of a big-endian number is its highest. -/
theorem ofBeBytes_cons (byte : UInt8) (rest : Bytes) :
    ofBeBytes (byte :: rest) =
      byte.toNat * 256 ^ rest.length + ofBeBytes rest := by
  rw [ofBeBytes, List.reverse_cons, ofLeBytes_append, List.length_reverse,
    ofLeBytes, ofLeBytes, Nat.mul_zero, Nat.add_zero, Nat.mul_comm,
    Nat.add_comm]
  rfl

theorem leList_ofLeBytes (bytes : Bytes) :
    leList bytes.length (ofLeBytes bytes) = bytes := by
  induction bytes with
  | nil => rfl
  | cons byte rest ih =>
      have small : byte.toNat < 256 := byte.toNat_lt
      have low : UInt8.ofNat (ofLeBytes (byte :: rest)) = byte := by
        apply UInt8.toNat_inj.mp
        rw [UInt8.toNat_ofNat', ofLeBytes]
        omega
      have high : ofLeBytes (byte :: rest) / 256 = ofLeBytes rest := by
        rw [ofLeBytes]
        omega
      rw [List.length_cons, leList, low, high, ih]

/-- Every byte string is the encoding of the number it denotes. -/
theorem beBytes_ofBeBytes (bytes : Bytes) :
    (beBytes bytes.length (ofBeBytes bytes)).toList = bytes := by
  have reversed := leList_ofLeBytes bytes.reverse
  rw [List.length_reverse] at reversed
  rw [toList_beBytes, ofBeBytes, reversed, List.reverse_reverse]

/-- The shortest big-endian encoding of an arbitrary-precision integer; zero
takes one byte. -/
def toBytesBe (number : Nat) : Bytes :=
  (beBytes (number.log2 / 8 + 1) number).toList

@[simp] theorem ofBeBytes_toBytesBe (number : Nat) :
    ofBeBytes (toBytesBe number) = number := by
  apply ofBeBytes_beBytes
  have bits : number < 2 ^ (number.log2 + 1) := Nat.lt_log2_self
  have bytes : 2 ^ (number.log2 + 1) ≤ 256 ^ (number.log2 / 8 + 1) := by
    rw [show 256 = 2 ^ 8 from rfl, ← Nat.pow_mul]
    apply Nat.pow_le_pow_right (by decide)
    omega
  exact Nat.lt_of_lt_of_le bits bytes

/-- A statement about every byte from its 256 instances. -/
theorem forall_byte {property : UInt8 → Prop}
    (instances : ∀ number : Fin 256, property (UInt8.ofFin number))
    (byte : UInt8) : property byte := by
  have present := instances byte.toFin
  rwa [UInt8.ofFin_toFin] at present

/-- The bytes of a text made of ASCII characters, as a `b"…"` literal. -/
def ofAscii (text : String) : Bytes :=
  text.toList.map (fun letter => UInt8.ofNat letter.toNat)

/-- `buffer[offset..offset + data.len()].copy_from_slice(data)`. -/
def copyFromSlice (buffer : Bytes) (offset : Nat) (data : Bytes) : Bytes :=
  buffer.take offset ++ data ++ buffer.drop (offset + data.length)

/-- Two adjacent writes are one write of the concatenation. -/
theorem copyFromSlice_adjacent (buffer first second : Bytes) (offset : Nat)
    (fits : offset + first.length ≤ buffer.length) :
    copyFromSlice (copyFromSlice buffer offset first)
        (offset + first.length) second =
      copyFromSlice buffer offset (first ++ second) := by
  have front : (buffer.take offset ++ first).length =
      offset + first.length := by
    rw [List.length_append, List.length_take]
    omega
  unfold copyFromSlice
  rw [← front, List.take_left, ← List.drop_drop, List.drop_left,
    List.drop_drop, front, List.length_append]
  simp only [List.append_assoc, Nat.add_assoc]

/-- The written prefix of a buffer. -/
theorem take_copyFromSlice_zero (buffer data : Bytes) :
    (copyFromSlice buffer 0 data).take data.length = data := by
  simp [copyFromSlice]

/-- A payload behind its length as a big-endian integer of `width` bytes. -/
def frame (width : Nat) (payload : Bytes) : Bytes :=
  (beBytes width payload.length).toList ++ payload

/-- Reads one frame off a stream; `none` while bytes are missing. -/
def readFrame (width : Nat) (stream : Bytes) : Option (Bytes × Bytes) :=
  if stream.length < width then none
  else
    let length := ofBeBytes (stream.take width)
    let rest := stream.drop width
    if rest.length < length then none
    else some (rest.take length, rest.drop length)

/-- A length that does not fit its prefix is reduced, and the reader takes the
end of the payload for what follows the frame. -/
theorem readFrame_frame_mod (width : Nat) (payload rest : Bytes) :
    readFrame width (frame width payload ++ rest) =
      some ((payload ++ rest).take (payload.length % 256 ^ width),
        (payload ++ rest).drop (payload.length % 256 ^ width)) := by
  have header : (beBytes width payload.length).toList.length = width := by
    simp
  have front : (frame width payload ++ rest).take width =
      (beBytes width payload.length).toList := by
    rw [frame, List.append_assoc]
    exact List.take_left' header
  have back : (frame width payload ++ rest).drop width = payload ++ rest := by
    rw [frame, List.append_assoc]
    exact List.drop_left' header
  have enough : ¬ (frame width payload ++ rest).length < width := by
    simp only [frame, List.length_append, header]
    omega
  have reduced : payload.length % 256 ^ width ≤ payload.length :=
    Nat.mod_le _ _
  have present : ¬ (payload ++ rest).length <
      payload.length % 256 ^ width := by
    simp only [List.length_append]
    omega
  unfold readFrame
  rw [if_neg enough]
  simp only [front, back, ofBeBytes_beBytes_mod, if_neg present]

theorem readFrame_frame {width : Nat} {payload : Bytes}
    (fits : payload.length < 256 ^ width) (rest : Bytes) :
    readFrame width (frame width payload ++ rest) = some (payload, rest) := by
  rw [readFrame_frame_mod, Nat.mod_eq_of_lt fits, List.take_left,
    List.drop_left]

/-- A payload is part of the stream it is read from. -/
theorem infix_of_readFrame {width : Nat} {stream payload rest : Bytes}
    (read : readFrame width stream = some (payload, rest)) :
    payload <:+: stream := by
  simp only [readFrame] at read
  split at read
  · cases read
  · split at read
    · cases read
    · cases read
      exact (List.take_prefix _ _).isInfix.trans (List.drop_suffix _ _).isInfix

/-- `read_exact`: fills a buffer of `count` bytes from the segments of a
connection, however many it takes, and leaves the bytes it did not need;
`none` when the connection ends first.  An empty segment wakes no reader. -/
def readExact : Nat → List Bytes → Option (Bytes × List Bytes)
  | 0, segments => some ([], segments)
  | _ + 1, [] => none
  | count + 1, segment :: rest =>
      if count + 1 ≤ segment.length then
        some (segment.take (count + 1), segment.drop (count + 1) :: rest)
      else do
        let (bytes, rest) ← readExact (count + 1 - segment.length) rest
        return (segment ++ bytes, rest)

/-- Where the stream was cut does not matter to a reader. -/
theorem readExact_of_le (count : Nat) (segments : List Bytes)
    (enough : count ≤ segments.flatten.length) :
    ∃ rest, readExact count segments =
        some (segments.flatten.take count, rest) ∧
      rest.flatten = segments.flatten.drop count := by
  induction segments generalizing count with
  | nil =>
      have none_asked : count = 0 := by simpa using enough
      exact ⟨[], by simp [none_asked, readExact], by simp⟩
  | cons segment segments ih =>
      cases count with
      | zero => exact ⟨segment :: segments, by simp [readExact], by simp⟩
      | succ count =>
          rw [List.flatten_cons, List.length_append] at enough
          by_cases inside : count + 1 ≤ segment.length
          · refine ⟨segment.drop (count + 1) :: segments, ?_, ?_⟩
            · rw [readExact, if_pos inside, List.flatten_cons,
                List.take_append_of_le_length inside]
            · rw [List.flatten_cons, List.flatten_cons,
                List.drop_append_of_le_length inside]
          · obtain ⟨rest, read, left⟩ :=
              ih (count + 1 - segment.length) (by omega)
            have whole : segment.take (count + 1) = segment :=
              List.take_of_length_le (by omega)
            have gone : segment.drop (count + 1) = [] :=
              List.drop_eq_nil_of_le (by omega)
            refine ⟨rest, ?_, ?_⟩
            · rw [readExact, if_neg inside, read, List.flatten_cons,
                List.take_append, whole]
              rfl
            · rw [left, List.flatten_cons, List.drop_append, gone,
                List.nil_append]

theorem readExact_of_lt {count : Nat} {segments : List Bytes}
    (short : segments.flatten.length < count) :
    readExact count segments = none := by
  induction segments generalizing count with
  | nil =>
      cases count with
      | zero => simp at short
      | succ count => rfl
  | cons segment segments ih =>
      rw [List.flatten_cons, List.length_append] at short
      cases count with
      | zero => omega
      | succ count =>
          rw [readExact, if_neg (by omega), ih (by omega)]
          rfl

/-- A fixed-width encoding determines every number that fits. -/
theorem leBytes_injective {width left right : Nat}
    (leftFits : left < 256 ^ width) (rightFits : right < 256 ^ width)
    (equality : leBytes width left = leBytes width right) :
    left = right := by
  rw [← ofLeBytes_leBytes leftFits, ← ofLeBytes_leBytes rightFits, equality]

end Bytes
