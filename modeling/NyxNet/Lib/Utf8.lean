import Mathlib.Tactic.Common

/-!
# Lossy decoding of UTF-8

Bytes that are no text are turned into one by putting the replacement character
for every maximal part that starts no character, as the standard library of
Rust does in `String::from_utf8_lossy`.
-/

namespace Utf8

/-- The bytes of a text. -/
def encode (text : String) : List UInt8 := text.toUTF8.data.toList

/-- The bytes are those of a text. -/
def Valid (bytes : List UInt8) : Prop := bytes.toByteArray.IsValidUTF8

instance Valid.decidable (bytes : List UInt8) : Decidable (Valid bytes) :=
  inferInstanceAs (Decidable bytes.toByteArray.IsValidUTF8)

/-- The character that the bytes start with. -/
def firstChar (bytes : List UInt8) : Option Char :=
  bytes.toByteArray.utf8DecodeChar? 0

def isContinuation (byte : UInt8) : Bool := byte &&& 192 == 128

/-- What may follow the first of three or four bytes: neither an overlong form
nor a surrogate nor a number past the last character. -/
def secondAllowed (first second : UInt8) : Bool :=
  if first == 0xE0 then 0xA0 ≤ second && second ≤ 0xBF
  else if first == 0xED then 0x80 ≤ second && second ≤ 0x9F
  else if first == 0xF0 then 0x90 ≤ second && second ≤ 0xBF
  else if first == 0xF4 then 0x80 ≤ second && second ≤ 0x8F
  else isContinuation second

/-- The length of the part that is replaced where no character starts. -/
def replacedLength : List UInt8 → Nat
  | first :: second :: third :: _ =>
      if 0xE0 ≤ first && first ≤ 0xF4 && secondAllowed first second then
        if 0xF0 ≤ first && isContinuation third then 3 else 2
      else 1
  | [first, second] =>
      if 0xE0 ≤ first && first ≤ 0xF4 && secondAllowed first second then 2
      else 1
  | _ => 1

theorem replacedLength_pos (bytes : List UInt8) : 0 < replacedLength bytes := by
  unfold replacedLength
  split
  · split
    · split <;> decide
    · decide
  · split <;> decide
  · decide

def replacement : Char := '\uFFFD'

def lossyChars (bytes : List UInt8) : List Char :=
  if bytes = [] then
    []
  else
    match firstChar bytes with
    | some char => char :: lossyChars (bytes.drop char.utf8Size)
    | none => replacement :: lossyChars (bytes.drop (replacedLength bytes))
  termination_by bytes.length
  decreasing_by
    · have positive := char.utf8Size_pos
      have filled := List.length_pos_iff.mpr ‹bytes ≠ []›
      rw [List.length_drop]
      omega
    · have positive := replacedLength_pos bytes
      have filled := List.length_pos_iff.mpr ‹bytes ≠ []›
      rw [List.length_drop]
      omega

def fromUtf8Lossy (bytes : List UInt8) : String :=
  String.ofList (lossyChars bytes)

theorem toByteArray_encode (text : String) :
    (encode text).toByteArray = text.toByteArray := by
  apply ByteArray.ext
  rw [List.data_toByteArray, encode, Array.toArray_toList]
  rfl

theorem encode_ofList (chars : List Char) :
    encode (String.ofList chars) = chars.flatMap String.utf8EncodeChar := by
  rw [← List.toByteArray_inj, toByteArray_encode, String.toByteArray_ofList]
  rfl

theorem firstChar_encodeChar_append (char : Char) (rest : List UInt8) :
    firstChar (String.utf8EncodeChar char ++ rest) = some char := by
  rw [firstChar, List.toByteArray_append]
  exact ByteArray.utf8DecodeChar?_utf8EncodeChar_append

theorem lossyChars_encode (chars : List Char) :
    lossyChars (chars.flatMap String.utf8EncodeChar) = chars := by
  induction chars with
  | nil =>
      rw [List.flatMap_nil, lossyChars, if_pos rfl]
  | cons char chars ih =>
      have size := String.length_utf8EncodeChar char
      have positive := char.utf8Size_pos
      have filled : String.utf8EncodeChar char ++
          chars.flatMap String.utf8EncodeChar ≠ [] := by
        intro nothing
        rw [(List.append_eq_nil_iff.mp nothing).1] at size
        exact absurd size (Nat.ne_of_lt positive)
      rw [List.flatMap_cons, lossyChars, if_neg filled,
        firstChar_encodeChar_append]
      simp only
      rw [← size, List.drop_left, ih]

/-- Nothing is replaced in the bytes of a text, and only there. -/
theorem encode_fromUtf8Lossy_iff (bytes : List UInt8) :
    encode (fromUtf8Lossy bytes) = bytes ↔ Valid bytes := by
  constructor
  · intro same
    rw [← same, Valid, toByteArray_encode]
    exact (fromUtf8Lossy bytes).isValidUTF8
  · intro valid
    obtain ⟨chars, encoded⟩ := valid
    rw [List.utf8Encode, List.toByteArray_inj] at encoded
    rw [fromUtf8Lossy, encode_ofList, encoded, lossyChars_encode]

end Utf8
