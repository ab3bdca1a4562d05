import Mathlib.Tactic.Common
import Mathlib.Data.Nat.Bitwise

/-!
# Bitmaps packed into bytes

Bit `i` of a bitmap is bit `i % 8` of byte `i / 8`.  Reading, setting and
shifting are written as the in-place byte loops an implementation uses; the
lemmas describe each of them through `bit`, which is total and reads zero
outside the bitmap.
-/

namespace ByteBitmap

variable {n : Nat}

/-- Bit `index` of a bitmap, and `false` beyond its end. -/
def bit (bytes : Vector UInt8 n) (index : Nat) : Bool :=
  (bytes[index / 8]?.getD 0).toNat.testBit (index % 8)

/-- Test a bit by shifting it to the bottom of its byte. -/
def getBit (bytes : Vector UInt8 n) (index : Nat) (bound : index < 8 * n) :
    Bool :=
  ((bytes[index / 8] >>> UInt8.ofNat (index % 8)) &&& 1) == 1

/-- Set a bit by or-ing its mask into its byte. -/
def setBit (bytes : Vector UInt8 n) (index : Nat) (bound : index < 8 * n) :
    Vector UInt8 n :=
  bytes.set (index / 8)
    (bytes[index / 8] ||| (1 <<< UInt8.ofNat (index % 8)))

/-- Move every byte `count` places up, highest byte first, so that no byte is
overwritten before it is read. -/
def moveBytes (count : Nat) (bytes : Vector UInt8 n) : Vector UInt8 n :=
  Nat.foldRev (n - count)
    (fun source _ moved => moved.set (source + count) moved[source]) bytes

/-- Clear the lowest `count` bytes. -/
def zeroBytes (count : Nat) (bound : count ≤ n) (bytes : Vector UInt8 n) :
    Vector UInt8 n :=
  Nat.fold count (fun index _ cleared => cleared.set index 0) bytes

/-- One pass that shifts every byte up by `count` bits and carries the bits
which leave a byte into the next one. -/
def carryBits (count : Nat) (bytes : Vector UInt8 n) : Vector UInt8 n :=
  (Nat.fold n
    (fun index _ (state : Vector UInt8 n × UInt8) =>
      (state.1.set index
          ((state.1[index] <<< UInt8.ofNat count) ||| state.2),
        state.1[index] >>> UInt8.ofNat (8 - count)))
    (bytes, 0)).1

/-- Shift a whole bitmap up by `shift < 8 * n` bits. -/
def shiftUp (shift : Nat) (bound : shift < 8 * n) (bytes : Vector UInt8 n) :
    Vector UInt8 n :=
  let byteShift := shift / 8
  let bitShift := shift % 8
  let moved :=
    if 0 < byteShift then
      zeroBytes byteShift (by omega) (moveBytes byteShift bytes)
    else bytes
  if 0 < bitShift then carryBits bitShift moved else moved

theorem bit_eq_testBit (bytes : Vector UInt8 n) (index : Nat)
    (bound : index < 8 * n) :
    bit bytes index = (bytes[index / 8]).toNat.testBit (index % 8) := by
  have inside : index / 8 < n := by omega
  simp [bit, inside]

theorem bit_eq_false_of_le (bytes : Vector UInt8 n) (index : Nat)
    (outside : 8 * n ≤ index) : bit bytes index = false := by
  have beyond : n ≤ index / 8 := by omega
  simp [bit, beyond]

@[simp] theorem bit_replicate_zero (index : Nat) :
    bit (Vector.replicate n 0) index = false := by
  by_cases bound : index < 8 * n
  · rw [bit_eq_testBit _ _ bound]
    simp
  · exact bit_eq_false_of_le _ _ (by omega)

private theorem toNat_ofNat_of_small {count : Nat} (small : count < 8) :
    (UInt8.ofNat count).toNat % 8 = count := by
  simp
  omega

/-- Bits of a byte shifted up; what leaves the byte is lost. -/
theorem testBit_shiftLeft_byte (byte : UInt8) {count position : Nat}
    (smallCount : count < 8) (smallPosition : position < 8) :
    (byte <<< UInt8.ofNat count).toNat.testBit position =
      (decide (count ≤ position) && byte.toNat.testBit (position - count)) := by
  rw [UInt8.toNat_shiftLeft, toNat_ofNat_of_small smallCount,
    Nat.testBit_mod_two_pow, Nat.testBit_shiftLeft]
  simp [smallPosition]

/-- Bits of a byte shifted down. -/
theorem testBit_shiftRight_byte (byte : UInt8) {count : Nat} (position : Nat)
    (small : count < 8) :
    (byte >>> UInt8.ofNat count).toNat.testBit position =
      byte.toNat.testBit (count + position) := by
  rw [UInt8.toNat_shiftRight, toNat_ofNat_of_small small,
    Nat.testBit_shiftRight]

/-- A byte has no bit from position eight on. -/
theorem testBit_byte_eq_false (byte : UInt8) {position : Nat}
    (large : 8 ≤ position) : byte.toNat.testBit position = false := by
  apply Nat.testBit_lt_two_pow
  calc
    byte.toNat < 2 ^ 8 := UInt8.toNat_lt byte
    _ ≤ 2 ^ position := Nat.pow_le_pow_right (by decide) large

theorem getBit_eq_bit (bytes : Vector UInt8 n) (index : Nat)
    (bound : index < 8 * n) : getBit bytes index bound = bit bytes index := by
  have small : index % 8 < 8 := Nat.mod_lt _ (by decide)
  rw [bit_eq_testBit bytes index bound, getBit, Bool.eq_iff_iff, beq_iff_eq,
    ← UInt8.toNat_inj, UInt8.toNat_and, UInt8.toNat_shiftRight,
    toNat_ofNat_of_small small, Nat.testBit_eq_decide_div_mod_eq,
    decide_eq_true_eq, Nat.shiftRight_eq_div_pow]
  simp [Nat.and_one_is_mod]

private theorem testBit_mask (index position : Nat) :
    (1 <<< UInt8.ofNat (index % 8) : UInt8).toNat.testBit (position % 8) =
      decide (index % 8 = position % 8) := by
  rw [testBit_shiftLeft_byte 1 (Nat.mod_lt _ (by decide))
    (Nat.mod_lt _ (by decide)), Bool.eq_iff_iff]
  simp only [UInt8.toNat_one, Bool.and_eq_true, decide_eq_true_eq,
    Nat.testBit_one_eq_true_iff_self_eq_zero]
  omega

/-- Setting a bit changes that bit and no other. -/
theorem bit_setBit (bytes : Vector UInt8 n) (index : Nat)
    (bound : index < 8 * n) (position : Nat) :
    bit (setBit bytes index bound) position =
      (decide (index = position) || bit bytes position) := by
  by_cases inside : position < 8 * n
  · rw [bit_eq_testBit _ _ inside, bit_eq_testBit _ _ inside, setBit]
    by_cases sameByte : index / 8 = position / 8
    · have samePosition : index = position ↔ index % 8 = position % 8 := by
        omega
      simp only [sameByte, Vector.getElem_set_self, UInt8.toNat_or,
        Nat.testBit_or, testBit_mask, samePosition, Bool.or_comm]
    · have different : index ≠ position := by
        intro equality
        exact sameByte (by rw [equality])
      rw [Vector.getElem_set_ne (by omega) (by omega) sameByte]
      simp [different]
  · have different : index ≠ position := by omega
    have outside : 8 * n ≤ position := by omega
    simp [bit_eq_false_of_le _ position outside, different]

/-- The bytes after moving the lowest `done` source bytes: the loop runs from
the top, so the induction peels the last source off first. -/
private theorem getElem_foldRev_move (count : Nat) (bytes : Vector UInt8 n)
    (done : Nat) (fits : done + count ≤ n) (index : Nat) (bound : index < n)
    (positive : 0 < count) :
    (Nat.foldRev done
      (fun source _ (moved : Vector UInt8 n) =>
        moved.set (source + count) moved[source]) bytes)[index] =
      if count ≤ index ∧ index < done + count then
        bytes[index - count]
      else bytes[index] := by
  induction done generalizing bytes with
  | zero =>
      have outside : ¬ (count ≤ index ∧ index < 0 + count) := by omega
      rw [if_neg outside]
      rfl
  | succ done ih =>
      rw [Nat.foldRev_succ, ih _ (by omega)]
      by_cases last : index = done + count
      · subst index
        simp
      · by_cases earlier : count ≤ index ∧ index < done + count
        · have later : count ≤ index ∧ index < done + 1 + count := by omega
          have unread : done + count ≠ index - count := by omega
          simp [earlier, later, unread]
        · have later : ¬ (count ≤ index ∧ index < done + 1 + count) := by
            omega
          have unwritten : done + count ≠ index := by omega
          simp [earlier, later, unwritten]

theorem getElem_moveBytes (count : Nat) (positive : 0 < count)
    (fits : count ≤ n) (bytes : Vector UInt8 n) (index : Nat)
    (bound : index < n) :
    (moveBytes count bytes)[index] =
      if count ≤ index then bytes[index - count] else bytes[index] := by
  rw [moveBytes, getElem_foldRev_move count bytes (n - count) (by omega)
    index bound positive]
  have range : (count ≤ index ∧ index < n - count + count) ↔ count ≤ index := by
    omega
  simp only [range]

theorem getElem_zeroBytes (count : Nat) (fits : count ≤ n)
    (bytes : Vector UInt8 n) (index : Nat) (bound : index < n) :
    (zeroBytes count fits bytes)[index] =
      if index < count then 0 else bytes[index] := by
  unfold zeroBytes
  induction count with
  | zero => simp
  | succ count ih =>
      rw [Nat.fold_succ]
      by_cases last : count = index
      · subst index
        simp
      · rw [Vector.getElem_set_ne (by omega) bound last, ih (by omega)]
        have range : index < count + 1 ↔ index < count := by omega
        simp only [range]

/-- After `done` steps of the carry pass the lowest `done` bytes are shifted,
the others are untouched, and the carry holds what left the last byte. -/
private theorem fold_carry (count : Nat) (bytes : Vector UInt8 n)
    (done : Nat) (fits : done ≤ n) :
    let state := Nat.fold done
      (fun index _ (state : Vector UInt8 n × UInt8) =>
        (state.1.set index
            ((state.1[index] <<< UInt8.ofNat count) ||| state.2),
          state.1[index] >>> UInt8.ofNat (8 - count)))
      (bytes, 0)
    (∀ index (bound : index < n), state.1[index] =
      if index < done then
        (bytes[index] <<< UInt8.ofNat count) |||
          (if index = 0 then 0
            else bytes[index - 1] >>> UInt8.ofNat (8 - count))
      else bytes[index]) ∧
    state.2 = if done = 0 then 0
      else (bytes[done - 1]?.getD 0) >>> UInt8.ofNat (8 - count) := by
  induction done with
  | zero => simp
  | succ done ih =>
      obtain ⟨shifted, carry⟩ := ih (by omega)
      rw [Nat.fold_succ]
      have untouched := shifted done (by omega)
      rw [if_neg (Nat.lt_irrefl done)] at untouched
      refine ⟨?_, ?_⟩
      · intro index bound
        by_cases last : done = index
        · subst index
          have carried : (if done = 0 then (0 : UInt8)
              else (bytes[done - 1]?.getD 0) >>> UInt8.ofNat (8 - count)) =
              if done = 0 then 0
                else bytes[done - 1] >>> UInt8.ofNat (8 - count) := by
            rw [Vector.getElem?_eq_getElem (by omega : done - 1 < n)]
            rfl
          simp only [Vector.getElem_set_self, untouched, carry, carried,
            if_pos (Nat.lt_succ_self done)]
        · rw [Vector.getElem_set_ne (by omega) bound last, shifted index bound]
          have range : index < done + 1 ↔ index < done := by omega
          simp only [range]
      · have inside : done < n := by omega
        simp [untouched, inside]

theorem getElem_carryBits (count : Nat) (bytes : Vector UInt8 n)
    (index : Nat) (bound : index < n) :
    (carryBits count bytes)[index] =
      (bytes[index] <<< UInt8.ofNat count) |||
        (if index = 0 then 0
          else bytes[index - 1] >>> UInt8.ofNat (8 - count)) := by
  have shifted := (fold_carry count bytes n (Nat.le_refl n)).1 index bound
  rw [if_pos bound] at shifted
  exact shifted

/-- The carry pass is a shift by fewer than eight bits. -/
theorem bit_carryBits (count : Nat) (positive : 0 < count) (small : count < 8)
    (bytes : Vector UInt8 n) (index : Nat) (bound : index < 8 * n) :
    bit (carryBits count bytes) index =
      (decide (count ≤ index) && bit bytes (index - count)) := by
  rw [bit_eq_testBit _ _ bound, bit_eq_testBit _ (index - count) (by omega),
    getElem_carryBits, UInt8.toNat_or, Nat.testBit_or,
    testBit_shiftLeft_byte _ small (Nat.mod_lt _ (by decide))]
  by_cases sameByte : count ≤ index % 8
  · -- The bit comes from the same byte; the carry does not reach this high.
    have enough : count ≤ index := by omega
    have byte : (index - count) / 8 = index / 8 := by omega
    have position : (index - count) % 8 = index % 8 - count := by omega
    have noCarry : (if index / 8 = 0 then (0 : UInt8)
        else bytes[index / 8 - 1] >>> UInt8.ofNat (8 - count)).toNat.testBit
          (index % 8) = false := by
      split
      · simp
      · rw [testBit_shiftRight_byte _ _ (by omega)]
        exact testBit_byte_eq_false _ (by omega)
    rw [noCarry]
    simp [sameByte, enough, byte, position]
  · by_cases lowest : index / 8 = 0
    · have short : ¬ count ≤ index := by omega
      simp [sameByte, short, lowest]
    · -- The bit was carried over from the byte below.
      have enough : count ≤ index := by omega
      have byte : (index - count) / 8 = index / 8 - 1 := by omega
      have position : (index - count) % 8 = 8 - count + index % 8 := by omega
      simp only [sameByte, enough, decide_true, decide_false, Bool.false_and,
        Bool.false_or, Bool.true_and, if_neg lowest, byte, position,
        testBit_shiftRight_byte _ _ (by omega : 8 - count < 8)]

/-- Moving bytes and clearing the vacated ones is a shift by whole bytes. -/
theorem bit_zero_moveBytes (count : Nat) (positive : 0 < count)
    (fits : count ≤ n) (bytes : Vector UInt8 n) (index : Nat)
    (bound : index < 8 * n) :
    bit (zeroBytes count fits (moveBytes count bytes)) index =
      (decide (8 * count ≤ index) && bit bytes (index - 8 * count)) := by
  rw [bit_eq_testBit _ _ bound,
    bit_eq_testBit _ (index - 8 * count) (by omega), getElem_zeroBytes,
    getElem_moveBytes count positive fits]
  by_cases vacated : index / 8 < count
  · have short : ¬ 8 * count ≤ index := by omega
    simp [vacated, short]
  · have enough : 8 * count ≤ index := by omega
    have moved : count ≤ index / 8 := by omega
    have byte : (index - 8 * count) / 8 = index / 8 - count := by omega
    have position : (index - 8 * count) % 8 = index % 8 := by omega
    simp [vacated, enough, moved, byte, position]

/-- Shifting is the logical shift of the bit sequence. -/
theorem bit_shiftUp (shift : Nat) (shiftBound : shift < 8 * n)
    (bytes : Vector UInt8 n) (index : Nat) (bound : index < 8 * n) :
    bit (shiftUp shift shiftBound bytes) index =
      (decide (shift ≤ index) && bit bytes (index - shift)) := by
  have wholeBytes : ∀ position, position < 8 * n →
      bit (if 0 < shift / 8 then
        zeroBytes (shift / 8) (by omega) (moveBytes (shift / 8) bytes)
      else bytes) position =
        (decide (8 * (shift / 8) ≤ position) &&
          bit bytes (position - 8 * (shift / 8))) := by
    intro position inside
    split
    case isTrue positive =>
        exact bit_zero_moveBytes (shift / 8) positive (by omega) bytes position
          inside
    case isFalse none =>
        have zero : shift / 8 = 0 := by omega
        simp [zero]
  unfold shiftUp
  by_cases bits : 0 < shift % 8
  · rw [if_pos bits, bit_carryBits (shift % 8) bits (Nat.mod_lt _ (by decide))
      _ index bound, wholeBytes (index - shift % 8) (by omega)]
    by_cases enough : shift ≤ index
    · have low : shift % 8 ≤ index := by omega
      have high : 8 * (shift / 8) ≤ index - shift % 8 := by omega
      have remainder : index - shift % 8 - 8 * (shift / 8) = index - shift := by
        omega
      simp [enough, low, high, remainder]
    · have short : ¬ (shift % 8 ≤ index ∧
          8 * (shift / 8) ≤ index - shift % 8) := by
        omega
      by_cases low : shift % 8 ≤ index
      · have high : ¬ 8 * (shift / 8) ≤ index - shift % 8 := by
          intro reached
          exact short ⟨low, reached⟩
        simp [enough, high]
      · simp [enough, low]
  · have whole : 8 * (shift / 8) = shift := by omega
    rw [if_neg bits, wholeBytes index bound, whole]

end ByteBitmap
