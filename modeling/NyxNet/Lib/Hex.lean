import Mathlib.Tactic.Common
import NyxNet.Lib.Bytes
import NyxNet.Lib.SocketAddr

/-!
# Hexadecimal texts

What the users of a decoder of hexadecimal texts rely on: it accepts the texts
of an even number of hexadecimal digits, and two digits make a byte.
-/

namespace Hex

open SocketAddr

def isDigit (letter : Char) : Bool := (toDigit 16 letter).isSome

/-- A text that stands for so many bytes. -/
def Encodes (text : String) (count : Nat) : Prop :=
  text.toList.length = 2 * count ∧ ∀ letter ∈ text.toList, isDigit letter

instance Encodes.decidable (text : String) (count : Nat) :
    Decidable (Encodes text count) :=
  inferInstanceAs (Decidable (_ ∧ ∀ letter ∈ text.toList, _ = true))

/-- The law of a decoder. -/
def Decodes (decode : String → Except String Bytes) : Prop :=
  ∀ text count, (∃ data, decode text = .ok data ∧ data.length = count) ↔
    Encodes text count

def invalidCharacter (letter : Char) (index : Nat) : String :=
  s!"Invalid character '{letter}' at position {index}"

def decodePairs (index : Nat) : List Char → Except String Bytes
  | high :: low :: rest =>
      match toDigit 16 high, toDigit 16 low with
      | none, _ => .error (invalidCharacter high index)
      | some _, none => .error (invalidCharacter low (index + 1))
      | some highValue, some lowValue =>
          match decodePairs (index + 2) rest with
          | .error e => .error e
          | .ok bytes => .ok (UInt8.ofNat (16 * highValue + lowValue) :: bytes)
  | _ => .ok []

def decode (text : String) : Except String Bytes :=
  if text.toList.length % 2 = 0 then
    decodePairs 0 text.toList
  else
    .error "Odd number of digits"

theorem decodePairs_iff (index : Nat) (letters : List Char) (count : Nat)
    (even : letters.length % 2 = 0) :
    (∃ data, decodePairs index letters = .ok data ∧ data.length = count) ↔
      letters.length = 2 * count ∧ ∀ letter ∈ letters, isDigit letter := by
  induction index, letters using decodePairs.induct generalizing count with
  | case1 index high low rest noHigh =>
      simp [decodePairs, noHigh, isDigit]
  | case2 index high low rest highValue someHigh noLow =>
      simp [decodePairs, someHigh, noLow, isDigit]
  | case3 index high low rest highValue lowValue someHigh someLow e failed ih =>
      have evenRest : rest.length % 2 = 0 := by
        rw [List.length_cons, List.length_cons] at even
        omega
      have refused : ∀ count, ¬ (rest.length = 2 * count ∧
          ∀ letter ∈ rest, isDigit letter) := by
        intro count digits
        obtain ⟨data, decoded, -⟩ := (ih count evenRest).mpr digits
        rw [failed] at decoded
        cases decoded
      have whole : decodePairs index (high :: low :: rest) = .error e := by
        simp only [decodePairs, someHigh, someLow, failed]
      rw [whole]
      constructor
      · intro decoded
        obtain ⟨_, decoded, -⟩ := decoded
        cases decoded
      · intro digits
        obtain ⟨length, all⟩ := digits
        refine absurd ⟨?_, ?_⟩ (refused (count - 1))
        · rw [List.length_cons, List.length_cons] at length
          omega
        · intro letter member
          exact all letter (by simp [member])
  | case4 index high low rest highValue lowValue someHigh someLow bytes decoded
      ih =>
      have evenRest : rest.length % 2 = 0 := by
        rw [List.length_cons, List.length_cons] at even
        omega
      have whole : decodePairs index (high :: low :: rest) =
          .ok (UInt8.ofNat (16 * highValue + lowValue) :: bytes) := by
        simp only [decodePairs, someHigh, someLow, decoded]
      obtain ⟨length, digits⟩ :=
        (ih bytes.length evenRest).mp ⟨bytes, decoded, rfl⟩
      rw [whole]
      simp only [Except.ok.injEq, exists_eq_left', List.length_cons,
        List.forall_mem_cons, isDigit, someHigh, someLow, Option.isSome_some,
        true_and, length]
      constructor
      · intro same
        exact ⟨by omega, digits⟩
      · intro same
        omega
  | case5 letters index short =>
      have empty : letters = [] := by
        match letters, short with
        | [], _ => rfl
        | [_], _ => cases even
        | high :: low :: rest, short => exact absurd rfl (short high low rest)
      subst empty
      simp [decodePairs]
      omega

theorem decode_decodes : Decodes decode := by
  intro text count
  unfold decode Encodes
  split
  · next even => exact decodePairs_iff 0 text.toList count even
  · next odd =>
      constructor
      · intro decoded
        obtain ⟨_, decoded, -⟩ := decoded
        cases decoded
      · intro digits
        omega

end Hex
