import NyxNet.Lib.Bytes

/-!
# Parsers over byte strings

Parsers that return what they did not consume together with the value, and
refuse a short input with the position where it ran out.  Each primitive has
one lemma that says which inputs it accepts; callers use it in both
directions.
-/

namespace ByteParser

inductive ErrorKind where
  | eof
  deriving DecidableEq, Repr

/-- A refusal: the input left at the failing primitive, and the reason. -/
structure ParseError where
  input : Bytes
  code : ErrorKind
  deriving DecidableEq, Repr

/-- A parser returns the rest of its input and the value. -/
abbrev Parser (α : Type) : Type := Bytes → Except ParseError (Bytes × α)

def u8 : Parser UInt8
  | [] => .error ⟨[], .eof⟩
  | byte :: rest => .ok (rest, byte)

def take (count : Nat) : Parser Bytes := fun input =>
  if input.length < count then .error ⟨input, .eof⟩
  else .ok (input.drop count, input.take count)

/-- A big-endian 16-bit word. -/
def beU16 : Parser UInt16 := fun input => do
  let (rest, bytes) ← take 2 input
  return (rest, UInt16.ofNat (Bytes.ofBeBytes bytes))

/-- A big-endian 32-bit word. -/
def beU32 : Parser UInt32 := fun input => do
  let (rest, bytes) ← take 4 input
  return (rest, UInt32.ofNat (Bytes.ofBeBytes bytes))

/-- Applies a parser until it refuses, `fuel` times at most. -/
def many {α : Type} (parser : Parser α) :
    Nat → Bytes → List α × Bytes
  | 0, input => ([], input)
  | fuel + 1, input =>
      match parser input with
      | .error _ => ([], input)
      | .ok (rest, value) =>
          let (values, rest) := many parser fuel rest
          (value :: values, rest)

/-- A sequence of two computations succeeds when both do. -/
theorem bind_eq_ok_iff {ε α β : Type} {first : Except ε α}
    {next : α → Except ε β} {result : β} :
    first >>= next = .ok result ↔
      ∃ value, first = .ok value ∧ next value = .ok result := by
  cases first with
  | error error =>
      constructor
      · intro equality
        cases equality
      · intro facts
        obtain ⟨value, ⟨⟩, -⟩ := facts
  | ok value =>
      constructor
      · intro succeeds
        exact ⟨value, rfl, succeeds⟩
      · intro facts
        obtain ⟨value', ⟨⟩, succeeds⟩ := facts
        exact succeeds

theorem u8_eq_ok_iff {input rest : Bytes} {byte : UInt8} :
    u8 input = .ok (rest, byte) ↔ input = byte :: rest := by
  cases input with
  | nil =>
      constructor
      · intro equality
        cases equality
      · intro equality
        cases equality
  | cons head tail =>
      constructor
      · intro equality
        cases equality
        rfl
      · intro equality
        cases equality
        rfl

theorem take_eq_ok_iff {count : Nat} {input rest data : Bytes} :
    take count input = .ok (rest, data) ↔
      input = data ++ rest ∧ data.length = count := by
  by_cases short : input.length < count
  · rw [take, if_pos short]
    constructor
    · intro equality
      cases equality
    · intro facts
      obtain ⟨rfl, exact⟩ := facts
      rw [List.length_append] at short
      omega
  · rw [take, if_neg short]
    constructor
    · intro equality
      cases equality
      refine ⟨(List.take_append_drop count input).symm, ?_⟩
      rw [List.length_take]
      omega
    · intro facts
      obtain ⟨rfl, rfl⟩ := facts
      rw [List.drop_left, List.take_left]

/-- A word of a fixed number of bytes is read from its big-endian encoding and
from nothing else. -/
theorem take_word_eq_ok_iff {width : Nat} {ω : Type} {toNat : ω → Nat}
    {ofNat : Nat → ω} (bounded : ∀ word, toNat word < 256 ^ width)
    (ofNat_toNat : ∀ word, ofNat (toNat word) = word)
    (toNat_ofNat : ∀ number, number < 256 ^ width →
      toNat (ofNat number) = number)
    {input rest : Bytes} {word : ω} :
    (do
      let (rest, bytes) ← take width input
      return (rest, ofNat (Bytes.ofBeBytes bytes))) = .ok (rest, word) ↔
      input = (Bytes.beBytes width (toNat word)).toList ++ rest := by
  rw [bind_eq_ok_iff]
  constructor
  · intro facts
    obtain ⟨⟨rest', bytes⟩, taken, ⟨⟩⟩ := facts
    obtain ⟨rfl, length⟩ := take_eq_ok_iff.mp taken
    have bound := Bytes.ofBeBytes_lt bytes
    rw [length] at bound
    rw [toNat_ofNat _ bound, ← length, Bytes.beBytes_ofBeBytes]
  · intro equality
    subst equality
    refine ⟨(rest, (Bytes.beBytes width (toNat word)).toList), ?_, ?_⟩
    · exact take_eq_ok_iff.mpr ⟨rfl, Vector.length_toList⟩
    · simp only [Bytes.ofBeBytes_beBytes (bounded word), ofNat_toNat]
      rfl

theorem beU16_eq_ok_iff {input rest : Bytes} {word : UInt16} :
    beU16 input = .ok (rest, word) ↔
      input = (Bytes.beBytes 2 word.toNat).toList ++ rest :=
  take_word_eq_ok_iff UInt16.toNat_lt (fun _ => UInt16.ofNat_toNat)
    (fun _ => UInt16.toNat_ofNat_of_lt')

theorem beU32_eq_ok_iff {input rest : Bytes} {word : UInt32} :
    beU32 input = .ok (rest, word) ↔
      input = (Bytes.beBytes 4 word.toNat).toList ++ rest :=
  take_word_eq_ok_iff UInt32.toNat_lt (fun _ => UInt32.ofNat_toNat)
    (fun _ => UInt32.toNat_ofNat_of_lt')

/-- Encodings that the parser reads back in front of anything are read back
one after the other. -/
theorem many_flatMap {α : Type} {parser : Parser α}
    {encode : α → Bytes} {refusal : ParseError}
    (stops : parser [] = .error refusal) (values : List α)
    (reads : ∀ value ∈ values, ∀ rest,
      parser (encode value ++ rest) = .ok (rest, value))
    {fuel : Nat} (enough : values.length ≤ fuel) :
    many parser fuel (values.flatMap encode) = (values, []) := by
  induction values generalizing fuel with
  | nil =>
      cases fuel with
      | zero => rfl
      | succ fuel => simp [many, stops]
  | cons value values ih =>
      cases fuel with
      | zero => exact absurd enough (Nat.not_succ_le_zero _)
      | succ fuel =>
          have first := reads value List.mem_cons_self (values.flatMap encode)
          have others := ih
            (fun other member => reads other (List.mem_cons_of_mem value member))
            (Nat.le_of_succ_le_succ enough)
          rw [List.flatMap_cons, many, first]
          simp only [others]

end ByteParser
