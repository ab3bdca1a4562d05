import Mathlib.Data.List.Infix
import Mathlib.Tactic.Common
import NyxNet.Lib.DebugFormat

/-!
# Methods of `str`

The methods of Rust's `str` that take texts apart, and its parsers for unsigned
integers and truth values.  A text is a list of characters.
-/

namespace Str

open DebugFormat

/-- `char::is_whitespace`, the property `White_Space`. -/
def isWhitespace (char : Char) : Bool :=
  let code := char.toNat
  (9 ≤ code && code ≤ 13) || code == 0x20 || code == 0x85 || code == 0xA0 ||
    code == 0x1680 || (0x2000 ≤ code && code ≤ 0x200A) || code == 0x2028 ||
    code == 0x2029 || code == 0x202F || code == 0x205F || code == 0x3000

/-- `trim`. -/
def trim (text : Text) : Text :=
  ((text.dropWhile isWhitespace).reverse.dropWhile isWhitespace).reverse

/-- A text without whitespace at its ends. -/
theorem trim_eq_self {text : Text}
    (first : ∀ letter ∈ text.head?, isWhitespace letter = false)
    (last : ∀ letter ∈ text.getLast?, isWhitespace letter = false) :
    trim text = text := by
  have unchanged : ∀ letters : Text, (∀ letter ∈ letters.head?,
      isWhitespace letter = false) →
        letters.dropWhile isWhitespace = letters := by
    intro letters visible
    cases letters with
    | nil => rfl
    | cons letter rest =>
        apply List.dropWhile_cons_of_neg
        simp [visible letter rfl]
  rw [trim, unchanged text first, unchanged, List.reverse_reverse]
  rw [List.head?_reverse]
  exact last

/-- `contains`. -/
def contains (text part : Text) : Bool := decide (part <:+: text)

/-- `rfind` of a mark and the parts of the text around it. -/
def rsplitOnce (mark : Char) : Text → Option (Text × Text)
  | [] => none
  | letter :: rest =>
      match rsplitOnce mark rest with
      | some (before, after) => some (letter :: before, after)
      | none => if letter = mark then some ([], rest) else none

/-- `find` of a part and the text around its first occurrence. -/
def splitOnce (part : Text) : Text → Option (Text × Text)
  | [] => if part = [] then some ([], []) else none
  | letter :: rest =>
      if part <+: letter :: rest then
        some ([], (letter :: rest).drop part.length)
      else
        (splitOnce part rest).map fun (before, after) =>
          (letter :: before, after)

variable {mark : Char}

theorem rsplitOnce_of_notMem {text : Text} (unmarked : mark ∉ text) :
    rsplitOnce mark text = none := by
  induction text with
  | nil => rfl
  | cons letter rest ih =>
      rw [List.mem_cons, not_or] at unmarked
      rw [rsplitOnce, ih unmarked.2]
      exact if_neg (Ne.symm unmarked.1)

theorem rsplitOnce_append (before : Text) {after : Text}
    (unmarked : mark ∉ after) :
    rsplitOnce mark (before ++ mark :: after) = some (before, after) := by
  induction before with
  | nil =>
      rw [List.nil_append, rsplitOnce, rsplitOnce_of_notMem unmarked]
      exact if_pos rfl
  | cons letter before ih =>
      rw [List.cons_append, rsplitOnce, ih]

/-- A marked text is divided at the last mark. -/
theorem exists_rsplitOnce {text : Text} (marked : mark ∈ text) :
    ∃ before after, text = before ++ mark :: after ∧ mark ∉ after ∧
      rsplitOnce mark text = some (before, after) := by
  induction text with
  | nil => cases marked
  | cons letter rest ih =>
      by_cases later : mark ∈ rest
      · obtain ⟨before, after, rfl, unmarked, -⟩ := ih later
        exact ⟨letter :: before, after, rfl, unmarked,
          rsplitOnce_append (letter :: before) unmarked⟩
      · have here : mark = letter := by
          rcases List.mem_cons.mp marked with same | member
          · exact same
          · exact absurd member later
        cases here
        exact ⟨[], rest, rfl, later, rsplitOnce_append [] later⟩

/-- What follows the last mark ends with a tail that has none. -/
theorem suffix_of_rsplitOnce {text before after rest : Text}
    (unmarked : mark ∉ rest)
    (split : rsplitOnce mark (text ++ rest) = some (before, after)) :
    rest <:+ after := by
  by_cases marked : mark ∈ text
  · obtain ⟨front, back, rfl, clean, -⟩ := exists_rsplitOnce marked
    have divided := rsplitOnce_append front
      (List.not_mem_append clean unmarked)
    rw [List.append_assoc, List.cons_append, divided] at split
    cases split
    exact List.suffix_append back rest
  · rw [rsplitOnce_of_notMem (List.not_mem_append marked unmarked)] at split
    cases split

/-- `IntErrorKind`, as far as unsigned types have it. -/
inductive IntErrorKind where
  | empty
  | invalidDigit
  | posOverflow
  deriving DecidableEq, Repr

def IntErrorKind.display : IntErrorKind → String
  | .empty => "cannot parse integer from empty string"
  | .invalidDigit => "invalid digit found in string"
  | .posOverflow => "number too large to fit in target type"

/-- Decimal digits after a value, up to the bound of the type. -/
def readDigits (bound : Nat) : Nat → Text → Except IntErrorKind Nat
  | value, [] => .ok value
  | value, letter :: rest =>
      if letter.isDigit then
        let next := value * 10 + (letter.toNat - '0'.toNat)
        if next < bound then readDigits bound next rest
        else .error .posOverflow
      else
        .error .invalidDigit

/-- `parse` at an unsigned type with the given bound. -/
def parseUnsigned (bound : Nat) : Text → Except IntErrorKind Nat
  | [] => .error .empty
  | ['+'] => .error .invalidDigit
  | '+' :: first :: rest => readDigits bound 0 (first :: rest)
  | text => readDigits bound 0 text

/-- `parse::<bool>()`. -/
def parseBool (text : String) : Except String Bool :=
  if text = "true" then .ok true
  else if text = "false" then .ok false
  else .error "provided string was not `true` or `false`"

/-- The sign in front of a number. -/
def splitSign : Text → Bool × Text
  | '-' :: rest => (true, rest)
  | '+' :: rest => (false, rest)
  | text => (false, text)

/-- What follows the digits of a float. -/
def parseExponent : Text → Option Int
  | [] => some 0
  | letter :: rest =>
      let (negative, digits) := splitSign rest
      if (letter = 'e' ∨ letter = 'E') ∧ digits ≠ [] ∧
          digits.all Char.isDigit then
        let exponent : Int := Nat.ofDigitChars 10 digits 0
        some (if negative then -exponent else exponent)
      else
        none

/-- A decimal number without its sign, rounded to the closest double. -/
def parseDecimal (text : Text) : Option Float :=
  let whole := text.takeWhile Char.isDigit
  let afterWhole := text.dropWhile Char.isDigit
  let (fraction, rest) := match afterWhole with
    | '.' :: tail => (tail.takeWhile Char.isDigit, tail.dropWhile Char.isDigit)
    | _ => ([], afterWhole)
  if whole ++ fraction = [] then
    none
  else
    (parseExponent rest).map fun exponent =>
      let shift : Int := exponent - fraction.length
      Float.ofScientific (Nat.ofDigitChars 10 (whole ++ fraction) 0)
        (decide (shift < 0)) shift.natAbs

/-- The values that are no numbers, in any case of letters. -/
def parseSpecial (text : Text) : Option Float :=
  match String.ofList (text.map Char.toLower) with
  | "inf" => some (1 / 0)
  | "infinity" => some (1 / 0)
  | "nan" => some (0 / 0)
  | _ => none

/-- `parse::<f64>()`. -/
def parseFloat (text : Text) : Except String Float :=
  if text = [] then
    .error "cannot parse float from empty string"
  else
    let (negative, digits) := splitSign text
    match (parseDecimal digits).or (parseSpecial digits) with
    | some value => .ok (if negative then -value else value)
    | none => .error "invalid float literal"

example : parseFloat "0.1".toList = .ok (Float.ofBits 0x3fb999999999999a) ∧
    parseFloat "-2.5e2".toList = .ok (Float.ofBits 0xc06f400000000000) ∧
    parseFloat ".".toList = .error "invalid float literal" := by
  decide +kernel

theorem readDigits_ne_ok {bound value : Nat} {text : Text} {letter : Char}
    (member : letter ∈ text) (noDigit : letter.isDigit = false) (result : Nat) :
    readDigits bound value text ≠ .ok result := by
  induction text generalizing value with
  | nil => cases member
  | cons first rest ih =>
      intro read
      rw [readDigits] at read
      split at read
      · next digit =>
          simp only at read
          split at read
          · rcases List.mem_cons.mp member with rfl | later
            · rw [noDigit] at digit
              cases digit
            · exact ih later read
          · cases read
      · cases read

/-- Nothing but digits and a plus sign is parsed. -/
theorem parseUnsigned_ne_ok {bound : Nat} {text : Text} {letter : Char}
    (member : letter ∈ text) (noDigit : letter.isDigit = false)
    (noPlus : letter ≠ '+') (result : Nat) :
    parseUnsigned bound text ≠ .ok result := by
  intro parsed
  unfold parseUnsigned at parsed
  split at parsed
  · cases member
  · cases parsed
  · next first rest =>
      rcases List.mem_cons.mp member with rfl | later
      · exact noPlus rfl
      · exact readDigits_ne_ok later noDigit result parsed
  · exact readDigits_ne_ok member noDigit result parsed

end Str
