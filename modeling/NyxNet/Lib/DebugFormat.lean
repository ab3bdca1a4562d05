import Mathlib.Algebra.Group.Nat.Defs
import Mathlib.Algebra.Ring.Nat
import Mathlib.Data.List.Basic
import Mathlib.Data.List.TakeWhile
import Mathlib.Tactic.Common
import NyxNet.Lib.Bytes
import NyxNet.Lib.Time

/-!
# Debug texts

The texts that Rust's `Display` gives for integers and `Debug` for byte
vectors, durations and (on Unix) points in time.  A text is a list of
characters.  Every format here is injective: a text says which value it was
made from, also in front of a suitable rest.
-/

namespace DebugFormat

abbrev Text := List Char

section Split

variable {left right before after : Text}

/-- A text is divided in one way into a front of one kind of characters and a
rest that does not go on with that kind. -/
theorem append_inj_of_span (kind : Char → Bool)
    (leftKind : ∀ letter ∈ left, kind letter = true)
    (rightKind : ∀ letter ∈ right, kind letter = true)
    (beforeEnds : ∀ letter ∈ before.head?, kind letter = false)
    (afterEnds : ∀ letter ∈ after.head?, kind letter = false)
    (same : left ++ before = right ++ after) :
    left = right ∧ before = after := by
  have front : ∀ (text rest : Text), (∀ letter ∈ text, kind letter = true) →
      (∀ letter ∈ rest.head?, kind letter = false) →
        (text ++ rest).takeWhile kind = text := by
    intro text rest textKind restEnds
    rw [List.takeWhile_append_of_pos textKind]
    cases rest with
    | nil => simp
    | cons letter rest =>
        rw [List.takeWhile_cons_of_neg, List.append_nil]
        simp [restEnds letter rfl]
  have fronts : left = right := by
    rw [← front left before leftKind beforeEnds, same,
      front right after rightKind afterEnds]
  refine ⟨fronts, ?_⟩
  rw [fronts] at same
  exact List.append_cancel_left same

/-- A text is divided in one way at the last occurrence of a mark. -/
theorem split_last {mark : Char} (notBefore : mark ∉ before)
    (notAfter : mark ∉ after)
    (same : left ++ mark :: before = right ++ mark :: after) :
    left = right ∧ before = after := by
  have reversed := congrArg List.reverse same
  simp only [List.reverse_append, List.reverse_cons, List.append_assoc,
    List.singleton_append] at reversed
  have unmarked : ∀ text : Text, mark ∉ text →
      ∀ letter ∈ text.reverse, (letter != mark) = true := by
    intro text notMarked letter member
    rw [bne_iff_ne]
    intro equal
    rw [equal, List.mem_reverse] at member
    exact notMarked member
  obtain ⟨rests, fronts⟩ := append_inj_of_span (fun letter => letter != mark)
    (unmarked before notBefore) (unmarked after notAfter) (by simp) (by simp)
    reversed
  refine ⟨?_, List.reverse_injective rests⟩
  exact List.reverse_injective (List.cons.inj fronts).2

end Split

def decimal (number : Nat) : Text := Nat.toDigits 10 number

theorem decimal_injective : Function.Injective decimal := by
  intro left right same
  have parsed := congrArg (fun digits => Nat.ofDigitChars 10 digits 0) same
  simpa [decimal, Nat.ofDigitChars_ten_toDigits] using parsed

theorem isDigit_of_mem_decimal {number : Nat} {letter : Char}
    (member : letter ∈ decimal number) : letter.isDigit = true :=
  Nat.isDigit_of_mem_toDigits (by decide) (by decide) member

theorem decimal_ne_nil (number : Nat) : decimal number ≠ [] :=
  Nat.toDigits_ne_nil

def integer : Int → Text
  | .ofNat number => decimal number
  | .negSucc number => '-' :: decimal (number + 1)

/-- A text that starts with a number does not start with another letter. -/
theorem decimal_append_ne {number : Nat} {letter : Char} {before after : Text}
    (notDigit : letter.isDigit = false) :
    decimal number ++ before ≠ letter :: after := by
  intro equal
  cases digits : decimal number with
  | nil => exact decimal_ne_nil number digits
  | cons first rest =>
      rw [digits, List.cons_append] at equal
      have member : letter ∈ decimal number := by
        rw [digits, (List.cons.inj equal).1]
        exact List.mem_cons_self
      have digit := isDigit_of_mem_decimal member
      rw [notDigit] at digit
      cases digit

theorem decimal_ne {number : Nat} {letter : Char} {rest : Text}
    (notDigit : letter.isDigit = false) : decimal number ≠ letter :: rest := by
  have apart : decimal number ++ [] ≠ letter :: rest :=
    decimal_append_ne notDigit
  rwa [List.append_nil] at apart

theorem integer_injective : Function.Injective integer := by
  intro left right same
  cases left with
  | ofNat left =>
      cases right with
      | ofNat right => rw [decimal_injective same]
      | negSucc right => exact absurd same (decimal_ne (by decide))
  | negSucc left =>
      cases right with
      | ofNat right => exact absurd same.symm (decimal_ne (by decide))
      | negSucc right =>
          have equal := decimal_injective (List.cons.inj same).2
          rw [Nat.succ.inj equal]

/-- Digits and a minus sign. -/
def isIntegerLetter (letter : Char) : Bool :=
  letter.isDigit || letter == '-'

theorem isIntegerLetter_of_mem_integer {number : Int} {letter : Char}
    (member : letter ∈ integer number) : isIntegerLetter letter = true := by
  cases number with
  | ofNat number =>
      simp [isIntegerLetter, isDigit_of_mem_decimal member]
  | negSucc number =>
      rcases List.mem_cons.mp member with sign | digit
      · simp [isIntegerLetter, sign]
      · simp [isIntegerLetter, isDigit_of_mem_decimal digit]

/-- An integer in front of a rest that does not go on with its letters. -/
theorem integer_append_inj {left right : Int} {before after : Text}
    (beforeEnds : ∀ letter ∈ before.head?, isIntegerLetter letter = false)
    (afterEnds : ∀ letter ∈ after.head?, isIntegerLetter letter = false)
    (same : integer left ++ before = integer right ++ after) :
    left = right ∧ before = after := by
  obtain ⟨texts, rests⟩ := append_inj_of_span isIntegerLetter
    (fun _ => isIntegerLetter_of_mem_integer)
    (fun _ => isIntegerLetter_of_mem_integer) beforeEnds afterEnds same
  exact ⟨integer_injective texts, rests⟩

theorem decimal_append_inj {left right : Nat} {before after : Text}
    (beforeEnds : ∀ letter ∈ before.head?, letter.isDigit = false)
    (afterEnds : ∀ letter ∈ after.head?, letter.isDigit = false)
    (same : decimal left ++ before = decimal right ++ after) :
    left = right ∧ before = after := by
  obtain ⟨texts, rests⟩ := append_inj_of_span Char.isDigit
    (fun _ => isDigit_of_mem_decimal) (fun _ => isDigit_of_mem_decimal)
    beforeEnds afterEnds same
  exact ⟨decimal_injective texts, rests⟩

/-- What follows a byte of the vector. -/
def debugBytesTail : Bytes → Text
  | [] => [']']
  | byte :: rest => ',' :: ' ' :: (decimal byte.toNat ++ debugBytesTail rest)

/-- `{:?}` of a `Vec<u8>`. -/
def debugBytes : Bytes → Text
  | [] => ['[', ']']
  | byte :: rest => '[' :: (decimal byte.toNat ++ debugBytesTail rest)

theorem debugBytesTail_ends (bytes : Bytes) :
    ∀ letter ∈ (debugBytesTail bytes).head?, letter.isDigit = false := by
  cases bytes with
  | nil => simp [debugBytesTail]
  | cons byte rest => simp [debugBytesTail]

theorem debugBytes_step {left right : UInt8} {before after : Bytes}
    (same : decimal left.toNat ++ debugBytesTail before =
      decimal right.toNat ++ debugBytesTail after) :
    left = right ∧ debugBytesTail before = debugBytesTail after := by
  obtain ⟨numbers, rests⟩ := decimal_append_inj (debugBytesTail_ends before)
    (debugBytesTail_ends after) same
  exact ⟨UInt8.toNat_inj.mp numbers, rests⟩

theorem debugBytesTail_injective : Function.Injective debugBytesTail := by
  intro left
  induction left with
  | nil =>
      intro right same
      cases right with
      | nil => rfl
      | cons byte rest => simp [debugBytesTail] at same
  | cons byte rest ih =>
      intro right same
      cases right with
      | nil => simp [debugBytesTail] at same
      | cons other others =>
          simp only [debugBytesTail, List.cons.injEq, true_and] at same
          obtain ⟨bytes, rests⟩ := debugBytes_step same
          rw [bytes, ih rests]

theorem debugBytes_injective : Function.Injective debugBytes := by
  intro left right same
  cases left with
  | nil =>
      cases right with
      | nil => rfl
      | cons byte rest =>
          exact absurd (List.cons.inj same).2.symm
            (decimal_append_ne (by decide))
  | cons byte rest =>
      cases right with
      | nil =>
          exact absurd (List.cons.inj same).2 (decimal_append_ne (by decide))
      | cons other others =>
          obtain ⟨bytes, rests⟩ := debugBytes_step (List.cons.inj same).2
          rw [bytes, debugBytesTail_injective rests]

theorem colon_notMem_decimal (number : Nat) : ':' ∉ decimal number := by
  intro member
  exact absurd (isDigit_of_mem_decimal member) (by decide)

theorem colon_notMem_debugBytesTail (bytes : Bytes) :
    ':' ∉ debugBytesTail bytes := by
  induction bytes with
  | nil => decide
  | cons byte rest ih =>
      simp [debugBytesTail, ih, colon_notMem_decimal]

theorem colon_notMem_debugBytes (bytes : Bytes) : ':' ∉ debugBytes bytes := by
  cases bytes with
  | nil => decide
  | cons byte rest =>
      simp [debugBytes, colon_notMem_decimal, colon_notMem_debugBytesTail]

/-- The digits after the point, as `fmt_decimal` produces them: one digit for
each power of ten until nothing is left. -/
def fractionDigits : Nat → Nat → Nat → Text
  | 0, _, _ => []
  | steps + 1, fraction, divisor =>
      if fraction = 0 then
        []
      else
        Nat.digitChar (fraction / divisor) ::
          fractionDigits steps (fraction % divisor) (divisor / 10)

/-- The point is written only in front of digits. -/
def pointed : Text → Text
  | [] => []
  | digit :: digits => '.' :: digit :: digits

/-- `fmt_decimal` of the standard library, with no precision asked for. -/
def fmtDecimal (integerPart fraction divisor : Nat) (unit : Text) : Text :=
  decimal integerPart ++ pointed (fractionDigits 9 fraction divisor) ++ unit

/-- `{:?}` of a `Duration`. -/
def debugDuration (span : Duration) : Text :=
  if 0 < span.secs then
    fmtDecimal span.secs span.nanos 100000000 ['s']
  else if 1000000 ≤ span.nanos then
    fmtDecimal (span.nanos / 1000000) (span.nanos % 1000000) 100000 ['m', 's']
  else if 1000 ≤ span.nanos then
    fmtDecimal (span.nanos / 1000) (span.nanos % 1000) 100 ['µ', 's']
  else
    fmtDecimal span.nanos 0 1 ['n', 's']

theorem digitChar_inj {left right : Nat} (leftSmall : left < 10)
    (rightSmall : right < 10)
    (same : Nat.digitChar left = Nat.digitChar right) : left = right := by
  apply decimal_injective
  rw [decimal, decimal, Nat.toDigits_of_lt_base leftSmall,
    Nat.toDigits_of_lt_base rightSmall, same]

@[simp] theorem fractionDigits_zero (steps divisor : Nat) :
    fractionDigits steps 0 divisor = [] := by
  cases steps with
  | zero => rfl
  | succ steps => simp [fractionDigits]

theorem leadingDigit_lt {place fraction : Nat}
    (bound : fraction < 10 ^ (place + 1)) : fraction / 10 ^ place < 10 := by
  apply Nat.div_lt_of_lt_mul
  rwa [Nat.pow_succ] at bound

theorem isDigit_of_mem_fractionDigits {steps place fraction : Nat}
    (bound : fraction < 10 ^ (place + 1)) :
    ∀ letter ∈ fractionDigits steps fraction (10 ^ place),
      letter.isDigit = true := by
  induction steps generalizing place fraction with
  | zero => simp [fractionDigits]
  | succ steps ih =>
      intro letter member
      rw [fractionDigits] at member
      split at member
      · cases member
      · rcases List.mem_cons.mp member with first | later
        · rw [first, Nat.isDigit_digitChar, decide_eq_true_eq]
          exact leadingDigit_lt bound
        · cases place with
          | zero => simp [Nat.mod_one] at later
          | succ place =>
              rw [Nat.pow_succ, Nat.mul_div_cancel _ (by decide)] at later
              exact ih (Nat.mod_lt _ (Nat.pow_pos (by decide))) letter later

/-- Below the power of ten the digits start at, they determine the fraction. -/
theorem fractionDigits_inj {steps place left right : Nat}
    (enough : place < steps) (leftBound : left < 10 ^ (place + 1))
    (rightBound : right < 10 ^ (place + 1))
    (same : fractionDigits steps left (10 ^ place) =
      fractionDigits steps right (10 ^ place)) : left = right := by
  induction steps generalizing place left right with
  | zero => omega
  | succ steps ih =>
      rw [fractionDigits, fractionDigits] at same
      split at same
      · split at same
        · omega
        · cases same
      · split at same
        · cases same
        · obtain ⟨firsts, rests⟩ := List.cons.inj same
          have digits : left / 10 ^ place = right / 10 ^ place :=
            digitChar_inj (leadingDigit_lt leftBound)
              (leadingDigit_lt rightBound) firsts
          have remainders : left % 10 ^ place = right % 10 ^ place := by
            cases place with
            | zero => rw [Nat.pow_zero, Nat.mod_one, Nat.mod_one]
            | succ place =>
                rw [Nat.pow_succ, Nat.mul_div_cancel _ (by decide)] at rests
                exact ih (by omega) (Nat.mod_lt _ (Nat.pow_pos (by decide)))
                  (Nat.mod_lt _ (Nat.pow_pos (by decide))) rests
          rw [← Nat.div_add_mod left (10 ^ place), digits, remainders,
            Nat.div_add_mod]

theorem pointed_injective : Function.Injective pointed := by
  intro left right same
  cases left with
  | nil =>
      cases right with
      | nil => rfl
      | cons digit digits => cases same
  | cons digit digits =>
      cases right with
      | nil => cases same
      | cons other others => exact (List.cons.inj same).2

theorem pointed_ends (digits : Text) :
    ∀ letter ∈ (pointed digits).head?, letter.isDigit = false := by
  cases digits with
  | nil => simp [pointed]
  | cons digit digits => simp [pointed]

/-- Digits and the decimal point. -/
def isNumberLetter (letter : Char) : Bool :=
  letter.isDigit || letter == '.'

/-- `total` pieces, `10 ^ places` of which make up the unit. -/
def fmtScaled (total places : Nat) (unit : Text) : Text :=
  fmtDecimal (total / 10 ^ places) (total % 10 ^ places) (10 ^ (places - 1))
    unit

theorem remainder_lt (total places : Nat) :
    total % 10 ^ places < 10 ^ (places - 1 + 1) := by
  apply Nat.lt_of_lt_of_le (Nat.mod_lt total (Nat.pow_pos (by decide)))
  exact Nat.pow_le_pow_right (by decide) (by omega)

theorem isNumberLetter_of_mem_number (total places : Nat) :
    ∀ letter ∈ decimal (total / 10 ^ places) ++
        pointed (fractionDigits 9 (total % 10 ^ places) (10 ^ (places - 1))),
      isNumberLetter letter = true := by
  have fraction : ∀ letter ∈
      fractionDigits 9 (total % 10 ^ places) (10 ^ (places - 1)),
        letter.isDigit = true :=
    isDigit_of_mem_fractionDigits (remainder_lt total places)
  intro letter member
  rcases List.mem_append.mp member with whole | inPointed
  · simp [isNumberLetter, isDigit_of_mem_decimal whole]
  · generalize fractionDigits 9 (total % 10 ^ places) (10 ^ (places - 1)) =
      digits at fraction inPointed
    cases digits with
    | nil => cases inPointed
    | cons digit digits =>
        rcases List.mem_cons.mp inPointed with point | inDigits
        · simp [isNumberLetter, point]
        · simp [isNumberLetter, fraction letter inDigits]

theorem fmtScaled_inj {left right leftPlaces rightPlaces : Nat}
    {leftUnit rightUnit : Text}
    (leftEnds : ∀ letter ∈ leftUnit.head?, isNumberLetter letter = false)
    (rightEnds : ∀ letter ∈ rightUnit.head?, isNumberLetter letter = false)
    (leftPlacesBound : leftPlaces ≤ 9)
    (same : fmtScaled left leftPlaces leftUnit =
      fmtScaled right rightPlaces rightUnit) :
    leftUnit = rightUnit ∧ (leftPlaces = rightPlaces → left = right) := by
  obtain ⟨numbers, units⟩ := append_inj_of_span isNumberLetter
    (isNumberLetter_of_mem_number left leftPlaces)
    (isNumberLetter_of_mem_number right rightPlaces) leftEnds rightEnds same
  refine ⟨units, ?_⟩
  intro places
  subst places
  obtain ⟨wholes, fractions⟩ := decimal_append_inj (pointed_ends _)
    (pointed_ends _) numbers
  have remainders := fractionDigits_inj (by omega) (remainder_lt _ _)
    (remainder_lt _ _) (pointed_injective fractions)
  rw [← Nat.div_add_mod left (10 ^ leftPlaces), wholes, remainders,
    Nat.div_add_mod]

/-- The units a duration is written in, with the power of ten of nanoseconds
that each of them is. -/
def durationUnits : List (Nat × Text) :=
  [(9, ['s']), (6, ['m', 's']), (3, ['µ', 's']), (0, ['n', 's'])]

theorem mem_durationUnits {unit : Nat × Text} :
    unit ∈ durationUnits ↔ unit = (9, ['s']) ∨ unit = (6, ['m', 's']) ∨
      unit = (3, ['µ', 's']) ∨ unit = (0, ['n', 's']) := by
  simp [durationUnits]

theorem durationUnits_spec {unit : Nat × Text} (member : unit ∈ durationUnits) :
    unit.1 ≤ 9 ∧ (∀ letter ∈ unit.2.head?, isNumberLetter letter = false) ∧
      ':' ∉ unit.2 := by
  rcases mem_durationUnits.mp member with rfl | rfl | rfl | rfl <;>
    simp [isNumberLetter]

theorem durationUnits_inj {left right : Nat × Text}
    (leftMember : left ∈ durationUnits) (rightMember : right ∈ durationUnits)
    (same : left.2 = right.2) : left.1 = right.1 := by
  rcases mem_durationUnits.mp leftMember with rfl | rfl | rfl | rfl <;>
    rcases mem_durationUnits.mp rightMember with rfl | rfl | rfl | rfl <;>
      simp_all

theorem debugDuration_eq_fmtScaled (span : Duration) :
    ∃ unit ∈ durationUnits,
      debugDuration span = fmtScaled span.asNanos unit.1 unit.2 := by
  have nanos := span.nanos_lt
  unfold debugDuration
  split
  · refine ⟨(9, ['s']), by simp [durationUnits], ?_⟩
    have whole : span.asNanos / 10 ^ 9 = span.secs := by
      unfold Duration.asNanos
      omega
    have rest : span.asNanos % 10 ^ 9 = span.nanos := by
      unfold Duration.asNanos
      omega
    rw [fmtScaled, whole, rest]
    rfl
  · next noSecs =>
      have small : span.asNanos = span.nanos := by
        unfold Duration.asNanos
        omega
      split
      · exact ⟨(6, ['m', 's']), by simp [durationUnits], by rw [small]; rfl⟩
      · split
        · exact ⟨(3, ['µ', 's']), by simp [durationUnits], by rw [small]; rfl⟩
        · refine ⟨(0, ['n', 's']), by simp [durationUnits], ?_⟩
          rw [fmtScaled, small, Nat.pow_zero, Nat.div_one, Nat.mod_one]
          rfl

example : String.ofList (debugDuration ⟨0, 1050000, by decide, by decide⟩) =
    "1.05ms" := by decide +kernel

theorem debugDuration_injective : Function.Injective debugDuration := by
  intro left right same
  obtain ⟨leftUnit, leftMember, leftText⟩ := debugDuration_eq_fmtScaled left
  obtain ⟨rightUnit, rightMember, rightText⟩ := debugDuration_eq_fmtScaled right
  obtain ⟨leftPlaces, leftEnds, -⟩ := durationUnits_spec leftMember
  obtain ⟨-, rightEnds, -⟩ := durationUnits_spec rightMember
  rw [leftText, rightText] at same
  obtain ⟨units, totals⟩ := fmtScaled_inj leftEnds rightEnds leftPlaces same
  exact Duration.asNanos_injective
    (totals (durationUnits_inj leftMember rightMember units))

theorem colon_notMem_debugDuration (span : Duration) :
    ':' ∉ debugDuration span := by
  obtain ⟨unit, unitMember, text⟩ := debugDuration_eq_fmtScaled span
  rw [text, fmtScaled, fmtDecimal]
  intro member
  rcases List.mem_append.mp member with inNumber | inUnit
  · exact absurd (isNumberLetter_of_mem_number _ _ ':' inNumber) (by decide)
  · exact (durationUnits_spec unitMember).2.2 inUnit

/-- The name of the type and of its first field. -/
def timeHead : Text := "SystemTime \x7b tv_sec".toList

/-- The seconds field with the name of the next one. -/
def secText (time : SystemTime) : Text :=
  ' ' :: (integer time.tvSec ++ ", tv_nsec".toList)

/-- The nanoseconds field with the closing brace. -/
def nsecText (time : SystemTime) : Text :=
  ' ' :: (decimal time.tvNsec ++ " \x7d".toList)

/-- `{:?}` of a `SystemTime`: the fields of its `timespec` on Unix. -/
def debugSystemTime (time : SystemTime) : Text :=
  timeHead ++ ':' :: (secText time ++ ':' :: nsecText time)

theorem colon_notMem_secText (time : SystemTime) : ':' ∉ secText time := by
  have number : ':' ∉ integer time.tvSec := by
    intro member
    exact absurd (isIntegerLetter_of_mem_integer member) (by decide)
  simp [secText, number]

theorem colon_notMem_nsecText (time : SystemTime) : ':' ∉ nsecText time := by
  simp [nsecText, colon_notMem_decimal]

/-- A time after a colon at the end of a text can be read from the right: the
last three colons of the text are known. -/
theorem debugSystemTime_append_inj {before after : Text}
    {left right : SystemTime}
    (same : before ++ ':' :: debugSystemTime left =
      after ++ ':' :: debugSystemTime right) :
    before = after ∧ left = right := by
  have shape : ∀ (front : Text) (time : SystemTime),
      front ++ ':' :: debugSystemTime time =
        ((front ++ ':' :: timeHead) ++ ':' :: secText time) ++
          ':' :: nsecText time := by
    intro front time
    simp only [debugSystemTime, List.append_assoc, List.cons_append]
  rw [shape, shape] at same
  obtain ⟨others, nsecs⟩ := split_last (colon_notMem_nsecText left)
    (colon_notMem_nsecText right) same
  obtain ⟨fronts, secs⟩ := split_last (colon_notMem_secText left)
    (colon_notMem_secText right) others
  refine ⟨List.append_cancel_right fronts, ?_⟩
  obtain ⟨-, secTexts⟩ := List.cons.inj secs
  obtain ⟨-, nsecTexts⟩ := List.cons.inj nsecs
  obtain ⟨sameSec, -⟩ := integer_append_inj (by simp [isIntegerLetter])
    (by simp [isIntegerLetter]) secTexts
  obtain ⟨sameNsec, -⟩ := decimal_append_inj (by simp) (by simp) nsecTexts
  exact SystemTime.ext sameSec sameNsec

example : String.ofList
    (debugSystemTime (SystemTime.ofUnixSecs 1700000000 (by decide))) =
      "SystemTime \x7b tv_sec: 1700000000, tv_nsec: 0 \x7d" := by
  decide +kernel

end DebugFormat
