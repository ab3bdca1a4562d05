import Mathlib.Algebra.Group.Nat.Defs
import Mathlib.Order.Basic
import Mathlib.Tactic.Common

/-!
# Spans and points of time

`Duration` and `SystemTime` of the Rust standard library, the latter as it is
kept on Unix, and the readings of its monotonic clock.
-/

/-- A span of time. -/
@[ext] structure Duration where
  secs : Nat
  nanos : Nat
  secs_lt : secs < 18446744073709551616
  nanos_lt : nanos < 1000000000
  deriving DecidableEq, Repr

namespace Duration

/-- The length of a span in nanoseconds, by which spans are compared. -/
def asNanos (span : Duration) : Nat := span.secs * 1000000000 + span.nanos

def asMillis (span : Duration) : Nat := span.secs * 1000 + span.nanos / 1000000

/-- The span of that many nanoseconds. -/
def ofNanos (count : Nat) (fits : count < 18446744073709551616 * 1000000000) :
    Duration where
  secs := count / 1000000000
  nanos := count % 1000000000
  secs_lt := by omega
  nanos_lt := by omega

def fromMillis (count : UInt64) : Duration :=
  ofNanos (count.toNat * 1000000) (by
    have bound := count.toNat_lt
    omega)

def fromSecs (count : UInt64) : Duration where
  secs := count.toNat
  nanos := 0
  secs_lt := count.toNat_lt
  nanos_lt := by decide

def zero : Duration := fromSecs 0

/-- `checked_add`. -/
@[irreducible] def checkedAdd (left right : Duration) : Option Duration :=
  if fits : left.asNanos + right.asNanos <
      18446744073709551616 * 1000000000 then
    some (ofNanos (left.asNanos + right.asNanos) fits)
  else
    none

/-- `std::cmp::min`. -/
def least (left right : Duration) : Duration :=
  if right.asNanos < left.asNanos then right else left

/-- `as_secs_f64`. -/
def asSecsF64 (span : Duration) : Float :=
  (UInt64.ofNat span.secs).toFloat +
    (UInt32.ofNat span.nanos).toFloat / 1000000000.0

/-- A quotient rounded to the nearest number, ties to the even one. -/
def nearestEven (numerator unit : Nat) : Nat :=
  if 2 * (numerator % unit) < unit ∨
      2 * (numerator % unit) = unit ∧ numerator / unit % 2 = 0 then
    numerator / unit
  else
    numerator / unit + 1

/-- `try_from_secs_f64`, to the nearest nanosecond.  There is no span for a
negative number, for one of `2^64` or more and for what is no number. -/
@[irreducible] def tryFromSecsF64 (secs : Float) : Option Duration :=
  if secs < 0.0 then
    none
  else
    let bits := secs.toBits.toNat
    let mantissa := bits % 2 ^ 52 + 2 ^ 52
    let exponent := bits / 2 ^ 52 % 2 ^ 11
    -- The value of the number is `mantissa * 2 ^ exponent / 2 ^ 1075`.
    let count := nearestEven (1000000000 * mantissa * 2 ^ exponent) (2 ^ 1075)
    if fits : count < 18446744073709551616 * 1000000000 then
      some (ofNanos count fits)
    else
      none

/-- `mul_f64`; no result stands for its panic. -/
def mulF64 (span : Duration) (factor : Float) : Option Duration :=
  tryFromSecsF64 (factor * span.asSecsF64)

example : (fromMillis 100).mulF64 2.5 = some (fromMillis 250) ∧
    (fromMillis 100).mulF64 (-1.0) = none := by
  decide +kernel

theorem asNanos_injective : Function.Injective asNanos := by
  intro left right same
  have leftBound := left.nanos_lt
  have rightBound := right.nanos_lt
  unfold asNanos at same
  have secs : left.secs = right.secs := by omega
  have nanos : left.nanos = right.nanos := by omega
  exact Duration.ext secs nanos

@[simp] theorem asNanos_ofNanos (count : Nat)
    (fits : count < 18446744073709551616 * 1000000000) :
    (ofNanos count fits).asNanos = count :=
  Nat.div_add_mod' count 1000000000

end Duration

/-- A point in time: a signed 64-bit second and the nanosecond in it. -/
@[ext] structure SystemTime where
  tvSec : Int
  tvNsec : Nat
  tvSec_ge : -9223372036854775808 ≤ tvSec
  tvSec_lt : tvSec < 9223372036854775808
  tvNsec_lt : tvNsec < 1000000000
  deriving DecidableEq, Repr

namespace SystemTime

/-- The beginning of a second, counted from the Unix epoch. -/
def ofUnixSecs (count : Nat) (fits : count < 9223372036854775808) :
    SystemTime where
  tvSec := count
  tvNsec := 0
  tvSec_ge := by omega
  tvSec_lt := by omega
  tvNsec_lt := by omega

def asNanos (time : SystemTime) : Int := time.tvSec * 1000000000 + time.tvNsec

/-- The span since an earlier point; an error when that point lies ahead. -/
def durationSince (time earlier : SystemTime) : Option Duration :=
  if earlier.asNanos ≤ time.asNanos then
    some (Duration.ofNanos (time.asNanos - earlier.asNanos).toNat (by
      have timeLt := time.tvSec_lt
      have timeNsec := time.tvNsec_lt
      have earlierGe := earlier.tvSec_ge
      unfold asNanos
      omega))
  else
    none

def unixEpoch : SystemTime := ofUnixSecs 0 (by decide)

/-- The point that lies a span ahead, unless its second does not fit. -/
def checkedAdd (time : SystemTime) (span : Duration) : Option SystemTime :=
  if fits : (time.tvSec + span.secs +
      ((time.tvNsec + span.nanos) / 1000000000 : Nat)).toNat <
        9223372036854775808 then
    some {
      tvSec := time.tvSec + span.secs +
        ((time.tvNsec + span.nanos) / 1000000000 : Nat)
      tvNsec := (time.tvNsec + span.nanos) % 1000000000
      tvSec_ge := by
        have timeGe := time.tvSec_ge
        omega
      tvSec_lt := by omega
      tvNsec_lt := by omega }
  else
    none

/-- The point that lies a span back, unless its second does not fit. -/
def checkedSub (time : SystemTime) (span : Duration) : Option SystemTime :=
  let borrow : Nat := if time.tvNsec < span.nanos then 1 else 0
  if fits : -9223372036854775808 ≤ time.tvSec - span.secs - borrow then
    some {
      tvSec := time.tvSec - span.secs - borrow
      tvNsec := time.tvNsec + borrow * 1000000000 - span.nanos
      tvSec_ge := fits
      tvSec_lt := by
        have timeLt := time.tvSec_lt
        omega
      tvNsec_lt := by
        have timeNsec := time.tvNsec_lt
        simp only [borrow]
        split <;> omega }
  else
    none

theorem checkedAdd_eq_none_iff {time : SystemTime} {span : Duration} :
    time.checkedAdd span = none ↔
      9223372036854775808 * 1000000000 ≤ time.asNanos + span.asNanos := by
  unfold checkedAdd asNanos Duration.asNanos
  split
  · simp only [reduceCtorEq, false_iff]
    omega
  · simp only [true_iff]
    omega

theorem asNanos_of_checkedAdd {time sum : SystemTime} {span : Duration}
    (added : time.checkedAdd span = some sum) :
    sum.asNanos = time.asNanos + span.asNanos := by
  unfold checkedAdd at added
  split at added
  · rw [← Option.some.inj added]
    unfold asNanos Duration.asNanos
    simp only
    omega
  · cases added

end SystemTime

/-- A reading of the monotonic clock, in nanoseconds. -/
abbrev Instant : Type := Nat

namespace Instant

/-- The span since an instant, nothing when that instant lies ahead. -/
def elapsed (instant now : Instant) : Nat := now - instant

end Instant

/-- A reading of the monotonic clock as the platform keeps it, counted from the
least one that it can keep. -/
structure Reading where
  nanos : Nat
  nanos_lt : nanos < 18446744073709551616 * 1000000000
  deriving DecidableEq

namespace Reading

/-- The span since a reading, nothing when it lies ahead. -/
def elapsed (reading now : Reading) : Duration :=
  Duration.ofNanos (now.nanos - reading.nanos)
    (Nat.lt_of_le_of_lt (Nat.sub_le _ _) now.nanos_lt)

/-- The reading that lies a span back, if the platform can keep it. -/
def checkedSub (reading : Reading) (span : Duration) : Option Reading :=
  if span.asNanos ≤ reading.nanos then
    some ⟨reading.nanos - span.asNanos,
      Nat.lt_of_le_of_lt (Nat.sub_le _ _) reading.nanos_lt⟩
  else
    none

theorem checkedSub_eq_none_iff {reading : Reading} {span : Duration} :
    reading.checkedSub span = none ↔ reading.nanos < span.asNanos := by
  unfold checkedSub
  by_cases fits : span.asNanos ≤ reading.nanos
  · rw [if_pos fits]
    exact iff_of_false (Option.some_ne_none _) (Nat.not_lt_of_le fits)
  · rw [if_neg fits]
    exact iff_of_true rfl (Nat.lt_of_not_le fits)

theorem elapsed_of_checkedSub {now earlier : Reading} {span : Duration}
    (subtracted : now.checkedSub span = some earlier) :
    earlier.elapsed now = span := by
  unfold checkedSub at subtracted
  by_cases fits : span.asNanos ≤ now.nanos
  · rw [if_pos fits] at subtracted
    apply Duration.asNanos_injective
    rw [← Option.some.inj subtracted, elapsed, Duration.asNanos_ofNanos]
    exact Nat.sub_sub_self fits
  · rw [if_neg fits] at subtracted
    cases subtracted

end Reading
