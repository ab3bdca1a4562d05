import NyxNet.Lib.BitSmear
import NyxNet.Lib.Word
import NyxNet.Mix.Vdf

/-!
# VDF calibration

`nyx-mix/src/vdf_calib.rs`: the difficulty for a target delay, from the time
that a sample of squarings took.
-/

namespace NyxNet.Mix.VdfCalib

/-- Minimum / maximum allowed difficulty. -/
def minT : UInt64 := 1000

def maxT : UInt64 := 1000000

/-- The closure `pow2`. -/
def pow2 (mode : OverflowMode) (v : UInt64) : Option UInt64 := do
  let v := v ||| v >>> 1
  let v := v ||| v >>> 2
  let v := v ||| v >>> 4
  let v := v ||| v >>> 8
  let v := v ||| v >>> 16
  let v ← mode.add v 1
  return v >>> 1

/-- Calibrate difficulty parameter, when the sample evaluation takes the given
time. -/
def calibrateT (mode : OverflowMode) (n elapsedNanos : Nat)
    (targetMs : UInt64) : Option UInt64 := do
  let _ ← Vdf.eval 5 n 1000
  -- ns per squaring
  let nsPerSq := UInt64.ofNat elapsedNanos / 1000
  if nsPerSq = 0 then return minT
  let targetNs ← mode.mul targetMs 1000000
  let tEst := targetNs / nsPerSq
  pow2 mode (max minT (min tEst maxT))

/-- The word with all bits below its highest one set. -/
def smear (v : UInt64) : UInt64 :=
  let v := v ||| v >>> 1
  let v := v ||| v >>> 2
  let v := v ||| v >>> 4
  let v := v ||| v >>> 8
  v ||| v >>> 16

theorem toNat_smear {v : UInt64} (nonzero : v.toNat ≠ 0)
    (small : v.toNat < 2 ^ 32) :
    (smear v).toNat = 2 ^ (v.toNat.log2 + 1) - 1 := by
  have top : v.toNat.log2 < 32 := (Nat.log2_lt nonzero).mpr small
  have filled := (Smeared.start nonzero).double.double.double.double.double
  rw [← filled.eq_of_lt top]
  simp only [smear, UInt64.toNat_or, UInt64.toNat_shiftRight]
  rfl

/-- On numbers below `2^32` the closure rounds down to a power of two. -/
theorem pow2_spec {v : UInt64} (nonzero : v.toNat ≠ 0)
    (small : v.toNat < 2 ^ 32) :
    ∃ rounded : UInt64, (∀ mode, pow2 mode v = some rounded) ∧
      rounded.toNat = 2 ^ v.toNat.log2 := by
  have ones := toNat_smear nonzero small
  have top : v.toNat.log2 < 32 := (Nat.log2_lt nonzero).mpr small
  have bound : 2 ^ (v.toNat.log2 + 1) ≤ 2 ^ 32 :=
    Nat.pow_le_pow_right Nat.two_pos top
  have positive : 0 < 2 ^ (v.toNat.log2 + 1) := Nat.two_pow_pos _
  have one : (1 : UInt64).toNat = 1 := rfl
  have fits : (smear v).toNat + (1 : UInt64).toNat < 2 ^ 64 := by
    rw [ones, one]
    omega
  refine ⟨(smear v + 1) >>> 1, ?_, ?_⟩
  · intro mode
    change (mode.add (smear v) 1).bind (fun v => some (v >>> 1)) = _
    rw [mode.add_eq_some fits]
    rfl
  · rw [UInt64.toNat_shiftRight, UInt64.toNat_add_of_fits fits, ones, one,
      Nat.sub_add_cancel positive, Nat.pow_succ]
    exact Nat.mul_div_cancel _ Nat.two_pos

/-- The squaring time that a calibration works with, in nanoseconds. -/
def nsPerSquaring (elapsedNanos : Nat) : Nat := elapsedNanos % 2 ^ 64 / 1000

/-- The modulus is not zero, the sample takes a measurable time, and the target
time fits its type and has room for 1024 squarings. -/
def Calibratable (n elapsedNanos : Nat) (targetMs : UInt64) : Prop :=
  n ≠ 0 ∧ nsPerSquaring elapsedNanos ≠ 0 ∧
    targetMs.toNat * 1000000 < 2 ^ 64 ∧
    1024 * nsPerSquaring elapsedNanos ≤ targetMs.toNat * 1000000

/-- Every build returns the same power of two within the bounds. -/
def InRange (n elapsedNanos : Nat) (targetMs : UInt64) : Prop :=
  ∃ t, (∀ mode, calibrateT mode n elapsedNanos targetMs = some t) ∧
    t.toNat.isPowerOfTwo ∧ minT ≤ t ∧ t ≤ maxT

variable {n elapsedNanos : Nat} {targetMs : UInt64}

theorem toNat_nsPerSq (elapsedNanos : Nat) :
    (UInt64.ofNat elapsedNanos / 1000).toNat = nsPerSquaring elapsedNanos := by
  rw [UInt64.toNat_div, UInt64.toNat_ofNat']
  rfl

theorem nsPerSq_eq_zero_iff (elapsedNanos : Nat) :
    UInt64.ofNat elapsedNanos / 1000 = 0 ↔ nsPerSquaring elapsedNanos = 0 := by
  rw [← UInt64.toNat_inj, toNat_nsPerSq]
  rfl

theorem calibrateT_of_zero_modulus (mode : OverflowMode) (zero : n = 0) :
    calibrateT mode n elapsedNanos targetMs = none := by
  subst zero
  rfl

theorem calibrateT_of_positive (mode : OverflowMode) (positive : n ≠ 0) :
    calibrateT mode n elapsedNanos targetMs =
      if nsPerSquaring elapsedNanos = 0 then some minT
      else (mode.mul targetMs 1000000).bind fun targetNs =>
        pow2 mode (max minT (min
          (targetNs / (UInt64.ofNat elapsedNanos / 1000)) maxT)) := by
  simp only [calibrateT, Vdf.eval_eq_some positive, Option.bind_eq_bind,
    Option.bind_some, nsPerSq_eq_zero_iff]
  rfl

/-- What the clamped estimate is rounded to. -/
theorem calibrateT_of_fits (positive : n ≠ 0)
    (measured : nsPerSquaring elapsedNanos ≠ 0)
    (fits : targetMs.toNat * 1000000 < 2 ^ 64) :
    ∃ t : UInt64,
      (∀ mode, calibrateT mode n elapsedNanos targetMs = some t) ∧
        t.toNat = 2 ^ (max 1000 (min (targetMs.toNat * 1000000 /
          nsPerSquaring elapsedNanos) 1000000)).log2 := by
  have exact : targetMs.toNat * (1000000 : UInt64).toNat < 2 ^ 64 := fits
  have estimate : (max minT (min (targetMs * 1000000 /
      (UInt64.ofNat elapsedNanos / 1000)) maxT)).toNat =
        max 1000 (min (targetMs.toNat * 1000000 /
          nsPerSquaring elapsedNanos) 1000000) := by
    rw [UInt64.toNat_max, UInt64.toNat_min, UInt64.toNat_div,
      UInt64.toNat_mul_of_fits exact, toNat_nsPerSq]
    rfl
  obtain ⟨t, rounded, value⟩ := pow2_spec
    (show (max minT (min (targetMs * 1000000 /
      (UInt64.ofNat elapsedNanos / 1000)) maxT)).toNat ≠ 0 by omega)
    (by omega)
  rw [estimate] at value
  refine ⟨t, ?_, value⟩
  intro mode
  rw [calibrateT_of_positive mode positive, if_neg measured,
    mode.mul_eq_some exact]
  exact rounded mode

/-- Rounding down stays above the lower bound exactly from 1024 on. -/
theorem rounded_in_range_iff {estimate : Nat} :
    (1000 ≤ 2 ^ (max 1000 (min estimate 1000000)).log2 ∧
        2 ^ (max 1000 (min estimate 1000000)).log2 ≤ 1000000) ↔
      1024 ≤ estimate := by
  have nonzero : max 1000 (min estimate 1000000) ≠ 0 := by omega
  have below := Nat.log2_self_le nonzero
  constructor
  · intro inRange
    by_contra short
    have top : (max 1000 (min estimate 1000000)).log2 < 10 :=
      (Nat.log2_lt nonzero).mpr (by omega)
    have bound : 2 ^ (max 1000 (min estimate 1000000)).log2 ≤ 2 ^ 9 :=
      Nat.pow_le_pow_right Nat.two_pos (by omega)
    omega
  · intro enough
    have top : 10 ≤ (max 1000 (min estimate 1000000)).log2 :=
      (Nat.le_log2 nonzero).mpr (by omega)
    have bound : 2 ^ 10 ≤ 2 ^ (max 1000 (min estimate 1000000)).log2 :=
      Nat.pow_le_pow_right Nat.two_pos top
    omega

/-- A returned power of two tells which way the computation went. -/
theorem facts_of_inRange (inRange : InRange n elapsedNanos targetMs) :
    n ≠ 0 ∧ nsPerSquaring elapsedNanos ≠ 0 ∧
      targetMs.toNat * 1000000 < 2 ^ 64 := by
  obtain ⟨t, returned, power, -, -⟩ := inRange
  have checked := returned .checked
  have positive : n ≠ 0 := by
    intro zero
    rw [calibrateT_of_zero_modulus _ zero] at checked
    cases checked
  rw [calibrateT_of_positive _ positive] at checked
  by_cases measured : nsPerSquaring elapsedNanos = 0
  · rw [if_pos measured, Option.some.injEq] at checked
    subst checked
    exact absurd power (by decide)
  · refine ⟨positive, measured, ?_⟩
    by_contra exceeds
    rw [if_neg measured, OverflowMode.checked_mul_eq_none exceeds] at checked
    cases checked

/-- The difficulty is a power of two within the bounds exactly when the target
leaves room for 1024 squarings and the arithmetic for the target. -/
theorem calibration_in_range_iff (n elapsedNanos : Nat) (targetMs : UInt64) :
    InRange n elapsedNanos targetMs ↔
      Calibratable n elapsedNanos targetMs := by
  constructor
  · intro inRange
    obtain ⟨positive, measured, fits⟩ := facts_of_inRange inRange
    obtain ⟨t, returned, -, low, high⟩ := inRange
    obtain ⟨t', returned', value⟩ := calibrateT_of_fits positive measured fits
    have same : t = t' := by
      apply Option.some.inj
      rw [← returned .checked, returned' .checked]
    rw [same, UInt64.le_iff_toNat_le, value] at low high
    refine ⟨positive, measured, fits, ?_⟩
    rw [← Nat.le_div_iff_mul_le (Nat.pos_of_ne_zero measured)]
    exact rounded_in_range_iff.mp ⟨low, high⟩
  · intro calibratable
    obtain ⟨positive, measured, fits, room⟩ := calibratable
    obtain ⟨t, returned, value⟩ := calibrateT_of_fits positive measured fits
    rw [← Nat.le_div_iff_mul_le (Nat.pos_of_ne_zero measured)] at room
    obtain ⟨low, high⟩ := rounded_in_range_iff.mpr room
    refine ⟨t, returned, ⟨_, value⟩, ?_, ?_⟩
    · rw [UInt64.le_iff_toNat_le, value]
      exact low
    · rw [UInt64.le_iff_toNat_le, value]
      exact high

example : calibrateT .checked 11413 (10 ^ 7) 11 = some 1024 := by
  decide +kernel

/-- Ten milliseconds for a thousand squarings and for the target give 512, an
unmeasurably fast sample gives 1000, and a large target overflows. -/
theorem calibration_out_of_range :
    calibrateT .checked 11413 (10 ^ 7) 10 = some 512 ∧
      calibrateT .checked 11413 500 10 = some 1000 ∧
      calibrateT .checked 11413 (10 ^ 7) 18446744073710 = none ∧
      ¬ ∀ (n elapsedNanos : Nat) (targetMs : UInt64), n ≠ 0 →
        InRange n elapsedNanos targetMs := by
  have short : calibrateT .checked 11413 (10 ^ 7) 10 = some 512 := by
    decide +kernel
  refine ⟨short, by decide +kernel, by decide +kernel, ?_⟩
  intro always
  obtain ⟨t, returned, -, low, -⟩ :=
    always 11413 (10 ^ 7) 10 (by decide)
  rw [returned .checked, Option.some.injEq] at short
  rw [short] at low
  exact absurd low (by decide)

end NyxNet.Mix.VdfCalib
