import Mathlib.Data.Nat.ModEq
import HostBridge.Host.Form
import HostBridge.Proofs.Binary.Comparison
import HostBridge.Proofs.Binary.Widening

/-!
# Casting numbers to integers

A machine drops the fraction of a number by clearing bits of its fraction field (`trunc`), and has
a cast to integers that never fails: `toSigned` gives the nearest integer of the width where the
whole part is none of it.  To notice that, the number is compared with the least and the greatest
integer first, after its fraction is dropped.

What it is compared with must be numbers too.  The least integer is one.  The greatest has too many
bits and is rounded up to the next power of two (`toInt?_greatest`), so the comparison with it
leaves equality out.  There is no number between the two, and all that passes is cast to its whole
part (`guarded?_eq_some_iff`).
-/

namespace HostBridge.Binary

open Host.Width (int64)
open scoped Binary

variable {f : Format} {x y : Binary f} {i j : Int} {n : Int64}

/-! ## Dropping the fraction -/

/-- How many bits of the fraction field stand for less than one, in a number not less than one. -/
def lowBits (x : Binary f) : Nat := f.fractionBits - (x.exponent.val - f.bias)

/-- The number without its fraction.  The bits that stand for less than one are cleared, which
are all bits if the number is less than one.  Infinities and NaNs stay as they are. -/
def trunc (x : Binary f) : Binary f :=
  if x.exponent.val < f.bias then zero x.negative
  else
    { x with
      fraction := ⟨x.fraction.val / 2 ^ x.lowBits * 2 ^ x.lowBits,
        Nat.lt_of_le_of_lt (Nat.div_mul_le_self _ _) x.fraction.isLt⟩ }

theorem negative_trunc (x : Binary f) : x.trunc.negative = x.negative := by
  rw [trunc]
  split <;> rfl

theorem trunc_of_lt (h : x.exponent.val < f.bias) : x.trunc = zero x.negative := if_pos h

theorem exponent_trunc (h : ¬ x.exponent.val < f.bias) : x.trunc.exponent = x.exponent := by
  rw [trunc, if_neg h]

theorem fraction_trunc (h : ¬ x.exponent.val < f.bias) :
    x.trunc.fraction.val = x.fraction.val / 2 ^ x.lowBits * 2 ^ x.lowBits := by
  rw [trunc, if_neg h]

/-- Nothing is cleared where the point is behind the fraction field. -/
theorem trunc_of_le (h : f.bias + f.fractionBits ≤ x.exponent.val) : x.trunc = x := by
  have none : x.lowBits = 0 := by
    rw [lowBits]
    omega
  rw [trunc, if_neg (by omega)]
  simp only [none, Nat.pow_zero, Nat.div_one, Nat.mul_one]

/-- A number with a small exponent is less than one. -/
theorem magnitude_lt_of_lt (hf : 0 < f.bias) (h : x.exponent.val < f.bias) :
    x.magnitude < 2 ^ f.unitPlaces := by
  have fraction := x.fraction.isLt
  by_cases he : x.exponent.val = 0
  · rw [magnitude_of_exponent_eq_zero he]
    refine Nat.lt_of_lt_of_le fraction (Nat.pow_le_pow_right Nat.two_pos ?_)
    rw [Format.unitPlaces]
    omega
  · calc x.magnitude = (2 ^ f.fractionBits + x.fraction.val) * 2 ^ (x.exponent.val - 1) :=
          magnitude_of_exponent_ne_zero he
      _ < 2 ^ (f.fractionBits + 1) * 2 ^ (x.exponent.val - 1) :=
          Nat.mul_lt_mul_of_pos_right (by omega) (Nat.two_pow_pos _)
      _ = 2 ^ (f.fractionBits + 1 + (x.exponent.val - 1)) := (Nat.pow_add ..).symm
      _ ≤ 2 ^ f.unitPlaces := by
          refine Nat.pow_le_pow_right Nat.two_pos ?_
          rw [Format.unitPlaces]
          omega

/-- A number with a large exponent is whole. -/
theorem dvd_magnitude_of_le (hf : 0 < f.bias) (h : f.bias + f.fractionBits ≤ x.exponent.val) :
    2 ^ f.unitPlaces ∣ x.magnitude := by
  rw [magnitude_of_exponent_ne_zero (by omega)]
  refine Nat.dvd_mul_left_of_dvd (Nat.pow_dvd_pow 2 ?_) _
  rw [Format.unitPlaces]
  omega

/-- What is left of the magnitude is its whole part. -/
theorem magnitude_trunc (hf : 0 < f.bias) (x : Binary f) :
    x.trunc.magnitude = x.magnitude / 2 ^ f.unitPlaces * 2 ^ f.unitPlaces := by
  by_cases small : x.exponent.val < f.bias
  · rw [trunc_of_lt small, Nat.div_eq_of_lt (magnitude_lt_of_lt hf small), Nat.zero_mul]
    rfl
  by_cases large : f.bias + f.fractionBits ≤ x.exponent.val
  · rw [trunc_of_le large, Nat.div_mul_cancel (dvd_magnitude_of_le hf large)]
  · -- The point is inside of the fraction field.
    have places : f.unitPlaces = x.lowBits + (x.exponent.val - 1) := by
      rw [Format.unitPlaces, lowBits]
      omega
    have hidden : 2 ^ x.lowBits ∣ 2 ^ f.fractionBits := Nat.pow_dvd_pow 2 (Nat.sub_le _ _)
    rw [magnitude_of_exponent_ne_zero (x := x) (by omega), places, Nat.pow_add,
      Nat.mul_div_mul_right _ _ (Nat.two_pow_pos _), ← Nat.mul_assoc,
      Nat.add_div_of_dvd_right hidden, Nat.add_mul, Nat.div_mul_cancel hidden,
      magnitude_of_exponent_ne_zero (by rw [exponent_trunc small]; omega), exponent_trunc small,
      fraction_trunc small]

theorem isFinite_trunc (hf : 0 < f.topExponent) (h : x.isFinite = true) :
    x.trunc.isFinite = true := by
  by_cases small : x.exponent.val < f.bias
  · rw [trunc_of_lt small, isFinite, bne_iff_ne]
    exact Nat.ne_of_lt hf
  · rw [isFinite, exponent_trunc small]
    exact h

theorem truncated_eq (x : Binary f) :
    x.truncated =
      if x.negative then -((x.magnitude / 2 ^ f.unitPlaces : Nat) : Int)
      else (x.magnitude / 2 ^ f.unitPlaces : Nat) := by
  rw [truncated, units]
  split
  · rw [Int.neg_tdiv]
    rfl
  · rfl

/-- Without its fraction a number is its whole part. -/
theorem toInt?_trunc (hf : 0 < f.bias) (hf' : 0 < f.topExponent) (h : x.isFinite = true) :
    x.trunc.toInt? = some x.truncated := by
  have whole : x.trunc.isWhole = true := by
    rw [isWhole, isFinite_trunc hf' h, magnitude_trunc hf, Nat.mul_mod_left]
    rfl
  rw [toInt?, if_pos whole, truncated_eq, truncated_eq x, negative_trunc, magnitude_trunc hf,
    Nat.mul_div_cancel _ (Nat.two_pow_pos _)]

theorem bias_pos : 0 < Format.double.bias := by decide +kernel

theorem toInt?_trunc_double {x : Binary64} (h : x.isFinite = true) :
    x.trunc.toInt? = some x.truncated :=
  toInt?_trunc bias_pos (by decide +kernel) h

-- A number between minus one and zero keeps its sign.
example : (ofBits 0xbfe0000000000000 : Binary64).trunc = zero true := by decide +kernel

/-! ## Bounds -/

/-- Whether a number is at most another one.  NaNs are not compared. -/
def atMost (x y : Binary f) : Bool :=
  !x.isNaN && !y.isNaN && decide (x.units ≤ y.units)

/-- Whether the number is between the bounds of signed words without its fraction. -/
def between (x : Binary64) : Bool :=
  atMost (.ofInt int64.least) x.trunc && x.trunc.less (.ofInt int64.greatest)

theorem atMost_iff_of_toInt? (hx : x.toInt? = some i) (hy : y.toInt? = some j) :
    x.atMost y = true ↔ i ≤ j := by
  have step : (0 : Int) < (2 ^ f.unitPlaces : Nat) := Int.natCast_pos.mpr (Nat.two_pow_pos _)
  rw [atMost, isNaN_of_isFinite (isFinite_of_toInt? hx), isNaN_of_isFinite (isFinite_of_toInt? hy),
    units_of_toInt? hx, units_of_toInt? hy]
  simp only [Bool.not_false, Bool.true_and, decide_eq_true_eq]
  exact Int.mul_le_mul_right step

theorem atMost_eq_false_of_less (h : x.less y = true) : y.atMost x = false := by
  simp only [less, Bool.and_eq_true, decide_eq_true_eq] at h
  rw [atMost, decide_eq_false (Int.not_le.mpr h.2), Bool.and_false]

theorem less_eq_false_of_less (h : x.less y = true) : y.less x = false := by
  simp only [less, Bool.and_eq_true, decide_eq_true_eq] at h
  rw [less, decide_eq_false (Int.lt_asymm h.2), Bool.and_false]

/-- The least word is a number. -/
theorem toInt?_least : (ofInt int64.least : Binary64).toInt? = some int64.least := by
  decide +kernel

/-- The greatest word is none.  It is rounded up to the next power of two. -/
theorem toInt?_greatest : (ofInt int64.greatest : Binary64).toInt? = some (int64.greatest + 1) := by
  decide +kernel

/-- Infinities and NaNs are not between the bounds. -/
theorem between_of_not_finite {x : Binary64} (h : x.isFinite = false) : x.between = false := by
  have top : x.exponent.val = Format.double.topExponent := by
    rwa [isFinite, bne_eq_false_iff_eq] at h
  have behind : Format.double.bias + Format.double.fractionBits ≤ x.exponent.val := by
    rw [top]
    decide +kernel
  rw [between, trunc_of_le behind, Bool.and_eq_false_iff]
  cases hn : x.isNaN with
  | true => exact .inr (by rw [less, hn]; rfl)
  | false =>
      have wide : 1 < Format.double.topExponent := by decide +kernel
      have least := less_infinity wide (isFinite_of_toInt? toInt?_least)
      have greatest := less_infinity wide (isFinite_of_toInt? toInt?_greatest)
      rw [eq_infinity h hn]
      cases x.negative with
      | true => exact .inl (atMost_eq_false_of_less least.1)
      | false => exact .inr (less_eq_false_of_less greatest.2)

/-- A finite number is between the bounds if its whole part is a word. -/
theorem between_iff_of_isFinite {x : Binary64} (h : x.isFinite = true) :
    x.between = true ↔ int64.Holds x.truncated := by
  have whole := toInt?_trunc_double h
  rw [between, Bool.and_eq_true, atMost_iff_of_toInt? toInt?_least whole,
    less_iff_of_toInt? whole toInt?_greatest, Int.lt_add_one_iff]
  exact Iff.rfl

/-! ## The cast -/

/-- The number as a signed word: its whole part, or the nearest word if that is none.  A NaN is
read as zero. -/
def toSigned (x : Binary f) : Int64 :=
  if x.isNaN then 0
  else if x.isFinite then .ofInt (max int64.least (min x.truncated int64.greatest))
  else .ofInt (if x.negative then int64.least else int64.greatest)

/-- A number that is a word is cast to this word. -/
theorem toInt_toSigned (h : x.toInt? = some i) (word : int64.Holds i) : x.toSigned.toInt = i := by
  have finite := isFinite_of_toInt? h
  have whole := truncate?_of_toInt? h
  rw [truncate?, if_pos finite] at whole
  obtain ⟨least, greatest⟩ := word
  rw [toSigned, isNaN_of_isFinite finite, if_neg Bool.false_ne_true, if_pos finite,
    Option.some.inj whole, Int.min_eq_left greatest, Int.max_eq_right least]
  exact Host.Width.toInt_ofInt ⟨least, greatest⟩

/-- The number cast to a signed word without its fraction, if it is between the bounds. -/
def guarded? (x : Binary64) : Option Int64 :=
  if x.between then some x.trunc.toSigned else none

/-- The guarded cast gives the whole part, and gives nothing if that is no word. -/
theorem guarded?_eq_some_iff {x : Binary64} :
    x.guarded? = some n ↔ x.truncate? = some n.toInt := by
  rw [guarded?, truncate?]
  cases h : x.isFinite with
  | false =>
      rw [between_of_not_finite h, if_neg Bool.false_ne_true, if_neg Bool.false_ne_true]
      exact iff_of_false (Option.some_ne_none n).symm (Option.some_ne_none n.toInt).symm
  | true =>
      have whole := toInt?_trunc_double h
      rw [if_pos rfl, Option.some.injEq]
      split
      · rename_i inside
        have cast := toInt_toSigned whole ((between_iff_of_isFinite h).mp inside)
        rw [Option.some.injEq, ← cast, Int64.toInt_inj]
      · rename_i outside
        refine iff_of_false (Option.some_ne_none n).symm fun same => outside ?_
        exact (between_iff_of_isFinite h).mpr (same ▸ Host.Width.holds_toInt n)

end HostBridge.Binary
