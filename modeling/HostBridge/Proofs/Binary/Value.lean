import Mathlib.Algebra.Order.Ring.Rat
import Mathlib.Data.Rat.Floor
import HostBridge.Proofs.Binary.Representation

/-!
# What a number stands for

A number is a NaN, an infinity or a rational number.  `meaning` reads off the fields which it is,
in the words of the standard: the fraction field holds the digits after the point, a hidden one
stands before it unless the exponent field is zero, and the exponent field says how far the point
is to be moved.

The smallest steps that this library counts in give the same rational number (`value_eq`).  So
the whole part of a number is this rational number without what follows the point
(`towardZero_value`).
-/

namespace HostBridge

open scoped Binary

/-- A rational number without what follows its point. -/
def towardZero (q : ℚ) : Int := if 0 ≤ q then ⌊q⌋ else ⌈q⌉

/-- To round a quotient toward zero is to divide toward zero. -/
theorem towardZero_div (n : Int) {d : Nat} (hd : 0 < d) :
    towardZero ((n : ℚ) / (d : ℚ)) = n.tdiv d := by
  have positive : (0 : ℚ) < d := Nat.cast_pos.mpr hd
  rw [towardZero]
  by_cases sign : 0 ≤ n
  · have above : 0 ≤ (n : ℚ) / d := div_nonneg (Int.cast_nonneg sign) (le_of_lt positive)
    rw [if_pos above, Rat.floor_intCast_div_natCast, Int.tdiv_eq_ediv_of_nonneg sign]
  · have below : ¬ 0 ≤ (n : ℚ) / d :=
      not_le_of_gt (div_neg_of_neg_of_pos (Int.cast_lt_zero.mpr (Int.not_le.mp sign)) positive)
    rw [if_neg below, ← neg_neg ((n : ℚ) / d), Int.ceil_neg, ← neg_div, ← Int.cast_neg,
      Rat.floor_intCast_div_natCast, ← Int.tdiv_eq_ediv_of_nonneg (by omega), Int.neg_tdiv,
      Int.neg_neg]

namespace Binary

variable {f : Format} {x : Binary f}

/-! ## Rational values -/

/-- The absolute value of a finite number. -/
def size (x : Binary f) : ℚ :=
  if x.exponent.val = 0 then (x.fraction.val : ℚ) / 2 ^ f.fractionBits * 2 ^ (1 - f.bias : Int)
  else (1 + (x.fraction.val : ℚ) / 2 ^ f.fractionBits) * 2 ^ (x.exponent.val - f.bias : Int)

/-- The value of a finite number. -/
def value (x : Binary f) : ℚ := if x.negative then -x.size else x.size

/-- What a number can stand for. -/
inductive Meaning where
  | nan
  | infinite (negative : Bool)
  | rational (q : ℚ)

/-- What a number stands for. -/
def meaning (x : Binary f) : Meaning :=
  if x.isNaN then .nan else if x.isFinite then .rational x.value else .infinite x.negative

theorem meaning_eq_rational_iff {q : ℚ} :
    x.meaning = .rational q ↔ x.isFinite = true ∧ x.value = q := by
  rw [meaning]
  split
  · rename_i nan
    refine iff_of_false nofun fun h => ?_
    rw [isNaN_of_isFinite h.1] at nan
    cases nan
  · split
    · rename_i finite
      rw [Meaning.rational.injEq]
      exact (and_iff_right finite).symm
    · rename_i finite
      exact iff_of_false nofun fun h => finite h.1

/-! ## Smallest steps -/

theorem units_of_one (hf : 0 < f.bias) :
    ((2 ^ f.unitPlaces : Nat) : ℚ) = 2 ^ f.fractionBits * 2 ^ (f.bias - 1 : Int) := by
  have places : (f.unitPlaces : Int) = f.fractionBits + (f.bias - 1) := by
    rw [Format.unitPlaces]
    omega
  calc ((2 ^ f.unitPlaces : Nat) : ℚ) = 2 ^ (f.unitPlaces : Int) := by
        rw [zpow_natCast]
        exact Nat.cast_pow 2 f.unitPlaces
    _ = 2 ^ f.fractionBits * 2 ^ (f.bias - 1 : Int) := by
        rw [places, zpow_add₀ two_ne_zero, zpow_natCast]

/-- The size is the magnitude, divided by the number of smallest steps up to one. -/
theorem size_eq (hf : 0 < f.bias) : x.size = (x.magnitude : ℚ) / (2 ^ f.unitPlaces : Nat) := by
  rw [units_of_one hf, size]
  split
  · rename_i subnormal
    rw [magnitude_of_exponent_eq_zero subnormal, div_mul_eq_div_div, ← neg_sub (f.bias : Int) 1,
      zpow_neg, ← div_eq_mul_inv]
  · rename_i normal
    have moved : (x.exponent.val - f.bias : Int) =
        ((x.exponent.val - 1 : Nat) : Int) - (f.bias - 1 : Int) := by
      omega
    rw [magnitude_of_exponent_ne_zero normal, moved, zpow_sub₀ two_ne_zero, zpow_natCast]
    push_cast
    field_simp

/-- The value is the number of units, divided by the number of smallest steps up to one. -/
theorem value_eq (hf : 0 < f.bias) : x.value = (x.units : ℚ) / (2 ^ f.unitPlaces : Nat) := by
  rw [value, units, size_eq hf]
  split
  · rw [Int.cast_neg, Int.cast_natCast, neg_div]
  · rw [Int.cast_natCast]

/-- The whole part is the value rounded toward zero. -/
theorem towardZero_value (hf : 0 < f.bias) (x : Binary f) : towardZero x.value = x.truncated := by
  rw [value_eq hf, towardZero_div _ (Nat.two_pow_pos _)]
  rfl

theorem truncate?_eq_some_iff (hf : 0 < f.bias) {i : Int} :
    x.truncate? = some i ↔ ∃ q, x.meaning = .rational q ∧ towardZero q = i := by
  simp only [meaning_eq_rational_iff]
  rw [truncate?]
  split
  · rename_i finite
    rw [Option.some.injEq, ← towardZero_value hf]
    constructor
    · intro h
      exact ⟨x.value, ⟨finite, rfl⟩, h⟩
    · rintro ⟨q, ⟨-, rfl⟩, h⟩
      exact h
  · rename_i infinite
    refine iff_of_false (Option.some_ne_none i).symm ?_
    rintro ⟨q, ⟨finite, -⟩, -⟩
    exact infinite finite

end Binary

end HostBridge
