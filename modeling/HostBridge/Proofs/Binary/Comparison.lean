import HostBridge.Proofs.Binary.Representation

/-!
# Comparing numbers and reading them as positions

`less` is the order of the standard and `toWord` the cast of a number to an unsigned word,
which never fails.  Read as a magnitude, the fields of an infinity are more than those of
any finite number, so the order needs no case for infinities (`less_infinity`).
Numbers that are integers are in the order of the integers (`less_iff_of_toInt?`), and the
cast gives the integer, unless it is negative or has too many bits (`toWord_of_toInt?`).
-/

namespace HostBridge.Binary

open scoped Binary

variable {f : Format} {x y : Binary f} {i j : Int}

/-- Whether a number is less than another one.  NaNs are not compared. -/
def less (x y : Binary f) : Bool :=
  !x.isNaN && !y.isNaN && decide (x.units < y.units)

/-- The largest word of the machine. -/
def lastWord : Nat := 2 ^ (64 : Nat) - 1

/-- The number as a word: its whole part, or the nearest word if that is none.  A NaN is
read as zero. -/
def toWord (x : Binary f) : Nat :=
  if x.isNaN then 0
  else if x.isFinite then min x.truncated.toNat lastWord
  else if x.negative then 0 else lastWord

/-! ## Infinities -/

theorem magnitude_lt_infinity (hf : 1 < f.topExponent) (h : x.isFinite = true) (b : Bool) :
    x.magnitude < (infinity b : Binary f).magnitude := by
  have top : (infinity b : Binary f).exponent.val ≠ 0 := Nat.ne_of_gt (Nat.zero_lt_of_lt hf)
  have exponent := exponent_lt_of_isFinite h
  have fraction := x.fraction.isLt
  rw [magnitude_of_exponent_ne_zero top]
  show _ < (2 ^ f.fractionBits + 0) * 2 ^ (f.topExponent - 1)
  rw [Nat.add_zero]
  by_cases he : x.exponent.val = 0
  · rw [magnitude_of_exponent_eq_zero he]
    exact Nat.lt_of_lt_of_le fraction (Nat.le_mul_of_pos_right _ (Nat.two_pow_pos _))
  · -- One more in the exponent field doubles what the hidden bit is worth.
    rw [magnitude_of_exponent_ne_zero he]
    have double : 2 * 2 ^ (x.exponent.val - 1) ≤ 2 ^ (f.topExponent - 1) := by
      rw [Nat.mul_comm, ← Nat.pow_succ]
      exact Nat.pow_le_pow_right Nat.two_pos (by omega)
    calc (2 ^ f.fractionBits + x.fraction.val) * 2 ^ (x.exponent.val - 1)
        < 2 ^ f.fractionBits * 2 * 2 ^ (x.exponent.val - 1) :=
          Nat.mul_lt_mul_of_pos_right (by omega) (Nat.two_pow_pos _)
      _ = 2 ^ f.fractionBits * (2 * 2 ^ (x.exponent.val - 1)) := Nat.mul_assoc _ _ _
      _ ≤ 2 ^ f.fractionBits * 2 ^ (f.topExponent - 1) := Nat.mul_le_mul_left _ double

/-- Every finite number is between the infinities. -/
theorem less_infinity (hf : 1 < f.topExponent) (h : x.isFinite = true) :
    (infinity true : Binary f).less x = true ∧ x.less (infinity false) = true := by
  have number := isNaN_of_isFinite h
  have number' (b : Bool) : (infinity b : Binary f).isNaN = false := by
    rw [isNaN]
    exact Bool.and_false _
  have below : (infinity true : Binary f).units = -((infinity true : Binary f).magnitude : Int) :=
    rfl
  have above : (infinity false : Binary f).units = (infinity false : Binary f).magnitude := rfl
  have size := natAbs_units x
  have less := magnitude_lt_infinity hf h true
  have less' := magnitude_lt_infinity hf h false
  rw [Binary.less, Binary.less, number, number', number', below, above]
  simp only [Bool.not_false, Bool.true_and, decide_eq_true_eq]
  omega

/-! ## Numbers that are integers -/

theorem units_of_toInt? (h : x.toInt? = some i) : x.units = i * (2 ^ f.unitPlaces : Nat) := by
  have magnitude := magnitude_of_toInt? h
  by_cases hi : i = 0
  · subst hi
    rw [units, magnitude, Int.natAbs_zero, Nat.zero_mul]
    split <;> simp
  · rw [units, magnitude, negative_of_toInt? h hi, Int.natCast_mul]
    split
    · rename_i negative
      rw [Int.ofNat_natAbs_of_nonpos (Int.le_of_lt (of_decide_eq_true negative)), ← Int.neg_mul,
        Int.neg_neg]
    · rename_i positive
      rw [decide_eq_true_eq, Int.not_lt] at positive
      rw [Int.natAbs_of_nonneg positive]

/-- Numbers that are integers are in the order of the integers. -/
theorem less_iff_of_toInt? (hx : x.toInt? = some i) (hy : y.toInt? = some j) :
    x.less y = true ↔ i < j := by
  have step : (0 : Int) < (2 ^ f.unitPlaces : Nat) := Int.natCast_pos.mpr (Nat.two_pow_pos _)
  rw [less, isNaN_of_isFinite (isFinite_of_toInt? hx), isNaN_of_isFinite (isFinite_of_toInt? hy),
    units_of_toInt? hx, units_of_toInt? hy]
  simp only [Bool.not_false, Bool.true_and, decide_eq_true_eq]
  exact Int.mul_lt_mul_right step

theorem toWord_of_toInt? (h : x.toInt? = some i) : x.toWord = min i.toNat lastWord := by
  have finite := isFinite_of_toInt? h
  have whole := truncate?_of_toInt? h
  rw [truncate?, if_pos finite] at whole
  rw [toWord, isNaN_of_isFinite finite, if_neg Bool.false_ne_true, if_pos finite,
    Option.some.inj whole]

theorem toInt?_eq_none_iff : x.toInt? = none ↔ x.isWhole = false := by
  rw [toInt?]
  cases x.isWhole <;> simp

end HostBridge.Binary
