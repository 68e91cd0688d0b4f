import HostBridge.Proofs.Binary.Exactness

/-!
# Numbers and their magnitudes

A finite number is the number of its sign and magnitude, so the format holds every
magnitude that one of its numbers has (`ofMagnitude_magnitude`, `held_magnitude`).  An
integer that is a number other than zero is therefore one number only, the one made from
the integer (`ofInt_of_toInt?`).  The whole part of a number is held as well, however large
it is (`toInt?_ofInt_of_truncate?`).
-/

namespace HostBridge.Binary

open scoped Binary

variable {f : Format} {x y : Binary f} {i : Int}

/-! ## Magnitudes that numbers have -/

theorem exponent_lt_of_isFinite (h : x.isFinite = true) : x.exponent.val < f.topExponent := by
  rw [isFinite, bne_iff_ne] at h
  have := x.exponent.isLt
  unfold Format.topExponent at h ⊢
  omega

theorem magnitude_of_exponent_eq_zero (h : x.exponent.val = 0) : x.magnitude = x.fraction.val :=
  if_pos h

theorem magnitude_of_exponent_ne_zero (h : x.exponent.val ≠ 0) :
    x.magnitude = (2 ^ f.fractionBits + x.fraction.val) * 2 ^ (x.exponent.val - 1) :=
  if_neg h

/-- A number with a hidden bit has as many low bits to spare as its exponent field says. -/
theorem gap_magnitude (h : x.exponent.val ≠ 0) : gap f x.magnitude = x.exponent.val - 1 := by
  have fraction := x.fraction.isLt
  have lower : 2 ^ (f.fractionBits + (x.exponent.val - 1)) ≤ x.magnitude := by
    rw [magnitude_of_exponent_ne_zero h, Nat.pow_add]
    exact Nat.mul_le_mul_right _ (Nat.le_add_right _ _)
  have upper : x.magnitude < 2 ^ (f.fractionBits + (x.exponent.val - 1) + 1) := by
    rw [magnitude_of_exponent_ne_zero h, Nat.pow_succ, Nat.pow_add, Nat.mul_right_comm]
    exact Nat.mul_lt_mul_of_pos_right (by omega) (Nat.two_pow_pos _)
  have pos : x.magnitude ≠ 0 := Nat.ne_of_gt (Nat.lt_of_lt_of_le (Nat.two_pow_pos _) lower)
  have below := (Nat.log2_lt pos).mpr upper
  have above := (Nat.le_log2 pos).mpr lower
  rw [gap]
  omega

/-- A finite number is the one of its sign and magnitude. -/
theorem ofMagnitude_magnitude (h : x.isFinite = true) : ofMagnitude x.negative x.magnitude = x := by
  have fraction := x.fraction.isLt
  have exponent := exponent_lt_of_isFinite h
  by_cases he : x.exponent.val = 0
  · have small : x.magnitude < 2 ^ f.fractionBits := by
      rwa [magnitude_of_exponent_eq_zero he]
    rw [ofMagnitude_of_lt small]
    obtain ⟨negative, ⟨e, _⟩, m⟩ := x
    obtain rfl : e = 0 := he
    rfl
  · have large : ¬ x.magnitude < 2 ^ f.fractionBits := by
      rw [magnitude_of_exponent_ne_zero he, Nat.not_lt]
      exact Nat.le_trans (Nat.le_add_right _ _) (Nat.le_mul_of_pos_right _ (Nat.two_pow_pos _))
    have gap := gap_magnitude he
    rw [ofMagnitude_of_not_lt large (by omega)]
    have low : x.magnitude / 2 ^ Binary.gap f x.magnitude % 2 ^ f.fractionBits = x.fraction.val := by
      rw [gap, magnitude_of_exponent_ne_zero he, Nat.mul_div_cancel _ (Nat.two_pow_pos _),
        Nat.add_mod_left, Nat.mod_eq_of_lt fraction]
    have field : Binary.gap f x.magnitude + 1 = x.exponent.val := by omega
    simp only [low, field]

/-- The format holds the magnitude of each of its finite numbers. -/
theorem held_magnitude (hf : 1 < f.topExponent) (h : x.isFinite = true) : Held f x.magnitude := by
  have exponent := exponent_lt_of_isFinite h
  by_cases he : x.exponent.val = 0
  · have none : gap f x.magnitude = 0 := by
      rcases Nat.eq_zero_or_pos x.magnitude with zero | pos
      · rw [zero]
        exact Nat.zero_sub _
      · rw [gap, Nat.sub_eq_zero_iff_le]
        refine Nat.le_of_lt ((Nat.log2_lt (Nat.ne_of_gt pos)).mpr ?_)
        rw [magnitude_of_exponent_eq_zero he]
        exact x.fraction.isLt
    exact ⟨by rw [none]; exact Nat.one_dvd _, by rw [none]; exact hf⟩
  · have gap := gap_magnitude he
    refine ⟨?_, by omega⟩
    rw [gap, magnitude_of_exponent_ne_zero he]
    exact Nat.dvd_mul_left _ _

/-! ## Numbers that are integers -/

theorem isFinite_of_toInt? (h : x.toInt? = some i) : x.isFinite = true := by
  rw [toInt?] at h
  split at h
  · rename_i whole
    rw [isWhole, Bool.and_eq_true] at whole
    exact whole.1
  · cases h

/-- A number other than zero has the sign of the integer it is. -/
theorem negative_of_toInt? (h : x.toInt? = some i) (hi : i ≠ 0) :
    x.negative = decide (i < 0) := by
  rw [toInt?] at h
  split at h
  · cases h
    have step : (0 : Int) < (2 ^ f.unitPlaces : Nat) := Int.natCast_pos.mpr (Nat.two_pow_pos _)
    have part := Int.tdiv_nonneg (Int.natCast_nonneg x.magnitude) (Int.le_of_lt step)
    rw [truncated, units] at hi ⊢
    cases hx : x.negative with
    | true =>
        rw [hx, if_pos rfl, Int.neg_tdiv] at hi
        rw [if_pos rfl, Int.neg_tdiv]
        exact (decide_eq_true (by omega)).symm
    | false =>
        rw [hx, if_neg Bool.false_ne_true] at hi
        rw [if_neg Bool.false_ne_true]
        exact (decide_eq_false (by omega)).symm
  · cases h

/-- A number that is an integer other than zero is the one made from it. -/
theorem ofInt_of_toInt? (hf : 1 < f.topExponent) (h : x.toInt? = some i) (hi : i ≠ 0) :
    (ofInt i : Binary f) = x := by
  have finite := isFinite_of_toInt? h
  have magnitude := magnitude_of_toInt? h
  have held : Held f (i.natAbs * 2 ^ f.unitPlaces) := magnitude ▸ held_magnitude hf finite
  rw [ofInt, held.round_eq, ← magnitude, ← negative_of_toInt? h hi, ofMagnitude_magnitude finite]

/-- The whole part of a number is a number. -/
theorem toInt?_ofInt_of_truncate? (hf : f.unitPlaces + 2 < f.topExponent)
    (h : x.truncate? = some i) : (ofInt i : Binary f).toInt? = some i := by
  rw [truncate?] at h
  split at h
  · rename_i finite
    cases h
    have part : x.truncated.natAbs = x.magnitude / 2 ^ f.unitPlaces := by
      rw [truncated, Int.natAbs_tdiv, natAbs_units, Int.natAbs_natCast]
      rfl
    refine Held.toInt?_ofInt ?_
    rw [part]
    obtain ⟨m, k, hm, split⟩ := x.exists_magnitude
    by_cases hk : k ≤ f.unitPlaces
    · -- The whole part fits into the fraction and the hidden bit.
      refine held_of_le hf ?_
      rw [split]
      refine Nat.le_trans (Nat.div_le_of_le_mul ?_) (Nat.le_of_lt hm)
      rw [Nat.mul_comm m]
      exact Nat.mul_le_mul_right _ (Nat.pow_le_pow_right Nat.two_pos hk)
    · -- The number is an integer itself.
      have whole : 2 ^ f.unitPlaces ∣ x.magnitude := by
        rw [split]
        exact Nat.dvd_mul_left_of_dvd (Nat.pow_dvd_pow 2 (Nat.le_of_not_le hk)) m
      rw [Nat.div_mul_cancel whole]
      exact held_magnitude (by omega) finite
  · cases h

/-! ## Numbers that are not NaNs -/

theorem isNaN_of_isFinite (h : x.isFinite = true) : x.isNaN = false := by
  rw [isFinite, bne_iff_ne] at h
  rw [isNaN, beq_eq_false_iff_ne.mpr h, Bool.false_and]

/-- A NaN is not made from a magnitude. -/
theorem isNaN_ofMagnitude (hf : 1 < f.topExponent) (negative : Bool) (r : Nat) :
    (ofMagnitude negative r : Binary f).isNaN = false := by
  unfold ofMagnitude
  split
  · refine isNaN_of_isFinite ?_
    rw [isFinite, bne_iff_ne]
    exact Nat.ne_of_lt (Nat.lt_trans Nat.zero_lt_one hf)
  · dsimp only
    split
    · refine isNaN_of_isFinite ?_
      rw [isFinite, bne_iff_ne]
      exact Nat.ne_of_lt ‹_›
    · simp [infinity, isNaN]

/-- A NaN is not made from an integer. -/
theorem isNaN_ofInt (hf : 1 < f.topExponent) (i : Int) : (ofInt i : Binary f).isNaN = false :=
  isNaN_ofMagnitude hf _ _

/-- A number that is an integer other than zero equals itself only. -/
theorem equal_iff_of_toInt? (h : x.toInt? = some i) (hi : i ≠ 0) :
    x.equal y = true ↔ x = y := by
  have number := isNaN_of_isFinite (isFinite_of_toInt? h)
  constructor
  · intro same
    simp only [equal, Bool.and_eq_true, Bool.or_eq_true, beq_iff_eq] at same
    rcases same.2 with eq | ⟨zero, -⟩
    · exact eq
    · -- The magnitude of a zero is that of no other integer.
      have magnitude := magnitude_of_toInt? h
      simp only [isZero, Bool.and_eq_true, beq_iff_eq] at zero
      rw [magnitude_of_exponent_eq_zero zero.1, zero.2] at magnitude
      have := Nat.mul_pos (Int.natAbs_pos.mpr hi) (Nat.two_pow_pos f.unitPlaces)
      omega
  · rintro rfl
    exact (equal_self_iff x).mpr number

/-- A number that is the integer zero is a zero. -/
theorem isZero_of_toInt? (h : x.toInt? = some 0) : x.isZero = true := by
  have none : x.magnitude = 0 := by
    rw [magnitude_of_toInt? h, Int.natAbs_zero, Nat.zero_mul]
  have exponent : x.exponent.val = 0 := by
    refine Decidable.byContradiction fun he => ?_
    rw [magnitude_of_exponent_ne_zero he] at none
    have := Nat.two_pow_pos f.fractionBits
    have := Nat.mul_pos (Nat.add_pos_left this x.fraction.val)
      (Nat.two_pow_pos (x.exponent.val - 1))
    omega
  rw [magnitude_of_exponent_eq_zero exponent] at none
  rw [isZero, exponent, none]
  rfl

/-- Numbers that are integers are equal as the integers are. -/
theorem equal_iff_of_toInt?_eq {j : Int} (hf : 1 < f.topExponent) (hx : x.toInt? = some i)
    (hy : y.toInt? = some j) : x.equal y = true ↔ i = j := by
  by_cases hi : i = 0
  · by_cases hj : j = 0
    · subst hi hj
      have number := isNaN_of_isFinite (isFinite_of_toInt? hx)
      have number' := isNaN_of_isFinite (isFinite_of_toInt? hy)
      refine iff_of_true ?_ rfl
      rw [equal, number, number', isZero_of_toInt? hx, isZero_of_toInt? hy, Bool.and_true,
        Bool.or_true]
      rfl
    · rw [equal_comm, equal_iff_of_toInt? hy hj]
      constructor
      · rintro rfl
        exact Option.some.inj (hx.symm.trans hy)
      · intro same
        exact absurd (same.symm.trans hi) hj
  · rw [equal_iff_of_toInt? hx hi]
    constructor
    · rintro rfl
      exact Option.some.inj (hx.symm.trans hy)
    · rintro rfl
      rw [← ofInt_of_toInt? hf hx hi, ofInt_of_toInt? hf hy hi]

end HostBridge.Binary
