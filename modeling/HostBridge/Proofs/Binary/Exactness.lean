import HostBridge.Binary.Rounding

/-!
# Integers that a format holds exactly

To round loses nothing if the number is a multiple of the distance between neighbours at
its magnitude.  An integer with one bit more than a fraction has is such a multiple, and
so is the next power of two.  Up to there numbers of the format count exactly, which
for double precision is up to `2 ^ 53`.  The integer after that is none of the format.
-/

namespace HostBridge

open scoped Binary

/-- Nothing is rounded where nothing is left over. -/
theorem roundHalfEven_of_dvd {n k : Nat} (h : 2 ^ k ∣ n) : roundHalfEven n k = n / 2 ^ k := by
  unfold roundHalfEven
  rw [Nat.mod_eq_zero_of_dvd h]
  exact if_pos (Nat.two_pow_pos k)

namespace Binary

variable {f : Format}

/-- The neighbours of a magnitude are two to this power apart. -/
def gap (f : Format) (r : Nat) : Nat := r.log2 - f.fractionBits

/-- A magnitude the format has, and does not use for infinity. -/
structure Held (f : Format) (r : Nat) : Prop where
  dvd : 2 ^ gap f r ∣ r
  lt : gap f r + 1 < f.topExponent

theorem ofMagnitude_of_lt {r : Nat} (h : r < 2 ^ f.fractionBits) (negative : Bool) :
    (ofMagnitude negative r : Binary f) = { zero negative with fraction := ⟨r, h⟩ } :=
  dif_pos h

theorem ofMagnitude_of_not_lt {r : Nat} (h : ¬ r < 2 ^ f.fractionBits)
    (ht : gap f r + 1 < f.topExponent) (negative : Bool) :
    (ofMagnitude negative r : Binary f) =
      ⟨negative, ⟨gap f r + 1, Nat.lt_trans ht f.topExponent_lt⟩,
        ⟨r / 2 ^ gap f r % 2 ^ f.fractionBits, Nat.mod_lt _ (Nat.two_pow_pos _)⟩⟩ :=
  (dif_neg h).trans (dif_pos ht)

section Held

variable {r : Nat} (h : Held f r) (negative : Bool)

include h

theorem Held.negative_ofMagnitude : (ofMagnitude negative r : Binary f).negative = negative := by
  by_cases small : r < 2 ^ f.fractionBits
  · rw [ofMagnitude_of_lt small]
    rfl
  · rw [ofMagnitude_of_not_lt small h.lt]

theorem Held.isFinite_ofMagnitude : (ofMagnitude negative r : Binary f).isFinite = true := by
  have lt := h.lt
  rw [isFinite, bne_iff_ne]
  by_cases small : r < 2 ^ f.fractionBits
  · rw [ofMagnitude_of_lt small]
    show 0 ≠ f.topExponent
    omega
  · rw [ofMagnitude_of_not_lt small lt]
    exact Nat.ne_of_lt lt

theorem Held.magnitude_ofMagnitude : (ofMagnitude negative r : Binary f).magnitude = r := by
  by_cases small : r < 2 ^ f.fractionBits
  · rw [ofMagnitude_of_lt small]
    rfl
  · -- The leading bit is the hidden one, so what is kept is the rest.
    have pos : r ≠ 0 := fun hr => small (hr ▸ Nat.two_pow_pos _)
    have bits : f.fractionBits ≤ r.log2 := (Nat.le_log2 pos).mpr (Nat.le_of_not_lt small)
    have lower : 2 ^ f.fractionBits ≤ r / 2 ^ gap f r := by
      rw [Nat.le_div_iff_mul_le (Nat.two_pow_pos _), ← Nat.pow_add, gap,
        Nat.add_sub_cancel' bits]
      exact Nat.log2_self_le pos
    have upper : r / 2 ^ gap f r < 2 * 2 ^ f.fractionBits := by
      rw [Nat.div_lt_iff_lt_mul (Nat.two_pow_pos _), Nat.mul_assoc, ← Nat.pow_add, gap,
        Nat.add_sub_cancel' bits, Nat.mul_comm, ← Nat.pow_succ]
      exact Nat.lt_log2_self
    have rest : r / 2 ^ gap f r % 2 ^ f.fractionBits = r / 2 ^ gap f r - 2 ^ f.fractionBits := by
      rw [Nat.mod_eq_sub_mod lower, Nat.mod_eq_of_lt (by omega)]
    rw [ofMagnitude_of_not_lt small h.lt]
    show (2 ^ f.fractionBits + r / 2 ^ gap f r % 2 ^ f.fractionBits) * 2 ^ gap f r = r
    rw [rest, Nat.add_sub_cancel' lower, Nat.div_mul_cancel h.dvd]

/-- What the format holds is not rounded. -/
theorem Held.round_eq :
    (round negative r 0 : Binary f) = ofMagnitude negative r := by
  have exact : roundHalfEven r (0 + gap f (r / 2 ^ 0)) * 2 ^ gap f (r / 2 ^ 0) = r := by
    rw [Nat.pow_zero, Nat.div_one, Nat.zero_add, roundHalfEven_of_dvd h.dvd,
      Nat.div_mul_cancel h.dvd]
  show ofMagnitude negative (roundHalfEven r (0 + gap f (r / 2 ^ 0)) * 2 ^ gap f (r / 2 ^ 0)) = _
  rw [exact]

end Held

/-- Integers with one bit more than the fraction are held, and so is the next one. -/
theorem held_of_le (hf : f.unitPlaces + 2 < f.topExponent) {n : Nat}
    (hn : n ≤ 2 ^ (f.fractionBits + 1)) : Held f (n * 2 ^ f.unitPlaces) := by
  rcases Nat.lt_or_eq_of_le hn with less | rfl
  · have small : gap f (n * 2 ^ f.unitPlaces) ≤ f.unitPlaces := by
      have below : n * 2 ^ f.unitPlaces < 2 ^ (f.fractionBits + 1 + f.unitPlaces) := by
        rw [Nat.pow_add _ _ f.unitPlaces]
        exact Nat.mul_lt_mul_of_pos_right less (Nat.two_pow_pos _)
      rcases Nat.eq_zero_or_pos (n * 2 ^ f.unitPlaces) with zero | pos
      · simp [gap, zero]
      · have := (Nat.log2_lt (Nat.ne_of_gt pos)).mpr below
        rw [gap]
        omega
    exact ⟨Nat.dvd_mul_left_of_dvd (Nat.pow_dvd_pow 2 small) n, by omega⟩
  · have whole : 2 ^ (f.fractionBits + 1) * 2 ^ f.unitPlaces =
        2 ^ (f.fractionBits + (f.unitPlaces + 1)) := by
      rw [← Nat.pow_add]
      congr 1
      omega
    have one : gap f (2 ^ (f.fractionBits + 1) * 2 ^ f.unitPlaces) = f.unitPlaces + 1 := by
      rw [gap, whole, Nat.log2_two_pow]
      omega
    refine ⟨?_, by omega⟩
    rw [one, whole]
    exact Nat.pow_dvd_pow 2 (by omega)

/-- An integer of a magnitude that is held is the integer of the number made from it. -/
theorem Held.toInt?_ofInt {i : Int} (held : Held f (i.natAbs * 2 ^ f.unitPlaces)) :
    (ofInt i : Binary f).toInt? = some i := by
  have magnitude := held.magnitude_ofMagnitude (decide (i < 0))
  rw [ofInt, held.round_eq]
  have whole : (ofMagnitude (decide (i < 0)) (i.natAbs * 2 ^ f.unitPlaces) : Binary f).isWhole =
      true := by
    rw [isWhole, held.isFinite_ofMagnitude, magnitude, Nat.mul_mod_left]
    rfl
  have nonzero : ((2 ^ f.unitPlaces : Nat) : Int) ≠ 0 :=
    Int.natCast_ne_zero.mpr (Nat.ne_of_gt (Nat.two_pow_pos _))
  rw [toInt?, if_pos whole, truncated, units, magnitude, held.negative_ofMagnitude,
    Int.natCast_mul]
  split
  · rename_i negative
    rw [← Int.neg_mul, Int.mul_tdiv_cancel _ nonzero]
    simp only [decide_eq_true_eq] at negative
    congr 1
    omega
  · rename_i positive
    rw [Int.mul_tdiv_cancel _ nonzero]
    simp only [decide_eq_true_eq] at positive
    congr 1
    omega

/-- The integer nearest to a number made from an integer is this integer. -/
theorem toInt?_ofInt (hf : f.unitPlaces + 2 < f.topExponent) {i : Int}
    (hi : i.natAbs ≤ 2 ^ (f.fractionBits + 1)) : (ofInt i : Binary f).toInt? = some i :=
  (held_of_le hf hi).toInt?_ofInt

/-- The whole part of a number that is an integer is that integer. -/
theorem truncate?_of_toInt? {x : Binary f} {i : Int} (h : x.toInt? = some i) :
    x.truncate? = some i := by
  rw [toInt?] at h
  split at h
  · rename_i whole
    rw [isWhole, Bool.and_eq_true] at whole
    rw [truncate?, if_pos whole.1, h]
  · cases h

/-- A whole number is the integer that is its whole part. -/
theorem toInt?_of_truncate? {x : Binary f} {i : Int} (hx : x.isWhole = true)
    (h : x.truncate? = some i) : x.toInt? = some i := by
  rw [truncate?] at h
  split at h
  · rw [toInt?, if_pos hx, h]
  · cases h

/-! ## Integers a format does not have -/

/-- A magnitude is a power of two times a number that fits into the fraction and the hidden
bit. -/
theorem exists_magnitude (x : Binary f) :
    ∃ m k : Nat, m < 2 ^ (f.fractionBits + 1) ∧ x.magnitude = m * 2 ^ k := by
  have fraction := x.fraction.isLt
  rw [magnitude]
  split
  · exact ⟨_, 0, by omega, (Nat.mul_one _).symm⟩
  · exact ⟨_, _, by omega, rfl⟩

theorem natAbs_units (x : Binary f) : x.units.natAbs = x.magnitude := by
  unfold units
  split
  · rw [Int.natAbs_neg, Int.natAbs_natCast]
  · exact Int.natAbs_natCast _

/-- The magnitude of a number that is an integer. -/
theorem magnitude_of_toInt? {x : Binary f} {i : Int} (h : x.toInt? = some i) :
    x.magnitude = i.natAbs * 2 ^ f.unitPlaces := by
  rw [toInt?] at h
  split at h
  · rename_i whole
    cases h
    rw [isWhole, Bool.and_eq_true, beq_iff_eq] at whole
    rw [truncated, Int.natAbs_tdiv, natAbs_units, Int.natAbs_natCast]
    exact (Nat.div_mul_cancel (Nat.dvd_of_mod_eq_zero whole.2)).symm
  · cases h

/-- The first integer with too many bits is none of the format. -/
theorem toInt?_ne (x : Binary f) :
    x.toInt? ≠ some ((2 ^ (f.fractionBits + 1) + 1 : Nat) : Int) := by
  intro h
  obtain ⟨m, k, hm, split⟩ := x.exists_magnitude
  have same := magnitude_of_toInt? h
  rw [Int.natAbs_natCast, split] at same
  by_cases hk : k ≤ f.unitPlaces
  · -- The power of two is too small for an integer of that size.
    have small : m * 2 ^ k < (2 ^ (f.fractionBits + 1) + 1) * 2 ^ f.unitPlaces :=
      Nat.mul_lt_mul_of_lt_of_le (Nat.lt_succ_of_lt hm) (Nat.pow_le_pow_right Nat.two_pos hk)
        (Nat.two_pow_pos _)
    omega
  · -- The power of two makes the integer even.
    obtain ⟨j, rfl⟩ := Nat.exists_eq_add_of_lt (Nat.lt_of_not_le hk)
    rw [show f.unitPlaces + j + 1 = j + 1 + f.unitPlaces by omega, Nat.pow_add _ (j + 1),
      ← Nat.mul_assoc] at same
    have even := Nat.mul_right_cancel (Nat.two_pow_pos _) same
    rw [Nat.pow_succ, Nat.pow_succ, ← Nat.mul_assoc] at even
    omega

end Binary

end HostBridge
