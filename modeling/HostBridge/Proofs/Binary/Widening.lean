import HostBridge.Proofs.Binary.Representation

/-!
# From a narrower format to a wider one

A format is within another if the other has its fractions, its smallest step and its
largest exponents.  Each magnitude of the narrower format is then one of the wider format,
counted in smaller steps (`Within.held`).  So a number is widened without rounding, and it
is the number found when the wide one is narrowed again (`convert_convert`).

Infinities go to infinities, and no number becomes a NaN (`isNaN_convert`).
-/

namespace HostBridge.Binary

open scoped Binary

variable {f g : Format} {x : Binary f} {r : Nat}

/-! ## Formats within formats -/

/-- The numbers of the first format are numbers of the second. -/
structure Format.Within (f g : Format) : Prop where
  fraction : f.fractionBits ≤ g.fractionBits
  unit : f.unitPlaces ≤ g.unitPlaces
  top : f.topExponent + (g.unitPlaces - f.unitPlaces) ≤ g.topExponent

theorem single_within_double : Format.single.Within .double := by
  constructor <;> decide +kernel

/-- What a format holds, each format that it is within holds too, in its own steps. -/
theorem Format.Within.held (w : f.Within g) (h : Held f r) :
    Held g (r * 2 ^ (g.unitPlaces - f.unitPlaces)) := by
  generalize hk : g.unitPlaces - f.unitPlaces = k
  have fraction := w.fraction
  have top := w.top
  have less : gap g (r * 2 ^ k) ≤ gap f r + k := by
    rcases Nat.eq_zero_or_pos r with rfl | pos
    · rw [Nat.zero_mul]
      exact Nat.le_trans (Nat.sub_le_sub_left fraction _) (Nat.le_add_right _ _)
    · have above : r * 2 ^ k < 2 ^ (r.log2 + 1 + k) := by
        rw [Nat.pow_add _ _ k]
        exact Nat.mul_lt_mul_of_pos_right Nat.lt_log2_self (Nat.two_pow_pos _)
      have nonzero : r * 2 ^ k ≠ 0 := Nat.ne_of_gt (Nat.mul_pos pos (Nat.two_pow_pos _))
      have := (Nat.log2_lt nonzero).mpr above
      rw [gap, gap]
      omega
  constructor
  · have both := Nat.mul_dvd_mul_right h.dvd (2 ^ k)
    rw [← Nat.pow_add] at both
    exact Nat.dvd_trans (Nat.pow_dvd_pow 2 less) both
  · have := h.lt
    omega

/-- What the format holds is not rounded, however many smaller steps it is counted in. -/
theorem Held.round_scaled_eq (h : Held f r) (negative : Bool) (d : Nat) :
    (round negative (r * 2 ^ d) d : Binary f) = ofMagnitude negative r := by
  have whole : r * 2 ^ d / 2 ^ d = r := Nat.mul_div_cancel _ (Nat.two_pow_pos _)
  have dvd : 2 ^ (d + gap f r) ∣ r * 2 ^ d := by
    rw [Nat.add_comm, Nat.pow_add]
    exact Nat.mul_dvd_mul_right h.dvd _
  have exact : roundHalfEven (r * 2 ^ d) (d + gap f r) * 2 ^ gap f r = r := by
    rw [roundHalfEven_of_dvd dvd, Nat.pow_add, ← Nat.div_div_eq_div_mul, whole,
      Nat.div_mul_cancel h.dvd]
  show ofMagnitude negative (roundHalfEven (r * 2 ^ d) (d + gap f (r * 2 ^ d / 2 ^ d)) *
    2 ^ gap f (r * 2 ^ d / 2 ^ d)) = _
  rw [whole, exact]

/-! ## Numbers -/

theorem convert_of_isFinite (h : x.isFinite = true) :
    (x.convert : Binary g) =
      round x.negative (x.magnitude * 2 ^ g.unitPlaces) f.unitPlaces := by
  rw [convert, isNaN_of_isFinite h, if_neg Bool.false_ne_true, if_pos h]

theorem convert_infinity (negative : Bool) :
    ((infinity negative : Binary f).convert : Binary g) = infinity negative := by
  simp [convert, infinity, isNaN, isFinite]

/-- A number that is neither finite nor a NaN is an infinity. -/
theorem eq_infinity (hx : x.isFinite = false) (hn : x.isNaN = false) :
    x = infinity x.negative := by
  obtain ⟨negative, exponent, fraction⟩ := x
  simp only [isFinite, bne_eq_false_iff_eq] at hx
  simp only [isNaN, hx, beq_self_eq_true, Bool.true_and, bne_eq_false_iff_eq] at hn
  rw [infinity, Binary.mk.injEq]
  exact ⟨rfl, Fin.ext hx, Fin.ext hn⟩

/-- A number is not converted to a NaN. -/
theorem isNaN_convert (hg : 1 < g.topExponent) (hx : x.isNaN = false) :
    (x.convert : Binary g).isNaN = false := by
  cases finite : x.isFinite with
  | true =>
      rw [convert_of_isFinite finite]
      exact isNaN_ofMagnitude hg _ _
  | false =>
      rw [eq_infinity finite hx, convert_infinity]
      simp [infinity, isNaN]

/-- A number of a format within another is found again when it is widened and then
narrowed. -/
theorem convert_convert (w : f.Within g) (hf : 1 < f.topExponent) (hx : x.isNaN = false) :
    ((x.convert : Binary g).convert : Binary f) = x := by
  have unit := w.unit
  cases finite : x.isFinite with
  | true =>
      have held := held_magnitude hf finite
      have wide := w.held held
      have scaled : x.magnitude * 2 ^ g.unitPlaces =
          x.magnitude * 2 ^ (g.unitPlaces - f.unitPlaces) * 2 ^ f.unitPlaces := by
        rw [Nat.mul_assoc, ← Nat.pow_add, Nat.sub_add_cancel unit]
      rw [convert_of_isFinite finite, scaled, wide.round_scaled_eq,
        convert_of_isFinite (wide.isFinite_ofMagnitude _), wide.magnitude_ofMagnitude,
        wide.negative_ofMagnitude, ← scaled, held.round_scaled_eq, ofMagnitude_magnitude finite]
  | false =>
      rw [eq_infinity finite hx, convert_infinity, convert_infinity]

end HostBridge.Binary
