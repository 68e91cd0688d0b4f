import HostBridge.Binary

/-!
# Rounding to a format

A ratio `n / 2 ^ d` of smallest steps is rounded to the nearest number of the
format, a tie going to the even neighbour.  Below the first power of two that
has a hidden bit the numbers of a format are one step apart; above it their
distance doubles with each power of two.  So the rule first finds the distance,
then rounds the ratio to a whole multiple of it.

Integers and numbers of another format are such ratios, so one rule serves
`ofInt` and `convert`.
-/

namespace HostBridge

open scoped Binary

/-- The integer nearest to `n / 2 ^ k`, a tie going to the even one. -/
def roundHalfEven (n k : Nat) : Nat :=
  let q := n / 2 ^ k
  let r := n % 2 ^ k
  if 2 * r < 2 ^ k then q
  else if 2 ^ k < 2 * r then q + 1
  else if q % 2 = 0 then q else q + 1

namespace Binary

variable {f g : Format}

/-- The number of the given sign and magnitude in smallest steps.  A magnitude
the format has no bits for loses its low bits; one too large becomes infinite. -/
def ofMagnitude (negative : Bool) (r : Nat) : Binary f :=
  if h : r < 2 ^ f.fractionBits then
    { zero negative with fraction := ⟨r, h⟩ }
  else
    let shift := r.log2 - f.fractionBits
    if h : shift + 1 < f.topExponent then
      ⟨negative, ⟨shift + 1, Nat.lt_trans h f.topExponent_lt⟩,
        ⟨r / 2 ^ shift % 2 ^ f.fractionBits, Nat.mod_lt _ (Nat.two_pow_pos _)⟩⟩
    else infinity negative

/-- The number of the given sign nearest to `n / 2 ^ d` smallest steps. -/
def round (negative : Bool) (n d : Nat) : Binary f :=
  let shift := (n / 2 ^ d).log2 - f.fractionBits
  ofMagnitude negative (roundHalfEven n (d + shift) * 2 ^ shift)

/-- The number nearest to an integer. -/
def ofInt (i : Int) : Binary f :=
  round (decide (i < 0)) (i.natAbs * 2 ^ f.unitPlaces) 0

/-- The number of another format nearest to a number. -/
def convert (x : Binary f) : Binary g :=
  if x.isNaN then nan
  else if x.isFinite then round x.negative (x.magnitude * 2 ^ g.unitPlaces) f.unitPlaces
  else infinity x.negative

end Binary

/-! ## Examples -/

example : roundHalfEven 5 1 = 2 := by decide
example : roundHalfEven 7 1 = 4 := by decide
example : (Binary.ofInt 3 : Binary64).toBits = 0x4008000000000000 := by decide +kernel
example : (Binary.ofInt (-(2 ^ 63)) : Binary64).toBits = 0xc3e0000000000000 := by decide +kernel
example : (Binary.ofInt (2 ^ 53 + 1) : Binary64).toInt? = some (2 ^ 53) := by decide +kernel
example : ((Binary.ofBits 0x3fb999999999999a : Binary64).convert : Binary32).toBits = 0x3dcccccd := by
  decide +kernel
example : ((Binary.ofBits 0x47f0000000000000 : Binary64).convert : Binary32) = .infinity false := by
  decide +kernel

end HostBridge
