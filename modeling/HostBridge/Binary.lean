/-!
# Binary floating-point numbers

A number of the IEEE 754 binary interchange formats, by its three fields.  Every
finite number of a format is a whole multiple of one smallest step, `2` to the
power `-unitPlaces`.  So the exact value of a finite number is an integer, its
`units`, and equality, order and truncation are statements about integers.

`double` is the format of script numbers and `single` the narrower one that
hosts may ask for.  A number is infinite or not a number when its exponent
field is all ones.

`equal` is the equality of the standard: a NaN equals nothing, and the two zeros
are equal.  It is not the equality of the type.
-/

namespace HostBridge

namespace Binary

/-- The powers of this part of the library.  An instance of its own keeps its
terms the same whichever algebra is in scope. -/
scoped instance (priority := 2000) powers : Pow Nat Nat := instPowNat

end Binary

open scoped Binary

/-! ## Formats and fields -/

/-- The widths of the fields of a binary interchange format. -/
structure Binary.Format where
  exponentBits : Nat
  fractionBits : Nat
deriving DecidableEq, Repr

namespace Binary.Format

/-- Double precision. -/
abbrev double : Format := ⟨11, 52⟩

/-- Single precision. -/
abbrev single : Format := ⟨8, 23⟩

/-- The exponent field of infinities and NaNs. -/
def topExponent (f : Format) : Nat := 2 ^ f.exponentBits - 1

/-- The amount by which the exponent field exceeds the exponent. -/
def bias (f : Format) : Nat := 2 ^ (f.exponentBits - 1) - 1

/-- The smallest positive number of the format is `2` to the power `-unitPlaces`. -/
def unitPlaces (f : Format) : Nat := f.bias + f.fractionBits - 1

theorem topExponent_lt (f : Format) : f.topExponent < 2 ^ f.exponentBits :=
  Nat.sub_one_lt (Nat.pos_iff_ne_zero.mp (Nat.two_pow_pos _))

end Binary.Format

/-- A floating-point number of a format. -/
structure Binary (f : Binary.Format) where
  /-- The sign field. -/
  negative : Bool
  exponent : Fin (2 ^ f.exponentBits)
  fraction : Fin (2 ^ f.fractionBits)
deriving DecidableEq, Repr

/-- A double-precision number. -/
abbrev Binary64 := Binary .double

/-- A single-precision number. -/
abbrev Binary32 := Binary .single

namespace Binary

variable {f : Format}

/-! ## Particular numbers -/

/-- A zero of the given sign. -/
def zero (negative : Bool) : Binary f :=
  ⟨negative, ⟨0, Nat.two_pow_pos _⟩, ⟨0, Nat.two_pow_pos _⟩⟩

/-- An infinity of the given sign. -/
def infinity (negative : Bool) : Binary f :=
  ⟨negative, ⟨f.topExponent, f.topExponent_lt⟩, ⟨0, Nat.two_pow_pos _⟩⟩

/-- The quiet NaN whose fraction has only its highest bit. -/
def nan : Binary f :=
  ⟨false, ⟨f.topExponent, f.topExponent_lt⟩,
    ⟨2 ^ (f.fractionBits - 1) % 2 ^ f.fractionBits, Nat.mod_lt _ (Nat.two_pow_pos _)⟩⟩

instance : Inhabited (Binary f) := ⟨zero false⟩

/-! ## Reading the fields -/

/-- Whether the number is neither infinite nor a NaN. -/
def isFinite (x : Binary f) : Bool := x.exponent.val != f.topExponent

/-- Whether the fields encode no number. -/
def isNaN (x : Binary f) : Bool := x.exponent.val == f.topExponent && x.fraction.val != 0

/-- Whether the number is one of the two zeros. -/
def isZero (x : Binary f) : Bool := x.exponent.val == 0 && x.fraction.val == 0

/-- The absolute value of a finite number, counted in smallest steps.  A number
with exponent field zero has no hidden bit. -/
def magnitude (x : Binary f) : Nat :=
  if x.exponent.val = 0 then x.fraction.val
  else (2 ^ f.fractionBits + x.fraction.val) * 2 ^ (x.exponent.val - 1)

/-- The exact value of a finite number, counted in smallest steps. -/
def units (x : Binary f) : Int :=
  if x.negative then -(x.magnitude : Int) else x.magnitude

/-- The whole part of a finite number: its value rounded toward zero. -/
def truncated (x : Binary f) : Int := x.units.tdiv (2 ^ f.unitPlaces : Nat)

/-- Whether the number is finite and whole. -/
def isWhole (x : Binary f) : Bool :=
  x.isFinite && x.magnitude % 2 ^ f.unitPlaces == 0

/-- The whole part, of finite numbers only. -/
def truncate? (x : Binary f) : Option Int :=
  if x.isFinite then some x.truncated else none

/-- The integer a number is, if it is one. -/
def toInt? (x : Binary f) : Option Int :=
  if x.isWhole then some x.truncated else none

/-- The equality of the standard: NaNs differ from everything, the zeros are equal. -/
def equal (x y : Binary f) : Bool :=
  !x.isNaN && !y.isNaN && (x == y || (x.isZero && y.isZero))

/-! ## Bits -/

/-- The fields as one word, sign first and fraction last. -/
def toBits (x : Binary f) : Nat :=
  ((if x.negative then 2 ^ f.exponentBits else 0) + x.exponent.val) * 2 ^ f.fractionBits
    + x.fraction.val

/-- The number with the given word, of which the bits above the sign are ignored. -/
def ofBits (n : Nat) : Binary f where
  negative := n / 2 ^ (f.exponentBits + f.fractionBits) % 2 == 1
  exponent := ⟨n / 2 ^ f.fractionBits % 2 ^ f.exponentBits, Nat.mod_lt _ (Nat.two_pow_pos _)⟩
  fraction := ⟨n % 2 ^ f.fractionBits, Nat.mod_lt _ (Nat.two_pow_pos _)⟩

/-! ## Laws of equality -/

theorem equal_self_iff (x : Binary f) : x.equal x = true ↔ x.isNaN = false := by
  simp [equal]

theorem equal_comm (x y : Binary f) : x.equal y = y.equal x := by
  unfold equal
  by_cases h : x = y
  · subst h; rfl
  · have h' : ¬ y = x := fun e => h e.symm
    simp only [beq_eq_false_iff_ne.mpr h, beq_eq_false_iff_ne.mpr h', Bool.false_or]
    cases x.isNaN <;> cases y.isNaN <;> cases x.isZero <;> cases y.isZero <;> rfl

/-- Numbers equal to one number are equal: they are that number, or all are zeros. -/
theorem equal_trans {x y z : Binary f} (h : x.equal y = true) (h' : y.equal z = true) :
    x.equal z = true := by
  simp only [equal, Bool.and_eq_true, Bool.or_eq_true, Bool.not_eq_true', beq_iff_eq] at h h' ⊢
  obtain ⟨⟨hx, -⟩, same | ⟨zero, zero'⟩⟩ := h
  · exact ⟨⟨hx, h'.1.2⟩, same ▸ h'.2⟩
  · refine ⟨⟨hx, h'.1.2⟩, .inr ⟨zero, ?_⟩⟩
    rcases h'.2 with same | ⟨-, zero''⟩
    · exact same ▸ zero'
    · exact zero''

end Binary

/-! ## Examples -/

example : (Binary.ofBits 0x3ff8000000000000 : Binary64).truncate? = some 1 := by decide +kernel
example : (Binary.ofBits 0x3ff8000000000000 : Binary64).toInt? = none := by decide +kernel
example : (Binary.ofBits 0xc000000000000000 : Binary64).toInt? = some (-2) := by decide +kernel
example : (Binary.nan : Binary64).toBits = 0x7ff8000000000000 := by decide +kernel
example : (Binary.zero true : Binary64).equal (.zero false) = true := by decide +kernel
example : (Binary.nan : Binary64).equal .nan = false := by decide +kernel

end HostBridge
