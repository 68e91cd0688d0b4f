import HostBridge.Binary

/-!
# The text of a number

A whole number is written with all its digits, whatever their number.  Any other
finite number is written in positional notation, with the fewest decimal places
that still tell it from every other number of its format.  Among two such texts
the nearer one is taken, and of two equally near ones the larger.

A number stands for the interval of reals that round to it.  The interval ends
half way to the two neighbours, and the ends belong to it exactly when the
fraction field is even.  The last place of the text is the first one on whose
grid the interval has a point.  If a grid has a point in the interval then one
of the two grid points around the number itself is in it, so only these two are
tried.
-/

namespace HostBridge.Binary

variable {f : Format}

/-- The distance to the next number above, in smallest steps. -/
def gapAbove (x : Binary f) : Nat := 2 ^ (x.exponent.val - 1)

/-- The distance to the next number below, in smallest steps.  It is halved at
the least number of each power of two. -/
def gapBelow (x : Binary f) : Nat :=
  if x.fraction.val = 0 ∧ 1 < x.exponent.val then x.gapAbove / 2 else x.gapAbove

/-- Whether the decimal `n / 10 ^ places` rounds to the absolute value of `x`.
Both sides are scaled to half steps and whole powers of ten. -/
def readsBack (x : Binary f) (places n : Nat) : Bool :=
  let point := 2 * n * 2 ^ f.unitPlaces
  let low := (2 * x.magnitude - x.gapBelow) * 10 ^ places
  let high := (2 * x.magnitude + x.gapAbove) * 10 ^ places
  if x.fraction.val % 2 = 0 then low ≤ point && point ≤ high
  else low < point && point < high

/-- The decimal with the given number of places that is written for the absolute
value of `x`, if one reads back: the nearer of the two around it, the larger on
a tie. -/
def decimal? (x : Binary f) (places : Nat) : Option Nat :=
  let scaled := x.magnitude * 10 ^ places
  let below := scaled / 2 ^ f.unitPlaces
  let rest := scaled % 2 ^ f.unitPlaces
  match x.readsBack places below, x.readsBack places (below + 1) with
  | true, true => some (if 2 * rest < 2 ^ f.unitPlaces then below else below + 1)
  | true, false => some below
  | false, true => some (below + 1)
  | false, false => none

/-- The least number of places at which a decimal reads back, with that decimal.
With `unitPlaces` places the value is written exactly, so one is found. -/
def shortest (x : Binary f) : Nat × Nat :=
  ((List.range (f.unitPlaces + 1)).findSome? fun places =>
    (x.decimal? places).map fun n => (places, n)).getD (0, 0)

/-- The digits of `n`, at least `width` of them. -/
def paddedDigits (width n : Nat) : String :=
  let digits := toString n
  String.ofList (List.replicate (width - digits.length) '0') ++ digits

/-- The text of `n / 10 ^ places` with exactly that many places. -/
def positional (places n : Nat) : String :=
  toString (n / 10 ^ places) ++ "." ++ paddedDigits places (n % 10 ^ places)

/-- The text of a number. -/
def text (x : Binary f) : String :=
  if x.isNaN then "NaN"
  else if x.isFinite then
    if x.isWhole then toString x.truncated
    else
      let (places, n) := x.shortest
      (if x.negative then "-" else "") ++ positional places n
  else if x.negative then "-inf" else "inf"

end HostBridge.Binary
