namespace Bindery

/-!
# Binary floating-point numbers

The finite double-precision numbers, held exactly: a sign and a magnitude counted in units of the
smallest positive one, `2 ^ -1074`.  All arithmetic is on natural numbers.

* `roundDiv` — a quotient rounded to the nearest integer, halves going to the even neighbour.
* `Binary64` — the numbers themselves; at most 53 significant bits, below `2 ^ 1024`.
* `Binary64.ofRatio?` — the nearest number to a fraction, `none` beyond the largest finite one.
* `Binary64.ofDecimal?` — the number that a decimal numeral is read as.
-/

/-- The integer nearest to `num / den`; a half goes to the even neighbour. -/
def roundDiv (num den : Nat) : Nat :=
  let quotient := num / den
  let twice := 2 * (num % den)
  if twice < den then quotient
  else if den < twice then quotient + 1
  else quotient + quotient % 2

/-- A finite double-precision number: `± units · 2 ^ -1074`. -/
structure Binary64 where
  /-- Whether the sign is minus; zero has both signs. -/
  negative : Bool
  /-- The magnitude as a multiple of `2 ^ -1074`. -/
  units : Nat
  /-- At most 53 significant bits. -/
  short : Nat.pow 2 (units.log2 - 52) ∣ units
  /-- Below `2 ^ 1024`. -/
  bounded : units.log2 < 2098
deriving DecidableEq

namespace Binary64

/-- The zero of either sign. -/
def zero (negative : Bool) : Binary64 := ⟨negative, 0, ⟨0, rfl⟩, by decide⟩

@[simp] theorem units_zero (negative : Bool) : (zero negative).units = 0 := rfl

/-- How many units make one. -/
def unitsPerOne : Nat := Nat.pow 2 1074

/-- The number of that many units, if they are one number of the format. -/
def ofUnits? (negative : Bool) (units : Nat) : Option Binary64 :=
  if h : Nat.pow 2 (units.log2 - 52) ∣ units ∧ units.log2 < 2098 then
    some ⟨negative, units, h.1, h.2⟩
  else none

/-- The nearest number to `± num / den`, a tie going to the even significand; `none` when that
is beyond the largest finite number. -/
def ofRatio? (negative : Bool) (num den : Nat) : Option Binary64 :=
  let scaled := num * unitsPerOne
  let step := Nat.pow 2 ((scaled / den).log2 - 52)
  ofUnits? negative (roundDiv scaled (den * step) * step)

/-- The nearest number to an integer. -/
def ofInt? (n : Int) : Option Binary64 := ofRatio? (n < 0) n.natAbs 1

/-- The nearest number to `± digits · 10 ^ exponent`.  Magnitudes outside `10 ^ -400` to `10 ^ 400`
are decided by their length alone: they are zero or out of range. -/
def ofDecimal? (negative : Bool) (digits : Nat) (exponent : Int) : Option Binary64 :=
  let places : Int := (Nat.toDigits 10 digits).length
  if digits = 0 ∨ exponent + places < -400 then some (zero negative)
  else if 400 < exponent then none
  else if 0 ≤ exponent then ofRatio? negative (digits * Nat.pow 10 exponent.toNat) 1
  else ofRatio? negative digits (Nat.pow 10 (-exponent).toNat)

/-- Numeric equality: both zeros are equal, everything else needs sign and magnitude. -/
def sameValue (x y : Binary64) : Bool :=
  x.units == y.units && (x.negative == y.negative || x.units == 0)

/-- Whether there is no fractional part. -/
def isWhole (x : Binary64) : Bool := x.units % unitsPerOne == 0

/-- The magnitude with its fractional part cut off. -/
def wholePart (x : Binary64) : Nat := x.units / unitsPerOne

/-- The distance to the next larger magnitude, in units. -/
def spacing (x : Binary64) : Nat := Nat.pow 2 (x.units.log2 - 52)

/-- The distance to the next smaller magnitude, in units: half the spacing at a power of two above
the subnormal range. -/
def spacingBelow (x : Binary64) : Nat :=
  if 1 < x.spacing ∧ x.units = Nat.pow 2 x.units.log2 then x.spacing / 2 else x.spacing

/-- Whether the significand is even, so that the halfway points on both sides round to it. -/
def isEven (x : Binary64) : Bool := x.units / x.spacing % 2 == 0

end Binary64

end Bindery
