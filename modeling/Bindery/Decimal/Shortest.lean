import Bindery.Decimal.Binary64

namespace Bindery

/-!
# Shortest decimal numerals

The fewest decimal digits that read back as a given number, and the two ways of laying them out.

* `Numeral` — digits and a power of ten.
* `Binary64.shortest` — the shortest numeral in the interval of reals that round to the number; of
  two on the same grid the nearer one, and on a tie the one that `Tie` names.
* `Layout` — the decisions of one written form; `Layout.write` applies them.
-/

/-- The decimal numeral `digits · 10 ^ exponent`. -/
structure Numeral where
  digits : Nat
  exponent : Int
deriving DecidableEq

/-- Which of two equally near neighbours on a decimal grid is taken. -/
inductive Tie where
  /-- The neighbour whose last digit is even. -/
  | toEven
  /-- The larger neighbour. -/
  | up
deriving DecidableEq

namespace Binary64

/-- The decimal exponent of a positive number: the power of ten of its first digit. -/
def decimalExponent (x : Binary64) : Int :=
  if unitsPerOne ≤ x.units then (Nat.toDigits 10 x.wholePart).length - 1
  else -((Nat.toDigits 10 ((unitsPerOne + x.units - 1) / x.units - 1)).length : Int)

/-- The two neighbours of a number on the grid of multiples of `10 ^ exponent`, the one to take
among those that round to it. -/
def onGrid? (tie : Tie) (x : Binary64) (exponent : Int) : Option Nat :=
  -- A grid point `c` stands at `c * grid`, a quarter unit at `scale`.
  let grid := Nat.pow 10 exponent.toNat * (4 * unitsPerOne)
  let scale := Nat.pow 10 (-exponent).toNat
  let centre := 4 * x.units * scale
  let low := (4 * x.units - 2 * x.spacingBelow) * scale
  let high := (4 * x.units + 2 * x.spacing) * scale
  let inside (c : Nat) : Bool :=
    let point := c * grid
    if x.isEven then low ≤ point && point ≤ high else low < point && point < high
  let below := centre / grid
  let above := below + 1
  match inside below, inside above with
  | false, false => none
  | true, false => some below
  | false, true => some above
  | true, true =>
    let toBelow := centre - below * grid
    let toAbove := above * grid - centre
    if toBelow < toAbove then some below
    else if toAbove < toBelow then some above
    else match tie with
      | .up => some above
      | .toEven => some (if below % 2 = 0 then below else above)

/-- The first grid with a hit, from the one of `10 ^ exponent` on through `count` finer ones. -/
def onFirstGrid (tie : Tie) (x : Binary64) : Nat → Int → Numeral
  | 0, _ => ⟨x.units, 0⟩
  | count + 1, exponent =>
    match x.onGrid? tie exponent with
    | some digits => ⟨digits, exponent⟩
    | none => onFirstGrid tie x count (exponent - 1)

/-- The shortest numeral that reads back as the magnitude of `x`.  Seventeen digits always do. -/
def shortest (tie : Tie) (x : Binary64) : Numeral :=
  if x.units = 0 then ⟨0, 0⟩ else onFirstGrid tie x 17 x.decimalExponent

end Binary64

/-- The decisions of one way to write a floating-point number. -/
structure Layout where
  /-- Which of two equally near shortest numerals is written. -/
  tie : Tie
  /-- The powers of ten of the first digit that are written without an exponent. -/
  isPlain : Int → Bool
  /-- Whether a whole number written plainly ends in `.0`. -/
  keepsPoint : Bool

namespace Layout

/-- The form of data: exponents from -5 to 15 are written plainly and always with a fraction. -/
def data : Layout := ⟨.toEven, fun e => -5 ≤ e && e ≤ 15, true⟩

/-- The form of display: never an exponent, and no fraction on a whole number. -/
def display : Layout := ⟨.up, fun _ => true, false⟩

/-- Digits without the zeros at their end; a lone zero stays. -/
def significant (digits : Nat) : List Char :=
  match ((Nat.toDigits 10 digits).reverse.dropWhile (· == '0')).reverse with
  | [] => ['0']
  | kept => kept

/-- Digits with the point after the digit of power zero, the first digit having power `e`. -/
def plain (layout : Layout) (digits : List Char) (e : Int) : List Char :=
  if e < 0 then "0.".toList ++ List.replicate (-e - 1).toNat '0' ++ digits
  else
    let whole := e.toNat + 1
    if digits.length ≤ whole then
      digits ++ List.replicate (whole - digits.length) '0'
        ++ (if layout.keepsPoint then ".0".toList else [])
    else digits.take whole ++ '.' :: digits.drop whole

/-- Digits with a point after the first and the power of ten written out, signed if positive. -/
def scientific (digits : List Char) (e : Int) : List Char :=
  let fraction := digits.drop 1
  digits.take 1 ++ (if fraction.isEmpty then [] else '.' :: fraction)
    ++ (if e < 0 then "e-".toList else "e+".toList) ++ Nat.toDigits 10 e.natAbs

/-- The text of a number under a layout. -/
def write (layout : Layout) (x : Binary64) : String :=
  let numeral := x.shortest layout.tie
  let digits := significant numeral.digits
  let e := (Nat.toDigits 10 numeral.digits).length - 1 + numeral.exponent
  let body := if layout.isPlain e then layout.plain digits e else scientific digits e
  String.ofList (if x.negative then '-' :: body else body)

end Layout

end Bindery
