import Bindery.Json.Printer
import Bindery.Proofs.Json.Exactness

namespace Bindery

/-!
# The texts of equal scalars

Strict equality compares numbers by what they denote, and a number is displayed by what it denotes
as well: a whole one with all its digits, in whichever form it is.  Only the sign of a zero is
displayed and makes no difference to equality.

* `Scalar.isMinusZero` — the zero with a sign.
* `Number.display_of_value` — the text of a whole number in the floating-point format.
* `Number.display_eq_iff` — numbers that denote the same have the same text, unless just one of them
  is the zero with a sign.
* `Scalar.display_eq_iff` — so have scalars that are strictly equal without rounding.
-/

namespace Binary64

variable {x y : Binary64} {n : Int}

/-- Whether the number is the zero with a sign. -/
def isMinusZero (x : Binary64) : Bool := x.negative && x.units == 0

/-- A number is its value and its sign. -/
theorem eq_of_value_eq (same : x.value = y.value) (sign : x.negative = y.negative) : x = y := by
  have units := value_eq_iff.1 same
  obtain ⟨negative, u, short, bounded⟩ := x
  obtain ⟨negative', u', short', bounded'⟩ := y
  obtain rfl : negative = negative' := sign
  obtain rfl : u = u' := by
    simp only [signedUnits] at units
    cases negative <;> simp at units <;> exact units
  rfl

/-- Nothing but zero has both signs. -/
theorem units_eq_zero (same : x.value = y.value) (differ : x.negative ≠ y.negative) :
    x.units = 0 ∧ y.units = 0 := by
  have units := value_eq_iff.1 same
  unfold signedUnits at units
  cases hx : x.negative <;> cases hy : y.negative <;>
    simp only [hx, hy, Bool.false_eq_true, if_true, if_false] at units differ
  · exact absurd rfl differ
  · omega
  · omega
  · exact absurd rfl differ

/-- The magnitude and the sign of a number that denotes an integer. -/
theorem units_of_value_eq (h : x.value = n) :
    x.units = n.natAbs * unitsPerOne ∧ (n ≠ 0 → x.negative = decide (n < 0)) := by
  have units : x.signedUnits = n * unitsPerOne := value_eq_int_iff.1 h
  have pos := unitsPerOne_pos
  generalize unitsPerOne = one at units pos ⊢
  have magnitude : (n * one).natAbs = n.natAbs * one := by
    rw [Int.natAbs_mul, Int.natAbs_natCast]
  rw [← magnitude, ← units]
  unfold signedUnits at units ⊢
  cases hx : x.negative with
  | false =>
    simp only [hx, Bool.false_eq_true, if_false] at units ⊢
    refine ⟨rfl, fun _ => ?_⟩
    -- a negative integer would have a negative multiple
    by_contra minus
    have minus : n < 0 := by simpa using minus
    have := Int.mul_neg_of_neg_of_pos minus (Int.natCast_pos.2 pos)
    omega
  | true =>
    simp only [hx, if_true] at units ⊢
    refine ⟨by omega, fun nonzero => ?_⟩
    by_contra plus
    have plus : 0 < n := by
      have : ¬ n < 0 := by simpa using plus
      omega
    have := Int.mul_pos plus (Int.natCast_pos.2 pos)
    omega

end Binary64

/-- The digits of a whole number, after its sign. -/
def signedText (negative : Bool) (magnitude : Nat) : String :=
  String.ofList ((if negative then ['-'] else []) ++ Nat.toDigits 10 magnitude)

/-- An integer is written as its magnitude, after its sign. -/
theorem decimalText_eq (n : Int) : decimalText n = signedText (n < 0) n.natAbs := by
  unfold decimalText signedText
  simp only [decide_eq_true_eq]

/-- The sign of zero can be told from its text. -/
theorem signedText_zero_iff (s t : Bool) : signedText s 0 = signedText t 0 ↔ s = t := by
  cases s <;> cases t <;> decide

namespace Number

variable {a b : Number} {n : Int} {x y : Binary64}

/-- Whether the number is the zero with a sign; integers have no such zero. -/
def isMinusZero : Number → Bool
  | .integer _ => false
  | .float x => x.isMinusZero

/-- A whole number below `10 ^ 21` is displayed with all its digits. -/
theorem display_of_units {magnitude : Nat}
    (units : x.units = magnitude * Binary64.unitsPerOne) (small : magnitude < Nat.pow 10 21) :
    (float x).display = signedText x.negative magnitude := by
  have pos := Binary64.unitsPerOne_pos
  have whole : x.wholePart = magnitude := by
    rw [Binary64.wholePart, units, Nat.mul_div_cancel _ pos]
  have isWhole : x.isWhole = true := by
    rw [Binary64.isWhole, units, Nat.mul_mod_left]
    rfl
  rw [display, if_pos ⟨isWhole, by rw [whole]; exact small⟩, whole]
  rfl

/-- **The text of a whole number.**  It is that of the integer with the sign of the number. -/
theorem display_of_value (h : (integer n).InRange) (same : x.value = n) :
    (float x).display = signedText x.negative n.natAbs := by
  apply display_of_units (Binary64.units_of_value_eq same).1
  have := h.natAbs_le
  have : (2 : Nat) ^ 64 < Nat.pow 10 21 := by decide
  omega

/-- A zero is displayed with its sign. -/
theorem display_of_zero (h : x.units = 0) : (float x).display = signedText x.negative 0 :=
  display_of_units (by rw [h, Nat.zero_mul]) (by decide)

/-- Two floating-point numbers of one value are displayed the same, but for the sign of zeros. -/
theorem display_float_eq_iff (same : x.value = y.value) :
    (float x).display = (float y).display ↔ x.isMinusZero = y.isMinusZero := by
  by_cases sign : x.negative = y.negative
  · rw [Binary64.eq_of_value_eq same sign]
    exact iff_of_true rfl rfl
  · obtain ⟨hx, hy⟩ := Binary64.units_eq_zero same sign
    rw [display_of_zero hx, display_of_zero hy, signedText_zero_iff, Binary64.isMinusZero,
      Binary64.isMinusZero, hx, hy]
    simp

/-- So are an integer and a floating-point number of its value: the integer zero has no sign. -/
theorem display_integer_eq_iff (h : (integer n).InRange) (same : x.value = n) :
    (integer n).display = (float x).display ↔ false = x.isMinusZero := by
  obtain ⟨units, sign⟩ := Binary64.units_of_value_eq same
  rw [display_of_value h same, show (integer n).display = decimalText n from rfl, decimalText_eq]
  by_cases zero : n = 0
  · subst zero
    rw [Int.natAbs_zero, Nat.zero_mul] at units
    rw [Int.natAbs_zero, signedText_zero_iff, Binary64.isMinusZero, units]
    simp
  · have nonzero : x.units ≠ 0 := by
      rw [units]
      exact Nat.mul_ne_zero (Int.natAbs_ne_zero.2 zero) Binary64.unitsPerOne_pos.ne'
    rw [sign zero, Binary64.isMinusZero, beq_false_of_ne nonzero, Bool.and_false]
    exact iff_of_true rfl rfl

/-- **One number, one text.**  Numbers that denote the same are displayed alike, unless just one of
them is the zero with a sign. -/
theorem display_eq_iff (ha : a.InRange) (hb : b.InRange) (same : a.value = b.value) :
    a.display = b.display ↔ a.isMinusZero = b.isMinusZero := by
  match a, b, ha, hb with
  | .integer m, .integer n, _, _ =>
    obtain rfl : m = n := Int.cast_injective same
    exact iff_of_true rfl rfl
  | .integer n, .float x, ha, _ => exact display_integer_eq_iff ha same.symm
  | .float x, .integer n, _, hb =>
    rw [eq_comm, display_integer_eq_iff hb same, eq_comm]
    rfl
  | .float x, .float y, _, _ => exact display_float_eq_iff same

end Number

namespace Scalar

variable {a b : Scalar}

/-- Whether a scalar is the zero with a sign. -/
def isMinusZero : Scalar → Bool
  | .number a => a.isMinusZero
  | _ => false

/-- **One text for equal scalars.**  Scalars that are strictly equal, and not by rounding, are
displayed alike unless just one of them is the zero with a sign. -/
theorem display_eq_iff (ha : a.InRange) (hb : b.InRange) (same : a.strictEq b = true)
    (unrounded : ¬ a.RoundsTo b) (unrounded' : ¬ b.RoundsTo a) :
    a.display = b.display ↔ a.isMinusZero = b.isMinusZero := by
  have value : a.SameValue b := by
    rcases (strictEq_iff ha hb).1 same with value | rounds | rounds
    · exact value
    · exact absurd rounds unrounded
    · exact absurd rounds unrounded'
  rcases strictEq_cases same with rfl | ⟨m, n, rfl, rfl, -⟩
  · exact iff_of_true rfl rfl
  · exact Number.display_eq_iff ha hb value

end Scalar

end Bindery
