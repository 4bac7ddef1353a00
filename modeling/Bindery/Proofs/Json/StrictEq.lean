import Bindery.Json.StrictEq

namespace Bindery

/-!
# Laws of strict equality

Strict equality does not depend on the order of its sides, and every scalar is equal to itself.
-/

namespace Binary64

/-- Denoting the same number is symmetric. -/
theorem sameValue_comm (x y : Binary64) : x.sameValue y = y.sameValue x := by
  simp only [sameValue]
  by_cases h : x.units = y.units
  · rw [h, Bool.beq_comm (a := x.negative)]
  · rw [beq_false_of_ne h, beq_false_of_ne (Ne.symm h), Bool.false_and, Bool.false_and]

@[simp] theorem sameValue_self (x : Binary64) : x.sameValue x = true := by
  simp [sameValue]

end Binary64

/-- Strict equality of numbers is symmetric, also between the two kinds of them. -/
theorem Number.strictEq_comm (a b : Number) : a.strictEq b = b.strictEq a := by
  cases a <;> cases b
  case integer.integer m n => exact Bool.beq_comm
  case float.float x y => exact Binary64.sameValue_comm x y
  all_goals simp only [strictEq, Binary64.sameValue_comm]

@[simp] theorem Number.strictEq_self (a : Number) : a.strictEq a = true := by
  cases a <;> simp [strictEq]

/-- Strict equality of scalars is symmetric. -/
theorem Scalar.strictEq_comm (a b : Scalar) : a.strictEq b = b.strictEq a := by
  cases a <;> cases b
  case bool.bool x y => exact Bool.beq_comm
  case number.number x y => exact Number.strictEq_comm x y
  case string.string x y => exact Bool.beq_comm
  all_goals rfl

@[simp] theorem Scalar.strictEq_self (a : Scalar) : a.strictEq a = true := by
  cases a <;> simp [strictEq]

/-- Nothing but a string equals a string. -/
theorem Scalar.eq_string_of_strictEq {a : Scalar} {text : String}
    (h : a.strictEq (.string text) = true) : a = .string text := by
  cases a
  case string other => exact congrArg Scalar.string (eq_of_beq h)
  all_goals cases h

/-- **Strict equality is symmetric.** -/
theorem Json.strictEq_comm (a b : Json) : a.strictEq b = b.strictEq a := by
  cases a <;> cases b
  case scalar.scalar s t => exact Scalar.strictEq_comm s t
  all_goals rfl

end Bindery
