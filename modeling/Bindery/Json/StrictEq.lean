import Bindery.Json.Basic

namespace Bindery

/-!
# Strict equality

The equality that decides whether a write changes anything and whether a consumer reacts.

* `Number.strictEq` — integers exactly, everything else as floating-point numbers.
* `Scalar.strictEq` — equal types with equal values.
* `Json.strictEq` — scalars by value; composites are never equal, not even to themselves.
-/

/-- Two integers are compared exactly; if either side is a floating-point number, an integer on the
other side is rounded to one first. -/
def Number.strictEq : Number → Number → Bool
  | .integer m, .integer n => m == n
  | .float x, .float y => x.sameValue y
  | .integer n, .float y => (Binary64.ofInt? n).any (·.sameValue y)
  | .float x, .integer n => (Binary64.ofInt? n).any (x.sameValue ·)

/-- Equal values of equal types. -/
def Scalar.strictEq : Scalar → Scalar → Bool
  | .null, .null => true
  | .bool a, .bool b => a == b
  | .number a, .number b => a.strictEq b
  | .string a, .string b => a == b
  | _, _ => false

/-- Scalars by value; an array or object is equal to nothing. -/
def Json.strictEq : Json → Json → Bool
  | .scalar a, .scalar b => a.strictEq b
  | _, _ => false

@[simp] theorem Json.strictEq_scalar (a b : Scalar) :
    Json.strictEq (.scalar a) (.scalar b) = a.strictEq b := rfl

@[simp] theorem Json.strictEq_array_left (xs : List Json) (b : Json) :
    Json.strictEq (.array xs) b = false := rfl

@[simp] theorem Json.strictEq_object_left (ms : List (String × Json)) (b : Json) :
    Json.strictEq (.object ms) b = false := rfl

end Bindery
