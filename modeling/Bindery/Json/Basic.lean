import Bindery.Decimal.Binary64

namespace Bindery

/-!
# Data values

JSON values with ordered objects and numbers that remember whether they were written as integers.

* `Number`, `Scalar`, `Json` — the values.
* `Json.get?`, `Json.put` — an object's member by key, and the update that keeps its position.
* `Json.sameData` — equality of content, the order of object members aside.
-/

/-- A number: an integer of at most 64 bits, signed or not, or a floating-point number. -/
inductive Number where
  | integer (value : Int)
  | float (value : Binary64)
deriving DecidableEq

/-- A value without parts. -/
inductive Scalar where
  | null
  | bool (value : Bool)
  | number (value : Number)
  | string (value : String)
deriving DecidableEq

/-- A JSON value; the members of an object are in insertion order. -/
inductive Json where
  | scalar (value : Scalar)
  | array (items : List Json)
  | object (members : List (String × Json))

namespace Json

instance : Inhabited Json := ⟨.scalar .null⟩

/-- The absent value. -/
abbrev null : Json := .scalar .null

/-- A truth value. -/
abbrev bool (b : Bool) : Json := .scalar (.bool b)

/-- An integer. -/
abbrev integer (n : Int) : Json := .scalar (.number (.integer n))

/-- A text. -/
abbrev string (s : String) : Json := .scalar (.string s)

/-- The members with `key` bound to `value`: in place if the key is there, at the end if not. -/
def put (key : String) (value : Json) : List (String × Json) → List (String × Json)
  | [] => [(key, value)]
  | (k, v) :: rest => if k = key then (k, value) :: rest else (k, v) :: put key value rest

@[simp] theorem put_nil (key : String) (value : Json) : put key value [] = [(key, value)] := rfl

mutual

/-- Equality of content: the order of object members does not matter, integers and floating-point
numbers differ, and the two zeros are equal. -/
def sameData : Json → Json → Bool
  | .scalar (.number (.float x)), .scalar (.number (.float y)) => x.sameValue y
  | .scalar s, .scalar t => s == t
  | .array xs, .array ys => sameItems xs ys
  | .object ms, .object ns => ms.length == ns.length && sameMembers ms ns
  | _, _ => false

/-- Equality of content, item by item. -/
def sameItems : List Json → List Json → Bool
  | [], [] => true
  | x :: xs, y :: ys => sameData x y && sameItems xs ys
  | _, _ => false

/-- Whether each member on the left has one of the same content on the right. -/
def sameMembers : List (String × Json) → List (String × Json) → Bool
  | [], _ => true
  | (key, v) :: ms, ns =>
    (match ns.lookup key with
      | some w => sameData v w
      | none => false) && sameMembers ms ns

end

end Json

end Bindery
