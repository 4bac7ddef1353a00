import Bindery.Json.Basic
import Bindery.Word

namespace Bindery

/-!
# Typed reads

The types a value can be asked for.  A value either has the type or not: nothing is converted.

* `Shape` — the types.
* `Shape.admits` — which values have which type.
-/

/-- A type that a value can be asked for. -/
inductive Shape where
  /-- Any value. -/
  | any
  /-- An integer of 64 bits with sign. -/
  | int64
  /-- A natural number of 32 bits. -/
  | nat32
  | text
  | bool
  /-- An array of texts. -/
  | texts
  /-- An array of anything. -/
  | list
  /-- A text or null. -/
  | optionalText
deriving DecidableEq

namespace Json

/-- The integer that a value is. -/
def int? : Json → Option Int
  | .scalar (.number (.integer n)) => some n
  | _ => none

/-- The text that a value is. -/
def text? : Json → Option String
  | .scalar (.string s) => some s
  | _ => none

/-- The truth value that a value is. -/
def bool? : Json → Option Bool
  | .scalar (.bool b) => some b
  | _ => none

/-- The items that an array has. -/
def items? : Json → Option (List Json)
  | .array items => some items
  | _ => none

/-- The members that an object has. -/
def members? : Json → Option (List (String × Json))
  | .object members => some members
  | _ => none

/-- The member of an object under a key. -/
def member? (key : String) : Json → Option Json
  | .object members => members.lookup key
  | _ => none

/-- The integer that a value is, if it has 64 bits with sign. -/
def int64? (value : Json) : Option Int :=
  value.int?.filter (isSigned 64)

/-- The texts that an array has, if it has nothing else. -/
def texts? (value : Json) : Option (List String) := do
  (← value.items?).mapM text?

end Json

/-- Whether a value has a type. -/
def Shape.admits : Shape → Json → Bool
  | .any, _ => true
  | .int64, value => value.int64?.isSome
  | .nat32, value => value.int?.any (isUnsigned 32)
  | .text, value => value.text?.isSome
  | .bool, value => value.bool?.isSome
  | .texts, value => value.texts?.isSome
  | .list, value => value.items?.isSome
  | .optionalText, .scalar .null => true
  | .optionalText, value => value.text?.isSome

end Bindery
