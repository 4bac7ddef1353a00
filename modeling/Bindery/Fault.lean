import Bindery.Text.Quoted

namespace Bindery

/-!
# What can go wrong with data

* `Fault` — the reasons why a read, a write or a reaction fails.
* `Fault.message` — their texts.
-/

/-- A failed read, write or reaction. -/
inductive Fault where
  /-- The expression is empty or has an empty segment. -/
  | invalidExpression (expression : String)
  /-- A segment of the path names nothing. -/
  | unresolvable (path : String) (segment : String)
  /-- The place is computed, or the length of an array. -/
  | readOnly (name : String)
  /-- The value does not have the type that was asked for. -/
  | conversion (expression : String)
  /-- A reaction failed on its own account. -/
  | reaction (cause : String)
  /-- A computed member needs its own value. -/
  | circular (name : String)
deriving DecidableEq

/-- The text of a fault. -/
def Fault.message : Fault → String
  | .invalidExpression expression => "invalid binding expression: " ++ quoted expression
  | .unresolvable path segment =>
    "unresolvable binding path `" ++ path ++ "`: segment `" ++ segment ++ "` not found"
  | .readOnly name => "property `" ++ name ++ "` is read-only"
  | .conversion expression => "cannot convert value of `" ++ expression ++ "`"
  | .reaction cause => "binding reaction failed: " ++ cause
  | .circular name => "computed member `" ++ name ++ "` depends on itself"

end Bindery
