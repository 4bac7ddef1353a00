import Bindery.Decimal.Shortest
import Bindery.Json.Basic

namespace Bindery

/-!
# The text of data values

* `Json.compact` — the compact JSON text.
* `Json.display` — the text shown in a document: the value itself, without quotes.
-/

/-- An integer in decimal. -/
def decimalText (n : Int) : String :=
  String.ofList ((if n < 0 then ['-'] else []) ++ Nat.toDigits 10 n.natAbs)

/-- A character inside a JSON string. -/
def Json.escapeChar (c : Char) : List Char :=
  match c with
  | '"' => ['\\', '"']
  | '\\' => ['\\', '\\']
  | '\n' => ['\\', 'n']
  | '\r' => ['\\', 'r']
  | '\t' => ['\\', 't']
  | _ =>
    if c.toNat = 8 then ['\\', 'b']
    else if c.toNat = 12 then ['\\', 'f']
    else if c.toNat < 32 then
      ['\\', 'u', '0', '0', Nat.digitChar (c.toNat / 16), Nat.digitChar (c.toNat % 16)]
    else [c]

/-- A JSON string with its quotes. -/
def Json.quote (s : String) : String :=
  String.ofList ('"' :: s.toList.flatMap Json.escapeChar ++ ['"'])

/-- A number in the form of data. -/
def Number.compact : Number → String
  | .integer n => decimalText n
  | .float x => Layout.data.write x

/-- A number in the form of display: a whole number below `10 ^ 21` with all its digits, any other
with its shortest ones. -/
def Number.display : Number → String
  | .integer n => decimalText n
  | .float x =>
    if x.isWhole ∧ x.wholePart < Nat.pow 10 21 then
      String.ofList ((if x.negative then ['-'] else []) ++ Nat.toDigits 10 x.wholePart)
    else Layout.display.write x

/-- A scalar in the form of data. -/
def Scalar.compact : Scalar → String
  | .null => "null"
  | .bool b => if b then "true" else "false"
  | .number n => n.compact
  | .string s => Json.quote s

/-- A scalar in the form of display; nothing for null. -/
def Scalar.display : Scalar → String
  | .null => ""
  | .bool b => if b then "true" else "false"
  | .number n => n.display
  | .string s => s

namespace Json

mutual

/-- The compact JSON text. -/
def compact : Json → String
  | .scalar s => s.compact
  | .array items => "[" ++ ",".intercalate (compactItems items) ++ "]"
  | .object members => "\x7b" ++ ",".intercalate (compactMembers members) ++ "\x7d"

/-- The texts of the items of an array. -/
def compactItems : List Json → List String
  | [] => []
  | item :: rest => compact item :: compactItems rest

/-- The texts of the members of an object. -/
def compactMembers : List (String × Json) → List String
  | [] => []
  | (key, value) :: rest => (quote key ++ ":" ++ compact value) :: compactMembers rest

end

/-- The text shown in a document: a scalar plainly, a composite as compact JSON. -/
def display : Json → String
  | .scalar s => s.display
  | value => value.compact

@[simp] theorem display_scalar (s : Scalar) : display (.scalar s) = s.display := rfl

end Json

end Bindery
