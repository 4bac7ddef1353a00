import Bindery.Json.Printer
import Bindery.Store.Derivation
import Bindery.Word

namespace Bindery

/-!
# Formulas

Derivations written as data.

* `Formula` — the formulas.
* `Formula.derivation` — the derivation that a formula describes.
-/

/-- A description of a derivation. -/
inductive Formula where
  | get (expr : String)
  /-- Reads without leaving a dependency. -/
  | peek (expr : String)
  | const (value : Json)
  /-- Reads an integer of 64 bits. -/
  | int (expr : String)
  /-- Reads a text. -/
  | text (expr : String)
  /-- The sum of integers, modulo `2 ^ 64`. -/
  | sum (exprs : List String)
  /-- The number of items of an array. -/
  | count (expr : String)
  /-- The texts of values, joined. -/
  | concat (parts : List Formula)
  | array (items : List Formula)
  | object (members : List (String × Formula))
  /-- The texts of an array as list items of markup, unescaped. -/
  | list (expr : String)
  /-- The first formula if a value is `true`, else the second. -/
  | cond (expr : String) (yes no : Formula)
  | fail (cause : String)

instance : Inhabited Formula := ⟨.const .null⟩

namespace Formula

/-- The sum of the integers at some expressions and one given. -/
def sumFrom (total : Int) : List String → Derivation
  | [] => .pure (.integer total)
  | expr :: rest =>
    (Derivation.getAs .int64 expr).bind fun value =>
      sumFrom (wrapSigned 64 (total + value.int?.getD 0)) rest

mutual

/-- The derivation that a formula describes. -/
def derivation : Formula → Derivation
  | get expr => .get expr
  | peek expr => .peek expr
  | const value => .pure value
  | int expr => .getAs .int64 expr
  | text expr => .getAs .text expr
  | sum exprs => sumFrom 0 exprs
  | count expr => (Derivation.getAs .list expr).bind fun value =>
      .pure (.integer ((value.items?.getD []).length))
  | concat parts => (items parts).bind fun values =>
      .pure (.string ("".intercalate ((values.items?.getD []).map Json.display)))
  | array parts => items parts
  | object parts => members parts
  | list expr => (Derivation.getAs .texts expr).bind fun value =>
      .pure (.string ("".intercalate
        ((value.texts?.getD []).map fun item => "<li>" ++ item ++ "</li>")))
  | cond expr yes no =>
    let yes := derivation yes
    let no := derivation no
    (Derivation.get expr).bind fun value => if value.bool? = some true then yes else no
  | fail cause => .fail (.reaction cause)

/-- The array of the values of some formulas. -/
def items : List Formula → Derivation
  | [] => .pure (.array [])
  | first :: rest =>
    let rest := items rest
    (derivation first).bind fun value => rest.bind fun values =>
      .pure (.array (value :: values.items?.getD []))

/-- The object of the values of some formulas; a repeated key keeps its first place and takes its
last value. -/
def members : List (String × Formula) → Derivation
  | [] => .pure (.object [])
  | (key, first) :: rest =>
    let rest := members rest
    (derivation first).bind fun value => rest.bind fun values =>
      let others := values.members?.getD []
      .pure (.object ((key, (others.lookup key).getD value) :: others.filter (·.1 != key)))

end

end Formula

end Bindery
