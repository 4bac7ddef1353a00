import Bindery.Toml.Digits
import Bindery.Toml.Moment
import Bindery.Toml.Value
import Bindery.Word

namespace Bindery

/-!
# Bare values

Values that are a single run of characters: truth values, numbers, dates and times.

* `Toml.integer?`, `Toml.real?` — the numbers.
* `Toml.scalar?` — any bare value.
-/

namespace Toml

/-- The digits of a decimal numeral without superfluous zeros in front. -/
def plainDigits? (cs : List Char) : Option (List Nat) :=
  match cs, digits? 10 cs with
  | [_], some digits => some digits
  | '0' :: _, _ => none
  | _, found => found

/-- Whether a sign stands in front, minus or not, and the rest. -/
def sign : List Char → Bool × List Char
  | '-' :: rest => (true, rest)
  | '+' :: rest => (false, rest)
  | rest => (false, rest)

/-- The integers that a document can hold fit 128 bits, with or without a sign. -/
def fits (n : Int) : Bool := isSigned 128 n || isUnsigned 128 n

/-- An integer: decimal with an optional sign, or with a mark for its base and none. -/
def integer? (cs : List Char) : Option Int :=
  let value? : Option Int :=
    match cs with
    | '0' :: 'x' :: rest => (digits? 16 rest).map fun digits => (ofDigits 16 digits : Int)
    | '0' :: 'o' :: rest => (digits? 8 rest).map fun digits => (ofDigits 8 digits : Int)
    | '0' :: 'b' :: rest => (digits? 2 rest).map fun digits => (ofDigits 2 digits : Int)
    | cs =>
      let (negative, rest) := sign cs
      (plainDigits? rest).map fun digits =>
        let n : Int := ofDigits 10 digits
        if negative then -n else n
  value?.filter fits

/-- The power of ten after the mark of an exponent. -/
def power? (cs : List Char) : Option Int :=
  let (negative, rest) := sign cs
  (digits? 10 rest).map fun digits =>
    let n : Int := ofDigits 10 digits
    if negative then -n else n

/-- A decimal numeral with a fraction or an exponent: no sign, whole digits, and then either or
both. -/
def decimal? (negative : Bool) (cs : List Char) : Option Binary64 := do
  let isMark (c : Char) : Bool := c == 'e' || c == 'E'
  let significand := cs.takeWhile fun c => !isMark c
  let exponent := cs.dropWhile fun c => !isMark c
  let whole ← plainDigits? (significand.takeWhile (· != '.'))
  let fraction ←
    match significand.dropWhile (· != '.') with
    | [] => some []
    | _ :: digits => digits? 10 digits
  let power ←
    match exponent with
    | [] => if fraction.isEmpty then none else some 0
    | _ :: digits => power? digits
  Binary64.ofDecimal? negative (ofDigits 10 (whole ++ fraction)) (power - fraction.length)

/-- A real number; one beyond the largest finite is refused. -/
def real? (cs : List Char) : Option Real :=
  let (negative, rest) := sign cs
  if rest = ['i', 'n', 'f'] then some (.infinite negative)
  else if rest = ['n', 'a', 'n'] then some .undefined
  else (decimal? negative rest).map .finite

/-- A bare value. -/
def scalar? (cs : List Char) : Option Value :=
  if cs = ['t', 'r', 'u', 'e'] then some (.bool true)
  else if cs = ['f', 'a', 'l', 's', 'e'] then some (.bool false)
  else if isMoment cs then some (.moment (String.ofList cs))
  else match integer? cs, real? cs with
    | some n, _ => some (.integer n)
    | none, some x => some (.real x)
    | none, none => none

end Toml

end Bindery
