import Bindery.Json.Basic
import Bindery.Word

namespace Bindery

/-!
# Reading JSON text

A recursive-descent reader.  Each step returns the value and the characters after it; nesting is
bounded by the length of the text, so the fuel never runs out on a text that is read from its start.

* `Json.Reader.number` — numerals: an integer if it has neither fraction nor exponent and fits 64
  bits, else the nearest floating-point number.
* `Json.read?` — the value of a whole text.
-/

namespace Json.Reader

/-- The characters after the white space of the format. -/
def skipBlank (cs : List Char) : List Char :=
  cs.dropWhile fun c => c == ' ' || c == '\n' || c == '\r' || c == '\t'

/-- The number that a run of decimal digits denotes. -/
def digitsValue (cs : List Char) : Nat :=
  cs.foldl (fun n c => 10 * n + (c.toNat - '0'.toNat)) 0

/-- A hexadecimal digit. -/
def hexDigit? (c : Char) : Option Nat :=
  if c.isDigit then some (c.toNat - '0'.toNat)
  else if 'a' ≤ c ∧ c ≤ 'f' then some (c.toNat - 'a'.toNat + 10)
  else if 'A' ≤ c ∧ c ≤ 'F' then some (c.toNat - 'A'.toNat + 10)
  else none

/-- Four hexadecimal digits and the rest. -/
def hex4? : List Char → Option (Nat × List Char)
  | a :: b :: c :: d :: rest => do
    let a ← hexDigit? a
    let b ← hexDigit? b
    let c ← hexDigit? c
    let d ← hexDigit? d
    return (((a * 16 + b) * 16 + c) * 16 + d, rest)
  | _ => none

/-- The value of a numeral with sign, whole part, fraction and power of ten. -/
def number (negative : Bool) (whole fraction : List Char) (power : Option Int) : Option Number :=
  let signed : Int := if negative then -(digitsValue whole) else digitsValue whole
  let isInteger := fraction.isEmpty && power.isNone && !(negative && signed == 0)
  if isInteger && (isSigned 64 signed || isUnsigned 64 signed) then some (.integer signed)
  else
    (Binary64.ofDecimal? negative (digitsValue (whole ++ fraction))
      (power.getD 0 - fraction.length)).map .float

/-- The power of ten of a numeral, if it has one, and the rest. -/
def power? : List Char → Option (Option Int × List Char)
  | c :: rest =>
    if c == 'e' || c == 'E' then
      let (negative, rest) := match rest with
        | '-' :: r => (true, r)
        | '+' :: r => (false, r)
        | r => (false, r)
      let digits := rest.takeWhile Char.isDigit
      if digits.isEmpty then none
      else
        let n : Int := digitsValue digits
        some (some (if negative then -n else n), rest.dropWhile Char.isDigit)
    else some (none, c :: rest)
  | [] => some (none, [])

/-- The fraction digits of a numeral, none if it has no point, and the rest. -/
def fraction? : List Char → Option (List Char × List Char)
  | '.' :: rest =>
    let digits := rest.takeWhile Char.isDigit
    if digits.isEmpty then none else some (digits, rest.dropWhile Char.isDigit)
  | rest => some ([], rest)

/-- A numeral at the head of the text. -/
def number? (cs : List Char) : Option (Number × List Char) := do
  let (negative, cs) := match cs with
    | '-' :: rest => (true, rest)
    | rest => (false, rest)
  let whole := cs.takeWhile Char.isDigit
  guard (!whole.isEmpty && (whole.length == 1 || whole.head? != some '0'))
  let (fraction, cs) ← fraction? (cs.dropWhile Char.isDigit)
  let (power, cs) ← power? cs
  return (← number negative whole fraction power, cs)

/-- The character of an escape that names a code unit; a high surrogate needs its low partner. -/
def escapedUnit? (cs : List Char) : Option (Char × List Char) := do
  let (unit, rest) ← hex4? cs
  if 0xD800 ≤ unit ∧ unit < 0xDC00 then
    match rest with
    | '\\' :: 'u' :: rest =>
      let (low, rest) ← hex4? rest
      guard (0xDC00 ≤ low && low < 0xE000)
      return (Char.ofNat (0x10000 + (unit - 0xD800) * 0x400 + (low - 0xDC00)), rest)
    | _ => none
  else if 0xDC00 ≤ unit ∧ unit < 0xE000 then none
  else return (Char.ofNat unit, rest)

/-- The characters of a string up to its closing quote, and the rest. -/
def stringBody? : Nat → List Char → List Char → Option (List Char × List Char)
  | 0, _, _ => none
  | _ + 1, _, [] => none
  | fuel + 1, done, '\\' :: rest =>
    match rest with
    | '"' :: r => stringBody? fuel ('"' :: done) r
    | '\\' :: r => stringBody? fuel ('\\' :: done) r
    | '/' :: r => stringBody? fuel ('/' :: done) r
    | 'b' :: r => stringBody? fuel (Char.ofNat 8 :: done) r
    | 'f' :: r => stringBody? fuel (Char.ofNat 12 :: done) r
    | 'n' :: r => stringBody? fuel ('\n' :: done) r
    | 'r' :: r => stringBody? fuel ('\r' :: done) r
    | 't' :: r => stringBody? fuel ('\t' :: done) r
    | 'u' :: r => do
      let (c, r) ← escapedUnit? r
      stringBody? fuel (c :: done) r
    | _ => none
  | fuel + 1, done, c :: rest =>
    if c = '"' then some (done.reverse, rest)
    else if c.toNat < 32 then none
    else stringBody? fuel (c :: done) rest

/-- A string after its opening quote. -/
def string? (cs : List Char) : Option (String × List Char) := do
  let (body, rest) ← stringBody? (cs.length + 1) [] cs
  return (String.ofList body, rest)

mutual

/-- A value at the head of the text. -/
def value? : Nat → List Char → Option (Json × List Char)
  | 0, _ => none
  | fuel + 1, cs =>
    match skipBlank cs with
    | 'n' :: 'u' :: 'l' :: 'l' :: rest => some (.null, rest)
    | 't' :: 'r' :: 'u' :: 'e' :: rest => some (.bool true, rest)
    | 'f' :: 'a' :: 'l' :: 's' :: 'e' :: rest => some (.bool false, rest)
    | '"' :: rest => do
      let (s, rest) ← string? rest
      return (.string s, rest)
    | '[' :: rest =>
      match skipBlank rest with
      | ']' :: rest => some (.array [], rest)
      | rest => items? fuel [] rest
    | '{' :: rest =>
      match skipBlank rest with
      | '}' :: rest => some (.object [], rest)
      | rest => members? fuel [] rest
    | rest => do
      let (n, rest) ← number? rest
      return (.scalar (.number n), rest)

/-- The items of an array from the next one on, those before it in reverse. -/
def items? : Nat → List Json → List Char → Option (Json × List Char)
  | 0, _, _ => none
  | fuel + 1, done, cs => do
    let (item, rest) ← value? fuel cs
    match skipBlank rest with
    | ',' :: rest => items? fuel (item :: done) rest
    | ']' :: rest => some (.array (item :: done).reverse, rest)
    | _ => none

/-- The members of an object from the next one on; a repeated key keeps its first place and takes
its last value. -/
def members? : Nat → List (String × Json) → List Char → Option (Json × List Char)
  | 0, _, _ => none
  | fuel + 1, done, cs =>
    match skipBlank cs with
    | '"' :: rest => do
      let (key, rest) ← string? rest
      match skipBlank rest with
      | ':' :: rest =>
        let (value, rest) ← value? fuel rest
        match skipBlank rest with
        | ',' :: rest => members? fuel (put key value done) rest
        | '}' :: rest => some (.object (put key value done), rest)
        | _ => none
      | _ => none
    | _ => none

end

end Json.Reader

/-- The value of a JSON text, `none` if it is not one. -/
def Json.read? (text : String) : Option Json :=
  let cs := text.toList
  match Json.Reader.value? (2 * cs.length + 2) cs with
  | some (value, rest) => if (Json.Reader.skipBlank rest).isEmpty then some value else none
  | none => none

end Bindery
