import Bindery.Markup.ReferenceTable

namespace Bindery

/-!
# Character references

`&amp;`, `&#38;` and `&#x26;` stand for characters in text and attribute values.

* `referenced?` — the character that a reference stands for.
* `decodeReferences` — a text with its references replaced; whatever is no reference stays.
-/

/-- The number that digits of a base denote, `none` without digits or with a foreign character. -/
def digitsIn? (base : Nat) (digit? : Char → Option Nat) (cs : List Char) : Option Nat :=
  if cs.isEmpty then none
  else cs.foldl (fun n c => n.bind fun n => (digit? c).map (base * n + ·)) (some 0)

/-- A decimal digit of ASCII. -/
def decimalDigit? (c : Char) : Option Nat :=
  if '0' ≤ c ∧ c ≤ '9' then some (c.toNat - '0'.toNat) else none

/-- A hexadecimal digit of ASCII. -/
def hexadecimalDigit? (c : Char) : Option Nat :=
  if '0' ≤ c ∧ c ≤ '9' then some (c.toNat - '0'.toNat)
  else if 'a' ≤ c ∧ c ≤ 'f' then some (c.toNat - 'a'.toNat + 10)
  else if 'A' ≤ c ∧ c ≤ 'F' then some (c.toNat - 'A'.toNat + 10)
  else none

/-- The character of a code point that a numeric reference may name: any scalar value but the
controls below the space, of which tab, line feed, form feed and carriage return are allowed. -/
def referable? (n : Nat) : Option Char :=
  if n < 32 ∧ n ≠ 9 ∧ n ≠ 10 ∧ n ≠ 12 ∧ n ≠ 13 then none
  else if h : n.isValidChar then some ⟨n.toUInt32, by
      have : n < 4294967296 := by cases h <;> omega
      simpa [UInt32.isValidChar, Nat.mod_eq_of_lt this] using h⟩
  else none

/-- The character that the text between `&` and `;` stands for. -/
def referenced? : List Char → Option Char
  | '#' :: 'x' :: digits => (digitsIn? 16 hexadecimalDigit? digits).bind referable?
  | '#' :: 'X' :: digits => (digitsIn? 16 hexadecimalDigit? digits).bind referable?
  | '#' :: digits => (digitsIn? 10 decimalDigit? digits).bind referable?
  | name => (namedReference? (String.ofList name)).map Char.ofNat

namespace References

/-- Decoding inside a possible reference: `name` holds the characters since its ampersand, the last
one first.  Another ampersand starts over, a semicolon decides, and the end leaves all as it is. -/
def decodeFrom : Option (List Char) → List Char → List Char
  | none, [] => []
  | none, c :: rest => if c = '&' then decodeFrom (some []) rest else c :: decodeFrom none rest
  | some name, [] => '&' :: name.reverse
  | some name, c :: rest =>
    if c = '&' then '&' :: name.reverse ++ decodeFrom (some []) rest
    else if c = ';' then
      match referenced? name.reverse with
      | some decoded => decoded :: decodeFrom none rest
      | none => '&' :: name.reverse ++ ';' :: decodeFrom none rest
    else decodeFrom (some (c :: name)) rest

end References

/-- The text with its character references replaced. -/
def decodeReferences (cs : List Char) : List Char := References.decodeFrom none cs

@[simp] theorem decodeReferences_nil : decodeReferences [] = [] := rfl

theorem decodeReferences_cons {c : Char} (h : c ≠ '&') (rest : List Char) :
    decodeReferences (c :: rest) = c :: decodeReferences rest := by
  simp [decodeReferences, References.decodeFrom, h]

end Bindery
