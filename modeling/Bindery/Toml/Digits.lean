namespace Bindery

/-!
# Digits

* `Toml.digitOf?` — a digit of a base.
* `Toml.digits?` — the digits of a numeral with underscores between them.
* `Toml.ofDigits` — the number that digits denote.
-/

namespace Toml

/-- A digit of a base, up to sixteen. -/
def digitOf? (base : Nat) (c : Char) : Option Nat :=
  let value :=
    if c.isDigit then c.toNat - '0'.toNat
    else if 'a' ≤ c ∧ c ≤ 'f' then c.toNat - 'a'.toNat + 10
    else if 'A' ≤ c ∧ c ≤ 'F' then c.toNat - 'A'.toNat + 10
    else base
  if value < base then some value else none

/-- The digits of a numeral in which underscores may separate digits. -/
def digits? (base : Nat) : List Char → Option (List Nat)
  | [] => none
  | [c] => (digitOf? base c).map ([·])
  | c :: '_' :: rest =>
    match digitOf? base c, digits? base rest with
    | some digit, some more => some (digit :: more)
    | _, _ => none
  | c :: rest =>
    match digitOf? base c, digits? base rest with
    | some digit, some more => some (digit :: more)
    | _, _ => none

/-- The number that digits of a base denote. -/
def ofDigits (base : Nat) (digits : List Nat) : Nat := digits.foldl (fun n d => base * n + d) 0

end Toml

end Bindery
