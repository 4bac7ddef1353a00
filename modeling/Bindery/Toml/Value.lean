import Bindery.Decimal.Binary64

namespace Bindery

/-!
# Values of settings documents

What a TOML document holds.  A table remembers how it came about, since that decides what may be
added to it later in the document.

* `Toml.Origin`, `Toml.Value` — how tables come about, and the values.
* `Toml.Members.put?` — a new member, refused if the key is there.
* `Toml.Members.putDotted?` — the same under a dotted key.
* `Toml.Members.atTable?` — a change of the table that a header names.
-/

namespace Toml

/-- How a table came about. -/
inductive Origin where
  /-- By a header of its own. -/
  | header
  /-- As a part of the name in the header of another table. -/
  | implied
  /-- As a part of a dotted key. -/
  | dotted
  /-- As a value in braces, to which nothing can be added. -/
  | closed
deriving DecidableEq

/-- A number with a fraction or an exponent, or one of the special words. -/
inductive Real where
  | finite (value : Binary64)
  | infinite (negative : Bool)
  | undefined
deriving DecidableEq

/-- A value. -/
inductive Value where
  | text (value : String)
  | integer (value : Int)
  | real (value : Real)
  | bool (value : Bool)
  /-- A date, a time of day or both, as it is written. -/
  | moment (text : String)
  | array (items : List Value)
  | table (origin : Origin) (members : List (String × Value))
  /-- The tables of headers in double brackets. -/
  | rows (tables : List (List (String × Value)))

/-- The members of a table, in the order of their definition. -/
abbrev Members : Type := List (String × Value)

namespace Members

/-- Changes what is under a key, which may be nothing. -/
def change? (key : String) (f : Option Value → Option Value) : Members → Option Members
  | [] => (f none).map fun value => [(key, value)]
  | (k, old) :: rest =>
    if k = key then (f (some old)).map fun value => (k, value) :: rest
    else (change? key f rest).map ((k, old) :: ·)

/-- Adds a member under a key that is not there yet. -/
def put? (key : String) (value : Value) (members : Members) : Option Members :=
  members.change? key fun
    | none => some value
    | some _ => none

/-- Changes the last of several tables under one key. -/
def changeLast? (f : Members → Option Members) (tables : List Members) : Option Value :=
  (f (tables.getLast?.getD [])).map fun last => .rows (tables.dropLast ++ [last])

/-- Adds a member under a dotted key, given by its parts before the last and the last.  Tables that
are missing on the way are added.  The key may go through tables implied by headers and through the
last of several tables, but what it adds to is a table of dotted keys. -/
def putDotted? (last : String) (value : Value) : List String → Members → Option Members
  | [], members => members.put? last value
  | part :: rest, members => members.change? part fun
    | none => (putDotted? last value rest []).map (.table .dotted)
    | some (.table origin inner) =>
      if origin = .dotted ∨ (origin = .implied ∧ rest ≠ []) then
        (putDotted? last value rest inner).map (.table origin)
      else none
    | some (.rows tables) =>
      if rest = [] then none else changeLast? (putDotted? last value rest) tables
    | some _ => none

/-- Changes the table at the end of a way of keys.  Tables that are missing on the way are implied,
and of several tables under one key the last is meant. -/
def atTable? (f : Members → Option Members) : List String → Members → Option Members
  | [], members => f members
  | part :: rest, members => members.change? part fun
    | none => (atTable? f rest []).map (.table .implied)
    | some (.table origin inner) =>
      if origin = .closed then none else (atTable? f rest inner).map (.table origin)
    | some (.rows tables) => changeLast? (atTable? f rest) tables
    | some _ => none

/-- The table that a header names, defined now: it is new, or implied by an earlier header. -/
def defined : Option Value → Option Value
  | none => some (.table .header [])
  | some (.table .implied members) => some (.table .header members)
  | some _ => none

/-- The tables that a header in double brackets names, with one more. -/
def extended : Option Value → Option Value
  | none => some (.rows [[]])
  | some (.rows tables) => some (.rows (tables ++ [[]]))
  | some _ => none

end Members

end Toml

end Bindery
