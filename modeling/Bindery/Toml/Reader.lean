import Bindery.Toml.Scalar
import Bindery.Toml.Text

namespace Bindery

/-!
# Reading settings documents

A reader for TOML, version 1.1.  Values in brackets and braces may be nested `nestingLimit` deep,
and a key has at most `partsLimit` parts.

* `Toml.key?`, `Toml.value?` — dotted keys and values.
* `Toml.statement?` — a header, or a key with its value.
* `Toml.read?` — the members of a whole document.
-/

namespace Toml

/-- The text without the blanks at its head. -/
def skipBlanks (cs : List Char) : List Char := cs.dropWhile fun c => c = ' ' || c = '\t'

/-- The text without the blanks, line ends and comments at its head; control characters have no
place in comments. -/
def skipLines? : Bool → List Char → Option (List Char)
  | _, [] => some []
  | _, '\r' :: '\n' :: rest => skipLines? false rest
  | true, c :: rest =>
    if c = '\n' then skipLines? false rest
    else if isPrintable c then skipLines? true rest
    else none
  | false, c :: rest =>
    if c = '\n' || c = ' ' || c = '\t' then skipLines? false rest
    else if c = '#' then skipLines? true rest
    else some (c :: rest)

/-- Whether the line ends here, perhaps after blanks and a comment. -/
def atLineEnd (cs : List Char) : Bool :=
  match skipBlanks cs with
  | [] => true
  | '\n' :: _ => true
  | '\r' :: '\n' :: _ => true
  | '#' :: _ => true
  | _ => false

/-- Whether a character may stand in a key without quotes. -/
def isBare (c : Char) : Bool := c.isAlphanum || c = '_' || c = '-'

/-- A part of a key: bare, or in quotes. -/
def simpleKey? (cs : List Char) : Option (String × List Char) :=
  match cs.takeWhile isBare with
  | [] => (lineText? cs).map fun (text, rest) => (String.ofList text, rest)
  | bare => some (String.ofList bare, cs.dropWhile isBare)

/-- A key of at most so many parts: its parts before the last one, the last one, and the text after
blanks. -/
def key? : Nat → List Char → Option (List String × String × List Char)
  | 0, _ => none
  | limit + 1, cs =>
    match simpleKey? (skipBlanks cs) with
    | none => none
    | some (part, rest) =>
      match skipBlanks rest with
      | '.' :: rest =>
        (key? limit rest).map fun (parents, last, rest) => (part :: parents, last, rest)
      | rest => some ([], part, rest)

/-- How many parts a key may have. -/
def partsLimit : Nat := 80

/-- How a key at the head of a text is read. -/
def keyAt? (cs : List Char) : Option (List String × String × List Char) := key? partsLimit cs

/-- Whether a character may stand in a bare value. -/
def isScalarChar (c : Char) : Bool :=
  c.isAlphanum || c = '_' || c = '-' || c = '+' || c = '.' || c = ':'

/-- A bare value.  A date goes on after a single space if a digit follows it. -/
def scalarAt? (cs : List Char) : Option (Value × List Char) :=
  let run := cs.takeWhile isScalarChar
  let rest := cs.dropWhile isScalarChar
  let whole := match rest with
    | ' ' :: c :: more =>
      if isDate run && c.isDigit then
        (run ++ ' ' :: (c :: more).takeWhile isScalarChar, (c :: more).dropWhile isScalarChar)
      else (run, rest)
    | _ => (run, rest)
  (scalar? whole.1).map fun value => (value, whole.2)

/-- The items of an array from here to its closing bracket. -/
def items? (value? : List Char → Option (Value × List Char)) :
    Nat → List Char → Option (List Value × List Char)
  | 0, _ => none
  | fuel + 1, cs =>
    match skipLines? false cs with
    | none => none
    | some (']' :: rest) => some ([], rest)
    | some cs =>
      match value? cs with
      | none => none
      | some (item, rest) =>
        match skipLines? false rest with
        | some (',' :: rest) =>
          (items? value? fuel rest).map fun (items, rest) => (item :: items, rest)
        | some (']' :: rest) => some ([item], rest)
        | _ => none

/-- The members of a table in braces, after those already there, from here to the closing brace.
Lines may end anywhere but between the parts of a key. -/
def members? (value? : List Char → Option (Value × List Char)) :
    Nat → Members → List Char → Option (Members × List Char)
  | 0, _, _ => none
  | fuel + 1, members, cs =>
    match skipLines? false cs with
    | none => none
    | some ('\x7d' :: rest) => some (members, rest)
    | some cs => do
      let (parents, key, rest) ← keyAt? cs
      match skipLines? false rest with
      | some ('=' :: rest) =>
        let (value, rest) ← value? (← skipLines? false rest)
        let members ← members.putDotted? key value parents
        match skipLines? false rest with
        | some (',' :: rest) => members? value? fuel members rest
        | some ('\x7d' :: rest) => some (members, rest)
        | _ => none
      | _ => none

/-- A value, with so many levels of brackets and braces left. -/
def value? : Nat → List Char → Option (Value × List Char)
  | 0, cs => flat? cs
  | depth + 1, cs =>
    match cs with
    | '[' :: rest =>
      (items? (value? depth) (rest.length + 1) rest).map fun (items, rest) => (.array items, rest)
    | '\x7b' :: rest =>
      (members? (value? depth) (rest.length + 1) [] rest).map fun (members, rest) =>
        (.table .closed members, rest)
    | cs => flat? cs
where
  /-- A value without parts. -/
  flat? (cs : List Char) : Option (Value × List Char) :=
    match cs with
    | '"' :: _ => (quoted? cs).map fun (text, rest) => (.text (String.ofList text), rest)
    | '\x27' :: _ => (quoted? cs).map fun (text, rest) => (.text (String.ofList text), rest)
    | cs => scalarAt? cs

/-- How deep brackets and braces may be nested. -/
def nestingLimit : Nat := 80

/-- A document as far as it is read: its members, and the table of the last header. -/
structure Document where
  members : Members
  /-- The parts of the last header. -/
  current : List String

namespace Document

/-- The document with a member under a dotted key of the current table. -/
def assign? (d : Document) (parents : List String) (key : String) (value : Value) :
    Option Document :=
  (d.members.atTable? (Members.putDotted? key value parents) d.current).map
    fun members => { d with members }

/-- The document after a header: `define` says what becomes of what is under its name. -/
def opened? (d : Document) (define : Option Value → Option Value) (parents : List String)
    (key : String) : Option Document :=
  (d.members.atTable? (Members.change? key define) parents).map
    fun members => ⟨members, parents ++ [key]⟩

end Document

/-- A statement at the head of a text that is not blank, and the rest of its line. -/
def statement? (d : Document) : List Char → Option (Document × List Char)
  | '[' :: '[' :: rest => do
    let (parents, key, rest) ← keyAt? rest
    match rest with
    | ']' :: ']' :: rest => return (← d.opened? Members.extended parents key, rest)
    | _ => none
  | '[' :: rest => do
    let (parents, key, rest) ← keyAt? rest
    match rest with
    | ']' :: rest => return (← d.opened? Members.defined parents key, rest)
    | _ => none
  | cs => do
    let (parents, key, rest) ← keyAt? cs
    match rest with
    | '=' :: rest =>
      let (value, rest) ← value? nestingLimit (skipBlanks rest)
      return (← d.assign? parents key value, rest)
    | _ => none

/-- The statements of a text, each on lines of its own. -/
def statements? : Nat → Document → List Char → Option Document
  | 0, _, _ => none
  | fuel + 1, d, cs =>
    match skipLines? false cs with
    | none => none
    | some [] => some d
    | some cs =>
      match statement? d cs with
      | none => none
      | some (d, rest) => if atLineEnd rest then statements? fuel d rest else none

/-- The members of a document; a byte order mark may stand in front. -/
def read? (text : String) : Option Members :=
  let cs := match text.toList with
    | '\uFEFF' :: rest => rest
    | cs => cs
  (statements? (cs.length + 1) ⟨[], []⟩ cs).map Document.members

end Toml

end Bindery
