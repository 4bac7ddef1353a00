import Bindery.Toml.Digits

namespace Bindery

/-!
# Quoted texts

The four kinds of texts in quotes, each from after its opening quotes to its closing ones.

* `Toml.escape?` — what stands for a character after a backslash.
* `Toml.plainText?`, `Toml.plainLines?` — texts in which a backslash begins an escape, of one line
  or of several.
* `Toml.rawText?`, `Toml.rawLines?` — texts in which nothing does.
-/

namespace Toml

/-- Whether a character may stand in a text as it is: a tab, or none of the control characters. -/
def isPrintable (c : Char) : Bool := c = '\t' || (32 ≤ c.toNat && c.toNat ≠ 127)

/-- The character whose number is given in hexadecimal. -/
def hexChar? (digits : List Char) : Option Char := do
  let number := ofDigits 16 (← digits.mapM (digitOf? 16))
  if number.isValidChar then some (Char.ofNat number) else none

/-- What the single letter of a short escape stands for. -/
def shortEscape? : Char → Option Char
  | 'b' => some (Char.ofNat 8)
  | 't' => some '\t'
  | 'n' => some '\n'
  | 'f' => some (Char.ofNat 12)
  | 'r' => some '\r'
  | 'e' => some (Char.ofNat 27)
  | '"' => some '"'
  | '\\' => some '\\'
  | _ => none

/-- How many hexadecimal digits follow the letter of a long escape. -/
def escapeDigits? : Char → Option Nat
  | 'x' => some 2
  | 'u' => some 4
  | 'U' => some 8
  | _ => none

/-- The character that an escape stands for, read after its backslash, and its length. -/
def escape? : List Char → Option (Char × Nat)
  | [] => none
  | c :: rest =>
    match escapeDigits? c with
    | some count =>
      if rest.length < count then none
      else (hexChar? (rest.take count)).map fun found => (found, count + 1)
    | none => (shortEscape? c).map fun found => (found, 1)

/-- Whether nothing but blanks stands before the end of the line. -/
def endsLine (cs : List Char) : Bool :=
  match cs.dropWhile fun c => c = ' ' || c = '\t' with
  | '\n' :: _ => true
  | '\r' :: '\n' :: _ => true
  | _ => false

/-- A text of one line with escapes; `skip` characters of an escape are over already. -/
def plainText? : Nat → List Char → Option (List Char × List Char)
  | _, [] => none
  | skip + 1, _ :: rest => plainText? skip rest
  | 0, c :: rest =>
    if c = '"' then some ([], rest)
    else if c = '\\' then
      match escape? rest with
      | none => none
      | some (found, length) =>
        (plainText? length rest).map fun (text, rest) => (found :: text, rest)
    else if isPrintable c then (plainText? 0 rest).map fun (text, rest) => (c :: text, rest)
    else none

/-- A text of one line without escapes. -/
def rawText? : List Char → Option (List Char × List Char)
  | [] => none
  | c :: rest =>
    if c = '\x27' then some ([], rest)
    else if isPrintable c then (rawText? rest).map fun (text, rest) => (c :: text, rest)
    else none

/-- The quotes that belong to a text closed by three of them: up to two more may stand before the
closing ones.  The rest is what follows all of them. -/
def closing? (quote : Char) : List Char → Option (List Char × List Char)
  | a :: b :: c :: rest =>
    if a = quote ∧ b = quote ∧ c = quote then
      match rest with
      | d :: e :: more =>
        if d = quote then if e = quote then some ([d, e], more) else some ([d], e :: more)
        else some ([], rest)
      | [d] => if d = quote then some ([d], []) else some ([], rest)
      | [] => some ([], [])
    else none
  | _ => none

/-- Where the reading of a text of several lines stands. -/
inductive LineMode where
  | reading
  /-- So many characters of an escape are over already. -/
  | skipping (count : Nat)
  /-- After a backslash at the end of a line, up to the next character that is not blank. -/
  | trimming

/-- Whether a character goes at the beginning of a continued line. -/
def LineMode.trims (c : Char) : Bool := c = ' ' || c = '\t' || c = '\n' || c = '\r'

/-- A text of several lines with escapes. -/
def plainLines? : LineMode → List Char → Option (List Char × List Char)
  | _, [] => none
  | .skipping (count + 1), _ :: rest => plainLines? (.skipping count) rest
  | mode, c :: rest =>
    let trims := match mode with
      | .trimming => LineMode.trims c
      | _ => false
    let goOn (text : List Char) (mode : LineMode) : Option (List Char × List Char) :=
      (plainLines? mode rest).map fun (more, rest) => (text ++ more, rest)
    if c = '\r' ∧ rest.head? ≠ some '\n' then none
    else if trims then plainLines? .trimming rest
    else match closing? '"' (c :: rest) with
      | some found => some found
      | none =>
        if c = '\\' then
          if endsLine rest then goOn [] .trimming
          else match escape? rest with
            | none => none
            | some (found, length) => goOn [found] (.skipping length)
        else if isPrintable c || c = '\n' || c = '\r' then goOn [c] .reading
        else none

/-- A text of several lines without escapes. -/
def rawLines? : List Char → Option (List Char × List Char)
  | [] => none
  | c :: rest =>
    if c = '\r' ∧ rest.head? ≠ some '\n' then none
    else match closing? '\x27' (c :: rest) with
      | some found => some found
      | none =>
        if isPrintable c || c = '\n' || c = '\r' then
          (rawLines? rest).map fun (text, rest) => (c :: text, rest)
        else none

/-- The text without a line end at its head. -/
def afterLineEnd : List Char → List Char
  | '\n' :: rest => rest
  | '\r' :: '\n' :: rest => rest
  | rest => rest

/-- A text in quotes of one line, with its opening quote. -/
def lineText? : List Char → Option (List Char × List Char)
  | '"' :: rest => plainText? 0 rest
  | '\x27' :: rest => rawText? rest
  | _ => none

/-- A text in quotes, with its opening quotes. -/
def quoted? : List Char → Option (List Char × List Char)
  | '"' :: '"' :: '"' :: rest => plainLines? .reading (afterLineEnd rest)
  | '\x27' :: '\x27' :: '\x27' :: rest => rawLines? (afterLineEnd rest)
  | rest => lineText? rest

end Toml

end Bindery
