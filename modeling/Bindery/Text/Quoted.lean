import Bindery.Text.Unprintable

namespace Bindery

/-!
# Quoted text

How a text is cited inside a message: in double quotes, with everything that could not be seen
written out.

* `quoted` — the citation of a text.
-/

/-- One character of a cited text. -/
def quotedChar (c : Char) : List Char :=
  match c with
  | '\t' => ['\\', 't']
  | '\n' => ['\\', 'n']
  | '\r' => ['\\', 'r']
  | '"' => ['\\', '"']
  | '\\' => ['\\', '\\']
  | _ =>
    if c.toNat = 0 then ['\\', '0']
    else if isUnprintable c then
      ['\\', 'u', '\x7b'] ++ Nat.toDigits 16 c.toNat ++ ['\x7d']
    else [c]

/-- A text in double quotes, with its unseen characters written out. -/
def quoted (s : String) : String :=
  String.ofList ('"' :: s.toList.flatMap quotedChar ++ ['"'])

end Bindery
