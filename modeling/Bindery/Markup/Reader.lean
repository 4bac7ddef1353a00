import Bindery.Markup.Lexer
import Bindery.Markup.Reference
import Bindery.Markup.Tree

namespace Bindery

/-!
# Reading markup

The tokens of a text are put together into trees.  Void elements and tags closed at once open
nothing; closing tags of void elements are ignored; text goes into the text node before it.

* `MarkupError` — why a text is not well nested; positions count bytes of UTF-8.
* `Assembly` — the elements still open, each with what stands before it; `Assembly.take` adds one
  token.
* `readMarkup` — the trees of a text.
-/

/-- Why a text is not well-nested markup. -/
inductive MarkupError where
  /-- A closing tag where no element is open. -/
  | unexpectedClose (tag : String) (offset : Nat)
  /-- A closing tag for another element than the innermost open one. -/
  | mismatchedClose (expected found : String) (offset : Nat)
  /-- The end of the text inside an element. -/
  | unclosed (tag : String)
deriving DecidableEq

/-- The text of an error. -/
def MarkupError.message : MarkupError → String
  | .unexpectedClose tag offset =>
    "unexpected closing tag </" ++ tag ++ "> at byte " ++ toString offset
  | .mismatchedClose expected found offset =>
    "mismatched closing tag at byte " ++ toString offset ++ ": expected </" ++ expected
      ++ ">, found </" ++ found ++ ">"
  | .unclosed tag => "unclosed element <" ++ tag ++ ">"

/-- An open element. -/
structure Enclosure where
  tag : String
  attrs : List (String × String)
  /-- The nodes before it under its parent, the last one first. -/
  before : List (Tree Unit)

/-- The state between two tokens. -/
structure Assembly where
  /-- The finished nodes under the innermost open element, the last one first. -/
  siblings : List (Tree Unit)
  /-- The open elements, innermost first. -/
  enclosing : List Enclosure

namespace Assembly

/-- Nothing read yet. -/
def empty : Assembly := ⟨[], []⟩

/-- Adds a finished node. -/
def push (node : Tree Unit) (a : Assembly) : Assembly := ⟨node :: a.siblings, a.enclosing⟩

/-- Adds text, to the text node before it if there is one. -/
def pushText (data : List Char) (a : Assembly) : Assembly :=
  match a.siblings with
  | .node _ (.text before) _ :: rest =>
    ⟨.node () (.text (String.ofList (before.toList ++ data))) [] :: rest, a.enclosing⟩
  | _ => a.push (.node () (.text (String.ofList data)) [])

/-- The attributes of a tag: of one written twice the first place and the last value. -/
def attrs (written : List (List Char × Option (List Char))) : List (String × String) :=
  written.foldl (fun done (name, value) =>
    Kind.setIn (String.ofList name) (String.ofList (decodeReferences (value.getD []))) done) []

/-- Opens an element, or adds it at once if it has no content. -/
def openTag (tag : String) (attrs : List (String × String)) (closed : Bool) (a : Assembly) :
    Assembly :=
  if closed || isVoid tag then a.push (.node () (.element tag attrs) [])
  else ⟨[], ⟨tag, attrs, a.siblings⟩ :: a.enclosing⟩

/-- Closes the innermost element. -/
def closeTag (tag : String) (offset : Nat) (a : Assembly) : Except MarkupError Assembly :=
  if isVoid tag then .ok a
  else match a.enclosing with
    | [] => .error (.unexpectedClose tag offset)
    | inner :: outer =>
      if inner.tag = tag then
        .ok ⟨.node () (.element inner.tag inner.attrs) a.siblings.reverse :: inner.before, outer⟩
      else .error (.mismatchedClose inner.tag tag offset)

/-- Adds a token that starts at an offset. -/
def take (token : Token) (offset : Nat) (a : Assembly) : Except MarkupError Assembly :=
  match token with
  | .opening tag written closed =>
    .ok (a.openTag (lowerTag (String.ofList tag)) (attrs written) closed)
  | .closing tag => a.closeTag (lowerTag (String.ofList tag)) offset
  | .comment data => .ok (a.push (.node () (.comment (String.ofList data)) []))
  | .text data => .ok (a.pushText (decodeReferences data))

/-- The trees, if no element is open any more. -/
def finish (a : Assembly) : Except MarkupError (List (Tree Unit)) :=
  match a.enclosing with
  | [] => .ok a.siblings.reverse
  | inner :: _ => .error (.unclosed inner.tag)

/-- How many bytes a text takes. -/
def byteLength : List Char → Nat
  | [] => 0
  | c :: rest => c.utf8Size + byteLength rest

/-- Adds lexemes, the first of which starts at an offset. -/
def takeAll : List Lexeme → Nat → Assembly → Except MarkupError Assembly
  | [], _, a => .ok a
  | lexeme :: rest, offset, a =>
    match a.take lexeme.token offset with
    | .ok a => takeAll rest (offset + byteLength lexeme.source) a
    | .error e => .error e

end Assembly

/-- The trees that a text of markup stands for. -/
def readMarkup (markup : String) : Except MarkupError (List (Tree Unit)) :=
  match Assembly.takeAll (lex markup.toList) 0 .empty with
  | .ok a => a.finish
  | .error e => .error e

end Bindery
