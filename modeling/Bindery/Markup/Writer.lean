import Bindery.Markup.Tree

namespace Bindery

/-!
# Writing markup

* `escapeText`, `escapeAttr` — character data in text and in attribute values.
* `Tree.write` — the markup of a tree; `Tree.html` is its text.
-/

/-- A character of text: ampersands and angle brackets become references. -/
def escapeTextChar : Char → List Char
  | '&' => "&amp;".toList
  | '<' => "&lt;".toList
  | '>' => "&gt;".toList
  | c => [c]

/-- A character of an attribute value: ampersands and double quotes become references. -/
def escapeAttrChar : Char → List Char
  | '&' => "&amp;".toList
  | '"' => "&quot;".toList
  | c => [c]

/-- Character data as text. -/
def escapeText (cs : List Char) : List Char := cs.flatMap escapeTextChar

/-- Character data as an attribute value. -/
def escapeAttr (cs : List Char) : List Char := cs.flatMap escapeAttrChar

/-- An attribute with the blank before it. -/
def writeAttr (attr : String × String) : List Char :=
  ' ' :: attr.1.toList ++ "=\"".toList ++ escapeAttr attr.2.toList ++ ['"']

namespace Tree

variable {α : Type}

mutual

/-- The markup of a tree.  A void element ends after its opening tag, and what hangs below a text or
a comment is not written. -/
def write : Tree α → List Char
  | node _ (.element tag attrs) children =>
    '<' :: tag.toList ++ attrs.flatMap writeAttr ++ '>' ::
      (if isVoid tag then [] else writeAll children ++ "</".toList ++ tag.toList ++ ['>'])
  | node _ (.text data) _ => escapeText data.toList
  | node _ (.comment data) _ => "<!--".toList ++ data.toList ++ "-->".toList
  | node _ .fragment children => writeAll children

/-- The markup of a row of trees. -/
def writeAll : List (Tree α) → List Char
  | [] => []
  | t :: rest => write t ++ writeAll rest

end

/-- The markup of a tree. -/
def html (t : Tree α) : String := String.ofList t.write

/-- The markup of what is below the root. -/
def innerHtml (t : Tree α) : String := String.ofList (writeAll t.children)

@[simp] theorem writeAll_nil : writeAll ([] : List (Tree α)) = [] := rfl

@[simp] theorem writeAll_cons (t : Tree α) (rest : List (Tree α)) :
    writeAll (t :: rest) = write t ++ writeAll rest := rfl

@[simp] theorem writeAll_append (ts us : List (Tree α)) :
    writeAll (ts ++ us) = writeAll ts ++ writeAll us := by
  induction ts with
  | nil => rfl
  | cons t ts ih => simp [ih]

end Tree

end Bindery
