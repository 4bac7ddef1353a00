namespace Bindery

/-!
# Markup trees

* `Kind` — what a node is: element, text, comment or fragment.
* `Tree` — a node with its children; each node also carries a label of some type.
* `Tree.text` — the text of a tree, comments aside.
* `isVoid` — the elements that never have content.
-/

/-- What a node is. -/
inductive Kind where
  /-- An element with its attributes in order. -/
  | element (tag : String) (attrs : List (String × String))
  | text (data : String)
  | comment (data : String)
  /-- A container that is no node of any document. -/
  | fragment
deriving DecidableEq

/-- A tree of nodes, each with a label. -/
inductive Tree (α : Type) where
  | node (label : α) (kind : Kind) (children : List (Tree α))

/-- The tags of the elements that never have content. -/
def voidTags : List String :=
  ["area", "base", "br", "col", "embed", "hr", "img", "input", "link", "meta", "source", "track",
    "wbr"]

/-- A tag with its ASCII letters in lower case. -/
def lowerTag (tag : String) : String := String.ofList (tag.toList.map Char.toLower)

/-- Whether an element never has content, whatever the case of its tag. -/
def isVoid (tag : String) : Bool := voidTags.contains (lowerTag tag)

namespace Kind

/-- The tag of an element. -/
def tag? : Kind → Option String
  | element tag _ => some tag
  | _ => none

/-- The attributes of an element, none for other nodes. -/
def attrs : Kind → List (String × String)
  | element _ attrs => attrs
  | _ => []

/-- The data of a text or a comment. -/
def data? : Kind → Option String
  | text data => some data
  | comment data => some data
  | _ => none

/-- Attributes with one set: in place if its name is there, at the end if not. -/
def setIn (name value : String) : List (String × String) → List (String × String)
  | [] => [(name, value)]
  | (n, v) :: rest => if n = name then (n, value) :: rest else (n, v) :: setIn name value rest

/-- Sets an attribute of an element; other nodes have none. -/
def setAttr (name value : String) : Kind → Kind
  | element tag attrs => element tag (setIn name value attrs)
  | kind => kind

/-- Removes an attribute of an element. -/
def removeAttr (name : String) : Kind → Kind
  | element tag attrs => element tag (attrs.eraseP (·.1 == name))
  | kind => kind

/-- Sets the data of a text or a comment; other nodes have none. -/
def setData (data : String) : Kind → Kind
  | text _ => text data
  | comment _ => comment data
  | kind => kind

/-- The value of an attribute. -/
def attr? (name : String) (kind : Kind) : Option String := kind.attrs.lookup name

/-- The form value of an element: its attribute `value`, empty if there is none. -/
def value (kind : Kind) : String := (kind.attr? "value").getD ""

@[simp] theorem attrs_element (tag : String) (attrs : List (String × String)) :
    (element tag attrs).attrs = attrs := rfl

/-- An attribute that was set has its value. -/
theorem lookup_setIn (name value : String) (attrs : List (String × String)) :
    (setIn name value attrs).lookup name = some value := by
  induction attrs with
  | nil => simp [setIn]
  | cons head rest ih =>
    obtain ⟨n, v⟩ := head
    by_cases h : n = name
    · simp [setIn, h]
    · have : (name == n) = false := by simpa using fun e => h e.symm
      simp [setIn, h, List.lookup_cons, this, ih]

end Kind

namespace Tree

variable {α β : Type}

/-- The label of the root. -/
def label : Tree α → α
  | node label _ _ => label

/-- What the root is. -/
def kind : Tree α → Kind
  | node _ kind _ => kind

/-- The trees below the root. -/
def children : Tree α → List (Tree α)
  | node _ _ children => children

@[simp] theorem label_node (l : α) (k : Kind) (cs : List (Tree α)) : (node l k cs).label = l := rfl

@[simp] theorem kind_node (l : α) (k : Kind) (cs : List (Tree α)) : (node l k cs).kind = k := rfl

@[simp] theorem children_node (l : α) (k : Kind) (cs : List (Tree α)) :
    (node l k cs).children = cs := rfl

mutual

/-- The text of a tree: that of its text nodes in order.  What hangs below a text or a comment is
not part of it. -/
def textContent : Tree α → List Char
  | node _ (.text data) _ => data.toList
  | node _ (.comment _) _ => []
  | node _ (.element _ _) children => textContents children
  | node _ .fragment children => textContents children

/-- The text of a row of trees. -/
def textContents : List (Tree α) → List Char
  | [] => []
  | t :: rest => textContent t ++ textContents rest

end

mutual

/-- The first descendant element with a tag, in document order. -/
def find? (tag : String) : Tree α → Option (Tree α)
  | node _ _ children => findAmong? tag children

/-- The first element with a tag in a row of trees, each before its descendants. -/
def findAmong? (tag : String) : List (Tree α) → Option (Tree α)
  | [] => none
  | t :: rest =>
    if t.kind.tag? = some tag then some t
    else match find? tag t with
      | some found => some found
      | none => findAmong? tag rest

end

mutual

/-- The nodes of a tree in document order, each with the subtree below it. -/
def subtrees : Tree α → List (Tree α)
  | node label kind children => node label kind children :: subtreesAmong children

/-- The nodes of a row of trees in document order. -/
def subtreesAmong : List (Tree α) → List (Tree α)
  | [] => []
  | t :: rest => subtrees t ++ subtreesAmong rest

end

end Tree

end Bindery
