import Bindery.Markup.Lexer
import Bindery.Markup.Tree
import Bindery.Proofs.Document.Rows
import Mathlib.Data.List.Infix
import Mathlib.Data.List.Chain

namespace Bindery

/-!
# Canonical trees

The trees that have markup of their own: other trees are written like one of these.

* `Lexer.isTag`, `Lexer.isName`, `IsAttributes` — the names that markup has a place for.
* `Tree.Canonical`, `Tree.CanonicalAll` — canonical trees and rows of them.
* `Tree.canonicalAll_iff` — a row is canonical if its trees are and no two texts are neighbours.
* `Tree.bare` — a tree without its labels.
-/

namespace Lexer

/-- The grammar of tags: a letter, then tag characters. -/
def isTag : List Char → Bool
  | [] => false
  | c :: rest => isLetter c && rest.all isTagChar

/-- The grammar of attribute names: one name character or more. -/
def isName (cs : List Char) : Bool := !cs.isEmpty && cs.all isNameChar

end Lexer

/-- Attributes that an opening tag can hold: their names are names, all of them different. -/
structure IsAttributes (attrs : List (String × String)) : Prop where
  named : ∀ attr ∈ attrs, Lexer.isName attr.1.toList = true
  distinct : (attrs.map Prod.fst).Nodup

instance (attrs : List (String × String)) : Decidable (IsAttributes attrs) :=
  decidable_of_iff
    ((∀ attr ∈ attrs, Lexer.isName attr.1.toList = true) ∧ (attrs.map Prod.fst).Nodup)
    ⟨fun h => ⟨h.1, h.2⟩, fun h => ⟨h.named, h.distinct⟩⟩

/-- Data that a comment can hold: it does not end the comment. -/
def IsCommentData (data : List Char) : Prop := ¬ "-->".toList <:+: data

instance (data : List Char) : Decidable (IsCommentData data) :=
  inferInstanceAs (Decidable (¬ "-->".toList <:+: data))

/-- Whether a node is a text. -/
def Kind.isText : Kind → Bool
  | text _ => true
  | _ => false

namespace Tree

variable {α β : Type}

/-- Two neighbours that are not both texts. -/
def Apart (t u : Tree α) : Prop := t.kind.isText = true → u.kind.isText = false

/-- It does not matter which of the two neighbours comes first. -/
theorem Apart.symm {t u : Tree α} (h : Apart t u) : Apart u t := by
  intro hu
  by_contra ht
  rw [h (by simpa using ht)] at hu
  contradiction

mutual

/-- Trees as markup has them: tags and attribute names follow the grammar, tags are in lower case,
texts are not empty, comments do not end themselves, and only elements that are not void have
content. -/
def Canonical : Tree α → Prop
  | node _ (.element tag attrs) children =>
    (Lexer.isTag tag.toList = true ∧ lowerTag tag = tag) ∧ IsAttributes attrs ∧
      (isVoid tag = true → children = []) ∧ CanonicalAll children
  | node _ (.text data) children => data ≠ "" ∧ children = []
  | node _ (.comment data) children => IsCommentData data.toList ∧ children = []
  | node _ .fragment _ => False

/-- Rows of canonical trees without two texts in a row. -/
def CanonicalAll : List (Tree α) → Prop
  | [] => True
  | t :: rest => Canonical t ∧ (∀ u ∈ rest.head?, Apart t u) ∧ CanonicalAll rest

end

/-- A row is canonical if its trees are and no two texts are neighbours. -/
theorem canonicalAll_iff (ts : List (Tree α)) :
    CanonicalAll ts ↔ (∀ t ∈ ts, Canonical t) ∧ ts.IsChain Apart := by
  induction ts with
  | nil => simp [CanonicalAll]
  | cons t ts ih =>
    rw [CanonicalAll, ih, List.isChain_cons, List.forall_mem_cons]
    tauto

/-- A row read backwards is as canonical. -/
theorem canonicalAll_reverse (ts : List (Tree α)) : CanonicalAll ts.reverse ↔ CanonicalAll ts := by
  have hsymm : (fun t u : Tree α => Apart u t) = Apart := by
    funext t u
    exact propext ⟨Apart.symm, Apart.symm⟩
  rw [canonicalAll_iff, canonicalAll_iff, List.isChain_reverse, hsymm]
  simp

instance (t u : Tree α) : Decidable (Apart t u) :=
  inferInstanceAs (Decidable (t.kind.isText = true → u.kind.isText = false))

mutual

/-- Whether a tree is canonical can be computed. -/
def decideCanonical : ∀ t : Tree α, Decidable (Canonical t)
  | node _ (.element tag attrs) children =>
    have := decideCanonicalAll children
    inferInstanceAs (Decidable ((Lexer.isTag tag.toList = true ∧ lowerTag tag = tag) ∧
      IsAttributes attrs ∧ (isVoid tag = true → children = []) ∧ CanonicalAll children))
  | node _ (.text data) children => inferInstanceAs (Decidable (data ≠ "" ∧ children = []))
  | node _ (.comment data) children =>
    inferInstanceAs (Decidable (IsCommentData data.toList ∧ children = []))
  | node _ .fragment _ => inferInstanceAs (Decidable False)

def decideCanonicalAll : ∀ ts : List (Tree α), Decidable (CanonicalAll ts)
  | [] => inferInstanceAs (Decidable True)
  | t :: rest =>
    have := decideCanonical t
    have := decideCanonicalAll rest
    inferInstanceAs (Decidable (Canonical t ∧ (∀ u ∈ rest.head?, Apart t u) ∧ CanonicalAll rest))

end

instance (ts : List (Tree α)) : Decidable (CanonicalAll ts) := decideCanonicalAll ts

/-! ### Labels do not matter -/

theorem mapAll_eq_map (f : α → β) (ts : List (Tree α)) : mapAll f ts = ts.map (map f) := by
  induction ts with
  | nil => rfl
  | cons t ts ih => rw [mapAll, ih, List.map_cons]

@[simp] theorem kind_map (f : α → β) (t : Tree α) : (t.map f).kind = t.kind := by
  cases t
  rfl

/-- A tree without its labels. -/
def bare (t : Tree α) : Tree Unit := t.map fun _ => ()

@[simp] theorem bare_node (label : α) (kind : Kind) (children : List (Tree α)) :
    (node label kind children).bare = node () kind (children.map bare) := by
  rw [bare, map, mapAll_eq_map]
  rfl

/-- Bare trees are those with a trivial label everywhere. -/
theorem map_bare (ts : List (Tree α)) : ts.map bare = mapAll (fun _ => ()) ts :=
  (mapAll_eq_map _ ts).symm

@[simp] theorem kind_bare (t : Tree α) : t.bare.kind = t.kind := kind_map _ t

end Tree

end Bindery
