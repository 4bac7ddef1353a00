import Bindery.ViewModel.Page

namespace Bindery

/-!
# Places

How scripts name nodes of a document, and what they ask about the listeners on it.

* `Place` — a root, a way down by positions, and perhaps a tag to look for below.
* `World.placed?` — the node at a place.
* `Tree.heard` — the elements below a node that listen to something.
-/

/-- A place in documents with several roots. -/
structure Place where
  root : Nat
  /-- The positions of children on the way from the root. -/
  way : List Nat
  /-- A tag whose first element below is meant. -/
  tag : Option String

/-- The first root. -/
def Place.origin : Place := ⟨0, [], none⟩

namespace World

variable {υ : Type}

/-- The node that a way from a node leads to. -/
def along? (w : World (Page υ)) : NodeId → List Nat → Option NodeId
  | id, [] => some id
  | id, position :: rest =>
    match (w.document.childIds id)[position]? with
    | none => none
    | some child => along? w child rest

/-- The node at a place. -/
def placed? (w : World (Page υ)) (roots : List NodeId) (place : Place) : Option NodeId := do
  let root ← roots[place.root]?
  let start ← w.along? root place.way
  match place.tag with
  | none => some start
  | some tag => (← (← w.document.node? start).find? tag).id

end World

/-- The events that scripts count listeners of. -/
def countedEvents : List String := ["click", "input", "change", "keyup"]

/-- An element with the numbers of its listeners by event, for events that have any. -/
structure Hearing where
  tag : String
  counts : List (String × Nat)

/-- The listeners of a node, if it is an element with any. -/
def Tree.hearing? {ℓ : Type} : Tree (Mark ℓ) → Option Hearing
  | .node mark (.element tag _) _ =>
    let counts := countedEvents.map fun event =>
      (event, (mark.listeners.filter (·.1 = event)).length)
    let counts := counts.filter (·.2 != 0)
    if counts.isEmpty then none else some ⟨tag, counts⟩
  | _ => none

/-- The elements below a node that listen to something, in document order. -/
def Tree.heard {ℓ : Type} (t : Tree (Mark ℓ)) : List Hearing :=
  (t.subtrees.drop 1).filterMap Tree.hearing?

end Bindery
