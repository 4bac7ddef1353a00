import Bindery.Document.Forest
import Bindery.Markup.Reader

namespace Bindery

/-!
# Moving nodes

* `Forest.detach`, `Forest.takeChildren` — taking nodes away from their parents.
* `Forest.append` — making a node the last child of another; the children of a container are moved
  in its place, and a node is never moved below itself.
* `Forest.setInner` — new children read from markup.
-/

namespace Forest

variable {ℓ : Type}

/-- Takes a node with what is below it away from its parent. -/
def detach (id : NodeId) (f : Forest ℓ) : Forest ℓ :=
  match f.parent? id, f.node? id with
  | some _, some t => { f with trees := Tree.prune (· = id) f.trees ++ [t] }
  | _, _ => f

/-- Takes all children away from a node, each with what is below it. -/
def takeChildren (id : NodeId) (f : Forest ℓ) : Forest ℓ :=
  match f.node? id with
  | none => f
  | some t =>
    { f with trees := Tree.modifyAmong id (Tree.withChildren []) f.trees ++ t.children }

/-- Makes a node the last child of another, unless that is below it. -/
def appendNode (parent child : NodeId) (f : Forest ℓ) : Forest ℓ :=
  if f.contains child parent then f
  else match f.node? child with
    | none => f
    | some t =>
      { f with trees :=
          Tree.modifyAmong parent (Tree.appendChildren [t]) (Tree.prune (· = child) f.trees) }

/-- Makes a node the last child of another.  Of a container the children are taken out and appended
in order. -/
def append (parent child : NodeId) (f : Forest ℓ) : Forest ℓ :=
  match f.kind child with
  | .fragment =>
    (f.childIds child).foldl (fun f id => f.appendNode parent id) (f.takeChildren child)
  | _ => f.appendNode parent child

/-- Replaces the children of a node by trees; the children it had lose their parent. -/
def setTrees (id : NodeId) (trees : List (Tree Unit)) (f : Forest ℓ) : Forest ℓ :=
  let (trees, next) := Tree.identifyAll f.next trees
  { (f.takeChildren id).modifyAt id (Tree.withChildren trees) with next }

/-- Replaces the children of a node by those that some markup stands for.  If it is not well nested,
nothing changes. -/
def setInner (id : NodeId) (markup : String) (f : Forest ℓ) : Except MarkupError (Forest ℓ) :=
  (readMarkup markup).map fun trees => f.setTrees id trees

/-- Replaces the children of a node by a single text. -/
def setText (id : NodeId) (text : String) (f : Forest ℓ) : Forest ℓ :=
  f.setTrees id [.node () (.text text) []]

/-- A new element with the children that some markup stands for. -/
def plantMarkup (tag markup : String) (f : Forest ℓ) : Except MarkupError (NodeId × Forest ℓ) :=
  let (id, f) := f.plant (.element tag [])
  (f.setInner id markup).map fun f => (id, f)

end Forest

end Bindery
