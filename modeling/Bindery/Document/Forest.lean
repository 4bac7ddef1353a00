import Bindery.Markup.Tree

namespace Bindery

/-!
# Documents

The nodes of documents, attached or not, as a forest: every node without a parent is the root of a
tree.  Nodes have identifiers and listeners, and identifiers are not given out twice.

* `NodeId`, `Mark`, `Forest` — identifiers, what a node carries besides its kind, and the trees.
* `Forest.node?`, `Forest.parent?`, `Forest.contains` — questions about a node.
* `Forest.plant` — a new node of its own.
* `Forest.modifyAt`, `Forest.mapKind`, `Forest.listen` — changes of a node that leave the structure.
* `Forest.collect` — forgets the nodes that nothing holds any more.
-/

/-- The identifier of a node. -/
structure NodeId where
  val : Nat
deriving DecidableEq

/-- What a node carries: its identifier, and its listeners with the events they wait for. -/
structure Mark (ℓ : Type) where
  id : NodeId
  listeners : List (String × ℓ)

/-- All nodes, as trees. -/
structure Forest (ℓ : Type) where
  trees : List (Tree (Mark ℓ))
  /-- Identifiers from here on are free. -/
  next : Nat

namespace Tree

variable {ℓ : Type}

/-- The identifier of the root. -/
def id (t : Tree (Mark ℓ)) : NodeId := t.label.id

/-- The identifiers of the children. -/
def childIds (t : Tree (Mark ℓ)) : List NodeId := t.children.map id

mutual

/-- The identifiers of all nodes, in document order. -/
def ids : Tree (Mark ℓ) → List NodeId
  | node mark _ children => mark.id :: idsAmong children

/-- The identifiers of all nodes of a row of trees. -/
def idsAmong : List (Tree (Mark ℓ)) → List NodeId
  | [] => []
  | t :: rest => ids t ++ idsAmong rest

end

mutual

/-- The subtree below a node. -/
def sub? (sought : NodeId) : Tree (Mark ℓ) → Option (Tree (Mark ℓ))
  | node mark kind children =>
    if mark.id = sought then some (node mark kind children) else subAmong? sought children

/-- The subtree below a node in a row of trees. -/
def subAmong? (sought : NodeId) : List (Tree (Mark ℓ)) → Option (Tree (Mark ℓ))
  | [] => none
  | t :: rest =>
    match sub? sought t with
    | some found => some found
    | none => subAmong? sought rest

end

mutual

/-- The parent of a node below this one. -/
def parentIn? (sought : NodeId) : Tree (Mark ℓ) → Option NodeId
  | node mark _ children =>
    if children.any fun child => child.id = sought then some mark.id
    else parentAmong? sought children

/-- The parent of a node below the roots of a row of trees. -/
def parentAmong? (sought : NodeId) : List (Tree (Mark ℓ)) → Option NodeId
  | [] => none
  | t :: rest =>
    match parentIn? sought t with
    | some found => some found
    | none => parentAmong? sought rest

end

mutual

/-- The tree with the subtree below a node changed. -/
def modifyAt (sought : NodeId) (f : Tree (Mark ℓ) → Tree (Mark ℓ)) :
    Tree (Mark ℓ) → Tree (Mark ℓ)
  | node mark kind children =>
    if mark.id = sought then f (node mark kind children)
    else node mark kind (modifyAmong sought f children)

/-- A row of trees with the subtree below a node changed. -/
def modifyAmong (sought : NodeId) (f : Tree (Mark ℓ) → Tree (Mark ℓ)) :
    List (Tree (Mark ℓ)) → List (Tree (Mark ℓ))
  | [] => []
  | t :: rest => modifyAt sought f t :: modifyAmong sought f rest

end

mutual

/-- The tree without the subtrees below some nodes, which are not its root. -/
def pruneBelow (gone : NodeId → Bool) : Tree (Mark ℓ) → Tree (Mark ℓ)
  | node mark kind children => node mark kind (prune gone children)

/-- A row of trees without the subtrees below some nodes. -/
def prune (gone : NodeId → Bool) : List (Tree (Mark ℓ)) → List (Tree (Mark ℓ))
  | [] => []
  | t :: rest =>
    if gone t.id then prune gone rest else pruneBelow gone t :: prune gone rest

end

mutual

/-- The trees that stay when nothing but the held nodes and what is below them does. -/
def survivors (held : NodeId → Bool) : Tree (Mark ℓ) → List (Tree (Mark ℓ))
  | node mark kind children =>
    if held mark.id then [node mark kind children] else survivorsAmong held children

/-- The trees that stay of a row. -/
def survivorsAmong (held : NodeId → Bool) : List (Tree (Mark ℓ)) → List (Tree (Mark ℓ))
  | [] => []
  | t :: rest => survivors held t ++ survivorsAmong held rest

end

/-- The root with another row of children. -/
def withChildren (children : List (Tree (Mark ℓ))) : Tree (Mark ℓ) → Tree (Mark ℓ)
  | node mark kind _ => node mark kind children

/-- The root with more children after the others. -/
def appendChildren (more : List (Tree (Mark ℓ))) : Tree (Mark ℓ) → Tree (Mark ℓ)
  | node mark kind children => node mark kind (children ++ more)

/-- The root with its kind changed. -/
def mapKind (f : Kind → Kind) : Tree (Mark ℓ) → Tree (Mark ℓ)
  | node mark kind children => node mark (f kind) children

/-- The root with one more listener. -/
def addListener (event : String) (listener : ℓ) : Tree (Mark ℓ) → Tree (Mark ℓ)
  | node mark kind children =>
    node { mark with listeners := mark.listeners ++ [(event, listener)] } kind children

mutual

/-- A tree with identifiers from `next` on and no listeners, and the first identifier left. -/
def identify (next : Nat) : Tree Unit → Tree (Mark ℓ) × Nat
  | node _ kind children =>
    let (children, left) := identifyAll (next + 1) children
    (node ⟨⟨next⟩, []⟩ kind children, left)

/-- A row of trees with identifiers. -/
def identifyAll (next : Nat) : List (Tree Unit) → List (Tree (Mark ℓ)) × Nat
  | [] => ([], next)
  | t :: rest =>
    let (t, next) := identify next t
    let (rest, left) := identifyAll next rest
    (t :: rest, left)

end

end Tree

namespace Forest

variable {ℓ : Type}

/-- No nodes at all. -/
def empty : Forest ℓ := ⟨[], 0⟩

/-- The tree below a node, itself included. -/
def node? (f : Forest ℓ) (id : NodeId) : Option (Tree (Mark ℓ)) := Tree.subAmong? id f.trees

/-- The parent of a node. -/
def parent? (f : Forest ℓ) (id : NodeId) : Option NodeId := Tree.parentAmong? id f.trees

/-- The children of a node, in order. -/
def childIds (f : Forest ℓ) (id : NodeId) : List NodeId :=
  ((f.node? id).map Tree.childIds).getD []

/-- What a node is; a node that is not there counts as an empty container. -/
def kind (f : Forest ℓ) (id : NodeId) : Kind := ((f.node? id).map Tree.kind).getD .fragment

/-- Whether a node is another one or above it. -/
def contains (f : Forest ℓ) (above below : NodeId) : Bool :=
  (f.node? above).any fun t => t.ids.contains below

/-- The listeners of a node that wait for an event, oldest first. -/
def listeners (f : Forest ℓ) (id : NodeId) (event : String) : List ℓ :=
  match f.node? id with
  | none => []
  | some t => (t.label.listeners.filter (·.1 = event)).map (·.2)

/-- Changes the tree below a node. -/
def modifyAt (id : NodeId) (g : Tree (Mark ℓ) → Tree (Mark ℓ)) (f : Forest ℓ) : Forest ℓ :=
  { f with trees := Tree.modifyAmong id g f.trees }

/-- Changes what a node is. -/
def mapKind (id : NodeId) (g : Kind → Kind) (f : Forest ℓ) : Forest ℓ :=
  f.modifyAt id (Tree.mapKind g)

/-- Adds a listener to a node. -/
def listen (id : NodeId) (event : String) (listener : ℓ) (f : Forest ℓ) : Forest ℓ :=
  f.modifyAt id (Tree.addListener event listener)

/-- Adds a node of a kind, without parent, children and listeners. -/
def plant (kind : Kind) (f : Forest ℓ) : NodeId × Forest ℓ :=
  (⟨f.next⟩, ⟨f.trees ++ [.node ⟨⟨f.next⟩, []⟩ kind []], f.next + 1⟩)

/-- Forgets every node that is neither held nor below a held one. -/
def collect (held : NodeId → Bool) (f : Forest ℓ) : Forest ℓ :=
  { f with trees := Tree.survivorsAmong held f.trees }

end Forest

end Bindery
