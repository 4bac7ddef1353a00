import Bindery.Document.Move
import Bindery.Markup.Writer
import Mathlib.Logic.Function.Basic
import Mathlib.Logic.Relation

namespace Bindery

/-!
# Links between nodes

Nodes may also be kept one by one, where each knows its children, and its parent.  Then every move
changes the links on both sides, and whoever follows links may go round in circles.  So whatever
follows them has fuel here, and comes to nothing when that does not suffice.

* `Links` — nodes with their links; `Links.IsForest` — both sides agree, without circles.
* `Links.create`, `Links.detach`, `Links.takeChildren`, `Links.append`, `Links.setInner` — what is
  done to them.
* `Links.climb`, `Links.read` — what follows them: upwards to a node, downwards for a text.
* `Links.Paired` — both sides agree; each change keeps that.
* `Links.Keeps` — what is left when nothing holds some nodes.
-/

/-- Nodes with links to their children and to their parents. -/
structure Links where
  kind : NodeId → Kind
  children : NodeId → List NodeId
  parent : NodeId → Option NodeId

namespace Links

/-! ### Following links -/

/-- Whether a node is met on the way up from another. -/
def climb (g : Links) (sought : NodeId) : Nat → NodeId → Option Bool
  | 0, _ => none
  | fuel + 1, id =>
    if id = sought then some true
    else match g.parent id with
      | none => some false
      | some above => climb g sought fuel above

/-- A text made of a node and, if it is of such a kind, of the texts of its children. -/
def read (g : Links) (descends : Kind → Bool) (shape : Kind → List Char → List Char) :
    Nat → NodeId → Option (List Char)
  | 0, _ => none
  | fuel + 1, id => do
    let inner ← if descends (g.kind id) then (g.children id).mapM (read g descends shape fuel)
      else some []
    some (shape (g.kind id) inner.flatten)

/-- The text of a node. -/
def text (g : Links) : Nat → NodeId → Option (List Char) :=
  g.read
    (fun
      | .text _ | .comment _ => false
      | .element _ _ | .fragment => true)
    (fun
      | .text data => fun _ => data.toList
      | .comment _ => fun _ => []
      | .element _ _ | .fragment => fun inner => inner)

/-- The markup of a node. -/
def markup (g : Links) : Nat → NodeId → Option (List Char) :=
  g.read
    (fun
      | .element tag _ => !isVoid tag
      | .text _ | .comment _ => false
      | .fragment => true)
    (fun
      | .element tag attrs => fun inner =>
        '<' :: tag.toList ++ attrs.flatMap writeAttr ++ '>' ::
          (if isVoid tag then [] else inner ++ "</".toList ++ tag.toList ++ ['>'])
      | .text data => fun _ => escapeText data.toList
      | .comment data => fun _ => "<!--".toList ++ data.toList ++ "-->".toList
      | .fragment => fun inner => inner)

/-! ### Changing links -/

/-- A new node. -/
def create (id : NodeId) (kind : Kind) (g : Links) : Links where
  kind := Function.update g.kind id kind
  children := Function.update g.children id []
  parent := Function.update g.parent id none

/-- Changes what a node is. -/
def mapKind (id : NodeId) (f : Kind → Kind) (g : Links) : Links :=
  { g with kind := Function.update g.kind id (f (g.kind id)) }

/-- Takes all children away from a node: first the links down to them, then theirs up. -/
def takeChildren (id : NodeId) (g : Links) : Links :=
  { g with
    children := Function.update g.children id []
    parent := fun child => if child ∈ g.children id then none else g.parent child }

/-- Takes a node away from its parent. -/
def detach (id : NodeId) (g : Links) : Links :=
  let g : Links := match g.parent id with
    | none => g
    | some above =>
      { g with children :=
          Function.update g.children above ((g.children above).filter (· ≠ id)) }
  { g with parent := Function.update g.parent id none }

/-- Makes a node without parent the last child of another. -/
def link (above id : NodeId) (g : Links) : Links :=
  { g with
    parent := Function.update g.parent id (some above)
    children := Function.update g.children above (g.children above ++ [id]) }

/-- Makes a node the last child of another, unless that is below it.  Of a container the children
are taken out and appended in order. -/
def append (above : NodeId) : Nat → NodeId → Links → Option Links
  | 0, _, _ => none
  | fuel + 1, id, g =>
    if g.kind id = .fragment then
      (g.children id).foldlM (fun g child => append above fuel child g) (g.takeChildren id)
    else
      (g.climb id fuel above).map fun within =>
        if within then g else (g.detach id).link above id

variable {ℓ : Type}

mutual

/-- Makes new nodes, from a node down, and appends each to its parent at once. -/
def grow (fuel : Nat) (above : NodeId) : Tree (Mark ℓ) → Links → Option Links
  | .node mark kind children, g => do
    let g ← append above fuel mark.id (g.create mark.id kind)
    growAll fuel mark.id children g

/-- Makes the nodes of a row of trees below a node. -/
def growAll (fuel : Nat) (above : NodeId) : List (Tree (Mark ℓ)) → Links → Option Links
  | [], g => some g
  | t :: rest, g => do
    let g ← grow fuel above t g
    growAll fuel above rest g

end

/-- Replaces the children of a node by new nodes, which are made in a new container. -/
def setInner (fuel : Nat) (id container : NodeId) (trees : List (Tree (Mark ℓ))) (g : Links) :
    Option Links := do
  let g ← growAll fuel container trees (g.create container .fragment)
  append id fuel container (g.takeChildren id)

/-! ### Links of forests -/

/-- Links on both sides agree, and containers are nobody's children. -/
structure Paired (g : Links) : Prop where
  mem_children : ∀ above id, id ∈ g.children above ↔ g.parent id = some above
  container : ∀ id, g.kind id = .fragment → g.parent id = none

/-- Moreover nobody is a child twice, or above itself. -/
structure IsForest (g : Links) : Prop extends g.Paired where
  nodup : ∀ id, (g.children id).Nodup
  acyclic : ∀ id, ¬ Relation.TransGen (fun below above => g.parent below = some above) id id

/-- What holds a node: somebody, or a node that is held, by its link down. -/
inductive IsHeld (g : Links) (held : NodeId → Bool) : NodeId → Prop
  | handle {id} : held id = true → IsHeld g held id
  | child {above id} : IsHeld g held above → id ∈ g.children above → IsHeld g held id

/-- Nodes that nothing holds are gone.  Links up do not hold nodes, so they may lead to nothing any
more. -/
structure Keeps (g : Links) (held : NodeId → Bool) (g' : Links) : Prop where
  kind : ∀ id, g.IsHeld held id → g'.kind id = g.kind id
  children : ∀ id, g.IsHeld held id → g'.children id = g.children id
  gone : ∀ id, ¬ g.IsHeld held id → g'.kind id = .fragment ∧ g'.children id = []
  parent : ∀ id above, g'.parent id = some above ↔
    g.parent id = some above ∧ g.IsHeld held above

variable {g g' : Links} {id above : NodeId}

/-- Links up are determined by those down. -/
theorem Paired.ext (h : g.Paired) (h' : g'.Paired) (kind : ∀ id, g.kind id = g'.kind id)
    (children : ∀ id, g.children id = g'.children id) : g = g' := by
  have parent : g.parent = g'.parent := by
    funext id
    refine Option.ext fun above => ?_
    rw [← h.mem_children, ← h'.mem_children, children]
  obtain ⟨kind₁, children₁, parent₁⟩ := g
  obtain ⟨kind₂, children₂, parent₂⟩ := g'
  cases (show kind₁ = kind₂ from funext kind)
  cases (show children₁ = children₂ from funext children)
  cases (show parent₁ = parent₂ from parent)
  rfl

/-- Nobody has a node as a child that has no parent. -/
theorem Paired.notMem_of_parent (h : g.Paired) (free : g.parent id = none) (above : NodeId) :
    id ∉ g.children above := by
  rw [h.mem_children, free]
  exact Option.some_ne_none above |>.symm

/-- A new node without links leaves them paired. -/
theorem Paired.create (h : g.Paired) (free : g.parent id = none) (empty : g.children id = [])
    (kind : Kind) : (g.create id kind).Paired where
  mem_children above other := by
    have children : (g.create id kind).children = g.children := by
      rw [Links.create, ← empty, Function.update_eq_self]
    have parent : (g.create id kind).parent = g.parent := by
      rw [Links.create, ← free, Function.update_eq_self]
    rw [children, parent]
    exact h.mem_children above other
  container other := by
    simp only [Links.create, Function.update_apply]
    split
    · exact fun _ => rfl
    · exact h.container other

/-- Changing kinds leaves them paired, unless a node becomes a container. -/
theorem Paired.mapKind (h : g.Paired) {f : Kind → Kind}
    (same : ∀ kind, f kind = .fragment → kind = .fragment) : (g.mapKind id f).Paired where
  mem_children := h.mem_children
  container other hkind := by
    refine h.container other ?_
    simp only [Links.mapKind, Function.update_apply] at hkind
    split at hkind
    · next this =>
      rw [this]
      exact same _ hkind
    · exact hkind

/-- Taking out children breaks their links at both ends. -/
theorem Paired.takeChildren (h : g.Paired) (id : NodeId) : (g.takeChildren id).Paired where
  mem_children above child := by
    simp only [Links.takeChildren, Function.update_apply]
    by_cases taken : child ∈ g.children id
    · -- its only parent was the node
      rw [if_pos taken]
      have only := (h.mem_children id child).1 taken
      split
      · simp
      · next other =>
        rw [h.mem_children, only]
        simpa using Ne.symm other
    · rw [if_neg taken]
      split
      · next this =>
        rw [this, ← h.mem_children]
        simp [taken]
      · exact h.mem_children above child
  container child hkind := by
    have free := h.container child hkind
    simp [Links.takeChildren, free]

@[simp] theorem kind_detach (g : Links) (id : NodeId) : (g.detach id).kind = g.kind := by
  simp only [detach]
  split <;> rfl

/-- A node that is detached has no parent any more, and all others keep theirs. -/
theorem parent_detach (g : Links) (id : NodeId) :
    (g.detach id).parent = Function.update g.parent id none := by
  simp only [detach]
  split <;> rfl

@[simp] theorem parent_detach_self (g : Links) (id : NodeId) : (g.detach id).parent id = none := by
  rw [parent_detach, Function.update_self]

/-- The parent, if there is one, has one child less. -/
theorem children_detach (g : Links) (id above : NodeId) : (g.detach id).children above =
    if g.parent id = some above then (g.children above).filter (· ≠ id) else g.children above := by
  simp only [detach]
  cases g.parent id with
  | none => rfl
  | some old =>
    simp only [Function.update_apply, Option.some.injEq]
    by_cases here : above = old
    · simp [here]
    · rw [if_neg here, if_neg (Ne.symm here)]

/-- Detaching a node breaks its link at both ends. -/
theorem Paired.detach (h : g.Paired) (id : NodeId) : (g.detach id).Paired where
  mem_children above child := by
    rw [children_detach, parent_detach, Function.update_apply]
    by_cases this : child = id
    · subst this
      -- it was a child of its parent only, and there it is taken out
      rw [if_pos rfl]
      split
      · simp
      · next other =>
        rw [h.mem_children]
        simpa using other
    · rw [if_neg this]
      split
      · simp [this, h.mem_children]
      · exact h.mem_children above child
  container child hkind := by
    rw [kind_detach] at hkind
    rw [parent_detach, Function.update_apply]
    split
    · rfl
    · exact h.container child hkind

/-- A node without a parent gets one, which gets it as a child. -/
theorem Paired.link (h : g.Paired) (free : g.parent id = none) (node : g.kind id ≠ .fragment)
    (above : NodeId) : (g.link above id).Paired where
  mem_children upper child := by
    simp only [Links.link, Function.update_apply]
    by_cases this : child = id
    · subst this
      rw [if_pos rfl]
      split
      · next here => simp [here]
      · next other =>
        have nobody := h.notMem_of_parent free upper
        simp [nobody, Ne.symm other]
    · rw [if_neg this, ← h.mem_children]
      split
      · next here => simp [here, this]
      · rfl
  container child hkind := by
    have differ : child ≠ id := by
      rintro rfl
      exact node hkind
    simp only [Links.link, Function.update_apply, if_neg differ]
    exact h.container child hkind

end Links

end Bindery
