import Bindery.Proofs.Document.Entries
import Bindery.Proofs.Document.Links
import Mathlib.Data.List.Pairwise
import Mathlib.Data.List.Perm.Subperm

namespace Bindery

/-!
# The links of documents

A document knows the trees of its nodes, and so the links that its nodes have to each other.

* `Forest.links` — these links.
* `Tree.idsAmong_perm` — every node is a root, or a child of one node.
* `Forest.IsSound.mem_childIds` — children and parents of a document agree.
* `Forest.IsSound.climb`, `Forest.IsSound.text`, `Forest.IsSound.markup` — whoever follows the links
  comes to an end, and to what the document says.
* `Forest.IsProper.isForest` — the links are those of a forest.
-/

namespace Tree

variable {ℓ : Type} {t u : Tree (Mark ℓ)} {ts : List (Tree (Mark ℓ))} {sought above : NodeId}

mutual

/-- Every node of a tree is its root, or once a child. -/
theorem ids_perm : ∀ t : Tree (Mark ℓ), t.ids.Perm (t.id :: t.rows.flatMap (·.2.children))
  | node mark kind children => by
    rw [ids, rows_node, List.flatMap_cons]
    exact (idsAmong_perm children).cons _

/-- **Every node is a root, or once a child.** -/
theorem idsAmong_perm : ∀ ts : List (Tree (Mark ℓ)),
    (idsAmong ts).Perm (ts.map id ++ (rowsAmong ts).flatMap (·.2.children))
  | [] => .nil
  | t :: rest => by
    rw [idsAmong, rowsAmong_cons, List.flatMap_append, List.map_cons, List.cons_append]
    refine ((ids_perm t).append (idsAmong_perm rest)).trans (.cons _ ?_)
    exact List.perm_append_comm_assoc ..

end

mutual

/-- What is below something in a tree is in the tree. -/
theorem subtrees_subset_of_mem : ∀ t : Tree (Mark ℓ), u ∈ t.subtrees → u.subtrees ⊆ t.subtrees
  | node mark kind children, h => by
    obtain rfl | inside := List.mem_cons.1 h
    · exact List.Subset.refl _
    · exact List.Subset.trans (subtrees_subset_of_memAmong children inside)
        (List.subset_cons_self _ _)

/-- What is below a node below some trees is below these. -/
theorem subtrees_subset_of_memAmong : ∀ ts : List (Tree (Mark ℓ)), u ∈ subtreesAmong ts →
    u.subtrees ⊆ subtreesAmong ts
  | t :: rest, h => by
    obtain first | later := List.mem_append.1 h
    · exact List.Subset.trans (subtrees_subset_of_mem t first) (List.subset_append_left _ _)
    · exact List.Subset.trans (subtrees_subset_of_memAmong rest later)
        (List.subset_append_right _ _)

end

mutual

/-- What is in a tree is its root, or a child of something in it. -/
theorem mem_subtrees_cases : ∀ t : Tree (Mark ℓ), u ∈ t.subtrees →
    u = t ∨ ∃ v ∈ t.subtrees, u ∈ v.children
  | node mark kind children, h => by
    obtain rfl | inside := List.mem_cons.1 h
    · exact .inl rfl
    · refine .inr ?_
      obtain root | ⟨v, hv, child⟩ := mem_subtreesAmong_cases children inside
      · exact ⟨_, mem_subtrees_self _, root⟩
      · exact ⟨v, List.mem_cons_of_mem _ hv, child⟩

/-- What is below some trees is one of them, or a child of something below them. -/
theorem mem_subtreesAmong_cases : ∀ ts : List (Tree (Mark ℓ)), u ∈ subtreesAmong ts →
    u ∈ ts ∨ ∃ v ∈ subtreesAmong ts, u ∈ v.children
  | t :: rest, h => by
    obtain first | later := List.mem_append.1 h
    · obtain rfl | ⟨v, hv, child⟩ := mem_subtrees_cases t first
      · exact .inl List.mem_cons_self
      · exact .inr ⟨v, List.mem_append_left _ hv, child⟩
    · obtain root | ⟨v, hv, child⟩ := mem_subtreesAmong_cases rest later
      · exact .inl (List.mem_cons_of_mem _ root)
      · exact .inr ⟨v, List.mem_append_right _ hv, child⟩

end

mutual

/-- The parent that a search in a tree finds has the node among its children. -/
theorem parentIn?_mem : ∀ t : Tree (Mark ℓ), parentIn? sought t = some above →
    ∃ v ∈ t.subtrees, v.id = above ∧ sought ∈ v.childIds
  | node mark kind children, h => by
    rw [parentIn?] at h
    split at h
    · next among =>
      cases h
      obtain ⟨child, hchild, same⟩ := List.any_eq_true.1 among
      exact ⟨_, mem_subtrees_self _, rfl, List.mem_map.2 ⟨child, hchild, of_decide_eq_true same⟩⟩
    · obtain ⟨v, hv, found⟩ := parentAmong?_mem children h
      exact ⟨v, List.mem_cons_of_mem _ hv, found⟩

/-- The parent of a node has it as a child. -/
theorem parentAmong?_mem : ∀ ts : List (Tree (Mark ℓ)), parentAmong? sought ts = some above →
    ∃ v ∈ subtreesAmong ts, v.id = above ∧ sought ∈ v.childIds
  | t :: rest, h => by
    rw [parentAmong?] at h
    split at h
    · next hfirst =>
      cases h
      obtain ⟨v, hv, found⟩ := parentIn?_mem t hfirst
      exact ⟨v, List.mem_append_left _ hv, found⟩
    · obtain ⟨v, hv, found⟩ := parentAmong?_mem rest h
      exact ⟨v, List.mem_append_right _ hv, found⟩

end

mutual

/-- If it finds none, the node is nobody's child there. -/
theorem parentIn?_eq_none : ∀ t : Tree (Mark ℓ), parentIn? sought t = none →
    ∀ v ∈ t.subtrees, sought ∉ v.childIds
  | node mark kind children, h, v, hv => by
    rw [parentIn?] at h
    split at h
    · cases h
    · next among =>
      obtain rfl | inside := List.mem_cons.1 hv
      · intro hmem
        obtain ⟨child, hchild, same⟩ := List.mem_map.1 hmem
        exact among (List.any_eq_true.2 ⟨child, hchild, decide_eq_true same⟩)
      · exact parentAmong?_eq_none children h v inside

/-- A node without parent is nobody's child. -/
theorem parentAmong?_eq_none : ∀ ts : List (Tree (Mark ℓ)), parentAmong? sought ts = none →
    ∀ v ∈ subtreesAmong ts, sought ∉ v.childIds
  | t :: rest, h, v, hv => by
    rw [parentAmong?] at h
    split at h
    · cases h
    · next hfirst =>
      obtain first | later := List.mem_append.1 hv
      · exact parentIn?_eq_none t hfirst v first
      · exact parentAmong?_eq_none rest h v later

end

/-- The text of a row is that of its trees, one after another. -/
theorem textContents_eq (ts : List (Tree (Mark ℓ))) :
    textContents ts = (ts.map textContent).flatten := by
  induction ts with
  | nil => rfl
  | cons t rest ih => simp [textContents, ih]

theorem writeAll_eq (ts : List (Tree (Mark ℓ))) :
    writeAll ts = (ts.map write).flatten := by
  induction ts with
  | nil => rfl
  | cons t rest ih => simp [ih]

end Tree

namespace Forest

variable {ℓ : Type} {f f' : Forest ℓ} {id above : NodeId} {t u : Tree (Mark ℓ)}

/-- The document has a node. -/
def Has (f : Forest ℓ) (id : NodeId) : Prop := ∃ t, f.node? id = some t

/-- The links of the nodes of a document to each other. -/
def links (f : Forest ℓ) : Links := ⟨f.kind, f.childIds, f.parent?⟩

@[simp] theorem kind_links (f : Forest ℓ) : f.links.kind = f.kind := rfl

@[simp] theorem children_links (f : Forest ℓ) : f.links.children = f.childIds := rfl

@[simp] theorem parent_links (f : Forest ℓ) : f.links.parent = f.parent? := rfl

/-- A node that is there has an entry. -/
theorem has_iff_entry : f.Has id ↔ ∃ e, f.entry id = some e := by
  simp [Has, entry]

/-- The kind of a node is read from its entry. -/
theorem kind_eq (f : Forest ℓ) (id : NodeId) :
    f.kind id = ((f.entry id).map Entry.kind).getD .fragment := by
  rw [kind, entry, Option.map_map]
  rfl

theorem childIds_eq (f : Forest ℓ) (id : NodeId) :
    f.childIds id = ((f.entry id).map Entry.children).getD [] := by
  rw [childIds, entry, Option.map_map]
  rfl

/-- The children of a node are those of its tree. -/
theorem childIds_of_node? (found : f.node? id = some t) : f.childIds id = t.childIds := by
  simp [childIds, found]

/-! ### Children and parents -/

/-- A child is listed in the row of its parent. -/
theorem mem_childIds_iff_row (h : f.IsSound) :
    id ∈ f.childIds above ↔ ∃ e, (above, e) ∈ f.rows ∧ id ∈ e.children := by
  simp only [← h.entry_eq_some, childIds_eq]
  cases f.entry above with
  | none => simp
  | some e => simp

/-- Roots and children are all different nodes. -/
theorem IsSound.nodup_roots_children (h : f.IsSound) :
    (f.trees.map Tree.id ++ f.rows.flatMap (·.2.children)).Nodup :=
  (Tree.idsAmong_perm f.trees).nodup_iff.1 h.nodup

/-- No child is listed twice. -/
theorem IsSound.nodup_childIds (h : f.IsSound) (id : NodeId) : (f.childIds id).Nodup := by
  obtain ⟨-, children, -⟩ := List.nodup_append.1 h.nodup_roots_children
  rw [childIds_eq]
  cases hentry : f.entry id with
  | none => exact List.nodup_nil
  | some e => exact (List.nodup_flatMap.1 children).1 _ (h.entry_eq_some.1 hentry)

/-- Nobody has two parents. -/
theorem IsSound.parent_unique (h : f.IsSound) {other : NodeId} (first : id ∈ f.childIds above)
    (second : id ∈ f.childIds other) : above = other := by
  obtain ⟨-, children, -⟩ := List.nodup_append.1 h.nodup_roots_children
  obtain ⟨e, hrow, hmem⟩ := (mem_childIds_iff_row h).1 first
  obtain ⟨e', hrow', hmem'⟩ := (mem_childIds_iff_row h).1 second
  by_contra differ
  have rows : (above, e) ≠ (other, e') := fun same => differ (congrArg Prod.fst same)
  have symmetric : Std.Symm (Function.onFun List.Disjoint fun row : NodeId × Entry ℓ =>
      row.2.children) := ⟨fun _ _ apart _ second first => apart first second⟩
  exact (List.nodup_flatMap.1 children).2.forall hrow hrow' rows hmem hmem'

/-- **Children and parents agree.** -/
theorem IsSound.mem_childIds (h : f.IsSound) :
    id ∈ f.childIds above ↔ f.parent? id = some above := by
  -- a node below the trees is the one that its identifier finds
  have listed {v : Tree (Mark ℓ)} (hv : v ∈ Tree.subtreesAmong f.trees) :
      f.childIds v.id = v.childIds :=
    childIds_of_node? (h.node?_eq_some.2 ⟨hv, rfl⟩)
  constructor
  · intro hmem
    cases hparent : f.parent? id with
    | none =>
      obtain ⟨e, hrow, hchild⟩ := (mem_childIds_iff_row h).1 hmem
      obtain ⟨v, hv, hpair⟩ := List.mem_map.1 hrow
      cases hpair
      exact absurd hchild (Tree.parentAmong?_eq_none f.trees hparent v hv)
    | some other =>
      obtain ⟨v, hv, rfl, hchild⟩ := Tree.parentAmong?_mem f.trees hparent
      rw [h.parent_unique hmem ((listed hv).symm ▸ hchild)]
  · intro hparent
    obtain ⟨v, hv, rfl, hchild⟩ := Tree.parentAmong?_mem f.trees hparent
    rw [listed hv]
    exact hchild

/-- The tree of a child is that child. -/
theorem IsSound.node?_child (h : f.IsSound) (found : f.node? above = some u)
    (child : t ∈ u.children) : f.node? t.id = some t := by
  obtain ⟨hu, -⟩ := h.node?_eq_some.1 found
  exact h.node?_eq_some.2 ⟨Tree.children_subset_of_memAmong f.trees hu child, rfl⟩

/-- The tree of a child is one of those below its parent. -/
theorem IsSound.child_of_mem (h : f.IsSound) (found : f.node? above = some u)
    (hmem : id ∈ f.childIds above) : ∃ t ∈ u.children, t.id = id ∧ f.node? id = some t := by
  rw [childIds_of_node? found] at hmem
  obtain ⟨t, ht, rfl⟩ := List.mem_map.1 hmem
  exact ⟨t, ht, rfl, h.node?_child found ht⟩

/-- What is below a node is there. -/
theorem IsSound.has_of_mem_ids (h : f.IsSound) (found : f.node? above = some u)
    (hid : id ∈ u.ids) : f.Has id := by
  obtain ⟨hu, -⟩ := h.node?_eq_some.1 found
  obtain ⟨t, ht, rfl⟩ := Tree.mem_ids.1 hid
  have inside := Tree.subtrees_subset_of_memAmong f.trees hu ht
  exact ⟨t, h.node?_eq_some.2 ⟨inside, rfl⟩⟩

/-- A node has a parent, or it is a root. -/
theorem IsSound.mem_trees (h : f.IsSound) (found : f.node? id = some t)
    (free : f.parent? id = none) : t ∈ f.trees := by
  obtain ⟨ht, rfl⟩ := h.node?_eq_some.1 found
  obtain root | ⟨v, hv, child⟩ := Tree.mem_subtreesAmong_cases f.trees ht
  · exact root
  · exact absurd (List.mem_map_of_mem child) (Tree.parentAmong?_eq_none f.trees free v hv)

/-- A node with a parent is there, and so is the parent. -/
theorem IsSound.has_of_parent (h : f.IsSound) (hparent : f.parent? id = some above) :
    f.Has above ∧ f.Has id := by
  have hmem := h.mem_childIds.2 hparent
  cases found : f.node? above with
  | none => simp [childIds, found] at hmem
  | some u =>
    obtain ⟨t, -, -, ht⟩ := h.child_of_mem found hmem
    exact ⟨⟨u, found⟩, ⟨t, ht⟩⟩

/-! ### Upwards -/

/-- How many nodes there are from a node on downwards. -/
def size (f : Forest ℓ) (id : NodeId) : Nat := ((f.node? id).map (·.ids.length)).getD 0

/-- There are more of them above. -/
theorem IsSound.size_lt (h : f.IsSound) (hparent : f.parent? id = some above) :
    f.size id < f.size above := by
  obtain ⟨⟨u, found⟩, -⟩ := h.has_of_parent hparent
  obtain ⟨t, ht, -, hnode⟩ := h.child_of_mem found (h.mem_childIds.2 hparent)
  obtain ⟨mark, kind, children⟩ := u
  have below : t.ids.length ≤ (Tree.idsAmong children).length := by
    obtain ⟨before, after, rfl⟩ := List.append_of_mem ht
    simp only [Tree.idsAmong_append, Tree.idsAmong, List.length_append]
    omega
  simp only [size, found, hnode, Option.map_some, Option.getD_some, Tree.ids, List.length_cons]
  omega

/-- There are no more nodes below a node than identifiers were given out. -/
theorem IsSound.size_le (h : f.IsSound) (id : NodeId) : f.size id ≤ f.next := by
  rw [size]
  cases found : f.node? id with
  | none => exact Nat.zero_le _
  | some t =>
    have holds := h.holds_of_node? found
    -- the identifiers are different numbers below `next`
    have distinct : (t.ids.map NodeId.val).Nodup :=
      (h.nodup_of_holds holds).map fun a b same => by
        cases a
        cases b
        exact congrArg NodeId.mk same
    have given : t.ids.map NodeId.val ⊆ List.range f.next := by
      intro n hn
      obtain ⟨id, hid, rfl⟩ := List.mem_map.1 hn
      exact List.mem_range.2 (holds.lt h (List.mem_append_left _ hid))
    have counted := (List.subperm_of_subset distinct given).length_le
    simpa using counted

/-- **No circles.** Nobody is above itself. -/
theorem IsSound.acyclic (h : f.IsSound) (id : NodeId) :
    ¬ Relation.TransGen (fun below above => f.parent? below = some above) id id := by
  have grows : ∀ last, Relation.TransGen (fun below above => f.parent? below = some above) id last →
      f.size id < f.size last := by
    intro last path
    induction path with
    | single hparent => exact h.size_lt hparent
    | tail _ hparent ih => exact Nat.lt_trans ih (h.size_lt hparent)
  exact fun round => Nat.lt_irrefl _ (grows id round)

/-- What is below a node is the node, or its parent is below the node. -/
theorem IsSound.contains_parent (h : f.IsSound) {sought : NodeId} (differ : id ≠ sought) :
    f.contains sought id = (f.parent? id).any (f.contains sought ·) := by
  rw [Bool.eq_iff_iff, Option.any_eq_true]
  simp only [contains, Option.any_eq_true, List.contains_iff_mem]
  constructor
  · rintro ⟨t, found, hid⟩
    obtain ⟨ht, rfl⟩ := h.node?_eq_some.1 found
    obtain ⟨u, hu, rfl⟩ := Tree.mem_ids.1 hid
    obtain rfl | ⟨v, hv, child⟩ := Tree.mem_subtrees_cases t hu
    · exact absurd rfl differ
    · -- the node has this parent in the whole document too
      obtain ⟨holds, hmem⟩ : f.node? v.id = some v ∧ v.id ∈ t.ids := by
        refine ⟨h.node?_eq_some.2 ⟨?_, rfl⟩, Tree.mem_ids.2 ⟨v, hv, rfl⟩⟩
        exact Tree.subtrees_subset_of_memAmong f.trees ht hv
      refine ⟨v.id, h.mem_childIds.1 ?_, t, found, hmem⟩
      rw [childIds_of_node? holds]
      exact List.mem_map_of_mem child
  · rintro ⟨above, hparent, t, found, habove⟩
    obtain ⟨ht, rfl⟩ := h.node?_eq_some.1 found
    obtain ⟨v, hv, rfl⟩ := Tree.mem_ids.1 habove
    have hnode : f.node? v.id = some v :=
      h.node?_eq_some.2 ⟨Tree.subtrees_subset_of_memAmong f.trees ht hv, rfl⟩
    obtain ⟨u, hu, rfl, -⟩ := h.child_of_mem hnode (h.mem_childIds.2 hparent)
    exact ⟨t, found, Tree.mem_ids.2 ⟨u, Tree.children_subset_of_mem t hv hu, rfl⟩⟩

/-- **Upwards.** Whoever climbs from a node comes to an end, and knows then whether the node is
below another. -/
theorem IsSound.climb (h : f.IsSound) {sought : NodeId} (has : f.Has sought) {fuel : Nat}
    (enough : f.next < fuel + f.size id) : f.links.climb sought fuel id =
      some (f.contains sought id) := by
  induction fuel generalizing id with
  | zero =>
    have most := h.size_le id
    omega
  | succ fuel ih =>
    rw [Links.climb]
    by_cases here : id = sought
    · obtain ⟨t, found⟩ := has
      obtain ⟨-, rfl⟩ := h.node?_eq_some.1 found
      simp [here, contains, found, t.id_mem_ids]
    · rw [if_neg here, h.contains_parent here, parent_links]
      cases hparent : f.parent? id with
      | none => rfl
      | some above =>
        have less := h.size_lt hparent
        exact ih (by omega)

/-! ### Downwards -/

/-- **Downwards.** Whoever goes through the children of a node comes to an end, and to what the tree
of the node says. -/
theorem IsSound.read (h : f.IsSound) {descends : Kind → Bool}
    {shape : Kind → List Char → List Char} {out : Tree (Mark ℓ) → List Char}
    (hout : ∀ mark kind children, out (.node mark kind children) =
      shape kind (if descends kind then (children.map out).flatten else []))
    {fuel : Nat} (found : f.node? t.id = some t) (enough : t.ids.length ≤ fuel) :
    f.links.read descends shape fuel t.id = some (out t) := by
  induction fuel generalizing t with
  | zero =>
    obtain ⟨mark, kind, children⟩ := t
    simp [Tree.ids] at enough
  | succ fuel ih =>
    obtain ⟨mark, kind, children⟩ := t
    have hkind : f.kind mark.id = kind := by
      rw [Forest.kind, show f.node? mark.id = _ from found]
      rfl
    have hchildren : f.childIds mark.id = children.map Tree.id := childIds_of_node? found
    have texts : (children.map Tree.id).mapM (f.links.read descends shape fuel) =
        some (children.map out) := by
      have all : ∀ child ∈ children,
          f.links.read descends shape fuel child.id = some (out child) := by
        intro child hchild
        refine ih (h.node?_child found hchild) ?_
        obtain ⟨before, after, rfl⟩ := List.append_of_mem hchild
        simp only [Tree.ids, Tree.idsAmong_append, Tree.idsAmong, List.length_cons,
          List.length_append] at enough
        omega
      clear found enough hchildren
      induction children with
      | nil => rfl
      | cons child rest ih' =>
        obtain ⟨first, later⟩ := List.forall_mem_cons.1 all
        simp [List.mapM_cons, first, ih' later]
    simp only [Links.read, Tree.id_node, kind_links, children_links, hkind, hchildren, texts, hout]
    split <;> rfl

/-- **The text of a node** is read along the links. -/
theorem IsSound.text (h : f.IsSound) (found : f.node? id = some t) {fuel : Nat}
    (enough : f.next < fuel) : f.links.text fuel id = some t.textContent := by
  have most := h.size_le id
  obtain ⟨-, rfl⟩ := h.node?_eq_some.1 found
  rw [size, found, Option.map_some, Option.getD_some] at most
  refine h.read (fun mark kind children => ?_) found (by omega)
  cases kind <;> simp [Tree.textContent, Tree.textContents_eq]

/-- **The markup of a node** is written along the links. -/
theorem IsSound.markup (h : f.IsSound) (found : f.node? id = some t) {fuel : Nat}
    (enough : f.next < fuel) : f.links.markup fuel id = some t.write := by
  have most := h.size_le id
  obtain ⟨-, rfl⟩ := h.node?_eq_some.1 found
  rw [size, found, Option.map_some, Option.getD_some] at most
  refine h.read (fun mark kind children => ?_) found (by omega)
  cases kind with
  | element tag attrs => cases hvoid : isVoid tag <;> simp [Tree.write, Tree.writeAll_eq, hvoid]
  | text data => simp [Tree.write]
  | comment data => simp [Tree.write]
  | fragment => simp [Tree.write, Tree.writeAll_eq]

/-! ### Documents and links -/

/-- Moreover no container has a parent. -/
structure IsProper (f : Forest ℓ) : Prop extends f.IsSound where
  container : ∀ id, f.kind id = .fragment → f.parent? id = none

/-- The links of a proper document are paired. -/
theorem IsProper.paired (h : f.IsProper) : f.links.Paired where
  mem_children _ _ := h.mem_childIds
  container := h.container

/-- **The links are those of a forest.** -/
theorem IsProper.isForest (h : f.IsProper) : f.links.IsForest where
  toPaired := h.paired
  nodup := h.nodup_childIds
  acyclic := h.acyclic

/-- A document with such links; they are determined by the kinds and the children of all nodes. -/
theorem IsSound.relinked (h : f.IsSound) {g : Links} (paired : g.Paired)
    (kind : ∀ id, f.kind id = g.kind id) (children : ∀ id, f.childIds id = g.children id) :
    f.IsProper ∧ f.links = g := by
  have parent : ∀ id, f.parent? id = g.parent id := by
    intro id
    refine Option.ext fun above => ?_
    rw [← paired.mem_children, ← h.mem_childIds, children]
  have proper : f.IsProper := by
    refine ⟨h, fun id hkind => ?_⟩
    rw [parent]
    exact paired.container id ((kind id).symm.trans hkind)
  exact ⟨proper, proper.paired.ext paired kind children⟩

end Forest

end Bindery
