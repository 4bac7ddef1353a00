import Bindery.Proofs.Document.Rows

namespace Bindery

/-!
# Documents as tables

What is known of each node of a document, and what the changes of a document do to that.

* `Forest.entry` — what is known of a node; `Forest.IsSound` — no identifier occurs twice.
* `Forest.Rewrites` — a change of some nodes, which may bring new ones; `Forest.mapKind`,
  `Forest.listen` and `Forest.setTrees` are changes of one.
* `Forest.Holds` — the document has the nodes of some trees, each with these children.
* `Forest.IsSound.node?_of_holds` — such a tree is the one below its root.
* `Forest.Becomes` — a change of some trees into others that leaves everything else.
-/

namespace Forest

variable {ℓ : Type} {f f' f'' : Forest ℓ} {id : NodeId} {t u : Tree (Mark ℓ)}
  {ts ts' : List (Tree (Mark ℓ))}

/-- All nodes with what is known of each. -/
def rows (f : Forest ℓ) : List (NodeId × Entry ℓ) := Tree.rowsAmong f.trees

/-- What is known of a node. -/
def entry (f : Forest ℓ) (id : NodeId) : Option (Entry ℓ) := (f.node? id).map Tree.entry

/-- No identifier occurs twice, and all are given out. -/
structure IsSound (f : Forest ℓ) : Prop where
  distinct : (f.rows.map (·.1)).Nodup
  below : ∀ row ∈ f.rows, row.1.val < f.next

/-- No identifier is that of two nodes. -/
theorem IsSound.nodup (h : f.IsSound) : (Tree.idsAmong f.trees).Nodup := by
  rw [Tree.idsAmong_eq]
  exact h.distinct

/-- The node of an identifier is the only one that bears it. -/
theorem IsSound.node?_eq_some (h : f.IsSound) :
    f.node? id = some t ↔ t ∈ Tree.subtreesAmong f.trees ∧ t.id = id := by
  constructor
  · exact Tree.subAmong?_mem f.trees
  · rintro ⟨hmem, rfl⟩
    exact Tree.subAmong?_of_mem f.trees h.nodup hmem

/-- What is known of a node stands in its row. -/
theorem IsSound.entry_eq_some (h : f.IsSound) {e : Entry ℓ} :
    f.entry id = some e ↔ (id, e) ∈ f.rows := by
  simp only [entry, Option.map_eq_some_iff, h.node?_eq_some, rows, Tree.rowsAmong, List.mem_map,
    Prod.mk.injEq, and_assoc]

/-- Identifiers of nodes were given out. -/
theorem IsSound.lt_of_entry (h : f.IsSound) {e : Entry ℓ} (found : f.entry id = some e) :
    id.val < f.next :=
  h.below _ (h.entry_eq_some.1 found)

/-- The kind of a node is the one in its entry. -/
theorem kind_of_entry {e : Entry ℓ} (found : f.entry id = some e) : f.kind id = e.kind := by
  obtain ⟨u, hu, rfl⟩ := Option.map_eq_some_iff.1 found
  simp [kind, hu, Tree.entry]

/-- What waits for an event is listed in the entry of the node. -/
theorem listeners_of_entry {e : Entry ℓ} (found : f.entry id = some e) (event : String) :
    f.listeners id event = (e.listeners.filter (·.1 = event)).map (·.2) := by
  obtain ⟨u, hu, rfl⟩ := Option.map_eq_some_iff.1 found
  simp [listeners, hu, Tree.entry]

/-! ### Changes of some nodes -/

/-- The document with something else known of some nodes, which may be new. -/
structure Rewrites (f f' : Forest ℓ) (news : List (NodeId × Entry ℓ)) : Prop where
  sound : f'.IsSound
  next_le : f.next ≤ f'.next
  entry : ∀ row ∈ news, f'.entry row.1 = some row.2
  frame : ∀ id ∉ news.map (·.1), id.val < f.next → f'.entry id = f.entry id

/-- A table in which some rows are exchanged and new ones are added. -/
theorem IsSound.rewrites (h : f.IsSound) (olds rest : List (NodeId × Entry ℓ))
    {news : List (NodeId × Entry ℓ)}
    (hrows : f.rows.Perm (olds ++ rest)) (hrows' : f'.rows.Perm (news ++ rest))
    (distinct : (news.map (·.1)).Nodup) (kept : olds.map (·.1) ⊆ news.map (·.1))
    (free : ∀ row ∈ news, row.1 ∈ olds.map (·.1) ∨ f.next ≤ row.1.val)
    (below : ∀ row ∈ news, row.1.val < f'.next) (hnext : f.next ≤ f'.next) :
    f.Rewrites f' news := by
  have before : (olds.map (·.1) ++ rest.map (·.1)).Nodup := by
    rw [← List.map_append]
    exact (hrows.map _).nodup_iff.1 h.distinct
  obtain ⟨-, distinctRest, disjoint⟩ := List.nodup_append.1 before
  -- a new row replaces an old one or has an identifier that was free, so it meets no other row
  have given : ∀ row ∈ rest, row.1.val < f.next := fun row hrow =>
    h.below row (hrows.mem_iff.2 (List.mem_append_right _ hrow))
  have apart : ∀ row ∈ news, ∀ other ∈ rest, row.1 ≠ other.1 := by
    intro row hrow other hother same
    obtain hold | hnew := free row hrow
    · exact disjoint row.1 hold other.1 (List.mem_map_of_mem hother) same
    · rw [same] at hnew
      exact Nat.not_lt.2 hnew (given other hother)
  have sound : f'.IsSound := by
    refine ⟨(hrows'.map _).nodup_iff.2 ?_, fun row hrow => ?_⟩
    · rw [List.map_append]
      refine List.nodup_append.2 ⟨distinct, distinctRest, fun a ha b hb => ?_⟩
      obtain ⟨row, hrow, rfl⟩ := List.mem_map.1 ha
      obtain ⟨other, hother, rfl⟩ := List.mem_map.1 hb
      exact apart row hrow other hother
    · obtain hnew | hold := List.mem_append.1 (hrows'.mem_iff.1 hrow)
      · exact below row hnew
      · exact Nat.lt_of_lt_of_le (given row hold) hnext
  refine ⟨sound, hnext, fun row hrow => ?_, fun id hid hlt => Option.ext fun e => ?_⟩
  · exact sound.entry_eq_some.2 (hrows'.mem_iff.2 (List.mem_append_left _ hrow))
  · -- elsewhere both tables have the rows of `rest`
    have notOld : (id, e) ∉ olds := fun hmem => hid (kept (List.mem_map_of_mem hmem))
    have notNew : (id, e) ∉ news := fun hmem => hid (List.mem_map_of_mem hmem)
    rw [sound.entry_eq_some, h.entry_eq_some, hrows'.mem_iff, hrows.mem_iff, List.mem_append,
      List.mem_append]
    simp [notOld, notNew]

/-- A new node of its own. -/
theorem IsSound.rewrites_plant (h : f.IsSound) (kind : Kind) :
    f.Rewrites (f.plant kind).2 [((f.plant kind).1, ⟨[], kind, []⟩)] := by
  refine h.rewrites [] f.rows (List.Perm.refl _) ?_ (by simp) (by simp)
    (by simp [plant]) (by simp [plant]) (Nat.le_succ _)
  rw [rows, plant, Tree.rowsAmong_append]
  exact List.perm_append_comm

/-- A change of a node on its own. -/
theorem IsSound.rewrites_modifyAt (h : f.IsSound) {g : Tree (Mark ℓ) → Tree (Mark ℓ)}
    {new : Entry ℓ} (hg : ∀ t, (g t).id = t.id) (found : f.node? id = some t)
    (hrows : (g t).rows = (id, new) :: Tree.rowsAmong t.children) :
    f.Rewrites (f.modifyAt id g) [(id, new)] := by
  obtain ⟨hmem, rfl⟩ := h.node?_eq_some.1 found
  obtain ⟨before, after, hbefore, hafter⟩ := Tree.rowsAmong_modifyAmong f.trees h.nodup hmem
  have given : t.id.val < f.next := by
    refine h.below (t.id, t.entry) ?_
    rw [rows, hbefore, t.rows_eq_cons]
    simp
  refine h.rewrites [(t.id, t.entry)] (before ++ Tree.rowsAmong t.children ++ after)
    ?_ ?_ (by simp) (by simp) (by simp) (by simpa [modifyAt] using given) (Nat.le_refl _)
  · rw [rows, hbefore, t.rows_eq_cons, List.append_assoc, List.append_assoc]
    exact List.perm_middle
  · rw [rows, modifyAt, hafter g hg, hrows, List.append_assoc, List.append_assoc]
    exact List.perm_middle

/-- Changing what a node is. -/
theorem IsSound.rewrites_mapKind (h : f.IsSound) {e : Entry ℓ} (found : f.entry id = some e)
    (g : Kind → Kind) : f.Rewrites (f.mapKind id g) [(id, { e with kind := g e.kind })] := by
  obtain ⟨⟨mark, kind, children⟩, hnode, rfl⟩ := Option.map_eq_some_iff.1 found
  obtain ⟨-, rfl⟩ := h.node?_eq_some.1 hnode
  exact h.rewrites_modifyAt (fun t => by cases t; rfl) hnode rfl

/-- Adding a listener. -/
theorem IsSound.rewrites_listen (h : f.IsSound) {e : Entry ℓ} (found : f.entry id = some e)
    (event : String) (listener : ℓ) : f.Rewrites (f.listen id event listener)
      [(id, { e with listeners := e.listeners ++ [(event, listener)] })] := by
  obtain ⟨⟨mark, kind, children⟩, hnode, rfl⟩ := Option.map_eq_some_iff.1 found
  obtain ⟨-, rfl⟩ := h.node?_eq_some.1 hnode
  exact h.rewrites_modifyAt (fun t => by cases t; rfl) hnode rfl

/-- The children of a node that are taken out become roots, in order. -/
theorem takeChildren_of_node? (found : f.node? id = some t) : f.takeChildren id =
    { f with trees := Tree.modifyAmong id (Tree.withChildren []) f.trees ++ t.children } := by
  simp only [takeChildren, found]

/-- What is below a node is not the node. -/
theorem IsSound.notMem_children (h : f.IsSound) (found : f.node? id = some t) :
    id ∉ Tree.idsAmong t.children := by
  obtain ⟨hmem, rfl⟩ := h.node?_eq_some.1 found
  obtain ⟨before, after, hrows, -⟩ := Tree.rowsAmong_modifyAmong f.trees h.nodup hmem
  have distinct := h.distinct
  rw [rows, hrows, List.map_append, List.map_append, ← Tree.ids_eq] at distinct
  have below := (List.nodup_append.1 (List.nodup_append.1 distinct).1).2.1
  cases t
  exact (List.nodup_cons.1 below).1

/-- Taking the children of a node away and putting new ones there is one change of the node. -/
theorem IsSound.setTrees_eq (h : f.IsSound) (found : f.node? id = some t)
    (trees : List (Tree Unit)) : f.setTrees id trees =
      ⟨Tree.modifyAmong id (Tree.withChildren (Tree.identifyAll f.next trees).1) f.trees ++
        t.children, f.next + (Tree.subtreesAmong trees).length⟩ := by
  have once (new : List (Tree (Mark ℓ))) :
      Tree.withChildren new ∘ Tree.withChildren [] = Tree.withChildren (ℓ := ℓ) new := by
    funext t
    cases t
    rfl
  simp only [setTrees, takeChildren_of_node? found, modifyAt, Tree.modifyAmong_append,
    Tree.modifyAmong_modifyAmong (Tree.id_withChildren []), once,
    Tree.modifyAmong_of_notMem _ (h.notMem_children found),
    (Tree.idsAmong_identifyAll (ℓ := ℓ) f.next trees).2]

/-- New trees as the children of a node; those that it had stay, without a parent. -/
theorem IsSound.rewrites_setTrees (h : f.IsSound) {e : Entry ℓ} (found : f.entry id = some e)
    (trees : List (Tree Unit)) : f.Rewrites (f.setTrees id trees)
      ((id, { e with children := (Tree.identifyAll (ℓ := ℓ) f.next trees).1.map Tree.id }) ::
        Tree.rowsAmong (Tree.identifyAll f.next trees).1) := by
  obtain ⟨t, hnode, rfl⟩ := Option.map_eq_some_iff.1 found
  obtain ⟨hmem, rfl⟩ := h.node?_eq_some.1 hnode
  obtain ⟨before, after, hbefore, hafter⟩ := Tree.rowsAmong_modifyAmong f.trees h.nodup hmem
  obtain ⟨distinct, fresh⟩ := Tree.rowsAmong_identifyAll (ℓ := ℓ) f.next trees
  have given : t.id.val < f.next := h.lt_of_entry found
  rw [h.setTrees_eq hnode]
  refine h.rewrites [(t.id, t.entry)] (before ++ Tree.rowsAmong t.children ++ after)
    ?_ ?_ ?_ (by simp) ?_ ?_ (Nat.le_add_right _ _)
  · rw [rows, hbefore, t.rows_eq_cons, List.append_assoc, List.append_assoc]
    exact List.perm_middle
  · rw [rows, Tree.rowsAmong_append, hafter _ (Tree.id_withChildren _), Tree.rows_withChildren]
    -- the same rows in another order: each occurs as often on both sides
    classical
    refine List.perm_iff_count.2 fun row => ?_
    simp only [List.count_append, List.count_cons]
    omega
  · -- the node itself was there before
    rw [List.map_cons, List.nodup_cons]
    refine ⟨fun hmem => ?_, distinct⟩
    obtain ⟨row, hrow, hsame⟩ := List.mem_map.1 hmem
    have new := (fresh row hrow).1
    simp only at hsame
    rw [hsame] at new
    omega
  · exact List.forall_mem_cons.2 ⟨.inl (by simp), fun row hrow => .inr (fresh row hrow).1⟩
  · refine List.forall_mem_cons.2 ⟨?_, fun row hrow => (fresh row hrow).2⟩
    exact Nat.lt_of_lt_of_le given (Nat.le_add_right _ _)

/-! ### Trees in a document -/

/-- The nodes of a row of trees are there, each with its listeners, its kind and its children. -/
def Holds (f : Forest ℓ) (ts : List (Tree (Mark ℓ))) : Prop :=
  ∀ row ∈ Tree.rowsAmong ts, f.entry row.1 = some row.2

@[simp] theorem holds_nil (f : Forest ℓ) : f.Holds [] := fun _ h => nomatch h

theorem holds_cons : f.Holds (t :: ts) ↔ f.Holds [t] ∧ f.Holds ts := by
  simp [Holds, or_imp, forall_and]

/-- A forest holds a tree if its root is there with these children, and the forest holds them. -/
theorem holds_node {mark : Mark ℓ} {kind : Kind} : f.Holds [.node mark kind ts] ↔
    f.entry mark.id = some ⟨mark.listeners, kind, ts.map Tree.id⟩ ∧ f.Holds ts := by
  simp [Holds, Tree.rows_node]

/-- Trees stay as long as nothing else gets known of their nodes. -/
theorem Holds.congr (h : f.Holds ts) (same : ∀ id ∈ Tree.idsAmong ts, f'.entry id = f.entry id) :
    f'.Holds ts := by
  intro row hrow
  rw [← h row hrow]
  refine same row.1 ?_
  rw [Tree.idsAmong_eq]
  exact List.mem_map_of_mem hrow

/-- The identifiers of trees that a forest holds were given out. -/
theorem Holds.lt (h : f.Holds ts) (sound : f.IsSound) {id : NodeId}
    (hid : id ∈ Tree.idsAmong ts) : id.val < f.next := by
  rw [Tree.idsAmong_eq, List.mem_map] at hid
  obtain ⟨row, hrow, rfl⟩ := hid
  exact sound.lt_of_entry (h row hrow)

/-- The tree below a node is there. -/
theorem IsSound.holds_of_node? (h : f.IsSound) (found : f.node? id = some t) : f.Holds [t] := by
  intro row hrow
  obtain ⟨hmem, rfl⟩ := h.node?_eq_some.1 found
  obtain ⟨before, after, hrows, -⟩ := Tree.rowsAmong_modifyAmong f.trees h.nodup hmem
  rw [Tree.rowsAmong_cons, Tree.rowsAmong_nil, List.append_nil] at hrow
  refine h.entry_eq_some.2 ?_
  rw [rows, hrows]
  exact List.mem_append_left _ (List.mem_append_right _ hrow)

mutual

/-- Two nodes with one identifier are one node, with everything below it. -/
theorem IsSound.eq_of_holds (h : f.IsSound) : ∀ t : Tree (Mark ℓ), f.Holds [t] →
    ∀ u ∈ Tree.subtreesAmong f.trees, u.id = t.id → u = t
  | .node mark kind children, hholds, u, hu, same => by
    -- the row of the node says the same of both; by induction the children it names are the same
    obtain ⟨hentry, hchildren⟩ := holds_node.1 hholds
    have hnode : f.node? mark.id = some u := h.node?_eq_some.2 ⟨hu, same⟩
    rw [entry, hnode, Option.map_some, Option.some.injEq] at hentry
    obtain ⟨mark', kind', children'⟩ := u
    obtain ⟨id', listeners'⟩ := mark'
    simp only [Tree.entry, Tree.label_node, Tree.kind_node, Tree.childIds, Tree.children_node,
      Entry.mk.injEq] at hentry
    obtain ⟨rfl, rfl, hids⟩ := hentry
    have inside : children' ⊆ Tree.subtreesAmong f.trees :=
      Tree.children_subset_of_memAmong f.trees hu
    rw [h.all_eq_of_holds children hchildren children' inside hids]
    cases (show id' = mark.id from same)
    rfl

/-- Of rows of trees with the same roots a forest holds one only. -/
theorem IsSound.all_eq_of_holds (h : f.IsSound) : ∀ ts : List (Tree (Mark ℓ)), f.Holds ts →
    ∀ us ⊆ Tree.subtreesAmong f.trees, us.map Tree.id = ts.map Tree.id → us = ts
  | [], _, us, _, same => List.map_eq_nil_iff.1 same
  | t :: rest, hholds, us, hus, same => by
    obtain ⟨hfirst, hrest⟩ := holds_cons.1 hholds
    obtain ⟨u, us, rfl, hid, hids⟩ := List.map_eq_cons_iff.1 same
    obtain ⟨hu, hus⟩ := List.cons_subset.1 hus
    rw [h.eq_of_holds t hfirst u hu hid, h.all_eq_of_holds rest hrest us hus hids]

end

/-- **What is there is found.** -/
theorem IsSound.node?_of_holds (h : f.IsSound) (hholds : f.Holds [t]) : f.node? t.id = some t := by
  obtain ⟨mark, kind, children⟩ := t
  obtain ⟨hentry, -⟩ := holds_node.1 hholds
  obtain ⟨u, hnode, -⟩ := Option.map_eq_some_iff.1 hentry
  obtain ⟨hu, same⟩ := h.node?_eq_some.1 hnode
  rw [← h.eq_of_holds _ hholds u hu same]
  exact same ▸ hnode

/-- A tree that a forest holds has different nodes. -/
theorem IsSound.nodup_of_holds (h : f.IsSound) (hholds : f.Holds [t]) : t.ids.Nodup := by
  obtain ⟨hmem, -⟩ := h.node?_eq_some.1 (h.node?_of_holds hholds)
  obtain ⟨before, after, hrows, -⟩ := Tree.rowsAmong_modifyAmong f.trees h.nodup hmem
  have distinct := h.distinct
  rw [rows, hrows, List.map_append, List.map_append, ← Tree.ids_eq] at distinct
  exact (List.nodup_append.1 (List.nodup_append.1 distinct).1).2.1

/-- A node is not below itself. -/
theorem IsSound.root_notMem {mark : Mark ℓ} {kind : Kind} (h : f.IsSound)
    (hholds : f.Holds [.node mark kind ts]) : mark.id ∉ Tree.idsAmong ts :=
  (List.nodup_cons.1 (h.nodup_of_holds hholds)).1

/-! ### Changes of trees -/

/-- A change of some trees into others: these have the same roots and otherwise nodes of the old
ones and new nodes, and nothing else that was there changes. -/
structure Becomes (f f' : Forest ℓ) (ts ts' : List (Tree (Mark ℓ))) : Prop where
  sound : f'.IsSound
  next_le : f.next ≤ f'.next
  holds : f'.Holds ts'
  roots : ts'.map Tree.id = ts.map Tree.id
  ids : ∀ id ∈ Tree.idsAmong ts', id ∈ Tree.idsAmong ts ∨ f.next ≤ id.val
  frame : ∀ id ∉ Tree.idsAmong ts, id.val < f.next → f'.entry id = f.entry id

/-- If nothing happens, trees become what they are. -/
theorem IsSound.becomes_refl (h : f.IsSound) (hholds : f.Holds ts) : f.Becomes f ts ts where
  sound := h
  next_le := Nat.le_refl _
  holds := hholds
  roots := rfl
  ids _ hid := .inl hid
  frame _ _ _ := rfl

/-- Two changes of trees, one after the other, are a change of them. -/
theorem Becomes.trans {ts'' : List (Tree (Mark ℓ))} (h : f.Becomes f' ts ts')
    (h' : f'.Becomes f'' ts' ts'') : f.Becomes f'' ts ts'' where
  sound := h'.sound
  next_le := Nat.le_trans h.next_le h'.next_le
  holds := h'.holds
  roots := h'.roots.trans h.roots
  ids id hid := by
    obtain hold | hnew := h'.ids id hid
    · exact h.ids id hold
    · exact .inr (Nat.le_trans h.next_le hnew)
  frame id hid hlt := by
    -- a node elsewhere was there before, so it has not become one of the trees in between
    have elsewhere : id ∉ Tree.idsAmong ts' := fun hmem =>
      (h.ids id hmem).elim hid (Nat.not_le.2 hlt)
    rw [h'.frame id elsewhere (Nat.lt_of_lt_of_le hlt h.next_le), h.frame id hid hlt]

/-- A tree that has become itself is there as it was, and so is every node. -/
theorem Becomes.restored (h : f.Becomes f' [t] [t]) (sound : f.IsSound)
    (found : f.node? t.id = some t) :
    f'.node? t.id = some t ∧ ∀ id, id.val < f.next → f'.entry id = f.entry id := by
  refine ⟨h.sound.node?_of_holds h.holds, fun id lt => ?_⟩
  by_cases hid : id ∈ Tree.idsAmong [t]
  · rw [Tree.idsAmong_eq] at hid
    obtain ⟨row, hrow, rfl⟩ := List.mem_map.1 hid
    rw [h.holds row hrow, sound.holds_of_node? found row hrow]
  · exact h.frame id hid lt

/-- **Side by side.** Trees change one after another. -/
theorem Becomes.cons {t' : Tree (Mark ℓ)} (sound : f.IsSound) (hholds : f.Holds (t :: ts))
    (distinct : (Tree.idsAmong (t :: ts)).Nodup) (h : f.Becomes f' [t] [t'])
    (h' : f'.Becomes f'' ts ts') : f.Becomes f'' (t :: ts) (t' :: ts') := by
  obtain ⟨-, -, disjoint⟩ := List.nodup_append.1 distinct
  have single (u : Tree (Mark ℓ)) := Tree.idsAmong_singleton u
  -- the rest is not touched by the first change
  have later : ∀ id ∈ t'.ids, id ∉ Tree.idsAmong ts := by
    intro id hid hrest
    obtain hold | hnew := h.ids id (single t' ▸ hid)
    · exact disjoint id (single t ▸ hold) id hrest rfl
    · exact Nat.not_lt.2 hnew ((holds_cons.1 hholds).2.lt sound hrest)
  refine ⟨h'.sound, Nat.le_trans h.next_le h'.next_le, holds_cons.2 ⟨?_, h'.holds⟩, ?_, ?_, ?_⟩
  · refine h.holds.congr fun id hid => h'.frame id (later id (single t' ▸ hid)) ?_
    exact h.holds.lt h.sound hid
  · have hroot := h.roots
    simp only [List.map_cons, List.map_nil] at hroot
    simp only [List.map_cons, h'.roots, List.cons.inj hroot]
  · intro id hid
    obtain hfirst | hrest := List.mem_append.1 hid
    · exact (h.ids id (single t' ▸ hfirst)).imp_left fun hold =>
        List.mem_append_left _ (single t ▸ hold)
    · exact (h'.ids id hrest).imp (List.mem_append_right _) (Nat.le_trans h.next_le)
  · intro id hid hlt
    rw [Tree.idsAmong, List.mem_append, not_or] at hid
    rw [h'.frame id hid.2 (Nat.lt_of_lt_of_le hlt h.next_le),
      h.frame id (fun hmem => hid.1 (single t ▸ hmem)) hlt]

/-- **Inside.** A change of the children is one of the tree. -/
theorem Becomes.node {mark : Mark ℓ} {kind : Kind} (sound : f.IsSound)
    (hholds : f.Holds [.node mark kind ts]) (h : f.Becomes f' ts ts') :
    f.Becomes f' [.node mark kind ts] [.node mark kind ts'] := by
  obtain ⟨hentry, -⟩ := holds_node.1 hholds
  refine ⟨h.sound, h.next_le, holds_node.2 ⟨?_, h.holds⟩, rfl, fun id hid => ?_,
    fun id hid hlt => ?_⟩
  · rw [h.frame _ (sound.root_notMem hholds) (sound.lt_of_entry hentry), hentry, h.roots]
  · rw [Tree.idsAmong_singleton, Tree.ids] at hid ⊢
    obtain rfl | hid := List.mem_cons.1 hid
    · exact .inl List.mem_cons_self
    · exact (h.ids id hid).imp_left (List.mem_cons_of_mem _)
  · rw [Tree.idsAmong_singleton, Tree.ids, List.mem_cons, not_or] at hid
    exact h.frame id hid.2 hlt

/-- A change of a node that keeps its children. -/
theorem Rewrites.becomes {mark : Mark ℓ} {kind kind' : Kind} {listeners : List (String × ℓ)}
    (sound : f.IsSound) (hholds : f.Holds [.node mark kind ts])
    (h : f.Rewrites f' [(mark.id, ⟨listeners, kind', ts.map Tree.id⟩)]) :
    f.Becomes f' [.node mark kind ts] [.node ⟨mark.id, listeners⟩ kind' ts] := by
  obtain ⟨-, hchildren⟩ := holds_node.1 hholds
  refine ⟨h.sound, h.next_le, holds_node.2 ⟨h.entry _ List.mem_cons_self, ?_⟩, rfl,
    fun id hid => .inl ?_, fun id hid hlt => ?_⟩
  · refine hchildren.congr fun id hid => h.frame id (fun hmem => ?_) (hchildren.lt sound hid)
    obtain rfl : id = mark.id := List.mem_singleton.1 hmem
    exact sound.root_notMem hholds hid
  · rw [Tree.idsAmong_singleton, Tree.ids] at hid ⊢
    exact hid
  · rw [Tree.idsAmong_singleton, Tree.ids, List.mem_cons, not_or] at hid
    exact h.frame id (by simpa using hid.1) hlt

/-- A change of a node that gives it new children. -/
theorem Rewrites.becomes_fresh {mark : Mark ℓ} {kind kind' : Kind} {listeners : List (String × ℓ)}
    {new : List (Tree (Mark ℓ))}
    (h : f.Rewrites f' ((mark.id, ⟨listeners, kind', new.map Tree.id⟩) :: Tree.rowsAmong new))
    (free : ∀ id ∈ Tree.idsAmong new, f.next ≤ id.val) :
    f.Becomes f' [.node mark kind ts] [.node ⟨mark.id, listeners⟩ kind' new] := by
  obtain ⟨hroot, hnew⟩ := List.forall_mem_cons.1 h.entry
  refine ⟨h.sound, h.next_le, holds_node.2 ⟨hroot, hnew⟩, rfl, fun id hid => ?_,
    fun id hid hlt => h.frame id ?_ hlt⟩
  · rw [Tree.idsAmong_singleton, Tree.ids] at hid ⊢
    obtain rfl | hid := List.mem_cons.1 hid
    · exact .inl List.mem_cons_self
    · exact .inr (free id hid)
  · rw [Tree.idsAmong_singleton, Tree.ids, List.mem_cons, not_or] at hid
    rw [List.map_cons, List.mem_cons, ← Tree.idsAmong_eq, not_or]
    exact ⟨hid.1, fun hmem => Nat.not_lt.2 (free id hmem) hlt⟩

end Forest

end Bindery
