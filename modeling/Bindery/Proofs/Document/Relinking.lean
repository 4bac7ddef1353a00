import Bindery.Proofs.Document.Linked
import Bindery.Proofs.Document.Staging

namespace Bindery

/-!
# What moves do to links

What is done to a document is done to the links of its nodes one by one, and that comes to an end.

* `Tree.prune_eq_modifyAmong` — taking a tree away is a change of its parent.
* `Forest.Relinks` — a document that came about from another while links changed to these.
* `Forest.Rewrites.relinks` — so it is if one node changed, and its links alike.
* `Forest.IsProper.relinks_plant`, `relinks_takeChildren`, `relinks_detach`, … — each operation.
* `Forest.IsProper.relinks_append` — a container is appended child by child.
-/

namespace Tree

variable {ℓ : Type} {t u child : Tree (Mark ℓ)} {ts : List (Tree (Mark ℓ))}

/-- The tree without one of its children. -/
def dropChild (gone : NodeId) (t : Tree (Mark ℓ)) : Tree (Mark ℓ) :=
  t.withChildren (t.children.filter (·.id ≠ gone))

/-- A node that is not in a tree cannot be removed from it. -/
theorem pruneBelow_of_elsewhere {gone : NodeId} (elsewhere : gone ∉ t.ids) :
    pruneBelow (· = gone) t = t :=
  pruneBelow_of_forall t fun _ hid => decide_eq_false fun same => elsewhere (same ▸ hid)

/-- Taking a root away from a row of trees. -/
theorem prune_eq_filter : ∀ ts : List (Tree (Mark ℓ)), (idsAmong ts).Nodup → child ∈ ts →
    prune (· = child.id) ts = ts.filter (·.id ≠ child.id)
  | t :: rest, distinct, h => by
    obtain ⟨-, distinct', apart⟩ := List.nodup_append.1 distinct
    obtain rfl | later := List.mem_cons.1 h
    · have elsewhere : child.id ∉ idsAmong rest := fun hmem => apart _ child.id_mem_ids _ hmem rfl
      have stays : ∀ u ∈ rest, u.id ≠ child.id := by
        rintro u hu same
        refine elsewhere (mem_idsAmong.2 ⟨u, subset_subtreesAmong rest hu, same⟩)
      have kept : rest.filter (·.id ≠ child.id) = rest :=
        List.filter_eq_self.2 fun u hu => decide_eq_true (stays u hu)
      rw [prune, prune_of_elsewhere elsewhere, List.filter_cons, kept]
      simp
    · have inside : child.id ∈ idsAmong rest :=
        mem_idsAmong.2 ⟨child, subset_subtreesAmong rest later, rfl⟩
      have elsewhere : child.id ∉ t.ids := fun hmem => apart _ hmem _ inside rfl
      have differ : t.id ≠ child.id := fun same => elsewhere (same ▸ t.id_mem_ids)
      rw [prune, pruneBelow_of_elsewhere elsewhere, prune_eq_filter rest distinct' later]
      simp [differ]

/-- A child of a node of a tree is not the root. -/
theorem mem_below (h : u ∈ t.subtrees) (hchild : child ∈ u.children) :
    child ∈ subtreesAmong t.children := by
  obtain ⟨mark, kind, children⟩ := t
  obtain rfl | inside := List.mem_cons.1 h
  · exact subset_subtreesAmong _ hchild
  · exact children_subset_of_memAmong _ inside hchild

mutual

/-- Removing a child is a change at its parent only. -/
theorem pruneBelow_eq_modifyAt : ∀ t : Tree (Mark ℓ), t.ids.Nodup → u ∈ t.subtrees →
    child ∈ u.children → pruneBelow (· = child.id) t = modifyAt u.id (dropChild child.id) t
  | node mark kind children, distinct, h, hchild => by
    obtain ⟨fresh, distinct'⟩ := List.nodup_cons.1 distinct
    obtain rfl | inside := List.mem_cons.1 h
    · rw [pruneBelow, modifyAt, id_node, if_pos rfl, prune_eq_filter children distinct' hchild]
      rfl
    · have differ : mark.id ≠ u.id := fun same => fresh (mem_idsAmong.2 ⟨u, inside, same.symm⟩)
      rw [pruneBelow, modifyAt, if_neg differ,
        prune_eq_modifyAmong children distinct' inside hchild]

/-- **Taking a child away** changes its parent, and nothing else. -/
theorem prune_eq_modifyAmong : ∀ ts : List (Tree (Mark ℓ)), (idsAmong ts).Nodup →
    u ∈ subtreesAmong ts → child ∈ u.children →
    prune (· = child.id) ts = modifyAmong u.id (dropChild child.id) ts
  | t :: rest, distinct, h, hchild => by
    obtain ⟨distinctT, distinctRest, apart⟩ := List.nodup_append.1 distinct
    obtain first | later := List.mem_append.1 h
    · have inside : child ∈ t.subtrees := children_subset_of_mem t first hchild
      have elsewhere : child.id ∉ idsAmong rest := fun hmem =>
        apart _ (mem_ids.2 ⟨child, inside, rfl⟩) _ hmem rfl
      have elsewhere' : u.id ∉ idsAmong rest := fun hmem =>
        apart _ (mem_ids.2 ⟨u, first, rfl⟩) _ hmem rfl
      have differ : t.id ≠ child.id := by
        intro same
        obtain ⟨mark, kind, children⟩ := t
        refine (List.nodup_cons.1 distinctT).1 (mem_idsAmong.2 ⟨child, ?_, same.symm⟩)
        exact mem_below first hchild
      rw [prune, if_neg (by simpa using differ), modifyAmong,
        pruneBelow_eq_modifyAt t distinctT first hchild, modifyAmong_of_notMem rest elsewhere',
        prune_of_elsewhere elsewhere]
    · have inside : child ∈ subtreesAmong rest := children_subset_of_memAmong rest later hchild
      have elsewhere : child.id ∉ t.ids := fun hmem =>
        apart _ hmem _ (mem_idsAmong.2 ⟨child, inside, rfl⟩) rfl
      have elsewhere' : u.id ∉ t.ids := fun hmem =>
        apart _ hmem _ (mem_idsAmong.2 ⟨u, later, rfl⟩) rfl
      have differ : t.id ≠ child.id := fun same => elsewhere (same ▸ t.id_mem_ids)
      rw [prune, if_neg (by simpa using differ), modifyAmong, modifyAt_of_notMem t elsewhere',
        pruneBelow_of_elsewhere elsewhere,
        prune_eq_modifyAmong rest distinctRest later hchild]

end

theorem subtreesAmong_append (ts us : List (Tree (Mark ℓ))) :
    subtreesAmong (ts ++ us) = subtreesAmong ts ++ subtreesAmong us := by
  induction ts with
  | nil => rfl
  | cons t rest ih => simp [subtreesAmong, ih]

/-- The order of trees does not matter for which entries there are. -/
theorem rowsAmong_perm {us : List (Tree (Mark ℓ))} (h : ts.Perm us) :
    (rowsAmong ts).Perm (rowsAmong us) := by
  have flat (ts : List (Tree (Mark ℓ))) : rowsAmong ts = ts.flatMap rows := by
    induction ts with
    | nil => rfl
    | cons t rest ih => rw [rowsAmong_cons, List.flatMap_cons, ih]
  rw [flat, flat]
  exact h.flatMap_right rows

/-- One tree of a row, and the others. -/
theorem perm_filter (distinct : (ts.map id).Nodup) (h : t ∈ ts) :
    ts.Perm (t :: ts.filter (·.id ≠ t.id)) := by
  obtain ⟨before, after, rfl⟩ := List.append_of_mem h
  rw [List.map_append, List.map_cons] at distinct
  obtain ⟨-, distinctAfter, apart⟩ := List.nodup_append.1 distinct
  have keepBefore : before.filter (·.id ≠ t.id) = before :=
    List.filter_eq_self.2 fun u hu => decide_eq_true
      (apart _ (List.mem_map_of_mem hu) _ List.mem_cons_self)
  have keepAfter : after.filter (·.id ≠ t.id) = after :=
    List.filter_eq_self.2 fun u hu => decide_eq_true fun same =>
      (List.nodup_cons.1 distinctAfter).1 (same ▸ List.mem_map_of_mem hu)
  rw [List.filter_append, List.filter_cons, keepBefore, keepAfter]
  simp [List.perm_middle]

end Tree

namespace Forest

variable {ℓ : Type} {f f' f'' : Forest ℓ} {id above child target : NodeId} {t u : Tree (Mark ℓ)}
  {e : Entry ℓ} {g g' : Links} {news : List (NodeId × Entry ℓ)}

/-- A change of a document that brings these links; the nodes that were there stay. -/
structure Relinks (f f' : Forest ℓ) (g : Links) : Prop where
  proper : f'.IsProper
  links : f'.links = g
  next_le : f.next ≤ f'.next
  has : ∀ id, f.Has id → f'.Has id

/-- A proper document has the links that are read from it. -/
theorem IsProper.relinks (h : f.IsProper) : f.Relinks f f.links :=
  ⟨h, rfl, Nat.le_refl _, fun _ has => has⟩

/-- Changes of links follow one another. -/
theorem Relinks.trans (h : f.Relinks f' g) (h' : f'.Relinks f'' g') : f.Relinks f'' g' where
  proper := h'.proper
  links := h'.links
  next_le := Nat.le_trans h.next_le h'.next_le
  has id has := h'.has id (h.has id has)

/-- Rewriting entries takes no node away. -/
theorem Rewrites.has (h : f.Rewrites f' news) (sound : f.IsSound) (has : f.Has id) : f'.Has id := by
  obtain ⟨e, hentry⟩ := has_iff_entry.1 has
  rw [has_iff_entry]
  by_cases changed : id ∈ news.map (·.1)
  · obtain ⟨row, hrow, rfl⟩ := List.mem_map.1 changed
    exact ⟨row.2, h.entry row hrow⟩
  · exact ⟨e, (h.frame id changed (sound.lt_of_entry hentry)).trans hentry⟩

/-- Identifiers that were not given out have no entry. -/
theorem IsSound.entry_of_le (h : f.IsSound) (le : f.next ≤ id.val) : f.entry id = none :=
  Option.eq_none_iff_forall_ne_some.2 fun _ found => Nat.not_lt.2 le (h.lt_of_entry found)

/-- If no identifiers are given out, nothing is known of further nodes. -/
theorem Rewrites.entry_of_notMem (h : f.Rewrites f' news) (sound : f.IsSound)
    (same : f'.next = f.next) (elsewhere : id ∉ news.map (·.1)) : f'.entry id = f.entry id := by
  by_cases given : id.val < f.next
  · exact h.frame id elsewhere given
  · have free := Nat.le_of_not_lt given
    rw [sound.entry_of_le free, h.sound.entry_of_le (same ▸ free)]

/-- A change of one node that is the same change of the links. -/
theorem Rewrites.relinks (h : f.Rewrites f' [(id, e)]) (sound : f.IsSound)
    (same : f'.next = f.next) (paired : g.Paired)
    (kind : ∀ other, g.kind other = if other = id then e.kind else f.kind other)
    (children : ∀ other, g.children other = if other = id then e.children else f.childIds other) :
    f.Relinks f' g := by
  have entry : ∀ other, f'.entry other = if other = id then some e else f.entry other := by
    intro other
    split
    · next this =>
      rw [this]
      exact h.entry (id, e) List.mem_cons_self
    · next differ => exact h.entry_of_notMem sound same (by simpa using differ)
  have relinked := h.sound.relinked paired (fun other => ?_) fun other => ?_
  · exact ⟨relinked.1, relinked.2, h.next_le, fun _ has => h.has sound has⟩
  · rw [kind, kind_eq, kind_eq, entry]
    split <;> rfl
  · rw [children, childIds_eq, childIds_eq, entry]
    split <;> rfl

/-! ### Single nodes -/

/-- The document with one more node of its own. -/
def add (id : NodeId) (kind : Kind) (f : Forest ℓ) : Forest ℓ :=
  { f with trees := f.trees ++ [.node ⟨id, []⟩ kind []] }

/-- A node is added under an identifier that is free. -/
theorem IsSound.rewrites_add (h : f.IsSound) (free : ¬ f.Has id) (given : id.val < f.next)
    (kind : Kind) : f.Rewrites (f.add id kind) [(id, ⟨[], kind, []⟩)] := by
  have rows : (f.add id kind).rows = f.rows ++ [(id, ⟨[], kind, []⟩)] := by
    rw [Forest.rows, add, Tree.rowsAmong_append]
    rfl
  have fresh : ∀ e, (id, e) ∉ f.rows := fun e hrow =>
    free (has_iff_entry.2 ⟨e, h.entry_eq_some.2 hrow⟩)
  have sound : (f.add id kind).IsSound := by
    refine ⟨?_, fun row hrow => ?_⟩
    · rw [rows, List.map_append]
      refine List.nodup_append.2 ⟨h.distinct, List.nodup_singleton _, ?_⟩
      rintro a ha b hb rfl
      obtain ⟨⟨_, e⟩, hrow, rfl⟩ := List.mem_map.1 ha
      cases List.mem_singleton.1 hb
      exact fresh e hrow
    · rw [rows] at hrow
      obtain before | new := List.mem_append.1 hrow
      · exact h.below row before
      · cases List.mem_singleton.1 new
        exact given
  refine ⟨sound, Nat.le_refl _, fun row hrow => ?_, fun other differ _ => Option.ext fun e => ?_⟩
  · cases List.mem_singleton.1 hrow
    exact sound.entry_eq_some.2 (rows ▸ List.mem_append_right _ List.mem_cons_self)
  · have differ' : other ≠ id := by simpa using differ
    rw [sound.entry_eq_some, h.entry_eq_some, rows]
    simp [differ']

/-- What is not there has no parent. -/
theorem parent?_of_not_has (h : f.IsSound) (free : ¬ f.Has id) : f.parent? id = none :=
  Option.eq_none_iff_forall_ne_some.2 fun _ hparent => free (h.has_of_parent hparent).2

theorem childIds_of_not_has (free : ¬ f.Has id) : f.childIds id = [] := by
  cases found : f.node? id with
  | none => simp [childIds, found]
  | some t => exact absurd ⟨t, found⟩ free

/-- **A new node.** -/
theorem IsProper.relinks_add (h : f.IsProper) (free : ¬ f.Has id) (given : id.val < f.next)
    (kind : Kind) : f.Relinks (f.add id kind) (f.links.create id kind) := by
  have paired :=
    h.paired.create (parent?_of_not_has h.toIsSound free) (childIds_of_not_has free) kind
  refine (h.rewrites_add free given kind).relinks h.toIsSound rfl paired
    (fun other => ?_) fun other => ?_
  · simp only [Links.create, Function.update_apply, kind_links]
  · simp only [Links.create, Function.update_apply, children_links]

/-- Identifiers may be given out without a use. -/
theorem IsProper.relinks_next (h : f.IsProper) {next : Nat} (le : f.next ≤ next) :
    f.Relinks { f with next } f.links where
  proper := ⟨⟨h.distinct, fun row hrow => Nat.lt_of_lt_of_le (h.below row hrow) le⟩, h.container⟩
  links := rfl
  next_le := le
  has _ has := has

/-- The next identifiers are those of no node. -/
theorem IsSound.not_has_next (h : f.IsSound) {n : Nat} (le : f.next ≤ n) : ¬ f.Has ⟨n⟩ := by
  intro has
  obtain ⟨e, hentry⟩ := has_iff_entry.1 has
  exact Nat.not_lt.2 le (h.lt_of_entry hentry)

theorem IsProper.relinks_plant (h : f.IsProper) (kind : Kind) :
    f.Relinks (f.plant kind).2 (f.links.create ⟨f.next⟩ kind) := by
  have later := h.relinks_next (Nat.le_succ f.next)
  exact later.trans (later.proper.relinks_add (h.not_has_next (Nat.le_refl _)) (Nat.lt_succ_self _)
    kind)

/-- Changing a kind changes it among the links. -/
theorem IsProper.relinks_mapKind (h : f.IsProper) (has : f.Has id) {change : Kind → Kind}
    (same : ∀ kind, change kind = .fragment → kind = .fragment) :
    f.Relinks (f.mapKind id change) (f.links.mapKind id change) := by
  obtain ⟨e, hentry⟩ := has_iff_entry.1 has
  refine (h.rewrites_mapKind hentry change).relinks h.toIsSound rfl (h.paired.mapKind same)
    (fun other => ?_) fun other => ?_
  · simp only [Links.mapKind, Function.update_apply, kind_links, kind_of_entry hentry]
  · split
    · next this => rw [this, Links.mapKind, children_links, childIds_eq, hentry]; rfl
    · rfl

theorem IsProper.relinks_listen (h : f.IsProper) (has : f.Has id) (event : String) (listener : ℓ) :
    f.Relinks (f.listen id event listener) f.links := by
  obtain ⟨e, hentry⟩ := has_iff_entry.1 has
  refine (h.rewrites_listen hentry event listener).relinks h.toIsSound rfl h.paired
    (fun other => ?_) fun other => ?_
  · split
    · next this => rw [this, kind_links, kind_of_entry hentry]
    · rfl
  · split
    · next this => rw [this, children_links, childIds_eq, hentry]; rfl
    · rfl

/-! ### Taking nodes away -/

@[simp] theorem next_takeChildren (f : Forest ℓ) (id : NodeId) :
    (f.takeChildren id).next = f.next := by
  rw [takeChildren]
  split <;> rfl

/-- Taking out children empties one entry. -/
theorem IsSound.rewrites_takeChildren (h : f.IsSound) (hentry : f.entry id = some e) :
    f.Rewrites (f.takeChildren id) [(id, { e with children := [] })] := by
  obtain ⟨t, found, rfl⟩ := Option.map_eq_some_iff.1 hentry
  obtain ⟨before, after, trees, hrows, htaken, taken, -⟩ := h.exists_taken found
  obtain ⟨-, rfl⟩ := h.node?_eq_some.1 found
  rw [htaken]
  refine h.rewrites [(t.id, t.entry)] (before ++ after ++ Tree.rowsAmong t.children)
    ?_ ?_ (by simp) (by simp) (by simp) (by simpa using h.lt_of_entry hentry) (Nat.le_refl _)
  · classical
    refine List.perm_iff_count.2 fun row => ?_
    rw [hrows, t.rows_eq_cons]
    simp only [List.count_append, List.count_cons, List.count_nil]
    omega
  · classical
    refine List.perm_iff_count.2 fun row => ?_
    rw [rows, Tree.rowsAmong_append, taken]
    simp only [List.count_append, List.count_cons, List.count_nil]
    omega

/-- **Taking all children away.** -/
theorem IsProper.relinks_takeChildren (h : f.IsProper) (has : f.Has id) :
    f.Relinks (f.takeChildren id) (f.links.takeChildren id) := by
  obtain ⟨e, hentry⟩ := has_iff_entry.1 has
  refine (h.rewrites_takeChildren hentry).relinks h.toIsSound (next_takeChildren f id)
    (h.paired.takeChildren id)
    (fun other => ?_) fun other => ?_
  · split
    · next this => rw [this, ← kind_of_entry hentry]; rfl
    · rfl
  · simp only [Links.takeChildren, Function.update_apply, children_links]

/-- The document with a node among the roots. -/
def free (t : Tree (Mark ℓ)) (f : Forest ℓ) : Forest ℓ :=
  { f with trees := Tree.prune (· = t.id) f.trees ++ [t] }

/-- Its parent has one child less. -/
theorem IsSound.rewrites_free (h : f.IsSound) (found : f.node? t.id = some t)
    (hparent : f.parent? t.id = some above) (hentry : f.entry above = some e) :
    f.Rewrites (f.free t) [(above, { e with children := e.children.filter (· ≠ t.id) })] := by
  obtain ⟨u, hnode, rfl⟩ := Option.map_eq_some_iff.1 hentry
  obtain ⟨t', hchild, same, found'⟩ := h.child_of_mem hnode (h.mem_childIds.2 hparent)
  cases found'.symm.trans found
  obtain ⟨hu, rfl⟩ := h.node?_eq_some.1 hnode
  obtain ⟨before, after, hrows, hchange⟩ := Tree.rowsAmong_modifyAmong f.trees h.nodup hu
  have pruned := Tree.prune_eq_modifyAmong f.trees h.nodup hu hchild
  have changed := hchange (Tree.dropChild t.id) (Tree.id_withChildren _ ·)
  rw [Tree.dropChild, Tree.rows_withChildren] at changed
  have children : (u.children.filter (·.id ≠ t.id)).map Tree.id =
      u.childIds.filter (· ≠ t.id) := by
    rw [Tree.childIds, List.filter_map]
    rfl
  -- the rows below the node go with it
  have distinct : (u.children.map Tree.id).Nodup := by
    have listed := h.nodup_childIds u.id
    rwa [childIds_of_node? hnode] at listed
  have split := Tree.rowsAmong_perm (Tree.perm_filter distinct hchild)
  classical
  refine h.rewrites [(u.id, u.entry)] (before ++ Tree.rowsAmong u.children ++ after)
    ?_ ?_ (by simp) (by simp) (by simp) (by simpa [free] using h.lt_of_entry hentry) (Nat.le_refl _)
  · refine List.perm_iff_count.2 fun row => ?_
    rw [rows, hrows, u.rows_eq_cons]
    simp only [List.count_append, List.count_cons, List.count_nil]
    omega
  · refine List.perm_iff_count.2 fun row => ?_
    have counted := List.perm_iff_count.1 split row
    rw [rows, free, Tree.rowsAmong_append, pruned, changed, children]
    simp only [Tree.rowsAmong_cons, Tree.rowsAmong_nil, List.append_nil, List.count_append,
      List.count_cons, List.count_nil] at counted ⊢
    have entry : u.entry.children = u.childIds := rfl
    simp only [entry]
    omega

/-- A root stays one. -/
theorem IsSound.rewrites_free_root (h : f.IsSound) (root : t ∈ f.trees) :
    f.Rewrites (f.free t) [] := by
  have distinct : (f.trees.map Tree.id).Nodup := (List.nodup_append.1 h.nodup_roots_children).1
  have rows : (f.free t).rows.Perm f.rows := by
    rw [Forest.rows, free, Tree.prune_eq_filter f.trees h.nodup root]
    refine Tree.rowsAmong_perm (List.perm_append_comm.trans ?_)
    exact (Tree.perm_filter distinct root).symm
  exact h.rewrites [] f.rows (.refl _) rows (by simp) (by simp) (by simp) (by simp) (Nat.le_refl _)

/-- **Taking a node away from its parent**, if it has one. -/
theorem IsProper.relinks_free (h : f.IsProper) (found : f.node? t.id = some t) :
    f.Relinks (f.free t) (f.links.detach t.id) := by
  have paired := h.paired.detach t.id
  cases hparent : f.parent? t.id with
  | none =>
    have rewrites := h.rewrites_free_root (h.mem_trees found hparent)
    have entry : ∀ id, (f.free t).entry id = f.entry id := fun id =>
      rewrites.entry_of_notMem h.toIsSound rfl (by simp)
    have relinked := rewrites.sound.relinked paired (fun id => ?_) fun id => ?_
    · exact ⟨relinked.1, relinked.2, Nat.le_refl _, fun _ => rewrites.has h.toIsSound⟩
    · rw [Links.kind_detach, kind_links, kind_eq, kind_eq, entry]
    · rw [Links.children_detach, parent_links, hparent, children_links, childIds_eq, childIds_eq,
        entry]
      rfl
  | some above =>
    obtain ⟨has, -⟩ := h.has_of_parent hparent
    obtain ⟨e, hentry⟩ := has_iff_entry.1 has
    refine (h.rewrites_free found hparent hentry).relinks h.toIsSound rfl paired
      (fun other => ?_) fun other => ?_
    · rw [Links.kind_detach]
      split
      · next this => rw [this, ← kind_of_entry hentry]; rfl
      · rfl
    · rw [Links.children_detach, parent_links, hparent, children_links]
      split
      · next this =>
        cases this
        rw [if_pos rfl, childIds_eq, hentry]
        rfl
      · next differ => rw [if_neg fun this => differ (congrArg some this.symm)]

/-- Detaching a node breaks its link. -/
theorem IsProper.relinks_detach (h : f.IsProper) (has : f.Has id) :
    f.Relinks (f.detach id) (f.links.detach id) := by
  obtain ⟨t, found⟩ := has
  obtain ⟨-, rfl⟩ := h.node?_eq_some.1 found
  cases hparent : f.parent? t.id with
  | none =>
    have stays : f.links.detach t.id = f.links := by
      have free : f.links.parent t.id = none := hparent
      simp only [Links.detach, free]
      rw [← free, Function.update_eq_self]
    have same : f.detach t.id = f := by simp only [detach, hparent]
    rw [stays, same]
    exact h.relinks
  | some above =>
    have freed : f.detach t.id = f.free t := by simp only [detach, hparent, found, free]
    rw [freed]
    exact h.relinks_free found

/-! ### Appending -/

/-- A root becomes the last child of another node. -/
theorem IsSound.rewrites_link {trees : List (Tree (Mark ℓ))} {next : Nat}
    (h : (⟨trees ++ [t], next⟩ : Forest ℓ).IsSound)
    (hentry : (⟨trees ++ [t], next⟩ : Forest ℓ).entry target = some e) (outside : target ∉ t.ids) :
    (⟨trees ++ [t], next⟩ : Forest ℓ).Rewrites
      ⟨Tree.modifyAmong target (Tree.appendChildren [t]) trees, next⟩
      [(target, { e with children := e.children ++ [t.id] })] := by
  obtain ⟨u, hnode, rfl⟩ := Option.map_eq_some_iff.1 hentry
  obtain ⟨hu, rfl⟩ := h.node?_eq_some.1 hnode
  have distinct := h.nodup
  rw [Tree.idsAmong_append] at distinct
  -- the target is below one of the other roots
  have inside : u ∈ Tree.subtreesAmong trees := by
    have hu' : u ∈ Tree.subtreesAmong (trees ++ [t]) := hu
    rw [Tree.subtreesAmong_append] at hu'
    obtain before | last := List.mem_append.1 hu'
    · exact before
    · refine absurd (Tree.mem_ids.2 ⟨u, ?_, rfl⟩) outside
      exact List.append_nil t.subtrees ▸ last
  obtain ⟨before, after, hrows, hchange⟩ :=
    Tree.rowsAmong_modifyAmong trees (List.nodup_append.1 distinct).1 inside
  have changed := hchange _ (Tree.id_appendChildren [t])
  rw [Tree.rows_appendChildren] at changed
  classical
  refine h.rewrites [(u.id, u.entry)] (before ++ Tree.rowsAmong u.children ++ after ++ t.rows)
    ?_ ?_ (by simp) (by simp) (by simp) (by simpa using h.lt_of_entry hentry) (Nat.le_refl _)
  · refine List.perm_iff_count.2 fun row => ?_
    rw [rows, Tree.rowsAmong_append, hrows, u.rows_eq_cons]
    simp only [Tree.rowsAmong_cons, Tree.rowsAmong_nil, List.append_nil, List.count_append,
      List.count_cons, List.count_nil]
    omega
  · refine List.perm_iff_count.2 fun row => ?_
    rw [rows, changed]
    simp only [Tree.rowsAmong_cons, Tree.rowsAmong_nil, List.append_nil, List.count_append,
      List.count_cons, List.count_nil, Tree.entry, List.map_cons, List.map_nil]
    omega

/-- **Appending a node.** Unless the new parent is below it, it is taken away from where it was, and
linked. -/
theorem IsProper.relinks_appendNode (h : f.IsProper) (hasTarget : f.Has target)
    (hasChild : f.Has child) (node : f.kind child ≠ .fragment) :
    f.Relinks (f.appendNode target child)
      (if f.contains child target then f.links
        else (f.links.detach child).link target child) := by
  by_cases within : f.contains child target = true
  · rw [if_pos within, appendNode, if_pos within]
    exact h.relinks
  · obtain ⟨t, found⟩ := hasChild
    obtain ⟨-, rfl⟩ := h.node?_eq_some.1 found
    have outside : target ∉ t.ids := by
      intro hmem
      refine within ?_
      simp [contains, found, hmem]
    have freed := h.relinks_free found
    obtain ⟨e, hentry⟩ := has_iff_entry.1 (freed.has target hasTarget)
    have linked := freed.proper.rewrites_link hentry outside
    have same : f.appendNode target t.id =
        ⟨Tree.modifyAmong target (Tree.appendChildren [t]) (Tree.prune (· = t.id) f.trees),
          f.next⟩ := by
      rw [appendNode, if_neg within]
      simp only [found]
    rw [if_neg within, same, ← freed.links]
    refine freed.trans
      (linked.relinks freed.proper.toIsSound rfl ?_ (fun other => ?_) fun other => ?_)
    · refine freed.proper.paired.link ?_ ?_ target
      · rw [freed.links, Links.parent_detach_self]
      · rw [freed.links, Links.kind_detach]
        exact node
    · split
      · next this => rw [this, ← kind_of_entry hentry]; rfl
      · rfl
    · simp only [Links.link, Function.update_apply, children_links]
      split
      · next this => rw [childIds_eq, hentry]; rfl
      · rfl

@[simp] theorem next_appendNode (f : Forest ℓ) (target child : NodeId) :
    (f.appendNode target child).next = f.next := by
  rw [appendNode]
  split
  · rfl
  · split <;> rfl

@[simp] theorem next_append (f : Forest ℓ) (target child : NodeId) :
    (f.append target child).next = f.next := by
  have all : ∀ (children : List NodeId) (f : Forest ℓ),
      (children.foldl (fun f id => f.appendNode target id) f).next = f.next := by
    intro children
    induction children with
    | nil => exact fun f => rfl
    | cons child rest ih => exact fun f => (ih _).trans (next_appendNode f target child)
  rw [append]
  split
  · rw [all, next_takeChildren]
  · exact next_appendNode f target child

/-- Climbing from the new parent comes to an end, so appending does. -/
theorem IsProper.append_node (h : f.IsProper) (hasTarget : f.Has target) (hasChild : f.Has child)
    (node : f.kind child ≠ .fragment) {fuel : Nat} (enough : f.next < fuel) :
    ∃ g, f.links.append target (fuel + 1) child = some g ∧
      f.Relinks (f.appendNode target child) g ∧ g.kind = f.kind := by
  have climbs : f.links.climb child fuel target = some (f.contains child target) :=
    h.climb hasChild (by omega)
  refine ⟨_, ?_, h.relinks_appendNode hasTarget hasChild node, ?_⟩
  · rw [Links.append, if_neg (show f.links.kind child ≠ .fragment from node), climbs]
    rfl
  · split
    · rfl
    · exact Links.kind_detach f.links child

/-- One node after another. -/
theorem IsProper.append_all (h : f.IsProper) (hasTarget : f.Has target) {children : List NodeId}
    (nodes : ∀ child ∈ children, f.Has child ∧ f.kind child ≠ .fragment) {fuel : Nat}
    (enough : f.next < fuel) :
    ∃ g, children.foldlM (fun g child => Links.append target (fuel + 1) child g) f.links = some g ∧
      f.Relinks (children.foldl (fun f child => f.appendNode target child) f) g := by
  induction children generalizing f with
  | nil => exact ⟨_, rfl, h.relinks⟩
  | cons child rest ih =>
    obtain ⟨⟨hasChild, node⟩, later⟩ := List.forall_mem_cons.1 nodes
    obtain ⟨g, happend, relinks, hkind⟩ := h.append_node hasTarget hasChild node enough
    have kind : (f.appendNode target child).kind = f.kind := by
      rw [← hkind, ← relinks.links, kind_links]
    obtain ⟨g', hrest, relinks'⟩ := ih relinks.proper (relinks.has target hasTarget)
      (fun other hother => by
        obtain ⟨has, hnode⟩ := later other hother
        exact ⟨relinks.has other has, kind ▸ hnode⟩)
      (by rwa [next_appendNode])
    refine ⟨g', ?_, relinks.trans relinks'⟩
    rw [List.foldlM_cons, happend, ← relinks.links]
    exact hrest

/-- **Appending.** -/
theorem IsProper.relinks_append (h : f.IsProper) (hasTarget : f.Has target) (hasChild : f.Has child)
    {fuel : Nat} (enough : f.next + 2 < fuel) :
    ∃ g, f.links.append target fuel child = some g ∧ f.Relinks (f.append target child) g := by
  obtain ⟨fuel, rfl⟩ : ∃ k, fuel = k + 2 := ⟨fuel - 2, by omega⟩
  by_cases container : f.kind child = .fragment
  · have taken := h.relinks_takeChildren hasChild
    -- what was below the container is no container
    have nodes : ∀ id ∈ f.childIds child, (f.takeChildren child).Has id ∧
        (f.takeChildren child).kind id ≠ .fragment := by
      intro id hid
      have hparent := h.mem_childIds.1 hid
      refine ⟨taken.has id (h.has_of_parent hparent).2, fun hkind => ?_⟩
      have same : (f.takeChildren child).kind = f.kind := by
        rw [← kind_links, taken.links]
        rfl
      rw [same] at hkind
      rw [h.container id hkind] at hparent
      cases hparent
    have enough' : (f.takeChildren child).next < fuel := by
      rw [next_takeChildren]
      omega
    obtain ⟨g, hfold, relinks⟩ :=
      taken.proper.append_all (taken.has target hasTarget) nodes enough'
    refine ⟨g, ?_, ?_⟩
    · rw [Links.append, if_pos (show f.links.kind child = .fragment from container), ← taken.links]
      exact hfold
    · rw [append, container]
      exact taken.trans relinks
  · have enough' : f.next < fuel + 1 := by omega
    obtain ⟨g, happend, relinks, -⟩ := h.append_node hasTarget hasChild container enough'
    refine ⟨g, happend, ?_⟩
    rw [append]
    split
    · next here => exact absurd here container
    · exact relinks

end Forest

end Bindery
