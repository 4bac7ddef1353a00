import Bindery.Proofs.Document.Entries

namespace Bindery

/-!
# Moving the children of a node

* `Forest.foldl_appendNode` — nodes without a parent become children one after another.
* `Forest.IsSound.rewrites_move` — all children of a node go to the end of those of another.
* `Forest.IsSound.rewrites_append` — so it is when a container is appended to a node.
* `Forest.stage` — a new container with the children of a node.
* `Forest.Staged.restore` — what became of the children meanwhile stands in the node again.
-/

namespace Tree

variable {ℓ : Type} {sought : NodeId}

variable {g : Tree (Mark ℓ) → Tree (Mark ℓ)}

mutual

/-- A change that does nothing to a node does nothing to the tree around it. -/
theorem modifyAt_of_fixed : ∀ t : Tree (Mark ℓ), (∀ u ∈ t.subtrees, u.id = sought → g u = u) →
    modifyAt sought g t = t
  | node mark kind children, h => by
    obtain ⟨root, below⟩ := List.forall_mem_cons.1 h
    rw [modifyAt]
    split
    · next same => exact root same
    · rw [modifyAmong_of_fixed children below]

/-- A change that leaves the node as it is changes nothing. -/
theorem modifyAmong_of_fixed : ∀ ts : List (Tree (Mark ℓ)),
    (∀ u ∈ subtreesAmong ts, u.id = sought → g u = u) → modifyAmong sought g ts = ts
  | [], _ => rfl
  | t :: rest, h => by
    obtain ⟨first, later⟩ := List.forall_mem_append.1 h
    rw [modifyAmong, modifyAt_of_fixed t first, modifyAmong_of_fixed rest later]

end

theorem id_appendChildren (more : List (Tree (Mark ℓ))) (t : Tree (Mark ℓ)) :
    (t.appendChildren more).id = t.id := by
  cases t
  rfl

/-- No more children are no change. -/
theorem appendChildren_nil (t : Tree (Mark ℓ)) : t.appendChildren [] = t := by
  cases t
  simp [appendChildren]

/-- More children after others. -/
theorem appendChildren_comp (ts us : List (Tree (Mark ℓ))) :
    appendChildren us ∘ appendChildren ts = appendChildren (ts ++ us) := by
  funext t
  cases t
  simp [appendChildren]

/-- Children that replace others may get more beside them. -/
theorem appendChildren_comp_withChildren (ts us : List (Tree (Mark ℓ))) :
    appendChildren us ∘ withChildren ts = withChildren (ts ++ us) := by
  funext t
  cases t
  rfl

/-- A node that is not in a row cannot be removed from it. -/
theorem prune_of_elsewhere {gone : NodeId} {ts : List (Tree (Mark ℓ))}
    (elsewhere : gone ∉ idsAmong ts) : prune (· = gone) ts = ts :=
  prune_of_forall ts fun _ hid => decide_eq_false fun same => elsewhere (same ▸ hid)

/-- More children of a node are more rows below it, and the node has them as its last children. -/
theorem rows_appendChildren (more : List (Tree (Mark ℓ))) (t : Tree (Mark ℓ)) :
    (t.appendChildren more).rows =
      (t.id, { t.entry with children := t.childIds ++ more.map id }) ::
        (rowsAmong t.children ++ rowsAmong more) := by
  cases t
  simp [appendChildren, rows_node, entry, childIds]

end Tree

namespace Forest

variable {ℓ : Type} {f f' : Forest ℓ} {source target : NodeId} {t : Tree (Mark ℓ)}

/-- A node without a parent becomes the last child of another. -/
theorem appendNode_root {trees rest : List (Tree (Mark ℓ))} {child : Tree (Mark ℓ)} {next : Nat}
    (distinct : (Tree.idsAmong (trees ++ child :: rest)).Nodup)
    (outside : target ∉ Tree.idsAmong (child :: rest)) :
    (⟨trees ++ child :: rest, next⟩ : Forest ℓ).appendNode target child.id =
      ⟨Tree.modifyAmong target (Tree.appendChildren [child]) trees ++ rest, next⟩ := by
  have found : (⟨trees ++ child :: rest, next⟩ : Forest ℓ).node? child.id = some child := by
    refine Tree.subAmong?_of_mem _ distinct (Tree.subset_subtreesAmong _ ?_)
    exact List.mem_append_right _ List.mem_cons_self
  rw [Tree.idsAmong, List.mem_append, not_or] at outside
  rw [Tree.idsAmong_append, Tree.idsAmong] at distinct
  obtain ⟨-, distinct', apart⟩ := List.nodup_append.1 distinct
  -- nothing but the child itself is taken out, and the target is not below it
  have notBefore : child.id ∉ Tree.idsAmong trees := fun hmem =>
    apart _ hmem _ (List.mem_append_left _ child.id_mem_ids) rfl
  have notAfter : child.id ∉ Tree.idsAmong rest := fun hmem =>
    (List.nodup_append.1 distinct').2.2 _ child.id_mem_ids _ hmem rfl
  have notBelow : (⟨trees ++ child :: rest, next⟩ : Forest ℓ).contains child.id target = false := by
    simp [contains, found, outside.1]
  simp only [appendNode, notBelow, Bool.false_eq_true, if_false, found, Tree.prune_append,
    Tree.prune, decide_true, if_true, Tree.prune_of_elsewhere notBefore,
    Tree.prune_of_elsewhere notAfter, Tree.modifyAmong_append,
    Tree.modifyAmong_of_notMem rest outside.2]

/-- **One after another.** Nodes without a parent become the last children of a node, in order, by
any operation that appends such a node. -/
theorem foldl_appendNode {append : Forest ℓ → NodeId → Forest ℓ} {next : Nat}
    (children trees : List (Tree (Mark ℓ))) (distinct : (Tree.idsAmong (trees ++ children)).Nodup)
    (inside : target ∈ Tree.idsAmong trees)
    (appends : ∀ f : Forest ℓ, ∀ child ∈ children, f.node? child.id = some child →
      append f child.id = f.appendNode target child.id) :
    (children.map Tree.id).foldl append ⟨trees ++ children, next⟩ =
      ⟨Tree.modifyAmong target (Tree.appendChildren children) trees, next⟩ := by
  -- `trees` takes in one child after another, so the induction is for all of them
  induction children generalizing trees with
  | nil =>
    rw [Tree.modifyAmong_of_fixed _ fun u _ _ => Tree.appendChildren_nil u]
    simp
  | cons child rest ih =>
    have found : (⟨trees ++ child :: rest, next⟩ : Forest ℓ).node? child.id = some child := by
      refine Tree.subAmong?_of_mem _ distinct (Tree.subset_subtreesAmong _ ?_)
      exact List.mem_append_right _ List.mem_cons_self
    have apart := distinct
    rw [Tree.idsAmong_append] at apart
    obtain ⟨distinctTrees, -, apart⟩ := List.nodup_append.1 apart
    have outside : target ∉ Tree.idsAmong (child :: rest) := fun hmem =>
      apart _ inside _ hmem rfl
    obtain ⟨u, hu, rfl⟩ := Tree.mem_idsAmong.1 inside
    obtain ⟨before, after, hbefore, hafter⟩ :=
      Tree.rowsAmong_modifyAmong trees distinctTrees hu
    have moved := hafter _ (Tree.id_appendChildren [child])
    rw [List.map_cons, List.foldl_cons, appends _ child List.mem_cons_self found,
      appendNode_root distinct outside]
    rw [ih, Tree.modifyAmong_modifyAmong (Tree.id_appendChildren [child]),
      Tree.appendChildren_comp, List.singleton_append]
    · -- the identifiers are the same as before, in another order
      rw [Tree.idsAmong_append, Tree.idsAmong_eq (Tree.modifyAmong _ _ _), moved,
        Tree.rows_appendChildren]
      rw [Tree.idsAmong_append, Tree.idsAmong_eq trees, hbefore, u.rows_eq_cons, Tree.idsAmong]
        at distinct
      refine (List.Perm.nodup_iff ?_).1 distinct
      refine List.perm_iff_count.2 fun id => ?_
      simp only [List.map_append, List.map_cons, List.count_append, List.count_cons,
        Tree.rowsAmong_cons, Tree.rowsAmong_nil, List.append_nil, Tree.ids_eq child]
      omega
    · rw [Tree.idsAmong_eq, moved, Tree.rows_appendChildren]
      simp
    · exact fun f other hother => appends f other (List.mem_cons_of_mem _ hother)

/-- Taking the children of a node away leaves the node without them, and them without a parent. -/
theorem IsSound.exists_taken (h : f.IsSound) (found : f.node? source = some t) :
    ∃ before after trees, f.rows = before ++ t.rows ++ after ∧
      f.takeChildren source = ⟨trees ++ t.children, f.next⟩ ∧
      Tree.rowsAmong trees = before ++ [(source, { t.entry with children := [] })] ++ after ∧
      (Tree.idsAmong (trees ++ t.children)).Nodup := by
  obtain ⟨hmem, rfl⟩ := h.node?_eq_some.1 found
  obtain ⟨before, after, hbefore, hafter⟩ := Tree.rowsAmong_modifyAmong f.trees h.nodup hmem
  have taken := hafter _ (Tree.id_withChildren [])
  rw [Tree.rows_withChildren] at taken
  refine ⟨before, after, _, hbefore, takeChildren_of_node? found, taken, ?_⟩
  -- the identifiers are the same as before, in another order
  classical
  refine (List.Perm.nodup_iff ?_).1 h.nodup
  rw [Tree.idsAmong_append, Tree.idsAmong_eq, Tree.idsAmong_eq, Tree.idsAmong_eq, hbefore, taken,
    t.rows_eq_cons]
  refine List.perm_iff_count.2 fun id => ?_
  simp only [List.map_append, List.map_cons, List.map_nil, List.count_append, List.count_cons,
    List.count_nil, Tree.rowsAmong_nil]
  omega

/-- **Moving all children.** The children of a node go to the end of those of another, and nothing
else changes. -/
theorem IsSound.rewrites_move (append : Forest ℓ → NodeId → Forest ℓ) (h : f.IsSound)
    (hsource : f.node? source = some t) {e : Entry ℓ} (htarget : f.entry target = some e)
    (outside : target ∉ t.ids)
    (appends : ∀ f : Forest ℓ, ∀ child ∈ t.children, f.node? child.id = some child →
      append f child.id = f.appendNode target child.id) :
    f.Rewrites ((f.childIds source).foldl append (f.takeChildren source))
      [(source, { t.entry with children := [] }),
        (target, { e with children := e.children ++ t.childIds })] := by
  obtain ⟨-, rfl⟩ := h.node?_eq_some.1 hsource
  obtain ⟨before, after, trees, hrows, htaken, taken, distinct⟩ := h.exists_taken hsource
  have differ : target ≠ t.id := fun same => outside (same ▸ t.id_mem_ids)
  -- the target is elsewhere, and stays there when the children are taken away
  have elsewhere : (target, e) ∈ before ++ after := by
    have below : (target, e) ∉ t.rows := fun hmem =>
      outside (Tree.ids_eq t ▸ List.mem_map_of_mem hmem)
    have inside := h.entry_eq_some.1 htarget
    rw [hrows] at inside
    simpa [below] using inside
  obtain ⟨left, right, hsplit⟩ := List.append_of_mem elsewhere
  have hinside : (target, e) ∈ Tree.rowsAmong trees := by
    rw [taken]
    simp only [List.mem_append] at elsewhere ⊢
    tauto
  obtain ⟨u, hu, hpair⟩ := List.mem_map.1 hinside
  obtain ⟨rfl, rfl⟩ := Prod.mk.inj hpair
  have distinctTrees : (Tree.idsAmong trees).Nodup := by
    rw [Tree.idsAmong_append] at distinct
    exact (List.nodup_append.1 distinct).1
  obtain ⟨before', after', hbefore', hafter'⟩ := Tree.rowsAmong_modifyAmong trees distinctTrees hu
  have moved := hafter' _ (Tree.id_appendChildren t.children)
  have hchildren : f.childIds t.id = t.children.map Tree.id := by
    simp [childIds, hsource, Tree.childIds]
  have source : f.entry t.id = some t.entry := by simp [entry, hsource]
  rw [hchildren, htaken, foldl_appendNode t.children trees distinct
    (Tree.mem_idsAmong.2 ⟨u, hu, rfl⟩) appends]
  -- the rows of both nodes are exchanged; all others are the same, in another order
  classical
  refine h.rewrites [(t.id, t.entry), (u.id, u.entry)]
    (left ++ right ++ Tree.rowsAmong t.children) ?_ ?_ (by simp [differ.symm]) (by simp)
    (by simp) (by simp [h.lt_of_entry source, h.lt_of_entry htarget]) (Nat.le_refl _)
  · refine List.perm_iff_count.2 fun row => ?_
    have same := congrArg (List.count row) hsplit
    rw [hrows, t.rows_eq_cons]
    simp only [List.count_append, List.count_cons, List.count_nil] at same ⊢
    omega
  · refine List.perm_iff_count.2 fun row => ?_
    have same := congrArg (List.count row) hsplit
    have same' := congrArg (List.count row) (taken.symm.trans hbefore')
    rw [rows, moved, Tree.rows_appendChildren]
    rw [u.rows_eq_cons] at same'
    simp only [List.count_append, List.count_cons, List.count_nil, Tree.childIds, Tree.entry]
      at same same' ⊢
    omega

/-- Appending a container moves its children. -/
theorem IsSound.rewrites_append (h : f.IsSound) (hsource : f.node? source = some t)
    (container : t.kind = .fragment) {e : Entry ℓ} (htarget : f.entry target = some e)
    (outside : target ∉ t.ids) : f.Rewrites (f.append target source)
      [(source, { t.entry with children := [] }),
        (target, { e with children := e.children ++ t.childIds })] := by
  have hkind : f.kind source = .fragment := by simp [kind, hsource, container]
  rw [append, hkind]
  exact h.rewrites_move (fun f id => f.appendNode target id) hsource htarget outside
    fun _ _ _ _ => rfl

/-! ### Staging -/

/-- The children of a node moved to a new container. -/
def stage (root : NodeId) (f : Forest ℓ) : Forest ℓ :=
  ((f.plant .fragment).2.childIds root).foldl (fun g child => g.append ⟨f.next⟩ child)
    ((f.plant .fragment).2.takeChildren root)

/-- The children of a node are staged in a container that was made for them. -/
structure Staged (f f' : Forest ℓ) (t : Tree (Mark ℓ)) : Prop where
  sound : f'.IsSound
  next_lt : f.next < f'.next
  holds : f'.Holds [.node ⟨⟨f.next⟩, []⟩ .fragment t.children]
  root : f'.entry t.id = some { t.entry with children := [] }
  frame : ∀ id ≠ t.id, id.val < f.next → f'.entry id = f.entry id

/-- The container is there with the children in it. -/
theorem Staged.container (h : f.Staged f' t) :
    f'.node? ⟨f.next⟩ = some (.node ⟨⟨f.next⟩, []⟩ .fragment t.children) :=
  h.sound.node?_of_holds h.holds

/-- The identifiers of a tree that is there were given out. -/
theorem IsSound.lt_of_holds (h : f.IsSound) (hholds : f.Holds [t]) {id : NodeId}
    (hid : id ∈ t.ids) : id.val < f.next :=
  hholds.lt h (List.mem_append_left _ hid)

/-- Containers are not children of any node, so staging moves the nodes themselves. -/
theorem IsSound.stage (h : f.IsSound) (found : f.node? t.id = some t)
    (whole : ∀ child ∈ t.children, child.kind ≠ .fragment) : f.Staged (f.stage t.id) t := by
  have hholds := h.holds_of_node? found
  have planted := h.rewrites_plant .fragment
  -- the container is planted first; the nodes of the tree are not touched by that
  have holds₁ : (f.plant .fragment).2.Holds [t] := by
    refine hholds.congr fun id hid => planted.frame id ?_ (hholds.lt h hid)
    simpa [plant] using NodeId.ne_of_lt (hholds.lt h hid)
  have outside : (⟨f.next⟩ : NodeId) ∉ t.ids := fun hid =>
    NodeId.ne_of_lt (h.lt_of_holds hholds hid) rfl
  have appends : ∀ g : Forest ℓ, ∀ child ∈ t.children, g.node? child.id = some child →
      g.append ⟨f.next⟩ child.id = g.appendNode ⟨f.next⟩ child.id := by
    intro g child hchild hnode
    have hkind : g.kind child.id = child.kind := by simp [kind, hnode]
    rw [append, hkind]
    split
    · next container => exact absurd container (whole child hchild)
    · rfl
  have container : (f.plant .fragment).2.entry ⟨f.next⟩ = some ⟨[], .fragment, []⟩ :=
    planted.entry _ List.mem_cons_self
  have moved := planted.sound.rewrites_move (fun g child => g.append ⟨f.next⟩ child)
    (planted.sound.node?_of_holds holds₁) container outside appends
  obtain ⟨hroot, hstaged⟩ := List.forall_mem_cons.1 moved.entry
  obtain ⟨mark, kind, children⟩ := t
  obtain ⟨hentry, hchildren⟩ := holds_node.1 holds₁
  refine ⟨moved.sound, moved.next_le, holds_node.2 ⟨hstaged _ List.mem_cons_self, ?_⟩, hroot,
    fun id differ lt => ?_⟩
  · refine hchildren.congr fun id hid => moved.frame id (fun hmem => ?_)
      (hchildren.lt planted.sound hid)
    obtain rfl | rfl : id = mark.id ∨ id = ⟨f.next⟩ := by simpa [plant] using hmem
    · exact h.root_notMem hholds hid
    · exact outside (List.mem_cons_of_mem _ hid)
  · have notStaged := NodeId.ne_of_lt lt
    have differ' : id ≠ mark.id := differ
    refine (moved.frame id (by simpa [plant] using ⟨differ', notStaged⟩)
      (Nat.lt_of_lt_of_le lt planted.next_le)).trans (planted.frame id ?_ lt)
    simpa [plant] using notStaged

/-- **And back again.** What became of the children in the container is put where they stood, and
nothing else has changed. -/
theorem Staged.restore (staged : f.Staged f' t) (sound : f.IsSound) (hholds : f.Holds [t])
    {f'' : Forest ℓ} {ts : List (Tree (Mark ℓ))} (h : f'.Becomes f'' t.children ts) :
    f.Becomes (f''.append t.id ⟨f.next⟩) [t] [.node t.label t.kind ts] := by
  obtain ⟨mark, kind, children⟩ := t
  have hroot : mark.id.val < f.next := sound.lt_of_holds hholds List.mem_cons_self
  have below : mark.id ∉ Tree.idsAmong children := sound.root_notMem hholds
  have given (id : NodeId) (hid : id ∈ Tree.idsAmong children) : id.val < f.next :=
    sound.lt_of_holds hholds (List.mem_cons_of_mem _ hid)
  -- the new children are old ones, or newer than the container
  have apart (id : NodeId) (hid : id ∈ Tree.idsAmong ts) : id ≠ ⟨f.next⟩ ∧ id ≠ mark.id := by
    obtain hold | hnew := h.ids id hid
    · exact ⟨NodeId.ne_of_lt (given id hold), fun same => below (same ▸ hold)⟩
    · have later : f.next < id.val := Nat.lt_of_lt_of_le staged.next_lt hnew
      refine ⟨fun same => ?_, fun same => ?_⟩
      · rw [same] at later
        exact Nat.lt_irrefl _ later
      · rw [same] at later
        exact Nat.lt_asymm later hroot
  have inside := h.node staged.sound staged.holds
  -- the node itself waits without children, and is not below the container
  have entry : f''.entry mark.id = some ⟨mark.listeners, kind, []⟩ := by
    rw [h.frame _ below (Nat.lt_trans hroot staged.next_lt)]
    exact staged.root
  have outside : mark.id ∉ (Tree.node ⟨⟨f.next⟩, []⟩ .fragment ts : Tree (Mark ℓ)).ids := by
    rw [Tree.ids, List.mem_cons, not_or]
    exact ⟨NodeId.ne_of_lt hroot, fun hid => (apart _ hid).2 rfl⟩
  have moved := inside.sound.rewrites_append (inside.sound.node?_of_holds inside.holds) rfl entry
    outside
  obtain ⟨-, hplaced⟩ := List.forall_mem_cons.1 moved.entry
  have next_le : f.next ≤ f'.next := Nat.le_of_lt staged.next_lt
  refine ⟨moved.sound, Nat.le_trans next_le (Nat.le_trans h.next_le moved.next_le),
    holds_node.2 ⟨hplaced _ List.mem_cons_self, ?_⟩, rfl, fun id hid => ?_, fun id hid lt => ?_⟩
  · refine h.holds.congr fun id hid => moved.frame id ?_ (h.holds.lt h.sound hid)
    simpa using apart id hid
  · rw [Tree.idsAmong_singleton, Tree.ids] at hid ⊢
    obtain rfl | hid := List.mem_cons.1 hid
    · exact .inl List.mem_cons_self
    · exact (h.ids id hid).imp (List.mem_cons_of_mem _) (Nat.le_trans next_le)
  · rw [Tree.idsAmong_singleton, Tree.ids, List.mem_cons, not_or] at hid
    have lt' : id.val < f'.next := Nat.lt_of_lt_of_le lt next_le
    refine (moved.frame id ?_ (Nat.lt_of_lt_of_le lt' h.next_le)).trans
      ((h.frame id hid.2 lt').trans (staged.frame id hid.1 lt))
    simpa using ⟨NodeId.ne_of_lt lt, hid.1⟩

end Forest

end Bindery
