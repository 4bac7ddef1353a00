import Bindery.Proofs.Document.Relinking

namespace Bindery

/-!
# What appending moves

* `Forest.IsSound.contains_iff` — a node is above another if the way up from there leads to it.
* `Forest.Regroups` — nodes with a common parent are taken away from it, and some of them stand
  after the children of a node now.
* `Forest.IsSound.entry_appendNode`, `Forest.IsSound.entry_foldl_appendNode` — one node is appended,
  and several in order: those above their new parent stay where they are.
* `Forest.IsSound.regroups_append` — appending, for every position of the two nodes to each other.
-/

/-- What is known of a node, with some nodes taken out of its children and others after them. -/
def Entry.regroup {ℓ : Type} (gone last : List NodeId) (e : Entry ℓ) : Entry ℓ :=
  { e with children := e.children.filter (· ∉ gone) ++ last }

namespace Entry

variable {ℓ : Type} {gone last : List NodeId} {e : Entry ℓ}

@[simp] theorem children_regroup (gone last : List NodeId) (e : Entry ℓ) :
    (e.regroup gone last).children = e.children.filter (· ∉ gone) ++ last := rfl

/-- Taking nodes out that are no children changes nothing. -/
theorem regroup_of_disjoint (h : ∀ id ∈ e.children, id ∉ gone) : e.regroup gone [] = e := by
  have kept : e.children.filter (· ∉ gone) = e.children :=
    List.filter_eq_self.2 fun id hid => decide_eq_true (h id hid)
  rw [regroup, kept, List.append_nil]

theorem regroup_congr {gone' : List NodeId} (h : ∀ id, id ∈ gone ↔ id ∈ gone') :
    e.regroup gone last = e.regroup gone' last := by
  simp only [regroup, h]

/-- What is taken out first may also be taken out together with the rest. -/
theorem regroup_regroup (gone gone' last : List NodeId) (e : Entry ℓ) :
    (e.regroup gone []).regroup gone' last = e.regroup (gone ++ gone') last := by
  simp only [regroup, List.append_nil, List.filter_filter, List.mem_append, not_or,
    Bool.decide_and, Bool.and_comm]

end Entry

namespace Forest

variable {ℓ : Type} {f f' : Forest ℓ} {id above below child target : NodeId} {t : Tree (Mark ℓ)}
  {e : Entry ℓ} {gone last : List NodeId}

/-! ### Above and below -/

/-- What contains something is there. -/
theorem has_of_contains (h : f.contains above below = true) : f.Has above := by
  obtain ⟨t, found, -⟩ := (Option.any_eq_true _ _).1 h
  exact ⟨t, found⟩

/-- A node that is there contains itself. -/
theorem IsSound.contains_self (h : f.IsSound) (has : f.Has id) : f.contains id id = true := by
  obtain ⟨t, found⟩ := has
  obtain ⟨-, rfl⟩ := h.node?_eq_some.1 found
  simp [contains, found, t.id_mem_ids]

/-- **Above a node** is whatever the way up from it leads to. -/
theorem IsSound.contains_iff (h : f.IsSound) : f.contains above below = true ↔
    f.Has above ∧
      Relation.ReflTransGen (fun id upper => f.parent? id = some upper) below above := by
  constructor
  · intro inside
    refine ⟨has_of_contains inside, ?_⟩
    -- trees get larger on the way up
    induction hn : f.next - f.size below using Nat.strongRecOn generalizing below with
    | ind n ih =>
      by_cases same : below = above
      · rw [same]
      · rw [h.contains_parent same] at inside
        obtain ⟨upper, hparent, inside⟩ := (Option.any_eq_true _ _).1 inside
        have less := h.size_lt hparent
        have most := h.size_le upper
        exact .head hparent (ih _ (by omega) inside rfl)
  · rintro ⟨has, path⟩
    induction path using Relation.ReflTransGen.head_induction_on with
    | refl => exact h.contains_self has
    | @head lower upper hparent _ ih =>
      by_cases same : lower = above
      · rw [same]
        exact h.contains_self has
      · rw [h.contains_parent same, hparent]
        exact ih

/-- A parent is not below its child. -/
theorem IsSound.contains_of_parent (h : f.IsSound) (hparent : f.parent? id = some above) :
    f.contains id above = false := by
  by_contra inside
  obtain ⟨-, path⟩ := h.contains_iff.1 (eq_true_of_ne_false inside)
  exact h.acyclic above (.tail' path hparent)

/-- A node contains what is contained in what it contains. -/
theorem IsSound.contains_trans (h : f.IsSound) (first : f.contains above id = true)
    (second : f.contains id below = true) : f.contains above below = true := by
  obtain ⟨has, up⟩ := h.contains_iff.1 first
  obtain ⟨-, path⟩ := h.contains_iff.1 second
  exact h.contains_iff.2 ⟨has, path.trans up⟩

/-- What is below a node but not the node itself is below one of its children only. -/
theorem IsSound.exists_child_above (h : f.IsSound) (inside : f.contains above below = true)
    (differ : above ≠ below) :
    ∃ kept, f.parent? kept = some above ∧
      ∀ id, f.parent? id = some above → (f.contains id below = true ↔ id = kept) := by
  obtain ⟨-, path⟩ := h.contains_iff.1 inside
  obtain same | ⟨kept, path, hkept⟩ := path.cases_tail
  · exact absurd same differ
  · refine ⟨kept, hkept, fun id hid => ⟨fun other => ?_, ?_⟩⟩
    · -- of two nodes on the way up one is above the other
      by_contra apart
      obtain ⟨-, other⟩ := h.contains_iff.1 other
      have single : Relator.RightUnique fun id upper => f.parent? id = some upper := by
        intro id first second hfirst hsecond
        exact Option.some.inj (hfirst.symm.trans hsecond)
      obtain up | up := other.total_of_right_unique single path
      · obtain same | ⟨upper, hupper, up⟩ := up.cases_head
        · exact apart same
        · cases hid.symm.trans hupper
          exact h.acyclic above (.tail' up hkept)
      · obtain same | ⟨upper, hupper, up⟩ := up.cases_head
        · exact apart same.symm
        · cases hkept.symm.trans hupper
          exact h.acyclic above (.tail' up hid)
    · rintro rfl
      exact h.contains_iff.2 ⟨(h.has_of_parent hkept).2, path⟩

/-- As long as the parents of what is above a node stay, nothing else gets above it. -/
theorem IsSound.contains_congr (h : f.IsSound) (h' : f'.IsSound)
    (has : ∀ id, f'.Has id ↔ f.Has id)
    (parent : ∀ id, f.contains id target = true → f'.parent? id = f.parent? id) (above : NodeId) :
    f'.contains above target = f.contains above target := by
  have below : ∀ id, Relation.ReflTransGen (fun id upper => f'.parent? id = some upper) target id →
      Relation.ReflTransGen (fun id upper => f.parent? id = some upper) target id := by
    intro id path
    induction path with
    | refl => exact .refl
    | @tail lower upper _ hparent ih =>
      have hasLower : f.Has lower := (has lower).1 (h'.has_of_parent hparent).2
      rw [parent lower (h.contains_iff.2 ⟨hasLower, ih⟩)] at hparent
      exact ih.tail hparent
  have above' : ∀ id, Relation.ReflTransGen (fun id upper => f.parent? id = some upper) target id →
      Relation.ReflTransGen (fun id upper => f'.parent? id = some upper) target id := by
    intro id path
    induction path with
    | refl => exact .refl
    | @tail lower upper path hparent ih =>
      have hasLower : f.Has lower := (h.has_of_parent hparent).2
      rw [← parent lower (h.contains_iff.2 ⟨hasLower, path⟩)] at hparent
      exact ih.tail hparent
  rw [Bool.eq_iff_iff, h.contains_iff, h'.contains_iff, has]
  exact and_congr_right fun _ => ⟨below above, above' above⟩

/-! ### Groups of siblings -/

/-- Some nodes are gone from the children of all others; some stand, in order, after the other
children of a node now, each with what is below it.  Nothing else has changed. -/
structure Regroups (f f' : Forest ℓ) (gone : List NodeId) (target : NodeId)
    (last : List NodeId) : Prop where
  sound : f'.IsSound
  next : f'.next = f.next
  entry : ∀ id, f'.entry id =
    (f.entry id).map (Entry.regroup gone (if id = target then last else []))
  parent : ∀ id, f'.parent? id =
    if id ∈ last then some target else if id ∈ gone then none else f.parent? id
  node : ∀ id ∈ last, f'.node? id = f.node? id

/-- The children that an entry lists are those of the node. -/
theorem entry_children (hentry : f.entry id = some e) : e.children = f.childIds id := by
  rw [childIds_eq, hentry]
  rfl

/-- A node with other parents for some nodes is there all the same. -/
theorem has_of_entry {change : NodeId → Entry ℓ → Entry ℓ}
    (entry : ∀ id, f'.entry id = (f.entry id).map (change id)) (id : NodeId) :
    f'.Has id ↔ f.Has id := by
  simp [has_iff_entry, entry]

/-- Children and parents agree, so entries say everything. -/
theorem IsSound.parent_of_entry (h : f.IsSound) (h' : f'.IsSound) (hasTarget : f.Has target)
    (entry : ∀ id, f'.entry id =
      (f.entry id).map (Entry.regroup gone (if id = target then last else [])))
    (subset : last ⊆ gone) (id : NodeId) : f'.parent? id =
      if id ∈ last then some target else if id ∈ gone then none else f.parent? id := by
  have children (above : NodeId) : id ∈ f'.childIds above ↔
      id ∈ f.childIds above ∧ id ∉ gone ∨ above = target ∧ id ∈ last := by
    rw [childIds_eq, childIds_eq, entry]
    cases hentry : f.entry above with
    | none =>
      have missing : above ≠ target := by
        rintro rfl
        obtain ⟨e, found⟩ := has_iff_entry.1 hasTarget
        cases hentry.symm.trans found
      simp [missing]
    | some e => by_cases same : above = target <;> simp [same]
  refine Option.ext fun above => ?_
  rw [← h'.mem_childIds, children, h.mem_childIds]
  by_cases isLast : id ∈ last
  · simp [isLast, subset isLast, eq_comm]
  · by_cases isGone : id ∈ gone <;> simp [isLast, isGone]

/-- What is below one of some siblings stays below it, unless the target is there. -/
theorem IsSound.node?_of_entry (h : f.IsSound) (h' : f'.IsSound)
    (entry : ∀ id, f'.entry id =
      (f.entry id).map (Entry.regroup gone (if id = target then last else [])))
    {parent : Option NodeId} (siblings : ∀ id ∈ gone, f.parent? id = parent) (isGone : id ∈ gone)
    (apart : f.contains id target = false) : f'.node? id = f.node? id := by
  cases found : f.node? id with
  | none =>
    refine Option.eq_none_iff_forall_ne_some.2 fun t found' => ?_
    obtain ⟨u, missing⟩ := (has_of_entry entry id).1 ⟨t, found'⟩
    cases found.symm.trans missing
  | some t =>
    obtain ⟨-, rfl⟩ := h.node?_eq_some.1 found
    refine h'.node?_of_holds ((h.holds_of_node? found).congr fun inner hinner => ?_)
    rw [Tree.idsAmong_singleton] at hinner
    have inside : f.contains t.id inner = true := by simp [contains, found, hinner]
    have notTarget : inner ≠ target := by
      rintro rfl
      exact Bool.false_ne_true (apart.symm.trans inside)
    rw [entry, if_neg notTarget]
    cases hentry : f.entry inner with
    | none => rfl
    | some e =>
      -- none of the siblings is a child of what is below one of them
      refine congrArg some (Entry.regroup_of_disjoint fun other hother otherGone => ?_)
      rw [entry_children hentry, h.mem_childIds, siblings other otherGone,
        ← siblings t.id isGone] at hother
      exact Bool.false_ne_true ((h.contains_of_parent hother).symm.trans inside)

/-- Siblings take what is below them along. -/
theorem IsSound.regroups (h : f.IsSound) (h' : f'.IsSound) (next : f'.next = f.next)
    (hasTarget : f.Has target)
    (entry : ∀ id, f'.entry id =
      (f.entry id).map (Entry.regroup gone (if id = target then last else [])))
    (subset : last ⊆ gone) {parent : Option NodeId} (siblings : ∀ id ∈ gone, f.parent? id = parent)
    (apart : ∀ id ∈ last, f.contains id target = false) : f.Regroups f' gone target last where
  sound := h'
  next := next
  entry := entry
  parent := h.parent_of_entry h' hasTarget entry subset
  node id hid := h.node?_of_entry h' entry siblings (subset hid) (apart id hid)

/-! ### One node -/

/-- A node among the roots is nobody's child. -/
theorem IsSound.entry_free (h : f.IsSound) (found : f.node? t.id = some t) :
    (f.free t).IsSound ∧
      ∀ id, (f.free t).entry id = (f.entry id).map (Entry.regroup [t.id] []) := by
  have stays {id : NodeId} (elsewhere : f.parent? t.id ≠ some id) :
      (f.entry id).map (Entry.regroup [t.id] []) = f.entry id := by
    cases hentry : f.entry id with
    | none => rfl
    | some e =>
      refine congrArg some (Entry.regroup_of_disjoint fun other hother same => ?_)
      rw [List.mem_singleton.1 same, entry_children hentry, h.mem_childIds] at hother
      exact elsewhere hother
  cases hparent : f.parent? t.id with
  | none =>
    have rewrites := h.rewrites_free_root (h.mem_trees found hparent)
    refine ⟨rewrites.sound, fun id => ?_⟩
    rw [rewrites.entry_of_notMem h rfl (by simp), stays (by simp [hparent])]
  | some above =>
    obtain ⟨e, hentry⟩ := has_iff_entry.1 (h.has_of_parent hparent).1
    have rewrites := h.rewrites_free found hparent hentry
    refine ⟨rewrites.sound, fun id => ?_⟩
    by_cases here : id = above
    · rw [here, rewrites.entry _ List.mem_cons_self, hentry]
      simp [Entry.regroup]
    · rw [rewrites.entry_of_notMem h rfl (by simpa using here),
        stays (by simpa [hparent] using Ne.symm here)]

/-- **Appending a node** that is not above its new parent. -/
theorem IsSound.entry_appendNode (h : f.IsSound) (hasTarget : f.Has target) (hasChild : f.Has child)
    (apart : f.contains child target = false) :
    (f.appendNode target child).IsSound ∧ ∀ id, (f.appendNode target child).entry id =
      (f.entry id).map (Entry.regroup [child] (if id = target then [child] else [])) := by
  obtain ⟨t, found⟩ := hasChild
  obtain ⟨-, rfl⟩ := h.node?_eq_some.1 found
  have outside : target ∉ t.ids := by
    intro hmem
    simp [contains, found, hmem] at apart
  obtain ⟨sound, freed⟩ := h.entry_free found
  obtain ⟨e, hentry⟩ := has_iff_entry.1 ((has_of_entry freed target).2 hasTarget)
  have linked := sound.rewrites_link hentry outside
  have same : f.appendNode target t.id =
      ⟨Tree.modifyAmong target (Tree.appendChildren [t]) (Tree.prune (· = t.id) f.trees),
        f.next⟩ := by
    rw [appendNode, if_neg (by simp [apart])]
    simp only [found]
  rw [same]
  refine ⟨linked.sound, fun id => ?_⟩
  by_cases here : id = target
  · rw [here, linked.entry _ List.mem_cons_self, if_pos rfl]
    rw [freed] at hentry
    obtain ⟨e', hentry', rfl⟩ := Option.map_eq_some_iff.1 hentry
    rw [hentry']
    simp [Entry.regroup]
  · rw [linked.entry_of_notMem sound rfl (by simpa using here), if_neg here]
    exact freed id

/-- What is above the new parent is the same as before. -/
theorem IsSound.contains_appendNode (h : f.IsSound) (hasTarget : f.Has target)
    (hasChild : f.Has child) (apart : f.contains child target = false) (above : NodeId) :
    (f.appendNode target child).contains above target = f.contains above target := by
  obtain ⟨sound, entry⟩ := h.entry_appendNode hasTarget hasChild apart
  refine h.contains_congr sound (has_of_entry entry) (fun id inside => ?_) above
  have differ : id ≠ child := by
    rintro rfl
    rw [apart] at inside
    cases inside
  rw [h.parent_of_entry sound hasTarget entry (List.Subset.refl _)]
  simp [differ]

/-! ### Several nodes -/

/-- **One after another.** Of some nodes those that are not above their new parent are appended to
it; the others stay. -/
theorem IsSound.entry_foldl_appendNode (h : f.IsSound) (hasTarget : f.Has target)
    {children : List NodeId} (distinct : children.Nodup) (has : ∀ child ∈ children, f.Has child) :
    (children.foldl (fun f id => f.appendNode target id) f).IsSound ∧
      ∀ id, (children.foldl (fun f id => f.appendNode target id) f).entry id =
        (f.entry id).map (Entry.regroup (children.filter (!f.contains · target))
          (if id = target then children.filter (!f.contains · target) else [])) := by
  induction children generalizing f with
  | nil =>
    refine ⟨h, fun id => ?_⟩
    cases hentry : f.entry id with
    | none => simp [hentry]
    | some e =>
      simpa [hentry] using (Entry.regroup_of_disjoint fun _ _ => List.not_mem_nil).symm
  | cons child rest ih =>
    obtain ⟨fresh, distinct⟩ := List.nodup_cons.1 distinct
    obtain ⟨hasChild, has⟩ := List.forall_mem_cons.1 has
    rw [List.foldl_cons]
    cases above : f.contains child target with
    | true =>
      rw [appendNode, if_pos above]
      simpa [above] using ih h hasTarget distinct has
    | false =>
      obtain ⟨sound, entry⟩ := h.entry_appendNode hasTarget hasChild above
      have hasAll := has_of_entry entry
      obtain ⟨sound', entry'⟩ := ih sound ((hasAll target).2 hasTarget) distinct
        fun other hother => (hasAll other).2 (has other hother)
      refine ⟨sound', fun id => ?_⟩
      simp only [h.contains_appendNode hasTarget hasChild above] at entry'
      rw [entry', entry, Option.map_map]
      refine congrArg (Option.map · (f.entry id)) (funext fun e => ?_)
      -- the node itself is not among the later ones, so it stays where it was put
      by_cases here : id = target
      · simp [Entry.regroup, here, above, fresh, List.filter_filter, Bool.and_comm]
      · simp [Entry.regroup, here, above, List.filter_filter, Bool.and_comm]

/-- Taking all children away. -/
theorem IsSound.entry_takeChildren (h : f.IsSound) (has : f.Has child) :
    (f.takeChildren child).IsSound ∧ ∀ id, (f.takeChildren child).entry id =
      (f.entry id).map (Entry.regroup (f.childIds child) []) := by
  obtain ⟨e, hentry⟩ := has_iff_entry.1 has
  have rewrites := h.rewrites_takeChildren hentry
  refine ⟨rewrites.sound, fun id => ?_⟩
  by_cases here : id = child
  · rw [here, rewrites.entry _ List.mem_cons_self, hentry]
    simp [Entry.regroup, entry_children hentry]
  · rw [rewrites.entry_of_notMem h (next_takeChildren ..) (by simpa using here)]
    cases hid : f.entry id with
    | none => rfl
    | some e' =>
      refine (congrArg some (Entry.regroup_of_disjoint fun other hother isGone => ?_)).symm
      rw [entry_children hid] at hother
      exact here (h.parent_unique hother isGone)

/-! ### Appending -/

/-- A node that is not a container is appended itself. -/
theorem append_of_node (node : f.kind child ≠ .fragment) :
    f.append target child = f.appendNode target child := by
  rw [append]
  split
  · next container => exact absurd container node
  · rfl

/-- A container that is appended to itself gets its children back. -/
theorem IsSound.append_self (h : f.IsSound) (has : f.Has target)
    (container : f.kind target = .fragment) : f.append target target = f := by
  obtain ⟨t, found⟩ := has
  obtain ⟨before, after, trees, -, htaken, taken, distinct⟩ := h.exists_taken found
  have same : trees = Tree.modifyAmong target (Tree.withChildren []) f.trees := by
    rw [takeChildren_of_node? found] at htaken
    exact (List.append_cancel_right (congrArg Forest.trees htaken)).symm
  have inside : target ∈ Tree.idsAmong trees := by
    rw [Tree.idsAmong_eq, taken]
    simp
  have restored : Tree.modifyAmong target (Tree.withChildren t.children) f.trees = f.trees := by
    refine Tree.modifyAmong_of_fixed f.trees fun u hu hid => ?_
    cases found.symm.trans (h.node?_eq_some.2 ⟨hu, hid⟩)
    cases t
    rfl
  rw [append, container, childIds_of_node? found, Tree.childIds, htaken]
  refine (foldl_appendNode t.children trees distinct inside fun _ _ _ _ => rfl).trans ?_
  rw [same, Tree.modifyAmong_modifyAmong (Tree.id_withChildren []),
    Tree.appendChildren_comp_withChildren, List.nil_append, restored]

/-- **Of a container** the children are taken out.  Those that are not above the new parent are
appended to it. -/
theorem IsSound.regroups_children (h : f.IsSound) (hasTarget : f.Has target)
    (hasChild : f.Has child) (container : f.kind child = .fragment) :
    f.Regroups (f.append target child) (f.childIds child) target
      ((f.childIds child).filter (!f.contains · target)) := by
  have siblings : ∀ id ∈ f.childIds child, f.parent? id = some child := fun id =>
    h.mem_childIds.1
  have apart : ∀ id ∈ (f.childIds child).filter (!f.contains · target),
      f.contains id target = false := by
    intro id hid
    simpa using (List.mem_filter.1 hid).2
  obtain ⟨sound, entry⟩ := h.entry_takeChildren hasChild
  have hasAll := has_of_entry entry
  -- what is below the children stays below them, so the same of them are above the target
  have above : ∀ id ∈ f.childIds child,
      (f.takeChildren child).contains id target = f.contains id target := by
    intro id hid
    have nothing : ∀ id, (f.takeChildren child).entry id =
        (f.entry id).map (Entry.regroup (f.childIds child) (if id = child then [] else [])) := by
      simpa using entry
    have taken : (f.takeChildren child).node? id = f.node? id :=
      h.node?_of_entry sound nothing siblings hid (h.contains_of_parent (siblings id hid))
    rw [contains, contains, taken]
  have filtered : (f.childIds child).filter (!(f.takeChildren child).contains · target) =
      (f.childIds child).filter (!f.contains · target) :=
    List.filter_congr fun id hid => by rw [above id hid]
  obtain ⟨sound', entry'⟩ := sound.entry_foldl_appendNode ((hasAll target).2 hasTarget)
    (h.nodup_childIds child) fun id hid => (hasAll id).2 (h.has_of_parent (siblings id hid)).2
  rw [filtered] at entry'
  have same : f.append target child =
      (f.childIds child).foldl (fun f id => f.appendNode target id) (f.takeChildren child) := by
    rw [append, container]
  refine h.regroups (same ▸ sound') (next_append ..) hasTarget (fun id => ?_)
    (List.filter_subset_self _) siblings apart
  rw [same, entry', entry, Option.map_map]
  refine congrArg (Option.map · (f.entry id)) (funext fun e => ?_)
  -- only children of the container are appended, and they were taken out before
  rw [Function.comp, Entry.regroup_regroup]
  refine Entry.regroup_congr fun other => ?_
  simp +contextual [or_iff_left_of_imp]

/-- The container is empty afterwards, unless it is the new parent. -/
theorem Regroups.childIds_of_ne (h : f.Regroups f' (f.childIds child) target last)
    (differ : child ≠ target) : f'.childIds child = [] := by
  rw [childIds_eq, h.entry, if_neg differ]
  cases hentry : f.entry child with
  | none => rfl
  | some e => simp [entry_children hentry]

/-- **Appending.** If the node is above its new parent, nothing changes.  Otherwise it becomes the
last child of that, with what is below it, or all children of it do if it is a container, which is
empty then.  If a container is further up, its children are taken out all the same, and the one that
the new parent is below gets no parent again. -/
theorem IsSound.regroups_append (h : f.IsSound) (hasTarget : f.Has target)
    (hasChild : f.Has child) :
    (f.contains child target = true → (f.kind child = .fragment → child = target) →
      f.append target child = f) ∧
    (f.contains child target = false → f.kind child ≠ .fragment →
      f.Regroups (f.append target child) [child] target [child]) ∧
    (f.contains child target = false → f.kind child = .fragment →
      f.Regroups (f.append target child) (f.childIds child) target (f.childIds child) ∧
        (f.append target child).childIds child = []) ∧
    (f.contains child target = true → f.kind child = .fragment → child ≠ target →
      ∃ lost ∈ f.childIds child, f.contains lost target = true ∧
        f.Regroups (f.append target child) (f.childIds child) target
          ((f.childIds child).filter (· ≠ lost)) ∧
        (f.append target child).parent? lost = none ∧
        (f.append target child).childIds child = []) := by
  refine ⟨fun above whole => ?_, fun apart node => ?_, fun apart container => ?_,
    fun above container differ => ?_⟩
  · by_cases container : f.kind child = .fragment
    · obtain rfl := whole container
      exact h.append_self hasChild container
    · rw [append_of_node container, appendNode, if_pos above]
  · obtain ⟨sound, entry⟩ := h.entry_appendNode hasTarget hasChild apart
    rw [append_of_node node]
    exact h.regroups sound (next_appendNode ..) hasTarget entry (List.Subset.refl _)
      (List.forall_mem_singleton.2 rfl) (List.forall_mem_singleton.2 apart)
  · have differ : child ≠ target := by
      rintro rfl
      exact Bool.false_ne_true (apart.symm.trans (h.contains_self hasChild))
    have all : (f.childIds child).filter (!f.contains · target) = f.childIds child := by
      refine List.filter_eq_self.2 fun id hid => ?_
      have upper : f.contains child id = true :=
        h.contains_iff.2 ⟨hasChild, .single (h.mem_childIds.1 hid)⟩
      rw [Bool.not_eq_true', ← Bool.not_eq_true]
      exact fun inner => Bool.false_ne_true (apart.symm.trans (h.contains_trans upper inner))
    have moved := all ▸ h.regroups_children hasTarget hasChild container
    exact ⟨moved, moved.childIds_of_ne differ⟩
  · obtain ⟨lost, hlost, only⟩ := h.exists_child_above above differ
    have others : (f.childIds child).filter (!f.contains · target) =
        (f.childIds child).filter (· ≠ lost) := by
      refine List.filter_congr fun id hid => ?_
      have iff := only id (h.mem_childIds.1 hid)
      rw [Bool.eq_iff_iff, Bool.not_eq_true', ← Bool.not_eq_true, iff, decide_eq_true_eq]
    have moved := others ▸ h.regroups_children hasTarget hasChild container
    have hmem := h.mem_childIds.2 hlost
    refine ⟨lost, hmem, (only lost hlost).2 rfl, moved, ?_, moved.childIds_of_ne differ⟩
    rw [moved.parent, if_neg (by simp), if_pos hmem]

/-- A container with two children, and an element with a text. -/
def shelf : Forest Unit :=
  ⟨[.node ⟨⟨0⟩, []⟩ .fragment
      [.node ⟨⟨1⟩, []⟩ (.element "a" []) [], .node ⟨⟨2⟩, []⟩ (.element "b" []) []],
    .node ⟨⟨3⟩, []⟩ (.element "p" []) [.node ⟨⟨4⟩, []⟩ (.text "text") []]], 5⟩

/-- A container is emptied into a node that stands elsewhere, in order and behind what is there. -/
theorem regroups_append_shelf :
    shelf.IsSound ∧ shelf.contains ⟨0⟩ ⟨3⟩ = false ∧ shelf.kind ⟨0⟩ = .fragment ∧
      shelf.Regroups (shelf.append ⟨3⟩ ⟨0⟩) [⟨1⟩, ⟨2⟩] ⟨3⟩ [⟨1⟩, ⟨2⟩] ∧
      (shelf.append ⟨3⟩ ⟨0⟩).childIds ⟨3⟩ = [⟨4⟩, ⟨1⟩, ⟨2⟩] ∧
      (shelf.append ⟨3⟩ ⟨0⟩).childIds ⟨0⟩ = [] := by
  have sound : shelf.IsSound := ⟨by decide, by decide⟩
  have apart : shelf.contains ⟨0⟩ ⟨3⟩ = false := by decide
  obtain ⟨moved, empty⟩ := (sound.regroups_append ⟨_, rfl⟩ ⟨_, rfl⟩).2.2.1 apart rfl
  exact ⟨sound, apart, rfl, moved, rfl, empty⟩

/-- An element appends the container that it is in: the container is empty then, and the element has
no parent. -/
theorem append_container_above : shelf.IsSound ∧
    shelf.contains ⟨0⟩ ⟨1⟩ = true ∧ shelf.childIds ⟨0⟩ = [⟨1⟩, ⟨2⟩] ∧
      (shelf.append ⟨1⟩ ⟨0⟩).childIds ⟨0⟩ = [] ∧ (shelf.append ⟨1⟩ ⟨0⟩).parent? ⟨1⟩ = none :=
  ⟨⟨by decide, by decide⟩, by decide⟩

end Forest

end Bindery
