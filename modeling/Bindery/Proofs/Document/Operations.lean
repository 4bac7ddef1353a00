import Bindery.Proofs.Document.Growing

namespace Bindery

/-!
# Operations on nodes

What anybody who has hold of some nodes may do.  Documents and nodes with links change alike, so the
links of a document are those of a forest after any operations.

* `NodeOp` — an operation; `NodeOp.apply`, `NodeOp.relink` — what it does to documents and to links.
* `NodeOp.relinks` — it does the same to both, and comes to an end.
* `Forest.Leads` — operations one after another, on nodes that are there.
* `Forest.IsProper.collect` — nodes that nothing holds are gone from both.
-/

/-- A change of what a node is on its own. -/
inductive KindChange where
  | setAttr (name value : String)
  | removeAttr (name : String)
  | setData (data : String)

namespace KindChange

/-- What becomes of a kind. -/
def apply : KindChange → Kind → Kind
  | setAttr name value => Kind.setAttr name value
  | removeAttr name => Kind.removeAttr name
  | setData data => Kind.setData data

/-- Nothing becomes a container. -/
theorem fragment_of_apply (change : KindChange) (kind : Kind) (h : change.apply kind = .fragment) :
    kind = .fragment := by
  cases change <;> cases kind <;> first | rfl | cases h

end KindChange

/-- An operation on nodes. -/
inductive NodeOp (ℓ : Type) where
  | create (kind : Kind)
  /-- A new element with the content that some markup stands for. -/
  | parse (tag markup : String)
  | append (parent child : NodeId)
  | detach (id : NodeId)
  | takeChildren (id : NodeId)
  | setInner (id : NodeId) (markup : String)
  | mapKind (id : NodeId) (change : KindChange)
  | listen (id : NodeId) (event : String) (listener : ℓ)

namespace NodeOp

variable {ℓ : Type}

/-- The nodes that somebody must have hold of for it. -/
def handles : NodeOp ℓ → List NodeId
  | create _ | parse _ _ => []
  | append parent child => [parent, child]
  | detach id | takeChildren id | setInner id _ | mapKind id _ | listen id _ _ => [id]

/-- The document after it.  Markup that is not well nested changes nothing. -/
def apply (op : NodeOp ℓ) (f : Forest ℓ) : Forest ℓ :=
  match op with
  | create kind => (f.plant kind).2
  | parse tag markup =>
    match f.plantMarkup tag markup with
    | .error _ => f
    | .ok (_, f) => f
  | append parent child => f.append parent child
  | detach id => f.detach id
  | takeChildren id => f.takeChildren id
  | setInner id markup =>
    match f.setInner id markup with
    | .error _ => f
    | .ok f => f
  | mapKind id change => f.mapKind id change.apply
  | listen id event listener => f.listen id event listener

/-- The links after it, if new nodes get the identifiers from `next` on. -/
def relink (op : NodeOp ℓ) (next fuel : Nat) (g : Links) : Option Links :=
  match op with
  | create kind => some (g.create ⟨next⟩ kind)
  | parse tag markup =>
    match readMarkup markup with
    | .error _ => some g
    | .ok trees => (g.create ⟨next⟩ (.element tag [])).setInner fuel ⟨next⟩
        ⟨next + 1 + (Tree.subtreesAmong trees).length⟩
        (Tree.identifyAll (ℓ := ℓ) (next + 1) trees).1
  | append parent child => g.append parent fuel child
  | detach id => some (g.detach id)
  | takeChildren id => some (g.takeChildren id)
  | setInner id markup =>
    match readMarkup markup with
    | .error _ => some g
    | .ok trees => g.setInner fuel id ⟨next + (Tree.subtreesAmong trees).length⟩
        (Tree.identifyAll (ℓ := ℓ) next trees).1
  | mapKind id change => some (g.mapKind id change.apply)
  | listen _ _ _ => some g

variable {f : Forest ℓ}

/-- **Documents and links change alike.** An operation on nodes that are there comes to an end on
links, and to the links of the document after it. -/
theorem relinks (op : NodeOp ℓ) (h : f.IsProper) (has : ∀ id ∈ op.handles, f.Has id) {fuel : Nat}
    (enough : (op.apply f).next + 3 < fuel) :
    ∃ g, op.relink f.next fuel f.links = some g ∧ f.Relinks (op.apply f) g := by
  cases op with
  | create kind => exact ⟨_, rfl, h.relinks_plant kind⟩
  | parse tag markup =>
    simp only [apply, relink, Forest.plantMarkup, Forest.setInner] at enough ⊢
    cases hread : readMarkup markup with
    | error e => exact ⟨_, rfl, h.relinks⟩
    | ok trees =>
      rw [hread] at enough
      have planted := h.relinks_plant (.element tag [])
      have hasNode := h.has_plant (.element tag [])
      obtain ⟨g, hset, filled⟩ := planted.proper.relinks_setInner hasNode hread enough
      rw [planted.links] at hset
      exact ⟨g, hset, planted.trans filled⟩
  | append parent child =>
    obtain ⟨hasParent, hasChild⟩ := List.forall_mem_cons.1 has
    have enough' : f.next + 2 < fuel := by
      rw [apply, Forest.next_append] at enough
      omega
    exact h.relinks_append hasParent (hasChild child List.mem_cons_self) enough'
  | detach id => exact ⟨_, rfl, h.relinks_detach (has id List.mem_cons_self)⟩
  | takeChildren id => exact ⟨_, rfl, h.relinks_takeChildren (has id List.mem_cons_self)⟩
  | setInner id markup =>
    simp only [apply, relink, Forest.setInner] at enough ⊢
    cases hread : readMarkup markup with
    | error e => exact ⟨_, rfl, h.relinks⟩
    | ok trees =>
      rw [hread] at enough
      exact h.relinks_setInner (has id List.mem_cons_self) hread enough
  | mapKind id change =>
    exact ⟨_, rfl, h.relinks_mapKind (has id List.mem_cons_self) change.fragment_of_apply⟩
  | listen id event listener =>
    exact ⟨_, rfl, h.relinks_listen (has id List.mem_cons_self) event listener⟩

end NodeOp

/-! ### Nodes that are gone -/

namespace Tree

variable {ℓ : Type} {held : NodeId → Bool} {sought : NodeId}

mutual

/-- Collecting leaves entries as they are, and drops some. -/
theorem rows_survivors : ∀ t : Tree (Mark ℓ), (rowsAmong (survivors held t)).Sublist t.rows
  | node mark kind children => by
    rw [survivors]
    split
    · rw [rowsAmong_cons, rowsAmong_nil, List.append_nil]
    · rw [rows_node]
      exact (rowsAmong_survivorsAmong children).cons _

/-- What stays is as it was. -/
theorem rowsAmong_survivorsAmong : ∀ ts : List (Tree (Mark ℓ)),
    (rowsAmong (survivorsAmong held ts)).Sublist (rowsAmong ts)
  | [] => .slnil
  | t :: rest => by
    rw [survivorsAmong, rowsAmong_append, rowsAmong_cons]
    exact (rows_survivors t).append (rowsAmong_survivorsAmong rest)

end

mutual

/-- Nodes that are held survive. -/
theorem mem_survivors : ∀ t : Tree (Mark ℓ), held sought = true → sought ∈ t.ids →
    sought ∈ idsAmong (survivors held t)
  | node mark kind children, hheld, h => by
    rw [survivors]
    split
    · rw [idsAmong_singleton]
      exact h
    · next dropped =>
      obtain root | below := List.mem_cons.1 h
      · exact absurd (root ▸ hheld) dropped
      · exact mem_survivorsAmong children hheld below

/-- What is held stays. -/
theorem mem_survivorsAmong : ∀ ts : List (Tree (Mark ℓ)), held sought = true →
    sought ∈ idsAmong ts → sought ∈ idsAmong (survivorsAmong held ts)
  | t :: rest, hheld, h => by
    rw [survivorsAmong, idsAmong_append, List.mem_append]
    obtain first | later := List.mem_append.1 h
    · exact .inl (mem_survivors t hheld first)
    · exact .inr (mem_survivorsAmong rest hheld later)

end

end Tree

namespace Forest

variable {ℓ : Type} {f f' : Forest ℓ} {held : NodeId → Bool} {id above : NodeId} {t : Tree (Mark ℓ)}

/-- Collecting leaves a sound document. -/
theorem IsSound.collect (h : f.IsSound) (held : NodeId → Bool) : (f.collect held).IsSound where
  distinct := h.distinct.sublist ((Tree.rowsAmong_survivorsAmong f.trees).map _)
  below row hrow := h.below row ((Tree.rowsAmong_survivorsAmong f.trees).subset hrow)

/-- What is still known of a node was known of it. -/
theorem IsSound.entry_of_collect (h : f.IsSound) {e : Entry ℓ}
    (hentry : (f.collect held).entry id = some e) : f.entry id = some e :=
  h.entry_eq_some.2 ((Tree.rowsAmong_survivorsAmong f.trees).subset
    ((h.collect held).entry_eq_some.1 hentry))

mutual

/-- What is below a node is held with it. -/
theorem IsSound.isHeld_below (h : f.IsSound) : ∀ t : Tree (Mark ℓ), f.node? t.id = some t →
    f.links.IsHeld held t.id → ∀ id ∈ t.ids, f.links.IsHeld held id
  | .node mark kind children, found, hheld, id, hid => by
    obtain rfl | below := List.mem_cons.1 hid
    · exact hheld
    · refine h.isHeld_belowAll children (fun child hchild => h.node?_child found hchild)
        (fun child hchild => .child hheld ?_) id below
      rw [children_links, childIds_of_node? found]
      exact List.mem_map_of_mem hchild

/-- What is below trees that are held is held. -/
theorem IsSound.isHeld_belowAll (h : f.IsSound) : ∀ ts : List (Tree (Mark ℓ)),
    (∀ t ∈ ts, f.node? t.id = some t) → (∀ t ∈ ts, f.links.IsHeld held t.id) →
    ∀ id ∈ Tree.idsAmong ts, f.links.IsHeld held id
  | t :: rest, found, hheld, id, hid => by
    obtain ⟨foundT, foundRest⟩ := List.forall_mem_cons.1 found
    obtain ⟨heldT, heldRest⟩ := List.forall_mem_cons.1 hheld
    obtain first | later := List.mem_append.1 hid
    · exact h.isHeld_below t foundT heldT id first
    · exact h.isHeld_belowAll rest foundRest heldRest id later

end

mutual

/-- What survives in a tree is held. -/
theorem IsSound.isHeld_of_mem_survivors (h : f.IsSound) : ∀ t : Tree (Mark ℓ),
    f.node? t.id = some t → ∀ id ∈ Tree.idsAmong (Tree.survivors held t), f.links.IsHeld held id
  | .node mark kind children, found, id, hid => by
    rw [Tree.survivors] at hid
    split at hid
    · next hheld =>
      rw [Tree.idsAmong_singleton] at hid
      exact h.isHeld_below _ found (.handle hheld) id hid
    · exact h.isHeld_of_mem_survivorsAmong children
        (fun child hchild => h.node?_child found hchild) id hid

/-- What stays is held. -/
theorem IsSound.isHeld_of_mem_survivorsAmong (h : f.IsSound) : ∀ ts : List (Tree (Mark ℓ)),
    (∀ t ∈ ts, f.node? t.id = some t) →
    ∀ id ∈ Tree.idsAmong (Tree.survivorsAmong held ts), f.links.IsHeld held id
  | t :: rest, found, id, hid => by
    obtain ⟨foundT, foundRest⟩ := List.forall_mem_cons.1 found
    rw [Tree.survivorsAmong, Tree.idsAmong_append, List.mem_append] at hid
    obtain first | later := hid
    · exact h.isHeld_of_mem_survivors t foundT id first
    · exact h.isHeld_of_mem_survivorsAmong rest foundRest id later

end

/-- What is there after collecting is held. -/
theorem IsSound.isHeld_of_has (h : f.IsSound) (has : (f.collect held).Has id) :
    f.links.IsHeld held id := by
  refine h.isHeld_of_mem_survivorsAmong f.trees (fun t ht => ?_) id ((h.collect held).has_iff.1 has)
  exact h.node?_eq_some.2 ⟨Tree.subset_subtreesAmong f.trees ht, rfl⟩

/-- What is held is there after collecting. -/
theorem IsSound.has_of_isHeld (h : f.IsSound) (hheld : f.links.IsHeld held id) (has : f.Has id) :
    (f.collect held).Has id := by
  induction hheld with
  | handle hid => exact (h.collect held).has_iff.2 (Tree.mem_survivorsAmong _ hid (h.has_iff.1 has))
  | @child above id _ hchild ih =>
    -- its parent stays, with all its children
    obtain ⟨hasAbove, -⟩ := h.has_of_parent (h.mem_childIds.1 hchild)
    obtain ⟨e, hentry⟩ := has_iff_entry.1 (ih hasAbove)
    have kept : id ∈ (f.collect held).childIds above := by
      rw [childIds_eq, hentry]
      rwa [children_links, childIds_eq, h.entry_of_collect hentry] at hchild
    exact ((h.collect held).has_of_parent ((h.collect held).mem_childIds.1 kept)).2

/-- What is held is known as before. -/
theorem IsSound.entry_collect (h : f.IsSound) (hheld : f.links.IsHeld held id) :
    (f.collect held).entry id = f.entry id := by
  cases hentry : f.entry id with
  | none =>
    refine Option.eq_none_iff_forall_ne_some.2 fun e hafter => ?_
    rw [h.entry_of_collect hafter] at hentry
    cases hentry
  | some e =>
    obtain ⟨e', hafter⟩ := has_iff_entry.1 (h.has_of_isHeld hheld (has_iff_entry.2 ⟨e, hentry⟩))
    rw [hafter, ← hentry, h.entry_of_collect hafter]

/-- **Nodes that nothing holds are gone**, from the document as from the links. -/
theorem IsSound.keeps_collect (h : f.IsSound) (held : NodeId → Bool) :
    f.links.Keeps held (f.collect held).links where
  kind id hheld := by rw [kind_links, kind_links, kind_eq, kind_eq, h.entry_collect hheld]
  children id hheld := by
    rw [children_links, children_links, childIds_eq, childIds_eq, h.entry_collect hheld]
  gone id lost := by
    have missing : (f.collect held).entry id = none :=
      Option.eq_none_iff_forall_ne_some.2 fun e hentry =>
        lost (h.isHeld_of_has (has_iff_entry.2 ⟨e, hentry⟩))
    rw [kind_links, children_links, kind_eq, childIds_eq, missing]
    exact ⟨rfl, rfl⟩
  parent id above := by
    rw [parent_links, parent_links, ← (h.collect held).mem_childIds, ← h.mem_childIds]
    constructor
    · intro hchild
      obtain ⟨has, -⟩ := (h.collect held).has_of_parent ((h.collect held).mem_childIds.1 hchild)
      have hheld := h.isHeld_of_has has
      rw [childIds_eq, h.entry_collect hheld, ← childIds_eq] at hchild
      exact ⟨hchild, hheld⟩
    · rintro ⟨hchild, hheld⟩
      rwa [childIds_eq, h.entry_collect hheld, ← childIds_eq]

/-- Collecting leaves a proper document. -/
theorem IsProper.collect (h : f.IsProper) (held : NodeId → Bool) : (f.collect held).IsProper := by
  refine ⟨h.toIsSound.collect held, fun id hkind => ?_⟩
  refine Option.eq_none_iff_forall_ne_some.2 fun above hparent => ?_
  -- a node with a parent is there, so it was what it is
  obtain ⟨-, has⟩ := (h.toIsSound.collect held).has_of_parent hparent
  have hheld := h.isHeld_of_has has
  rw [kind_eq, h.entry_collect hheld, ← kind_eq] at hkind
  have before := ((h.keeps_collect held).parent id above).1 hparent
  rw [parent_links, h.container id hkind] at before
  cases before.1

/-! ### One operation after another -/

/-- One operation, on nodes that are there. -/
def Step (f f' : Forest ℓ) : Prop :=
  ∃ op : NodeOp ℓ, (∀ id ∈ op.handles, f.Has id) ∧ f' = op.apply f

/-- Any number of operations. -/
def Leads : Forest ℓ → Forest ℓ → Prop := Relation.ReflTransGen Step

/-- A step leaves a proper document and takes no node away. -/
theorem Step.keeps (h : f.IsProper) (step : f.Step f') :
    f'.IsProper ∧ ∀ id, f.Has id → f'.Has id := by
  obtain ⟨op, has, rfl⟩ := step
  obtain ⟨g, -, relinks⟩ := op.relinks h has (Nat.lt_succ_self _)
  exact ⟨relinks.proper, relinks.has⟩

/-- Nodes that are there stay. -/
theorem Leads.keeps (h : f.IsProper) (leads : f.Leads f') :
    f'.IsProper ∧ ∀ id, f.Has id → f'.Has id := by
  induction leads with
  | refl => exact ⟨h, fun _ has => has⟩
  | tail _ step ih =>
    obtain ⟨proper, has⟩ := step.keeps ih.1
    exact ⟨proper, fun id hid => has id (ih.2 id hid)⟩

/-- The empty document is proper. -/
theorem isProper_empty : (empty : Forest ℓ).IsProper where
  distinct := List.nodup_nil
  below _ hrow := nomatch hrow
  container _ _ := rfl

/-- An operation on nodes that are there is a course of one step. -/
theorem leads_apply (op : NodeOp ℓ) (has : ∀ id ∈ op.handles, f.Has id) : f.Leads (op.apply f) :=
  .single ⟨op, has, rfl⟩

/-- Nodes appended in order. -/
theorem IsProper.leads_foldl_append (h : f.IsProper) {target : NodeId} (hasTarget : f.Has target)
    {children : List NodeId} (hasChildren : ∀ child ∈ children, f.Has child) :
    f.Leads (children.foldl (fun g child => g.append target child) f) := by
  induction children generalizing f with
  | nil => exact .refl
  | cons child rest ih =>
    obtain ⟨hasChild, hasRest⟩ := List.forall_mem_cons.1 hasChildren
    have first : f.Leads (f.append target child) :=
      leads_apply (.append target child) (by simpa [NodeOp.handles] using ⟨hasTarget, hasChild⟩)
    obtain ⟨proper, has⟩ := first.keeps h
    have later := ih proper (has _ hasTarget) fun child hchild => has child (hasRest child hchild)
    exact first.trans later

/-- A container is made for the children of a node, which are moved there one by one. -/
theorem IsProper.leads_stage (h : f.IsProper) (has : f.Has id) :
    f.Leads (f.stage id) ∧ (f.stage id).Has ⟨f.next⟩ := by
  have planted : f.Leads (f.plant .fragment).2 := leads_apply (.create .fragment) nofun
  obtain ⟨proper₁, has₁⟩ := planted.keeps h
  have taken : (f.plant .fragment).2.Leads ((f.plant .fragment).2.takeChildren id) :=
    leads_apply (.takeChildren id) (by simpa [NodeOp.handles] using has₁ id has)
  obtain ⟨proper₂, has₂⟩ := taken.keeps proper₁
  have hasChildren : ∀ child ∈ (f.plant .fragment).2.childIds id,
      ((f.plant .fragment).2.takeChildren id).Has child := fun child hchild =>
    has₂ child (proper₁.has_of_parent (proper₁.mem_childIds.1 hchild)).2
  have hasContainer := has₂ _ (h.has_plant .fragment)
  have moved := proper₂.leads_foldl_append hasContainer hasChildren
  exact ⟨planted.trans (taken.trans moved), (moved.keeps proper₂).2 _ hasContainer⟩

/-- A text in the place of the children of a node is a new node that is appended to it. -/
theorem IsProper.setText_eq (h : f.IsProper) (has : f.Has id) (text : String) : f.setText id text =
    ((f.takeChildren id).plant (.text text)).2.append id ⟨f.next⟩ := by
  have taken := h.relinks_takeChildren has
  have planted := taken.proper.relinks_plant (.text text)
  have hkind : ((f.takeChildren id).plant (.text text)).2.kind ⟨f.next⟩ = .text text := by
    have entry := (taken.proper.rewrites_plant (.text text)).entry _ List.mem_cons_self
    rw [plant, next_takeChildren] at entry
    rw [kind_eq, plant, next_takeChildren, entry]
    rfl
  obtain ⟨t, found⟩ := has
  have elsewhere : id ≠ ⟨f.next⟩ := by
    rintro rfl
    exact h.not_has_next (Nat.le_refl _) ⟨t, found⟩
  have outside : id ∉
      Tree.idsAmong [Tree.node ⟨⟨f.next⟩, ([] : List (String × ℓ))⟩ (.text text) []] := by
    simpa [Tree.idsAmong, Tree.ids] using elsewhere
  have distinct := planted.proper.nodup
  rw [append, hkind, setText, h.setTrees_eq found]
  rw [plant, next_takeChildren, takeChildren_of_node? found] at distinct ⊢
  refine ((appendNode_root distinct outside).trans ?_).symm
  rw [List.append_nil, Tree.modifyAmong_append,
    Tree.modifyAmong_modifyAmong (Tree.id_withChildren []), Tree.appendChildren_comp_withChildren,
    Tree.modifyAmong_of_notMem _ (h.notMem_children found)]
  rfl

/-- So it is done step by step. -/
theorem IsProper.leads_setText (h : f.IsProper) (has : f.Has id) (text : String) :
    f.Leads (f.setText id text) := by
  rw [h.setText_eq has]
  have taken : f.Leads (f.takeChildren id) :=
    leads_apply (.takeChildren id) (by simpa [NodeOp.handles] using has)
  obtain ⟨proper₁, has₁⟩ := taken.keeps h
  have planted : (f.takeChildren id).Leads ((f.takeChildren id).plant (.text text)).2 :=
    leads_apply (.create (.text text)) nofun
  obtain ⟨proper₂, has₂⟩ := planted.keeps proper₁
  have hasText := proper₁.has_plant (.text text)
  rw [next_takeChildren] at hasText
  refine taken.trans (planted.trans (leads_apply (.append id ⟨f.next⟩) ?_))
  exact List.forall_mem_cons.2 ⟨has₂ id (has₁ id has), List.forall_mem_singleton.2 hasText⟩

end Forest

end Bindery
