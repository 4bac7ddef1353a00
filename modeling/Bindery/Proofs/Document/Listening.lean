import Bindery.Proofs.Document.Appending
import Bindery.Proofs.Document.Operations

namespace Bindery

/-!
# Listeners stay

Whatever is done to nodes, no listener is taken away from one: more of them may come, after those
that there are.

* `Forest.Redraws` — every node is what some change makes of it, and has the listeners it had.
* `Forest.Bears` — every node has the listeners it had, and maybe others after them.
* `NodeOp.bears`, `Forest.Leads.bears` — so it is after one operation, and after any number.
-/

namespace Forest

variable {ℓ : Type} {f f' f'' : Forest ℓ} {id target : NodeId} {e : Entry ℓ}
  {news : List (NodeId × Entry ℓ)}

/-- Every node of the first document is in the second what a change makes of it, with the listeners
that it had. -/
def Redraws (f f' : Forest ℓ) (change : NodeId → Kind → Kind) : Prop :=
  ∀ ⦃id : NodeId⦄ ⦃e : Entry ℓ⦄, f.entry id = some e →
    ∃ children, f'.entry id = some ⟨e.listeners, change id e.kind, children⟩

/-- Every node of the first document has in the second the listeners that it had, and maybe others
after them. -/
def Bears (f f' : Forest ℓ) : Prop :=
  ∀ ⦃id : NodeId⦄ ⦃e : Entry ℓ⦄, f.entry id = some e →
    ∃ e', f'.entry id = some e' ∧ e.listeners <+: e'.listeners

theorem Bears.refl (f : Forest ℓ) : f.Bears f := fun _ e found => ⟨e, found, List.prefix_rfl⟩

/-- Listeners that stay from one document to the next stay all along. -/
theorem Bears.trans (h : f.Bears f') (h' : f'.Bears f'') : f.Bears f'' := by
  intro id e found
  obtain ⟨e', found', more⟩ := h found
  obtain ⟨e'', found'', more'⟩ := h' found'
  exact ⟨e'', found'', more.trans more'⟩

/-- A node whose listeners stay is still there. -/
theorem Bears.has (h : f.Bears f') (has : f.Has id) : f'.Has id := by
  obtain ⟨e, found⟩ := has_iff_entry.1 has
  obtain ⟨e', found', -⟩ := h found
  exact has_iff_entry.2 ⟨e', found'⟩

/-- Redrawing takes no listeners away. -/
theorem Redraws.bears {change : NodeId → Kind → Kind} (h : f.Redraws f' change) : f.Bears f' := by
  intro id e found
  obtain ⟨children, found'⟩ := h found
  exact ⟨_, found', List.prefix_rfl⟩

/-! ### Single changes -/

/-- Nodes with other children are what they were. -/
theorem redraws_of_regroup {gone : List NodeId} (last : NodeId → List NodeId)
    (entry : ∀ id, f'.entry id = (f.entry id).map (Entry.regroup gone (last id))) :
    f.Redraws f' fun _ kind => kind := by
  intro id e found
  rw [entry, found]
  exact ⟨_, rfl⟩

/-- Of the nodes that are rewritten those that were there have their listeners still. -/
theorem Rewrites.bears (h : f.Rewrites f' news) (sound : f.IsSound)
    (kept : ∀ row ∈ news, ∀ e, f.entry row.1 = some e → e.listeners <+: row.2.listeners) :
    f.Bears f' := by
  intro id e found
  by_cases changed : id ∈ news.map (·.1)
  · obtain ⟨row, hrow, rfl⟩ := List.mem_map.1 changed
    exact ⟨row.2, h.entry row hrow, kept row hrow e found⟩
  · exact ⟨e, (h.frame id changed (sound.lt_of_entry found)).trans found, List.prefix_rfl⟩

/-- A new node leaves the listeners of the others. -/
theorem IsSound.bears_plant (h : f.IsSound) (kind : Kind) : f.Bears (f.plant kind).2 := by
  refine (h.rewrites_plant kind).bears h (List.forall_mem_singleton.2 fun e found => ?_)
  -- the new node was not there
  exact absurd (h.lt_of_entry found) (Nat.lt_irrefl f.next)

/-- A new listener joins those that are there. -/
theorem IsSound.bears_listen (h : f.IsSound) (has : f.Has target) (event : String) (listener : ℓ) :
    f.Bears (f.listen target event listener) := by
  obtain ⟨e, hentry⟩ := has_iff_entry.1 has
  refine (h.rewrites_listen hentry event listener).bears h
    (List.forall_mem_singleton.2 fun e' found => ?_)
  cases hentry.symm.trans found
  exact List.prefix_append _ _

/-- A change of what one node is. -/
theorem IsSound.redraws_mapKind (h : f.IsSound) (has : f.Has target) (change : Kind → Kind) :
    f.Redraws (f.mapKind target change)
      fun id kind => if id = target then change kind else kind := by
  obtain ⟨e, hentry⟩ := has_iff_entry.1 has
  have rewrites := h.rewrites_mapKind hentry change
  intro id e' found
  by_cases here : id = target
  · subst here
    cases hentry.symm.trans found
    exact ⟨e.children, (rewrites.entry _ List.mem_cons_self).trans (by simp)⟩
  · have same := (rewrites.frame id (by simpa using here) (h.lt_of_entry found)).trans found
    exact ⟨e'.children, same.trans (by simp [here])⟩

/-- New trees as the children of a node change no node that was there. -/
theorem IsSound.redraws_setTrees (h : f.IsSound) (has : f.Has target) (trees : List (Tree Unit)) :
    f.Redraws (f.setTrees target trees) fun _ kind => kind := by
  obtain ⟨e, hentry⟩ := has_iff_entry.1 has
  have rewrites := h.rewrites_setTrees hentry trees
  intro id e' found
  by_cases here : id = target
  · subst here
    cases hentry.symm.trans found
    exact ⟨_, rewrites.entry _ List.mem_cons_self⟩
  · refine ⟨e'.children, (rewrites.frame id (fun changed => ?_) (h.lt_of_entry found)).trans found⟩
    rw [List.map_cons, List.mem_cons] at changed
    obtain same | new := changed
    · exact here same
    -- the new trees have identifiers that were free
    · rw [← Tree.idsAmong_eq, (Tree.idsAmong_identifyAll (ℓ := ℓ) f.next trees).1,
        List.mem_map] at new
      obtain ⟨n, hn, rfl⟩ := new
      exact absurd (h.lt_of_entry found) (Nat.not_lt.2 (List.mem_range'_1.1 hn).1)

/-- Taking out children changes no kinds and no listeners. -/
theorem IsSound.redraws_takeChildren (h : f.IsSound) (has : f.Has target) :
    f.Redraws (f.takeChildren target) fun _ kind => kind :=
  redraws_of_regroup (fun _ => []) (h.entry_takeChildren has).2

theorem IsSound.redraws_detach (h : f.IsSound) (has : f.Has target) :
    f.Redraws (f.detach target) fun _ kind => kind := by
  obtain ⟨t, found⟩ := has
  obtain ⟨-, rfl⟩ := h.node?_eq_some.1 found
  cases hparent : f.parent? t.id with
  | none =>
    have same : f.detach t.id = f := by simp only [detach, hparent]
    rw [same]
    exact fun id e found => ⟨e.children, found⟩
  | some above =>
    have freed : f.detach t.id = f.free t := by simp only [detach, hparent, found, free]
    rw [freed]
    exact redraws_of_regroup (fun _ => []) (h.entry_free found).2

theorem IsSound.redraws_append (h : f.IsSound) (hasTarget : f.Has target) (has : f.Has id) :
    f.Redraws (f.append target id) fun _ kind => kind := by
  by_cases container : f.kind id = .fragment
  · exact redraws_of_regroup _ (h.regroups_children hasTarget has container).entry
  · rw [append_of_node container]
    cases above : f.contains id target with
    | true =>
      rw [appendNode, if_pos above]
      exact fun id e found => ⟨e.children, found⟩
    | false => exact redraws_of_regroup _ (h.entry_appendNode hasTarget has above).2

end Forest

/-! ### Operations -/

variable {ℓ : Type} {f f' : Forest ℓ}

/-- **After one operation.** -/
theorem NodeOp.bears (op : NodeOp ℓ) (h : f.IsProper) (has : ∀ id ∈ op.handles, f.Has id) :
    f.Bears (op.apply f) := by
  have sound := h.toIsSound
  cases op with
  | create kind => exact sound.bears_plant kind
  | parse tag markup =>
    have planted := sound.bears_plant (.element tag [])
    simp only [apply, Forest.plantMarkup, Forest.setInner]
    cases readMarkup markup with
    | error e => exact .refl f
    | ok trees =>
      have filled := (sound.rewrites_plant (.element tag [])).sound.redraws_setTrees
        (h.has_plant (.element tag [])) trees
      exact planted.trans filled.bears
  | append parent child =>
    obtain ⟨hasParent, hasChild⟩ := List.forall_mem_cons.1 has
    exact (sound.redraws_append hasParent (hasChild child List.mem_cons_self)).bears
  | detach id => exact (sound.redraws_detach (has id List.mem_cons_self)).bears
  | takeChildren id => exact (sound.redraws_takeChildren (has id List.mem_cons_self)).bears
  | setInner id markup =>
    simp only [apply, Forest.setInner]
    cases readMarkup markup with
    | error e => exact .refl f
    | ok trees => exact (sound.redraws_setTrees (has id List.mem_cons_self) trees).bears
  | mapKind id change =>
    exact (sound.redraws_mapKind (has id List.mem_cons_self) change.apply).bears
  | listen id event listener =>
    exact sound.bears_listen (has id List.mem_cons_self) event listener

/-- **After any number of operations.** -/
theorem Forest.Leads.bears (h : f.IsProper) (leads : f.Leads f') : f.Bears f' := by
  induction leads with
  | refl => exact .refl f
  | tail between step ih =>
    obtain ⟨op, has, rfl⟩ := step
    exact ih.trans (op.bears (Forest.Leads.keeps h between).1 has)

end Bindery
