import Bindery.Document.Move
import Mathlib.Data.List.Nodup

namespace Bindery

/-!
# The nodes of trees, one by one

A row of trees as a table: of every node its listeners, its kind, and the identifiers of its
children.

* `Entry`, `Tree.rows`, `Tree.rowsAmong` — what is known of a node, and the tables of trees.
* `Tree.subAmong?_of_mem` — a node whose identifier is its own is found by it.
* `Tree.rowsAmong_modifyAmong` — a change below one node exchanges the rows below it.
* `Tree.idsAmong_identifyAll` — new trees have new identifiers.
* `Tree.map` — trees with other labels.
-/

/-- What is known of a node on its own. -/
structure Entry (ℓ : Type) where
  listeners : List (String × ℓ)
  kind : Kind
  children : List NodeId

/-- An identifier that was given out is not the next one. -/
theorem NodeId.ne_of_lt {id : NodeId} {next : Nat} (given : id.val < next) : id ≠ ⟨next⟩ := by
  rintro rfl
  exact Nat.lt_irrefl _ given

namespace Tree

variable {ℓ : Type} {t u : Tree (Mark ℓ)} {ts : List (Tree (Mark ℓ))} {sought : NodeId}

/-- What is known of the root. -/
def entry (t : Tree (Mark ℓ)) : Entry ℓ := ⟨t.label.listeners, t.kind, t.childIds⟩

/-- The nodes of a row of trees with what is known of each. -/
def rowsAmong (ts : List (Tree (Mark ℓ))) : List (NodeId × Entry ℓ) :=
  (subtreesAmong ts).map fun u => (u.id, u.entry)

/-- The nodes of a tree with what is known of each. -/
def rows (t : Tree (Mark ℓ)) : List (NodeId × Entry ℓ) :=
  t.subtrees.map fun u => (u.id, u.entry)

@[simp] theorem rowsAmong_nil : rowsAmong ([] : List (Tree (Mark ℓ))) = [] := rfl

@[simp] theorem rowsAmong_cons (t : Tree (Mark ℓ)) (ts : List (Tree (Mark ℓ))) :
    rowsAmong (t :: ts) = t.rows ++ rowsAmong ts := by
  simp [rowsAmong, rows, subtreesAmong]

@[simp] theorem rowsAmong_append (ts us : List (Tree (Mark ℓ))) :
    rowsAmong (ts ++ us) = rowsAmong ts ++ rowsAmong us := by
  induction ts with
  | nil => rfl
  | cons t ts ih => simp [ih]

/-- The entry of the root comes first, then those of what is below it. -/
theorem rows_node (mark : Mark ℓ) (kind : Kind) (children : List (Tree (Mark ℓ))) :
    (node mark kind children).rows =
      (mark.id, ⟨mark.listeners, kind, children.map id⟩) :: rowsAmong children := rfl

/-- The first row of a tree is that of its root. -/
theorem rows_eq_cons (t : Tree (Mark ℓ)) : t.rows = (t.id, t.entry) :: rowsAmong t.children := by
  cases t
  rfl

theorem id_withChildren (children : List (Tree (Mark ℓ))) (t : Tree (Mark ℓ)) :
    (t.withChildren children).id = t.id := by
  cases t
  rfl

/-- Other children of a node are other rows below it. -/
theorem rows_withChildren (children : List (Tree (Mark ℓ))) (t : Tree (Mark ℓ)) :
    (t.withChildren children).rows =
      (t.id, { t.entry with children := children.map id }) :: rowsAmong children := by
  cases t
  rfl

@[simp] theorem id_node (mark : Mark ℓ) (kind : Kind) (children : List (Tree (Mark ℓ))) :
    (node mark kind children).id = mark.id := rfl

@[simp] theorem idsAmong_append (ts us : List (Tree (Mark ℓ))) :
    idsAmong (ts ++ us) = idsAmong ts ++ idsAmong us := by
  induction ts with
  | nil => rfl
  | cons t ts ih => simp [idsAmong, ih]

theorem idsAmong_singleton (t : Tree (Mark ℓ)) : idsAmong [t] = t.ids := List.append_nil _

mutual

/-- The identifiers are those of the rows. -/
theorem ids_eq : ∀ t : Tree (Mark ℓ), t.ids = t.rows.map (·.1)
  | node mark kind children => by rw [ids, rows_node, List.map_cons, idsAmong_eq children]

/-- The identifiers of trees are those of their entries. -/
theorem idsAmong_eq : ∀ ts : List (Tree (Mark ℓ)), idsAmong ts = (rowsAmong ts).map (·.1)
  | [] => rfl
  | t :: rest => by rw [idsAmong, rowsAmong_cons, List.map_append, ids_eq t, idsAmong_eq rest]

end

/-- The identifiers in a row of trees are those of what stands in it. -/
theorem mem_idsAmong {sought : NodeId} :
    sought ∈ idsAmong ts ↔ ∃ u ∈ subtreesAmong ts, u.id = sought := by
  simp [idsAmong_eq, rowsAmong]

/-- The identifiers in a tree are those of what stands in it. -/
theorem mem_ids {sought : NodeId} : sought ∈ ids t ↔ ∃ u ∈ subtrees t, u.id = sought := by
  simp [ids_eq, rows]

theorem mem_subtrees_self (t : Tree (Mark ℓ)) : t ∈ t.subtrees := by
  cases t
  exact List.mem_cons_self

theorem id_mem_ids (t : Tree (Mark ℓ)) : t.id ∈ t.ids := mem_ids.2 ⟨t, mem_subtrees_self t, rfl⟩

mutual

/-- What is below a node below a tree is below the tree. -/
theorem children_subset_of_mem {u : Tree (Mark ℓ)} :
    ∀ t : Tree (Mark ℓ), u ∈ t.subtrees → u.children ⊆ t.subtrees
  | node mark kind children, h => by
    obtain rfl | inside := List.mem_cons.1 h
    · exact List.Subset.trans (subset_subtreesAmong children) (List.subset_cons_self _ _)
    · exact List.Subset.trans (children_subset_of_memAmong children inside)
        (List.subset_cons_self _ _)

/-- The children of what stands in trees stand there. -/
theorem children_subset_of_memAmong {u : Tree (Mark ℓ)} :
    ∀ ts : List (Tree (Mark ℓ)), u ∈ subtreesAmong ts → u.children ⊆ subtreesAmong ts
  | t :: rest, h => by
    obtain first | later := List.mem_append.1 h
    · exact List.Subset.trans (children_subset_of_mem t first) (List.subset_append_left _ _)
    · exact List.Subset.trans (children_subset_of_memAmong rest later)
        (List.subset_append_right _ _)

theorem subset_subtreesAmong : ∀ ts : List (Tree (Mark ℓ)), ts ⊆ subtreesAmong ts
  | [] => List.nil_subset _
  | t :: rest => List.cons_subset.2 ⟨List.mem_append_left _ (mem_subtrees_self t),
      List.Subset.trans (subset_subtreesAmong rest) (List.subset_append_right _ _)⟩

end

/-! ### Finding nodes -/

mutual

/-- What is found is there, and has the identifier that was sought. -/
theorem sub?_mem {u : Tree (Mark ℓ)} :
    ∀ t : Tree (Mark ℓ), sub? sought t = some u → u ∈ t.subtrees ∧ u.id = sought
  | node mark kind children, h => by
    rw [sub?] at h
    split at h
    · next same =>
      cases h
      exact ⟨mem_subtrees_self _, same⟩
    · exact (subAmong?_mem children h).imp_left (List.mem_cons_of_mem _)

/-- What is found under an identifier stands there and bears it. -/
theorem subAmong?_mem {u : Tree (Mark ℓ)} :
    ∀ ts : List (Tree (Mark ℓ)), subAmong? sought ts = some u →
      u ∈ subtreesAmong ts ∧ u.id = sought
  | t :: rest, h => by
    rw [subAmong?] at h
    split at h
    · next found =>
      cases h
      exact (sub?_mem t found).imp_left (List.mem_append_left _)
    · exact (subAmong?_mem rest h).imp_left (List.mem_append_right _)

end

/-- An identifier that nothing bears is not found. -/
theorem sub?_of_notMem (h : sought ∉ t.ids) : sub? sought t = none := by
  cases found : sub? sought t with
  | none => rfl
  | some u => exact absurd (mem_ids.2 ⟨u, sub?_mem t found⟩) h

mutual

/-- If identifiers do not occur twice, every node is found by its own. -/
theorem sub?_of_mem : ∀ t : Tree (Mark ℓ), t.ids.Nodup → u ∈ t.subtrees → sub? u.id t = some u
  | node mark kind children, distinct, h => by
    obtain ⟨fresh, distinct'⟩ := List.nodup_cons.1 distinct
    obtain rfl | inside := List.mem_cons.1 h
    · rw [sub?]
      exact if_pos rfl
    · -- the root is not the node that is sought, as that one is below it
      have differ : mark.id ≠ u.id := fun same => fresh (mem_idsAmong.2 ⟨u, inside, same.symm⟩)
      rw [sub?, if_neg differ]
      exact subAmong?_of_mem children distinct' inside

/-- Among different identifiers each is found. -/
theorem subAmong?_of_mem : ∀ ts : List (Tree (Mark ℓ)), (idsAmong ts).Nodup →
    u ∈ subtreesAmong ts → subAmong? u.id ts = some u
  | t :: rest, distinct, h => by
    obtain ⟨distinctT, distinctRest, disjoint⟩ := List.nodup_append.1 distinct
    obtain first | later := List.mem_append.1 h
    · simp only [subAmong?, sub?_of_mem t distinctT first]
    · have elsewhere : u.id ∉ t.ids := fun hid =>
        disjoint u.id hid u.id (mem_idsAmong.2 ⟨u, later, rfl⟩) rfl
      simp only [subAmong?, sub?_of_notMem elsewhere]
      exact subAmong?_of_mem rest distinctRest later

end

/-! ### Changing what is below a node -/

variable {g : Tree (Mark ℓ) → Tree (Mark ℓ)}

mutual

/-- A change at an identifier that nothing bears changes nothing. -/
theorem modifyAt_of_notMem : ∀ t : Tree (Mark ℓ), sought ∉ t.ids → modifyAt sought g t = t
  | node mark kind children, h => by
    rw [ids, List.mem_cons, not_or] at h
    rw [modifyAt, if_neg (Ne.symm h.1), modifyAmong_of_notMem children h.2]

theorem modifyAmong_of_notMem : ∀ ts : List (Tree (Mark ℓ)), sought ∉ idsAmong ts →
    modifyAmong sought g ts = ts
  | [], _ => rfl
  | t :: rest, h => by
    rw [idsAmong, List.mem_append, not_or] at h
    rw [modifyAmong, modifyAt_of_notMem t h.1, modifyAmong_of_notMem rest h.2]

end

theorem modifyAmong_append (ts us : List (Tree (Mark ℓ))) :
    modifyAmong sought g (ts ++ us) = modifyAmong sought g ts ++ modifyAmong sought g us := by
  induction ts with
  | nil => rfl
  | cons t ts ih => simp [modifyAmong, ih]

/-- A change that keeps the identifier of the root keeps that of every root. -/
theorem id_modifyAt (hg : ∀ t, (g t).id = t.id) (t : Tree (Mark ℓ)) :
    (modifyAt sought g t).id = t.id := by
  cases t
  rw [modifyAt]
  split
  · exact hg _
  · rfl

/-- A change that keeps identifiers keeps the roots. -/
theorem map_id_modifyAmong (hg : ∀ t, (g t).id = t.id) (ts : List (Tree (Mark ℓ))) :
    (modifyAmong sought g ts).map id = ts.map id := by
  induction ts with
  | nil => rfl
  | cons t ts ih => simp [modifyAmong, id_modifyAt hg, ih]

mutual

/-- **Two changes of one node.** They come to one, the second after the first. -/
theorem modifyAt_modifyAt {g' : Tree (Mark ℓ) → Tree (Mark ℓ)} (hg : ∀ t, (g t).id = t.id) :
    ∀ t : Tree (Mark ℓ), modifyAt sought g' (modifyAt sought g t) = modifyAt sought (g' ∘ g) t
  | node mark kind children => by
    by_cases same : mark.id = sought
    · -- the changed node is found again, as it has the same identifier
      have found : (g (node mark kind children)).id = sought := (hg _).trans same
      rw [modifyAt, if_pos same, modifyAt, if_pos same, Function.comp]
      generalize g (node mark kind children) = changed at found
      cases changed
      rw [modifyAt]
      exact if_pos found
    · rw [modifyAt, if_neg same, modifyAt, if_neg same, modifyAt, if_neg same,
        modifyAmong_modifyAmong hg children]

/-- Two changes at one node are one change. -/
theorem modifyAmong_modifyAmong {g' : Tree (Mark ℓ) → Tree (Mark ℓ)} (hg : ∀ t, (g t).id = t.id) :
    ∀ ts : List (Tree (Mark ℓ)),
      modifyAmong sought g' (modifyAmong sought g ts) = modifyAmong sought (g' ∘ g) ts
  | [] => rfl
  | t :: rest => by
    rw [modifyAmong, modifyAmong, modifyAmong, modifyAt_modifyAt hg t,
      modifyAmong_modifyAmong hg rest]

end

mutual

/-- **Below one node.** The rows below a node stand together, and a change of the node that keeps
its identifier exchanges these and no others. -/
theorem rows_modifyAt : ∀ t : Tree (Mark ℓ), t.ids.Nodup → u ∈ t.subtrees →
    ∃ before after, t.rows = before ++ u.rows ++ after ∧
      ∀ g : Tree (Mark ℓ) → Tree (Mark ℓ), (∀ t, (g t).id = t.id) →
        (modifyAt u.id g t).rows = before ++ (g u).rows ++ after
  | node mark kind children, distinct, h => by
    obtain ⟨fresh, distinct'⟩ := List.nodup_cons.1 distinct
    obtain rfl | inside := List.mem_cons.1 h
    · refine ⟨[], [], by simp, fun g _ => ?_⟩
      rw [id_node, modifyAt, if_pos rfl]
      simp
    · -- the row of the root comes before, and names the same children as they keep their roots
      have differ : mark.id ≠ u.id := fun same => fresh (mem_idsAmong.2 ⟨u, inside, same.symm⟩)
      obtain ⟨before, after, hrows, hchange⟩ := rowsAmong_modifyAmong children distinct' inside
      refine ⟨(mark.id, ⟨mark.listeners, kind, children.map id⟩) :: before, after, ?_,
        fun g hg => ?_⟩
      · rw [rows_node, hrows]
        rfl
      · rw [modifyAt, if_neg differ, rows_node, hchange g hg, map_id_modifyAmong hg]
        rfl

/-- A change at a node of a row changes its entries, which stand together, and no others. -/
theorem rowsAmong_modifyAmong : ∀ ts : List (Tree (Mark ℓ)), (idsAmong ts).Nodup →
    u ∈ subtreesAmong ts → ∃ before after, rowsAmong ts = before ++ u.rows ++ after ∧
      ∀ g : Tree (Mark ℓ) → Tree (Mark ℓ), (∀ t, (g t).id = t.id) →
        rowsAmong (modifyAmong u.id g ts) = before ++ (g u).rows ++ after
  | t :: rest, distinct, h => by
    obtain ⟨distinctT, distinctRest, disjoint⟩ := List.nodup_append.1 distinct
    obtain first | later := List.mem_append.1 h
    · have elsewhere : u.id ∉ idsAmong rest := fun hid =>
        disjoint u.id (mem_ids.2 ⟨u, first, rfl⟩) u.id hid rfl
      obtain ⟨before, after, hrows, hchange⟩ := rows_modifyAt t distinctT first
      refine ⟨before, after ++ rowsAmong rest, by simp [hrows], fun g hg => ?_⟩
      rw [modifyAmong, rowsAmong_cons, hchange g hg, modifyAmong_of_notMem rest elsewhere]
      simp
    · have elsewhere : u.id ∉ t.ids := fun hid =>
        disjoint u.id hid u.id (mem_idsAmong.2 ⟨u, later, rfl⟩) rfl
      obtain ⟨before, after, hrows, hchange⟩ := rowsAmong_modifyAmong rest distinctRest later
      refine ⟨t.rows ++ before, after, by simp [hrows], fun g hg => ?_⟩
      rw [modifyAmong, rowsAmong_cons, modifyAt_of_notMem t elsewhere, hchange g hg]
      simp

end

mutual

/-- Taking away nodes that are not there changes nothing. -/
theorem pruneBelow_of_forall {gone : NodeId → Bool} :
    ∀ t : Tree (Mark ℓ), (∀ id ∈ t.ids, gone id = false) → pruneBelow gone t = t
  | node mark kind children, h => by
    rw [pruneBelow, prune_of_forall children fun id hid => h id (List.mem_cons_of_mem _ hid)]

theorem prune_of_forall {gone : NodeId → Bool} :
    ∀ ts : List (Tree (Mark ℓ)), (∀ id ∈ idsAmong ts, gone id = false) → prune gone ts = ts
  | [], _ => rfl
  | t :: rest, h => by
    have stays : gone t.id = false := h _ (List.mem_append_left _ t.id_mem_ids)
    rw [prune, stays, pruneBelow_of_forall t fun id hid => h id (List.mem_append_left _ hid),
      prune_of_forall rest fun id hid => h id (List.mem_append_right _ hid)]
    rfl

end

theorem prune_append (gone : NodeId → Bool) (ts us : List (Tree (Mark ℓ))) :
    prune gone (ts ++ us) = prune gone ts ++ prune gone us := by
  induction ts with
  | nil => rfl
  | cons t ts ih =>
    simp only [List.cons_append, prune, ih]
    split <;> rfl

/-! ### New trees -/

mutual

/-- New trees have the identifiers from the first free one on, in document order. -/
theorem ids_identify (next : Nat) : ∀ t : Tree Unit,
    (identify (ℓ := ℓ) next t).1.ids = (List.range' next t.subtrees.length).map NodeId.mk ∧
      (identify (ℓ := ℓ) next t).2 = next + t.subtrees.length
  | node _ kind children => by
    -- the root takes the first identifier, and its children go on from the next
    obtain ⟨hids, hleft⟩ := idsAmong_identifyAll (next + 1) children
    rw [identify, subtrees, List.length_cons, List.range'_succ]
    exact ⟨by simp [ids, hids], by simp [hleft]; omega⟩

/-- The nodes of new trees are numbered one after another. -/
theorem idsAmong_identifyAll (next : Nat) : ∀ ts : List (Tree Unit),
    idsAmong (identifyAll (ℓ := ℓ) next ts).1 =
        (List.range' next (subtreesAmong ts).length).map NodeId.mk ∧
      (identifyAll (ℓ := ℓ) next ts).2 = next + (subtreesAmong ts).length
  | [] => ⟨rfl, rfl⟩
  | t :: rest => by
    obtain ⟨hids, hleft⟩ := ids_identify next t
    obtain ⟨hids', hleft'⟩ := idsAmong_identifyAll (identify (ℓ := ℓ) next t).2 rest
    rw [identifyAll, subtreesAmong, List.length_append]
    rw [hleft] at hids' hleft'
    refine ⟨?_, by simp [hleft, hleft']; omega⟩
    simp [idsAmong, hids, hids', hleft, ← List.range'_append_1]

end

/-- New trees have new identifiers, each its own. -/
theorem rowsAmong_identifyAll (next : Nat) (trees : List (Tree Unit)) :
    ((rowsAmong (identifyAll (ℓ := ℓ) next trees).1).map (·.1)).Nodup ∧
      ∀ row ∈ rowsAmong (identifyAll (ℓ := ℓ) next trees).1,
        next ≤ row.1.val ∧ row.1.val < next + (subtreesAmong trees).length := by
  have hids := (idsAmong_identifyAll (ℓ := ℓ) next trees).1
  rw [idsAmong_eq] at hids
  constructor
  · rw [hids]
    exact (List.nodup_range' ..).map fun _ _ same => congrArg NodeId.val same
  · intro row hrow
    have hmem : row.1 ∈ (rowsAmong (identifyAll (ℓ := ℓ) next trees).1).map (·.1) :=
      List.mem_map_of_mem hrow
    rw [hids, List.mem_map] at hmem
    obtain ⟨n, hn, hsame⟩ := hmem
    rw [List.mem_range'_1] at hn
    rw [← hsame]
    exact hn

/-! ### Labels -/

mutual

/-- A tree with other labels. -/
def map {α β : Type} (f : α → β) : Tree α → Tree β
  | node label kind children => node (f label) kind (mapAll f children)

/-- A row of trees with other labels. -/
def mapAll {α β : Type} (f : α → β) : List (Tree α) → List (Tree β)
  | [] => []
  | t :: rest => map f t :: mapAll f rest

end

mutual

/-- New trees carry no listeners, so apart from their identifiers they are what they were. -/
theorem map_identify {β : Type} {f : Mark ℓ → β} {label : β} (next : Nat)
    (hf : ∀ id : NodeId, next ≤ id.val → f ⟨id, []⟩ = label) : ∀ t : Tree Unit,
    (identify next t).1.map f = t.map fun _ => label
  | node _ kind children => by
    rw [identify, map, map, hf _ (Nat.le_refl _),
      mapAll_identifyAll (next + 1) (fun id hid => hf id (Nat.le_of_succ_le hid)) children]

/-- A map that does not tell new identifiers apart forgets them. -/
theorem mapAll_identifyAll {β : Type} {f : Mark ℓ → β} {label : β} (next : Nat)
    (hf : ∀ id : NodeId, next ≤ id.val → f ⟨id, []⟩ = label) : ∀ ts : List (Tree Unit),
    mapAll f (identifyAll next ts).1 = mapAll (fun _ => label) ts
  | [] => rfl
  | t :: rest => by
    -- what `f` does is known of later identifiers too
    have hleft : next ≤ (identify (ℓ := ℓ) next t).2 := by
      rw [(ids_identify next t).2]
      exact Nat.le_add_right _ _
    rw [identifyAll, mapAll, mapAll, map_identify next hf t,
      mapAll_identifyAll _ (fun id hid => hf id (Nat.le_trans hleft hid)) rest]

end

end Tree

end Bindery
