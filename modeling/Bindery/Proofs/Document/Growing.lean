import Bindery.Proofs.Document.Relinking
import Bindery.Proofs.Markup.Reading

namespace Bindery

/-!
# New nodes below a node

Markup brings new nodes.  Each is made on its own and appended to its parent, and in the end the
children of the container they are made in take the place of those that a node had.  Documents get
the new trees at once.

* `Tree.Fresh` — trees that can be made like that; those that are read from markup are.
* `Forest.attach` — trees as the last children of a node; `Forest.IsProper.growAll` makes them.
* `Forest.bring` — trees in a new container; `Forest.IsProper.rewrites_refill` — the container is
  appended to a node that has lost its children.
* `Forest.IsProper.relinks_setTrees` — new trees in the place of the children of a node.
-/

namespace Tree

variable {ℓ : Type} {u : Tree (Mark ℓ)}

mutual

/-- Attaching trees adds no nodes but theirs. -/
theorem mem_ids_appendChildren {target sought : NodeId} {more : List (Tree (Mark ℓ))} :
    ∀ t : Tree (Mark ℓ), sought ∈ (modifyAt target (appendChildren more) t).ids →
      sought ∈ t.ids ∨ sought ∈ idsAmong more
  | node mark kind children, h => by
    rw [modifyAt] at h
    split at h
    · rw [appendChildren, ids, idsAmong_append, ← List.cons_append, List.mem_append] at h
      exact h
    · rw [ids, List.mem_cons] at h ⊢
      obtain root | below := h
      · exact .inl (.inl root)
      · exact (mem_idsAmong_appendChildren children below).imp_left .inr

/-- Appended trees bring their own nodes only. -/
theorem mem_idsAmong_appendChildren {target sought : NodeId} {more : List (Tree (Mark ℓ))} :
    ∀ ts : List (Tree (Mark ℓ)), sought ∈ idsAmong (modifyAmong target (appendChildren more) ts) →
      sought ∈ idsAmong ts ∨ sought ∈ idsAmong more
  | [], h => .inl h
  | t :: rest, h => by
    rw [modifyAmong, idsAmong, List.mem_append] at h
    rw [idsAmong, List.mem_append]
    obtain first | later := h
    · exact (mem_ids_appendChildren t first).imp_left .inl
    · exact (mem_idsAmong_appendChildren rest later).imp_left .inr

end

section attached

variable {inner target : NodeId} {change : Tree (Mark ℓ) → Tree (Mark ℓ)}

mutual

/-- A change inside a tree that was attached can be made before that. -/
theorem modifyAt_attached : ∀ t : Tree (Mark ℓ), inner ∉ t.ids →
    modifyAt inner change (modifyAt target (appendChildren [u]) t) =
      modifyAt target (appendChildren [modifyAt inner change u]) t
  | node mark kind children, h => by
    rw [ids, List.mem_cons, not_or] at h
    have differ : mark.id ≠ inner := Ne.symm h.1
    rw [modifyAt, modifyAt]
    split
    · rw [appendChildren, modifyAt, if_neg differ, modifyAmong_append,
        modifyAmong_of_notMem children h.2]
      rfl
    · rw [modifyAt, if_neg differ, modifyAmong_attached children h.2]

/-- A change inside a tree that was appended may be made before. -/
theorem modifyAmong_attached : ∀ ts : List (Tree (Mark ℓ)), inner ∉ idsAmong ts →
    modifyAmong inner change (modifyAmong target (appendChildren [u]) ts) =
      modifyAmong target (appendChildren [modifyAt inner change u]) ts
  | [], _ => rfl
  | t :: rest, h => by
    rw [idsAmong, List.mem_append, not_or] at h
    rw [modifyAmong, modifyAmong, modifyAmong, modifyAt_attached t h.1,
      modifyAmong_attached rest h.2]

end

end attached

/-- New trees have all identifiers from a number on. -/
theorem mem_idsAmong_identifyAll {next : Nat} {trees : List (Tree Unit)} {sought : NodeId} :
    sought ∈ idsAmong (identifyAll (ℓ := ℓ) next trees).1 ↔
      next ≤ sought.val ∧ sought.val < next + (subtreesAmong trees).length := by
  rw [(idsAmong_identifyAll (ℓ := ℓ) next trees).1, List.mem_map]
  constructor
  · rintro ⟨i, hi, rfl⟩
    exact List.mem_range'_1.1 hi
  · exact fun inside => ⟨sought.val, List.mem_range'_1.2 inside, rfl⟩

/-- The nodes of new trees get different identifiers. -/
theorem nodup_identifyAll (next : Nat) (trees : List (Tree Unit)) :
    (idsAmong (identifyAll (ℓ := ℓ) next trees).1).Nodup := by
  rw [idsAmong_eq]
  exact (rowsAmong_identifyAll (ℓ := ℓ) next trees).1

/-- Nodes that are no containers, and that nobody listens to. -/
def Fresh (ts : List (Tree (Mark ℓ))) : Prop :=
  ∀ u ∈ subtreesAmong ts, u.label.listeners = [] ∧ u.kind ≠ .fragment

mutual

/-- New trees have no listeners, and no containers if there were none. -/
theorem fresh_identify (next : Nat) : ∀ t : Tree Unit, (∀ u ∈ t.subtrees, u.kind ≠ .fragment) →
    ∀ u ∈ (identify (ℓ := ℓ) next t).1.subtrees, u.label.listeners = [] ∧ u.kind ≠ .fragment
  | node label kind children, whole, u, hu => by
    obtain ⟨root, below⟩ := List.forall_mem_cons.1 whole
    rw [identify] at hu
    obtain rfl | inside := List.mem_cons.1 hu
    · exact ⟨rfl, root⟩
    · exact fresh_identifyAll (next + 1) children below u inside

theorem fresh_identifyAll (next : Nat) : ∀ ts : List (Tree Unit),
    (∀ u ∈ subtreesAmong ts, u.kind ≠ .fragment) → Fresh (identifyAll (ℓ := ℓ) next ts).1
  | t :: rest, whole, u, hu => by
    obtain ⟨first, later⟩ := List.forall_mem_append.1 whole
    rw [identifyAll] at hu
    obtain here | there := List.mem_append.1 hu
    · exact fresh_identify next t first u here
    · exact fresh_identifyAll _ rest later u there

end

/-- Canonical trees are made without containers. -/
theorem kind_of_canonicalAll {α : Type} {u : Tree α} (ts : List (Tree α))
    (canonical : CanonicalAll ts) (hu : u ∈ subtreesAmong ts) : u.kind ≠ .fragment := by
  intro container
  have regular := (regular_of_canonicalAll ts canonical hu).2
  rw [container] at regular
  exact regular

end Tree

namespace Forest

variable {ℓ : Type} {f : Forest ℓ} {id target : NodeId} {t : Tree (Mark ℓ)}
  {ts : List (Tree (Mark ℓ))} {e : Entry ℓ}

/-! ### Tree by tree -/

/-- A node is there if it stands in one of the trees. -/
theorem IsSound.has_iff (h : f.IsSound) : f.Has id ↔ id ∈ Tree.idsAmong f.trees := by
  simp only [Has, h.node?_eq_some, Tree.mem_idsAmong]

/-- A new node is there. -/
theorem IsProper.has_plant (h : f.IsProper) (kind : Kind) : (f.plant kind).2.Has ⟨f.next⟩ := by
  rw [(h.relinks_plant kind).proper.has_iff, plant, Tree.idsAmong_append]
  exact List.mem_append_right _ List.mem_cons_self

/-- The document with trees as the last children of a node. -/
def attach (target : NodeId) (ts : List (Tree (Mark ℓ))) (f : Forest ℓ) : Forest ℓ :=
  { f with trees := Tree.modifyAmong target (Tree.appendChildren ts) f.trees }

/-- What is attached first is there when more is attached. -/
theorem attach_attach (target : NodeId) (t : Tree (Mark ℓ)) (rest : List (Tree (Mark ℓ))) :
    (f.attach target [t]).attach target rest = f.attach target (t :: rest) := by
  rw [attach, attach, attach, Tree.modifyAmong_modifyAmong (Tree.id_appendChildren [t]),
    Tree.appendChildren_comp, List.singleton_append]

/-- What is not there is not there after trees without it are attached. -/
theorem IsSound.not_has_attach (h : f.IsSound) (attached : (f.attach target ts).IsSound)
    (free : ¬ f.Has id) (elsewhere : id ∉ Tree.idsAmong ts) : ¬ (f.attach target ts).Has id := by
  intro has
  obtain before | here := Tree.mem_idsAmong_appendChildren f.trees (attached.has_iff.1 has)
  · exact free (h.has_iff.2 before)
  · exact elsewhere here

/-- A node is made on its own and appended to its parent. -/
theorem IsProper.relinks_attach (h : f.IsProper) (hasTarget : f.Has target) (free : ¬ f.Has id)
    (given : id.val < f.next) {kind : Kind} (node : kind ≠ .fragment) {fuel : Nat}
    (enough : f.next < fuel) :
    ∃ g, Links.append target (fuel + 1) id (f.links.create id kind) = some g ∧
      f.Relinks (f.attach target [.node ⟨id, []⟩ kind []]) g ∧
      (f.attach target [.node ⟨id, []⟩ kind []]).Has id := by
  have added := h.relinks_add free given kind
  have hasNode : (f.add id kind).Has id := by
    rw [added.proper.has_iff, add, Tree.idsAmong_append]
    exact List.mem_append_right _ List.mem_cons_self
  have hkind : (f.add id kind).kind id ≠ .fragment := by
    rw [← kind_links, added.links]
    simpa [Links.create] using node
  obtain ⟨g, happend, appended, -⟩ :=
    added.proper.append_node (added.has target hasTarget) hasNode hkind enough
  have apart : target ≠ id := fun same => free (same ▸ hasTarget)
  have attached : (f.add id kind).appendNode target id =
      f.attach target [.node ⟨id, []⟩ kind []] := by
    have outside : target ∉ Tree.idsAmong [Tree.node (⟨id, []⟩ : Mark ℓ) kind []] := by
      simpa [Tree.idsAmong, Tree.ids] using apart
    refine (appendNode_root added.proper.nodup outside).trans ?_
    rw [List.append_nil]
    rfl
  rw [attached] at appended
  rw [added.links] at happend
  exact ⟨g, happend, added.trans appended, appended.has id hasNode⟩

mutual

/-- Making a tree node by node. -/
theorem IsProper.grow {f : Forest ℓ} (h : f.IsProper) {target : NodeId} (hasTarget : f.Has target)
    {fuel : Nat} (enough : f.next < fuel) : ∀ t : Tree (Mark ℓ), Tree.Fresh [t] → t.ids.Nodup →
    (∀ id ∈ t.ids, ¬ f.Has id ∧ id.val < f.next) →
    ∃ g, Links.grow (fuel + 1) target t f.links = some g ∧ f.Relinks (f.attach target [t]) g
  | .node ⟨id, listeners⟩ kind children, fresh, distinct, free => by
    obtain ⟨⟨unheard, node⟩, fresh'⟩ := List.forall_mem_cons.1 fresh
    cases (show listeners = [] from unheard)
    replace node : kind ≠ .fragment := node
    obtain ⟨alone, distinct'⟩ := List.nodup_cons.1 distinct
    obtain ⟨⟨unused, given⟩, free'⟩ := List.forall_mem_cons.1 free
    obtain ⟨g, happend, appended, hasNode⟩ := h.relinks_attach hasTarget unused given node enough
    -- then its children are made below it
    have free'' : ∀ other ∈ Tree.idsAmong children,
        ¬ (f.attach target [.node ⟨id, []⟩ kind []]).Has other ∧ other.val < f.next := by
      intro other hother
      obtain ⟨elsewhere, lt⟩ := free' other hother
      refine ⟨h.not_has_attach appended.proper.toIsSound elsewhere fun here => ?_, lt⟩
      obtain rfl : other = id := by simpa [Tree.idsAmong, Tree.ids] using here
      exact alone hother
    have enough' : (f.attach target [.node ⟨id, []⟩ kind []]).next < fuel := enough
    obtain ⟨g', hgrow, grown⟩ := IsProper.growAll appended.proper hasNode enough' children
      (fun u hu => fresh' u (List.mem_append_left _ hu)) distinct' free''
    have whole : (f.attach target [.node ⟨id, []⟩ kind []]).attach id children =
        f.attach target [.node ⟨id, []⟩ kind children] := by
      have elsewhere : id ∉ Tree.idsAmong f.trees := fun hmem => unused (h.has_iff.2 hmem)
      rw [attach, attach, attach, Tree.modifyAmong_attached f.trees elsewhere]
      simp [Tree.modifyAt, Tree.appendChildren]
    refine ⟨g', ?_, appended.trans (whole ▸ grown)⟩
    rw [Links.grow, happend, ← appended.links]
    exact hgrow

/-- **Making trees node by node.** -/
theorem IsProper.growAll {f : Forest ℓ} (h : f.IsProper) {target : NodeId}
    (hasTarget : f.Has target) {fuel : Nat} (enough : f.next < fuel) :
    ∀ ts : List (Tree (Mark ℓ)), Tree.Fresh ts → (Tree.idsAmong ts).Nodup →
    (∀ id ∈ Tree.idsAmong ts, ¬ f.Has id ∧ id.val < f.next) →
    ∃ g, Links.growAll (fuel + 1) target ts f.links = some g ∧ f.Relinks (f.attach target ts) g
  | [], _, _, _ => by
    refine ⟨f.links, rfl, ?_⟩
    rw [attach, Tree.modifyAmong_of_fixed _ fun u _ _ => Tree.appendChildren_nil u]
    exact h.relinks
  | t :: rest, fresh, distinct, free => by
    obtain ⟨freshT, freshRest⟩ := List.forall_mem_append.1 fresh
    obtain ⟨distinctT, distinctRest, apart⟩ := List.nodup_append.1 distinct
    obtain ⟨freeT, freeRest⟩ := List.forall_mem_append.1 free
    obtain ⟨g, hfirst, first⟩ := IsProper.grow h hasTarget enough t
      (fun u hu => freshT u (by simpa [Tree.subtreesAmong] using hu)) distinctT freeT
    have freeRest' : ∀ id ∈ Tree.idsAmong rest,
        ¬ (f.attach target [t]).Has id ∧ id.val < f.next := by
      intro id hid
      obtain ⟨unused, given⟩ := freeRest id hid
      refine ⟨h.not_has_attach first.proper.toIsSound unused fun here => ?_, given⟩
      rw [Tree.idsAmong_singleton] at here
      exact apart id here id hid rfl
    have enough' : (f.attach target [t]).next < fuel := enough
    obtain ⟨g', hrest, later⟩ := IsProper.growAll first.proper (first.has target hasTarget) enough'
      rest freshRest distinctRest freeRest'
    refine ⟨g', ?_, first.trans (attach_attach target t rest ▸ later)⟩
    rw [Links.growAll, hfirst, ← first.links]
    exact hrest

end

/-! ### In the place of others -/

/-- The document with trees in a new container. -/
def bring (container : NodeId) (ts : List (Tree (Mark ℓ))) (f : Forest ℓ) : Forest ℓ :=
  ⟨f.trees ++ [.node ⟨container, []⟩ .fragment ts], container.val + 1⟩

section bring

variable {n fuel : Nat} (h : f.IsProper) (distinct : (Tree.idsAmong ts).Nodup)
  (given : ∀ id ∈ Tree.idsAmong ts, f.next ≤ id.val ∧ id.val < n) (le : f.next ≤ n)

include h distinct given le

/-- The container is made first, and the trees in it. -/
theorem IsProper.relinks_bring (fresh : Tree.Fresh ts) (enough : n + 1 < fuel) :
    ∃ g, Links.growAll (fuel + 1) ⟨n⟩ ts (f.links.create ⟨n⟩ .fragment) = some g ∧
      f.Relinks (f.bring ⟨n⟩ ts) g := by
  have later : f.Relinks { f with next := n + 1 } f.links := h.relinks_next (by omega)
  have added := later.proper.relinks_add (h.not_has_next le) (Nat.lt_succ_self n) .fragment
  have hasContainer : ({ f with next := n + 1 } : Forest ℓ).add ⟨n⟩ .fragment |>.Has ⟨n⟩ := by
    rw [added.proper.has_iff, add, Tree.idsAmong_append]
    exact List.mem_append_right _ List.mem_cons_self
  have free : ∀ id ∈ Tree.idsAmong ts,
      ¬ (({ f with next := n + 1 } : Forest ℓ).add ⟨n⟩ .fragment).Has id ∧ id.val < n + 1 := by
    intro id hid
    obtain ⟨new, below⟩ := given id hid
    refine ⟨fun has => ?_, by omega⟩
    rw [added.proper.has_iff, add, Tree.idsAmong_append, List.mem_append] at has
    obtain before | container := has
    · exact h.not_has_next new (h.has_iff.2 before)
    · obtain rfl : id = ⟨n⟩ := by simpa [Tree.idsAmong, Tree.ids] using container
      exact Nat.lt_irrefl _ below
  obtain ⟨g, hgrow, grown⟩ := added.proper.growAll hasContainer enough ts fresh distinct free
  have brought : (({ f with next := n + 1 } : Forest ℓ).add ⟨n⟩ .fragment).attach ⟨n⟩ ts =
      f.bring ⟨n⟩ ts := by
    have elsewhere : (⟨n⟩ : NodeId) ∉ Tree.idsAmong f.trees := fun hmem =>
      h.not_has_next le (h.has_iff.2 hmem)
    simp [attach, add, bring, Tree.modifyAmong_append, Tree.modifyAmong_of_notMem _ elsewhere,
      Tree.modifyAmong, Tree.modifyAt, Tree.appendChildren]
  refine ⟨g, ?_, later.trans (added.trans (brought ▸ grown))⟩
  rw [← hgrow, added.links]
  rfl

/-- Nothing else changes. -/
theorem IsProper.rewrites_bring :
    f.Rewrites (f.bring ⟨n⟩ ts) (Tree.node ⟨⟨n⟩, []⟩ .fragment ts).rows := by
  have listed : ∀ row ∈ Tree.rowsAmong ts, f.next ≤ row.1.val ∧ row.1.val < n := fun row hrow =>
    given row.1 (Tree.idsAmong_eq ts ▸ List.mem_map_of_mem hrow)
  rw [Tree.rows_node]
  refine h.rewrites [] f.rows (.refl _) ?_ ?_ (by simp) ?_ ?_ (by simpa [bring] using by omega)
  · rw [rows, bring, Tree.rowsAmong_append, Tree.rowsAmong_cons, Tree.rows_node, Tree.rowsAmong_nil,
      List.append_nil]
    exact List.perm_append_comm
  · rw [List.map_cons, List.nodup_cons, ← Tree.idsAmong_eq]
    exact ⟨fun hmem => Nat.lt_irrefl _ (given _ hmem).2, distinct⟩
  · exact List.forall_mem_cons.2 ⟨.inr le, fun row hrow => .inr (listed row hrow).1⟩
  · refine List.forall_mem_cons.2 ⟨Nat.lt_succ_self n, fun row hrow => ?_⟩
    exact Nat.lt_succ_of_lt (listed row hrow).2

/-- In the end the node has the trees as its children, and the container is empty. -/
theorem IsProper.rewrites_refill (hentry : f.entry id = some e) :
    f.Rewrites (((f.bring ⟨n⟩ ts).takeChildren id).append id ⟨n⟩)
      ((⟨n⟩, ⟨[], .fragment, []⟩) :: (id, { e with children := ts.map Tree.id }) ::
        Tree.rowsAmong ts) := by
  have brought := h.rewrites_bring distinct given le
  have lt := h.lt_of_entry hentry
  -- the node is neither the container nor one of the new nodes
  have outside : id ∉ (Tree.node (⟨⟨n⟩, []⟩ : Mark ℓ) .fragment ts).ids := by
    intro hmem
    obtain container | new := List.mem_cons.1 hmem
    · exact NodeId.ne_of_lt (Nat.lt_of_lt_of_le lt le) container
    · exact Nat.not_lt.2 (given id new).1 lt
  have found : (f.bring ⟨n⟩ ts).entry id = some e :=
    (brought.frame id (Tree.ids_eq _ ▸ outside) lt).trans hentry
  have taken := brought.sound.rewrites_takeChildren found
  have same {other : NodeId} (differ : other ≠ id) :
      ((f.bring ⟨n⟩ ts).takeChildren id).entry other = (f.bring ⟨n⟩ ts).entry other :=
    taken.entry_of_notMem brought.sound (next_takeChildren ..) (by simpa using differ)
  have apart : ∀ row ∈ (Tree.node ⟨⟨n⟩, []⟩ .fragment ts).rows, row.1 ≠ id := by
    rintro row hrow rfl
    exact outside (Tree.ids_eq _ ▸ List.mem_map_of_mem hrow)
  have holds : ((f.bring ⟨n⟩ ts).takeChildren id).Holds [.node ⟨⟨n⟩, []⟩ .fragment ts] := by
    intro row hrow
    rw [Tree.rowsAmong_cons, Tree.rowsAmong_nil, List.append_nil] at hrow
    rw [same (apart row hrow)]
    exact brought.entry row hrow
  have moved := taken.sound.rewrites_append (taken.sound.node?_of_holds holds) rfl
    (taken.entry _ List.mem_cons_self) outside
  have kept {other : NodeId} (differ : other ≠ id) (notContainer : other ≠ ⟨n⟩) :
      (((f.bring ⟨n⟩ ts).takeChildren id).append id ⟨n⟩).entry other =
        (f.bring ⟨n⟩ ts).entry other := by
    rw [← same differ]
    exact moved.entry_of_notMem taken.sound (next_append ..) (by simpa using ⟨notContainer, differ⟩)
  rw [Tree.rows_node] at apart brought
  refine ⟨moved.sound, ?_, ?_, fun other elsewhere before => ?_⟩
  · rw [next_append, next_takeChildren]
    exact Nat.le_succ_of_le le
  · refine List.forall_mem_cons.2 ⟨moved.entry _ List.mem_cons_self,
      List.forall_mem_cons.2 ⟨?_, fun row hrow => ?_⟩⟩
    · exact moved.entry _ (List.mem_cons_of_mem _ List.mem_cons_self)
    · have new := given row.1 (Tree.idsAmong_eq ts ▸ List.mem_map_of_mem hrow)
      rw [kept (apart row (List.mem_cons_of_mem _ hrow)) (NodeId.ne_of_lt new.2)]
      exact brought.entry row (List.mem_cons_of_mem _ hrow)
  · rw [List.map_cons, List.map_cons, List.mem_cons, List.mem_cons, not_or, not_or] at elsewhere
    obtain ⟨notContainer, differ, notNew⟩ := elsewhere
    rw [kept differ notContainer]
    exact brought.frame other (List.not_mem_cons_of_ne_of_not_mem notContainer notNew) before

end bring

@[simp] theorem next_setTrees (f : Forest ℓ) (id : NodeId) (trees : List (Tree Unit)) :
    (f.setTrees id trees).next = f.next + (Tree.subtreesAmong trees).length :=
  (Tree.idsAmong_identifyAll (ℓ := ℓ) f.next trees).2

/-- A document in which trees were brought like that has the links of the one that got them at
once. -/
theorem IsProper.links_setTrees (h : f.IsProper) (hentry : f.entry id = some e)
    (trees : List (Tree Unit)) {n : Nat} (hn : n = f.next + (Tree.subtreesAmong trees).length)
    {last : Forest ℓ} (proper : last.IsProper) (next : last.next = n + 1)
    (refilled : f.Rewrites last ((⟨n⟩, ⟨[], .fragment, []⟩) ::
      (id, { e with children := (Tree.identifyAll (ℓ := ℓ) f.next trees).1.map Tree.id }) ::
        Tree.rowsAmong (Tree.identifyAll f.next trees).1)) :
    (f.setTrees id trees).IsProper ∧ (f.setTrees id trees).links = last.links := by
  have rewrites := h.rewrites_setTrees hentry trees
  have free : (f.setTrees id trees).next = n := by rw [next_setTrees, hn]
  have agree : ∀ other ≠ (⟨n⟩ : NodeId), (f.setTrees id trees).entry other = last.entry other := by
    intro other notContainer
    by_cases listed : other ∈
        ((id, { e with children := (Tree.identifyAll (ℓ := ℓ) f.next trees).1.map Tree.id }) ::
          Tree.rowsAmong (Tree.identifyAll f.next trees).1).map (·.1)
    · obtain ⟨row, hrow, rfl⟩ := List.mem_map.1 listed
      rw [rewrites.entry row hrow, refilled.entry row (List.mem_cons_of_mem _ hrow)]
    · by_cases before : other.val < f.next
      · rw [rewrites.frame other listed before,
          refilled.frame other (List.not_mem_cons_of_ne_of_not_mem notContainer listed) before]
      · -- the new nodes have all identifiers from the old ones to the container
        have beyond : n < other.val := by
          rw [List.map_cons, List.mem_cons, not_or, ← Tree.idsAmong_eq,
            Tree.mem_idsAmong_identifyAll, ← hn] at listed
          have differ : other.val ≠ n := fun same => notContainer (congrArg NodeId.mk same)
          omega
        rw [rewrites.sound.entry_of_le (by omega), refilled.sound.entry_of_le (by omega)]
  have emptied := refilled.entry _ List.mem_cons_self
  have missing : (f.setTrees id trees).entry ⟨n⟩ = none :=
    rewrites.sound.entry_of_le (Nat.le_of_eq free)
  refine rewrites.sound.relinked proper.paired (fun other => ?_) fun other => ?_
  · rw [kind_links, kind_eq, kind_eq]
    by_cases container : other = ⟨n⟩
    · rw [container, missing, emptied]
      rfl
    · rw [agree other container]
  · rw [children_links, childIds_eq, childIds_eq]
    by_cases container : other = ⟨n⟩
    · rw [container, missing, emptied]
      rfl
    · rw [agree other container]

/-- **New children.** Trees that are made in a new container, whose children then are appended, take
the place of the children of a node. -/
theorem IsProper.relinks_setTrees (h : f.IsProper) (has : f.Has id) {trees : List (Tree Unit)}
    (whole : ∀ u ∈ Tree.subtreesAmong trees, u.kind ≠ .fragment) {fuel : Nat}
    (enough : (f.setTrees id trees).next + 3 < fuel) :
    ∃ g, f.links.setInner fuel id ⟨f.next + (Tree.subtreesAmong trees).length⟩
        (Tree.identifyAll (ℓ := ℓ) f.next trees).1 = some g ∧
      f.Relinks (f.setTrees id trees) g := by
  rw [next_setTrees] at enough
  have distinct := Tree.nodup_identifyAll (ℓ := ℓ) f.next trees
  have given : ∀ id ∈ Tree.idsAmong (Tree.identifyAll (ℓ := ℓ) f.next trees).1,
      f.next ≤ id.val ∧ id.val < f.next + (Tree.subtreesAmong trees).length :=
    fun id hid => Tree.mem_idsAmong_identifyAll.1 hid
  generalize hn : f.next + (Tree.subtreesAmong trees).length = n at enough given ⊢
  have le : f.next ≤ n := by omega
  obtain ⟨e, hentry⟩ := has_iff_entry.1 has
  obtain ⟨fuel, rfl⟩ : ∃ k, fuel = k + 1 := ⟨fuel - 1, by omega⟩
  have enough' : n + 1 < fuel := by omega
  obtain ⟨g, hgrow, brought⟩ := h.relinks_bring distinct given le
    (Tree.fresh_identifyAll f.next trees whole) enough'
  have taken := brought.proper.relinks_takeChildren (brought.has id has)
  have hasContainer : (f.bring ⟨n⟩ (Tree.identifyAll f.next trees).1).Has ⟨n⟩ := by
    rw [brought.proper.has_iff, bring, Tree.idsAmong_append]
    exact List.mem_append_right _ List.mem_cons_self
  have enough'' : ((f.bring ⟨n⟩ (Tree.identifyAll f.next trees).1).takeChildren id).next + 2 <
      fuel + 1 := by
    rw [next_takeChildren]
    exact enough
  obtain ⟨g', happend, moved⟩ := taken.proper.relinks_append (taken.has id (brought.has id has))
    (taken.has ⟨n⟩ hasContainer) enough''
  have next : (((f.bring ⟨n⟩ (Tree.identifyAll f.next trees).1).takeChildren id).append id ⟨n⟩).next
      = n + 1 := by
    rw [next_append, next_takeChildren]
    rfl
  obtain ⟨proper, links⟩ := h.links_setTrees hentry trees hn.symm moved.proper next
    (h.rewrites_refill distinct given le hentry)
  have rewrites := h.rewrites_setTrees hentry trees
  refine ⟨g', ?_, proper, links.trans moved.links, rewrites.next_le,
    fun _ => rewrites.has h.toIsSound⟩
  rw [Links.setInner, hgrow, ← happend, taken.links, brought.links]
  rfl

/-- Markup stands for nodes that are no containers. -/
theorem IsProper.relinks_setInner (h : f.IsProper) (has : f.Has id) {markup : String}
    {trees : List (Tree Unit)} (hread : readMarkup markup = .ok trees) {fuel : Nat}
    (enough : (f.setTrees id trees).next + 3 < fuel) :
    ∃ g, f.links.setInner fuel id ⟨f.next + (Tree.subtreesAmong trees).length⟩
        (Tree.identifyAll (ℓ := ℓ) f.next trees).1 = some g ∧
      f.Relinks (f.setTrees id trees) g :=
  h.relinks_setTrees has
    (fun _ => Tree.kind_of_canonicalAll trees (canonicalAll_of_readMarkup hread)) enough

end Forest

end Bindery
