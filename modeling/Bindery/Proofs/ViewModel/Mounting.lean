import Bindery.Proofs.Document.Staging
import Bindery.Proofs.ViewModel.Binding

namespace Bindery

/-!
# Mounting

Mounting a view model on an element binds the template in it.  If the template can be planned, that
succeeds, and the element then has the expansion of the template as its content.

* `ViewModel.Injects`, `ViewModel.Expands` — what binding makes of markup from data, and of a row of
  trees, with so many levels of such markup.
* `ViewModel.yields_tree`, `ViewModel.expands` — the first for each kind of node, then for all
  trees.
* `ViewModel.compile_ok`, `ViewModel.compile_error` — compilation as a whole.
* `ViewModel.mountOn_expands` — mounting computes the expansion.
* `ViewModel.mountOn_restores` — mounting that fails changes nothing.
-/

variable {υ : Type}

/-! ### Sites in order -/

namespace Compiler

variable {c : Compiler υ} {injected : NodeId → Act υ (List WatcherId)} {w : World (Page υ)}
  {new more : List (World.Watch (Page υ))} {f f' : Forest Listener}

/-- Places are bound one after another, and their watchers are collected in order. -/
theorem bindSites_append {sites rest : List (Site NodeId)} {w' w'' : World (Page υ)}
    {ids ids' : List WatcherId} (h : c.bindSites injected sites w = some (.ok ids, w'))
    (h' : c.bindSites injected rest w' = some (.ok ids', w'')) :
    c.bindSites injected (sites ++ rest) w = some (.ok (ids ++ ids'), w'') := by
  induction sites generalizing w ids with
  | nil =>
    cases h
    exact h'
  | cons site sites ih =>
    rw [bindSites, Act.both] at h
    rw [List.cons_append, bindSites, Act.both]
    split at h
    · cases h
    · cases h
    · next first w₁ hfirst =>
      split at h
      · cases h
      · cases h
      · next later w₂ hlater =>
        cases h
        simp only [ih hlater, List.append_assoc]

/-- **Some sites after others.** -/
theorem binds_append {sites rest : List (Site NodeId)}
    (h : (c.bindSites injected sites).Binds w new f)
    (h' : (c.bindSites injected rest).Binds (w.bound new f) more f') :
    (c.bindSites injected (sites ++ rest)).Binds w (new ++ more) f' := by
  obtain ⟨ids, hfirst⟩ := h
  obtain ⟨ids', hrest⟩ := h'
  rw [World.bound_bound] at hrest
  exact ⟨ids ++ ids', bindSites_append hfirst hrest⟩

/-- A single place is bound as it is. -/
theorem binds_single {site : Site NodeId} (h : (c.bindSite injected site).Binds w new f) :
    (c.bindSites injected [site]).Binds w new f := by
  have both := h.both (Act.binds_pure (w := w.bound new f))
  rw [World.document_bound, List.append_nil] at both
  exact both

/-- Planning below a node takes the labels of the trees there for what they identify. -/
theorem planBelow_apply (c : Compiler υ) (depth : Nat) (node : NodeId) (w : World (Page υ)) :
    c.planBelow depth node w =
      some (((c.template w).plan depth (((w.document.node? node).map Tree.children).getD [])).map
        (List.map (Site.map Mark.id)), w) := by
  rw [planBelow]
  refine congrArg (fun f => some (Except.map (List.map f) _, w)) (funext fun site => ?_)
  cases site <;> rfl

/-- **Compilation** is planning and binding in a world with the children of the root staged, and
they are put back in the end. -/
theorem compile_apply (c : Compiler υ) (root : NodeId) (w : World (Page υ)) : c.compile root w =
    ((c.planBelow injectionLimit ⟨w.document.next⟩ >>=
      c.bindSites (c.bindInjected injectionLimit)) (w.bound [] (w.document.stage root))).map
        fun ended => (ended.1, ended.2.editDocument (·.append root ⟨w.document.next⟩)) := rfl

/-- The places in the container are those of the template. -/
theorem planBelow_staged (c : Compiler υ) {tree : Tree (Mark Listener)}
    (staged : w.document.Staged (w.document.stage tree.id) tree) :
    c.planBelow injectionLimit ⟨w.document.next⟩ (w.bound [] (w.document.stage tree.id)) =
      some (((c.template w).plan injectionLimit tree.children).map
        (List.map (Site.map Mark.id)), w.bound [] (w.document.stage tree.id)) := by
  rw [planBelow_apply, World.document_bound, staged.container]
  rfl

/-- **Planning that fails.** The template stands in the element as it did. -/
theorem compile_error_of_plan (c : Compiler υ) {tree : Tree (Mark Listener)} {e : TemplateError}
    (sound : w.document.IsSound) (found : w.document.node? tree.id = some tree)
    (whole : ∀ child ∈ tree.children, child.kind ≠ .fragment)
    (planned : (c.template w).plan injectionLimit tree.children = .error e) :
    ∃ f, c.compile tree.id w = some (.error e, w.bound [] f) ∧
      w.document.Becomes f [tree] [tree] := by
  have staged := sound.stage found whole
  have below := c.planBelow_staged staged
  rw [planned] at below
  refine ⟨_, by rw [compile_apply, Step.bind_error below]; rfl, ?_⟩
  have restored := staged.restore sound (sound.holds_of_node? found)
    (staged.sound.becomes_refl (Forest.holds_node.1 staged.holds).2)
  cases tree
  exact restored

end Compiler

namespace ViewModel

variable {vm : ViewModel υ} {t : Template} {s : Store} {w : World (Page υ)} {root : NodeId}
  {seenFrom depth : Nat} {new : List (World.Watch (Page υ))} {f : Forest Listener}

/-- What a view model compiles its template by. -/
def compiler (vm : ViewModel υ) : Compiler υ := ⟨vm, vm.settings, .builtin⟩

/-- What the places of the template are checked against. -/
def templateOn (vm : ViewModel υ) (s : Store) : Template := ⟨vm.settings, vm.hasMethod, some s⟩

/-- What places are checked against is what the store of the view model shows. -/
theorem template_compiler (mounted : vm.mount = .element root) (w : World (Page υ)) :
    vm.compiler.template w = vm.templateOn w.store := by
  simp [compiler, Compiler.template, templateOn, mounted, Mount.store?]

/-- Trees that stand in a document, seen from a time not after it, where a view model is being
mounted. -/
structure Stands (vm : ViewModel υ) (t : Template) (s : Store) (w : World (Page υ)) (seenFrom : Nat)
    (ts : List (Tree (Mark Listener))) : Prop where
  mounted : ∃ root, vm.mount = .element root
  template : t = vm.templateOn s
  store : w.store = s
  reachable : s.Reachable
  sound : w.document.IsSound
  holds : w.document.Holds ts
  distinct : (Tree.idsAmong ts).Nodup
  seen : seenFrom ≤ w.document.next

/-- An operation that succeeds and makes of some trees others that look as expected. -/
def Yields (act : Act υ (List WatcherId)) (w : World (Page υ)) (seenFrom : Nat)
    (ts : List (Tree (Mark Listener))) (expected : List (Tree Origin)) : Prop :=
  ∃ new f ts', act.Binds w new f ∧ w.document.Becomes f ts ts' ∧
    Tree.mapAll (Mark.origin seenFrom) ts' = expected

section stands

variable {tree tree' : Tree (Mark Listener)} {ts : List (Tree (Mark Listener))}

/-- What trees have become stands where they stood. -/
theorem Stands.become (h : vm.Stands t s w seenFrom ts) (becomes : w.document.Becomes f ts [tree])
    (new : List (World.Watch (Page υ))) : vm.Stands t s (w.bound new f) seenFrom [tree] where
  mounted := h.mounted
  template := h.template
  store := (World.store_bound ..).trans h.store
  reachable := h.reachable
  sound := becomes.sound
  holds := becomes.holds
  distinct := by
    rw [Tree.idsAmong_singleton]
    exact becomes.sound.nodup_of_holds becomes.holds
  seen := Nat.le_trans h.seen becomes.next_le

/-- What is beside a tree still stands when the tree has changed. -/
theorem Stands.beside (h : vm.Stands t s w seenFrom (tree :: ts))
    (becomes : w.document.Becomes f [tree] [tree']) (new : List (World.Watch (Page υ))) :
    vm.Stands t s (w.bound new f) seenFrom ts where
  mounted := h.mounted
  template := h.template
  store := (World.store_bound ..).trans h.store
  reachable := h.reachable
  sound := becomes.sound
  holds := by
    obtain ⟨-, -, disjoint⟩ := List.nodup_append.1 h.distinct
    have hrest := (Forest.holds_cons.1 h.holds).2
    refine hrest.congr fun id hid => becomes.frame id (fun hmem => ?_) (hrest.lt h.sound hid)
    rw [Tree.idsAmong_singleton] at hmem
    exact disjoint id hmem id hid rfl
  distinct := (List.nodup_append.1 h.distinct).2.1
  seen := Nat.le_trans h.seen becomes.next_le

/-- The first of some trees stands where they stand. -/
theorem Stands.first (h : vm.Stands t s w seenFrom (tree :: ts)) :
    vm.Stands t s w seenFrom [tree] where
  mounted := h.mounted
  template := h.template
  store := h.store
  reachable := h.reachable
  sound := h.sound
  holds := (Forest.holds_cons.1 h.holds).1
  distinct := by
    rw [Tree.idsAmong_singleton]
    exact (List.nodup_append.1 h.distinct).1
  seen := h.seen

/-- The template is checked against the store. -/
theorem Stands.hasStore (h : vm.Stands t s w seenFrom ts) : t.store = some s := by
  rw [h.template]
  rfl

theorem Stands.below {mark : Mark Listener} {kind : Kind}
    (h : vm.Stands t s w seenFrom [.node mark kind ts]) : vm.Stands t s w seenFrom ts where
  mounted := h.mounted
  template := h.template
  store := h.store
  reachable := h.reachable
  sound := h.sound
  holds := (Forest.holds_node.1 h.holds).2
  distinct := (List.nodup_cons.1 (h.sound.nodup_of_holds h.holds)).2
  seen := h.seen

/-- An operation that does nothing leaves what stands. -/
theorem yields_pure (h : vm.Stands t s w seenFrom ts) :
    Yields (pure []) w seenFrom ts (Tree.mapAll (Mark.origin seenFrom) ts) :=
  ⟨[], w.document, ts, Act.binds_pure, h.sound.becomes_refl h.holds, rfl⟩

end stands

/-! ### Directives of one element -/

/-- The directives of an element that are checked act on it one after another, and leave its
children as long as none replaces them. -/
theorem binds_directives (injected : NodeId → Act υ (List WatcherId))
    {inject : String → Except TemplateError Unit} (tag : String) {ds : List Directive}
    {tree : Tree (Mark Listener)} (h : vm.Stands t s w seenFrom [tree])
    (checked : ∀ d ∈ ds, t.checkDirective inject d = .ok ())
    (event : ∀ d ∈ ds, d.kind = .on → d.event ≠ none)
    (readable : ∀ d ∈ ds, d.kind = .html →
      ∃ trees, readMarkup (s.shownValue d.expression) = .ok trees) :
    ∃ new f tree',
      (vm.compiler.bindSites injected (ds.map (.directive tree.id tag))).Binds w new f ∧
      w.document.Becomes f [tree] [tree'] ∧
      tree'.map (Mark.origin seenFrom) =
        ds.foldl (fun tree d => (t.shownBy s (Template.broughtBy s)).dress d tree)
          (tree.map (Mark.origin seenFrom)) ∧
      (lastOwner ds = none → tree'.children = tree.children) := by
  induction ds generalizing w tree with
  | nil =>
    exact ⟨[], w.document, tree, Act.binds_pure, h.sound.becomes_refl h.holds, rfl, fun _ => rfl⟩
  | cons d ds ih =>
    simp only [List.mem_cons, forall_eq_or_imp] at checked event readable
    obtain ⟨root, mounted⟩ := h.mounted
    obtain rfl := h.template
    obtain rfl := h.store
    obtain ⟨new, hbinds⟩ := Directive.binds h.reachable mounted rfl rfl checked.1 event.1
      readable.1 tree.id
    obtain ⟨tree₁, hbecomes, hlook, hsame⟩ := Directive.becomes d (vm.templateOn w.store) w.store
      h.sound h.seen h.holds
    have root₁ : tree₁.id = tree.id := by simpa using hbecomes.roots
    obtain ⟨more, f, tree₂, hrest, hbecomes', hlook', hsame'⟩ :=
      ih (h.become hbecomes new) checked.2 event.2 readable.2
    rw [root₁] at hrest
    refine ⟨new ++ more, f, tree₂, hbinds.both hrest, hbecomes.trans hbecomes', ?_, fun none => ?_⟩
    · rw [hlook', hlook]
      rfl
    · have none' := lastOwner_eq_none.1 none
      rw [List.any_cons, Bool.or_eq_false_iff] at none'
      rw [hsame' (lastOwner_eq_none.2 none'.2), hsame none'.1]

/-- If no text comes after markup, then an element with markup has markup as its content. -/
theorem any_html_of_pairwise {ds : List Directive} {d : Directive}
    (pairwise : ds.Pairwise fun first second => first.kind = .html → second.kind ≠ .text)
    (owner : lastOwner ds = some d) : ds.any (·.kind = .html) = decide (d.kind = .html) := by
  induction ds using List.reverseRecOn with
  | nil => cases owner
  | append_singleton ds last ih =>
    rw [lastOwner_concat] at owner
    obtain ⟨before, -, later⟩ := List.pairwise_append.1 pairwise
    rw [List.any_append, List.any_cons, List.any_nil, Bool.or_false]
    split at owner
    · next owns =>
      cases owner
      cases hkind : d.kind with
      | html => simp
      | text =>
        have none : ds.any (·.kind = .html) = false := by
          rw [List.any_eq_false]
          intro first hfirst hhtml
          exact later first hfirst d List.mem_cons_self (by simpa using hhtml) hkind
        rw [none]
        rfl
      | model => simp [hkind, DirectiveKind.ownsContent] at owns
      | on => simp [hkind, DirectiveKind.ownsContent] at owns
    · next owns =>
      have other : last.kind ≠ .html := fun html => owns (by rw [html]; rfl)
      rw [ih before owner]
      simp [other]

/-! ### Markup from data -/

/-- What binding makes of markup that an expression has brought into an element, with so many levels
of it. -/
def Injects (vm : ViewModel υ) (t : Template) (s : Store) (depth : Nat) : Prop :=
  ∀ ⦃w : World (Page υ)⦄ ⦃seenFrom : Nat⦄ ⦃mark : Mark Listener⦄ ⦃kind : Kind⦄
    ⦃children : List (Tree (Mark Listener))⦄ ⦃expr : String⦄,
    vm.Stands t s w seenFrom [.node mark kind children] → t.inject depth expr = .ok () →
    t.UnmixedBelow s depth expr →
    Tree.mapAll (Mark.origin seenFrom) children = Template.broughtBy s expr →
    Yields (vm.compiler.bindInjected depth mark.id) w seenFrom [.node mark kind children]
      [.node (mark.origin seenFrom) kind ((t.shownAt s depth).markup expr)]

/-- What binding makes of a row of trees that is planned, with so many levels of markup from
data. -/
def Expands (vm : ViewModel υ) (t : Template) (s : Store) (depth : Nat) : Prop :=
  ∀ ⦃w : World (Page υ)⦄ ⦃seenFrom : Nat⦄ ⦃ts : List (Tree (Mark Listener))⦄
    ⦃sites : List (Site (Mark Listener))⦄, vm.Stands t s w seenFrom ts →
    t.plan depth ts = .ok sites → t.UnmixedAll (t.UnmixedBelow s depth) ts →
    Yields (vm.compiler.bindSites (vm.compiler.bindInjected depth) (sites.map (Site.map Mark.id))) w
      seenFrom ts (t.expandAll (t.shownAt s depth) (Tree.mapAll (Mark.origin seenFrom) ts))

/-- Markup that is checked can be read and planned. -/
theorem readable_of_inject (hreach : s.Reachable) (hstore : t.store = some s) {expr : String}
    (h : t.inject depth expr = .ok ()) :
    ∃ rest trees sites, depth = rest + 1 ∧ readMarkup (s.shownValue expr) = .ok trees ∧
      t.plan rest trees = .ok sites := by
  cases depth with
  | zero => cases h
  | succ rest =>
    rw [Template.inject] at h
    cases hvalue : t.valueAt expr with
    | error e => simp [hvalue] at h
    | ok value =>
      obtain ⟨path, seen, hparse, hread, rfl⟩ := Template.valueAt_ok hstore hvalue
      simp only [hvalue, ← hreach.render_eq hread, ← hreach.shownValue_eq hparse hread] at h
      cases hmarkup : readMarkup (s.shownValue expr) with
      | error e => simp [hmarkup] at h
      | ok trees =>
        simp only [hmarkup] at h
        cases hplan : t.planTrees (t.inject rest) trees with
        | error e => simp [hplan, Except.map] at h
        | ok sites => exact ⟨rest, trees, sites, rfl, rfl, hplan⟩

/-- So can the markup that a checked directive brings. -/
theorem readable_of_checked (hreach : s.Reachable) (hstore : t.store = some s) {d : Directive}
    (checked : t.checkDirective (t.inject depth) d = .ok ()) (kind : d.kind = .html) :
    ∃ trees, readMarkup (s.shownValue d.expression) = .ok trees := by
  obtain ⟨_, trees, _, -, htrees, -⟩ :=
    readable_of_inject hreach hstore (Template.inject_of_checked checked kind)
  exact ⟨trees, htrees⟩

/-- Planning what is below a node of the document. -/
theorem planBelow_eq (mounted : vm.mount = .element root) (depth : Nat)
    {tree : Tree (Mark Listener)}
    (found : w.document.node? tree.id = some tree) : vm.compiler.planBelow depth tree.id w =
      some (((vm.templateOn w.store).plan depth tree.children).map
        (List.map (Site.map Mark.id)), w) := by
  rw [Compiler.planBelow_apply, template_compiler mounted, found]
  rfl

/-- **One level more.** Markup that was brought is planned and bound like the template itself. -/
theorem injects_succ (expands : vm.Expands t s depth) : vm.Injects t s (depth + 1) := by
  intro w seenFrom mark kind children expr h hinject unmixed brought
  obtain ⟨root, mounted⟩ := h.mounted
  obtain ⟨rest, trees, sites, hdepth, hmarkup, hplan⟩ :=
    readable_of_inject h.reachable h.hasStore hinject
  cases hdepth
  have htrees : s.shownTrees expr = trees := by simp [Store.shownTrees, hmarkup, Except.toOption]
  rw [Template.broughtBy, htrees] at brought
  -- the trees of the document are those that were checked, so they can be planned as well
  obtain ⟨found, hfound⟩ : ∃ found, t.plan depth children = .ok found := by
    have checked := Template.planTrees_map t (t.inject depth) (fun _ => Origin.fresh) trees
    rw [← brought, Template.planTrees_map, ← Template.plan, ← Template.plan, hplan] at checked
    cases hfound : t.plan depth children with
    | error e => simp [hfound, Except.map] at checked
    | ok found => exact ⟨found, rfl⟩
  have unmixed' : t.UnmixedAll (t.UnmixedBelow s depth) children := by
    rw [Template.UnmixedBelow, htrees] at unmixed
    rw [← Template.unmixedAll_map _ _ (Mark.origin seenFrom), brought, Template.unmixedAll_map]
    exact unmixed
  obtain ⟨new, f, children', ⟨ids, hbinds⟩, hbecomes, hlook⟩ := expands h.below hfound unmixed'
  refine ⟨new, f, _, ⟨ids, ?_⟩, hbecomes.node h.sound h.holds, ?_⟩
  · have hnode := h.sound.node?_of_holds h.holds
    have below := planBelow_eq mounted depth hnode
    rw [h.store, ← h.template, Tree.children_node, hfound] at below
    exact (Step.bind_ok below).trans hbinds
  · rw [Tree.mapAll, Tree.mapAll, Tree.map, hlook, brought]
    simp only [Template.shownAt, Template.shownBy, Template.broughtBy, htrees]

/-- With no levels left no markup from data is planned, so none has to be bound. -/
theorem injects_zero : vm.Injects t s 0 := by
  intro _ _ _ _ _ _ _ hinject
  cases hinject

/-! ### Trees -/

section trees

variable {mark : Mark Listener} {tag : String} {attrs : List (String × String)}
  {children : List (Tree (Mark Listener))} {sites : List (Site (Mark Listener))}

/-- Some sites are bound, and then more on what has become of the trees. -/
theorem Yields.after {injected : NodeId → Act υ (List WatcherId)} {first more : List (Site NodeId)}
    {ts ts' : List (Tree (Mark Listener))} {expected : List (Tree Origin)}
    (binds : (vm.compiler.bindSites injected first).Binds w new f)
    (becomes : w.document.Becomes f ts ts')
    (h : Yields (vm.compiler.bindSites injected more) (w.bound new f) seenFrom ts' expected) :
    Yields (vm.compiler.bindSites injected (first ++ more)) w seenFrom ts expected := by
  obtain ⟨new', f', ts'', binds', becomes', looks⟩ := h
  exact ⟨new ++ new', f', ts'', Compiler.binds_append binds binds', becomes.trans becomes', looks⟩

/-- What is bound below a node leaves the node. -/
theorem Yields.node {act : Act υ (List WatcherId)} {kind : Kind} {expected : List (Tree Origin)}
    (h : vm.Stands t s w seenFrom [.node mark kind children])
    (below : Yields act w seenFrom children expected) :
    Yields act w seenFrom [.node mark kind children]
      [.node (mark.origin seenFrom) kind expected] := by
  obtain ⟨new, f, children', binds, becomes, rfl⟩ := below
  exact ⟨new, f, _, binds, becomes.node h.sound h.holds, rfl⟩

/-- The content that a directive has brought is bound as a whole if it is markup, and not again if
it is a text. -/
theorem yields_content (injects : vm.Injects t s depth) {d : Directive} {kind : Kind}
    {id? : Option NodeId} (h : vm.Stands t s w seenFrom [.node mark kind children])
    (checked : t.checkDirective (t.inject depth) d = .ok ())
    (unmixed : d.kind = .html → t.UnmixedBelow s depth d.expression)
    (owns : d.kind.ownsContent = true)
    (brought : Tree.mapAll (Mark.origin seenFrom) children =
      (t.shownBy s (Template.broughtBy s)).content id? d) :
    Yields (vm.compiler.bindSites (vm.compiler.bindInjected depth)
        (if decide (d.kind = .html) then [.injected mark.id] else [])) w seenFrom
      [.node mark kind children]
      [.node (mark.origin seenFrom) kind
        ((t.shownBy s (t.shownAt s depth).markup).content id? d)] := by
  by_cases html : d.kind = .html
  · simp only [Shown.content, html] at brought ⊢
    obtain ⟨new, f, ts, hbinds, hbecomes, hlook⟩ := injects h
      (Template.inject_of_checked checked html) (unmixed html) brought
    exact ⟨new, f, ts, Compiler.binds_single hbinds, hbecomes, hlook⟩
  · -- the text is the same on every level
    have text : (t.shownBy s (Template.broughtBy s)).content id? d =
        (t.shownBy s (t.shownAt s depth).markup).content id? d := by
      cases hd : d.kind with
      | html => exact absurd hd html
      | text => simp only [Shown.content, hd]; rfl
      | model => simp [hd, DirectiveKind.ownsContent] at owns
      | on => simp [hd, DirectiveKind.ownsContent] at owns
    rw [decide_eq_false html, if_neg Bool.false_ne_true, ← text, ← brought]
    exact yields_pure h

/-- **An element.** Its directives act on it, and then what they bring is bound, or its children
are. -/
theorem yields_element (injects : vm.Injects t s depth)
    (h : vm.Stands t s w seenFrom [.node mark (.element tag attrs) children])
    (planned : t.planTree (t.inject depth) (.node mark (.element tag attrs) children) = .ok sites)
    (unmixed : t.Unmixed (t.UnmixedBelow s depth) (.node mark (.element tag attrs) children))
    (below : ∀ {w : World (Page υ)} {more}, vm.Stands t s w seenFrom children →
      t.planTrees (t.inject depth) children = .ok more →
      t.UnmixedAll (t.UnmixedBelow s depth) children →
      Yields (vm.compiler.bindSites (vm.compiler.bindInjected depth)
        (more.map (Site.map Mark.id))) w seenFrom children (t.expandAll (t.shownAt s depth)
          (Tree.mapAll (Mark.origin seenFrom) children))) :
    Yields (vm.compiler.bindSites (vm.compiler.bindInjected depth) (sites.map (Site.map Mark.id))) w
      seenFrom [.node mark (.element tag attrs) children]
      [t.expand (t.shownAt s depth)
        ((Tree.node mark (.element tag attrs) children).map (Mark.origin seenFrom))] := by
  obtain ⟨checked, hsites⟩ := Template.planTree_element planned
  rw [Template.Unmixed] at unmixed
  obtain ⟨pairwise, hunmixed⟩ := unmixed
  obtain ⟨new, f, ⟨mark', kind', children'⟩, hbinds, hbecomes, hlook, hsame⟩ :=
    binds_directives (vm.compiler.bindInjected depth) tag h checked
      (fun d hd => Template.event_of_mem hd)
      fun d hd html => readable_of_checked h.reachable h.hasStore (checked d hd) html
  have root : mark'.id = mark.id := by simpa using hbecomes.roots
  rw [Tree.map, Tree.map, Shown.foldl_dress, Tree.node.injEq] at hlook
  obtain ⟨hmark, rfl, hchildren⟩ := hlook
  rw [Tree.map, Template.expand, Template.shownAt_eq, Shown.foldl_dress, ← hmark]
  have after := h.become hbecomes new
  cases owner : lastOwner (t.directivesOf tag attrs) with
  | none =>
    -- the children are those that were planned
    rw [owner] at hsites hunmixed
    obtain ⟨more, hmore, rfl⟩ := hsites
    obtain rfl : children' = children := hsame owner
    have inner := Yields.node after (below after.below hmore hunmixed)
    rw [Template.shownAt_eq] at inner
    rw [List.map_append, List.map_map]
    exact Yields.after hbinds hbecomes inner
  | some d =>
    rw [owner] at hsites hunmixed hchildren
    obtain ⟨hmem, owns⟩ := mem_of_lastOwner owner
    have inner := yields_content injects after (checked d hmem) hunmixed owns hchildren
    rw [root] at inner
    rw [hsites, ← Template.elementSites_map, Template.elementSites,
      any_html_of_pairwise pairwise owner]
    exact Yields.after hbinds hbecomes inner

/-- **A text with markers.** -/
theorem yields_text {data : String}
    (h : vm.Stands t s w seenFrom [.node mark (.text data) children])
    (planned : t.planTree (t.inject depth) (.node mark (.text data) children) = .ok sites) :
    Yields (vm.compiler.bindSites (vm.compiler.bindInjected depth) (sites.map (Site.map Mark.id))) w
      seenFrom [.node mark (.text data) children]
      [t.expand (t.shownAt s depth)
        ((Tree.node mark (.text data) children).map (Mark.origin seenFrom))] := by
  rw [Tree.map, Template.expand, Template.shownAt_eq]
  obtain ⟨markers, rfl⟩ | ⟨markers, hcheck, rfl⟩ := Template.planTree_text planned
  · rw [markers]
    exact yields_pure h
  · rw [markers]
    obtain ⟨root, mounted⟩ := h.mounted
    obtain rfl := h.template
    obtain rfl := h.store
    obtain ⟨paths, hpaths, hread, htext⟩ := Template.checkText_ok rfl hcheck
    obtain ⟨hentry, -⟩ := Forest.holds_node.1 h.holds
    refine ⟨_, _, _, Compiler.binds_single (binds_interpolation mounted hpaths hread htext),
      (h.sound.rewrites_mapKind hentry _).becomes h.sound h.holds, ?_⟩
    rfl

end trees

mutual

/-- Binding the places of a tree makes its expansion of it. -/
theorem yields_tree (injects : vm.Injects t s depth) : ∀ (tree : Tree (Mark Listener))
    {w : World (Page υ)} {sites : List (Site (Mark Listener))},
    vm.Stands t s w seenFrom [tree] → t.planTree (t.inject depth) tree = .ok sites →
    t.Unmixed (t.UnmixedBelow s depth) tree →
    Yields (vm.compiler.bindSites (vm.compiler.bindInjected depth) (sites.map (Site.map Mark.id))) w
      seenFrom [tree] [t.expand (t.shownAt s depth) (tree.map (Mark.origin seenFrom))]
  | .node mark (.element tag attrs) children, _, _, h, planned, unmixed =>
    yields_element injects h planned unmixed fun below hmore hunmixed =>
      yields_trees injects children below hmore hunmixed
  | .node mark (.text data) children, _, _, h, planned, _ => yields_text h planned
  | .node mark (.comment data) children, _, _, h, planned, _ => by
    cases planned
    exact yields_pure h
  | .node mark .fragment children, _, _, h, planned, _ => by
    cases planned
    exact yields_pure h

/-- **Binding the places of some trees makes their expansion of them.** -/
theorem yields_trees (injects : vm.Injects t s depth) : ∀ (ts : List (Tree (Mark Listener)))
    {w : World (Page υ)} {sites : List (Site (Mark Listener))},
    vm.Stands t s w seenFrom ts → t.planTrees (t.inject depth) ts = .ok sites →
    t.UnmixedAll (t.UnmixedBelow s depth) ts →
    Yields (vm.compiler.bindSites (vm.compiler.bindInjected depth) (sites.map (Site.map Mark.id))) w
      seenFrom ts (t.expandAll (t.shownAt s depth) (Tree.mapAll (Mark.origin seenFrom) ts))
  | [], _, _, h, planned, _ => by
    cases planned
    exact yields_pure h
  | first :: rest, w, sites, h, planned, unmixed => by
    obtain ⟨own, more, hfirst, hrest, rfl⟩ := Template.planTrees_cons planned
    obtain ⟨new, f, ts, hbinds, hbecomes, hlook⟩ := yields_tree injects first h.first hfirst
      unmixed.1
    -- one tree has become one tree
    obtain ⟨first', rfl⟩ : ∃ first', ts = [first'] := by
      have hroots := hbecomes.roots
      exact List.length_eq_one_iff.1 (by simpa using congrArg List.length hroots)
    obtain ⟨new', f', rest', hbinds', hbecomes', hlook'⟩ :=
      yields_trees injects rest (h.beside hbecomes new) hrest unmixed.2
    refine ⟨new ++ new', f', first' :: rest', ?_,
      .cons h.sound h.holds h.distinct hbecomes hbecomes', ?_⟩
    · rw [List.map_append]
      exact Compiler.binds_append hbinds hbinds'
    · rw [Tree.mapAll, Tree.mapAll, List.cons.injEq] at hlook
      rw [Tree.mapAll, hlook', hlook.1]
      rfl

end

/-- **All levels.** -/
theorem expands (vm : ViewModel υ) (t : Template) (s : Store) (depth : Nat) :
    vm.Expands t s depth := by
  -- a level of markup needs the templates of the level below, and these the markup of theirs
  have both : vm.Injects t s depth ∧ vm.Expands t s depth := by
    induction depth with
    | zero => exact ⟨injects_zero, fun _ _ _ _ => yields_trees injects_zero _⟩
    | succ depth ih =>
      have injects := injects_succ ih.2
      exact ⟨injects, fun _ _ _ _ => yields_trees injects _⟩
  exact both.2

/-! ### Mounting -/

section mounting

variable {tree : Tree (Mark Listener)}

/-- Staging leaves the container and the document with the children in it. -/
theorem stage_eq (w : World (Page υ)) (root : NodeId) : Compiler.stage root w =
    some (.ok ⟨w.document.next⟩, w.bound [] (w.document.stage root)) := rfl

/-- What is bound while the children are staged is put back in the end. -/
theorem compile_eq {result : Except TemplateError (List WatcherId)}
    {new : List (World.Watch (Page υ))} {f : Forest Listener} (root : NodeId)
    (h : (vm.compiler.planBelow injectionLimit ⟨w.document.next⟩ >>=
      vm.compiler.bindSites (vm.compiler.bindInjected injectionLimit))
        (w.bound [] (w.document.stage root)) = some (result, w.bound new f)) :
    vm.compiler.compile root w =
      some (result, w.bound new (f.append root ⟨w.document.next⟩)) := by
  rw [Compiler.compile_apply, h]
  rfl

/-- An element with a template that a view model is mounted on. -/
structure Hosts (vm : ViewModel υ) (w : World (Page υ)) (tree : Tree (Mark Listener)) : Prop where
  mounted : vm.mount = .element tree.id
  reachable : w.store.Reachable
  sound : w.document.IsSound
  found : w.document.node? tree.id = some tree
  /-- Containers are never children of a node. -/
  whole : ∀ child ∈ tree.children, child.kind ≠ .fragment

/-- A tree that is the whole document, and data that nothing has happened to yet. -/
theorem hosts_new {next : Nat} {user : υ} (mounted : vm.mount = .element tree.id) (data : Json)
    (distinct : tree.ids.Nodup) (below : ∀ id ∈ tree.ids, id.val < next)
    (whole : ∀ child ∈ tree.children, child.kind ≠ .fragment) :
    vm.Hosts (World.new (.ofJson data) ⟨⟨[tree], next⟩, true, user⟩) tree := by
  have hids : (⟨[tree], next⟩ : Forest Listener).rows.map (·.1) = tree.ids := by
    rw [Forest.rows, ← Tree.idsAmong_eq, Tree.idsAmong_singleton]
  have sound : (⟨[tree], next⟩ : Forest Listener).IsSound := by
    refine ⟨hids ▸ distinct, fun row hrow => below row.1 ?_⟩
    rw [← hids]
    exact List.mem_map_of_mem hrow
  refine ⟨mounted, .ofJson data, sound, sound.node?_eq_some.2 ⟨?_, rfl⟩, whole⟩
  exact Tree.subset_subtreesAmong _ List.mem_cons_self

/-- The children of the element can be staged. -/
theorem Hosts.staged (h : vm.Hosts w tree) :
    w.document.Staged (w.document.stage tree.id) tree := h.sound.stage h.found h.whole

/-- The places in the container are those of the template. -/
theorem Hosts.planBelow (h : vm.Hosts w tree) :
    vm.compiler.planBelow injectionLimit ⟨w.document.next⟩ (w.bound [] (w.document.stage tree.id)) =
      some (((vm.templateOn w.store).plan injectionLimit tree.children).map
        (List.map (Site.map Mark.id)), w.bound [] (w.document.stage tree.id)) := by
  rw [Compiler.planBelow_staged _ h.staged, template_compiler h.mounted]

/-- **Planning that fails.** Then compiling fails with the same error and restores the element. -/
theorem compile_error (h : vm.Hosts w tree) {e : TemplateError}
    (planned : (vm.templateOn w.store).plan injectionLimit tree.children = .error e) :
    ∃ f, vm.compiler.compile tree.id w = some (.error e, w.bound [] f) ∧
      w.document.Becomes f [tree] [tree] :=
  vm.compiler.compile_error_of_plan h.sound h.found h.whole
    (template_compiler h.mounted w ▸ planned)

/-- **Planning that succeeds.** Then all places are bound, and the expansion stands in the
element; if there are no places, the template itself does. -/
theorem compile_ok (h : vm.Hosts w tree) {sites : List (Site (Mark Listener))}
    (planned : (vm.templateOn w.store).plan injectionLimit tree.children = .ok sites)
    (unmixed : (vm.templateOn w.store).UnmixedAll
      ((vm.templateOn w.store).UnmixedBelow w.store injectionLimit) tree.children) :
    ∃ ids new f children, vm.compiler.compile tree.id w = some (.ok ids, w.bound new f) ∧
      w.document.Becomes f [tree] [.node tree.label tree.kind children] ∧
      Tree.mapAll (Mark.origin w.document.next) children = (vm.templateOn w.store).expandAll
        ((vm.templateOn w.store).shownAt w.store injectionLimit)
        (Tree.mapAll (Mark.origin w.document.next) tree.children) ∧
      (sites = [] → children = tree.children) := by
  have staged := h.staged
  have hchildren := (Forest.holds_node.1 staged.holds).2
  have below := h.planBelow
  rw [planned] at below
  have stands : vm.Stands (vm.templateOn w.store) w.store (w.bound [] (w.document.stage tree.id))
      w.document.next tree.children :=
    ⟨⟨_, h.mounted⟩, rfl, rfl, h.reachable, staged.sound, hchildren,
      (List.nodup_cons.1 (staged.sound.nodup_of_holds staged.holds)).2, Nat.le_of_lt staged.next_lt⟩
  obtain ⟨new, f, children, ⟨ids, hbinds⟩, hbecomes, hlook⟩ :=
    expands vm _ _ injectionLimit stands planned unmixed
  rw [World.bound_bound, List.nil_append] at hbinds
  refine ⟨ids, new, _, children, compile_eq tree.id ((Step.bind_ok below).trans hbinds),
    staged.restore h.sound (h.sound.holds_of_node? h.found) hbecomes, hlook, fun none => ?_⟩
  -- nothing was bound, so the children are those that were staged
  subst none
  have same : w.bound [] (w.document.stage tree.id) = w.bound new f :=
    congrArg Prod.snd (Option.some.inj hbinds)
  have hf : w.document.stage tree.id = f := by
    rw [← World.document_bound w [] (w.document.stage tree.id), same, World.document_bound]
  have inside := hbecomes.node staged.sound staged.holds
  have found := staged.sound.node?_of_holds staged.holds
  rw [hf] at found
  exact (Tree.node.inj (Option.some.inj
    ((inside.sound.node?_of_holds inside.holds).symm.trans found))).2.2

/-- Settings that are of no use are refused before anything is done. -/
theorem mountOn_error {e : TemplateError} (refused : vm.settings.validate = .error e) :
    vm.mountOn .builtin w = some (.error e, w) := by
  have failed : (Step.ofExcept vm.settings.validate : Act υ Unit) w = some (.error e, w) := by
    rw [refused]
    rfl
  exact Step.bind_error failed

/-- Mounting with settings that are of use is compiling. -/
theorem mountOn_eq (mounted : vm.mount = .element root) (valid : vm.settings.validate = .ok ())
    (w : World (Page υ)) : vm.mountOn .builtin w = vm.compiler.compile root w := by
  have passed : (Step.ofExcept vm.settings.validate : Act υ Unit) w = some (.ok (), w) := by
    rw [valid]
    rfl
  rw [mountOn, Step.bind_ok passed, mounted]
  rfl

/-- **Mounting computes the expansion.** If the template can be planned, then it is mounted.  The
element, whatever it was, then has the expansion of its children as its children; the nodes that
were not below it are as before.  If there is nothing to bind, then nothing is changed at all. -/
theorem mountOn_expands (h : vm.Hosts w tree) (valid : vm.settings.validate = .ok ())
    {sites : List (Site (Mark Listener))}
    (planned : (vm.templateOn w.store).plan injectionLimit tree.children = .ok sites)
    (unmixed : (vm.templateOn w.store).UnmixedAll
      ((vm.templateOn w.store).UnmixedBelow w.store injectionLimit) tree.children) :
    ∃ ids new f children, vm.mountOn .builtin w = some (.ok ids, w.bound new f) ∧
      f.node? tree.id = some (.node tree.label tree.kind children) ∧
      Tree.mapAll (Mark.origin w.document.next) children = (vm.templateOn w.store).expandAll
        ((vm.templateOn w.store).shownAt w.store injectionLimit)
        (Tree.mapAll (Mark.origin w.document.next) tree.children) ∧
      (∀ id ∉ tree.ids, id.val < w.document.next → f.entry id = w.document.entry id) ∧
      (sites = [] → children = tree.children) := by
  obtain ⟨ids, new, f, children, hcompile, hbecomes, hlook, same⟩ := compile_ok h planned unmixed
  refine ⟨ids, new, f, children, (mountOn_eq h.mounted valid w).trans hcompile,
    hbecomes.sound.node?_of_holds hbecomes.holds, hlook, fun id hid lt => ?_, same⟩
  refine hbecomes.frame id ?_ lt
  rwa [Tree.idsAmong_singleton]

/-- An element with markup from data, and a form element. -/
def card : Tree (Mark Listener) :=
  .node ⟨⟨0⟩, []⟩ (.element "div" [])
    [.node ⟨⟨1⟩, []⟩ (.element "p" [("v-html", "body")]) [.node ⟨⟨2⟩, []⟩ (.text "old") []],
      .node ⟨⟨3⟩, []⟩ (.element "input" [("v-model", "n")]) []]

/-- Data for it; the markup has a marker. -/
def cardData : Json :=
  .object [("n", .integer 1), ("body", .string "<b>\x7b\x7bn\x7d\x7d</b>")]

/-- The view model of a page that consists of an element. -/
def onPage : ViewModel Unit := ⟨.element ⟨0⟩, .standard, []⟩

/-- The page that consists of an element, with its data. -/
def pageOf (tree : Tree (Mark Listener)) (next : Nat) (data : Json) : World (Page Unit) :=
  .new (.ofJson data) ⟨⟨[tree], next⟩, true, ()⟩

theorem hosts_card : onPage.Hosts (pageOf card 4 cardData) card :=
  hosts_new rfl cardData (by decide) (by decide) (by decide)

/-- The marker in the markup is replaced as well. -/
theorem mountOn_card : ∃ ids new f children,
    onPage.mountOn .builtin (pageOf card 4 cardData) =
        some (.ok ids, (pageOf card 4 cardData).bound new f) ∧
      f.node? ⟨0⟩ = some (.node ⟨⟨0⟩, []⟩ (.element "div" []) children) ∧
      ((pageOf card 4 cardData).bound new f).innerHtml ⟨0⟩ =
        "<p v-html=\"body\"><b>1</b></p><input v-model=\"n\" value=\"1\">" := by
  have planned : ((onPage.templateOn (.ofJson cardData)).plan injectionLimit
      card.children).toOption.isSome = true := by decide +kernel
  have outcome : (onPage.mountOn .builtin (pageOf card 4 cardData)).map (·.2.innerHtml ⟨0⟩) =
      some "<p v-html=\"body\"><b>1</b></p><input v-model=\"n\" value=\"1\">" := by
    decide +kernel
  cases hplan : (onPage.templateOn (.ofJson cardData)).plan injectionLimit card.children with
  | error e => simp [hplan, Except.toOption] at planned
  | ok sites =>
    obtain ⟨ids, new, f, children, hmount, hnode, -⟩ :=
      mountOn_expands hosts_card (by decide) hplan (by decide +kernel)
    rw [hmount] at outcome
    exact ⟨ids, new, f, children, hmount, hnode, Option.some.inj outcome⟩

/-- **Mounting that fails changes nothing.** There are no more watchers than before, and the nodes
that were there have the children, the attributes, the texts and the listeners that they had. -/
theorem mountOn_restores (h : vm.Hosts w tree)
    (unmixed : (vm.templateOn w.store).UnmixedAll
      ((vm.templateOn w.store).UnmixedBelow w.store injectionLimit) tree.children)
    {e : TemplateError} {w' : World (Page υ)}
    (failed : vm.mountOn .builtin w = some (.error e, w')) :
    ∃ f, w' = w.bound [] f ∧ f.node? tree.id = some tree ∧
      ∀ id, id.val < w.document.next → f.entry id = w.document.entry id := by
  cases valid : vm.settings.validate with
  | error refused =>
    rw [mountOn_error valid] at failed
    cases failed
    exact ⟨w.document, rfl, h.found, fun _ _ => rfl⟩
  | ok _ =>
    rw [mountOn_eq h.mounted valid] at failed
    cases planned : (vm.templateOn w.store).plan injectionLimit tree.children with
    | ok sites =>
      obtain ⟨ids, new, f, children, hcompile, -⟩ := compile_ok h planned unmixed
      rw [hcompile] at failed
      cases failed
    | error e =>
      obtain ⟨f, hcompile, hbecomes⟩ := compile_error h planned
      rw [hcompile] at failed
      cases failed
      refine ⟨f, rfl, hbecomes.sound.node?_of_holds hbecomes.holds, fun id lt => ?_⟩
      by_cases hid : id ∈ Tree.idsAmong [tree]
      · rw [Tree.idsAmong_eq] at hid
        obtain ⟨row, hrow, rfl⟩ := List.mem_map.1 hid
        rw [hbecomes.holds row hrow, h.sound.holds_of_node? h.found row hrow]
      · exact hbecomes.frame id hid lt

/-- An element with a text that names nothing. -/
def misspelt : Tree (Mark Listener) :=
  .node ⟨⟨0⟩, []⟩ (.element "div" [])
    [.node ⟨⟨1⟩, []⟩ (.element "p" [("v-model", "n")]) [],
      .node ⟨⟨2⟩, []⟩ (.text "\x7b\x7bm\x7d\x7d") []]

/-- The name that leads nowhere is the reason to fail, and the element is as it was. -/
theorem mountOn_misspelt : ∃ f, onPage.mountOn .builtin (pageOf misspelt 3 cardData) =
      some (.error (.fault (.unresolvable "m" "m")), (pageOf misspelt 3 cardData).bound [] f) ∧
    f.node? ⟨0⟩ = some misspelt := by
  have outcome : (onPage.mountOn .builtin (pageOf misspelt 3 cardData)).map (·.1) =
      some (.error (.fault (.unresolvable "m" "m"))) := by decide +kernel
  obtain ⟨⟨_, w'⟩, failed, rfl⟩ := Option.map_eq_some_iff.1 outcome
  obtain ⟨f, rfl, hnode, -⟩ := mountOn_restores
    (hosts_new rfl cardData (by decide) (by decide) (by decide)) (by decide +kernel) failed
  exact ⟨f, failed, hnode⟩

/-- An element that gets markup and then a text as its content. -/
def mixed : Tree (Mark Listener) :=
  .node ⟨⟨0⟩, []⟩ (.element "div" [])
    [.node ⟨⟨1⟩, []⟩ (.element "p" [("v-html", "h"), ("v-text", "\x7b\x7b t \x7d\x7d")])
      [.node ⟨⟨2⟩, []⟩ (.text "old") []]]

/-- Data for it; the text has a marker that names nothing. -/
def mixedData : Json :=
  .object [("h", .string ""), ("t", .string "\x7b\x7b missing \x7d\x7d")]

/-- **Texts after markup.** What is bound as markup is the text, which was not checked, so mounting
fails when the content is replaced already, and it stays replaced. -/
theorem mountOn_mixed : ∃ w', onPage.mountOn .builtin (pageOf mixed 3 mixedData) =
      some (.error (.fault (.unresolvable "missing" "missing")), w') ∧
    (pageOf mixed 3 mixedData).innerHtml ⟨0⟩ =
      "<p v-html=\"h\" v-text=\"\x7b\x7b t \x7d\x7d\">old</p>" ∧
    w'.innerHtml ⟨0⟩ =
      "<p v-html=\"h\" v-text=\"\x7b\x7b t \x7d\x7d\">\x7b\x7b missing \x7d\x7d</p>" := by
  have outcome : (onPage.mountOn .builtin (pageOf mixed 3 mixedData)).map
      (fun (result, w') => (result, w'.innerHtml ⟨0⟩)) =
        some (.error (.fault (.unresolvable "missing" "missing")),
          "<p v-html=\"h\" v-text=\"\x7b\x7b t \x7d\x7d\">\x7b\x7b missing \x7d\x7d</p>") := by
    decide +kernel
  obtain ⟨⟨_, w'⟩, failed, hsame⟩ := Option.map_eq_some_iff.1 outcome
  obtain ⟨rfl, hhtml⟩ := Prod.mk.inj hsame
  exact ⟨w', failed, by decide +kernel, hhtml⟩

end mounting

end ViewModel

end Bindery
