import Bindery.Proofs.Document.Staging
import Bindery.Proofs.Markup.RoundTrip
import Bindery.Proofs.ViewModel.Chains
import Bindery.Proofs.ViewModel.Ending
import Bindery.Proofs.ViewModel.Mounting

namespace Bindery

/-!
# Injection is bounded

Markup from data is planned twice: as a check before anything is bound, and again when it stands in
the document.  If there are no chains of it that are too long, then neither of the two fails for its
depth.

* `Act.Fits` — operations that do not fail because markup from data is too deep.
* `Forest.content` — the children of a node, and what changes of the node make of them.
* `shallow_of_owner`, `content_of_other` — a directive that is bound has put its markup, or a text,
  in the place of the content of its element, or it has left the content.
* `Compiler.fits_trees`, `Compiler.fits_below` — trees that have been planned are bound, and so is
  content that is planned again, without going too deep.
* `Compiler.compile_bounded` — compilation as a whole.
-/

variable {υ : Type}

/-- In some world an operation does not fail because markup from data is too deep. -/
def Act.Fits (act : Act υ (List WatcherId)) (w : World (Page υ)) : Prop :=
  ∀ limit w', act w ≠ some (.error (.injectionTooDeep limit), w')

/-- What a single place cannot be bound for is never that. -/
theorem Act.Ends.fits {act : Act υ (List WatcherId)} (h : act.Ends TemplateError.IsOfSite)
    (w : World (Page υ)) : act.Fits w := by
  intro limit w' deep
  obtain ⟨result, left, ended, -, site⟩ := h w
  rw [ended] at deep
  cases deep
  exact site _ rfl

/-! ### The content of a node -/

namespace Tree

variable {ℓ : Type} {sought : NodeId} {g : Tree (Mark ℓ) → Tree (Mark ℓ)}

/-- The root of a tree is found under its identifier. -/
theorem sub?_of_id {t : Tree (Mark ℓ)} (h : t.id = sought) : sub? sought t = some t := by
  obtain ⟨mark, kind, children⟩ := t
  exact if_pos h

mutual

/-- What is found where a change was made is the changed tree. -/
theorem sub?_modifyAt (hg : ∀ t, (g t).id = t.id) : ∀ t : Tree (Mark ℓ),
    sub? sought (modifyAt sought g t) = (sub? sought t).map g
  | node mark kind children => by
    rw [modifyAt, sub?]
    split
    · next own => exact sub?_of_id ((hg _).trans own)
    · next other => rw [sub?, if_neg other, subAmong?_modifyAmong hg children]

/-- The changed subtree is found in the place of the old one. -/
theorem subAmong?_modifyAmong (hg : ∀ t, (g t).id = t.id) : ∀ ts : List (Tree (Mark ℓ)),
    subAmong? sought (modifyAmong sought g ts) = (subAmong? sought ts).map g
  | [] => rfl
  | t :: rest => by
    rw [modifyAmong, subAmong?, subAmong?, sub?_modifyAt hg t, subAmong?_modifyAmong hg rest]
    cases sub? sought t <;> rfl

end

mutual

theorem map_unit (f : Unit → Unit) : ∀ t : Tree Unit, t.map f = t
  | node _ kind children => by rw [map, mapAll_unit f children]

/-- There is only one way to label trees by nothing. -/
theorem mapAll_unit (f : Unit → Unit) : ∀ ts : List (Tree Unit), mapAll f ts = ts
  | [] => rfl
  | t :: rest => by rw [mapAll, map_unit f t, mapAll_unit f rest]

end

end Tree

namespace Forest

variable {ℓ : Type}

/-- The children of a node, none if it is not there. -/
def content (f : Forest ℓ) (id : NodeId) : List (Tree (Mark ℓ)) :=
  ((f.node? id).map Tree.children).getD []

theorem node?_modifyAt {g : Tree (Mark ℓ) → Tree (Mark ℓ)} (hg : ∀ t, (g t).id = t.id)
    (f : Forest ℓ) (id : NodeId) : (f.modifyAt id g).node? id = (f.node? id).map g :=
  Tree.subAmong?_modifyAmong hg f.trees

@[simp] theorem content_mapKind (f : Forest ℓ) (id : NodeId) (g : Kind → Kind) :
    (f.mapKind id g).content id = f.content id := by
  rw [content, mapKind, node?_modifyAt (fun t => by cases t; rfl), content]
  cases f.node? id with
  | none => rfl
  | some t => cases t; rfl

@[simp] theorem content_listen (f : Forest ℓ) (id : NodeId) (event : String) (listener : ℓ) :
    (f.listen id event listener).content id = f.content id := by
  rw [content, listen, node?_modifyAt (fun t => by cases t; rfl), content]
  cases f.node? id with
  | none => rfl
  | some t => cases t; rfl

/-- A node that is there has the new children, apart from their labels. -/
theorem content_setTrees (f : Forest ℓ) (id : NodeId) (trees : List (Tree Unit)) :
    (f.setTrees id trees).content id = [] ∨
      Tree.mapAll (fun _ => ()) ((f.setTrees id trees).content id) = trees := by
  have found : (f.setTrees id trees).node? id = ((f.takeChildren id).node? id).map
      (Tree.withChildren (Tree.identifyAll f.next trees).1) :=
    node?_modifyAt (Tree.id_withChildren _) (f.takeChildren id) id
  rw [content, found]
  cases (f.takeChildren id).node? id with
  | none => exact .inl rfl
  | some t =>
    refine .inr ?_
    cases t
    exact (Tree.mapAll_identifyAll f.next (fun _ _ => rfl) trees).trans (Tree.mapAll_unit _ trees)

end Forest

/-! ### Directives that are bound -/

section bindings

variable {vm : ViewModel υ} {w w' : World (Page υ)} {ids : List WatcherId} {node : NodeId}
  {d : Directive} {t : Template} {s : Store} {depth : Nat}

/-- Trees that stand in a node have chains that are not longer there. -/
theorem Template.Shallow.content {trees : List (Tree Unit)} (h : t.Shallow s depth trees)
    (f : Forest Listener) (id : NodeId) :
    t.Shallow s depth ((f.setTrees id trees).content id) := by
  obtain none | same := f.content_setTrees id trees
  · rw [none]
    exact shallow_of_forall_not_live fun _ => not_live_nil
  · exact h.mono fun d live => same ▸ live.map fun _ => ()

/-- What is bound by a text with markers is written in the end. -/
theorem bindTemplate_ok {marks : Delimiters} {template : String}
    {write : String → Forest Listener → Forest Listener}
    (h : bindTemplate vm marks template write w = some (.ok ids, w')) :
    ∃ text f, w'.document = write text f := by
  obtain ⟨e, -, failed⟩ | ⟨store, w₁, -, hpaths⟩ := Step.bind_cases h
  · cases failed
  obtain ⟨e, -, failed⟩ | ⟨paths, w₂, -, hboth⟩ := Step.bind_cases hpaths
  · cases failed
  obtain ⟨e, -, failed⟩ | ⟨made, between, -, ⟨e, left, -, failed, -⟩ | ⟨more, hwrite, -⟩⟩ :=
    Act.both_cases hboth
  · cases failed
  · cases failed
  · obtain ⟨e, -, failed⟩ | ⟨_, w₃, written, ended⟩ := Step.bind_cases hwrite
    · cases failed
    · cases ended
      split at written
      · cases written
      · next text _ =>
        cases written
        exact ⟨text, between.document, rfl⟩

/-- Markup that was bound stands in its node. -/
theorem bindHtml_ok (h : bindHtml vm node d w = some (.ok ids, w'))
    (reachable : w.store.Reachable) :
    w'.document = w.document.setTrees node (w.store.shownTrees d.expression) := by
  obtain ⟨e, -, failed⟩ | ⟨store, between, hstore, hwatch⟩ := Step.bind_cases h
  · cases failed
  obtain rfl := Mount.world_of_store hstore
  obtain ⟨path, seen, hparse, hread, shown⟩ := watchExpression_ok hwatch
  simp only [World.document_bound, World.store_bound, Forest.setInner,
    ← reachable.shownValue_eq hparse hread] at shown
  rw [Store.shownTrees]
  cases hmarkup : readMarkup (between.store.shownValue d.expression) with
  | error e => simp [hmarkup, Except.map] at shown
  | ok trees =>
    simp only [hmarkup] at shown
    cases shown
    rfl

/-- **Content that a directive brings:** its markup, or a text. -/
theorem shallow_of_owner (reachable : w.store.Reachable) (owns : d.kind.ownsContent = true)
    (brought : d.kind = .html → t.Shallow s depth (w.store.shownTrees d.expression))
    (h : Handlers.builtin d.kind vm node d w = some (.ok ids, w')) :
    t.Shallow s depth (w'.document.content node) := by
  cases hkind : d.kind with
  | html =>
    rw [hkind] at h
    rw [bindHtml_ok h reachable]
    exact (brought hkind).content w.document node
  | text =>
    rw [hkind] at h
    obtain ⟨text, f, written⟩ := bindTemplate_ok h
    rw [written]
    exact (Template.shallow_of_forall_not_live fun d =>
      Template.not_live_text () text []).content f node
  | model => simp [hkind, DirectiveKind.ownsContent] at owns
  | on => simp [hkind, DirectiveKind.ownsContent] at owns

/-- **Content that a directive leaves.** -/
theorem content_of_other (other : d.kind.ownsContent = false)
    (h : Handlers.builtin d.kind vm node d w = some (.ok ids, w')) :
    w'.document.content node = w.document.content node := by
  cases hkind : d.kind with
  | html => simp [hkind, DirectiveKind.ownsContent] at other
  | text => simp [hkind, DirectiveKind.ownsContent] at other
  | model =>
    rw [hkind] at h
    obtain ⟨e, -, failed⟩ | ⟨store, between, hstore, hwatch⟩ := Step.bind_cases h
    · cases failed
    obtain rfl := Mount.world_of_store hstore
    obtain ⟨path, seen, -, -, shown⟩ := watchExpression_ok hwatch
    cases shown
    exact (Forest.content_mapKind ..).trans (Forest.content_listen ..)
  | on =>
    rw [hkind] at h
    obtain ⟨e, -, failed⟩ | ⟨_, between, listened, ended⟩ := Step.bind_cases h
    · cases failed
    cases ended
    cases hevent : d.event with
    | none =>
      simp only [hevent] at listened
      cases listened
    | some event =>
      simp only [hevent] at listened
      cases listened
      exact Forest.content_listen ..

end bindings

/-! ### Sites that are bound -/

namespace Compiler

variable {c : Compiler υ} {injected : NodeId → Act υ (List WatcherId)} {t : Template} {s : Store}
  {w w' : World (Page υ)} {sites rest : List (Site NodeId)} {ids : List WatcherId} {depth : Nat}
  {e : TemplateError}

/-- Some sites after others fail because of the first of them, or because of those after them. -/
theorem bindSites_append_error (h : c.bindSites injected (sites ++ rest) w = some (.error e, w')) :
    (∃ left, c.bindSites injected sites w = some (.error e, left)) ∨
      ∃ ids between left, c.bindSites injected sites w = some (.ok ids, between) ∧
        c.bindSites injected rest between = some (.error e, left) := by
  induction sites generalizing w w' with
  | nil => exact .inr ⟨[], w, w', rfl, h⟩
  | cons site sites ih =>
    simp only [bindSites, Act.both]
    obtain ⟨e, hfirst, failed⟩ | ⟨made, between, hfirst, ⟨e, left, hrest, failed, -⟩ |
      ⟨more, -, done⟩⟩ := Act.both_cases h
    · cases failed
      exact .inl ⟨w', by rw [hfirst]⟩
    · cases failed
      obtain ⟨left, hsites⟩ | ⟨ids, between', left, hsites, hafter⟩ := ih hrest
      · exact .inl ⟨left.dropAll made, by simp only [hfirst, hsites]⟩
      · exact .inr ⟨made ++ ids, between', left, by simp only [hfirst, hsites], hafter⟩
    · cases done

/-- Markup that a node has got is bound as one site. -/
theorem fits_injected {node : NodeId} (h : (injected node).Fits w) :
    (c.bindSites injected [.injected node]).Fits w := by
  intro limit w' deep
  obtain ⟨e, hfirst, failed⟩ | ⟨ids, between, -, ⟨e, left, hnone, -, -⟩ | ⟨more, -, done⟩⟩ :=
    Act.both_cases deep
  · cases failed
    exact h limit w' hfirst
  · cases hnone
  · cases done

/-- Some sites after others, in the world that these leave. -/
theorem fits_append {reason : TemplateError → Prop}
    (ends : (c.bindSites injected sites).Ends reason) (h : (c.bindSites injected sites).Fits w)
    (h' : ∀ ids between, c.bindSites injected sites w = some (.ok ids, between) →
      between.store = w.store → (c.bindSites injected rest).Fits between) :
    (c.bindSites injected (sites ++ rest)).Fits w := by
  intro limit w' deep
  obtain ⟨left, hsites⟩ | ⟨ids, between, left, hsites, hrest⟩ := bindSites_append_error deep
  · exact h limit left hsites
  · obtain ⟨result, between', ended, store, -⟩ := ends w
    rw [hsites] at ended
    cases ended
    exact h' ids between hsites store limit left hrest

variable (builtin : c.handlers = .builtin)

include builtin

/-- Directives fail on their own account only. -/
theorem ends_handlers {reason : TemplateError → Prop}
    (ofSite : ∀ e : TemplateError, e.IsOfSite → reason e) (kind : DirectiveKind) (node : NodeId)
    (d : Directive) : (c.handlers kind c.viewModel node d).Ends reason := by
  rw [builtin]
  exact (Handlers.ends_builtin c.viewModel kind node d).mono ofSite

/-- Binding markup from data always ends. -/
theorem ends_all (depth : Nat) (sites : List (Site NodeId)) :
    (c.bindSites (c.bindInjected depth) sites).Ends fun _ => True := by
  have handlers := ends_handlers builtin fun _ _ => trivial
  exact ends_bindSites handlers (fun _ _ => trivial)
    (ends_bindInjected handlers (fun _ _ => trivial) (fun _ _ _ _ _ => trivial) trivial depth) sites

/-- So do all directives of an element. -/
theorem ends_directives (node : NodeId) (tag : String) (ds : List Directive) :
    (c.bindSites injected (ds.map (.directive node tag))).Ends TemplateError.IsOfSite := by
  induction ds with
  | nil => exact Act.ends_pure []
  | cons d rest ih =>
    have first : (c.bindSite injected (.directive node tag d)).Ends TemplateError.IsOfSite :=
      ends_handlers builtin (fun _ site => site) d.kind node d
    exact first.both ih

/-- The directives of an element leave it with content that is shallow, if it was and what they
bring is, or if it is replaced. -/
theorem shallow_directives {node : NodeId} {tag : String} {ds : List Directive}
    (reachable : w.store.Reachable)
    (brought : ∀ d ∈ ds, d.kind = .html → t.Shallow w.store depth (w.store.shownTrees d.expression))
    (start : t.Shallow w.store depth (w.document.content node) ∨
      ds.any (·.kind.ownsContent) = true)
    (h : c.bindSites injected (ds.map (.directive node tag)) w = some (.ok ids, w')) :
    t.Shallow w.store depth (w'.document.content node) := by
  -- on the way the content is shallow already, or a directive still to come replaces it
  induction ds generalizing w ids with
  | nil =>
    cases h
    exact start.resolve_right (by simp)
  | cons d rest ih =>
    obtain ⟨e, -, failed⟩ | ⟨made, between, hfirst, ⟨e, left, -, failed, -⟩ | ⟨more, hrest, -⟩⟩ :=
      Act.both_cases h
    · cases failed
    · cases failed
    · rw [bindSite, builtin] at hfirst
      obtain ⟨result, between', ended, store, -⟩ :=
        Handlers.ends_builtin c.viewModel d.kind node d w
      rw [hfirst] at ended
      cases ended
      obtain ⟨first, later⟩ := List.forall_mem_cons.1 brought
      rw [← store] at later ⊢
      refine ih (store ▸ reachable) later ?_ hrest
      rw [store]
      cases owns : d.kind.ownsContent with
      | true => exact .inl (shallow_of_owner reachable owns first hfirst)
      | false =>
        rw [content_of_other owns hfirst]
        exact start.imp_right fun any => by simpa [owns] using any

/-- Markup that a node has got is bound with so many levels, if it has shallow chains. -/
def FitsInjected (c : Compiler υ) (t : Template) (s : Store) (depth : Nat) : Prop :=
  ∀ ⦃w : World (Page υ)⦄ ⦃node : NodeId⦄ ⦃rest : Nat⦄, w.store = s → depth = rest + 1 →
    t.Shallow s rest (w.document.content node) → (c.bindInjected depth node).Fits w

/-- **An element.** If a directive brings markup, then the content that is planned again is what
one of the directives has brought. -/
theorem fits_element (reachable : s.Reachable) (inner : c.FitsInjected t s depth)
    {label : Mark Listener} {tag : String} {attrs : List (String × String)}
    {children : List (Tree (Mark Listener))} {sites : List (Site (Mark Listener))}
    (store : w.store = s)
    (planned : t.planTree (t.inject depth) (.node label (.element tag attrs) children) = .ok sites)
    (shallow : t.Shallow s depth [.node label (.element tag attrs) children])
    (below : ∀ {w : World (Page υ)} {more}, w.store = s →
      t.planTrees (t.inject depth) children = .ok more → t.Shallow s depth children →
      (c.bindSites (c.bindInjected depth) (more.map (Site.map Mark.id))).Fits w) :
    (c.bindSites (c.bindInjected depth) (sites.map (Site.map Mark.id))).Fits w := by
  have own : (c.bindSites (c.bindInjected depth)
      ((t.directivesOf tag attrs).map (.directive label.id tag))).Ends TemplateError.IsOfSite :=
    ends_directives builtin label.id tag _
  obtain ⟨-, hsites⟩ := Template.planTree_element planned
  cases owner : lastOwner (t.directivesOf tag attrs) with
  | none =>
    rw [owner] at hsites
    obtain ⟨more, hmore, rfl⟩ := hsites
    rw [List.map_append, List.map_map]
    refine fits_append own (own.fits w) fun ids between _ same => below (same.trans store) hmore ?_
    exact shallow.mono fun d live => .inside owner live
  | some d =>
    rw [owner] at hsites
    rw [hsites, ← Template.elementSites_map, Template.elementSites]
    split
    · next html =>
      obtain ⟨first, hfirst, hkind⟩ := List.any_eq_true.1 html
      have hkind : first.kind = .html := by simpa using hkind
      -- there is a chain, so there is a level left
      obtain ⟨rest, rfl, -⟩ := shallow.below (.own hfirst) hkind
      refine fits_append own (own.fits w) fun ids between bound same => fits_injected ?_
      subst store
      refine inner same rfl (shallow_directives builtin reachable (fun d hd html => ?_) (.inr ?_)
        bound)
      · obtain ⟨rest', hrest, below⟩ := shallow.below (.own hd) html
        cases hrest
        exact below
      · exact List.any_eq_true.2 ⟨first, hfirst, by rw [hkind]; rfl⟩
    · rw [List.append_nil]
      exact own.fits w

omit builtin

mutual

/-- The places of a tree with shallow chains are bound without getting too deep. -/
theorem fits_tree (builtin : c.handlers = .builtin) (reachable : s.Reachable)
    (inner : c.FitsInjected t s depth) : ∀ (tree : Tree (Mark Listener)) {w : World (Page υ)}
    {sites : List (Site (Mark Listener))}, w.store = s →
    t.planTree (t.inject depth) tree = .ok sites → t.Shallow s depth [tree] →
    (c.bindSites (c.bindInjected depth) (sites.map (Site.map Mark.id))).Fits w
  | .node mark (.element tag attrs) children, _, _, store, planned, shallow =>
    fits_element builtin reachable inner store planned shallow fun store' hmore shallow' =>
      fits_trees builtin reachable inner children store' hmore shallow'
  | .node mark (.text data) children, w, _, _, planned, _ => by
    obtain ⟨-, rfl⟩ | ⟨-, -, rfl⟩ := Template.planTree_text planned
    · exact fun _ _ deep => nomatch deep
    · have text : (c.bindSite (c.bindInjected depth) (.interpolation mark.id data)).Ends
          TemplateError.IsOfSite := fun w => ends_bindInterpolation _ _ _ _ w
      exact (text.both (Act.ends_pure [])).fits w
  | .node mark (.comment data) children, _, _, _, planned, _ => by
    cases planned
    exact fun _ _ deep => nomatch deep
  | .node mark .fragment children, _, _, _, planned, _ => by
    cases planned
    exact fun _ _ deep => nomatch deep

/-- **Trees that have been planned.** -/
theorem fits_trees (builtin : c.handlers = .builtin) (reachable : s.Reachable)
    (inner : c.FitsInjected t s depth) : ∀ (trees : List (Tree (Mark Listener)))
    {w : World (Page υ)} {sites : List (Site (Mark Listener))}, w.store = s →
    t.planTrees (t.inject depth) trees = .ok sites → t.Shallow s depth trees →
    (c.bindSites (c.bindInjected depth) (sites.map (Site.map Mark.id))).Fits w
  | [], _, _, _, planned, _ => by
    cases planned
    exact fun _ _ deep => nomatch deep
  | first :: rest, w, sites, store, planned, shallow => by
    obtain ⟨own, more, hfirst, hrest, rfl⟩ := Template.planTrees_cons planned
    have fits := fits_tree builtin reachable inner first store hfirst
      (shallow.mono fun d live => live.head)
    rw [List.map_append]
    -- binding the first tree may change the document, but not the data that the others show
    refine fits_append (ends_all builtin depth _) fits fun ids between _ same => ?_
    exact fits_trees builtin reachable inner rest (same.trans store) hrest
      (shallow.mono fun _ => .later)

end

section levels

variable (builtin : c.handlers = .builtin) (reachable : s.Reachable)
  (template : ∀ w : World (Page υ), w.store = s → c.template w = t) (hstore : t.store = some s)

include builtin reachable template hstore

/-- **Planning again what stands in a node, and binding it.** -/
theorem fits_below (inner : c.FitsInjected t s depth) {node : NodeId} (store : w.store = s)
    (shallow : t.Shallow s depth (w.document.content node)) :
    (c.planBelow depth node >>= c.bindSites (c.bindInjected depth)).Fits w := by
  have planned := c.planBelow_apply depth node w
  rw [template w store] at planned
  intro limit w' deep
  -- what is planned again may differ from the template, so planning it may fail, but not for this
  cases hplan : t.plan depth (w.document.content node) with
  | error e =>
    rw [← Forest.content, hplan] at planned
    rw [Step.bind_error planned] at deep
    cases deep
    exact shallow.plan_ne hstore limit hplan
  | ok sites =>
    rw [← Forest.content, hplan] at planned
    rw [Step.bind_ok planned] at deep
    exact fits_trees builtin reachable inner _ store hplan shallow limit w' deep

/-- **All levels.** -/
theorem fitsInjected (depth : Nat) : c.FitsInjected t s depth := by
  induction depth with
  | zero => exact fun w node rest _ none => nomatch none
  | succ depth ih =>
    intro w node rest store hdepth shallow
    cases hdepth
    exact fits_below builtin reachable template hstore ih store shallow

end levels

/-- **Injection is bounded.** Compilation by the bindings of this library ends, whatever the
template, the data and the settings, and leaves the data as they are.  If a chain of markup from
data is longer than the limit, then it fails, makes no watcher, and leaves every node as it was.  If
no chain is, then it does not fail for the depth of such markup, neither when the template is
planned nor when the content of an element is planned again. -/
theorem compile_bounded (vm : ViewModel υ) (settings : Settings) {root : NodeId}
    {w : World (Page υ)} {tree : Tree (Mark Listener)} (mounted : vm.mount = .element root)
    (reachable : w.store.Reachable) (sound : w.document.IsSound)
    (found : w.document.node? tree.id = some tree)
    (whole : ∀ child ∈ tree.children, child.kind ≠ .fragment) :
    let t : Template := ⟨settings, vm.hasMethod, some w.store⟩
    ∃ result w', compile ⟨vm, settings, .builtin⟩ tree.id w = some (result, w') ∧
      w'.store = w.store ∧
      ((∃ ds, t.Chain w.store ds tree.children ∧ injectionLimit < ds.length) →
        ∃ e f, result = .error e ∧ w' = w.bound [] f ∧ f.node? tree.id = some tree ∧
          ∀ id, id.val < w.document.next → f.entry id = w.document.entry id) ∧
      (t.Shallow w.store injectionLimit tree.children →
        ∀ limit, result ≠ .error (.injectionTooDeep limit)) := by
  intro t
  have template (w' : World (Page υ)) (store : w'.store = w.store) :
      (⟨vm, settings, .builtin⟩ : Compiler υ).template w' = t := by
    simp [Compiler.template, t, mounted, Mount.store?, store]
  have ends : (compile ⟨vm, settings, .builtin⟩ tree.id).Ends fun _ => True :=
    ends_compile (ends_handlers rfl fun _ _ => trivial) (fun _ _ => trivial)
      (fun _ _ _ _ _ => trivial) trivial tree.id
  obtain ⟨result, w', ended, store, -⟩ := ends w
  refine ⟨result, w', ended, store, ?_, ?_⟩
  · rintro ⟨ds, chain, long⟩
    obtain ⟨e, planned⟩ := Template.plan_error_of_chain rfl chain long
    obtain ⟨f, failed, becomes⟩ := compile_error_of_plan ⟨vm, settings, .builtin⟩ sound found whole
      ((template w rfl).symm ▸ planned)
    rw [failed] at ended
    cases ended
    exact ⟨e, f, rfl, rfl, becomes.restored sound found⟩
  · rintro shallow limit rfl
    obtain ⟨⟨deep, left⟩, failed, same⟩ := Option.map_eq_some_iff.1
      ((compile_apply _ tree.id w).symm.trans ended)
    obtain ⟨rfl, -⟩ := Prod.mk.inj same
    have content : (w.document.stage tree.id).content ⟨w.document.next⟩ = tree.children := by
      rw [Forest.content, (sound.stage found whole).container]
      rfl
    refine fits_below (s := w.store) rfl reachable template rfl
      (fitsInjected rfl reachable template rfl _) (World.store_bound ..) ?_ limit left failed
    rw [World.document_bound, content]
    exact shallow

/-- An element with markup from data. -/
def endless : Tree (Mark Listener) :=
  .node ⟨⟨0⟩, []⟩ (.element "div" [])
    [.node ⟨⟨1⟩, []⟩ (.element "p" [("v-html", "h")]) []]

/-- Data for it; the markup is such an element again. -/
def endlessData : Json := .object [("h", .string "<p v-html=\"h\"></p>")]

/-- Markup that brings itself is refused, and the element is what it was. -/
theorem compile_endless : ∃ f,
    compile ⟨ViewModel.onPage, .standard, .builtin⟩ ⟨0⟩ (ViewModel.pageOf endless 2 endlessData) =
        some (.error (.injectionTooDeep 16), (ViewModel.pageOf endless 2 endlessData).bound [] f) ∧
      f.node? ⟨0⟩ = some endless := by
  have hosts : ViewModel.onPage.Hosts (ViewModel.pageOf endless 2 endlessData) endless :=
    ViewModel.hosts_new rfl endlessData (by decide) (by decide) (by decide)
  have canonical : Tree.CanonicalAll [Tree.node () (.element "p" [("v-html", "h")]) []] := by
    decide
  have shown : (Store.ofJson endlessData).shownValue "h" =
      String.ofList (Tree.writeAll [Tree.node () (.element "p" [("v-html", "h")]) []]) := by
    decide +kernel
  have again : (Store.ofJson endlessData).shownTrees "h" =
      [.node () (.element "p" [("v-html", "h")]) []] := by
    rw [Store.shownTrees, shown, readMarkup_writeAll canonical]
    rfl
  have own : (⟨.html, "v-html", "h", none⟩ : Directive) ∈
      (⟨.standard, ViewModel.onPage.hasMethod, some (.ofJson endlessData)⟩ : Template).directivesOf
        "p" [("v-html", "h")] := by decide +kernel
  have outcome : (compile ⟨ViewModel.onPage, .standard, .builtin⟩ ⟨0⟩
      (ViewModel.pageOf endless 2 endlessData)).map (·.1) =
        some (.error (.injectionTooDeep 16)) := by decide +kernel
  obtain ⟨result, w', ended, -, refused, -⟩ := compile_bounded ViewModel.onPage .standard
    hosts.mounted hosts.reachable hosts.sound hosts.found hosts.whole
  obtain ⟨e, f, -, rfl, found, -⟩ := refused ⟨List.replicate 17 ⟨.html, "v-html", "h", none⟩,
    Template.chain_replicate (.own own) rfl (again ▸ .own own) 17, by decide⟩
  rw [show endless.id = ⟨0⟩ from rfl] at ended found
  rw [ended] at outcome
  cases Option.some.inj outcome
  exact ⟨f, ended, found⟩

end Compiler

end Bindery
