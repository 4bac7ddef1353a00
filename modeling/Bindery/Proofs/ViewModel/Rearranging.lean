import Bindery.Proofs.Document.Operations
import Bindery.Proofs.ViewModel.Mounting

namespace Bindery

/-!
# What compilation does to nodes

Compilation takes the children of a node away, has them bound and puts them back, whether that
succeeds or not.  All this is done by operations on nodes that are there, so the links of a document
are those of a forest, whatever is done to its nodes and whatever is compiled.

* `Act.Draws` — an operation that does to a document what may be done to its nodes; `Act.Upholds` —
  one that keeps a property of worlds besides.
* `draws_watchExpression`, `draws_bindTemplate`, `Handlers.draws_builtin` — the bindings.
* `Template.mem_ids_of_planTrees` — the places of a template are on its nodes.
* `Compiler.upholds_compile`, `Compiler.draws_compile` — templates, by any handlers like that.
* `Forest.Drawn` — documents that come about like that; `Forest.links_of_drawn` — their links.
-/

variable {υ α β : Type}

/-! ### Operations -/

namespace World

variable {w : World (Page υ)}

@[simp] theorem document_drop (id : WatcherId) : (w.drop id).document = w.document := rfl

@[simp] theorem document_dropAll (ids : List WatcherId) :
    (w.dropAll ids).document = w.document := by
  induction ids generalizing w with
  | nil => rfl
  | cons id rest ih => exact ih.trans (document_drop id)

/-- Making a watcher does not touch the document. -/
theorem document_watch {path : Path} {reaction : Snapshot → Program (Page υ)}
    {result : Except Fault WatcherId} {w' : World (Page υ)}
    (h : w.watch path reaction = (result, w')) : w'.document = w.document := by
  rw [watch] at h
  split at h <;> cases h <;> rfl

end World

namespace Act

variable {I : World (Page υ) → Prop} {nodes more : List NodeId}
  {first second : Act υ (List WatcherId)}

/-- An operation that does to a document what may be done to nodes, if some nodes are there to begin
with. -/
def Draws (nodes : List NodeId) (act : Act υ α) : Prop :=
  ∀ ⦃w w' : World (Page υ)⦄ ⦃result : Except TemplateError α⦄, act w = some (result, w') →
    w.document.IsProper → (∀ id ∈ nodes, w.document.Has id) → w.document.Leads w'.document

/-- An operation that does that, and keeps a property of worlds. -/
def Upholds (I : World (Page υ) → Prop) (nodes : List NodeId) (act : Act υ α) : Prop :=
  ∀ ⦃w w' : World (Page υ)⦄ ⦃result : Except TemplateError α⦄, act w = some (result, w') →
    w.document.IsProper → (∀ id ∈ nodes, w.document.Has id) → I w →
    I w' ∧ w.document.Leads w'.document

/-- Drawing is upholding nothing in particular. -/
theorem draws_iff {act : Act υ α} : act.Draws nodes ↔ act.Upholds (fun _ => True) nodes :=
  ⟨fun h _ _ _ ended proper has _ => ⟨trivial, h ended proper has⟩,
    fun h _ _ _ ended proper has => (h ended proper has trivial).2⟩

theorem upholds_ofExcept (result : Except TemplateError α) :
    Upholds I nodes (Step.ofExcept result : Act υ α) := by
  intro w w' result ended _ _ hw
  cases ended
  exact ⟨hw, .refl⟩

theorem upholds_pure (value : α) : Upholds I nodes (pure value : Act υ α) :=
  upholds_ofExcept (.ok value)

/-- More nodes do not matter. -/
theorem Upholds.mono {act : Act υ α} (h : act.Upholds I nodes) (sub : nodes ⊆ more) :
    act.Upholds I more :=
  fun _ _ _ ended proper has => h ended proper fun id hid => has id (sub hid)

/-- **One after the other.** -/
theorem Upholds.then {first : Act υ α} {next : α → Act υ β} (h : first.Upholds I nodes)
    (h' : ∀ seen, (next seen).Upholds I nodes) : (first >>= next).Upholds I nodes := by
  intro w w' result ended proper has hw
  obtain ⟨e, failed, -⟩ | ⟨seen, between, hfirst, hnext⟩ := Step.bind_cases ended
  · exact h failed proper has hw
  · obtain ⟨hbetween, leads⟩ := h hfirst proper has hw
    obtain ⟨proper', kept⟩ := leads.keeps proper
    obtain ⟨hw', leads'⟩ := h' seen hnext proper' (fun id hid => kept id (has id hid)) hbetween
    exact ⟨hw', leads.trans leads'⟩

theorem Upholds.unwatched {act : Act υ Unit} (h : act.Upholds I nodes) :
    (Act.unwatched act).Upholds I nodes :=
  h.then fun _ => upholds_pure []

/-- **In two parts**, also if the watchers of the first are dropped. -/
theorem Upholds.both (drops : ∀ ⦃w⦄ ids, I w → I (w.dropAll ids)) (h : first.Upholds I nodes)
    (h' : second.Upholds I nodes) : (first.both second).Upholds I nodes := by
  intro w w' result ended proper has hw
  obtain ⟨e, hfirst, -⟩ | ⟨ids, between, hfirst, hsecond⟩ := Act.both_cases ended
  · exact h hfirst proper has hw
  · obtain ⟨hbetween, leads⟩ := h hfirst proper has hw
    obtain ⟨proper', kept⟩ := leads.keeps proper
    have has' : ∀ id ∈ nodes, between.document.Has id := fun id hid => kept id (has id hid)
    obtain ⟨e, left, hsecond, -, rfl⟩ | ⟨more, hsecond, -⟩ := hsecond
    · obtain ⟨hleft, leads'⟩ := h' hsecond proper' has' hbetween
      rw [World.document_dropAll]
      exact ⟨drops ids hleft, leads.trans leads'⟩
    · obtain ⟨hw', leads'⟩ := h' hsecond proper' has' hbetween
      exact ⟨hw', leads.trans leads'⟩

/-- Where the document stays nothing is drawn. -/
theorem draws_of_document {act : Act υ α} (same : ∀ ⦃w w' : World (Page υ)⦄
    ⦃result : Except TemplateError α⦄, act w = some (result, w') → w'.document = w.document) :
    act.Draws nodes := by
  intro w w' result ended _ _
  rw [same ended]
  exact .refl

theorem draws_ofExcept (result : Except TemplateError α) :
    Draws nodes (Step.ofExcept result : Act υ α) :=
  draws_iff.2 (upholds_ofExcept result)

theorem draws_pure (value : α) : Draws nodes (pure value : Act υ α) := draws_ofExcept (.ok value)

/-- More nodes may be there. -/
theorem Draws.mono {act : Act υ α} (h : act.Draws nodes) (sub : nodes ⊆ more) : act.Draws more :=
  draws_iff.2 ((draws_iff.1 h).mono sub)

/-- One step after another draws what each of them draws. -/
theorem Draws.then {first : Act υ α} {next : α → Act υ β} (h : first.Draws nodes)
    (h' : ∀ seen, (next seen).Draws nodes) : (first >>= next).Draws nodes :=
  draws_iff.2 ((draws_iff.1 h).then fun seen => draws_iff.1 (h' seen))

theorem Draws.unwatched {act : Act υ Unit} (h : act.Draws nodes) :
    (Act.unwatched act).Draws nodes :=
  draws_iff.2 (draws_iff.1 h).unwatched

theorem Draws.both (h : first.Draws nodes) (h' : second.Draws nodes) :
    (first.both second).Draws nodes :=
  draws_iff.2 ((draws_iff.1 h).both (fun _ _ => id) (draws_iff.1 h'))

end Act

/-! ### Bindings -/

section bindings

variable {vm : ViewModel υ} {nodes : List NodeId} {node : NodeId} {d : Directive}

/-- Asking for the store draws nothing. -/
theorem Mount.draws_store (m : Mount) : (m.store : Act υ Store).Draws nodes := by
  refine Act.draws_of_document fun w w' result ended => ?_
  rw [Mount.world_of_store ended]

/-- A watcher of an expression has no part in the document. -/
theorem draws_watchExpression (expr : String) (reaction : Snapshot → Program (Page υ))
    {next : Snapshot → Act υ Unit} (draws : ∀ seen, (next seen).Draws nodes) :
    (watchExpression expr reaction next).Draws nodes := by
  intro w w' result ended proper has
  obtain ⟨e, -, rfl⟩ | ⟨path, id, between, seen, -, hwatch, hnext⟩ := watchExpression_cases ended
  · exact .refl
  · have same := World.document_watch hwatch
    rw [← same] at proper has ⊢
    obtain ⟨e, left, hnext, -, rfl⟩ | ⟨hnext, -⟩ := hnext
    · rw [World.document_drop]
      exact draws seen hnext proper has
    · exact draws seen hnext proper has

theorem draws_watchPaths (reaction : Snapshot → Program (Page υ)) (paths : List Path) :
    (watchPaths reaction paths).Draws nodes := by
  induction paths with
  | nil => exact Act.draws_pure []
  | cons path rest ih =>
    have first : (watchExpression path.text reaction fun _ => pure ()).Draws nodes :=
      draws_watchExpression _ _ fun _ => Act.draws_pure ()
    exact first.both ih

/-- A text with markers, if writing it does to the document what may be done to nodes. -/
theorem draws_bindTemplate (vm : ViewModel υ) (marks : Delimiters) (template : String)
    {write : String → Forest Listener → Forest Listener}
    (draws : ∀ (text : String) ⦃f : Forest Listener⦄, f.IsProper → (∀ id ∈ nodes, f.Has id) →
      f.Leads (write text f)) : (bindTemplate vm marks template write).Draws nodes := by
  refine vm.mount.draws_store.then fun _ => (Act.draws_ofExcept _).then fun paths => ?_
  refine (draws_watchPaths _ paths).both
    (Act.Draws.unwatched fun w w' result ended proper has => ?_)
  split at ended
  · cases ended
    exact .refl
  · next text _ =>
    cases ended
    exact draws text proper has

theorem draws_bindInterpolation (vm : ViewModel υ) (marks : Delimiters) (node : NodeId)
    (template : String) : (bindInterpolation vm marks node template).Draws [node] :=
  draws_bindTemplate vm marks template fun text _ _ has =>
    Forest.leads_apply (.mapKind node (.setData text)) has

theorem draws_bindText (vm : ViewModel υ) (node : NodeId) (d : Directive) :
    (bindText vm node d).Draws [node] :=
  draws_bindTemplate vm _ _ fun text _ proper has =>
    proper.leads_setText (has node List.mem_cons_self) text

theorem draws_bindHtml (vm : ViewModel υ) (node : NodeId) (d : Directive) :
    (bindHtml vm node d).Draws [node] := by
  refine vm.mount.draws_store.then fun _ =>
    draws_watchExpression _ _ fun seen w w' result ended proper has => ?_
  have leads := Forest.leads_apply (.setInner node (w.store.render seen)) has
  rw [NodeOp.apply] at leads
  split at ended
  · cases ended
    exact .refl
  · next document hset =>
    cases ended
    rw [hset] at leads
    exact leads

theorem draws_bindModel (vm : ViewModel υ) (node : NodeId) (d : Directive) :
    (bindModel vm node d).Draws [node] := by
  refine vm.mount.draws_store.then fun _ =>
    draws_watchExpression _ _ fun seen w w' result ended proper has => ?_
  cases ended
  have listens := Forest.leads_apply (.listen node "input" (.writeBack d.expression)) has
  obtain ⟨-, kept⟩ := listens.keeps proper
  exact listens.trans (Forest.leads_apply (.mapKind node (.setAttr "value" (w.store.render seen)))
    fun id hid => kept id (has id hid))

theorem draws_bindOn (node : NodeId) (d : Directive) :
    (bindOn node d : Act υ (List WatcherId)).Draws [node] := by
  refine Act.Draws.unwatched ?_
  split
  · exact Act.draws_ofExcept (.error _)
  · next event _ =>
    intro w w' result ended proper has
    cases ended
    exact Forest.leads_apply (.listen node event (.invoke (trimBlanks d.expression))) has

/-- **The bindings** do to the node of the directive what may be done to it. -/
theorem Handlers.draws_builtin (vm : ViewModel υ) (kind : DirectiveKind) (node : NodeId)
    (d : Directive) : (Handlers.builtin kind vm node d).Draws [node] := by
  cases kind with
  | html => exact draws_bindHtml vm node d
  | model => exact draws_bindModel vm node d
  | on => exact draws_bindOn node d
  | text => exact draws_bindText vm node d

end bindings

/-! ### Places -/

/-- The label of the node that a place is on. -/
def Site.label : Site α → α
  | .directive label _ _ => label
  | .interpolation label _ => label
  | .injected label => label

namespace Template

variable {t : Template} {inject : String → Except TemplateError Unit}

/-- The places of an element are labelled as the element is. -/
theorem label_elementSites {label : α} {tag : String} {ds : List Directive} {site : Site α}
    (h : site ∈ elementSites label tag ds) : site.label = label := by
  rw [elementSites, List.mem_append] at h
  obtain directive | injected := h
  · obtain ⟨d, -, rfl⟩ := List.mem_map.1 directive
    rfl
  · split at injected
    · rw [List.mem_singleton.1 injected]
      rfl
    · cases injected

mutual

/-- The places of a tree are nodes of it. -/
theorem mem_ids_of_planTree : ∀ (tree : Tree (Mark Listener)) {sites : List (Site (Mark Listener))},
    t.planTree inject tree = .ok sites → ∀ site ∈ sites, site.label.id ∈ tree.ids
  | .node mark (.element tag attrs) children, sites, planned, site, hsite => by
    obtain ⟨-, parts⟩ := planTree_element planned
    split at parts
    · rw [label_elementSites (parts ▸ hsite)]
      exact List.mem_cons_self
    · obtain ⟨below, hbelow, rfl⟩ := parts
      obtain own | inner := List.mem_append.1 hsite
      · obtain ⟨d, -, rfl⟩ := List.mem_map.1 own
        exact List.mem_cons_self
      · exact List.mem_cons_of_mem _ (mem_ids_of_planTrees children hbelow site inner)
  | .node mark (.text data) children, sites, planned, site, hsite => by
    obtain ⟨-, rfl⟩ | ⟨-, -, rfl⟩ := planTree_text planned
    · cases hsite
    · rw [List.mem_singleton.1 hsite]
      exact List.mem_cons_self
  | .node mark (.comment data) children, sites, planned, site, hsite => by
    cases planned
    cases hsite
  | .node mark .fragment children, sites, planned, site, hsite => by
    cases planned
    cases hsite

/-- Places are on the nodes of the trees that are planned. -/
theorem mem_ids_of_planTrees : ∀ (ts : List (Tree (Mark Listener)))
    {sites : List (Site (Mark Listener))}, t.planTrees inject ts = .ok sites →
    ∀ site ∈ sites, site.label.id ∈ Tree.idsAmong ts
  | [], sites, planned, site, hsite => by
    cases planned
    cases hsite
  | first :: rest, sites, planned, site, hsite => by
    obtain ⟨own, more, hfirst, hrest, rfl⟩ := planTrees_cons planned
    obtain own | later := List.mem_append.1 hsite
    · exact List.mem_append_left _ (mem_ids_of_planTree first hfirst site own)
    · exact List.mem_append_right _ (mem_ids_of_planTrees rest hrest site later)

end

end Template

/-! ### Templates -/

namespace Compiler

variable {c : Compiler υ} {injected : NodeId → Act υ (List WatcherId)} {nodes : List NodeId}
  {I : World (Page υ) → Prop}

/-- Planning changes nothing, and the places are on nodes that are there. -/
theorem planBelow_ok {w w' : World (Page υ)} {depth : Nat} {node : NodeId}
    {sites : List (Site NodeId)} (sound : w.document.IsSound)
    (ended : c.planBelow depth node w = some (.ok sites, w')) :
    w' = w ∧ ∀ site ∈ sites, w.document.Has site.label := by
  obtain ⟨planned, rfl⟩ := Prod.mk.inj (Option.some.inj ended)
  refine ⟨rfl, fun site hsite => ?_⟩
  cases hplan : (c.template w).plan depth (((w.document.node? node).map Tree.children).getD []) with
  | error e =>
    rw [hplan] at planned
    cases planned
  | ok placed =>
    rw [hplan] at planned
    cases planned
    obtain ⟨place, hplace, rfl⟩ := List.mem_map.1 hsite
    have inside := Template.mem_ids_of_planTrees _ hplan place hplace
    have has : w.document.Has place.label.id := by
      cases found : w.document.node? node with
      | none =>
        rw [found] at inside
        cases inside
      | some tree =>
        rw [found] at inside
        cases tree
        exact sound.has_of_mem_ids found (List.mem_cons_of_mem _ inside)
    cases place <;> exact has

/-- Handlers that do to documents what may be done to nodes, beginning with the node of the
directive and with others that they have hold of. -/
def Draws (c : Compiler υ) (nodes : List NodeId) : Prop :=
  ∀ kind node d, (c.handlers kind c.viewModel node d).Draws (node :: nodes)

/-- The bindings of this library draw at their nodes. -/
theorem draws_builtin (vm : ViewModel υ) (settings : Settings) :
    (⟨vm, settings, .builtin⟩ : Compiler υ).Draws nodes := fun kind node d =>
  (Handlers.draws_builtin vm kind node d).mono (List.cons_subset_cons node (List.nil_subset _))

/-- Handlers that do that, and keep a property of worlds. -/
def Upholds (c : Compiler υ) (I : World (Page υ) → Prop) (nodes : List NodeId) : Prop :=
  ∀ kind node d, (c.handlers kind c.viewModel node d).Upholds I (node :: nodes)

section handlers

variable (handlers : c.Upholds I nodes)
  (interpolations : ∀ node text,
    (bindInterpolation c.viewModel c.settings.delimiters node text).Upholds I [node])
  (drops : ∀ ⦃w⦄ ids, I w → I (w.dropAll ids))

include handlers interpolations drops

/-- Binding upholds what each binding upholds, at the nodes of the places. -/
theorem upholds_bindSites (below : ∀ node, (injected node).Upholds I (node :: nodes))
    (sites : List (Site NodeId)) :
    (c.bindSites injected sites).Upholds I (sites.map Site.label ++ nodes) := by
  induction sites with
  | nil => exact Act.upholds_pure []
  | cons site rest ih =>
    have first : (c.bindSite injected site).Upholds I (site.label :: nodes) := by
      cases site with
      | directive node tag d => exact handlers d.kind node d
      | interpolation node text =>
        exact (interpolations node text).mono (List.cons_subset_cons node (List.nil_subset _))
      | injected node => exact below node
    refine (first.mono ?_).both drops (ih.mono ?_)
    · exact List.cons_subset_cons _ (List.subset_append_right _ _)
    · exact List.subset_cons_self _ _

/-- What is planned below a node is bound. -/
theorem upholds_bindBelow (below : ∀ node, (injected node).Upholds I (node :: nodes)) (depth : Nat)
    (node : NodeId) : (c.planBelow depth node >>= c.bindSites injected).Upholds I nodes := by
  intro w w' result ended proper has hw
  obtain ⟨e, failed, -⟩ | ⟨sites, between, hplan, hbind⟩ := Step.bind_cases ended
  · obtain ⟨-, rfl⟩ := Prod.mk.inj (Option.some.inj failed)
    exact ⟨hw, .refl⟩
  · obtain ⟨rfl, places⟩ := planBelow_ok proper.toIsSound hplan
    refine upholds_bindSites handlers interpolations drops below sites hbind proper
      (fun id hid => ?_) hw
    obtain place | other := List.mem_append.1 hid
    · obtain ⟨site, hsite, rfl⟩ := List.mem_map.1 place
      exact places site hsite
    · exact has id other

/-- Markup from data, level by level. -/
theorem upholds_bindInjected (depth : Nat) (node : NodeId) :
    (c.bindInjected depth node).Upholds I (node :: nodes) := by
  induction depth generalizing node with
  | zero => exact Act.upholds_ofExcept (.error _)
  | succ depth ih =>
    exact (upholds_bindBelow handlers interpolations drops ih depth node).mono
      (List.subset_cons_self _ _)

/-- **Compilation**, whether it succeeds or not, does to nodes what may be done to them, and keeps
what its handlers keep, as long as moving nodes keeps that too. -/
theorem upholds_compile
    (edits : ∀ ⦃w : World (Page υ)⦄ (g : Forest Listener → Forest Listener), I w →
      w.document.IsProper → w.document.Leads (g w.document) → I (w.editDocument g))
    (root : NodeId) : (c.compile root).Upholds I (root :: nodes) := by
  intro w w' result ended proper has hw
  obtain ⟨hasRoot, hasOthers⟩ := List.forall_mem_cons.1 has
  obtain ⟨staged, hasStaged⟩ := proper.leads_stage hasRoot
  obtain ⟨proper₁, kept₁⟩ := staged.keeps proper
  unfold compile at ended
  rw [Step.bind_ok (ViewModel.stage_eq w root)] at ended
  obtain ⟨⟨result', between⟩, hbound, hended⟩ := Option.map_eq_some_iff.1 ended
  obtain ⟨rfl, rfl⟩ := Prod.mk.inj hended
  obtain ⟨hbetween, bound⟩ :=
    upholds_bindBelow handlers interpolations drops
      (upholds_bindInjected handlers interpolations drops _) _ _ hbound proper₁
      (fun id hid => kept₁ id (hasOthers id hid)) (edits _ hw proper staged)
  have bound : (w.document.stage root).Leads between.document := bound
  obtain ⟨proper₂, kept₂⟩ := bound.keeps proper₁
  -- the container is still there, and so is the node that gets its children
  have back : between.document.Leads (between.document.append root ⟨w.document.next⟩) := by
    refine Forest.leads_apply (.append root ⟨w.document.next⟩) ?_
    exact List.forall_mem_cons.2 ⟨kept₂ root (kept₁ root hasRoot),
      List.forall_mem_singleton.2 (kept₂ _ hasStaged)⟩
  exact ⟨edits _ hbetween proper₂ back, staged.trans (bound.trans back)⟩

end handlers

/-- **Compilation** does to nodes what may be done to them. -/
theorem draws_compile (handlers : c.Draws nodes) (root : NodeId) :
    (c.compile root).Draws (root :: nodes) :=
  Act.draws_iff.2 (upholds_compile (fun kind node d => Act.draws_iff.1 (handlers kind node d))
    (fun node text => Act.draws_iff.1 (draws_bindInterpolation _ _ node text))
    (fun _ _ => id) (fun _ _ _ _ _ => trivial) root)

end Compiler

/-! ### Whatever is done -/

namespace Forest

/-- Documents that come about by operations on nodes that are there, by forgetting nodes that
nothing holds, and by compilation. -/
inductive Drawn (υ : Type) : Forest Listener → Prop
  | empty : Drawn υ .empty
  | operate {f : Forest Listener} (op : NodeOp Listener) (h : Drawn υ f)
      (has : ∀ id ∈ op.handles, f.Has id) : Drawn υ (op.apply f)
  | collect {f : Forest Listener} (held : NodeId → Bool) (h : Drawn υ f) : Drawn υ (f.collect held)
  | compile {w w' : World (Page υ)} {c : Compiler υ} {root : NodeId} {nodes : List NodeId}
      {result : Except TemplateError (List WatcherId)} (h : Drawn υ w.document)
      (handlers : c.Draws nodes) (has : ∀ id ∈ root :: nodes, w.document.Has id)
      (ended : c.compile root w = some (result, w')) : Drawn υ w'.document

variable {f : Forest Listener}

/-- **All these documents are proper.** -/
theorem Drawn.isProper (h : f.Drawn υ) : f.IsProper := by
  induction h with
  | empty => exact isProper_empty
  | operate op _ has ih => exact ((leads_apply op has).keeps ih).1
  | collect held _ ih => exact ih.collect held
  | compile _ handlers has ended ih =>
    exact ((Compiler.draws_compile handlers _ ended ih has).keeps ih).1

/-- **Nodes are a forest**, whatever is done to them and whatever is compiled: links on both sides
agree, nobody is a child twice or above itself, and containers are nobody's children.  What changes
links one by one comes to an end, and to the links of the document after it; compilation is nothing
else, and neither are nodes that are gone.  Whoever follows links, upwards or downwards, comes to an
end, and to what the trees say.  Markup that cannot be read changes nothing. -/
theorem links_of_drawn (h : f.Drawn υ) :
    f.links.IsForest ∧
      (∀ (op : NodeOp Listener) (fuel : Nat), (∀ id ∈ op.handles, f.Has id) →
        (op.apply f).next + 3 < fuel → op.relink f.next fuel f.links = some (op.apply f).links) ∧
      (∀ held, f.links.Keeps held (f.collect held).links) ∧
      (∀ ⦃w w' : World (Page υ)⦄ ⦃c : Compiler υ⦄ ⦃root : NodeId⦄ ⦃nodes : List NodeId⦄
        ⦃result : Except TemplateError (List WatcherId)⦄, w.document = f → c.Draws nodes →
        (∀ id ∈ root :: nodes, f.Has id) → c.compile root w = some (result, w') →
        f.Leads w'.document) ∧
      (∀ (id : NodeId) (t : Tree (Mark Listener)) (fuel : Nat), f.node? id = some t →
        f.next < fuel → (∀ below, f.links.climb id fuel below = some (f.contains id below)) ∧
          f.links.text fuel id = some t.textContent ∧ f.links.markup fuel id = some t.write) ∧
      ∀ id markup e, f.setInner id markup = .error e →
        (NodeOp.setInner id markup).apply f = f := by
  have proper := h.isProper
  refine ⟨proper.isForest, fun op fuel has enough => ?_, proper.keeps_collect, ?_, ?_, ?_⟩
  · obtain ⟨g, hrelink, relinks⟩ := op.relinks proper has enough
    rw [hrelink, relinks.links]
  · rintro w w' c root nodes result rfl handlers has ended
    exact Compiler.draws_compile handlers root ended proper has
  · intro id t fuel found enough
    have climbs (below : NodeId) : f.links.climb id fuel below = some (f.contains id below) :=
      proper.climb ⟨t, found⟩ (Nat.lt_add_right _ enough)
    exact ⟨climbs, proper.text found enough, proper.markup found enough⟩
  · intro id markup e failed
    rw [NodeOp.apply, failed]

/-- A page with two texts to be bound. -/
def greeting : World (Page Unit) :=
  .new (.ofJson (.object [("n", .integer 1)])) ⟨(NodeOp.parse "div"
    "<b>\x7b\x7bn\x7d\x7d</b><p v-text=\"\x7b\x7bn\x7d\x7d\">old</p>").apply .empty, true, ()⟩

/-- When it is compiled, one of them is a new node; then its parent is moved into the other
element. -/
theorem links_of_drawn_greeting : ∃ ids w' t,
    ViewModel.onPage.compiler.compile ⟨0⟩ greeting = some (.ok ids, w') ∧
    w'.document.links.IsForest ∧
    w'.document.node? ⟨0⟩ = some t ∧
    t.write = "<div><b>1</b><p v-text=\"\x7b\x7bn\x7d\x7d\">1</p></div>".toList ∧
    w'.document.links.markup 20 ⟨0⟩ = some t.write ∧
    (NodeOp.append (ℓ := Listener) ⟨1⟩ ⟨3⟩).relink w'.document.next 20 w'.document.links =
      some ((NodeOp.append ⟨1⟩ ⟨3⟩).apply w'.document).links := by
  have outcome : (ViewModel.onPage.compiler.compile ⟨0⟩ greeting).any (fun (result, w') =>
      result.toOption.isSome && (w'.document.node? ⟨0⟩).any (fun t =>
        t.write = "<div><b>1</b><p v-text=\"\x7b\x7bn\x7d\x7d\">1</p></div>".toList) &&
      (w'.document.node? ⟨1⟩).isSome && (w'.document.node? ⟨3⟩).isSome &&
      w'.document.next = 7) = true := by
    decide +kernel
  obtain ⟨⟨result, w'⟩, ended, passed⟩ := (Option.any_eq_true _ _).1 outcome
  simp only [Bool.and_eq_true, Option.any_eq_true, decide_eq_true_eq] at passed
  obtain ⟨⟨⟨⟨succeeds, t, found, written⟩, hasBold⟩, hasText⟩, next⟩ := passed
  have parsed : greeting.document.Drawn Unit := .operate (.parse _ _) .empty nofun
  have hasRoot : (greeting.document.node? ⟨0⟩).isSome = true := by decide +kernel
  have drawn : w'.document.Drawn Unit :=
    .compile parsed (Compiler.draws_builtin _ _)
      (List.forall_mem_singleton.2 (Option.isSome_iff_exists.1 hasRoot)) ended
  obtain ⟨isForest, relinks, -, -, reads, -⟩ := links_of_drawn drawn
  cases result with
  | error e => cases succeeds
  | ok ids =>
    refine ⟨ids, w', t, ended, isForest, found, written, (reads _ t 20 found (by omega)).2.2, ?_⟩
    refine relinks _ _ ?_ ?_
    · exact List.forall_mem_cons.2 ⟨Option.isSome_iff_exists.1 hasBold,
        List.forall_mem_singleton.2 (Option.isSome_iff_exists.1 hasText)⟩
    · rw [NodeOp.apply, next_append, next]
      decide

end Forest

end Bindery
