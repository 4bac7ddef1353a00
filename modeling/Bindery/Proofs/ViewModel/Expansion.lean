import Bindery.Proofs.Document.Rows
import Bindery.Proofs.Template.Rendering
import Bindery.ViewModel.Page
import Mathlib.Data.List.Induction

namespace Bindery

/-!
# The expansion of templates

What binding should make of a template, as a function of the trees alone.

* `Origin` — a node of the result: which node of the template it is, and its listeners.
* `Shown` — what is shown in the places of a template.
* `Template.expand`, `Template.expandAll` — trees with everything shown in its place.
* `Template.shownAt` — what a store shows, with so many levels of markup from data.
* `Template.Unmixed` — no element gets a text after markup as its content.
* `Template.planTree_element`, `Template.planTree_text`, `Template.planTrees_cons` — the places that
  are planned; `Template.planTrees_map` — labels do not matter for them.
-/

/-- A node of an expanded template: the node of the template that it is, unless it is new, and the
listeners that it has. -/
@[ext]
structure Origin where
  id? : Option NodeId
  listeners : List (String × Listener)

namespace Origin

/-- A new node. -/
def fresh : Origin := ⟨none, []⟩

/-- One more listener. -/
def listen (event : String) (listener : Listener) (o : Origin) : Origin :=
  { o with listeners := o.listeners ++ [(event, listener)] }

end Origin

/-- A node as it looks from a time when identifiers below `bound` were given out. -/
def Mark.origin (bound : Nat) (mark : Mark Listener) : Origin :=
  ⟨if mark.id.val < bound then some mark.id else none, mark.listeners⟩

/-- What is shown at the places of a template, by the nodes that these places are on. -/
structure Shown where
  /-- The text for a text with markers. -/
  text : Option NodeId → String → String
  /-- The form value for an expression. -/
  value : Option NodeId → String → String
  /-- The trees for an expression of markup. -/
  markup : String → List (Tree Origin)

/-- The last directive that replaces the content of the element; it decides what stays there. -/
def lastOwner (ds : List Directive) : Option Directive := (ds.filter (·.kind.ownsContent)).getLast?

@[simp] theorem lastOwner_nil : lastOwner [] = none := rfl

/-- The last directive owns the content if it owns content at all. -/
theorem lastOwner_concat (ds : List Directive) (d : Directive) :
    lastOwner (ds ++ [d]) = if d.kind.ownsContent then some d else lastOwner ds := by
  rw [lastOwner, List.filter_append]
  by_cases h : d.kind.ownsContent = true
  · simp [h]
  · simp [h, lastOwner]

/-- Nothing owns the content if no directive does. -/
theorem lastOwner_eq_none {ds : List Directive} :
    lastOwner ds = none ↔ ds.any (·.kind.ownsContent) = false := by
  simp [lastOwner]

/-- What owns the content is one of the directives, and of a kind that does. -/
theorem mem_of_lastOwner {ds : List Directive} {d : Directive} (h : lastOwner ds = some d) :
    d ∈ ds ∧ d.kind.ownsContent = true :=
  List.mem_filter.1 (List.mem_of_getLast? h)

/-- What a directive adds to the listeners of its element. -/
def Directive.attach (d : Directive) (o : Origin) : Origin :=
  match d.kind with
  | .model => o.listen "input" (.writeBack d.expression)
  | .on => d.event.elim o fun event => o.listen event (.invoke (trimBlanks d.expression))
  | .html => o
  | .text => o

@[simp] theorem Directive.id?_attach (d : Directive) (o : Origin) : (d.attach o).id? = o.id? := by
  unfold attach
  cases d.kind with
  | on => cases d.event <;> rfl
  | _ => rfl

/-- Listeners do not change where a node comes from. -/
theorem Directive.id?_foldl_attach (ds : List Directive) (o : Origin) :
    (ds.foldl (fun o d => d.attach o) o).id? = o.id? := by
  induction ds generalizing o with
  | nil => rfl
  | cons first rest ih => rw [List.foldl_cons, ih, Directive.id?_attach]

namespace Shown

variable (shown : Shown) (id? : Option NodeId)

/-- What a directive makes of the attributes of its element. -/
def attrs (d : Directive) (kind : Kind) : Kind :=
  match d.kind with
  | .model => kind.setAttr "value" (shown.value id? d.expression)
  | _ => kind

/-- What a directive makes of the content of its element, if it replaces that. -/
def content (d : Directive) : List (Tree Origin) :=
  match d.kind with
  | .html => shown.markup d.expression
  | _ => [.node .fresh (.text (shown.text id? d.expression)) []]

/-- What a directive makes of its element. -/
def dress (d : Directive) : Tree Origin → Tree Origin
  | .node o kind children => .node (d.attach o) (shown.attrs o.id? d kind)
      (if d.kind.ownsContent then shown.content o.id? d else children)

/-- Directives one after another add up: the listeners and attributes of all, and the content of the
last one that replaces it. -/
theorem foldl_dress (ds : List Directive) (o : Origin) (kind : Kind)
    (children : List (Tree Origin)) :
    ds.foldl (fun t d => shown.dress d t) (.node o kind children) =
      .node (ds.foldl (fun o d => d.attach o) o) (ds.foldl (fun k d => shown.attrs o.id? d k) kind)
        (match lastOwner ds with
          | none => children
          | some d => shown.content o.id? d) := by
  -- from the end, as the last directive decides on the content
  induction ds using List.reverseRecOn with
  | nil => rfl
  | append_singleton ds d ih =>
    have same := Directive.id?_foldl_attach ds o
    rw [List.foldl_append, List.foldl_append, List.foldl_append, ih, lastOwner_concat]
    simp only [List.foldl_cons, List.foldl_nil, dress, same]
    by_cases owns : d.kind.ownsContent = true
    · simp only [owns, if_true]
    · simp only [owns, Bool.false_eq_true, if_false]

end Shown

namespace Template

variable {α : Type}

/-- The directives of an element; attributes that cannot be read as one are none. -/
def directivesOf (t : Template) (tag : String) (attrs : List (String × String)) : List Directive :=
  attrs.filterMap fun attr => (t.recognize tag attr).toOption.join

mutual

/-- **The expansion of a tree.** The children of an element are expanded, and then its directives
act in order on its listeners, attributes and children.  A text with markers is shown, and
everything else stays as it is. -/
def expand (t : Template) (shown : Shown) : Tree Origin → Tree Origin
  | .node o (.element tag attrs) children =>
    (t.directivesOf tag attrs).foldl (fun tree d => shown.dress d tree)
      (.node o (.element tag attrs) (expandAll t shown children))
  | .node o (.text data) children =>
    .node o (.text (if t.settings.delimiters.hasMarkers data then shown.text o.id? data else data))
      children
  | .node o (.comment data) children => .node o (.comment data) children
  | .node o .fragment children => .node o .fragment children

/-- The expansion of a row of trees. -/
def expandAll (t : Template) (shown : Shown) : List (Tree Origin) → List (Tree Origin)
  | [] => []
  | first :: rest => expand t shown first :: expandAll t shown rest

end

/-- The directives of an element depend on the settings only. -/
theorem directivesOf_congr {t t' : Template} (settings : t.settings = t'.settings) (tag : String)
    (attrs : List (String × String)) : t.directivesOf tag attrs = t'.directivesOf tag attrs := by
  simp only [directivesOf, recognize, settings]

mutual

/-- An expansion depends on the settings only, and on what is shown. -/
theorem expand_congr {t t' : Template} {shown : Shown} (settings : t.settings = t'.settings) :
    ∀ tree : Tree Origin, t.expand shown tree = t'.expand shown tree
  | .node o (.element tag attrs) children => by
    rw [expand, expand, directivesOf_congr settings, expandAll_congr settings children]
  | .node o (.text data) children => by rw [expand, expand, settings]
  | .node o (.comment data) children => rfl
  | .node o .fragment children => rfl

/-- So does the expansion of trees, apart from what is shown. -/
theorem expandAll_congr {t t' : Template} {shown : Shown} (settings : t.settings = t'.settings) :
    ∀ ts : List (Tree Origin), t.expandAll shown ts = t'.expandAll shown ts
  | [] => rfl
  | first :: rest => by
    rw [expandAll, expandAll, expand_congr settings first, expandAll_congr settings rest]

end

/-- What a store shows, where the trees for markup are given. -/
def shownBy (t : Template) (s : Store) (markup : String → List (Tree Origin)) : Shown where
  text _ := s.shownText t.settings.delimiters
  value _ := s.shownValue
  markup := markup

/-- The trees that an expression shows as markup, as new nodes. -/
def broughtBy (s : Store) (expr : String) : List (Tree Origin) :=
  Tree.mapAll (fun _ => .fresh) (s.shownTrees expr)

/-- **What a store shows**, with so many levels of markup from data, each expanded in turn. -/
def shownAt (t : Template) (s : Store) : Nat → Shown
  | 0 => t.shownBy s fun _ => []
  | depth + 1 => t.shownBy s fun expr => t.expandAll (shownAt t s depth) (broughtBy s expr)

/-- The levels of markup have a part in the markup only. -/
theorem shownAt_eq (t : Template) (s : Store) (depth : Nat) :
    t.shownAt s depth = t.shownBy s (t.shownAt s depth).markup := by
  cases depth <;> rfl

mutual

/-- On no element that is bound a directive for text follows one for markup; `inject` says the same
of markup from data.  So it is if no element has two directives that replace its content. -/
def Unmixed (t : Template) (inject : String → Prop) : Tree α → Prop
  | .node _ (.element tag attrs) children =>
    let ds := t.directivesOf tag attrs
    (ds.Pairwise fun first second => first.kind = .html → second.kind ≠ .text) ∧
      match lastOwner ds with
      | none => UnmixedAll t inject children
      | some d => d.kind = .html → inject d.expression
  | .node _ (.text _) _ => True
  | .node _ (.comment _) _ => True
  | .node _ .fragment _ => True

/-- The same for a row of trees. -/
def UnmixedAll (t : Template) (inject : String → Prop) : List (Tree α) → Prop
  | [] => True
  | first :: rest => Unmixed t inject first ∧ UnmixedAll t inject rest

end

mutual

/-- Labels do not matter for which directives an element has. -/
theorem unmixed_map {α β : Type} (t : Template) (inject : String → Prop) (f : α → β) :
    ∀ tree : Tree α, t.Unmixed inject (tree.map f) ↔ t.Unmixed inject tree
  | .node label (.element tag attrs) children => by
    rw [Tree.map, Unmixed, Unmixed, unmixedAll_map t inject f children]
  | .node label (.text data) children => Iff.rfl
  | .node label (.comment data) children => Iff.rfl
  | .node label .fragment children => Iff.rfl

/-- Labels do not matter. -/
theorem unmixedAll_map {α β : Type} (t : Template) (inject : String → Prop) (f : α → β) :
    ∀ trees : List (Tree α), t.UnmixedAll inject (Tree.mapAll f trees) ↔ t.UnmixedAll inject trees
  | [] => Iff.rfl
  | first :: rest => by
    rw [Tree.mapAll, UnmixedAll, UnmixedAll, unmixed_map t inject f first,
      unmixedAll_map t inject f rest]

end

/-- The same for the markup that an expression brings, with so many levels of it. -/
def UnmixedBelow (t : Template) (s : Store) : Nat → String → Prop
  | 0, _ => True
  | depth + 1, expr => t.UnmixedAll (UnmixedBelow t s depth) (s.shownTrees expr)

mutual

/-- Whether it is so can be computed. -/
def decideUnmixed (t : Template) (inject : String → Prop) [DecidablePred inject] :
    ∀ tree : Tree α, Decidable (t.Unmixed inject tree)
  | .node _ (.element tag attrs) children =>
    have : Decidable (match lastOwner (t.directivesOf tag attrs) with
        | none => t.UnmixedAll inject children
        | some d => d.kind = .html → inject d.expression) :=
      match lastOwner (t.directivesOf tag attrs) with
      | none => decideUnmixedAll t inject children
      | some _ => inferInstance
    inferInstanceAs (Decidable (_ ∧ _))
  | .node _ (.text _) _ => .isTrue trivial
  | .node _ (.comment _) _ => .isTrue trivial
  | .node _ .fragment _ => .isTrue trivial

/-- The same for a row of trees. -/
def decideUnmixedAll (t : Template) (inject : String → Prop) [DecidablePred inject] :
    ∀ trees : List (Tree α), Decidable (t.UnmixedAll inject trees)
  | [] => .isTrue trivial
  | first :: rest =>
    have := decideUnmixed t inject first
    have := decideUnmixedAll t inject rest
    inferInstanceAs (Decidable (_ ∧ _))

end

instance (t : Template) (inject : String → Prop) [DecidablePred inject] (trees : List (Tree α)) :
    Decidable (t.UnmixedAll inject trees) := decideUnmixedAll t inject trees

instance decidableUnmixedBelow (t : Template) (s : Store) :
    (depth : Nat) → DecidablePred (t.UnmixedBelow s depth)
  | 0, _ => .isTrue trivial
  | depth + 1, _ =>
    have := decidableUnmixedBelow t s depth
    inferInstanceAs (Decidable (t.UnmixedAll _ _))

/-! ### Places that are planned -/

/-- The directives of an element that is planned are all checked. -/
theorem directives_ok {t : Template} {inject : String → Except TemplateError Unit} {tag : String}
    {attrs : List (String × String)} {ds : List Directive}
    (h : t.directives inject tag attrs = .ok ds) :
    ds = t.directivesOf tag attrs ∧ ∀ d ∈ ds, t.checkDirective inject d = .ok () := by
  induction attrs generalizing ds with
  | nil =>
    cases h
    exact ⟨rfl, by simp⟩
  | cons attr rest ih =>
    rw [directives] at h
    cases hattr : t.recognize tag attr with
    | error e => simp [hattr] at h
    | ok found =>
      cases found with
      | none =>
        simp only [hattr] at h
        obtain ⟨rfl, checked⟩ := ih h
        exact ⟨by simp [directivesOf, hattr, Except.toOption], checked⟩
      | some d =>
        simp only [hattr] at h
        cases hcheck : t.checkDirective inject d with
        | error e => simp [hcheck] at h
        | ok _ =>
          simp only [hcheck] at h
          cases hrest : t.directives inject tag rest with
          | error e => simp [hrest, Except.map] at h
          | ok more =>
            simp only [hrest, Except.map, Except.ok.injEq] at h
            obtain ⟨hmore, checked⟩ := ih hrest
            subst h
            refine ⟨?_, List.forall_mem_cons.2 ⟨hcheck, checked⟩⟩
            rw [hmore]
            simp [directivesOf, hattr, Except.toOption]

/-- The places of an element that is planned. -/
theorem planTree_element {t : Template} {inject : String → Except TemplateError Unit} {label : α}
    {tag : String} {attrs : List (String × String)} {children : List (Tree α)}
    {sites : List (Site α)}
    (h : t.planTree inject (.node label (.element tag attrs) children) = .ok sites) :
    (∀ d ∈ t.directivesOf tag attrs, t.checkDirective inject d = .ok ()) ∧
      match lastOwner (t.directivesOf tag attrs) with
      | some _ => sites = elementSites label tag (t.directivesOf tag attrs)
      | none => ∃ below, t.planTrees inject children = .ok below ∧
          sites = (t.directivesOf tag attrs).map (.directive label tag) ++ below := by
  rw [planTree] at h
  cases hds : t.directives inject tag attrs with
  | error e => simp [hds] at h
  | ok ds =>
    obtain ⟨rfl, checked⟩ := directives_ok hds
    simp only [hds] at h
    refine ⟨checked, ?_⟩
    cases howner : lastOwner (t.directivesOf tag attrs) with
    | some d =>
      obtain ⟨hmem, owns⟩ := mem_of_lastOwner howner
      rw [if_pos (List.any_eq_true.2 ⟨d, hmem, owns⟩)] at h
      exact (Except.ok.inj h).symm
    | none =>
      have none := lastOwner_eq_none.1 howner
      rw [none, if_neg Bool.false_ne_true] at h
      cases hbelow : t.planTrees inject children with
      | error e => simp [hbelow, Except.map] at h
      | ok below =>
        simp only [hbelow, Except.map, Except.ok.injEq] at h
        refine ⟨below, rfl, ?_⟩
        -- markup would replace the content, so there is no place for it
        have noMarkup : (t.directivesOf tag attrs).any (·.kind = .html) = false := by
          rw [List.any_eq_false] at none ⊢
          intro d hd
          have := none d hd
          cases hkind : d.kind <;> simp_all [DirectiveKind.ownsContent]
        rw [← h, elementSites, noMarkup]
        simp

/-- The places of a text that is planned: there is one if it has markers, and it is checked. -/
theorem planTree_text {t : Template} {inject : String → Except TemplateError Unit} {label : α}
    {data : String} {children : List (Tree α)} {sites : List (Site α)}
    (h : t.planTree inject (.node label (.text data) children) = .ok sites) :
    (t.settings.delimiters.hasMarkers data = false ∧ sites = []) ∨
      (t.settings.delimiters.hasMarkers data = true ∧ t.checkText data = .ok () ∧
        sites = [.interpolation label data]) := by
  rw [planTree] at h
  cases markers : t.settings.delimiters.hasMarkers data with
  | false =>
    rw [markers, if_neg Bool.false_ne_true] at h
    exact .inl ⟨rfl, (Except.ok.inj h).symm⟩
  | true =>
    rw [markers, if_pos rfl] at h
    cases hcheck : t.checkText data with
    | error e => simp [hcheck, Except.map] at h
    | ok _ =>
      simp only [hcheck, Except.map, Except.ok.injEq] at h
      exact .inr ⟨rfl, rfl, h.symm⟩

/-- The places of a row of trees that is planned are those of the trees. -/
theorem planTrees_cons {t : Template} {inject : String → Except TemplateError Unit}
    {first : Tree α} {rest : List (Tree α)} {sites : List (Site α)}
    (h : t.planTrees inject (first :: rest) = .ok sites) :
    ∃ own more, t.planTree inject first = .ok own ∧ t.planTrees inject rest = .ok more ∧
      sites = own ++ more := by
  rw [planTrees] at h
  cases hfirst : t.planTree inject first with
  | error e => simp [hfirst] at h
  | ok own =>
    cases hrest : t.planTrees inject rest with
    | error e => simp [hfirst, hrest, Except.map] at h
    | ok more =>
      simp only [hfirst, hrest, Except.map, Except.ok.injEq] at h
      exact ⟨own, more, rfl, rfl, h.symm⟩

end Template

/-- A place on a node with another label. -/
def Site.map {α β : Type} (f : α → β) : Site α → Site β
  | directive label tag d => directive (f label) tag d
  | interpolation label template => interpolation (f label) template
  | injected label => injected (f label)

namespace Template

variable {α β : Type}

theorem elementSites_map (f : α → β) (label : α) (tag : String) (ds : List Directive) :
    elementSites (f label) tag ds = (elementSites label tag ds).map (Site.map f) := by
  rw [elementSites, elementSites]
  split <;> simp [Site.map, Function.comp_def]

mutual

/-- Planning does not look at labels. -/
theorem planTree_map (t : Template) (inject : String → Except TemplateError Unit) (f : α → β) :
    ∀ tree : Tree α, t.planTree inject (tree.map f) =
      (t.planTree inject tree).map (List.map (Site.map f))
  | .node label (.element tag attrs) children => by
    rw [Tree.map, planTree, planTree, planTrees_map t inject f children]
    cases t.directives inject tag attrs with
    | error e => rfl
    | ok ds =>
      simp only [elementSites_map]
      split
      · rfl
      · cases t.planTrees inject children <;> simp [Except.map]
  | .node label (.text data) children => by
    rw [Tree.map, planTree, planTree]
    split
    · cases t.checkText data <;> rfl
    · rfl
  | .node label (.comment data) children => rfl
  | .node label .fragment children => rfl

/-- The places that are planned have the labels of their nodes. -/
theorem planTrees_map (t : Template) (inject : String → Except TemplateError Unit) (f : α → β) :
    ∀ trees : List (Tree α), t.planTrees inject (Tree.mapAll f trees) =
      (t.planTrees inject trees).map (List.map (Site.map f))
  | [] => rfl
  | first :: rest => by
    rw [Tree.mapAll, planTrees, planTrees, planTree_map t inject f first,
      planTrees_map t inject f rest]
    cases t.planTree inject first with
    | error e => rfl
    | ok sites => cases t.planTrees inject rest <;> simp [Except.map]

end

end Template

end Bindery
