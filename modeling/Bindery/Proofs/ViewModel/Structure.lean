import Bindery.Proofs.Markup.Outline
import Bindery.Proofs.Markup.Reading
import Bindery.Proofs.ViewModel.InStep

namespace Bindery

/-!
# Data cannot alter the structure of a page

Strings from data reach a page as texts and as form values, and both are escaped.

* `Template.WithoutMarkup` — no directive of a template shows a value as markup.
* `Template.canonicalAll_expandAll` — the expansion of such a template has markup of its own,
  whatever is shown in it.
* `Template.outlineAll_expandAll` — its elements, attributes and comments are those of the template.
* `ViewModel.readMarkup_mountOn` — so the markup of a page that is mounted reads back as the page.
-/

namespace Directive

/-- What follows a lead is the end of the text. -/
theorem suffix_of_afterLead? {lead cs rest : List Char} (h : afterLead? lead cs = some rest) :
    rest <:+ cs := by
  fun_induction afterLead? lead cs with
  | case1 cs =>
    cases h
    exact List.suffix_refl _
  | case2 => contradiction
  | case3 l lead cs ih => exact (ih h).trans (List.suffix_cons _ _)
  | case4 => contradiction

/-- **The form value is no directive**, whatever directives start with. -/
theorem parse_value_ne (tag expression lead : String) (d : Directive) :
    parse tag "value" expression lead ≠ .ok (some d) := by
  -- what follows the lead is one of the ends of the name, and none of these names a kind
  have hends : ∀ rest ∈ "value".toList.tails,
      DirectiveKind.ofName?
        (String.ofList ((rest.takeWhile (· != '-')).takeWhile (· != ':'))) = none := by
    decide +kernel
  intro h
  unfold parse at h
  cases hrest : afterLead? lead.toList "value".toList with
  | none =>
    rw [hrest] at h
    cases h
  | some rest =>
    have hnone := hends rest ((List.mem_tails _ _).2 (suffix_of_afterLead? hrest))
    rw [hrest] at h
    simp only [hnone] at h
    split at h <;> cases h

end Directive

namespace Template

variable {α β : Type} (t : Template)

/-- The directives of a node: those of an element. -/
def directivesAt : Kind → List Directive
  | .element tag attrs => t.directivesOf tag attrs
  | _ => []

/-- No directive in these trees shows a value as markup. -/
def WithoutMarkup (ts : List (Tree α)) : Prop :=
  ∀ u ∈ Tree.subtreesAmong ts, ∀ d ∈ t.directivesAt u.kind, d.kind ≠ .html

instance (ts : List (Tree α)) : Decidable (t.WithoutMarkup ts) :=
  inferInstanceAs (Decidable (∀ u ∈ Tree.subtreesAmong ts, ∀ d ∈ t.directivesAt u.kind,
    d.kind ≠ .html))

/-- Elements with a form value from data. -/
def isBound : Tree.Elements := fun tag attrs => (t.directivesOf tag attrs).any (·.kind = .model)

/-- Elements with content from data. -/
def isOwned : Tree.Elements := fun tag attrs => (t.directivesOf tag attrs).any (·.kind.ownsContent)

variable {t}

/-- Trees are without markup from data if their elements are, at every depth. -/
theorem withoutMarkup_cons {label : α} {kind : Kind} {children rest : List (Tree α)} :
    t.WithoutMarkup (.node label kind children :: rest) ↔
      (∀ d ∈ t.directivesAt kind, d.kind ≠ .html) ∧ t.WithoutMarkup children ∧
        t.WithoutMarkup rest := by
  simp only [WithoutMarkup, Tree.subtreesAmong, Tree.subtrees, List.cons_append,
    List.forall_mem_cons, List.forall_mem_append, Tree.kind_node]

theorem withoutMarkup_cons_iff {tree : Tree α} {rest : List (Tree α)} :
    t.WithoutMarkup (tree :: rest) ↔ t.WithoutMarkup [tree] ∧ t.WithoutMarkup rest := by
  simp [WithoutMarkup, Tree.subtreesAmong, or_imp, forall_and]

/-- Labels do not matter. -/
theorem withoutMarkup_mapAll (f : α → β) : ∀ {ts : List (Tree α)},
    t.WithoutMarkup (Tree.mapAll f ts) ↔ t.WithoutMarkup ts
  | [] => by simp [WithoutMarkup, Tree.mapAll, Tree.subtreesAmong]
  | .node label kind children :: rest => by
    rw [Tree.mapAll, Tree.map, withoutMarkup_cons, withoutMarkup_cons, withoutMarkup_mapAll f,
      withoutMarkup_mapAll f]

/-- Without markup there is none for a text to follow. -/
theorem unmixedAll_of_withoutMarkup (inject : String → Prop) : ∀ {ts : List (Tree α)},
    t.WithoutMarkup ts → t.UnmixedAll inject ts
  | [], _ => trivial
  | .node label kind children :: rest, h => by
    obtain ⟨own, below, beside⟩ := withoutMarkup_cons.1 h
    refine ⟨?_, unmixedAll_of_withoutMarkup inject beside⟩
    cases kind with
    | element tag attrs =>
      rw [Unmixed]
      refine ⟨List.pairwise_of_forall_mem_list fun first hfirst _ _ html => absurd html ?_, ?_⟩
      · exact own first hfirst
      · cases owner : lastOwner (t.directivesOf tag attrs) with
        | none => exact unmixedAll_of_withoutMarkup inject below
        | some d => exact fun html => absurd html (own d (mem_of_lastOwner owner).1)
    | text data => exact trivial
    | comment data => exact trivial
    | fragment => exact trivial

/-! ### Attributes -/

/-- Form values do not change what directives an element has. -/
theorem directivesOf_setIn (tag value : String) (attrs : List (String × String)) :
    t.directivesOf tag (Kind.setIn "value" value attrs) = t.directivesOf tag attrs := by
  have hnone : ∀ v, (t.recognize tag ("value", v)).toOption.join = none := by
    intro v
    cases hrec : t.recognize tag ("value", v) with
    | error e => rfl
    | ok found =>
      cases found with
      | none => rfl
      | some d =>
        unfold recognize at hrec
        split at hrec
        · split at hrec <;> simp at hrec
        · exact absurd hrec (Directive.parse_value_ne tag v t.settings.lead d)
  induction attrs with
  | nil => simp [directivesOf, Kind.setIn, hnone]
  | cons attr attrs ih =>
    obtain ⟨name, v⟩ := attr
    rw [Kind.setIn]
    by_cases h : name = "value"
    · rw [if_pos h, h]
      simp [directivesOf, hnone]
    · rw [if_neg h]
      simp only [directivesOf, List.filterMap_cons] at ih ⊢
      rw [ih]

/-- Setting the form value changes no other attribute. -/
theorem withoutValue_setIn (value : String) (attrs : List (String × String)) :
    Tree.withoutValue (Kind.setIn "value" value attrs) = Tree.withoutValue attrs := by
  induction attrs with
  | nil => rfl
  | cons attr attrs ih =>
    obtain ⟨name, v⟩ := attr
    rw [Kind.setIn]
    by_cases h : name = "value"
    · rw [if_pos h, h]
      rfl
    · rw [if_neg h]
      have hkept : ∀ rest, Tree.withoutValue ((name, v) :: rest) =
          (name, v) :: Tree.withoutValue rest :=
        fun rest => List.filter_cons_of_pos (by simpa using h)
      rw [hkept, hkept, ih]

/-- What directives make of the attributes of an element: those that are shown set its form value,
the others leave it. -/
structure Dressed (t : Template) (tag : String) (attrs attrs' : List (String × String)) : Prop where
  held : IsAttributes attrs → IsAttributes attrs'
  same : t.directivesOf tag attrs' = t.directivesOf tag attrs
  besides : Tree.withoutValue attrs' = Tree.withoutValue attrs
  unbound : t.isBound tag attrs = false → attrs' = attrs

/-- Showing values changes the attributes of an element, and only as it should. -/
theorem foldl_attrs (shown : Shown) (id? : Option NodeId) (tag : String)
    (attrs : List (String × String)) :
    ∃ attrs', (t.directivesOf tag attrs).foldl (fun k d => shown.attrs id? d k)
        (.element tag attrs) = .element tag attrs' ∧ t.Dressed tag attrs attrs' := by
  have hparts : ∀ ds : List Directive, (∀ d ∈ ds, d ∈ t.directivesOf tag attrs) →
      ∃ attrs', ds.foldl (fun k d => shown.attrs id? d k) (.element tag attrs) =
        .element tag attrs' ∧ t.Dressed tag attrs attrs' := by
    intro ds
    induction ds using List.reverseRecOn with
    | nil => exact fun _ => ⟨attrs, rfl, id, rfl, rfl, fun _ => rfl⟩
    | append_singleton ds d ih =>
      intro hds
      obtain ⟨attrs', hfold, hattrs⟩ := ih fun d' h => hds d' (List.mem_append_left _ h)
      rw [List.foldl_append, hfold, List.foldl_cons, List.foldl_nil]
      unfold Shown.attrs
      split
      · next model =>
        refine ⟨_, rfl, fun h => (hattrs.held h).setIn (by decide) _, ?_, ?_, fun none => ?_⟩
        · rw [directivesOf_setIn, hattrs.same]
        · rw [withoutValue_setIn, hattrs.besides]
        · rw [isBound, List.any_eq_false] at none
          exact absurd (by simpa using model) (none d (hds d (by simp)))
      · exact ⟨attrs', rfl, hattrs⟩
  exact hparts _ fun _ h => h

/-! ### Elements and rows -/

/-- The content of an element in the expansion: the expansion of its content, or a single text. -/
theorem expand_dressed (shown : Shown) (o : Origin) (tag : String) (attrs : List (String × String))
    (children : List (Tree Origin)) (own : ∀ d ∈ t.directivesOf tag attrs, d.kind ≠ .html) :
    ∃ o' attrs' content, t.expand shown (.node o (.element tag attrs) children) =
        .node o' (.element tag attrs') content ∧ t.Dressed tag attrs attrs' ∧
      ((t.isOwned tag attrs = false ∧ content = t.expandAll shown children) ∨
        (t.isOwned tag attrs = true ∧ ∃ data, content = [.node .fresh (.text data) []])) := by
  obtain ⟨attrs', hfold, dressed⟩ := foldl_attrs shown o.id? tag attrs
  rw [expand_element, hfold]
  refine ⟨_, attrs', _, rfl, dressed, ?_⟩
  cases owner : lastOwner (t.directivesOf tag attrs) with
  | none => exact .inl ⟨lastOwner_eq_none.1 owner, rfl⟩
  | some d =>
    obtain ⟨hmem, owns⟩ := mem_of_lastOwner owner
    refine .inr ⟨List.any_eq_true.2 ⟨d, hmem, owns⟩, shown.text o.id? d.expression, ?_⟩
    -- the content is a text, as no directive is for markup
    show shown.content o.id? d = _
    unfold Shown.content
    split
    · next html => exact absurd html (own d hmem)
    · rfl

/-- What is no text is not expanded to one. -/
theorem isText_expand (shown : Shown) (tree : Tree Origin) :
    (t.expand shown tree).kind.isText = tree.kind.isText := by
  obtain ⟨o, kind, children⟩ := tree
  cases kind with
  | element tag attrs =>
    obtain ⟨attrs', hfold, -⟩ := foldl_attrs (t := t) shown o.id? tag attrs
    rw [expand_element, hfold]
    rfl
  | text data => rfl
  | comment data => rfl
  | fragment => rfl

/-- A text alone in its element is written and read back, or is not written at all. -/
theorem canonicalAll_text (data : String) :
    Tree.CanonicalAll (Tree.tidyAll [.node Origin.fresh (.text data) []]) := by
  rw [Tree.tidyAll]
  split
  · exact trivial
  · next hne => exact ⟨⟨fun h => hne (congrArg Kind.text h), rfl⟩, by simp [Tree.tidyAll], trivial⟩

mutual

/-- The expansion of a canonical tree is canonical once it is tidied. -/
theorem canonical_expand (shown : Shown) : ∀ {tree : Tree Origin}, Tree.Canonical tree →
    t.WithoutMarkup [tree] → (t.expand shown tree).kind ≠ .text "" →
    Tree.Canonical (t.expand shown tree).tidy
  | .node o (.element tag attrs) children, canonical, plain, _ => by
    rw [Tree.Canonical] at canonical
    obtain ⟨grammar, held, -, hchildren⟩ := canonical
    obtain ⟨own, below, -⟩ := withoutMarkup_cons.1 plain
    obtain ⟨o', attrs', content, hexpand, dressed, hcontent⟩ :=
      expand_dressed shown o tag attrs children own
    have hbelow : Tree.CanonicalAll (Tree.tidyAll content) := by
      rcases hcontent with ⟨-, rfl⟩ | ⟨-, data, rfl⟩
      · exact canonicalAll_expandAll shown hchildren below
      · exact canonicalAll_text data
    rw [hexpand, Tree.tidy, Tree.Canonical]
    refine ⟨grammar, dressed.held held, fun void => if_pos void, ?_⟩
    split
    · exact trivial
    · exact hbelow
  | .node o (.text data) children, canonical, _, hne => by
    rw [Tree.Canonical] at canonical
    rw [expand] at hne ⊢
    rw [Tree.tidy, Tree.Canonical]
    exact ⟨fun h => hne (congrArg Kind.text h), canonical.2⟩
  | .node o (.comment data) children, canonical, _, _ => canonical
  | .node o .fragment children, canonical, _, _ => by
    simp [Tree.Canonical] at canonical

/-- **The expansion of a template has markup of its own**, whatever texts and form values are
shown in it. -/
theorem canonicalAll_expandAll (shown : Shown) : ∀ {ts : List (Tree Origin)},
    Tree.CanonicalAll ts → t.WithoutMarkup ts →
    Tree.CanonicalAll (Tree.tidyAll (t.expandAll shown ts))
  | [], _, _ => trivial
  | tree :: rest, canonical, plain => by
    rw [Tree.CanonicalAll] at canonical
    obtain ⟨htree, hapart, hrest⟩ := canonical
    obtain ⟨hplain, beside⟩ := withoutMarkup_cons_iff.1 plain
    have hrest' := canonicalAll_expandAll shown hrest beside
    rw [expandAll, Tree.tidyAll]
    split
    · exact hrest'
    · next hkept =>
      refine ⟨canonical_expand shown htree hplain hkept, fun u hu text => ?_, hrest'⟩
      -- no text comes first behind a text, so none does in what is left there
      rw [Tree.kind_tidy, isText_expand] at text
      refine Tree.head?_tidyAll (fun v hv => ?_) u hu
      cases rest with
      | nil => simp [expandAll] at hv
      | cons next rest =>
        cases hv
        rw [isText_expand]
        exact hapart next rfl text

end

mutual

/-- **The outline of an expansion is that of the template**, without the content that a directive
owns. -/
theorem outline_expand (shown : Shown) : ∀ {tree : Tree Origin}, Tree.Canonical tree →
    t.WithoutMarkup [tree] →
    Tree.outline t.isBound (fun _ _ => false) (t.expand shown tree).tidy =
      Tree.outline t.isBound t.isOwned tree
  | .node o (.element tag attrs) children, canonical, plain => by
    rw [Tree.Canonical] at canonical
    obtain ⟨-, -, hvoid, hchildren⟩ := canonical
    obtain ⟨own, below, -⟩ := withoutMarkup_cons.1 plain
    obtain ⟨o', attrs', content, hexpand, dressed, hcontent⟩ :=
      expand_dressed shown o tag attrs children own
    have hattrs : (if t.isBound tag attrs' then Tree.withoutValue attrs' else attrs') =
        if t.isBound tag attrs then Tree.withoutValue attrs else attrs := by
      have hbound : t.isBound tag attrs' = t.isBound tag attrs := by
        rw [isBound, isBound, dressed.same]
      rw [hbound]
      split
      · exact dressed.besides
      · next unbound => exact dressed.unbound (by simpa using unbound)
    have hbelow : Tree.outlineAll t.isBound (fun _ _ => false)
        (if isVoid tag = true then [] else Tree.tidyAll content) =
          if t.isOwned tag attrs = true then [] else
            Tree.outlineAll t.isBound t.isOwned children := by
      split
      · next void =>
        rw [hvoid void]
        split <;> rfl
      · rcases hcontent with ⟨owned, rfl⟩ | ⟨owned, data, rfl⟩
        · rw [owned, if_neg Bool.false_ne_true]
          exact outlineAll_expandAll shown hchildren below
        · rw [owned, if_pos rfl, Tree.tidyAll]
          split <;> rfl
    rw [hexpand, Tree.tidy, Tree.outline, Tree.outline, hattrs, hbelow]
    rfl
  | .node o (.text data) children, _, _ => rfl
  | .node o (.comment data) children, _, _ => rfl
  | .node o .fragment children, canonical, _ => by
    simp [Tree.Canonical] at canonical

/-- **The elements, attributes and comments of the expansion are those of the template**, apart from
form values and replaced content, whatever is shown in it. -/
theorem outlineAll_expandAll (shown : Shown) : ∀ {ts : List (Tree Origin)},
    Tree.CanonicalAll ts → t.WithoutMarkup ts →
    Tree.outlineAll t.isBound (fun _ _ => false) (Tree.tidyAll (t.expandAll shown ts)) =
      Tree.outlineAll t.isBound t.isOwned ts
  | [], _, _ => rfl
  | tree :: rest, canonical, plain => by
    rw [Tree.CanonicalAll] at canonical
    obtain ⟨htree, -, hrest⟩ := canonical
    obtain ⟨hplain, beside⟩ := withoutMarkup_cons_iff.1 plain
    have hrest' := outlineAll_expandAll shown hrest beside
    have htree' := outline_expand shown htree hplain
    rw [expandAll, Tree.tidyAll, Tree.outlineAll]
    split
    · next hdropped =>
      -- a text leaves nothing in an outline, empty or not
      have hnone : Tree.outline t.isBound (fun _ _ => false) (t.expand shown tree).tidy = [] := by
        cases hexpand : t.expand shown tree with
        | node o kind children =>
          rw [hexpand] at hdropped
          cases hdropped
          rfl
      rw [← htree', hnone, hrest', List.nil_append]
    · rw [Tree.outlineAll, htree', hrest']

end

end Template

namespace ViewModel

open Template

variable {υ : Type} {vm : ViewModel υ} {tree : Tree (Mark Listener)} {ids : List WatcherId}
  {w w' : World (Page υ)}

/-- **No data value alters the markup structure.** A view model is mounted on markup that has been
read and has no directive for markup.  Then the markup of its page can be read; what it reads as is
the page, apart from empty texts and what hangs below void elements.  And the elements, attributes
and comments of it are those of the template, apart from the form values that are bound and from the
content that texts replace. -/
theorem readMarkup_mountOn (h : vm.Hosts w tree) {markup : String}
    (read : readMarkup markup = .ok (tree.children.map Tree.bare))
    (plain : (vm.templateOn w.store).WithoutMarkup tree.children)
    (mounted : vm.mountOn .builtin w = some (.ok ids, w')) :
    ∃ children, w'.document.node? tree.id = some (.node tree.label tree.kind children) ∧
      readMarkup (w'.innerHtml tree.id) = .ok ((Tree.tidyAll children).map Tree.bare) ∧
      Tree.outlineAll (vm.templateOn w.store).isBound (fun _ _ => false)
          ((Tree.tidyAll children).map Tree.bare) =
        Tree.outlineAll (vm.templateOn w.store).isBound (vm.templateOn w.store).isOwned
          tree.children := by
  obtain ⟨hcompile, sites, planned⟩ := planned_of_mountOn h mounted
  obtain ⟨_, new, f, children, hexpands, becomes, hlook, -⟩ :=
    compile_ok h planned (unmixedAll_of_withoutMarkup _ plain)
  rw [hcompile] at hexpands
  cases hexpands
  have found : (w.bound new f).document.node? tree.id =
      some (.node tree.label tree.kind children) := by
    rw [World.document_bound]
    exact becomes.sound.node?_of_holds becomes.holds
  -- what was read is canonical, and so is what it was expanded to
  have canonical : Tree.CanonicalAll tree.children := by
    have := canonicalAll_of_readMarkup read
    rwa [Tree.map_bare, Tree.canonicalAll_mapAll] at this
  have canonical' : Tree.CanonicalAll
      (Tree.mapAll (Mark.origin w.document.next) tree.children) :=
    (Tree.canonicalAll_mapAll _ _).2 canonical
  have plain' := (withoutMarkup_mapAll (Mark.origin w.document.next)).2 plain
  have tidied : Tree.CanonicalAll (Tree.tidyAll children) := by
    rw [← Tree.canonicalAll_mapAll (Mark.origin w.document.next), ← Tree.tidyAll_mapAll, hlook]
    exact canonicalAll_expandAll _ canonical' plain'
  refine ⟨children, found, ?_, ?_⟩
  · rw [World.innerHtml, found]
    show readMarkup (String.ofList (Tree.writeAll children)) = _
    rw [← Tree.writeAll_tidyAll]
    exact readMarkup_writeAll tidied
  · rw [Tree.map_bare, Tree.outlineAll_mapAll,
      ← Tree.outlineAll_mapAll _ _ (Mark.origin w.document.next), ← Tree.tidyAll_mapAll, hlook,
      outlineAll_expandAll _ canonical' plain', Tree.outlineAll_mapAll]

/-- A text between other nodes, a replaced text, a form value and a comment. -/
def guestbook : Tree (Mark Listener) :=
  .node ⟨⟨0⟩, []⟩ (.element "div" [])
    [.node ⟨⟨1⟩, []⟩ (.element "p" [("class", "a")])
        [.node ⟨⟨2⟩, []⟩ (.text "by \x7b\x7bn\x7d\x7d") []],
      .node ⟨⟨3⟩, []⟩ (.text "\x7b\x7bnone\x7d\x7d") [],
      .node ⟨⟨4⟩, []⟩ (.element "b" [("v-text", "\x7b\x7bn\x7d\x7d")])
        [.node ⟨⟨5⟩, []⟩ (.element "i" []) []],
      .node ⟨⟨6⟩, []⟩ (.element "input" [("v-model", "v"), ("type", "text")]) [],
      .node ⟨⟨7⟩, []⟩ (.comment " end ") []]

/-- Strings that would be markup if they were not escaped. -/
def hostileData : Json :=
  .object [("n", .string "</p><i>&lt;"), ("v", .string "\"><i x=\"&quot;"), ("none", .string "")]

/-- Strings that look like markup cannot change the structure of the page. -/
theorem readMarkup_guestbook : ∃ ids w' trees,
    onPage.mountOn .builtin (pageOf guestbook 8 hostileData) = some (.ok ids, w') ∧
      w'.innerHtml ⟨0⟩ = "<p class=\"a\">by &lt;/p&gt;&lt;i&gt;&amp;lt;</p>" ++
        "<b v-text=\"\x7b\x7bn\x7d\x7d\">&lt;/p&gt;&lt;i&gt;&amp;lt;</b>" ++
        "<input v-model=\"v\" type=\"text\" value=\"&quot;><i x=&quot;&amp;quot;\">" ++
        "<!-- end -->" ∧
      readMarkup (w'.innerHtml ⟨0⟩) = .ok trees ∧
      Tree.outlineAll (onPage.templateOn (.ofJson hostileData)).isBound (fun _ _ => false) trees =
        Tree.outlineAll (onPage.templateOn (.ofJson hostileData)).isBound
          (onPage.templateOn (.ofJson hostileData)).isOwned guestbook.children := by
  have outcome : (onPage.mountOn .builtin (pageOf guestbook 8 hostileData)).map
      (fun (result, w') => (result.toOption.isSome, w'.innerHtml ⟨0⟩)) =
        some (true, "<p class=\"a\">by &lt;/p&gt;&lt;i&gt;&amp;lt;</p>" ++
          "<b v-text=\"\x7b\x7bn\x7d\x7d\">&lt;/p&gt;&lt;i&gt;&amp;lt;</b>" ++
          "<input v-model=\"v\" type=\"text\" value=\"&quot;><i x=&quot;&amp;quot;\">" ++
          "<!-- end -->") := by
    decide +kernel
  obtain ⟨⟨result, w'⟩, mounted, hresult⟩ := Option.map_eq_some_iff.1 outcome
  obtain ⟨succeeded, hhtml⟩ := Prod.mk.inj hresult
  cases result with
  | error e => simp [Except.toOption] at succeeded
  | ok ids =>
    have host : onPage.Hosts (pageOf guestbook 8 hostileData) guestbook :=
      hosts_new rfl hostileData (by decide) (by decide) (by decide)
    have canonical : Tree.CanonicalAll guestbook.children := by decide +kernel
    obtain ⟨children, -, hread, houtline⟩ :=
      readMarkup_mountOn host (readMarkup_writeAll canonical) (by decide +kernel) mounted
    exact ⟨ids, w', _, mounted, hhtml, hread, houtline⟩

end ViewModel

end Bindery
