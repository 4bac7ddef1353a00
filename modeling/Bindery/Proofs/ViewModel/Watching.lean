import Bindery.Proofs.Reactive.FanOut
import Bindery.Proofs.ViewModel.Drawing

namespace Bindery

/-!
# Watching displays

What binding a template without markup from data leaves: for every display one watcher of each path
that it mentions, which writes the text of the display again.

* `Display.paths`, `Display.reaction`, `Display.watches` — the watchers of a display.
* `Template.planTrees_displays` — the places that are planned are the displays, in order.
* `ViewModel.compile_watches` — compiling makes exactly the watchers of the displays.
* `Display.logs_reaction` — what a reaction does.
-/

variable {υ : Type}

namespace Display

/-- The paths that a display mentions. -/
def paths (marks : Delimiters) (e : Display) : List Path :=
  match e.part with
  | .value => (Path.parse? e.source).toList
  | _ => (marks.paths e.source).toOption.getD []

/-- What the watchers of a display do. -/
def reaction (marks : Delimiters) (e : Display) : Snapshot → Program (Page υ) :=
  match e.part with
  | .value => showValue e.node
  | _ => showText marks e.source fun text => e.write text

/-- The watchers of a display: one for each path. -/
def watches (marks : Delimiters) (e : Display) : List (World.Watch (Page υ)) :=
  (e.paths marks).map (·, e.reaction marks)

/-- What a display mentions is there. -/
def Checked (t : Template) (e : Display) : Prop :=
  match e.part with
  | .value => ∃ value, t.valueAt e.source = .ok value
  | _ => t.checkText e.source = .ok ()

end Display

/-- The display that a place is; markup and events are none. -/
def Site.display? : Site NodeId → Option Display
  | .directive node _ d => d.kind.part?.map fun part => ⟨node, part, d.expression⟩
  | .interpolation node text => some ⟨node, .data, text⟩
  | .injected _ => none

namespace Template

variable {t : Template} {inject : String → Except TemplateError Unit}

/-- A place that is planned is a display that was checked. -/
def Places (t : Template) (site : Site (Mark Listener)) (e : Display) : Prop :=
  (site.map Mark.id).display? = some e ∧ e.Checked t

/-- The places of an element are the displays of its directives. -/
theorem places_directives (mark : Mark Listener) (tag : String) {ds : List Directive}
    (kinds : ∀ d ∈ ds, d.kind = .model ∨ d.kind = .text)
    (checked : ∀ d ∈ ds, t.checkDirective inject d = .ok ()) :
    List.Forall₂ t.Places (ds.map (.directive mark tag)) (ds.filterMap fun d =>
      d.kind.part?.map fun part => ⟨mark.id, part, d.expression⟩) := by
  induction ds with
  | nil => exact .nil
  | cons d ds ih =>
    rw [List.forall_mem_cons] at kinds checked
    obtain model | text := kinds.1
    · have hpart : d.kind.part? = some .value := by rw [model]; rfl
      simp only [List.map_cons, List.filterMap_cons, hpart, Option.map_some]
      refine .cons ⟨?_, ?_⟩ (ih kinds.2 checked.2)
      · rw [Site.map, Site.display?, hpart]
        rfl
      · exact valueAt_of_checked checked.1 (.inr model)
    · have hpart : d.kind.part? = some .child := by rw [text]; rfl
      simp only [List.map_cons, List.filterMap_cons, hpart, Option.map_some]
      refine .cons ⟨?_, ?_⟩ (ih kinds.2 checked.2)
      · rw [Site.map, Site.display?, hpart]
        rfl
      · exact checkText_of_checked checked.1 text

/-- Nodes that stay as they are display nothing. -/
theorem displays_still (rows : List (NodeId × Entry Listener)) :
    (rows.map Spot.still).flatMap Spot.displays = [] := by
  refine List.flatMap_eq_nil_iff.2 fun spot hspot => ?_
  obtain ⟨row, -, rfl⟩ := List.mem_map.1 hspot
  rfl

mutual

/-- The places of a tree are the displays of its spots, in order. -/
theorem planTree_displays : ∀ (tree : Tree (Mark Listener)) {sites : List (Site (Mark Listener))},
    t.planTree inject tree = .ok sites → (∀ spot ∈ t.spots tree, spot.IsPlain) →
    List.Forall₂ t.Places sites ((t.spots tree).flatMap Spot.displays)
  | .node mark (.element tag attrs) children, sites, planned, plain => by
    obtain ⟨checked, hsites⟩ := planTree_element planned
    rw [spots, List.forall_mem_cons] at plain
    have kinds := plain.1.1
    have own := places_directives mark tag kinds checked
    rw [spots, List.flatMap_cons]
    cases owner : lastOwner (t.directivesOf tag attrs) with
    | none =>
      rw [owner] at hsites plain
      obtain ⟨more, hmore, rfl⟩ := hsites
      exact List.rel_append own (planTrees_displays children hmore plain.2)
    | some d =>
      rw [owner] at hsites
      -- the content is a text, so below the element nothing is planned and nothing stays
      have noMarkup : (t.directivesOf tag attrs).any (·.kind = .html) = false := by
        rw [List.any_eq_false]
        intro d hd
        obtain model | text := kinds d hd
        · simp [model]
        · simp [text]
      rw [hsites, elementSites, noMarkup]
      exact List.rel_append own .nil
  | .node mark (.text data) children, sites, planned, _ => by
    rw [spots, List.flatMap_cons, displays_still, List.append_nil]
    obtain ⟨markers, rfl⟩ | ⟨markers, hcheck, rfl⟩ := planTree_text planned
    · rw [markers]
      exact .nil
    · rw [markers]
      exact .cons ⟨rfl, hcheck⟩ .nil
  | .node mark (.comment data) children, sites, planned, _ => by
    cases planned
    rw [spots, displays_still]
    exact .nil
  | .node mark .fragment children, sites, planned, _ => by
    cases planned
    rw [spots, displays_still]
    exact .nil

/-- **What is planned is displayed.** -/
theorem planTrees_displays : ∀ (ts : List (Tree (Mark Listener)))
    {sites : List (Site (Mark Listener))}, t.planTrees inject ts = .ok sites →
    (∀ spot ∈ t.spotsAll ts, spot.IsPlain) →
    List.Forall₂ t.Places sites ((t.spotsAll ts).flatMap Spot.displays)
  | [], sites, planned, _ => by
    cases planned
    exact .nil
  | first :: rest, sites, planned, plain => by
    rw [spotsAll, List.forall_mem_append] at plain
    obtain ⟨own, more, hfirst, hrest, rfl⟩ := planTrees_cons planned
    rw [spotsAll, List.flatMap_append]
    exact List.rel_append (planTree_displays first hfirst plain.1)
      (planTrees_displays rest hrest plain.2)

end

mutual

/-- Plain elements have no markup from data, so nothing is mixed with it. -/
theorem unmixed_of_plain {inject : String → Prop} : ∀ tree : Tree (Mark Listener),
    (∀ spot ∈ t.spots tree, spot.IsPlain) → t.Unmixed inject tree
  | .node mark (.element tag attrs) children, plain => by
    rw [spots, List.forall_mem_cons] at plain
    obtain ⟨⟨kinds, -⟩, hbelow⟩ := plain
    have noMarkup : ∀ d ∈ t.directivesOf tag attrs, d.kind ≠ .html := fun d hd html => by
      obtain model | text := kinds d hd
      · cases html.symm.trans model
      · cases html.symm.trans text
    refine ⟨List.pairwise_of_forall_mem_list fun d hd _ _ html => absurd html (noMarkup d hd), ?_⟩
    split
    · next owner =>
      rw [owner] at hbelow
      exact unmixedAll_of_plain children hbelow
    · next d owner => exact fun html => absurd html (noMarkup d (mem_of_lastOwner owner).1)
  | .node mark (.text data) children, _ => trivial
  | .node mark (.comment data) children, _ => trivial
  | .node mark .fragment children, _ => trivial

/-- Without markup nothing comes after markup. -/
theorem unmixedAll_of_plain {inject : String → Prop} : ∀ ts : List (Tree (Mark Listener)),
    (∀ spot ∈ t.spotsAll ts, spot.IsPlain) → t.UnmixedAll inject ts
  | [], _ => trivial
  | first :: rest, plain => by
    rw [spotsAll, List.forall_mem_append] at plain
    exact ⟨unmixed_of_plain first plain.1, unmixedAll_of_plain rest plain.2⟩

end

end Template

/-! ### Binding displays -/

namespace ViewModel

variable {vm : ViewModel υ} {w : World (Page υ)} {root : NodeId} {t : Template} {e : Display}
  {tree : Tree (Mark Listener)}

/-- Binding a display makes its watchers. -/
theorem binds_display (injected : NodeId → Act υ (List WatcherId))
    (mounted : vm.mount = .element root) (settings : t.settings = vm.settings)
    (hstore : t.store = some w.store) {site : Site NodeId} (display : site.display? = some e)
    (checked : e.Checked t) : ∃ f, (vm.compiler.bindSite injected site).Binds w
      (e.watches vm.settings.delimiters) f := by
  cases site with
  | directive node tag d =>
    rw [Site.display?, Option.map_eq_some_iff] at display
    obtain ⟨part, hpart, rfl⟩ := display
    obtain ⟨kind, attr, expression, event⟩ := d
    cases kind with
    | html => cases hpart
    | on => cases hpart
    | model =>
      cases hpart
      obtain ⟨value, hvalue⟩ := checked
      obtain ⟨path, seen, hparse, hread, -⟩ := Template.valueAt_ok hstore hvalue
      have watches : (⟨node, .value, expression⟩ : Display).watches vm.settings.delimiters =
          [(path, showValue (υ := υ) node)] := by
        simp only [Display.watches, Display.paths, hparse]
        rfl
      rw [watches]
      exact ⟨_, binds_model mounted hparse hread⟩
    | text =>
      cases hpart
      obtain ⟨paths, hpaths, hread, htext⟩ := Template.checkText_ok hstore checked
      rw [settings] at hpaths htext
      have watches : (⟨node, .child, expression⟩ : Display).watches vm.settings.delimiters =
          paths.map (·, showText (υ := υ) vm.settings.delimiters expression
            fun text f => f.setText node text) := by
        simp only [Display.watches, Display.paths, hpaths]
        rfl
      rw [watches]
      exact ⟨_, binds_text mounted hpaths hread htext⟩
  | interpolation node data =>
    cases display
    obtain ⟨paths, hpaths, hread, htext⟩ := Template.checkText_ok hstore checked
    rw [settings] at hpaths htext
    have watches : (⟨node, .data, data⟩ : Display).watches vm.settings.delimiters =
        paths.map (·, showText (υ := υ) vm.settings.delimiters data
          fun text f => f.mapKind node (Kind.setData text)) := by
      simp only [Display.watches, Display.paths, hpaths]
      rfl
    rw [watches]
    exact ⟨_, binds_interpolation mounted hpaths hread htext⟩
  | injected node => cases display

/-- Binding displays in order makes the watchers of all of them. -/
theorem binds_displays (injected : NodeId → Act υ (List WatcherId))
    (mounted : vm.mount = .element root) (settings : t.settings = vm.settings)
    (hstore : t.store = some w.store) {sites : List (Site (Mark Listener))} {es : List Display}
    (places : List.Forall₂ t.Places sites es) :
    ∃ f, (vm.compiler.bindSites injected (sites.map (Site.map Mark.id))).Binds w
      (es.flatMap (Display.watches vm.settings.delimiters)) f := by
  induction places generalizing w with
  | nil => exact ⟨_, Act.binds_pure⟩
  | @cons site e _ _ first _ ih =>
    obtain ⟨f, hfirst⟩ := binds_display injected mounted settings hstore first.1 first.2
    obtain ⟨f', hrest⟩ := ih (w := w.bound (e.watches vm.settings.delimiters) f)
      (by rw [World.store_bound]; exact hstore)
    exact ⟨f', hfirst.both hrest⟩

/-- **Compiling makes the watchers of the displays.** -/
theorem compile_watches (h : vm.Hosts w tree) {sites : List (Site (Mark Listener))}
    (planned : (vm.templateOn w.store).plan injectionLimit tree.children = .ok sites)
    (plain : ∀ spot ∈ (vm.templateOn w.store).spotsAll tree.children, spot.IsPlain) :
    ∃ ids f, vm.compiler.compile tree.id w = some (.ok ids, w.bound
      (((vm.templateOn w.store).spotsAll tree.children).flatMap fun spot =>
        spot.displays.flatMap (Display.watches vm.settings.delimiters)) f) := by
  have places := Template.planTrees_displays tree.children planned plain
  have below := h.planBelow
  rw [planned] at below
  obtain ⟨f, ids, hbinds⟩ := binds_displays (w := w.bound [] (w.document.stage tree.id))
    (vm.compiler.bindInjected injectionLimit) h.mounted rfl rfl places
  rw [World.bound_bound, List.nil_append, List.flatMap_assoc] at hbinds
  exact ⟨ids, _, compile_eq tree.id ((Step.bind_ok below).trans hbinds)⟩

end ViewModel

/-! ### Reactions -/

namespace Display

variable {e : Display} {marks : Delimiters} {s : Store}

/-- Reactions of displays look at the store and write on the page. -/
theorem observes_reaction (e : Display) (marks : Delimiters) (seen : Snapshot) :
    (e.reaction marks seen : Program (Page υ)).Observes := by
  have shows (write : String → Forest Listener → Forest Listener) :
      (showText marks e.source write seen : Program (Page υ)).Observes := by
    refine .look fun store _ => ?_
    cases marks.render e.source store with
    | error fault => exact .finish
    | ok text => exact .edit .finish
  unfold reaction
  cases e.part with
  | value => exact .look fun _ _ => .edit .finish
  | data => exact shows _
  | child => exact shows _

/-- **What a reaction does.** It writes the text of the display again. -/
theorem logs_reaction (hreach : s.Reachable) {path : Path} (hpath : path ∈ e.paths marks)
    {seen : Snapshot} (hread : (s.read path).result = .ok seen) {text : String}
    (hresult : e.result marks s = .ok text) {host last : Page υ} {result : Except Fault Unit}
    (h : (e.reaction marks seen).Logs s host result last) :
    result = .ok () ∧ last = host.edit (e.write text) := by
  have shows {write : String → Forest Listener → Forest Listener}
      (hrender : marks.render e.source s = .ok text)
      (h : (showText marks e.source write seen).Logs s host result last) :
      result = .ok () ∧ last = host.edit (write text) := by
    cases h with
    | look h =>
      simp only [hrender] at h
      cases h with
      | edit h =>
        cases h
        exact ⟨rfl, rfl⟩
  obtain ⟨node, part, source⟩ := e
  cases part with
  | value =>
    have hparse : Path.parse? source = some path := by simpa [paths] using hpath
    have hrender : s.render seen = text := by
      rw [← hreach.shownValue_eq hparse hread, Store.shownValue]
      simp only [Display.result] at hresult
      cases hget : s.get source with
      | error fault => simp [hget, Except.map] at hresult
      | ok value =>
        simp only [hget, Except.map, Except.ok.injEq] at hresult
        simp [Except.toOption, hresult]
    cases h with
    | look h =>
      simp only [hrender] at h
      cases h with
      | edit h =>
        cases h
        exact ⟨rfl, rfl⟩
  | data => exact shows hresult h
  | child => exact shows hresult h

end Display

end Bindery
