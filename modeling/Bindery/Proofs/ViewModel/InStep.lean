import Bindery.Proofs.ViewModel.Repainting

namespace Bindery

/-!
# Pages in step with the data

A page with a view model shows its data, whatever is assigned and entered, as long as its displays
show scalars.

* `World.serves_bound` — the watchers that binding makes.
* `ViewModel.mounted_inStep` — a view model that was mounted is in step.
* `World.InStep.expansion` — what the page of a world in step looks like.
* `Move`, `ViewModel.Played` — what is done to a page, once and again and again.
* `ViewModel.inStep_of_played` — pages stay in step.
-/

variable {υ σ : Type}

/-! ### Watchers from the beginning -/

namespace World

section watchAll

variable {w : World σ} {new : List (Watch σ)}

/-- New watchers that only observe leave all of them attentive. -/
theorem Attentive.watchAll (h : w.Attentive)
    (observes : ∀ one ∈ new, ∀ seen, (one.2 seen).Observes) :
    (w.watchAll new).Attentive := by
  induction new generalizing w with
  | nil => exact h
  | cons one rest ih =>
    rw [List.forall_mem_cons] at observes
    exact ih (h.watch one.1 observes.1) observes.2

/-- New watchers are in touch, and leave the others so. -/
theorem InTouch.watchAll (h : w.InTouch) (new : List (Watch σ)) : (w.watchAll new).InTouch := by
  induction new generalizing w with
  | nil => exact h
  | cons one rest ih => exact ih (h.watch one.1 one.2)

/-- Where all paths lead somewhere, all watchers are made. -/
theorem map_watch_watchAll (reads : ∀ one ∈ new, ∃ seen, (w.store.read one.1).result = .ok seen) :
    (w.watchAll new).watchers.map Watcher.watch = w.watchers.map Watcher.watch ++ new := by
  induction new generalizing w with
  | nil => exact (List.append_nil _).symm
  | cons one rest ih =>
    obtain ⟨⟨seen, hread⟩, hrest⟩ := List.forall_mem_cons.1 reads
    rw [World.watchAll, List.foldl_cons]
    refine (ih (by simpa using hrest)).trans ?_
    rw [watch_of_read one.2 hread, List.map_append, List.append_assoc]
    rfl

end watchAll

/-- **New watchers serve.** The watchers that are made for displays of scalars serve them. -/
theorem serves_bound {data : Json} {page : Page υ} {marks : Delimiters} {es : List Display}
    (parses : ∀ e ∈ es, e.Parses marks) (scalars : ∀ e ∈ es, e.OnScalars marks (.ofJson data))
    (f : Forest Listener) :
    ((new (.ofJson data) page).bound (es.flatMap (Display.watches marks)) f).Serves marks es := by
  have plain : (Store.ofJson data).computed = [] := Store.computed_ofJson data
  have observes : ∀ one ∈ es.flatMap (Display.watches (υ := υ) marks), ∀ seen,
      (one.2 seen).Observes := by
    intro one hone seen
    obtain ⟨e, -, hwatch⟩ := List.mem_flatMap.1 hone
    obtain ⟨path, -, rfl⟩ := List.mem_map.1 hwatch
    exact e.observes_reaction marks seen
  have reads : ∀ one ∈ es.flatMap (Display.watches (υ := υ) marks), ∃ seen,
      ((Store.ofJson data).read one.1).result = .ok seen := by
    intro one hone
    obtain ⟨e, he, hwatch⟩ := List.mem_flatMap.1 hone
    obtain ⟨path, hpath, rfl⟩ := List.mem_map.1 hwatch
    obtain ⟨value, hread⟩ := (scalars e he).read plain path hpath
    exact ⟨_, hread⟩
  have served : ((new (.ofJson data) page).watchAll (es.flatMap (Display.watches marks))).Serves
      marks es := by
    refine ⟨(attentive_new data page).watchAll observes, (inTouch_new _ page).watchAll _, ?_,
      parses, ?_⟩
    · rw [map_watch_watchAll reads, Display.map_mentions]
      rfl
    · rw [store_watchAll]
      exact scalars
  exact served.editDocument fun _ => f

end World

/-! ### Mounting -/

/-- What was planned as a display has a well-formed source. -/
theorem Display.Checked.parses {t : Template} {e : Display} {s : Store} (hstore : t.store = some s)
    (h : e.Checked t) : e.Parses t.settings.delimiters := by
  unfold Checked at h
  unfold Parses
  split
  · next part =>
    simp only [part] at h
    obtain ⟨value, hvalue⟩ := h
    obtain ⟨path, seen, hparse, -⟩ := Template.valueAt_ok hstore hvalue
    exact ⟨path, hparse⟩
  · split at h
    · contradiction
    · obtain ⟨paths, hpaths, -⟩ := Template.checkText_ok hstore h
      exact ⟨paths, hpaths⟩

namespace ViewModel

variable {vm : ViewModel υ} {tree : Tree (Mark Listener)} {data : Json} {page : Page υ}
  {ids : List WatcherId} {w w₀ : World (Page υ)}

/-- Mounting succeeds only with settings that are of use and a template that can be planned. -/
theorem planned_of_mountOn (host : vm.Hosts w tree)
    (mounted : vm.mountOn .builtin w = some (.ok ids, w₀)) :
    vm.compiler.compile tree.id w = some (.ok ids, w₀) ∧
      ∃ sites, (vm.templateOn w.store).plan injectionLimit tree.children = .ok sites := by
  cases valid : vm.settings.validate with
  | error e =>
    rw [mountOn_error valid] at mounted
    cases mounted
  | ok _ =>
    rw [mountOn_eq host.mounted valid] at mounted
    refine ⟨mounted, ?_⟩
    cases planned : (vm.templateOn w.store).plan injectionLimit tree.children with
    | error e =>
      obtain ⟨f, hcompile, -⟩ := compile_error host planned
      rw [hcompile] at mounted
      cases mounted
    | ok sites => exact ⟨sites, rfl⟩

/-- All displays that are planned were checked. -/
theorem checked_of_places {t : Template} {sites : List (Site (Mark Listener))} {es : List Display}
    (places : List.Forall₂ t.Places sites es) : ∀ e ∈ es, e.Checked t := by
  induction places with
  | nil => exact fun _ h => nomatch h
  | cons first _ ih => exact List.forall_mem_cons.2 ⟨first.2, ih⟩

/-- The nodes below an element are different ones, and were all there. -/
theorem Hosts.below (h : vm.Hosts w tree) : tree.id ∉ Tree.idsAmong tree.children ∧
    (Tree.idsAmong tree.children).Nodup ∧
    ∀ id ∈ Tree.idsAmong tree.children, id.val < w.document.next := by
  have holds := h.sound.holds_of_node? h.found
  have distinct := h.sound.nodup_of_holds holds
  cases tree with
  | node mark kind children =>
    rw [Tree.ids, List.nodup_cons] at distinct
    refine ⟨distinct.1, distinct.2, fun id hid => h.sound.lt_of_holds holds ?_⟩
    rw [Tree.ids]
    exact List.mem_cons_of_mem _ hid

/-- The nodes of the template in an element. -/
def spots (vm : ViewModel υ) (tree : Tree (Mark Listener)) (data : Json) : List Spot :=
  (vm.templateOn (.ofJson data)).spotsAll tree.children

/-- **A mounted view model is in step.** Outside the template nothing has changed. -/
theorem mounted_inStep (host : vm.Hosts (World.new (.ofJson data) page) tree)
    (mounted : vm.mountOn .builtin (World.new (.ofJson data) page) = some (.ok ids, w₀))
    (plain : ∀ spot ∈ vm.spots tree data, spot.IsPlain)
    (scalars : ∀ e ∈ Spot.displaysAll (vm.spots tree data),
      e.OnScalars vm.settings.delimiters (.ofJson data)) :
    w₀.InStep vm.settings.delimiters w₀.document (vm.spots tree data) page.document.next ∧
      ∀ id ∉ Tree.idsAmong tree.children, id.val < page.document.next →
        w₀.document.entry id = page.document.entry id := by
  obtain ⟨outside, distinct, given⟩ := host.below
  obtain ⟨hcompile, sites, planned⟩ := planned_of_mountOn host mounted
  obtain ⟨_, new, f, children, hexpands, becomes, hlook, -⟩ :=
    compile_ok host planned (Template.unmixedAll_of_plain tree.children plain)
  obtain ⟨_, _, hwatches⟩ := compile_watches host planned plain
  -- both results are about the same run
  rw [hcompile] at hexpands hwatches
  cases hwatches
  cases (congrArg (fun ended => ended.2.document) (Option.some.inj hexpands) : _ = f)
  rw [← List.flatMap_assoc]
  have checked := checked_of_places (Template.planTrees_displays tree.children planned plain)
  have proper : Spot.Proper (vm.spots tree data) page.document.next :=
    Template.proper_spotsAll distinct given plain
  obtain ⟨hentry, hholds⟩ := Forest.holds_node.1 becomes.holds
  refine ⟨⟨proper, World.serves_bound (fun e he => (checked e he).parses rfl) scalars _,
    (vm.templateOn (.ofJson data)).shownAt (.ofJson data) injectionLimit,
    ⟨becomes.sound, becomes.next_le, ?_, fun _ _ _ => rfl⟩, fun e he => ?_⟩, fun id hid lt => ?_⟩
  · exact (Template.showsAll_iff tree.children given plain).2 ⟨children, hholds, hlook⟩
  · rw [Template.shownAt_eq, Display.shownBy_shownBy, World.store_bound]
    rfl
  · by_cases root : id = tree.id
    · -- the element has the children that it had
      have found : page.document.entry tree.id = some tree.entry :=
        congrArg (Option.map Tree.entry) host.found
      rw [root, found]
      refine hentry.trans (congrArg some ?_)
      rw [Template.map_id_of_mapAll given hlook]
      rfl
    · refine becomes.frame id (fun hmem => ?_) lt
      rw [Tree.idsAmong_singleton] at hmem
      cases tree with
      | node mark kind below =>
        rw [Tree.ids, List.mem_cons] at hmem
        exact hmem.elim root hid

/-- **The page that shows a store.** If all displays on a page show what they would show of a store,
the element has the expansion of the template with the data of that store as its content. -/
theorem expansion_of_exhibits {before : Forest Listener} {shown : Shown} {s : Store}
    (host : vm.Hosts (World.new (.ofJson data) page) tree)
    (frame : ∀ id ∉ Tree.idsAmong tree.children, id.val < page.document.next →
      before.entry id = page.document.entry id)
    (proper : Spot.Proper (vm.spots tree data) page.document.next)
    (exhibits : before.Exhibits w.document (vm.spots tree data) page.document.next shown)
    (hshown : ∀ e ∈ Spot.displaysAll (vm.spots tree data),
      e.shownBy shown = e.text vm.settings.delimiters s) :
    (∃ children, w.document.node? tree.id = some (.node tree.label tree.kind children) ∧
      Tree.mapAll (Mark.origin page.document.next) children = (vm.templateOn s).expandAll
        ((vm.templateOn s).shownAt s injectionLimit)
        (Tree.mapAll (Mark.origin page.document.next) tree.children)) ∧
      ∀ id ∉ Tree.idsAmong tree.children, id.val < page.document.next →
        w.document.entry id = page.document.entry id := by
  obtain ⟨outside, distinct, given⟩ := host.below
  have nodes : (vm.spots tree data).map Spot.node ⊆ Tree.idsAmong tree.children :=
    (Template.sublist_spotsAll _ _).subset
  have kept : ∀ id ∉ Tree.idsAmong tree.children, id.val < page.document.next →
      w.document.entry id = page.document.entry id := fun id hid lt =>
    (exhibits.frame id (fun hnode => hid (nodes hnode)) lt).trans (frame id hid lt)
  refine ⟨?_, kept⟩
  -- what the displays show is all that the page depends on, so it is the page of that store
  have now := exhibits.congr proper ((vm.templateOn s).shownAt s injectionLimit)
    fun spot hspot e he => by
      rw [Template.shownAt_eq, Display.shownBy_shownBy]
      exact hshown e (Spot.mem_displaysAll.2 ⟨spot, hspot, he⟩)
  obtain ⟨children, hholds, hlook⟩ :=
    (Template.showsAll_iff tree.children given proper.plain).1 now.shows
  have settings : (vm.templateOn (.ofJson data)).settings = (vm.templateOn s).settings := rfl
  refine ⟨children, ?_, hlook.trans (Template.expandAll_congr settings _)⟩
  have found : page.document.entry tree.id = some tree.entry :=
    congrArg (Option.map Tree.entry) host.found
  have lt : tree.id.val < page.document.next := host.sound.lt_of_entry found
  refine exhibits.sound.node?_of_holds (t := .node tree.label tree.kind children)
    (Forest.holds_node.2 ⟨?_, hholds⟩)
  rw [Template.map_id_of_mapAll given hlook]
  exact (kept tree.id outside lt).trans found

/-- **The page of a world in step.** The element has the expansion of the template with the present
data as its content. -/
theorem expansion_of_inStep {before : Forest Listener}
    (host : vm.Hosts (World.new (.ofJson data) page) tree)
    (frame : ∀ id ∉ Tree.idsAmong tree.children, id.val < page.document.next →
      before.entry id = page.document.entry id)
    (h : w.InStep vm.settings.delimiters before (vm.spots tree data) page.document.next) :
    (∃ children, w.document.node? tree.id = some (.node tree.label tree.kind children) ∧
      Tree.mapAll (Mark.origin page.document.next) children = (vm.templateOn w.store).expandAll
        ((vm.templateOn w.store).shownAt w.store injectionLimit)
        (Tree.mapAll (Mark.origin page.document.next) tree.children)) ∧
      ∀ id ∉ Tree.idsAmong tree.children, id.val < page.document.next →
        w.document.entry id = page.document.entry id := by
  obtain ⟨shown, exhibits, hshown⟩ := h.shows
  exact expansion_of_exhibits host frame h.proper exhibits hshown

end ViewModel

/-! ### What is done to a page -/

/-- What is done to a page: a scalar is assigned at an expression, or a text is entered in a form
element. -/
inductive Move where
  | assign (expr : String) (value : Scalar)
  | enter (node : NodeId) (text : String)

namespace Move

/-- Does it. -/
def act (vm : ViewModel υ) : Move → Act υ Unit
  | .assign expr value => Act.assign expr (.scalar value)
  | .enter node text => fun w =>
    vm.fire node ⟨"input", node⟩ (w.editDocument (·.mapKind node (Kind.setAttr "value" text)))

/-- There is a scalar to take the place of, or a form value that is kept up to date. -/
def Allowed (spots : List Spot) (s : Store) : Move → Prop
  | .assign expr _ => ∃ property old, s.HoldsScalar expr property old
  | .enter node _ => ∃ e ∈ Spot.displaysAll spots, e.part = .value ∧ e.node = node

end Move

/-- **One step.** It succeeds, and the page stays in step. -/
theorem World.InStep.move {w : World (Page υ)} {marks : Delimiters} {before : Forest Listener}
    {spots : List Spot} {seenFrom : Nat} (h : w.InStep marks before spots seenFrom)
    (vm : ViewModel υ)
    (quiet : ∀ spot ∈ spots, ∀ listener ∈ spot.entry.listeners, listener.1 ≠ "input") {move : Move}
    (allowed : move.Allowed spots w.store) :
    ∃ w', move.act vm w = some (.ok (), w') ∧ w'.InStep marks before spots seenFrom := by
  cases move with
  | assign expr value =>
    obtain ⟨property, old, held⟩ := allowed
    obtain ⟨w', hset, stays⟩ := h.set held value
    exact ⟨w', Act.assign_ok hset, stays⟩
  | enter node text =>
    obtain ⟨e, he, part, rfl⟩ := allowed
    exact h.enter vm quiet he part text

namespace ViewModel

variable {vm : ViewModel υ} {tree : Tree (Mark Listener)} {data : Json} {page : Page υ}
  {ids : List WatcherId} {w w₀ : World (Page υ)}

/-- The worlds that moves lead to, whether these succeed or not. -/
inductive Played (vm : ViewModel υ) (spots : List Spot) (start : World (Page υ)) :
    World (Page υ) → Prop
  | start : Played vm spots start start
  | move {w w' : World (Page υ)} {move : Move} {result : Except TemplateError Unit} :
      Played vm spots start w → move.Allowed spots w.store → move.act vm w = some (result, w') →
      Played vm spots start w'

/-- **Steps make runs.** -/
theorem Played.inStep {marks : Delimiters} {before : Forest Listener} {spots : List Spot}
    {seenFrom : Nat} (played : vm.Played spots w₀ w) (h : w₀.InStep marks before spots seenFrom)
    (quiet : ∀ spot ∈ spots, ∀ listener ∈ spot.entry.listeners, listener.1 ≠ "input") :
    w.InStep marks before spots seenFrom := by
  induction played with
  | start => exact h
  | move _ allowed acts ih =>
    obtain ⟨w', hok, stays⟩ := ih.move vm quiet allowed
    rw [acts] at hok
    cases hok
    exact stays

/-- **The page stays in step with the data.** A view model is mounted on a template with texts,
text directives and directives for form values only, at most one of each kind on an element, which
show scalars; nothing else in it waits for input.  Whatever is done to the page, all that is
displayed can be told from the present data, and the element has the expansion of the template with
these as its content, while everything outside the template is as it was.  And whatever is done
next, an assignment of a scalar to a property that holds one or a text that is entered in a form
element, succeeds. -/
theorem inStep_of_played (host : vm.Hosts (World.new (.ofJson data) page) tree)
    (mounted : vm.mountOn .builtin (World.new (.ofJson data) page) = some (.ok ids, w₀))
    (plain : ∀ spot ∈ vm.spots tree data, spot.IsPlain)
    (quiet : ∀ spot ∈ vm.spots tree data, ∀ listener ∈ spot.entry.listeners, listener.1 ≠ "input")
    (scalars : ∀ e ∈ Spot.displaysAll (vm.spots tree data),
      e.OnScalars vm.settings.delimiters (.ofJson data))
    (played : vm.Played (vm.spots tree data) w₀ w) :
    (∃ children, w.document.node? tree.id = some (.node tree.label tree.kind children) ∧
      Tree.mapAll (Mark.origin page.document.next) children = (vm.templateOn w.store).expandAll
        ((vm.templateOn w.store).shownAt w.store injectionLimit)
        (Tree.mapAll (Mark.origin page.document.next) tree.children)) ∧
      (∀ e ∈ Spot.displaysAll (vm.spots tree data), e.result vm.settings.delimiters w.store =
        .ok (e.text vm.settings.delimiters w.store)) ∧
      (∀ id ∉ Tree.idsAmong tree.children, id.val < page.document.next →
        w.document.entry id = page.document.entry id) ∧
      ∀ move : Move, move.Allowed (vm.spots tree data) w.store →
        ∃ w', move.act vm w = some (.ok (), w') := by
  obtain ⟨start, frame⟩ := mounted_inStep host mounted plain scalars
  have now := played.inStep start quiet
  obtain ⟨content, kept⟩ := expansion_of_inStep host frame now
  refine ⟨content, fun e he => now.serves.result he, kept, fun move allowed => ?_⟩
  obtain ⟨w', hact, -⟩ := now.move vm quiet allowed
  exact ⟨w', hact⟩

/-- A text with a number and the length of an array, the number again, and a form element for it. -/
def form : Tree (Mark Listener) :=
  .node ⟨⟨0⟩, []⟩ (.element "form" [])
    [.node ⟨⟨1⟩, []⟩ (.text "\x7b\x7bn\x7d\x7d of \x7b\x7bitems.length\x7d\x7d") [],
      .node ⟨⟨2⟩, []⟩ (.element "b" [("v-text", "\x7b\x7bn\x7d\x7d")])
        [.node ⟨⟨3⟩, []⟩ (.text "old") []],
      .node ⟨⟨4⟩, []⟩ (.element "input" [("v-model", "n")]) []]

/-- Data for it. -/
def formData : Json :=
  .object [("n", .integer 1), ("items", .array [.string "a", .string "b"])]

/-- What is entered in the form element is shown everywhere. -/
theorem inStep_form : ∃ ids w₀ w children,
    onPage.mountOn .builtin (pageOf form 5 formData) = some (.ok ids, w₀) ∧
      (Move.enter ⟨4⟩ "2").act onPage w₀ = some (.ok (), w) ∧
      w.document.node? ⟨0⟩ = some (.node ⟨⟨0⟩, []⟩ (.element "form" []) children) ∧
      w.innerHtml ⟨0⟩ =
        "2 of 2<b v-text=\"\x7b\x7bn\x7d\x7d\">2</b><input v-model=\"n\" value=\"2\">" := by
  have outcome : (onPage.mountOn .builtin (pageOf form 5 formData)).bind (fun mounted =>
      ((Move.enter ⟨4⟩ "2").act onPage mounted.2).map fun acted =>
        (mounted.1, acted.1, acted.2.innerHtml ⟨0⟩)) =
      some (.ok [⟨0⟩, ⟨1⟩, ⟨2⟩, ⟨3⟩], .ok (),
        "2 of 2<b v-text=\"\x7b\x7bn\x7d\x7d\">2</b><input v-model=\"n\" value=\"2\">") := by
    decide +kernel
  obtain ⟨⟨mounted, w₀⟩, hmounted, hacted⟩ := Option.bind_eq_some_iff.1 outcome
  obtain ⟨⟨acted, w⟩, hact, hshown⟩ := Option.map_eq_some_iff.1 hacted
  obtain ⟨rfl, rest⟩ := Prod.mk.inj hshown
  obtain ⟨rfl, hhtml⟩ := Prod.mk.inj rest
  have host : onPage.Hosts (pageOf form 5 formData) form :=
    hosts_new rfl formData (by decide) (by decide) (by decide)
  have allowed : (Move.enter ⟨4⟩ "2").Allowed (onPage.spots form formData) w₀.store :=
    ⟨⟨⟨4⟩, .value, "n"⟩, by decide +kernel, rfl, rfl⟩
  obtain ⟨⟨children, hnode, -⟩, -⟩ := inStep_of_played host hmounted (by decide +kernel)
    (by decide +kernel) (by decide +kernel) (Played.start.move allowed hact)
  exact ⟨_, w₀, w, children, hmounted, hact, hnode, hhtml⟩

end ViewModel

end Bindery
