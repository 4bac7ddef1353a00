import Bindery.Proofs.Document.Entries
import Bindery.Proofs.Reactive.Watchers
import Bindery.Proofs.ViewModel.Expansion
import Bindery.ViewModel.Compile

namespace Bindery

/-!
# What bindings do

Bindings of checked places succeed: each makes its watchers, one after another, and changes the
document.

* `World.watchAll`, `World.bound` — a world with more watchers and another document.
* `Act.Binds` — an operation that succeeds with these.
* `binds_html`, `binds_model`, `binds_text`, `binds_on`, `binds_interpolation` — the bindings.
* `Directive.apply` — what a directive does to the document; `Directive.binds` — its binding does
  it; `Directive.becomes` — and so the element looks as `Shown.dress` says.
-/

variable {υ σ : Type}

namespace Step

variable {ε α β : Type} {first : Step σ ε α} {next : α → Step σ ε β} {w w' : World σ}

/-- After a step that succeeds comes the next one. -/
theorem bind_ok {value : α} (h : first w = some (.ok value, w')) :
    (first >>= next) w = next value w' := by
  show first.bind next w = _
  rw [bind, h]

/-- After a step that fails comes nothing. -/
theorem bind_error {e : ε} (h : first w = some (.error e, w')) :
    (first >>= next) w = some (.error e, w') := by
  show first.bind next w = _
  rw [bind, h]

/-- Two operations end with the error of the first, or as the second does. -/
theorem bind_cases {result : Except ε β} (h : (first >>= next) w = some (result, w')) :
    (∃ e, first w = some (.error e, w') ∧ result = .error e) ∨
      ∃ value between, first w = some (.ok value, between) ∧
        next value between = some (result, w') := by
  change first.bind next w = _ at h
  rw [bind] at h
  split at h
  · cases h
  · next e _ hfirst =>
    cases h
    exact .inl ⟨e, hfirst, rfl⟩
  · next value between hfirst => exact .inr ⟨value, between, hfirst, h⟩

/-- What comes after an operation matters only where the operation leads. -/
theorem bind_congr {next' : α → Step σ ε β}
    (h : ∀ value between, first w = some (.ok value, between) →
      next value between = next' value between) : (first >>= next) w = (first >>= next') w := by
  show first.bind next w = first.bind next' w
  rw [bind, bind]
  split
  · rfl
  · rfl
  · next value between hfirst => exact h value between hfirst

end Step

namespace World

/-- A path to watch with the reaction to its changes. -/
abbrev Watch (σ : Type) : Type := Path × (Snapshot → Program σ)

/-- Creates watchers one after another. -/
def watchAll (w : World σ) (new : List (Watch σ)) : World σ :=
  new.foldl (fun w one => (w.watch one.1 one.2).2) w

/-- Some watchers and then more are all of them together. -/
theorem watchAll_append (w : World σ) (new more : List (Watch σ)) :
    w.watchAll (new ++ more) = (w.watchAll new).watchAll more := List.foldl_append

@[simp] theorem store_watch (w : World σ) (path : Path) (reaction : Snapshot → Program σ) :
    (w.watch path reaction).2.store = w.store := by
  rw [watch]
  split <;> rfl

/-- Creating a watcher has nothing to do with the host. -/
theorem watch_editHost (w : World σ) (change : σ → σ) (path : Path)
    (reaction : Snapshot → Program σ) :
    ((w.editHost change).watch path reaction).2 = (w.watch path reaction).2.editHost change := by
  rw [watch, watch, store_editHost]
  split <;> rfl

@[simp] theorem store_watchAll (w : World σ) (new : List (Watch σ)) :
    (w.watchAll new).store = w.store := by
  induction new generalizing w with
  | nil => rfl
  | cons one rest ih => exact (ih _).trans (store_watch ..)

/-- The host does not matter for making watchers. -/
theorem watchAll_editHost (w : World σ) (change : σ → σ) (new : List (Watch σ)) :
    (w.editHost change).watchAll new = (w.watchAll new).editHost change := by
  induction new generalizing w with
  | nil => rfl
  | cons one rest ih =>
    rw [watchAll, watchAll, List.foldl_cons, List.foldl_cons, watch_editHost]
    exact ih _

/-- The world with more watchers and another document. -/
def bound (w : World (Page υ)) (new : List (Watch (Page υ))) (f : Forest Listener) :
    World (Page υ) :=
  (w.watchAll new).editDocument fun _ => f

@[simp] theorem store_bound (w : World (Page υ)) (new : List (Watch (Page υ)))
    (f : Forest Listener) : (w.bound new f).store = w.store := store_watchAll w new

@[simp] theorem document_bound (w : World (Page υ)) (new : List (Watch (Page υ)))
    (f : Forest Listener) : (w.bound new f).document = f := rfl

@[simp] theorem bound_nil_document (w : World (Page υ)) : w.bound [] w.document = w := rfl

/-- The watchers of two bindings are made one after another; the second document is left. -/
theorem bound_bound (w : World (Page υ)) (new more : List (Watch (Page υ)))
    (f f' : Forest Listener) : (w.bound new f).bound more f' = w.bound (new ++ more) f' := by
  rw [bound, bound, editDocument, editDocument, watchAll_editHost, bound, watchAll_append]
  rfl

end World

/-! ### Operations that assign, and operations that bind -/

namespace Act

/-- An assignment that succeeds. -/
theorem assign_ok {w w' : World (Page υ)} {expr : String} {value : Json}
    (h : World.set expr value w = some (.ok (), w')) :
    Act.assign expr value w = some (.ok (), w') := by
  simp only [assign, ofFault, Step.mapError, h]
  rfl

/-- An assignment at an expression sets the value there; its faults are errors. -/
theorem assign_cases {w w' : World (Page υ)} {expr : String} {value : Json}
    {result : Except TemplateError Unit} (h : Act.assign expr value w = some (result, w')) :
    ∃ ended, World.set expr value w = some (ended, w') ∧ result = ended.mapError .fault := by
  obtain ⟨⟨ended, left⟩, hset, hended⟩ := Option.map_eq_some_iff.1 h
  obtain ⟨rfl, rfl⟩ := Prod.mk.inj hended
  exact ⟨ended, hset, rfl⟩

variable {w : World (Page υ)} {f f' : Forest Listener}
  {new more : List (World.Watch (Page υ))} {first second : Act υ (List WatcherId)}

/-- The operation succeeds, makes these watchers, and leaves this document. -/
def Binds (act : Act υ (List WatcherId)) (w : World (Page υ)) (new : List (World.Watch (Page υ)))
    (f : Forest Listener) : Prop :=
  ∃ ids, act w = some (.ok ids, w.bound new f)

theorem binds_pure : (pure [] : Act υ (List WatcherId)).Binds w [] w.document := ⟨[], rfl⟩

/-- **In two parts.** -/
theorem Binds.both (h : first.Binds w new f) (h' : second.Binds (w.bound new f) more f') :
    (first.both second).Binds w (new ++ more) f' := by
  obtain ⟨ids, hfirst⟩ := h
  obtain ⟨ids', hsecond⟩ := h'
  refine ⟨ids ++ ids', ?_⟩
  simp only [Act.both, hfirst, hsecond, World.bound_bound]

/-- What comes after a result. -/
theorem Binds.after {α : Type} {step : Act υ α} {value : α} {next : α → Act υ (List WatcherId)}
    (hstep : step w = some (.ok value, w)) (h : (next value).Binds w new f) :
    (step >>= next).Binds w new f := by
  obtain ⟨ids, hids⟩ := h
  exact ⟨ids, (Step.bind_ok hstep).trans hids⟩

/-- Two parts end with the error of the first, or with that of the second, when the watchers of the
first are dropped, or else they hand out the watchers of both. -/
theorem both_cases {w' : World (Page υ)} {result : Except TemplateError (List WatcherId)}
    (h : first.both second w = some (result, w')) :
    (∃ e, first w = some (.error e, w') ∧ result = .error e) ∨
      ∃ ids between, first w = some (.ok ids, between) ∧
        ((∃ e left, second between = some (.error e, left) ∧ result = .error e ∧
            w' = left.dropAll ids) ∨
          ∃ more, second between = some (.ok more, w') ∧ result = .ok (ids ++ more)) := by
  rw [both] at h
  split at h
  · cases h
  · next e _ hfirst =>
    cases h
    exact .inl ⟨e, hfirst, rfl⟩
  · next ids between hfirst =>
    refine .inr ⟨ids, between, hfirst, ?_⟩
    split at h
    · cases h
    · next e left hsecond =>
      cases h
      exact .inl ⟨e, left, hsecond, rfl, rfl⟩
    · next more _ hsecond =>
      cases h
      exact .inr ⟨more, hsecond, rfl⟩

/-- An operation without watchers. -/
theorem binds_unwatched {act : Act υ Unit} (h : act w = some (.ok (), w.bound [] f)) :
    (Act.unwatched act).Binds w [] f := by
  exact ⟨[], Step.bind_ok h⟩

end Act

section bindings

variable {w : World (Page υ)} {f : Forest Listener} {vm : ViewModel υ} {root node : NodeId}
  {expr : String} {path : Path} {seen : Snapshot} {reaction : Snapshot → Program (Page υ)}
  {d : Directive}

/-- A mounted view model has a store, so what needs one goes on. -/
theorem binds_store (mounted : vm.mount = .element root) {new : List (World.Watch (Page υ))}
    {next : Store → Act υ (List WatcherId)} (h : (next w.store).Binds w new f) :
    (vm.mount.store >>= next).Binds w new f := by
  refine Act.Binds.after ?_ h
  rw [mounted]
  rfl

/-- Asking for the store changes nothing. -/
theorem Mount.world_of_store {m : Mount} {result : Except TemplateError Store}
    {w' : World (Page υ)} (h : m.store w = some (result, w')) : w' = w := by
  rw [Mount.store] at h
  split at h
  · cases h
    rfl
  · cases h
    rfl

/-- Watching an expression fails at once, or a watcher is made, which is dropped if what follows
fails. -/
theorem watchExpression_cases {next : Snapshot → Act υ Unit} {w' : World (Page υ)}
    {result : Except TemplateError (List WatcherId)}
    (h : watchExpression expr reaction next w = some (result, w')) :
    (∃ e, result = .error e ∧ w' = w) ∨
      ∃ path id between seen, Path.parse? expr = some path ∧
        w.watch path reaction = (.ok id, between) ∧
        ((∃ e left, next seen between = some (.error e, left) ∧ result = .error e ∧
            w' = left.drop id) ∨
          (next seen between = some (.ok (), w') ∧ result = .ok [id])) := by
  unfold watchExpression at h
  split at h
  · cases h
    exact .inl ⟨_, rfl, rfl⟩
  · next path hparse =>
    cases hwatch : w.watch path reaction with
    | mk made between =>
      rw [hwatch] at h
      cases made with
      | error fault =>
        cases h
        rw [World.watch] at hwatch
        split at hwatch
        · cases hwatch
          exact .inl ⟨_, rfl, rfl⟩
        · cases hwatch
      | ok id =>
        simp only at h
        generalize ((between.watcher? id).map Watcher.baseline).getD (.value .null) = seen at h
        refine .inr ⟨path, id, between, seen, hparse, hwatch, ?_⟩
        split at h
        · cases h
        · next hnext =>
          cases h
          exact .inl ⟨_, _, hnext, rfl, rfl⟩
        · next hnext =>
          cases h
          exact .inr ⟨hnext, rfl⟩

/-- Watching an expression that is read makes a watcher and goes on with what is read. -/
theorem watchExpression_of_read (reaction : Snapshot → Program (Page υ))
    (next : Snapshot → Act υ Unit)
    (hparse : Path.parse? expr = some path) (hread : (w.store.read path).result = .ok seen) :
    watchExpression expr reaction next w =
      match next seen (w.bound [(path, reaction)] w.document) with
      | none => none
      | some (.error e, w') => some (.error e, w'.drop ⟨w.watchers.length⟩)
      | some (.ok (), w') => some (.ok [⟨w.watchers.length⟩], w') := by
  -- a path that leads somewhere makes a watcher, which has recorded what is there
  have made : w.bound [(path, reaction)] w.document = (w.watch path reaction).2 := by
    rw [World.bound, World.watchAll, List.foldl_cons, List.foldl_nil, World.watch_of_read _ hread]
    rfl
  have result : w.watch path reaction =
      (.ok ⟨w.watchers.length⟩, w.bound [(path, reaction)] w.document) := by
    rw [made, World.watch_of_read _ hread]
  have baseline : ((w.bound [(path, reaction)] w.document).watcher? ⟨w.watchers.length⟩).map
      Watcher.baseline = some seen := by
    rw [made, World.watch_of_read _ hread]
    simp [World.watcher?]
  simp only [watchExpression, hparse, result, baseline]
  rfl

/-- An expression that is watched is read, and what follows has succeeded. -/
theorem watchExpression_ok {next : Snapshot → Act υ Unit} {ids : List WatcherId}
    {w' : World (Page υ)} (h : watchExpression expr reaction next w = some (.ok ids, w')) :
    ∃ path seen, Path.parse? expr = some path ∧ (w.store.read path).result = .ok seen ∧
      next seen (w.bound [(path, reaction)] w.document) = some (.ok (), w') := by
  cases hparse : Path.parse? expr with
  | none => simp [watchExpression, hparse] at h
  | some path =>
    cases hread : (w.store.read path).result with
    | error fault => simp [watchExpression, hparse, World.watch_of_fault _ hread] at h
    | ok seen =>
      rw [watchExpression_of_read _ _ hparse hread] at h
      refine ⟨path, seen, rfl, hread, ?_⟩
      split at h
      · cases h
      · cases h
      · next hnext =>
        cases h
        exact hnext

/-- A watcher of an expression that is read. -/
theorem binds_watchExpression (reaction : Snapshot → Program (Page υ))
    (next : Snapshot → Act υ Unit)
    (hparse : Path.parse? expr = some path) (hread : (w.store.read path).result = .ok seen)
    (hnext : next seen (w.bound [(path, reaction)] w.document) =
      some (.ok (), w.bound [(path, reaction)] f)) :
    (watchExpression expr reaction next).Binds w [(path, reaction)] f :=
  ⟨[⟨w.watchers.length⟩], by rw [watchExpression_of_read _ _ hparse hread, hnext]⟩

/-- Watchers of paths that are read. -/
theorem binds_watchPaths (reaction : Snapshot → Program (Page υ)) {paths : List Path}
    (hread : ∀ path ∈ paths, ∃ seen, (w.store.read path).result = .ok seen) :
    (watchPaths reaction paths).Binds w (paths.map (·, reaction)) w.document := by
  induction paths generalizing w with
  | nil => exact Act.binds_pure
  | cons path rest ih =>
    obtain ⟨⟨seen, hfirst⟩, hrest⟩ := List.forall_mem_cons.1 hread
    have first : (watchExpression path.text reaction fun _ => pure ()).Binds w [(path, reaction)]
        w.document := binds_watchExpression _ _ (Path.parse?_text path) hfirst rfl
    exact first.both (ih (by simpa using hrest))

/-- A text with markers that is shown. -/
theorem binds_template (mounted : vm.mount = .element root) {marks : Delimiters}
    {template text : String} {paths : List Path}
    (write : String → Forest Listener → Forest Listener)
    (hpaths : marks.paths template = .ok paths)
    (hread : ∀ path ∈ paths, ∃ seen, (w.store.read path).result = .ok seen)
    (htext : marks.render template w.store = .ok text) :
    (bindTemplate vm marks template write).Binds w
      (paths.map (·, showText marks template write)) (write text w.document) := by
  have watched := binds_watchPaths (showText marks template write) hread
  refine binds_store mounted (Act.Binds.after (by rw [hpaths]; rfl) ?_)
  rw [← List.append_nil (paths.map _)]
  refine watched.both (Act.binds_unwatched ?_)
  simp only [World.store_bound, htext]
  rfl

/-- **A text directive** makes a watcher for each of its paths and shows the text. -/
theorem binds_text (mounted : vm.mount = .element root) {text : String} {paths : List Path}
    (hpaths : vm.settings.delimiters.paths d.expression = .ok paths)
    (hread : ∀ path ∈ paths, ∃ seen, (w.store.read path).result = .ok seen)
    (htext : vm.settings.delimiters.render d.expression w.store = .ok text) :
    (bindText vm node d).Binds w
      (paths.map (·, showText vm.settings.delimiters d.expression
        fun text f => f.setText node text))
      (w.document.setText node text) :=
  binds_template mounted _ hpaths hread htext

/-- **An interpolation** makes a watcher for each of its paths and shows the text. -/
theorem binds_interpolation (mounted : vm.mount = .element root) {marks : Delimiters}
    {template text : String} {paths : List Path} (hpaths : marks.paths template = .ok paths)
    (hread : ∀ path ∈ paths, ∃ seen, (w.store.read path).result = .ok seen)
    (htext : marks.render template w.store = .ok text) :
    (bindInterpolation vm marks node template).Binds w
      (paths.map (·, showText marks template fun text f => f.mapKind node (Kind.setData text)))
      (w.document.mapKind node (Kind.setData text)) :=
  binds_template mounted _ hpaths hread htext

/-- **A directive for a form value** makes one watcher, shows the value, and listens to input. -/
theorem binds_model (mounted : vm.mount = .element root)
    (hparse : Path.parse? d.expression = some path)
    (hread : (w.store.read path).result = .ok seen) :
    (bindModel vm node d).Binds w [(path, showValue node)]
      ((w.document.listen node "input" (.writeBack d.expression)).mapKind node
        (Kind.setAttr "value" (w.store.render seen))) := by
  refine binds_store mounted (binds_watchExpression _ _ hparse hread ?_)
  rw [World.store_bound]
  rfl

/-- **A directive for markup** makes one watcher and shows the markup. -/
theorem binds_html (mounted : vm.mount = .element root)
    (hparse : Path.parse? d.expression = some path)
    (hread : (w.store.read path).result = .ok seen) {trees : List (Tree Unit)}
    (hmarkup : readMarkup (w.store.render seen) = .ok trees) :
    (bindHtml vm node d).Binds w [(path, showMarkup node)] (w.document.setTrees node trees) := by
  refine binds_store mounted (binds_watchExpression _ _ hparse hread ?_)
  simp only [World.store_bound, Forest.setInner, hmarkup]
  rfl

/-- **A directive for an event** makes no watchers, and listens to the event. -/
theorem binds_on {event : String} (hevent : d.event = some event) :
    (bindOn (υ := υ) node d).Binds w []
      (w.document.listen node event (.invoke (trimBlanks d.expression))) := by
  refine Act.binds_unwatched ?_
  simp only [hevent]
  rfl

end bindings

/-! ### Directives of one element -/

namespace Template

/-- An attribute that is read as a directive for events names one. -/
theorem event_of_recognize {t : Template} {tag : String} {attr : String × String} {d : Directive}
    (h : t.recognize tag attr = .ok (some d)) (kind : d.kind = .on) : d.event ≠ none := by
  have hparse : Directive.parse tag attr.1 attr.2 t.settings.lead = .ok (some d) := by
    rw [recognize] at h
    split at h
    · split at h <;> cases h
    · exact h
  rw [Directive.parse] at hparse
  split at hparse
  · cases hparse
  · simp only at hparse
    split at hparse
    · cases hparse
    · split at hparse
      · cases hparse
      · next found _ =>
        split at hparse
        · cases hparse
        · next given =>
          cases hparse
          intro missing
          simp only at kind missing
          simp [kind, missing, DirectiveKind.needsEvent] at given

/-- A directive for an event that an element has names one. -/
theorem event_of_mem {t : Template} {tag : String} {attrs : List (String × String)}
    {d : Directive} (h : d ∈ t.directivesOf tag attrs) (kind : d.kind = .on) : d.event ≠ none := by
  obtain ⟨attr, -, hattr⟩ := List.mem_filterMap.1 h
  cases found : t.recognize tag attr with
  | error e => simp [found, Except.toOption] at hattr
  | ok option =>
    simp only [found, Except.toOption, Option.join_some] at hattr
    subst hattr
    exact event_of_recognize found kind

end Template

namespace Directive

/-- What a directive does to the document, as long as everything that it mentions is there. -/
def apply (d : Directive) (marks : Delimiters) (s : Store) (node : NodeId)
    (f : Forest Listener) : Forest Listener :=
  match d.kind with
  | .html => f.setTrees node (s.shownTrees d.expression)
  | .model => (f.listen node "input" (.writeBack d.expression)).mapKind node
      (Kind.setAttr "value" (s.shownValue d.expression))
  | .on => d.event.elim f fun event => f.listen node event (.invoke (trimBlanks d.expression))
  | .text => f.setText node (s.shownText marks d.expression)

variable {w : World (Page υ)} {vm : ViewModel υ} {root : NodeId} {d : Directive} {t : Template}

/-- **The binding of a checked directive does just that.** -/
theorem binds (hreach : w.store.Reachable) (mounted : vm.mount = .element root)
    (hsettings : t.settings = vm.settings) (hstore : t.store = some w.store)
    {inject : String → Except TemplateError Unit} (checked : t.checkDirective inject d = .ok ())
    (event : d.kind = .on → d.event ≠ none)
    (readable : d.kind = .html → ∃ trees, readMarkup (w.store.shownValue d.expression) = .ok trees)
    (node : NodeId) : ∃ new, (Handlers.builtin d.kind vm node d).Binds w new
      (d.apply vm.settings.delimiters w.store node w.document) := by
  rw [apply]
  cases hkind : d.kind with
  | html =>
    obtain ⟨value, hvalue⟩ := Template.valueAt_of_checked checked (.inl hkind)
    obtain ⟨path, seen, hparse, hread, -⟩ := Template.valueAt_ok hstore hvalue
    obtain ⟨trees, htrees⟩ := readable hkind
    -- the binding renders what it has read, and the check what the store shows
    have hmarkup : readMarkup (w.store.render seen) = .ok trees := by
      rw [← hreach.shownValue_eq hparse hread]
      exact htrees
    refine ⟨[(path, showMarkup node)], ?_⟩
    rw [Store.shownTrees, htrees]
    exact binds_html mounted hparse hread hmarkup
  | model =>
    obtain ⟨value, hvalue⟩ := Template.valueAt_of_checked checked (.inr hkind)
    obtain ⟨path, seen, hparse, hread, -⟩ := Template.valueAt_ok hstore hvalue
    refine ⟨[(path, showValue node)], ?_⟩
    rw [hreach.shownValue_eq hparse hread]
    exact binds_model mounted hparse hread
  | on =>
    obtain ⟨event, hevent⟩ := Option.ne_none_iff_exists'.1 (event hkind)
    refine ⟨[], ?_⟩
    rw [hevent]
    exact binds_on hevent
  | text =>
    obtain ⟨paths, hpaths, hread, htext⟩ :=
      Template.checkText_ok hstore (Template.checkText_of_checked checked hkind)
    rw [hsettings] at hpaths htext
    exact ⟨_, binds_text mounted hpaths hread htext⟩

end Directive

section becomes

variable {f : Forest Listener} {t : Tree (Mark Listener)} {seenFrom : Nat}

/-- A node that was there before has itself as its origin. -/
theorem origin_of_lt {mark : Mark Listener} (lt : mark.id.val < seenFrom) :
    mark.origin seenFrom = ⟨some mark.id, mark.listeners⟩ := by
  rw [Mark.origin, if_pos lt]

/-- Later nodes are fresh. -/
theorem origin_of_le {id : NodeId} (le : seenFrom ≤ id.val) :
    (⟨id, []⟩ : Mark Listener).origin seenFrom = .fresh := by
  rw [Mark.origin, if_neg (Nat.not_lt.2 le)]
  rfl

/-- New trees as the children of a node. -/
theorem becomes_setTrees (sound : f.IsSound) (seen : seenFrom ≤ f.next) {mark : Mark Listener}
    {kind : Kind} {children : List (Tree (Mark Listener))}
    (hholds : f.Holds [.node mark kind children]) (trees : List (Tree Unit)) :
    ∃ new, f.Becomes (f.setTrees mark.id trees) [.node mark kind children] [.node mark kind new] ∧
      Tree.mapAll (Mark.origin seenFrom) new = Tree.mapAll (fun _ => .fresh) trees := by
  obtain ⟨hentry, -⟩ := Forest.holds_node.1 hholds
  have hids := (Tree.idsAmong_identifyAll (ℓ := Listener) f.next trees).1
  refine ⟨_, (sound.rewrites_setTrees hentry trees).becomes_fresh fun id hid => ?_,
    Tree.mapAll_identifyAll f.next (fun id hid => origin_of_le (Nat.le_trans seen hid)) trees⟩
  rw [hids, List.mem_map] at hid
  obtain ⟨n, hn, rfl⟩ := hid
  exact (List.mem_range'_1.1 hn).1

/-- **What a directive makes of its element.** -/
theorem Directive.becomes (d : Directive) (t : Template) (s : Store) (sound : f.IsSound)
    (seen : seenFrom ≤ f.next) {tree : Tree (Mark Listener)} (hholds : f.Holds [tree]) :
    ∃ tree', f.Becomes (d.apply t.settings.delimiters s tree.id f) [tree] [tree'] ∧
      tree'.map (Mark.origin seenFrom) =
        (t.shownBy s (Template.broughtBy s)).dress d (tree.map (Mark.origin seenFrom)) ∧
      (d.kind.ownsContent = false → tree'.children = tree.children) := by
  obtain ⟨mark, kind, children⟩ := tree
  obtain ⟨hentry, -⟩ := Forest.holds_node.1 hholds
  rw [Directive.apply]
  cases hkind : d.kind with
  | html =>
    obtain ⟨new, hbecomes, hnew⟩ := becomes_setTrees sound seen hholds (s.shownTrees d.expression)
    refine ⟨_, hbecomes, ?_, fun none => absurd none (by decide)⟩
    simp [Tree.map, Shown.dress, attach, Shown.attrs, Shown.content, hkind, hnew,
      DirectiveKind.ownsContent, Template.shownBy, Template.broughtBy]
  | model =>
    -- in two steps, the listener and then the value
    have heard := (sound.rewrites_listen hentry "input" (.writeBack d.expression)).becomes sound
      hholds
    have hentry' := (Forest.holds_node.1 heard.holds).1
    have valued := (heard.sound.rewrites_mapKind hentry'
      (Kind.setAttr "value" (s.shownValue d.expression))).becomes heard.sound heard.holds
    refine ⟨_, heard.trans valued, ?_, fun _ => rfl⟩
    simp [Tree.map, Shown.dress, attach, Shown.attrs, hkind, DirectiveKind.ownsContent,
      Template.shownBy, Mark.origin, Origin.listen]
  | on =>
    cases hevent : d.event with
    | none =>
      refine ⟨_, sound.becomes_refl hholds, ?_, fun _ => rfl⟩
      simp [Tree.map, Shown.dress, attach, Shown.attrs, hkind, hevent, DirectiveKind.ownsContent]
    | some event =>
      refine ⟨_, (sound.rewrites_listen hentry event
        (.invoke (trimBlanks d.expression))).becomes sound hholds, ?_, fun _ => rfl⟩
      simp [Tree.map, Shown.dress, attach, Shown.attrs, hkind, hevent, DirectiveKind.ownsContent,
        Mark.origin, Origin.listen]
  | text =>
    obtain ⟨new, hbecomes, hnew⟩ := becomes_setTrees sound seen hholds
      [.node () (.text (s.shownText t.settings.delimiters d.expression)) []]
    refine ⟨_, hbecomes, ?_, fun none => absurd none (by decide)⟩
    simp [Tree.map, Shown.dress, attach, Shown.attrs, Shown.content, hkind, hnew,
      DirectiveKind.ownsContent, Template.shownBy, Tree.mapAll]

end becomes

end Bindery
