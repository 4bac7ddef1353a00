import Bindery.Proofs.Document.Listening
import Bindery.Proofs.Reactive.Rounds
import Bindery.Proofs.ViewModel.Ending
import Bindery.Proofs.ViewModel.Rearranging
import Bindery.Proofs.ViewModel.Repainting

namespace Bindery

/-!
# Watchers of bindings

As long as nobody but the bindings watches the store, it can be told of every watcher what it does
to the document: it replaces the content of a node, the data of a text, or the form value of a node
on which there is a listener for the same expression.

* `Tends` — a reaction of a binding, to what a path leads to.
* `Forest.Touches`, `Tends.logs` — what such a reaction does to the nodes that are there.
* `World.Tended` — all watchers are those of bindings; `World.upheld_tended` — reactions keep it so.
* `Compiler.upholds_tended` — and so does compilation.
-/

variable {υ σ α : Type}

/-! ### What is not recorded -/

namespace World

variable {w : World σ} {id : WatcherId}

/-- What does not change of one watcher is the same for all. -/
theorem map_modifyWatcher {f : Watcher σ → Watcher σ} {g : Watcher σ → α}
    (same : ∀ watcher, g (f watcher) = g watcher) :
    (w.modifyWatcher id f).watchers.map g = w.watchers.map g := by
  refine List.ext_getElem? fun i => ?_
  rw [List.getElem?_map, List.getElem?_map, modifyWatcher, List.getElem?_modify]
  cases w.watchers[i]? with
  | none => rfl
  | some watcher => by_cases here : id.val = i <;> simp [here, same]

/-- Dropping watchers changes neither paths nor reactions. -/
theorem map_watch_dropAll (ids : List WatcherId) :
    (w.dropAll ids).watchers.map Watcher.watch = w.watchers.map Watcher.watch := by
  induction ids generalizing w with
  | nil => rfl
  | cons id rest ih => exact ih.trans (map_modifyWatcher fun _ => rfl)

/-- A watcher that was made comes after all others. -/
theorem map_watch_watch {path : Path} {reaction : Snapshot → Program σ} {made : WatcherId}
    {w' : World σ} (h : w.watch path reaction = (.ok made, w')) :
    w'.watchers.map Watcher.watch = w.watchers.map Watcher.watch ++ [(path, reaction)] := by
  rw [watch] at h
  split at h
  · cases h
  · cases h
    exact List.map_append

end World

/-! ### Reactions -/

/-- A reaction that a binding has left in a document, to what a path leads to.  What writes a form
value writes what is at the expression that a listener of the node assigns. -/
inductive Tends (f : Forest Listener) (path : Path) : (Snapshot → Program (Page υ)) → Prop
  | markup {node : NodeId} : f.Has node → Tends f path (showMarkup node)
  | display {e : Display} {entry : Entry Listener} (marks : Delimiters) :
      f.entry e.node = some entry →
      (e.part = .value → Path.parse? e.source = some path ∧
        ("input", .writeBack e.source) ∈ entry.listeners) →
      Tends f path (e.reaction marks)

/-- What a reaction to what a path leads to, shown as a text, makes of a node with some
listeners. -/
inductive Kind.Touched (path : Path) (text : String) (listeners : List (String × Listener))
    (kind : Kind) : Kind → Prop
  | none : Touched path text listeners kind kind
  | data (written : String) : Touched path text listeners kind (kind.setData written)
  | value {expr : String} : Path.parse? expr = some path →
      ("input", .writeBack expr) ∈ listeners →
      Touched path text listeners kind (kind.setAttr "value" text)

namespace Forest

variable {f f' : Forest Listener} {path : Path} {text : String} {node : NodeId}

/-- Every node has the listeners that it had, and is what such a reaction makes of it. -/
def Touches (f f' : Forest Listener) (path : Path) (text : String) : Prop :=
  ∀ ⦃id : NodeId⦄ ⦃e : Entry Listener⦄, f.entry id = some e → ∃ kind children,
    f'.entry id = some ⟨e.listeners, kind, children⟩ ∧ e.kind.Touched path text e.listeners kind

theorem touches_refl (f : Forest Listener) : f.Touches f path text :=
  fun _ e found => ⟨e.kind, e.children, found, .none⟩

/-- A change that keeps kinds and listeners touches nothing. -/
theorem Redraws.touches (h : f.Redraws f' fun _ kind => kind) : f.Touches f' path text := by
  intro id e found
  obtain ⟨children, found'⟩ := h found
  exact ⟨e.kind, children, found', .none⟩

/-- Changing the kind of one node touches that node only. -/
theorem IsSound.touches_mapKind (h : f.IsSound) (has : f.Has node) {change : Kind → Kind}
    (touched : ∀ e, f.entry node = some e →
      e.kind.Touched path text e.listeners (change e.kind)) :
    f.Touches (f.mapKind node change) path text := by
  intro id e found
  obtain ⟨children, found'⟩ := h.redraws_mapKind has change found
  by_cases here : id = node
  · subst here
    exact ⟨_, children, by simpa using found', touched e found⟩
  · exact ⟨e.kind, children, by simpa [here] using found', .none⟩

end Forest

namespace Display

variable {e : Display} {f : Forest Listener} {marks : Delimiters} {s : Store} {seen : Snapshot}
  {host last : Page υ} {result : Except Fault Unit}

/-- Writing a display is done to its node. -/
theorem leads_write (proper : f.IsProper) (has : f.Has e.node) (text : String) :
    f.Leads (e.write text f) := by
  obtain ⟨node, part, source⟩ := e
  have single : ∀ id ∈ [node], f.Has id := List.forall_mem_singleton.2 has
  cases part with
  | data => exact Forest.leads_apply (.mapKind node (.setData text)) single
  | child => exact proper.leads_setText has text
  | value => exact Forest.leads_apply (.mapKind node (.setAttr "value" text)) single

/-- A reaction fails or writes its display: a form value as what was read, shown as a text. -/
theorem logs_cases (h : (e.reaction marks seen).Logs s host result last) :
    last = host ∨ ∃ text, last = host.edit (e.write text) ∧
      (e.part = .value → text = s.render seen) := by
  have shows {write : String → Forest Listener → Forest Listener}
      (h : (showText marks e.source write seen).Logs s host result last) :
      last = host ∨ ∃ text, last = host.edit (write text) := by
    cases h with
    | look h =>
      cases hrender : marks.render e.source s with
      | error fault =>
        simp only [hrender] at h
        cases h
        exact .inl rfl
      | ok text =>
        simp only [hrender] at h
        cases h with
        | edit h =>
          cases h
          exact .inr ⟨text, rfl⟩
  obtain ⟨node, part, source⟩ := e
  cases part with
  | value =>
    cases h with
    | look h =>
      cases h with
      | edit h =>
        cases h
        exact .inr ⟨s.render seen, rfl, fun _ => rfl⟩
  | data => exact (shows h).imp_right fun ⟨text, same⟩ => ⟨text, same, nofun⟩
  | child => exact (shows h).imp_right fun ⟨text, same⟩ => ⟨text, same, nofun⟩

end Display

/-- Markup that cannot be read is not shown. -/
theorem logs_showMarkup {node : NodeId} {s : Store} {seen : Snapshot} {host last : Page υ}
    {result : Except Fault Unit} (h : (showMarkup node seen).Logs s host result last) :
    last = host ∨ ∃ trees, readMarkup (s.render seen) = .ok trees ∧
      last.document = host.document.setTrees node trees := by
  cases h with
  | look h =>
    simp only [Forest.setInner] at h
    cases hmarkup : readMarkup (s.render seen) with
    | error e =>
      rw [hmarkup] at h
      cases h
      exact .inl rfl
    | ok trees =>
      rw [hmarkup] at h
      cases h with
      | edit h =>
        cases h
        exact .inr ⟨trees, rfl, rfl⟩

namespace Tends

variable {f f' : Forest Listener} {path : Path} {reaction : Snapshot → Program (Page υ)}

/-- Listeners stay, so a reaction goes on doing what it does. -/
theorem mono (h : Tends f path reaction) (bears : f.Bears f') : Tends f' path reaction := by
  cases h with
  | markup has => exact .markup (bears.has has)
  | display marks found waits =>
    obtain ⟨entry', found', more⟩ := bears found
    exact .display marks found' fun part => ⟨(waits part).1, more.subset (waits part).2⟩

/-- Such reactions only observe. -/
theorem observes (h : Tends f path reaction) (seen : Snapshot) : (reaction seen).Observes := by
  cases h with
  | @markup node has =>
    refine .look fun store page => ?_
    cases page.document.setInner node (store.render seen) with
    | error e => exact .finish
    | ok document => exact .edit .finish
  | display marks _ _ => exact Display.observes_reaction _ marks seen

/-- **What a reaction does** to a document, and to each node in it. -/
theorem logs {s : Store} {seen : Snapshot} {host last : Page υ} {result : Except Fault Unit}
    (h : Tends host.document path reaction) (proper : host.document.IsProper)
    (logs : (reaction seen).Logs s host result last) :
    host.document.Leads last.document ∧
      host.document.Touches last.document path (s.render seen) := by
  have nothing : host.document.Leads host.document ∧
      host.document.Touches host.document path (s.render seen) := ⟨.refl, Forest.touches_refl _⟩
  cases h with
  | @markup node has =>
    obtain rfl | ⟨trees, hmarkup, written⟩ := logs_showMarkup logs
    · exact nothing
    · have leads := Forest.leads_apply (.setInner node (s.render seen))
        (List.forall_mem_singleton.2 has)
      rw [NodeOp.apply, Forest.setInner, hmarkup] at leads
      rw [written]
      exact ⟨leads, (proper.redraws_setTrees has trees).touches⟩
  | @display e entry marks found waits =>
    -- one node changes what it is, or gets other children
    have has : host.document.Has e.node := Forest.has_iff_entry.2 ⟨entry, found⟩
    obtain rfl | ⟨text, rfl, valued⟩ := Display.logs_cases logs
    · exact nothing
    refine ⟨Display.leads_write proper has text, ?_⟩
    obtain ⟨node, part, source⟩ := e
    cases part with
    | child => exact (proper.redraws_setTrees has _).touches
    | data => exact proper.touches_mapKind has fun _ _ => .data text
    | value =>
      obtain ⟨hparse, listens⟩ := waits rfl
      obtain rfl := valued rfl
      refine proper.touches_mapKind has fun e' found' => ?_
      cases found.symm.trans found'
      exact .value hparse listens

end Tends

/-! ### Worlds with such watchers only -/

namespace World

/-- All watchers are those of bindings. -/
structure Tended (w : World (Page υ)) : Prop where
  reachable : w.store.Reachable
  proper : w.document.IsProper
  tends : ∀ one ∈ w.watchers.map Watcher.watch, Tends w.document one.1 one.2

variable {w w' : World (Page υ)}

/-- A new world has no watchers, so it is tended. -/
theorem tended_new {store : Store} {page : Page υ} (reachable : store.Reachable)
    (proper : page.document.IsProper) : (new store page).Tended where
  reachable := reachable
  proper := proper
  tends _ h := nomatch h

/-- It depends on nothing but the store, the listeners, and what is watched. -/
theorem Tended.of_leads (h : w.Tended) (reachable : w'.store.Reachable)
    (leads : w.document.Leads w'.document)
    (watches : w'.watchers.map Watcher.watch = w.watchers.map Watcher.watch) : w'.Tended where
  reachable := reachable
  proper := (leads.keeps h.proper).1
  tends := by
    rw [watches]
    exact fun one hone => (h.tends one hone).mono (leads.bears h.proper)

/-- Dropping watchers leaves those of bindings. -/
theorem Tended.dropAll (h : w.Tended) (ids : List WatcherId) : (w.dropAll ids).Tended := by
  refine h.of_leads ?_ ?_ (map_watch_dropAll ids)
  · rw [store_dropAll]
    exact h.reachable
  · rw [document_dropAll]
    exact .refl

/-- What may be done to nodes leaves reactions what they were to their nodes. -/
theorem Tended.edit (h : w.Tended) {g : Forest Listener → Forest Listener}
    (leads : w.document.Leads (g w.document)) : (w.editDocument g).Tended :=
  h.of_leads h.reachable leads rfl

/-- Every watcher is that of a binding. -/
theorem Tended.tends_of_watcher? (h : w.Tended) {id : WatcherId} {watcher : Watcher (Page υ)}
    (found : w.watcher? id = some watcher) : Tends w.document watcher.path watcher.reaction :=
  h.tends watcher.watch (List.mem_map_of_mem (List.mem_of_getElem? found))

/-- **Reactions keep it so.** -/
theorem upheld_tended : Upheld (Tended (υ := υ)) where
  observes h found := (h.tends_of_watcher? found).observes
  observe h := h.of_leads h.reachable .refl (map_modifyWatcher fun _ => rfl)
  react h found _ logs :=
    h.of_leads h.reachable ((h.tends_of_watcher? found).logs h.proper logs).1 rfl

end World

/-! ### Bindings -/

section bindings

variable {vm : ViewModel υ} {nodes : List NodeId} {node : NodeId} {d : Directive}

theorem Mount.upholds_store (m : Mount) : (m.store : Act υ Store).Upholds World.Tended nodes := by
  intro w w' result ended _ _ hw
  rw [Mount.world_of_store ended]
  exact ⟨hw, .refl⟩

/-- A watcher of an expression, if what is done with its first value leaves a reaction of a binding
behind. -/
theorem upholds_watchExpression {expr : String} {reaction : Snapshot → Program (Page υ)}
    {next : Snapshot → Act υ Unit}
    (leaves : ∀ {path seen} ⦃w w' : World (Page υ)⦄ ⦃result⦄, Path.parse? expr = some path →
      next seen w = some (result, w') → w.document.IsProper → (∀ id ∈ nodes, w.document.Has id) →
      w'.store = w.store ∧ w'.watchers = w.watchers ∧ w.document.Leads w'.document ∧
        Tends w'.document path reaction) :
    (watchExpression expr reaction next).Upholds World.Tended nodes := by
  intro w w' result ended proper has hw
  obtain ⟨e, -, rfl⟩ | ⟨path, id, between, seen, hparse, hwatch, hnext⟩ :=
    watchExpression_cases ended
  · exact ⟨hw, .refl⟩
  -- the watcher is there before its node is ready, so it counts only after the first value is shown
  have same := World.document_watch hwatch
  have store : between.store = w.store := by
    rw [← World.store_watch w path reaction, hwatch]
  -- what is left when the first value is shown
  have left {result : Except TemplateError Unit} {last : World (Page υ)}
      (hlast : next seen between = some (result, last)) :
      last.Tended ∧ w.document.Leads last.document := by
    obtain ⟨hstore, hwatchers, leads, tends⟩ :=
      leaves hparse hlast (same ▸ proper) (same ▸ has)
    rw [same] at leads
    refine ⟨⟨hstore ▸ store ▸ hw.reachable, (leads.keeps proper).1, ?_⟩, leads⟩
    rw [hwatchers, World.map_watch_watch hwatch]
    refine List.forall_mem_append.2 ⟨fun one hone => ?_, List.forall_mem_singleton.2 tends⟩
    exact (hw.tends one hone).mono (leads.bears proper)
  obtain ⟨e, last, hlast, -, rfl⟩ | ⟨hlast, -⟩ := hnext
  · obtain ⟨tended, leads⟩ := left hlast
    exact ⟨tended.dropAll [id], leads⟩
  · exact left hlast

/-- Watchers of paths are those of bindings, if their reaction is. -/
theorem upholds_watchPaths {reaction : Snapshot → Program (Page υ)} (paths : List Path)
    (tends : ∀ {f : Forest Listener} (path : Path), (∀ id ∈ nodes, f.Has id) →
      Tends f path reaction) : (watchPaths reaction paths).Upholds World.Tended nodes := by
  induction paths with
  | nil => exact Act.upholds_pure []
  | cons path rest ih =>
    have first : (watchExpression path.text reaction fun _ => pure ()).Upholds World.Tended nodes :=
      upholds_watchExpression fun {path seen} w w' result _ ended _ has => by
        cases ended
        exact ⟨rfl, rfl, .refl, tends path has⟩
    exact first.both (fun _ ids h => h.dropAll ids) ih

/-- A text with markers. -/
theorem upholds_bindTemplate (vm : ViewModel υ) (marks : Delimiters) {e : Display}
    (part : e.part ≠ .value) :
    (bindTemplate vm marks e.source fun text => e.write text).Upholds World.Tended [e.node] := by
  have reaction : (showText marks e.source fun text => e.write text) =
      (e.reaction marks : Snapshot → Program (Page υ)) := by
    rw [Display.reaction]
    split
    · next value => exact absurd value part
    · rfl
  refine vm.mount.upholds_store.then fun _ => (Act.upholds_ofExcept _).then fun paths => ?_
  refine Act.Upholds.both (fun _ ids h => h.dropAll ids)
    (upholds_watchPaths paths fun path has => ?_)
    (Act.Upholds.unwatched fun w w' result ended proper has hw => ?_)
  · obtain ⟨entry, found⟩ := Forest.has_iff_entry.1 (has _ List.mem_cons_self)
    rw [reaction]
    exact .display marks found fun value => absurd value part
  · split at ended
    · cases ended
      exact ⟨hw, .refl⟩
    · next text _ =>
      cases ended
      have leads := Display.leads_write proper (has _ List.mem_cons_self) text
      exact ⟨hw.edit leads, leads⟩

/-- An interpolation makes watchers as bindings do. -/
theorem upholds_bindInterpolation (vm : ViewModel υ) (marks : Delimiters) (node : NodeId)
    (template : String) :
    (bindInterpolation vm marks node template).Upholds World.Tended [node] :=
  upholds_bindTemplate (e := ⟨node, .data, template⟩) vm marks nofun

theorem upholds_bindText (vm : ViewModel υ) (node : NodeId) (d : Directive) :
    (bindText vm node d).Upholds World.Tended [node] :=
  upholds_bindTemplate (e := ⟨node, .child, d.expression⟩) vm vm.settings.delimiters nofun

theorem upholds_bindHtml (vm : ViewModel υ) (node : NodeId) (d : Directive) :
    (bindHtml vm node d).Upholds World.Tended [node] := by
  refine vm.mount.upholds_store.then fun _ =>
    upholds_watchExpression fun {path seen} w w' result _ ended proper has => ?_
  have hasNode := has node List.mem_cons_self
  have leads := Forest.leads_apply (.setInner node (w.store.render seen)) has
  rw [NodeOp.apply] at leads
  split at ended
  · cases ended
    exact ⟨rfl, rfl, .refl, .markup hasNode⟩
  · next document hset =>
    cases ended
    rw [hset] at leads
    exact ⟨rfl, rfl, leads, .markup ((leads.keeps proper).2 node hasNode)⟩

/-- A form value is listened to before it is shown. -/
theorem upholds_bindModel (vm : ViewModel υ) (node : NodeId) (d : Directive) :
    (bindModel vm node d).Upholds World.Tended [node] := by
  refine vm.mount.upholds_store.then fun _ =>
    upholds_watchExpression fun {path seen} w w' result hparse ended proper has => ?_
  cases ended
  obtain ⟨e, found⟩ := Forest.has_iff_entry.1 (has node List.mem_cons_self)
  have heard := (proper.rewrites_listen found "input" (.writeBack d.expression)).entry _
    List.mem_cons_self
  have listens := Forest.leads_apply (.listen node "input" (.writeBack d.expression)) has
  obtain ⟨proper', kept⟩ := listens.keeps proper
  have shown := Forest.leads_apply (.mapKind node (.setAttr "value" (w.store.render seen)))
    fun id hid => kept id (has id hid)
  obtain ⟨e', found', more⟩ := shown.bears proper' heard
  refine ⟨rfl, rfl, listens.trans shown,
    .display (e := ⟨node, .value, d.expression⟩) vm.settings.delimiters found' fun _ => ?_⟩
  exact ⟨hparse, more.subset (List.mem_append_right _ List.mem_cons_self)⟩

theorem upholds_bindOn (node : NodeId) (d : Directive) :
    (bindOn node d : Act υ (List WatcherId)).Upholds World.Tended [node] := by
  refine Act.Upholds.unwatched ?_
  split
  · exact Act.upholds_ofExcept (.error _)
  · next event _ =>
    intro w w' result ended proper has hw
    cases ended
    have listens := Forest.leads_apply (.listen node event (.invoke (trimBlanks d.expression))) has
    exact ⟨hw.edit listens, listens⟩

/-- **The bindings of this library make no other watchers.** -/
theorem Handlers.upholds_builtin (vm : ViewModel υ) (kind : DirectiveKind) (node : NodeId)
    (d : Directive) : (Handlers.builtin kind vm node d).Upholds World.Tended [node] := by
  cases kind with
  | html => exact upholds_bindHtml vm node d
  | model => exact upholds_bindModel vm node d
  | on => exact upholds_bindOn node d
  | text => exact upholds_bindText vm node d

/-- **Compilation** leaves watchers of bindings only. -/
theorem Compiler.upholds_tended (vm : ViewModel υ) (settings : Settings) (root : NodeId) :
    (Compiler.compile ⟨vm, settings, .builtin⟩ root).Upholds World.Tended [root] := by
  refine Compiler.upholds_compile (fun kind node d => ?_) (fun node template => ?_)
    (fun _ ids h => h.dropAll ids) (fun _ _ h _ leads => h.edit leads) root
  · exact Handlers.upholds_builtin vm kind node d
  · exact upholds_bindInterpolation vm settings.delimiters node template

end bindings

end Bindery
