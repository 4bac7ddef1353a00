import Bindery.Proofs.ViewModel.Binding
import Bindery.Proofs.ViewModel.Refusal

namespace Bindery

/-!
# Binding ends

Binding looks at the data and never changes them.  Whatever there is to bind, it comes to an end,
with a result or for one of a few reasons.

* `Act.Ends` — operations that end in every world, leave the data as they are, and fail for some
  reasons only.
* `Ends.then`, `Ends.both` — operations one after another.
* `Handlers.ends_builtin`, `ends_bindInterpolation` — the bindings of directives and texts, which
  fail because of these only.
* `Compiler.ends_compile` — templates, by any handlers like that.
-/

variable {υ α β : Type}

/-- An operation that ends in every world.  The data are then what they were, and if it has failed,
the reason is one of some. -/
def Act.Ends (reason : TemplateError → Prop) (act : Act υ α) : Prop :=
  ∀ w, ∃ result w', act w = some (result, w') ∧ w'.store = w.store ∧
    ∀ e, result = .error e → reason e

@[simp] theorem World.store_dropAll (ids : List WatcherId) (w : World (Page υ)) :
    (w.dropAll ids).store = w.store := by
  induction ids generalizing w with
  | nil => rfl
  | cons id rest ih => exact (ih _).trans (store_drop id w)

namespace Act

variable {reason reason' : TemplateError → Prop}

/-- More reasons may be allowed than there are. -/
theorem Ends.mono {act : Act υ α} (h : act.Ends reason) (weaker : ∀ e, reason e → reason' e) :
    act.Ends reason' := by
  intro w
  obtain ⟨result, w', hact, store, failed⟩ := h w
  exact ⟨result, w', hact, store, fun e he => weaker e (failed e he)⟩

/-- A result is there, or an error with its reason. -/
theorem ends_ofExcept {result : Except TemplateError α} (h : ∀ e, result = .error e → reason e) :
    Ends reason (Step.ofExcept result : Act υ α) :=
  fun w => ⟨result, w, rfl, rfl, h⟩

/-- A value is there at once. -/
theorem ends_pure (value : α) : (pure value : Act υ α).Ends reason :=
  fun w => ⟨.ok value, w, rfl, rfl, fun _ h => nomatch h⟩

/-- A change of the document is over at once. -/
theorem ends_editDocument (f : Forest Listener → Forest Listener) :
    (Act.editDocument f : Act υ Unit).Ends reason :=
  fun w => ⟨.ok (), w.editDocument f, rfl, rfl, fun _ h => nomatch h⟩

/-- **One after another.** -/
theorem Ends.then {first : Act υ α} {next : α → Act υ β} (h : first.Ends reason)
    (h' : ∀ value, (next value).Ends reason) : (first >>= next).Ends reason := by
  intro w
  obtain ⟨result, between, hfirst, store, failed⟩ := h w
  cases result with
  | error e =>
    refine ⟨.error e, between, Step.bind_error hfirst, store, fun e' he => ?_⟩
    cases he
    exact failed e rfl
  | ok value =>
    obtain ⟨ended, w', hnext, store', failed'⟩ := h' value between
    exact ⟨ended, w', (Step.bind_ok hfirst).trans hnext, store'.trans store, failed'⟩

theorem Ends.unwatched {act : Act υ Unit} (h : act.Ends reason) :
    (Act.unwatched act).Ends reason :=
  h.then fun _ => ends_pure []

/-- **In two parts.** -/
theorem Ends.both {first second : Act υ (List WatcherId)} (h : first.Ends reason)
    (h' : second.Ends reason) : (first.both second).Ends reason := by
  intro w
  obtain ⟨result, between, hfirst, store, failed⟩ := h w
  rw [Act.both, hfirst]
  cases result with
  | error e =>
    refine ⟨.error e, between, rfl, store, fun e' he => ?_⟩
    cases he
    exact failed e rfl
  | ok ids =>
    obtain ⟨ended, left, hsecond, store', failed'⟩ := h' between
    simp only [hsecond]
    cases ended with
    | error e =>
      refine ⟨.error e, left.dropAll ids, rfl, ?_, fun e' he => ?_⟩
      · rw [World.store_dropAll, store', store]
      · cases he
        exact failed' e rfl
    | ok more =>
      refine ⟨.ok (ids ++ more), left, rfl, store'.trans store, fun e' he => ?_⟩
      cases he

/-- What is done in the end, whatever happens, gives no reason to fail. -/
theorem Ends.thenAlways {act : Act υ α} (h : act.Ends reason)
    (f : Forest Listener → Forest Listener) :
    Ends reason (Step.thenAlways act (World.editDocument f)) := by
  intro w
  obtain ⟨result, w', hact, store, failed⟩ := h w
  exact ⟨result, w'.editDocument f, by rw [Step.thenAlways, hact]; rfl, store, failed⟩

end Act

/-! ### Directives and texts -/

section bindings

/-- Asking for the store ends; without an element there is none. -/
theorem Mount.ends_store (m : Mount) : (m.store : Act υ Store).Ends TemplateError.IsOfSite := by
  intro w
  rw [store]
  cases m.store? w with
  | none =>
    refine ⟨_, w, rfl, rfl, fun e he => ?_⟩
    cases he
    trivial
  | some s =>
    refine ⟨_, w, rfl, rfl, fun e he => ?_⟩
    cases he

/-- A watcher of an expression. -/
theorem ends_watchExpression (expr : String) (reaction : Snapshot → Program (Page υ))
    {next : Snapshot → Act υ Unit} (h : ∀ seen, (next seen).Ends TemplateError.IsOfSite) :
    (watchExpression expr reaction next).Ends TemplateError.IsOfSite := by
  intro w
  unfold watchExpression
  cases Path.parse? expr with
  | none => exact ⟨_, w, rfl, rfl, fun e he => by cases he; trivial⟩
  | some path =>
    cases hwatch : w.watch path reaction with
    | mk made between =>
      have store : between.store = w.store := by rw [← World.store_watch w path reaction, hwatch]
      cases made with
      | error fault =>
        simp only [hwatch]
        exact ⟨_, between, rfl, store, fun e he => by cases he; trivial⟩
      | ok id =>
        simp only [hwatch]
        obtain ⟨result, w', hnext, store', failed⟩ :=
          h (((between.watcher? id).map Watcher.baseline).getD (.value .null)) between
        rw [hnext]
        cases result with
        | error e =>
          refine ⟨_, w'.drop id, rfl, store'.trans store, fun e' he => ?_⟩
          cases he
          exact failed e rfl
        | ok _ => exact ⟨_, w', rfl, store'.trans store, fun _ he => nomatch he⟩

/-- Making a watcher for each of some paths ends. -/
theorem ends_watchPaths (reaction : Snapshot → Program (Page υ)) (paths : List Path) :
    (watchPaths reaction paths).Ends TemplateError.IsOfSite := by
  induction paths with
  | nil => exact Act.ends_pure []
  | cons path rest ih =>
    exact (ends_watchExpression path.text reaction fun _ => Act.ends_pure ()).both ih

/-- A text with markers. -/
theorem ends_bindTemplate (vm : ViewModel υ) (marks : Delimiters) (template : String)
    (write : String → Forest Listener → Forest Listener) :
    (bindTemplate vm marks template write).Ends TemplateError.IsOfSite := by
  have paths : Act.Ends (υ := υ) TemplateError.IsOfSite
      (Step.ofExcept ((marks.paths template).mapError .fault)) := by
    refine Act.ends_ofExcept fun e he => ?_
    cases hpaths : marks.paths template with
    | error fault =>
      rw [hpaths] at he
      cases he
      trivial
    | ok paths => simp [hpaths, Except.mapError] at he
  refine vm.mount.ends_store.then fun _ => paths.then fun paths =>
    (ends_watchPaths _ paths).both (Act.Ends.unwatched fun w => ?_)
  cases marks.render template w.store with
  | error fault => exact ⟨_, w, rfl, rfl, fun e he => by cases he; trivial⟩
  | ok text => exact ⟨_, w.editDocument (write text), rfl, rfl, fun _ he => nomatch he⟩

/-- Showing markup ends, and fails for its place only. -/
theorem ends_bindHtml (vm : ViewModel υ) (node : NodeId) (d : Directive) :
    (bindHtml vm node d).Ends TemplateError.IsOfSite := by
  refine vm.mount.ends_store.then fun _ => ends_watchExpression _ _ fun seen w => ?_
  cases w.document.setInner node (w.store.render seen) with
  | error e => exact ⟨_, w, rfl, rfl, fun e he => by cases he; trivial⟩
  | ok document => exact ⟨_, w.editDocument fun _ => document, rfl, rfl, fun _ he => nomatch he⟩

theorem ends_bindModel (vm : ViewModel υ) (node : NodeId) (d : Directive) :
    (bindModel vm node d).Ends TemplateError.IsOfSite :=
  vm.mount.ends_store.then fun _ => ends_watchExpression _ _ fun _ w =>
    ⟨_, w.editDocument _, rfl, rfl, fun _ he => nomatch he⟩

theorem ends_bindOn (node : NodeId) (d : Directive) :
    (bindOn node d : Act υ _).Ends TemplateError.IsOfSite := by
  refine Act.Ends.unwatched ?_
  split
  · exact fun w => ⟨_, w, rfl, rfl, fun e he => by cases he; trivial⟩
  · exact Act.ends_editDocument _

/-- **Directives.** -/
theorem Handlers.ends_builtin (vm : ViewModel υ) (kind : DirectiveKind) (node : NodeId)
    (d : Directive) : (Handlers.builtin kind vm node d).Ends TemplateError.IsOfSite := by
  cases kind with
  | html => exact ends_bindHtml vm node d
  | model => exact ends_bindModel vm node d
  | on => exact ends_bindOn node d
  | text => exact ends_bindTemplate vm _ _ _

theorem ends_bindInterpolation (vm : ViewModel υ) (marks : Delimiters) (node : NodeId)
    (template : String) :
    (bindInterpolation vm marks node template).Ends TemplateError.IsOfSite :=
  ends_bindTemplate vm marks template _

end bindings

/-! ### Templates -/

namespace Compiler

variable {c : Compiler υ} {injected : NodeId → Act υ (List WatcherId)}
  {reason : TemplateError → Prop}

/-- Staging never fails. -/
theorem ends_stage (root : NodeId) : (stage root : Act υ NodeId).Ends reason :=
  fun _ => ⟨_, _, rfl, rfl, fun _ he => nomatch he⟩

/-- Planning leaves everything as it is. -/
theorem ends_planBelow (planning : ∀ (w : World (Page υ)) (depth : Nat)
      (trees : List (Tree (Mark Listener))) e,
      (c.template w).plan depth trees = .error e → reason e) (depth : Nat) (node : NodeId) :
    (c.planBelow depth node).Ends reason := by
  refine fun w => ⟨_, w, rfl, rfl, fun e he => ?_⟩
  exact planning w depth _ e (Template.map_eq_error.1 he)

section handlers

variable (handlers : ∀ kind node d, (c.handlers kind c.viewModel node d).Ends reason)
  (ofSite : ∀ e : TemplateError, e.IsOfSite → reason e)

include handlers ofSite

/-- **Binding ends**, if binding markup from data does. -/
theorem ends_bindSites (below : ∀ node, (injected node).Ends reason) (sites : List (Site NodeId)) :
    (c.bindSites injected sites).Ends reason := by
  induction sites with
  | nil => exact Act.ends_pure []
  | cons site rest ih =>
    have first : (c.bindSite injected site).Ends reason := by
      cases site with
      | directive node tag d => exact handlers d.kind node d
      | interpolation node text => exact (ends_bindInterpolation _ _ node text).mono ofSite
      | injected node => exact below node
    exact first.both ih

variable (planning : ∀ (w : World (Page υ)) (depth : Nat) (trees : List (Tree (Mark Listener))) e,
    (c.template w).plan depth trees = .error e → reason e)
  (deep : reason (.injectionTooDeep injectionLimit))

include planning deep

/-- Markup from data, level by level. -/
theorem ends_bindInjected (depth : Nat) (node : NodeId) :
    (c.bindInjected depth node).Ends reason := by
  induction depth generalizing node with
  | zero => exact fun w => ⟨_, w, rfl, rfl, fun e he => by cases he; exact deep⟩
  | succ depth ih =>
    exact (ends_planBelow planning depth node).then fun sites =>
      ends_bindSites handlers ofSite ih sites

/-- **Templates.** -/
theorem ends_compile (root : NodeId) : (c.compile root).Ends reason := by
  refine (ends_stage root).then fun staged => Act.Ends.thenAlways ?_ _
  exact (ends_planBelow planning _ _).then fun sites =>
    ends_bindSites handlers ofSite (ends_bindInjected handlers ofSite planning deep _) sites

end handlers

end Compiler

end Bindery
