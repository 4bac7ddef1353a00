import Bindery.Proofs.ViewModel.Binding

namespace Bindery

/-!
# Who keeps which watchers

Mounting hands out the watchers that it creates, all of them and no others.  So whoever drops what
was handed out drops everything that was bound.

* `World.Gains` — a world with more watchers, which are known by their identifiers.
* `Act.Quiet`, `Act.Owns` — operations that create no watchers, and operations that hand out those
  that they create.
* `owns_watchExpression`, `owns_bindTemplate`, `Handlers.owns_builtin` — the bindings.
* `Compiler.owns_compile`, `ViewModel.owns_mountOn` — templates, by any handlers like that.
-/

variable {υ σ α : Type}

namespace World

variable {w w' w'' : World σ} {ids more : List WatcherId} {id : WatcherId}

/-- The second world has the watchers of the first and after them those that the identifiers
name. -/
def Gains (w w' : World σ) (ids : List WatcherId) : Prop :=
  ∃ new, w'.watchers = w.watchers ++ new ∧
    ids = (List.range' w.watchers.length new.length).map WatcherId.mk

theorem gains_nil (same : w'.watchers = w.watchers) : w.Gains w' [] :=
  ⟨[], by rw [same, List.append_nil], rfl⟩

/-- Watchers that are gained one after another are gained together. -/
theorem Gains.trans (h : w.Gains w' ids) (h' : w'.Gains w'' more) : w.Gains w'' (ids ++ more) := by
  obtain ⟨new, hnew, rfl⟩ := h
  obtain ⟨new', hnew', rfl⟩ := h'
  refine ⟨new ++ new', by rw [hnew', hnew, List.append_assoc], ?_⟩
  rw [hnew, List.length_append, List.length_append, ← List.map_append, List.range'_append_1]

/-- **The identifiers are those of the new watchers.** -/
theorem Gains.mem_iff (h : w.Gains w' ids) :
    id ∈ ids ↔ w.watchers.length ≤ id.val ∧ id.val < w'.watchers.length := by
  obtain ⟨new, hnew, rfl⟩ := h
  obtain ⟨i⟩ := id
  simp only [List.mem_map, List.mem_range'_1, WatcherId.mk.injEq, exists_eq_right, hnew,
    List.length_append]

/-- Making a watcher gains that watcher. -/
theorem gains_watch {path : Path} {reaction : Snapshot → Program σ}
    (h : w.watch path reaction = (.ok id, w')) : w.Gains w' [id] := by
  rw [watch] at h
  split at h
  · cases h
  · cases h
    exact ⟨[_], rfl, rfl⟩

end World

/-! ### Operations -/

namespace Act

/-- An operation that leaves all watchers as they are when it succeeds. -/
def Quiet (act : Act υ α) : Prop :=
  ∀ ⦃w w' : World (Page υ)⦄ ⦃value : α⦄, act w = some (.ok value, w') → w'.watchers = w.watchers

/-- An operation that hands out the watchers that it creates when it succeeds. -/
def Owns (act : Act υ (List WatcherId)) : Prop :=
  ∀ ⦃w w' : World (Page υ)⦄ ⦃ids : List WatcherId⦄, act w = some (.ok ids, w') → w.Gains w' ids

/-- A result comes without watchers. -/
theorem quiet_ofExcept (result : Except TemplateError α) :
    Quiet (Step.ofExcept result : Act υ α) := by
  intro w w' value ended
  cases ended
  rfl

/-- Changing the document makes no watchers. -/
theorem quiet_editDocument (f : Forest Listener → Forest Listener) :
    (Act.editDocument f : Act υ Unit).Quiet := by
  intro w w' value ended
  cases ended
  rfl

theorem owns_pure : (pure [] : Act υ (List WatcherId)).Owns := by
  intro w w' ids ended
  cases ended
  exact World.gains_nil rfl

/-- What comes after an operation without watchers. -/
theorem Quiet.then {first : Act υ α} {next : α → Act υ (List WatcherId)} (h : first.Quiet)
    (h' : ∀ seen, (next seen).Owns) : (first >>= next).Owns := by
  intro w w' ids ended
  obtain ⟨e, -, failed⟩ | ⟨seen, between, hfirst, hnext⟩ := Step.bind_cases ended
  · cases failed
  · exact (World.gains_nil (h hfirst)).trans (h' seen hnext)

/-- An operation that makes no watchers hands out none. -/
theorem Quiet.unwatched {act : Act υ Unit} (h : act.Quiet) : (Act.unwatched act).Owns :=
  h.then fun _ => owns_pure

/-- **In two parts.** -/
theorem Owns.both {first second : Act υ (List WatcherId)} (h : first.Owns) (h' : second.Owns) :
    (first.both second).Owns := by
  intro w w' ids ended
  obtain ⟨e, -, failed⟩ |
      ⟨made, between, hfirst, ⟨e, left, -, failed, -⟩ | ⟨more, hsecond, both⟩⟩ :=
    Act.both_cases ended
  · cases failed
  · cases failed
  · cases both
    exact (h hfirst).trans (h' hsecond)

/-- What is done in the end to the document has nothing to do with watchers. -/
theorem Owns.thenAlways {act : Act υ (List WatcherId)} (h : act.Owns)
    (f : Forest Listener → Forest Listener) :
    Owns (Step.thenAlways act (World.editDocument f)) := by
  intro w w' ids ended
  obtain ⟨⟨result, between⟩, hact, hended⟩ := Option.map_eq_some_iff.1 ended
  obtain ⟨rfl, rfl⟩ := Prod.mk.inj hended
  have gained : w.Gains between ids := h hact
  exact gained

end Act

/-! ### Bindings -/

section bindings

variable {vm : ViewModel υ} {node : NodeId} {d : Directive}

/-- Asking for the store makes no watchers. -/
theorem Mount.quiet_store (m : Mount) : (m.store : Act υ Store).Quiet := by
  intro w w' value ended
  rw [Mount.world_of_store ended]

/-- A watcher of an expression. -/
theorem owns_watchExpression (expr : String) (reaction : Snapshot → Program (Page υ))
    {next : Snapshot → Act υ Unit} (quiet : ∀ seen, (next seen).Quiet) :
    (watchExpression expr reaction next).Owns := by
  intro w w' ids ended
  obtain ⟨e, failed, -⟩ | ⟨path, id, between, seen, -, hwatch,
    ⟨e, left, -, failed, -⟩ | ⟨hnext, made⟩⟩ := watchExpression_cases ended
  · cases failed
  · cases failed
  · -- the watcher stays if what is done with its first value succeeds
    cases made
    have shown := World.gains_nil (quiet _ hnext)
    exact (World.gains_watch hwatch).trans shown

/-- The watchers of some paths are handed out. -/
theorem owns_watchPaths (reaction : Snapshot → Program (Page υ)) (paths : List Path) :
    (watchPaths reaction paths).Owns := by
  induction paths with
  | nil => exact Act.owns_pure
  | cons path rest ih =>
    have first : (watchExpression path.text reaction fun _ => pure ()).Owns :=
      owns_watchExpression _ _ fun _ => Act.quiet_ofExcept (.ok ())
    exact first.both ih

/-- A text with markers. -/
theorem owns_bindTemplate (vm : ViewModel υ) (marks : Delimiters) (template : String)
    (write : String → Forest Listener → Forest Listener) :
    (bindTemplate vm marks template write).Owns := by
  refine vm.mount.quiet_store.then fun _ => (Act.quiet_ofExcept _).then fun paths => ?_
  refine (owns_watchPaths _ paths).both (Act.Quiet.unwatched fun w w' value ended => ?_)
  split at ended
  · cases ended
  · cases ended
    rfl

/-- The watcher of markup is handed out. -/
theorem owns_bindHtml (vm : ViewModel υ) (node : NodeId) (d : Directive) :
    (bindHtml vm node d).Owns := by
  refine vm.mount.quiet_store.then fun _ => owns_watchExpression _ _ fun seen w w' value ended => ?_
  split at ended
  · cases ended
  · cases ended
    rfl

theorem owns_bindModel (vm : ViewModel υ) (node : NodeId) (d : Directive) :
    (bindModel vm node d).Owns := by
  refine vm.mount.quiet_store.then fun _ => owns_watchExpression _ _ fun seen w w' value ended => ?_
  cases ended
  rfl

theorem owns_bindOn (node : NodeId) (d : Directive) : (bindOn node d : Act υ _).Owns := by
  refine Act.Quiet.unwatched ?_
  split
  · exact Act.quiet_ofExcept (.error _)
  · exact Act.quiet_editDocument _

/-- **The bindings hand out their watchers.** -/
theorem Handlers.owns_builtin (vm : ViewModel υ) (kind : DirectiveKind) (node : NodeId)
    (d : Directive) : (Handlers.builtin kind vm node d).Owns := by
  cases kind with
  | html => exact owns_bindHtml vm node d
  | model => exact owns_bindModel vm node d
  | on => exact owns_bindOn node d
  | text => exact owns_bindTemplate vm _ _ _

end bindings

/-! ### Templates -/

namespace Compiler

variable {c : Compiler υ} {injected : NodeId → Act υ (List WatcherId)}

/-- Planning makes no watchers. -/
theorem quiet_planBelow (c : Compiler υ) (depth : Nat) (node : NodeId) :
    (c.planBelow depth node).Quiet := by
  intro w w' value ended
  cases congrArg Prod.snd (Option.some.inj ended)
  rfl

theorem quiet_stage (root : NodeId) : (stage root : Act υ NodeId).Quiet := by
  intro w w' value ended
  cases ended
  rfl

section handlers

variable (handlers : ∀ kind node d, (c.handlers kind c.viewModel node d).Owns)

include handlers

/-- **The watchers of all places are handed out**, if those of markup from data are. -/
theorem owns_bindSites (below : ∀ node, (injected node).Owns) (sites : List (Site NodeId)) :
    (c.bindSites injected sites).Owns := by
  induction sites with
  | nil => exact Act.owns_pure
  | cons site rest ih =>
    have first : (c.bindSite injected site).Owns := by
      cases site with
      | directive node tag d => exact handlers d.kind node d
      | interpolation node text => exact owns_bindTemplate _ _ _ _
      | injected node => exact below node
    exact first.both ih

/-- Markup from data, level by level. -/
theorem owns_bindInjected (depth : Nat) (node : NodeId) : (c.bindInjected depth node).Owns := by
  induction depth generalizing node with
  | zero => exact fun w w' ids ended => by cases ended
  | succ depth ih =>
    exact (c.quiet_planBelow depth node).then fun sites => owns_bindSites handlers ih sites

/-- So are those of a template. -/
theorem owns_compile (root : NodeId) : (c.compile root).Owns := by
  refine (quiet_stage root).then fun staged => Act.Owns.thenAlways ?_ _
  exact (c.quiet_planBelow _ _).then fun sites =>
    owns_bindSites handlers (owns_bindInjected handlers _) sites

end handlers

end Compiler

/-- **Mounting hands out all watchers that it creates.** -/
theorem ViewModel.owns_mountOn (vm : ViewModel υ) {handlers : Handlers υ}
    (owns : ∀ kind node d, (handlers kind vm node d).Owns) : (vm.mountOn handlers).Owns := by
  refine (Act.quiet_ofExcept _).then fun _ => ?_
  cases vm.mount with
  | inert data => exact Act.owns_pure
  | element root => exact Compiler.owns_compile owns root

end Bindery
