import Bindery.Proofs.ViewModel.Ending

namespace Bindery

/-!
# Strict and lenient settings

Lenient settings skip unknown directives.  That is all the difference: a template that is bound by
strict settings is bound in the same way by lenient ones, and what else is wrong with a template is
wrong in both modes.

* `Settings.inMode`, `Template.inMode`, `ViewModel.inMode`, `Compiler.inMode` — the same settings,
  strict or lenient.
* `Forgives`, `Act.Forgives` — a strict result that is the lenient one, unless it is the error of
  an unknown directive; the same for operations.
* `Template.forgives_plan` — planning, whatever the depth of markup from data.
* `Compiler.forgives_compile` — templates, by handlers to which the mode makes no difference.
* `Compiler.compile_forgives` — templates, by the bindings of this library.
-/

variable {υ α β : Type}

/-! ### Modes -/

/-- The settings in a mode. -/
def Settings.inMode (strict : Bool) (s : Settings) : Settings := { s with strict }

/-- A template whose settings are in a mode. -/
def Template.inMode (strict : Bool) (t : Template) : Template :=
  { t with settings := t.settings.inMode strict }

/-- A view model whose settings are in a mode. -/
def ViewModel.inMode (strict : Bool) (vm : ViewModel υ) : ViewModel υ :=
  { vm with settings := vm.settings.inMode strict }

/-- A compiler whose settings are in a mode, and those of its view model in another. -/
def Compiler.inMode (strict own : Bool) (c : Compiler υ) : Compiler υ :=
  { c with viewModel := c.viewModel.inMode own, settings := c.settings.inMode strict }

theorem Compiler.template_inMode (strict own : Bool) (c : Compiler υ) (w : World (Page υ)) :
    (c.inMode strict own).template w = (c.template w).inMode strict := rfl

/-- **The bindings do not look at the mode.** -/
theorem Handlers.builtin_inMode (kind : DirectiveKind) (strict : Bool) (vm : ViewModel υ) :
    Handlers.builtin kind (vm.inMode strict) = Handlers.builtin kind vm := by
  cases kind <;> rfl

/-- The second result is the first, unless the first is the error of an unknown directive. -/
def Forgives (strict lenient : Except TemplateError α) : Prop :=
  strict = lenient ∨ ∃ attr tag, strict = .error (.unknownDirective attr tag)

namespace Forgives

/-- What does not depend on the mode is forgiven. -/
theorem refl (result : Except TemplateError α) : Forgives result result := .inl rfl

/-- What is made of two such results is such a pair. -/
theorem map (f : α → β) {strict lenient : Except TemplateError α} (h : Forgives strict lenient) :
    Forgives (strict.map f) (lenient.map f) := by
  obtain rfl | ⟨attr, tag, rfl⟩ := h
  · exact refl _
  · exact .inr ⟨attr, tag, rfl⟩

end Forgives

/-! ### Planning -/

namespace Template

variable {inject inject' : String → Except TemplateError Unit}

@[simp] theorem valueAt_inMode (t : Template) (strict : Bool) (expr : String) :
    (t.inMode strict).valueAt expr = t.valueAt expr := rfl

@[simp] theorem checkPaths_inMode (t : Template) (strict : Bool) (paths : List Path) :
    (t.inMode strict).checkPaths paths = t.checkPaths paths := by
  induction paths with
  | nil => rfl
  | cons path rest ih => rw [checkPaths, checkPaths, valueAt_inMode, ih]

@[simp] theorem checkText_inMode (t : Template) (strict : Bool) (text : String) :
    (t.inMode strict).checkText text = t.checkText text := by
  simp only [checkText, checkPaths_inMode]
  rfl

/-- Recognizing an attribute depends on the mode if its directive is unknown. -/
theorem forgives_recognize (t : Template) (tag : String) (attr : String × String) :
    Forgives ((t.inMode true).recognize tag attr) ((t.inMode false).recognize tag attr) := by
  rw [recognize, recognize]
  have same : (t.inMode false).settings.lead = (t.inMode true).settings.lead := rfl
  rw [same]
  split
  · next attr element _ => exact .inr ⟨attr, element, rfl⟩
  · exact .refl _

/-- Checking a directive does not depend on it. -/
theorem forgives_checkDirective (brought : ∀ expr, Forgives (inject expr) (inject' expr))
    (t : Template) (d : Directive) :
    Forgives ((t.inMode true).checkDirective inject d)
      ((t.inMode false).checkDirective inject' d) := by
  cases hkind : d.kind with
  | on =>
    simp only [checkDirective, hkind]
    exact .refl _
  | model =>
    simp only [checkDirective, hkind]
    exact .refl _
  | text =>
    simp only [checkDirective, hkind, checkText_inMode]
    exact .refl _
  | html =>
    simp only [checkDirective, hkind, valueAt_inMode]
    split
    · exact .refl _
    · exact brought d.expression

/-- The directives of an element are the same, unless one is unknown. -/
theorem forgives_directives (brought : ∀ expr, Forgives (inject expr) (inject' expr))
    (t : Template) (tag : String) (attrs : List (String × String)) :
    Forgives ((t.inMode true).directives inject tag attrs)
      ((t.inMode false).directives inject' tag attrs) := by
  induction attrs with
  | nil => exact .refl _
  | cons attr rest ih =>
    rw [directives, directives]
    -- both modes go on alike after the first attribute, or strict settings stop at it
    obtain same | ⟨attr', tag', unknown⟩ := forgives_recognize t tag attr
    · rw [same]
      split
      · exact .refl _
      · exact ih
      · next d _ =>
        obtain same | ⟨attr', tag', unknown⟩ := forgives_checkDirective brought t d
        · rw [same]
          split
          · exact .refl _
          · exact ih.map _
        · rw [unknown]
          exact .inr ⟨attr', tag', rfl⟩
    · rw [unknown]
      exact .inr ⟨attr', tag', rfl⟩

mutual

theorem forgives_planTree (brought : ∀ expr, Forgives (inject expr) (inject' expr))
    (t : Template) : ∀ tree : Tree α,
    Forgives ((t.inMode true).planTree inject tree) ((t.inMode false).planTree inject' tree)
  | .node label (.element tag attrs) children => by
    rw [planTree, planTree]
    obtain same | ⟨attr, tag', unknown⟩ := forgives_directives brought t tag attrs
    · rw [same]
      split
      · exact .refl _
      · split
        · exact .refl _
        · exact (forgives_planTrees brought t children).map _
    · rw [unknown]
      exact .inr ⟨attr, tag', rfl⟩
  | .node label (.text data) children => by
    rw [planTree, planTree, checkText_inMode, checkText_inMode]
    exact .refl _
  | .node label (.comment data) children => .refl _
  | .node label .fragment children => .refl _

theorem forgives_planTrees (brought : ∀ expr, Forgives (inject expr) (inject' expr))
    (t : Template) : ∀ trees : List (Tree α),
    Forgives ((t.inMode true).planTrees inject trees) ((t.inMode false).planTrees inject' trees)
  | [] => .refl _
  | first :: rest => by
    rw [planTrees, planTrees]
    obtain same | ⟨attr, tag, unknown⟩ := forgives_planTree brought t first
    · rw [same]
      split
      · exact .refl _
      · exact (forgives_planTrees brought t rest).map _
    · rw [unknown]
      exact .inr ⟨attr, tag, rfl⟩

end

/-- Markup from data is checked like the template. -/
theorem forgives_inject (t : Template) (depth : Nat) (expr : String) :
    Forgives ((t.inMode true).inject depth expr) ((t.inMode false).inject depth expr) := by
  induction depth generalizing expr with
  | zero => exact .refl _
  | succ depth ih =>
    rw [inject, inject, valueAt_inMode, valueAt_inMode]
    split
    · exact .refl _
    · split
      · exact .refl _
      · exact (forgives_planTrees ih t _).map _

/-- **Planning** gives the same in both modes, unless a directive is unknown. -/
theorem forgives_plan (t : Template) (depth : Nat) (trees : List (Tree α)) :
    Forgives ((t.inMode true).plan depth trees) ((t.inMode false).plan depth trees) :=
  forgives_planTrees (forgives_inject t depth) t trees

/-- **Lenient settings have no unknown directives.** -/
theorem plan_lenient (t : Template) {depth : Nat} {trees : List (Tree α)} (attr tag : String) :
    (t.inMode false).plan depth trees ≠ .error (.unknownDirective attr tag) := by
  intro failed
  obtain site | ⟨strict, -⟩ | deep := plan_error failed
  · exact site
  · cases strict
  · cases deep

end Template

/-! ### Operations -/

namespace Act

/-- The second operation does the same as the first, unless the first fails for an unknown
directive. -/
def Forgives (strict lenient : Act υ α) : Prop :=
  ∀ w, strict w = lenient w ∨
    ∃ attr tag w', strict w = some (.error (.unknownDirective attr tag), w')

/-- An operation that does not depend on the mode is forgiven. -/
theorem Forgives.refl (act : Act υ α) : Forgives act act := fun _ => .inl rfl

/-- **One after another.** -/
theorem Forgives.then {first first' : Act υ α} {next next' : α → Act υ β}
    (h : Forgives first first') (h' : ∀ value, Forgives (next value) (next' value)) :
    Forgives (first >>= next) (first' >>= next') := by
  intro w
  -- where the first operations end alike, they leave one world to the second
  obtain same | ⟨attr, tag, w', unknown⟩ := h w
  · cases hfirst : first' w with
    | none =>
      have ended : (first' >>= next') w = none := by
        change first'.bind next' w = none
        rw [Step.bind, hfirst]
      refine .inl (Eq.trans ?_ ended.symm)
      change first.bind next w = none
      rw [Step.bind, same, hfirst]
    | some ended =>
      rw [hfirst] at same
      obtain ⟨e | value, between⟩ := ended
      · rw [Step.bind_error same, Step.bind_error hfirst]
        exact .inl rfl
      · rw [Step.bind_ok same, Step.bind_ok hfirst]
        exact h' value between
  · exact .inr ⟨attr, tag, w', Step.bind_error unknown⟩

/-- **In two parts.** -/
theorem Forgives.both {first first' second second' : Act υ (List WatcherId)}
    (h : Forgives first first') (h' : Forgives second second') :
    Forgives (first.both second) (first'.both second') := by
  intro w
  rw [Act.both, Act.both]
  obtain same | ⟨attr, tag, w', unknown⟩ := h w
  · rw [same]
    cases first' w with
    | none => exact .inl rfl
    | some ended =>
      obtain ⟨e | ids, between⟩ := ended
      · exact .inl rfl
      · obtain same' | ⟨attr, tag, w', unknown⟩ := h' between
        · exact .inl (by simp only [same'])
        · exact .inr ⟨attr, tag, w'.dropAll ids, by simp only [unknown]⟩
  · exact .inr ⟨attr, tag, w', by rw [unknown]⟩

/-- What is done in the end is done in both modes. -/
theorem Forgives.thenAlways {act act' : Act υ α} (h : Forgives act act')
    (last : World (Page υ) → World (Page υ)) :
    Forgives (Step.thenAlways act last) (Step.thenAlways act' last) := by
  intro w
  rw [Step.thenAlways, Step.thenAlways]
  obtain same | ⟨attr, tag, w', unknown⟩ := h w
  · exact .inl (by rw [same])
  · exact .inr ⟨attr, tag, last w', by rw [unknown]; rfl⟩

end Act

/-! ### Templates -/

namespace Compiler

variable {c : Compiler υ} {own own' : Bool} {injected injected' : NodeId → Act υ (List WatcherId)}

/-- Planning below a node gives the same in both modes. -/
theorem forgives_planBelow (c : Compiler υ) (own own' : Bool) (depth : Nat) (node : NodeId) :
    Act.Forgives ((c.inMode true own).planBelow depth node)
      ((c.inMode false own').planBelow depth node) := by
  intro w
  rw [planBelow, planBelow, template_inMode, template_inMode]
  obtain same | ⟨attr, tag, unknown⟩ := Template.forgives_plan (c.template w) depth
    (((w.document.node? node).map Tree.children).getD [])
  · exact .inl (by rw [same])
  · exact .inr ⟨attr, tag, w, by rw [unknown]; rfl⟩

section handlers

variable (handlers : ∀ kind mode, c.handlers kind (c.viewModel.inMode mode) =
  c.handlers kind c.viewModel)

include handlers

theorem forgives_bindSites (below : ∀ node, Act.Forgives (injected node) (injected' node))
    (sites : List (Site NodeId)) :
    Act.Forgives ((c.inMode true own).bindSites injected sites)
      ((c.inMode false own').bindSites injected' sites) := by
  induction sites with
  | nil => exact .refl _
  | cons site rest ih =>
    have first : Act.Forgives ((c.inMode true own).bindSite injected site)
        ((c.inMode false own').bindSite injected' site) := by
      cases site with
      | directive node tag d =>
        simp only [bindSite, inMode, handlers]
        exact .refl _
      | interpolation node text => exact .refl _
      | injected node => exact below node
    exact first.both ih

/-- Markup from data, level by level. -/
theorem forgives_bindInjected (depth : Nat) (node : NodeId) :
    Act.Forgives ((c.inMode true own).bindInjected depth node)
      ((c.inMode false own').bindInjected depth node) := by
  induction depth generalizing node with
  | zero => exact .refl _
  | succ depth ih =>
    exact (c.forgives_planBelow own own' depth node).then fun sites =>
      forgives_bindSites handlers ih sites

/-- **So does compiling.** -/
theorem forgives_compile (own own' : Bool) (root : NodeId) :
    Act.Forgives ((c.inMode true own).compile root) ((c.inMode false own').compile root) :=
  (Act.Forgives.refl (stage root)).then fun _ =>
    ((c.forgives_planBelow own own' _ _).then fun sites =>
      forgives_bindSites handlers (forgives_bindInjected handlers _) sites).thenAlways _

end handlers

/-- The bindings of this library are bound in lenient mode without unknown directives. -/
theorem ends_lenient (vm : ViewModel υ) (s : Settings) (root : NodeId) :
    (compile ⟨vm, s.inMode false, .builtin⟩ root).Ends
      fun e => ∀ attr tag, e ≠ .unknownDirective attr tag := by
  have ofSite (e : TemplateError) (site : e.IsOfSite) (attr tag : String) :
      e ≠ .unknownDirective attr tag := by
    rintro rfl
    exact site
  refine ends_compile (fun kind node d => (Handlers.ends_builtin vm kind node d).mono ofSite)
    ofSite (fun w depth trees e failed attr tag he => ?_) (fun _ _ => nofun) root
  subst he
  exact Template.plan_lenient ⟨s, vm.hasMethod, vm.mount.store? w⟩ attr tag failed

/-- **Lenient settings forgive unknown directives only.** By the same settings, strict and lenient,
and on the same page, compilation ends with the same result and leaves the same world — the data,
the document with its listeners, and all watchers in the order in which they were made — unless by
strict settings it fails for an unknown directive, as by lenient ones it never does.  It makes no
difference in which mode the settings of the view model itself are. -/
theorem compile_forgives (vm : ViewModel υ) (s : Settings) (own own' : Bool) (root : NodeId)
    (w : World (Page υ)) :
    ∃ result left result' left',
      compile ⟨vm.inMode own, s.inMode true, .builtin⟩ root w = some (result, left) ∧
      compile ⟨vm.inMode own', s.inMode false, .builtin⟩ root w = some (result', left') ∧
      ((result = result' ∧ left = left') ∨
        ∃ attr tag, result = .error (.unknownDirective attr tag)) ∧
      ∀ attr tag, result' ≠ .error (.unknownDirective attr tag) := by
  obtain ⟨result', left', lenient, -, known⟩ := ends_lenient (vm.inMode own') s root w
  have known' (attr tag : String) : result' ≠ .error (.unknownDirective attr tag) :=
    fun he => known _ he attr tag rfl
  have forgives : Act.Forgives (compile ⟨vm.inMode own, s.inMode true, .builtin⟩ root)
      (compile ⟨vm.inMode own', s.inMode false, .builtin⟩ root) :=
    forgives_compile (c := ⟨vm, s, .builtin⟩)
      (fun kind mode => Handlers.builtin_inMode kind mode vm) own own' root
  obtain same | ⟨attr, tag, left, unknown⟩ := forgives w
  · exact ⟨result', left', result', left', same.trans lenient, lenient, .inl ⟨rfl, rfl⟩, known'⟩
  · exact ⟨_, left, result', left', unknown, lenient, .inr ⟨attr, tag, rfl⟩, known'⟩

end Compiler

end Bindery
