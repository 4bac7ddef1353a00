import Bindery.Proofs.ViewModel.Expansion

namespace Bindery

/-!
# Why templates are refused

Planning checks the directives and texts that are going to be bound, and if it fails, then because
of one of them.

* `TemplateError.IsOfSite` — the reasons for which a single place cannot be bound.
* `Template.Live` — the directives of a row of trees that are bound, which are those outside of
  content that another one replaces.
* `Template.checked_of_live` — planning checks all of these.
* `Template.Blames`, `Template.planTrees_error` — what planning fails for.
* `Template.plan_error` — the reasons for which it fails.
-/

/-- The reasons for which a single place cannot be bound, apart from what markup from data and
unknown directives may be a reason for. -/
def TemplateError.IsOfSite : TemplateError → Prop
  | .unmounted | .malformedDirective _ | .missingEventName _ | .unknownMethod _ | .markup _
  | .fault _ => True
  | _ => False

/-- An attribute that is not read is malformed, or names no directive, or no event. -/
theorem Directive.parse_error {element attr expression lead : String} {e : TemplateError}
    (h : parse element attr expression lead = .error e) :
    e = .unknownDirective attr element ∨ e.IsOfSite := by
  rw [parse] at h
  split at h
  · cases h
  · simp only at h
    split at h
    · cases h
      exact .inr trivial
    · split at h
      · cases h
        exact .inl rfl
      · split at h
        · cases h
          exact .inr trivial
        · cases h

namespace Template

variable {α β : Type} {t : Template} {inject : String → Except TemplateError Unit}
  {trees : List (Tree α)} {d : Directive} {e : TemplateError}

/-! ### Directives that are bound -/

/-- **A directive of a row of trees that is bound:** the element that has it is not in content that
another directive replaces. -/
inductive Live (t : Template) : List (Tree α) → Directive → Prop where
  | own {label : α} {tag : String} {attrs : List (String × String)} {children rest : List (Tree α)}
      {d : Directive} (h : d ∈ t.directivesOf tag attrs) :
      Live t (.node label (.element tag attrs) children :: rest) d
  | inside {label : α} {tag : String} {attrs : List (String × String)}
      {children rest : List (Tree α)} {d : Directive}
      (kept : lastOwner (t.directivesOf tag attrs) = none) (h : Live t children d) :
      Live t (.node label (.element tag attrs) children :: rest) d
  | later {first : Tree α} {rest : List (Tree α)} {d : Directive} (h : Live t rest d) :
      Live t (first :: rest) d

theorem not_live_nil : ¬ t.Live ([] : List (Tree α)) d := fun h => nomatch h

/-- Nothing is bound in a text but the text. -/
theorem not_live_text (label : α) (data : String) (children : List (Tree α)) :
    ¬ t.Live [.node label (.text data) children] d := by
  rintro (_ | _ | h)
  exact not_live_nil h

/-- What is bound in the first tree is bound in the row. -/
theorem Live.head {first : Tree α} {rest : List (Tree α)} (h : t.Live [first] d) :
    t.Live (first :: rest) d := by
  cases h with
  | own h => exact .own h
  | inside kept h => exact .inside kept h
  | later h => exact absurd h not_live_nil

/-- Labels do not matter. -/
theorem Live.map (f : α → β) (h : t.Live trees d) : t.Live (Tree.mapAll f trees) d := by
  induction h with
  | own h =>
    rw [Tree.mapAll, Tree.map]
    exact .own h
  | inside kept _ ih =>
    rw [Tree.mapAll, Tree.map]
    exact .inside kept ih
  | later _ ih =>
    rw [Tree.mapAll]
    exact .later ih

/-- **Planning checks every directive that is bound.** -/
theorem checked_of_live {sites : List (Site α)} (planned : t.planTrees inject trees = .ok sites)
    (h : t.Live trees d) : t.checkDirective inject d = .ok () := by
  induction h generalizing sites with
  | own h =>
    obtain ⟨own, more, hfirst, -, -⟩ := planTrees_cons planned
    exact (planTree_element hfirst).1 _ h
  | inside kept _ ih =>
    obtain ⟨own, more, hfirst, -, -⟩ := planTrees_cons planned
    have below := (planTree_element hfirst).2
    rw [kept] at below
    obtain ⟨inner, hinner, -⟩ := below
    exact ih hinner
  | later _ ih =>
    obtain ⟨own, more, -, hrest, -⟩ := planTrees_cons planned
    exact ih hrest

/-! ### Why planning fails -/

/-- A mapped result fails for the reason that the result fails for. -/
theorem map_eq_error {f : α → β} {result : Except TemplateError α} :
    result.map f = .error e ↔ result = .error e := by
  cases result <;> simp [Except.map]

/-- An expression that has no value is the reason of a single place. -/
theorem valueAt_error {expr : String} (h : t.valueAt expr = .error e) : e.IsOfSite := by
  rw [valueAt] at h
  split at h
  · cases h
    trivial
  · next s _ =>
    cases hget : s.get expr with
    | error fault =>
      rw [hget] at h
      cases h
      trivial
    | ok value => simp [hget, Except.mapError] at h

theorem checkPaths_error {paths : List Path} (h : t.checkPaths paths = .error e) :
    e.IsOfSite := by
  induction paths with
  | nil => cases h
  | cons path rest ih =>
    rw [checkPaths] at h
    split at h
    · next hvalue =>
      cases h
      exact valueAt_error hvalue
    · exact ih h

theorem checkText_error {text : String} (h : t.checkText text = .error e) : e.IsOfSite := by
  rw [checkText] at h
  split at h
  · cases h
    trivial
  · exact checkPaths_error h

/-- A directive fails its check on its own account, or because of the markup that it brings. -/
theorem checkDirective_error (h : t.checkDirective inject d = .error e) :
    e.IsOfSite ∨ (d.kind = .html ∧ inject d.expression = .error e) := by
  cases hkind : d.kind with
  | on =>
    simp only [checkDirective, hkind] at h
    split at h
    · cases h
    · cases h
      exact .inl trivial
  | model =>
    simp only [checkDirective, hkind] at h
    exact .inl (valueAt_error (map_eq_error.1 h))
  | text =>
    simp only [checkDirective, hkind] at h
    exact .inl (checkText_error h)
  | html =>
    simp only [checkDirective, hkind] at h
    split at h
    · next hvalue =>
      cases h
      exact .inl (valueAt_error hvalue)
    · exact .inr ⟨rfl, h⟩

/-- An attribute that cannot be read is unknown and the settings are strict, or it is wrong
otherwise. -/
theorem recognize_error {tag : String} {attr : String × String}
    (h : t.recognize tag attr = .error e) :
    e.IsOfSite ∨ (t.settings.strict = true ∧ e = .unknownDirective attr.1 tag) := by
  rw [recognize] at h
  split at h
  · next hparse =>
    split at h
    · next strict =>
      cases h
      obtain unknown | site := Directive.parse_error hparse
      · exact .inr ⟨strict, unknown⟩
      · exact site.elim
    · cases h
  · next known =>
    obtain rfl | site := Directive.parse_error h
    · exact absurd h (known _ _)
    · exact .inl site

/-- What planning fails for, when some directives are bound: a place that cannot be, an attribute
that strict settings do not know, or markup that one of the directives brings. -/
def Blames (t : Template) (inject : String → Except TemplateError Unit) (live : Directive → Prop)
    (e : TemplateError) : Prop :=
  e.IsOfSite ∨ (t.settings.strict = true ∧ ∃ attr tag, e = .unknownDirective attr tag) ∨
    ∃ d, live d ∧ d.kind = .html ∧ inject d.expression = .error e

/-- What some directives are blamed for, more of them are blamed for. -/
theorem Blames.mono {live live' : Directive → Prop} (h : t.Blames inject live e)
    (weaker : ∀ d, live d → live' d) : t.Blames inject live' e :=
  h.imp_right <| Or.imp_right fun ⟨d, hd, brought⟩ => ⟨d, weaker d hd, brought⟩

/-- The directives of an element fail for what can be blamed on them. -/
theorem directives_error {tag : String} {attrs : List (String × String)}
    (h : t.directives inject tag attrs = .error e) :
    t.Blames inject (· ∈ t.directivesOf tag attrs) e := by
  induction attrs with
  | nil => cases h
  | cons attr rest ih =>
    have later (hrest : t.directives inject tag rest = .error e) :
        t.Blames inject (· ∈ t.directivesOf tag (attr :: rest)) e := by
      refine (ih hrest).mono fun d hd => ?_
      rw [directivesOf, List.filterMap_cons]
      split
      · exact hd
      · exact List.mem_cons_of_mem _ hd
    rw [directives] at h
    cases hattr : t.recognize tag attr with
    | error e' =>
      simp only [hattr] at h
      cases h
      obtain ofSite | ⟨strict, he⟩ := recognize_error hattr
      · exact .inl ofSite
      · exact .inr (.inl ⟨strict, _, _, he⟩)
    | ok found =>
      cases found with
      | none =>
        simp only [hattr] at h
        exact later h
      | some d =>
        simp only [hattr] at h
        split at h
        · next hcheck =>
          cases h
          refine (checkDirective_error hcheck).imp_right fun brought => .inr ⟨d, ?_, brought⟩
          simp [directivesOf, hattr, Except.toOption]
        · exact later (map_eq_error.1 h)

mutual

/-- Planning a tree fails for what can be blamed on the directives that are bound in it. -/
theorem planTree_error : ∀ tree : Tree α, t.planTree inject tree = .error e →
    t.Blames inject (t.Live [tree]) e
  | .node label (.element tag attrs) children, h => by
    rw [planTree] at h
    cases hds : t.directives inject tag attrs with
    | error e' =>
      simp only [hds] at h
      cases h
      exact (directives_error hds).mono fun _ => .own
    | ok ds =>
      obtain ⟨rfl, -⟩ := directives_ok hds
      simp only [hds] at h
      split at h
      · cases h
      · next kept =>
        have none := lastOwner_eq_none.2 (Bool.eq_false_iff.2 kept)
        exact (planTrees_error children (map_eq_error.1 h)).mono fun _ => .inside none
  | .node label (.text data) children, h => by
    rw [planTree] at h
    split at h
    · exact .inl (checkText_error (map_eq_error.1 h))
    · cases h
  | .node label (.comment data) children, h => nomatch h
  | .node label .fragment children, h => nomatch h

/-- **Why planning fails.** -/
theorem planTrees_error : ∀ trees : List (Tree α), t.planTrees inject trees = .error e →
    t.Blames inject (t.Live trees) e
  | [], h => nomatch h
  | first :: rest, h => by
    rw [planTrees] at h
    split at h
    · next hfirst =>
      cases h
      exact (planTree_error first hfirst).mono fun _ => .head
    · exact (planTrees_error rest (map_eq_error.1 h)).mono fun _ => .later

end

/-- **The reasons.** A place that cannot be bound, an unknown directive, or markup that keeps
bringing markup. -/
theorem plan_error {depth : Nat} (h : t.plan depth trees = .error e) :
    e.IsOfSite ∨ (t.settings.strict = true ∧ ∃ attr tag, e = .unknownDirective attr tag) ∨
      e = .injectionTooDeep injectionLimit := by
  induction depth generalizing α trees with
  | zero =>
    refine (planTrees_error trees h).imp_right (Or.imp_right ?_)
    rintro ⟨d, -, -, deep⟩
    cases deep
    rfl
  | succ depth ih =>
    obtain site | unknown | ⟨d, -, -, brought⟩ := planTrees_error trees h
    · exact .inl site
    · exact .inr (.inl unknown)
    · rw [Template.inject] at brought
      split at brought
      · next hvalue =>
        cases brought
        exact .inl (valueAt_error hvalue)
      · split at brought
        · cases brought
          exact .inl trivial
        · exact ih (map_eq_error.1 brought)

end Template

end Bindery
