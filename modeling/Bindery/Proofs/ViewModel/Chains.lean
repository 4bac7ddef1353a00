import Bindery.Proofs.ViewModel.Refusal

namespace Bindery

/-!
# Chains of markup from data

Markup from data may bring further markup from data, and that again.  Planning follows such chains
to a certain depth: it does not succeed with a longer one, and without one it does not fail for its
depth.

* `Template.Chain` — directives for markup, each bound in what the one before it shows.
* `Template.Shallow` — no chain has more than so many directives.
* `Template.chain_replicate` — markup that brings itself has chains of every length.
* `Template.inject_cases` — markup that is checked is planned, unless it cannot be had.
* `Template.plan_error_of_chain`, `Template.chain_of_plan_error` — planning and chains.
-/

namespace Template

variable {α β : Type} {t : Template} {s : Store} {trees : List (Tree α)} {d : Directive}
  {ds : List Directive} {depth : Nat}

/-- **Directives for markup one below the other:** the first is bound in some trees, and each of the
others in what the one before it shows. -/
def Chain (t : Template) (s : Store) : {α : Type} → List Directive → List (Tree α) → Prop
  | _, [], _ => True
  | _, d :: rest, trees =>
    t.Live trees d ∧ d.kind = .html ∧ Chain t s rest (s.shownTrees d.expression)

/-- No chain has more than so many directives. -/
def Shallow (t : Template) (s : Store) (depth : Nat) (trees : List (Tree α)) : Prop :=
  ∀ ds, t.Chain s ds trees → ds.length ≤ depth

/-- A chain starts with a directive, and what this shows has the rest of it. -/
theorem chain_cons {rest : List Directive} : t.Chain s (d :: rest) trees ↔
    t.Live trees d ∧ d.kind = .html ∧ t.Chain s rest (s.shownTrees d.expression) := by
  rw [Chain]

/-- A chain that starts in some trees starts in others where its first directive is bound too. -/
theorem Chain.mono {trees' : List (Tree β)} (h : t.Chain s ds trees)
    (live : ∀ d, t.Live trees d → t.Live trees' d) : t.Chain s ds trees' := by
  cases ds with
  | nil => trivial
  | cons d rest =>
    obtain ⟨hd, html, hrest⟩ := chain_cons.1 h
    exact chain_cons.2 ⟨live d hd, html, hrest⟩

/-- Fewer directives are bound, so chains are not longer. -/
theorem Shallow.mono {trees' : List (Tree β)} (h : t.Shallow s depth trees')
    (live : ∀ d, t.Live trees d → t.Live trees' d) : t.Shallow s depth trees :=
  fun ds hds => h ds (hds.mono live)

/-- Where nothing is bound there are no chains. -/
theorem shallow_of_forall_not_live (none : ∀ d, ¬ t.Live trees d) : t.Shallow s depth trees := by
  intro ds hds
  cases ds with
  | nil => exact Nat.zero_le _
  | cons d rest => exact absurd (chain_cons.1 hds).1 (none d)

/-- **One level less.** What a directive shows has chains of one directive less. -/
theorem Shallow.below (h : t.Shallow s depth trees) (live : t.Live trees d)
    (html : d.kind = .html) :
    ∃ rest, depth = rest + 1 ∧ t.Shallow s rest (s.shownTrees d.expression) := by
  have longer (ds : List Directive) (hds : t.Chain s ds (s.shownTrees d.expression)) :
      ds.length + 1 ≤ depth := h (d :: ds) (chain_cons.2 ⟨live, html, hds⟩)
  cases depth with
  | zero => exact absurd (longer [] trivial) (by simp)
  | succ rest => exact ⟨rest, rfl, fun ds hds => Nat.le_of_succ_le_succ (longer ds hds)⟩

/-- **Markup that brings itself** has chains of every length. -/
theorem chain_replicate (live : t.Live trees d) (html : d.kind = .html)
    (again : t.Live (s.shownTrees d.expression) d) (n : Nat) :
    t.Chain s (List.replicate n d) trees := by
  induction n generalizing α trees with
  | zero => trivial
  | succ n ih => exact chain_cons.2 ⟨live, html, ih again⟩

/-! ### Planning -/

section planning

variable (hstore : t.store = some s)

include hstore

/-- Markup that is checked cannot be had, or the trees that are shown are planned. -/
theorem inject_cases (depth : Nat) (expr : String) :
    (∃ e, t.inject (depth + 1) expr = .error e ∧ e.IsOfSite) ∨
      t.inject (depth + 1) expr = (t.plan depth (s.shownTrees expr)).map fun _ => () := by
  rw [inject]
  cases hvalue : t.valueAt expr with
  | error e => exact .inl ⟨e, rfl, valueAt_error hvalue⟩
  | ok value =>
    have hget : s.get expr = .ok value := by
      simp only [valueAt, hstore] at hvalue
      cases hget : s.get expr <;> simp_all [Except.mapError]
    have shown : s.shownValue expr = value.display := by
      rw [Store.shownValue, hget]
      rfl
    simp only
    cases hmarkup : readMarkup value.display with
    | error e => exact .inl ⟨.markup e, rfl, trivial⟩
    | ok trees =>
      have htrees : s.shownTrees expr = trees := by
        rw [Store.shownTrees, shown, hmarkup]
        rfl
      exact .inr (by rw [htrees]; rfl)

/-- **Planning does not succeed with a chain that is too long.** -/
theorem plan_error_of_chain (h : t.Chain s ds trees) (long : depth < ds.length) :
    ∃ e, t.plan depth trees = .error e := by
  induction ds generalizing α depth trees with
  | nil => exact absurd long (Nat.not_lt_zero depth)
  | cons d rest ih =>
    obtain ⟨live, html, hrest⟩ := chain_cons.1 h
    cases hplan : t.plan depth trees with
    | error e => exact ⟨e, rfl⟩
    | ok sites =>
      -- the first directive has been checked, and so the markup that it brings
      have checked := inject_of_checked (checked_of_live hplan live) html
      cases depth with
      | zero => cases checked
      | succ depth =>
        obtain ⟨e, failed⟩ := ih hrest (Nat.lt_of_succ_lt_succ long)
        obtain ⟨e', failed', -⟩ | brought := inject_cases hstore depth d.expression
        · rw [failed'] at checked
          cases checked
        · rw [brought, failed] at checked
          cases checked

/-- **Planning that fails for its depth has followed a chain to the end.** -/
theorem chain_of_plan_error {limit : Nat}
    (h : t.plan depth trees = .error (.injectionTooDeep limit)) :
    ∃ ds, t.Chain s ds trees ∧ ds.length = depth + 1 := by
  induction depth generalizing α trees with
  | zero =>
    obtain site | ⟨-, attr, tag, unknown⟩ | ⟨d, live, html, -⟩ := planTrees_error trees h
    · exact site.elim
    · cases unknown
    · exact ⟨[d], chain_cons.2 ⟨live, html, trivial⟩, rfl⟩
  | succ depth ih =>
    obtain site | ⟨-, attr, tag, unknown⟩ | ⟨d, live, html, deep⟩ := planTrees_error trees h
    · exact site.elim
    · cases unknown
    · obtain ⟨e, failed, site⟩ | brought := inject_cases hstore depth d.expression
      · rw [failed] at deep
        cases deep
        exact site.elim
      · obtain ⟨rest, hrest, length⟩ := ih (map_eq_error.1 (brought.symm.trans deep))
        exact ⟨d :: rest, chain_cons.2 ⟨live, html, hrest⟩, congrArg Nat.succ length⟩

/-- Markup from data that has shallow chains is not too deep to be planned. -/
theorem Shallow.plan_ne (h : t.Shallow s depth trees) (limit : Nat) :
    t.plan depth trees ≠ .error (.injectionTooDeep limit) := by
  intro failed
  obtain ⟨ds, hds, length⟩ := chain_of_plan_error hstore failed
  exact absurd (h ds hds) (by omega)

end planning

end Template

end Bindery
