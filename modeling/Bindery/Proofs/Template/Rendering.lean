import Bindery.Proofs.Path
import Bindery.Proofs.Store.Document
import Bindery.Template.Plan

namespace Bindery

/-!
# Texts of templates

What is shown for an expression and for a text with markers, and that checking a text is enough for
it to be shown.

* `Store.shownPath`, `Store.shownValue`, `Store.shownText`, `Store.shownTrees` — what a store shows
  for a path, an expression, a text with markers, and an expression of markup.
* `Store.Reachable.render_eq` — a read shows the text of the value that it sees.
* `Delimiters.mem_paths_iff` — the paths of a text are those of its markers.
* `Delimiters.render_congr` — the text shown depends on what is shown for its paths only.
* `Template.checkText_ok` — a checked text is shown.
* `Template.valueAt_of_checked`, `Template.inject_of_checked`, `Template.checkText_of_checked` —
  what checking a directive comes to.
-/

namespace Store

variable {s s' : Store} {expr : String} {path : Path} {seen : Snapshot}

/-- The text shown for a path. -/
def shownPath (s : Store) (path : Path) : Except Fault String := (s.read path).result.map s.render

/-- The text shown for an expression, empty if it names nothing. -/
def shownValue (s : Store) (expr : String) : String :=
  ((s.get expr).toOption.map Json.display).getD ""

/-- A text with its markers replaced, empty if one of them names nothing. -/
def shownText (s : Store) (marks : Delimiters) (template : String) : String :=
  (marks.render template s).toOption.getD ""

/-- The trees that an expression shows as markup, none if it is not well nested. -/
def shownTrees (s : Store) (expr : String) : List (Tree Unit) :=
  (readMarkup (s.shownValue expr)).toOption.getD []

/-- The value of an expression is what a read of its path sees. -/
theorem get_of_parse (hparse : Path.parse? expr = some path) :
    s.get expr = (s.read path).result.map s.valueOf := by
  simp only [get, getWith, hparse]
  rfl

/-- **One text for one value.** What is shown for a read is the text of the value that it sees: a
composite that is read is in the store. -/
theorem Reachable.render_eq (h : s.Reachable) (hread : (s.read path).result = .ok seen) :
    s.render seen = (s.valueOf seen).display := by
  cases seen with
  | value value => rfl
  | composite id =>
    obtain ⟨g, hg⟩ := h.represents
    obtain ⟨sub, hfind, hcontent⟩ := find_of_resolve hg (resolve_eq_composite hread)
    have hvalue := hg.toJson_find hfind
    rw [hcontent] at hvalue
    simp only [render, valueOf, hvalue]
    cases sub with
    | scalar value => simp at hcontent
    | object own members => rw [Graph.toJson_object]; rfl
    | array own items => rw [Graph.toJson_array]; rfl

/-- What is read at an expression is what the store shows there. -/
theorem Reachable.shownValue_eq (h : s.Reachable) (hparse : Path.parse? expr = some path)
    (hread : (s.read path).result = .ok seen) : s.shownValue expr = s.render seen := by
  rw [shownValue, get_of_parse hparse, hread, h.render_eq hread]
  rfl

end Store

namespace Delimiters

variable {marks : Delimiters} {template : String} {s s' : Store} {paths : List Path}

/-- The paths found among expressions, after those that were found before. -/
theorem distinctPaths_ok {exprs : List String} {found : List Path}
    (h : distinctPaths exprs found = .ok paths) (path : Path) :
    path ∈ paths ↔ path ∈ found ∨ ∃ expr ∈ exprs, Path.parse? expr = some path := by
  induction exprs generalizing found with
  | nil =>
    cases h
    simp
  | cons expr rest ih =>
    rw [distinctPaths] at h
    cases hparse : Path.parse? expr with
    | none => simp [hparse] at h
    | some first =>
      simp only [hparse] at h
      rw [ih h]
      -- a path that was found before is not added again, but it is there
      by_cases known : first ∈ found
      · simp only [known, if_true, List.mem_cons, exists_eq_or_imp, hparse, Option.some.injEq]
        constructor
        · exact Or.imp_right Or.inr
        · rintro (hold | rfl | hrest)
          · exact .inl hold
          · exact .inl known
          · exact .inr hrest
      · simp only [known, if_false, List.mem_append, List.mem_cons, List.not_mem_nil, false_or,
          exists_eq_or_imp, hparse, Option.some.injEq, or_assoc, @eq_comm _ path first]

/-- If the expressions of a text have paths, each of them does. -/
theorem distinctPaths_parses {exprs : List String} {found : List Path}
    (h : distinctPaths exprs found = .ok paths) :
    ∀ expr ∈ exprs, ∃ path, Path.parse? expr = some path := by
  induction exprs generalizing found with
  | nil => simp
  | cons expr rest ih =>
    rw [distinctPaths] at h
    cases hparse : Path.parse? expr with
    | none => simp [hparse] at h
    | some first =>
      simp only [hparse] at h
      exact List.forall_mem_cons.2 ⟨⟨first, hparse⟩, ih h⟩

/-- The paths of a text are those of its markers. -/
theorem mem_paths_iff (h : marks.paths template = .ok paths) (path : Path) :
    path ∈ paths ↔ ∃ expr ∈ marks.expressions template, Path.parse? expr = some path := by
  simpa using distinctPaths_ok h path

/-- Markers are shown as what the store shows for their paths. -/
theorem renderPieces_eq (s : Store) (pieces : List Piece) {c : List Char} (path : Path)
    (hparse : Path.parse? (String.ofList c) = some path) :
    renderPieces s (.marker c :: pieces) = match s.shownPath path with
      | .error fault => .error fault
      | .ok text => (renderPieces s pieces).map (text.toList ++ ·) := by
  simp only [renderPieces, hparse, Store.shownPath]
  cases (s.read path).result <;> rfl

/-- The expressions among pieces of text. -/
def expressionsOf (pieces : List Piece) : List String :=
  pieces.filterMap fun
    | .char _ => none
    | .marker expression => some (String.ofList expression)

/-- **Only the paths matter.** -/
theorem renderPieces_congr {pieces : List Piece}
    (same : ∀ expr ∈ expressionsOf pieces, ∀ path, Path.parse? expr = some path →
      s.shownPath path = s'.shownPath path) : renderPieces s pieces = renderPieces s' pieces := by
  induction pieces with
  | nil => rfl
  | cons piece rest ih =>
    cases piece with
    | char c => rw [renderPieces, renderPieces, ih same]
    | marker expression =>
      obtain ⟨hfirst, hrest⟩ := List.forall_mem_cons.1 same
      cases hparse : Path.parse? (String.ofList expression) with
      | none => simp only [renderPieces, hparse]
      | some path =>
        rw [renderPieces_eq s rest path hparse, renderPieces_eq s' rest path hparse,
          hfirst path hparse, ih hrest]

/-- A text is shown if something is shown for each of its markers. -/
theorem renderPieces_ok {pieces : List Piece}
    (shown : ∀ expr ∈ expressionsOf pieces, ∃ path text, Path.parse? expr = some path ∧
      s.shownPath path = .ok text) : ∃ text, renderPieces s pieces = .ok text := by
  induction pieces with
  | nil => exact ⟨[], rfl⟩
  | cons piece rest ih =>
    cases piece with
    | char c =>
      obtain ⟨text, htext⟩ := ih shown
      exact ⟨c :: text, by rw [renderPieces, htext]; rfl⟩
    | marker expression =>
      obtain ⟨⟨path, first, hparse, hfirst⟩, hrest⟩ := List.forall_mem_cons.1 shown
      obtain ⟨text, htext⟩ := ih hrest
      exact ⟨first.toList ++ text, by rw [renderPieces_eq s rest path hparse, hfirst, htext]; rfl⟩

/-- A text is rendered alike in two stores that show its paths alike. -/
theorem render_congr (h : marks.paths template = .ok paths)
    (same : ∀ path ∈ paths, s.shownPath path = s'.shownPath path) :
    marks.render template s = marks.render template s' := by
  rw [render, render, renderPieces_congr]
  intro expr hexpr path hparse
  exact same path ((mem_paths_iff h path).2 ⟨expr, hexpr, hparse⟩)

/-- A text whose paths are all shown is rendered. -/
theorem render_ok (h : marks.paths template = .ok paths)
    (shown : ∀ path ∈ paths, ∃ text, s.shownPath path = .ok text) :
    marks.render template s = .ok (s.shownText marks template) := by
  obtain ⟨text, htext⟩ : ∃ text, renderPieces s (marks.pieces template.toList) = .ok text := by
    refine renderPieces_ok fun expr hexpr => ?_
    obtain ⟨path, hparse⟩ := distinctPaths_parses h expr hexpr
    obtain ⟨text, htext⟩ := shown path ((mem_paths_iff h path).2 ⟨expr, hexpr, hparse⟩)
    exact ⟨path, text, hparse, htext⟩
  simp only [Store.shownText, render, htext]
  rfl

end Delimiters

/-! ### Checked texts -/

namespace Template

variable {t : Template} {s : Store}

/-- An expression that is checked is read. -/
theorem valueAt_ok (hstore : t.store = some s) {expr : String} {value : Json}
    (h : t.valueAt expr = .ok value) : ∃ path seen, Path.parse? expr = some path ∧
      (s.read path).result = .ok seen ∧ value = s.valueOf seen := by
  simp only [valueAt, hstore] at h
  cases hget : s.get expr with
  | error fault => simp [hget, Except.mapError] at h
  | ok found =>
    simp only [hget, Except.mapError, Except.ok.injEq] at h
    subst h
    cases hparse : Path.parse? expr with
    | none => simp [Store.get, Store.getWith, hparse] at hget
    | some path =>
      rw [Store.get_of_parse hparse] at hget
      cases hread : (s.read path).result with
      | error fault => simp [hread, Except.map] at hget
      | ok seen =>
        simp only [hread, Except.map, Except.ok.injEq] at hget
        exact ⟨path, seen, rfl, hread, hget.symm⟩

/-- The paths of a checked text lead somewhere. -/
theorem checkPaths_ok (hstore : t.store = some s) {paths : List Path}
    (h : t.checkPaths paths = .ok ()) :
    ∀ path ∈ paths, ∃ seen, (s.read path).result = .ok seen := by
  induction paths with
  | nil => simp
  | cons first rest ih =>
    rw [checkPaths] at h
    cases hvalue : t.valueAt first.text with
    | error e => simp [hvalue] at h
    | ok value =>
      simp only [hvalue] at h
      obtain ⟨path, seen, hparse, hread, -⟩ := valueAt_ok hstore hvalue
      rw [Path.parse?_text] at hparse
      cases hparse
      exact List.forall_mem_cons.2 ⟨⟨seen, hread⟩, ih h⟩

/-- A checked text is shown. -/
theorem checkText_ok (hstore : t.store = some s) {text : String} (h : t.checkText text = .ok ()) :
    ∃ paths, t.settings.delimiters.paths text = .ok paths ∧
      (∀ path ∈ paths, ∃ seen, (s.read path).result = .ok seen) ∧
      t.settings.delimiters.render text s = .ok (s.shownText t.settings.delimiters text) := by
  rw [checkText] at h
  cases hpaths : t.settings.delimiters.paths text with
  | error fault => simp [hpaths] at h
  | ok paths =>
    simp only [hpaths] at h
    have reads := checkPaths_ok hstore h
    refine ⟨paths, rfl, reads, Delimiters.render_ok hpaths fun path hpath => ?_⟩
    obtain ⟨seen, hread⟩ := reads path hpath
    exact ⟨s.render seen, by rw [Store.shownPath, hread]; rfl⟩

/-! ### Checked directives -/

variable {inject : String → Except TemplateError Unit} {d : Directive}

/-- The expression of a checked directive for markup or a form value has a value. -/
theorem valueAt_of_checked (checked : t.checkDirective inject d = .ok ())
    (kind : d.kind = .html ∨ d.kind = .model) : ∃ value, t.valueAt d.expression = .ok value := by
  cases hvalue : t.valueAt d.expression with
  | ok value => exact ⟨value, rfl⟩
  | error e =>
    obtain html | model := kind
    · simp [checkDirective, html, hvalue] at checked
    · simp [checkDirective, model, hvalue, Except.map] at checked

/-- The markup of a checked directive is checked as well. -/
theorem inject_of_checked (checked : t.checkDirective inject d = .ok ()) (kind : d.kind = .html) :
    inject d.expression = .ok () := by
  obtain ⟨value, hvalue⟩ := valueAt_of_checked checked (.inl kind)
  simpa [checkDirective, kind, hvalue] using checked

/-- So is its text. -/
theorem checkText_of_checked (checked : t.checkDirective inject d = .ok ())
    (kind : d.kind = .text) : t.checkText d.expression = .ok () := by
  simpa only [checkDirective, kind] using checked

end Template

end Bindery
