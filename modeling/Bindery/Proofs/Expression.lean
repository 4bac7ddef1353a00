import Bindery.Proofs.Path
import Bindery.Reactive.Propagation
import Bindery.ViewModel.Binding

namespace Bindery

/-!
# Expressions

Where the library is handed an expression it takes the path that this names.  An expression without
one is refused wherever it is handed in, with one fault that cites it as it was given, and nothing
changes.

* `Path.Refused` — an expression that is refused everywhere with one fault.
* `Path.refused_of_none` — so is every expression that names no path.
* `Path.parsed_normalizes` — which expressions are paths, which of them are the same path, and what
  becomes of the others.
-/

namespace Path

/-- Reads, typed reads, questions about a property, assignments, programs, watchers of a page and
markers all fail with the same fault, and leave everything as it was. -/
structure Refused (expr : String) (fault : Fault) : Prop where
  get : ∀ s : Store, s.get expr = .error fault
  getAs : ∀ (s : Store) (shape : Shape), s.getAs shape expr = .error fault
  propertyAt : ∀ s : Store, s.propertyAt expr = .error fault
  set : ∀ {σ : Type} (w : World σ) (value : Json), World.set expr value w = some (.error fault, w)
  withPath : ∀ {σ : Type} (next : Path → Program σ), Program.withPath expr next = .fail fault
  watch : ∀ {υ : Type} (w : World (Page υ)) (reaction : Snapshot → Program (Page υ))
    (next : Snapshot → Act υ Unit),
    watchExpression expr reaction next w = some (.error (.fault fault), w)
  marker : ∀ (d : Delimiters) (text : String) (rest : List String),
    d.expressions text = expr :: rest → d.paths text = .error fault

variable {expr : String} {fault : Fault} {path : Path}

/-- **No path, one fault.** -/
theorem refused_of_none (h : parse? expr = none) : Refused expr (.invalidExpression expr) where
  get s := by simp only [Store.get, Store.getWith, h]
  getAs s shape := by simp only [Store.getAs, Store.get, Store.getWith, h]
  propertyAt s := by simp only [Store.propertyAt, h]
  set w value := by simp only [World.set, h]
  withPath next := by simp only [Program.withPath, h]
  watch w reaction next := by simp only [watchExpression, h]
  marker d text rest found := by
    rw [Delimiters.paths, found]
    simp only [Delimiters.distinctPaths, h]

/-- **Paths are normal forms.**  An expression is accepted exactly if, white space aside, it is some
segments joined by single dots; then its path has these segments and no others, its normal form is
the expression without white space, and the normal form is accepted as the same path.  Expressions
name the same path if they differ in white space only, and then the segments are the same.  Any
other expression is refused with a fault that cites it as it is. -/
theorem parsed_normalizes (expr : String) :
    ((∃ path, parsed expr = .ok path) ↔ ∃ segments, Dotted segments (unspaced expr)) ∧
      (∀ path, parsed expr = .ok path → path.text = unspaced expr ∧
        (∀ segments, Dotted segments (unspaced expr) ↔ segments = path.segments) ∧
        ".".intercalate path.segments = path.text ∧ parsed path.text = .ok path ∧
        path.parents ++ [path.last] = path.segments) ∧
      (∀ other path path', parsed expr = .ok path → parsed other = .ok path' →
        (path = path' ↔ unspaced expr = unspaced other) ∧
        (unspaced expr = unspaced other ↔ path.segments = path'.segments)) ∧
      ∀ fault, parsed expr = .error fault →
        fault = .invalidExpression expr ∧ Refused expr fault := by
  simp only [parsed_eq_ok_iff]
  refine ⟨exists_parse?_iff, ?_, ?_, ?_⟩
  · intro path hparse
    have normal := parse?_eq_some_iff.1 hparse
    refine ⟨normal, ?_, rfl, parse?_text path, path.parents_append_last⟩
    intro segments
    rw [← normal]
    constructor
    · intro h
      exact h.unique path.dotted
    · rintro rfl
      exact path.dotted
  · intro other path path' hparse hparse'
    rw [← parse?_eq_some_iff.1 hparse, ← parse?_eq_some_iff.1 hparse']
    refine ⟨⟨congrArg text, text_injective⟩, ?_, congrArg (".".intercalate ·)⟩
    intro same
    rw [text_injective same]
  · intro fault hfault
    cases h : parse? expr with
    | some path =>
      rw [parsed_of_parse h] at hfault
      cases hfault
    | none =>
      rw [parsed_of_none h] at hfault
      cases hfault
      exact ⟨rfl, refused_of_none h⟩

/-- Two spellings of a path, and an expression with nothing but white space between two dots. -/
theorem parsed_normalizes_spaced :
    let path : Path := ⟨["a", "b"], by decide, by decide⟩
    parsed " a\t.\nb " = .ok path ∧ path.text = unspaced " a\t.\nb " ∧
      parsed "a.b" = .ok path ∧ unspaced " a\t.\nb " = unspaced "a.b" ∧
      Refused "a. .b" (.invalidExpression "a. .b") := by
  intro path
  have spaced : parsed " a\t.\nb " = .ok path := parsed_of_parse (by decide)
  have plain : parsed "a.b" = .ok path := parsed_of_parse (by decide)
  have refused : parsed "a. .b" = .error (.invalidExpression "a. .b") := parsed_of_none (by decide)
  obtain ⟨-, normal, equal, -⟩ := parsed_normalizes " a\t.\nb "
  obtain ⟨-, -, -, refuses⟩ := parsed_normalizes "a. .b"
  exact ⟨spaced, (normal path spaced).1, plain, (equal "a.b" path path spaced plain).1.1 rfl,
    (refuses _ refused).2⟩

end Path

end Bindery
