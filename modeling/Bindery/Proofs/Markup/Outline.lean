import Bindery.Markup.Writer
import Bindery.Proofs.Markup.Canonical

namespace Bindery

/-!
# What markup shows of trees

* `Tree.tidy`, `Tree.tidyAll` — trees without what is never written: empty texts and what hangs
  below void elements.
* `Tree.writeAll_tidyAll` — they are written like the trees themselves.
* `Tree.outline`, `Tree.outlineAll` — elements, attributes and comments without the texts.
-/

namespace Tree

variable {α β : Type}

mutual

/-- A tree without what is never written. -/
def tidy : Tree α → Tree α
  | node label (.element tag attrs) children =>
    node label (.element tag attrs) (if isVoid tag then [] else tidyAll children)
  | node label (.text data) children => node label (.text data) children
  | node label (.comment data) children => node label (.comment data) children
  | node label .fragment children => node label .fragment (tidyAll children)

/-- A row of trees without what is never written. -/
def tidyAll : List (Tree α) → List (Tree α)
  | [] => []
  | t :: rest => if t.kind = .text "" then tidyAll rest else tidy t :: tidyAll rest

end

@[simp] theorem kind_tidy (t : Tree α) : t.tidy.kind = t.kind := by
  obtain ⟨label, kind, children⟩ := t
  cases kind <;> rw [tidy] <;> rfl

mutual

/-- A tidied tree is written like the tree itself. -/
theorem write_tidy : ∀ t : Tree α, t.tidy.write = t.write
  | node label (.element tag attrs) children => by
    rw [tidy, write, write]
    cases isVoid tag with
    | true => rfl
    | false => simp only [Bool.false_eq_true, if_false, writeAll_tidyAll children]
  | node label (.text data) children => rfl
  | node label (.comment data) children => rfl
  | node label .fragment children => by
    rw [tidy, write, write, writeAll_tidyAll children]

/-- **What is left out is never written.** -/
theorem writeAll_tidyAll : ∀ ts : List (Tree α), writeAll (tidyAll ts) = writeAll ts
  | [] => rfl
  | t :: rest => by
    rw [tidyAll]
    split
    · next hkind =>
      have hempty : t.write = [] := by
        obtain ⟨label, kind, children⟩ := t
        cases hkind
        rfl
      rw [writeAll_tidyAll rest, writeAll_cons, hempty, List.nil_append]
    · rw [writeAll_cons, write_tidy t, writeAll_tidyAll rest, writeAll_cons]

end

/-- No text comes first in what is left of a row if none did in the row. -/
theorem head?_tidyAll {ts : List (Tree α)} (notText : ∀ t ∈ ts.head?, t.kind.isText = false) :
    ∀ t ∈ (tidyAll ts).head?, t.kind.isText = false := by
  cases ts with
  | nil => simp [tidyAll]
  | cons t ts =>
    have ht : t.kind.isText = false := notText t rfl
    have hkept : ¬ t.kind = .text "" := by
      intro h
      rw [h] at ht
      contradiction
    rw [tidyAll, if_neg hkept]
    intro u hu
    cases hu
    rw [kind_tidy]
    exact ht

mutual

/-- Labels do not matter for being canonical. -/
theorem canonical_map (f : α → β) : ∀ t : Tree α, Canonical (t.map f) ↔ Canonical t
  | node label (.element tag attrs) children => by
    have hnil : mapAll f children = [] ↔ children = [] := by
      rw [mapAll_eq_map, List.map_eq_nil_iff]
    rw [map, Canonical, Canonical, canonicalAll_mapAll f children, hnil]
  | node label (.text data) children => by
    rw [map, Canonical, Canonical, mapAll_eq_map, List.map_eq_nil_iff]
  | node label (.comment data) children => by
    rw [map, Canonical, Canonical, mapAll_eq_map, List.map_eq_nil_iff]
  | node label .fragment children => Iff.rfl

/-- Labels do not matter. -/
theorem canonicalAll_mapAll (f : α → β) :
    ∀ ts : List (Tree α), CanonicalAll (mapAll f ts) ↔ CanonicalAll ts
  | [] => Iff.rfl
  | t :: rest => by
    have hapart : (∀ u ∈ (mapAll f rest).head?, Apart (t.map f) u) ↔
        ∀ u ∈ rest.head?, Apart t u := by
      rw [mapAll_eq_map, List.head?_map]
      simp [Apart]
    rw [mapAll, CanonicalAll, CanonicalAll, canonical_map f t, hapart, canonicalAll_mapAll f rest]

end

mutual

/-- Tidying keeps the labels of what it keeps. -/
theorem tidy_map (f : α → β) : ∀ t : Tree α, (t.map f).tidy = t.tidy.map f
  | node label (.element tag attrs) children => by
    rw [map, tidy, tidy, map, tidyAll_mapAll f children]
    split <;> rfl
  | node label (.text data) children => by rw [map, tidy, tidy, map]
  | node label (.comment data) children => by rw [map, tidy, tidy, map]
  | node label .fragment children => by rw [map, tidy, tidy, map, tidyAll_mapAll f children]

theorem tidyAll_mapAll (f : α → β) :
    ∀ ts : List (Tree α), tidyAll (mapAll f ts) = mapAll f (tidyAll ts)
  | [] => rfl
  | t :: rest => by
    rw [mapAll, tidyAll, tidyAll, kind_map]
    split
    · exact tidyAll_mapAll f rest
    · rw [mapAll, tidy_map f t, tidyAll_mapAll f rest]

end

/-! ### Outlines -/

/-- Which elements something is said about, by their tags and attributes. -/
abbrev Elements := String → List (String × String) → Bool

/-- The attributes without the form value. -/
def withoutValue (attrs : List (String × String)) : List (String × String) :=
  attrs.filter fun attr => attr.1 ≠ "value"

mutual

/-- A tree without texts, without the form values of elements that are `bound`, and without the
content of elements that are `cleared`. -/
def outline (bound cleared : Elements) : Tree α → List (Tree Unit)
  | node _ (.element tag attrs) children =>
    [node () (.element tag (if bound tag attrs then withoutValue attrs else attrs))
      (if cleared tag attrs then [] else outlineAll bound cleared children)]
  | node _ (.text _) _ => []
  | node _ (.comment data) _ => [node () (.comment data) []]
  | node _ .fragment children => outlineAll bound cleared children

/-- The same for a row of trees. -/
def outlineAll (bound cleared : Elements) : List (Tree α) → List (Tree Unit)
  | [] => []
  | t :: rest => outline bound cleared t ++ outlineAll bound cleared rest

end

mutual

/-- An outline has no labels. -/
theorem outline_map (bound cleared : Elements) (f : α → β) :
    ∀ t : Tree α, outline bound cleared (t.map f) = outline bound cleared t
  | node label (.element tag attrs) children => by
    rw [map, outline, outline, outlineAll_mapAll bound cleared f children]
  | node label (.text data) children => rfl
  | node label (.comment data) children => rfl
  | node label .fragment children => by
    rw [map, outline, outline, outlineAll_mapAll bound cleared f children]

/-- Labels are no part of an outline. -/
theorem outlineAll_mapAll (bound cleared : Elements) (f : α → β) :
    ∀ ts : List (Tree α), outlineAll bound cleared (mapAll f ts) = outlineAll bound cleared ts
  | [] => rfl
  | t :: rest => by
    rw [mapAll, outlineAll, outlineAll, outline_map bound cleared f t,
      outlineAll_mapAll bound cleared f rest]

end

end Tree

end Bindery
