import Bindery.Text.Blank

namespace Bindery

/-!
# Binding paths

A binding expression such as `user . name` names a place in the data: white space is dropped and
the rest is cut at the dots.

* `Path` — a non-empty list of segments, each non-empty and without dots and white space.
* `Path.parse?` — the path that an expression names.
* `Path.text` — its normal form, the segments joined by dots.
-/

/-- The pieces of a text between its dots; one more than there are dots. -/
def splitDots : List Char → List (List Char)
  | [] => [[]]
  | c :: rest =>
    if c = '.' then [] :: splitDots rest
    else match splitDots rest with
      | [] => [[c]]
      | piece :: pieces => (c :: piece) :: pieces

/-- There is one piece at least, which may be empty. -/
theorem splitDots_ne_nil (cs : List Char) : splitDots cs ≠ [] := by
  cases cs with
  | nil => simp [splitDots]
  | cons c rest =>
    unfold splitDots
    split
    · simp
    · split <;> simp

@[simp] theorem splitDots_nil : splitDots [] = [[]] := rfl

@[simp] theorem splitDots_dot (cs : List Char) : splitDots ('.' :: cs) = [] :: splitDots cs := by
  simp [splitDots]

/-- Whether a text can be one segment of a path. -/
def isSegment (s : String) : Bool :=
  !s.toList.isEmpty && s.toList.all fun c => c != '.' && !isBlank c

/-- A place in the data. -/
structure Path where
  /-- The names to follow, from the top. -/
  segments : List String
  /-- There is at least one. -/
  nonempty : segments ≠ []
  /-- None is empty or has a dot or white space in it. -/
  valid : ∀ s ∈ segments, isSegment s = true
deriving DecidableEq

namespace Path

/-- The path that an expression names, `none` if it is empty or has an empty segment. -/
def parse? (expr : String) : Option Path :=
  let segments := (splitDots (withoutBlanks expr.toList)).map String.ofList
  if h : ∀ s ∈ segments, isSegment s = true then
    some ⟨segments, by simpa [segments] using splitDots_ne_nil _, h⟩
  else none

/-- The normal form: the segments joined by dots. -/
def text (p : Path) : String := ".".intercalate p.segments

/-- The name at the top. -/
def head (p : Path) : String := p.segments.head p.nonempty

/-- The segments before the last one. -/
def parents (p : Path) : List String := p.segments.dropLast

/-- The last segment. -/
def last (p : Path) : String := p.segments.getLast p.nonempty

/-- A path is the segments before its last one, and that one. -/
theorem parents_append_last (p : Path) : p.parents ++ [p.last] = p.segments :=
  List.dropLast_concat_getLast p.nonempty

end Path

end Bindery
