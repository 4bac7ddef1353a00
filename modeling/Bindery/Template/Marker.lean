import Bindery.Store.Basic
import Bindery.Template.Directive
import Bindery.Template.Settings

namespace Bindery

/-!
# Markers in text

A marker is an expression between two marks, on one line.  Markers are found from left to right, and
each ends at the first closing mark that leaves its expression non-empty.

* `Delimiters` — the two marks; `Delimiters.marker?` — the marker at the head of a text.
* `Delimiters.pieces` — a text cut into its markers and the characters between them.
* `Delimiters.paths`, `Delimiters.render` — the paths that a text mentions, and the text with their
  values in place of the markers.
-/

/-- The marks around an expression. -/
structure Delimiters where
  opening : List Char
  closing : List Char
deriving DecidableEq

/-- The marks of some settings. -/
def Settings.delimiters (s : Settings) : Delimiters := ⟨s.opening.toList, s.closing.toList⟩

/-- A character of a text, or a marker in it. -/
inductive Piece where
  | char (c : Char)
  | marker (expression : List Char)
deriving DecidableEq

/-- The characters up to the first occurrence of a mark on the line, and what follows the mark. -/
def upToMark? (mark : List Char) : List Char → Option (List Char × List Char)
  | [] => (afterLead? mark []).map fun rest => ([], rest)
  | c :: cs =>
    match afterLead? mark (c :: cs) with
    | some rest => some ([], rest)
    | none =>
      if c = '\n' then none
      else (upToMark? mark cs).map fun (before, rest) => (c :: before, rest)

/-- Taking off a lead leaves no more than there was. -/
theorem afterLead?_length {lead cs rest : List Char} (h : afterLead? lead cs = some rest) :
    rest.length ≤ cs.length := by
  fun_induction afterLead? lead cs with
  | case1 cs => simp at h; simp [h]
  | case2 => simp at h
  | case3 l lead cs ih => have := ih h; simp; omega
  | case4 => simp at h

theorem upToMark?_length {mark cs before rest : List Char}
    (h : upToMark? mark cs = some (before, rest)) : rest.length ≤ cs.length := by
  fun_induction upToMark? mark cs generalizing before with
  | case1 =>
    cases ha : afterLead? mark [] with
    | none => simp [ha] at h
    | some r => simp [ha] at h; have := afterLead?_length ha; rw [← h.2]; exact this
  | case2 c cs r ha =>
    have := afterLead?_length ha
    simp at h; rw [← h.2]; exact this
  | case3 => simp at h
  | case4 c cs _ _ ih =>
    cases hu : upToMark? mark cs with
    | none => simp [hu] at h
    | some found =>
      obtain ⟨b, r⟩ := found
      simp only [hu, Option.map_some, Option.some.injEq, Prod.mk.injEq] at h
      have := @ih b (by rw [hu, h.2])
      simp; omega

namespace Delimiters

/-- The marker at the head of a text: its expression, of at least one character, and the rest. -/
def marker? (d : Delimiters) (cs : List Char) : Option (List Char × List Char) :=
  match afterLead? d.opening cs with
  | none => none
  | some [] => none
  | some (c :: cs) =>
    if c = '\n' then none
    else (upToMark? d.closing cs).map fun (before, rest) => (c :: before, rest)

/-- A marker takes something, so the scan comes to an end. -/
theorem marker?_length {d : Delimiters} {cs expression rest : List Char}
    (h : d.marker? cs = some (expression, rest)) : rest.length < cs.length := by
  unfold marker? at h
  split at h
  · simp at h
  · simp at h
  · next c body hb =>
    have h1 := afterLead?_length hb
    split at h
    · simp at h
    · cases hu : upToMark? d.closing body with
      | none => simp [hu] at h
      | some found =>
        obtain ⟨b, r⟩ := found
        have h2 := upToMark?_length hu
        simp only [hu, Option.map_some, Option.some.injEq, Prod.mk.injEq] at h
        rw [← h.2]
        simp at h1; omega

/-- The text cut into markers and single characters. -/
def pieces (d : Delimiters) : List Char → List Piece
  | [] => []
  | c :: cs =>
    match _h : d.marker? (c :: cs) with
    | some (expression, rest) => .marker expression :: pieces d rest
    | none => .char c :: pieces d cs
termination_by cs => cs.length
decreasing_by
  · exact marker?_length _h
  · simp

/-- The expressions of the markers of a text, in order. -/
def expressions (d : Delimiters) (text : String) : List String :=
  (d.pieces text.toList).filterMap fun
    | .char _ => none
    | .marker expression => some (String.ofList expression)

/-- Whether a text has a marker in it. -/
def hasMarkers (d : Delimiters) (text : String) : Bool := !(d.expressions text).isEmpty

/-- The paths of some expressions without repetitions, after those already found. -/
def distinctPaths : List String → List Path → Except Fault (List Path)
  | [], found => .ok found
  | expr :: rest, found =>
    match Path.parse? expr with
    | none => .error (.invalidExpression expr)
    | some path => distinctPaths rest (if path ∈ found then found else found ++ [path])

/-- The different paths that a text mentions, in order of first appearance. -/
def paths (d : Delimiters) (text : String) : Except Fault (List Path) :=
  distinctPaths (d.expressions text) []

/-- The pieces put together again, each marker replaced by the text of what it names now. -/
def renderPieces (store : Store) : List Piece → Except Fault (List Char)
  | [] => .ok []
  | .char c :: rest => (renderPieces store rest).map (c :: ·)
  | .marker expression :: rest =>
    match Path.parse? (String.ofList expression) with
    | none => .error (.invalidExpression (String.ofList expression))
    | some path =>
      match (store.read path).result with
      | .error fault => .error fault
      | .ok seen => (renderPieces store rest).map ((store.render seen).toList ++ ·)

/-- The text with its markers replaced by the texts of what they name. -/
def render (d : Delimiters) (text : String) (store : Store) : Except Fault String :=
  (renderPieces store (d.pieces text.toList)).map String.ofList

end Delimiters

end Bindery
