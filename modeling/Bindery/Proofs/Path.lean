import Bindery.Fault
import Bindery.Path

namespace Bindery

/-!
# Normal forms of paths

The normal form of a path is the expression without white space, so an expression is a path exactly
if that is a row of segments joined by dots, and two expressions are the same path if they differ in
white space only.

* `splitDots_intercalate`, `intercalate_splitDots` — pieces without dots, joined by dots, are cut
  apart again; the pieces of a text, joined by dots, are the text.
* `unspaced`, `Dotted` — an expression without its white space, and segments joined by dots.
* `Path.parse?_text` — the normal form of a path names the path.
* `Path.parse?_eq_some_iff` — an expression names the path whose normal form it is without its white
  space.
* `Path.exists_parse?_iff` — the expressions that name a path.
* `Path.parsed` — the path, or the fault of an expression that names none.
-/

/-- A piece without dots ends at the first dot. -/
theorem splitDots_append_dot {piece : List Char} (h : '.' ∉ piece) (rest : List Char) :
    splitDots (piece ++ '.' :: rest) = piece :: splitDots rest := by
  induction piece with
  | nil => simp
  | cons c cs ih =>
    rw [List.mem_cons, not_or] at h
    rw [List.cons_append, splitDots, if_neg (Ne.symm h.1), ih h.2]

/-- Without a dot there is one piece. -/
theorem splitDots_of_notMem {piece : List Char} (h : '.' ∉ piece) : splitDots piece = [piece] := by
  induction piece with
  | nil => rfl
  | cons c cs ih =>
    rw [List.mem_cons, not_or] at h
    rw [splitDots, if_neg (Ne.symm h.1), ih h.2]

/-- Pieces that are joined by dots are cut apart again. -/
theorem splitDots_intercalate {pieces : List (List Char)} (nonempty : pieces ≠ [])
    (h : ∀ piece ∈ pieces, '.' ∉ piece) : splitDots (['.'].intercalate pieces) = pieces := by
  induction pieces with
  | nil => exact absurd rfl nonempty
  | cons piece rest ih =>
    rw [List.forall_mem_cons] at h
    cases rest with
    | nil => simpa using splitDots_of_notMem h.1
    | cons next rest =>
      rw [List.intercalate_cons_cons, List.append_assoc, List.singleton_append,
        splitDots_append_dot h.1, ih (by simp) h.2]

/-- The pieces of a text, joined by dots, are the text. -/
theorem intercalate_splitDots (cs : List Char) : ['.'].intercalate (splitDots cs) = cs := by
  induction cs with
  | nil => rfl
  | cons c rest ih =>
    obtain ⟨piece, pieces, hpieces⟩ := List.exists_cons_of_ne_nil (splitDots_ne_nil rest)
    by_cases dot : c = '.'
    · subst dot
      rw [splitDots_dot, hpieces, List.intercalate_cons_cons, ← hpieces, ih]
      rfl
    · have first : splitDots (c :: rest) = (c :: piece) :: pieces := by
        rw [splitDots, if_neg dot, hpieces]
      rw [hpieces] at ih
      rw [first]
      -- the first piece has one character more, whatever comes after it
      cases pieces with
      | nil => simpa using ih
      | cons next others =>
        rw [List.intercalate_cons_cons] at ih ⊢
        rw [List.cons_append, List.cons_append, ih]

/-- What is in a piece is in the joined text. -/
theorem mem_intercalate_of_mem {pieces : List (List Char)} {piece : List Char}
    (h : piece ∈ pieces) {c : Char} (hc : c ∈ piece) : c ∈ ['.'].intercalate pieces := by
  induction pieces with
  | nil => cases h
  | cons first rest ih =>
    cases rest with
    | nil =>
      rw [List.mem_singleton] at h
      simpa [h] using hc
    | cons next others =>
      rw [List.intercalate_cons_cons, List.append_assoc, List.mem_append, List.mem_append]
      rcases List.mem_cons.1 h with rfl | h
      · exact .inl hc
      · exact .inr (.inr (ih h))

/-- Dots between pieces without white space bring none in. -/
theorem withoutBlanks_intercalate {pieces : List (List Char)}
    (h : ∀ piece ∈ pieces, withoutBlanks piece = piece) :
    withoutBlanks (['.'].intercalate pieces) = ['.'].intercalate pieces := by
  induction pieces with
  | nil => rfl
  | cons piece rest ih =>
    rw [List.forall_mem_cons] at h
    cases rest with
    | nil => simpa using h.1
    | cons next rest =>
      rw [List.intercalate_cons_cons, withoutBlanks_append, withoutBlanks_append, h.1, ih h.2]
      rfl

/-- An expression without its white space. -/
def unspaced (expr : String) : String := String.ofList (withoutBlanks expr.toList)

@[simp] theorem toList_unspaced (expr : String) :
    (unspaced expr).toList = withoutBlanks expr.toList := String.toList_ofList

/-- A text is some segments joined by single dots: at least one, and none is empty or has a dot in
it. -/
structure Dotted (segments : List String) (text : String) : Prop where
  nonempty : segments ≠ []
  proper : ∀ segment ∈ segments, segment ≠ "" ∧ '.' ∉ segment.toList
  joined : ".".intercalate segments = text

/-- Joining strings by dots is joining their characters by dots. -/
theorem toList_intercalate_dot (segments : List String) :
    (".".intercalate segments).toList = ['.'].intercalate (segments.map String.toList) := by
  rw [String.toList_intercalate]
  rfl

namespace Dotted

variable {segments others : List String} {text : String}

/-- The segments are the pieces between the dots. -/
theorem splitDots_eq (h : Dotted segments text) :
    splitDots text.toList = segments.map String.toList := by
  rw [← h.joined, toList_intercalate_dot]
  apply splitDots_intercalate
  · simpa using h.nonempty
  · intro piece hpiece
    obtain ⟨segment, hsegment, rfl⟩ := List.mem_map.1 hpiece
    exact (h.proper segment hsegment).2

/-- There is only one way to cut a text into segments. -/
theorem unique (h : Dotted segments text) (h' : Dotted others text) : segments = others := by
  have same : segments.map String.toList = others.map String.toList := by
    rw [← h.splitDots_eq, h'.splitDots_eq]
  exact (List.map_inj_right fun _ _ => String.toList_inj.1).1 same

end Dotted

namespace Path

/-- No character of a segment is a dot or white space. -/
theorem mem_segments {p : Path} {segment : String} (h : segment ∈ p.segments) {c : Char}
    (hc : c ∈ segment.toList) : c ≠ '.' ∧ isBlank c = false := by
  have valid := p.valid segment h
  simp only [isSegment, Bool.and_eq_true, List.all_eq_true] at valid
  simpa using valid.2 c hc

/-- The normal form of a path names the path. -/
@[simp] theorem parse?_text (p : Path) : parse? p.text = some p := by
  have htext : p.text.toList = ['.'].intercalate (p.segments.map String.toList) :=
    toList_intercalate_dot p.segments
  -- neither step of parsing changes anything: there is no white space, and the dots are between
  -- the segments only
  have hblank : withoutBlanks p.text.toList = p.text.toList := by
    rw [htext, withoutBlanks_intercalate]
    intro piece hpiece
    obtain ⟨segment, hsegment, rfl⟩ := List.mem_map.1 hpiece
    exact List.filter_eq_self.2 fun c hc => by simp [(mem_segments hsegment hc).2]
  have hsegments : (splitDots (withoutBlanks p.text.toList)).map String.ofList = p.segments := by
    rw [hblank, htext, splitDots_intercalate (by simpa using p.nonempty), List.map_map]
    · simp [Function.comp_def]
    · intro piece hpiece
      obtain ⟨segment, hsegment, rfl⟩ := List.mem_map.1 hpiece
      exact fun hdot => (mem_segments hsegment hdot).1 rfl
  obtain ⟨segments, nonempty, valid⟩ := p
  simp only at hsegments
  simp only [parse?, hsegments]
  rw [dif_pos valid]

variable {expr : String} {p q : Path}

/-- Only one path has a normal form. -/
theorem text_injective (h : p.text = q.text) : p = q := by
  have same : parse? p.text = parse? q.text := congrArg parse? h
  rw [parse?_text, parse?_text] at same
  exact Option.some.inj same

/-- The segments of a path are its normal form cut at the dots. -/
theorem dotted (p : Path) : Dotted p.segments p.text where
  nonempty := p.nonempty
  proper := by
    intro segment hsegment
    constructor
    · rintro rfl
      have := p.valid "" hsegment
      simp [isSegment] at this
    · intro hdot
      exact (mem_segments hsegment hdot).1 rfl
  joined := rfl

/-- White space in an expression does not matter. -/
@[simp] theorem parse?_unspaced (expr : String) : parse? (unspaced expr) = parse? expr := by
  simp only [parse?, toList_unspaced, withoutBlanks_idem]

/-- **The normal form.** An expression names the path whose normal form it is without its white
space. -/
theorem parse?_eq_some_iff : parse? expr = some p ↔ p.text = unspaced expr := by
  constructor
  · intro h
    simp only [parse?] at h
    split at h
    · cases h
      show ".".intercalate ((splitDots (withoutBlanks expr.toList)).map String.ofList) = _
      rw [← String.toList_inj, toList_intercalate_dot, List.map_map, toList_unspaced]
      have same : String.toList ∘ String.ofList = id := funext fun _ => String.toList_ofList
      rw [same, List.map_id, intercalate_splitDots]
    · cases h
  · intro h
    rw [← parse?_unspaced, ← h, parse?_text]

/-- Segments that spell an expression without its white space are those of a path: where there is no
white space in the whole, there is none in a segment. -/
theorem exists_of_dotted {segments : List String} (h : Dotted segments (unspaced expr)) :
    ∃ p : Path, p.segments = segments ∧ parse? expr = some p := by
  have valid : ∀ segment ∈ segments, isSegment segment = true := by
    intro segment hsegment
    obtain ⟨nonempty, undotted⟩ := h.proper segment hsegment
    rw [isSegment, Bool.and_eq_true, List.all_eq_true]
    constructor
    · simpa using nonempty
    · intro c hc
      have inside : c ∈ (unspaced expr).toList := by
        rw [← h.joined, toList_intercalate_dot]
        exact mem_intercalate_of_mem (List.mem_map_of_mem hsegment) hc
      rw [toList_unspaced, withoutBlanks, List.mem_filter] at inside
      have dot : c ≠ '.' := by
        rintro rfl
        exact undotted hc
      simpa [dot] using inside.2
  exact ⟨⟨segments, h.nonempty, valid⟩, rfl, parse?_eq_some_iff.2 h.joined⟩

/-- **The expressions that name a path** are segments joined by dots, white space aside. -/
theorem exists_parse?_iff :
    (∃ p, parse? expr = some p) ↔ ∃ segments, Dotted segments (unspaced expr) := by
  constructor
  · rintro ⟨p, h⟩
    rw [← parse?_eq_some_iff.1 h]
    exact ⟨p.segments, p.dotted⟩
  · rintro ⟨segments, h⟩
    obtain ⟨p, -, hparse⟩ := exists_of_dotted h
    exact ⟨p, hparse⟩

/-- The path of an expression, or the fault of an expression that has none. -/
def parsed (expr : String) : Except Fault Path :=
  (parse? expr).elim (.error (.invalidExpression expr)) .ok

/-- What is parsed is what the parser gives, if it gives something. -/
theorem parsed_of_parse (h : parse? expr = some p) : parsed expr = .ok p := by
  rw [parsed, h]
  rfl

/-- Otherwise the fault names the expression. -/
theorem parsed_of_none (h : parse? expr = none) :
    parsed expr = .error (.invalidExpression expr) := by
  rw [parsed, h]
  rfl

/-- An expression is accepted with a path if the parser gives this path. -/
theorem parsed_eq_ok_iff : parsed expr = .ok p ↔ parse? expr = some p := by
  cases h : parse? expr with
  | none => simp [parsed_of_none h]
  | some q => simp [parsed_of_parse h]

end Path

end Bindery
