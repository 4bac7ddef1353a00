import Mathlib.Data.List.Infix
import Bindery.Proofs.Template.Rendering

namespace Bindery

/-!
# Where the markers of a text are

The markers are told by the text alone: from left to right, each at the first position where one can
stand after the one before, and each as short as it can be.

* `Delimiters.SpanAt` — a marker with some expression can stand at a position.
* `Delimiters.Scan` — the markers of a text from some position on; `Delimiters.Scan.unique` — there
  is one choice of them only.
* `Delimiters.scan_pieces` — cutting a text into pieces finds them.
* `Delimiters.fill` — the text with other texts in the place of its markers.
* `Delimiters.meets_scan` — looking for markers, the paths of a text and what is shown for it all go
  by these markers.
-/

section Results

variable {α β ε : Type}

/-- A mapped result is there if the result is. -/
theorem exists_map_eq_ok {f : α → β} {x : Except ε α} :
    (∃ y, x.map f = .ok y) ↔ ∃ a, x = .ok a := by
  cases x <;> simp [Except.map]

/-- A row of computations gives a row of results if each of them gives one. -/
theorem exists_mapM_eq_ok {f : α → Except ε β} {xs : List α} :
    (∃ ys, xs.mapM f = .ok ys) ↔ ∀ x ∈ xs, ∃ y, f x = .ok y := by
  induction xs with
  | nil => simp [pure, Except.pure]
  | cons x xs ih =>
    rw [List.forall_mem_cons, ← ih, List.mapM_cons]
    cases f x with
    | error e => simp [bind, Except.bind]
    | ok y => cases xs.mapM f <;> simp [bind, Except.bind, pure, Except.pure]

end Results

/-- A lead is taken off a text that begins with it. -/
theorem afterLead?_eq_some_iff {lead cs rest : List Char} :
    afterLead? lead cs = some rest ↔ cs = lead ++ rest := by
  fun_induction afterLead? lead cs with
  | case1 cs => simp
  | case2 => simp
  | case3 l lead cs ih => simp [ih]
  | case4 l lead c cs differ => simp [Ne.symm differ]

theorem afterLead?_eq_none_iff {lead cs : List Char} :
    afterLead? lead cs = none ↔ ¬ lead <+: cs := by
  rw [Option.eq_none_iff_forall_ne_some]
  constructor
  · rintro h ⟨rest, rfl⟩
    exact h rest (afterLead?_eq_some_iff.2 rfl)
  · intro h rest found
    exact h ⟨rest, (afterLead?_eq_some_iff.1 found).symm⟩

section UpToMark

variable {mark cs before rest : List Char}

/-- A mark is found where it first occurs, with no line ending before. -/
theorem upToMark?_eq_some (h : upToMark? mark cs = some (before, rest)) :
    cs = before ++ mark ++ rest ∧ '\n' ∉ before ∧
      ∀ other, '\n' ∉ other → other ++ mark <+: cs → before.length ≤ other.length := by
  fun_induction upToMark? mark cs generalizing before with
  | case1 =>
    rw [Option.map_eq_some_iff] at h
    obtain ⟨found, hfound, same⟩ := h
    cases same
    exact ⟨afterLead?_eq_some_iff.1 hfound, List.not_mem_nil, fun _ _ _ => Nat.zero_le _⟩
  | case2 c cs found hfound =>
    cases h
    exact ⟨afterLead?_eq_some_iff.1 hfound, List.not_mem_nil, fun _ _ _ => Nat.zero_le _⟩
  | case3 => cases h
  | case4 c cs hnone hline ih =>
    rw [Option.map_eq_some_iff] at h
    obtain ⟨⟨shorter, found⟩, hfound, same⟩ := h
    cases same
    obtain ⟨rfl, noLine, least⟩ := ih hfound
    refine ⟨rfl, by simp [noLine, Ne.symm hline], fun other hother starts => ?_⟩
    cases other with
    | nil => exact absurd starts (afterLead?_eq_none_iff.1 hnone)
    | cons c' other =>
      obtain ⟨-, starts⟩ := List.cons_prefix_cons.1 starts
      exact Nat.succ_le_succ (least other (mt (List.mem_cons_of_mem c') hother) starts)

/-- A mark that is not found does not occur before the next line ending. -/
theorem upToMark?_eq_none (h : upToMark? mark cs = none) (other : List Char)
    (noLine : '\n' ∉ other) : ¬ other ++ mark <+: cs := by
  fun_induction upToMark? mark cs generalizing other with
  | case1 =>
    rw [Option.map_eq_none_iff, afterLead?_eq_none_iff] at h
    intro starts
    rw [List.prefix_nil, List.append_eq_nil_iff] at starts
    rw [starts.2] at h
    exact h List.nil_prefix
  | case2 => cases h
  | case3 cs hnone =>
    intro starts
    cases other with
    | nil => exact afterLead?_eq_none_iff.1 hnone starts
    | cons c' other =>
      obtain ⟨rfl, -⟩ := List.cons_prefix_cons.1 starts
      exact noLine List.mem_cons_self
  | case4 c cs hnone hline ih =>
    rw [Option.map_eq_none_iff] at h
    intro starts
    cases other with
    | nil => exact afterLead?_eq_none_iff.1 hnone starts
    | cons c' other =>
      obtain ⟨-, starts⟩ := List.cons_prefix_cons.1 starts
      exact ih h other (mt (List.mem_cons_of_mem c') noLine) starts

end UpToMark

namespace Delimiters

variable {d : Delimiters} {text cs e e' rest : List Char} {i j start : Nat}

/-- The whole text of a marker with an expression. -/
def markerText (d : Delimiters) (e : List Char) : List Char := d.opening ++ e ++ d.closing

/-- Whether a marker with an expression, not empty and on one line, stands at the head of a text. -/
def Heads (d : Delimiters) (cs e : List Char) : Prop :=
  e ≠ [] ∧ '\n' ∉ e ∧ d.markerText e <+: cs

/-- Whether a marker with an expression stands at a position of a text. -/
def SpanAt (d : Delimiters) (text : List Char) (i : Nat) (e : List Char) : Prop :=
  d.Heads (text.drop i) e

/-- A span at a position is one at the head of what begins there. -/
theorem spanAt_iff (h : text.drop i = cs) : d.SpanAt text i e ↔ d.Heads cs e := by
  rw [SpanAt, h]

/-- The markers of a text from a position on, each with its position: the first one stands at the
least position where one can, and is the shortest one there; the others come after its end. -/
inductive Scan (d : Delimiters) (text : List Char) : Nat → List (Nat × List Char) → Prop
  | done {start : Nat} : (∀ i e, start ≤ i → ¬ d.SpanAt text i e) → Scan d text start []
  | next {start i : Nat} {e : List Char} {rest : List (Nat × List Char)} :
      start ≤ i → d.SpanAt text i e →
      (∀ j e', start ≤ j → j < i → ¬ d.SpanAt text j e') →
      (∀ e', d.SpanAt text i e' → e.length ≤ e'.length) →
      Scan d text (i + (d.markerText e).length) rest → Scan d text start ((i, e) :: rest)

/-- Expressions of one length at one place are the same. -/
theorem Heads.eq_of_length (h : d.Heads cs e) (h' : d.Heads cs e') (same : e.length = e'.length) :
    e = e' := by
  have lengths : (d.markerText e).length = (d.markerText e').length := by
    simp only [markerText, List.length_append, same]
  have equal := List.prefix_of_prefix_length_le h.2.2 h'.2.2 lengths.le |>.eq_of_length lengths
  simpa [markerText] using equal

/-- **One choice of markers.** -/
theorem Scan.unique {spans others : List (Nat × List Char)} (h : d.Scan text start spans)
    (h' : d.Scan text start others) : spans = others := by
  induction h generalizing others with
  | done none =>
    cases h' with
    | done => rfl
    | next above span => exact absurd span (none _ _ above)
  | @next start i e rest above span first least _ ih =>
    cases h' with
    | done none => exact absurd span (none _ _ above)
    | @next _ j e' _ above' span' first' least' later =>
      obtain below | rfl | beyond := Nat.lt_trichotomy i j
      · exact absurd span (first' _ _ above below)
      · cases span.eq_of_length span' (Nat.le_antisymm (least _ span') (least' _ span))
        rw [ih later]
      · exact absurd span' (first _ _ above' beyond)

/-- Where no marker stands, the search goes on at the next position. -/
theorem Scan.skip {spans : List (Nat × List Char)} (nothing : ∀ e, ¬ d.SpanAt text start e)
    (h : d.Scan text (start + 1) spans) : d.Scan text start spans := by
  have here : ∀ j e, start ≤ j → j < start + 1 → ¬ d.SpanAt text j e := by
    intro j e above below
    obtain rfl : j = start := by omega
    exact nothing e
  cases h with
  | done none =>
    refine .done fun i e above => ?_
    rcases Nat.lt_or_ge i (start + 1) with below | beyond
    · exact here i e above below
    · exact none i e beyond
  | next above span first least later =>
    refine .next (by omega) span (fun j e' habove hbelow => ?_) least later
    rcases Nat.lt_or_ge j (start + 1) with below | beyond
    · exact here j e' habove below
    · exact first j e' beyond hbelow

/-- The marker at the head of a text is the shortest one there. -/
theorem marker?_eq_some (h : d.marker? cs = some (e, rest)) :
    cs = d.markerText e ++ rest ∧ d.Heads cs e ∧ ∀ e', d.Heads cs e' → e.length ≤ e'.length := by
  unfold marker? at h
  split at h
  · cases h
  · cases h
  · next c body hbody =>
    split at h
    · cases h
    · next noLine =>
      rw [Option.map_eq_some_iff] at h
      obtain ⟨⟨before, found⟩, hfound, same⟩ := h
      cases same
      obtain ⟨rfl, hbefore, least⟩ := upToMark?_eq_some hfound
      have whole : cs = d.markerText (c :: before) ++ rest := by
        rw [afterLead?_eq_some_iff.1 hbody]
        simp [markerText]
      refine ⟨whole, ⟨List.cons_ne_nil _ _, by simp [hbefore, Ne.symm noLine], rest, whole.symm⟩,
        fun e' ⟨filled, noLine', starts⟩ => ?_⟩
      obtain ⟨c', e', rfl⟩ := List.exists_cons_of_ne_nil filled
      rw [afterLead?_eq_some_iff.1 hbody, markerText, List.append_assoc,
        List.prefix_append_right_inj, List.cons_append, List.cons_prefix_cons] at starts
      exact Nat.succ_le_succ (least e' (mt (List.mem_cons_of_mem c') noLine') starts.2)

/-- Where no marker is found, none stands. -/
theorem marker?_eq_none (h : d.marker? cs = none) (e : List Char) : ¬ d.Heads cs e := by
  rintro ⟨filled, noLine, starts⟩
  obtain ⟨c, e, rfl⟩ := List.exists_cons_of_ne_nil filled
  obtain ⟨rest, hrest⟩ := starts
  have opened : afterLead? d.opening cs = some (c :: (e ++ d.closing ++ rest)) := by
    rw [afterLead?_eq_some_iff, ← hrest]
    simp [markerText]
  obtain ⟨hc, he⟩ : '\n' ≠ c ∧ '\n' ∉ e := by simpa using noLine
  simp only [marker?, opened, Ne.symm hc, if_false, Option.map_eq_none_iff] at h
  exact upToMark?_eq_none h e he ⟨rest, rfl⟩

/-- The markers among pieces of a text, each with its position. -/
def positions (d : Delimiters) : Nat → List Piece → List (Nat × List Char)
  | _, [] => []
  | i, .char _ :: rest => positions d (i + 1) rest
  | i, .marker e :: rest => (i, e) :: positions d (i + (d.markerText e).length) rest

/-- **Cutting a text finds its markers.** -/
theorem scan_pieces (h : text.drop i = cs) : d.Scan text i (d.positions i (d.pieces cs)) := by
  fun_induction d.pieces cs generalizing i with
  | case1 =>
    refine .done fun j e above => ?_
    rintro ⟨filled, -, starts⟩
    have nothing : text.drop j = [] := by
      rw [List.drop_eq_nil_iff] at h ⊢
      omega
    rw [nothing, List.prefix_nil] at starts
    simp [markerText, filled] at starts
  | case2 c cs e rest hmarker ih =>
    obtain ⟨whole, heads, least⟩ := marker?_eq_some hmarker
    refine .next (Nat.le_refl i) ((spanAt_iff h).2 heads) (fun j _ above below => by omega)
      (fun e' span => least e' ((spanAt_iff h).1 span)) (ih ?_)
    rw [← List.drop_drop, h, whole, List.drop_left]
  | case3 c cs hmarker ih =>
    refine .skip (fun e span => marker?_eq_none hmarker e ((spanAt_iff h).1 span)) (ih ?_)
    rw [← List.drop_drop, h, List.drop_one, List.tail_cons]

/-- The expressions of pieces are those of their spans, in order. -/
theorem expressionsOf_eq (pieces : List Piece) (i : Nat) :
    expressionsOf pieces = (d.positions i pieces).map fun span => String.ofList span.2 := by
  induction pieces generalizing i with
  | nil => rfl
  | cons piece rest ih =>
    cases piece with
    | char c => exact ih (i + 1)
    | marker e => exact congrArg (String.ofList e :: ·) (ih _)

/-- The spans of later pieces begin later. -/
theorem le_of_mem_positions {pieces : List Piece} {span : Nat × List Char}
    (h : span ∈ d.positions i pieces) : i ≤ span.1 := by
  induction pieces generalizing i with
  | nil => cases h
  | cons piece rest ih =>
    cases piece with
    | char c => exact Nat.le_of_succ_le (ih h)
    | marker e =>
      rcases List.mem_cons.1 h with rfl | later
      · exact Nat.le_refl i
      · exact (Nat.le_add_right _ _).trans (ih later)

/-- The text from a position on with other texts in the place of its markers. -/
def fill (d : Delimiters) (text : List Char) : Nat → List ((Nat × List Char) × String) → List Char
  | start, [] => text.drop start
  | start, ((i, e), shown) :: rest =>
    (text.drop start).take (i - start) ++ shown.toList ++
      fill d text (i + (d.markerText e).length) rest

/-- A character before the first marker stays. -/
theorem fill_skip {c : Char} (h : text.drop start = c :: cs)
    {filled : List ((Nat × List Char) × String)} (after : ∀ entry ∈ filled, start < entry.1.1) :
    d.fill text start filled = c :: d.fill text (start + 1) filled := by
  have later : text.drop (start + 1) = cs := by
    rw [← List.drop_drop, h, List.drop_one, List.tail_cons]
  cases filled with
  | nil => rw [fill, fill, h, later]
  | cons entry rest =>
    obtain ⟨⟨i, e⟩, shown⟩ := entry
    obtain ⟨between, rfl⟩ := Nat.exists_eq_add_of_lt (after _ List.mem_cons_self)
    rw [fill, fill, h, later, show start + between + 1 - start = between + 1 by omega,
      show start + between + 1 - (start + 1) = between by omega, List.take_succ_cons]
    rfl

end Delimiters

/-- What a store shows for an expression, or the fault of its path or of reading it. -/
def Store.shownMarker (s : Store) (expr : String) : Except Fault String :=
  (Path.parsed expr).bind s.shownPath

/-- A marker is shown if its expression is a path that leads somewhere. -/
theorem Store.exists_shownMarker {s : Store} {expr : String} :
    (∃ shown, s.shownMarker expr = .ok shown) ↔
      ∃ path seen, Path.parse? expr = some path ∧ (s.read path).result = .ok seen := by
  rw [shownMarker, Path.parsed]
  cases Path.parse? expr with
  | none => simp [Except.bind]
  | some path => simp [Except.bind, shownPath, exists_map_eq_ok]

namespace Delimiters

variable {d : Delimiters} {text cs : List Char} {i : Nat} {s : Store}

/-- Rendering puts what is shown for the markers in their place. -/
theorem renderPieces_eq_fill (h : text.drop i = cs) :
    renderPieces s (d.pieces cs) =
      ((d.positions i (d.pieces cs)).mapM fun span => s.shownMarker (String.ofList span.2)).map
        fun shown => d.fill text i ((d.positions i (d.pieces cs)).zip shown) := by
  fun_induction d.pieces cs generalizing i with
  | case1 =>
    rw [renderPieces, positions, List.mapM_nil]
    exact congrArg Except.ok h.symm
  | case2 c cs e rest hmarker ih =>
    obtain ⟨whole, -, -⟩ := marker?_eq_some hmarker
    have later : text.drop (i + (d.markerText e).length) = rest := by
      rw [← List.drop_drop, h, whole, List.drop_left]
    rw [positions, List.mapM_cons]
    cases hparse : Path.parse? (String.ofList e) with
    | none =>
      simp only [renderPieces, Store.shownMarker, Path.parsed_of_none hparse, hparse]
      rfl
    | some path =>
      rw [renderPieces_eq s _ path hparse, ih later, Store.shownMarker,
        Path.parsed_of_parse hparse, Except.bind]
      cases s.shownPath path with
      | error fault => rfl
      | ok shown =>
        cases (d.positions (i + (d.markerText e).length) (d.pieces rest)).mapM fun span =>
            s.shownMarker (String.ofList span.2) with
        | error fault => rfl
        | ok others =>
          refine congrArg Except.ok ?_
          simp only [List.zip_cons_cons, fill, Nat.sub_self, List.take_zero, List.nil_append]
  | case3 c cs hmarker ih =>
    have later : text.drop (i + 1) = cs := by
      rw [← List.drop_drop, h, List.drop_one, List.tail_cons]
    rw [renderPieces, positions, ih later]
    cases (d.positions (i + 1) (d.pieces cs)).mapM
      fun span => s.shownMarker (String.ofList span.2) with
    | error fault => rfl
    | ok shown =>
      refine congrArg Except.ok (fill_skip h fun entry hentry => ?_).symm
      exact le_of_mem_positions (List.of_mem_zip hentry).1

/-- The paths of expressions are kept where they first appear. -/
theorem distinctPaths_eq (exprs : List String) (found : List Path) :
    distinctPaths exprs found =
      (exprs.mapM Path.parsed).map fun paths => found ++ (paths.removeAll found).eraseDups := by
  induction exprs generalizing found with
  | nil =>
    rw [distinctPaths, List.mapM_nil]
    simp [Except.map, pure, Except.pure, List.removeAll]
  | cons expr rest ih =>
    rw [distinctPaths, List.mapM_cons]
    cases hparse : Path.parse? expr with
    | none =>
      simp only [Path.parsed_of_none hparse]
      rfl
    | some path =>
      simp only [Path.parsed_of_parse hparse, ih]
      cases rest.mapM Path.parsed with
      | error fault => rfl
      | ok paths =>
        refine congrArg Except.ok ?_
        by_cases known : path ∈ found
        · simp [List.cons_removeAll, known]
        · have later : paths.removeAll (found ++ [path]) =
              (paths.removeAll found).filter fun other => !other == path := by
            rw [List.removeAll, List.removeAll, List.filter_filter]
            refine List.filter_congr fun other _ => ?_
            simp [Bool.and_comm, Bool.beq_eq_decide_eq]
          simp [List.cons_removeAll, known, List.eraseDups_cons, later]

/-- **One specification for markers.**  A text has exactly one row of markers from left to right,
each the first one after the one before and the shortest one there.  A text has markers if the row
is not empty; its paths are those of the row without repetitions in order of first appearance, or
the first expression that is no path; it is shown exactly if all markers name something, and then
with what is shown for each in its place and everything else as it was. -/
theorem meets_scan (d : Delimiters) (text : String) (s : Store) :
    ∃ spans, d.Scan text.toList 0 spans ∧
      (∀ others, d.Scan text.toList 0 others → others = spans) ∧
      (d.hasMarkers text = true ↔ spans ≠ []) ∧
      d.paths text =
        (spans.mapM fun span => Path.parsed (String.ofList span.2)).map List.eraseDups ∧
      ((∃ shown, d.render text s = .ok shown) ↔ ∀ span ∈ spans, ∃ path seen,
        Path.parse? (String.ofList span.2) = some path ∧ (s.read path).result = .ok seen) ∧
      d.render text s =
        (spans.mapM fun span => s.shownMarker (String.ofList span.2)).map fun shown =>
          String.ofList (d.fill text.toList 0 (spans.zip shown)) := by
  have found : d.Scan text.toList 0 (d.positions 0 (d.pieces text.toList)) := scan_pieces rfl
  have exprs : d.expressions text =
      (d.positions 0 (d.pieces text.toList)).map fun span => String.ofList span.2 :=
    expressionsOf_eq _ 0
  have rendered : d.render text s =
      ((d.positions 0 (d.pieces text.toList)).mapM fun span =>
        s.shownMarker (String.ofList span.2)).map fun shown => String.ofList
          (d.fill text.toList 0 ((d.positions 0 (d.pieces text.toList)).zip shown)) := by
    rw [render, renderPieces_eq_fill (List.drop_zero (l := text.toList))]
    cases (d.positions 0 (d.pieces text.toList)).mapM fun span =>
      s.shownMarker (String.ofList span.2) <;> rfl
  refine ⟨_, found, fun others h => h.unique found, ?_, ?_, ?_, rendered⟩
  · rw [hasMarkers, exprs]
    simp
  · rw [paths, exprs, distinctPaths_eq, List.mapM_map]
    simp [List.removeAll, Function.comp_def]
  · simp only [rendered, exists_map_eq_ok, exists_mapM_eq_ok, Store.exists_shownMarker]

/-- The usual marks. -/
def braces : Delimiters := ⟨"\x7b\x7b".toList, "\x7d\x7d".toList⟩

/-- An opening mark that is not closed on its line is text, and two spellings of a path are one. -/
theorem meets_scan_twoLines :
    let text := "\x7b\x7b\n\x7b\x7b n \x7d\x7d+\x7b\x7bn\x7d\x7d"
    let store := Store.ofJson (.object [("n", .integer 1)])
    braces.Scan text.toList 0 [(3, " n ".toList), (11, "n".toList)] ∧
      braces.paths text = .ok [⟨["n"], by decide, by decide⟩] ∧
      braces.render text store = .ok "\x7b\x7b\n1+1" := by
  intro text store
  obtain ⟨spans, scan, unique, -, paths, -, rendered⟩ := meets_scan braces text store
  have found : spans = [(3, " n ".toList), (11, "n".toList)] := by
    rw [← unique _ (scan_pieces (i := 0) rfl)]
    decide +kernel
  rw [found] at scan paths rendered
  refine ⟨scan, paths.trans ?_, rendered.trans ?_⟩ <;> decide +kernel

end Delimiters

end Bindery
