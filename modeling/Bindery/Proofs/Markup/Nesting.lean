import Bindery.Proofs.Markup.RoundTrip

namespace Bindery

/-!
# Well-nested markup

Which texts are read, and what is said of the others.  Only the tags matter that open or close an
element; the reader keeps the open ones on a stack, and a grammar says the same without one.

* `Lexer.Cut.flatMap_source` — the tokens of a text make up the text.
* `Bracket`, `Token.brackets` — what a token opens or closes.
* `Bracket.Balanced` — well-nested tags; `Bracket.Leaves` — tags of which some are still open.
* `Bracket.run_eq_some_iff` — a stack holds the tags that are still open.
* `Refuses` — the first closing tag that closes nothing, or an element that nothing closes.
* `readMarkup_iff` — so a text is read if its tags are well nested, and refused otherwise.
-/

/-! ### Tokens in their text -/

namespace Lexer

variable {cs : List Char} {lexemes : List Lexeme}

/-- **The tokens of a text make up the text**, and none of them is empty. -/
theorem Cut.flatMap_source (h : Cut cs lexemes) :
    lexemes.flatMap Lexeme.source = cs ∧ ∀ lexeme ∈ lexemes, lexeme.source ≠ [] := by
  induction h with
  | nil => simp
  | @cons token source rest lexemes head later ih =>
    obtain ⟨whole, nonempty⟩ := ih
    refine ⟨by rw [List.flatMap_cons, whole], List.forall_mem_cons.2 ⟨fun empty => ?_, nonempty⟩⟩
    cases (show source = [] from empty)
    exact Nat.lt_irrefl rest.length head.length_lt

/-- The characters of a closing tag are those of a closing tag. -/
theorem Cut.source_of_closing {tag source : List Char} (h : Cut cs lexemes)
    (found : ⟨.closing tag, source⟩ ∈ lexemes) :
    ∃ gap, gap.all isGap = true ∧ source = "</".toList ++ tag ++ gap ++ ['>'] := by
  induction h with
  | nil => contradiction
  | @cons token source' rest lexemes head later ih =>
    obtain first | inside := List.mem_cons.1 found
    · cases first
      generalize hcs : source ++ rest = whole at head
      cases head with
      | markup stands =>
        cases stands with
        | @closing _ gap _ grammar blank =>
          have joined : source ++ rest = ("</".toList ++ tag ++ gap ++ ['>']) ++ rest := by
            rw [hcs]
            simp
          exact ⟨gap, blank, List.append_cancel_right joined⟩
    · exact ih inside

end Lexer

/-! ### Brackets -/

/-- A tag that opens an element or closes one. -/
inductive Bracket where
  | opens (tag : String)
  | closes (tag : String)
deriving DecidableEq

/-- What a token opens or closes, its tag in lower case.  Void elements and tags closed at once open
nothing, and closing tags of void elements close nothing. -/
def Token.brackets : Token → List Bracket
  | .opening tag _ closed =>
    if closed || isVoid (lowerTag (String.ofList tag)) then []
    else [.opens (lowerTag (String.ofList tag))]
  | .closing tag =>
    if isVoid (lowerTag (String.ofList tag)) then [] else [.closes (lowerTag (String.ofList tag))]
  | .comment _ => []
  | .text _ => []

/-- What the tokens of a text open and close, in order. -/
def brackets (lexemes : List Lexeme) : List Bracket := lexemes.flatMap (·.token.brackets)

namespace Bracket

/-- Well-nested tags: elements side by side, each closed by a tag of its own after what is in it. -/
inductive Balanced : List Bracket → Prop
  | nil : Balanced []
  | element {tag : String} {inside after : List Bracket} (inner : Balanced inside)
      (rest : Balanced after) : Balanced (.opens tag :: (inside ++ .closes tag :: after))

/-- Tags that leave elements open, the innermost first: what stands between is well nested. -/
inductive Leaves : List String → List Bracket → Prop
  | nothing {bs : List Bracket} (balanced : Balanced bs) : Leaves [] bs
  | inside {tag : String} {outer : List String} {before after : List Bracket}
      (upper : Leaves outer before) (inner : Balanced after) :
      Leaves (tag :: outer) (before ++ .opens tag :: after)

variable {b : Bracket} {bs cs : List Bracket} {stack : List String}

/-- The open elements after a tag, if it closes the innermost one or opens another. -/
def step : Bracket → List String → Option (List String)
  | opens tag, stack => some (tag :: stack)
  | closes _, [] => none
  | closes tag, inner :: outer => if inner = tag then some outer else none

/-- The open elements after some tags. -/
def run (bs : List Bracket) (stack : List String) : Option (List String) :=
  bs.foldlM (fun stack b => b.step stack) stack

theorem run_append (bs cs : List Bracket) (stack : List String) :
    run (bs ++ cs) stack = (run bs stack).bind (run cs) := List.foldlM_append

theorem run_cons (b : Bracket) (bs : List Bracket) (stack : List String) :
    run (b :: bs) stack = (b.step stack).bind (run bs) := List.foldlM_cons

/-- Well-nested tags side by side are well nested. -/
theorem Balanced.append (h : Balanced bs) (h' : Balanced cs) : Balanced (bs ++ cs) := by
  induction h with
  | nil => exact h'
  | element inner _ _ ih =>
    rw [List.cons_append, List.append_assoc, List.cons_append]
    exact .element inner ih

/-- Well-nested tags behind others leave open what those leave open. -/
theorem Leaves.append (h : Leaves stack bs) (h' : Balanced cs) : Leaves stack (bs ++ cs) := by
  cases h with
  | nothing balanced => exact .nothing (balanced.append h')
  | inside upper inner =>
    rw [List.append_assoc, List.cons_append]
    exact .inside upper (inner.append h')

/-- What is well nested leaves the stack as it was. -/
theorem Balanced.run (h : Balanced bs) (stack : List String) :
    Bracket.run bs stack = some stack := by
  induction h generalizing stack with
  | nil => rfl
  | element _ _ inner rest => simp [run_cons, run_append, step, inner, rest]

/-- The stack after some tags holds the elements that they leave open. -/
theorem Leaves.run (h : Leaves stack bs) : Bracket.run bs [] = some stack := by
  induction h with
  | nothing balanced => exact balanced.run []
  | inside _ inner ih => simp [run_cons, run_append, step, ih, inner.run]

/-- A tag that can be taken closes the innermost element, or opens another. -/
theorem Leaves.step {next : List String} (h : Leaves stack bs) (taken : b.step stack = some next) :
    Leaves next (bs ++ [b]) := by
  cases b with
  | opens tag =>
    cases taken
    exact .inside h .nil
  | closes tag =>
    cases h with
    | nothing _ => contradiction
    | inside upper inner =>
      rw [Bracket.step] at taken
      split at taken
      · next same =>
        cases taken
        cases same
        rw [List.append_assoc]
        exact upper.append (.element inner .nil)
      · contradiction

/-- **The stack holds what is still open.** -/
theorem run_eq_some_iff : run bs [] = some stack ↔ Leaves stack bs := by
  refine ⟨fun taken => ?_, Leaves.run⟩
  -- the tags before are well nested already, apart from those on the stack
  have follow : ∀ (bs before : List Bracket) (start : List String), Leaves start before →
      run bs start = some stack → Leaves stack (before ++ bs) := by
    intro bs
    induction bs with
    | nil =>
      intro before start h taken
      cases taken
      rwa [List.append_nil]
    | cons b bs ih =>
      intro before start h taken
      rw [run_cons] at taken
      obtain ⟨next, hstep, taken⟩ := Option.bind_eq_some_iff.1 taken
      have later := ih _ next (h.step hstep) taken
      rwa [List.append_assoc] at later
  exact follow bs [] [] (.nothing .nil) taken

/-- Tags that leave nothing open are well nested. -/
theorem leaves_nil_iff : Leaves [] bs ↔ Balanced bs := by
  refine ⟨fun h => ?_, .nothing⟩
  cases h with
  | nothing balanced => exact balanced

end Bracket

/-! ### The reader -/

/-- How many bytes some tokens take in UTF-8. -/
def byteSize (lexemes : List Lexeme) : Nat :=
  (String.ofList (lexemes.flatMap Lexeme.source)).utf8ByteSize

namespace Assembly

variable {a b : Assembly} {lexemes : List Lexeme} {offset : Nat} {e : MarkupError}

open Bindery.Bracket

/-- How many bytes a text takes is what its string says. -/
theorem byteLength_eq (cs : List Char) : byteLength cs = (String.ofList cs).utf8ByteSize := by
  induction cs with
  | nil => rfl
  | cons c cs ih => simp [byteLength, ih, String.ofList_cons]

theorem byteLength_append (cs ds : List Char) :
    byteLength (cs ++ ds) = byteLength cs + byteLength ds := by
  induction cs with
  | nil => simp [byteLength]
  | cons c cs ih => simp [byteLength, ih, Nat.add_assoc]

/-- The tags of the open elements, innermost first. -/
def openTags (a : Assembly) : List String := a.enclosing.map Enclosure.tag

@[simp] theorem openTags_empty : empty.openTags = [] := rfl

@[simp] theorem openTags_push (node : Tree Unit) (a : Assembly) :
    (a.push node).openTags = a.openTags := rfl

@[simp] theorem openTags_pushText (data : List Char) (a : Assembly) :
    (a.pushText data).openTags = a.openTags := by
  unfold pushText
  split <;> rfl

/-- **The reader keeps the stack.** -/
theorem openTags_take (token : Token) (offset : Nat) (a : Assembly) :
    (a.take token offset).toOption.map openTags = run token.brackets a.openTags := by
  cases token with
  | opening tag attrs closed =>
    rw [take, openTag, Token.brackets]
    split <;> rfl
  | closing tag =>
    rw [take, closeTag, Token.brackets]
    split
    · rfl
    · obtain ⟨siblings, enclosing⟩ := a
      cases enclosing with
      | nil => rfl
      | cons inner outer =>
        simp only [openTags, List.map_cons, run_cons, Bracket.step]
        split <;> rfl
  | comment data => rfl
  | text data =>
    rw [take]
    exact congrArg some (openTags_pushText _ a)

/-- So the stack of the reader is that of all tags that it took. -/
theorem openTags_takeAll (lexemes : List Lexeme) (offset : Nat) (a : Assembly) :
    (takeAll lexemes offset a).toOption.map openTags = run (brackets lexemes) a.openTags := by
  induction lexemes generalizing offset a with
  | nil => rfl
  | cons lexeme rest ih =>
    rw [brackets, List.flatMap_cons, run_append, ← openTags_take lexeme.token offset, takeAll]
    cases a.take lexeme.token offset with
    | error e => rfl
    | ok b => exact ih _ b

/-- **A closing tag is refused** if nothing is open, or if the innermost element is another one. -/
theorem closeTag_eq_error_iff {tag : String} : a.closeTag tag offset = .error e ↔
    isVoid tag = false ∧
      (a.openTags = [] ∧ e = .unexpectedClose tag offset ∨
        ∃ expected outer, a.openTags = expected :: outer ∧ expected ≠ tag ∧
          e = .mismatchedClose expected tag offset) := by
  obtain ⟨siblings, enclosing⟩ := a
  cases void : isVoid tag with
  | true => simp [closeTag_void void]
  | false =>
    cases enclosing with
    | nil => simpa [closeTag, void, openTags] using eq_comm
    | cons inner outer =>
      by_cases same : inner.tag = tag
      · simp [closeTag, void, openTags, same]
      · simpa [closeTag, void, openTags, same] using eq_comm

/-- No other token is refused. -/
theorem take_eq_error_iff {token : Token} : a.take token offset = .error e ↔
    ∃ written, token = .closing written ∧
      a.closeTag (lowerTag (String.ofList written)) offset = .error e := by
  cases token with
  | closing written => simp [take]
  | opening tag attrs closed => simp [take]
  | comment data => simp [take]
  | text data => simp [take]

/-- Reading stops at the first token that is refused. -/
theorem takeAll_eq_error_iff : takeAll lexemes offset a = .error e ↔
    ∃ before lexeme after b, lexemes = before ++ lexeme :: after ∧
      takeAll before offset a = .ok b ∧
      b.take lexeme.token (offset + byteLength (before.flatMap Lexeme.source)) = .error e := by
  induction lexemes generalizing offset a with
  | nil => simp [takeAll]
  | cons first rest ih =>
    -- where the next token starts
    have later (before : List Lexeme) :
        offset + byteLength ((first :: before).flatMap Lexeme.source) =
          offset + byteLength first.source + byteLength (before.flatMap Lexeme.source) := by
      rw [List.flatMap_cons, byteLength_append, Nat.add_assoc]
    rw [takeAll]
    cases htake : a.take first.token offset with
    | error e' =>
      constructor
      · intro h
        cases h
        exact ⟨[], first, rest, a, rfl, rfl, htake⟩
      · rintro ⟨before, lexeme, after, b, split, taken, refused⟩
        cases before with
        | nil =>
          cases split
          cases taken
          exact htake.symm.trans refused
        | cons head before =>
          cases split
          rw [takeAll, htake] at taken
          contradiction
    | ok a' =>
      refine ih.trans ⟨?_, ?_⟩
      · rintro ⟨before, lexeme, after, b, rfl, taken, refused⟩
        refine ⟨first :: before, lexeme, after, b, rfl, ?_, later before ▸ refused⟩
        rw [takeAll, htake]
        exact taken
      · rintro ⟨before, lexeme, after, b, split, taken, refused⟩
        cases before with
        | nil =>
          cases split
          cases taken
          cases htake.symm.trans refused
        | cons head before =>
          cases split
          rw [takeAll, htake] at taken
          exact ⟨before, lexeme, after, b, rfl, taken, later before ▸ refused⟩

/-- The reader gets through some tokens if they leave something open. -/
theorem exists_takeAll_iff {tags : List String} (lexemes : List Lexeme) :
    (∃ a, takeAll lexemes 0 empty = .ok a ∧ a.openTags = tags) ↔
      Leaves tags (brackets lexemes) := by
  rw [← run_eq_some_iff, ← openTags_empty, ← openTags_takeAll lexemes 0 empty]
  cases takeAll lexemes 0 empty <;> simp [Except.toOption]

/-- What stands before the tag that is refused, and what it leaves open. -/
theorem takeAll_empty_eq_error_iff : takeAll lexemes 0 empty = .error e ↔
    ∃ before written source after tags, lexemes = before ++ ⟨.closing written, source⟩ :: after ∧
      Leaves tags (brackets before) ∧ isVoid (lowerTag (String.ofList written)) = false ∧
      (tags = [] ∧ e = .unexpectedClose (lowerTag (String.ofList written)) (byteSize before) ∨
        ∃ expected outer, tags = expected :: outer ∧
          expected ≠ lowerTag (String.ofList written) ∧
          e = .mismatchedClose expected (lowerTag (String.ofList written)) (byteSize before)) := by
  rw [takeAll_eq_error_iff]
  constructor
  · rintro ⟨before, ⟨token, source⟩, after, b, split, taken, refused⟩
    obtain ⟨written, rfl, refused⟩ := take_eq_error_iff.1 refused
    rw [Nat.zero_add, byteLength_eq] at refused
    exact ⟨before, written, source, after, b.openTags, split,
      (exists_takeAll_iff before).1 ⟨b, taken, rfl⟩, closeTag_eq_error_iff.1 refused⟩
  · rintro ⟨before, written, source, after, tags, split, inside, refused⟩
    obtain ⟨b, taken, rfl⟩ := (exists_takeAll_iff before).2 inside
    refine ⟨before, _, after, b, split, taken, take_eq_error_iff.2 ⟨written, rfl, ?_⟩⟩
    rw [Nat.zero_add, byteLength_eq]
    exact closeTag_eq_error_iff.2 refused

/-- Reading comes to an end if nothing is open. -/
theorem finish_ok_iff : (∃ ts, a.finish = .ok ts) ↔ a.openTags = [] := by
  obtain ⟨siblings, enclosing⟩ := a
  cases enclosing <;> simp [finish, openTags]

/-- Otherwise the innermost element is blamed. -/
theorem finish_eq_error_iff :
    a.finish = .error e ↔ ∃ tag outer, a.openTags = tag :: outer ∧ e = .unclosed tag := by
  obtain ⟨siblings, enclosing⟩ := a
  cases enclosing with
  | nil => simp [finish, openTags]
  | cons inner outer => simpa [finish, openTags] using eq_comm

end Assembly

/-! ### Markup that is refused -/

open Bindery.Bracket in
/-- Why the tokens of a text are refused.  What stands before the closing tag that is blamed is well
nested, apart from the elements that it leaves open. -/
inductive Refuses (lexemes : List Lexeme) : MarkupError → Prop
  /-- A closing tag closes nothing. -/
  | unexpected {before after : List Lexeme} {written source : List Char}
      (split : lexemes = before ++ ⟨.closing written, source⟩ :: after)
      (notVoid : isVoid (lowerTag (String.ofList written)) = false)
      (nothing : Balanced (brackets before)) :
      Refuses lexemes (.unexpectedClose (lowerTag (String.ofList written)) (byteSize before))
  /-- A closing tag closes another element than the innermost one. -/
  | mismatched {before after : List Lexeme} {written source : List Char} {expected : String}
      {outer : List String} (split : lexemes = before ++ ⟨.closing written, source⟩ :: after)
      (notVoid : isVoid (lowerTag (String.ofList written)) = false)
      (inside : Leaves (expected :: outer) (brackets before))
      (differ : expected ≠ lowerTag (String.ofList written)) :
      Refuses lexemes
        (.mismatchedClose expected (lowerTag (String.ofList written)) (byteSize before))
  /-- Nothing closes the innermost element. -/
  | unclosed {tag : String} {outer : List String}
      (inside : Leaves (tag :: outer) (brackets lexemes)) : Refuses lexemes (.unclosed tag)

/-- **What is read and what is not.**  The text is cut into tokens, each of which stands at the head
of what is left by the grammar of tokens; they make up the text, and closing tags are those that
stand there.  The text is read if its tags are well nested.  Otherwise the first closing tag that
does not close the innermost element is blamed, with the place where it starts; and if there is
none, the innermost element that is open in the end. -/
theorem readMarkup_iff (markup : String) :
    (Lexer.Cut markup.toList (lex markup.toList) ∧
      (lex markup.toList).flatMap Lexeme.source = markup.toList ∧
      (∀ lexeme ∈ lex markup.toList, lexeme.source ≠ []) ∧
      ∀ tag source, ⟨.closing tag, source⟩ ∈ lex markup.toList → ∃ gap,
        gap.all Lexer.isGap = true ∧ source = "</".toList ++ tag ++ gap ++ ['>']) ∧
    ((∃ ts, readMarkup markup = .ok ts) ↔ Bracket.Balanced (brackets (lex markup.toList))) ∧
    ∀ e, readMarkup markup = .error e ↔ Refuses (lex markup.toList) e := by
  have cut : Lexer.Cut markup.toList (lex markup.toList) := Lexer.lex_eq_iff.1 rfl
  obtain ⟨whole, nonempty⟩ := cut.flatMap_source
  refine ⟨⟨cut, whole, nonempty, fun _ _ => cut.source_of_closing⟩, ?_,
    fun e => ⟨fun h => ?_, fun h => ?_⟩⟩
  · rw [← Bracket.leaves_nil_iff, ← Assembly.exists_takeAll_iff, readMarkup]
    cases Assembly.takeAll (lex markup.toList) 0 .empty with
    | error e => simp
    | ok a => simp [Assembly.finish_ok_iff]
  · rw [readMarkup] at h
    split at h
    · next a taken =>
      obtain ⟨tag, outer, inside, rfl⟩ := Assembly.finish_eq_error_iff.1 h
      exact .unclosed ((Assembly.exists_takeAll_iff _).1 ⟨a, taken, inside⟩)
    · next taken =>
      cases h
      obtain ⟨before, written, source, after, tags, split, inside, refused⟩ :=
        Assembly.takeAll_empty_eq_error_iff.1 taken
      obtain ⟨notVoid, ⟨rfl, rfl⟩ | ⟨expected, outer, rfl, differ, rfl⟩⟩ := refused
      · exact .unexpected split notVoid (Bracket.leaves_nil_iff.1 inside)
      · exact .mismatched split notVoid inside differ
  · rw [readMarkup]
    cases h with
    | unexpected split notVoid nothing =>
      rw [Assembly.takeAll_empty_eq_error_iff.2 ⟨_, _, _, _, [], split,
        Bracket.leaves_nil_iff.2 nothing, notVoid, .inl ⟨rfl, rfl⟩⟩]
    | mismatched split notVoid inside differ =>
      rw [Assembly.takeAll_empty_eq_error_iff.2 ⟨_, _, _, _, _, split, inside, notVoid,
        .inr ⟨_, _, rfl, differ, rfl⟩⟩]
    | unclosed inside =>
      obtain ⟨a, taken, htags⟩ := (Assembly.exists_takeAll_iff _).2 inside
      rw [taken]
      exact Assembly.finish_eq_error_iff.2 ⟨_, _, htags, rfl⟩

example : readMarkup "é</ B><br></Br></B\n>" = .error (.unexpectedClose "b" 16) := by
  cbv

end Bindery
