import Bindery.Markup.Reader
import Bindery.Markup.Writer
import Bindery.Proofs.Markup.Lexing
import Bindery.Proofs.Markup.References

namespace Bindery

/-!
# The tokens of written markup

What the lexer finds at the head of a piece of written markup, whatever follows the piece: what is
written follows the grammar of tokens.

* `Lexer.attributes_writeAttr` — the attributes of an opening tag, and where they end.
* `Lexer.next_opening`, `next_closing`, `next_comment`, `next_text` — one token for each piece.
-/

namespace Lexer

variable {rest : List Char}

/-! ### Opening and closing tags -/

/-- An escaped value does not end the quotes around it. -/
theorem quote_free_escapeAttr (cs : List Char) : (escapeAttr cs).all (· != '"') = true := by
  rw [escapeAttr, List.all_flatMap, List.all_eq_true]
  intro c _
  unfold escapeAttrChar
  split
  · decide
  · decide
  · next h => simpa using h

/-- What an attribute is read as: its value is still escaped. -/
def written (attr : String × String) : List Char × Option (List Char) :=
  (attr.1.toList, some (escapeAttr attr.2.toList))

/-- A written attribute is a name, an equals sign and a quoted value, after a blank. -/
theorem writeAttr_append (attr : String × String) (rest : List Char) :
    writeAttr attr ++ rest =
      [' '] ++ (attr.1.toList ++ ([] ++ '=' :: ([] ++ '"' ::
        (escapeAttr attr.2.toList ++ '"' :: rest)))) := by
  simp [writeAttr]

/-- **The attributes of an opening tag** are read one by one. -/
theorem attributes_writeAttr {attrs : List (String × String)}
    (named : ∀ attr ∈ attrs, isName attr.1.toList = true) (rest : List Char) :
    Attributes (attrs.map written) (attrs.flatMap writeAttr ++ rest) rest := by
  induction attrs with
  | nil => exact .nil
  | cons attr attrs ih =>
    obtain ⟨grammar, others⟩ := List.forall_mem_cons.1 named
    rw [List.flatMap_cons, List.append_assoc, writeAttr_append]
    exact .cons (List.cons_ne_nil _ _) rfl
      (.valued grammar rfl rfl (.quoted (.inl rfl) (quote_free_escapeAttr _))) (ih others)

/-- The characters of an opening tag after its angle bracket. -/
def openingText (tag : String) (attrs : List (String × String)) : List Char :=
  tag.toList ++ attrs.flatMap writeAttr ++ ['>']

/-- **An opening tag is read back**, with its attributes as they are written. -/
theorem next_opening {tag : String} {attrs : List (String × String)}
    (grammar : isTag tag.toList = true) (named : ∀ attr ∈ attrs, isName attr.1.toList = true)
    (rest : List Char) :
    next '<' (openingText tag attrs ++ rest) =
      (.opening tag.toList (attrs.map written) false, rest) := by
  have shape : openingText tag attrs ++ rest =
      tag.toList ++ (attrs.flatMap writeAttr ++ ([] ++ (tagEnd false ++ rest))) := by
    simp [openingText, tagEnd]
  rw [next_eq_iff, shape]
  exact .markup (.opening grammar rfl (attributes_writeAttr named _))

/-- **A closing tag is read back.** -/
theorem next_closing {tag : String} (grammar : isTag tag.toList = true) (rest : List Char) :
    next '<' ('/' :: (tag.toList ++ '>' :: rest)) = (.closing tag.toList, rest) :=
  next_eq_iff.2 (.markup (@Markup.closing tag.toList [] rest grammar rfl))

/-! ### Comments and text -/

/-- **A comment is read back.** -/
theorem next_comment {data : List Char} (held : IsCommentData data) (rest : List Char) :
    next '<' ('!' :: '-' :: '-' :: (data ++ ("-->".toList ++ rest))) = (.comment data, rest) :=
  next_eq_iff.2 (.markup (.comment held))

/-- An escaped text has no markup in it. -/
theorem bracket_free_escapeText (cs : List Char) : (escapeText cs).all (· != '<') = true := by
  rw [escapeText, List.all_flatMap, List.all_eq_true]
  intro c _
  unfold escapeTextChar
  split
  · decide
  · decide
  · decide
  · next h _ => simpa using h

/-- **A text is read back** still escaped, up to the markup that follows it. -/
theorem next_text {c : Char} {data : List Char} (free : (c :: data).all (· != '<') = true)
    (stop : Stops (· != '<') rest) : next c (data ++ rest) = (.text (c :: data), rest) :=
  next_eq_iff.2 (.text (List.cons_ne_nil c data) free stop)

end Lexer

end Bindery
