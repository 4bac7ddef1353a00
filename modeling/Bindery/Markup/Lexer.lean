import Bindery.Text.Blank

namespace Bindery

/-!
# Tokens of markup

The text is cut from left to right into comments, closing tags, opening tags and runs of text.  An
angle bracket that opens none of these is text.

* `Token` — what a piece of markup is.
* `Lexer.next` — the token at the head of a non-empty text; it always takes at least one character.
* `Lexeme`, `lex` — all tokens of a text, each with the characters it was read from.
-/

/-- A piece of markup. -/
inductive Token where
  /-- An opening tag; an attribute may come without a value. -/
  | opening (tag : List Char) (attrs : List (List Char × Option (List Char))) (closed : Bool)
  | closing (tag : List Char)
  | comment (data : List Char)
  | text (data : List Char)
deriving DecidableEq

namespace Lexer

/-- The white space that may stand inside a tag. -/
def isGap (c : Char) : Bool := c == ' ' || c == '\t' || c == '\r' || c == '\n'

/-- The characters after the white space at the head. -/
def skipGap (cs : List Char) : List Char := cs.dropWhile isGap

/-- A letter of ASCII. -/
def isLetter (c : Char) : Bool := c.isAlpha

/-- A character of a tag after its first one. -/
def isTagChar (c : Char) : Bool := c.isAlphanum || c == '-' || c == '_' || c == ':'

/-- A character of an attribute's name. -/
def isNameChar (c : Char) : Bool :=
  !isBlank c && c != '"' && c != '\'' && c != '<' && c != '>' && c != '/' && c != '='

/-- A character of an attribute's value that is not in quotes. -/
def isBareChar (c : Char) : Bool :=
  !isBlank c && c != '"' && c != '\'' && c != '<' && c != '>' && c != '=' && c.toNat != 0x60

/-- A tag at the head of the text, a letter followed by tag characters, and the rest. -/
def tag? : List Char → Option (List Char × List Char)
  | [] => none
  | c :: rest =>
    if isLetter c then some (c :: rest.takeWhile isTagChar, rest.dropWhile isTagChar) else none

/-- The characters up to a closing quote, and the rest after it. -/
def upTo? (quote : Char) (cs : List Char) : Option (List Char × List Char) :=
  match cs.dropWhile (· != quote) with
  | [] => none
  | _ :: rest => some (cs.takeWhile (· != quote), rest)

/-- An attribute's value: in quotes of either kind, or a non-empty run of bare characters. -/
def value? : List Char → Option (List Char × List Char)
  | '"' :: rest => upTo? '"' rest
  | '\'' :: rest => upTo? '\'' rest
  | cs =>
    if (cs.takeWhile isBareChar).isEmpty then none
    else some (cs.takeWhile isBareChar, cs.dropWhile isBareChar)

/-- An equals sign with a value after it, blanks around the sign allowed. -/
def assigned? (cs : List Char) : Option (List Char × List Char) :=
  match skipGap cs with
  | '=' :: rest => value? (skipGap rest)
  | _ => none

/-- An attribute: its name and, after an equals sign, its value. -/
def named? (cs : List Char) : Option ((List Char × Option (List Char)) × List Char) :=
  if (cs.takeWhile isNameChar).isEmpty then none
  else match assigned? (cs.dropWhile isNameChar) with
    | some (value, rest) => some ((cs.takeWhile isNameChar, some value), rest)
    | none => some ((cs.takeWhile isNameChar, none), cs.dropWhile isNameChar)

/-- An attribute with the blanks before it, of which there has to be one. -/
def attribute? : List Char → Option ((List Char × Option (List Char)) × List Char)
  | [] => none
  | c :: cs => if isGap c then named? (skipGap cs) else none

/-! ### What is left of a text is its end -/

/-- Skipping white space leaves the end of a text. -/
theorem skipGap_suffix (cs : List Char) : skipGap cs <:+ cs := List.dropWhile_suffix isGap

theorem upTo?_suffix {quote : Char} {cs body rest : List Char}
    (h : upTo? quote cs = some (body, rest)) : rest <:+ cs := by
  unfold upTo? at h
  split at h
  · contradiction
  · next hdrop =>
    cases h
    exact (List.suffix_cons _ _).trans (hdrop ▸ List.dropWhile_suffix (· != quote))

theorem value?_suffix {cs body rest : List Char} (h : value? cs = some (body, rest)) :
    rest <:+ cs := by
  unfold value? at h
  split at h
  · exact (upTo?_suffix h).trans (List.suffix_cons _ _)
  · exact (upTo?_suffix h).trans (List.suffix_cons _ _)
  · split at h
    · contradiction
    · cases h
      exact List.dropWhile_suffix isBareChar

theorem assigned?_suffix {cs body rest : List Char} (h : assigned? cs = some (body, rest)) :
    rest <:+ cs := by
  unfold assigned? at h
  split at h
  · next r hskip =>
    have signed : '=' :: r <:+ cs := hskip ▸ skipGap_suffix cs
    exact ((value?_suffix h).trans (skipGap_suffix r)).trans ((List.suffix_cons _ _).trans signed)
  · contradiction

theorem named?_suffix {cs rest : List Char} {attr : List Char × Option (List Char)}
    (h : named? cs = some (attr, rest)) : rest <:+ cs := by
  unfold named? at h
  split at h
  · contradiction
  · split at h
    · next hassigned =>
      cases h
      exact (assigned?_suffix hassigned).trans (List.dropWhile_suffix isNameChar)
    · cases h
      exact List.dropWhile_suffix isNameChar

/-- What follows an attribute is the end of what follows the blank before it. -/
theorem attribute?_suffix {c : Char} {cs rest : List Char} {attr : List Char × Option (List Char)}
    (h : attribute? (c :: cs) = some (attr, rest)) : rest <:+ cs := by
  rw [attribute?] at h
  split at h
  · exact (named?_suffix h).trans (skipGap_suffix cs)
  · contradiction

/-- An attribute takes something, so the attributes of a tag come to an end. -/
theorem attribute?_length {cs rest : List Char} {attr : List Char × Option (List Char)}
    (h : attribute? cs = some (attr, rest)) : rest.length < cs.length := by
  cases cs with
  | nil => contradiction
  | cons c cs => exact Nat.lt_succ_of_le (attribute?_suffix h).length_le

/-- The attributes at the head of the text, as many as there are, and the rest. -/
def attributes (cs : List Char) : List (List Char × Option (List Char)) × List Char :=
  match _h : attribute? cs with
  | none => ([], cs)
  | some (attr, rest) =>
    let (attrs, rest) := attributes rest
    (attr :: attrs, rest)
termination_by cs.length
decreasing_by exact attribute?_length _h

/-- An opening tag after its angle bracket. -/
def opening? (cs : List Char) : Option (Token × List Char) := do
  let (tag, rest) ← tag? cs
  let (attrs, rest) := attributes rest
  match skipGap rest with
  | '>' :: rest => some (.opening tag attrs false, rest)
  | '/' :: '>' :: rest => some (.opening tag attrs true, rest)
  | _ => none

/-- A closing tag after its angle bracket and slash. -/
def closing? (cs : List Char) : Option (Token × List Char) := do
  let (tag, rest) ← tag? cs
  match skipGap rest with
  | '>' :: rest => some (.closing tag, rest)
  | _ => none

/-- The data of a comment up to its end, and the rest after it. -/
def commentData? : List Char → Option (List Char × List Char)
  | '-' :: '-' :: '>' :: rest => some ([], rest)
  | [] => none
  | c :: rest => (commentData? rest).map fun (data, rest) => (c :: data, rest)

/-- A comment after its opening mark. -/
def comment? (cs : List Char) : Option (Token × List Char) :=
  (commentData? cs).map fun (data, rest) => (.comment data, rest)

/-- The comment, closing tag or opening tag that an angle bracket starts. -/
def markup? : List Char → Option (Token × List Char)
  | '!' :: '-' :: '-' :: rest => comment? rest
  | '/' :: rest => closing? rest
  | rest => opening? rest

/-- The token at the head of a text that starts with `c`, and the rest. -/
def next (c : Char) (cs : List Char) : Token × List Char :=
  if c = '<' then (markup? cs).getD (.text ['<'], cs)
  else (.text (c :: cs.takeWhile (· != '<')), cs.dropWhile (· != '<'))

/-- A tag is the head of the text. -/
theorem tag?_eq_some {cs tag rest : List Char} (h : tag? cs = some (tag, rest)) :
    cs = tag ++ rest := by
  cases cs with
  | nil => contradiction
  | cons c cs =>
    rw [tag?] at h
    split at h
    · cases h
      rw [List.cons_append, List.takeWhile_append_dropWhile]
    · contradiction

theorem tag?_suffix {cs tag rest : List Char} (h : tag? cs = some (tag, rest)) : rest <:+ cs :=
  ⟨tag, (tag?_eq_some h).symm⟩

theorem attributes_suffix (cs : List Char) : (attributes cs).2 <:+ cs := by
  fun_induction attributes cs with
  | case1 cs h => exact List.suffix_refl cs
  | case2 cs attr rest h attrs rest' hrec ih =>
    rw [hrec] at ih
    cases cs with
    | nil => contradiction
    | cons c cs => exact ih.trans ((attribute?_suffix h).trans (List.suffix_cons _ _))

theorem opening?_suffix {cs rest : List Char} {token : Token}
    (h : opening? cs = some (token, rest)) : rest <:+ cs := by
  unfold opening? at h
  cases htag : tag? cs with
  | none => simp [htag] at h
  | some found =>
    obtain ⟨tag, r⟩ := found
    have inside : skipGap (attributes r).2 <:+ cs :=
      (skipGap_suffix _).trans ((attributes_suffix r).trans (tag?_suffix htag))
    simp only [htag, Option.bind_eq_bind, Option.bind_some] at h
    split at h
    · next hend =>
      cases h
      exact (List.suffix_cons _ _).trans (hend ▸ inside)
    · next hend =>
      cases h
      exact ((List.suffix_cons _ _).trans (List.suffix_cons _ _)).trans (hend ▸ inside)
    · contradiction

theorem closing?_suffix {cs rest : List Char} {token : Token}
    (h : closing? cs = some (token, rest)) : rest <:+ cs := by
  unfold closing? at h
  cases htag : tag? cs with
  | none => simp [htag] at h
  | some found =>
    obtain ⟨tag, r⟩ := found
    have inside : skipGap r <:+ cs := (skipGap_suffix r).trans (tag?_suffix htag)
    simp only [htag, Option.bind_eq_bind, Option.bind_some] at h
    split at h
    · next hend =>
      cases h
      exact (List.suffix_cons _ _).trans (hend ▸ inside)
    · contradiction

theorem commentData?_suffix {cs data rest : List Char}
    (h : commentData? cs = some (data, rest)) : rest <:+ cs := by
  fun_induction commentData? cs generalizing data with
  | case1 cs =>
    cases h
    exact List.suffix_append "-->".toList rest
  | case2 => contradiction
  | case3 c cs _ ih =>
    obtain ⟨⟨inner, r⟩, hinner, heq⟩ := Option.map_eq_some_iff.1 h
    cases heq
    exact (ih hinner).trans (List.suffix_cons _ _)

/-- What follows a comment or a tag is the end of the text. -/
theorem markup?_suffix {cs rest : List Char} {token : Token}
    (h : markup? cs = some (token, rest)) : rest <:+ cs := by
  unfold markup? at h
  split at h
  · next r =>
    obtain ⟨⟨data, r'⟩, hdata, heq⟩ := Option.map_eq_some_iff.1 h
    cases heq
    exact (commentData?_suffix hdata).trans (List.suffix_append "!--".toList r)
  · exact (closing?_suffix h).trans (List.suffix_cons _ _)
  · exact opening?_suffix h

/-- At least one character is taken. -/
theorem next_suffix (c : Char) (cs : List Char) : (next c cs).2 <:+ cs := by
  unfold next
  split
  · cases h : markup? cs with
    | none => exact List.suffix_refl cs
    | some found => exact markup?_suffix h
  · exact List.dropWhile_suffix (· != '<')

/-- So the tokens of a text come to an end. -/
theorem next_length (c : Char) (cs : List Char) : (next c cs).2.length < (c :: cs).length :=
  Nat.lt_succ_of_le (next_suffix c cs).length_le

end Lexer

/-- A token with the characters it was read from. -/
structure Lexeme where
  token : Token
  source : List Char
deriving DecidableEq

/-- The tokens of a text, in order. -/
def lex : List Char → List Lexeme
  | [] => []
  | c :: cs =>
    ⟨(Lexer.next c cs).1, (c :: cs).take ((c :: cs).length - (Lexer.next c cs).2.length)⟩
      :: lex (Lexer.next c cs).2
termination_by cs => cs.length
decreasing_by exact Lexer.next_length c cs

end Bindery
