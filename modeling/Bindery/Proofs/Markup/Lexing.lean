import Bindery.Proofs.Markup.Canonical

namespace Bindery

/-!
# What stands at the head of a text

A grammar of tokens, and that the lexer finds what it says.  A comment, a closing tag or an opening
tag is looked for where there is an angle bracket.  If none of them stands there, the bracket alone
is text; everywhere else text goes up to the next bracket.

* `Lexer.Value`, `Lexer.Attribute`, `Lexer.Attributes` — what stands in an opening tag.
* `Lexer.Markup` — comments, closing tags and opening tags.
* `Lexer.Heads` — the token at the head of a text, and `Lexer.next_eq_iff`: the lexer takes this
  one.
* `Lexer.Cut` — a text cut into tokens, and `Lexer.lex_eq_iff`: the lexer cuts it like this.
-/

namespace Lexer

variable {cs rest run value data tag : List Char} {token : Token} {p : Char → Bool} {c : Char}

/-! ### Runs of characters -/

/-- A text at whose head no character of a kind stands: a run of the kind ends here. -/
def Stops (p : Char → Bool) (rest : List Char) : Prop := ∀ c ∈ rest.head?, p c = false

theorem stops_cons (h : p c = false) (rest : List Char) : Stops p (c :: rest) := by
  simpa [Stops] using h

/-- A run that was taken off as far as it goes has ended. -/
theorem stops_dropWhile (p : Char → Bool) (cs : List Char) : Stops p (cs.dropWhile p) := by
  intro c hc
  have first := List.head?_dropWhile_not p cs
  rw [Option.mem_def.1 hc] at first
  simpa using first

/-- A run that ends in front of the rest is what is taken. -/
theorem takeWhile_run (all : run.all p = true) (stop : Stops p rest) :
    (run ++ rest).takeWhile p = run := by
  have hrest : rest.takeWhile p = [] := by
    cases rest with
    | nil => rfl
    | cons c rest => exact List.takeWhile_cons_of_neg (by simpa using stop c rfl)
  rw [List.takeWhile_append_of_pos (by simpa using all), hrest, List.append_nil]

theorem dropWhile_run (all : run.all p = true) (stop : Stops p rest) :
    (run ++ rest).dropWhile p = rest := by
  rw [List.dropWhile_append_of_pos (by simpa using all)]
  cases rest with
  | nil => rfl
  | cons c rest => exact List.dropWhile_cons_of_neg (by simpa using stop c rfl)

/-- White space inside a tag is white space. -/
theorem isBlank_of_isGap (h : isGap c = true) : isBlank c = true := by
  simp only [isGap, Bool.or_eq_true, beq_iff_eq] at h
  obtain ((rfl | rfl) | rfl) | rfl := h <;> decide

/-- A tag ends where white space begins. -/
theorem isTagChar_of_isGap (h : isGap c = true) : isTagChar c = false := by
  simp only [isGap, Bool.or_eq_true, beq_iff_eq] at h
  obtain ((rfl | rfl) | rfl) | rfl := h <;> decide

/-- The name of an attribute ends where white space begins. -/
theorem isNameChar_of_isGap (h : isGap c = true) : isNameChar c = false := by
  simp [isNameChar, isBlank_of_isGap h]

/-- So does a value without quotes. -/
theorem isBareChar_of_isGap (h : isGap c = true) : isBareChar c = false := by
  simp [isBareChar, isBlank_of_isGap h]

/-- Of two kinds of characters that exclude each other, it does not matter which comes first. -/
theorem excludes_comm {q : Char → Bool} (excludes : ∀ c, p c = true → q c = false) (c : Char)
    (h : q c = true) : p c = false := by
  rw [← Bool.not_eq_true]
  intro hp
  rw [excludes c hp] at h
  exact Bool.false_ne_true h

/-- A run that is not empty begins with a character of its kind. -/
theorem exists_cons_of_all (nonempty : run ≠ []) (all : run.all p = true) :
    ∃ c cs, run = c :: cs ∧ p c = true ∧ cs.all p = true := by
  obtain ⟨c, cs, rfl⟩ := List.exists_cons_of_ne_nil nonempty
  rw [List.all_cons, Bool.and_eq_true] at all
  exact ⟨c, cs, rfl, all⟩

/-- A run does not begin with a character of a kind that its own excludes. -/
theorem stops_of_all {q : Char → Bool} (nonempty : run ≠ []) (all : run.all p = true)
    (excludes : ∀ c, p c = true → q c = false) (rest : List Char) : Stops q (run ++ rest) := by
  obtain ⟨c, cs, rfl, hc, -⟩ := exists_cons_of_all nonempty all
  exact stops_cons (excludes c hc) _

/-- A run that does not go on behind white space does not go on in it. -/
theorem Stops.gap {gap : List Char} (stop : Stops p rest) (blank : gap.all isGap = true)
    (ends : ∀ c, isGap c = true → p c = false) : Stops p (gap ++ rest) := by
  cases gap with
  | nil => exact stop
  | cons c gap => exact stops_of_all (List.cons_ne_nil c gap) blank ends rest

/-! ### Attributes -/

/-- A value at the head of a text, and what follows it: in quotes of either kind, or a run of bare
characters as long as it can be. -/
inductive Value : List Char → List Char → List Char → Prop
  | quoted {quote : Char} {value rest : List Char} (kind : quote = '"' ∨ quote = '\'')
      (free : value.all (· != quote) = true) : Value value (quote :: (value ++ quote :: rest)) rest
  | bare {value rest : List Char} (nonempty : value ≠ []) (all : value.all isBareChar = true)
      (stop : Stops isBareChar rest) : Value value (value ++ rest) rest

/-- An attribute at the head of a text, and what follows it: a name, alone or with an equals sign
and a value, around which there may be white space. -/
inductive Attribute : List Char × Option (List Char) → List Char → List Char → Prop
  | alone {name rest : List Char} (grammar : isName name = true) :
      Attribute (name, none) (name ++ rest) rest
  | valued {name before after text value rest : List Char} (grammar : isName name = true)
      (blank : before.all isGap = true) (blank' : after.all isGap = true)
      (given : Value value text rest) :
      Attribute (name, some value) (name ++ (before ++ '=' :: (after ++ text))) rest

/-- Attributes at the head of a text, each with white space before it, and what follows them. -/
inductive Attributes : List (List Char × Option (List Char)) → List Char → List Char → Prop
  | nil {rest : List Char} : Attributes [] rest rest
  | cons {attr : List Char × Option (List Char)} {attrs : List (List Char × Option (List Char))}
      {gap text between rest : List Char} (nonempty : gap ≠ []) (blank : gap.all isGap = true)
      (first : Attribute attr text between) (others : Attributes attrs between rest) :
      Attributes (attr :: attrs) (gap ++ text) rest

/-- A quoted value ends at the next quote. -/
theorem upTo?_eq_some_iff {quote : Char} : upTo? quote cs = some (value, rest) ↔
    value.all (· != quote) = true ∧ cs = value ++ quote :: rest := by
  constructor
  · intro h
    unfold upTo? at h
    split at h
    · contradiction
    · next d r hdrop =>
      cases h
      have stop : Stops (· != quote) (d :: rest) := hdrop ▸ stops_dropWhile _ cs
      have same : d = quote := by simpa using stop d rfl
      have whole := List.takeWhile_append_dropWhile (p := (· != quote)) (l := cs)
      rw [hdrop, same] at whole
      exact ⟨List.all_takeWhile, whole.symm⟩
  · rintro ⟨free, rfl⟩
    have stop : Stops (· != quote) (quote :: rest) := stops_cons (by simp) rest
    rw [upTo?, dropWhile_run free stop, takeWhile_run free stop]

/-- A value is read where one stands. -/
theorem value?_eq_some_iff : value? cs = some (value, rest) ↔ Value value cs rest := by
  constructor
  · intro h
    unfold value? at h
    split at h
    · obtain ⟨free, rfl⟩ := upTo?_eq_some_iff.1 h
      exact .quoted (.inl rfl) free
    · obtain ⟨free, rfl⟩ := upTo?_eq_some_iff.1 h
      exact .quoted (.inr rfl) free
    · split at h
      · contradiction
      · next nonempty =>
        cases h
        have found := Value.bare (by simpa using nonempty) List.all_takeWhile
          (stops_dropWhile isBareChar cs)
        rwa [List.takeWhile_append_dropWhile] at found
  · intro h
    cases h with
    | quoted kind free => obtain rfl | rfl := kind <;> exact upTo?_eq_some_iff.2 ⟨free, rfl⟩
    | bare nonempty all stop =>
      -- a bare character is no quote
      have noQuote {d : Char} (quote : isBareChar d = false) (tail : List Char) :
          value ++ rest ≠ d :: tail := by
        intro same
        obtain ⟨c, cs, rfl, hc, -⟩ := exists_cons_of_all nonempty all
        rw [(List.cons.inj same).1, quote] at hc
        exact Bool.false_ne_true hc
      unfold value?
      split
      · next same => exact absurd same (noQuote (by decide) _)
      · next same => exact absurd same (noQuote (by decide) _)
      · rw [takeWhile_run all stop, dropWhile_run all stop, if_neg (by simpa using nonempty)]

/-- A value does not begin with white space. -/
theorem Value.stops_isGap (h : Value value cs rest) : Stops isGap cs := by
  cases h with
  | quoted kind free => obtain rfl | rfl := kind <;> exact stops_cons (by decide) _
  | bare nonempty all stop =>
    exact stops_of_all nonempty all (excludes_comm fun _ => isBareChar_of_isGap) _

/-- A value is assigned where an equals sign stands before it. -/
theorem assigned?_eq_some_iff : assigned? cs = some (value, rest) ↔
    ∃ before after text, before.all isGap = true ∧ after.all isGap = true ∧
      cs = before ++ '=' :: (after ++ text) ∧ Value value text rest := by
  constructor
  · intro h
    unfold assigned? at h
    split at h
    · next r hskip =>
      refine ⟨cs.takeWhile isGap, r.takeWhile isGap, skipGap r, List.all_takeWhile,
        List.all_takeWhile, ?_, value?_eq_some_iff.1 h⟩
      rw [skipGap, List.takeWhile_append_dropWhile, ← hskip, skipGap,
        List.takeWhile_append_dropWhile]
    · contradiction
  · rintro ⟨before, after, text, blank, blank', rfl, given⟩
    rw [assigned?, skipGap, dropWhile_run blank (stops_cons (by decide) _)]
    show value? (skipGap (after ++ text)) = _
    rw [skipGap, dropWhile_run blank' given.stops_isGap]
    exact value?_eq_some_iff.2 given

/-- What is read as an attribute is one. -/
theorem attribute_of_named? {attr : List Char × Option (List Char)}
    (h : named? cs = some (attr, rest)) : Attribute attr cs rest := by
  unfold named? at h
  split at h
  · contradiction
  · next nonempty =>
    have grammar : isName (cs.takeWhile isNameChar) = true := by
      rw [isName, List.all_takeWhile, Bool.and_true]
      simpa using nonempty
    have whole := List.takeWhile_append_dropWhile (p := isNameChar) (l := cs)
    split at h
    · next hassigned =>
      cases h
      obtain ⟨before, after, text, blank, blank', hdrop, given⟩ := assigned?_eq_some_iff.1 hassigned
      have found := Attribute.valued grammar blank blank' given
      rwa [← hdrop, whole] at found
    · cases h
      have found := @Attribute.alone _ (cs.dropWhile isNameChar) grammar
      rwa [whole] at found

/-- A text that no attribute goes on into: neither its name nor an equals sign. -/
def Apart (rest : List Char) : Prop := Stops isNameChar rest ∧ assigned? rest = none

/-- No attribute goes on behind white space, if no equals sign stands there. -/
theorem apart_gap {gap : List Char} (blank : gap.all isGap = true)
    (here : gap ≠ [] ∨ Stops isNameChar rest) (stop : Stops isGap rest)
    (noSign : rest.head? ≠ some '=') : Apart (gap ++ rest) := by
  constructor
  · obtain nonempty | stops := here
    · exact stops_of_all nonempty blank (fun _ => isNameChar_of_isGap) _
    · exact stops.gap blank fun _ => isNameChar_of_isGap
  · rw [assigned?, skipGap, dropWhile_run blank stop]
    split
    · contradiction
    · rfl

/-- The parts of the name of an attribute: it is not empty, and made up of name characters. -/
theorem isName_eq_true : isName cs = true ↔ cs ≠ [] ∧ cs.all isNameChar = true := by
  simp [isName]

/-- An attribute is read, if it does not go on. -/
theorem Attribute.named? {attr : List Char × Option (List Char)} (h : Attribute attr cs rest)
    (apart : Apart rest) : Lexer.named? cs = some (attr, rest) := by
  cases h with
  | alone grammar =>
    obtain ⟨nonempty, all⟩ := isName_eq_true.1 grammar
    rw [Lexer.named?, takeWhile_run all apart.1, dropWhile_run all apart.1,
      if_neg (by simpa using nonempty), apart.2]
  | @valued name before after text value rest grammar blank blank' given =>
    obtain ⟨nonempty, all⟩ := isName_eq_true.1 grammar
    have stop : Stops isNameChar (before ++ '=' :: (after ++ text)) :=
      Stops.gap (stops_cons (by decide) _) blank fun _ => isNameChar_of_isGap
    have assigned : assigned? (before ++ '=' :: (after ++ text)) = some (value, rest) :=
      assigned?_eq_some_iff.2 ⟨before, after, text, blank, blank', rfl, given⟩
    rw [Lexer.named?, takeWhile_run all stop, dropWhile_run all stop,
      if_neg (by simpa using nonempty), assigned]

/-- An attribute begins with a name character. -/
theorem Attribute.head {attr : List Char × Option (List Char)} (h : Attribute attr cs rest) :
    ∃ c tail, cs = c :: tail ∧ isNameChar c = true := by
  have first {name : List Char} (grammar : isName name = true) (tail : List Char) :
      ∃ c rest, name ++ tail = c :: rest ∧ isNameChar c = true := by
    obtain ⟨nonempty, all⟩ := isName_eq_true.1 grammar
    obtain ⟨c, cs, rfl, hc, -⟩ := exists_cons_of_all nonempty all
    exact ⟨c, cs ++ tail, rfl, hc⟩
  cases h with
  | alone grammar => exact first grammar _
  | valued grammar => exact first grammar _

/-- An attribute does not begin with white space. -/
theorem Attribute.stops_isGap {attr : List Char × Option (List Char)} (h : Attribute attr cs rest) :
    Stops isGap cs := by
  obtain ⟨c, tail, rfl, named⟩ := h.head
  exact stops_cons (excludes_comm (fun _ => isNameChar_of_isGap) c named) tail

/-- What is read as attributes are some. -/
theorem attributes_of_attributes (cs : List Char) :
    Attributes (attributes cs).1 cs (attributes cs).2 := by
  fun_induction attributes cs with
  | case1 cs h => exact .nil
  | case2 cs attr rest h attrs rest' hrec ih =>
    rw [hrec] at ih
    cases cs with
    | nil => contradiction
    | cons c cs =>
      rw [attribute?] at h
      split at h
      · next hgap =>
        have found := @Attributes.cons attr attrs (c :: cs.takeWhile isGap) _ _ _
          (List.cons_ne_nil _ _) (by simp [hgap]) (attribute_of_named? h) ih
        rwa [List.cons_append, skipGap, List.takeWhile_append_dropWhile] at found
      · contradiction

/-- The end of an opening tag, which may close its element at once. -/
def tagEnd (closed : Bool) : List Char := if closed then "/>".toList else ">".toList

/-- What is neither white space nor an attribute's name, nor part of a tag, follows the attributes
of an opening tag. -/
theorem tagEnd_cons (closed : Bool) (rest : List Char) :
    ∃ c tail, tagEnd closed ++ rest = c :: tail ∧
      isGap c = false ∧ isNameChar c = false ∧ isTagChar c = false ∧ c ≠ '=' := by
  cases closed
  · exact ⟨'>', rest, rfl, by decide⟩
  · exact ⟨'/', '>' :: rest, rfl, by decide⟩

variable {attrs : List (List Char × Option (List Char))} {gap text : List Char} {closed : Bool}

/-- The attributes of an opening tag do not go on into what follows. -/
theorem Attributes.apart (h : Attributes attrs cs (gap ++ (tagEnd closed ++ rest)))
    (blank : gap.all isGap = true) : Apart cs := by
  cases h with
  | nil =>
    obtain ⟨c, tail, same, noGap, noName, -, noSign⟩ := tagEnd_cons closed rest
    rw [same]
    exact apart_gap blank (.inr (stops_cons noName _)) (stops_cons noGap _) (by simpa using noSign)
  | cons nonempty blank first others =>
    refine apart_gap blank (.inl nonempty) first.stops_isGap ?_
    obtain ⟨c, tail, rfl, named⟩ := first.head
    rintro sign
    cases sign
    exact absurd named (by decide)

/-- No attribute stands where an opening tag ends. -/
theorem attribute?_tagEnd (blank : gap.all isGap = true) :
    attribute? (gap ++ (tagEnd closed ++ rest)) = none := by
  obtain ⟨c, tail, same, noGap, noName, -, -⟩ := tagEnd_cons closed rest
  rw [same]
  cases gap with
  | nil => simp [attribute?, noGap]
  | cons d gap =>
    rw [List.all_cons, Bool.and_eq_true] at blank
    rw [List.cons_append, attribute?, if_pos blank.1, skipGap,
      dropWhile_run blank.2 (stops_cons noGap _), named?,
      List.takeWhile_cons_of_neg (by simpa using noName)]
    rfl

/-- **Attributes are read** as far as the end of their tag. -/
theorem Attributes.attributes (h : Attributes attrs cs (gap ++ (tagEnd closed ++ rest)))
    (blank : gap.all isGap = true) :
    Lexer.attributes cs = (attrs, gap ++ (tagEnd closed ++ rest)) := by
  generalize hend : gap ++ (tagEnd closed ++ rest) = last at h
  induction h with
  | nil =>
    subst hend
    rw [Lexer.attributes]
    split
    · rfl
    · next h =>
      rw [attribute?_tagEnd blank] at h
      contradiction
  | @cons attr attrs lead text between last nonempty lead_blank first others ih =>
    have later := ih hend
    subst hend
    have here : attribute? (lead ++ text) = some (attr, between) := by
      obtain ⟨c, lead, rfl, hc, hlead⟩ := exists_cons_of_all nonempty lead_blank
      rw [List.cons_append, attribute?, if_pos hc, skipGap,
        dropWhile_run hlead first.stops_isGap]
      exact first.named? (others.apart blank)
    rw [Lexer.attributes]
    split
    · next h => rw [here] at h; contradiction
    · next found _ h =>
      rw [here] at h
      cases h
      rw [later]

/-! ### Comments and tags -/

/-- A comment, a closing tag or an opening tag at the head of a text, and what follows it. -/
inductive Markup : Token → List Char → List Char → Prop
  | comment {data rest : List Char} (held : IsCommentData data) :
      Markup (.comment data) ("<!--".toList ++ (data ++ ("-->".toList ++ rest))) rest
  | closing {tag gap rest : List Char} (grammar : isTag tag = true)
      (blank : gap.all isGap = true) :
      Markup (.closing tag) ("</".toList ++ (tag ++ (gap ++ '>' :: rest))) rest
  | opening {tag text gap rest : List Char} {attrs : List (List Char × Option (List Char))}
      {closed : Bool} (grammar : isTag tag = true) (blank : gap.all isGap = true)
      (listed : Attributes attrs text (gap ++ (tagEnd closed ++ rest))) :
      Markup (.opening tag attrs closed) ('<' :: (tag ++ text)) rest

/-- No end mark begins inside the data of a comment and ends behind them: the last characters of
the mark would be those of the one that follows. -/
theorem append_ne_of_isCommentData {more : List Char} (held : IsCommentData ('-' :: data)) :
    data ++ ("-->".toList ++ rest) ≠ '-' :: '>' :: more := by
  intro h
  cases data with
  | nil => simp at h
  | cons d data =>
    cases data with
    | nil => simp at h
    | cons e data =>
      simp only [List.cons_append, List.cons.injEq] at h
      obtain ⟨rfl, rfl, -⟩ := h
      exact held (List.prefix_append "-->".toList data).isInfix

/-- The data of a comment end at the first end mark. -/
theorem commentData?_eq_some_iff : commentData? cs = some (data, rest) ↔
    IsCommentData data ∧ cs = data ++ ("-->".toList ++ rest) := by
  constructor
  · intro h
    fun_induction commentData? cs generalizing data with
    | case1 cs =>
      cases h
      exact ⟨by decide, rfl⟩
    | case2 => contradiction
    | case3 c cs noMark ih =>
      obtain ⟨⟨inner, r⟩, hinner, heq⟩ := Option.map_eq_some_iff.1 h
      cases heq
      obtain ⟨held, rfl⟩ := ih hinner
      refine ⟨fun inside => ?_, rfl⟩
      obtain ⟨more, here⟩ | later := List.infix_cons_iff.1 inside
      · cases here
        exact noMark _ rfl rfl
      · exact held later
  · rintro ⟨held, rfl⟩
    induction data with
    | nil => rfl
    | cons c data ih =>
      have hdata : IsCommentData data := fun h => held (h.trans (List.suffix_cons c data).isInfix)
      rw [List.cons_append, commentData?]
      · rw [ih hdata]
        rfl
      · rintro more rfl
        exact append_ne_of_isCommentData held

/-- A tag ends where no tag character follows. -/
theorem tag?_eq_some_iff : tag? cs = some (tag, rest) ↔
    isTag tag = true ∧ Stops isTagChar rest ∧ cs = tag ++ rest := by
  constructor
  · intro h
    cases cs with
    | nil => contradiction
    | cons c cs =>
      rw [tag?] at h
      split at h
      · next letter =>
        cases h
        refine ⟨?_, stops_dropWhile isTagChar cs, ?_⟩
        · rw [isTag, letter, List.all_takeWhile, Bool.and_true]
        · rw [List.cons_append, List.takeWhile_append_dropWhile]
      · contradiction
  · rintro ⟨grammar, stop, rfl⟩
    cases tag with
    | nil => simp [isTag] at grammar
    | cons c tag =>
      obtain ⟨letter, all⟩ : isLetter c = true ∧ tag.all isTagChar = true := by
        simpa [isTag] using grammar
      rw [List.cons_append, tag?, if_pos letter, takeWhile_run all stop, dropWhile_run all stop]

/-- A closing tag takes its tag, white space and the bracket. -/
theorem closing?_eq_some_iff : closing? cs = some (token, rest) ↔
    ∃ tag gap, token = .closing tag ∧ isTag tag = true ∧ gap.all isGap = true ∧
      cs = tag ++ (gap ++ '>' :: rest) := by
  constructor
  · intro h
    unfold closing? at h
    cases htag : tag? cs with
    | none => simp [htag] at h
    | some found =>
      obtain ⟨tag, r⟩ := found
      obtain ⟨grammar, -, rfl⟩ := tag?_eq_some_iff.1 htag
      simp only [htag, Option.bind_eq_bind, Option.bind_some] at h
      split at h
      · next hend =>
        cases h
        refine ⟨tag, r.takeWhile isGap, rfl, grammar, List.all_takeWhile, ?_⟩
        rw [← hend, skipGap, List.takeWhile_append_dropWhile]
      · contradiction
  · rintro ⟨tag, gap, rfl, grammar, blank, rfl⟩
    have stop : Stops isTagChar (gap ++ '>' :: rest) :=
      Stops.gap (stops_cons (by decide) _) blank fun _ => isTagChar_of_isGap
    rw [closing?, tag?_eq_some_iff.2 ⟨grammar, stop, rfl⟩]
    simp only [Option.bind_eq_bind, Option.bind_some, skipGap,
      dropWhile_run blank (stops_cons (by decide : isGap '>' = false) rest)]

/-- An opening tag takes its tag, its attributes, white space and the bracket, with a slash before
it if it is closed at once. -/
theorem opening?_eq_some_iff : opening? cs = some (token, rest) ↔
    ∃ tag attrs closed text gap, token = .opening tag attrs closed ∧ isTag tag = true ∧
      gap.all isGap = true ∧ Attributes attrs text (gap ++ (tagEnd closed ++ rest)) ∧
      cs = tag ++ text := by
  constructor
  · intro h
    unfold opening? at h
    cases htag : tag? cs with
    | none => simp [htag] at h
    | some found =>
      obtain ⟨tag, r⟩ := found
      obtain ⟨grammar, -, rfl⟩ := tag?_eq_some_iff.1 htag
      simp only [htag, Option.bind_eq_bind, Option.bind_some] at h
      have listed := attributes_of_attributes r
      have gap := List.takeWhile_append_dropWhile (p := isGap) (l := (attributes r).2)
      split at h
      · next hend =>
        cases h
        rw [show List.dropWhile isGap _ = _ from hend] at gap
        exact ⟨tag, _, false, r, _, rfl, grammar, List.all_takeWhile, gap.symm ▸ listed, rfl⟩
      · next hend =>
        cases h
        rw [show List.dropWhile isGap _ = _ from hend] at gap
        exact ⟨tag, _, true, r, _, rfl, grammar, List.all_takeWhile, gap.symm ▸ listed, rfl⟩
      · contradiction
  · rintro ⟨tag, attrs, closed, text, gap, rfl, grammar, blank, listed, rfl⟩
    obtain ⟨c, tail, same, noGap, -, noTag, -⟩ := tagEnd_cons closed rest
    have stop : Stops isTagChar text := by
      cases listed with
      | nil =>
        rw [same]
        exact Stops.gap (stops_cons noTag _) blank fun _ => isTagChar_of_isGap
      | cons nonempty blank first others =>
        exact stops_of_all nonempty blank (fun _ => isTagChar_of_isGap) _
    have noMore : Stops isGap (tagEnd closed ++ rest) := same ▸ stops_cons noGap tail
    rw [opening?, tag?_eq_some_iff.2 ⟨grammar, stop, rfl⟩]
    simp only [Option.bind_eq_bind, Option.bind_some, listed.attributes blank, skipGap,
      dropWhile_run blank noMore]
    cases closed <;> rfl

/-- **What an angle bracket starts** is a comment, a closing tag or an opening tag, or nothing. -/
theorem markup?_eq_some_iff : markup? cs = some (token, rest) ↔ Markup token ('<' :: cs) rest := by
  constructor
  · intro h
    unfold markup? at h
    split at h
    · obtain ⟨⟨data, r⟩, hdata, heq⟩ := Option.map_eq_some_iff.1 h
      cases heq
      obtain ⟨held, rfl⟩ := commentData?_eq_some_iff.1 hdata
      exact .comment held
    · obtain ⟨tag, gap, rfl, grammar, blank, rfl⟩ := closing?_eq_some_iff.1 h
      exact .closing grammar blank
    · obtain ⟨tag, attrs, closed, text, gap, rfl, grammar, blank, listed, rfl⟩ :=
        opening?_eq_some_iff.1 h
      exact .opening grammar blank listed
  · intro h
    cases h with
    | @comment data rest held =>
      show comment? (data ++ ("-->".toList ++ rest)) = _
      rw [comment?, commentData?_eq_some_iff.2 ⟨held, rfl⟩]
      rfl
    | closing grammar blank =>
      exact closing?_eq_some_iff.2 ⟨_, _, rfl, grammar, blank, rfl⟩
    | @opening tag text gap rest attrs closed grammar blank listed =>
      have found : opening? (tag ++ text) = some (.opening tag attrs closed, rest) :=
        opening?_eq_some_iff.2 ⟨tag, attrs, closed, text, gap, rfl, grammar, blank, listed, rfl⟩
      -- the letter that a tag starts with is neither an exclamation mark nor a slash
      cases tag with
      | nil => simp [isTag] at grammar
      | cons c tag =>
        have letter : isLetter c = true := by
          rw [isTag, Bool.and_eq_true] at grammar
          exact grammar.1
        unfold markup?
        split
        · next same =>
          rw [(List.cons.inj same).1] at letter
          exact absurd letter (by decide)
        · next same =>
          rw [(List.cons.inj same).1] at letter
          exact absurd letter (by decide)
        · exact found

/-! ### Tokens -/

/-- The token at the head of a text, and what follows it: markup, an angle bracket that starts none,
or text up to the next bracket. -/
inductive Heads : Token → List Char → List Char → Prop
  | markup {token : Token} {cs rest : List Char} (found : Markup token cs rest) :
      Heads token cs rest
  | angle {cs : List Char} (nothing : ∀ token rest, ¬ Markup token ('<' :: cs) rest) :
      Heads (.text ['<']) ('<' :: cs) cs
  | text {data rest : List Char} (nonempty : data ≠ []) (free : data.all (· != '<') = true)
      (stop : Stops (· != '<') rest) : Heads (.text data) (data ++ rest) rest

/-- Markup starts with an angle bracket. -/
theorem Markup.head (h : Markup token cs rest) : ∃ tail, cs = '<' :: tail := by
  cases h with
  | comment held => exact ⟨_, rfl⟩
  | closing grammar blank => exact ⟨_, rfl⟩
  | opening grammar blank listed => exact ⟨_, rfl⟩

/-- **The lexer takes the token at the head**, which is one only. -/
theorem next_eq_iff : next c cs = (token, rest) ↔ Heads token (c :: cs) rest := by
  constructor
  · intro h
    unfold next at h
    split at h
    · next bracket =>
      subst bracket
      cases hmarkup : markup? cs with
      | none =>
        rw [hmarkup] at h
        cases h
        refine .angle fun token rest found => ?_
        rw [markup?_eq_some_iff.2 found] at hmarkup
        contradiction
      | some found =>
        rw [hmarkup] at h
        cases h
        exact .markup (markup?_eq_some_iff.1 hmarkup)
    · next noBracket =>
      cases h
      have found := @Heads.text (c :: cs.takeWhile (· != '<')) _ (List.cons_ne_nil _ _)
        (by simp [noBracket]) (stops_dropWhile (· != '<') cs)
      rwa [List.cons_append, List.takeWhile_append_dropWhile] at found
  · intro h
    generalize hcs : c :: cs = whole at h
    cases h with
    | markup found =>
      obtain ⟨tail, rfl⟩ := found.head
      cases hcs
      rw [next, if_pos rfl, markup?_eq_some_iff.2 found]
      rfl
    | angle nothing =>
      cases hcs
      have none : markup? cs = none :=
        Option.eq_none_iff_forall_ne_some.2 fun found hfound =>
          nothing found.1 found.2 (markup?_eq_some_iff.1 hfound)
      rw [next, if_pos rfl, none]
      rfl
    | @text data rest nonempty free stop =>
      obtain ⟨d, data, rfl⟩ := List.exists_cons_of_ne_nil nonempty
      rw [List.cons_append] at hcs
      cases hcs
      obtain ⟨noBracket, all⟩ : c ≠ '<' ∧ data.all (· != '<') = true := by simpa using free
      rw [next, if_neg noBracket, takeWhile_run all stop, dropWhile_run all stop]

/-- A token takes something. -/
theorem Heads.length_lt (h : Heads token cs rest) : rest.length < cs.length := by
  cases cs with
  | nil =>
    generalize hcs : ([] : List Char) = whole at h
    cases h with
    | markup found =>
      obtain ⟨tail, rfl⟩ := found.head
      cases hcs
    | angle nothing => cases hcs
    | text nonempty free stop => exact absurd (List.append_eq_nil_iff.1 hcs.symm).1 nonempty
  | cons c cs =>
    have taken := next_length c cs
    rwa [next_eq_iff.2 h] at taken

/-- A text cut into tokens, each at the head of what is left. -/
inductive Cut : List Char → List Lexeme → Prop
  | nil : Cut [] []
  | cons {token : Token} {source rest : List Char} {lexemes : List Lexeme}
      (head : Heads token (source ++ rest) rest) (later : Cut rest lexemes) :
      Cut (source ++ rest) (⟨token, source⟩ :: lexemes)

/-- The characters that a token is read from and what follows them make up the text. -/
theorem take_append_next (c : Char) (cs : List Char) :
    (c :: cs).take ((c :: cs).length - (next c cs).2.length) ++ (next c cs).2 = c :: cs := by
  have suffix : (next c cs).2 <:+ c :: cs := (next_suffix c cs).trans (List.suffix_cons c cs)
  obtain ⟨source, hsource⟩ := suffix
  rw [← hsource]
  simp

/-- **The tokens of a text** are those that it is cut into, in one way only. -/
theorem lex_eq_iff {lexemes : List Lexeme} : lex cs = lexemes ↔ Cut cs lexemes := by
  constructor
  · rintro rfl
    fun_induction lex cs with
    | case1 => exact .nil
    | case2 c cs ih =>
      have whole := take_append_next c cs
      have head : Heads (next c cs).1 (c :: cs) (next c cs).2 := next_eq_iff.1 rfl
      have cut := Cut.cons (whole.symm ▸ head) ih
      rwa [whole] at cut
  · intro h
    induction h with
    | nil => rw [lex]
    | @cons token source rest lexemes head later ih =>
      have shorter := head.length_lt
      generalize hcs : source ++ rest = whole at head shorter
      cases whole with
      | nil => exact absurd shorter (Nat.not_lt_zero _)
      | cons c cs =>
        have found := next_eq_iff.2 head
        have taken := take_append_next c cs
        rw [found, ← hcs] at taken
        rw [lex, found, ih, ← hcs, List.append_cancel_right taken]

end Lexer

end Bindery
