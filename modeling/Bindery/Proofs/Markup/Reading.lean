import Bindery.Proofs.Markup.RoundTrip
import Mathlib

namespace Bindery

/-!
# What is read is canonical

* `Token.Proper` — the tokens there are; `Lexer.next_proper` says that the lexer finds no others.
* `Assembly.Proper` — the assemblies there are; `Assembly.take_proper` says that such a token leads
  from one to another.
* `canonicalAll_of_readMarkup` — so what is read is canonical.
* `Tree.Regular`, `regular_of_readMarkup` — what that means for each of its nodes; and written and
  read again it is the same.
-/

/-! ### Tags in lower case -/

/-- Lower case is lower case already. -/
theorem lowerTag_lowerTag (tag : String) : lowerTag (lowerTag tag) = lowerTag tag := by
  rw [lowerTag, lowerTag, String.toList_ofList, List.map_map]
  exact congrArg String.ofList (List.map_congr_left fun c _ => Char.toLower_toLower_eq_toLower c)

namespace Lexer

variable {cs rest : List Char}

/-- A tag character in lower case is a tag character. -/
theorem isTagChar_toLower {c : Char} (h : isTagChar c = true) : isTagChar c.toLower = true := by
  by_cases upper : c.isUpper
  · have letter : c.toLower.isAlpha = true := by
      rw [Char.isAlpha_toLower_eq_isAlpha]
      show (c.isUpper || c.isLower) = true
      rw [upper, Bool.true_or]
    simp [isTagChar, Char.isAlphanum, letter]
  · rwa [Char.toLower_eq_of_not_isUpper upper]

/-- A tag in lower case is a tag. -/
theorem isTag_lowerTag {tag : List Char} (grammar : isTag tag = true) :
    isTag (lowerTag (String.ofList tag)).toList = true := by
  cases tag with
  | nil => simp [isTag] at grammar
  | cons c tag =>
    obtain ⟨hc, htag⟩ : isLetter c = true ∧ ∀ d ∈ tag, isTagChar d = true := by
      simpa [isTag] using grammar
    simp only [lowerTag, String.toList_ofList, List.map_cons, isTag, Bool.and_eq_true,
      List.all_eq_true, List.mem_map]
    refine ⟨?_, ?_⟩
    · rwa [isLetter, Char.isAlpha_toLower_eq_isAlpha]
    · rintro _ ⟨d, hd, rfl⟩
      exact isTagChar_toLower (htag d hd)

/-- The names of attributes are names. -/
theorem Attributes.named {attrs : List (List Char × Option (List Char))}
    (h : Attributes attrs cs rest) : ∀ attr ∈ attrs, isName attr.1 = true := by
  induction h with
  | nil => simp
  | cons _ _ first _ ih =>
    refine List.forall_mem_cons.2 ⟨?_, ih⟩
    cases first with
    | alone grammar => exact grammar
    | valued grammar => exact grammar

end Lexer

/-! ### Tokens -/

/-- Tokens as the lexer finds them. -/
def Token.Proper : Token → Prop
  | opening tag attrs _ => Lexer.isTag tag = true ∧ ∀ attr ∈ attrs, Lexer.isName attr.1 = true
  | closing _ => True
  | comment data => IsCommentData data
  | text data => data ≠ []

/-- By the grammar of tokens there are proper ones only. -/
theorem Lexer.Heads.proper {token : Token} {cs rest : List Char} (h : Heads token cs rest) :
    token.Proper := by
  cases h with
  | markup found =>
    cases found with
    | comment held => exact held
    | closing grammar blank => exact trivial
    | opening grammar blank listed => exact ⟨grammar, listed.named⟩
  | angle nothing => exact List.cons_ne_nil _ _
  | text nonempty free stop => exact nonempty

/-- **The lexer finds proper tokens only.** -/
theorem Lexer.next_proper (c : Char) (cs : List Char) : (next c cs).1.Proper :=
  (next_eq_iff.1 rfl).proper

/-! ### Attributes -/

/-- Whether attributes can be held is a matter of their names. -/
theorem isAttributes_iff (attrs : List (String × String)) :
    IsAttributes attrs ↔ (∀ name ∈ attrs.map Prod.fst, Lexer.isName name.toList = true) ∧
      (attrs.map Prod.fst).Nodup := by
  constructor
  · rintro ⟨named, distinct⟩
    refine ⟨fun name hname => ?_, distinct⟩
    obtain ⟨attr, hattr, rfl⟩ := List.mem_map.1 hname
    exact named attr hattr
  · rintro ⟨named, distinct⟩
    exact ⟨fun attr hattr => named _ (List.mem_map.2 ⟨attr, hattr, rfl⟩), distinct⟩

/-- Setting an attribute leaves the names, or adds one that was not there. -/
theorem map_fst_setIn (name value : String) (attrs : List (String × String)) :
    (Kind.setIn name value attrs).map Prod.fst =
      if name ∈ attrs.map Prod.fst then attrs.map Prod.fst else attrs.map Prod.fst ++ [name] := by
  by_cases hmem : name ∈ attrs.map Prod.fst
  · rw [if_pos hmem]
    induction attrs with
    | nil => simp at hmem
    | cons attr attrs ih =>
      rw [Kind.setIn]
      by_cases h : attr.1 = name
      · rw [if_pos h, List.map_cons, List.map_cons]
      · have hrest : name ∈ attrs.map Prod.fst := by
          simpa [Ne.symm h] using hmem
        rw [if_neg h, List.map_cons, ih hrest, List.map_cons]
  · rw [if_neg hmem, Assembly.setIn_of_notMem value hmem, List.map_append]
    rfl

/-- Setting an attribute with a name keeps attributes that can be held. -/
theorem IsAttributes.setIn {attrs : List (String × String)} (h : IsAttributes attrs) {name : String}
    (named : Lexer.isName name.toList = true) (value : String) :
    IsAttributes (Kind.setIn name value attrs) := by
  rw [isAttributes_iff] at h ⊢
  obtain ⟨hnamed, hdistinct⟩ := h
  rw [map_fst_setIn]
  split
  · exact ⟨hnamed, hdistinct⟩
  · next hnew =>
    refine ⟨fun n hn => ?_, List.nodup_append.2 ⟨hdistinct, List.nodup_singleton _, ?_⟩⟩
    · rcases List.mem_append.1 hn with hn | hn
      · exact hnamed n hn
      · rwa [List.mem_singleton.1 hn]
    · rintro n hn m hm rfl
      exact hnew (List.mem_singleton.1 hm ▸ hn)

/-- The attributes of a proper tag can be held. -/
theorem Assembly.isAttributes_attrs {tokens : List (List Char × Option (List Char))}
    (named : ∀ attr ∈ tokens, Lexer.isName attr.1 = true) :
    IsAttributes (Assembly.attrs tokens) := by
  refine List.foldlRecOn tokens _ ⟨by simp, by simp⟩ fun done hdone attr hattr => ?_
  exact hdone.setIn (by rw [String.toList_ofList]; exact named attr hattr) _

/-! ### Assemblies -/

/-- An open element that makes a canonical one when it is closed. -/
structure Enclosure.Proper (e : Enclosure) : Prop where
  grammar : Lexer.isTag e.tag.toList = true
  lower : lowerTag e.tag = e.tag
  held : IsAttributes e.attrs
  before : Tree.CanonicalAll e.before

namespace Assembly

open Bindery.Tree

variable {cs : List Char} {a b : Assembly}

/-- An assembly of canonical trees. -/
structure Proper (a : Assembly) : Prop where
  siblings : CanonicalAll a.siblings
  enclosing : ∀ e ∈ a.enclosing, e.Proper

/-- Reading starts with a proper assembly. -/
theorem empty_proper : empty.Proper :=
  ⟨trivial, fun _ h => absurd h (List.not_mem_nil)⟩

/-- A canonical tree may join its siblings, unless two texts would be neighbours. -/
theorem Proper.push (h : a.Proper) {t : Tree Unit} (canonical : Canonical t)
    (apart : ∀ u ∈ a.siblings.head?, Apart t u) : (a.push t).Proper :=
  ⟨⟨canonical, apart, h.siblings⟩, h.enclosing⟩

/-- What is no text can stand anywhere. -/
theorem apart_of_notText {t : Tree Unit} (notText : t.kind.isText = false) (u : Tree Unit) :
    Apart t u := by
  intro text
  rw [notText] at text
  contradiction

/-- A text joins the text before it, if there is one. -/
theorem Proper.pushText (h : a.Proper) {data : List Char} (hne : data ≠ []) :
    (a.pushText data).Proper := by
  have htext : ∀ cs : List Char, cs ≠ [] →
      Canonical (.node () (.text (String.ofList cs)) [] : Tree Unit) :=
    fun cs hcs => ⟨by simpa using hcs, rfl⟩
  unfold Assembly.pushText
  split
  · next label before children rest heq =>
    -- the text that grows has no text beside it, so neither has what becomes of it
    have hsiblings := h.siblings
    rw [heq, CanonicalAll] at hsiblings
    obtain ⟨_, apart, hrest⟩ := hsiblings
    exact ⟨⟨htext _ (by simp [hne]), apart, hrest⟩, h.enclosing⟩
  · next hhead =>
    refine h.push (htext data hne) fun u hu _ => ?_
    obtain ⟨rest, hrest⟩ := List.head?_eq_some_iff.1 hu
    obtain ⟨label, kind, children⟩ := u
    cases kind with
    | text before => exact absurd hrest (hhead label before children rest)
    | element tag attrs => rfl
    | comment before => rfl
    | fragment => rfl

/-- Opening an element leaves the assembly proper, whether or not it is closed at once. -/
theorem Proper.openTag (h : a.Proper) {tag : String} {attrs : List (String × String)}
    (grammar : Lexer.isTag tag.toList = true) (lower : lowerTag tag = tag)
    (held : IsAttributes attrs) (closed : Bool) : (a.openTag tag attrs closed).Proper := by
  unfold Assembly.openTag
  split
  · refine h.push ⟨⟨grammar, lower⟩, held, fun _ => rfl, trivial⟩ fun u _ => ?_
    exact apart_of_notText rfl u
  · refine ⟨trivial, fun e he => ?_⟩
    rcases List.mem_cons.1 he with rfl | he
    · exact ⟨grammar, lower, held, h.siblings⟩
    · exact h.enclosing e he

/-- So does closing one, which is canonical then. -/
theorem Proper.closeTag (h : a.Proper) {tag : String} {offset : Nat}
    (closed : a.closeTag tag offset = .ok b) : b.Proper := by
  rcases closeTag_ok closed with ⟨_, rfl⟩ | ⟨attrs, before, outer, notVoid, henclosing, rfl⟩
  · exact h
  · have henclosings := h.enclosing
    rw [henclosing, List.forall_mem_cons] at henclosings
    obtain ⟨inner, houter⟩ := henclosings
    refine Proper.push (a := ⟨before, outer⟩) ⟨inner.before, houter⟩ ?_ fun u _ => ?_
    · refine ⟨⟨inner.grammar, inner.lower⟩, inner.held, fun void => ?_, ?_⟩
      · rw [notVoid] at void
        contradiction
      · exact (canonicalAll_reverse _).2 h.siblings
    · exact apart_of_notText rfl u

/-- **A token leads from one proper assembly to another.** -/
theorem take_proper (h : a.Proper) {token : Token} (proper : token.Proper) {offset : Nat}
    (taken : a.take token offset = .ok b) : b.Proper := by
  cases token with
  | opening tag attrs closed =>
    rw [take] at taken
    cases taken
    obtain ⟨grammar, named⟩ := proper
    exact h.openTag (Lexer.isTag_lowerTag grammar) (lowerTag_lowerTag _) (isAttributes_attrs named)
      closed
  | closing tag =>
    rw [take] at taken
    exact h.closeTag taken
  | comment data =>
    rw [take] at taken
    cases taken
    refine h.push ⟨?_, rfl⟩ fun u _ => apart_of_notText rfl u
    rw [String.toList_ofList]
    exact proper
  | text data =>
    rw [take] at taken
    cases taken
    exact h.pushText (decodeReferences_ne_nil proper)

/-- **Reading leads from one proper assembly to another.** -/
theorem Reads.proper (h : Reads cs a b) (ha : a.Proper) : b.Proper := by
  induction h with
  | done => exact ha
  | @token x cs rest token a b c head taken _ ih =>
    have hproper : token.Proper := by
      have := Lexer.next_proper x cs
      rwa [head] at this
    exact ih (take_proper ha hproper taken)

end Assembly

/-- **What is read is canonical**, whatever the markup. -/
theorem canonicalAll_of_readMarkup {markup : String} {ts : List (Tree Unit)}
    (h : readMarkup markup = .ok ts) : Tree.CanonicalAll ts := by
  unfold readMarkup at h
  split at h
  · next a ha =>
    have hproper : a.Proper := (Assembly.reads_of_takeAll_lex ha).proper Assembly.empty_proper
    unfold Assembly.finish at h
    split at h
    · cases h
      exact (Tree.canonicalAll_reverse _).2 hproper.siblings
    · contradiction
  · contradiction

/-! ### Node by node -/

/-- The grammar of attribute names, character by character. -/
theorem Lexer.isName_iff {name : String} : isName name.toList = true ↔ name ≠ "" ∧
    ∀ c ∈ name.toList, isBlank c = false ∧ c ∉ ['"', '\'', '<', '>', '/', '='] := by
  simp [isName, isNameChar, and_assoc]

namespace Tree

variable {α : Type}

/-- A node as markup has it, whatever is further down. -/
def Regular (t : Tree α) : Prop :=
  t.children.IsChain Apart ∧ match t.kind with
    | .element tag attrs =>
      Lexer.isTag tag.toList = true ∧ lowerTag tag = tag ∧ (isVoid tag = true → t.children = []) ∧
        (attrs.map Prod.fst).Nodup ∧ ∀ name ∈ attrs.map Prod.fst, name ≠ "" ∧
          ∀ c ∈ name.toList, isBlank c = false ∧ c ∉ ['"', '\'', '<', '>', '/', '=']
    | .text data => data ≠ "" ∧ t.children = []
    | .comment data => ¬ "-->".toList <:+: data.toList ∧ t.children = []
    | .fragment => False

mutual

/-- Every node of a canonical tree is regular. -/
theorem regular_of_canonical {u : Tree α} :
    ∀ t : Tree α, Canonical t → u ∈ t.subtrees → u.Regular
  | node label kind children, canonical, h => by
    obtain rfl | inside := List.mem_cons.1 h
    · cases kind with
      | element tag attrs =>
        obtain ⟨⟨grammar, lower⟩, held, void, below⟩ := canonical
        obtain ⟨named, distinct⟩ := (isAttributes_iff attrs).1 held
        exact ⟨((canonicalAll_iff children).1 below).2, grammar, lower, void, distinct,
          fun name hname => Lexer.isName_iff.1 (named name hname)⟩
      | text data =>
        obtain ⟨nonempty, rfl⟩ := canonical
        exact ⟨.nil, nonempty, rfl⟩
      | comment data =>
        obtain ⟨held, rfl⟩ := canonical
        exact ⟨.nil, held, rfl⟩
      | fragment => exact canonical.elim
    · cases kind with
      | element tag attrs => exact regular_of_canonicalAll children canonical.2.2.2 inside
      | text data =>
        obtain ⟨-, rfl⟩ := canonical
        exact absurd inside List.not_mem_nil
      | comment data =>
        obtain ⟨-, rfl⟩ := canonical
        exact absurd inside List.not_mem_nil
      | fragment => exact canonical.elim

/-- Every node of canonical trees is regular. -/
theorem regular_of_canonicalAll {u : Tree α} :
    ∀ ts : List (Tree α), CanonicalAll ts → u ∈ subtreesAmong ts → u.Regular
  | t :: rest, canonical, h => by
    obtain ⟨first, -, later⟩ := canonical
    obtain inside | inside := List.mem_append.1 h
    · exact regular_of_canonical t first inside
    · exact regular_of_canonicalAll rest later inside

end

mutual

/-- Trees that have nothing on their labels are bare. -/
theorem bare_eq : ∀ t : Tree Unit, t.bare = t
  | node _ kind children => by rw [bare_node, map_bare_eq children]

/-- Trees without labels are bare already. -/
theorem map_bare_eq : ∀ ts : List (Tree Unit), ts.map bare = ts
  | [] => rfl
  | t :: rest => by rw [List.map_cons, bare_eq t, map_bare_eq rest]

end

end Tree

/-- **What is read can be written and read again.**  At every depth texts are not empty and have no
texts beside them; tags are in lower case and follow the grammar; only elements that are not void
have children; attributes have names of their own; no comment ends before its end.  So the markup
that is written of it is read as the same. -/
theorem regular_of_readMarkup {markup : String} {ts : List (Tree Unit)}
    (h : readMarkup markup = .ok ts) :
    ts.IsChain Tree.Apart ∧ (∀ t ∈ Tree.subtreesAmong ts, t.Regular) ∧
      readMarkup (Tree.node () .fragment ts).html = .ok ts := by
  have canonical := canonicalAll_of_readMarkup h
  refine ⟨((Tree.canonicalAll_iff ts).1 canonical).2,
    fun t => Tree.regular_of_canonicalAll ts canonical, ?_⟩
  rw [Tree.html, Tree.write, readMarkup_writeAll canonical, Tree.map_bare_eq]

/-- Sloppy markup is put in order, and then stays the same. -/
theorem regular_of_readMarkup_sloppy : ∃ ts,
    readMarkup "<DIV A=1 a='&lt;' A>x &amp<b</div>" = .ok ts ∧
      (Tree.node () .fragment ts).html = "<div A=\"\" a=\"<\">x &amp;amp&lt;b</div>" ∧
      readMarkup "<div A=\"\" a=\"<\">x &amp;amp&lt;b</div>" = .ok ts := by
  have outcome : ((readMarkup "<DIV A=1 a='&lt;' A>x &amp<b</div>").toOption.any fun ts =>
      (Tree.node () .fragment ts).html = "<div A=\"\" a=\"<\">x &amp;amp&lt;b</div>") = true := by
    decide +kernel
  obtain ⟨ts, hread, written⟩ := (Option.any_eq_true _ _).1 outcome
  have h : readMarkup "<DIV A=1 a='&lt;' A>x &amp<b</div>" = .ok ts := by
    revert hread
    cases readMarkup "<DIV A=1 a='&lt;' A>x &amp<b</div>" with
    | error e => exact nofun
    | ok ts' => exact fun hread => congrArg Except.ok (Option.some.inj hread)
  have html := of_decide_eq_true written
  exact ⟨ts, h, html, html ▸ (regular_of_readMarkup h).2.2⟩

end Bindery
