import Bindery.Proofs.Markup.Tokens

namespace Bindery

/-!
# Written markup is read back

Reading is followed token by token, without the offsets, which only errors show.

* `Assembly.Reads` — what reading a text makes of an assembly.
* `Assembly.reads_write`, `Assembly.reads_writeAll` — reading what was written adds the trees that
  were written, whatever follows.
* `readMarkup_writeAll`, `readMarkup_html` — so writing a canonical fragment and reading it is the
  identity.
-/

open Lexer

namespace Assembly

variable {α : Type} {cs rest : List Char} {a b c : Assembly}

/-- Closing the innermost element closes that element. -/
theorem closeTag_ok {tag : String} {offset : Nat} (h : a.closeTag tag offset = .ok b) :
    (isVoid tag = true ∧ b = a) ∨
      ∃ attrs before outer, isVoid tag = false ∧ a.enclosing = ⟨tag, attrs, before⟩ :: outer ∧
        b = ⟨.node () (.element tag attrs) a.siblings.reverse :: before, outer⟩ := by
  unfold closeTag at h
  split at h
  · next hvoid => exact .inl ⟨hvoid, (Except.ok.inj h).symm⟩
  · next hvoid =>
    split at h
    · contradiction
    · next inner outer henclosing =>
      split at h
      · next hsame =>
        subst hsame
        exact .inr ⟨inner.attrs, inner.before, outer, by simpa using hvoid, henclosing,
          (Except.ok.inj h).symm⟩
      · contradiction

/-- A closing tag of a void element closes nothing. -/
theorem closeTag_void {tag : String} (void : isVoid tag = true) (offset : Nat) (a : Assembly) :
    a.closeTag tag offset = .ok a :=
  if_pos void

/-- A closing tag closes the innermost element, if it is its own, with the content read since. -/
theorem closeTag_open {tag : String} (notVoid : isVoid tag = false) (offset : Nat)
    (content before : List (Tree Unit)) (attrs : List (String × String)) (outer : List Enclosure) :
    closeTag tag offset ⟨content, ⟨tag, attrs, before⟩ :: outer⟩ =
      .ok ⟨.node () (.element tag attrs) content.reverse :: before, outer⟩ := by
  unfold closeTag
  rw [if_neg (by simp [notVoid])]
  exact if_pos rfl

/-- Where a token starts matters to errors only. -/
theorem take_ok {token : Token} {offset : Nat} (h : a.take token offset = .ok b)
    (offset' : Nat) : a.take token offset' = .ok b := by
  cases token with
  | closing tag =>
    rw [take] at h ⊢
    rcases closeTag_ok h with ⟨void, rfl⟩ | ⟨attrs, before, outer, notVoid, henclosing, rfl⟩
    · exact closeTag_void void offset' b
    · obtain ⟨siblings, enclosing⟩ := a
      cases henclosing
      exact closeTag_open notVoid offset' siblings before attrs outer
  | opening tag attrs closed => rw [take] at h ⊢; exact h
  | comment data => rw [take] at h ⊢; exact h
  | text data => rw [take] at h ⊢; exact h

/-- Reading a text, wherever it starts, leads from one assembly to another. -/
inductive Reads : List Char → Assembly → Assembly → Prop where
  | done (a : Assembly) : Reads [] a a
  | token {x : Char} {cs rest : List Char} {token : Token} {a b c : Assembly}
      (head : next x cs = (token, rest)) (taken : a.take token 0 = .ok b)
      (after : Reads rest b c) : Reads (x :: cs) a c

/-- What can be read is read from any offset on. -/
theorem Reads.takeAll_lex (h : Reads cs a b) :
    ∀ offset, takeAll (lex cs) offset a = .ok b := by
  induction h with
  | done a => intro offset; rw [lex, takeAll]
  | token head taken _ ih =>
    intro offset
    rw [lex, takeAll, head, take_ok taken]
    exact ih _

/-- What is read from some offset on can be read. -/
theorem reads_of_takeAll_lex {cs : List Char} {a b : Assembly} {offset : Nat}
    (h : takeAll (lex cs) offset a = .ok b) : Reads cs a b := by
  induction hlen : cs.length using Nat.strongRecOn generalizing cs offset a with
  | ind n ih =>
    cases cs with
    | nil =>
      rw [lex, takeAll] at h
      cases h
      exact .done _
    | cons x cs =>
      rw [lex, takeAll] at h
      split at h
      · next taken =>
        have hshorter := next_length x cs
        exact .token rfl (take_ok taken 0) (ih _ (hlen ▸ hshorter) h rfl)
      · contradiction

/-! ### Adding what was read -/

/-- Adds a row of finished nodes. -/
def pushAll (ts : List (Tree Unit)) (a : Assembly) : Assembly :=
  ⟨ts.reverse ++ a.siblings, a.enclosing⟩

@[simp] theorem pushAll_nil (a : Assembly) : a.pushAll [] = a := rfl

@[simp] theorem pushAll_cons (t : Tree Unit) (ts : List (Tree Unit)) (a : Assembly) :
    a.pushAll (t :: ts) = (a.push t).pushAll ts := by
  simp [pushAll, push]

/-- Text that follows no text becomes a node. -/
theorem pushText_of_apart {data : List Char}
    (apart : ∀ t ∈ a.siblings.head?, t.kind.isText = false) :
    a.pushText data = a.push (.node () (.text (String.ofList data)) []) := by
  unfold pushText
  split
  · next h =>
    rw [h] at apart
    exact absurd (apart _ rfl) (by simp [Kind.isText])
  · rfl

/-- An attribute of a new name is put at the end. -/
theorem setIn_of_notMem {name : String} (value : String) {attrs : List (String × String)}
    (new : name ∉ attrs.map Prod.fst) : Kind.setIn name value attrs = attrs ++ [(name, value)] := by
  induction attrs with
  | nil => rfl
  | cons attr attrs ih =>
    obtain ⟨hne, hnew⟩ : ¬ name = attr.1 ∧ name ∉ attrs.map Prod.fst := by simpa using new
    rw [Kind.setIn, if_neg (Ne.symm hne), ih hnew, List.cons_append]

/-- Attributes of different names are read as they were written. -/
theorem attrs_written {attrs : List (String × String)} (distinct : (attrs.map Prod.fst).Nodup) :
    Assembly.attrs (attrs.map written) = attrs := by
  -- after a part of the attributes, these are what is there
  have hparts : ∀ done todo : List (String × String), ((done ++ todo).map Prod.fst).Nodup →
      (todo.map written).foldl (fun done attr =>
        Kind.setIn (String.ofList attr.1) (String.ofList (decodeReferences (attr.2.getD []))) done)
        done = done ++ todo := by
    intro done todo
    induction todo generalizing done with
    | nil => intro _; simp
    | cons attr todo ih =>
      intro hdistinct
      have hnew : attr.1 ∉ done.map Prod.fst := by
        rw [List.map_append, List.map_cons] at hdistinct
        intro hmem
        exact List.nodup_append.1 hdistinct |>.2.2 _ hmem _ (by simp) rfl
      rw [List.map_cons, List.foldl_cons]
      simp only [written, Option.getD_some, String.ofList_toList, decodeReferences_escapeAttr]
      rw [setIn_of_notMem _ hnew]
      rw [ih _ (by simpa using hdistinct)]
      simp
  exact hparts [] attrs (by simpa using distinct)

end Assembly

namespace Tree

variable {α : Type}

/-- Markup is written for all but texts from an angle bracket on. -/
theorem write_eq_cons {t : Tree α} (canonical : Canonical t) (notText : t.kind.isText = false) :
    ∃ cs, t.write = '<' :: cs := by
  obtain ⟨label, kind, children⟩ := t
  cases kind with
  | element tag attrs => exact ⟨_, by rw [write]; rfl⟩
  | text data => simp [Kind.isText] at notText
  | comment data => exact ⟨_, by rw [write]; rfl⟩
  | fragment => exact absurd canonical (by simp [Canonical])

/-- After a text its row goes on with an angle bracket, if it goes on. -/
theorem stops_writeAll {t : Tree α} {ts : List (Tree α)} {rest : List Char}
    (canonical : CanonicalAll (t :: ts)) (text : t.kind.isText = true)
    (stop : Stops (· != '<') rest) : Stops (· != '<') (writeAll ts ++ rest) := by
  cases ts with
  | nil => exact stop
  | cons u ts =>
    rw [CanonicalAll, CanonicalAll] at canonical
    obtain ⟨_, apart, hu, _, _⟩ := canonical
    obtain ⟨cs, hcs⟩ := write_eq_cons hu (apart u rfl text)
    rw [writeAll_cons, hcs]
    exact stops_cons (by decide) _

end Tree

namespace Assembly

variable {α : Type} {rest : List Char} {a b : Assembly}

open Bindery.Tree

/-- Reading an opening tag opens the element, or adds it if it never has content. -/
theorem reads_opening {tag : String} {attrs : List (String × String)}
    (grammar : isTag tag.toList = true) (lower : lowerTag tag = tag) (held : IsAttributes attrs)
    (after : Reads rest (a.openTag tag attrs false) b) :
    Reads ('<' :: (openingText tag attrs ++ rest)) a b := by
  refine .token (next_opening grammar held.named rest) ?_ after
  rw [take, String.ofList_toList, lower, attrs_written held.distinct]

/-- Reading a closing tag closes the element that is open. -/
theorem reads_closing {tag : String} {attrs : List (String × String)} {outer : List Enclosure}
    {content before : List (Tree Unit)} (grammar : isTag tag.toList = true)
    (lower : lowerTag tag = tag) (notVoid : isVoid tag = false)
    (after : Reads rest ⟨.node () (.element tag attrs) content.reverse :: before, outer⟩ b) :
    Reads ('<' :: '/' :: (tag.toList ++ '>' :: rest))
      ⟨content, ⟨tag, attrs, before⟩ :: outer⟩ b := by
  refine .token (next_closing grammar rest) ?_ after
  rw [take, String.ofList_toList, lower, closeTag_open notVoid]

mutual

/-- **Reading a written tree adds it**, whatever markup follows.  A text must not follow another
one, nor have another one follow. -/
theorem reads_write {a : Assembly} {rest : List Char} : ∀ t : Tree α, Canonical t →
    (t.kind.isText = true →
      Stops (· != '<') rest ∧ ∀ u ∈ a.siblings.head?, u.kind.isText = false) →
    Reads rest (a.push t.bare) b → Reads (t.write ++ rest) a b
  | node label (.element tag attrs) children, canonical, _, after => by
    rw [Canonical] at canonical
    obtain ⟨⟨grammar, lower⟩, held, hvoid, hchildren⟩ := canonical
    rw [bare_node] at after
    cases void : isVoid tag with
    | true =>
      have hshape : (node label (.element tag attrs) children).write ++ rest =
          '<' :: (openingText tag attrs ++ rest) := by
        simp [write, openingText, void]
      rw [hvoid void] at after
      rw [hshape]
      refine reads_opening grammar lower held ?_
      rw [openTag, void]
      exact after
    | false =>
      have hshape : (node label (.element tag attrs) children).write ++ rest =
          '<' :: (openingText tag attrs ++
            (writeAll children ++ '<' :: '/' :: (tag.toList ++ '>' :: rest))) := by
        simp [write, openingText, void]
      rw [hshape]
      refine reads_opening grammar lower held ?_
      rw [openTag, void]
      -- between the two tags the children are read, below the element that is now open
      refine reads_writeAll children hchildren (stops_cons (by decide) _) (by simp) ?_
      refine reads_closing grammar lower void ?_
      simpa [pushAll, push] using after
  | node label (.text data) children, canonical, apart, after => by
    rw [Canonical] at canonical
    obtain ⟨hne, rfl⟩ := canonical
    obtain ⟨stop, hbefore⟩ := apart rfl
    have hfree := bracket_free_escapeText data.toList
    have hdecoded := decodeReferences_escapeText data.toList
    rw [write]
    cases hescaped : escapeText data.toList with
    | nil =>
      rw [hescaped] at hdecoded
      exact absurd (String.toList_eq_nil_iff.1 hdecoded.symm) hne
    | cons c cs =>
      rw [hescaped] at hfree hdecoded
      refine .token (next_text hfree stop) ?_ after
      rw [take, hdecoded, pushText_of_apart hbefore, String.ofList_toList, bare_node, List.map_nil]
  | node label (.comment data) children, canonical, _, after => by
    rw [Canonical] at canonical
    obtain ⟨held, rfl⟩ := canonical
    have hshape : (node label (.comment data) ([] : List (Tree α))).write ++ rest =
        '<' :: '!' :: '-' :: '-' :: (data.toList ++ ("-->".toList ++ rest)) := by
      simp [write]
    rw [hshape]
    refine .token (next_comment held rest) ?_ after
    rw [take, String.ofList_toList, bare_node, List.map_nil]
  | node label .fragment children, canonical, _, _ => by
    simp [Canonical] at canonical

/-- **Reading a written row of trees adds them.**  The row must not put two texts side by side, and
markup or nothing has to follow it. -/
theorem reads_writeAll {a : Assembly} {rest : List Char} : ∀ ts : List (Tree α), CanonicalAll ts →
    Stops (· != '<') rest →
    (∀ t ∈ ts.head?, t.kind.isText = true → ∀ u ∈ a.siblings.head?, u.kind.isText = false) →
    Reads rest (a.pushAll (ts.map bare)) b → Reads (writeAll ts ++ rest) a b
  | [], _, _, _, after => after
  | t :: ts, canonical, stop, apart, after => by
    have hts := canonical
    rw [CanonicalAll] at hts
    obtain ⟨ht, hapart, hts⟩ := hts
    rw [List.map_cons, pushAll_cons] at after
    rw [writeAll_cons, List.append_assoc]
    refine reads_write t ht (fun text => ?_) (reads_writeAll ts hts stop ?_ after)
    · exact ⟨stops_writeAll canonical text stop, apart t rfl text⟩
    · -- the tree just read is the one before the next
      intro u hu text v hv
      cases hv
      rw [kind_bare]
      exact (hapart u hu).symm text

end

end Assembly

/-- What was written of a canonical row is read back, each node bare. -/
theorem readMarkup_writeAll {α : Type} {ts : List (Tree α)} (canonical : Tree.CanonicalAll ts) :
    readMarkup (String.ofList (Tree.writeAll ts)) = .ok (ts.map Tree.bare) := by
  have hread : Assembly.Reads (Tree.writeAll ts ++ []) .empty
      (Assembly.empty.pushAll (ts.map Tree.bare)) :=
    Assembly.reads_writeAll ts canonical (by simp [Stops]) (by simp [Assembly.empty]) (.done _)
  rw [List.append_nil] at hread
  rw [readMarkup, String.toList_ofList, hread.takeAll_lex 0]
  simp [Assembly.finish, Assembly.pushAll, Assembly.empty]

/-- **Writing is undone by reading.**  A canonical fragment is read from its markup with the same
nodes in the same order, whatever their data and attribute values; and references in what is read
are decoded by their rules. -/
theorem readMarkup_html :
    (∀ {α : Type} (label : α) (ts : List (Tree α)), Tree.CanonicalAll ts →
      readMarkup (Tree.node label .fragment ts).html = .ok (ts.map Tree.bare)) ∧
    ∀ cs out, decodeReferences cs = out ↔ Decodes cs out := by
  refine ⟨fun label ts canonical => ?_, decodeReferences_eq_iff⟩
  rw [Tree.html, Tree.write]
  exact readMarkup_writeAll canonical

/-- Attribute values, texts and a comment that look like markup and like references. -/
def misleading : List (Tree Nat) :=
  [.node 1 (.element "p" [("title", "&quot;> \"<b>\" &"), ("@click.x", "/>")])
    [.node 2 (.text "&amp;amp; </p> &#38") [], .node 3 (.element "br" [("a", "")]) []],
   .node 4 (.comment "<!-- -- > &lt; -") [],
   .node 5 (.text " -->") []]

/-- Strings that look like markup, references or the end of a comment come back as they are. -/
theorem readMarkup_html_misleading :
    Tree.CanonicalAll misleading ∧
      (Tree.node 0 .fragment misleading).html =
        "<p title=\"&amp;quot;> &quot;<b>&quot; &amp;\" @click.x=\"/>\">" ++
          "&amp;amp;amp; &lt;/p&gt; &amp;#38<br a=\"\"></p>" ++
          "<!--<!-- -- > &lt; ---> --&gt;" ∧
      readMarkup (Tree.node 0 .fragment misleading).html = .ok (misleading.map Tree.bare) := by
  have canonical : Tree.CanonicalAll misleading := by decide +kernel
  exact ⟨canonical, by decide +kernel, readMarkup_html.1 0 misleading canonical⟩

end Bindery
