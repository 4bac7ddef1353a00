import Bindery.Proofs.ViewModel.Displays
import Mathlib.Data.List.Pairwise

namespace Bindery

/-!
# Drawing

Writing a text of a page again changes nothing but that text.

* `foldl_once` — of directives of different kinds, one alone does what only its kind does.
* `Spot.shows_congr` — what a node looks like depends on what its displays show only.
* `Spot.Shows.write`, `Spot.Shows.elsewhere` — a text written on a node, and on another one.
* `Forest.Exhibits` — a page with all nodes of a template as they should look, and everything else
  as it was; `Forest.Exhibits.write` — such a page after a text was written.
-/

namespace Kind

/-- An attribute that is set twice has the second value. -/
theorem setIn_setIn (name value again : String) (attrs : List (String × String)) :
    setIn name again (setIn name value attrs) = setIn name again attrs := by
  induction attrs with
  | nil => simp [setIn]
  | cons head rest ih =>
    obtain ⟨n, v⟩ := head
    by_cases h : n = name
    · simp [setIn, h]
    · simp [setIn, h, ih]

/-- Setting an attribute once more. -/
@[simp] theorem setAttr_setAttr (name value again : String) (kind : Kind) :
    (kind.setAttr name value).setAttr name again = kind.setAttr name again := by
  cases kind with
  | element tag attrs => rw [setAttr, setAttr, setAttr, setIn_setIn]
  | _ => rfl

end Kind

section directives

variable {ds : List Directive} {d d' : Directive}

/-- Of directives of different kinds, one alone does what only its kind does. -/
theorem foldl_once {β : Type} {g : β → Directive → β} (different : ds.Pairwise (·.kind ≠ ·.kind))
    (hd : d ∈ ds) (idle : ∀ other ∈ ds, other.kind ≠ d.kind → ∀ x, g x other = x) (x : β) :
    ds.foldl g x = g x d := by
  induction ds generalizing x with
  | nil => cases hd
  | cons first rest ih =>
    obtain ⟨hfirst, hrest⟩ := List.pairwise_cons.1 different
    rw [List.forall_mem_cons] at idle
    rw [List.foldl_cons]
    obtain rfl | hd := List.mem_cons.1 hd
    · -- nothing of its kind comes after it
      have done : ∀ y, rest.foldl g y = y := by
        intro y
        rw [List.foldl_ext g (fun y _ => y) y fun y other hother =>
          idle.2 other hother (hfirst other hother).symm y]
        exact List.foldl_fixed rest
      exact done _
    · rw [ih hrest hd idle.2, idle.1 (hfirst d hd)]

/-- Directives of one kind are one. -/
theorem eq_of_kind (different : ds.Pairwise (·.kind ≠ ·.kind)) (hd : d ∈ ds) (hd' : d' ∈ ds)
    (same : d.kind = d'.kind) : d = d' := by
  have : Std.Symm fun a b : Directive => a.kind ≠ b.kind := ⟨fun _ _ h => h.symm⟩
  by_contra differ
  exact different.forall hd hd' differ same

end directives

namespace Shown

variable {shown : Shown} {e : Display} {text : String} {id : NodeId}

/-- Another node shows the text that it showed. -/
theorem text_draw_of_ne (differ : id ≠ e.node) (template : String) :
    (shown.draw e text).text (some id) template = shown.text (some id) template := by
  unfold draw
  cases e.part <;> simp [differ]

/-- And it has the form value that it had. -/
theorem value_draw_of_ne (differ : id ≠ e.node) (expr : String) :
    (shown.draw e text).value (some id) expr = shown.value (some id) expr := by
  unfold draw
  cases e.part <;> simp [differ]

/-- Drawing a form value changes no texts. -/
theorem text_draw_of_value (part : e.part = .value) : (shown.draw e text).text = shown.text := by
  simp only [draw, part]

/-- Drawing a child changes no form values. -/
theorem value_draw_of_child (part : e.part = .child) : (shown.draw e text).value = shown.value := by
  simp only [draw, part]

end Shown

namespace Spot

variable {spot : Spot} {shown shown' : Shown} {f f' : Forest Listener} {seenFrom : Nat}
  {e : Display}

/-- A display of a node stands on it, and comes from a directive of it or from its text. -/
theorem mem_displays : e ∈ spot.displays ↔
    (spot.role = .text e.source ∧ e.part = .data ∧ e.node = spot.node) ∨
      ∃ ds d, spot.role = .element ds ∧ d ∈ ds ∧ d.kind.part? = some e.part ∧
        d.expression = e.source ∧ e.node = spot.node := by
  obtain ⟨node, entry, role⟩ := spot
  obtain ⟨node', part, source⟩ := e
  cases role with
  | element ds =>
    simp only [displays, List.mem_filterMap, Option.map_eq_some_iff, Display.mk.injEq]
    constructor
    · rintro ⟨d, hd, part', hpart, rfl, rfl, rfl⟩
      exact .inr ⟨ds, d, rfl, hd, hpart, rfl, rfl⟩
    · rintro (⟨h, -⟩ | ⟨_, d, h, hd, hpart, rfl, rfl⟩)
      · cases h
      · cases h
        exact ⟨d, hd, part, hpart, rfl, rfl, rfl⟩
  | text data =>
    simp only [displays, List.mem_singleton, Display.mk.injEq, Role.text.injEq]
    constructor
    · rintro ⟨rfl, rfl, rfl⟩
      exact .inl ⟨rfl, rfl, rfl⟩
    · rintro (⟨rfl, rfl, rfl⟩ | ⟨_, _, h, -⟩)
      · exact ⟨rfl, rfl, rfl⟩
      · cases h
  | still => simp [displays]

section element

variable {ds : List Directive} {d : Directive}

/-- A plain element has a directive for its form value, one for its text, or both. -/
theorem IsPlain.directives (plain : spot.IsPlain) (role : spot.role = .element ds) :
    (∀ d ∈ ds, d.kind = .model ∨ d.kind = .text) ∧ ds.Pairwise (·.kind ≠ ·.kind) := by
  simpa only [IsPlain, role] using plain

/-- The form value of an element is the only attribute that is set. -/
theorem IsPlain.kind_model (plain : spot.IsPlain) (role : spot.role = .element ds) (hd : d ∈ ds)
    (model : d.kind = .model) (shown : Shown) : spot.kind shown =
      spot.entry.kind.setAttr "value" (shown.value (some spot.node) d.expression) := by
  obtain ⟨kinds, different⟩ := plain.directives role
  rw [kind, role]
  refine (foldl_once different hd (fun other hother differ kind => ?_) _).trans ?_
  · rw [Shown.attrs, (kinds other hother).resolve_left (model ▸ differ)]
  · rw [Shown.attrs, model]

/-- What is entered in an element is all that it waits for. -/
theorem IsPlain.listeners_model (plain : spot.IsPlain) (role : spot.role = .element ds)
    (hd : d ∈ ds) (model : d.kind = .model) :
    spot.listeners = spot.entry.listeners ++ [("input", .writeBack d.expression)] := by
  obtain ⟨kinds, different⟩ := plain.directives role
  simp only [listeners, role]
  rw [foldl_once different hd (fun other hother differ o => ?_), Directive.attach, model]
  · rfl
  · rw [Directive.attach, (kinds other hother).resolve_left (model ▸ differ)]

/-- The text of an element is its content. -/
theorem IsPlain.owner_text (plain : spot.IsPlain) (role : spot.role = .element ds) (hd : d ∈ ds)
    (text : d.kind = .text) : spot.owner = some d := by
  have lastOwner_eq : spot.owner = lastOwner ds := by simp only [owner, role]
  cases found : lastOwner ds with
  | none =>
    have free := List.any_eq_false.1 (lastOwner_eq_none.1 found) d hd
    simp [text, DirectiveKind.ownsContent] at free
  | some last =>
    rw [lastOwner_eq, found, eq_of_kind (plain.directives role).2 (mem_of_lastOwner found).1 hd]
    rw [plain.kind_owner (lastOwner_eq.trans found), text]

end element

/-- What a node looks like depends on what its displays show only. -/
theorem shows_congr (plain : spot.IsPlain)
    (same : ∀ e ∈ spot.displays, e.shownBy shown = e.shownBy shown') :
    spot.Shows f seenFrom shown ↔ spot.Shows f seenFrom shown' := by
  have hkind : spot.kind shown = spot.kind shown' := by
    obtain ⟨node, entry, role⟩ := spot
    cases role with
    | element ds =>
      refine List.foldl_ext _ _ _ fun kind d hd => ?_
      unfold Shown.attrs
      obtain model | text := plain.1 d hd
      · have value := same ⟨node, .value, d.expression⟩
          (mem_displays.2 (.inr ⟨ds, d, rfl, hd, by rw [model]; rfl, rfl, rfl⟩))
        simp only [Display.shownBy] at value
        rw [model, value]
      · rw [text]
    | text data =>
      exact congrArg Kind.text (same ⟨node, .data, data⟩ (mem_displays.2 (.inl ⟨rfl, rfl, rfl⟩)))
    | still => rfl
  cases owner : spot.owner with
  | none => rw [shows_of_none owner, shows_of_none owner, hkind]
  | some d =>
    have htext : shown.text (some spot.node) d.expression =
        shown'.text (some spot.node) d.expression := by
      refine same ⟨spot.node, .child, d.expression⟩ (mem_displays.2 (.inr ?_))
      obtain ⟨node, entry, role⟩ := spot
      cases role with
      | element ds =>
        refine ⟨ds, d, rfl, (mem_of_lastOwner owner).1, ?_, rfl, rfl⟩
        rw [plain.kind_owner owner]
        rfl
      | text data => cases owner
      | still => cases owner
    rw [shows_of_some owner, shows_of_some owner, hkind, htext]

/-! ### Writing a text -/

/-- A text that is written on another node leaves a node as it looks. -/
theorem Shows.elsewhere (h : spot.Shows f seenFrom shown) (sound : f.IsSound)
    (old : e.node.val < seenFrom) (other : spot.node ≠ e.node)
    (frame : ∀ id ≠ e.node, id.val < f.next → f'.entry id = f.entry id) (text : String) :
    spot.Shows f' seenFrom (shown.draw e text) := by
  have hkind : spot.kind (shown.draw e text) = spot.kind shown := by
    obtain ⟨node, entry, role⟩ := spot
    cases role with
    | element ds =>
      refine List.foldl_ext _ _ _ fun kind d _ => ?_
      unfold Shown.attrs
      rw [Shown.value_draw_of_ne other]
    | text data => exact congrArg Kind.text (Shown.text_draw_of_ne other data)
    | still => rfl
  have kept {id : NodeId} {entry : Entry Listener} (differ : id ≠ e.node)
      (found : f.entry id = some entry) : f'.entry id = some entry :=
    (frame id differ (sound.lt_of_entry found)).trans found
  cases owner : spot.owner with
  | none =>
    rw [shows_of_none owner] at h ⊢
    rw [hkind]
    exact kept other h
  | some d =>
    rw [shows_of_some owner] at h ⊢
    obtain ⟨id, fresh, hentry, htext⟩ := h
    -- the text below is new, and displays stand on nodes of the template
    have differ : id ≠ e.node := fun same => Nat.not_lt.2 fresh (same ▸ old)
    rw [hkind, Shown.text_draw_of_ne other]
    exact ⟨id, fresh, kept other hentry, kept differ htext⟩

end Spot

namespace Display

variable {f : Forest Listener} {e : Display} {entry : Entry Listener}

/-- What writing a text does to the document, in two parts: what becomes of the node, and the nodes
that are new. -/
theorem rewrites_write (sound : f.IsSound) (found : f.entry e.node = some entry) (text : String) :
    f.Rewrites (e.write text f) (match e.part with
      | .data => [(e.node, { entry with kind := entry.kind.setData text })]
      | .child => [(e.node, { entry with children := [⟨f.next⟩] }),
          (⟨f.next⟩, ⟨[], .text text, []⟩)]
      | .value => [(e.node, { entry with kind := entry.kind.setAttr "value" text })]) := by
  unfold write
  cases e.part with
  | data => exact sound.rewrites_mapKind found _
  | child => exact sound.rewrites_setTrees found _
  | value => exact sound.rewrites_mapKind found _

/-- Nothing else that was there changes. -/
theorem frame_write (sound : f.IsSound) (found : f.entry e.node = some entry) (text : String) :
    ∀ id ≠ e.node, id.val < f.next → (e.write text f).entry id = f.entry id := by
  intro id differ lt
  refine (rewrites_write sound found text).frame id ?_ lt
  -- a text that becomes the content of an element is a new node, which this one is not
  have old : id ≠ ⟨f.next⟩ := NodeId.ne_of_lt lt
  cases e.part <;> simp [differ, old]

end Display

namespace Spot

variable {spot : Spot} {shown : Shown} {f : Forest Listener} {seenFrom : Nat} {e : Display}

/-- A node that looks as it should has an entry with its kind. -/
theorem Shows.entry (h : spot.Shows f seenFrom shown) : ∃ children,
    f.entry spot.node = some ⟨spot.listeners, spot.kind shown, children⟩ :=
  h.imp fun _ h => h.1

/-- **A text that is written is shown.** -/
theorem Shows.write (h : spot.Shows f seenFrom shown) (plain : spot.IsPlain) (sound : f.IsSound)
    (given : spot.node.val < seenFrom) (seen : seenFrom ≤ f.next) (he : e ∈ spot.displays)
    (text : String) : spot.Shows (e.write text f) seenFrom (shown.draw e text) := by
  obtain ⟨children, hentry⟩ := h.entry
  have hself : e.shownBy (shown.draw e text) = text := Display.shownBy_draw_self text
  obtain ⟨role, hpart, hnode⟩ | ⟨ds, d, role, hd, hpart, hsource, hnode⟩ := mem_displays.1 he
  · -- the data of a text
    have written := (Display.rewrites_write sound (hnode ▸ hentry) text).entry
    have alone : spot.owner = none := by rw [owner, role]
    rw [shows_of_none alone] at h ⊢
    cases Option.some.inj (hentry.symm.trans h)
    simp only [Display.shownBy, hpart, hnode] at hself written
    rw [List.forall_mem_singleton] at written
    rw [written, kind, kind, role]
    simp only [hself]
    rfl
  · have written := (Display.rewrites_write sound (hnode ▸ hentry) text).entry
    obtain model | htext := (plain.directives role).1 d hd
    · -- the form value of an element
      have part : e.part = .value := by simpa [model, DirectiveKind.part?] using hpart.symm
      simp only [Display.shownBy, part, hnode] at hself written
      rw [List.forall_mem_singleton, plain.kind_model role hd model, Kind.setAttr_setAttr]
        at written
      have hkind : spot.kind (shown.draw e text) = spot.entry.kind.setAttr "value" text := by
        rw [plain.kind_model role hd model, hsource, hself]
      -- the element may have a text directive too, whose text is not touched
      cases owner : spot.owner with
      | none =>
        rw [shows_of_none owner] at h ⊢
        cases Option.some.inj (hentry.symm.trans h)
        rw [written, hkind]
      | some d' =>
        rw [shows_of_some owner] at h ⊢
        obtain ⟨id, fresh, hentry', htext⟩ := h
        cases Option.some.inj (hentry.symm.trans hentry')
        have differ : id ≠ e.node := fun same => Nat.not_lt.2 fresh (same ▸ hnode ▸ given)
        rw [written, hkind, Shown.text_draw_of_value part]
        refine ⟨id, fresh, rfl, ?_⟩
        rw [Display.frame_write sound (hnode ▸ hentry) text id differ (sound.lt_of_entry htext),
          htext]
    · -- the content of an element
      have part : e.part = .child := by simpa [htext, DirectiveKind.part?] using hpart.symm
      simp only [Display.shownBy, part, hnode] at hself written
      rw [List.forall_mem_cons, List.forall_mem_singleton] at written
      rw [shows_of_some (plain.owner_text role hd htext), written.1, hsource, hself]
      have hkind : spot.kind (shown.draw e text) = spot.kind shown := by
        simp only [kind, role, Shown.attrs, Shown.value_draw_of_child part]
      rw [hkind]
      exact ⟨⟨f.next⟩, seen, rfl, written.2⟩

end Spot

/-! ### Whole pages -/

/-- Different nodes, seen from a time when they were there, with at most one text of a kind on
each.  Only elements have directives. -/
structure Spot.Proper (spots : List Spot) (seenFrom : Nat) : Prop where
  distinct : (spots.map Spot.node).Nodup
  given : ∀ spot ∈ spots, spot.node.val < seenFrom
  plain : ∀ spot ∈ spots, spot.IsPlain
  elements : ∀ spot ∈ spots, ∀ ds, spot.role = .element ds →
    ∃ tag attrs, spot.entry.kind = .element tag attrs

namespace Template

mutual

/-- The spots of a tree are nodes of it, in order. -/
theorem sublist_spots (t : Template) : ∀ tree : Tree (Mark Listener),
    ((t.spots tree).map Spot.node).Sublist tree.ids
  | .node mark (.element tag attrs) children => by
    rw [spots, List.map_cons, Tree.ids]
    refine List.Sublist.cons_cons _ ?_
    split
    · exact sublist_spotsAll t children
    · exact List.nil_sublist _
  | .node mark (.text data) children => by
    rw [spots, List.map_cons, Tree.ids, List.map_map, Tree.idsAmong_eq]
    exact List.Sublist.refl _
  | .node mark (.comment data) children => by
    rw [spots, List.map_map, Tree.ids_eq, Tree.rowsAmong_cons, Tree.rowsAmong_nil, List.append_nil]
    exact List.Sublist.refl _
  | .node mark .fragment children => by
    rw [spots, List.map_map, Tree.ids_eq, Tree.rowsAmong_cons, Tree.rowsAmong_nil, List.append_nil]
    exact List.Sublist.refl _

/-- The nodes that stay are nodes of the template. -/
theorem sublist_spotsAll (t : Template) : ∀ ts : List (Tree (Mark Listener)),
    ((t.spotsAll ts).map Spot.node).Sublist (Tree.idsAmong ts)
  | [] => List.Sublist.refl _
  | tree :: rest => by
    rw [spotsAll, List.map_append, Tree.idsAmong]
    exact (sublist_spots t tree).append (sublist_spotsAll t rest)

end

/-- Nodes that stay as they are have no directives. -/
theorem role_of_mem_still {rows : List (NodeId × Entry Listener)} {spot : Spot}
    (h : spot ∈ rows.map Spot.still) : spot.role = .still := by
  obtain ⟨row, -, rfl⟩ := List.mem_map.1 h
  rfl

mutual

/-- A spot with directives is an element. -/
theorem element_of_mem_spots (t : Template) {spot : Spot} {ds : List Directive}
    (role : spot.role = .element ds) : ∀ tree : Tree (Mark Listener), spot ∈ t.spots tree →
    ∃ tag attrs, spot.entry.kind = .element tag attrs
  | .node mark (.element tag attrs) children, h => by
    rw [spots, List.mem_cons] at h
    obtain rfl | hbelow := h
    · exact ⟨tag, attrs, rfl⟩
    · split at hbelow
      · exact element_of_mem_spotsAll t role children hbelow
      · cases hbelow
  | .node mark (.text data) children, h => by
    rw [spots, List.mem_cons] at h
    obtain rfl | hbelow := h
    · simp only at role
      split at role <;> cases role
    · cases (role_of_mem_still hbelow).symm.trans role
  | .node mark (.comment data) children, h => by
    rw [spots] at h
    cases (role_of_mem_still h).symm.trans role
  | .node mark .fragment children, h => by
    rw [spots] at h
    cases (role_of_mem_still h).symm.trans role

/-- A node with directives is an element. -/
theorem element_of_mem_spotsAll (t : Template) {spot : Spot} {ds : List Directive}
    (role : spot.role = .element ds) : ∀ ts : List (Tree (Mark Listener)), spot ∈ t.spotsAll ts →
    ∃ tag attrs, spot.entry.kind = .element tag attrs
  | [], h => nomatch h
  | tree :: rest, h => by
    rw [spotsAll, List.mem_append] at h
    obtain hfirst | hrest := h
    · exact element_of_mem_spots t role tree hfirst
    · exact element_of_mem_spotsAll t role rest hrest

end

/-- The nodes of a plain template. -/
theorem proper_spotsAll {t : Template} {ts : List (Tree (Mark Listener))} {seenFrom : Nat}
    (distinct : (Tree.idsAmong ts).Nodup) (given : ∀ id ∈ Tree.idsAmong ts, id.val < seenFrom)
    (plain : ∀ spot ∈ t.spotsAll ts, spot.IsPlain) : Spot.Proper (t.spotsAll ts) seenFrom where
  distinct := distinct.sublist (t.sublist_spotsAll ts)
  given _ hspot := given _ ((t.sublist_spotsAll ts).subset (List.mem_map_of_mem hspot))
  plain := plain
  elements _ hspot _ role := element_of_mem_spotsAll t role ts hspot

end Template

/-- A page on which all nodes of a template look as they should, and every other node that was there
before is as it was. -/
structure Forest.Exhibits (before f : Forest Listener) (spots : List Spot) (seenFrom : Nat)
    (shown : Shown) : Prop where
  sound : f.IsSound
  seen : seenFrom ≤ f.next
  shows : ∀ spot ∈ spots, spot.Shows f seenFrom shown
  frame : ∀ id ∉ spots.map Spot.node, id.val < seenFrom → f.entry id = before.entry id

namespace Forest.Exhibits

variable {before f : Forest Listener} {spots : List Spot} {seenFrom : Nat} {shown shown' : Shown}
  {spot : Spot} {e : Display}

/-- Only what is shown on the displays matters. -/
theorem congr (h : before.Exhibits f spots seenFrom shown) (proper : Spot.Proper spots seenFrom)
    (shown' : Shown)
    (same : ∀ spot ∈ spots, ∀ e ∈ spot.displays, e.shownBy shown = e.shownBy shown') :
    before.Exhibits f spots seenFrom shown' :=
  { h with
    shows := fun spot hspot =>
      (Spot.shows_congr (proper.plain spot hspot) (same spot hspot)).1 (h.shows spot hspot) }

/-- **Writing one text.** The display shows it, and nothing else changes. -/
theorem write (h : before.Exhibits f spots seenFrom shown) (proper : Spot.Proper spots seenFrom)
    (hspot : spot ∈ spots) (he : e ∈ spot.displays) (text : String) :
    before.Exhibits (e.write text f) spots seenFrom (shown.draw e text) := by
  have hnode : e.node = spot.node := by
    obtain ⟨-, -, hnode⟩ | ⟨-, -, -, -, -, -, hnode⟩ := Spot.mem_displays.1 he
    · exact hnode
    · exact hnode
  obtain ⟨children, hentry⟩ := (h.shows spot hspot).entry
  rw [← hnode] at hentry
  have given : e.node.val < seenFrom := hnode ▸ proper.given spot hspot
  have frame := Display.frame_write h.sound hentry text
  have written := Display.rewrites_write h.sound hentry text
  refine ⟨written.sound, Nat.le_trans h.seen written.next_le, fun other hother => ?_,
    fun id hid lt => ?_⟩
  · by_cases same : other.node = e.node
    · -- no two nodes of the template are the same
      obtain rfl : other = spot := List.inj_on_of_nodup_map proper.distinct hother hspot
        (same.trans hnode)
      exact (h.shows other hother).write (proper.plain other hother) h.sound
        (proper.given other hother) h.seen he text
    · exact (h.shows other hother).elsewhere h.sound given same frame text
  · have differ : id ≠ e.node := fun same =>
      hid (List.mem_map.2 ⟨spot, hspot, hnode.symm.trans same.symm⟩)
    rw [frame id differ (Nat.lt_of_lt_of_le lt h.seen), h.frame id hid lt]

end Forest.Exhibits

end Bindery
