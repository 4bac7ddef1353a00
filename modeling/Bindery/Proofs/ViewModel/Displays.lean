import Bindery.Proofs.ViewModel.Mounting

namespace Bindery

/-!
# What is displayed where

The page of a template without markup from data, node by node.

* `Display` — a text that is kept on the page: where it stands, and what it comes from.
* `Spot` — a node of a template that stays on the page; `Template.spotsAll` — all of them.
* `Spot.Shows` — what such a node looks like on the page.
* `Template.showsAll_iff` — so they look if and only if the page has the expansion of the template.
-/

/-- What part of its node a display writes. -/
inductive Part where
  /-- The data of a text. -/
  | data
  /-- The only child of an element, a text. -/
  | child
  /-- The form value of an element. -/
  | value
deriving DecidableEq

/-- A text that is kept on the page. -/
structure Display where
  node : NodeId
  part : Part
  /-- An expression for a form value, and otherwise a text with markers. -/
  source : String
deriving DecidableEq

namespace Display

/-- What is displayed, or why nothing can be. -/
def result (marks : Delimiters) (s : Store) (e : Display) : Except Fault String :=
  match e.part with
  | .value => (s.get e.source).map Json.display
  | _ => marks.render e.source s

/-- What is displayed, nothing if there is a fault. -/
def text (marks : Delimiters) (s : Store) (e : Display) : String :=
  (e.result marks s).toOption.getD ""

/-- Writes a text where the display stands. -/
def write (text : String) (e : Display) (f : Forest Listener) : Forest Listener :=
  match e.part with
  | .data => f.mapKind e.node (Kind.setData text)
  | .child => f.setText e.node text
  | .value => f.mapKind e.node (Kind.setAttr "value" text)

/-- What is shown where the display stands. -/
def shownBy (shown : Shown) (e : Display) : String :=
  match e.part with
  | .value => shown.value (some e.node) e.source
  | _ => shown.text (some e.node) e.source

end Display

/-- The same with another text where a display stands. -/
def Shown.draw (shown : Shown) (e : Display) (text : String) : Shown :=
  let put (now : Option NodeId → String → String) (id? : Option NodeId) (source : String) :=
    if id? = some e.node ∧ source = e.source then text else now id? source
  match e.part with
  | .value => { shown with value := put shown.value }
  | _ => { shown with text := put shown.text }

namespace Display

variable {shown : Shown} {e d : Display} {marks : Delimiters} {s : Store} {t : Template}

@[simp] theorem shownBy_draw_self (text : String) : e.shownBy (shown.draw e text) = text := by
  unfold shownBy Shown.draw
  cases e.part <;> simp

/-- Another display does not change, unless it comes from the same. -/
theorem shownBy_draw (shown : Shown) (e d : Display) (text : String) :
    e.shownBy (shown.draw d text) = e.shownBy shown ∨
    e.shownBy (shown.draw d text) = text ∧ e.source = d.source ∧
      (e.part = .value ↔ d.part = .value) := by
  unfold shownBy Shown.draw
  by_cases same : e.node = d.node ∧ e.source = d.source
  · cases e.part <;> cases d.part <;> simp [same]
  · cases e.part <;> cases d.part <;> simp [same]

/-- What depends on the source and the kind of place alone is the same for both. -/
theorem text_congr (source : e.source = d.source) (part : e.part = .value ↔ d.part = .value) :
    e.text marks s = d.text marks s := by
  unfold text result
  rw [source]
  cases he : e.part <;> cases hd : d.part <;> simp_all

/-- What a store shows at a display. -/
theorem shownBy_shownBy (markup : String → List (Tree Origin)) :
    e.shownBy (t.shownBy s markup) = e.text t.settings.delimiters s := by
  unfold shownBy text result
  cases e.part with
  | value =>
    simp only [Template.shownBy, Store.shownValue]
    cases s.get e.source <;> rfl
  | data => rfl
  | child => rfl

end Display

/-! ### The nodes of a template -/

/-- The part that a directive writes; one for markup writes more than one text, and one for events
none. -/
def DirectiveKind.part? : DirectiveKind → Option Part
  | .html => none
  | .model => some .value
  | .on => none
  | .text => some .child

/-- What binding makes of a node. -/
inductive Role where
  /-- An element with directives. -/
  | element (directives : List Directive)
  /-- A text with markers. -/
  | text (data : String)
  /-- A node that stays as it is. -/
  | still

/-- A node of a template that stays on the page, with what is known of it in the template. -/
structure Spot where
  node : NodeId
  entry : Entry Listener
  role : Role

namespace Spot

/-- A node that stays as it is. -/
def still (row : NodeId × Entry Listener) : Spot := ⟨row.1, row.2, .still⟩

/-- The texts that are kept on a node. -/
def displays (spot : Spot) : List Display :=
  match spot.role with
  | .element ds =>
    ds.filterMap fun d => d.kind.part?.map fun part => ⟨spot.node, part, d.expression⟩
  | .text data => [⟨spot.node, .data, data⟩]
  | .still => []

/-- The listeners that a node gets to have. -/
def listeners (spot : Spot) : List (String × Listener) :=
  match spot.role with
  | .element ds =>
    let origin : Origin := ⟨some spot.node, spot.entry.listeners⟩
    (ds.foldl (fun o d => d.attach o) origin).listeners
  | _ => spot.entry.listeners

/-- What a node gets to be. -/
def kind (shown : Shown) (spot : Spot) : Kind :=
  match spot.role with
  | .element ds => ds.foldl (fun k d => shown.attrs (some spot.node) d k) spot.entry.kind
  | .text data => .text (shown.text (some spot.node) data)
  | .still => spot.entry.kind

/-- The directive that replaces the content of a node. -/
def owner (spot : Spot) : Option Directive :=
  match spot.role with
  | .element ds => lastOwner ds
  | _ => none

/-- There are directives for a form value and for a text only, at most one for each. -/
def IsPlain (spot : Spot) : Prop :=
  match spot.role with
  | .element ds => (∀ d ∈ ds, d.kind = .model ∨ d.kind = .text) ∧ ds.Pairwise (·.kind ≠ ·.kind)
  | _ => True

instance : DecidablePred IsPlain := fun spot =>
  match spot with
  | ⟨_, _, .element _⟩ => inferInstanceAs (Decidable (_ ∧ _))
  | ⟨_, _, .text _⟩ => .isTrue trivial
  | ⟨_, _, .still⟩ => .isTrue trivial

/-- What a node without markup from data looks like on a page that was seen first when identifiers
from `seenFrom` on were free. -/
def Shows (f : Forest Listener) (seenFrom : Nat) (shown : Shown) (spot : Spot) : Prop :=
  ∃ children, f.entry spot.node = some ⟨spot.listeners, spot.kind shown, children⟩ ∧
    match spot.owner with
    | none => children = spot.entry.children
    | some d => ∃ id : NodeId, children = [id] ∧ seenFrom ≤ id.val ∧
        f.entry id = some ⟨[], .text (shown.text (some spot.node) d.expression), []⟩

/-- Nothing but a text replaces the content of such a node. -/
theorem IsPlain.kind_owner {spot : Spot} (plain : spot.IsPlain) {d : Directive}
    (owner : spot.owner = some d) : d.kind = .text := by
  obtain ⟨node, entry, role⟩ := spot
  cases role with
  | element ds =>
    obtain ⟨hmem, owns⟩ := mem_of_lastOwner owner
    refine (plain.1 d hmem).resolve_left fun model => ?_
    simp [model, DirectiveKind.ownsContent] at owns
  | text data => cases owner
  | still => cases owner

section shows

variable {f : Forest Listener} {seenFrom : Nat} {shown : Shown} {spot : Spot}

/-- A node whose content is its own is what the directives for its attributes make of it. -/
theorem shows_of_none (owner : spot.owner = none) : spot.Shows f seenFrom shown ↔
    f.entry spot.node = some ⟨spot.listeners, spot.kind shown, spot.entry.children⟩ := by
  simp only [Shows, owner, exists_eq_right]

/-- A node whose content a directive shows has one new text as its only child. -/
theorem shows_of_some {d : Directive} (owner : spot.owner = some d) :
    spot.Shows f seenFrom shown ↔ ∃ id : NodeId, seenFrom ≤ id.val ∧
      f.entry spot.node = some ⟨spot.listeners, spot.kind shown, [id]⟩ ∧
      f.entry id = some ⟨[], .text (shown.text (some spot.node) d.expression), []⟩ := by
  simp only [Shows, owner]
  constructor
  · rintro ⟨_, hentry, id, rfl, fresh, hid⟩
    exact ⟨id, fresh, hentry, hid⟩
  · rintro ⟨id, fresh, hentry, hid⟩
    exact ⟨_, hentry, id, rfl, fresh, hid⟩

/-- Nodes that stay as they are stand on the page as in the template. -/
theorem shows_still {ts : List (Tree (Mark Listener))} :
    (∀ spot ∈ (Tree.rowsAmong ts).map still, spot.Shows f seenFrom shown) ↔ f.Holds ts := by
  rw [List.forall_mem_map]
  exact forall₂_congr fun row _ => shows_of_none rfl

/-- The directives of an element do to its mark what the spot says. -/
theorem foldl_attach {ds : List Directive} (role : spot.role = .element ds) :
    ds.foldl (fun o d => d.attach o) ⟨some spot.node, spot.entry.listeners⟩ =
      ⟨some spot.node, spot.listeners⟩ := by
  refine Origin.ext (Directive.id?_foldl_attach ..) ?_
  simp only [listeners, role]

end shows

end Spot

namespace Template

/-- An element of a template. -/
def elementSpot (t : Template) (mark : Mark Listener) (tag : String)
    (attrs : List (String × String)) (children : List NodeId) : Spot :=
  ⟨mark.id, ⟨mark.listeners, .element tag attrs, children⟩, .element (t.directivesOf tag attrs)⟩

mutual

/-- The nodes of a tree that stay on the page, in document order. -/
def spots (t : Template) : Tree (Mark Listener) → List Spot
  | .node mark (.element tag attrs) children =>
    t.elementSpot mark tag attrs (children.map Tree.id) ::
      match lastOwner (t.directivesOf tag attrs) with
      | none => spotsAll t children
      | some _ => []
  | .node mark (.text data) children =>
    ⟨mark.id, ⟨mark.listeners, .text data, children.map Tree.id⟩,
      if t.settings.delimiters.hasMarkers data then .text data else .still⟩ ::
      (Tree.rowsAmong children).map Spot.still
  | .node mark (.comment data) children =>
    (Tree.rowsAmong [.node mark (.comment data) children]).map Spot.still
  | .node mark .fragment children => (Tree.rowsAmong [.node mark .fragment children]).map Spot.still

/-- The nodes of a row of trees. -/
def spotsAll (t : Template) : List (Tree (Mark Listener)) → List Spot
  | [] => []
  | first :: rest => spots t first ++ spotsAll t rest

end

variable {t : Template} {f : Forest Listener} {seenFrom : Nat} {shown : Shown}

/-- What is made of an element: its listeners, its attributes, and its children or what is shown in
their place. -/
theorem expand_element {o : Origin} {tag : String} {attrs : List (String × String)}
    {children : List (Tree Origin)} :
    t.expand shown (.node o (.element tag attrs) children) =
      .node ((t.directivesOf tag attrs).foldl (fun o d => d.attach o) o)
        ((t.directivesOf tag attrs).foldl (fun k d => shown.attrs o.id? d k) (.element tag attrs))
        (match lastOwner (t.directivesOf tag attrs) with
          | none => t.expandAll shown children
          | some d => shown.content o.id? d) := by
  rw [expand]
  exact Shown.foldl_dress ..

/-- The expansion of a node of the template is that node. -/
theorem id?_expand (tree : Tree Origin) : (t.expand shown tree).label.id? = tree.label.id? := by
  obtain ⟨o, kind, children⟩ := tree
  cases kind with
  | element tag attrs =>
    rw [expand_element]
    exact Directive.id?_foldl_attach ..
  | _ => rfl

/-- A node that looks like a node of the template is that node. -/
theorem id_of_origin {mark : Mark Listener} {id : NodeId}
    (h : (mark.origin seenFrom).id? = some id) : mark.id = id := by
  rw [Mark.origin] at h
  split at h
  · exact Option.some.inj h
  · cases h

/-- A node that is its own origin is the one that was there. -/
theorem mark_of_origin {mark : Mark Listener} {id : NodeId} {listeners : List (String × Listener)}
    (h : mark.origin seenFrom = ⟨some id, listeners⟩) : mark = ⟨id, listeners⟩ := by
  obtain rfl := id_of_origin (congrArg Origin.id? h)
  obtain rfl : mark.listeners = listeners := congrArg Origin.listeners h
  rfl

/-- The root of an expansion is the root of the template. -/
theorem id_of_map {tree tree' : Tree (Mark Listener)} (given : tree.id.val < seenFrom)
    (h : tree'.map (Mark.origin seenFrom) = t.expand shown (tree.map (Mark.origin seenFrom))) :
    tree'.id = tree.id := by
  have same := congrArg (fun u => u.label.id?) h
  obtain ⟨mark, kind, children⟩ := tree
  obtain ⟨mark', kind', children'⟩ := tree'
  have given' : mark.id.val < seenFrom := given
  rw [id?_expand, Tree.map, Tree.map, Tree.label_node, Tree.label_node, origin_of_lt given'] at same
  exact id_of_origin same

/-- The roots of an expanded row are those of the row. -/
theorem map_id_of_mapAll {ts ts' : List (Tree (Mark Listener))}
    (given : ∀ id ∈ Tree.idsAmong ts, id.val < seenFrom)
    (h : Tree.mapAll (Mark.origin seenFrom) ts' =
      t.expandAll shown (Tree.mapAll (Mark.origin seenFrom) ts)) :
    ts'.map Tree.id = ts.map Tree.id := by
  induction ts generalizing ts' with
  | nil =>
    cases ts' with
    | nil => rfl
    | cons tree rest => simp [Tree.mapAll, expandAll] at h
  | cons tree rest ih =>
    cases ts' with
    | nil => simp [Tree.mapAll, expandAll] at h
    | cons tree' rest' =>
      simp only [Tree.idsAmong, List.mem_append] at given
      simp only [Tree.mapAll, expandAll, List.cons.injEq] at h
      rw [List.map_cons, List.map_cons, id_of_map (given _ (.inl tree.id_mem_ids)) h.1,
        ih (fun id hid => given id (.inr hid)) h.2]

mutual

/-- Trees that look like trees of the template, expanded or not, are these trees. -/
theorem eq_of_map : ∀ {tree tree' : Tree (Mark Listener)}, (∀ id ∈ tree.ids, id.val < seenFrom) →
    tree'.map (Mark.origin seenFrom) = tree.map (Mark.origin seenFrom) → tree' = tree
  | .node mark kind children, .node mark' kind' children', given, h => by
    rw [Tree.ids, List.forall_mem_cons] at given
    rw [Tree.map, Tree.map, Tree.node.injEq, origin_of_lt given.1] at h
    obtain ⟨hmark, hkind, hchildren⟩ := h
    rw [mark_of_origin hmark, hkind, eq_of_mapAll given.2 hchildren]

theorem eq_of_mapAll : ∀ {ts ts' : List (Tree (Mark Listener))},
    (∀ id ∈ Tree.idsAmong ts, id.val < seenFrom) →
    Tree.mapAll (Mark.origin seenFrom) ts' = Tree.mapAll (Mark.origin seenFrom) ts → ts' = ts
  | [], [], _, _ => rfl
  | [], _ :: _, _, h => nomatch h
  | _ :: _, [], _, h => nomatch h
  | tree :: rest, tree' :: rest', given, h => by
    rw [Tree.idsAmong, List.forall_mem_append] at given
    rw [Tree.mapAll, Tree.mapAll, List.cons.injEq] at h
    rw [eq_of_map given.1 h.1, eq_of_mapAll given.2 h.2]

end

/-- A tree on the page that looks like a node of the template with some children. -/
theorem exists_map_node {id : NodeId} {listeners : List (String × Listener)} {kind : Kind}
    {us : List (Tree Origin)} (given : id.val < seenFrom) :
    (∃ tree, f.Holds [tree] ∧
        tree.map (Mark.origin seenFrom) = .node ⟨some id, listeners⟩ kind us) ↔
      ∃ ts, f.entry id = some ⟨listeners, kind, ts.map Tree.id⟩ ∧ f.Holds ts ∧
        Tree.mapAll (Mark.origin seenFrom) ts = us := by
  constructor
  · rintro ⟨⟨mark, kind', ts⟩, hholds, hlook⟩
    rw [Tree.map, Tree.node.injEq] at hlook
    obtain ⟨hmark, rfl, hts⟩ := hlook
    cases mark_of_origin hmark
    obtain ⟨hentry, hholds⟩ := Forest.holds_node.1 hholds
    exact ⟨ts, hentry, hholds, hts⟩
  · rintro ⟨ts, hentry, hholds, rfl⟩
    refine ⟨.node ⟨id, listeners⟩ kind ts, Forest.holds_node.2 ⟨hentry, hholds⟩, ?_⟩
    rw [Tree.map, origin_of_lt given]

/-- The same if the children look like trees of the template. -/
theorem exists_map_kept {id : NodeId} {listeners : List (String × Listener)} {kind : Kind}
    {children : List (Tree (Mark Listener))} (given : id.val < seenFrom)
    (below : ∀ id ∈ Tree.idsAmong children, id.val < seenFrom) :
    (∃ tree, f.Holds [tree] ∧ tree.map (Mark.origin seenFrom) =
        .node ⟨some id, listeners⟩ kind (Tree.mapAll (Mark.origin seenFrom) children)) ↔
      f.entry id = some ⟨listeners, kind, children.map Tree.id⟩ ∧ f.Holds children := by
  rw [exists_map_node given]
  constructor
  · rintro ⟨ts, hentry, hholds, hts⟩
    obtain rfl := eq_of_mapAll below hts
    exact ⟨hentry, hholds⟩
  · rintro ⟨hentry, hholds⟩
    exact ⟨children, hentry, hholds, rfl⟩

/-- A new text on the page. -/
theorem mapAll_eq_fresh {ts : List (Tree (Mark Listener))} {kind : Kind} :
    Tree.mapAll (Mark.origin seenFrom) ts = [.node .fresh kind []] ↔
      ∃ id : NodeId, seenFrom ≤ id.val ∧ ts = [.node ⟨id, []⟩ kind []] := by
  constructor
  · intro h
    obtain _ | ⟨⟨⟨id, listeners⟩, kind', children⟩, _ | ⟨more, rest⟩⟩ := ts
    · cases h
    · simp only [Tree.mapAll, Tree.map, List.cons.injEq, Tree.node.injEq, and_true] at h
      obtain ⟨hmark, rfl, hchildren⟩ := h
      rw [Mark.origin, Origin.fresh, Origin.mk.injEq, ite_eq_right_iff] at hmark
      obtain ⟨hfresh, rfl⟩ := hmark
      cases children with
      | nil =>
        refine ⟨id, Nat.not_lt.1 fun lt => ?_, rfl⟩
        cases hfresh lt
      | cons child others => cases hchildren
    · simp [Tree.mapAll] at h
  · rintro ⟨id, fresh, rfl⟩
    rw [Tree.mapAll, Tree.mapAll, Tree.map, Tree.mapAll, origin_of_le fresh]

/-- The expansion of an element. -/
theorem expand_elementSpot {mark : Mark Listener} {tag : String} {attrs : List (String × String)}
    {children : List (Tree (Mark Listener))} {spot : Spot} (given : mark.id.val < seenFrom)
    (h : t.elementSpot mark tag attrs (children.map Tree.id) = spot) :
    t.expand shown ((Tree.node mark (.element tag attrs) children).map (Mark.origin seenFrom)) =
      .node ⟨some mark.id, spot.listeners⟩ (spot.kind shown)
        (match spot.owner with
          | none => t.expandAll shown (Tree.mapAll (Mark.origin seenFrom) children)
          | some d => shown.content (some mark.id) d) := by
  subst h
  rw [Tree.map, expand_element, origin_of_lt given]
  exact congrArg (fun o => Tree.node o _ _)
    ((t.elementSpot mark tag attrs (children.map Tree.id)).foldl_attach rfl)

mutual

/-- **A tree is expanded** if every node in it looks as it should. -/
theorem shows_iff : ∀ tree : Tree (Mark Listener), (∀ id ∈ tree.ids, id.val < seenFrom) →
    (∀ spot ∈ t.spots tree, spot.IsPlain) →
    ((∀ spot ∈ t.spots tree, spot.Shows f seenFrom shown) ↔ ∃ tree', f.Holds [tree'] ∧
      tree'.map (Mark.origin seenFrom) = t.expand shown (tree.map (Mark.origin seenFrom)))
  | .node mark (.element tag attrs) children, given, plain => by
    rw [Tree.ids, List.forall_mem_cons] at given
    rw [spots, List.forall_mem_cons] at plain ⊢
    obtain ⟨hplain, hbelow⟩ := plain
    generalize hspot : t.elementSpot mark tag attrs (children.map Tree.id) = spot at hplain ⊢
    have hnode : spot.node = mark.id := by rw [← hspot]; rfl
    have hentry : spot.entry.children = children.map Tree.id := by rw [← hspot]; rfl
    have howner : spot.owner = lastOwner (t.directivesOf tag attrs) := by rw [← hspot]; rfl
    rw [expand_elementSpot given.1 hspot, exists_map_node given.1]
    rw [← howner] at hbelow ⊢
    cases owner : spot.owner with
    | none =>
      -- below are the expansions of the children, which have the identifiers of the children
      rw [owner] at hbelow
      rw [Spot.shows_of_none owner, hnode, hentry]
      simp only
      rw [showsAll_iff children given.2 hbelow]
      constructor
      · rintro ⟨hentry, ts, hholds, hlook⟩
        refine ⟨ts, ?_, hholds, hlook⟩
        rw [map_id_of_mapAll given.2 hlook]
        exact hentry
      · rintro ⟨ts, hentry, hholds, hlook⟩
        rw [map_id_of_mapAll given.2 hlook] at hentry
        exact ⟨hentry, ts, hholds, hlook⟩
    | some d =>
      -- below is one new text
      have content : shown.content (some mark.id) d =
          [.node .fresh (.text (shown.text (some mark.id) d.expression)) []] := by
        rw [Shown.content, hplain.kind_owner owner]
      rw [Spot.shows_of_some owner, hnode]
      simp only [content, mapAll_eq_fresh]
      constructor
      · rintro ⟨⟨id, fresh, hentry, htext⟩, -⟩
        exact ⟨[.node ⟨id, []⟩ _ []], hentry, Forest.holds_node.2 ⟨htext, Forest.holds_nil f⟩, id,
          fresh, rfl⟩
      · rintro ⟨_, hentry, hholds, id, fresh, rfl⟩
        exact ⟨⟨id, fresh, hentry, (Forest.holds_node.1 hholds).1⟩, fun _ h => nomatch h⟩
  | .node mark (.text data) children, given, _ => by
    rw [Tree.ids, List.forall_mem_cons] at given
    rw [spots, List.forall_mem_cons, Spot.shows_still, Spot.shows_of_none (by split <;> rfl),
      Tree.map, expand, origin_of_lt given.1, exists_map_kept given.1 given.2]
    split <;> rfl
  | .node mark (.comment data) children, given, _ => by
    rw [Tree.ids, List.forall_mem_cons] at given
    rw [spots, Spot.shows_still, Tree.map, expand, origin_of_lt given.1,
      exists_map_kept given.1 given.2, Forest.holds_node]
  | .node mark .fragment children, given, _ => by
    rw [Tree.ids, List.forall_mem_cons] at given
    rw [spots, Spot.shows_still, Tree.map, expand, origin_of_lt given.1,
      exists_map_kept given.1 given.2, Forest.holds_node]

/-- **What a page looks like.** The nodes of a template look as they should if and only if its
expansion is on the page. -/
theorem showsAll_iff : ∀ ts : List (Tree (Mark Listener)),
    (∀ id ∈ Tree.idsAmong ts, id.val < seenFrom) → (∀ spot ∈ t.spotsAll ts, spot.IsPlain) →
    ((∀ spot ∈ t.spotsAll ts, spot.Shows f seenFrom shown) ↔ ∃ ts', f.Holds ts' ∧
      Tree.mapAll (Mark.origin seenFrom) ts' =
        t.expandAll shown (Tree.mapAll (Mark.origin seenFrom) ts))
  | [], _, _ => by
    refine ⟨fun _ => ⟨[], Forest.holds_nil f, rfl⟩, fun _ _ h => nomatch h⟩
  | tree :: rest, given, plain => by
    rw [Tree.idsAmong, List.forall_mem_append] at given
    rw [spotsAll, List.forall_mem_append] at plain ⊢
    rw [shows_iff tree given.1 plain.1, showsAll_iff rest given.2 plain.2]
    constructor
    · rintro ⟨⟨tree', hholds, htree⟩, rest', hrest, hlook⟩
      refine ⟨tree' :: rest', Forest.holds_cons.2 ⟨hholds, hrest⟩, ?_⟩
      rw [Tree.mapAll, Tree.mapAll, expandAll, htree, hlook]
    · rintro ⟨ts', hholds, hlook⟩
      rw [Tree.mapAll, expandAll] at hlook
      cases ts' with
      | nil => cases hlook
      | cons tree' rest' =>
        rw [Tree.mapAll, List.cons.injEq] at hlook
        obtain ⟨htree, hrest⟩ := Forest.holds_cons.1 hholds
        exact ⟨⟨tree', htree, hlook.1⟩, rest', hrest, hlook.2⟩

end

end Template

end Bindery
