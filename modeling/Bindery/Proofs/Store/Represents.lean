import Bindery.Proofs.Store.Graph

namespace Bindery

/-!
# The graph behind an arena

An arena is looked at through the rows that stand in its tables, in any order, and holds a graph if
these are the rows of the graph.

* `Arena.Consists` — the arena holds given rows, each under an identifier of its own.
* `Arena.TakesIn` — an arena that has rows more than another, under fresh identifiers.
* `Arena.observe_takesIn` — taking in a value adds the rows of a graph with its data.
* `Arena.Consists.release` — giving up a content removes the rows of the graph that it leads to.
* `Arena.Represents` — the rows are those of a graph under the given identifier.
-/

namespace Arena

/-- Whether a row stands in its table. -/
def Has (a : Arena) : Row → Prop
  | .property id content => a.contents[id]? = some content
  | .composite id parts => a.composites[id]? = some parts

/-- Whether an identifier was given out. -/
def Issued (a : Arena) : PropertyId ⊕ CompositeId → Prop
  | .inl id => id.val < a.nextProperty
  | .inr id => id.val < a.nextComposite

/-- The arena holds exactly these rows, each under an identifier of its own that was given out. -/
structure Consists (a : Arena) (rows : List Row) : Prop where
  has : ∀ row, a.Has row ↔ row ∈ rows
  distinct : (rows.map Row.key).Nodup
  issued : ∀ row ∈ rows, a.Issued row.key

variable {a a' : Arena} {rows : List Row}

/-- The order of rows does not matter. -/
theorem Consists.perm {rows' : List Row} (h : a.Consists rows) (same : rows.Perm rows') :
    a.Consists rows' where
  has row := (h.has row).trans same.mem_iff
  distinct := (same.map _).nodup_iff.1 h.distinct
  issued row hrow := h.issued row (same.mem_iff.2 hrow)

/-- No other row has the identifier of the first one. -/
theorem Consists.key_ne {row other : Row} (h : a.Consists (row :: rows)) (hother : other ∈ rows) :
    other.key ≠ row.key := fun same =>
  (List.nodup_cons.1 h.distinct).1 (same ▸ List.mem_map_of_mem hother)

/-- A property of the rows has its content. -/
theorem Consists.contents_eq_some (h : a.Consists rows) {id : PropertyId} {content : Content}
    (hrow : .property id content ∈ rows) : a.contents[id]? = some content := (h.has _).2 hrow

/-- A composite of the rows has its shape. -/
theorem Consists.composites_eq_some (h : a.Consists rows) {id : CompositeId} {parts : Composite}
    (hrow : .composite id parts ∈ rows) : a.composites[id]? = some parts := (h.has _).2 hrow

/-- The empty arena has no rows. -/
theorem consists_empty : empty.Consists [] where
  has row := by cases row <;> simp [Has, empty]
  distinct := by simp
  issued := by simp

/-! ### Changes of one row -/

/-- Rows stay where other identifiers change. -/
theorem has_insert_content {id : PropertyId} {content : Content} {row : Row} :
    ({ a with contents := a.contents.insert id content } : Arena).Has row ↔
      row = .property id content ∨ (row.key ≠ .inl id ∧ a.Has row) := by
  cases row with
  | composite other parts => simp [Has]
  | property other found =>
    simp only [Has, Std.TreeMap.getElem?_insert, Std.LawfulEqCmp.compare_eq_iff_eq]
    split
    · next same => simp [same, eq_comm]
    · next differ => simp [Ne.symm differ]

/-- A composite that is put in is there, in the place of the one that was. -/
theorem has_insert_composite {id : CompositeId} {parts : Composite} {row : Row} :
    ({ a with composites := a.composites.insert id parts } : Arena).Has row ↔
      row = .composite id parts ∨ (row.key ≠ .inr id ∧ a.Has row) := by
  cases row with
  | property other content => simp [Has]
  | composite other found =>
    simp only [Has, Std.TreeMap.getElem?_insert, Std.LawfulEqCmp.compare_eq_iff_eq]
    split
    · next same => simp [same, eq_comm]
    · next differ => simp [Ne.symm differ]

/-- A property that is taken out is not there any more. -/
theorem has_erase_content {id : PropertyId} {row : Row} :
    ({ a with contents := a.contents.erase id } : Arena).Has row ↔
      row.key ≠ .inl id ∧ a.Has row := by
  cases row with
  | composite other parts => simp [Has]
  | property other found =>
    simp only [Has, Std.TreeMap.getElem?_erase, Std.LawfulEqCmp.compare_eq_iff_eq]
    split
    · next same => simp [same]
    · next differ => simp [Ne.symm differ]

theorem has_erase_composite {id : CompositeId} {row : Row} :
    ({ a with composites := a.composites.erase id } : Arena).Has row ↔
      row.key ≠ .inr id ∧ a.Has row := by
  cases row with
  | property other content => simp [Has]
  | composite other found =>
    simp only [Has, Std.TreeMap.getElem?_erase, Std.LawfulEqCmp.compare_eq_iff_eq]
    split
    · next same => simp [same]
    · next differ => simp [Ne.symm differ]

/-- The rows besides the first are those under other identifiers. -/
theorem Consists.mem_tail_iff {row other : Row} (h : a.Consists (row :: rows)) :
    other ∈ rows ↔ other.key ≠ row.key ∧ a.Has other := by
  refine ⟨fun hother => ⟨h.key_ne hother, (h.has other).2 (List.mem_cons_of_mem _ hother)⟩, ?_⟩
  rintro ⟨differ, present⟩
  rcases List.mem_cons.1 ((h.has other).1 present) with rfl | hother
  · exact absurd rfl differ
  · exact hother

/-- One row may be exchanged for another under its identifier. -/
theorem Consists.exchange {row new : Row} (h : a.Consists (row :: rows)) (key : new.key = row.key)
    (has : ∀ other, a'.Has other ↔ other = new ∨ (other.key ≠ new.key ∧ a.Has other))
    (issued : ∀ key, a.Issued key → a'.Issued key) : a'.Consists (new :: rows) where
  has other := by rw [has, List.mem_cons, h.mem_tail_iff, key]
  -- the identifiers are the same as before
  distinct := by simpa [key] using h.distinct
  issued other hother := by
    rcases List.mem_cons.1 hother with rfl | hother
    · exact issued _ (key ▸ h.issued row List.mem_cons_self)
    · exact issued _ (h.issued other (List.mem_cons_of_mem _ hother))

/-- One row may be taken out. -/
theorem Consists.remove {row : Row} (h : a.Consists (row :: rows))
    (has : ∀ other, a'.Has other ↔ other.key ≠ row.key ∧ a.Has other)
    (issued : ∀ key, a.Issued key → a'.Issued key) : a'.Consists rows where
  has other := by rw [has, h.mem_tail_iff]
  distinct := (List.nodup_cons.1 h.distinct).2
  issued other hother := issued _ (h.issued other (List.mem_cons_of_mem _ hother))

/-! ### Taking in -/

/-- The second arena has some rows more, under identifiers that the first one had not given out. -/
structure TakesIn (a a' : Arena) (new : List Row) : Prop where
  adds : ∀ rows, a.Consists rows → a'.Consists (new ++ rows)
  fresh : ∀ row ∈ new, ¬ a.Issued row.key
  keeps : ∀ key, a.Issued key → a'.Issued key

theorem TakesIn.nothing (a : Arena) : a.TakesIn a [] where
  adds _ h := h
  fresh := by simp
  keeps _ h := h

/-- One after another. -/
theorem TakesIn.trans {a'' : Arena} {first second : List Row} (h : a.TakesIn a' first)
    (h' : a'.TakesIn a'' second) : a.TakesIn a'' (first ++ second) where
  adds rows hrows := (h'.adds _ (h.adds rows hrows)).perm <| by
    rw [← List.append_assoc]
    exact List.perm_append_comm.append_right _
  fresh row hrow := by
    rcases List.mem_append.1 hrow with hfirst | hsecond
    · exact h.fresh row hfirst
    · exact fun issued => h'.fresh row hsecond (h.keeps _ issued)
  keeps key issued := h'.keeps _ (h.keeps _ issued)

/-- The order in which rows are taken in does not matter. -/
theorem TakesIn.perm {first second : List Row} (h : a.TakesIn a' first)
    (same : first.Perm second) : a.TakesIn a' second where
  adds rows hrows := (h.adds rows hrows).perm (same.append_right rows)
  fresh row hrow := h.fresh row (same.mem_iff.2 hrow)
  keeps := h.keeps

/-- A row under a fresh identifier. -/
theorem TakesIn.single {new : Row} (has : ∀ other, a'.Has other ↔ other = new ∨
      (other.key ≠ new.key ∧ a.Has other))
    (fresh : ¬ a.Issued new.key) (issued : a'.Issued new.key)
    (keeps : ∀ key, a.Issued key → a'.Issued key) : a.TakesIn a' [new] where
  adds rows h := by
    have differ (other : Row) (hother : other ∈ rows) : other.key ≠ new.key :=
      fun same => fresh (same ▸ h.issued other hother)
    constructor
    · -- the other rows have been there, under other identifiers
      intro other
      rw [has, h.has, List.singleton_append, List.mem_cons]
      exact or_congr_right ⟨And.right, fun hother => ⟨differ other hother, hother⟩⟩
    · rw [List.singleton_append, List.map_cons, List.nodup_cons, List.mem_map]
      exact ⟨fun ⟨other, hother, same⟩ => differ other hother same, h.distinct⟩
    · intro other hother
      rcases List.mem_cons.1 hother with rfl | hother
      · exact issued
      · exact keeps _ (h.issued other hother)
  fresh row hrow := by rwa [List.mem_singleton.1 hrow]
  keeps := keeps

/-- A new property is one row. -/
theorem addProperty_takesIn (content : Content) (a : Arena) :
    a.TakesIn (a.addProperty content).2 [.property (a.addProperty content).1 content] := by
  refine .single (fun _ => has_insert_content) ?_ ?_ fun key issued => ?_
  · simp [Issued, addProperty]
  · simp [Issued, addProperty]
  · cases key with
    | inl id => exact Nat.lt_succ_of_lt issued
    | inr id => exact issued

theorem addComposite_takesIn (parts : Composite) (a : Arena) :
    a.TakesIn (a.addComposite parts).2 [.composite (a.addComposite parts).1 parts] := by
  refine .single (fun _ => has_insert_composite) ?_ ?_ fun key issued => ?_
  · simp [Issued, addComposite]
  · simp [Issued, addComposite]
  · cases key with
    | inl id => exact issued
    | inr id => exact Nat.lt_succ_of_lt issued

mutual

/-- Taking in a value adds the rows of a graph with its data. -/
theorem observe_takesIn (value : Json) (a : Arena) :
    ∃ g : Graph, g.toJson = value ∧ g.content = (a.observe value).1 ∧
      a.TakesIn (a.observe value).2 g.rows := by
  cases value with
  | scalar s => exact ⟨.scalar s, by simp, rfl, by simpa using .nothing a⟩
  | object members =>
    obtain ⟨parts, hvalues, hids, htaken⟩ := observeMembers_takesIn members a
    refine ⟨.object _ parts, by simp [hvalues], rfl, ?_⟩
    rw [Graph.rows_eq, Graph.ownRows, hids]
    exact (htaken.trans (addComposite_takesIn _ _)).perm List.perm_append_comm
  | array items =>
    obtain ⟨parts, hvalues, hids, htaken⟩ := observeItems_takesIn items a
    refine ⟨.array _ parts, by simp [hvalues], rfl, ?_⟩
    rw [Graph.rows_eq, Graph.ownRows, hids]
    exact (htaken.trans (addComposite_takesIn _ _)).perm List.perm_append_comm

/-- The members of an object are taken in one after another. -/
theorem observeMembers_takesIn (members : List (String × Json)) (a : Arena) :
    ∃ parts : List (String × PropertyId × Graph),
      parts.map (fun member => (member.1, member.2.2.toJson)) = members ∧
        parts.map (fun member => (member.1, member.2.1)) = (a.observeMembers members).1 ∧
          a.TakesIn (a.observeMembers members).2 (Graph.rowsOf (parts.map (·.2))) := by
  cases members with
  | nil => exact ⟨[], rfl, rfl, .nothing a⟩
  | cons head rest =>
    obtain ⟨key, value⟩ := head
    obtain ⟨g, hvalue, hcontent, htaken⟩ := observe_takesIn value a
    have hadded := addProperty_takesIn (a.observe value).1 (a.observe value).2
    obtain ⟨parts, hvalues, hids, hrest⟩ :=
      observeMembers_takesIn rest ((a.observe value).2.addProperty (a.observe value).1).2
    refine ⟨(key, ((a.observe value).2.addProperty (a.observe value).1).1, g) :: parts,
      by simp [hvalue, hvalues], by simp [hids, observeMembers], ?_⟩
    -- first the value, then its property, then the members after it
    refine ((htaken.trans hadded).trans hrest).perm ?_
    simp only [List.map_cons, Graph.rowsOf_cons, hcontent, ← List.cons_append]
    exact (List.perm_append_singleton _ _).append_right _

theorem observeItems_takesIn (items : List Json) (a : Arena) :
    ∃ parts : List (PropertyId × Graph),
      parts.map (fun part => part.2.toJson) = items ∧
        parts.map (·.1) = (a.observeItems items).1 ∧
          a.TakesIn (a.observeItems items).2 (Graph.rowsOf parts) := by
  cases items with
  | nil => exact ⟨[], rfl, rfl, .nothing a⟩
  | cons value rest =>
    obtain ⟨g, hvalue, hcontent, htaken⟩ := observe_takesIn value a
    have hadded := addProperty_takesIn (a.observe value).1 (a.observe value).2
    obtain ⟨parts, hvalues, hids, hrest⟩ :=
      observeItems_takesIn rest ((a.observe value).2.addProperty (a.observe value).1).2
    refine ⟨(((a.observe value).2.addProperty (a.observe value).1).1, g) :: parts,
      by simp [hvalue, hvalues], by simp [hids, observeItems], ?_⟩
    refine ((htaken.trans hadded).trans hrest).perm ?_
    simp only [Graph.rowsOf_cons, hcontent, ← List.cons_append]
    exact (List.perm_append_singleton _ _).append_right _

end

/-! ### Giving up -/

/-- Forgetting a content takes no identifier back. -/
theorem Issued.of_forget {content : Content} {key : PropertyId ⊕ CompositeId}
    (h : a.Issued key) : (a.forget content).Issued key := by
  cases key <;> simpa [Issued] using h

/-- Taking the composite of a graph out of its table leaves the rows of its parts, and tells the
properties of these. -/
theorem Consists.forget {g : Graph} (h : a.Consists (g.rows ++ rows)) :
    (a.forget g.content).Consists (Graph.rowsOf g.parts ++ rows) ∧
      a.inside g.content = g.parts.map (·.1) := by
  cases hcontent : g.content with
  | scalar s =>
    cases g with
    | scalar s => exact ⟨by simpa [Arena.forget] using h, rfl⟩
    | _ => simp at hcontent
  | composite id =>
    obtain ⟨shape, hown, hproperties, -⟩ := Graph.ownRows_of_content hcontent
    rw [Graph.rows_eq, hown, List.append_assoc, List.singleton_append] at h
    refine ⟨h.remove (fun _ => has_erase_composite) fun _ => Issued.of_forget, ?_⟩
    rw [inside, h.composites_eq_some List.mem_cons_self, ← hproperties]
    rfl

/-- Giving up the properties of some parts removes their rows. -/
theorem Consists.releaseAll {parts : List (PropertyId × Graph)}
    (h : a.Consists (Graph.rowsOf parts ++ rows)) :
    (a.releaseAll (parts.map (·.1))).Consists rows := by
  generalize hids : parts.map (·.1) = ids
  fun_induction Arena.releaseAll ids a generalizing parts with
  | case1 a =>
    cases List.map_eq_nil_iff.1 hids
    simpa using h
  | case2 id rest a missing ih =>
    -- the property of a part cannot be missing
    obtain ⟨part, others, rfl, rfl, -⟩ := List.map_eq_cons_iff.1 hids
    have found : a.contents[part.1]? = some part.2.content := h.contents_eq_some (by simp)
    simp [missing] at found
  | case3 id rest a content found ih =>
    obtain ⟨part, others, rfl, rfl, rfl⟩ := List.map_eq_cons_iff.1 hids
    rw [Graph.rowsOf_cons, List.cons_append] at h
    have hcontent := h.contents_eq_some List.mem_cons_self
    cases found.symm.trans hcontent
    -- the property goes first, then the composite that it held, then what stood inside that one
    have erased : ({ a with contents := a.contents.erase part.1 } : Arena).Consists
        (part.2.rows ++ (Graph.rowsOf others ++ rows)) := by
      rw [← List.append_assoc]
      exact h.remove (fun _ => has_erase_content) fun key issued => by cases key <;> exact issued
    obtain ⟨hforgotten, hinside⟩ := erased.forget
    have hrows : (({ a with contents := a.contents.erase part.1 } : Arena).forget
        part.2.content).Consists (Graph.rowsOf (part.2.parts ++ others) ++ rows) := by
      rw [Graph.rowsOf_append, List.append_assoc]
      exact hforgotten
    refine ih hrows ?_
    rw [List.map_append, ← hinside]
    rfl

/-- Giving up a content removes the rows of the graph that it leads to. -/
theorem Consists.release {g : Graph} (h : a.Consists (g.rows ++ rows)) :
    (a.release g.content).Consists rows := by
  obtain ⟨hforgotten, hinside⟩ := h.forget
  rw [release_eq, hinside]
  exact hforgotten.releaseAll

/-- Nor does releasing properties: what was given out counts as given out. -/
theorem issued_releaseAll (ids : List PropertyId) (key : PropertyId ⊕ CompositeId) :
    (a.releaseAll ids).Issued key ↔ a.Issued key := by
  fun_induction Arena.releaseAll ids a with
  | case1 a => rfl
  | case2 id rest a missing ih => exact ih
  | case3 id rest a content found ih => exact ih.trans (by cases key <;> simp [Issued])

/-- Identifiers are not given back. -/
theorem issued_release (content : Content) (key : PropertyId ⊕ CompositeId) :
    (a.release content).Issued key ↔ a.Issued key := by
  rw [release_eq, issued_releaseAll]
  cases key <;> simp [Issued]

/-! ### Looking in -/

/-- The rows of the graph are there, perhaps among others. -/
def Holds (a : Arena) (g : Graph) : Prop := ∀ row ∈ g.rows, a.Has row

variable {g : Graph} {id : CompositeId}

/-- An arena that consists of the rows of a graph, and others, holds the graph. -/
theorem Consists.holds (h : a.Consists (g.rows ++ rows)) : a.Holds g := fun row hrow =>
  (h.has row).2 (List.mem_append_left _ hrow)

/-- A part of a graph is there with the graph, and in its property. -/
theorem Holds.part (h : a.Holds g) {part : PropertyId × Graph} (hpart : part ∈ g.parts) :
    a.contents[part.1]? = some part.2.content ∧ a.Holds part.2 := by
  have hrows := Graph.rows_subset_of_mem_parts hpart
  exact ⟨h _ (hrows List.mem_cons_self), fun row hrow => h _ (hrows (List.mem_cons_of_mem _ hrow))⟩

/-- The composite of a graph is there, with the parts of the graph. -/
theorem Holds.composite (h : a.Holds g) (hcontent : g.content = .composite id) :
    ∃ shape, a.composites[id]? = some shape ∧ g.ownRows = [.composite id shape] ∧
      shape.properties = g.parts.map (·.1) := by
  obtain ⟨shape, hown, hproperties, -⟩ := Graph.ownRows_of_content hcontent
  exact ⟨shape, h (.composite id shape) (by rw [Graph.rows_eq, hown]; simp), hown, hproperties⟩

/-- A segment names in the arena what it names in the graph. -/
theorem Holds.member (h : a.Holds g) (hcontent : g.content = .composite id) (segment : String) :
    a.member id segment = match g.length? segment with
      | some count => .length count
      | none => (g.part? segment).elim .missing fun part => .property part.1 := by
  obtain ⟨shape, hown, -, hmember⟩ := Graph.ownRows_of_content hcontent
  obtain ⟨_, hfound, hown', -⟩ := h.composite hcontent
  cases hown.symm.trans hown'
  rw [Arena.member, hfound]
  exact hmember segment

/-- Nothing but a scalar itself can be found in it. -/
theorem descendAll_scalar (segments : List String) (s : Scalar) :
    (Json.descendAll segments (.scalar s)).map Snapshot.value =
      ((Graph.scalar s).find segments).map fun found => found.content.snapshot := by
  cases segments <;> rfl

/-- Segments lead in the arena where they lead in the graph. -/
theorem Holds.resolve (h : a.Holds g) (hcontent : g.content = .composite id)
    (segments : List String) :
    (a.resolve id segments).1 = (g.find segments).map fun found => found.content.snapshot := by
  induction segments generalizing g id with
  | nil => simp [Arena.resolve, Except.map, hcontent, Content.snapshot]
  | cons segment rest ih =>
    simp only [Arena.resolve, h.member hcontent, Graph.find, Graph.step?]
    cases g.length? segment with
    | some count => exact descendAll_scalar rest _
    | none =>
      cases hpart : g.part? segment with
      | none => rfl
      | some part =>
        -- from a scalar on the read goes on in its value, from a composite on in the arena
        obtain ⟨hfound, hinside⟩ := h.part (Graph.mem_parts_of_part? hpart)
        simp only [Option.elim_some, hfound, Option.map_some]
        cases hinner : part.2 with
        | scalar s => exact descendAll_scalar rest s
        | object inner members => exact ih (hinner ▸ hinside) rfl
        | array inner items => exact ih (hinner ▸ hinside) rfl

/-- A composite is one of its own composites. -/
theorem composites_pos (hcontent : g.content = .composite id) :
    0 < (g.rows.filterMap Row.composite?).length := by
  obtain ⟨shape, hown, -⟩ := Graph.ownRows_of_content hcontent
  rw [Graph.rows_eq, hown, List.singleton_append, List.filterMap_cons_some (by rfl)]
  exact Nat.succ_pos _

/-- The composites of a part are fewer than those of the whole. -/
theorem composites_part_lt (hcontent : g.content = .composite id) {part : PropertyId × Graph}
    (hpart : part ∈ g.parts) :
    (part.2.rows.filterMap Row.composite?).length < (g.rows.filterMap Row.composite?).length := by
  obtain ⟨shape, hown, -⟩ := Graph.ownRows_of_content hcontent
  have hsub := ((Graph.rows_sublist_of_mem_parts hpart).filterMap Row.composite?).length_le
  rw [Graph.rows_eq g, hown, List.singleton_append, List.filterMap_cons_some (by rfl),
    List.length_cons]
  omega

/-- The data behind a content is that of the graph, if the depth allows for all composites. -/
theorem Holds.toJsonWithin (h : a.Holds g) (depth : Nat)
    (enough : (g.rows.filterMap Row.composite?).length ≤ depth) :
    a.toJsonWithin depth g.content = g.toJson := by
  induction depth generalizing g with
  | zero =>
    cases hcontent : g.content with
    | composite id =>
      -- the composite itself would be one too many
      have := composites_pos hcontent
      omega
    | scalar s =>
      cases g with
      | scalar s => cases hcontent; simp [Arena.toJsonWithin]
      | _ => simp at hcontent
  | succ depth ih =>
    -- what a part holds has fewer composites, so that the induction hypothesis covers it
    have inside {id : CompositeId} (hcontent : g.content = .composite id)
        {part : PropertyId × Graph} (hpart : part ∈ g.parts) :
        a.contents[part.1]?.map (a.toJsonWithin depth) = some part.2.toJson := by
      obtain ⟨hfound, hholds⟩ := h.part hpart
      have hfewer := composites_part_lt hcontent hpart
      rw [hfound, Option.map_some, ih hholds (by omega)]
    cases g with
    | scalar s => simp [Arena.toJsonWithin]
    | object id members =>
      obtain ⟨shape, hfound, hown, -⟩ := h.composite (Graph.content_object id members)
      cases hown
      simp only [Graph.content_object, Arena.toJsonWithin, hfound, Graph.toJson_object,
        List.filterMap_map]
      rw [← List.filterMap_eq_map]
      refine congrArg Json.object (List.filterMap_congr fun member hmember => ?_)
      have hmem : member.2 ∈ (Graph.object id members).parts := List.mem_map_of_mem hmember
      have hpart := inside (Graph.content_object id members) hmem
      obtain ⟨content, hcontent, hvalue⟩ := Option.map_eq_some_iff.1 hpart
      simp [hcontent, hvalue]
    | array id items =>
      obtain ⟨shape, hfound, hown, -⟩ := h.composite (Graph.content_array id items)
      cases hown
      simp only [Graph.content_array, Arena.toJsonWithin, hfound, Graph.toJson_array,
        List.filterMap_map]
      rw [← List.filterMap_eq_map]
      exact congrArg Json.array (List.filterMap_congr fun part hpart =>
        inside (Graph.content_array id items) hpart)

/-! ### Counting -/

/-- No property has two rows. -/
theorem Consists.nodup_properties (h : a.Consists rows) :
    (rows.filterMap Row.property?).Nodup := by
  have hkeys : rows.filterMap Row.property? = (rows.map Row.key).filterMap Sum.getLeft? := by
    rw [List.filterMap_map]
    exact List.filterMap_congr fun row _ => by cases row <;> rfl
  rw [hkeys]
  exact h.distinct.filterMap fun first second id => by cases first <;> cases second <;> simp_all

/-- No composite has two rows. -/
theorem Consists.nodup_composites (h : a.Consists rows) :
    (rows.filterMap Row.composite?).Nodup := by
  have hkeys : rows.filterMap Row.composite? = (rows.map Row.key).filterMap Sum.getRight? := by
    rw [List.filterMap_map]
    exact List.filterMap_congr fun row _ => by cases row <;> rfl
  rw [hkeys]
  exact h.distinct.filterMap fun first second id => by cases first <;> cases second <;> simp_all

/-- The properties of rows are those that one of them is about. -/
theorem mem_properties_iff {id : PropertyId} :
    id ∈ rows.filterMap Row.property? ↔ ∃ content, .property id content ∈ rows := by
  rw [List.mem_filterMap]
  constructor
  · rintro ⟨_ | _, hrow, hid⟩ <;> cases hid
    exact ⟨_, hrow⟩
  · rintro ⟨content, hrow⟩
    exact ⟨_, hrow, rfl⟩

/-- The composites of rows are those that one of them is about. -/
theorem mem_composites_iff {id : CompositeId} :
    id ∈ rows.filterMap Row.composite? ↔ ∃ parts, .composite id parts ∈ rows := by
  rw [List.mem_filterMap]
  constructor
  · rintro ⟨_ | _, hrow, hid⟩ <;> cases hid
    exact ⟨_, hrow⟩
  · rintro ⟨parts, hrow⟩
    exact ⟨_, hrow, rfl⟩

/-- There are as many properties in their table as rows about properties. -/
theorem Consists.size_contents (h : a.Consists rows) :
    a.contents.size = (rows.filterMap Row.property?).length := by
  -- both lists have the same members, and neither repeats one
  rw [← Std.TreeMap.length_keys]
  refine ((List.perm_ext_iff_of_nodup Std.TreeMap.nodup_keys h.nodup_properties).2
    fun id => ?_).length_eq
  rw [Std.TreeMap.mem_keys, Std.TreeMap.mem_iff_isSome_getElem?, Option.isSome_iff_exists,
    mem_properties_iff]
  exact exists_congr fun content => h.has (.property id content)

/-- There are as many composites in their table as rows about composites. -/
theorem Consists.size_composites (h : a.Consists rows) :
    a.composites.size = (rows.filterMap Row.composite?).length := by
  rw [← Std.TreeMap.length_keys]
  refine ((List.perm_ext_iff_of_nodup Std.TreeMap.nodup_keys h.nodup_composites).2
    fun id => ?_).length_eq
  rw [Std.TreeMap.mem_keys, Std.TreeMap.mem_iff_isSome_getElem?, Option.isSome_iff_exists,
    mem_composites_iff]
  exact exists_congr fun parts => h.has (.composite id parts)

/-- The data behind a content of the arena is that of its graph. -/
theorem Consists.toJson (h : a.Consists (g.rows ++ rows)) : a.toJson g.content = g.toJson := by
  refine h.holds.toJsonWithin _ ?_
  rw [h.size_composites, List.filterMap_append, List.length_append]
  omega

/-! ### The graph of an arena -/

/-- The arena holds a graph with the given composite at the top, and nothing else. -/
structure Represents (a : Arena) (root : CompositeId) (g : Graph) : Prop where
  consists : a.Consists g.rows
  content : g.content = .composite root

variable {root : CompositeId}

/-- An arena that represents a graph holds it. -/
theorem Represents.holds (h : a.Represents root g) : a.Holds g := fun row hrow =>
  (h.consists.has row).2 hrow

/-- A read sees what the graph has in the place. -/
theorem Represents.resolve_eq_ok (h : a.Represents root g) {segments : List String}
    {seen : Snapshot} :
    (a.resolve root segments).1 = .ok seen ↔
      ∃ content, (g.find segments).map Graph.content = .ok content ∧ content.snapshot = seen := by
  rw [h.holds.resolve h.content]
  cases g.find segments <;> simp [Except.map]

/-- So the data of its root are those of the graph. -/
theorem Represents.toJson (h : a.Represents root g) : a.toJson (.composite root) = g.toJson := by
  have hconsists : a.Consists (g.rows ++ []) := by simpa using h.consists
  rw [← h.content]
  exact hconsists.toJson

end Arena

end Bindery
