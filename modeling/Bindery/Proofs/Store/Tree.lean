import Bindery.Proofs.Store.Reachable
import Mathlib.Data.List.Pairwise

namespace Bindery

/-!
# Arenas are trees

The tables of a reachable store refer to each other as the parts of one tree do.

* `Arena.IsTree` — what this means, in terms of the tables alone.
* `Arena.Represents.isTree` — an arena with a graph behind it is a tree.
* `Json.partCount`, `Arena.Represents.partCount` — there are as many properties as parts of the
  data.
* `Arena.isWhole`, `Arena.Represents.resolve_ne_dangling` — no identifier is followed that leads
  nowhere.
* `Store.IsSound` — all this of a store.
-/

namespace Arena

/-- A composite that can be reached from the one at the top. -/
inductive Reaches (a : Arena) (root : CompositeId) : CompositeId → Prop
  | root : Reaches a root root
  | step {outer inner : CompositeId} {shape : Composite} {property : PropertyId} :
      Reaches a root outer → a.composites[outer]? = some shape → property ∈ shape.properties →
      a.contents[property]? = some (.composite inner) → Reaches a root inner

/-- A place of a property: a composite and a position among its parts. -/
def StandsAt (a : Arena) (property : PropertyId) (place : CompositeId × Nat) : Prop :=
  ∃ shape, a.composites[place.1]? = some shape ∧ shape.properties[place.2]? = some property

/-- The tables are those of one tree. -/
structure IsTree (a : Arena) (root : CompositeId) : Prop where
  root_live : root ∈ a.composites
  /-- The parts of composites are there. -/
  part_live : ∀ (id : CompositeId) (shape : Composite), a.composites[id]? = some shape →
    ∀ property ∈ shape.properties, property ∈ a.contents
  /-- The composites in properties are there. -/
  content_live : ∀ (property : PropertyId) (id : CompositeId),
    a.contents[property]? = some (.composite id) → id ∈ a.composites
  /-- Every property stands in one composite, at one position. -/
  one_place : ∀ property ∈ a.contents, ∃! place : CompositeId × Nat, a.StandsAt property place
  /-- Every composite but the one at the top is in one property. -/
  one_holder : ∀ id ∈ a.composites, id ≠ root →
    ∃! property : PropertyId, a.contents[property]? = some (.composite id)
  root_free : ∀ property : PropertyId, a.contents[property]? ≠ some (.composite root)
  composite_reached : ∀ id ∈ a.composites, a.Reaches root id
  property_reached : ∀ property ∈ a.contents, ∃ (id : CompositeId) (shape : Composite),
    a.Reaches root id ∧ a.composites[id]? = some shape ∧ property ∈ shape.properties
  property_issued : ∀ property ∈ a.contents, property.val < a.nextProperty
  composite_issued : ∀ id ∈ a.composites, id.val < a.nextComposite

end Arena

/-! ### The rows of a graph refer to each other -/

/-- The properties that a row has as parts. -/
def Row.parts : Row → List PropertyId
  | .property _ _ => []
  | .composite _ shape => shape.properties

/-- The composite that a row has as content. -/
def Row.holds? : Row → Option CompositeId
  | .property _ (.composite id) => some id
  | _ => none

namespace Graph

/-- The composite at the top. -/
def top : Graph → List CompositeId
  | scalar _ => []
  | object id _ => [id]
  | array id _ => [id]

/-- The properties in the shape of a graph are those of its parts. -/
theorem parts_ownRows (g : Graph) : g.ownRows.flatMap Row.parts = g.parts.map (·.1) := by
  cases g <;> simp [ownRows, Row.parts]

/-- Every property that has a row is a part in one row. -/
theorem parts_rows_perm (g : Graph) :
    (g.rows.flatMap Row.parts).Perm (g.rows.filterMap Row.property?) := by
  induction g using parts_induction with
  | step g ih =>
    have own : g.ownRows.filterMap Row.property? = [] := by
      cases g <;> simp [ownRows, Row.property?]
    rw [rows_eq, List.flatMap_append, List.filterMap_append, parts_ownRows, own, List.nil_append]
    generalize g.parts = parts at ih ⊢
    induction parts with
    | nil => exact .nil
    | cons part rest ihRest =>
      have hpart := ih part List.mem_cons_self
      have hrest := ihRest fun other hother => ih other (List.mem_cons_of_mem _ hother)
      simp only [rowsOf_cons, List.map_cons, List.flatMap_cons, List.flatMap_append,
        List.filterMap_append, Row.parts, List.nil_append, List.cons_append,
        List.filterMap_cons_some
          (show Row.property? (.property part.1 part.2.content) = _ from rfl)]
      -- the part's property comes first on both sides, then what is inside it, then the rest
      refine .cons _ (.trans ?_ (hpart.append hrest))
      rw [← List.append_assoc, ← List.append_assoc]
      exact List.perm_append_comm.append_right _

/-- Every composite that has a row is a content in one row, but for the one at the top. -/
theorem composites_rows_perm (g : Graph) :
    (g.rows.filterMap Row.composite?).Perm (g.top ++ g.rows.filterMap Row.holds?) := by
  induction g using parts_induction with
  | step g ih =>
    have own : g.ownRows.filterMap Row.composite? = g.top ∧
        g.ownRows.filterMap Row.holds? = [] := by
      cases g <;> simp [ownRows, Row.composite?, Row.holds?, top]
    rw [rows_eq, List.filterMap_append, List.filterMap_append, own.1, own.2, List.nil_append]
    refine .append_left _ ?_
    generalize g.parts = parts at ih ⊢
    induction parts with
    | nil => exact .nil
    | cons part rest ihRest =>
      have hpart := ih part List.mem_cons_self
      have hrest := ihRest fun other hother => ih other (List.mem_cons_of_mem _ hother)
      have held : (Row.property part.1 part.2.content :: (part.2.rows ++ rowsOf rest)).filterMap
          Row.holds? = part.2.top ++ (part.2.rows ++ rowsOf rest).filterMap Row.holds? := by
        cases part.2 <;> rfl
      rw [rowsOf_cons, held, List.filterMap_cons_none (by rfl), List.filterMap_append,
        List.filterMap_append, ← List.append_assoc]
      exact hpart.append hrest

end Graph

namespace Arena

variable {a : Arena} {root : CompositeId} {g : Graph}

/-! ### Reachability -/

/-- What stands inside a composite that can be reached can be reached. -/
theorem Holds.reaches (h : a.Holds g) {id : CompositeId} (hcontent : g.content = .composite id)
    (reached : a.Reaches root id) :
    (∀ inner shape, .composite inner shape ∈ g.rows → a.Reaches root inner) ∧
      ∀ property content, .property property content ∈ g.rows →
        ∃ outer shape, a.Reaches root outer ∧ a.composites[outer]? = some shape ∧
          property ∈ shape.properties := by
  induction g using Graph.parts_induction generalizing id with
  | step g ih =>
    obtain ⟨own, hfound, hown, hproperties⟩ := h.composite hcontent
    have among {part : PropertyId × Graph} (hpart : part ∈ g.parts) : part.1 ∈ own.properties :=
      hproperties ▸ List.mem_map_of_mem hpart
    -- a part with something inside holds a composite, which can be reached through it
    have inside {part : PropertyId × Graph} (hpart : part ∈ g.parts) {row : Row}
        (hrow : row ∈ part.2.rows) : ∃ inner, part.2.content = .composite inner ∧
          a.Reaches root inner := by
      obtain ⟨hheld, -⟩ := h.part hpart
      cases hinner : part.2.content with
      | scalar s =>
        obtain ⟨property, graph⟩ := part
        cases graph <;> simp_all
      | composite inner =>
        exact ⟨inner, rfl, reached.step hfound (among hpart) (hinner ▸ hheld)⟩
    constructor
    · intro inner shape hrow
      rw [Graph.rows_eq, hown, List.singleton_append, List.mem_cons, Graph.mem_rowsOf] at hrow
      rcases hrow with htop | ⟨part, hpart, hproperty | hrow⟩
      · cases htop
        exact reached
      · cases hproperty
      · obtain ⟨held, hheld, hreaches⟩ := inside hpart hrow
        exact (ih part hpart (h.part hpart).2 hheld hreaches).1 inner shape hrow
    · intro property content hrow
      rw [Graph.rows_eq, hown, List.singleton_append, List.mem_cons, Graph.mem_rowsOf] at hrow
      rcases hrow with htop | ⟨part, hpart, hproperty | hrow⟩
      · cases htop
      · cases hproperty
        exact ⟨id, own, reached, hfound, among hpart⟩
      · obtain ⟨held, hheld, hreaches⟩ := inside hpart hrow
        exact (ih part hpart (h.part hpart).2 hheld hreaches).2 property content hrow

/-! ### One place each -/

/-- Every property that an arena has is one of the graph that it represents. -/
theorem Represents.mem_contents (h : a.Represents root g) {property : PropertyId}
    (live : property ∈ a.contents) : ∃ content, .property property content ∈ g.rows := by
  rw [Std.TreeMap.mem_iff_isSome_getElem?, Option.isSome_iff_exists] at live
  obtain ⟨content, hfound⟩ := live
  exact ⟨content, (h.consists.has (.property property content)).1 hfound⟩

theorem Represents.mem_composites (h : a.Represents root g) {id : CompositeId}
    (live : id ∈ a.composites) : ∃ shape, .composite id shape ∈ g.rows := by
  rw [Std.TreeMap.mem_iff_isSome_getElem?, Option.isSome_iff_exists] at live
  obtain ⟨shape, hfound⟩ := live
  exact ⟨shape, (h.consists.has (.composite id shape)).1 hfound⟩

/-- Every property stands in one place. -/
theorem Represents.one_place (h : a.Represents root g) {property : PropertyId}
    (live : property ∈ a.contents) : ∃! place : CompositeId × Nat, a.StandsAt property place := by
  have single : (g.rows.flatMap Row.parts).Nodup :=
    g.parts_rows_perm.nodup_iff.2 h.consists.nodup_properties
  rw [List.nodup_flatMap] at single
  obtain ⟨hinside, hacross⟩ := single
  have stands {place : CompositeId × Nat} (hplace : a.StandsAt property place) :
      ∃ shape, .composite place.1 shape ∈ g.rows ∧ shape.properties[place.2]? = some property := by
    obtain ⟨shape, hfound, hat⟩ := hplace
    exact ⟨shape, (h.consists.has (.composite place.1 shape)).1 hfound, hat⟩
  -- it has a row, so it is a part in some row
  obtain ⟨content, hrow⟩ := h.mem_contents live
  have hpart := g.parts_rows_perm.mem_iff.2 (mem_properties_iff.2 ⟨content, hrow⟩)
  obtain ⟨_ | ⟨id, shape⟩, hholder, hmem⟩ := List.mem_flatMap.1 hpart
  · simp [Row.parts] at hmem
  obtain ⟨i, hi⟩ := List.getElem?_of_mem hmem
  refine ⟨(id, i), ⟨shape, (h.consists.has (.composite id shape)).2 hholder, hi⟩, ?_⟩
  rintro ⟨other, j⟩ hplace
  obtain ⟨shape', hother, hj⟩ := stands hplace
  -- in one and the same row the position decides, and two rows have no part in common
  by_cases same : Row.composite other shape' = .composite id shape
  · cases same
    have hindex := (List.nodup_iff_injective_get.1 (hinside _ hholder))
    obtain ⟨hlt, hget⟩ := List.getElem?_eq_some_iff.1 hi
    obtain ⟨hlt', hget'⟩ := List.getElem?_eq_some_iff.1 hj
    have hij := @hindex ⟨j, hlt'⟩ ⟨i, hlt⟩ (hget'.trans hget.symm)
    exact congrArg (id, ·) (congrArg Fin.val hij)
  · have : Std.Symm (Function.onFun List.Disjoint Row.parts) :=
      ⟨fun _ _ apart _ hsecond hfirst => apart hfirst hsecond⟩
    exact absurd hmem (hacross.forall hother hholder same (List.mem_of_getElem? hj))

/-- A composite inside the one at the top is in one property, and that at the top in none. -/
theorem Represents.one_holder (h : a.Represents root g) :
    (∀ id ∈ a.composites, id ≠ root →
      ∃! property : PropertyId, a.contents[property]? = some (.composite id)) ∧
    ∀ property : PropertyId, a.contents[property]? ≠ some (.composite root) := by
  have htop : g.top = [root] := by
    have hcontent := h.content
    cases g <;> simp_all [Graph.top]
  -- the composites are the one at the top and those in properties, each of them once
  have single := g.composites_rows_perm.nodup_iff.1 h.consists.nodup_composites
  rw [htop, List.singleton_append, List.nodup_cons] at single
  have held {property : PropertyId} {id : CompositeId}
      (hfound : a.contents[property]? = some (.composite id)) :
      .property property (.composite id) ∈ g.rows :=
    (h.consists.has (.property property (.composite id))).1 hfound
  refine ⟨fun id live differ => ?_, fun property hfound => ?_⟩
  · obtain ⟨shape, hrow⟩ := h.mem_composites live
    have hmem := g.composites_rows_perm.mem_iff.1 (mem_composites_iff.2 ⟨shape, hrow⟩)
    rw [htop, List.singleton_append, List.mem_cons, or_iff_right differ] at hmem
    obtain ⟨row, hholder, hholds⟩ := List.mem_filterMap.1 hmem
    obtain ⟨property, rfl⟩ : ∃ property, row = .property property (.composite id) := by
      obtain ⟨property, s | inner⟩ | ⟨other, parts⟩ := row <;> simp_all [Row.holds?]
    refine ⟨property, h.consists.contents_eq_some hholder, fun other hfound => ?_⟩
    have hacross : g.rows.Pairwise fun first second : Row =>
        first.holds? = some id → second.holds? ≠ some id :=
      (List.pairwise_filterMap.1 single.2).imp fun differ hfirst hsecond =>
        differ id hfirst id hsecond rfl
    have : Std.Symm fun first second : Row =>
        first.holds? = some id → second.holds? ≠ some id := ⟨fun _ _ differ hs hf => differ hf hs⟩
    by_contra hne
    exact hacross.forall (held hfound) hholder (by simpa using hne) rfl rfl
  · exact single.1 (List.mem_filterMap.2 ⟨_, held hfound, rfl⟩)

/-- An arena with a graph behind it is a tree. -/
theorem Represents.isTree (h : a.Represents root g) : a.IsTree root := by
  obtain ⟨shape, hroot⟩ := Graph.composite_mem_rows h.content
  obtain ⟨hcomposites, hproperties⟩ := h.holds.reaches h.content (.root (a := a))
  obtain ⟨hholder, hfree⟩ := h.one_holder
  have live_property {property : PropertyId} {content : Content}
      (hrow : .property property content ∈ g.rows) : property ∈ a.contents := by
    rw [Std.TreeMap.mem_iff_isSome_getElem?, h.consists.contents_eq_some hrow]
    rfl
  have live_composite {id : CompositeId} {shape : Composite}
      (hrow : .composite id shape ∈ g.rows) : id ∈ a.composites := by
    rw [Std.TreeMap.mem_iff_isSome_getElem?, h.consists.composites_eq_some hrow]
    rfl
  exact {
    root_live := live_composite hroot
    part_live := fun id shape hfound property hmem => by
      have hrow := (h.consists.has (.composite id shape)).1 hfound
      obtain ⟨content, hcontent⟩ := Graph.property_mem_rows_of_composite hrow hmem
      exact live_property hcontent
    content_live := fun property id hfound => by
      have hrow := (h.consists.has (.property property (.composite id))).1 hfound
      obtain ⟨shape, hshape⟩ := Graph.composite_mem_rows_of_property hrow
      exact live_composite hshape
    one_place := fun property live => h.one_place live
    one_holder := hholder
    root_free := hfree
    composite_reached := fun id live => by
      obtain ⟨shape, hrow⟩ := h.mem_composites live
      exact hcomposites id shape hrow
    property_reached := fun property live => by
      obtain ⟨content, hrow⟩ := h.mem_contents live
      exact hproperties property content hrow
    property_issued := fun property live => by
      obtain ⟨content, hrow⟩ := h.mem_contents live
      exact h.consists.issued _ hrow
    composite_issued := fun id live => by
      obtain ⟨shape, hrow⟩ := h.mem_composites live
      exact h.consists.issued _ hrow }

end Arena

/-! ### Counting parts -/

mutual

/-- The number of members and items of a value, also inside one another. -/
def Json.partCount : Json → Nat
  | .scalar _ => 0
  | .object members => Json.memberCount members
  | .array items => Json.itemCount items

/-- The number of some members, with everything inside them. -/
def Json.memberCount : List (String × Json) → Nat
  | [] => 0
  | (_, value) :: rest => 1 + value.partCount + Json.memberCount rest

/-- The number of some items, with everything inside them. -/
def Json.itemCount : List Json → Nat
  | [] => 0
  | value :: rest => 1 + value.partCount + Json.itemCount rest

end

namespace Graph

/-- Each part of the data has its property. -/
theorem partCount_toJson (g : Graph) :
    g.toJson.partCount = (g.rows.filterMap Row.property?).length := by
  induction g using parts_induction with
  | step g ih =>
    have own : g.ownRows.filterMap Row.property? = [] := by
      cases g <;> simp [ownRows, Row.property?]
    have count (part : PropertyId × Graph) (rest : List (PropertyId × Graph)) :
        ((rowsOf (part :: rest)).filterMap Row.property?).length =
          1 + (part.2.rows.filterMap Row.property?).length +
            ((rowsOf rest).filterMap Row.property?).length := by
      rw [rowsOf_cons, List.filterMap_cons_some (by rfl), List.filterMap_append, List.length_cons,
        List.length_append]
      omega
    rw [rows_eq, List.filterMap_append, own, List.nil_append]
    cases g with
    | scalar s => simp [Json.partCount]
    | object id members =>
      rw [toJson_object, Json.partCount, parts_object]
      rw [parts_object] at ih
      clear own
      induction members with
      | nil => rfl
      | cons member rest ihRest =>
        have hmember := ih member.2 List.mem_cons_self
        have hrest := ihRest fun part hpart => ih part (List.mem_cons_of_mem _ hpart)
        rw [List.map_cons, List.map_cons, count, ← hmember, ← hrest, Json.memberCount]
    | array id items =>
      rw [toJson_array, Json.partCount, parts_array]
      rw [parts_array] at ih
      clear own
      induction items with
      | nil => rfl
      | cons part rest ihRest =>
        have hpart := ih part List.mem_cons_self
        have hrest := ihRest fun other hother => ih other (List.mem_cons_of_mem _ hother)
        rw [List.map_cons, count, ← hpart, ← hrest, Json.itemCount]

/-- Segments that lead nowhere do so because one of them names nothing. -/
theorem find_ne_dangling (segments : List String) (g : Graph) (segment : String) :
    g.find segments ≠ .error (.dangling segment) := by
  induction segments generalizing g with
  | nil => simp
  | cons next rest ih =>
    simp only [find]
    split
    · exact ih _
    · simp

end Graph

namespace Arena

variable {a : Arena} {root : CompositeId} {g : Graph}

/-- There are as many properties as parts of the data. -/
theorem Represents.partCount (h : a.Represents root g) :
    a.contents.size = (a.toJson (.composite root)).partCount := by
  rw [h.toJson, Graph.partCount_toJson, h.consists.size_contents]

/-- Whether everything that is written out for a content is in the tables, down to a depth. -/
def isWholeWithin (a : Arena) : Nat → Content → Bool
  | _, .scalar _ => true
  | 0, .composite _ => false
  | depth + 1, .composite id =>
    a.composites[id]?.any fun shape =>
      shape.properties.all fun property => a.contents[property]?.any (isWholeWithin a depth)

/-- Whether everything that is written out for a content is in the tables. -/
def isWhole (a : Arena) (content : Content) : Bool := a.isWholeWithin a.composites.size content

/-- All of a graph is there, if the depth allows for all composites. -/
theorem Holds.isWholeWithin (h : a.Holds g) (depth : Nat)
    (enough : (g.rows.filterMap Row.composite?).length ≤ depth) :
    a.isWholeWithin depth g.content = true := by
  induction depth generalizing g with
  | zero =>
    cases hcontent : g.content with
    | scalar s => rfl
    | composite id =>
      have := composites_pos hcontent
      omega
  | succ depth ih =>
    cases hcontent : g.content with
    | scalar s => rfl
    | composite id =>
      obtain ⟨shape, hfound, -, hproperties⟩ := h.composite hcontent
      simp only [Arena.isWholeWithin, hfound, Option.any_some, hproperties, List.all_map,
        List.all_eq_true, Function.comp_apply]
      -- each part is there, and what it holds has fewer composites
      intro part hpart
      obtain ⟨hthere, hholds⟩ := h.part hpart
      have hfewer := composites_part_lt hcontent hpart
      rw [hthere, Option.any_some]
      exact ih hholds (by omega)

/-- Nothing is missing when the data is written out. -/
theorem Represents.isWhole (h : a.Represents root g) : a.isWhole (.composite root) = true := by
  rw [← h.content]
  exact h.holds.isWholeWithin _ (Nat.le_of_eq h.consists.size_composites.symm)

/-- No segment is looked up by an identifier that names nothing. -/
theorem Represents.resolve_ne_dangling (h : a.Represents root g) (segments : List String)
    (segment : String) : (a.resolve root segments).1 ≠ .error (.dangling segment) := by
  rw [h.holds.resolve h.content]
  intro hdangling
  cases hfind : g.find segments with
  | ok sub => simp [hfind, Except.map] at hdangling
  | error refusal =>
    simp only [hfind, Except.map, Except.error.injEq] at hdangling
    exact g.find_ne_dangling segments segment (hdangling ▸ hfind)

end Arena

/-! ### Reachable stores -/

namespace Store

/-- All that holds of the tables of a store at any time. -/
structure IsSound (s : Store) : Prop where
  isTree : s.arena.IsTree s.root
  /-- There are as many properties as parts of the data. -/
  propertyCount_eq : s.propertyCount = s.toJson.partCount
  /-- Writing the data out follows no identifier that leads nowhere. -/
  isWhole : s.arena.isWhole (.composite s.root) = true
  /-- A read follows no identifier that leads nowhere. -/
  resolve_ne_dangling : ∀ segments segment,
    (s.arena.resolve s.root segments).1 ≠ .error (.dangling segment)
  /-- An assignment follows no identifier that leads nowhere. -/
  assign_ne_dangling : ∀ segments id last value segment,
    (s.arena.resolve s.root segments).1 = .ok (.composite id) →
      s.arena.assign id last value ≠ .error (.dangling segment)

/-- **A store that represents a graph is sound.** -/
theorem isSound_of_represents {s : Store} {g : Graph} (h : s.arena.Represents s.root g) :
    s.IsSound where
  isTree := h.isTree
  propertyCount_eq := h.partCount
  isWhole := h.isWhole
  resolve_ne_dangling := h.resolve_ne_dangling
  assign_ne_dangling segments id last value segment hresolve hdangling := by
    obtain ⟨sub, hfind, hcontent⟩ := find_of_resolve h hresolve
    have hassigns := h.assign hfind hcontent last value
    rw [hdangling] at hassigns
    cases hassigns

end Store

end Bindery
