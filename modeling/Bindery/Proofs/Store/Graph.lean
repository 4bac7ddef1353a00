import Bindery.Store.Write
import Mathlib.Data.List.Nodup

namespace Bindery

/-!
# Data graphs

The tree behind an arena: data that carries the identifiers of its parts, each part inside the one
that it belongs to.

* `Graph` — such data; `Graph.toJson` forgets the identifiers.
* `Graph.parts`, `Graph.parts_induction` — what stands directly inside a graph, and induction on it.
* `Graph.rows` — the rows that the graph fills in the tables of an arena.
* `Graph.part?`, `Graph.step?`, `Graph.find` — the part, and the graph, that segments lead to.
* `Graph.mapPart`, `Graph.addPart`, `Graph.put` — changes of one part, wherever it stands.
-/

/-- Data with identifiers on its properties and composites. -/
inductive Graph where
  | scalar (value : Scalar)
  | object (id : CompositeId) (members : List (String × PropertyId × Graph))
  | array (id : CompositeId) (items : List (PropertyId × Graph))

/-- A row of one of the tables of an arena. -/
inductive Row where
  | property (id : PropertyId) (content : Content)
  | composite (id : CompositeId) (parts : Composite)

/-- The identifier that a row is found by. -/
def Row.key : Row → PropertyId ⊕ CompositeId
  | .property id _ => .inl id
  | .composite id _ => .inr id

@[simp] theorem Row.key_property (id : PropertyId) (content : Content) :
    (Row.property id content).key = .inl id := rfl

@[simp] theorem Row.key_composite (id : CompositeId) (parts : Composite) :
    (Row.composite id parts).key = .inr id := rfl

/-- The property that a row is about. -/
def Row.property? : Row → Option PropertyId
  | .property id _ => some id
  | .composite _ _ => none

/-- The composite that a row is about. -/
def Row.composite? : Row → Option CompositeId
  | .property _ _ => none
  | .composite id _ => some id

/-- The named values with the first of a name changed. -/
def modifyFirst {α : Type} (name : String) (f : α → α) : List (String × α) → List (String × α)
  | [] => []
  | (n, value) :: rest =>
    if n = name then (n, f value) :: rest else (n, value) :: modifyFirst name f rest

/-- Looking up by name passes through a change of the values. -/
theorem lookup_map_snd {α β : Type} (f : α → β) (name : String) (values : List (String × α)) :
    (values.map fun value => (value.1, f value.2)).lookup name = (values.lookup name).map f := by
  induction values with
  | nil => rfl
  | cons head rest ih =>
    obtain ⟨n, value⟩ := head
    simp only [List.map_cons, List.lookup_cons, ih]
    split <;> rfl

/-- The first value of a name, and the change of it, in its place. -/
theorem modifyFirst_of_lookup {α : Type} {name : String} {values : List (String × α)} {value : α}
    (h : values.lookup name = some value) :
    ∃ before after, values = before ++ (name, value) :: after ∧
      ∀ f : α → α, modifyFirst name f values = before ++ (name, f value) :: after := by
  induction values with
  | nil => simp at h
  | cons head rest ih =>
    obtain ⟨n, first⟩ := head
    rw [List.lookup_cons] at h
    by_cases hn : n = name
    · subst hn
      rw [beq_self_eq_true] at h
      cases h
      exact ⟨[], rest, rfl, fun f => by simp [modifyFirst]⟩
    · rw [beq_false_of_ne (Ne.symm hn)] at h
      obtain ⟨before, after, hrest, hmodify⟩ := ih h
      exact ⟨(n, first) :: before, after, by rw [hrest]; rfl, fun f => by
        simp [modifyFirst, hn, hmodify f]⟩

/-- A change of values goes unseen where the values do not show. -/
theorem map_modifyFirst {α β : Type} (name : String) (f : α → α) (show' : String × α → β)
    (h : ∀ n value, show' (n, f value) = show' (n, value)) (values : List (String × α)) :
    (modifyFirst name f values).map show' = values.map show' := by
  induction values with
  | nil => rfl
  | cons head rest ih =>
    obtain ⟨n, value⟩ := head
    by_cases hn : n = name
    · simp [modifyFirst, hn, h]
    · simp [modifyFirst, hn, ih]

/-- A change of values can be seen after it or made before it. -/
theorem modifyFirst_map {α β : Type} {f : α → α} {f' : β → β} (value : α → β)
    (same : ∀ a, value (f a) = f' (value a)) (name : String) (values : List (String × α)) :
    (modifyFirst name f values).map (fun v => (v.1, value v.2)) =
      modifyFirst name f' (values.map fun v => (v.1, value v.2)) := by
  induction values with
  | nil => rfl
  | cons head rest ih =>
    obtain ⟨n, first⟩ := head
    by_cases hn : n = name
    · simp [modifyFirst, hn, same]
    · simp [modifyFirst, hn, ih]

namespace Graph

/-! ### Parts -/

/-- What a property holds whose content is the graph. -/
def content : Graph → Content
  | scalar s => .scalar s
  | object id _ => .composite id
  | array id _ => .composite id

/-- What stands directly inside a graph, in order. -/
def parts : Graph → List (PropertyId × Graph)
  | scalar _ => []
  | object _ members => members.map (·.2)
  | array _ items => items

@[simp] theorem content_scalar (s : Scalar) : (scalar s).content = .scalar s := rfl

@[simp] theorem content_object (id : CompositeId) (members : List (String × PropertyId × Graph)) :
    (object id members).content = .composite id := rfl

@[simp] theorem content_array (id : CompositeId) (items : List (PropertyId × Graph)) :
    (array id items).content = .composite id := rfl

@[simp] theorem parts_scalar (s : Scalar) : (scalar s).parts = [] := rfl

@[simp] theorem parts_object (id : CompositeId) (members : List (String × PropertyId × Graph)) :
    (object id members).parts = members.map (·.2) := rfl

@[simp] theorem parts_array (id : CompositeId) (items : List (PropertyId × Graph)) :
    (array id items).parts = items := rfl

/-- A part is smaller than the whole. -/
theorem sizeOf_lt_of_mem_parts {g : Graph} {part : PropertyId × Graph} (h : part ∈ g.parts) :
    sizeOf part.2 < sizeOf g := by
  obtain ⟨id, inner⟩ := part
  cases g with
  | scalar s => simp at h
  | object own members =>
    obtain ⟨⟨key, member⟩, hm, rfl⟩ := List.mem_map.1 h
    have := List.sizeOf_lt_of_mem hm
    simp at this ⊢
    omega
  | array own items =>
    rw [parts_array] at h
    have := List.sizeOf_lt_of_mem h
    simp at this ⊢
    omega

/-- Induction on what stands inside. -/
theorem parts_induction {motive : Graph → Prop}
    (step : ∀ g : Graph, (∀ part ∈ g.parts, motive part.2) → motive g) (g : Graph) : motive g :=
  step g fun part _ => parts_induction step part.2
termination_by sizeOf g
decreasing_by exact sizeOf_lt_of_mem_parts ‹_›

/-! ### Data -/

/-- The data of a graph. -/
def toJson : Graph → Json
  | scalar s => .scalar s
  | object _ members => .object (members.map fun member => (member.1, member.2.2.toJson))
  | array _ items => .array (items.map fun part => part.2.toJson)
termination_by g => sizeOf g
decreasing_by
  · exact sizeOf_lt_of_mem_parts (List.mem_map_of_mem (f := Prod.snd) ‹_›)
  · exact sizeOf_lt_of_mem_parts ‹_›

@[simp] theorem toJson_scalar (s : Scalar) : (scalar s).toJson = .scalar s := by rw [toJson]

@[simp] theorem toJson_object (id : CompositeId) (members : List (String × PropertyId × Graph)) :
    (object id members).toJson =
      .object (members.map fun member => (member.1, member.2.2.toJson)) := by
  rw [toJson]

@[simp] theorem toJson_array (id : CompositeId) (items : List (PropertyId × Graph)) :
    (array id items).toJson = .array (items.map fun part => part.2.toJson) := by
  rw [toJson]

/-! ### Rows -/

/-- The row of the graph itself, if it is a composite. -/
def ownRows : Graph → List Row
  | scalar _ => []
  | object id members =>
    [.composite id (.object (members.map fun member => (member.1, member.2.1)))]
  | array id items => [.composite id (.array (items.map (·.1)))]

/-- The rows of a graph: its own, and for each part that of its property and those of its inside. -/
def rows (g : Graph) : List Row :=
  g.ownRows ++ g.parts.attach.flatMap fun part =>
    .property part.1.1 part.1.2.content :: part.1.2.rows
termination_by sizeOf g
decreasing_by exact sizeOf_lt_of_mem_parts part.2

/-- The rows of some parts. -/
def rowsOf (parts : List (PropertyId × Graph)) : List Row :=
  parts.flatMap fun part => .property part.1 part.2.content :: part.2.rows

/-- The rows of a graph are its own and those of its parts. -/
theorem rows_eq (g : Graph) : g.rows = g.ownRows ++ rowsOf g.parts := by
  rw [rows, rowsOf, List.flatMap_def, List.flatMap_def,
    List.attach_map_val (f := fun part : PropertyId × Graph =>
      .property part.1 part.2.content :: part.2.rows)]

@[simp] theorem rowsOf_nil : rowsOf [] = [] := rfl

@[simp] theorem rowsOf_cons (part : PropertyId × Graph) (rest : List (PropertyId × Graph)) :
    rowsOf (part :: rest) = .property part.1 part.2.content :: (part.2.rows ++ rowsOf rest) := by
  simp [rowsOf]

@[simp] theorem rowsOf_append (first second : List (PropertyId × Graph)) :
    rowsOf (first ++ second) = rowsOf first ++ rowsOf second := by
  simp [rowsOf]

/-- The rows of parts are their properties, and the rows of what these hold. -/
theorem mem_rowsOf {parts : List (PropertyId × Graph)} {row : Row} :
    row ∈ rowsOf parts ↔
      ∃ part ∈ parts, row = .property part.1 part.2.content ∨ row ∈ part.2.rows := by
  simp [rowsOf]

/-- The rows of a part are rows of the whole. -/
theorem rows_subset_of_mem_parts {g : Graph} {part : PropertyId × Graph} (h : part ∈ g.parts) :
    .property part.1 part.2.content :: part.2.rows ⊆ g.rows := by
  intro row hrow
  rw [rows_eq, List.mem_append, mem_rowsOf]
  exact .inr ⟨part, h, List.mem_cons.1 hrow⟩

@[simp] theorem rows_scalar (s : Scalar) : (scalar s).rows = [] := by
  rw [rows_eq]; rfl

/-- The rows of a part come in one piece. -/
theorem rows_sublist_of_mem_parts {parts : List (PropertyId × Graph)}
    {part : PropertyId × Graph} (h : part ∈ parts) : part.2.rows.Sublist (rowsOf parts) := by
  obtain ⟨before, after, rfl⟩ := List.append_of_mem h
  rw [rowsOf_append, rowsOf_cons]
  exact ((List.sublist_append_left _ _).cons _).trans (List.sublist_append_right _ _)

/-- A composite has a row. -/
theorem composite_mem_rows {g : Graph} {id : CompositeId} (h : g.content = .composite id) :
    ∃ shape, .composite id shape ∈ g.rows := by
  cases g with
  | scalar s => simp at h
  | object own members => cases h; exact ⟨_, by rw [rows_eq]; exact List.mem_cons_self⟩
  | array own items => cases h; exact ⟨_, by rw [rows_eq]; exact List.mem_cons_self⟩

/-- A composite that a property holds has a row. -/
theorem composite_mem_rows_of_property {g : Graph} {property : PropertyId} {id : CompositeId}
    (h : .property property (.composite id) ∈ g.rows) : ∃ shape, .composite id shape ∈ g.rows := by
  induction g using parts_induction with
  | step g ih =>
    rw [rows_eq, List.mem_append, mem_rowsOf] at h
    -- the property is that of a part, and holds its top, or it stands further inside
    obtain hown | ⟨part, hpart, htop | hinside⟩ := h
    · cases g <;> simp [ownRows] at hown
    · obtain ⟨shape, hshape⟩ := composite_mem_rows (Row.property.inj htop).2.symm
      exact ⟨shape, rows_subset_of_mem_parts hpart (List.mem_cons_of_mem _ hshape)⟩
    · obtain ⟨shape, hshape⟩ := ih part hpart hinside
      exact ⟨shape, rows_subset_of_mem_parts hpart (List.mem_cons_of_mem _ hshape)⟩

/-- A property that a composite has as a part has a row. -/
theorem property_mem_rows_of_composite {g : Graph} {id : CompositeId} {shape : Composite}
    {property : PropertyId} (h : .composite id shape ∈ g.rows) (hp : property ∈ shape.properties) :
    ∃ content, .property property content ∈ g.rows := by
  induction g using parts_induction with
  | step g ih =>
    rw [rows_eq, List.mem_append, mem_rowsOf] at h
    -- the composite is the graph itself, or stands in one of its parts
    obtain hown | ⟨part, hpart, htop | hinside⟩ := h
    · have hparts : property ∈ g.parts.map (·.1) := by
        cases g with
        | scalar s => simp [ownRows] at hown
        | object own members =>
          cases List.mem_singleton.1 hown
          simpa using hp
        | array own items =>
          cases List.mem_singleton.1 hown
          simpa using hp
      obtain ⟨part, hpart, rfl⟩ := List.mem_map.1 hparts
      exact ⟨_, rows_subset_of_mem_parts hpart List.mem_cons_self⟩
    · cases htop
    · obtain ⟨content, hcontent⟩ := ih part hpart hinside
      exact ⟨content, rows_subset_of_mem_parts hpart (List.mem_cons_of_mem _ hcontent)⟩

/-! ### Following segments -/

/-- The part that a segment names, with its property. -/
def part? (segment : String) : Graph → Option (PropertyId × Graph)
  | scalar _ => none
  | object _ members => members.lookup segment
  | array _ items => if segment = "length" then none else (index? segment).bind (items[·]?)

/-- The length of an array, if a segment asks for it. -/
def length? (segment : String) : Graph → Option Nat
  | array _ items => if segment = "length" then some items.length else none
  | _ => none

/-- What a segment names; the length of an array counts as a scalar. -/
def step? (segment : String) (g : Graph) : Option Graph :=
  match g.length? segment with
  | some count => some (.scalar (.number (.integer count)))
  | none => (g.part? segment).map (·.2)

/-- What segments name, one inside the other; the first that names nothing is the error. -/
def find : List String → Graph → Except Refusal Graph
  | [], g => .ok g
  | segment :: rest, g =>
    match g.step? segment with
    | some inner => find rest inner
    | none => .error (.missing segment)

@[simp] theorem find_nil (g : Graph) : g.find [] = .ok g := rfl

@[simp] theorem step?_scalar (segment : String) (s : Scalar) :
    (scalar s).step? segment = none := rfl

/-- A scalar has no parts to find. -/
theorem find_scalar (segment : String) (rest : List String) (s : Scalar) :
    (scalar s).find (segment :: rest) = .error (.missing segment) := rfl

/-- The part that a segment names is a part. -/
theorem mem_parts_of_part? {segment : String} {g : Graph} {part : PropertyId × Graph}
    (h : g.part? segment = some part) : part ∈ g.parts := by
  cases g with
  | scalar s => simp [part?] at h
  | object id members =>
    obtain ⟨before, after, rfl, -⟩ := List.lookup_eq_some_iff.1 h
    simp
  | array id items =>
    simp only [part?, Option.ite_none_left_eq_some, Option.bind_eq_some_iff] at h
    obtain ⟨-, i, -, hi⟩ := h
    exact List.mem_of_getElem? hi

/-- A composite has one row of its own, in which segments name what they name in the graph. -/
theorem ownRows_of_content {g : Graph} {id : CompositeId} (h : g.content = .composite id) :
    ∃ shape, g.ownRows = [.composite id shape] ∧ shape.properties = g.parts.map (·.1) ∧
      ∀ segment, shape.member segment = match g.length? segment with
        | some count => .length count
        | none => (g.part? segment).elim .missing fun part => .property part.1 := by
  cases g with
  | scalar s => simp at h
  | object own members =>
    cases h
    refine ⟨_, rfl, by simp, fun segment => ?_⟩
    simp only [Composite.member, lookup_map_snd, length?, part?]
    cases members.lookup segment <;> rfl
  | array own items =>
    cases h
    refine ⟨_, rfl, rfl, fun segment => ?_⟩
    simp only [Composite.member, length?, part?, List.length_map]
    split
    · rfl
    · cases index? segment with
      | none => rfl
      | some i => cases hi : items[i]? <;> simp [hi]

/-- A segment names in the data what it names in the graph. -/
theorem descend_toJson (segment : String) (g : Graph) :
    g.toJson.descend segment = (g.step? segment).map toJson := by
  cases g with
  | scalar s => simp [Json.descend]
  | object id members =>
    simp only [toJson_object, Json.descend, step?, length?, part?]
    rw [lookup_map_snd fun part : PropertyId × Graph => part.2.toJson, Option.map_map]
    rfl
  | array id items =>
    simp only [toJson_array, Json.descend, step?, length?, part?, List.length_map]
    split
    · simp
    · cases index? segment with
      | none => rfl
      | some i => cases hi : items[i]? <;> simp [hi]

/-- Segments lead in the data where they lead in the graph. -/
theorem descendAll_toJson (segments : List String) (g : Graph) :
    g.toJson.descendAll segments = (g.find segments).map toJson := by
  induction segments generalizing g with
  | nil => rfl
  | cons segment rest ih =>
    simp only [Json.descendAll, find, descend_toJson]
    cases g.step? segment with
    | none => rfl
    | some inner => exact ih inner

/-! ### Changes of one part -/

/-- The graph with the part changed that a segment names. -/
def mapPart (segment : String) (f : Graph → Graph) : Graph → Graph
  | scalar s => scalar s
  | object id members => object id (modifyFirst segment (fun part => (part.1, f part.2)) members)
  | array id items =>
    match index? segment with
    | some i => array id (items.modify i fun part => (part.1, f part.2))
    | none => array id items

/-- Whether a name that is not there can be added. -/
def admits (segment : String) : Graph → Bool
  | scalar _ => false
  | object _ _ => true
  | array _ items => index? segment == some items.length

/-- The graph with one more part at its end. -/
def addPart (segment : String) (part : PropertyId × Graph) : Graph → Graph
  | scalar s => scalar s
  | object id members => object id (members ++ [(segment, part)])
  | array id items => array id (items ++ [part])

/-- The graph with another one in the place that segments lead to. -/
def put : List String → Graph → Graph → Graph
  | [], _, new => new
  | segment :: rest, g, new => g.mapPart segment fun inner => put rest inner new

@[simp] theorem put_nil (g new : Graph) : g.put [] new = new := rfl

theorem put_cons (segment : String) (rest : List String) (g new : Graph) :
    g.put (segment :: rest) new = g.mapPart segment fun inner => inner.put rest new := rfl

@[simp] theorem content_mapPart (segment : String) (f : Graph → Graph) (g : Graph) :
    (g.mapPart segment f).content = g.content := by
  cases g with
  | array id items => simp only [mapPart]; split <;> rfl
  | _ => rfl

@[simp] theorem content_addPart (segment : String) (part : PropertyId × Graph) (g : Graph) :
    (g.addPart segment part).content = g.content := by
  cases g <;> rfl

/-- Neither the names nor the properties change with a part. -/
@[simp] theorem ownRows_mapPart (segment : String) (f : Graph → Graph) (g : Graph) :
    (g.mapPart segment f).ownRows = g.ownRows := by
  cases g with
  | scalar s => rfl
  | object id members =>
    simp only [mapPart, ownRows]
    rw [map_modifyFirst]
    intro name part
    rfl
  | array id items =>
    simp only [mapPart]
    split
    · -- the item at the index keeps its property, and the others are not touched
      refine congrArg (fun ids => [Row.composite id (.array ids)]) (List.ext_getElem? fun i => ?_)
      simp only [List.getElem?_map, List.getElem?_modify]
      cases items[i]? with
      | none => rfl
      | some part => simp only [Option.map_some]; split <;> rfl
    · rfl

/-- A part that a segment names, and the change of it, in its place. -/
theorem parts_mapPart {segment : String} {g : Graph} {part : PropertyId × Graph}
    (h : g.part? segment = some part) :
    ∃ before after, g.parts = before ++ part :: after ∧
      ∀ f, (g.mapPart segment f).parts = before ++ (part.1, f part.2) :: after := by
  cases g with
  | scalar s => simp [part?] at h
  | object id members =>
    obtain ⟨before, after, hmembers, hmodify⟩ := modifyFirst_of_lookup h
    exact ⟨before.map (·.2), after.map (·.2), by simp [hmembers], fun f => by
      simp [mapPart, hmodify]⟩
  | array id items =>
    simp only [part?, Option.ite_none_left_eq_some, Option.bind_eq_some_iff] at h
    obtain ⟨-, i, hindex, hi⟩ := h
    obtain ⟨hlt, rfl⟩ := List.getElem?_eq_some_iff.1 hi
    refine ⟨items.take i, items.drop (i + 1), ?_, fun f => ?_⟩
    · rw [parts_array, ← List.drop_eq_getElem_cons hlt, List.take_append_drop]
    · simp only [mapPart, hindex, parts_array]
      rw [List.modify_eq_take_cons_drop hlt]

/-- The rows of a graph around those of one part, which a change of the part leaves alone. -/
theorem rows_mapPart {segment : String} {g : Graph} {part : PropertyId × Graph}
    (h : g.part? segment = some part) :
    ∃ context, g.rows.Perm (.property part.1 part.2.content :: (part.2.rows ++ context)) ∧
      ∀ f, (g.mapPart segment f).rows.Perm
        (.property part.1 (f part.2).content :: ((f part.2).rows ++ context)) := by
  obtain ⟨before, after, hparts, hchanged⟩ := parts_mapPart h
  have around (p : PropertyId × Graph) :
      (g.ownRows ++ rowsOf (before ++ p :: after)).Perm (.property p.1 p.2.content ::
        (p.2.rows ++ (g.ownRows ++ rowsOf before ++ rowsOf after))) := by
    simp only [rowsOf_append, rowsOf_cons]
    rw [← List.append_assoc]
    refine List.perm_middle.trans (.cons _ ?_)
    rw [← List.append_assoc, ← List.append_assoc p.2.rows]
    exact List.perm_append_comm.append_right _
  refine ⟨g.ownRows ++ rowsOf before ++ rowsOf after, ?_, fun f => ?_⟩
  · rw [rows_eq, hparts]
    exact around part
  · rw [rows_eq, ownRows_mapPart, hchanged]
    exact around (part.1, f part.2)

/-- The first of the segments that lead to a composite names a part: the length of an array is a
scalar, in which nothing can be found. -/
theorem find_cons_composite {segment : String} {rest : List String} {g sub : Graph}
    {id : CompositeId} (found : g.find (segment :: rest) = .ok sub)
    (composite : sub.content = .composite id) :
    ∃ part, g.length? segment = none ∧ g.part? segment = some part ∧
      part.2.find rest = .ok sub := by
  cases hlength : g.length? segment with
  | some count =>
    simp only [find, step?, hlength] at found
    cases rest with
    | nil => cases found; simp at composite
    | cons next rest => simp [find_scalar] at found
  | none =>
    cases hpart : g.part? segment with
    | none => simp [find, step?, hlength, hpart] at found
    | some part => exact ⟨part, rfl, rfl, by simpa [find, step?, hlength, hpart] using found⟩

/-- The rows of a graph around those of the composite that segments lead to.  A graph with the same
identifier can be put there. -/
theorem rows_put {segments : List String} {g sub : Graph} {id : CompositeId}
    (found : g.find segments = .ok sub) (composite : sub.content = .composite id) :
    ∃ context, g.rows.Perm (sub.rows ++ context) ∧
      ∀ new : Graph, new.content = sub.content →
        (g.put segments new).content = g.content ∧
          (g.put segments new).rows.Perm (new.rows ++ context) := by
  induction segments generalizing g with
  | nil =>
    cases found
    exact ⟨[], by simp, fun new same => ⟨same, by simp⟩⟩
  | cons segment rest ih =>
    -- around the composite stand what is around it in the part, the property of the part, and what
    -- is around the part
    obtain ⟨part, -, hpart, found⟩ := find_cons_composite found composite
    obtain ⟨inside, hinside, hput⟩ := ih found
    obtain ⟨context, hcontext, hmap⟩ := rows_mapPart hpart
    have collect (top : Row) {rows sub : List Row} (h : rows.Perm (sub ++ inside)) :
        (top :: (rows ++ context)).Perm (sub ++ (top :: (inside ++ context))) := by
      refine .trans (.cons _ ((h.append_right context).trans ?_)) List.perm_middle.symm
      rw [List.append_assoc]
    refine ⟨.property part.1 part.2.content :: (inside ++ context),
      hcontext.trans (collect _ hinside), fun new same => ⟨by simp [put_cons], ?_⟩⟩
    obtain ⟨hcontent, hrows⟩ := hput new same
    rw [put_cons]
    refine (hmap _).trans ?_
    rw [hcontent]
    exact collect _ hrows

/-- What can be added to a composite can be added to its row. -/
theorem admits_ownRows {g : Graph} {id : CompositeId} {shape : Composite} (segment : String)
    (h : g.ownRows = [.composite id shape]) : shape.admits segment = g.admits segment := by
  cases g with
  | scalar s => simp [ownRows] at h
  | object own members => cases h; rfl
  | array own items => cases h; simp [Composite.admits, admits]

/-- The rows of a composite with one part more. -/
theorem rows_addPart {g : Graph} {id : CompositeId} {shape : Composite} (segment : String)
    (part : PropertyId × Graph) (h : g.ownRows = [.composite id shape]) :
    (g.addPart segment part).rows.Perm (.composite id (shape.extend segment part.1) ::
      (.property part.1 part.2.content :: part.2.rows ++ rowsOf g.parts)) := by
  cases g with
  | scalar s => simp [ownRows] at h
  | object own members =>
    cases h
    rw [rows_eq]
    simp only [addPart, ownRows, parts_object, List.map_append, rowsOf_append, Composite.extend,
      List.singleton_append, List.map_cons, List.map_nil, rowsOf_cons, rowsOf_nil,
      List.append_nil, ← List.cons_append]
    exact .cons _ List.perm_append_comm
  | array own items =>
    cases h
    rw [rows_eq]
    simp only [addPart, ownRows, parts_array, List.map_append, rowsOf_append, Composite.extend,
      List.singleton_append, List.map_cons, List.map_nil, rowsOf_cons, rowsOf_nil,
      List.append_nil, ← List.cons_append]
    exact .cons _ List.perm_append_comm

end Graph

end Bindery
