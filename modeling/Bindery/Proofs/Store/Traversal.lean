import Bindery.Proofs.Path
import Bindery.Proofs.Store.Elsewhere

namespace Bindery

/-!
# What a path goes through

A read of the data goes through the properties that the path and the paths to the places above it
name, in whatever spelling, and through each of them once.  The length of an array is no property.

* `Store.Traverses` — some first segments of a path name a property.
* `Store.propertyAt_iff` — the property at a path, as a part of the graph.
* `Store.mem_trace_iff`, `Store.count_trace` — which properties a read of the
  data goes through, and how often.
-/

namespace Graph

variable {g : Graph} {part : PropertyId × Graph} {property : PropertyId}

/-- Only composites have parts. -/
theorem composite_of_part? {segment : String} (h : g.part? segment = some part) :
    ∃ id, g.content = .composite id := by
  cases g with
  | scalar s => cases h
  | object own members => exact ⟨own, rfl⟩
  | array own items => exact ⟨own, rfl⟩

/-- Segments go through the properties of the parts that they name on their way. -/
theorem mem_through_iff {segments : List String} :
    property ∈ g.through segments ↔
      ∃ before last rest sub part, segments = before ++ last :: rest ∧ g.find before = .ok sub ∧
        sub.part? last = some part ∧ part.1 = property := by
  induction segments generalizing g with
  | nil => simp [through]
  | cons segment others ih =>
    rw [through]
    constructor
    · intro h
      cases hpart : g.part? segment with
      | none => simp [hpart] at h
      | some part =>
        simp only [hpart, List.mem_cons] at h
        obtain rfl | inside := h
        · exact ⟨[], segment, others, g, part, rfl, rfl, hpart, rfl⟩
        · obtain ⟨before, last, rest, sub, part', rfl, hfind, hlast, rfl⟩ := ih.1 inside
          refine ⟨segment :: before, last, rest, sub, part', rfl, ?_, hlast, rfl⟩
          rwa [find_cons_of_part? hpart]
    · rintro ⟨before, last, rest, sub, part, hsegments, hfind, hlast, rfl⟩
      cases before with
      | nil =>
        cases hsegments
        cases hfind
        simp [hlast]
      | cons first before =>
        cases hsegments
        obtain ⟨id, composite⟩ := composite_of_part? hlast
        obtain ⟨part', -, hpart, hfind'⟩ := find_cons_composite hfind composite
        simp only [hpart]
        exact List.mem_cons_of_mem _
          (ih.2 ⟨before, last, rest, sub, part, rfl, hfind', hlast, rfl⟩)

end Graph

namespace Path

/-- The path of the first segments of another. -/
def upTo (path : Path) (before : List String) (last : String) (rest : List String)
    (h : path.segments = before ++ last :: rest) : Path where
  segments := before ++ [last]
  nonempty := by simp
  valid segment hsegment := by
    refine path.valid segment ?_
    rw [h, List.append_cons]
    exact List.mem_append_left _ hsegment

section upTo

variable {path : Path} {before : List String} {last : String} {rest : List String}
  (h : path.segments = before ++ last :: rest)

/-- A path up to one of its segments is a first part of it. -/
theorem upTo_prefix : (path.upTo before last rest h).segments <+: path.segments :=
  ⟨rest, by simp [upTo, h]⟩

@[simp] theorem parents_upTo : (path.upTo before last rest h).parents = before := by
  simp [upTo, parents]

@[simp] theorem last_upTo : (path.upTo before last rest h).last = last := by
  simp [upTo, Path.last]

end upTo

theorem parents_prefix (path : Path) : path.parents <+: path.segments :=
  List.dropLast_prefix path.segments

/-- Paths that begin alike have one head. -/
theorem head_eq_of_prefix {path other : Path} (h : other.segments <+: path.segments) :
    other.head = path.head := by
  obtain ⟨rest, hrest⟩ := h
  obtain ⟨name, others, hsegments⟩ := List.exists_cons_of_ne_nil other.nonempty
  simp [head, ← hrest, hsegments]

end Path

/-- A path leads to the property of the part that its last segment names. -/
theorem Arena.Represents.leadsTo_of_part? {a : Arena} {root id : CompositeId} {g sub : Graph}
    {path : Path} (h : a.Represents root g) (found : g.find path.parents = .ok sub)
    (composite : sub.content = .composite id) {part : PropertyId × Graph}
    (hpart : sub.part? path.last = some part) :
    a.LeadsTo root path part.1 ∧ a.contents[part.1]? = some part.2.content := by
  have hsub := h.holds.find found composite
  have hparents : (a.resolve root path.parents).1 = .ok (.composite id) :=
    h.resolve_eq_ok.2 ⟨.composite id, by rw [found]; exact congrArg _ composite, rfl⟩
  have hmember : a.member id path.last = .property part.1 := by
    rw [hsub.member composite, Graph.length?_of_part? hpart, hpart]
    rfl
  exact ⟨⟨id, hparents, hmember⟩, (hsub.part (Graph.mem_parts_of_part? hpart)).1⟩

namespace Store

variable {s : Store} {g : Graph} {path : Path} {property : PropertyId}

/-- Some first segments of a path name a property, in whatever spelling. -/
def Traverses (s : Store) (path : Path) (property : PropertyId) : Prop :=
  ∃ place : Path, place.segments <+: path.segments ∧ s.propertyAt place.text = .ok property

/-- Where no computed member is at the head, segments are followed in the data. -/
theorem resolve_inData (plain : s.computed.lookup path.head = none) {segments : List String}
    (h : segments <+: path.segments) :
    s.resolve path segments =
      ⟨(s.arena.resolve s.root segments).1.mapError path.refusalFault,
        (s.arena.resolve s.root segments).2⟩ := by
  cases segments with
  | nil => rfl
  | cons name others =>
    obtain ⟨rest, hrest⟩ := h
    obtain rfl : path.head = name := by simp [Path.head, ← hrest]
    simp only [resolve, resolveWith, plain]

/-- The property at a path is that of the part that the last segment names. -/
theorem propertyAt_iff (h : s.arena.Represents s.root g)
    (plain : s.computed.lookup path.head = none) :
    s.propertyAt path.text = .ok property ↔
      ∃ sub part, g.find path.parents = .ok sub ∧ sub.part? path.last = some part ∧
        part.1 = property := by
  constructor
  · intro named
    obtain ⟨found, id, sub, part, hparse, -, hfind, -, -, hpart, same⟩ :=
      place_of_propertyAt h named
    rw [Path.parse?_text] at hparse
    cases hparse
    exact ⟨sub, part, hfind, hpart, same⟩
  · rintro ⟨sub, part, hfind, hpart, rfl⟩
    obtain ⟨id, composite⟩ := Graph.composite_of_part? hpart
    obtain ⟨⟨above, hparents, hmember⟩, hlive⟩ := h.leadsTo_of_part? hfind composite hpart
    have live : part.1 ∈ s.arena.contents := Std.TreeMap.mem_iff_isSome_getElem?.2 (by simp [hlive])
    have inData := resolve_inData plain path.parents_prefix
    simp only [propertyAt, Path.parse?_text, inData, hparents, Except.mapError, hmember, live,
      if_true]

/-- **What a read of the data goes through.** -/
theorem mem_trace_iff (h : s.arena.Represents s.root g)
    (plain : s.computed.lookup path.head = none) :
    property ∈ (s.arena.resolve s.root path.segments).2 ↔ s.Traverses path property := by
  rw [h.holds.trace_eq h.content, Graph.mem_through_iff]
  constructor
  · rintro ⟨before, last, rest, sub, part, hsegments, hfind, hpart, same⟩
    have beginsAlike := Path.upTo_prefix hsegments
    refine ⟨path.upTo before last rest hsegments, beginsAlike, (propertyAt_iff h ?_).2 ?_⟩
    · rwa [Path.head_eq_of_prefix beginsAlike]
    · exact ⟨sub, part, by simpa using hfind, by simpa using hpart, same⟩
  · rintro ⟨place, ⟨rest, hrest⟩, named⟩
    have plain' : s.computed.lookup place.head = none := by
      rwa [Path.head_eq_of_prefix ⟨rest, hrest⟩]
    obtain ⟨sub, part, hfind, hpart, same⟩ := (propertyAt_iff h plain').1 named
    refine ⟨place.parents, place.last, rest, sub, part, ?_, hfind, hpart, same⟩
    rw [← hrest, ← place.parents_append_last, List.append_assoc, List.singleton_append]

/-- A read of the data goes through each of the properties once. -/
theorem count_trace (h : s.arena.Represents s.root g)
    (plain : s.computed.lookup path.head = none) (property : PropertyId) :
    (s.Traverses path property →
      (s.arena.resolve s.root path.segments).2.count property = 1) ∧
    (¬ s.Traverses path property →
      (s.arena.resolve s.root path.segments).2.count property = 0) := by
  rw [← mem_trace_iff h plain]
  exact ⟨List.count_eq_one_of_mem (h.nodup_trace path.segments), List.count_eq_zero_of_not_mem⟩

end Store

end Bindery
