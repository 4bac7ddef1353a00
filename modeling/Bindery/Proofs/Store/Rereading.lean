import Bindery.Proofs.Store.Traversal

namespace Bindery

/-!
# What an assignment leaves

A scalar that was assigned stands where its path leads, so a read of the path sees it, and assigning
it once more changes nothing.  Computed members have no part in this: a path that can be assigned
does not begin with the name of one.

* `Graph.part?_addPart_self` — a part that was added is found by its name.
* `Arena.Represents.assigned` — the path of an assignment leads to the property that has the scalar.
* `Store.Reachable.assigned` — what is read after an assignment, and what the same one does then.
-/

/-! ### The place of an assignment -/

namespace Graph

variable {g : Graph} {last : String} {part : PropertyId × Graph}

/-- One more part is found by its name. -/
theorem part?_addPart_self (length : g.length? last = none) (missing : g.part? last = none)
    (admits : g.admits last = true) (part : PropertyId × Graph) :
    (g.addPart last part).part? last = some part := by
  cases g with
  | scalar s => cases admits
  | object own members =>
    simp only [part?] at missing
    simp [addPart, part?, List.lookup_append, missing]
  | array own items =>
    have notLength : last ≠ "length" := by
      rintro rfl
      simp [length?] at length
    have index : index? last = some items.length := by simpa [Graph.admits] using admits
    simp [addPart, part?, notLength, index]

/-- A graph of a scalar is one. -/
theorem content_of_toJson {value : Scalar} (h : g.toJson = .scalar value) :
    g.content = .scalar value := by
  cases g <;> simp_all

end Graph

namespace Arena

variable {a a' : Arena} {root id : CompositeId} {g sub : Graph} {path : Path} {effect : Effect}
  {value : Scalar}

/-- **Where a scalar was assigned** a property has it, or one that is strictly equal. -/
theorem Represents.assigned (h : a.Represents root g) (found : g.find path.parents = .ok sub)
    (composite : sub.content = .composite id)
    (hassign : a.assign id path.last (.scalar value) = .ok (effect, a')) :
    ∃ property held, a'.LeadsTo root path property ∧
      a'.contents[property]? = some (.scalar held) ∧ held.strictEq value = true := by
  -- what was put in the place of the composite is found there
  have there (new : Graph) : (g.put path.parents new).find path.parents = .ok new := by
    have hput := Graph.find_put found composite new []
    rwa [List.append_nil] at hput
  have hassigns := h.assign found composite path.last (.scalar value)
  rw [hassign] at hassigns
  cases hassigns with
  | @unchanged part length hpart holds =>
    obtain ⟨leads, hcontent⟩ := h.leadsTo_of_part? found composite hpart
    cases hheld : part.2.content with
    | composite inner => simp [hheld, Content.holds] at holds
    | scalar held =>
      rw [hheld] at holds hcontent
      exact ⟨part.1, held, leads, hcontent, holds⟩
  | @replaced part new _ length hpart _ hvalue represents _ =>
    obtain ⟨leads, hcontent⟩ := represents.leadsTo_of_part? (there _) (by simpa using composite)
      (Graph.part?_mapPart hpart fun _ => new)
    rw [Graph.content_of_toJson hvalue] at hcontent
    exact ⟨part.1, value, leads, hcontent, Scalar.strictEq_self value⟩
  | @added part _ length missing admits hvalue represents _ =>
    obtain ⟨leads, hcontent⟩ := represents.leadsTo_of_part? (there _) (by simpa using composite)
      (Graph.part?_addPart_self length missing admits part)
    rw [Graph.content_of_toJson hvalue] at hcontent
    exact ⟨part.1, value, leads, hcontent, Scalar.strictEq_self value⟩

end Arena

/-! ### Reading it -/

/-- A single segment is the first and the last one. -/
theorem Path.head_eq_last {path : Path} (single : path.parents = []) : path.head = path.last := by
  simp [head, ← path.parents_append_last, single]

namespace Store

variable {s s' : Store} {path : Path}

/-- A path that can be assigned does not begin with a computed member. -/
theorem plain_of_assign {value : Json} {done : Effect × Store}
    (hassign : s.assign path value = .ok done) : s.computed.lookup path.head = none := by
  simp only [assign] at hassign
  split at hassign
  · cases hassign
  next writable =>
  rw [Option.eq_none_iff_forall_ne_some]
  intro derivation hlookup
  cases hparents : path.parents with
  | nil => simp [hparents, isComputed, ← Path.head_eq_last hparents, hlookup] at writable
  | cons first rest =>
    have head : path.head = first := by simp [Path.head, ← path.parents_append_last, hparents]
    rw [hparents] at hassign
    -- inside a computed member there are values, which have no members to assign
    split at hassign
    · cases hassign
    · cases hassign
    · next id hresolve =>
      obtain ⟨found, same⟩ := resolve_computed (head ▸ hlookup) hresolve
      cases same

/-- **After a scalar was assigned** its path shows it, or one that is strictly equal, and the same
assignment changes nothing. -/
theorem Reachable.assigned (h : s.Reachable) {value : Scalar} {effect : Effect}
    (hassign : s.assign path (.scalar value) = .ok (effect, s')) :
    (∃ held, held.strictEq value = true ∧
      (s'.read path).result = .ok (.value (.scalar held))) ∧
      s'.assign path (.scalar value) = .ok (.unchanged, s') := by
  obtain ⟨g, hg⟩ := h.represents
  obtain ⟨_, arena, hresolve, harena, rfl⟩ := assign_cases hassign
  obtain ⟨sub, hfind, hcontent⟩ := find_of_resolve hg hresolve
  obtain ⟨property, held, leads, holds, same⟩ := hg.assigned hfind hcontent harena
  -- the assignment has defined nothing
  have before := plain_of_assign hassign
  have plain : (Store.computed { s with arena }).lookup path.head = none := before
  refine ⟨⟨held, same, ?_⟩, ?_⟩
  · rw [read, resolve_inData plain List.prefix_rfl, leads.read holds]
    rfl
  · obtain ⟨id, hparents, hmember⟩ := leads
    have writable : (path.parents.isEmpty && isComputed { s with arena } path.last) = false := by
      cases hparents : path.parents with
      | cons first rest => rfl
      | nil =>
        rw [isComputed, ← Path.head_eq_last hparents, plain]
        rfl
    have hresolve' : (resolve { s with arena } path path.parents).result = .ok (.composite id) := by
      rw [resolve_inData plain path.parents_prefix, hparents]
      rfl
    simp [Store.assign, writable, hresolve', Arena.assign, hmember, holds, Content.holds,
      Json.strictEq, same]

end Store

end Bindery
