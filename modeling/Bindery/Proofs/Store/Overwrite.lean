import Bindery.Proofs.Store.Document
import Bindery.Proofs.Store.LeadsTo

namespace Bindery

/-!
# Writing over what is there

An assignment to a property that exists either finds the value there already, or replaces what the
property holds.

* `Graph.find_overwritten` — what was put in the place of a part is found there.
* `Arena.Represents.nodup_trace` — a read goes through no property twice.
* `Store.Reachable.overwrite` — an assignment to an existing property of a store without computed
  members.
-/

/-- A changed value is found under the name that it had. -/
theorem lookup_modifyFirst {α : Type} (name : String) (f : α → α) (values : List (String × α)) :
    (modifyFirst name f values).lookup name = (values.lookup name).map f := by
  induction values with
  | nil => rfl
  | cons head rest ih =>
    obtain ⟨n, first⟩ := head
    by_cases hn : n = name
    · subst hn
      simp [modifyFirst]
    · have differ : (name == n) = false := beq_false_of_ne (Ne.symm hn)
      simp [modifyFirst, hn, List.lookup_cons, differ, ih]

/-- A change of the first value of a name goes unseen under other names. -/
theorem lookup_modifyFirst_of_ne {α : Type} {name other : String} (differ : other ≠ name)
    (f : α → α) (values : List (String × α)) :
    (modifyFirst name f values).lookup other = values.lookup other := by
  induction values with
  | nil => rfl
  | cons head rest ih =>
    obtain ⟨n, first⟩ := head
    by_cases hn : n = name
    · subst hn
      simp [modifyFirst, List.lookup_cons, beq_false_of_ne differ]
    · simp [modifyFirst, hn, List.lookup_cons, ih]

namespace Graph

variable {g sub : Graph} {segment last : String} {part : PropertyId × Graph} {id : CompositeId}

/-- A changed part is found under the name that it had. -/
theorem part?_mapPart (h : g.part? segment = some part) (f : Graph → Graph) :
    (g.mapPart segment f).part? segment = some (part.1, f part.2) := by
  cases g with
  | scalar s => cases h
  | object own members =>
    simp only [part?] at h
    simp only [mapPart, part?, lookup_modifyFirst, h, Option.map_some]
  | array own items =>
    simp only [part?, Option.ite_none_left_eq_some, Option.bind_eq_some_iff] at h
    obtain ⟨hlength, i, hindex, hi⟩ := h
    simp [mapPart, hindex, part?, hlength, hi]

/-- The length of an array does not change with an item. -/
@[simp] theorem length?_mapPart (segment other : String) (f : Graph → Graph) (g : Graph) :
    (g.mapPart segment f).length? other = g.length? other := by
  cases g with
  | array own items =>
    simp only [mapPart]
    split <;> simp [length?]
  | _ => rfl

/-- A step into a part that was changed leads to what it was changed to. -/
theorem step?_mapPart (length : g.length? segment = none) (h : g.part? segment = some part)
    (f : Graph → Graph) : (g.mapPart segment f).step? segment = some (f part.2) := by
  rw [step?, length?_mapPart, length, part?_mapPart h]
  rfl

/-- Segments after others go on where the others led. -/
theorem find_append {segments : List String} (found : g.find segments = .ok sub)
    (rest : List String) : g.find (segments ++ rest) = sub.find rest := by
  induction segments generalizing g with
  | nil =>
    cases found
    rfl
  | cons segment others ih =>
    rw [List.cons_append, find]
    rw [find] at found
    split at found
    · exact ih found
    · cases found

/-- What was put where segments led is found there. -/
theorem find_put {segments : List String} (found : g.find segments = .ok sub)
    (composite : sub.content = .composite id) (new : Graph) (rest : List String) :
    (g.put segments new).find (segments ++ rest) = new.find rest := by
  induction segments generalizing g with
  | nil => rfl
  | cons segment others ih =>
    obtain ⟨part, hlength, hpart, found⟩ := find_cons_composite found composite
    rw [put_cons, List.cons_append, find, step?_mapPart hlength hpart]
    exact ih found

/-- What was put in the place of a part is found there. -/
theorem find_overwritten {parents : List String} (found : g.find parents = .ok sub)
    (composite : sub.content = .composite id) (length : sub.length? last = none)
    (hpart : sub.part? last = some part) (new : Graph) :
    (g.put parents (sub.mapPart last fun _ => new)).find (parents ++ [last]) = .ok new := by
  rw [find_put found composite, find, step?_mapPart length hpart]
  rfl

end Graph

namespace Arena

variable {a : Arena} {root id : CompositeId} {g : Graph}

/-- A read inside a graph goes through properties of the graph, and through none of them twice. -/
theorem Holds.trace (h : a.Holds g) (distinct : (g.rows.filterMap Row.property?).Nodup)
    (hcontent : g.content = .composite id) (segments : List String) :
    (a.resolve id segments).2 ⊆ g.rows.filterMap Row.property? ∧
      (a.resolve id segments).2.Nodup := by
  induction segments generalizing g id with
  | nil => simp [Arena.resolve]
  | cons segment rest ih =>
    simp only [Arena.resolve, h.member hcontent]
    cases hlength : g.length? segment with
    | some count => simp
    | none =>
      cases hpart : g.part? segment with
      | none => simp
      | some part =>
        have hmem := Graph.mem_parts_of_part? hpart
        obtain ⟨hproperty, hholds⟩ := h.part hmem
        -- the property of the part stands before everything inside the part
        have inside : (part.1 :: part.2.rows.filterMap Row.property?).Sublist
            (g.rows.filterMap Row.property?) := by
          obtain ⟨before, after, hparts⟩ := List.append_of_mem hmem
          rw [Graph.rows_eq g, hparts, Graph.rowsOf_append, Graph.rowsOf_cons]
          simp only [List.filterMap_append, List.filterMap_cons, Row.property?]
          refine .trans ?_ (List.sublist_append_right _ _)
          refine .trans ?_ (List.sublist_append_right _ _)
          exact (List.sublist_append_left _ _).cons_cons _
        have distinct' := distinct.sublist inside
        simp only [Option.elim_some, hproperty]
        cases hinner : part.2.content with
        | scalar s =>
          simpa using inside.subset List.mem_cons_self
        | composite inner =>
          obtain ⟨hsub, hnodup⟩ := ih hholds (List.nodup_cons.1 distinct').2 hinner
          refine ⟨List.cons_subset.2 ⟨inside.subset List.mem_cons_self, ?_⟩,
            List.nodup_cons.2 ⟨fun again => (List.nodup_cons.1 distinct').1 (hsub again), hnodup⟩⟩
          exact fun other hother => inside.subset (List.mem_cons_of_mem _ (hsub hother))

/-- **No property twice.** A read goes down in a tree. -/
theorem Represents.nodup_trace (h : a.Represents root g) (segments : List String) :
    (a.resolve root segments).2.Nodup :=
  (h.holds.trace h.consists.nodup_properties h.content segments).2

end Arena

namespace Store

variable {s : Store} {expr : String} {property : PropertyId}

/-- Nothing is computed in a new store. -/
@[simp] theorem computed_ofJson (data : Json) : (ofJson data).computed = [] := by
  rw [ofJson]
  split <;> rfl

/-- A path goes through a property of the data once at most. -/
theorem Reachable.nodup_trace (h : s.Reachable) (plain : s.computed = []) (path : Path) :
    (s.read path).trace.Nodup := by
  obtain ⟨g, hg⟩ := h.represents
  rw [read, resolve_plain plain]
  exact hg.nodup_trace path.segments

/-- The place in the graph of a property that an expression names. -/
theorem place_of_propertyAt {g : Graph} (h : s.arena.Represents s.root g)
    (named : s.propertyAt expr = .ok property) :
    ∃ path id sub part, Path.parse? expr = some path ∧
      (s.resolve path path.parents).result = .ok (.composite id) ∧
      g.find path.parents = .ok sub ∧ sub.content = .composite id ∧
      sub.length? path.last = none ∧ sub.part? path.last = some part ∧ part.1 = property := by
  simp only [propertyAt] at named
  split at named
  · cases named
  · next path hparse =>
    split at named
    · cases named
    · cases named
    · next id hresolve =>
      obtain ⟨sub, hfind, hcontent⟩ := find_of_resolve h (resolve_eq_composite hresolve)
      have hmember := (h.holds.find hfind hcontent).member hcontent path.last
      -- only a part has a property, not the length of an array
      split at named
      · next found hfound =>
        split at named
        · cases named
          rw [hmember] at hfound
          cases hlength : sub.length? path.last with
          | some count => simp [hlength] at hfound
          | none =>
            cases hpart : sub.part? path.last with
            | none => simp [hlength, hpart] at hfound
            | some part =>
              refine ⟨path, id, sub, part, hparse, hresolve, hfind, hcontent, hlength, hpart, ?_⟩
              simpa [hlength, hpart] using hfound
        · cases named
      · cases named

/-- The value of a path is the data that its segments lead to. -/
theorem get_of_find {g sub : Graph} {path : Path} (h : s.arena.Represents s.root g)
    (plain : s.computed = []) (hparse : Path.parse? expr = some path)
    (found : g.find path.segments = .ok sub) : s.get expr = .ok sub.toJson := by
  rw [get, getWith_document h (derive_document h _) expr, Document.getWith, hparse]
  have hdata : s.document.data.descendAll path.segments = .ok sub.toJson := by
    rw [document, toJson, h.toJson, Graph.descendAll_toJson, found]
    rfl
  obtain ⟨head, rest, hsegments⟩ := List.exists_cons_of_ne_nil path.nonempty
  rw [hsegments] at hdata
  simp only [hsegments, Document.resolveWith, document, plain, List.lookup_nil]
  rw [document] at hdata
  rw [hdata]
  rfl

/-- **Overwriting.** A property that an expression names has a value.  An assignment to it changes
nothing if the two values are equal, strictly, and otherwise replaces what the property holds. -/
theorem Reachable.overwrite (h : s.Reachable) (plain : s.computed = [])
    (named : s.propertyAt expr = .ok property) :
    ∃ path old, Path.parse? expr = some path ∧ s.get expr = .ok old ∧ ∀ value,
      (old.strictEq value = true → s.assign path value = .ok (.unchanged, s)) ∧
      (old.strictEq value = false → ∃ s', s.assign path value = .ok (.replaced property, s') ∧
        s'.get expr = .ok value) := by
  obtain ⟨g, hg⟩ := h.represents
  obtain ⟨path, id, sub, part, hparse, hresolve, hfind, hcontent, hlength, hpart, rfl⟩ :=
    place_of_propertyAt hg named
  have found : g.find path.segments = .ok part.2 := by
    rw [← path.parents_append_last, Graph.find_append hfind, Graph.find, Graph.step?, hlength,
      hpart]
    rfl
  refine ⟨path, part.2.toJson, hparse, get_of_find hg plain hparse found, fun value => ?_⟩
  have hassigns := hg.assign hfind hcontent path.last value
  have unwritable : (path.parents.isEmpty && s.isComputed path.last) = false := by
    simp [isComputed, plain]
  simp only [Store.assign, unwritable, Bool.false_eq_true, if_false, hresolve]
  generalize s.arena.assign id path.last value = outcome at hassigns
  cases hassigns with
  | unchanged _ hpart' hholds =>
    cases hpart.symm.trans hpart'
    rw [Graph.holds_content] at hholds
    simp [hholds]
  | @replaced _ new arena _ hpart' hholds hvalue hrepresents _ =>
    cases hpart.symm.trans hpart'
    rw [Graph.holds_content] at hholds
    refine ⟨by simp [hholds], fun _ => ⟨_, rfl, ?_⟩⟩
    have found' := Graph.find_overwritten hfind hcontent hlength hpart new
    rw [path.parents_append_last] at found'
    rw [← hvalue]
    exact get_of_find (s := { s with arena }) hrepresents plain hparse found'
  | added _ missing => simp [hpart] at missing
  | isLength isLength => simp [hlength] at isLength
  | missing _ missing => simp [hpart] at missing

end Store

end Bindery
