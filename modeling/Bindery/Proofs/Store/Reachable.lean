import Bindery.Proofs.Store.Assign

namespace Bindery

/-!
# Reachable stores

The stores that there can be: made from data, given computed members, and assigned to.

* `Store.Reachable` — these stores.
* `Store.Reachable.represents` — each of them has a graph behind its arena.
* `Store.assign_cases` — an assignment that succeeds goes to a composite of the arena.
-/

/-- The property whose content an assignment replaced. -/
def Effect.replaced? : Effect → Option PropertyId
  | .replaced id => some id
  | _ => none

namespace Store

/-- The stores that arise from data by definitions and assignments. -/
inductive Reachable : Store → Prop
  | ofJson (data : Json) : Reachable (.ofJson data)
  | define {s : Store} (name : String) (derivation : Derivation) : Reachable s →
      Reachable (s.define name derivation)
  | assign {s s' : Store} {path : Path} {value : Json} {effect : Effect} : Reachable s →
      s.assign path value = .ok (effect, s') → Reachable s'

variable {s s' : Store} {path : Path}

/-- Computed members lead to values and never to a composite of the store. -/
theorem resolve_eq_composite {segments : List String} {id : CompositeId}
    (h : (s.resolve path segments).result = .ok (.composite id)) :
    (s.arena.resolve s.root segments).1 = .ok (.composite id) := by
  have inData {result : Except Refusal Snapshot}
      (h : result.mapError path.refusalFault = .ok (.composite id)) :
      result = .ok (.composite id) := by
    cases result with
    | error refusal => cases h
    | ok seen => cases h; rfl
  cases segments with
  | nil => exact inData h
  | cons name rest =>
    simp only [resolve, resolveWith] at h
    split at h
    · exact inData h
    · split at h
      · cases h
      · next value _ _ =>
        cases hvalue : Json.descendAll rest value with
        | error refusal => simp [hvalue, Except.map, Except.mapError] at h
        | ok found => simp [hvalue, Except.map, Except.mapError] at h

/-- An assignment that succeeds is one to a composite of the arena. -/
theorem assign_cases {value : Json} {effect : Effect} (h : s.assign path value = .ok (effect, s')) :
    ∃ id arena, (s.arena.resolve s.root path.parents).1 = .ok (.composite id) ∧
      s.arena.assign id path.last value = .ok (effect, arena) ∧ s' = { s with arena } := by
  simp only [assign] at h
  split at h
  · cases h
  · split at h
    · cases h
    · cases h
    · next id hresolve =>
      split at h
      · next effect' arena hassign =>
        cases h
        exact ⟨id, arena, resolve_eq_composite hresolve, hassign, rfl⟩
      · cases h

/-- An assignment of what was there already leaves the store as it was. -/
theorem eq_of_unchanged {value : Json} (h : s.assign path value = .ok (.unchanged, s')) :
    s' = s := by
  obtain ⟨id, arena, -, hassign, rfl⟩ := assign_cases h
  have harena : arena = s.arena := by
    simp only [Arena.assign, Arena.insert] at hassign
    repeat' split at hassign
    all_goals cases hassign
    rfl
  rw [harena]

/-- An assignment defines nothing. -/
theorem computed_assign {value : Json} {effect : Effect}
    (h : s.assign path value = .ok (effect, s')) : s'.computed = s.computed := by
  obtain ⟨_, arena, -, -, rfl⟩ := assign_cases h
  rfl

/-- The graph where segments lead to a composite. -/
theorem find_of_resolve {g : Graph} {segments : List String} {id : CompositeId}
    (h : s.arena.Represents s.root g)
    (hresolve : (s.arena.resolve s.root segments).1 = .ok (.composite id)) :
    ∃ sub, g.find segments = .ok sub ∧ sub.content = .composite id := by
  rw [h.holds.resolve h.content] at hresolve
  cases hfind : g.find segments with
  | error refusal => simp [hfind, Except.map] at hresolve
  | ok sub =>
    refine ⟨sub, rfl, ?_⟩
    simp only [hfind, Except.map, Except.ok.injEq] at hresolve
    cases hcontent : sub.content with
    | scalar value => simp [hcontent, Content.snapshot] at hresolve
    | composite other => simpa [hcontent, Content.snapshot] using hresolve

/-- An assignment to a store with a graph leaves one with a graph, which goes on from it. -/
theorem represents_assign {g : Graph} {value : Json} {effect : Effect}
    (h : s.arena.Represents s.root g) (hassign : s.assign path value = .ok (effect, s')) :
    (∃ g', s'.arena.Represents s'.root g') ∧
      Arena.Continues effect.replaced? s.arena s'.arena := by
  obtain ⟨id, arena, hresolve, harena, rfl⟩ := assign_cases hassign
  obtain ⟨sub, hfind, hcontent⟩ := find_of_resolve h hresolve
  have hassigns := h.assign hfind hcontent path.last value
  rw [harena] at hassigns
  cases hassigns with
  | unchanged => exact ⟨⟨g, h⟩, h.continues⟩
  | replaced _ _ _ _ hrepresents hcontinues => exact ⟨⟨_, hrepresents⟩, hcontinues⟩
  | added _ _ _ _ hrepresents hcontinues => exact ⟨⟨_, hrepresents⟩, hcontinues⟩

/-- A new store has a graph with its data, an empty object if the data is no composite. -/
theorem represents_ofJson (data : Json) :
    ∃ g : Graph, (ofJson data).arena.Represents (ofJson data).root g ∧
      g.toJson = match data with
        | .scalar _ => .object []
        | data => data := by
  obtain ⟨g, hvalue, hcontent, htaken⟩ := Arena.observe_takesIn data .empty
  have hobserved := htaken.adds _ Arena.consists_empty
  rw [List.append_nil] at hobserved
  rw [ofJson]
  cases hdata : Arena.observe data .empty with
  | mk content arena =>
    simp only [hdata] at hcontent hobserved
    cases content with
    | composite id =>
      refine ⟨g, ⟨hobserved, hcontent⟩, ?_⟩
      cases data with
      | scalar value => cases hdata
      | _ => exact hvalue
    | scalar value =>
      cases data with
      | scalar value =>
        -- an empty object stands in
        refine ⟨.object ⟨arena.nextComposite⟩ [], ⟨?_, rfl⟩, by simp⟩
        cases hdata
        rw [Graph.rows_eq]
        exact (Arena.addComposite_takesIn (.object []) .empty).adds _ Arena.consists_empty
      | _ => simp [Arena.observe] at hdata

/-- There is a graph behind every store that there can be. -/
theorem Reachable.represents (h : s.Reachable) : ∃ g, s.arena.Represents s.root g := by
  induction h with
  | ofJson data =>
    obtain ⟨g, hrepresents, -⟩ := represents_ofJson data
    exact ⟨g, hrepresents⟩
  | define name derivation _ ih => exact ih
  | assign _ hassign ih =>
    obtain ⟨g, hrepresents⟩ := ih
    exact (represents_assign hrepresents hassign).1

end Store

end Bindery
