import Bindery.Proofs.Store.LeadsTo

namespace Bindery

/-!
# Scalars in the place of scalars

Putting one scalar in the place of another leaves all composites, so all paths lead where they led.

* `Store.HoldsScalar` — an expression that names a property with a scalar.
* `Arena.put`, `Store.put` — another scalar in a property.
* `Store.read_put_of_notMem`, `Store.read_put_of_mem` — a read sees the new scalar if it goes
  through the property, and otherwise what it saw.
* `Store.HoldsScalar.assign` — an assignment of a scalar to such an expression does just that.
-/

namespace Arena

variable {a : Arena} {property : PropertyId} {old value : Scalar}

/-- The arena with another scalar in a property. -/
def put (a : Arena) (property : PropertyId) (value : Scalar) : Arena :=
  { a with contents := a.contents.insert property (.scalar value) }

/-- The property has the scalar that was put there. -/
theorem contents_put_self : (a.put property value).contents[property]? = some (.scalar value) := by
  simp [put]

/-- The others have what they had. -/
theorem contents_put_of_ne {other : PropertyId} (differ : other ≠ property) :
    (a.put property value).contents[other]? = a.contents[other]? := by
  simp [put, Std.TreeMap.getElem?_insert, Ne.symm differ]

/-- What holds a scalar afterwards held one before. -/
theorem contents_put_scalar (property : PropertyId) (value : Scalar) {other : PropertyId}
    {s : Scalar}
    (h : a.contents[other]? = some (.scalar s)) :
    ∃ s', (a.put property value).contents[other]? = some (.scalar s') := by
  by_cases same : other = property
  · rw [same]
    exact ⟨value, contents_put_self⟩
  · exact ⟨s, (contents_put_of_ne same).trans h⟩

@[simp] theorem member_put (id : CompositeId) (segment : String) :
    (a.put property value).member id segment = a.member id segment := rfl

/-- Segments that do not go through the property lead where they led. -/
theorem resolve_put_of_notMem {id : CompositeId} {segments : List String}
    (was : a.contents[property]? = some (.scalar old))
    (elsewhere : property ∉ (a.resolve id segments).2) :
    (a.put property value).resolve id segments = a.resolve id segments := by
  induction segments generalizing id with
  | nil => rfl
  | cons segment rest ih =>
    rw [resolve] at elsewhere
    rw [resolve, resolve, member_put]
    cases hmember : a.member id segment with
    | property other =>
      simp only [hmember] at elsewhere
      have differ : other ≠ property := by
        rintro rfl
        simp [was] at elsewhere
      simp only [contents_put_of_ne differ]
      cases hcontent : a.contents[other]? with
      | none => rfl
      | some content =>
        cases content with
        | scalar s => rfl
        | composite inner =>
          simp only [hcontent, List.mem_cons, not_or] at elsewhere
          simp only [ih elsewhere.2]
    | length count => rfl
    | missing => rfl
    | dangling => rfl

/-- Segments that go through the property end there, and now lead to the new scalar. -/
theorem resolve_put_of_mem (value : Scalar) {id : CompositeId} {segments : List String}
    {seen : Snapshot} (was : a.contents[property]? = some (.scalar old))
    (through : property ∈ (a.resolve id segments).2)
    (found : (a.resolve id segments).1 = .ok seen) :
    seen = .value (.scalar old) ∧ (a.put property value).resolve id segments =
      (.ok (.value (.scalar value)), (a.resolve id segments).2) := by
  induction segments generalizing id with
  | nil => simp [resolve] at through
  | cons segment rest ih =>
    rw [resolve] at through found
    rw [resolve, resolve, member_put]
    cases hmember : a.member id segment with
    | property other =>
      simp only [hmember] at through found
      by_cases same : other = property
      · subst same
        simp only [was] at found
        -- there is nothing inside a scalar, so this is the last segment
        cases rest with
        | nil =>
          cases found
          simp [was, contents_put_self, Json.descendAll, Except.map]
        | cons next rest => simp [Json.descendAll, Json.descend, Except.map] at found
      · -- on the way to the property there are only composites
        simp only [contents_put_of_ne same]
        cases hcontent : a.contents[other]? with
        | none => simp [hcontent] at through
        | some content =>
          cases content with
          | scalar s => simp [hcontent, Ne.symm same] at through
          | composite inner =>
            simp only [hcontent, List.mem_cons, Ne.symm same, false_or] at through found
            obtain ⟨hseen, hresolve⟩ := ih through found
            exact ⟨hseen, by simp only [hresolve]⟩
    | length count => simp [hmember] at through
    | missing => simp [hmember] at through
    | dangling => simp [hmember] at through

/-- Segments that lead to a composite do not go through a scalar. -/
theorem resolve_put_composite {id inner : CompositeId} {segments : List String}
    (was : a.contents[property]? = some (.scalar old))
    (found : (a.resolve id segments).1 = .ok (.composite inner)) :
    (a.put property value).resolve id segments = a.resolve id segments := by
  refine resolve_put_of_notMem was fun through => ?_
  cases (resolve_put_of_mem value was through found).1

end Arena

namespace Store

variable {s : Store} {expr : String} {path : Path} {property : PropertyId} {old value : Scalar}
  {seen : Snapshot}

/-- The store with another scalar in a property. -/
def put (s : Store) (property : PropertyId) (value : Scalar) : Store :=
  { s with arena := s.arena.put property value }

@[simp] theorem computed_put : (s.put property value).computed = s.computed := rfl

/-- A scalar that is put where a path does not go does not change what the path shows. -/
theorem read_put_of_notMem (plain : s.computed = [])
    (was : s.arena.contents[property]? = some (.scalar old))
    (elsewhere : property ∉ (s.read path).trace) :
    (s.put property value).read path = s.read path := by
  rw [read, resolve_plain plain] at elsewhere
  rw [read, read, resolve_plain plain, resolve_plain (s := s.put property value) plain, put,
    Arena.resolve_put_of_notMem was elsewhere]

/-- If the path goes there, it ends there, and shows the new scalar. -/
theorem read_put_of_mem (value : Scalar) (plain : s.computed = [])
    (was : s.arena.contents[property]? = some (.scalar old))
    (through : property ∈ (s.read path).trace) (found : (s.read path).result = .ok seen) :
    seen = .value (.scalar old) ∧ (s.put property value).read path =
      ⟨.ok (.value (.scalar value)), (s.read path).trace⟩ := by
  rw [read_plain plain] at found
  rw [read, resolve_plain plain] at through
  obtain ⟨hseen, hresolve⟩ := Arena.resolve_put_of_mem value was through found
  refine ⟨hseen, ?_⟩
  rw [read, read, resolve_plain plain, resolve_plain (s := s.put property value) plain, put,
    hresolve]
  rfl

/-- What a read sees that goes through the property or not. -/
theorem read_put (value : Scalar) (plain : s.computed = [])
    (was : s.arena.contents[property]? = some (.scalar old))
    (found : (s.read path).result = .ok seen) :
    ((s.put property value).read path).trace = (s.read path).trace ∧
      ((s.put property value).read path).result =
        .ok (if property ∈ (s.read path).trace then .value (.scalar value) else seen) := by
  by_cases through : property ∈ (s.read path).trace
  · rw [(read_put_of_mem value plain was through found).2, if_pos through]
    exact ⟨rfl, rfl⟩
  · rw [read_put_of_notMem plain was through, if_neg through]
    exact ⟨rfl, found⟩

/-- An expression names a property that holds a scalar. -/
structure HoldsScalar (s : Store) (expr : String) (property : PropertyId) (value : Scalar) :
    Prop where
  named : s.propertyAt expr = .ok property
  holds : s.arena.contents[property]? = some (.scalar value)

/-- Whether an expression names a property that holds a scalar. -/
def namesScalar (s : Store) (expr : String) : Bool :=
  match s.propertyAt expr with
  | .error _ => false
  | .ok property =>
    match s.arena.contents[property]? with
    | some (.scalar _) => true
    | _ => false

/-- The test says whether the expression names a property with a scalar. -/
theorem namesScalar_iff :
    s.namesScalar expr = true ↔ ∃ property value, s.HoldsScalar expr property value := by
  unfold namesScalar
  constructor
  · intro h
    split at h
    · cases h
    · next property named =>
      split at h
      · next value holds => exact ⟨property, value, named, holds⟩
      · cases h
  · rintro ⟨property, value, held⟩
    simp [held.named, held.holds]

/-- Whether a path leads to a scalar. -/
def readsScalar (s : Store) (path : Path) : Bool :=
  match (s.read path).result with
  | .ok (.value (.scalar _)) => true
  | _ => false

/-- The test says whether the path shows a scalar. -/
theorem readsScalar_iff :
    s.readsScalar path = true ↔ ∃ value, (s.read path).result = .ok (.value (.scalar value)) := by
  unfold readsScalar
  constructor
  · intro h
    split at h
    · next value hread => exact ⟨value, hread⟩
    · cases h
  · rintro ⟨value, hread⟩
    simp [hread]

/-- The path of such an expression leads to the property. -/
theorem HoldsScalar.leadsTo (h : s.HoldsScalar expr property value) (plain : s.computed = []) :
    ∃ path, Path.parse? expr = some path ∧ s.arena.LeadsTo s.root path property := by
  have named := h.named
  cases hparse : Path.parse? expr with
  | none => simp [propertyAt, hparse] at named
  | some path =>
    have same : s.propertyAt path.text = s.propertyAt expr := by
      rw [propertyAt, propertyAt, Path.parse?_text, hparse]
    exact ⟨path, rfl, (leadsTo_of_propertyAt plain (same.trans named)).1⟩

/-- A read of it sees the scalar. -/
theorem HoldsScalar.read (h : s.HoldsScalar expr property value) (plain : s.computed = [])
    (hparse : Path.parse? expr = some path) :
    (s.read path).result = .ok (.value (.scalar value)) := by
  obtain ⟨found, hfound, leadsTo⟩ := h.leadsTo plain
  cases hparse.symm.trans hfound
  exact (read_plain plain).2 (leadsTo.read h.holds)

/-- An expression that names a property names it whatever scalar is put in one. -/
theorem propertyAt_put (plain : s.computed = [])
    (was : s.arena.contents[property]? = some (.scalar old)) {other : PropertyId}
    (named : s.propertyAt expr = .ok other) :
    (s.put property value).propertyAt expr = .ok other := by
  simp only [propertyAt] at named ⊢
  split at named
  · cases named
  · next path hparse =>
    split at named
    · cases named
    · cases named
    · next id hparents =>
      have same :
          (s.put property value).resolve path path.parents = s.resolve path path.parents := by
        rw [resolve_plain plain, resolve_plain (s := s.put property value) plain, Store.put,
          Arena.resolve_put_composite was (resolve_eq_composite hparents)]
      have members : (s.put property value).arena.member id path.last =
          s.arena.member id path.last := rfl
      have kept : ∀ {found}, found ∈ s.arena.contents →
          found ∈ (s.put property value).arena.contents := fun live =>
        Std.TreeMap.mem_insert.2 (.inr live)
      simp only [same, hparents, members]
      split at named
      · split at named
        · next live =>
          cases named
          simp only [kept live, if_true]
        · cases named
      · cases named

/-- Expressions go on naming properties with scalars. -/
theorem HoldsScalar.put {other : PropertyId} {held : Scalar} (h : s.HoldsScalar expr other held)
    (plain : s.computed = []) (was : s.arena.contents[property]? = some (.scalar old)) :
    ∃ now, (s.put property value).HoldsScalar expr other now := by
  obtain ⟨now, hnow⟩ := Arena.contents_put_scalar property value h.holds
  exact ⟨now, propertyAt_put plain was h.named, hnow⟩

/-- Its own property holds what was put there. -/
theorem HoldsScalar.put_self (h : s.HoldsScalar expr property old) (plain : s.computed = [])
    (value : Scalar) :
    (s.put property value).HoldsScalar expr property value :=
  ⟨propertyAt_put plain h.holds h.named, Arena.contents_put_self⟩

/-- A read that would not go through the property would not see another scalar in it. -/
theorem HoldsScalar.mem_trace (h : s.HoldsScalar expr property old) (plain : s.computed = [])
    (hparse : Path.parse? expr = some path) : property ∈ (s.read path).trace := by
  -- any other scalar in the property would be seen, so the read goes through it
  obtain ⟨other, differ⟩ : ∃ other : Scalar, other ≠ old := by
    by_cases hnull : old = .null
    · exact ⟨.bool true, by simp [hnull]⟩
    · exact ⟨.null, Ne.symm hnull⟩
  by_contra elsewhere
  have now := (h.put_self plain other).read plain hparse
  rw [read_put_of_notMem plain h.holds elsewhere, h.read plain hparse] at now
  cases now
  exact differ rfl

/-- **Assigning a scalar.** A scalar assigned to an expression that names one takes its place,
unless the two are equal, strictly. -/
theorem HoldsScalar.assign (h : s.HoldsScalar expr property old) (plain : s.computed = [])
    (hparse : Path.parse? expr = some path) (value : Scalar) :
    (old.strictEq value = true → s.assign path (.scalar value) = .ok (.unchanged, s)) ∧
      (old.strictEq value = false → s.assign path (.scalar value) =
        .ok (.replaced property, s.put property value)) := by
  obtain ⟨found, hfound, id, hparents, hmember⟩ := h.leadsTo plain
  cases hparse.symm.trans hfound
  have hresolve : (s.resolve path path.parents).result = .ok (.composite id) := by
    rw [resolve_plain plain, hparents]
    rfl
  have writable : (path.parents.isEmpty && s.isComputed path.last) = false := by
    simp [isComputed, plain]
  constructor
  · intro same
    simp [Store.assign, writable, hresolve, Arena.assign, hmember, h.holds, Content.holds,
      Json.strictEq, same]
  · intro differ
    simp [Store.assign, writable, hresolve, Arena.assign, hmember, h.holds, Content.holds,
      Json.strictEq, differ, Arena.observe, Arena.release, Store.put, Arena.put]

/-- What an assignment of a scalar to such an expression did, if it did not fail. -/
theorem HoldsScalar.of_assign (h : s.HoldsScalar expr property old)
    (hparse : Path.parse? expr = some path) {effect : Effect} {s' : Store}
    (hassign : s.assign path (.scalar value) = .ok (effect, s')) :
    old.strictEq value = true ∧ effect = .unchanged ∧ s' = s ∨
      old.strictEq value = false ∧ effect = .replaced property ∧ s' = s.put property value := by
  have named := h.named
  simp only [propertyAt, hparse] at named
  split at named
  · cases named
  · cases named
  · next id hparents =>
    split at named
    · next found hmember =>
      split at named
      · cases named
        simp only [Store.assign, hparents, Arena.assign, hmember, h.holds, Content.holds,
          Json.strictEq] at hassign
        cases same : old.strictEq value <;> simp only [same] at hassign
        · right
          split at hassign
          · cases hassign
          · simp only [Arena.observe, h.holds, Arena.release] at hassign
            cases hassign
            exact ⟨rfl, rfl, rfl⟩
        · left
          split at hassign
          · cases hassign
          · cases hassign
            exact ⟨rfl, rfl, rfl⟩
      · cases named
    · cases named

end Store

end Bindery
