import Bindery.Proofs.Json.StrictEq
import Bindery.Proofs.Path
import Bindery.Proofs.Store.Reachable

namespace Bindery

/-!
# Where paths lead

A path leads to the property that its last segment names in what the segments before it lead to.

* `Arena.LeadsTo` — this relation, and `Arena.LeadsTo.read`, a read through it.
* `Arena.Continues.leadsTo` — a path that leads to an old property after an assignment led to it
  before: properties do not move.
* `Arena.Represents.issued_trace` — a read goes through properties that were given out.
* `Store.leadsTo_of_propertyAt` — the property at the normal form of a path.
-/

namespace Snapshot

/-- Strict equality of snapshots is symmetric. -/
theorem strictEq_comm (a b : Snapshot) : a.strictEq b = b.strictEq a := by
  cases a <;> cases b
  case composite.composite x y => exact Bool.beq_comm
  case value.value x y => exact Json.strictEq_comm x y
  all_goals rfl

end Snapshot

/-- What is in the store is equal to itself when it is read twice. -/
@[simp] theorem Content.strictEq_snapshot_self (content : Content) :
    content.snapshot.strictEq content.snapshot = true := by
  cases content <;> simp [Content.snapshot, Snapshot.strictEq]

namespace Arena

variable {a a' : Arena} {root id inner : CompositeId} {path : Path} {property : PropertyId}

/-! ### Following segments -/

/-- What it takes for segments to lead to a composite, one segment at a time. -/
theorem resolve_cons_eq_composite {segment : String} {rest : List String} :
    (a.resolve id (segment :: rest)).1 = .ok (.composite inner) ↔
      ∃ property middle, a.member id segment = .property property ∧
        a.contents[property]? = some (.composite middle) ∧
          (a.resolve middle rest).1 = .ok (.composite inner) := by
  have noComposite (s : Scalar) : (Json.descendAll rest (.scalar s)).map Snapshot.value ≠
      .ok (.composite inner) := by
    cases Json.descendAll rest (.scalar s) <;> simp [Except.map]
  simp only [Arena.resolve]
  cases hmember : a.member id segment with
  | property property =>
    cases hcontent : a.contents[property]? with
    | none => simp [hcontent]
    | some content =>
      cases content with
      | scalar s => simpa [hcontent] using noComposite s
      | composite middle => simp [hcontent]
  | length count => simpa using noComposite _
  | missing => simp
  | dangling => simp

/-- Segments after others go on where the others led. -/
theorem resolve_append {segments rest : List String}
    (h : (a.resolve id segments).1 = .ok (.composite inner)) :
    (a.resolve id (segments ++ rest)).1 = (a.resolve inner rest).1 := by
  induction segments generalizing id with
  | nil =>
    cases h
    rfl
  | cons segment others ih =>
    obtain ⟨property, middle, hmember, hcontent, hothers⟩ := resolve_cons_eq_composite.1 h
    rw [List.cons_append, Arena.resolve]
    simp only [hmember, hcontent]
    exact ih hothers

/-- Where segments lead now to a composite that was there before an assignment, they led then. -/
theorem Continues.resolve {replaced : Option PropertyId} (h : Continues replaced a a')
    {segments : List String} (hresolve : (a'.resolve id segments).1 = .ok (.composite inner))
    (issued : a.Issued (.inr inner)) :
    a.Issued (.inr id) ∧ (a.resolve id segments).1 = .ok (.composite inner) := by
  induction segments generalizing id with
  | nil =>
    cases hresolve
    exact ⟨issued, rfl⟩
  | cons segment rest ih =>
    obtain ⟨property, middle, hmember, hcontent, hrest⟩ := resolve_cons_eq_composite.1 hresolve
    -- from the end back to the start: nothing new leads to anything old
    obtain ⟨hmiddle, hbefore⟩ := ih hrest
    obtain ⟨hproperty, -, hlink⟩ := h.link hcontent hmiddle
    obtain ⟨hid, hsame⟩ := h.member hmember hproperty
    exact ⟨hid, resolve_cons_eq_composite.2 ⟨property, middle, hsame, hlink, hbefore⟩⟩

/-! ### The property of a path -/

/-- The segments before the last one lead to a composite, in which the last one names the
property. -/
def LeadsTo (a : Arena) (root : CompositeId) (path : Path) (property : PropertyId) : Prop :=
  ∃ id, (a.resolve root path.parents).1 = .ok (.composite id) ∧
    a.member id path.last = .property property

/-- A read of the path sees what the property holds. -/
theorem LeadsTo.read {content : Content} (h : a.LeadsTo root path property)
    (found : a.contents[property]? = some content) :
    (a.resolve root path.segments).1 = .ok content.snapshot := by
  obtain ⟨id, hparents, hmember⟩ := h
  rw [← path.parents_append_last, resolve_append hparents, Arena.resolve]
  cases content <;>
    simp [hmember, found, Arena.resolve, Content.snapshot, Json.descendAll, Except.map]

/-- Properties do not move: one that a path leads to now it led to before, if it was there. -/
theorem Continues.leadsTo {replaced : Option PropertyId} (h : Continues replaced a a')
    (hpath : a'.LeadsTo root path property) (issued : a.Issued (.inl property)) :
    a.LeadsTo root path property := by
  obtain ⟨id, hparents, hmember⟩ := hpath
  obtain ⟨hid, hbefore⟩ := h.member hmember issued
  exact ⟨id, (h.resolve hparents hid).2, hbefore⟩

/-! ### Reads -/

/-- A read goes through properties that were given out. -/
theorem Represents.issued_trace {g : Graph} (h : a.Represents root g) {segments : List String}
    (hmem : property ∈ (a.resolve id segments).2) : a.Issued (.inl property) := by
  have found {other : PropertyId} {content : Content} (hfound : a.contents[other]? = some content) :
      a.Issued (.inl other) :=
    h.consists.issued _ ((h.consists.has (.property other content)).1 hfound)
  induction segments generalizing id with
  | nil => simp [Arena.resolve] at hmem
  | cons segment rest ih =>
    simp only [Arena.resolve] at hmem
    split at hmem
    · next other hmember =>
      split at hmem
      · next middle hcontent =>
        obtain rfl | hrest := List.mem_cons.1 hmem
        · exact found hcontent
        · exact ih hrest
      · next hcontent =>
        rw [List.mem_singleton.1 hmem]
        exact found hcontent
      · simp at hmem
    all_goals simp at hmem

/-- A read sees the content of a property, or the length of an array. -/
theorem Represents.resolve_snapshot {g : Graph} (h : a.Represents root g)
    {segments : List String} {seen : Snapshot} (hresolve : (a.resolve root segments).1 = .ok seen) :
    ∃ content : Content, seen = content.snapshot := by
  obtain ⟨content, -, rfl⟩ := h.resolve_eq_ok.1 hresolve
  exact ⟨content, rfl⟩

end Arena

/-! ### Stores without computed members -/

namespace Store

variable {s : Store} {path : Path}

/-- Without computed members every path leads into the data. -/
theorem resolve_plain (plain : s.computed = []) (segments : List String) :
    (s.resolve path segments) =
      ⟨(s.arena.resolve s.root segments).1.mapError path.refusalFault,
        (s.arena.resolve s.root segments).2⟩ := by
  cases segments <;> simp [resolve, resolveWith, plain]

/-- A read that succeeds is one of the arena. -/
theorem read_plain (plain : s.computed = []) {seen : Snapshot} :
    (s.read path).result = .ok seen ↔ (s.arena.resolve s.root path.segments).1 = .ok seen := by
  rw [read, resolve_plain plain]
  cases (s.arena.resolve s.root path.segments).1 <;> simp [Except.mapError]

/-- The property at the normal form of a path is the one that the path leads to. -/
theorem leadsTo_of_propertyAt (plain : s.computed = []) {property : PropertyId}
    (h : s.propertyAt path.text = .ok property) :
    s.arena.LeadsTo s.root path property ∧ property ∈ s.arena.contents := by
  simp only [propertyAt, Path.parse?_text] at h
  rw [resolve_plain plain] at h
  cases hparents : (s.arena.resolve s.root path.parents).1 with
  | error refusal => simp [hparents, Except.mapError] at h
  | ok seen =>
    cases seen with
    | value value => simp [hparents, Except.mapError] at h
    | composite id =>
      simp only [hparents, Except.mapError] at h
      split at h
      · next found hmember =>
        split at h
        · next live =>
          cases h
          exact ⟨⟨id, hparents, hmember⟩, live⟩
        · cases h
      · cases h

end Store

end Bindery
