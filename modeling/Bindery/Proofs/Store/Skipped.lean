import Bindery.Proofs.Store.Alike
import Bindery.Proofs.Template.Rendering

namespace Bindery

/-!
# What a skipped assignment leaves unseen

A scalar that is strictly equal to the one in its place is not stored.  Had it been, it could be
seen in three ways: as a text of its own, in the text of a composite that it is inside, and by the
derivation of a computed member.  If it has the text of the old one, only the last two can tell.

* `Store.Skips` — an assignment that finds its value in its place.
* `Store.Resembles` — stores that differ in scalars with the same text only.
* `Store.ShowsBare` — a path that shows what stores differ in as a text of its own, if at all.
* `Store.Resembles.read_cases` — what such a path leads to in stores that resemble each other;
  `Store.Resembles.map_read` — what can be told from it.
* `Store.Resembles.shownPath`, `Store.Resembles.get` — it is displayed alike.
-/

/-- An assignment finds nothing but a scalar in its place. -/
theorem Arena.holds_of_unchanged {a a' : Arena} {id : CompositeId} {segment : String}
    {value : Json} (h : a.assign id segment value = .ok (.unchanged, a')) : ∃ property old new,
      a.member id segment = .property property ∧ a.contents[property]? = some (.scalar old) ∧
        value = .scalar new ∧ old.strictEq new = true := by
  simp only [assign, insert] at h
  split at h
  · next property hmember =>
    split at h
    · cases h
    next current hcurrent =>
    split at h
    · next holds =>
      cases current with
      | composite id => cases holds
      | scalar old =>
        cases value with
        | scalar new => exact ⟨property, old, new, hmember, hcurrent, rfl, holds⟩
        | object members => cases holds
        | array items => cases holds
    · split at h <;> cases h
  · cases h
  · -- what is missing is added or refused
    repeat' split at h
    all_goals cases h
  · cases h

namespace Store

variable {s s' : Store} {expr : String} {path : Path}

/-! ### Skipped assignments -/

section skips

variable {value : Json}

/-- An assignment finds its value in its place, strictly. -/
def Skips (s : Store) (expr : String) (value : Json) : Prop :=
  ∃ path s', Path.parse? expr = some path ∧ s.assign path value = .ok (.unchanged, s')

instance : Decidable (s.Skips expr value) :=
  decidable_of_iff ((Path.parse? expr).any fun path =>
      (s.assign path value).toOption.any (·.1 = .unchanged)) <| by
    unfold Skips
    cases Path.parse? expr with
    | none => simp
    | some path =>
      cases hassign : s.assign path value <;> simp [hassign, Except.toOption, Prod.ext_iff]

/-- **What is skipped**: a scalar, in the place of one that is strictly equal. -/
theorem Skips.held (h : s.Skips expr value) : ∃ path property old new,
    Path.parse? expr = some path ∧ s.assign path value = .ok (.unchanged, s) ∧
      value = .scalar new ∧ s.HoldsScalar expr property old ∧ old.strictEq new = true := by
  obtain ⟨path, s', hparse, hassign⟩ := h
  obtain rfl := eq_of_unchanged hassign
  have assigned := hassign
  rw [Store.assign] at assigned
  split at assigned
  · cases assigned
  split at assigned
  · cases assigned
  · cases assigned
  next id hresolve =>
  split at assigned
  · next effect arena unchanged =>
    obtain rfl : effect = .unchanged := (Prod.mk.inj (Except.ok.inj assigned)).1
    obtain ⟨property, old, new, hmember, holds, rfl, same⟩ := Arena.holds_of_unchanged unchanged
    refine ⟨path, property, old, new, hparse, hassign, rfl, ⟨?_, holds⟩, same⟩
    have live : property ∈ s'.arena.contents :=
      Std.TreeMap.mem_iff_isSome_getElem?.2 (by simp [holds])
    simp only [propertyAt, hparse, hresolve, hmember, live, if_true]
  · cases assigned

end skips

/-! ### Stores that are displayed alike -/

/-- The second store differs from the first in scalars only, and these have the same text. -/
structure Resembles (s s' : Store) : Prop extends s.Alike s' where
  texts : ∀ (property : PropertyId) (old new : Scalar),
    s.arena.contents[property]? = some (.scalar old) →
      s'.arena.contents[property]? = some (.scalar new) → old.display = new.display

/-- A path shows what two stores differ in as a text of its own, if at all: it shows no composite
with such a property inside, and no computed member that goes through one. -/
def ShowsBare (s s' : Store) (path : Path) : Prop :=
  match s.computed.lookup path.head with
  | none => ∀ id, (s.arena.resolve s.root path.segments).1 = .ok (.composite id) →
      s.AgreeOn (s.arena.Contains (.composite id)) s'
  | some derivation => s.DerivesAlike s' s.computed.length derivation

section put

variable {property : PropertyId} {old value : Scalar}

/-- Another scalar with the same text in the place of a scalar. -/
theorem resembles_put (was : s.arena.contents[property]? = some (.scalar old))
    (same : old.display = value.display) : s.Resembles (s.put property value) where
  toAlike := alike_put was value
  texts other before after hbefore hafter := by
    by_cases here : other = property
    · subst here
      obtain rfl : old = before := by simpa [was] using hbefore
      have put : (s.put other value).arena.contents[other]? = some (.scalar value) :=
        Arena.contents_put_self
      obtain rfl : value = after := by simpa [put] using hafter
      exact same
    · have kept : (s.put property value).arena.contents[other]? = s.arena.contents[other]? :=
        Arena.contents_put_of_ne here
      rw [kept, hbefore] at hafter
      cases hafter
      rfl

/-- The same scalar in its place makes no difference at all. -/
theorem agreeOn_put_self (was : s.arena.contents[property]? = some (.scalar old))
    (P : PropertyId → Prop) : s.AgreeOn P (s.put property old) := by
  intro other _
  by_cases here : other = property
  · subst here
    rw [was]
    exact Arena.contents_put_self
  · exact Arena.contents_put_of_ne here

end put

/-- Derivations read alike in stores that agree on everything. -/
theorem derivesAlike_of_agreeOn (agree : ∀ P, s.AgreeOn P s') (depth : Nat)
    (derivation : Derivation) : s.DerivesAlike s' depth derivation := by
  induction depth generalizing derivation with
  | zero => trivial
  | succ depth ih =>
    refine Derivation.meets_of_forall (fun _ expr path _ => ?_) derivation
    split
    · exact ⟨agree _, fun _ _ => agree _⟩
    · next inner _ => exact ih inner

/-- Stores that agree everywhere show the same, so there is nothing to tell apart. -/
theorem showsBare_of_agreeOn (agree : ∀ P, s.AgreeOn P s') (path : Path) : s.ShowsBare s' path := by
  unfold ShowsBare
  split
  · exact fun _ _ => agree _
  · next derivation _ => exact derivesAlike_of_agreeOn agree _ derivation

/-- In stores that are alike segments lead to the same, or from one scalar to another. -/
theorem Alike.resolve_cases (h : s.Alike s') (id : CompositeId) (segments : List String) :
    (s'.arena.resolve id segments).1 = (s.arena.resolve id segments).1 ∨
      ∃ (property : PropertyId) (old new : Scalar),
        s.arena.contents[property]? = some (.scalar old) ∧
        s'.arena.contents[property]? = some (.scalar new) ∧
        (s.arena.resolve id segments).1 = .ok (.value (.scalar old)) ∧
        (s'.arena.resolve id segments).1 = .ok (.value (.scalar new)) := by
  induction segments generalizing id with
  | nil => exact .inl rfl
  | cons segment rest ih =>
    have members : s'.arena.member id segment = s.arena.member id segment := by
      rw [Arena.member, Arena.member, h.composites]
    rw [Arena.resolve, Arena.resolve, members]
    cases hmember : s.arena.member id segment with
    | property property =>
      obtain same | ⟨old, new, hold, hnew⟩ := h.contents property
      · simp only [same]
        cases hcontent : s.arena.contents[property]? with
        | none => exact .inl rfl
        | some content =>
          cases content with
          | scalar value => exact .inl rfl
          | composite inner => exact ih inner
      · simp only [hold, hnew]
        -- nothing is inside a scalar, whichever it is
        cases rest with
        | nil => exact .inr ⟨property, old, new, hold, hnew, rfl, rfl⟩
        | cons next rest => exact .inl rfl
    | length count => exact .inl rfl
    | missing => exact .inl rfl
    | dangling => exact .inl rfl

/-- **What a path leads to** in stores that resemble each other and differ in nothing that it shows
otherwise than as a text of its own: to the same, or to scalars with the same text. -/
theorem Resembles.read_cases (h : s.Resembles s') (bare : s.ShowsBare s' path) :
    ((s'.read path).result = (s.read path).result ∧
        ∀ id, (s.read path).result = .ok (.composite id) →
          s.AgreeOn (s.arena.Contains (.composite id)) s') ∨
      ∃ old new : Scalar, old.display = new.display ∧
        (s.read path).result = .ok (.value (.scalar old)) ∧
        (s'.read path).result = .ok (.value (.scalar new)) := by
  rw [read, read, resolve, resolve, h.computed]
  unfold ShowsBare at bare
  cases hlookup : s.computed.lookup path.head with
  | some derivation =>
    simp only [hlookup] at bare
    refine .inl ⟨h.resolveWith (fun plain => ?_) fun inner hinner => ?_, fun id hread => ?_⟩
    · cases hlookup.symm.trans plain
    · cases hlookup.symm.trans hinner
      exact h.derive bare path.head
    · exact absurd rfl (resolveWith_ne_composite hlookup hread id)
  | none =>
    simp only [hlookup] at bare
    have plain' : s'.computed.lookup path.head = none := by rw [h.computed, hlookup]
    have inside : ∀ id, (s.resolveWith (s.derive s.computed.length) path path.segments).result =
        .ok (.composite id) → s.AgreeOn (s.arena.Contains (.composite id)) s' :=
      fun id hread => bare id (resolve_of_composite hread).2
    rw [resolveWith_plain hlookup] at inside ⊢
    rw [resolveWith_plain plain', h.root]
    obtain same | ⟨property, old, new, hold, hnew, before, after⟩ :=
      h.resolve_cases s.root path.segments
    · rw [same]
      exact .inl ⟨rfl, inside⟩
    · rw [before, after]
      exact .inr ⟨old, new, h.texts property old new hold hnew, rfl, rfl⟩

/-- Whatever is told from a read is the same, if it can be told from the data inside composites and
from the texts of scalars. -/
theorem Resembles.map_read (h : s.Resembles s') (bare : s.ShowsBare s' path) {α : Type}
    {tell tell' : Snapshot → α}
    (kept : ∀ seen, (∀ id, seen = .composite id → s.AgreeOn (s.arena.Contains (.composite id)) s') →
      tell' seen = tell seen)
    (texts : ∀ old new : Scalar, old.display = new.display →
      tell' (.value (.scalar new)) = tell (.value (.scalar old))) :
    (s'.read path).result.map tell' = (s.read path).result.map tell := by
  obtain ⟨same, inside⟩ | ⟨old, new, same, before, after⟩ := h.read_cases bare
  · rw [same]
    cases hread : (s.read path).result with
    | error fault => rfl
    | ok seen =>
      exact congrArg Except.ok (kept seen fun id composite => inside id (composite ▸ hread))
  · rw [before, after]
    exact congrArg Except.ok (texts old new same)

/-- **Stores that resemble each other show the same**, where they differ in texts only. -/
theorem Resembles.shownPath (h : s.Resembles s') (bare : s.ShowsBare s' path) :
    s'.shownPath path = s.shownPath path := by
  refine h.map_read bare (fun seen inside => ?_) fun old new same => same.symm
  cases seen with
  | value seen => rfl
  | composite id => exact congrArg Json.compact (h.valueOf inside)

/-- So they do for the value of an expression. -/
theorem Resembles.get (h : s.Resembles s')
    (bare : ∀ path, Path.parse? expr = some path → s.ShowsBare s' path) :
    (s'.get expr).map Json.display = (s.get expr).map Json.display := by
  cases hparse : Path.parse? expr with
  | none => simp only [Store.get, getWith, hparse]
  | some path =>
    have told (t : Store) : (t.get expr).map Json.display =
        (t.read path).result.map (Json.display ∘ t.valueOf) := by
      rw [get_of_parse hparse]
      cases (t.read path).result <;> rfl
    rw [told, told]
    refine h.map_read (bare path hparse) (fun seen inside => ?_) fun old new same => same.symm
    exact congrArg Json.display (h.valueOf inside)

end Store

end Bindery
