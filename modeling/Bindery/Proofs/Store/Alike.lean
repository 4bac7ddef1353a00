import Bindery.Proofs.Store.Scalars

namespace Bindery

/-!
# What a read depends on

Stores that differ in their scalars only have the same composites, so paths lead to the same
properties in all of them.  A read of the data depends on the properties that it goes through, and
on those inside a composite that it leads to; a read of a computed member depends on those of all
reads that its evaluation makes.

* `Store.Alike` — stores that differ in their scalars only; `Store.AgreeOn` — the same content in
  some properties.
* `Store.FixedBy` — some properties determine what a path shows.
* `Arena.Contains` — the properties inside a content, which determine the data behind it.
* `Store.ReadsAlike`, `Store.DerivesAlike` — stores that agree on what a read, or the evaluation of
  a derivation, depends on; `Store.Alike.derive` — the derivation comes to the same in both.
* `Store.Evaluates` — derivations that only read scalars and other computed members, all tracked.
* `Store.fixedBy_of_evaluates` — what such a derivation comes to is determined by its trace.
* `Store.Reachable.agreeOn_assign` — an assignment changes the property that it replaces only.
-/

namespace Store

/-- The second store differs from the first in its scalars only. -/
structure Alike (s s' : Store) : Prop where
  root : s'.root = s.root
  computed : s'.computed = s.computed
  composites : s'.arena.composites = s.arena.composites
  contents : ∀ property : PropertyId,
    s'.arena.contents[property]? = s.arena.contents[property]? ∨
      ∃ old new, s.arena.contents[property]? = some (.scalar old) ∧
        s'.arena.contents[property]? = some (.scalar new)

/-- Two stores hold the same in some properties. -/
def AgreeOn (P : PropertyId → Prop) (s s' : Store) : Prop :=
  ∀ property, P property → s'.arena.contents[property]? = s.arena.contents[property]?

/-- What a path shows is determined by the content of some properties. -/
def FixedBy (s : Store) (path : Path) (P : PropertyId → Prop) : Prop :=
  ∀ s', s.Alike s' → s.AgreeOn P s' → (s'.read path).result = (s.read path).result

variable {s s' s'' : Store} {path : Path} {P : PropertyId → Prop} {property : PropertyId}

/-! ### Stores that are alike -/

theorem Alike.refl (s : Store) : s.Alike s where
  root := rfl
  computed := rfl
  composites := rfl
  contents _ := .inl rfl

/-- Likeness does not depend on which store comes first. -/
theorem Alike.symm (h : s.Alike s') : s'.Alike s where
  root := h.root.symm
  computed := h.computed.symm
  composites := h.composites.symm
  contents property := by
    obtain same | ⟨old, new, hold, hnew⟩ := h.contents property
    · exact .inl same.symm
    · exact .inr ⟨new, old, hnew, hold⟩

/-- Stores that are like a third one are alike. -/
theorem Alike.trans (h : s.Alike s') (h' : s'.Alike s'') : s.Alike s'' where
  root := h'.root.trans h.root
  computed := h'.computed.trans h.computed
  composites := h'.composites.trans h.composites
  contents property := by
    obtain same | ⟨old, new, hold, hnew⟩ := h.contents property
    · rw [← same]
      exact h'.contents property
    · obtain same' | ⟨-, last, -, hlast⟩ := h'.contents property
      · exact .inr ⟨old, new, hold, same'.trans hnew⟩
      · exact .inr ⟨old, last, hold, hlast⟩

/-- Another scalar in the place of a scalar. -/
theorem alike_put {old : Scalar} (was : s.arena.contents[property]? = some (.scalar old))
    (value : Scalar) : s.Alike (s.put property value) where
  root := rfl
  computed := rfl
  composites := rfl
  contents other := by
    by_cases same : other = property
    · subst same
      exact .inr ⟨old, value, was, Arena.contents_put_self⟩
    · exact .inl (Arena.contents_put_of_ne same)

/-- Composites stand where they stood. -/
theorem Alike.composite_iff (h : s.Alike s') {id : CompositeId} :
    s'.arena.contents[property]? = some (.composite id) ↔
      s.arena.contents[property]? = some (.composite id) := by
  obtain same | ⟨old, new, hold, hnew⟩ := h.contents property
  · rw [same]
  · rw [hold, hnew]
    simp

/-- Stores that are alike have the same properties. -/
theorem Alike.none_iff (h : s.Alike s') :
    s'.arena.contents[property]? = none ↔ s.arena.contents[property]? = none := by
  obtain same | ⟨old, new, hold, hnew⟩ := h.contents property
  · rw [same]
  · rw [hold, hnew]
    simp

/-- An assignment of a scalar to an expression that names one leaves a store that is alike. -/
theorem HoldsScalar.alike {expr : String} {old value : Scalar} {effect : Effect}
    (h : s.HoldsScalar expr property old) (hparse : Path.parse? expr = some path)
    (hassign : s.assign path (.scalar value) = .ok (effect, s')) : s.Alike s' := by
  have named := h.named
  simp only [propertyAt, hparse] at named
  simp only [Store.assign] at hassign
  split at hassign
  · cases hassign
  · cases hresolve : (s.resolve path path.parents).result with
    | error fault => simp [hresolve] at named
    | ok seen =>
      cases seen with
      | value value => simp [hresolve] at named
      | composite id =>
        simp only [hresolve] at named hassign
        -- the member that is assigned is the property that holds the scalar
        have hmember : s.arena.member id path.last = .property property := by
          split at named
          · next found hmember =>
            split at named
            · cases named
              exact hmember
            · cases named
          · cases named
        simp only [Arena.assign, hmember, h.holds, Arena.observe] at hassign
        cases same : (Content.scalar old).holds (.scalar value) with
        | true =>
          simp only [same, if_true] at hassign
          cases hassign
          exact .refl s
        | false =>
          simp only [same, Bool.false_eq_true, if_false] at hassign
          cases hassign
          exact alike_put h.holds value

/-! ### Properties that determine a read -/

/-- What determines a read in one store determines it in another that agrees on it. -/
theorem FixedBy.of_agreeOn (h : s'.FixedBy path P) (alike : s.Alike s') (agree : s.AgreeOn P s') :
    s.FixedBy path P ∧ (s.read path).result = (s'.read path).result := by
  have same : (s.read path).result = (s'.read path).result :=
    h s alike.symm fun property hproperty => (agree property hproperty).symm
  refine ⟨fun other halike hagree => ?_, same⟩
  rw [same]
  refine h other (alike.symm.trans halike) fun property hproperty => ?_
  rw [hagree property hproperty, agree property hproperty]

/-- **An assignment changes one property.** If it leaves a store that is alike, everything that it
does not replace is as it was. -/
theorem Reachable.agreeOn_assign (h : s.Reachable) {value : Json} {effect : Effect}
    (hassign : s.assign path value = .ok (effect, s')) (alike : s.Alike s') :
    s.AgreeOn (fun property => effect.replaced? ≠ some property) s' := by
  intro property elsewhere
  obtain ⟨g, hg⟩ := h.represents
  obtain ⟨-, continues⟩ := represents_assign hg hassign
  cases hcontent : s'.arena.contents[property]? with
  | none => exact (alike.none_iff.1 hcontent).symm
  | some content =>
    -- what stands there stood there before under the same identifier
    have present : s.arena.contents[property]? ≠ none := by
      intro missing
      rw [alike.none_iff.2 missing] at hcontent
      cases hcontent
    obtain ⟨before, hbefore⟩ := Option.ne_none_iff_exists'.1 present
    have issued : s.arena.Issued (.inl property) :=
      hg.consists.issued (.property property before)
        ((hg.consists.has (.property property before)).1 hbefore)
    exact (continues.content hcontent issued elsewhere).symm

/-! ### Reads of the data -/

/-- Segments lead to the same in stores that agree on the properties on the way. -/
theorem Alike.resolve (h : s.Alike s') {id : CompositeId} {segments : List String}
    (agree : s.AgreeOn (· ∈ (s.arena.resolve id segments).2) s') :
    s'.arena.resolve id segments = s.arena.resolve id segments := by
  induction segments generalizing id with
  | nil => rfl
  | cons segment rest ih =>
    have members : s'.arena.member id segment = s.arena.member id segment := by
      rw [Arena.member, Arena.member, h.composites]
    rw [Arena.resolve] at agree
    rw [Arena.resolve, Arena.resolve, members]
    cases hmember : s.arena.member id segment with
    | property property =>
      simp only [hmember] at agree
      cases hcontent : s.arena.contents[property]? with
      | none => simp only [h.none_iff.2 hcontent, hcontent]
      | some content =>
        cases content with
        | scalar value =>
          have same := agree property (by simp [hcontent])
          simp only [same, hcontent]
        | composite inner =>
          simp only [hcontent] at agree
          have deeper := ih fun other hother => agree other (List.mem_cons_of_mem _ hother)
          simp only [h.composite_iff.2 hcontent, hcontent, deeper]
    | length count => rfl
    | missing => rfl
    | dangling => rfl

variable {derive derive' : String → Derivation → Reading Json} {derivation : Derivation}

/-- What a read outside the computed members shows. -/
theorem resolveWith_plain (plain : s.computed.lookup path.head = none) :
    s.resolveWith derive path path.segments =
      ⟨(s.arena.resolve s.root path.segments).1.mapError path.refusalFault,
        (s.arena.resolve s.root path.segments).2⟩ := by
  obtain ⟨segments, nonempty, valid⟩ := path
  cases segments with
  | nil => exact absurd rfl nonempty
  | cons name rest =>
    simp only [Path.head, List.head_cons] at plain
    simp only [Store.resolveWith, plain]

/-- What a read inside a computed member shows: it goes through what the derivation goes through. -/
theorem resolveWith_computed (computed : s.computed.lookup path.head = some derivation) :
    s.resolveWith derive path path.segments =
      ⟨(derive path.head derivation).result.bind fun value =>
          ((value.descendAll path.segments.tail).map Snapshot.value).mapError path.refusalFault,
        (derive path.head derivation).trace⟩ := by
  obtain ⟨segments, nonempty, valid⟩ := path
  cases segments with
  | nil => exact absurd rfl nonempty
  | cons name rest =>
    simp only [Path.head, List.head_cons] at computed
    simp only [Store.resolveWith, computed, Path.head, List.head_cons, List.tail_cons]
    cases derive name derivation with
    | mk result trace => cases result <;> rfl

/-- A read shows the same if it goes through the same, or the derivation that it starts with comes
to the same. -/
theorem Alike.resolveWith (h : s.Alike s')
    (agree : s.computed.lookup path.head = none →
      s.AgreeOn (· ∈ (s.arena.resolve s.root path.segments).2) s')
    (derived : ∀ derivation, s.computed.lookup path.head = some derivation →
      (derive' path.head derivation).result = (derive path.head derivation).result) :
    (s'.resolveWith derive' path path.segments).result =
      (s.resolveWith derive path path.segments).result := by
  cases hlookup : s.computed.lookup path.head with
  | none =>
    have plain' : s'.computed.lookup path.head = none := by rw [h.computed, hlookup]
    rw [resolveWith_plain hlookup, resolveWith_plain plain', h.root, h.resolve (agree hlookup)]
  | some derivation =>
    have computed' : s'.computed.lookup path.head = some derivation := by rw [h.computed, hlookup]
    rw [resolveWith_computed hlookup, resolveWith_computed computed', derived derivation hlookup]

/-- Nothing inside a computed member is a composite of the store. -/
theorem resolveWith_ne_composite {seen : Snapshot}
    (computed : s.computed.lookup path.head = some derivation)
    (h : (s.resolveWith derive path path.segments).result = .ok seen) (id : CompositeId) :
    seen ≠ .composite id := by
  rintro rfl
  rw [resolveWith_computed computed] at h
  cases hderive : (derive path.head derivation).result with
  | error fault => simp [hderive, Except.bind] at h
  | ok value =>
    cases hvalue : value.descendAll path.segments.tail with
    | error refusal => simp [hderive, hvalue, Except.bind, Except.map, Except.mapError] at h
    | ok found => simp [hderive, hvalue, Except.bind, Except.map, Except.mapError] at h

end Store

/-! ### Values of expressions -/

namespace Arena

variable {a a' : Arena} {content : Content}

/-- A property is inside a content, or inside what such a property holds. -/
inductive Contains (a : Arena) : Content → PropertyId → Prop
  | own {content : Content} {property : PropertyId} :
      property ∈ a.inside content → Contains a content property
  | deeper {content inner : Content} {other property : PropertyId} : other ∈ a.inside content →
      a.contents[other]? = some inner → Contains a inner property → Contains a content property

/-- **Only what is inside matters** for the data behind a content. -/
theorem toJsonWithin_congr (composites : a'.composites = a.composites)
    (agree : ∀ property, a.Contains content property →
      a'.contents[property]? = a.contents[property]?) (depth : Nat) :
    a'.toJsonWithin depth content = a.toJsonWithin depth content := by
  induction depth generalizing content with
  | zero => cases content <;> rfl
  | succ depth ih =>
    cases content with
    | scalar s => rfl
    | composite id =>
      have parts : ∀ property ∈ a.inside (.composite id),
          a'.contents[property]? = a.contents[property]? ∧
          ∀ inner ∈ a.contents[property]?,
            a'.toJsonWithin depth inner = a.toJsonWithin depth inner := by
        intro property hproperty
        refine ⟨agree property (.own hproperty), fun inner hinner => ih fun other below => ?_⟩
        exact agree other (.deeper hproperty hinner below)
      rw [toJsonWithin, toJsonWithin, composites]
      rw [inside] at parts
      cases hid : a.composites[id]? with
      | none => rfl
      | some composite =>
        rw [hid] at parts
        cases composite with
        | object members =>
          refine congrArg Json.object (List.filterMap_congr fun member hmember => ?_)
          obtain ⟨same, deeper⟩ := parts member.2 (List.mem_map_of_mem hmember)
          obtain ⟨key, property⟩ := member
          show Option.map _ _ = Option.map _ _
          rw [same]
          exact Option.map_congr fun inner hinner => by rw [deeper inner hinner]
        | array items =>
          refine congrArg Json.array (List.filterMap_congr fun property hproperty => ?_)
          obtain ⟨same, deeper⟩ := parts property hproperty
          rw [same]
          exact Option.map_congr deeper

end Arena

namespace Store

variable {s s' : Store} {path : Path} {seen : Snapshot}
  {derive derive' : String → Derivation → Reading Json}

/-- A snapshot has the same value in stores that agree on everything inside it. -/
theorem Alike.valueOf (h : s.Alike s')
    (agree : ∀ id, seen = .composite id → s.AgreeOn (s.arena.Contains (.composite id)) s') :
    s'.valueOf seen = s.valueOf seen := by
  cases seen with
  | value value => rfl
  | composite id =>
    show Arena.toJsonWithin _ s'.arena.composites.size _ = Arena.toJsonWithin _ _ _
    rw [h.composites]
    exact Arena.toJsonWithin_congr h.composites (agree id rfl) _

/-- Two stores agree on what a read of the data goes through, and on everything inside a composite
that it leads to. -/
structure ReadsAlike (s s' : Store) (path : Path) : Prop where
  trace : s.AgreeOn (· ∈ (s.arena.resolve s.root path.segments).2) s'
  inside : ∀ id, (s.arena.resolve s.root path.segments).1 = .ok (.composite id) →
    s.AgreeOn (s.arena.Contains (.composite id)) s'

/-- A composite that is read is one of the data. -/
theorem resolve_of_composite {id : CompositeId}
    (h : (s.resolveWith derive path path.segments).result = .ok (.composite id)) :
    s.computed.lookup path.head = none ∧
      (s.arena.resolve s.root path.segments).1 = .ok (.composite id) := by
  cases hlookup : s.computed.lookup path.head with
  | some derivation => exact absurd rfl (resolveWith_ne_composite hlookup h id)
  | none =>
    rw [resolveWith_plain hlookup] at h
    cases hdata : (s.arena.resolve s.root path.segments).1 with
    | error refusal => simp [hdata, Except.mapError] at h
    | ok found =>
      simp only [hdata, Except.mapError, Except.ok.injEq] at h
      exact ⟨rfl, congrArg Except.ok h⟩

/-- An expression has the same value in two stores if its path reads alike, or the derivation that
it starts with comes to the same. -/
theorem Alike.getWith (h : s.Alike s') {expr : String}
    (reads : ∀ path, Path.parse? expr = some path → s.computed.lookup path.head = none →
      s.ReadsAlike s' path)
    (derived : ∀ path, Path.parse? expr = some path → ∀ derivation,
      s.computed.lookup path.head = some derivation →
        (derive' path.head derivation).result = (derive path.head derivation).result) :
    (s'.getWith derive' expr).result = (s.getWith derive expr).result := by
  cases hparse : Path.parse? expr with
  | none => simp only [Store.getWith, hparse]
  | some path =>
    simp only [Store.getWith, hparse, readingValue]
    rw [h.resolveWith (fun plain => (reads path hparse plain).trace) (derived path hparse)]
    cases hresult : (s.resolveWith derive path path.segments).result with
    | error fault => rfl
    | ok seen =>
      refine congrArg Except.ok (h.valueOf fun id composite => ?_)
      obtain ⟨plain, hdata⟩ := resolve_of_composite (composite ▸ hresult)
      exact (reads path hparse plain).inside id hdata

end Store

/-! ### Evaluations -/

namespace Derivation

variable {get get' : String → Reading Json} {Admits Admits' : Bool → String → Prop}
  {derivation : Derivation}

/-- All reads that the evaluation of a derivation makes are admitted. -/
inductive Meets (get : String → Reading Json) (Admits : Bool → String → Prop) : Derivation → Prop
  | done {result} : Meets get Admits (.done result)
  | read {tracked expr next} : Admits tracked expr →
      Meets get Admits (next (get expr).result) → Meets get Admits (.read tracked expr next)

/-- All reads are admitted if everything is. -/
theorem meets_of_forall (admits : ∀ tracked expr, Admits tracked expr) :
    ∀ derivation : Derivation, derivation.Meets get Admits
  | .done _ => .done
  | .read tracked expr next => .read (admits tracked expr) (meets_of_forall admits (next _))

/-- A derivation comes to the same if its reads do. -/
theorem Meets.result_run (h : derivation.Meets get Admits)
    (same : ∀ tracked expr, Admits tracked expr → (get' expr).result = (get expr).result) :
    (derivation.run get').result = (derivation.run get).result := by
  induction h with
  | done => rfl
  | @read tracked expr next admits _ ih =>
    simp only [run, same tracked expr admits]
    exact ih

/-- What is known of the trace is known of every tracked read. -/
theorem Meets.of_trace {Seen : PropertyId → Prop} (h : derivation.Meets get Admits)
    (seen : ∀ property ∈ (derivation.run get).trace, Seen property)
    (admits : ∀ tracked expr, Admits tracked expr →
      (tracked = true → ∀ property ∈ (get expr).trace, Seen property) → Admits' tracked expr) :
    derivation.Meets get Admits' := by
  induction h with
  | done => exact .done
  | @read tracked expr next first _ ih =>
    simp only [run, List.mem_append] at seen
    refine .read (admits tracked expr first fun isTracked property hproperty => ?_) ?_
    · exact seen property (.inl (by rwa [if_pos isTracked]))
    · exact ih fun property hproperty => seen property (.inr hproperty)

end Derivation

namespace Store

variable {s s' : Store} {path : Path} {P : PropertyId → Prop} {depth : Nat}
  {derivation : Derivation}

/-- The evaluation of a derivation reads alike in two stores, and derivations that run inside it do
likewise. -/
def DerivesAlike (s s' : Store) : Nat → Derivation → Prop
  | 0, _ => True
  | depth + 1, derivation =>
    derivation.Meets (s.getWith (s.derive depth)) fun _ expr =>
      ∀ path, Path.parse? expr = some path →
        match s.computed.lookup path.head with
        | none => s.ReadsAlike s' path
        | some inner => DerivesAlike s s' depth inner

/-- **A derivation comes to the same** in stores where its evaluation reads alike. -/
theorem Alike.derive (h : s.Alike s') (alike : s.DerivesAlike s' depth derivation) (name : String) :
    (s'.derive depth name derivation).result = (s.derive depth name derivation).result := by
  induction depth generalizing name derivation with
  | zero => rfl
  | succ depth ih =>
    have admitted : derivation.Meets (s.getWith (s.derive depth)) _ := alike
    refine admitted.result_run fun _ expr admits => h.getWith (fun path hparse plain => ?_)
      fun path hparse inner hlookup => ?_
    · have reads := admits path hparse
      rwa [plain] at reads
    · have reads := admits path hparse
      rw [hlookup] at reads
      exact ih reads path.head

/-- The evaluation of a derivation makes tracked reads only, and none of them shows a composite of
the store; derivations that run inside it do likewise. -/
def Evaluates (s : Store) : Nat → Derivation → Prop
  | 0, _ => True
  | depth + 1, derivation =>
    derivation.Meets (s.getWith (s.derive depth)) fun tracked expr => tracked = true ∧
      ∀ path, Path.parse? expr = some path →
        match s.computed.lookup path.head with
        | none => ∀ id, (s.arena.resolve s.root path.segments).1 ≠ .ok (.composite id)
        | some inner => Evaluates s depth inner

/-- Whether an expression shows a member of the data that is no composite. -/
def showsScalar (s : Store) (expr : String) : Bool :=
  (Path.parse? expr).all fun path => (s.computed.lookup path.head).isNone &&
    match (s.arena.resolve s.root path.segments).1 with
    | .ok (.composite _) => false
    | _ => true

/-- A derivation may read such an expression. -/
theorem admits_of_showsScalar {expr : String} (h : s.showsScalar expr = true) (depth : Nat)
    {path : Path} (hparse : Path.parse? expr = some path) :
    match s.computed.lookup path.head with
    | none => ∀ id, (s.arena.resolve s.root path.segments).1 ≠ .ok (.composite id)
    | some inner => s.Evaluates depth inner := by
  simp only [showsScalar, hparse, Option.all_some, Bool.and_eq_true, Option.isNone_iff_eq_none] at h
  obtain ⟨plain, shows'⟩ := h
  rw [plain]
  intro id hresolve
  simp [hresolve] at shows'

/-- Such a derivation reads alike in stores that agree on its trace. -/
theorem Evaluates.derivesAlike (evaluates : s.Evaluates depth derivation) (name : String)
    (agree : s.AgreeOn (· ∈ (s.derive depth name derivation).trace) s') :
    s.DerivesAlike s' depth derivation := by
  induction depth generalizing name derivation with
  | zero => trivial
  | succ depth ih =>
    have admitted : derivation.Meets (s.getWith (s.derive depth)) _ := evaluates
    refine admitted.of_trace agree fun tracked expr admits seen path hparse => ?_
    have shown := admits.2 path hparse
    -- the trace of the read is that of the data, or of the derivation that it starts with
    have through := seen admits.1
    simp only [Store.getWith, hparse, readingValue] at through
    cases hlookup : s.computed.lookup path.head with
    | none =>
      rw [hlookup] at shown
      rw [resolveWith_plain hlookup] at through
      exact ⟨through, fun id composite => absurd composite (shown id)⟩
    | some inner =>
      rw [hlookup] at shown
      rw [resolveWith_computed hlookup] at through
      exact ih shown path.head through

/-- **What a computed member comes to is determined by its trace**, if its evaluation takes nothing
but scalars from the data, and all of them tracked. -/
theorem fixedBy_of_evaluates
    (evaluates : ∀ derivation, s.computed.lookup path.head = some derivation →
      s.Evaluates s.computed.length derivation)
    (registered : ∀ property ∈ (s.read path).trace, P property) : s.FixedBy path P := by
  intro s' alike agree
  have seen : s.AgreeOn (· ∈ (s.read path).trace) s' := fun property hproperty =>
    agree property (registered property hproperty)
  rw [Store.read, Store.resolve] at seen
  rw [Store.read, Store.read, Store.resolve, Store.resolve, alike.computed]
  refine alike.resolveWith (fun plain => ?_) fun derivation hlookup => ?_
  · rwa [resolveWith_plain plain] at seen
  · rw [resolveWith_computed hlookup] at seen
    exact alike.derive ((evaluates derivation hlookup).derivesAlike path.head seen) path.head

end Store

end Bindery
