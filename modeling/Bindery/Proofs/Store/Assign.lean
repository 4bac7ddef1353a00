import Bindery.Proofs.Store.Represents

namespace Bindery

/-!
# Assignments to an arena

What assigning a member of a composite does to the graph behind an arena, and what it leaves alone.

* `Arena.Continues` — an arena that goes on from another: what its old identifiers lead to was there
  before, except for the content of one property.
* `Arena.Assigns` — all that an assignment can come to, said of the graph.
* `Arena.Represents.assign` — an assignment comes to one of these.
-/

namespace Composite

/-- A part that a segment names is a part. -/
theorem mem_properties_of_member {segment : String} {shape : Composite}
    {property : PropertyId} (h : shape.member segment = .property property) :
    property ∈ shape.properties := by
  cases shape with
  | object members =>
    cases hfound : members.lookup segment with
    | none => simp [Composite.member, hfound] at h
    | some found =>
      simp only [Composite.member, hfound, Option.elim_some, Member.property.injEq] at h
      obtain ⟨before, after, rfl, -⟩ := List.lookup_eq_some_iff.1 hfound
      simp [h]
  | array items =>
    simp only [Composite.member] at h
    split at h
    · cases h
    · cases hfound : (index? segment).bind (items[·]?) with
      | none => simp [hfound] at h
      | some found =>
        simp only [hfound, Option.elim_some, Member.property.injEq] at h
        obtain ⟨i, -, hi⟩ := Option.bind_eq_some_iff.1 hfound
        exact h ▸ List.mem_of_getElem? hi

/-- One more part is not taken for one of the others. -/
theorem member_extend {segment added : String} {shape : Composite} {property new : PropertyId}
    (h : (shape.extend added new).member segment = .property property) :
    property = new ∨ shape.member segment = .property property := by
  cases shape with
  | object members =>
    simp only [extend, member, List.lookup_append] at h ⊢
    cases hfound : members.lookup segment with
    | some found => exact .inr (by simpa [hfound] using h)
    | none =>
      by_cases hadded : segment = added
      · subst hadded
        exact .inl (by simpa [hfound, List.lookup_cons, eq_comm] using h)
      · simp [hfound, List.lookup_cons, beq_false_of_ne hadded] at h
  | array items =>
    simp only [extend, member] at h ⊢
    split at h
    · cases h
    · next differ =>
      rw [if_neg differ]
      cases hindex : index? segment with
      | none => simp [hindex] at h
      | some i =>
        simp only [hindex, Option.bind_some] at h ⊢
        -- an index below the length leads where it led, the one at the end to the new part
        rw [List.getElem?_append] at h
        split at h
        · exact .inr h
        · cases hi : [new][i - items.length]? with
          | none => simp [hi] at h
          | some found =>
            rw [hi] at h
            cases h
            exact .inl (by simpa using List.mem_of_getElem? hi)

end Composite

namespace Arena

variable {a a' : Arena} {rows rows' : List Row}

/-! ### What stays -/

/-- The second arena goes on from the first.  Whatever an identifier of the first one still leads to
was there before, the content of the replaced property aside, and nothing new leads back to it. -/
structure Continues (replaced : Option PropertyId) (a a' : Arena) : Prop where
  keeps : ∀ key, a.Issued key → a'.Issued key
  member : ∀ {id segment property}, a'.member id segment = .property property →
    a.Issued (.inl property) → a.Issued (.inr id) ∧ a.member id segment = .property property
  link : ∀ {property id}, a'.contents[property]? = some (.composite id) → a.Issued (.inr id) →
    a.Issued (.inl property) ∧ replaced ≠ some property ∧
      a.contents[property]? = some (.composite id)
  content : ∀ {property content}, a'.contents[property]? = some content →
    a.Issued (.inl property) → replaced ≠ some property → a.contents[property]? = some content

/-- An arena goes on from itself. -/
theorem Represents.continues {root : CompositeId} {g : Graph} (h : a.Represents root g) :
    Continues none a a where
  keeps _ issued := issued
  member {id segment property} hmember _ := by
    refine ⟨?_, hmember⟩
    cases hfound : a.composites[id]? with
    | none => simp [Arena.member, hfound] at hmember
    | some shape => exact h.consists.issued _ ((h.consists.has (.composite id shape)).1 hfound)
  link {property id} hfound _ := by
    have hrow := (h.consists.has (.property property (.composite id))).1 hfound
    exact ⟨h.consists.issued _ hrow, by simp, hfound⟩
  content hfound _ _ := hfound

/-- What the rows have to be like for an arena to go on from another. -/
theorem Consists.continues {replaced : Option PropertyId} (h : a.Consists rows)
    (h' : a'.Consists rows') (keeps : ∀ key, a.Issued key → a'.Issued key)
    (properties : ∀ id content, .property id content ∈ rows' →
      .property id content ∈ rows ∧ replaced ≠ some id ∨
        (¬ a.Issued (.inl id) ∨ replaced = some id) ∧
          ∀ inner, content = .composite inner → ¬ a.Issued (.inr inner))
    (composites : ∀ id shape, .composite id shape ∈ rows' →
      (∃ before, .composite id before ∈ rows ∧ ∀ segment property,
        shape.member segment = .property property → a.Issued (.inl property) →
          before.member segment = .property property) ∨
        ∀ property ∈ shape.properties, ¬ a.Issued (.inl property)) :
    Continues replaced a a' where
  keeps := keeps
  member {id segment property} hmember issued := by
    cases hfound : a'.composites[id]? with
    | none => simp [Arena.member, hfound] at hmember
    | some shape =>
      simp only [Arena.member, hfound, Option.elim_some] at hmember
      rcases composites id shape ((h'.has (.composite id shape)).1 hfound) with
        ⟨before, hbefore, hsame⟩ | hfresh
      · refine ⟨h.issued _ hbefore, ?_⟩
        rw [Arena.member, h.composites_eq_some hbefore]
        exact hsame segment property hmember issued
      · exact absurd issued (hfresh property (Composite.mem_properties_of_member hmember))
  link {property id} hfound issued := by
    rcases properties property _ ((h'.has (.property property (.composite id))).1 hfound) with
      ⟨hrow, differ⟩ | ⟨-, hfresh⟩
    · exact ⟨h.issued _ hrow, differ, h.contents_eq_some hrow⟩
    · exact absurd issued (hfresh id rfl)
  content {property content} hfound issued differ := by
    rcases properties property content ((h'.has (.property property content)).1 hfound) with
      ⟨hrow, -⟩ | ⟨hnew | hreplaced, -⟩
    · exact h.contents_eq_some hrow
    · exact absurd issued hnew
    · exact absurd hreplaced differ

/-- In a graph under fresh identifiers everything leads to fresh identifiers. -/
theorem TakesIn.fresh_links {g : Graph} (h : a.TakesIn a' g.rows) :
    (∀ inner, g.content = .composite inner → ¬ a.Issued (.inr inner)) ∧
      (∀ id content, .property id content ∈ g.rows → ¬ a.Issued (.inl id) ∧
        ∀ inner, content = .composite inner → ¬ a.Issued (.inr inner)) ∧
      ∀ id shape, .composite id shape ∈ g.rows →
        ∀ property ∈ shape.properties, ¬ a.Issued (.inl property) := by
  refine ⟨fun inner hinner => ?_, fun id content hrow => ⟨h.fresh _ hrow, ?_⟩,
    fun id shape hrow property hp => ?_⟩
  · obtain ⟨shape, hshape⟩ := Graph.composite_mem_rows hinner
    exact h.fresh _ hshape
  · rintro inner rfl
    obtain ⟨shape, hshape⟩ := Graph.composite_mem_rows_of_property hrow
    exact h.fresh _ hshape
  · obtain ⟨content, hcontent⟩ := Graph.property_mem_rows_of_composite hrow hp
    exact h.fresh _ hcontent

/-- An arena goes on from another if one property holds a graph under fresh identifiers in place of
what it held. -/
theorem Consists.continues_replaced {mid : Arena} {new : Graph} {property : PropertyId}
    {old : Content} {gone rest : List Row}
    (before : a.Consists (.property property old :: (gone ++ rest)))
    (taken : a.TakesIn mid new.rows)
    (after : a'.Consists (.property property new.content :: (new.rows ++ rest)))
    (keeps : ∀ key, a.Issued key → a'.Issued key) : Continues (some property) a a' := by
  obtain ⟨hnew, hproperties, hcomposites⟩ := taken.fresh_links
  refine before.continues after keeps (fun other content hrow => ?_) fun inner shape hrow => ?_
  · rcases List.mem_cons.1 hrow with hreplaced | hrow
    · -- the property itself
      cases hreplaced
      exact .inr ⟨.inr rfl, hnew⟩
    · rcases List.mem_append.1 hrow with hrow | hrow
      · -- a property inside the new graph
        obtain ⟨hfresh, hinner⟩ := hproperties _ _ hrow
        exact .inr ⟨.inl hfresh, hinner⟩
      · -- a property elsewhere
        have hmem := List.mem_append_right gone hrow
        refine .inl ⟨List.mem_cons_of_mem _ hmem, fun same => ?_⟩
        cases same
        exact before.key_ne hmem rfl
  · rcases List.mem_cons.1 hrow with hrow | hrow
    · cases hrow
    · rcases List.mem_append.1 hrow with hrow | hrow
      · exact .inr (hcomposites _ _ hrow)
      · exact .inl ⟨shape, List.mem_cons_of_mem _ (List.mem_append_right _ hrow),
          fun _ _ hmember _ => hmember⟩

/-- Of what the property held before no composite is left. -/
theorem Consists.gone {mid : Arena} {new : Graph} {property : PropertyId} {old : Content}
    {gone rest : List Row} (before : a.Consists (.property property old :: (gone ++ rest)))
    (taken : a.TakesIn mid new.rows)
    (after : a'.Consists (.property property new.content :: (new.rows ++ rest)))
    {id : CompositeId} {shape : Composite} (hgone : .composite id shape ∈ gone) :
    id ∉ a'.composites := by
  intro live
  obtain ⟨left, hleft⟩ := Option.isSome_iff_exists.1 (Std.TreeMap.mem_iff_isSome_getElem?.1 live)
  rcases List.mem_cons.1 ((after.has (.composite id left)).1 hleft) with hrow | hrow
  · cases hrow
  · rcases List.mem_append.1 hrow with hnew | hrest
    · -- the identifier was given out before
      exact taken.fresh _ hnew (before.issued (.composite id shape)
        (List.mem_cons_of_mem _ (List.mem_append_left _ hgone)))
    · have distinct := (List.nodup_cons.1 before.distinct).2
      rw [List.map_append, List.nodup_append] at distinct
      exact distinct.2.2 _ (List.mem_map_of_mem hgone) _ (List.mem_map_of_mem hrest) rfl

/-- An arena goes on from another if one composite has a part more, with a graph under fresh
identifiers in it. -/
theorem Consists.continues_extended {mid : Arena} {new : Graph} {id : CompositeId}
    {shape : Composite} {last : String} {property : PropertyId} {rest : List Row}
    (before : a.Consists (.composite id shape :: rest)) (taken : a.TakesIn mid new.rows)
    (fresh : ¬ a.Issued (.inl property))
    (after : a'.Consists (.composite id (shape.extend last property) ::
      ((new.rows ++ [.property property new.content]) ++ rest)))
    (keeps : ∀ key, a.Issued key → a'.Issued key) : Continues none a a' := by
  obtain ⟨hnew, hproperties, hcomposites⟩ := taken.fresh_links
  refine before.continues after keeps (fun other content hrow => ?_) fun inner parts hrow => ?_
  · rcases List.mem_cons.1 hrow with hrow | hrow
    · cases hrow
    · rcases List.mem_append.1 hrow with hrow | hrow
      · rcases List.mem_append.1 hrow with hrow | hrow
        · obtain ⟨hfresh, hinner⟩ := hproperties _ _ hrow
          exact .inr ⟨.inl hfresh, hinner⟩
        · cases List.mem_singleton.1 hrow
          exact .inr ⟨.inl fresh, hnew⟩
      · exact .inl ⟨List.mem_cons_of_mem _ hrow, by simp⟩
  · rcases List.mem_cons.1 hrow with hrow | hrow
    · -- the composite itself: what it has more is fresh
      cases hrow
      refine .inl ⟨shape, List.mem_cons_self, fun segment other hmember issued => ?_⟩
      rcases Composite.member_extend hmember with rfl | hbefore
      · exact absurd issued fresh
      · exact hbefore
    · rcases List.mem_append.1 hrow with hrow | hrow
      · rcases List.mem_append.1 hrow with hrow | hrow
        · exact .inr (hcomposites _ _ hrow)
        · cases List.mem_singleton.1 hrow
      · exact .inl ⟨parts, List.mem_cons_of_mem _ hrow, fun _ _ hmember _ => hmember⟩

/-! ### What an assignment does -/

/-- What assigning the member `last` of the composite `sub` can come to, where `sub` stands where
the parents lead in `g`. -/
inductive Assigns (a : Arena) (root : CompositeId) (g sub : Graph) (parents : List String)
    (last : String) (value : Json) : Except Refusal (Effect × Arena) → Prop
  /-- The value was there already. -/
  | unchanged {part} : sub.length? last = none → sub.part? last = some part →
      part.2.content.holds value = true →
      Assigns a root g sub parents last value (.ok (.unchanged, a))
  /-- Another value was there. -/
  | replaced {part new a'} : sub.length? last = none → sub.part? last = some part →
      part.2.content.holds value = false → new.toJson = value →
      a'.Represents root (g.put parents (sub.mapPart last fun _ => new)) →
      Continues (some part.1) a a' →
      Assigns a root g sub parents last value (.ok (.replaced part.1, a'))
  /-- Nothing was there. -/
  | added {part a'} : sub.length? last = none → sub.part? last = none → sub.admits last = true →
      part.2.toJson = value → a'.Represents root (g.put parents (sub.addPart last part)) →
      Continues none a a' → Assigns a root g sub parents last value (.ok (.added, a'))
  | isLength {count} : sub.length? last = some count →
      Assigns a root g sub parents last value (.error .isLength)
  | missing : sub.length? last = none → sub.part? last = none → sub.admits last = false →
      Assigns a root g sub parents last value (.error (.missing last))

variable {root id : CompositeId} {g sub : Graph} {parents : List String}

/-- New content for a property that segments lead to. -/
theorem Represents.replace (h : a.Represents root g) (found : g.find parents = .ok sub)
    (composite : sub.content = .composite id) {last : String} {part : PropertyId × Graph}
    (hpart : sub.part? last = some part) (value : Json) :
    (a.observe value).2.contents[part.1]? = some part.2.content ∧
      ∃ new : Graph, new.toJson = value ∧
        let a' := { (a.observe value).2 with
          contents := (a.observe value).2.contents.insert part.1 (a.observe value).1 }
        (a'.release part.2.content).Represents root
            (g.put parents (sub.mapPart last fun _ => new)) ∧
          Continues (some part.1) a (a'.release part.2.content) ∧
          ∀ {inner shape}, .composite inner shape ∈ part.2.rows →
            inner ∉ (a'.release part.2.content).composites := by
  obtain ⟨new, hvalue, hcontent, htaken⟩ := observe_takesIn value a
  obtain ⟨around, hrows, hput⟩ := Graph.rows_put found composite
  obtain ⟨beside, hsub, hmap⟩ := Graph.rows_mapPart hpart
  -- the rows before: the property, what it held, and the rest
  have before := h.consists.perm (hrows.trans (hsub.append_right around))
  simp only [List.cons_append, List.append_assoc] at before
  have taken := (htaken.adds _ before).perm List.perm_middle
  refine ⟨taken.contents_eq_some List.mem_cons_self, new, hvalue, ?_⟩
  have exchanged : ({ (a.observe value).2 with
      contents := (a.observe value).2.contents.insert part.1 (a.observe value).1 } : Arena).Consists
        (.property part.1 new.content :: (new.rows ++ (part.2.rows ++ (beside ++ around)))) :=
    taken.exchange rfl (by rw [hcontent]; exact fun _ => has_insert_content)
      fun key issued => by cases key <;> exact issued
  -- what it held goes
  have reordered : (.property part.1 new.content ::
      (new.rows ++ (part.2.rows ++ (beside ++ around)))).Perm
        (part.2.rows ++ (.property part.1 new.content :: (new.rows ++ (beside ++ around)))) := by
    refine (List.Perm.cons _ ?_).trans List.perm_middle.symm
    rw [← List.append_assoc, ← List.append_assoc part.2.rows]
    exact List.perm_append_comm.append_right _
  have released := (exchanged.perm reordered).release
  -- what is left are the rows of the changed graph
  obtain ⟨hputContent, hputRows⟩ := hput (sub.mapPart last fun _ => new) (by simp)
  have after := hputRows.trans ((hmap fun _ => new).append_right around)
  simp only [List.cons_append, List.append_assoc] at after
  refine ⟨⟨released.perm after.symm, hputContent.trans h.content⟩, ?_,
    fun hrow => before.gone htaken released hrow⟩
  refine before.continues_replaced htaken released fun key issued => ?_
  rw [issued_release]
  cases key <;> exact htaken.keeps _ issued

/-- One more part for a composite that segments lead to. -/
theorem Represents.extend (h : a.Represents root g) (found : g.find parents = .ok sub)
    (composite : sub.content = .composite id) (last : String) (value : Json) :
    ∃ shape, a.composites[id]? = some shape ∧ shape.admits last = sub.admits last ∧
      let added := (a.observe value).2.addProperty (a.observe value).1
      added.2.composites[id]? = some shape ∧ ∃ new : Graph, new.toJson = value ∧
        let a' := { added.2 with
          composites := added.2.composites.insert id (shape.extend last added.1) }
        a'.Represents root (g.put parents (sub.addPart last (added.1, new))) ∧
          Continues none a a' := by
  obtain ⟨new, hvalue, hcontent, htaken⟩ := observe_takesIn value a
  obtain ⟨around, hrows, hput⟩ := Graph.rows_put found composite
  obtain ⟨shape, hown, -⟩ := Graph.ownRows_of_content composite
  -- the rows before: the composite, its parts, and the rest
  have before := h.consists.perm hrows
  rw [Graph.rows_eq, hown, List.singleton_append, List.cons_append] at before
  have taken := htaken.trans (addProperty_takesIn (a.observe value).1 (a.observe value).2)
  have added := (taken.adds _ before).perm List.perm_middle
  refine ⟨shape, before.composites_eq_some List.mem_cons_self, Graph.admits_ownRows last hown,
    added.composites_eq_some List.mem_cons_self, new, hvalue, ?_⟩
  set property := ((a.observe value).2.addProperty (a.observe value).1).1
  set a' := ((a.observe value).2.addProperty (a.observe value).1).2
  have extended : ({ a' with
      composites := a'.composites.insert id (shape.extend last property) } : Arena).Consists
        (.composite id (shape.extend last property) :: _) :=
    added.exchange rfl (fun _ => has_insert_composite) fun key issued => by
      cases key <;> exact issued
  -- these are the rows of the changed graph
  obtain ⟨hputContent, hputRows⟩ := hput (sub.addPart last (property, new)) (by simp)
  have after := hputRows.trans ((Graph.rows_addPart last (property, new) hown).append_right around)
  refine ⟨⟨extended.perm (after.trans ?_).symm, hputContent.trans h.content⟩, ?_⟩
  · simp only [List.cons_append, List.append_assoc, hcontent]
    exact .cons _ List.perm_middle.symm
  have fresh : ¬ a.Issued (.inl property) :=
    taken.fresh (.property property (a.observe value).1)
      (List.mem_append_right _ (by simp [property]))
  rw [← hcontent] at extended
  refine before.continues_extended htaken fresh extended fun key issued => ?_
  cases key <;> exact taken.keeps _ issued

/-- A composite that segments lead to is there with the graph. -/
theorem Holds.find (h : a.Holds g) (found : g.find parents = .ok sub)
    (composite : sub.content = .composite id) : a.Holds sub := by
  obtain ⟨context, hrows, -⟩ := Graph.rows_put found composite
  exact fun row hrow => h row (hrows.mem_iff.2 (List.mem_append_left _ hrow))

/-- An assignment does one of the things that it can do, and to nothing else. -/
theorem Represents.assign (h : a.Represents root g) (found : g.find parents = .ok sub)
    (composite : sub.content = .composite id) (last : String) (value : Json) :
    Assigns a root g sub parents last value (a.assign id last value) := by
  have hsub := h.holds.find found composite
  rw [Arena.assign, hsub.member composite]
  cases hlength : sub.length? last with
  | some count => exact .isLength hlength
  | none =>
    cases hpart : sub.part? last with
    | some part =>
      obtain ⟨hcontent, -⟩ := hsub.part (Graph.mem_parts_of_part? hpart)
      obtain ⟨hobserved, new, hvalue, hrepresents, hcontinues, -⟩ :=
        h.replace found composite hpart value
      simp only [Option.elim_some, hcontent]
      cases hholds : part.2.content.holds value with
      | true => exact .unchanged hlength hpart hholds
      | false =>
        simp only [hobserved, Bool.false_eq_true, if_false]
        exact .replaced hlength hpart hholds hvalue hrepresents hcontinues
    | none =>
      obtain ⟨shape, hshape, hadmits, hobserved, new, hvalue, hrepresents, hcontinues⟩ :=
        h.extend found composite last value
      simp only [Option.elim_none, Arena.insert, hshape, hadmits]
      cases hadmitted : sub.admits last with
      | false => exact .missing hlength hpart hadmitted
      | true =>
        simp only [hobserved, if_true]
        exact .added hlength hpart hadmitted hvalue hrepresents hcontinues

end Arena

end Bindery
