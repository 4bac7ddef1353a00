import Bindery.Proofs.Store.Overwrite

namespace Bindery

/-!
# What an assignment leaves alone

A read that does not go through the property that an assignment replaces sees afterwards what it saw
before.  Only the length of an array changes without a property of its own.

* `Graph.through` — the properties that segments go through.
* `Graph.find_put_cases` — segments lead into the place where something is put, or past it.
* `Store.Lengthens` — an assignment adds an item to the array whose length a path shows.
* `Store.Reachable.read_assign` — what a read sees after an assignment.
-/

namespace Graph

variable {g sub shown : Graph} {segment other last : String} {segments parents : List String}
  {part : PropertyId × Graph} {id : CompositeId}

/-! ### Other parts -/

/-- The properties that segments go through, up to the first segment that names none. -/
def through : List String → Graph → List PropertyId
  | [], _ => []
  | segment :: rest, g =>
    match g.part? segment with
    | some part => part.1 :: through rest part.2
    | none => []

/-- The length of an array is not one of its parts. -/
theorem length?_of_part? (h : g.part? segment = some part) : g.length? segment = none := by
  cases g with
  | array own items =>
    simp only [part?, Option.ite_none_left_eq_some] at h
    simp only [length?, if_neg h.1]
  | _ => rfl

/-- What a path leads to lies in the part that its first segment names. -/
theorem find_cons_of_part? (h : g.part? segment = some part) (rest : List String) :
    g.find (segment :: rest) = part.2.find rest := by
  simp only [find, step?, length?_of_part? h, h, Option.map_some]

/-- Another segment names the part that is changed, in whatever spelling, or one that is not. -/
theorem part?_mapPart_cases (h : g.part? segment = some part) (other : String) :
    g.part? other = some part ∧
        (∀ f, (g.mapPart segment f).part? other = some (part.1, f part.2)) ∨
      ∀ f, (g.mapPart segment f).part? other = g.part? other := by
  cases g with
  | scalar s => cases h
  | object own members =>
    by_cases same : other = segment
    · subst same
      exact .inl ⟨h, part?_mapPart h⟩
    · exact .inr fun f => lookup_modifyFirst_of_ne same _ members
  | array own items =>
    simp only [part?, Option.ite_none_left_eq_some, Option.bind_eq_some_iff] at h
    obtain ⟨-, i, hindex, hi⟩ := h
    simp only [part?, mapPart, hindex]
    by_cases length : other = "length"
    · simp [length]
    · simp only [if_neg length]
      cases hother : index? other with
      | none => simp
      | some j =>
        by_cases same : i = j
        · subst same
          simp [hi]
        · simp [same]

/-- One more part hides none of the others. -/
theorem part?_addPart (h : g.part? other = some part) (segment : String)
    (added : PropertyId × Graph) : (g.addPart segment added).part? other = some part := by
  cases g with
  | scalar s => cases h
  | object own members =>
    simp only [part?] at h
    simp [addPart, part?, List.lookup_append, h]
  | array own items =>
    simp only [part?, Option.ite_none_left_eq_some, Option.bind_eq_some_iff] at h
    obtain ⟨hlength, i, hindex, hi⟩ := h
    have lt : i < items.length := (List.getElem?_eq_some_iff.1 hi).1
    simp [addPart, part?, hlength, hindex, List.getElem?_append_left lt, hi]

/-! ### Into the changed place, or past it -/

/-- Segments lead through the composite in whose place something is put, and then on in what is put
there, or they lead where they led. -/
theorem find_put_cases (found : g.find parents = .ok sub) (composite : sub.content = .composite id)
    (segments : List String) :
    (∃ before rest, segments = before ++ rest ∧ g.find before = .ok sub ∧
        ∀ new : Graph, (g.put parents new).find segments = new.find rest) ∨
      ∀ new : Graph, new.content = sub.content →
        ((g.put parents new).find segments).map content = (g.find segments).map content := by
  induction parents generalizing g segments with
  | nil =>
    cases found
    exact .inl ⟨[], segments, rfl, rfl, fun new => rfl⟩
  | cons parent parents ih =>
    obtain ⟨part, -, hpart, found⟩ := find_cons_composite found composite
    cases segments with
    | nil => exact .inr fun new _ => by simp [put_cons, Except.map]
    | cons segment rest =>
      obtain ⟨hsame, hmap⟩ | helse := part?_mapPart_cases hpart segment
      · -- the same part: in it the remaining segments lead into the place, or past it
        have step (new : Graph) : (g.put (parent :: parents) new).find (segment :: rest) =
            (part.2.put parents new).find rest := by
          rw [put_cons, find_cons_of_part? (hmap _)]
        rw [find_cons_of_part? hsame]
        obtain ⟨before, rest', rfl, hbefore, hput⟩ | hpast := ih found rest
        · refine .inl ⟨segment :: before, rest', rfl, ?_, fun new => (step new).trans (hput new)⟩
          rw [find_cons_of_part? hsame, hbefore]
        · exact .inr fun new same => by rw [step, hpast new same]
      · -- another part, in which nothing changes
        refine .inr fun new _ => ?_
        rw [put_cons, find, find, step?, step?, length?_mapPart, helse]

/-- Segments that lead into a composite go through all that they go through inside it. -/
theorem mem_through_append {before rest : List String} {property : PropertyId}
    (found : g.find before = .ok sub) (composite : sub.content = .composite id)
    (inside : property ∈ sub.through rest) : property ∈ g.through (before ++ rest) := by
  induction before generalizing g with
  | nil =>
    cases found
    exact inside
  | cons segment before ih =>
    obtain ⟨part, -, hpart, found⟩ := find_cons_composite found composite
    simp only [List.cons_append, through, hpart]
    exact List.mem_cons_of_mem _ (ih found)

/-- Segments that do not go through a changed part lead where they led. -/
theorem find_mapPart_elsewhere (hpart : g.part? last = some part)
    (elsewhere : part.1 ∉ g.through segments) (f : Graph → Graph) :
    ((g.mapPart last f).find segments).map content = (g.find segments).map content := by
  cases segments with
  | nil => simp [Except.map]
  | cons segment rest =>
    obtain ⟨hsame, -⟩ | helse := part?_mapPart_cases hpart segment
    · simp [through, hsame] at elsewhere
    · rw [find, find, step?, step?, length?_mapPart, helse]

/-- **A change that a read does not go through** leaves what the read finds. -/
theorem find_put_elsewhere (found : g.find parents = .ok sub)
    (composite : sub.content = .composite id) (hpart : sub.part? last = some part)
    (elsewhere : part.1 ∉ g.through segments) (f : Graph → Graph) :
    ((g.put parents (sub.mapPart last f)).find segments).map content =
      (g.find segments).map content := by
  obtain ⟨before, rest, rfl, hbefore, hput⟩ | hpast := find_put_cases found composite segments
  · rw [hput, find_append hbefore]
    exact find_mapPart_elsewhere hpart
      (fun inside => elsewhere (mem_through_append hbefore composite inside)) f
  · exact hpast _ (content_mapPart last f sub)

/-- Nothing can be found in a length. -/
theorem eq_length_of_find {count : Nat} {rest : List String}
    (length : g.length? segment = some count) (hshown : g.find (segment :: rest) = .ok shown) :
    segment :: rest = ["length"] := by
  have hsegment : segment = "length" := by
    cases g with
    | array own items =>
      simp only [length?, Option.ite_none_right_eq_some] at length
      exact length.1
    | _ => cases length
  simp only [find, step?, length] at hshown
  cases rest with
  | nil => rw [hsegment]
  | cons next rest =>
    rw [find_scalar] at hshown
    cases hshown

/-- One more part changes nothing that segments find but the length. -/
theorem find_addPart (hshown : g.find segments = .ok shown) (last : String)
    (added : PropertyId × Graph) :
    ((g.addPart last added).find segments).map content = .ok shown.content ∨
      segments = ["length"] ∧ ∃ count, g.length? "length" = some count := by
  cases segments with
  | nil =>
    cases hshown
    exact .inl (congrArg Except.ok (content_addPart last added g))
  | cons segment rest =>
    cases hlength : g.length? segment with
    | some count =>
      have last := eq_length_of_find hlength hshown
      cases last
      exact .inr ⟨rfl, count, hlength⟩
    | none =>
      cases hpart : g.part? segment with
      | none => simp [find, step?, hlength, hpart] at hshown
      | some part =>
        rw [find_cons_of_part? hpart] at hshown
        rw [find_cons_of_part? (part?_addPart hpart last added), hshown]
        exact .inl rfl

/-- **One more part somewhere inside** changes nothing but the length of the array that has it. -/
theorem find_put_addPart (found : g.find parents = .ok sub)
    (composite : sub.content = .composite id) (hshown : g.find segments = .ok shown)
    (last : String) (added : PropertyId × Graph) :
    ((g.put parents (sub.addPart last added)).find segments).map content = .ok shown.content ∨
      ∃ before count, segments = before ++ ["length"] ∧ g.find before = .ok sub ∧
        sub.length? "length" = some count := by
  obtain ⟨before, rest, rfl, hbefore, hput⟩ | hpast := find_put_cases found composite segments
  · rw [find_append hbefore] at hshown
    rw [hput]
    refine (find_addPart hshown last added).imp_right ?_
    rintro ⟨rfl, count, hlength⟩
    exact ⟨before, count, rfl, hbefore, hlength⟩
  · refine .inl ((hpast _ (content_addPart last added sub)).trans ?_)
    rw [hshown]
    rfl

/-- So all composites stay where they are. -/
theorem find_put_addPart_composite {inner : CompositeId} (found : g.find parents = .ok sub)
    (composite : sub.content = .composite id) (hshown : g.find segments = .ok shown)
    (hinner : shown.content = .composite inner) (last : String) (added : PropertyId × Graph) :
    ((g.put parents (sub.addPart last added)).find segments).map content =
      .ok (.composite inner) := by
  obtain hsame | ⟨before, count, rfl, hbefore, hlength⟩ :=
    find_put_addPart found composite hshown last added
  · rw [hsame, hinner]
  · -- a length is no composite
    obtain ⟨part, hnone, -⟩ := find_cons_composite (find_append hbefore _ ▸ hshown) hinner
    rw [hlength] at hnone
    cases hnone

end Graph

namespace Arena

variable {a : Arena} {root id : CompositeId} {g : Graph} {segments : List String}

/-! ### Reads -/

/-- Segments go through the same properties in the arena and in the graph. -/
theorem Holds.trace_eq (h : a.Holds g) (hcontent : g.content = .composite id)
    (segments : List String) : (a.resolve id segments).2 = g.through segments := by
  induction segments generalizing g id with
  | nil => rfl
  | cons segment rest ih =>
    simp only [Arena.resolve, h.member hcontent, Graph.through]
    cases hpart : g.part? segment with
    | none => cases g.length? segment <;> rfl
    | some part =>
      obtain ⟨hfound, hinside⟩ := h.part (Graph.mem_parts_of_part? hpart)
      simp only [Graph.length?_of_part? hpart, Option.elim_some, hfound]
      cases hinner : part.2 with
      | scalar s => cases rest <;> rfl
      | object inner members => exact congrArg (part.1 :: ·) (ih (hinner ▸ hinside) rfl)
      | array inner items => exact congrArg (part.1 :: ·) (ih (hinner ▸ hinside) rfl)

/-- The length of an array that the segments before it lead to. -/
theorem resolve_length {path : Path} {count : Nat}
    (parents : (a.resolve root path.parents).1 = .ok (.composite id)) (last : path.last = "length")
    (length : a.member id "length" = .length count) :
    (a.resolve root path.segments).1 = .ok (.value (.integer count)) := by
  rw [← path.parents_append_last, resolve_append parents, last, Arena.resolve]
  simp only [length]
  rfl

end Arena

namespace Store

variable {s s' : Store} {g : Graph} {path target : Path} {value : Json} {effect : Effect}
  {seen : Snapshot}

/-- An assignment at `target` adds an item to the array whose length `path` shows. -/
def Lengthens (s : Store) (target path : Path) : Prop :=
  ∃ id items, (s.arena.resolve s.root target.parents).1 = .ok (.composite id) ∧
    (s.arena.resolve s.root path.parents).1 = .ok (.composite id) ∧ path.last = "length" ∧
      s.arena.composites[id]? = some (.array items) ∧ index? target.last = some items.length

/-- What a read sees stays, unless it goes through the property that is replaced or shows the length
of an array that an item is added to. -/
theorem read_assign_cases (h : s.arena.Represents s.root g) (plain : s.computed = [])
    (hassign : s.assign target value = .ok (effect, s'))
    (hread : (s.read path).result = .ok seen) :
    (s'.read path).result = .ok seen ∨ (∃ property ∈ (s.read path).trace,
      effect = .replaced property) ∨ s.Lengthens target path := by
  obtain ⟨id, arena, htarget, harena, rfl⟩ := assign_cases hassign
  obtain ⟨sub, hfind, hcontent⟩ := find_of_resolve h htarget
  have hassigns := h.assign hfind hcontent target.last value
  rw [harena] at hassigns
  have stays {g' : Graph} {content : Content} (h' : arena.Represents s.root g')
      (hsame : (g'.find path.segments).map Graph.content = .ok content)
      (hseen : content.snapshot = seen) :
      (({ s with arena } : Store).read path).result = .ok seen :=
    (read_plain (s := { s with arena }) plain).2 (h'.resolve_eq_ok.2 ⟨content, hsame, hseen⟩)
  obtain ⟨content, hshown, hseen⟩ := h.resolve_eq_ok.1 ((read_plain plain).1 hread)
  cases hassigns with
  | unchanged => exact .inl hread
  | @replaced part _ _ _ hpart _ _ hrepresents _ =>
    by_cases through : part.1 ∈ g.through path.segments
    · refine .inr (.inl ⟨part.1, ?_, rfl⟩)
      rwa [read, resolve_plain plain, h.holds.trace_eq h.content]
    · exact .inl (stays hrepresents
        ((Graph.find_put_elsewhere hfind hcontent hpart through _).trans hshown) hseen)
  | @added part _ _ hmissing hadmits _ hrepresents _ =>
    cases hfound : g.find path.segments with
    | error refusal => simp [hfound, Except.map] at hshown
    | ok shown =>
      rw [hfound] at hshown
      cases hshown
      obtain hsame | ⟨before, count, hsegments, hbefore, hlength⟩ :=
        Graph.find_put_addPart hfind hcontent hfound target.last part
      · exact .inl (stays hrepresents hsame hseen)
      · -- the path ends with the length of the composite that has one more part
        rw [← path.parents_append_last] at hsegments
        obtain ⟨rfl, hlast⟩ := List.append_inj' hsegments rfl
        obtain ⟨shape, hshape, hown, -⟩ := (h.holds.find hfind hcontent).composite hcontent
        have hparents : (s.arena.resolve s.root path.parents).1 = .ok (.composite id) :=
          h.resolve_eq_ok.2 ⟨.composite id, by rw [hbefore]; exact congrArg _ hcontent, rfl⟩
        cases sub with
        | array own items =>
          cases hown
          refine .inr (.inr ⟨id, _, htarget, hparents, (List.cons.inj hlast).1, hshape, ?_⟩)
          simpa [Graph.admits] using hadmits
        | _ => cases hlength

/-- An item that is added shows in the length. -/
theorem Lengthens.read (h : s.arena.Represents s.root g) (plain : s.computed = [])
    (lengthens : s.Lengthens target path) (hassign : s.assign target value = .ok (effect, s')) :
    effect = .added ∧ ∃ n : Nat, (s.read path).result = .ok (.value (.integer n)) ∧
      (s'.read path).result = .ok (.value (.integer (n + 1))) := by
  obtain ⟨id, items, htarget, hparents, hlast, hitems, hindex⟩ := lengthens
  obtain ⟨_, arena, htarget', harena, rfl⟩ := assign_cases hassign
  cases htarget.symm.trans htarget'
  obtain ⟨sub, hfind, hcontent⟩ := find_of_resolve h htarget
  have hassigns := h.assign hfind hcontent target.last value
  rw [harena] at hassigns
  -- the composite is that array, so that the index right after its items names nothing
  obtain ⟨shape, hshape, hown, -⟩ := (h.holds.find hfind hcontent).composite hcontent
  cases hitems.symm.trans hshape
  obtain ⟨parts, rfl, rfl⟩ : ∃ parts, sub = .array id parts ∧ items = parts.map (·.1) := by
    cases sub with
    | array own parts =>
      cases hown
      exact ⟨parts, rfl, rfl⟩
    | _ => simp [Graph.ownRows] at hown
  have missing : (Graph.array id parts).part? target.last = none := by
    simp [Graph.part?, hindex]
  cases hassigns with
  | unchanged _ hpart => cases missing.symm.trans hpart
  | replaced _ hpart => cases missing.symm.trans hpart
  | @added part _ _ _ _ _ hrepresents _ =>
    -- the path goes on leading to the array, which is one item longer
    obtain ⟨other, hother, hsame⟩ := find_of_resolve h hparents
    have hparents' : (arena.resolve s.root path.parents).1 = .ok (.composite id) :=
      hrepresents.resolve_eq_ok.2
        ⟨_, Graph.find_put_addPart_composite hfind hcontent hother hsame target.last part, rfl⟩
    have hfind' := Graph.find_put hfind hcontent (.array id (parts ++ [part])) []
    rw [List.append_nil] at hfind'
    have hmember := (hrepresents.holds.find hfind' rfl).member rfl "length"
    refine ⟨rfl, parts.length, (read_plain plain).2 (Arena.resolve_length hparents hlast ?_),
      (read_plain (s := { s with arena }) plain).2
        (Arena.resolve_length hparents' hlast (hmember.trans ?_))⟩
    · simp [Arena.member, hitems, Composite.member]
    · simp [Graph.length?]

/-- **What a read sees after an assignment.** The length of an array grows with an item that is
added.  Whatever else a read sees stays, if it does not go through the property that is replaced. -/
theorem Reachable.read_assign (h : s.Reachable) (plain : s.computed = [])
    (hassign : s.assign target value = .ok (effect, s'))
    (hread : (s.read path).result = .ok seen) :
    (s.Lengthens target path → effect = .added ∧ ∃ n : Nat, seen = .value (.integer n) ∧
        (s'.read path).result = .ok (.value (.integer (n + 1)))) ∧
      (¬ s.Lengthens target path → (∀ property ∈ (s.read path).trace, effect ≠ .replaced property) →
        (s'.read path).result = .ok seen) := by
  obtain ⟨g, hg⟩ := h.represents
  refine ⟨fun lengthens => ?_, fun other elsewhere => ?_⟩
  · obtain ⟨hadded, n, hbefore, hafter⟩ := lengthens.read hg plain hassign
    exact ⟨hadded, n, Except.ok.inj (hread.symm.trans hbefore), hafter⟩
  · obtain hsame | ⟨property, through, replaced⟩ | lengthens :=
      read_assign_cases hg plain hassign hread
    · exact hsame
    · exact absurd replaced (elsewhere property through)
    · exact absurd lengthens other

end Store

end Bindery
