import Bindery.Proofs.Store.Traversal
import Bindery.Proofs.Store.Tree

namespace Bindery

/-!
# The identity of composites

A composite stays the same one for as long as nothing is put in its place, or in the place of
something around it, whatever happens inside it.  From then on it is gone: it is in the store no
more, and nothing else is given its identifier.

* `Change`, `Store.Unfolds`, `Store.after` — assignments that succeed, one after another.
* `Store.Overwritten` — one of them replaces what a path leads to, or something on the way.
* `Store.Gone` — a composite that was there once.
* `Store.Reachable.identity` — what becomes of a composite that a path leads to.
-/

namespace Arena

variable {a a' : Arena} {root id inner : CompositeId} {g sub shown : Graph} {property : PropertyId}
  {part : PropertyId × Graph} {parents rest : List String} {last other : String} {value : Json}

/-- How a property is spelt makes no difference to an assignment that succeeds. -/
theorem assign_respelt {done : Effect × Arena} (h : a.member id last = .property property)
    (h' : a.member id other = .property property) (hassign : a.assign id last value = .ok done) :
    a.assign id other value = .ok done := by
  simp only [assign, h, h'] at hassign ⊢
  -- only the refusals tell the segment
  cases hfound : a.contents[property]? with
  | none => simp [hfound] at hassign
  | some current =>
    simp only [hfound] at hassign ⊢
    cases hnow : (a.observe value).2.contents[property]? with
    | some previous => simpa only [hnow] using hassign
    | none =>
      cases hholds : current.holds value with
      | true => simpa [hholds] using hassign
      | false => simp [hnow, hholds] at hassign

/-- A property is a part of one composite. -/
theorem IsTree.holder_unique (h : a.IsTree root) (live : property ∈ a.contents)
    (hid : a.member id last = .property property)
    (hinner : a.member inner other = .property property) : id = inner := by
  have stands {id : CompositeId} {segment : String}
      (hmember : a.member id segment = .property property) :
      ∃ i, a.StandsAt property (id, i) := by
    cases hfound : a.composites[id]? with
    | none => simp [member, hfound] at hmember
    | some shape =>
      simp only [member, hfound, Option.elim_some] at hmember
      obtain ⟨i, hi⟩ := List.getElem?_of_mem (Composite.mem_properties_of_member hmember)
      exact ⟨i, shape, hfound, hi⟩
  obtain ⟨i, hi⟩ := stands hid
  obtain ⟨j, hj⟩ := stands hinner
  exact congrArg Prod.fst ((h.one_place property live).unique hi hj)

/-- A composite inside a part is gone when the part is replaced. -/
theorem Represents.notMem_of_replaced (h : a.Represents root g)
    (found : g.find parents = .ok sub) (composite : sub.content = .composite id)
    (hpart : sub.part? last = some part) (inside : part.2.find rest = .ok shown)
    (hinner : shown.content = .composite inner)
    (hassign : a.assign id last value = .ok (.replaced property, a')) : inner ∉ a'.composites := by
  have hsub := h.holds.find found composite
  obtain ⟨hcontent, -⟩ := hsub.part (Graph.mem_parts_of_part? hpart)
  obtain ⟨hobserved, _, _, _, _, hgone⟩ := h.replace found composite hpart value
  obtain ⟨around, hrows, -⟩ := Graph.rows_put inside hinner
  obtain ⟨shape, hrow⟩ := Graph.composite_mem_rows hinner
  simp only [Arena.assign, hsub.member composite, Graph.length?_of_part? hpart, hpart,
    Option.elim_some, hcontent, hobserved] at hassign
  split at hassign
  · cases hassign
  · cases hassign
    exact hgone (hrows.mem_iff.2 (List.mem_append_left _ hrow))

/-- Where segments lead to a composite, it is there. -/
theorem Represents.mem_of_resolve (h : a.Represents root g) {segments : List String}
    (hresolve : (a.resolve root segments).1 = .ok (.composite id)) : id ∈ a.composites := by
  obtain ⟨content, hfind, hsnapshot⟩ := h.resolve_eq_ok.1 hresolve
  cases content with
  | scalar s => cases hsnapshot
  | composite other =>
    cases hsnapshot
    cases hfound : g.find segments with
    | error refusal => simp [hfound, Except.map] at hfind
    | ok shown =>
      rw [hfound] at hfind
      obtain ⟨shape, hshape, -⟩ := (h.holds.find hfound (Except.ok.inj hfind)).composite
        (Except.ok.inj hfind)
      exact Std.TreeMap.mem_iff_isSome_getElem?.2 (by simp [hshape])

/-- Identifiers that were given out come back to nothing. -/
theorem Continues.mem_composites {replaced : Option PropertyId} (h : Continues replaced a a')
    (tree : a.IsTree root) (tree' : a'.IsTree root) (live : id ∈ a'.composites)
    (issued : a.Issued (.inr id)) : id ∈ a.composites := by
  by_cases top : id = root
  · exact top ▸ tree.root_live
  · -- the property that holds it is an old one, and held it before
    obtain ⟨property, hfound, -⟩ := tree'.one_holder id live top
    obtain ⟨-, -, hbefore⟩ := h.link hfound issued
    exact tree.content_live property id hbefore

/-- Of a composite that is not there nothing can be told. -/
theorem toJson_of_notMem (gone : id ∉ a.composites) : a.toJson (.composite id) = .null := by
  have missing : a.composites[id]? = none := Std.TreeMap.getElem?_eq_none gone
  rw [toJson]
  cases a.composites.size with
  | zero => rfl
  | succ depth => simp only [toJsonWithin, missing]

end Arena

/-- An assignment that succeeded: where it went, what it did, and the store that it left. -/
structure Change where
  target : Path
  value : Json
  effect : Effect
  left : Store

namespace Store

variable {s s' : Store} {path target other : Path} {id : CompositeId} {effect : Effect}
  {value : Json} {change : Change} {changes : List Change}

/-! ### One change after another -/

/-- The changes are assignments that succeed, each in the store that the one before it left. -/
def Unfolds : Store → List Change → Prop
  | _, [] => True
  | s, change :: rest =>
    s.assign change.target change.value = .ok (change.effect, change.left) ∧
      Unfolds change.left rest

/-- The store that changes leave. -/
def after (s : Store) (changes : List Change) : Store :=
  changes.foldl (fun _ change => change.left) s

@[simp] theorem after_nil (s : Store) : s.after [] = s := rfl

@[simp] theorem after_cons (s : Store) (change : Change) (rest : List Change) :
    s.after (change :: rest) = change.left.after rest := rfl

/-- Changes are made one after another. -/
theorem after_append (s : Store) (before later : List Change) :
    s.after (before ++ later) = (s.after before).after later := List.foldl_append

/-- Changes unfold if the first ones do, and the later ones from where these lead. -/
theorem unfolds_append {before later : List Change} :
    s.Unfolds (before ++ later) ↔ s.Unfolds before ∧ (s.after before).Unfolds later := by
  induction before generalizing s with
  | nil => simp [Unfolds]
  | cons change rest ih => simp only [List.cons_append, Unfolds, after_cons, ih, and_assoc]

/-- Changes lead from stores that there can be to stores that there can be. -/
theorem Reachable.after (h : s.Reachable) (unfolds : s.Unfolds changes) :
    (s.after changes).Reachable := by
  induction changes generalizing s with
  | nil => exact h
  | cons change rest ih => exact ih (h.assign unfolds.1) unfolds.2

/-- No change defines a computed member. -/
theorem computed_after (unfolds : s.Unfolds changes) : (s.after changes).computed = s.computed := by
  induction changes generalizing s with
  | nil => rfl
  | cons change rest ih => exact (ih unfolds.2).trans (computed_assign unfolds.1)

/-- The change replaces the content of a property that the path goes through: of what the path leads
to, or of something around it, in whatever spelling. -/
def Replaces (s : Store) (change : Change) (path : Path) : Prop :=
  ∃ property, change.effect = .replaced property ∧ s.Traverses path property

/-- One of the changes replaces what the path then leads to, or something around it. -/
def Overwritten : Store → Path → List Change → Prop
  | _, _, [] => False
  | s, path, change :: rest => s.Replaces change path ∨ change.left.Overwritten path rest

/-- A composite that was in the store and is not any more. -/
structure Gone (s : Store) (id : CompositeId) : Prop where
  issued : s.arena.Issued (.inr id)
  notMem : id ∉ s.arena.composites

/-! ### Composites that are there -/

/-- What a path goes through is what a read of it goes through. -/
theorem Reachable.replaces_iff (h : s.Reachable) (plain : s.computed = []) :
    s.Replaces change path ↔
      ∃ property ∈ (s.read path).trace, change.effect = .replaced property := by
  obtain ⟨g, hg⟩ := h.represents
  rw [read, resolve_plain plain]
  refine exists_congr fun property => ?_
  rw [mem_trace_iff hg (by simp [plain]), and_comm]

/-- A change elsewhere, or inside of it, leaves a composite where it is. -/
theorem Reachable.keeps (h : s.Reachable) (plain : s.computed = [])
    (hassign : s.assign change.target change.value = .ok (change.effect, change.left))
    (hread : (s.read path).result = .ok (.composite id)) (elsewhere : ¬ s.Replaces change path) :
    (change.left.read path).result = .ok (.composite id) := by
  obtain ⟨grows, stays⟩ := h.read_assign plain hassign hread
  refine stays (fun lengthens => ?_) fun property through replaced =>
    elsewhere ((h.replaces_iff plain).2 ⟨property, through, replaced⟩)
  -- a length is no composite
  obtain ⟨-, _, hseen, -⟩ := grows lengthens
  cases hseen

/-- The data that a path leads to is that of the composite. -/
theorem Reachable.descendAll_of_read (h : s.Reachable) (plain : s.computed = [])
    (hread : (s.read path).result = .ok (.composite id)) :
    s.toJson.descendAll path.segments = .ok (s.valueOf (.composite id)) := by
  obtain ⟨g, hg⟩ := h.represents
  obtain ⟨sub, hfind, hcontent⟩ := find_of_resolve hg ((read_plain plain).1 hread)
  rw [toJson, hg.toJson, Graph.descendAll_toJson, hfind, valueOf, ← hcontent, hg.toJson_find hfind]
  rfl

/-! ### Composites that are gone -/

/-- Replacing what a path leads to, or something around it, is the end of the composite there. -/
theorem Reachable.gone_of_replaces (h : s.Reachable) (plain : s.computed = [])
    (hassign : s.assign change.target change.value = .ok (change.effect, change.left))
    (hread : (s.read path).result = .ok (.composite id)) (replaces : s.Replaces change path) :
    change.left.Gone id := by
  obtain ⟨property, replaced, place, ⟨rest, hrest⟩, named⟩ := replaces
  obtain ⟨g, hg⟩ := h.represents
  have hresolve := (read_plain plain).1 hread
  obtain ⟨shown, hshown, hid⟩ := find_of_resolve hg hresolve
  obtain ⟨sub, part, hfind, hpart, rfl⟩ := (propertyAt_iff hg (by simp [plain])).1 named
  obtain ⟨outer, composite⟩ := Graph.composite_of_part? hpart
  -- the assignment went to the same composite, and to the same part of it
  rw [replaced] at hassign
  have issued := hg.isTree.composite_issued id (hg.mem_of_resolve hresolve)
  have issued' := (represents_assign hg hassign).2.keeps (.inr id) issued
  obtain ⟨target, arena, -, harena, hleft⟩ := assign_cases hassign
  obtain ⟨hmember, live⟩ := Arena.member_of_replaced harena
  have hmember' : s.arena.member outer place.last = .property part.1 := by
    rw [(hg.holds.find hfind composite).member composite, Graph.length?_of_part? hpart, hpart]
    rfl
  cases hg.isTree.holder_unique live hmember hmember'
  have respelt := Arena.assign_respelt hmember hmember' harena
  have inside : part.2.find rest = .ok shown := by
    rw [← hrest, ← place.parents_append_last, List.append_assoc, List.singleton_append,
      Graph.find_append hfind, Graph.find_cons_of_part? hpart] at hshown
    exact hshown
  refine ⟨issued', ?_⟩
  rw [hleft]
  exact hg.notMem_of_replaced hfind composite hpart inside hid respelt

/-- What is gone does not come back. -/
theorem Gone.assign (gone : s.Gone id) (h : s.Reachable)
    (hassign : s.assign target value = .ok (effect, s')) : s'.Gone id := by
  obtain ⟨g, hg⟩ := h.represents
  obtain ⟨⟨g', hg'⟩, continues⟩ := represents_assign hg hassign
  obtain ⟨_, _, -, -, rfl⟩ := assign_cases hassign
  exact ⟨continues.keeps _ gone.issued, fun live =>
    gone.notMem (continues.mem_composites hg.isTree hg'.isTree live gone.issued)⟩

/-- What is gone stays gone, since identifiers are not given out again. -/
theorem Gone.after (gone : s.Gone id) (h : s.Reachable) (unfolds : s.Unfolds changes) :
    (s.after changes).Gone id := by
  induction changes generalizing s with
  | nil => exact gone
  | cons change rest ih => exact ih (gone.assign h unfolds.1) (h.assign unfolds.1) unfolds.2

/-- No read sees what is gone. -/
theorem Gone.strictEq_read (gone : s.Gone id) (h : s.Reachable) {seen : Snapshot}
    (hread : (s.read path).result = .ok seen) : seen.strictEq (.composite id) = false := by
  obtain ⟨g, hg⟩ := h.represents
  cases seen with
  | value value => rfl
  | composite other =>
    refine beq_false_of_ne ?_
    rintro rfl
    exact gone.notMem (hg.mem_of_resolve (resolve_eq_composite hread))

/-- A composite that is gone holds nothing. -/
theorem Gone.valueOf (gone : s.Gone id) : s.valueOf (.composite id) = .null :=
  Arena.toJson_of_notMem gone.notMem

/-- **Identity.**  A path goes on leading to one composite until something on the way is replaced,
and then that composite is gone. -/
theorem Reachable.identity (h : s.Reachable) (plain : s.computed = [])
    (hread : (s.read path).result = .ok (.composite id)) (unfolds : s.Unfolds changes) :
    (¬ s.Overwritten path changes → ((s.after changes).read path).result = .ok (.composite id)) ∧
      (s.Overwritten path changes → (s.after changes).Gone id) := by
  induction changes generalizing s with
  | nil => exact ⟨fun _ => hread, False.elim⟩
  | cons change rest ih =>
    obtain ⟨hassign, unfolds⟩ := unfolds
    have h' := h.assign hassign
    by_cases replaces : s.Replaces change path
    · have gone := h.gone_of_replaces plain hassign hread replaces
      exact ⟨fun never => absurd (.inl replaces) never, fun _ => gone.after h' unfolds⟩
    · obtain ⟨stays, ends⟩ := ih h' ((computed_assign hassign).trans plain)
        (h.keeps plain hassign hread replaces) unfolds
      exact ⟨fun never => stays fun later => never (.inr later),
        fun once => ends (once.resolve_left replaces)⟩

end Store

end Bindery
