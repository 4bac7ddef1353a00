import Bindery.Proofs.Store.Reachable

namespace Bindery

/-!
# Stores as documents

To whoever reads and assigns, a store is a plain value with computed members: identifiers never
show.

* `Json.assignMember`, `Json.assignAt` — an assignment to a plain value.
* `Document` — a plain value with computed members; `Document.get`, `Document.assign` — what reads
  and assignments come to.
* `Store.toJson_ofJson` — a new store is the document that it was made from.
* `Store.Reachable.get_document`, `Store.Reachable.assign_document` — reads and assignments come to
  the same for a store and for its document.
-/

/-! ### Assignments to a plain value -/

namespace Json

/-- The value with the first member of a name, or the item at an index, changed. -/
def mapMember (segment : String) (f : Json → Json) : Json → Json
  | .scalar s => .scalar s
  | .object members => .object (modifyFirst segment f members)
  | .array items =>
    match index? segment with
    | some i => .array (items.modify i f)
    | none => .array items

/-- The value with another one in the place that segments lead to. -/
def putAt : List String → Json → Json → Json
  | [], _, new => new
  | segment :: rest, data, new => data.mapMember segment fun inner => putAt rest inner new

/-- A value for another: the old one stays if the two are equal, strictly. -/
def replacedBy (old value : Json) : Json := if old.strictEq value then old else value

/-- The value with one more member or item at its end. -/
def addMember (container : Json) (key : String) (value : Json) : Json :=
  match container with
  | .scalar s => .scalar s
  | .object members => .object (members ++ [(key, value)])
  | .array items => .array (items ++ [value])

/-- Assigns a member of an object, in place or as the last one, or an item of an array, in place or
right after the last one. -/
def assignMember (container : Json) (last : String) (value : Json) : Except Refusal Json :=
  match container with
  | .scalar _ => .error (.missing last)
  | .object members =>
    .ok (.object (put last ((members.lookup last).elim value (replacedBy · value)) members))
  | .array items =>
    if last = "length" then .error .isLength
    else match index? last with
      | none => .error (.missing last)
      | some i =>
        match items[i]? with
        | some old => .ok (.array (items.set i (old.replacedBy value)))
        | none =>
          if i = items.length then .ok (.array (items ++ [value])) else .error (.missing last)

/-- Assigns a member of what the parents lead to. -/
def assignAt (data : Json) (parents : List String) (last : String) (value : Json) :
    Except Refusal Json :=
  match data.descendAll parents with
  | .error refusal => .error refusal
  | .ok container =>
    (container.assignMember last value).map fun new => data.putAt parents new

/-- A change that leaves the member alone leaves all alone. -/
theorem mapMember_self {segment : String} {f : Json → Json} {data inner : Json}
    (found : data.descend segment = some inner) (same : f inner = inner) :
    data.mapMember segment f = data := by
  cases data with
  | scalar s => rfl
  | object members =>
    obtain ⟨before, after, hmembers, hmodify⟩ := modifyFirst_of_lookup found
    rw [mapMember, hmodify, same, ← hmembers]
  | array items =>
    simp only [descend] at found
    simp only [mapMember]
    split at found
    · -- no item has the index `length`
      next hlength =>
      subst hlength
      rfl
    · cases hindex : index? segment with
      | none => rfl
      | some i =>
        have hi : items[i]? = some inner := by simpa [hindex] using found
        refine congrArg array (List.ext_getElem? fun j => ?_)
        rw [List.getElem?_modify]
        split
        · next hij => rw [← hij, hi, Option.map_eq_map, Option.map_some, same]
        · simp

/-- What is put in its own place changes nothing. -/
theorem putAt_self {segments : List String} {data found : Json}
    (h : data.descendAll segments = .ok found) : data.putAt segments found = data := by
  induction segments generalizing data with
  | nil =>
    cases h
    rfl
  | cons segment rest ih =>
    simp only [descendAll] at h
    split at h
    · next inner hinner => exact mapMember_self hinner (ih h)
    · cases h

/-- A member that is there keeps its place. -/
theorem put_of_lookup {key : String} {members : List (String × Json)} {old : Json}
    (h : members.lookup key = some old) (value : Json) :
    put key value members = modifyFirst key (fun _ => value) members := by
  induction members with
  | nil => simp at h
  | cons head rest ih =>
    obtain ⟨name, first⟩ := head
    by_cases hname : name = key
    · simp [put, modifyFirst, hname]
    · rw [List.lookup_cons, beq_false_of_ne (Ne.symm hname)] at h
      simp [put, modifyFirst, hname, ih h]

/-- A member that is missing becomes the last one. -/
theorem put_of_lookup_none {key : String} {members : List (String × Json)}
    (h : members.lookup key = none) (value : Json) :
    put key value members = members ++ [(key, value)] := by
  induction members with
  | nil => rfl
  | cons head rest ih =>
    obtain ⟨name, first⟩ := head
    by_cases hname : name = key
    · simp [hname] at h
    · rw [List.lookup_cons, beq_false_of_ne (Ne.symm hname)] at h
      simp [put, hname, ih h]

end Json

/-! ### The data of a graph -/

namespace Graph

/-- A change of a part is a change of the member that it stands for. -/
theorem toJson_mapPart {f : Graph → Graph} (f' : Json → Json)
    (same : ∀ g, (f g).toJson = f' g.toJson) (segment : String) (g : Graph) :
    (g.mapPart segment f).toJson = g.toJson.mapMember segment f' := by
  cases g with
  | scalar s => simp [mapPart, Json.mapMember]
  | object id members =>
    simp only [mapPart, toJson_object, Json.mapMember]
    exact congrArg Json.object
      (modifyFirst_map (fun part : PropertyId × Graph => part.2.toJson) (fun part => same part.2)
        segment members)
  | array id items =>
    simp only [mapPart, toJson_array, Json.mapMember]
    cases index? segment with
    | none => simp
    | some i =>
      simp only [toJson_array]
      refine congrArg Json.array (List.ext_getElem? fun j => ?_)
      simp only [List.getElem?_map, List.getElem?_modify]
      cases items[j]? with
      | none => rfl
      | some part =>
        simp only [Option.map_some, Option.map_eq_map]
        split
        · rw [same]
        · rfl

/-- Putting a graph into its place puts its data there. -/
theorem toJson_put (segments : List String) (g new : Graph) :
    (g.put segments new).toJson = g.toJson.putAt segments new.toJson := by
  induction segments generalizing g with
  | nil => rfl
  | cons segment rest ih => exact toJson_mapPart _ ih segment g

/-- What a property holds is compared as the data behind it. -/
theorem holds_content (g : Graph) (value : Json) :
    g.content.holds value = g.toJson.strictEq value := by
  cases g <;> simp [Content.holds]

/-- Nothing can be assigned to the length of an array. -/
theorem assignMember_of_length? {last : String} {g : Graph} {count : Nat}
    (h : g.length? last = some count) (value : Json) :
    g.toJson.assignMember last value = .error .isLength := by
  cases g with
  | array id items =>
    have hlast : last = "length" := by
      simp only [length?] at h
      split at h
      · assumption
      · cases h
    simp [Json.assignMember, hlast]
  | _ => cases h

/-- New data for a part that is there. -/
theorem assignMember_of_part? {last : String} {g : Graph} {part : PropertyId × Graph}
    (h : g.part? last = some part) (value : Json) :
    g.toJson.assignMember last value =
      .ok (g.toJson.mapMember last fun _ => part.2.toJson.replacedBy value) := by
  cases g with
  | scalar s => cases h
  | object id members =>
    have hlookup : (members.map fun member => (member.1, member.2.2.toJson)).lookup last =
        some part.2.toJson := by
      rw [lookup_map_snd fun part : PropertyId × Graph => part.2.toJson]
      exact congrArg (Option.map _) h
    rw [toJson_object, Json.assignMember, hlookup, Option.elim_some, Json.put_of_lookup hlookup,
      Json.mapMember]
  | array id items =>
    simp only [part?, Option.ite_none_left_eq_some, Option.bind_eq_some_iff] at h
    obtain ⟨hlength, i, hindex, hi⟩ := h
    have hitem : (items.map fun part => part.2.toJson)[i]? = some part.2.toJson := by simp [hi]
    simp only [toJson_array, Json.assignMember, if_neg hlength, hindex, hitem, Json.mapMember]
    rw [List.set_eq_modify]

/-- A new part is a new member. -/
theorem toJson_addPart (last : String) (part : PropertyId × Graph) (g : Graph) :
    (g.addPart last part).toJson = g.toJson.addMember last part.2.toJson := by
  cases g <;> simp [addPart, Json.addMember]

/-- New data for a part that is missing. -/
theorem assignMember_of_missing {last : String} {g : Graph} (length : g.length? last = none)
    (part : g.part? last = none) (value : Json) :
    g.toJson.assignMember last value =
      if g.admits last then .ok (g.toJson.addMember last value) else .error (.missing last) := by
  cases g with
  | scalar s => simp [Json.assignMember, admits]
  | object id members =>
    have hlookup :
        (members.map fun member => (member.1, member.2.2.toJson)).lookup last = none := by
      rw [lookup_map_snd fun part : PropertyId × Graph => part.2.toJson]
      exact congrArg (Option.map _) part
    simp [Json.assignMember, hlookup, Json.put_of_lookup_none hlookup, admits, Json.addMember]
  | array id items =>
    have hlast : last ≠ "length" := fun same => by simp [length?, same] at length
    simp only [part?, if_neg hlast] at part
    simp only [toJson_array, Json.assignMember, if_neg hlast, admits, Json.addMember]
    cases hindex : index? last with
    | none => simp
    | some i =>
      have hi : items[i]? = none := by simpa [hindex] using part
      simp [hi]

end Graph

namespace Arena

variable {a : Arena} {root id : CompositeId} {g sub : Graph} {segments : List String}

/-- The data behind what segments lead to. -/
theorem Represents.toJson_find (h : a.Represents root g) (found : g.find segments = .ok sub) :
    a.toJson sub.content = sub.toJson := by
  cases hcontent : sub.content with
  | scalar s =>
    cases sub <;> simp_all [Arena.toJson, Arena.toJsonWithin]
  | composite id =>
    obtain ⟨around, hrows, -⟩ := Graph.rows_put found hcontent
    rw [← hcontent]
    exact (h.consists.perm hrows).toJson

/-- The property whose content is replaced is the member that was assigned. -/
theorem member_of_replaced {last : String} {value : Json} {property : PropertyId} {a' : Arena}
    (h : a.assign id last value = .ok (.replaced property, a')) :
    a.member id last = .property property ∧ property ∈ a.contents := by
  simp only [Arena.assign] at h
  split at h
  · next found hmember =>
    split at h
    · cases h
    · next current hcurrent =>
      split at h
      · cases h
      · split at h
        · cases h
        · cases h
          exact ⟨hmember, by simp [Std.TreeMap.mem_iff_isSome_getElem?, hcurrent]⟩
  · cases h
  · simp only [insert] at h
    split at h
    · cases h
    · split at h
      · split at h <;> cases h
      · cases h
  · cases h

/-- An assignment to a composite of an arena is one to the data. -/
theorem Represents.assign_toJson (h : a.Represents root g) (found : g.find segments = .ok sub)
    (composite : sub.content = .composite id) (last : String) (value : Json) :
    (a.assign id last value).map (fun done => done.2.toJson (.composite root)) =
      g.toJson.assignAt segments last value := by
  have hassigns := h.assign found composite last value
  have hcontainer : g.toJson.descendAll segments = .ok sub.toJson := by
    rw [Graph.descendAll_toJson, found]
    rfl
  generalize a.assign id last value = outcome at hassigns
  rw [Json.assignAt, hcontainer]
  cases hassigns with
  | @unchanged part hlength hpart hholds =>
    -- what is put there is what was there
    rw [Graph.holds_content] at hholds
    have hdescend : sub.toJson.descend last = some part.2.toJson := by
      rw [Graph.descend_toJson, Graph.step?, hlength, hpart]
      rfl
    have hself := Json.mapMember_self (f := fun _ => _) hdescend rfl
    simp only [Graph.assignMember_of_part? hpart, Json.replacedBy, hholds, if_true, hself,
      Except.map, h.toJson, Json.putAt_self hcontainer]
  | replaced hlength hpart hholds hvalue hrepresents =>
    rw [Graph.holds_content] at hholds
    simp only [Graph.assignMember_of_part? hpart, Json.replacedBy, hholds, Bool.false_eq_true,
      if_false, Except.map, hrepresents.toJson, Graph.toJson_put]
    rw [Graph.toJson_mapPart (fun _ => value) fun _ => hvalue]
  | added hlength hpart hadmits hvalue hrepresents =>
    simp only [Graph.assignMember_of_missing hlength hpart, hadmits, if_true, Except.map,
      hrepresents.toJson, Graph.toJson_put, Graph.toJson_addPart, hvalue]
  | isLength hlength => simp [Graph.assignMember_of_length? hlength, Except.map]
  | missing hlength hpart hadmits =>
    have hmissing := Graph.assignMember_of_missing hlength hpart value
    simp [hmissing, hadmits, Except.map]

end Arena

/-! ### Documents -/

/-- A derivation's value, by the values of what it reads. -/
def Derivation.value (get : String → Except Fault Json) : Derivation → Except Fault Json
  | .done result => result
  | .read _ expr next => value get (next (get expr))

/-- A plain value with members computed from it. -/
structure Document where
  data : Json
  computed : List (String × Derivation)

namespace Document

/-- What segments of a path lead to, with a way to run derivations. -/
def resolveWith (derive : String → Derivation → Except Fault Json) (d : Document) (path : Path)
    (segments : List String) : Except Fault Json :=
  match segments with
  | [] => .ok d.data
  | name :: rest =>
    match d.computed.lookup name with
    | none => (d.data.descendAll (name :: rest)).mapError path.refusalFault
    | some derivation =>
      match derive name derivation with
      | .error fault => .error fault
      | .ok value => (value.descendAll rest).mapError path.refusalFault

/-- The value at an expression, with a way to run derivations. -/
def getWith (derive : String → Derivation → Except Fault Json) (d : Document) (expr : String) :
    Except Fault Json :=
  match Path.parse? expr with
  | none => .error (.invalidExpression expr)
  | some path => d.resolveWith derive path path.segments

/-- The value of a derivation, with at most so many of them one inside the other. -/
def derive (d : Document) : Nat → String → Derivation → Except Fault Json
  | 0, name, _ => .error (.circular name)
  | depth + 1, _, derivation => derivation.value (d.getWith (d.derive depth))

/-- What segments of a path lead to. -/
def resolve (d : Document) (path : Path) (segments : List String) : Except Fault Json :=
  d.resolveWith (d.derive d.computed.length) path segments

/-- The value at an expression. -/
def get (d : Document) (expr : String) : Except Fault Json :=
  d.getWith (d.derive d.computed.length) expr

/-- The document with a value assigned at a path.  Nothing can be assigned to a computed member, nor
inside its value. -/
def assign (d : Document) (path : Path) (value : Json) : Except Fault Document :=
  let inData : Except Fault Document :=
    ((d.data.assignAt path.parents path.last value).map fun data => { d with data }).mapError
      path.refusalFault
  match path.parents with
  | [] => if (d.computed.lookup path.last).isSome then .error (.readOnly path.last) else inData
  | name :: rest =>
    if (d.computed.lookup name).isSome then
      match d.resolve path (name :: rest) with
      | .error fault => .error fault
      | .ok _ => .error (.unresolvable path.text path.last)
    else inData

/-- The document with a value set at an expression. -/
def set (d : Document) (expr : String) (value : Json) : Except Fault Document :=
  match Path.parse? expr with
  | none => .error (.invalidExpression expr)
  | some path => d.assign path value

end Document

namespace Store

/-- The store as whoever reads it sees it. -/
def document (s : Store) : Document := ⟨s.toJson, s.computed⟩

variable {s s' : Store} {g : Graph} {path : Path}

/-- A new store holds the data that it was made from, an empty object if that is a scalar. -/
theorem toJson_ofJson (data : Json) :
    (ofJson data).toJson = match data with
      | .scalar _ => .object []
      | data => data := by
  obtain ⟨g, hrepresents, hdata⟩ := represents_ofJson data
  rw [toJson, hrepresents.toJson]
  exact hdata

/-- Segments lead to the same in a store and in its document. -/
theorem resolveWith_document (h : s.arena.Represents s.root g)
    {derive : String → Derivation → Reading Json}
    {derive' : String → Derivation → Except Fault Json}
    (same : ∀ name derivation, (derive name derivation).result = derive' name derivation)
    (segments : List String) :
    (s.resolveWith derive path segments).result.map s.valueOf =
      s.document.resolveWith derive' path segments := by
  have inData : ((s.arena.resolve s.root segments).1.mapError path.refusalFault).map s.valueOf =
      (s.toJson.descendAll segments).mapError path.refusalFault := by
    rw [h.holds.resolve h.content, toJson, h.toJson, Graph.descendAll_toJson]
    cases hfind : g.find segments with
    | error refusal => rfl
    | ok sub =>
      have hvalue := h.toJson_find hfind
      cases hcontent : sub.content with
      | scalar value =>
        cases sub <;> simp_all [Except.map, Except.mapError, Content.snapshot, valueOf]
      | composite id =>
        simp [Except.map, Except.mapError, Content.snapshot, valueOf, hcontent, ← hvalue]
  cases segments with
  | nil => exact inData
  | cons name rest =>
    simp only [resolveWith, Document.resolveWith, document]
    cases s.computed.lookup name with
    | none => exact inData
    | some derivation =>
      simp only [← same]
      cases hderive : derive name derivation with
      | mk result trace =>
        cases result with
        | error fault => rfl
        | ok value =>
          dsimp only
          cases Json.descendAll rest value <;> rfl

/-- Expressions have the same value in a store and in its document. -/
theorem getWith_document (h : s.arena.Represents s.root g)
    {derive : String → Derivation → Reading Json}
    {derive' : String → Derivation → Except Fault Json}
    (same : ∀ name derivation, (derive name derivation).result = derive' name derivation)
    (expr : String) : (s.getWith derive expr).result = s.document.getWith derive' expr := by
  simp only [getWith, Document.getWith]
  cases Path.parse? expr with
  | none => rfl
  | some path => exact resolveWith_document h same path.segments

end Store

/-- A derivation comes to its value. -/
theorem Derivation.result_run {get : String → Reading Json} {get' : String → Except Fault Json}
    (same : ∀ expr, (get expr).result = get' expr) (derivation : Derivation) :
    (derivation.run get).result = derivation.value get' := by
  induction derivation with
  | done result => rfl
  | read tracked expr next ih =>
    simp only [run, value, ← same]
    exact ih _

namespace Store

variable {s s' : Store} {g : Graph} {path : Path}

/-- Derivations have the same value in a store and in its document. -/
theorem derive_document (h : s.arena.Represents s.root g) (depth : Nat) (name : String)
    (derivation : Derivation) :
    (s.derive depth name derivation).result = s.document.derive depth name derivation := by
  induction depth generalizing name derivation with
  | zero => rfl
  | succ depth ih => exact derivation.result_run (getWith_document h ih)

/-- A read of a store is a read of its document. -/
theorem Reachable.get_document (h : s.Reachable) (expr : String) :
    s.get expr = s.document.get expr := by
  obtain ⟨g, hg⟩ := h.represents
  exact getWith_document hg (derive_document hg _) expr

/-- A path leads to the same in the store and in its document. -/
theorem resolve_document (path : Path) (h : s.arena.Represents s.root g) (segments : List String) :
    (s.resolve path segments).result.map s.valueOf = s.document.resolve path segments :=
  resolveWith_document h (derive_document h _) segments

/-- Without a computed member at the head, an assignment is one to the data. -/
theorem assign_inData (h : s.arena.Represents s.root g) (path : Path) (value : Json)
    (writable : (path.parents.isEmpty && s.isComputed path.last) = false)
    (resolves : (s.resolve path path.parents).result =
      (s.arena.resolve s.root path.parents).1.mapError path.refusalFault) :
    (s.assign path value).map (fun done => done.2.document) =
      ((s.toJson.assignAt path.parents path.last value).map fun data =>
        (⟨data, s.computed⟩ : Document)).mapError path.refusalFault := by
  have hdescend : s.toJson.descendAll path.parents = (g.find path.parents).map Graph.toJson := by
    rw [toJson, h.toJson, Graph.descendAll_toJson]
  simp only [assign, writable, Bool.false_eq_true, if_false, resolves, h.holds.resolve h.content]
  cases hfind : g.find path.parents with
  | error refusal =>
    rw [hfind] at hdescend
    simp [Json.assignAt, hdescend, Except.map, Except.mapError]
  | ok sub =>
    cases hcontent : sub.content with
    | scalar value =>
      -- the last segment names nothing in a scalar
      have hsub : sub.toJson = .scalar value := by cases sub <;> simp_all
      rw [hfind] at hdescend
      simp [Json.assignAt, hdescend, hsub, hcontent, Json.assignMember, Except.map, Except.mapError,
        Content.snapshot, Path.refusalFault]
    | composite id =>
      have hassign := h.assign_toJson hfind hcontent path.last value
      rw [toJson, h.toJson, ← hassign]
      simp only [hcontent, Content.snapshot, Except.map, Except.mapError]
      cases s.arena.assign id path.last value with
      | error refusal => rfl
      | ok done => rfl

/-- Inside a computed member there are values only. -/
theorem resolve_computed {name : String} {derivation : Derivation} {rest : List String}
    {seen : Snapshot} (computed : s.computed.lookup name = some derivation)
    (h : (s.resolve path (name :: rest)).result = .ok seen) : ∃ value, seen = .value value := by
  simp only [resolve, resolveWith, computed] at h
  split at h
  · cases h
  · next value trace hderive =>
    cases hvalue : Json.descendAll rest value with
    | error refusal => simp [hvalue, Except.map, Except.mapError] at h
    | ok found =>
      simp only [hvalue, Except.map, Except.mapError, Except.ok.injEq] at h
      exact ⟨found, h.symm⟩

/-- An assignment to a store is one to its document. -/
theorem Reachable.assign_document (h : s.Reachable) (path : Path) (value : Json) :
    (s.assign path value).map (fun done => done.2.document) = s.document.assign path value := by
  obtain ⟨g, hg⟩ := h.represents
  simp only [Document.assign]
  cases hparents : path.parents with
  | nil =>
    -- the path is one name: that of a computed member, or of one of the data
    cases hcomputed : s.isComputed path.last with
    | true =>
      simp only [Store.assign, hparents, hcomputed]
      simp only [isComputed] at hcomputed
      simp [document, hcomputed, Except.map]
    | false =>
      have hassign := assign_inData hg path value (by simp [hcomputed]) (by rw [hparents]; rfl)
      rw [hassign, hparents]
      simp only [isComputed] at hcomputed
      simp [document, hcomputed]
  | cons name rest =>
    have writable : (path.parents.isEmpty && s.isComputed path.last) = false := by simp [hparents]
    cases hlookup : s.computed.lookup name with
    | none =>
      have hassign := assign_inData hg path value writable (by
        rw [hparents, resolve, resolveWith]
        simp only [hlookup])
      rw [hassign, hparents]
      simp [document, hlookup]
    | some derivation =>
      -- inside a computed member there are values, which have no members to assign
      have hresolve := resolve_document path hg (name :: rest)
      simp only [Store.assign, hparents, document, hlookup, Option.isSome_some, if_true]
      rw [document] at hresolve
      rw [← hresolve]
      cases hresult : (s.resolve path (name :: rest)).result with
      | error fault => rfl
      | ok seen =>
        obtain ⟨found, rfl⟩ := resolve_computed hlookup hresult
        rfl

/-- A property whose content is replaced is the one that the expression names. -/
theorem propertyAt_of_replaced {expr : String} {value : Json} {property : PropertyId}
    (hparse : Path.parse? expr = some path)
    (h : s.assign path value = .ok (.replaced property, s')) :
    s.propertyAt expr = .ok property := by
  simp only [Store.assign] at h
  split at h
  · cases h
  · split at h
    · cases h
    · cases h
    · next id hresolve =>
      split at h
      · next effect arena hassign =>
        cases h
        obtain ⟨hmember, hlive⟩ := Arena.member_of_replaced hassign
        simp only [propertyAt, hparse, hresolve, hmember, hlive, if_true]
      · cases h

end Store

end Bindery
