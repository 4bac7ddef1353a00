import Bindery.Store.Basic

namespace Bindery

/-!
# Writing to a store

* `Arena.assign` — the arena with a value assigned to a member of a composite, and what that did.
* `Arena.insert` — the same where there is no such member yet.
* `Store.assign` — the same for a path of a store.
* `Store.propertyAt` — the property that an expression names, for questions about it.
-/

/-- What an assignment did. -/
inductive Effect where
  /-- The value was there already. -/
  | unchanged
  /-- A member or an item was added. -/
  | added
  /-- The content of a property was replaced. -/
  | replaced (id : PropertyId)
deriving DecidableEq

/-- Whether a content is the scalar that a value is, strictly. -/
def Content.holds (value : Json) : Content → Bool
  | .scalar s => (Json.scalar s).strictEq value
  | .composite _ => false

namespace Composite

/-- Whether a name that is not there can be added: any key to an object, the index after the last
one to an array. -/
def admits (segment : String) : Composite → Bool
  | .object _ => true
  | .array items => index? segment == some items.length

/-- The parts with one more at the end. -/
def extend (segment : String) (id : PropertyId) : Composite → Composite
  | .object members => .object (members ++ [(segment, id)])
  | .array items => .array (items ++ [id])

end Composite

namespace Arena

/-- Adds a member to a composite. -/
def insert (a : Arena) (id : CompositeId) (segment : String) (value : Json) :
    Except Refusal (Effect × Arena) :=
  match a.composites[id]? with
  | none => .error (.dangling segment)
  | some composite =>
    if composite.admits segment then
      let (content, a) := a.observe value
      let (property, a) := a.addProperty content
      match a.composites[id]? with
      | none => .error (.dangling segment)
      | some composite =>
        let composites := a.composites.insert id (composite.extend segment property)
        .ok (.added, { a with composites })
    else .error (.missing segment)

/-- Assigns a member of a composite: new content for a property, unless it holds the value already;
a new last member for a name that is missing, where there can be one. -/
def assign (a : Arena) (id : CompositeId) (segment : String) (value : Json) :
    Except Refusal (Effect × Arena) :=
  match a.member id segment with
  | .property property =>
    match a.contents[property]? with
    | none => .error (.dangling segment)
    | some current =>
      if current.holds value then .ok (.unchanged, a)
      else
        let (content, a) := a.observe value
        match a.contents[property]? with
        | none => .error (.dangling segment)
        | some previous =>
          let a := { a with contents := a.contents.insert property content }
          .ok (.replaced property, a.release previous)
  | .length _ => .error .isLength
  | .missing => a.insert id segment value
  | .dangling => .error (.dangling segment)

end Arena

namespace Store

/-- Assigns a value at a path. -/
def assign (s : Store) (path : Path) (value : Json) : Except Fault (Effect × Store) :=
  if path.parents.isEmpty && s.isComputed path.last then .error (.readOnly path.last)
  else
    match (s.resolve path path.parents).result with
    | .error fault => .error fault
    | .ok (.value _) => .error (.unresolvable path.text path.last)
    | .ok (.composite id) =>
      match s.arena.assign id path.last value with
      | .ok (effect, arena) => .ok (effect, { s with arena })
      | .error refusal => .error (path.refusalFault refusal)

/-- The property that an expression names. -/
def propertyAt (s : Store) (expr : String) : Except Fault PropertyId :=
  match Path.parse? expr with
  | none => .error (.invalidExpression expr)
  | some path =>
    let nothing : Fault := .unresolvable path.text path.last
    match (s.resolve path path.parents).result with
    | .error fault => .error fault
    | .ok (.value _) => .error nothing
    | .ok (.composite id) =>
      match s.arena.member id path.last with
      | .property property =>
        if property ∈ s.arena.contents then .ok property else .error nothing
      | _ => .error nothing

end Store

end Bindery
