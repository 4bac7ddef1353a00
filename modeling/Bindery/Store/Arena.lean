import Std.Data.TreeMap
import Bindery.Json.StrictEq
import Bindery.Word

namespace Bindery

/-!
# Arenas

Data whose parts have an identity.  Every member of an object and every item of an array is a
*property* with an identifier of its own, which stays when its content is replaced; every object
and array is a *composite* with an identifier, which goes when it is replaced.  Both are kept in
tables, and refer to each other by identifier only.

* `Arena` — the content of each property, the parts of each composite, and the identifiers not
  given out yet.
* `Arena.observe` — takes a value in, with fresh identifiers for everything inside it.
* `Arena.release` — gives up a content with everything inside it.
* `Arena.member` — what a segment names in a composite.
* `Arena.toJson` — the data behind a content.
-/

/-- The identifier of a property. -/
structure PropertyId where
  val : Nat
deriving DecidableEq

/-- The identifier of an object or array. -/
structure CompositeId where
  val : Nat
deriving DecidableEq

instance : Ord PropertyId := ⟨compareOn PropertyId.val⟩

instance : Std.TransOrd PropertyId := inferInstanceAs (Std.TransCmp (compareOn PropertyId.val))

instance : Std.LawfulEqOrd PropertyId where
  eq_of_compare h := congrArg PropertyId.mk (Nat.compare_eq_eq.1 h)

instance : Ord CompositeId := ⟨compareOn CompositeId.val⟩

instance : Std.TransOrd CompositeId := inferInstanceAs (Std.TransCmp (compareOn CompositeId.val))

instance : Std.LawfulEqOrd CompositeId where
  eq_of_compare h := congrArg CompositeId.mk (Nat.compare_eq_eq.1 h)

/-- What a property holds. -/
inductive Content where
  | scalar (value : Scalar)
  | composite (id : CompositeId)
deriving DecidableEq

/-- The array index that a segment spells: digits, perhaps after a plus sign, of a number that fits
64 bits. -/
def index? (segment : String) : Option Nat :=
  let digits := match segment.toList with
    | '+' :: rest => rest
    | rest => rest
  if digits.isEmpty || !digits.all Char.isDigit then none
  else
    let n := digits.foldl (fun n c => 10 * n + (c.toNat - '0'.toNat)) 0
    if n < wordCount 64 then some n else none

/-- What a segment names in a composite. -/
inductive Member where
  | property (id : PropertyId)
  /-- The length of an array, which is no property. -/
  | length (count : Nat)
  | missing
  /-- There is no composite to look into. -/
  | dangling
deriving DecidableEq

/-- The parts of an object or array. -/
inductive Composite where
  | object (members : List (String × PropertyId))
  | array (items : List PropertyId)
deriving DecidableEq

namespace Composite

/-- The properties, in order. -/
def properties : Composite → List PropertyId
  | object members => members.map (·.2)
  | array items => items

/-- The names of the parts: keys of an object, indices of an array. -/
def names : Composite → List String
  | object members => members.map (·.1)
  | array items => (List.range items.length).map fun i => String.ofList (Nat.toDigits 10 i)

/-- What a segment names: a member of an object by its key, an item of an array by its index, and
the length of an array. -/
def member (segment : String) : Composite → Member
  | object members => (members.lookup segment).elim .missing .property
  | array items =>
    if segment = "length" then .length items.length
    else ((index? segment).bind (items[·]?)).elim .missing .property

@[simp] theorem properties_object (members : List (String × PropertyId)) :
    (object members).properties = members.map (·.2) := rfl

@[simp] theorem properties_array (items : List PropertyId) : (array items).properties = items := rfl

end Composite

/-- Properties and composites in tables. -/
structure Arena where
  contents : Std.TreeMap PropertyId Content
  composites : Std.TreeMap CompositeId Composite
  nextProperty : Nat
  nextComposite : Nat

namespace Arena

/-- The arena without anything in it. -/
def empty : Arena := ⟨∅, ∅, 0, 0⟩

/-- Adds a property. -/
def addProperty (content : Content) (a : Arena) : PropertyId × Arena :=
  (⟨a.nextProperty⟩, { a with
    contents := a.contents.insert ⟨a.nextProperty⟩ content
    nextProperty := a.nextProperty + 1 })

/-- Adds a composite. -/
def addComposite (composite : Composite) (a : Arena) : CompositeId × Arena :=
  (⟨a.nextComposite⟩, { a with
    composites := a.composites.insert ⟨a.nextComposite⟩ composite
    nextComposite := a.nextComposite + 1 })

mutual

/-- Takes in a value. -/
def observe : Json → Arena → Content × Arena
  | .scalar s, a => (.scalar s, a)
  | .object members, a =>
    let (members, a) := observeMembers members a
    let (id, a) := a.addComposite (.object members)
    (.composite id, a)
  | .array items, a =>
    let (items, a) := observeItems items a
    let (id, a) := a.addComposite (.array items)
    (.composite id, a)

/-- Takes in the members of an object. -/
def observeMembers : List (String × Json) → Arena → List (String × PropertyId) × Arena
  | [], a => ([], a)
  | (key, value) :: rest, a =>
    let (content, a) := observe value a
    let (id, a) := a.addProperty content
    let (members, a) := observeMembers rest a
    ((key, id) :: members, a)

/-- Takes in the items of an array. -/
def observeItems : List Json → Arena → List PropertyId × Arena
  | [], a => ([], a)
  | value :: rest, a =>
    let (content, a) := observe value a
    let (id, a) := a.addProperty content
    let (items, a) := observeItems rest a
    (id :: items, a)

end

/-- The properties of the composite that a content is. -/
def inside (a : Arena) : Content → List PropertyId
  | .scalar _ => []
  | .composite id => a.composites[id]?.elim [] Composite.properties

/-- Takes the composite that a content is out of its table. -/
def forget (content : Content) (a : Arena) : Arena :=
  match content with
  | .scalar _ => a
  | .composite id => { a with composites := a.composites.erase id }

@[simp] theorem contents_forget (content : Content) (a : Arena) :
    (a.forget content).contents = a.contents := by
  cases content <;> rfl

@[simp] theorem nextProperty_forget (content : Content) (a : Arena) :
    (a.forget content).nextProperty = a.nextProperty := by
  cases content <;> rfl

@[simp] theorem nextComposite_forget (content : Content) (a : Arena) :
    (a.forget content).nextComposite = a.nextComposite := by
  cases content <;> rfl

/-- A table with one entry less is smaller. -/
theorem size_erase_lt {contents : Std.TreeMap PropertyId Content} {id : PropertyId}
    {content : Content} (found : contents[id]? = some content) :
    (contents.erase id).size < contents.size := by
  have present : contents.contains id = true := by
    simp [Std.TreeMap.contains_eq_isSome_getElem?, found]
  have nonempty := Std.TreeMap.isEmpty_eq_false_of_contains present
  simp only [Std.TreeMap.isEmpty_eq_size_eq_zero, beq_eq_false_iff_ne] at nonempty
  simp only [Std.TreeMap.size_erase, present, if_true]
  omega

/-- Gives up properties, each with everything inside it before the next one. -/
def releaseAll : List PropertyId → Arena → Arena
  | [], a => a
  | id :: rest, a =>
    match _found : a.contents[id]? with
    | none => releaseAll rest a
    | some content =>
      releaseAll (a.inside content ++ rest)
        ({ a with contents := a.contents.erase id }.forget content)
termination_by ids a => (a.contents.size, ids.length)
decreasing_by
  · exact Prod.Lex.right _ (Nat.lt_succ_self _)
  · exact Prod.Lex.left _ _ (by simpa using size_erase_lt ‹_›)

/-- Gives up everything inside a content. -/
def release (content : Content) (a : Arena) : Arena :=
  match content with
  | .scalar _ => a
  | .composite _ => releaseAll (a.inside content) (a.forget content)

/-- There is nothing inside a scalar to give up. -/
theorem release_eq (content : Content) (a : Arena) :
    a.release content = releaseAll (a.inside content) (a.forget content) := by
  cases content with
  | scalar s => rw [inside, releaseAll]; rfl
  | composite id => rfl

/-- What a segment names in a composite. -/
def member (a : Arena) (id : CompositeId) (segment : String) : Member :=
  a.composites[id]?.elim .dangling (Composite.member segment)

/-- The data behind a content, down to a depth.  What is not in the tables is left out. -/
def toJsonWithin (a : Arena) : Nat → Content → Json
  | _, .scalar s => .scalar s
  | 0, .composite _ => .null
  | depth + 1, .composite id =>
    match a.composites[id]? with
    | none => .null
    | some (.object members) =>
      .object (members.filterMap fun (key, property) =>
        a.contents[property]?.map fun content => (key, toJsonWithin a depth content))
    | some (.array items) =>
      .array (items.filterMap fun property => a.contents[property]?.map (toJsonWithin a depth))

/-- The data behind a content; it is nowhere deeper than there are composites. -/
def toJson (a : Arena) (content : Content) : Json := a.toJsonWithin a.composites.size content

end Arena

end Bindery
