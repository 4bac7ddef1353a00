import Bindery.Path
import Bindery.Json.Printer
import Bindery.Store.Arena
import Bindery.Store.Derivation

namespace Bindery

/-!
# Stores

Data in an arena together with the members computed from it.

* `Store` — the arena, the composite at the top, and the derivations by name.
* `Snapshot` — what a read sees: a composite of the store by identity, anything else by value.
* `Arena.resolve` — follows segments; it tells the properties it went through, in order.
* `Store.read` — resolves a path.
* `Store.get`, `Store.getAs` — the value at an expression.
-/

/-- Data with computed members. -/
structure Store where
  arena : Arena
  root : CompositeId
  /-- The derivations, in the order of their first definition. -/
  computed : List (String × Derivation)

/-- What a read sees. -/
inductive Snapshot where
  /-- An object or array of the store. -/
  | composite (id : CompositeId)
  /-- A scalar, or a value from outside the store. -/
  | value (value : Json)

/-- Why segments lead nowhere, or to a place that cannot be assigned. -/
inductive Refusal where
  /-- A segment names nothing. -/
  | missing (segment : String)
  /-- The length of an array cannot be assigned. -/
  | isLength
  /-- A segment was looked up by an identifier that names nothing. -/
  | dangling (segment : String)
deriving DecidableEq

/-- The result of a read with the properties it went through, in order and with repetitions. -/
structure Reading (α : Type) where
  result : Except Fault α
  trace : List PropertyId

namespace Snapshot

/-- Composites are compared by identity and values strictly. -/
def strictEq : Snapshot → Snapshot → Bool
  | .composite a, .composite b => a == b
  | .value a, .value b => a.strictEq b
  | _, _ => false

/-- Whether the snapshot is a value and no composite of the store. -/
def isValue : Snapshot → Bool
  | .value _ => true
  | .composite _ => false

end Snapshot

/-- What a read of a content sees. -/
def Content.snapshot : Content → Snapshot
  | .scalar s => .value (.scalar s)
  | .composite id => .composite id

/-- What a segment names in a value outside the store. -/
def Json.descend (segment : String) : Json → Option Json
  | .scalar _ => none
  | .object members => members.lookup segment
  | .array items =>
    if segment = "length" then some (.integer items.length)
    else (index? segment).bind (items[·]?)

/-- What segments name in a value, one inside the other; the first that names nothing is the
error. -/
def Json.descendAll : List String → Json → Except Refusal Json
  | [], value => .ok value
  | segment :: rest, value =>
    match value.descend segment with
    | some inner => descendAll rest inner
    | none => .error (.missing segment)

/-- What segments name in a composite, and the properties on the way; the first segment that names
nothing is the error. -/
def Arena.resolve (a : Arena) (id : CompositeId) :
    List String → Except Refusal Snapshot × List PropertyId
  | [] => (.ok (.composite id), [])
  | segment :: rest =>
    match a.member id segment with
    | .property property =>
      match a.contents[property]? with
      | some (.composite inner) =>
        let (result, trace) := resolve a inner rest
        (result, property :: trace)
      | some (.scalar s) => ((Json.descendAll rest (.scalar s)).map .value, [property])
      | none => (.error (.dangling segment), [])
    | .length count => ((Json.descendAll rest (.integer count)).map .value, [])
    | .missing => (.error (.missing segment), [])
    | .dangling => (.error (.dangling segment), [])

/-- The fault of segments of a path that lead nowhere. -/
def Path.refusalFault (path : Path) : Refusal → Fault
  | .missing segment => .unresolvable path.text segment
  | .dangling segment => .unresolvable path.text segment
  | .isLength => .readOnly path.text

namespace Store

/-- A store of given data; a scalar is no data to hold, and an empty object stands in for it. -/
def ofJson (data : Json) : Store :=
  match Arena.empty.observe data with
  | (.composite id, arena) => ⟨arena, id, []⟩
  | (.scalar _, arena) =>
    let (id, arena) := arena.addComposite (.object [])
    ⟨arena, id, []⟩

/-- The data; computed members are not part of it. -/
def toJson (s : Store) : Json := s.arena.toJson (.composite s.root)

/-- The names of the members of the data, in order. -/
def keys (s : Store) : List String := s.arena.composites[s.root]?.elim [] Composite.names

/-- How many properties the store has. -/
def propertyCount (s : Store) : Nat := s.arena.contents.size

/-- Whether a name is that of a computed member. -/
def isComputed (s : Store) (name : String) : Bool := (s.computed.lookup name).isSome

/-- The names of the computed members, in the order of their first definition. -/
def computedNames (s : Store) : List String := s.computed.map (·.1)

/-- Definitions with one more; a name defined again keeps its place. -/
def defineIn (name : String) (derivation : Derivation) :
    List (String × Derivation) → List (String × Derivation)
  | [] => [(name, derivation)]
  | (n, d) :: rest =>
    if n = name then (n, derivation) :: rest else (n, d) :: defineIn name derivation rest

/-- Defines a computed member, which hides a member of the data with its name. -/
def define (name : String) (derivation : Derivation) (s : Store) : Store :=
  { s with computed := defineIn name derivation s.computed }

/-- The value of a snapshot; null for a composite that is no longer in the store. -/
def valueOf (s : Store) : Snapshot → Json
  | .value value => value
  | .composite id => s.arena.toJson (.composite id)

/-- The text shown for a snapshot. -/
def render (s : Store) : Snapshot → String
  | .value value => value.display
  | .composite id => (s.valueOf (.composite id)).compact

/-- The value of a snapshot that was read. -/
def readingValue (s : Store) (reading : Reading Snapshot) : Reading Json :=
  ⟨reading.result.map s.valueOf, reading.trace⟩

/-- Resolves the first `segments` of a path, with a way to run derivations.  A computed member is
found before a member of the data, and only at the top. -/
def resolveWith (derive : String → Derivation → Reading Json) (s : Store) (path : Path)
    (segments : List String) : Reading Snapshot :=
  let inData : Reading Snapshot :=
    let (result, trace) := s.arena.resolve s.root segments
    ⟨result.mapError path.refusalFault, trace⟩
  match segments with
  | [] => inData
  | name :: rest =>
    match s.computed.lookup name with
    | none => inData
    | some derivation =>
      match derive name derivation with
      | ⟨.error fault, trace⟩ => ⟨.error fault, trace⟩
      | ⟨.ok value, trace⟩ =>
        ⟨((Json.descendAll rest value).map .value).mapError path.refusalFault, trace⟩

/-- Reads an expression, with a way to run derivations. -/
def getWith (derive : String → Derivation → Reading Json) (s : Store) (expr : String) :
    Reading Json :=
  match Path.parse? expr with
  | none => ⟨.error (.invalidExpression expr), []⟩
  | some path => s.readingValue (s.resolveWith derive path path.segments)

end Store

/-- Runs a derivation, with a way to read.  The trace is that of the tracked reads. -/
def Derivation.run (get : String → Reading Json) : Derivation → Reading Json
  | .done result => ⟨result, []⟩
  | .read tracked expr next =>
    let reading := get expr
    let rest := run get (next reading.result)
    ⟨rest.result, (if tracked then reading.trace else []) ++ rest.trace⟩

namespace Store

/-- Runs the derivation of a computed member, at most `depth` of them one inside the other. -/
def derive (s : Store) : Nat → String → Derivation → Reading Json
  | 0, name, _ => ⟨.error (.circular name), []⟩
  | depth + 1, _, derivation => derivation.run (s.getWith (s.derive depth))

/-- Resolves the first `segments` of a path.  As many derivations may run one inside the other as
there are computed members: beyond that one of them needs its own value. -/
def resolve (s : Store) (path : Path) (segments : List String) : Reading Snapshot :=
  s.resolveWith (s.derive s.computed.length) path segments

/-- Reads a path. -/
def read (s : Store) (path : Path) : Reading Snapshot := s.resolve path path.segments

/-- The value at an expression. -/
def get (s : Store) (expr : String) : Except Fault Json :=
  (s.getWith (s.derive s.computed.length) expr).result

/-- The value of a type at an expression. -/
def getAs (s : Store) (shape : Shape) (expr : String) : Except Fault Json :=
  match s.get expr with
  | .error fault => .error fault
  | .ok value => if shape.admits value then .ok value else .error (.conversion expr)

end Store

end Bindery
