import Bindery.Template.Plan
import Bindery.ViewModel.Page

namespace Bindery

/-!
# View models

The coordinator of data, methods and a document.

* `Mount` — the element of a view model or, without one, the data as given.
* `Mount.get`, `Mount.set`, `Mount.update` — members by their names.
* `ViewModel` — what it is mounted on, its settings and methods.
* `Reach` — what a method may call: methods and the listeners of nodes.
* `ViewModel.reach`, `ViewModel.call`, `ViewModel.fire` — calling a method and delivering an event.
-/

/-- What a method may call. -/
structure Reach (υ : Type) where
  /-- Calls a method by its name. -/
  call : String → Event → Act υ Unit
  /-- Delivers an event to the listeners of a node. -/
  fire : NodeId → Event → Act υ Unit

/-- What a view model is mounted on. -/
inductive Mount where
  /-- No element: the data stay as they were given. -/
  | inert (data : Json)
  /-- An element; the data are in the store. -/
  | element (id : NodeId)

namespace Mount

variable {υ : Type}

/-- Whether there is an element. -/
def isElement : Mount → Bool
  | .inert _ => false
  | .element _ => true

/-- The store, if there is an element. -/
def store? (m : Mount) (w : World (Page υ)) : Option Store :=
  match m with
  | .inert _ => none
  | .element _ => some w.store

/-- The data as they are. -/
def data (m : Mount) (w : World (Page υ)) : Json :=
  match m with
  | .inert data => data
  | .element _ => w.store.toJson

/-- The store, or the error that there is none. -/
def store (m : Mount) : Act υ Store := fun w =>
  match m.store? w with
  | none => some (.error .unmounted, w)
  | some store => some (.ok store, w)

/-- The store, once it has a member of the name, computed or at the top of the data. -/
def storeWith (m : Mount) (key : String) : Act υ Store := do
  let store ← m.store
  if store.isComputed key || store.keys.contains key then pure store
  else Step.fail (.unknownProperty key)

/-- The value of a member. -/
def get (m : Mount) (key : String) : Act υ Json := do
  let store ← m.storeWith key
  Step.ofExcept ((store.get key).mapError .fault)

/-- The value of a member, of a type. -/
def getAs (m : Mount) (shape : Shape) (key : String) : Act υ Json := do
  let value ← m.get key
  if shape.admits value then pure value else Step.fail (.fault (.conversion key))

/-- Assigns a member. -/
def set (m : Mount) (key : String) (value : Json) : Act υ Unit := do
  let _ ← m.storeWith key
  Act.assign key value

/-- Assigns a member the value that a function gives for the one it has. -/
def update (m : Mount) (key : String) (f : Json → Json) : Act υ Unit := do
  let value ← m.get key
  m.set key (f value)

end Mount

/-- What a method does, given what it may call. -/
abbrev Method (υ : Type) : Type := Reach υ → Event → Act υ Unit

/-- A view model for pages with a user's part of type `υ`. -/
structure ViewModel (υ : Type) where
  mount : Mount
  settings : Settings
  methods : List (String × Method υ)

namespace ViewModel

variable {υ : Type}

/-- Whether there is a method of a name. -/
def hasMethod (vm : ViewModel υ) (name : String) : Bool := (vm.methods.lookup name).isSome

/-- Calls a method, given what it may call. -/
def invoke (vm : ViewModel υ) (inner : Reach υ) (name : String) (event : Event) : Act υ Unit := do
  let _ ← vm.mount.store
  match vm.methods.lookup name with
  | none => Step.fail (.unknownMethod name)
  | some method => method inner event

/-- What a listener does with an event.  Methods of a dropped view model are not called. -/
def hear (inner : Reach υ) (event : Event) : Listener → Act υ Unit
  | .writeBack expression => fun w =>
    Act.assign expression (.string (w.formValue event.target)) w
  | .invoke name => fun w => if w.host.isLive then inner.call name event w else some (.ok (), w)

/-- Lets listeners hear an event in order, up to the first that fails. -/
def hearAll (inner : Reach υ) (event : Event) : List Listener → Act υ Unit
  | [] => pure ()
  | listener :: rest => do
    hear inner event listener
    hearAll inner event rest

/-- What can be called with calls nested at most `depth` deep. -/
def reach (vm : ViewModel υ) : Nat → Reach υ
  | 0 => ⟨fun _ _ _ => none, fun _ _ _ => none⟩
  | depth + 1 =>
    ⟨fun name event => vm.invoke (reach vm depth) name event,
      fun node event w =>
        hearAll (reach vm depth) event (w.document.listeners node event.name) w⟩

/-- How deep calls from outside may be nested. -/
def nestingLimit : Nat := 1000000

/-- Calls a method. -/
def call (vm : ViewModel υ) (name : String) (event : Event) : Act υ Unit :=
  (vm.reach nestingLimit).call name event

/-- Delivers an event to the listeners that a node has when it comes. -/
def fire (vm : ViewModel υ) (node : NodeId) (event : Event) : Act υ Unit :=
  (vm.reach nestingLimit).fire node event

end ViewModel

end Bindery
