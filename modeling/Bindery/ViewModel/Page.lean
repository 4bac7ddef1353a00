import Bindery.Document.Move
import Bindery.Markup.Writer
import Bindery.Reactive.Propagation
import Bindery.Template.Error

namespace Bindery

/-!
# Pages

The host of the reactions of a view model: its document, and whatever its user adds.

* `Listener` — what bindings leave on nodes to wait for events.
* `Event` — an event about a node.
* `Page` — the document, whether the view model is still there, and the user's part.
* `Act` — operations on the data and the page.
-/

/-- What waits on a node for an event. -/
inductive Listener where
  /-- Assigns the form value of the event's target at an expression. -/
  | writeBack (expression : String)
  /-- Calls a method of the view model with the event. -/
  | invoke (method : String)
deriving DecidableEq

/-- An event about a node. -/
structure Event where
  name : String
  target : NodeId
deriving DecidableEq

/-- A document with a view model on it, and a part of type `υ` for the user. -/
structure Page (υ : Type) where
  document : Forest Listener
  /-- Whether the view model has not been dropped. -/
  isLive : Bool
  user : υ

/-- An operation on the data and the page. -/
abbrev Act (υ α : Type) : Type := Step (Page υ) TemplateError α

namespace Page

variable {υ : Type}

/-- Changes the document. -/
def edit (f : Forest Listener → Forest Listener) (p : Page υ) : Page υ :=
  { p with document := f p.document }

/-- Changes the user's part. -/
def editUser (f : υ → υ) (p : Page υ) : Page υ := { p with user := f p.user }

end Page

namespace World

variable {υ : Type}

/-- The document of a page. -/
def document (w : World (Page υ)) : Forest Listener := w.host.document

/-- Changes the document of a page. -/
def editDocument (f : Forest Listener → Forest Listener) (w : World (Page υ)) : World (Page υ) :=
  w.editHost (·.edit f)

/-- The form value of a node. -/
def formValue (w : World (Page υ)) (id : NodeId) : String := (w.document.kind id).value

/-- The markup inside a node. -/
def innerHtml (w : World (Page υ)) (id : NodeId) : String :=
  ((w.document.node? id).map Tree.innerHtml).getD ""

end World

namespace Act

variable {υ α : Type}

/-- An operation that fails only with faults. -/
def ofFault (step : Step (Page υ) Fault α) : Act υ α := step.mapError .fault

/-- Changes the document. -/
def editDocument (f : Forest Listener → Forest Listener) : Act υ Unit :=
  Step.change (World.editDocument f)

/-- Adds a node of a kind. -/
def plant (kind : Kind) : Act υ NodeId := fun w =>
  let (id, document) := w.document.plant kind
  some (.ok id, w.editDocument fun _ => document)

/-- Assigns a value at an expression. -/
def assign (expr : String) (value : Json) : Act υ Unit := ofFault (World.set expr value)

end Act

end Bindery
