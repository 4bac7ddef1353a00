import Bindery.Script.Method
import Bindery.ViewModel.Binding

namespace Bindery

/-!
# Scripted handlers

Handlers of directives that create no watchers.

* `HandlerAct` — what such a handler does.
* `Handlers.withActs` — handlers with some kinds of directives taken over.
-/

/-- What a handler does. -/
inductive HandlerAct where
  /-- Appends the text of a member in capitals. -/
  | shout
  /-- Notes the attribute and the event of the directive on the node. -/
  | mark
  /-- Adds one to the member `n`. -/
  | bump
  | fail

variable {υ : Type}

/-- A text with its ASCII letters in capitals. -/
def capitals (text : String) : String := String.ofList (text.toList.map Char.toUpper)

namespace HandlerAct

/-- Does what a handler does for a directive on a node. -/
def perform (vm : ViewModel υ) (node : NodeId) (d : Directive) : HandlerAct → Act υ Unit
  | shout => do
    let value ← vm.mount.get (trimBlanks d.expression)
    let text ← Act.plant (.text (capitals (value.text?.getD "")))
    Act.editDocument (·.append node text)
  | mark =>
    let note := d.attr ++ "|" ++ d.event.getD ""
    Act.editDocument (·.mapKind node (Kind.setAttr "data-bound" note))
  | bump => vm.mount.update "n" Json.succ64
  | fail => Step.fail (.fault (.reaction d.expression))

/-- The handler of an act. -/
def handler (act : HandlerAct) : Handler υ := fun vm node d =>
  Act.unwatched (act.perform vm node d)

end HandlerAct

/-- Handlers with some kinds of directives taken over; the last act for a kind counts. -/
def Handlers.withActs (acts : List (DirectiveKind × HandlerAct)) (h : Handlers υ) : Handlers υ :=
  acts.foldl (fun h (kind, act) => h.replace kind act.handler) h

end Bindery
