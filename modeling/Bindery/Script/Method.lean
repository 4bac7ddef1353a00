import Bindery.Script.StoreStep
import Bindery.ViewModel.Basic

namespace Bindery

/-!
# Scripted methods

Methods of a view model written as data.

* `MethodAct` — what a method does with its view model and the target of the event.
* `scriptedMethod` — the method that does some acts in order, up to the first that fails.
-/

/-- A host whose user has a notebook has one. -/
instance {υ : Type} [HasNotebook υ] : HasNotebook (Page υ) :=
  ⟨fun page => notebook page.user, fun f page => page.editUser (modifyNotebook f)⟩

/-- What a method does. -/
inductive MethodAct where
  /-- Logs the event. -/
  | log
  /-- Logs the value of a member. -/
  | read (key : String)
  | set (key : String) (value : Json)
  /-- Assigns at an expression. -/
  | write (expr : String) (value : Json)
  /-- Adds one to a member, which counts as zero if it is no integer. -/
  | increment (key : String)
  /-- Assigns a member the form value of the target. -/
  | take (key : String)
  /-- Appends the text of a member to the array of texts of another. -/
  | push (list source : String)
  /-- Calls a method with the same event. -/
  | call (name : String)
  /-- More acts, if a member has a certain value. -/
  | cond (key : String) (value : Json) (acts : List MethodAct)
  | setAttr (name value : String)
  | detach
  /-- Delivers another event about the target to the target. -/
  | fire (event : String)
  | fail (cause : String)

instance : Inhabited MethodAct := ⟨.log⟩

/-- The successor of a 64-bit integer, modulo `2 ^ 64`; anything else counts as zero. -/
def Json.succ64 (value : Json) : Json :=
  .integer (wrapSigned 64 (value.int64?.getD 0 + 1))

/-- What a method logs of an event: its name, and the tag and form value of its target. -/
def eventEntry (event : Event) (target : Kind) : Json :=
  .array [.string "event", .string event.name,
    (target.tag?.map Json.string).getD .null, .string target.value]

variable {υ : Type} [HasNotebook υ]

/-- Logs an entry. -/
def Act.record (entry : Json) : Act υ Unit :=
  Step.change fun w => w.editNotes (Notebook.record entry)

namespace MethodAct

mutual

/-- Does an act. -/
def perform (m : Mount) (inner : Reach υ) (event : Event) : MethodAct → Act υ Unit
  | log => fun w => Act.record (eventEntry event (w.document.kind event.target)) w
  | read key => do
    let value ← m.get key
    Act.record (.array [.string "read", .string value.compact])
  | set key value => m.set key value
  | write expr value => Act.assign expr value
  | increment key => m.update key Json.succ64
  | take key => fun w => m.set key (.string (w.formValue event.target)) w
  | push list source => do
    let items ← m.getAs .texts list
    let item ← m.getAs .text source
    m.set list (.array (items.items?.getD [] ++ [item]))
  | call name => inner.call name event
  | cond key value acts => do
    let seen ← m.get key
    if seen.sameData value then performAll m inner event acts else pure ()
  | setAttr name value =>
    Act.editDocument (·.mapKind event.target (Kind.setAttr name value))
  | detach => Act.editDocument (·.detach event.target)
  | fire name => inner.fire event.target ⟨name, event.target⟩
  | fail cause => Step.fail (.fault (.reaction cause))

/-- Does acts in order, up to the first that fails. -/
def performAll (m : Mount) (inner : Reach υ) (event : Event) :
    List MethodAct → Act υ Unit
  | [] => pure ()
  | first :: rest => do
    perform m inner event first
    performAll m inner event rest

end

end MethodAct

/-- The method that does acts in order, up to the first that fails. -/
def scriptedMethod (m : Mount) (acts : List MethodAct) : Method υ := fun inner event =>
  MethodAct.performAll m inner event acts

end Bindery
