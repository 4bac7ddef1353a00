import Bindery.Json.Conversion
import Bindery.Script.Formula
import Bindery.Script.Notebook

namespace Bindery

/-!
# Scripted reactions

Reactions written as data.

* `ReactionStep` — a step, which may hang on the text that the reaction was called with.
* `scriptedReaction` — the reaction that logs what it was called with and then takes its steps.
-/

/-- What a step of a reaction does. -/
inductive ReactionAct where
  | set (expr : String) (value : Json)
  /-- Reads one expression and assigns its value at another. -/
  | copy (source target : String)
  /-- Adds one to an integer, modulo `2 ^ 64`. -/
  | increment (expr : String)
  /-- Reads an expression and logs its value. -/
  | get (expr : String)
  | drop (name : String)
  /-- Keeps a new watcher that only logs. -/
  | watch (name expr : String)
  | update (name : String)
  | fail (cause : String)

/-- A step of a reaction, taken only for one text if it has a condition. -/
structure ReactionStep where
  act : ReactionAct
  only : Option String

/-- What a reaction logs when it is called. -/
def reactionEntry (name : String) (text : String) (seen : Snapshot) : Json :=
  .array [.string name, .string text, .string (if seen.isValue then "value" else "node")]

variable {σ : Type} [HasNotebook σ]

/-- Logs an entry and goes on. -/
def Program.record (entry : Json) (next : Program σ) : Program σ :=
  .edit (modifyNotebook (Notebook.record entry)) next

/-- Keeps a watcher under a name and drops the one kept there before. -/
def Program.keep (name : String) (id : WatcherId) : Program σ :=
  .look fun _ host =>
    .edit (modifyNotebook (Notebook.keep name id)) <|
      match (notebook host).watcher? name with
      | none => .succeed
      | some old => .drop old .succeed

/-- The reaction of a watcher that only logs. -/
def loggingReaction (name : String) (seen : Snapshot) : Program σ :=
  .look fun store _ => .record (reactionEntry name (store.render seen) seen) .succeed

/-- The program of one act. -/
def ReactionAct.program : ReactionAct → Program σ
  | set expr value => .set expr value
  | copy source target => .look fun store _ =>
      .orFail (fun value => .set target value) (store.get source)
  | increment expr => .look fun store _ =>
      .orFail (fun value => .set expr (.integer (wrapSigned 64 (value.int?.getD 0 + 1))))
        (store.getAs .int64 expr)
  | get expr => .look fun store _ =>
      .orFail (fun value => .record (.array [.string "get", .string value.compact]) .succeed)
        (store.get expr)
  | drop name => .look fun _ host =>
      match (notebook host).watcher? name with
      | none => .succeed
      | some id => .edit (modifyNotebook (Notebook.forget name)) (.drop id .succeed)
  | watch name expr => .withPath expr fun path =>
      .watch path (loggingReaction name) (.orFail (.keep name))
  | update name => .look fun _ host =>
      match (notebook host).watcher? name with
      | none => .succeed
      | some id => .update id .finish
  | fail cause => .fail (.reaction cause)

/-- The reaction that logs its call and takes its steps in order, up to the first that fails. -/
def scriptedReaction (name : String) (steps : List ReactionStep) (seen : Snapshot) : Program σ :=
  .look fun store _ =>
    let text := store.render seen
    let due := steps.filter fun step => step.only.all (· == text)
    .record (reactionEntry name text seen) (.sequence (due.map fun step => step.act.program))

end Bindery
