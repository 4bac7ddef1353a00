import Bindery.ViewModel.Basic

namespace Bindery

/-!
# Bindings

What each kind of site does when it is bound: it shows the present value once, and creates the
watchers that keep showing it.

* `Act.both` — creating watchers in two parts; when the second fails, those of the first are
  dropped.
* `showMarkup`, `showValue`, `showText` — the reactions.
* `bindHtml`, `bindModel`, `bindText`, `bindOn`, `bindInterpolation` — the bindings.
* `Handlers` — the binding of each kind of directive; `Handlers.builtin` are those above.
-/

variable {υ : Type}

/-- One binding after the other; if the second fails, the watchers of the first are dropped. -/
def Act.both (first second : Act υ (List WatcherId)) : Act υ (List WatcherId) := fun w =>
  match first w with
  | none => none
  | some (.error e, w) => some (.error e, w)
  | some (.ok ids, w) =>
    match second w with
    | none => none
    | some (.error e, w) => some (.error e, w.dropAll ids)
    | some (.ok more, w) => some (.ok (ids ++ more), w)

/-- An operation that creates no watchers. -/
def Act.unwatched (act : Act υ Unit) : Act υ (List WatcherId) := do
  act
  pure []

/-- Creates a watcher of an expression and goes on with what it saw; if that fails, the watcher is
dropped. -/
def watchExpression (expr : String) (reaction : Snapshot → Program (Page υ))
    (next : Snapshot → Act υ Unit) : Act υ (List WatcherId) := fun w =>
  match Path.parse? expr with
  | none => some (.error (.fault (.invalidExpression expr)), w)
  | some path =>
    match w.watch path reaction with
    | (.error fault, w) => some (.error (.fault fault), w)
    | (.ok id, w) =>
      let seen := ((w.watcher? id).map Watcher.baseline).getD (.value .null)
      match next seen w with
      | none => none
      | some (.error e, w) => some (.error e, w.drop id)
      | some (.ok (), w) => some (.ok [id], w)

/-- Replaces the content of a node by the markup of a value. -/
def showMarkup (node : NodeId) (seen : Snapshot) : Program (Page υ) :=
  .look fun store page =>
    match page.document.setInner node (store.render seen) with
    | .error e => .fail (TemplateError.markup e).toFault
    | .ok document => .modify (·.edit fun _ => document)

/-- Sets the form value of a node to the text of a value. -/
def showValue (node : NodeId) (seen : Snapshot) : Program (Page υ) :=
  .look fun store _ =>
    .modify (·.edit (·.mapKind node (Kind.setAttr "value" (store.render seen))))

/-- Writes a text with its markers replaced. -/
def showText (marks : Delimiters) (template : String)
    (write : String → Forest Listener → Forest Listener) (_ : Snapshot) : Program (Page υ) :=
  .look fun store _ =>
    .orFail (fun text => .modify (·.edit (write text))) (marks.render template store)

/-- Shows a value as the markup inside a node. -/
def bindHtml (vm : ViewModel υ) (node : NodeId) (d : Directive) : Act υ (List WatcherId) := do
  let _ ← vm.mount.store
  watchExpression d.expression (showMarkup node) fun seen w =>
    match w.document.setInner node (w.store.render seen) with
    | .error e => some (.error (.markup e), w)
    | .ok document => some (.ok (), w.editDocument fun _ => document)

/-- Shows a value as the form value of a node, and assigns what is entered there. -/
def bindModel (vm : ViewModel υ) (node : NodeId) (d : Directive) : Act υ (List WatcherId) := do
  let _ ← vm.mount.store
  watchExpression d.expression (showValue node) fun seen w =>
    let text := w.store.render seen
    some (.ok (), w.editDocument fun document =>
      (document.listen node "input" (.writeBack d.expression)).mapKind node
        (Kind.setAttr "value" text))

/-- One watcher for each path of some. -/
def watchPaths (reaction : Snapshot → Program (Page υ)) : List Path → Act υ (List WatcherId)
  | [] => pure []
  | path :: rest =>
    Act.both (watchExpression path.text reaction fun _ => pure ())
      (watchPaths reaction rest)

/-- Shows a text with markers by a way to write it: one watcher for each of its paths, and each
writes the whole text again. -/
def bindTemplate (vm : ViewModel υ) (marks : Delimiters) (template : String)
    (write : String → Forest Listener → Forest Listener) : Act υ (List WatcherId) := do
  let _ ← vm.mount.store
  let paths ← Step.ofExcept ((marks.paths template).mapError .fault)
  Act.both (watchPaths (showText marks template write) paths) <| Act.unwatched fun w =>
    match marks.render template w.store with
    | .error fault => some (.error (.fault fault), w)
    | .ok text => some (.ok (), w.editDocument (write text))

/-- Shows a text with markers as the content of a node, with the marks of the view model. -/
def bindText (vm : ViewModel υ) (node : NodeId) (d : Directive) : Act υ (List WatcherId) :=
  bindTemplate vm vm.settings.delimiters d.expression fun text document =>
    document.setText node text

/-- Calls a method on an event. -/
def bindOn (node : NodeId) (d : Directive) : Act υ (List WatcherId) := Act.unwatched <|
  match d.event with
  | none => Step.fail (.missingEventName d.attr)
  | some event => Act.editDocument fun document =>
      document.listen node event (.invoke (trimBlanks d.expression))

/-- Keeps a text with markers up to date. -/
def bindInterpolation (vm : ViewModel υ) (marks : Delimiters) (node : NodeId)
    (template : String) : Act υ (List WatcherId) :=
  bindTemplate vm marks template fun text document =>
    document.mapKind node (Kind.setData text)

/-- How a directive is bound. -/
abbrev Handler (υ : Type) : Type := ViewModel υ → NodeId → Directive → Act υ (List WatcherId)

/-- The handler of each kind of directive. -/
abbrev Handlers (υ : Type) : Type := DirectiveKind → Handler υ

namespace Handlers

/-- The bindings of this module. -/
def builtin : Handlers υ
  | .html => bindHtml
  | .model => bindModel
  | .on => fun _ => bindOn
  | .text => bindText

/-- The handlers with one of them replaced. -/
def replace (kind : DirectiveKind) (handler : Handler υ) (h : Handlers υ) : Handlers υ :=
  fun k => if k = kind then handler else h k

end Handlers

end Bindery
