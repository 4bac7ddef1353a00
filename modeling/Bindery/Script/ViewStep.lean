import Bindery.Script.Handler
import Bindery.Script.Place
import Bindery.ViewModel.Compile

namespace Bindery

/-!
# Scripted steps on a view model

* `Bench` — what a session with a view model remembers.
* `Mounted` — a view model with the watchers that mounting it created.
* `ViewStep`, `ViewStep.run` — the steps, and what each does.
-/

/-- The memory of a session with a view model. -/
structure Bench where
  notebook : Notebook
  /-- The roots of the documents. -/
  roots : List NodeId
  /-- The watchers of templates compiled besides the view model's own. -/
  compiled : List WatcherId

instance : HasNotebook Bench := ⟨Bench.notebook, fun f b => { b with notebook := f b.notebook }⟩

/-- A view model with its watchers. -/
structure Mounted where
  viewModel : ViewModel Bench
  bindings : List WatcherId

/-- What a template is compiled by; without settings those of the view model count. -/
structure CompileOptions where
  settings : Option Settings
  handlers : List (DirectiveKind × HandlerAct)

/-- A step on a view model and its documents. -/
inductive ViewStep where
  /-- A step on the store of the view model. -/
  | store (step : StoreStep)
  | get (key : String)
  | getAs (key : String) (shape : Shape)
  | set (key : String) (value : Json)
  /-- Logs the value of a member and assigns another. -/
  | update (key : String) (value : Json)
  | hasMethod (name : String)
  | settings
  /-- Whether there are an element and a store. -/
  | hasElement
  /-- Calls a method with an event about a place or else about a new element. -/
  | call (name event : String) (place : Option Place)
  | fire (place : Place) (event : String)
  /-- Enters a form value. -/
  | enter (place : Place) (value : String)
  | listeners
  | text (place : Place)
  | setAttr (place : Place) (name value : String)
  | detach (place : Place)
  /-- Compiles markup as a new root. -/
  | compile (markup : String) (options : CompileOptions)
  /-- Compiles the content of a node. -/
  | recompile (place : Place) (options : CompileOptions)
  /-- Drops the watchers of compiled templates. -/
  | release
  /-- Drops the view model. -/
  | drop

/-- A session with a view model. -/
abbrev Workshop : Type := World (Page Bench)

namespace World

/-- The roots of the documents. -/
def roots (w : Workshop) : List NodeId := w.host.user.roots

/-- Changes what the session remembers. -/
def editBench (f : Bench → Bench) (w : Workshop) : Workshop := w.editHost (·.editUser f)

/-- Goes on with the node at a place. -/
def withPlace (w : Workshop) (place : Place) (next : NodeId → Reply × Workshop) :
    Reply × Workshop :=
  match w.placed? w.roots place with
  | none => (.absent .node, w)
  | some node => next node

/-- Goes on if the view model is still there. -/
def whileLive (w : Workshop) (next : Reply × Workshop) : Reply × Workshop :=
  if w.host.isLive then next else (.absent .viewModel, w)

/-- Runs an operation and replies to its result. -/
def act {α : Type} (w : Workshop) (reply : α → Reply) (operation : Act Bench α) :
    Reply × Workshop :=
  w.settle (.ofTemplate reply) (operation w)

/-- The paths of watchers. -/
def pathTexts (w : Workshop) (ids : List WatcherId) : List String :=
  ids.filterMap fun id => (w.watcher? id).map (·.path.text)

/-- Compiles the content of a node and keeps the watchers. -/
def compileAt (vm : ViewModel Bench) (options : CompileOptions) (node : NodeId) (w : Workshop) :
    Reply × Workshop :=
  let compiler : Compiler Bench :=
    ⟨vm, options.settings.getD vm.settings, Handlers.builtin.withActs options.handlers⟩
  match compiler.compile node w with
  | none => (.exhausted, w)
  | some (.error e, w) => (.template e, w)
  | some (.ok ids, w) =>
    (.texts (w.pathTexts ids), w.editBench fun b => { b with compiled := b.compiled ++ ids })

/-- The listeners below the roots. -/
def hearings (w : Workshop) : List (List Hearing) :=
  w.roots.map fun root => ((w.document.node? root).map Tree.heard).getD []

end World

/-- Elements with the numbers of their listeners, as data. -/
def Hearing.list (found : List Hearing) : Json :=
  .array <| found.map fun hearing =>
    .array [.string hearing.tag, .array <| hearing.counts.map fun (event, count) =>
      .array [.string event, .integer count]]

/-- The reply that lists listeners, root by root. -/
def Reply.hearings (found : List (List Hearing)) : Reply := .ok (.array (found.map Hearing.list))

/-- The reply that shows settings. -/
def Reply.settings (s : Settings) : Reply :=
  .ok <| .object [("prefix", .string s.lead), ("open", .string s.opening),
    ("close", .string s.closing), ("strict", .bool s.strict)]

/-- Takes a step. -/
def ViewStep.run (m : Mounted) (step : ViewStep) (w : Workshop) : Reply × Workshop :=
  let vm := m.viewModel
  match step with
  | .store step =>
    match vm.mount with
    | .inert _ => (.absent .viewModel, w)
    | .element _ => step.run w
  | .get key => w.whileLive <| w.act .data (vm.mount.get key)
  | .getAs key shape => w.whileLive <| w.act .ok (vm.mount.getAs shape key)
  | .set key value => w.whileLive <| w.act (fun _ => .null) (vm.mount.set key value)
  | .update key value => w.whileLive <| w.act (fun _ => .null) do
      let old ← vm.mount.get key
      Act.record (.array [.string "old", .string old.compact])
      vm.mount.set key value
  | .hasMethod name => w.whileLive (.ok (.bool (vm.hasMethod name)), w)
  | .settings => w.whileLive (.settings vm.settings, w)
  | .hasElement =>
    let mounted := vm.mount.isElement
    w.whileLive (.ok (.array [.bool mounted, .bool mounted]), w)
  | .call name event place =>
    match place with
    | none => w.whileLive <| w.act (fun _ => .null) do
        let target ← Act.plant (.element "none" [])
        vm.call name ⟨event, target⟩
    | some place => w.withPlace place fun target =>
        w.whileLive <| w.act (fun _ => .null) (vm.call name ⟨event, target⟩)
  | .fire place event => w.withPlace place fun node =>
      w.act (fun _ => .null) (vm.fire node ⟨event, node⟩)
  | .enter place value => w.withPlace place fun node =>
      let entered := w.editDocument (·.mapKind node (Kind.setAttr "value" value))
      match vm.fire node ⟨"input", node⟩ entered with
      | none => (.exhausted, entered)
      | some (.error e, w) => (.template e, w)
      | some (.ok (), w) => (.ok (.string (w.formValue node)), w)
  | .listeners => (.hearings w.hearings, w)
  | .text place => w.withPlace place fun node =>
      let text := ((w.document.node? node).map Tree.textContent).getD []
      (.ok (.string (String.ofList text)), w)
  | .setAttr place name value => w.withPlace place fun node =>
      (.null, w.editDocument (·.mapKind node (Kind.setAttr name value)))
  | .detach place => w.withPlace place fun node =>
      (.null, w.editDocument (·.detach node))
  | .compile markup options => w.whileLive <|
      match w.document.plantMarkup "div" markup with
      | .error e => (.markup e, w)
      | .ok (root, document) =>
        let w := w.editDocument fun _ => document
        (w.editBench fun b => { b with roots := b.roots ++ [root] }).compileAt vm options root
  | .recompile place options => w.withPlace place fun node =>
      w.whileLive (w.compileAt vm options node)
  | .release =>
    let ids := w.host.user.compiled
    (.count ids.length,
      (w.dropAll ids).editBench fun b => { b with compiled := [] })
  | .drop => (.ok (.bool false), w.dropViewModel m.bindings)

end Bindery
