import Bindery.Reactive.Propagation
import Bindery.Script.Reaction
import Bindery.Script.Reply

namespace Bindery

/-!
# Scripted steps on a store

* `StoreStep` — the steps.
* `StoreStep.run` — what a step does to a world whose host has a notebook.
* `storeSession` — all steps in order, each with its reply, what it logged and the data after it.
-/

/-- A step on a store and its watchers. -/
inductive StoreStep where
  | get (expr : String)
  | getAs (expr : String) (shape : Shape)
  | set (expr : String) (value : Json)
  | render (expr : String)
  | json
  | keys
  | count
  | computedNames
  | isComputed (name : String)
  | define (name : String) (formula : Formula)
  | subscribers (expr : String)
  | registered (expr name : String)
  | watch (name expr : String) (steps : List ReactionStep)
  | watcher (name : String)
  | update (name : String)
  | drop (name : String)
  | snap (name expr : String)
  | snapRoot (name : String)
  | snapEq (first second : String)
  | snapValue (name : String)
  /-- Puts a watcher on the board. -/
  | post (name : String)
  /-- How many live watchers are on the board. -/
  | board
  | onBoard (name : String)
  /-- Notifies the watchers on the board. -/
  | notifyBoard

/-- Whether a step is one after which the data are shown. -/
def StoreStep.showsData : StoreStep → Bool
  | .set _ _ => true
  | .watch _ _ _ => true
  | .update _ => true
  | .drop _ => true
  | .notifyBoard => true
  | _ => false

variable {σ : Type} [HasNotebook σ]

namespace World

/-- The notebook of a world. -/
def notes (w : World σ) : Notebook := notebook w.host

/-- The world with its notebook changed. -/
def editNotes (f : Notebook → Notebook) (w : World σ) : World σ := w.editHost (modifyNotebook f)

/-- The reply to what an operation comes to. -/
def settle {ε α : Type} (w : World σ) (reply : Except ε α → Reply) :
    Option (Except ε α × World σ) → Reply × World σ
  | none => (.exhausted, w)
  | some (result, after) => (reply result, after)

/-- Goes on with the watcher kept under a name. -/
def withWatcher (w : World σ) (name : String)
    (next : WatcherId → Watcher σ → Reply × World σ) : Reply × World σ :=
  match w.notes.watcher? name with
  | none => (.absent .watcher, w)
  | some id =>
    match w.watcher? id with
    | none => (.absent .watcher, w)
    | some watcher => next id watcher

/-- Goes on with the snapshot kept under a name. -/
def withSnapshot (w : World σ) (name : String) (reply : Snapshot → Reply) : Reply × World σ :=
  match w.notes.snapshots.lookup name with
  | none => (.absent .snapshot, w)
  | some seen => (reply seen, w)

/-- Keeps a watcher under a name and drops the one kept there before. -/
def keepWatcher (name : String) (id : WatcherId) (w : World σ) : World σ :=
  let kept := w.editNotes (Notebook.keep name id)
  match w.notes.watcher? name with
  | none => kept
  | some old => kept.drop old

/-- What a kept watcher shows: its path and the text of what it observed last. -/
def watcherTexts (w : World σ) (watcher : Watcher σ) : List Json :=
  [.string watcher.path.text, .string (w.store.render watcher.baseline)]

/-- Creates a watcher with a scripted reaction and keeps it. -/
def watchScripted (name expr : String) (steps : List ReactionStep) (w : World σ) :
    Reply × World σ :=
  match Path.parse? expr with
  | none => (.fault (.invalidExpression expr), w)
  | some path =>
    match w.watch path (scriptedReaction name steps) with
    | (.error fault, w) => (.fault fault, w)
    | (.ok id, w) =>
      let w := w.keepWatcher name id
      (match w.watcher? id with
        | some watcher => .ok (.array (w.watcherTexts watcher))
        | none => .absent .watcher, w)

/-- Reads an expression and keeps the snapshot. -/
def snapScripted (name expr : String) (w : World σ) : Reply × World σ :=
  match Path.parse? expr with
  | none => (.fault (.invalidExpression expr), w)
  | some path =>
    match (w.store.read path).result with
    | .error fault => (.fault fault, w)
    | .ok seen =>
      (.ok (.string (if seen.isValue then "value" else "node")),
        w.editNotes (Notebook.keepSnapshot name seen))

/-- The watchers on the board that are alive. -/
def liveBoard (w : World σ) : List WatcherId := w.notes.board.filter w.isAlive

end World

/-- Takes a step. -/
def StoreStep.run (step : StoreStep) (w : World σ) : Reply × World σ :=
  match step with
  | .get expr => (.ofExcept .data (w.store.get expr), w)
  | .getAs expr shape => (.ofExcept .data (w.store.getAs shape expr), w)
  | .set expr value => w.settle (.ofExcept fun _ => .data value) (World.set expr value w)
  | .render expr =>
    (match Path.parse? expr with
      | none => .fault (.invalidExpression expr)
      | some path =>
        .ofExcept (fun seen => .ok (.string (w.store.render seen))) (w.store.read path).result, w)
  | .json => (.data w.store.toJson, w)
  | .keys => (.texts w.store.keys, w)
  | .count => (.count w.store.propertyCount, w)
  | .computedNames => (.texts w.store.computedNames, w)
  | .isComputed name => (.ok (.bool (w.store.isComputed name)), w)
  | .define name formula =>
    (.null, { w with store := w.store.define name formula.derivation })
  | .subscribers expr => (.ofExcept .count (w.subscriberCount expr), w)
  | .registered expr name => w.withWatcher name fun id _ =>
      (.ofExcept (fun b => .ok (.bool b)) (w.isRegistered expr id), w)
  | .watch name expr steps => w.watchScripted name expr steps
  | .watcher name => w.withWatcher name fun _ watcher =>
      (.ok (.array (w.watcherTexts watcher ++ [.bool watcher.baseline.isValue])), w)
  | .update name => w.withWatcher name fun id _ =>
      w.settle (.ofExcept fun _ => .null) (World.update id w)
  | .drop name =>
    match w.notes.watcher? name with
    | none => (.ok (.bool false), w)
    | some id => (.ok (.bool true), (w.editNotes (Notebook.forget name)).drop id)
  | .snap name expr => w.snapScripted name expr
  | .snapRoot name =>
    (.null, w.editNotes (Notebook.keepSnapshot name (.composite w.store.root)))
  | .snapEq first second =>
    match w.notes.snapshots.lookup first, w.notes.snapshots.lookup second with
    | some a, some b => (.ok (.bool (a.strictEq b)), w)
    | _, _ => (.absent .snapshot, w)
  | .snapValue name => w.withSnapshot name fun seen =>
      .ok (.array [.string (w.store.valueOf seen).compact, .string (w.store.render seen)])
  | .post name => w.withWatcher name fun id _ =>
      let board := w.liveBoard ++ [id]
      (.count board.length, w.editNotes fun notes => { notes with board })
  | .board =>
    (.ok (.array [.integer w.liveBoard.length, .bool w.liveBoard.isEmpty]), w)
  | .onBoard name => w.withWatcher name fun id _ =>
      (.ok (.bool (w.liveBoard.contains id)), w)
  | .notifyBoard => w.settle (.ofExcept fun _ => .null) (World.notifyAll w.notes.board w)

/-- What a step of a session on a store shows. -/
structure StoreRecord where
  reply : Reply
  log : List Json
  /-- The data and the number of properties after the step, for the steps that show them. -/
  data : Option (Json × Nat)

/-- The record of a step, and the world after it with an empty log. -/
def StoreStep.record (step : StoreStep) (w : World σ) : StoreRecord × World σ :=
  let (reply, w) := step.run w
  let data := if step.showsData then some (w.store.toJson, w.store.propertyCount) else none
  (⟨reply, w.notes.log, data⟩, w.editNotes Notebook.clear)

/-- The records of steps taken in order. -/
def StoreStep.runAll : List StoreStep → World σ → List StoreRecord
  | [], _ => []
  | step :: rest, w =>
    let (record, w) := step.record w
    record :: runAll rest w

/-- A store with the members that some formulas define, in order. -/
def Store.withFormulas (data : Json) (computed : List (String × Formula)) : Store :=
  computed.foldl (fun store (name, formula) => store.define name formula.derivation)
    (Store.ofJson data)

/-- A session on a store: the data it starts with, and the records of its steps. -/
def storeSession (data : Json) (computed : List (String × Formula)) (steps : List StoreStep) :
    Json × List StoreRecord :=
  ((Store.ofJson data).toJson,
    StoreStep.runAll steps (World.new (Store.withFormulas data computed) Notebook.empty))

end Bindery
