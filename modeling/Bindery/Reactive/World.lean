import Bindery.Reactive.Program

namespace Bindery

/-!
# Stores with watchers

A watcher ties a path to a reaction.  It remembers the value it observed last, and it is registered
on every property that its first evaluation went through.

* `Watcher`, `World` — a store, its watchers, their registrations, and the host.
* `World.isAlive` — a watcher lives as long as it is kept or its reaction runs.
* `World.subscribers` — the live registrations on a property, oldest first, with repetitions.
* `Step` — operations on a world that may fail, or run out of fuel.
-/

/-- A path with the reaction to its changes. -/
structure Watcher (σ : Type) where
  path : Path
  /-- What was observed last. -/
  baseline : Snapshot
  reaction : Snapshot → Program σ
  /-- Whether somebody keeps it. -/
  isKept : Bool

/-- A store with watchers, over a host of type `σ`. -/
structure World (σ : Type) where
  store : Store
  host : σ
  /-- Every watcher ever made; an identifier is a position in this list. -/
  watchers : List (Watcher σ)
  /-- The registrations, oldest first. -/
  ledger : List (PropertyId × WatcherId)
  /-- The watchers whose reactions are running, innermost first. -/
  running : List WatcherId

/-- An operation on a world: a result or an error with the world it leaves, or `none` when the fuel
does not suffice. -/
def Step (σ ε α : Type) : Type := World σ → Option (Except ε α × World σ)

namespace Step

variable {σ ε α β : Type}

/-- Nothing but a result. -/
def pure (value : α) : Step σ ε α := fun w => some (.ok value, w)

/-- Goes on with the result of the first operation, unless it fails. -/
def bind (first : Step σ ε α) (next : α → Step σ ε β) : Step σ ε β := fun w =>
  match first w with
  | none => none
  | some (.error e, w) => some (.error e, w)
  | some (.ok value, w) => next value w

@[simp] theorem pure_apply (value : α) (w : World σ) :
    (pure value : Step σ ε α) w = some (.ok value, w) := rfl

/-- A result is handed on. -/
@[simp] theorem pure_bind (value : α) (next : α → Step σ ε β) :
    (pure value).bind next = next value := rfl

/-- Going on with nothing but the result changes nothing. -/
@[simp] theorem bind_pure (first : Step σ ε α) : first.bind pure = first := by
  funext w
  unfold bind
  split <;> simp_all

instance : Monad (Step σ ε) where
  pure := Step.pure
  bind := Step.bind

/-- Fails. -/
def fail (e : ε) : Step σ ε α := fun w => some (.error e, w)

/-- Looks at the world. -/
def look : Step σ ε (World σ) := fun w => some (.ok w, w)

/-- Changes the world. -/
def change (f : World σ → World σ) : Step σ ε Unit := fun w => some (.ok (), f w)

/-- A result that is there already. -/
def ofExcept (result : Except ε α) : Step σ ε α := fun w => some (result, w)

/-- The same operation with its errors seen as others. -/
def mapError {δ : Type} (f : ε → δ) (step : Step σ ε α) : Step σ δ α := fun w =>
  (step w).map fun (result, w) => (result.mapError f, w)

/-- Runs a second operation on the world that the first one leaves, also if it fails, and keeps the
result of the first. -/
def thenAlways (step : Step σ ε α) (last : World σ → World σ) : Step σ ε α := fun w =>
  (step w).map fun (result, w) => (result, last w)

end Step

namespace World

variable {σ : Type}

/-- A world without watchers. -/
def new (store : Store) (host : σ) : World σ := ⟨store, host, [], [], []⟩

/-- The watcher with an identifier. -/
def watcher? (w : World σ) (id : WatcherId) : Option (Watcher σ) := w.watchers[id.val]?

/-- Whether the reaction of a watcher is running. -/
def isRunning (w : World σ) (id : WatcherId) : Bool := w.running.contains id

/-- Whether a watcher is kept by somebody or its reaction is running. -/
def isAlive (w : World σ) (id : WatcherId) : Bool :=
  (w.watcher? id).any (·.isKept) || w.isRunning id

/-- The live registrations on a property, oldest first. -/
def subscribers (w : World σ) (property : PropertyId) : List WatcherId :=
  ((w.ledger.filter (·.1 = property)).map (·.2)).filter w.isAlive

/-- The number of live registrations on the property at an expression. -/
def subscriberCount (w : World σ) (expr : String) : Except Fault Nat :=
  (w.store.propertyAt expr).map fun property => (w.subscribers property).length

/-- Whether a watcher is registered on the property at an expression. -/
def isRegistered (w : World σ) (expr : String) (id : WatcherId) : Except Fault Bool :=
  (w.store.propertyAt expr).map fun property => (w.subscribers property).contains id

/-- Changes a watcher. -/
def modifyWatcher (id : WatcherId) (f : Watcher σ → Watcher σ) (w : World σ) : World σ :=
  { w with watchers := w.watchers.modify id.val f }

/-- Records what a watcher observed. -/
def observe (id : WatcherId) (seen : Snapshot) (w : World σ) : World σ :=
  w.modifyWatcher id fun watcher => { watcher with baseline := seen }

/-- Stops keeping a watcher. -/
def drop (id : WatcherId) (w : World σ) : World σ :=
  w.modifyWatcher id fun watcher => { watcher with isKept := false }

/-- Stops keeping some watchers. -/
def dropAll (ids : List WatcherId) (w : World σ) : World σ := ids.foldl (fun w id => w.drop id) w

/-- Marks the reaction of a watcher as running. -/
def enter (id : WatcherId) (w : World σ) : World σ := { w with running := id :: w.running }

/-- Takes back the mark of `enter`. -/
def leave (w : World σ) : World σ := { w with running := w.running.tail }

/-- Changes the host. -/
def editHost (f : σ → σ) (w : World σ) : World σ := { w with host := f w.host }

@[simp] theorem store_observe (id : WatcherId) (seen : Snapshot) (w : World σ) :
    (w.observe id seen).store = w.store := rfl

@[simp] theorem ledger_observe (id : WatcherId) (seen : Snapshot) (w : World σ) :
    (w.observe id seen).ledger = w.ledger := rfl

@[simp] theorem running_observe (id : WatcherId) (seen : Snapshot) (w : World σ) :
    (w.observe id seen).running = w.running := rfl

@[simp] theorem store_drop (id : WatcherId) (w : World σ) : (w.drop id).store = w.store := rfl

@[simp] theorem ledger_drop (id : WatcherId) (w : World σ) : (w.drop id).ledger = w.ledger := rfl

@[simp] theorem running_drop (id : WatcherId) (w : World σ) :
    (w.drop id).running = w.running := rfl

@[simp] theorem store_editHost (f : σ → σ) (w : World σ) : (w.editHost f).store = w.store := rfl

@[simp] theorem watchers_editHost (f : σ → σ) (w : World σ) :
    (w.editHost f).watchers = w.watchers := rfl

@[simp] theorem store_enter (id : WatcherId) (w : World σ) : (w.enter id).store = w.store := rfl

/-- Leaving takes back what entering did. -/
@[simp] theorem leave_enter (id : WatcherId) (w : World σ) : (w.enter id).leave = w := rfl

/-- A watcher lives as long as its reaction runs, kept or not. -/
@[simp] theorem isAlive_enter (id : WatcherId) (w : World σ) : (w.enter id).isAlive id = true := by
  simp [isAlive, isRunning, enter]

/-- Creates a watcher: evaluates its path once, and registers it on every property this goes
through.  Its reaction does not run for the first value.  If the path does not resolve, nothing
stays of the watcher. -/
def watch (path : Path) (reaction : Snapshot → Program σ) (w : World σ) :
    Except Fault WatcherId × World σ :=
  let reading := w.store.read path
  match reading.result with
  | .error fault => (.error fault, w)
  | .ok seen =>
    let id : WatcherId := ⟨w.watchers.length⟩
    (.ok id, { w with
      watchers := w.watchers ++ [⟨path, seen, reaction, true⟩]
      ledger := w.ledger ++ reading.trace.map (·, id) })

end World

end Bindery
