import Bindery.Reactive.World

namespace Bindery

/-!
# Propagation of changes

A write notifies the watchers registered on the property it changes, oldest registration first.  A
notified watcher evaluates its path again and, if it sees something else than before, reacts; the
reaction may write again.  A watcher whose reaction is already running only records what it sees.

* `World.refresh` — what a watcher does before its reaction.
* `Program.exec`, `World.notify`, `World.assign` — running programs, notifying watchers and writing,
  each with a way to update a watcher.
* `World.updateAt` — updating a watcher with reactions nested at most so many deep.
* `World.update`, `World.write`, … — the operations from outside, with a depth that suffices as long
  as reactions create no watchers that go on reacting.
-/

/-- How a watcher looks at its path again, given by the fuel for it. -/
abbrev Updater (σ : Type) : Type := WatcherId → Step σ Fault Unit

/-- What looking again leads to. -/
inductive Refreshed (σ : Type) where
  /-- Nothing has to run. -/
  | settled (result : Except Fault Unit) (world : World σ)
  /-- The new value is recorded, and the reaction has to run. -/
  | reacts (reaction : Program σ) (world : World σ)

namespace World

variable {σ : Type}

/-- Evaluates the path of a watcher again.  An equal value is no change; any other is recorded, and
calls for the reaction unless it is running already. -/
def refresh (id : WatcherId) (w : World σ) : Refreshed σ :=
  match w.watcher? id with
  | none => .settled (.ok ()) w
  | some watcher =>
    match (w.store.read watcher.path).result with
    | .error fault => .settled (.error fault) w
    | .ok seen =>
      if seen.strictEq watcher.baseline then .settled (.ok ()) w
      else if w.isRunning id then .settled (.ok ()) (w.observe id seen)
      else .reacts (watcher.reaction seen) (w.observe id seen)

/-- Updates the watchers of a list that are still alive when their turn comes; the first fault ends
it. -/
def notify (update : Updater σ) : List WatcherId → Step σ Fault Unit
  | [] => Step.pure ()
  | id :: rest => fun w =>
    if w.isAlive id then
      match update id w with
      | none => none
      | some (.error fault, w) => some (.error fault, w)
      | some (.ok (), w) => notify update rest w
    else notify update rest w

/-- Assigns a value and, if that replaced the content of a property, notifies its subscribers.  What
was written stays written, also if one of them fails. -/
def assign (update : Updater σ) (path : Path) (value : Json) : Step σ Fault Unit := fun w =>
  match w.store.assign path value with
  | .error fault => some (.error fault, w)
  | .ok (.unchanged, _) => some (.ok (), w)
  | .ok (.added, store) => some (.ok (), { w with store })
  | .ok (.replaced property, store) =>
    notify update (w.subscribers property) { w with store }

end World

/-- Runs a program. -/
def Program.exec {σ : Type} (update : Updater σ) : Program σ → Step σ Fault Unit
  | .finish result => fun w => some (result, w)
  | .look next => fun w => exec update (next w.store w.host) w
  | .edit change next => fun w => exec update next (w.editHost change)
  | .write path value next => fun w =>
    match World.assign update path value w with
    | none => none
    | some (result, w) => exec update (next result) w
  | .watch path reaction next => fun w =>
    let (result, w) := w.watch path reaction
    exec update (next result) w
  | .drop id next => fun w => exec update next (w.drop id)
  | .update id next => fun w =>
    match (if w.isAlive id then update id w else some (.ok (), w)) with
    | none => none
    | some (result, w) => exec update (next result) w

namespace World

variable {σ : Type}

/-- Updates a watcher, with at most `depth` reactions running one inside the other. -/
def updateAt : Nat → Updater σ
  | depth, id => fun w =>
    match w.refresh id with
    | .settled result w => some (result, w)
    | .reacts reaction w =>
      match depth with
      | 0 => none
      | depth + 1 =>
        (reaction.exec (updateAt depth) (w.enter id)).map fun (result, w) => (result, w.leave)

section updateAt

variable {w w' : World σ} {id : WatcherId}

/-- An update that calls no reaction is over. -/
theorem updateAt_settled {result : Except Fault Unit} (depth : Nat)
    (h : w.refresh id = .settled result w') : updateAt depth id w = some (result, w') := by
  unfold updateAt
  rw [h]

/-- Otherwise the reaction runs, one level further down, and its watcher leaves it in the end. -/
theorem updateAt_reacts {reaction : Program σ} (depth : Nat)
    (h : w.refresh id = .reacts reaction w') : updateAt (depth + 1) id w =
      (reaction.exec (updateAt depth) (w'.enter id)).map fun (result, w) => (result, w.leave) := by
  unfold updateAt
  rw [h]

/-- An update that ends has looked again and had nothing to run, or its reaction ended one level
deeper. -/
theorem updateAt_cases {depth : Nat} {result : Except Fault Unit}
    (h : updateAt depth id w = some (result, w')) :
    w.refresh id = .settled result w' ∨
      ∃ reaction recorded inner left, depth = inner + 1 ∧ w.refresh id = .reacts reaction recorded ∧
        reaction.exec (updateAt inner) (recorded.enter id) = some (result, left) ∧
          w' = left.leave := by
  unfold updateAt at h
  cases hrefresh : w.refresh id with
  | settled ended settled =>
    rw [hrefresh] at h
    cases h
    exact .inl rfl
  | reacts reaction recorded =>
    rw [hrefresh] at h
    cases depth with
    | zero => cases h
    | succ inner =>
      obtain ⟨⟨ended, left⟩, hexec, hleft⟩ := Option.map_eq_some_iff.1 h
      cases hleft
      exact .inr ⟨reaction, recorded, inner, left, rfl, rfl, hexec, rfl⟩

end updateAt

/-- A depth of nesting for operations from outside: the running reactions belong to different
watchers, and one that a reaction creates adds at most itself if it does not go on reacting. -/
def depth (w : World σ) : Nat := w.watchers.length + 1

/-- Updates a watcher. -/
def update (id : WatcherId) : Step σ Fault Unit := fun w => updateAt w.depth id w

/-- Assigns a value at a path. -/
def write (path : Path) (value : Json) : Step σ Fault Unit := fun w =>
  assign (updateAt w.depth) path value w

/-- Assigns a value at an expression. -/
def set (expr : String) (value : Json) : Step σ Fault Unit := fun w =>
  match Path.parse? expr with
  | none => some (.error (.invalidExpression expr), w)
  | some path => write path value w

/-- Updates the watchers of a list. -/
def notifyAll (ids : List WatcherId) : Step σ Fault Unit := fun w =>
  notify (updateAt w.depth) ids w

end World

end Bindery
