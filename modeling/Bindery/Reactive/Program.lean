import Bindery.Store.Write

namespace Bindery

/-!
# Programs of reactions

What a reaction does, step by step.  Besides the store a program may look at and change a *host*: a
document, a log, or whatever else reactions have an effect on.

* `Program` — looks, edits of the host, and operations on the store and its watchers, each followed
  by what to do with its result.
* `Program.andThen` — one after another, the second only if the first succeeds.
* `Program.succeed`, `Program.fail`, `Program.set`, … — the shortest programs.
-/

/-- The identifier of a watcher. -/
structure WatcherId where
  val : Nat
deriving DecidableEq

/-- A program over a host of type `σ`. -/
inductive Program (σ : Type) where
  | finish (result : Except Fault Unit)
  /-- Looks at the store and the host. -/
  | look (next : Store → σ → Program σ)
  /-- Changes the host. -/
  | edit (change : σ → σ) (next : Program σ)
  /-- Assigns a value and goes on with what came of it. -/
  | write (path : Path) (value : Json) (next : Except Fault Unit → Program σ)
  /-- Creates a watcher that is kept until it is dropped. -/
  | watch (path : Path) (reaction : Snapshot → Program σ)
      (next : Except Fault WatcherId → Program σ)
  /-- Drops a watcher. -/
  | drop (id : WatcherId) (next : Program σ)
  /-- Makes a watcher look at its path again. -/
  | update (id : WatcherId) (next : Except Fault Unit → Program σ)

namespace Program

variable {σ : Type}

/-- The program that does nothing. -/
def succeed : Program σ := .finish (.ok ())

/-- The program that fails at once. -/
def fail (fault : Fault) : Program σ := .finish (.error fault)

/-- Goes on with `second` if `first` succeeds. -/
def andThen (first second : Program σ) : Program σ :=
  match first with
  | .finish (.ok ()) => second
  | .finish (.error fault) => .finish (.error fault)
  | .look next => .look fun store host => andThen (next store host) second
  | .edit change next => .edit change (andThen next second)
  | .write path value next => .write path value fun result => andThen (next result) second
  | .watch path reaction next =>
    .watch path reaction fun result => andThen (next result) second
  | .drop id next => .drop id (andThen next second)
  | .update id next => .update id fun result => andThen (next result) second

/-- All programs in order, up to the first that fails. -/
def sequence : List (Program σ) → Program σ
  | [] => succeed
  | first :: rest => first.andThen (sequence rest)

/-- Changes the host. -/
def modify (change : σ → σ) : Program σ := .edit change succeed

/-- Goes on with a result, or fails with its fault. -/
def orFail {α : Type} (next : α → Program σ) : Except Fault α → Program σ
  | .ok value => next value
  | .error fault => fail fault

/-- Parses an expression. -/
def withPath (expr : String) (next : Path → Program σ) : Program σ :=
  match Path.parse? expr with
  | some path => next path
  | none => fail (.invalidExpression expr)

/-- Assigns a value at an expression. -/
def set (expr : String) (value : Json) : Program σ :=
  withPath expr fun path => .write path value .finish

end Program

end Bindery
