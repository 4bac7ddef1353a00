import Bindery.Reactive.World

namespace Bindery

/-!
# The notebook of a session

What a session of scripted steps remembers besides the data.

* `Notebook` — the log, the watchers and snapshots kept under names, and a list of watchers apart
  from any property.
* `HasNotebook` — hosts with a notebook in them.
-/

/-- The memory of a session. -/
structure Notebook where
  /-- What was logged, oldest first. -/
  log : List Json
  /-- The watchers kept under names. -/
  kept : List (String × WatcherId)
  /-- The snapshots kept under names. -/
  snapshots : List (String × Snapshot)
  /-- Watchers registered apart from any property, oldest first. -/
  board : List WatcherId

namespace Notebook

/-- Nothing to remember. -/
def empty : Notebook := ⟨[], [], [], []⟩

/-- Logs an entry. -/
def record (entry : Json) (n : Notebook) : Notebook := { n with log := n.log ++ [entry] }

/-- The notebook with an empty log. -/
def clear (n : Notebook) : Notebook := { n with log := [] }

/-- An association with a name bound anew. -/
def bindName {α : Type} (name : String) (value : α) (names : List (String × α)) :
    List (String × α) :=
  (name, value) :: names.filter (·.1 != name)

/-- Keeps a watcher under a name. -/
def keep (name : String) (id : WatcherId) (n : Notebook) : Notebook :=
  { n with kept := bindName name id n.kept }

/-- Forgets the watcher under a name. -/
def forget (name : String) (n : Notebook) : Notebook :=
  { n with kept := n.kept.filter (·.1 != name) }

/-- Keeps a snapshot under a name. -/
def keepSnapshot (name : String) (seen : Snapshot) (n : Notebook) : Notebook :=
  { n with snapshots := bindName name seen n.snapshots }

/-- The watcher kept under a name. -/
def watcher? (n : Notebook) (name : String) : Option WatcherId := n.kept.lookup name

end Notebook

/-- Hosts that contain a notebook. -/
class HasNotebook (σ : Type) where
  /-- The notebook of a host. -/
  notebook : σ → Notebook
  /-- The host with its notebook changed. -/
  modifyNotebook : (Notebook → Notebook) → σ → σ

export HasNotebook (notebook modifyNotebook)

instance : HasNotebook Notebook := ⟨id, fun f n => f n⟩

end Bindery
