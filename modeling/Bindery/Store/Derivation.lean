import Bindery.Fault
import Bindery.Json.Conversion

namespace Bindery

/-!
# Derivations

How a computed member gets its value: a program that reads, decides by what it read, and ends with
a value or a fault.

* `Derivation` — such programs; a read is either tracked or not.
* `Derivation.bind` — one after another.
* `Derivation.get`, `Derivation.getAs` — a tracked read, of any value or of a given type.
-/

/-- A program of reads. -/
inductive Derivation where
  | done (result : Except Fault Json)
  /-- Reads an expression; only a tracked read makes the reader depend on what it touches. -/
  | read (tracked : Bool) (expr : String) (next : Except Fault Json → Derivation)

namespace Derivation

/-- Ends with a value. -/
def pure (value : Json) : Derivation := .done (.ok value)

/-- Ends with a fault. -/
def fail (fault : Fault) : Derivation := .done (.error fault)

/-- Goes on with the value of the first program; a fault of it is the fault of the whole. -/
def bind (next : Json → Derivation) : Derivation → Derivation
  | .done (.ok value) => next value
  | .done (.error fault) => .done (.error fault)
  | .read tracked expr rest => .read tracked expr fun result => bind next (rest result)

/-- A tracked read. -/
def get (expr : String) : Derivation := .read true expr .done

/-- A read that leaves no dependency. -/
def peek (expr : String) : Derivation := .read false expr .done

/-- A tracked read of a value of a type. -/
def getAs (shape : Shape) (expr : String) : Derivation :=
  (get expr).bind fun value =>
    if shape.admits value then pure value else fail (.conversion expr)

end Derivation

end Bindery
