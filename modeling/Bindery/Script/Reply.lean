import Bindery.Reactive.World
import Bindery.Template.Error

namespace Bindery

/-!
# Replies to scripted steps

* `Reply` — what a step comes to: a value, an error of some part of the library, or the remark that
  the step names something that is not there.
-/

/-- What a step may name without its being there. -/
inductive Absent where
  | watcher
  | snapshot
  | node
  | viewModel
deriving DecidableEq

/-- What a step comes to. -/
inductive Reply where
  | ok (value : Json)
  | fault (fault : Fault)
  | template (error : TemplateError)
  | markup (error : MarkupError)
  | absent (what : Absent)
  /-- The nesting of reactions or events went beyond all bounds. -/
  | exhausted

namespace Reply

/-- The reply that is null. -/
def null : Reply := .ok .null

/-- A number. -/
def count (n : Nat) : Reply := .ok (.integer n)

/-- A list of texts. -/
def texts (items : List String) : Reply := .ok (.array (items.map .string))

/-- Data as JSON text. -/
def data (value : Json) : Reply := .ok (.string value.compact)

/-- The reply to a result. -/
def ofExcept {α : Type} (reply : α → Reply) : Except Fault α → Reply
  | .ok value => reply value
  | .error cause => .fault cause

/-- The reply to a result. -/
def ofTemplate {α : Type} (reply : α → Reply) : Except TemplateError α → Reply
  | .ok value => reply value
  | .error cause => .template cause

end Reply

end Bindery
