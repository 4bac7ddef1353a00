import Bindery.Template.Error

namespace Bindery

/-!
# Directives

An attribute whose name starts with a certain lead is a directive: after the lead come the name of
its kind, a colon with an event if there is one, and a hyphen with anything after it, which is
ignored.

* `DirectiveKind` — the kinds and their names.
* `Directive`, `Directive.parse` — a directive, and how an attribute is read as one.
-/

/-- What a directive does. -/
inductive DirectiveKind where
  /-- Shows a value as markup. -/
  | html
  /-- Ties the value of a form element to a property. -/
  | model
  /-- Calls a method on an event. -/
  | on
  /-- Shows a text with markers. -/
  | text
deriving DecidableEq

namespace DirectiveKind

/-- All kinds. -/
def all : List DirectiveKind := [html, model, on, text]

/-- The name of a kind in an attribute. -/
def name : DirectiveKind → String
  | html => "html"
  | model => "model"
  | on => "on"
  | text => "text"

/-- The kind with a name. -/
def ofName? (name : String) : Option DirectiveKind := all.find? (·.name = name)

/-- Whether a directive of this kind needs an event. -/
def needsEvent : DirectiveKind → Bool
  | on => true
  | _ => false

/-- Whether a directive of this kind replaces the content of its element. -/
def ownsContent : DirectiveKind → Bool
  | html => true
  | text => true
  | _ => false

@[simp] theorem ofName?_name (kind : DirectiveKind) : ofName? kind.name = some kind := by
  cases kind <;> rfl

end DirectiveKind

/-- A directive of an element. -/
structure Directive where
  kind : DirectiveKind
  /-- The whole name of the attribute. -/
  attr : String
  /-- The value of the attribute. -/
  expression : String
  event : Option String
deriving DecidableEq

/-- The rest of a text after a lead that it starts with. -/
def afterLead? : List Char → List Char → Option (List Char)
  | [], cs => some cs
  | _ :: _, [] => none
  | l :: lead, c :: cs => if l = c then afterLead? lead cs else none

namespace Directive

/-- The event after the colon of a directive; an empty one is none. -/
def eventOf (base : List Char) : Option String :=
  match (base.dropWhile (· != ':')).drop 1 with
  | [] => none
  | event => some (String.ofList event)

/-- Reads an attribute of an element; `none` if it does not start with the lead. -/
def parse (element attr expression lead : String) :
    Except TemplateError (Option Directive) :=
  match afterLead? lead.toList attr.toList with
  | none => .ok none
  | some rest =>
    let base := rest.takeWhile (· != '-')
    let name := base.takeWhile (· != ':')
    let event := eventOf base
    if name.isEmpty then .error (.malformedDirective attr)
    else match DirectiveKind.ofName? (String.ofList name) with
      | none => .error (.unknownDirective attr element)
      | some kind =>
        if kind.needsEvent && event.isNone then .error (.missingEventName attr)
        else .ok (some ⟨kind, attr, expression, event⟩)

end Directive

end Bindery
