import Bindery.Markup.Tree
import Bindery.Template.Marker

namespace Bindery

/-!
# Planning

Before anything is bound, the places to bind are found and checked: directives have to be well
formed, the paths they mention have to resolve, and the methods they call have to exist.

* `Site` — a place to bind.
* `Template` — what checking depends on: the settings, the methods, and the store if there is one.
* `Template.planTrees` — the sites of a row of trees in document order, with a way to check markup
  that comes from data.
* `Template.plan` — the same with such markup nested at most so many times.
-/

/-- How often markup from data may bring further markup from data. -/
def injectionLimit : Nat := 16

/-- A place to bind, on a node with a label. -/
inductive Site (α : Type) where
  | directive (label : α) (tag : String) (directive : Directive)
  /-- A text with markers. -/
  | interpolation (label : α) (template : String)
  /-- The content of an element that a directive fills with markup from data. -/
  | injected (label : α)

/-- What the places of a template are checked against. -/
structure Template where
  settings : Settings
  hasMethod : String → Bool
  /-- The data, if there are any. -/
  store : Option Store

namespace Template

variable {α : Type}

/-- The value at an expression. -/
def valueAt (t : Template) (expr : String) : Except TemplateError Json :=
  match t.store with
  | none => .error .unmounted
  | some store => (store.get expr).mapError .fault

/-- Checks that paths resolve. -/
def checkPaths (t : Template) : List Path → Except TemplateError Unit
  | [] => .ok ()
  | path :: rest =>
    match t.valueAt path.text with
    | .error e => .error e
    | .ok _ => checkPaths t rest

/-- Checks that the markers of a text name paths that resolve. -/
def checkText (t : Template) (text : String) : Except TemplateError Unit :=
  match t.settings.delimiters.paths text with
  | .error fault => .error (.fault fault)
  | .ok paths => t.checkPaths paths

/-- Checks what a directive mentions; the markup that `html` brings is checked by `inject`. -/
def checkDirective (t : Template) (inject : String → Except TemplateError Unit) (d : Directive) :
    Except TemplateError Unit :=
  match d.kind with
  | .on =>
    if t.hasMethod (trimBlanks d.expression) then .ok ()
    else .error (.unknownMethod (trimBlanks d.expression))
  | .model => (t.valueAt d.expression).map fun _ => ()
  | .text => t.checkText d.expression
  | .html =>
    match t.valueAt d.expression with
    | .error e => .error e
    | .ok _ => inject d.expression

/-- Reads an attribute as a directive; an unknown one is skipped unless the settings are strict. -/
def recognize (t : Template) (tag : String) (attr : String × String) :
    Except TemplateError (Option Directive) :=
  match Directive.parse tag attr.1 attr.2 t.settings.lead with
  | .error (.unknownDirective attr element) =>
    if t.settings.strict then .error (.unknownDirective attr element) else .ok none
  | result => result

/-- The directives among the attributes of an element, in order, all checked. -/
def directives (t : Template) (inject : String → Except TemplateError Unit) (tag : String) :
    List (String × String) → Except TemplateError (List Directive)
  | [] => .ok []
  | attr :: rest =>
    match t.recognize tag attr with
    | .error e => .error e
    | .ok none => directives t inject tag rest
    | .ok (some d) =>
      match t.checkDirective inject d with
      | .error e => .error e
      | .ok () => (directives t inject tag rest).map (d :: ·)

/-- The sites of an element itself: its directives and then the markup that one of them brings. -/
def elementSites (label : α) (tag : String) (ds : List Directive) : List (Site α) :=
  ds.map (.directive label tag) ++
    (if ds.any (·.kind = .html) then [.injected label] else [])

mutual

/-- The sites of a tree.  Below an element whose content a directive replaces there are none, and
neither are there any in comments. -/
def planTree (t : Template) (inject : String → Except TemplateError Unit) :
    Tree α → Except TemplateError (List (Site α))
  | .node label (.element tag attrs) children =>
    match t.directives inject tag attrs with
    | .error e => .error e
    | .ok ds =>
      if ds.any (·.kind.ownsContent) then .ok (elementSites label tag ds)
      else (planTrees t inject children).map (elementSites label tag ds ++ ·)
  | .node label (.text data) _ =>
    if t.settings.delimiters.hasMarkers data then
      (t.checkText data).map fun () => [.interpolation label data]
    else .ok []
  | .node _ (.comment _) _ => .ok []
  | .node _ .fragment _ => .ok []

/-- The sites of a row of trees. -/
def planTrees (t : Template) (inject : String → Except TemplateError Unit) :
    List (Tree α) → Except TemplateError (List (Site α))
  | [] => .ok []
  | first :: rest =>
    match planTree t inject first with
    | .error e => .error e
    | .ok sites => (planTrees t inject rest).map (sites ++ ·)

end

/-- Checks the markup that an expression brings now, with `depth` levels of it still allowed. -/
def inject (t : Template) : Nat → String → Except TemplateError Unit
  | 0, _ => .error (.injectionTooDeep injectionLimit)
  | depth + 1, expr =>
    match t.valueAt expr with
    | .error e => .error e
    | .ok value =>
      match readMarkup value.display with
      | .error e => .error (.markup e)
      | .ok trees => (t.planTrees (inject t depth) trees).map fun _ => ()

/-- The sites of a row of trees, with `depth` levels of markup from data allowed. -/
def plan (t : Template) (depth : Nat) (trees : List (Tree α)) :
    Except TemplateError (List (Site α)) :=
  t.planTrees (t.inject depth) trees

end Template

end Bindery
