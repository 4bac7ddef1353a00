import Bindery.ViewModel.Binding

namespace Bindery

/-!
# Compilation

A template is planned as a whole and then bound site by site.  Meanwhile its nodes are staged away
from the root, which gets them back in the end, whatever happens.

* `Compiler` — a view model with the settings and handlers to compile by.
* `Compiler.bindSites`, `Compiler.bindInjected` — binding sites, and the markup that one brought.
* `Compiler.compile` — the watchers of a template.
* `ViewModel.mountOn` — a view model on its element.
-/

/-- What a template is compiled by. -/
structure Compiler (υ : Type) where
  viewModel : ViewModel υ
  settings : Settings
  handlers : Handlers υ

namespace Compiler

variable {υ : Type}

/-- What places are checked against at the moment. -/
def template (c : Compiler υ) (w : World (Page υ)) : Template :=
  ⟨c.settings, c.viewModel.hasMethod, c.viewModel.mount.store? w⟩

/-- The sites below a node, with `depth` levels of markup from data allowed. -/
def planBelow (c : Compiler υ) (depth : Nat) (node : NodeId) : Act υ (List (Site NodeId)) :=
  fun w =>
    let below := ((w.document.node? node).map Tree.children).getD []
    some (((c.template w).plan depth below).map fun sites => sites.map fun
      | .directive label tag d => .directive label.id tag d
      | .interpolation label text => .interpolation label.id text
      | .injected label => .injected label.id, w)

/-- Binds one site; `injected` binds markup that was brought. -/
def bindSite (c : Compiler υ) (injected : NodeId → Act υ (List WatcherId)) :
    Site NodeId → Act υ (List WatcherId)
  | .directive node _ d => c.handlers d.kind c.viewModel node d
  | .interpolation node text =>
    bindInterpolation c.viewModel c.settings.delimiters node text
  | .injected node => injected node

/-- Binds sites in order; if one fails, the watchers of those before it are dropped. -/
def bindSites (c : Compiler υ) (injected : NodeId → Act υ (List WatcherId)) :
    List (Site NodeId) → Act υ (List WatcherId)
  | [] => pure []
  | site :: rest => Act.both (c.bindSite injected site) (bindSites c injected rest)

/-- Binds the content of a node that was brought by data, with `depth` levels of it allowed. -/
def bindInjected (c : Compiler υ) : Nat → NodeId → Act υ (List WatcherId)
  | 0, _ => Step.fail (.injectionTooDeep injectionLimit)
  | depth + 1, node => do
    let sites ← c.planBelow depth node
    c.bindSites (bindInjected c depth) sites

/-- Moves the children of a node to a new container. -/
def stage (root : NodeId) : Act υ NodeId := do
  let staged ← Act.plant .fragment
  let children := (← Step.look).document.childIds root
  Act.editDocument fun document =>
    children.foldl (fun f child => f.append staged child) (document.takeChildren root)
  pure staged

/-- Binds the content of a node. -/
def compile (c : Compiler υ) (root : NodeId) : Act υ (List WatcherId) := do
  let staged ← stage root
  let bound : Act υ (List WatcherId) := do
    let sites ← c.planBelow injectionLimit staged
    c.bindSites (c.bindInjected injectionLimit) sites
  bound.thenAlways (World.editDocument (·.append root staged))

end Compiler

namespace ViewModel

variable {υ : Type}

/-- Mounts a view model: settings that are of no use are refused, and the content of the element, if
there is one, is bound. -/
def mountOn (vm : ViewModel υ) (handlers : Handlers υ) : Act υ (List WatcherId) := do
  Step.ofExcept vm.settings.validate
  match vm.mount with
  | .inert _ => pure []
  | .element root => Compiler.compile ⟨vm, vm.settings, handlers⟩ root

end ViewModel

/-- Drops the view model of a page with its bindings. -/
def World.dropViewModel {υ : Type} (bindings : List WatcherId) (w : World (Page υ)) :
    World (Page υ) :=
  (w.dropAll bindings).editHost fun page => { page with isLive := false }

end Bindery
