import Bindery.Script.ViewStep

namespace Bindery

/-!
# Sessions with a view model

* `ViewScript` — a view model written as data, with steps on it.
* `ViewState` — what a session shows after each step.
* `ViewScript.play` — mounts the view model and takes the steps.
-/

/-- A view model written as data, with steps on it. -/
structure ViewScript where
  /-- The content of the element, if there is to be one. -/
  markup : Option String
  /-- The tag of the element. -/
  tag : String
  data : Json
  computed : List (String × Formula)
  methods : List (String × List MethodAct)
  settings : Except TemplateError Settings
  handlers : List (DirectiveKind × HandlerAct)
  steps : List ViewStep

/-- What a session shows. -/
structure ViewState where
  /-- The content of each root. -/
  html : List String
  /-- The data, as long as somebody has them. -/
  data : Option Json
  /-- The number of watchers of the view model, as long as it is there. -/
  bindings : Option Nat
  /-- What was logged since the state before. -/
  log : List Json

/-- What comes of a session. -/
inductive ViewOutcome where
  | markup (error : MarkupError)
  | settings (error : TemplateError)
  /-- Mounting fails: the element is shown as it was left. -/
  | refused (error : TemplateError) (html : Option String) (hearing : List Hearing)
      (log : List Json)
  | mounted (first : ViewState) (steps : List (Reply × ViewState))
  /-- The nesting of reactions went beyond all bounds. -/
  | exhausted

namespace Mounted

/-- What the session shows. -/
def state (m : Mounted) (w : Workshop) : ViewState where
  html := w.roots.map w.innerHtml
  data :=
    if w.host.isLive then some (m.viewModel.mount.data w)
    else (m.viewModel.mount.store? w).map Store.toJson
  bindings := if w.host.isLive then some m.bindings.length else none
  log := w.notes.log

/-- The replies to steps taken in order, each with the state after it. -/
def play (m : Mounted) : List ViewStep → Workshop → List (Reply × ViewState)
  | [], _ => []
  | step :: rest, w =>
    let (reply, w) := step.run m w
    (reply, m.state w) :: play m rest (w.editNotes Notebook.clear)

end Mounted

namespace ViewScript

/-- The view model of a script on what it is mounted on; the last method of a name counts. -/
def viewModel (s : ViewScript) (settings : Settings) (mount : Mount) : ViewModel Bench :=
  ⟨mount, settings, s.methods.reverse.map fun (name, acts) => (name, scriptedMethod mount acts)⟩

/-- The world of a script with a document in it. -/
def workshop (s : ViewScript) (document : Forest Listener) (roots : List NodeId) : Workshop :=
  World.new (Store.withFormulas s.data s.computed)
    ⟨document, true, ⟨Notebook.empty, roots, []⟩⟩

/-- Mounts the view model and takes the steps. -/
def playOn (s : ViewScript) (settings : Settings) (mount : Mount) (w : Workshop) : ViewOutcome :=
  let vm := s.viewModel settings mount
  match vm.mountOn (Handlers.builtin.withActs s.handlers) w with
  | none => .exhausted
  | some (.error e, w) =>
    .refused e (w.roots.map w.innerHtml).head? (w.hearings.headD []) w.notes.log
  | some (.ok bindings, w) =>
    let m : Mounted := ⟨vm, bindings⟩
    .mounted (m.state w) (m.play s.steps (w.editNotes Notebook.clear))

/-- Plays a session.  Markup that cannot be read is reported before settings that cannot. -/
def play (s : ViewScript) : ViewOutcome :=
  match s.markup with
  | none =>
    match s.settings with
    | .error e => .settings e
    | .ok settings => s.playOn settings (.inert s.data) (s.workshop .empty [])
  | some markup =>
    match (Forest.empty : Forest Listener).plantMarkup s.tag markup with
    | .error e => .markup e
    | .ok (root, document) =>
      match s.settings with
      | .error e => .settings e
      | .ok settings => s.playOn settings (.element root) (s.workshop document [root])

end ViewScript

end Bindery
