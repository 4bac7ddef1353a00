import Bindery.Document.Move
import Bindery.Markup.Writer
import Bindery.Script.Reply

namespace Bindery

/-!
# Scripted steps on documents

Nodes are kept under names, and only what is kept, or below something kept, stays.

* `ListenerScript` — listeners written as data.
* `DocumentStep` — the steps; `DocumentStep.run` takes one.
* `documentSession` — all steps in order, and the trees of the kept roots at the end.
-/

/-- What a scripted listener does with the target of its event. -/
inductive ListenerAct where
  | setAttr (name value : String)
  /-- Adds a listener that only logs. -/
  | listen (event name : String)
  /-- Delivers an event to a node kept under a name. -/
  | fire (node event : String)
  | detach
  | setInner (markup : String)
  | fail (cause : String)

/-- A listener that logs its call under a name and then acts. -/
structure ListenerScript where
  name : String
  acts : List ListenerAct

/-- A document with names for some of its nodes, and a log. -/
structure Studio where
  document : Forest ListenerScript
  names : List (String × NodeId)
  log : List Json

namespace Studio

/-- Nothing at all. -/
def empty : Studio := ⟨.empty, [], []⟩

/-- The first name of a node, by the order of code points. -/
def nameOf (s : Studio) (id : NodeId) : String :=
  let found := (s.names.filter (·.2 = id)).map (·.1)
  match found with
  | [] => "?"
  | first :: rest => rest.foldl (fun least name => if name < least then name else least) first

/-- Keeps a node under a name. -/
def keep (name : String) (id : NodeId) (s : Studio) : Studio :=
  { s with names := (name, id) :: s.names.filter (·.1 != name) }

/-- Changes the document. -/
def edit (f : Forest ListenerScript → Forest ListenerScript) (s : Studio) : Studio :=
  { s with document := f s.document }

/-- Logs an entry. -/
def record (entry : Json) (s : Studio) : Studio := { s with log := s.log ++ [entry] }

/-- Takes the acts of a listener in order, up to the first that fails. -/
def act (fire : NodeId → String → Studio → Option (Except TemplateError Unit × Studio))
    (target : NodeId) : List ListenerAct → Studio → Option (Except TemplateError Unit × Studio)
  | [], s => some (.ok (), s)
  | .setAttr name value :: rest, s =>
    act fire target rest (s.edit (·.mapKind target (Kind.setAttr name value)))
  | .listen event name :: rest, s =>
    act fire target rest (s.edit (·.listen target event ⟨name, []⟩))
  | .fire node event :: rest, s =>
    match s.names.lookup node with
    | none => act fire target rest s
    | some id =>
      match fire id event s with
      | none => none
      | some (.error e, s) => some (.error e, s)
      | some (.ok (), s) => act fire target rest s
  | .detach :: rest, s => act fire target rest (s.edit (·.detach target))
  | .setInner markup :: rest, s =>
    match s.document.setInner target markup with
    | .error e => some (.error (.markup e), s)
    | .ok document => act fire target rest { s with document }
  | .fail cause :: _, s => some (.error (.fault (.reaction cause)), s)

/-- Calls listeners with an event in order, up to the first that fails. -/
def call (fire : NodeId → String → Studio → Option (Except TemplateError Unit × Studio))
    (event : String) (target : NodeId) :
    List ListenerScript → Studio → Option (Except TemplateError Unit × Studio)
  | [], s => some (.ok (), s)
  | listener :: rest, s =>
    let entry : Json :=
      .array [.string listener.name, .string event, .string (s.nameOf target)]
    match act fire target listener.acts (s.record entry) with
    | none => none
    | some (.error e, s) => some (.error e, s)
    | some (.ok (), s) => call fire event target rest s

/-- Delivers an event about a target to the listeners that a node has when it comes, with at most
`depth` deliveries inside each other. -/
def dispatch : Nat → NodeId → String → NodeId → Studio →
    Option (Except TemplateError Unit × Studio)
  | 0, _, _, _, _ => none
  | depth + 1, node, event, target, s =>
    call (fun id event s => dispatch depth id event id s) event target
      (s.document.listeners node event) s

/-- How deep deliveries may be nested. -/
def nestingLimit : Nat := 1000000

end Studio

/-- A way from a node to another. -/
inductive NodeStep where
  | child (index : Nat)
  | lastChild
  | parent
  | find (tag : String)

/-- A step on the nodes of a document. -/
inductive DocumentStep where
  /-- Keeps a new node under a name. -/
  | create (name : String) (kind : Kind)
  | parse (name tag markup : String)
  | goTo (node : String) (way : NodeStep) (name : Option String)
  | forget (node : String)
  | describe (node : String)
  | same (node other : String)
  | contains (node other : String)
  | append (node child : String)
  | detach (node : String)
  | take (node : String)
  | count (node : String)
  | attr (node name : String)
  | attrs (node : String)
  | setAttr (node name value : String)
  | removeAttr (node name : String)
  | formValue (node : String)
  | getData (node : String)
  | setData (node data : String)
  | text (node : String)
  | html (node : String)
  | setInner (node markup : String)
  | listen (node event : String) (listener : ListenerScript)
  | listeners (node event : String)
  | fire (node event : String) (target : Option String)

/-- The word for what a node is. -/
def Kind.word : Kind → String
  | .element _ _ => "element"
  | .text _ => "text"
  | .comment _ => "comment"
  | .fragment => "fragment"

/-- A text, or null. -/
def Json.optional (s : Option String) : Json := (s.map Json.string).getD .null

/-- Pairs of texts. -/
def Json.pairs (items : List (String × String)) : Json :=
  .array (items.map fun (a, b) => .array [.string a, .string b])

namespace Studio

/-- Goes on with the node kept under a name. -/
def withNode (s : Studio) (name : String) (next : NodeId → Reply × Studio) : Reply × Studio :=
  match s.names.lookup name with
  | none => (.absent .node, s)
  | some id => next id

/-- The markup of a node. -/
def htmlOf (s : Studio) (id : NodeId) : String := ((s.document.node? id).map Tree.html).getD ""

/-- The reply with the attributes of a node. -/
def attrsReply (s : Studio) (id : NodeId) : Reply := .ok (.pairs (s.document.kind id).attrs)

/-- Changes the kind of the node kept under a name. -/
def mapKind (s : Studio) (name : String) (f : Kind → Kind) (reply : Studio → NodeId → Reply) :
    Reply × Studio :=
  s.withNode name fun id =>
    let s := s.edit (·.mapKind id f)
    (reply s id, s)

/-- The node that a way leads to. -/
def follow? (s : Studio) (id : NodeId) : NodeStep → Option NodeId
  | .child index => (s.document.childIds id)[index]?
  | .lastChild => (s.document.childIds id).getLast?
  | .parent => s.document.parent? id
  | .find tag => ((s.document.node? id).bind (Tree.find? tag)).map Tree.id

end Studio

/-- Takes a step; nodes that nothing holds any more are still there after it. -/
def DocumentStep.perform (step : DocumentStep) (s : Studio) : Reply × Studio :=
  match step with
  | .create name kind =>
    let (id, document) := s.document.plant kind
    (.null, { s with document }.keep name id)
  | .parse name tag markup =>
    match s.document.plantMarkup tag markup with
    | .error e => (.markup e, s)
    | .ok (id, document) => (.null, { s with document }.keep name id)
  | .goTo node way name => s.withNode node fun id =>
      match s.follow? id way with
      | none => (.null, s)
      | some found =>
        (.ok (.array [.string (s.document.kind found).word, .string (s.nameOf found)]),
          match name with
          | none => s
          | some name => s.keep name found)
  | .forget node => s.withNode node fun _ =>
      (.ok (.bool true), { s with names := s.names.filter (·.1 != node) })
  | .describe node => s.withNode node fun id =>
      let kind := s.document.kind id
      (.ok (.array [.string kind.word, .bool (kind.word = "element"),
        .bool (kind.word = "text"), .optional kind.tag?]), s)
  | .same node other => s.withNode node fun a => s.withNode other fun b =>
      (.ok (.bool (a = b)), s)
  | .contains node other => s.withNode node fun a => s.withNode other fun b =>
      (.ok (.bool (s.document.contains a b)), s)
  | .append node child => s.withNode node fun parent => s.withNode child fun child =>
      let s := s.edit (·.append parent child)
      (.ok (.string (s.htmlOf parent)), s)
  | .detach node => s.withNode node fun id => (.null, s.edit (·.detach id))
  | .take node => s.withNode node fun id =>
      let taken := s.document.childIds id
      (.ok (.array (taken.map fun child =>
        .array [.string (s.nameOf child), .string (s.htmlOf child)])),
        s.edit (·.takeChildren id))
  | .count node => s.withNode node fun id => (.count (s.document.childIds id).length, s)
  | .attr node name => s.withNode node fun id =>
      let found := (s.document.kind id).attr? name
      (.ok (.array [.optional found, .bool found.isSome]), s)
  | .attrs node => s.withNode node fun id => (s.attrsReply id, s)
  | .setAttr node name value => s.mapKind node (Kind.setAttr name value) Studio.attrsReply
  | .removeAttr node name => s.withNode node fun id =>
      (.ok (.optional ((s.document.kind id).attr? name)),
        s.edit (·.mapKind id (Kind.removeAttr name)))
  | .formValue node => s.withNode node fun id => (.ok (.string (s.document.kind id).value), s)
  | .getData node => s.withNode node fun id => (.ok (.optional (s.document.kind id).data?), s)
  | .setData node data => s.mapKind node (Kind.setData data) fun s id =>
      .ok (.optional (s.document.kind id).data?)
  | .text node => s.withNode node fun id =>
      (.ok (.string (String.ofList
        (((s.document.node? id).map Tree.textContent).getD []))), s)
  | .html node => s.withNode node fun id =>
      (.ok (.array [.string (s.htmlOf id),
        .string (((s.document.node? id).map Tree.innerHtml).getD "")]), s)
  | .setInner node markup => s.withNode node fun id =>
      match s.document.setInner id markup with
      | .error e => (.markup e, s)
      | .ok document =>
        let s := { s with document }
        (.ok (.string (s.htmlOf id)), s)
  | .listen node event listener => s.withNode node fun id =>
      (.null, s.edit (·.listen id event listener))
  | .listeners node event => s.withNode node fun id =>
      (.count (s.document.listeners id event).length, s)
  | .fire node event target => s.withNode node fun id =>
      s.withNode (target.getD node) fun target =>
        match Studio.dispatch Studio.nestingLimit id event target s with
        | none => (.exhausted, s)
        | some (.error e, s) => (.template e, s)
        | some (.ok (), s) => (.null, s)

/-- Takes a step, and forgets what nothing holds after it. -/
def DocumentStep.run (step : DocumentStep) (s : Studio) : Reply × Studio :=
  let (reply, s) := step.perform s
  (reply, s.edit (·.collect fun id => s.names.any (·.2 = id)))

/-- A reply with what was logged on the way. -/
structure DocumentRecord where
  reply : Reply
  log : List Json

/-- The records of steps taken in order, and the studio after them. -/
def DocumentStep.runAll : List DocumentStep → Studio → List DocumentRecord × Studio
  | [], s => ([], s)
  | step :: rest, s =>
    let (reply, s) := step.run s
    let (records, last) := runAll rest { s with log := [] }
    (⟨reply, s.log⟩ :: records, last)

/-- A session on documents: the records of its steps, and the trees at the end of the names whose
nodes have no parent. -/
def documentSession (steps : List DocumentStep) :
    List DocumentRecord × List (String × Tree (Mark ListenerScript)) :=
  let (records, s) := DocumentStep.runAll steps .empty
  (records, s.names.filterMap fun (name, id) =>
    match s.document.parent? id, s.document.node? id with
    | none, some t => some (name, t)
    | _, _ => none)

end Bindery
