import Bindery.Proofs.Reactive.Noticing
import Bindery.Proofs.Store.Rereading
import Bindery.Proofs.ViewModel.InStep
import Bindery.Proofs.ViewModel.Tending

namespace Bindery

/-!
# What is entered stays

A text that is entered in a form element is assigned at its expression, and the reactions to that
leave it in the form element: what they write there is what the expression leads to.

* `World.Course` — the worlds that come about as long as bindings make all watchers.
* `ViewModel.MethodsFollow.reach` — events and calls lead to no others, if methods do not.
* `World.Course.tended` — in all of them the watchers are those of bindings.
* `Forest.Field` — a form element with a text, which is assigned on input.
* `World.upheld_field` — reactions leave a text that stands where it is assigned.
* `ViewModel.enter_settles` — after a text was entered, the same event changes nothing.
-/

variable {υ α β : Type}

/-! ### Courses of worlds -/

namespace World

/-- The worlds that may come after one, as long as bindings make all watchers: computed members are
defined, values are assigned, watchers are updated and dropped, something is done to the nodes,
templates are compiled, and whatever is beside the document changes. -/
inductive Course (start : World (Page υ)) : World (Page υ) → Prop
  | start : Course start start
  | define {w} (name : String) (derivation : Derivation) : Course start w →
      Course start { w with store := w.store.define name derivation }
  | assign {w w' path value depth result} : Course start w →
      World.assign (updateAt depth) path value w = some (result, w') → Course start w'
  | update {w w' id depth result} : Course start w →
      updateAt depth id w = some (result, w') → Course start w'
  | drop {w} (id : WatcherId) : Course start w → Course start (w.drop id)
  | operate {w} (op : NodeOp Listener) : Course start w → (∀ id ∈ op.handles, w.document.Has id) →
      Course start (w.editDocument op.apply)
  | compile {w w' vm settings root result} : Course start w → w.document.Has root →
      Compiler.compile ⟨vm, settings, .builtin⟩ root w = some (result, w') → Course start w'
  | beside {w} (change : Page υ → Page υ) : Course start w →
      (∀ page, (change page).document = page.document) → Course start (w.editHost change)

variable {w₀ w w' : World (Page υ)}

/-- Courses follow one another. -/
theorem Course.trans (first : w₀.Course w) (next : w.Course w') : w₀.Course w' := by
  induction next with
  | start => exact first
  | define name derivation _ ih => exact .define name derivation ih
  | assign _ hassign ih => exact .assign ih hassign
  | update _ hupdate ih => exact .update ih hupdate
  | drop id _ ih => exact .drop id ih
  | operate op _ has ih => exact .operate op ih has
  | compile _ has hcompile ih => exact .compile ih has hcompile
  | beside change _ same ih => exact .beside change ih same

/-- **All watchers are those of bindings**, in the whole course. -/
theorem Course.tended (course : w₀.Course w) (h : w₀.Tended) : w.Tended := by
  -- step by step; an assignment changes the store first and then lets reactions run
  induction course with
  | start => exact h
  | define name derivation _ ih => exact ih.of_leads (ih.reachable.define name derivation) .refl rfl
  | assign _ hassign ih =>
    exact upheld_tended.assign (fun _ => ih)
      (fun stored => ih.of_leads (ih.reachable.assign stored) .refl rfl) hassign
  | update _ hupdate ih => exact upheld_tended.update ih hupdate
  | drop id _ ih => exact ih.dropAll [id]
  | operate op _ has ih => exact ih.edit (Forest.leads_apply op has)
  | @compile w w' vm settings root result _ has hcompile ih =>
    exact (Compiler.upholds_tended vm settings root hcompile ih.proper
      (List.forall_mem_singleton.2 has) ih).1
  | beside change _ same ih =>
    refine ih.of_leads ih.reachable ?_ rfl
    rw [document, document, editHost, same]
    exact .refl

end World

/-! ### Events and calls -/

namespace Act

/-- An operation that leads to no worlds but those. -/
def Follows (act : Act υ α) : Prop :=
  ∀ ⦃w w' : World (Page υ)⦄ ⦃result : Except TemplateError α⦄,
    act w = some (result, w') → w.Course w'

theorem follows_ofExcept (result : Except TemplateError α) :
    Follows (Step.ofExcept result : Act υ α) := by
  intro w w' _ ended
  cases ended
  exact .start

/-- Steps that lead to no other worlds do so together. -/
theorem Follows.then {first : Act υ α} {next : α → Act υ β} (h : first.Follows)
    (hnext : ∀ value, (next value).Follows) : (first >>= next).Follows := by
  intro w w' result ended
  obtain ⟨e, hfirst, -⟩ | ⟨value, between, hfirst, hlast⟩ := Step.bind_cases ended
  · exact h hfirst
  · exact (h hfirst).trans (hnext value hlast)

/-- An assignment leads to such a world. -/
theorem follows_assign (expr : String) (value : Json) :
    (assign expr value : Act υ Unit).Follows := by
  intro w w' result ended
  obtain ⟨_, hset, -⟩ := assign_cases ended
  rw [World.set] at hset
  split at hset
  · cases hset
    exact .start
  · exact .assign .start hset

end Act

/-- Whatever is called leads to no worlds but those. -/
structure Reach.Follows (r : Reach υ) : Prop where
  call : ∀ name event, (r.call name event).Follows
  fire : ∀ node event, (r.fire node event).Follows

namespace ViewModel

variable {vm : ViewModel υ} {inner : Reach υ}

theorem follows_hear (h : inner.Follows) (event : Event) (listener : Listener) :
    (hear inner event listener).Follows := by
  intro w w' result ended
  cases listener with
  | writeBack expr => exact Act.follows_assign expr _ ended
  | invoke name =>
    simp only [hear] at ended
    split at ended
    · exact h.call name event ended
    · cases ended
      exact .start

theorem follows_hearAll (h : inner.Follows) (event : Event) (listeners : List Listener) :
    (hearAll inner event listeners).Follows := by
  induction listeners with
  | nil => exact Act.follows_ofExcept (.ok ())
  | cons listener rest ih => exact (follows_hear h event listener).then fun _ => ih

/-- The methods of a view model do nothing else, if what they call does not. -/
def MethodsFollow (vm : ViewModel υ) : Prop :=
  ∀ named ∈ vm.methods, ∀ inner : Reach υ, inner.Follows → ∀ event,
    (named.2 inner event).Follows

theorem MethodsFollow.invoke (methods : vm.MethodsFollow) (h : inner.Follows) (name : String)
    (event : Event) : (vm.invoke inner name event).Follows := by
  have asks : (vm.mount.store : Act υ Store).Follows := by
    intro w w' result ended
    rw [Mount.world_of_store ended]
    exact .start
  refine asks.then fun _ => ?_
  split
  · exact Act.follows_ofExcept (.error _)
  · next method hlookup =>
    obtain ⟨before, after, hmethods, -⟩ := List.lookup_eq_some_iff.1 hlookup
    have among : (name, method) ∈ vm.methods := by simp [hmethods]
    exact methods _ among inner h event

/-- **What can be called**, however deep the calls are nested. -/
theorem MethodsFollow.reach (methods : vm.MethodsFollow) (depth : Nat) :
    (vm.reach depth).Follows := by
  -- the induction is on the depth that is left: what a method calls has one level less
  induction depth with
  | zero => exact ⟨fun _ _ _ _ _ => nofun, fun _ _ _ _ _ => nofun⟩
  | succ depth ih =>
    exact ⟨methods.invoke ih, fun _ event _ _ _ ended => follows_hearAll ih event _ ended⟩

/-- Whatever is done to the page. -/
theorem MethodsFollow.move (methods : vm.MethodsFollow) {move : Move} {w w' : World (Page υ)}
    {result : Except TemplateError Unit}
    (has : ∀ node text, move = .enter node text → w.document.Has node)
    (ended : move.act vm w = some (result, w')) : w.Course w' := by
  cases move with
  | assign expr value => exact Act.follows_assign expr _ ended
  | enter node text =>
    have entered : w.Course (w.editDocument (·.mapKind node (Kind.setAttr "value" text))) :=
      .operate (.mapKind node (.setAttr "value" text)) .start
        (List.forall_mem_singleton.2 (has node text rfl))
    exact entered.trans ((methods.reach nestingLimit).fire _ _ ended)

end ViewModel

/-- Mounting makes no other watchers either. -/
theorem World.Tended.mountOn {vm : ViewModel υ} {w w' : World (Page υ)}
    {result : Except TemplateError (List WatcherId)} (h : w.Tended)
    (hosted : ∀ id, vm.mount = .element id → w.document.Has id)
    (mounted : vm.mountOn .builtin w = some (result, w')) : w'.Tended := by
  cases hmount : vm.mount with
  | inert data =>
    have upholds : (vm.mountOn .builtin).Upholds World.Tended [] := by
      rw [ViewModel.mountOn, hmount]
      exact (Act.upholds_ofExcept _).then fun _ => Act.upholds_pure []
    exact (upholds mounted h.proper (List.forall_mem_nil _) h).1
  | element root =>
    have upholds : (vm.mountOn .builtin).Upholds World.Tended [root] := by
      rw [ViewModel.mountOn, hmount]
      exact (Act.upholds_ofExcept _).then fun _ => Compiler.upholds_tended vm vm.settings root
    exact (upholds mounted h.proper (List.forall_mem_singleton.2 (hosted root hmount)) h).1

/-! ### Form elements -/

namespace Forest

variable {f f' : Forest Listener} {node : NodeId} {expr text : String}

/-- A form element with a text, where nothing waits for input but what assigns the text. -/
structure Field (f : Forest Listener) (node : NodeId) (expr text : String) : Prop where
  element : ∃ tag attrs, f.kind node = .element tag attrs
  value : (f.kind node).value = text
  waits : f.listeners node "input" = [.writeBack expr]

/-- What makes a node such a form element can be read from its entry. -/
theorem field_iff {e : Entry Listener} (found : f.entry node = some e) :
    f.Field node expr text ↔ (∃ tag attrs, e.kind = .element tag attrs) ∧ e.kind.value = text ∧
      (e.listeners.filter (·.1 = "input")).map (·.2) = [.writeBack expr] := by
  rw [← kind_of_entry found, ← listeners_of_entry found]
  exact ⟨fun h => ⟨h.element, h.value, h.waits⟩, fun ⟨element, value, waits⟩ =>
    ⟨element, value, waits⟩⟩

/-- A node with a listener is there. -/
theorem has_of_listeners {event : String} {listener : Listener}
    (waits : f.listeners node event = [listener]) : f.Has node := by
  rw [listeners] at waits
  split at waits
  · cases waits
  · next t found => exact ⟨t, found⟩

/-- Another text is entered. -/
theorem IsSound.field_enter (h : f.IsSound) {tag : String} {attrs : List (String × String)}
    (element : f.kind node = .element tag attrs)
    (waits : f.listeners node "input" = [.writeBack expr]) (text : String) :
    (f.mapKind node (Kind.setAttr "value" text)).Field node expr text := by
  have has := has_of_listeners waits
  obtain ⟨e, found⟩ := has_iff_entry.1 has
  obtain ⟨children, found'⟩ := h.redraws_mapKind has (Kind.setAttr "value" text) found
  rw [kind_of_entry found] at element
  rw [listeners_of_entry found] at waits
  simp only [if_true, element] at found'
  exact (field_iff found').2 ⟨⟨tag, _, rfl⟩, Kind.value_setAttr tag attrs text, waits⟩

/-- A reaction to what the expression leads to writes just that, and no other reaction writes the
form value. -/
theorem Field.touches {path : Path} {written : String} (h : f.Field node expr text)
    (touches : f.Touches f' path written)
    (same : Path.parse? expr = some path → written = text) : f'.Field node expr text := by
  obtain ⟨e, found⟩ := has_iff_entry.1 (has_of_listeners h.waits)
  obtain ⟨⟨tag, attrs, element⟩, value, waits⟩ := (field_iff found).1 h
  obtain ⟨kind, children, found', touched⟩ := touches found
  refine (field_iff found').2 ?_
  rw [element] at touched value
  cases touched with
  | none => exact ⟨⟨tag, attrs, rfl⟩, value, waits⟩
  | data => exact ⟨⟨tag, attrs, rfl⟩, value, waits⟩
  | @value other hparse listens =>
    -- what writes form values belongs to a listener, and there is one only
    have among : Listener.writeBack other ∈ (e.listeners.filter (·.1 = "input")).map (·.2) :=
      List.mem_map.2 ⟨_, List.mem_filter.2 ⟨listens, by simp⟩, rfl⟩
    rw [waits, List.mem_singleton] at among
    cases among
    exact ⟨⟨tag, _, rfl⟩, (Kind.value_setAttr tag attrs written).trans (same hparse), waits⟩

end Forest

namespace World

variable {store : Store} {path : Path} {node : NodeId} {expr text : String}

/-- **Reactions leave a text** that stands where it is assigned. -/
theorem upheld_field (hparse : Path.parse? expr = some path)
    (stands : (store.read path).result = .ok (.value (.scalar (.string text)))) :
    Upheld fun w : World (Page υ) =>
      w.Tended ∧ w.store = store ∧ w.document.Field node expr text where
  observes h found := upheld_tended.observes h.1 found
  observe h := ⟨upheld_tended.observe h.1, h.2⟩
  react := by
    rintro w id watcher seen result last ⟨tended, rfl, field⟩ found hread logs
    obtain ⟨-, touches⟩ := (tended.tends_of_watcher? found).logs tended.proper logs
    refine ⟨upheld_tended.react tended found hread logs, rfl, ?_⟩
    -- a reaction to the path of the expression has seen the text itself
    refine field.touches touches fun hwatched => ?_
    cases hparse.symm.trans hwatched
    cases stands.symm.trans hread
    rfl

end World

/-! ### Entering a text -/

namespace World

variable {w w' : World (Page υ)} {node : NodeId} {expr text : String}

/-- A text is entered in a form element. -/
theorem Tended.enter (h : w.Tended) {tag : String} {attrs : List (String × String)}
    (element : w.document.kind node = .element tag attrs)
    (waits : w.document.listeners node "input" = [.writeBack expr]) (text : String) :
    (w.editDocument (·.mapKind node (Kind.setAttr "value" text))).Tended ∧
      (w.editDocument (·.mapKind node (Kind.setAttr "value" text))).document.Field node expr text :=
  ⟨h.edit (Forest.leads_apply (.mapKind node (.setAttr "value" text))
    (List.forall_mem_singleton.2 (Forest.has_of_listeners waits))),
    h.proper.field_enter element waits text⟩

/-- **Assigning the text of a form element** that was entered there leaves it there, where bindings
make all watchers. -/
theorem Tended.set_text (h : w.Tended) (field : w.document.Field node expr text)
    (hset : World.set expr (.string text) w = some (.ok (), w')) :
    ∃ path, Path.parse? expr = some path ∧
      (w'.store.read path).result = .ok (.value (.scalar (.string text))) ∧
      w'.store.assign path (.string text) = .ok (.unchanged, w'.store) ∧
      w'.document.Field node expr text := by
  rw [World.set] at hset
  split at hset
  · cases hset
  next path hparse =>
  cases hassign : w.store.assign path (.string text) with
  | error fault =>
    simp only [write, assign, hassign] at hset
    cases hset
  | ok done =>
    obtain ⟨effect, store⟩ := done
    obtain ⟨⟨held, same, stands⟩, again⟩ := h.reachable.assigned hassign
    obtain rfl := Scalar.eq_string_of_strictEq same
    -- no reaction assigns, so all of them find the store that the assignment leaves
    have upheld : Upheld fun w : World (Page υ) =>
        w.Tended ∧ w.store = store ∧ w.document.Field node expr text := upheld_field hparse stands
    obtain ⟨-, rfl, field'⟩ := upheld.assign
      (fun refused => by cases hassign.symm.trans refused)
      (fun stored => by
        cases hassign.symm.trans stored
        exact ⟨h.of_leads (h.reachable.assign hassign) .refl rfl, rfl, field⟩) hset
    exact ⟨path, hparse, stands, again, field'⟩

end World

namespace ViewModel

variable {vm : ViewModel υ} {store : Store} {page : Page υ} {ids : List WatcherId}
  {w w₀ w₁ w₂ : World (Page υ)} {node : NodeId} {expr text tag : String}
  {attrs : List (String × String)}

/-- Input assigns the text of a form element. -/
theorem fire_field (vm : ViewModel υ) (field : w.document.Field node expr text) :
    vm.fire node ⟨"input", node⟩ w = Act.assign expr (.string text) w := by
  rw [vm.fire_writeBack field.waits, World.formValue, field.value]

/-- Where a text stands already, entering it runs no reaction and changes nothing. -/
theorem fire_stands (vm : ViewModel υ) {path : Path} (hparse : Path.parse? expr = some path)
    (stands : w.store.assign path (.string text) = .ok (.unchanged, w.store))
    (field : w.document.Field node expr text) :
    w.reactionsTo path (.string text) = [] ∧
      vm.fire node ⟨"input", node⟩ w = some (.ok (), w) := by
  obtain ⟨hwrite, silent⟩ := World.write_untold stands fun _ replaced => nomatch replaced
  refine ⟨silent, ?_⟩
  rw [vm.fire_field field]
  refine Act.assign_ok ?_
  simp only [World.set, hparse, hwrite]

/-- **What is entered stays.** On a store that nobody watched to begin with, a view model is
mounted, and anything may be done to the data and to the page before and after that, as long as
bindings make all watchers.  If a text that is entered in an element, where nothing waits for input
but what assigns its form value at an expression, is assigned, then it is what the expression leads
to and what stands in the element.  The same event succeeds once more; it runs no reaction, whatever
watchers there may be by then, and changes nothing at all. -/
theorem enter_settles (reachable : store.Reachable) (proper : page.document.IsProper)
    (earlier : (World.new store page).Course w)
    (hosted : ∀ id, vm.mount = .element id → w.document.Has id)
    (mounted : vm.mountOn .builtin w = some (.ok ids, w₀)) (later : w₀.Course w₁)
    (element : w₁.document.kind node = .element tag attrs)
    (waits : w₁.document.listeners node "input" = [.writeBack expr])
    (entered : (Move.enter node text).act vm w₁ = some (.ok (), w₂)) :
    w₂.store.get expr = .ok (.string text) ∧ w₂.formValue node = text ∧
      vm.fire node ⟨"input", node⟩ w₂ = some (.ok (), w₂) ∧
      ∃ path, Path.parse? expr = some path ∧ ∀ watchers,
        World.reactionsTo path (.string text) { w₂ with watchers } = [] ∧
        vm.fire node ⟨"input", node⟩ { w₂ with watchers } =
          some (.ok (), { w₂ with watchers }) := by
  have before : w.Tended := earlier.tended (World.tended_new reachable proper)
  have tended : w₁.Tended := later.tended (before.mountOn hosted mounted)
  obtain ⟨written, field⟩ := tended.enter element waits text
  obtain ⟨ended, hset, hended⟩ := Act.assign_cases ((vm.fire_field field).symm.trans entered)
  cases ended with
  | error fault => cases hended
  | ok _ =>
    obtain ⟨path, hparse, reads, stands, field'⟩ := written.set_text field hset
    -- the second assignment notifies nobody, so it does not matter who watches
    have again (watchers : List (Watcher (Page υ))) :=
      vm.fire_stands (w := { w₂ with watchers }) hparse stands field'
    refine ⟨?_, field'.value, (again w₂.watchers).2, path, hparse, again⟩
    rw [Store.get_of_parse hparse, reads]
    rfl

/-- A page with a form element for a name. -/
def naming : World (Page Unit) :=
  .new (.ofJson (.object [("user", .object [("name", .string "Ada")])]))
    ⟨(NodeOp.parse "form" "<input v-model=\"user.name\">").apply .empty, true, ()⟩

/-- A name is entered, another one is assigned, and then the first one is entered again. -/
theorem enter_settles_naming : ∃ ids w₀ w₁ w₂ w₃,
    onPage.mountOn .builtin naming = some (.ok ids, w₀) ∧
      (Move.enter ⟨1⟩ "Grace").act onPage w₀ = some (.ok (), w₁) ∧
      (Move.assign "user.name" (.string "Mary")).act onPage w₁ = some (.ok (), w₂) ∧
      w₂.formValue ⟨1⟩ = "Mary" ∧
      (Move.enter ⟨1⟩ "Grace").act onPage w₂ = some (.ok (), w₃) ∧
      w₃.store.get "user.name" = .ok (.string "Grace") ∧ w₃.formValue ⟨1⟩ = "Grace" ∧
      onPage.fire ⟨1⟩ ⟨"input", ⟨1⟩⟩ w₃ = some (.ok (), w₃) := by
  have outcome : ((onPage.mountOn .builtin naming).bind fun mounted =>
      ((Move.enter ⟨1⟩ "Grace").act onPage mounted.2).bind fun entered =>
      ((Move.assign "user.name" (.string "Mary")).act onPage entered.2).bind fun assigned =>
      ((Move.enter ⟨1⟩ "Grace").act onPage assigned.2).map fun again =>
        (mounted.1, [entered.1, assigned.1, again.1], assigned.2.document.kind ⟨1⟩,
          [mounted.2, assigned.2].map fun w => w.document.listeners ⟨1⟩ "input")) =
      some (.ok [⟨0⟩], [.ok (), .ok (), .ok ()],
        .element "input" [("v-model", "user.name"), ("value", "Mary")],
        [[.writeBack "user.name"], [.writeBack "user.name"]]) := by
    decide +kernel
  obtain ⟨⟨mounted, w₀⟩, hmounted, hentered⟩ := Option.bind_eq_some_iff.1 outcome
  obtain ⟨⟨entered, w₁⟩, henter, hassigned⟩ := Option.bind_eq_some_iff.1 hentered
  obtain ⟨⟨assigned, w₂⟩, hassign, hagain⟩ := Option.bind_eq_some_iff.1 hassigned
  obtain ⟨⟨again, w₃⟩, henterAgain, hlast⟩ := Option.map_eq_some_iff.1 hagain
  simp only [List.map_cons, List.map_nil, Prod.mk.injEq, List.cons.injEq, and_true] at hlast
  obtain ⟨rfl, ⟨rfl, rfl, rfl⟩, element, first, waits⟩ := hlast
  have proper : naming.document.IsProper :=
    (Forest.Drawn.operate (.parse _ _) .empty nofun : naming.document.Drawn Unit).isProper
  have hasRoot : (naming.document.node? ⟨0⟩).isSome = true := by decide +kernel
  have hosted : ∀ id, onPage.mount = .element id → naming.document.Has id := by
    rintro _ ⟨⟩
    exact Option.isSome_iff_exists.1 hasRoot
  -- no method has a part in it
  have methods : onPage.MethodsFollow := fun _ h => nomatch h
  have course : w₀.Course w₂ := by
    have entering : w₀.Course w₁ := by
      refine methods.move ?_ henter
      rintro _ _ ⟨⟩
      exact Forest.has_of_listeners first
    exact entering.trans (methods.move (by rintro _ _ ⟨⟩) hassign)
  obtain ⟨reads, shows, settled, -⟩ :=
    enter_settles (.ofJson _) proper .start hosted hmounted course element waits henterAgain
  refine ⟨_, w₀, w₁, w₂, w₃, hmounted, henter, hassign, ?_, henterAgain, reads, shows, settled⟩
  rw [World.formValue, element]
  rfl

end ViewModel

end Bindery
