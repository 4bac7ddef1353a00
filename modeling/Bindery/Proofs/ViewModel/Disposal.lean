import Bindery.Proofs.Reactive.Silence
import Bindery.Proofs.ViewModel.Mounting
import Bindery.Proofs.ViewModel.Ownership

namespace Bindery

/-!
# View models that were dropped

Dropping a view model drops the watchers that mounting it handed out, and from then on its methods
are not called.  What is left of it are the listeners of form values: they belong to the nodes, and
go on assigning.

* `World.Disposed` — no view model, and none of its watchers; `World.maintained_disposed` — this is
  for good.
* `ViewModel.writeBacks` — what listeners still do; `ViewModel.fire_of_disposed` — nothing else.
* `ViewModel.Aftermath` — whatever is done after the view model was dropped.
* `ViewModel.dropViewModel_disposes` — then nothing of it runs, and no node changes by itself.
* `ViewModel.dropViewModel_field` — but a form value is still assigned.
-/

variable {υ : Type}

namespace World

/-! ### Dropped for good -/

/-- The view model is not there any more, no reaction brings it back, and its watchers do not
live. -/
def Disposed (ids : List WatcherId) (w : World (Page υ)) : Prop :=
  (w.host.isLive = false ∧ w.Heeds Page.isLive) ∧ w.Retired ids

/-- Programs that leave alone whether the view model is there do not bring it back. -/
theorem maintained_disposed (ids : List WatcherId) :
    Maintained (Program.Keeps Page.isLive) (Disposed (υ := υ) ids) :=
  (maintained_heeds Page.isLive false).and (stable_retired ids)

/-- Dropping a view model whose reactions do not run disposes of it, if the reactions of others
would not bring it back. -/
theorem disposed_dropViewModel {w : World (Page υ)} {ids : List WatcherId}
    (given : ∀ id ∈ ids, id.val < w.watchers.length) (idle : ∀ id ∈ ids, id ∉ w.running)
    (others : ∀ id ∉ ids, ∀ watcher, w.watcher? id = some watcher → w.isAlive id = true →
      ∀ seen, (watcher.reaction seen).Keeps Page.isLive) : (w.dropViewModel ids).Disposed ids := by
  have retired : (w.dropAll ids).Retired ids := retired_dropAll given idle
  have heeds : (w.dropAll ids).Heeds Page.isLive := heeds_dropAll retired others
  exact ⟨⟨rfl, heeds⟩, retired⟩

section maintained

variable {Admits : Program (Page υ) → Prop} {I : World (Page υ) → Prop} {w w' : World (Page υ)}
  {result : Except TemplateError Unit}

/-- What every step keeps an assignment keeps. -/
theorem Maintained.act_assign (maintained : Maintained Admits I) {expr : String} {value : Json}
    (hw : I w) (h : Act.assign expr value w = some (result, w')) : I w' := by
  obtain ⟨_, hset, -⟩ := Act.assign_cases h
  exact maintained.set hw hset

end maintained

end World

namespace ViewModel

/-! ### Events -/

/-- What listeners do with an event when there is no view model: they assign the form value of its
target, and call nothing. -/
def writeBacks (event : Event) : List Listener → Act υ Unit
  | [] => pure ()
  | .invoke _ :: rest => writeBacks event rest
  | .writeBack expression :: rest => do
    fun w => Act.assign expression (.string (w.formValue event.target)) w
    writeBacks event rest

section events

variable {w w' : World (Page υ)} {ids : List WatcherId} {event : Event}
  {listeners : List Listener} {result : Except TemplateError Unit}

/-- What every step keeps listeners keep. -/
theorem maintained_writeBacks {Admits : Program (Page υ) → Prop} {I : World (Page υ) → Prop}
    (maintained : World.Maintained Admits I) (hw : I w)
    (h : writeBacks event listeners w = some (result, w')) : I w' := by
  induction listeners generalizing w with
  | nil =>
    cases h
    exact hw
  | cons listener rest ih =>
    cases listener with
    | invoke name => exact ih hw h
    | writeBack expression =>
      obtain ⟨e, hassign, -⟩ | ⟨_, between, hassign, hrest⟩ := Step.bind_cases h
      · exact maintained.act_assign hw hassign
      · exact ih (maintained.act_assign hw hassign) hrest

/-- Where no form value is waited for nothing is done. -/
theorem writeBacks_eq_pure (calls : ∀ listener ∈ listeners, ∃ name, listener = .invoke name)
    (w : World (Page υ)) : writeBacks event listeners w = some (.ok (), w) := by
  induction listeners with
  | nil => rfl
  | cons listener rest ih =>
    rw [List.forall_mem_cons] at calls
    obtain ⟨⟨name, rfl⟩, others⟩ := calls
    exact ih others

/-- **Without a view model no method is called.** -/
theorem hearAll_of_disposed (h : w.Disposed ids) (inner : Reach υ) :
    hearAll inner event listeners w = writeBacks event listeners w := by
  induction listeners generalizing w with
  | nil => rfl
  | cons listener rest ih =>
    cases listener with
    | invoke name =>
      have skipped : hear inner event (.invoke name) w = some (.ok (), w) := by
        simp only [hear, h.1.1, Bool.false_eq_true, if_false]
      exact (Step.bind_ok skipped).trans (ih h)
    | writeBack expression =>
      -- both assign first, and no view model comes back by that
      exact Step.bind_congr fun _ between hassign =>
        ih ((World.maintained_disposed ids).act_assign h hassign)

/-- **Events after the end.** -/
theorem fire_of_disposed (h : w.Disposed ids) (vm : ViewModel υ) (node : NodeId) (event : Event) :
    vm.fire node event w = writeBacks event (w.document.listeners node event.name) w :=
  hearAll_of_disposed h _

end events

/-! ### After the end -/

/-- The worlds that may come after the view model was dropped: computed members are defined,
programs are run and the document is changed by whoever has the store and the nodes, and events are
delivered. -/
inductive Aftermath (vm : ViewModel υ) (start : World (Page υ)) : World (Page υ) → Prop
  | start : Aftermath vm start start
  | define {w} (name : String) (derivation : Derivation) : Aftermath vm start w →
      Aftermath vm start { w with store := w.store.define name derivation }
  | run {w w' program depth result} : Aftermath vm start w → program.Keeps Page.isLive →
      Program.exec (World.updateAt depth) program w = some (result, w') → Aftermath vm start w'
  | edit {w} (change : Forest Listener → Forest Listener) : Aftermath vm start w →
      Aftermath vm start (w.editDocument change)
  | fire {w w' node event result} : Aftermath vm start w →
      vm.fire node event w = some (result, w') → Aftermath vm start w'

variable {vm : ViewModel υ} {w w₀ w₁ w₂ : World (Page υ)} {ids : List WatcherId}

/-- Nor does anything that may come afterwards. -/
theorem Aftermath.disposed (aftermath : vm.Aftermath w₁ w) (h : w₁.Disposed ids) :
    w.Disposed ids := by
  induction aftermath with
  | start => exact h
  | define name derivation _ ih => exact ih
  | run _ keeps hexec ih => exact (World.maintained_disposed ids).exec keeps ih hexec
  | edit change _ ih => exact ih
  | fire _ hfire ih =>
    rw [fire_of_disposed ih] at hfire
    exact maintained_writeBacks (World.maintained_disposed ids) ih hfire

/-- **A view model that was dropped.** It is mounted, whatever happens then (watchers are only ever
added), and it is dropped while none of its reactions runs; the reactions of others do not bring it
back.  The watchers that are dropped are all those that mounting created.  Whatever is done later,
at no moment one of them reacts again; and as long as the reactions of others leave the document
alone, an assignment leaves it as it is.  An event about a node does no more than assign the form
values that listeners there wait for: no method is called, no node changes, and if there are no such
listeners, then the event succeeds and changes nothing at all. -/
theorem dropViewModel_disposes (mounted : vm.mountOn .builtin w = some (.ok ids, w₀))
    (later : w₀.watchers.length ≤ w₁.watchers.length) (idle : ∀ id ∈ ids, id ∉ w₁.running)
    (others : ∀ id ∉ ids, ∀ watcher, w₁.watcher? id = some watcher → w₁.isAlive id = true →
      ∀ seen, (watcher.reaction seen).Keeps Page.isLive)
    (aftermath : vm.Aftermath (w₁.dropViewModel ids) w₂) :
    (∀ id : WatcherId, id ∈ ids ↔ w.watchers.length ≤ id.val ∧ id.val < w₀.watchers.length) ∧
      (∀ program depth m, Program.Passes (World.updateAt depth) (World.UpdatePasses depth)
        program w₂ m → ∀ id ∈ ids, id ∉ m.running) ∧
      (w₂.Heeds Page.document → ∀ expr value result w₃,
        World.set expr value w₂ = some (result, w₃) → w₃.document = w₂.document) ∧
      ∀ node event,
        vm.fire node event w₂ = writeBacks event (w₂.document.listeners node event.name) w₂ ∧
          (w₂.Heeds Page.document → ∀ result w₃, vm.fire node event w₂ = some (result, w₃) →
            w₃.document = w₂.document) ∧
          ((∀ listener ∈ w₂.document.listeners node event.name, ∃ name, listener = .invoke name) →
            vm.fire node event w₂ = some (.ok (), w₂)) := by
  have gains : w.Gains w₀ ids := vm.owns_mountOn (Handlers.owns_builtin vm) mounted
  have given : ∀ id ∈ ids, id.val < w₁.watchers.length := fun id hid =>
    Nat.lt_of_lt_of_le (gains.mem_iff.1 hid).2 later
  have disposed : w₂.Disposed ids :=
    aftermath.disposed (World.disposed_dropViewModel given idle others)
  have stays := World.maintained_heeds (σ := Page υ) Page.document w₂.document
  refine ⟨fun id => gains.mem_iff, fun program depth m passes id hid => ?_,
    fun heeds expr value result w₃ hset => (stays.set ⟨rfl, heeds⟩ hset).1,
    fun node event => ⟨fire_of_disposed disposed vm node event, fun heeds result w₃ hfire => ?_,
      fun calls => ?_⟩⟩
  · have retired : m.Retired ids :=
      (World.stable_retired ids).passes ((World.stable_retired ids).updatePasses depth)
        (World.updateAt_covers depth) trivial disposed.2 passes
    exact retired.notMem_running hid
  · rw [fire_of_disposed disposed] at hfire
    exact (maintained_writeBacks stays ⟨rfl, heeds⟩ hfire).1
  · rw [fire_of_disposed disposed]
    exact writeBacks_eq_pure calls w₂

/-- A number, a button and a form element. -/
def tally : Tree (Mark Listener) :=
  .node ⟨⟨0⟩, []⟩ (.element "div" [])
    [.node ⟨⟨1⟩, []⟩ (.text "\x7b\x7bn\x7d\x7d") [],
      .node ⟨⟨2⟩, []⟩ (.element "button" [("v-on:click", "reset")]) [],
      .node ⟨⟨3⟩, []⟩ (.element "input" [("v-model", "n")]) []]

/-- Data for it. -/
def tallyData : Json := .object [("n", .integer 1)]

/-- A view model with a method for the button. -/
def resetting : ViewModel Unit :=
  ⟨.element ⟨0⟩, .standard, [("reset", fun _ _ => Act.assign "n" (.integer 0))]⟩

/-- After the end a number is assigned and the button is pressed. -/
theorem dropViewModel_tally : ∃ ids w₀ w₂,
    resetting.mountOn .builtin (pageOf tally 4 tallyData) = some (.ok ids, w₀) ∧
      (Program.set "n" (.integer 7)).exec (World.updateAt 3) (w₀.dropViewModel ids) =
        some (.ok (), w₂) ∧
      w₂.store.toJson.compact = "\x7b\"n\":7\x7d" ∧ w₂.innerHtml ⟨0⟩ =
        "1<button v-on:click=\"reset\"></button><input v-model=\"n\" value=\"1\">" ∧
      resetting.fire ⟨2⟩ ⟨"click", ⟨2⟩⟩ w₂ = some (.ok (), w₂) := by
  have ended : (resetting.mountOn .builtin (pageOf tally 4 tallyData)).map
      (fun mounted => (mounted.1, mounted.2.running)) = some (.ok [⟨0⟩, ⟨1⟩], []) := by
    decide +kernel
  have outcome : (resetting.mountOn .builtin (pageOf tally 4 tallyData)).bind (fun mounted =>
      ((Program.set "n" (.integer 7)).exec (World.updateAt 3)
          (mounted.2.dropViewModel [⟨0⟩, ⟨1⟩])).map fun after =>
        (after.1, after.2.store.toJson.compact, after.2.innerHtml ⟨0⟩,
          after.2.document.listeners ⟨2⟩ "click")) =
      some (.ok (), "\x7b\"n\":7\x7d",
        "1<button v-on:click=\"reset\"></button><input v-model=\"n\" value=\"1\">",
        [.invoke "reset"]) := by
    decide +kernel
  obtain ⟨⟨mounted, w₀⟩, hmounted, hended⟩ := Option.map_eq_some_iff.1 ended
  obtain ⟨rfl, running⟩ := Prod.mk.inj hended
  rw [hmounted, Option.bind_some] at outcome
  obtain ⟨⟨result, w₂⟩, hexec, hshown⟩ := Option.map_eq_some_iff.1 outcome
  simp only [Prod.mk.injEq] at hshown
  obtain ⟨rfl, hdata, hhtml, hlisteners⟩ := hshown
  have alone : ∀ id ∉ [(⟨0⟩ : WatcherId), ⟨1⟩], ∀ watcher, w₀.watcher? id = some watcher →
      w₀.isAlive id = true → ∀ seen, (watcher.reaction seen).Keeps Page.isLive := by
    intro id hid watcher found
    have lt := World.watcher?_eq_some_iff_lt.1 ⟨watcher, found⟩
    have gains := resetting.owns_mountOn (Handlers.owns_builtin _) hmounted
    exact absurd (gains.mem_iff.2 ⟨Nat.zero_le _, lt⟩) hid
  have aftermath : resetting.Aftermath (w₀.dropViewModel [⟨0⟩, ⟨1⟩]) w₂ :=
    Aftermath.start.run (Program.Keeps.write fun _ => .finish) hexec
  obtain ⟨-, -, -, events⟩ := dropViewModel_disposes hmounted (Nat.le_refl _)
    (fun id _ => by rw [running]; exact List.not_mem_nil) alone aftermath
  refine ⟨_, w₀, w₂, hmounted, hexec, hdata, hhtml, (events ⟨2⟩ ⟨"click", ⟨2⟩⟩).2.2 ?_⟩
  intro listener hlistener
  rw [hlisteners, List.mem_singleton] at hlistener
  exact ⟨"reset", hlistener⟩

/-- **Form values outlive their view model.** The listener that assigns what is entered keeps the
store itself, so an event still changes the data when the view model is there no more. -/
theorem dropViewModel_field : ∃ ids w₀ w₂,
    resetting.mountOn .builtin (pageOf tally 4 tallyData) = some (.ok ids, w₀) ∧
      (w₀.dropViewModel ids).store.toJson.compact = "\x7b\"n\":1\x7d" ∧
      resetting.fire ⟨3⟩ ⟨"input", ⟨3⟩⟩ (w₀.dropViewModel ids) = some (.ok (), w₂) ∧
      w₂.store.toJson.compact = "\x7b\"n\":\"1\"\x7d" := by
  have outcome : (resetting.mountOn .builtin (pageOf tally 4 tallyData)).bind (fun mounted =>
      (resetting.fire ⟨3⟩ ⟨"input", ⟨3⟩⟩ (mounted.2.dropViewModel [⟨0⟩, ⟨1⟩])).map fun after =>
        (mounted.1, (mounted.2.dropViewModel [⟨0⟩, ⟨1⟩]).store.toJson.compact, after.1,
          after.2.store.toJson.compact)) =
      some (.ok [⟨0⟩, ⟨1⟩], "\x7b\"n\":1\x7d", .ok (), "\x7b\"n\":\"1\"\x7d") := by
    decide +kernel
  obtain ⟨⟨mounted, w₀⟩, hmounted, hafter⟩ := Option.bind_eq_some_iff.1 outcome
  obtain ⟨⟨result, w₂⟩, hfire, hshown⟩ := Option.map_eq_some_iff.1 hafter
  simp only [Prod.mk.injEq] at hshown
  obtain ⟨rfl, hbefore, rfl, hdata⟩ := hshown
  exact ⟨_, w₀, w₂, hmounted, hbefore, hfire, hdata⟩

end ViewModel

end Bindery
