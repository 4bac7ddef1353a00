import Bindery.Proofs.Reactive.InTouch
import Bindery.Proofs.ViewModel.Watching

namespace Bindery

/-!
# Repainting

When a scalar takes the place of another, the displays that depend on it are written again, and all
displays show what there is now.

* `Display.OnScalars` — a display that shows scalars; what it shows depends on these.
* `World.Serves` — the watchers of a world are those of its displays, and in touch.
* `World.Reacts.draws` — what a row of reactions makes of a page.
* `World.Serves.set` — what setting a scalar makes of a page.
* `World.InStep` — a page with displays that show what there is; `World.InStep.set`,
  `World.InStep.enter` — so it stays.
-/

variable {υ : Type}

/-! ### Displays of scalars -/

namespace Display

variable {e : Display} {marks : Delimiters} {s s' : Store}

/-- A display of scalars: a form value of a property that holds one, or a text where all markers
name some. -/
def OnScalars (marks : Delimiters) (s : Store) (e : Display) : Prop :=
  match e.part with
  | .value => ∃ property value, s.HoldsScalar e.source property value
  | _ => ∀ path ∈ e.paths marks, ∃ value, (s.read path).result = .ok (.value (.scalar value))

instance : DecidablePred (OnScalars marks s) := fun e =>
  match e with
  | ⟨_, .value, _⟩ => decidable_of_iff _ Store.namesScalar_iff
  | ⟨_, .data, _⟩ => decidable_of_iff (∀ path ∈ _, s.readsScalar path = true)
      (forall₂_congr fun _ _ => Store.readsScalar_iff)
  | ⟨_, .child, _⟩ => decidable_of_iff (∀ path ∈ _, s.readsScalar path = true)
      (forall₂_congr fun _ _ => Store.readsScalar_iff)

/-- The source of a display is well-formed. -/
def Parses (marks : Delimiters) (e : Display) : Prop :=
  match e.part with
  | .value => ∃ path, Path.parse? e.source = some path
  | _ => ∃ paths, marks.paths e.source = .ok paths

/-- A form value shows what its expression leads to. -/
theorem result_of_value (part : e.part = .value) :
    e.result marks s = (s.get e.source).map Json.display := by
  simp only [result, part]

/-- Any other display shows a text with its markers replaced. -/
theorem result_of_text (part : e.part ≠ .value) : e.result marks s = marks.render e.source s := by
  unfold result
  split
  · contradiction
  · rfl

/-- A form value has one path. -/
theorem paths_of_value (part : e.part = .value) {path : Path}
    (hparse : Path.parse? e.source = some path) : e.paths marks = [path] := by
  simp only [paths, part, hparse, Option.toList_some]

theorem paths_of_text (part : e.part ≠ .value) {paths : List Path}
    (hpaths : marks.paths e.source = .ok paths) : e.paths marks = paths := by
  unfold Display.paths
  split
  · contradiction
  · rw [hpaths]
    rfl

/-- A form value has one path, and a text those of its markers. -/
theorem Parses.cases (h : e.Parses marks) :
    (e.part = .value ∧ ∃ path, Path.parse? e.source = some path ∧ e.paths marks = [path]) ∨
      (e.part ≠ .value ∧ marks.paths e.source = .ok (e.paths marks)) := by
  unfold Parses at h
  split at h
  · next part =>
    obtain ⟨path, hparse⟩ := h
    exact .inl ⟨part, path, hparse, paths_of_value part hparse⟩
  · next part =>
    obtain ⟨paths, hpaths⟩ := h
    exact .inr ⟨part, by rw [paths_of_text part hpaths, hpaths]⟩

/-- The paths of a display lead to scalars. -/
theorem OnScalars.read (h : e.OnScalars marks s) (plain : s.computed = []) :
    ∀ path ∈ e.paths marks, ∃ value, (s.read path).result = .ok (.value (.scalar value)) := by
  unfold OnScalars at h
  split at h
  · next part =>
    obtain ⟨property, value, held⟩ := h
    obtain ⟨path, hparse, -⟩ := held.leadsTo plain
    rw [paths_of_value part hparse, List.forall_mem_singleton]
    exact ⟨value, held.read plain hparse⟩
  · exact h

/-- It goes on showing scalars when one takes the place of another. -/
theorem OnScalars.put (h : e.OnScalars marks s) (plain : s.computed = []) {property : PropertyId}
    {old : Scalar} (was : s.arena.contents[property]? = some (.scalar old)) (value : Scalar) :
    e.OnScalars marks (s.put property value) := by
  unfold OnScalars at h ⊢
  split
  · next part =>
    simp only [part] at h
    obtain ⟨other, before, held⟩ := h
    exact ⟨other, held.put plain was⟩
  · intro path hpath
    split at h
    · contradiction
    · obtain ⟨before, hbefore⟩ := h path hpath
      rw [(Store.read_put value plain was hbefore).2]
      split
      · exact ⟨value, rfl⟩
      · exact ⟨before, rfl⟩

/-- There is something to show. -/
theorem result_ok (parses : e.Parses marks)
    (reads : ∀ path ∈ e.paths marks, ∃ value, (s.read path).result = .ok (.value (.scalar value))) :
    e.result marks s = .ok (e.text marks s) := by
  obtain ⟨text, htext⟩ : ∃ text, e.result marks s = .ok text := by
    obtain ⟨part, path, hparse, hpath⟩ | ⟨part, hpaths⟩ := parses.cases
    · rw [hpath, List.forall_mem_singleton] at reads
      obtain ⟨value, hread⟩ := reads
      rw [result_of_value part, Store.get_of_parse hparse, hread]
      exact ⟨_, rfl⟩
    · rw [result_of_text part]
      refine ⟨_, Delimiters.render_ok hpaths fun path hpath => ?_⟩
      obtain ⟨value, hread⟩ := reads path hpath
      rw [Store.shownPath, hread]
      exact ⟨_, rfl⟩
  rw [Display.text, htext]
  rfl

/-- What is shown depends on what the paths lead to. -/
theorem text_congr_reads (parses : e.Parses marks)
    (reads : ∀ path ∈ e.paths marks, ∃ value, (s.read path).result = .ok (.value (.scalar value)))
    (same : ∀ path ∈ e.paths marks, (s'.read path).result = (s.read path).result) :
    e.text marks s' = e.text marks s := by
  have hresult : e.result marks s' = e.result marks s := by
    obtain ⟨part, path, hparse, hpath⟩ | ⟨part, hpaths⟩ := parses.cases
    · rw [hpath, List.forall_mem_singleton] at reads same
      obtain ⟨value, hread⟩ := reads
      rw [result_of_value part, result_of_value part, Store.get_of_parse hparse,
        Store.get_of_parse hparse, same, hread]
      rfl
    · rw [result_of_text part, result_of_text part]
      refine Delimiters.render_congr hpaths fun path hpath => ?_
      obtain ⟨value, hread⟩ := reads path hpath
      rw [Store.shownPath, Store.shownPath, same path hpath, hread]
      rfl
  rw [Display.text, Display.text, hresult]

/-- A form value shows the scalar of its property. -/
theorem text_of_held (part : e.part = .value) {property : PropertyId} {value : Scalar}
    (plain : s.computed = []) (held : s.HoldsScalar e.source property value) :
    e.text marks s = (Json.scalar value).display := by
  obtain ⟨path, hparse, -⟩ := held.leadsTo plain
  rw [Display.text, result_of_value part, Store.get_of_parse hparse, held.read plain hparse]
  rfl

/-! ### Watched displays -/

/-- Displays with the paths that they mention, in the order in which these are watched. -/
def mentions (marks : Delimiters) (es : List Display) : List (Display × Path) :=
  es.flatMap fun e => (e.paths marks).map (e, ·)

/-- A display mentions its paths. -/
theorem mem_mentions {es : List Display} {path : Path} :
    (e, path) ∈ mentions marks es ↔ e ∈ es ∧ path ∈ e.paths marks := by
  simp [mentions]

/-- What is watched for a display that mentions a path. -/
def watchOf (marks : Delimiters) (mention : Display × Path) : World.Watch (Page υ) :=
  (mention.2, mention.1.reaction marks)

/-- The watchers of displays are those of what they mention. -/
theorem map_mentions (marks : Delimiters) (es : List Display) :
    (mentions marks es).map (watchOf (υ := υ) marks) = es.flatMap (Display.watches marks) := by
  rw [mentions, List.map_flatMap]
  refine List.flatMap_congr fun e _ => ?_
  rw [List.map_map]
  rfl

end Display

namespace Spot

/-- The displays on some nodes, in order. -/
def displaysAll (spots : List Spot) : List Display := spots.flatMap displays

/-- The displays of spots are those of each of them. -/
theorem mem_displaysAll {spots : List Spot} {e : Display} :
    e ∈ displaysAll spots ↔ ∃ spot ∈ spots, e ∈ spot.displays := List.mem_flatMap

end Spot

/-- What a watcher watches. -/
def Watcher.watch {σ : Type} (watcher : Watcher σ) : World.Watch σ :=
  (watcher.path, watcher.reaction)

namespace World

variable {w : World (Page υ)} {marks : Delimiters} {es : List Display} {spots : List Spot}
  {id : WatcherId} {watcher : Watcher (Page υ)} {e : Display} {path : Path}
  {before : Forest Listener} {seenFrom : Nat} {shown : Shown}

/-- The watchers of a world are those of some displays of scalars, and in touch. -/
structure Serves (w : World (Page υ)) (marks : Delimiters) (es : List Display) : Prop where
  attentive : w.Attentive
  inTouch : w.InTouch
  watches : w.watchers.map Watcher.watch = (Display.mentions marks es).map (Display.watchOf marks)
  parses : ∀ e ∈ es, e.Parses marks
  scalars : ∀ e ∈ es, e.OnScalars marks w.store

/-- Each watcher is there for one display. -/
theorem Serves.mention (h : w.Serves marks es) (found : w.watcher? id = some watcher) :
    ∃ e, (Display.mentions marks es)[id.val]? = some (e, watcher.path) ∧
      watcher.reaction = e.reaction marks := by
  have same := congrArg (·[id.val]?) h.watches
  simp only [List.getElem?_map] at same
  rw [show w.watchers[id.val]? = some watcher from found, Option.map_some, eq_comm,
    Option.map_eq_some_iff] at same
  obtain ⟨⟨e, path⟩, hmention, hwatch⟩ := same
  obtain ⟨rfl, hreaction⟩ := Prod.mk.inj hwatch
  exact ⟨e, hmention, hreaction.symm⟩

/-- For each path that a display mentions there is a watcher. -/
theorem Serves.watched (h : w.Serves marks es) (he : e ∈ es) (hpath : path ∈ e.paths marks) :
    ∃ id watcher, w.watcher? id = some watcher ∧ watcher.path = path ∧
      (Display.mentions marks es)[id.val]? = some (e, path) := by
  obtain ⟨i, hmention⟩ := List.mem_iff_getElem?.1 (Display.mem_mentions.2 ⟨he, hpath⟩)
  have same := congrArg (·[i]?) h.watches
  simp only [List.getElem?_map] at same
  rw [hmention, Option.map_some, Option.map_eq_some_iff] at same
  obtain ⟨watcher, found, hwatch⟩ := same
  exact ⟨⟨i⟩, watcher, found, congrArg Prod.fst hwatch, hmention⟩

/-- What the displays show can be told. -/
theorem Serves.result (h : w.Serves marks es) (he : e ∈ es) :
    e.result marks w.store = .ok (e.text marks w.store) :=
  Display.result_ok (h.parses e he) ((h.scalars e he).read h.attentive.plain)

/-! ### Reactions in a row -/

/-- What a watcher does: it writes the text of its display again. -/
theorem Serves.logs (h : w.Serves marks es) {store : Store} (hreach : store.Reachable)
    (results : ∀ e ∈ es, e.result marks store = .ok (e.text marks store))
    (found : w.watcher? id = some watcher) {seen : Snapshot}
    (hread : (store.read watcher.path).result = .ok seen) {host last : Page υ}
    {result : Except Fault Unit} (logs : (watcher.reaction seen).Logs store host result last) :
    ∃ e ∈ es, (Display.mentions marks es)[id.val]? = some (e, watcher.path) ∧ result = .ok () ∧
      last = host.edit (e.write (e.text marks store)) := by
  obtain ⟨e, hmention, hreaction⟩ := h.mention found
  obtain ⟨he, hpath⟩ := Display.mem_mentions.1 (List.mem_of_getElem? hmention)
  rw [hreaction] at logs
  exact ⟨e, he, hmention, Display.logs_reaction hreach hpath hread (results e he) logs⟩

/-- **A row of reactions.** Each display whose watcher is among those that react shows what the
store says, and so may others; all others show what they showed. -/
theorem Reacts.draws {store : Store} {runs : List (WatcherId × Snapshot)} {host last : Page υ}
    (reacts : w.Reacts store runs host last) (serves : w.Serves marks (Spot.displaysAll spots))
    (hreach : store.Reachable) (proper : Spot.Proper spots seenFrom)
    (results : ∀ e ∈ Spot.displaysAll spots, e.result marks store = .ok (e.text marks store))
    (sees : ∀ run ∈ runs, ∀ watcher, w.watcher? run.1 = some watcher →
      (store.read watcher.path).result = .ok run.2)
    (exhibits : before.Exhibits host.document spots seenFrom shown) :
    ∃ shown', before.Exhibits last.document spots seenFrom shown' ∧
      ∀ e, e.shownBy shown' = e.text marks store ∨ e.shownBy shown' = e.shownBy shown ∧
        ∀ run ∈ runs, ∀ path,
          (Display.mentions marks (Spot.displaysAll spots))[run.1.val]? ≠ some (e, path) := by
  induction reacts generalizing shown with
  | nil => exact ⟨shown, exhibits, fun e => .inr ⟨rfl, fun _ h => nomatch h⟩⟩
  | @cons id seen runs watcher host next last found logs _ ih =>
    rw [List.forall_mem_cons] at sees
    obtain ⟨first, hfirst, hmention, -, rfl⟩ :=
      serves.logs hreach results found (sees.1 watcher found) logs
    obtain ⟨spot, hspot, hdisplay⟩ := Spot.mem_displaysAll.1 hfirst
    have drawn := exhibits.write proper hspot hdisplay (first.text marks store)
    obtain ⟨shown', hexhibits, hshown⟩ := ih sees.2 drawn
    refine ⟨shown', hexhibits, fun e => ?_⟩
    obtain hnow | ⟨hsame, untold⟩ := hshown e
    · exact .inl hnow
    · -- none of the later reactions was for this display; was the first one?
      obtain hold | ⟨hdrawn, source, part⟩ :=
        Display.shownBy_draw shown e first (first.text marks store)
      · by_cases same : e = first
        · left
          rw [hsame, same, Display.shownBy_draw_self]
        · right
          refine ⟨hsame.trans hold, List.forall_mem_cons.2 ⟨fun path hother => ?_, untold⟩⟩
          rw [hmention] at hother
          exact same (Prod.mk.inj (Option.some.inj hother)).1.symm
      · -- a display of the same text on the same node was written with it
        left
        rw [hsame, hdrawn, Display.text_congr source part]

/-! ### Setting a scalar -/

section set

variable {expr : String} {property : PropertyId} {old value : Scalar}

/-- **Setting a scalar.** The displays that depend on it are written again.  It suffices that the
other displays showed what there was. -/
theorem Serves.set (h : w.Serves marks (Spot.displaysAll spots))
    (proper : Spot.Proper spots seenFrom) (held : w.store.HoldsScalar expr property old)
    (differ : old.strictEq value = false)
    (exhibits : before.Exhibits w.document spots seenFrom shown)
    (shows : ∀ e ∈ Spot.displaysAll spots, e.shownBy shown = e.text marks w.store ∨
      ∃ path ∈ e.paths marks, property ∈ (w.store.read path).trace) :
    ∃ w' shown', World.set expr (.scalar value) w = some (.ok (), w') ∧
      w'.Serves marks (Spot.displaysAll spots) ∧
      before.Exhibits w'.document spots seenFrom shown' ∧
      ∀ e ∈ Spot.displaysAll spots, e.shownBy shown' = e.text marks w'.store := by
  have plain := h.attentive.plain
  have scalars : ∀ e ∈ Spot.displaysAll spots, e.OnScalars marks (w.store.put property value) :=
    fun e he => (h.scalars e he).put plain held.holds value
  have results : ∀ e ∈ Spot.displaysAll spots, e.result marks (w.store.put property value) =
      .ok (e.text marks (w.store.put property value)) :=
    fun e he => Display.result_ok (h.parses e he) ((scalars e he).read plain)
  have hreach : (w.store.put property value).Reachable := by
    obtain ⟨path, hparse, -⟩ := held.leadsTo plain
    exact h.attentive.reachable.assign ((held.assign plain hparse value).2 differ)
  obtain ⟨last, w', hset, rfl, reacts, attentive, inTouch⟩ :=
    h.inTouch.set_scalar h.attentive held differ fun found hread logs => by
      obtain ⟨-, -, -, hok, -⟩ := h.logs hreach results found hread logs
      exact hok
  obtain ⟨shown', hexhibits, hshown⟩ := reacts.draws h hreach proper results
    (fun run hrun watcher found => by
      obtain ⟨_, hfound, hread, -⟩ := seesAnew_eq_some.1 (mem_due.1 hrun).2
      cases found.symm.trans hfound
      exact hread) exhibits
  refine ⟨_, shown', hset, ⟨attentive, inTouch, ?_, h.parses, scalars⟩, hexhibits, fun e he => ?_⟩
  · rw [map_watchers_leaving_due last fun _ _ => rfl]
    exact h.watches
  · obtain hnow | ⟨hsame, untold⟩ := hshown e
    · exact hnow
    · -- nobody reacted for this display, so none of its paths goes through the property
      have elsewhere : ∀ path ∈ e.paths marks, property ∉ (w.store.read path).trace := by
        intro path hpath through
        obtain ⟨id, watcher, found, rfl, hmention⟩ := h.watched he hpath
        have anew := h.inTouch.seesAnew_put plain held.holds differ found through
        exact untold (id, _) (mem_due.2 ⟨h.inTouch.subscribed found through, anew⟩) _ hmention
      obtain hold | ⟨path, hpath, through⟩ := shows e he
      · rw [hsame, hold]
        refine (Display.text_congr_reads (h.parses e he) ((h.scalars e he).read plain) ?_).symm
        intro path hpath
        rw [store_leaving, Store.read_put_of_notMem plain held.holds (elsewhere path hpath)]
      · exact absurd through (elsewhere path hpath)

end set

end World

/-! ### Form values -/

@[simp] theorem Kind.value_setAttr (tag : String) (attrs : List (String × String)) (text : String) :
    ((Kind.element tag attrs).setAttr "value" text).value = text := by
  rw [setAttr, value, attr?, attrs_element, lookup_setIn, Option.getD_some]

namespace Spot

variable {spot : Spot} {e : Display} {f : Forest Listener} {seenFrom : Nat} {shown : Shown}

/-- A display of a form value comes from a directive for it. -/
theorem IsPlain.model_of_mem (plain : spot.IsPlain) (he : e ∈ spot.displays)
    (part : e.part = .value) :
    ∃ ds d, spot.role = .element ds ∧ d ∈ ds ∧ d.kind = .model ∧ d.expression = e.source ∧
      e.node = spot.node := by
  obtain ⟨-, data, -⟩ | ⟨ds, d, role, hd, hpart, hsource, hnode⟩ := mem_displays.1 he
  · cases part.symm.trans data
  · refine ⟨ds, d, role, hd, ((plain.directives role).1 d hd).resolve_right fun text => ?_, hsource,
      hnode⟩
    rw [text, part] at hpart
    cases hpart

/-- **A form element.** It has the value that is shown, and what is entered in it is assigned. -/
theorem Shows.form (h : spot.Shows f seenFrom shown) (plain : spot.IsPlain)
    (element : ∀ ds, spot.role = .element ds → ∃ tag attrs, spot.entry.kind = .element tag attrs)
    (quiet : ∀ listener ∈ spot.entry.listeners, listener.1 ≠ "input") (he : e ∈ spot.displays)
    (part : e.part = .value) : (f.kind e.node).value = e.shownBy shown ∧
      f.listeners e.node "input" = [.writeBack e.source] := by
  obtain ⟨ds, d, role, hd, model, hsource, hnode⟩ := plain.model_of_mem he part
  obtain ⟨tag, attrs, hkind⟩ := element ds role
  obtain ⟨children, hentry⟩ := h.entry
  have silent : spot.entry.listeners.filter (·.1 = "input") = [] := by
    rw [List.filter_eq_nil_iff]
    intro listener hlistener
    simpa using quiet listener hlistener
  rw [hnode]
  constructor
  · rw [Forest.kind_of_entry hentry, plain.kind_model role hd model, hkind, Kind.value_setAttr]
    simp only [Display.shownBy, part, hnode, hsource]
  · rw [Forest.listeners_of_entry hentry, plain.listeners_model role hd model, List.filter_append,
      silent, hsource]
    rfl

end Spot

/-- A node where nothing but a form value waits for input assigns what was entered. -/
theorem ViewModel.fire_writeBack (vm : ViewModel υ) {w : World (Page υ)} {node : NodeId}
    {expr : String} (waits : w.document.listeners node "input" = [.writeBack expr]) :
    vm.fire node ⟨"input", node⟩ w = Act.assign expr (.string (w.formValue node)) w := by
  have fired : vm.fire node ⟨"input", node⟩ w =
      hearAll (vm.reach 999999) ⟨"input", node⟩ (w.document.listeners node "input") w := rfl
  rw [fired, waits]
  exact congrFun (Step.bind_pure (hear (vm.reach 999999) ⟨"input", node⟩ (.writeBack expr))) w

/-! ### Pages in step -/

namespace World

variable {w : World (Page υ)} {marks : Delimiters} {spots : List Spot} {before : Forest Listener}
  {seenFrom : Nat} {e : Display} {expr : String} {property : PropertyId} {old : Scalar}

/-- All displays on a page show what there is, and will be written again when it changes; everything
else on the page is as it was. -/
structure InStep (w : World (Page υ)) (marks : Delimiters) (before : Forest Listener)
    (spots : List Spot) (seenFrom : Nat) : Prop where
  proper : Spot.Proper spots seenFrom
  serves : w.Serves marks (Spot.displaysAll spots)
  shows : ∃ shown, before.Exhibits w.document spots seenFrom shown ∧
    ∀ e ∈ Spot.displaysAll spots, e.shownBy shown = e.text marks w.store

/-- Setting a scalar to one that equals it does nothing. -/
theorem set_same (plain : w.store.computed = []) (held : w.store.HoldsScalar expr property old)
    {value : Scalar} (same : old.strictEq value = true) :
    World.set expr (.scalar value) w = some (.ok (), w) := by
  obtain ⟨path, hparse, -⟩ := held.leadsTo plain
  simp only [World.set, hparse, World.write, World.assign, (held.assign plain hparse value).1 same]

/-- **Setting a scalar** keeps a page in step. -/
theorem InStep.set (h : w.InStep marks before spots seenFrom)
    (held : w.store.HoldsScalar expr property old) (value : Scalar) :
    ∃ w', World.set expr (.scalar value) w = some (.ok (), w') ∧
      w'.InStep marks before spots seenFrom := by
  cases same : old.strictEq value with
  | true => exact ⟨w, set_same h.serves.attentive.plain held same, h⟩
  | false =>
    obtain ⟨shown, exhibits, hshown⟩ := h.shows
    obtain ⟨w', shown', hset, serves, hexhibits, hshown'⟩ :=
      h.serves.set h.proper held same exhibits fun e he => .inl (hshown e he)
    exact ⟨w', hset, h.proper, serves, shown', hexhibits, hshown'⟩

/-- A change of the document leaves the watchers serving their displays. -/
theorem Serves.editDocument {es : List Display} (h : w.Serves marks es)
    (change : Forest Listener → Forest Listener) : (w.editDocument change).Serves marks es :=
  { h with
    attentive := { h.attentive with }
    inTouch := { h.inTouch with } }

/-- **Entering a text** keeps a page in step. -/
theorem InStep.enter (h : w.InStep marks before spots seenFrom) (vm : ViewModel υ)
    (quiet : ∀ spot ∈ spots, ∀ listener ∈ spot.entry.listeners, listener.1 ≠ "input")
    (he : e ∈ Spot.displaysAll spots) (part : e.part = .value) (text : String) :
    ∃ w', vm.fire e.node ⟨"input", e.node⟩
        (w.editDocument (·.mapKind e.node (Kind.setAttr "value" text))) = some (.ok (), w') ∧
      w'.InStep marks before spots seenFrom := by
  obtain ⟨shown, exhibits, hshown⟩ := h.shows
  obtain ⟨spot, hspot, hdisplay⟩ := Spot.mem_displaysAll.1 he
  have hwrite : e.write text = (·.mapKind e.node (Kind.setAttr "value" text)) := by
    funext f
    simp only [Display.write, part]
  rw [← hwrite]
  -- at first the text stands in the form element alone
  have drawn : before.Exhibits (w.editDocument (e.write text)).document spots seenFrom
      (shown.draw e text) := exhibits.write h.proper hspot hdisplay text
  have serves := h.serves.editDocument (e.write text)
  obtain ⟨hvalue, waits⟩ := (drawn.shows spot hspot).form (h.proper.plain spot hspot)
    (h.proper.elements spot hspot) (quiet spot hspot) hdisplay part
  rw [Display.shownBy_draw_self] at hvalue
  rw [vm.fire_writeBack waits, formValue, hvalue]
  obtain ⟨property, old, held⟩ : ∃ property old, w.store.HoldsScalar e.source property old := by
    simpa only [Display.OnScalars, part] using h.serves.scalars e he
  obtain ⟨path, hparse, -⟩ := held.leadsTo serves.attentive.plain
  have hshown' : ∀ d ∈ Spot.displaysAll spots,
      d.shownBy (shown.draw e text) = d.text marks w.store ∨
      d.shownBy (shown.draw e text) = text ∧ d.source = e.source ∧ d.part = .value := by
    intro d hd
    obtain hold | ⟨hnow, source, hpart⟩ := Display.shownBy_draw shown d e text
    · exact .inl (hold.trans (hshown d hd))
    · exact .inr ⟨hnow, source, hpart.2 part⟩
  cases same : old.strictEq (.string text) with
  | true =>
    -- the text was there already, so nobody is told
    obtain rfl := Scalar.eq_string_of_strictEq same
    refine ⟨_, Act.assign_ok (set_same serves.attentive.plain held same), h.proper, serves, _,
      drawn, fun d hd => ?_⟩
    obtain hold | ⟨hnow, source, hpart⟩ := hshown' d hd
    · exact hold
    · rw [hnow, Display.text_of_held hpart serves.attentive.plain (source ▸ held)]
      rfl
  | false =>
    obtain ⟨w', shown', hset, serves', hexhibits, hshown'⟩ :=
      serves.set h.proper held same drawn fun d hd => by
        obtain hold | ⟨-, source, hpart⟩ := hshown' d hd
        · exact .inl hold
        · right
          rw [Display.paths_of_value hpart (source ▸ hparse)]
          exact ⟨path, List.mem_singleton_self path, held.mem_trace serves.attentive.plain hparse⟩
    exact ⟨w', Act.assign_ok hset, h.proper, serves', shown', hexhibits, hshown'⟩

end World

end Bindery
