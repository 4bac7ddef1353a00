import Bindery.Proofs.Reactive.Session
import Bindery.Proofs.Store.Identity

namespace Bindery

/-!
# The history of a run

A run without computed members does nothing to the store but one assignment after another, in
reactions inside reactions.  What a composite was at one moment of it, and is at a later one, is
told by the assignments in between.

* `World.notifyChanges`, `World.assignChanges`, `Program.changes`, `World.changesAt` — the changes
  that notifications, assignments, programs and updates make, in order.
* `World.Recounts` — changes that lead from the store of a world to that of every later moment.
* `World.Elapsed` — a moment of a run, after given changes.
* `World.identity_of_elapsed` — composites from one moment to another.
-/

/-- The changes that an update of a watcher makes, in order. -/
abbrev Changing (σ : Type) : Type := WatcherId → World σ → List Change

variable {σ : Type}

namespace World

/-- The changes that a notification makes, with those of the updates that it makes. -/
def notifyChanges (update : Updater σ) (inside : Changing σ) :
    List WatcherId → World σ → List Change
  | [], _ => []
  | id :: rest, w =>
    if w.isAlive id then
      inside id w ++
        match update id w with
        | some (.ok (), w) => notifyChanges update inside rest w
        | _ => []
    else notifyChanges update inside rest w

/-- The changes that an assignment makes, if it succeeds: its own, and then those of the watchers
that are told of it. -/
def assignChanges (update : Updater σ) (inside : Changing σ) (path : Path) (value : Json)
    (w : World σ) : List Change :=
  match w.store.assign path value with
  | .error _ => []
  | .ok (effect, store) =>
    ⟨path, value, effect, store⟩ ::
      match effect with
      | .replaced property => notifyChanges update inside (w.subscribers property) { w with store }
      | _ => []

end World

/-- The changes that a program makes. -/
def Program.changes (update : Updater σ) (inside : Changing σ) : Program σ → World σ → List Change
  | .finish _ => fun _ => []
  | .look next => fun w => changes update inside (next w.store w.host) w
  | .edit change next => fun w => changes update inside next (w.editHost change)
  | .write path value next => fun w =>
    World.assignChanges update inside path value w ++
      match World.assign update path value w with
      | none => []
      | some (result, w) => changes update inside (next result) w
  | .watch path reaction next => fun w =>
    changes update inside (next (w.watch path reaction).1) (w.watch path reaction).2
  | .drop id next => fun w => changes update inside next (w.drop id)
  | .update id next => fun w =>
    if w.isAlive id then
      inside id w ++
        match update id w with
        | none => []
        | some (result, w) => changes update inside (next result) w
    else changes update inside (next (.ok ())) w

/-- The changes that an update of a watcher makes: those of its reaction, if that has to run. -/
def World.changesAt : Nat → Changing σ
  | depth, id => fun w =>
    match w.refresh id with
    | .settled _ _ => []
    | .reacts reaction recorded =>
      match depth with
      | 0 => []
      | depth + 1 => reaction.changes (updateAt depth) (changesAt depth) (recorded.enter id)

namespace World

variable {w w' m start : World σ} {changes first rest : List Change} {result : Except Fault Unit}
  {outcome : Option (Except Fault Unit × World σ)} {Passes Later : World σ → Prop}
  {update : Updater σ} {inside : Passing σ} {changing : Changing σ}

/-- The changes lead from the store of a world to the one that is left in the end, and some first of
them to that of each of the moments. -/
structure Recounts (w : World σ) (changes : List Change)
    (outcome : Option (Except Fault Unit × World σ)) (Passes : World σ → Prop) : Prop where
  unfolds : w.store.Unfolds changes
  left : ∀ result left, outcome = some (result, left) → left.store = w.store.after changes
  moments : ∀ m, Passes m → ∃ now, now <+: changes ∧ m.store = w.store.after now

/-! ### Putting histories together -/

/-- Where nothing changes there is nothing to tell. -/
theorem recounts_nil (left : ∀ result left, outcome = some (result, left) → left.store = w.store)
    (moments : ∀ m, Passes m → m.store = w.store) : w.Recounts [] outcome Passes :=
  ⟨trivial, left, fun m h => ⟨[], List.nil_prefix, moments m h⟩⟩

/-- The moments may be fewer, and the first world may be one of them. -/
theorem Recounts.mono (h : w.Recounts changes outcome Passes)
    (fewer : ∀ m, Later m → m = w ∨ Passes m) : w.Recounts changes outcome Later where
  unfolds := h.unfolds
  left := h.left
  moments m hm := by
    obtain rfl | hpasses := fewer m hm
    · exact ⟨[], List.nil_prefix, rfl⟩
    · exact h.moments m hpasses

/-- What begins with a world that has the same store can be told from either. -/
theorem Recounts.of_store (h : w'.Recounts changes outcome Passes) (w : World σ)
    (same : w'.store = w.store) : w.Recounts changes outcome Passes := by
  obtain ⟨unfolds, left, moments⟩ := h
  rw [same] at unfolds left moments
  exact ⟨unfolds, left, moments⟩

/-- One after another. -/
theorem Recounts.next (h : w.Recounts first (some (result, w')) Passes)
    (h' : w'.Recounts rest outcome Later) :
    w.Recounts (first ++ rest) outcome fun m => Passes m ∨ Later m := by
  have between : w'.store = w.store.after first := h.left result w' rfl
  obtain ⟨unfolds, left, moments⟩ := h'
  rw [between] at unfolds left moments
  refine ⟨Store.unfolds_append.2 ⟨h.unfolds, unfolds⟩, fun result last hlast => ?_, ?_⟩
  · rw [Store.after_append, left result last hlast]
  · rintro m (early | late)
    · obtain ⟨now, hnow, hm⟩ := h.moments m early
      exact ⟨now, hnow.trans (List.prefix_append _ _), hm⟩
    · obtain ⟨now, hnow, hm⟩ := moments m late
      exact ⟨first ++ now, (List.prefix_append_right_inj _).2 hnow, by rw [Store.after_append, hm]⟩

/-- An operation, and what comes after it if it ends. -/
theorem Recounts.bind {ended : Option (Except Fault Unit × World σ)}
    {rest : Except Fault Unit → World σ → List Change}
    {next : Except Fault Unit → World σ → Option (Except Fault Unit × World σ)}
    {later : Except Fault Unit → World σ → World σ → Prop} :
    w.Recounts first ended Passes →
    (∀ result (w' : World σ),
      w'.Recounts (rest result w') (next result w') (later result w')) →
    (∀ m, Later m → m = w ∨ Passes m ∨
      ∃ result w', ended = some (result, w') ∧ later result w' m) →
    w.Recounts
      (first ++ match ended with
        | none => []
        | some (result, w') => rest result w')
      (match ended with
        | none => none
        | some (result, w') => next result w')
      Later := by
  intro h h' fewer
  cases ended with
  | none =>
    simp only [List.append_nil]
    refine h.mono fun m hm => (fewer m hm).imp_right fun more => ?_
    obtain passes | ⟨result, w', ends, -⟩ := more
    · exact passes
    · cases ends
  | some done =>
    obtain ⟨result, w'⟩ := done
    refine (h.next (h' result w')).mono fun m hm => (fewer m hm).imp_right fun more => ?_
    obtain passes | ⟨_, _, ends, hlater⟩ := more
    · exact .inl passes
    · cases ends
      exact .inr hlater

/-- The changes of updates of live watchers are told as they should. -/
def Told (update : Updater σ) (inside : Passing σ) (changing : Changing σ) : Prop :=
  ∀ {id w}, w.isAlive id = true → Recounts w (changing id w) (update id w) (inside id w)

/-! ### The changes of operations -/

/-- The changes of a notification are those of its updates, one after another. -/
theorem Told.notify (told : Told update inside changing) (ids : List WatcherId) (w : World σ) :
    w.Recounts (notifyChanges update changing ids w) (World.notify update ids w)
      (NotifyPasses update inside ids w) := by
  induction ids generalizing w with
  | nil =>
    refine recounts_nil (fun result left hleft => ?_) fun m passes => ?_
    · cases hleft
      rfl
    · cases passes
      rfl
  | cons id rest ih =>
    simp only [notifyChanges, World.notify]
    cases alive : w.isAlive id with
    | false =>
      simp only [Bool.false_eq_true, if_false]
      refine (ih w).mono fun m passes => ?_
      cases passes with
      | now => exact .inl rfl
      | inside alive' => cases alive.symm.trans alive'
      | next alive' => cases alive.symm.trans alive'
      | skip _ later => exact .inr later
    | true =>
      simp only [if_true]
      have here := told alive
      -- if the update does not end well, nobody else is told
      have stops (ill : ∀ w', update id w ≠ some (.ok (), w')) (m : World σ)
          (passes : NotifyPasses update inside (id :: rest) w m) : m = w ∨ inside id w m := by
        cases passes with
        | now => exact .inl rfl
        | inside _ within => exact .inr within
        | next _ hnext => exact absurd hnext (ill _)
        | skip dead => cases alive.symm.trans dead
      obtain hupdate | ⟨fault, w', hupdate⟩ | ⟨w', hupdate⟩ : update id w = none ∨
          (∃ fault w', update id w = some (.error fault, w')) ∨
            ∃ w', update id w = some (.ok (), w') := by
        obtain _ | ⟨_ | _, w'⟩ := update id w
        · exact .inl rfl
        · exact .inr (.inl ⟨_, w', rfl⟩)
        · exact .inr (.inr ⟨w', rfl⟩)
      all_goals
        rw [hupdate] at here
        simp only [hupdate, List.append_nil]
      · exact here.mono (stops (by simp [hupdate]))
      · exact here.mono (stops (by simp [hupdate]))
      · refine (here.next (ih w')).mono fun m passes => ?_
        cases passes with
        | now => exact .inl rfl
        | inside _ within => exact .inr (.inl within)
        | next _ hnext later =>
          cases hupdate.symm.trans hnext
          exact .inr (.inr later)
        | skip dead => cases alive.symm.trans dead

/-- The changes of an assignment are its own and those of the notification. -/
theorem Told.assign (told : Told update inside changing) (path : Path) (value : Json)
    (w : World σ) : w.Recounts (assignChanges update changing path value w)
      (World.assign update path value w) (AssignPasses update inside path value w) := by
  simp only [assignChanges, World.assign]
  cases hassign : w.store.assign path value with
  | error fault =>
    refine recounts_nil (fun result left hleft => ?_) fun m passes => ?_
    · cases hleft
      rfl
    · cases passes with
      | now => rfl
      | assigned h => cases hassign.symm.trans h
      | notifying h => cases hassign.symm.trans h
  | ok done =>
    obtain ⟨effect, store⟩ := done
    have assigned : w.Recounts [⟨path, value, effect, store⟩] (some (.ok (), { w with store }))
        fun m => m = { w with store } := by
      refine ⟨⟨hassign, trivial⟩, fun result left hleft => ?_, ?_⟩
      · cases hleft
        rfl
      · rintro m rfl
        exact ⟨_, List.prefix_rfl, rfl⟩
    -- after it there is more only if watchers are told of it
    have ends (untold : ∀ property, effect ≠ .replaced property) (m : World σ)
        (passes : AssignPasses update inside path value w m) : m = w ∨ m = { w with store } := by
      cases passes with
      | now => exact .inl rfl
      | assigned h =>
        cases hassign.symm.trans h
        exact .inr rfl
      | notifying h =>
        cases hassign.symm.trans h
        exact absurd rfl (untold _)
    cases effect with
    | unchanged =>
      cases Store.eq_of_unchanged hassign
      exact assigned.mono (ends fun _ same => by cases same)
    | added => exact assigned.mono (ends fun _ same => by cases same)
    | replaced property =>
      refine (assigned.next (told.notify (w.subscribers property) { w with store })).mono ?_
      intro m passes
      cases passes with
      | now => exact .inl rfl
      | assigned h =>
        cases hassign.symm.trans h
        exact .inr (.inl rfl)
      | notifying h later =>
        cases hassign.symm.trans h
        exact .inr (.inr later)

/-- **The changes of a program.** -/
theorem Told.program (told : Told update inside changing) (program : Program σ) (w : World σ) :
    w.Recounts (program.changes update changing w) (program.exec update w)
      (program.Passes update inside w) := by
  induction program generalizing w with
  | finish ended =>
    refine recounts_nil (fun result left hleft => ?_) fun m passes => ?_
    · cases hleft
      rfl
    · cases passes
      rfl
  | look next ih =>
    refine (ih _ _ w).mono fun m passes => ?_
    cases passes with
    | now => exact .inl rfl
    | look later => exact .inr later
  | edit change next ih =>
    refine ((ih (w.editHost change)).of_store w rfl).mono fun m passes => ?_
    cases passes with
    | now => exact .inl rfl
    | edit later => exact .inr later
  | write path value next ih =>
    simp only [Program.changes, Program.exec]
    refine (told.assign path value w).bind ih fun m passes => ?_
    cases passes with
    | now => exact .inl rfl
    | writing within => exact .inr (.inl within)
    | written ended later => exact .inr (.inr ⟨_, _, ended, later⟩)
  | watch path reaction next ihReaction ih =>
    have same : (w.watch path reaction).2.store = w.store := by
      simp only [World.watch]
      split <;> rfl
    refine ((ih _ _).of_store w same).mono fun m passes => ?_
    cases passes with
    | now => exact .inl rfl
    | watched later => exact .inr later
  | drop id next ih =>
    refine ((ih (w.drop id)).of_store w rfl).mono fun m passes => ?_
    cases passes with
    | now => exact .inl rfl
    | dropped later => exact .inr later
  | update id next ih =>
    simp only [Program.changes, Program.exec]
    cases alive : w.isAlive id with
    | false =>
      simp only [Bool.false_eq_true, if_false]
      refine (ih (.ok ()) w).mono fun m passes => ?_
      cases passes with
      | now => exact .inl rfl
      | updating alive' => cases alive.symm.trans alive'
      | updated alive' => cases alive.symm.trans alive'
      | ignored _ later => exact .inr later
    | true =>
      simp only [if_true]
      refine (told alive).bind ih fun m passes => ?_
      cases passes with
      | now => exact .inl rfl
      | updating _ within => exact .inr (.inl within)
      | updated _ ended later => exact .inr (.inr ⟨_, _, ended, later⟩)
      | ignored dead => cases alive.symm.trans dead

/-- An update that calls no reaction makes no changes. -/
theorem changesAt_settled {id : WatcherId} (depth : Nat)
    (h : w.refresh id = .settled result w') :
    changesAt depth id w = [] := by
  unfold changesAt
  rw [h]

/-- Otherwise its changes are those of the reaction. -/
theorem changesAt_reacts {id : WatcherId} {reaction : Program σ} (depth : Nat)
    (h : w.refresh id = .reacts reaction w') : changesAt (depth + 1) id w =
      reaction.changes (updateAt depth) (changesAt depth) (w'.enter id) := by
  rw [changesAt]
  simp only [h]

/-- **The changes of an update**, with reactions nested as deep as may be. -/
theorem told_changesAt (depth : Nat) :
    Told (σ := σ) (updateAt depth) (UpdatePasses depth) (changesAt depth) := by
  intro id w alive
  cases hrefresh : w.refresh id with
  | settled result settled =>
    have same {result' : Except Fault Unit} {w' : World σ}
        (h : w.refresh id = .settled result' w') : w'.store = w.store := by
      obtain rfl | ⟨seen, rfl⟩ := settled_cases h <;> rfl
    rw [changesAt_settled depth hrefresh, updateAt_settled depth hrefresh]
    refine recounts_nil (fun result left hleft => ?_) fun m passes => ?_
    · cases hleft
      exact same hrefresh
    · obtain rfl | ⟨result', h⟩ | ⟨_, _, _, _, _, h, _⟩ := updatePasses_cases passes
      · rfl
      · exact same h
      · cases hrefresh.symm.trans h
  | reacts reaction recorded =>
    obtain ⟨watcher, seen, -, -, -, -, rfl⟩ := reacts_cases hrefresh
    cases depth with
    | zero =>
      -- no depth is left for the reaction, which does not begin
      have idle : changesAt 0 id w = [] ∧ updateAt 0 id w = none := by
        unfold changesAt updateAt
        simp only [hrefresh, and_self]
      rw [idle.1, idle.2]
      refine recounts_nil (fun _ _ ended => by cases ended) fun m passes => ?_
      obtain rfl | ⟨_, h⟩ | ⟨_, _, _, _, deeper, _⟩ := updatePasses_cases passes
      · rfl
      · cases hrefresh.symm.trans h
      · cases deeper
    | succ inner =>
      have here := (Told.program (told_changesAt inner) reaction
        ((w.observe id seen).enter id)).of_store w rfl
      rw [changesAt_reacts inner hrefresh, updateAt_reacts inner hrefresh]
      refine ⟨here.unfolds, fun result left hleft => ?_, fun m passes => ?_⟩
      · obtain ⟨⟨ended, last⟩, hexec, hleft⟩ := Option.map_eq_some_iff.1 hleft
        cases hleft
        exact here.left result last hexec
      · obtain rfl | ⟨_, h⟩ | ⟨_, _, _, last, deeper, h, within, hm⟩ := updatePasses_cases passes
        · exact ⟨[], List.nil_prefix, rfl⟩
        · cases hrefresh.symm.trans h
        · cases deeper
          cases hrefresh.symm.trans h
          have moment := here.moments last within
          obtain rfl | rfl := hm
          · exact moment
          · exact moment
termination_by depth

/-! ### Runs -/

/-- The changes of operations one after another, and the world that they lead to. -/
inductive History (start : World σ) : List Change → World σ → Prop
  | start : History start [] start
  | run {earlier w w' program depth result} : History start earlier w →
      Program.exec (updateAt depth) program w = some (result, w') →
      History start (earlier ++ program.changes (updateAt depth) (changesAt depth) w) w'

/-- A moment of a run, after given changes: those of the operations before, and the first ones of
the operation that is going on, whether or not that ends. -/
inductive Elapsed (start : World σ) : List Change → World σ → Prop
  | during {earlier now w m program depth} : History start earlier w →
      Program.Passes (updateAt depth) (UpdatePasses depth) program w m →
      now <+: program.changes (updateAt depth) (changesAt depth) w →
      m.store = w.store.after now → Elapsed start (earlier ++ now) m

/-- An assignment that nobody is told of, as an operation of its own. -/
theorem History.assign {path : Path} {value : Json} {effect : Effect} {store : Store}
    (h : History start changes w) (untold : ∀ property, w.subscribers property = [])
    (hassign : w.store.assign path value = .ok (effect, store)) :
    History start (changes ++ [⟨path, value, effect, store⟩]) { w with store } := by
  have assigned : World.assign (updateAt 0) path value w = some (.ok (), { w with store }) ∧
      assignChanges (updateAt 0) (changesAt 0) path value w = [⟨path, value, effect, store⟩] := by
    simp only [World.assign, assignChanges, hassign]
    cases effect with
    | unchanged =>
      cases Store.eq_of_unchanged hassign
      exact ⟨rfl, rfl⟩
    | added => exact ⟨rfl, rfl⟩
    | replaced property =>
      simp only [untold]
      exact ⟨rfl, rfl⟩
  have ended : Program.exec (updateAt 0) (.write path value .finish) w =
      some (.ok (), { w with store }) := by
    simp only [Program.exec, assigned.1]
  have made : Program.changes (updateAt 0) (changesAt 0) (.write path value .finish) w =
      [⟨path, value, effect, store⟩] := by
    simp only [Program.changes, assigned.1, assigned.2, List.append_nil]
  have ran := History.run h ended
  rwa [made] at ran

/-- The world that operations leave is a moment. -/
theorem History.elapsed_now (h : History start changes w) : Elapsed start changes w := by
  have now : Elapsed start (changes ++ []) w :=
    @Elapsed.during σ start changes [] w w .succeed 0 h .now List.nil_prefix rfl
  rwa [List.append_nil] at now

/-- The store after a history is the one that its changes lead to. -/
theorem History.unfolds (h : History start changes w) :
    start.store.Unfolds changes ∧ w.store = start.store.after changes := by
  induction h with
  | start => exact ⟨trivial, rfl⟩
  | @run earlier w w' program depth result _ hexec ih =>
    have here := Told.program (told_changesAt depth) program w
    have left := here.left result w' hexec
    have unfolds := here.unfolds
    rw [ih.2] at left unfolds
    exact ⟨Store.unfolds_append.2 ⟨ih.1, unfolds⟩, left.trans (Store.after_append ..).symm⟩

/-- The store of a moment is the one that the changes left. -/
theorem Elapsed.unfolds (h : Elapsed start changes m) :
    start.store.Unfolds changes ∧ m.store = start.store.after changes := by
  obtain @⟨earlier, now, w, m, program, depth, history, -, ⟨rest, hrest⟩, hm⟩ := h
  obtain ⟨before, between⟩ := history.unfolds
  have unfolds := (Told.program (told_changesAt depth) program w).unfolds
  rw [between] at unfolds hm
  rw [← hrest, Store.unfolds_append] at unfolds
  exact ⟨Store.unfolds_append.2 ⟨before, unfolds.1⟩, hm.trans (Store.after_append ..).symm⟩

/-- **The identity of composites in a run.**  A path leads to a composite at one moment.  Until some
later one nothing replaced it or anything around it: then the path leads to the same composite, and
what this holds is what the data have there.  Or something did: then no path leads to it, and it
holds nothing. -/
theorem identity_of_elapsed (data : Json) (host : σ) {before between : List Change}
    {path : Path} {id : CompositeId} (earlier : Elapsed (new (.ofJson data) host) before m)
    (later : Elapsed (new (.ofJson data) host) (before ++ between) w)
    (hread : (m.store.read path).result = .ok (.composite id)) :
    (¬ m.store.Overwritten path between →
      (w.store.read path).result = .ok (.composite id) ∧
        w.store.toJson.descendAll path.segments = .ok (w.store.valueOf (.composite id))) ∧
    (m.store.Overwritten path between →
      (∀ other seen, (w.store.read other).result = .ok seen →
        seen.strictEq (.composite id) = false) ∧
      w.store.valueOf (.composite id) = .null) := by
  obtain ⟨first, hm⟩ := earlier.unfolds
  obtain ⟨all, hw⟩ := later.unfolds
  obtain ⟨-, unfolds⟩ := Store.unfolds_append.1 all
  rw [Store.after_append, ← hm] at hw
  rw [← hm] at unfolds
  have reachable : m.store.Reachable := hm ▸ Store.Reachable.after (.ofJson data) first
  have plain : m.store.computed = [] := by
    rw [hm, Store.computed_after first]
    exact Store.computed_ofJson data
  obtain ⟨stays, ends⟩ := reachable.identity plain hread unfolds
  have reachable' := reachable.after unfolds
  rw [hw]
  refine ⟨fun never => ⟨stays never, ?_⟩, fun once => ⟨fun other seen seeing => ?_, ?_⟩⟩
  · exact reachable'.descendAll_of_read ((Store.computed_after unfolds).trans plain) (stays never)
  · exact (ends once).strictEq_read reachable' seeing
  · exact (ends once).valueOf

/-- A list with an object in an object. -/
def nested : Json :=
  .object [("list", .array [.object [("a", .object [("x", .integer 1), ("tags", .array [])])]])]

/-- A write and an addition inside the inner object leave it where it is.  Putting another one like
it in the place of the outer one, which is spelt differently, is the end of it. -/
theorem identity_of_nested : ∃ (inside outside : List Change) (start m w : World Unit) (path : Path)
    (id : CompositeId), start = new (.ofJson nested) () ∧
      Elapsed start [] start ∧ Elapsed start inside m ∧ Elapsed start (inside ++ outside) w ∧
      (start.store.read path).result = .ok (.composite id) ∧
      (inside.map (·.effect) = [.replaced ⟨0⟩, .added] ∧ ¬ start.store.Overwritten path inside ∧
        (m.store.read path).result = .ok (.composite id) ∧
        m.store.toJson.descendAll path.segments = .ok (m.store.valueOf (.composite id))) ∧
      (outside.map (·.target.segments) = [["list", "+0"]] ∧
        start.store.Overwritten path (inside ++ outside) ∧
        (∀ other seen, (w.store.read other).result = .ok seen →
          seen.strictEq (.composite id) = false) ∧
        w.store.valueOf (.composite id) = .null) := by
  let path : Path := ⟨["list", "0", "a"], by decide, by decide⟩
  let first : Path := ⟨["list", "0", "a", "x"], by decide, by decide⟩
  let second : Path := ⟨["list", "0", "a", "tags", "0"], by decide, by decide⟩
  let third : Path := ⟨["list", "+0"], by decide, by decide⟩
  let another : Json := .object [("a", .object [])]
  let start : World Unit := new (.ofJson nested) ()
  have reachable : start.store.Reachable := .ofJson nested
  have plain : start.store.computed = [] := Store.computed_ofJson nested
  obtain ⟨id, read⟩ : ∃ id, (start.store.read path).result = .ok (.composite id) := by
    have composite : (start.store.read path).result.toOption.any (!·.isValue) = true := by
      decide +kernel
    cases hread : (start.store.read path).result with
    | error fault => simp [hread, Except.toOption] at composite
    | ok seen =>
      cases seen with
      | value value => simp [hread, Except.toOption, Snapshot.isValue] at composite
      | composite id => exact ⟨id, rfl⟩
  have checked : ((start.store.assign first (.integer 2)).bind fun done₁ =>
      (done₁.2.assign second (.integer 7)).bind fun done₂ =>
        (done₂.2.assign third another).map fun done₃ =>
          (done₁.1, done₂.1, done₃.1, (done₂.2.read path).trace)) =
      .ok (.replaced ⟨0⟩, .added, .replaced ⟨3⟩, [⟨4⟩, ⟨3⟩, ⟨2⟩]) := by decide +kernel
  cases h₁ : start.store.assign first (.integer 2) with
  | error fault => simp [h₁, Except.bind] at checked
  | ok done₁ =>
  obtain ⟨effect₁, s₁⟩ := done₁
  cases h₂ : s₁.assign second (.integer 7) with
  | error fault => simp [h₁, h₂, Except.bind] at checked
  | ok done₂ =>
  obtain ⟨effect₂, s₂⟩ := done₂
  cases h₃ : s₂.assign third another with
  | error fault => simp [h₁, h₂, h₃, Except.bind, Except.map] at checked
  | ok done₃ =>
  obtain ⟨effect₃, s₃⟩ := done₃
  simp only [h₁, h₂, h₃, Except.bind, Except.map, Except.ok.injEq, Prod.mk.injEq] at checked
  obtain ⟨rfl, rfl, rfl, trace⟩ := checked
  -- nobody watches, so each assignment is an operation of its own
  have begun : History start [] start := .start
  have inside := (begun.assign (fun _ => rfl) h₁).assign (fun _ => rfl) h₂
  have outside := inside.assign (fun _ => rfl) h₃
  let change₁ : Change := ⟨first, .integer 2, .replaced ⟨0⟩, s₁⟩
  let change₂ : Change := ⟨second, .integer 7, .added, s₂⟩
  let change₃ : Change := ⟨third, another, .replaced ⟨3⟩, s₃⟩
  have never : ¬ start.store.Overwritten path [change₁, change₂] := by
    rintro (replaces | ⟨_, added, -⟩ | never)
    · obtain ⟨property, through, replaced⟩ := (reachable.replaces_iff plain).1 replaces
      cases replaced
      revert through
      decide +kernel
    · cases added
    · exact never
  have once : s₂.Replaces change₃ path := by
    have reachable₂ := (reachable.assign h₁).assign h₂
    have plain₂ : s₂.computed = [] :=
      (Store.computed_assign h₂).trans ((Store.computed_assign h₁).trans plain)
    exact (reachable₂.replaces_iff plain₂).2 ⟨⟨3⟩, by rw [trace]; decide, rfl⟩
  obtain ⟨stays, -⟩ := identity_of_elapsed nested () begun.elapsed_now inside.elapsed_now read
  obtain ⟨-, ends⟩ := identity_of_elapsed nested () begun.elapsed_now outside.elapsed_now read
  have overwritten : start.store.Overwritten path ([change₁, change₂] ++ [change₃]) :=
    Or.inr (Or.inr (Or.inl once))
  exact ⟨[change₁, change₂], [change₃], start, _, _, path, id, rfl, begun.elapsed_now,
    inside.elapsed_now, outside.elapsed_now, read, ⟨rfl, never, stays never⟩,
    ⟨rfl, overwritten, ends overwritten⟩⟩

end World

end Bindery
