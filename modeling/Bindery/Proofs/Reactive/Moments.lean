import Bindery.Proofs.Reactive.Watchers

namespace Bindery

/-!
# The moments of an operation

An operation on a world takes it through many others, in which reactions are about to run, run, or
have just ended.

* `World.NotifyPasses`, `World.AssignPasses`, `Program.Passes`, `World.UpdatePasses` — the worlds
  that notifications, assignments, programs and updates pass through.
* `Program.exec_passes`, `World.updateAt_covers` — the world that is left is one of them.
* `World.Stable` — a property that every single step keeps; `World.Maintained` — one that every step
  of a certain kind of programs keeps.
* `World.Maintained.passes`, `World.Maintained.updatePasses` — such a property holds at every
  moment.
-/

/-- Which worlds an update of a watcher passes through, from a given one. -/
abbrev Passing (σ : Type) : Type := WatcherId → World σ → World σ → Prop

variable {σ : Type}

namespace World

/-- The worlds that a notification passes through, with those of the updates that it makes. -/
inductive NotifyPasses (update : Updater σ) (inside : Passing σ) :
    List WatcherId → World σ → World σ → Prop
  | now {ids w} : NotifyPasses update inside ids w w
  | inside {id rest w m} : w.isAlive id = true → inside id w m →
      NotifyPasses update inside (id :: rest) w m
  | next {id rest w w' m} : w.isAlive id = true → update id w = some (.ok (), w') →
      NotifyPasses update inside rest w' m → NotifyPasses update inside (id :: rest) w m
  | skip {id rest w m} : w.isAlive id = false → NotifyPasses update inside rest w m →
      NotifyPasses update inside (id :: rest) w m

/-- The worlds that an assignment passes through. -/
inductive AssignPasses (update : Updater σ) (inside : Passing σ) (path : Path) (value : Json)
    (w : World σ) : World σ → Prop
  | now : AssignPasses update inside path value w w
  | assigned {effect store} : w.store.assign path value = .ok (effect, store) →
      AssignPasses update inside path value w { w with store }
  | notifying {property store m} : w.store.assign path value = .ok (.replaced property, store) →
      NotifyPasses update inside (w.subscribers property) { w with store } m →
      AssignPasses update inside path value w m

end World

/-- The worlds that a program passes through. -/
inductive Program.Passes (update : Updater σ) (inside : Passing σ) :
    Program σ → World σ → World σ → Prop
  | now {program w} : Passes update inside program w w
  | look {next w m} : Passes update inside (next w.store w.host) w m →
      Passes update inside (.look next) w m
  | edit {change next w m} : Passes update inside next (w.editHost change) m →
      Passes update inside (.edit change next) w m
  | writing {path value next w m} : World.AssignPasses update inside path value w m →
      Passes update inside (.write path value next) w m
  | written {path value next w result w' m} :
      World.assign update path value w = some (result, w') →
      Passes update inside (next result) w' m → Passes update inside (.write path value next) w m
  | watched {path reaction next w m} :
      Passes update inside (next (w.watch path reaction).1) (w.watch path reaction).2 m →
      Passes update inside (.watch path reaction next) w m
  | dropped {id next w m} : Passes update inside next (w.drop id) m →
      Passes update inside (.drop id next) w m
  | updating {id next w m} : w.isAlive id = true → inside id w m →
      Passes update inside (.update id next) w m
  | updated {id next w result w' m} : w.isAlive id = true → update id w = some (result, w') →
      Passes update inside (next result) w' m → Passes update inside (.update id next) w m
  | ignored {id next w m} : w.isAlive id = false → Passes update inside (next (.ok ())) w m →
      Passes update inside (.update id next) w m

/-- The worlds that an update of a watcher passes through: what it leaves if no reaction has to run,
and otherwise those of the reaction and the one after it. -/
def World.UpdatePasses : Nat → Passing σ
  | depth, id => fun w m => m = w ∨
    match w.refresh id with
    | .settled _ settled => m = settled
    | .reacts reaction recorded =>
      match depth with
      | 0 => False
      | depth + 1 =>
        reaction.Passes (updateAt depth) (UpdatePasses depth) (recorded.enter id) m ∨
          ∃ result left, reaction.exec (updateAt depth) (recorded.enter id) = some (result, left) ∧
            m = left.leave

/-! ### The world that is left -/

/-- The updates pass through the worlds that they leave. -/
def Passing.Covers (inside : Passing σ) (update : Updater σ) : Prop :=
  ∀ {id w result left}, update id w = some (result, left) → inside id w left

section left

variable {update : Updater σ} {inside : Passing σ}

/-- A notification passes through the world that it leaves. -/
theorem World.notify_passes (covers : inside.Covers update) {ids : List WatcherId}
    {w w' : World σ} {result : Except Fault Unit}
    (h : notify update ids w = some (result, w')) : NotifyPasses update inside ids w w' := by
  induction ids generalizing w with
  | nil =>
    cases h
    exact .now
  | cons id rest ih =>
    simp only [notify] at h
    split at h
    · next alive =>
      split at h
      · cases h
      · -- the watchers after one that fails are not told
        next fault left hupdate =>
        cases h
        exact .inside alive (covers hupdate)
      · next left hupdate => exact .next alive hupdate (ih h)
    · next dead => exact .skip (by simpa using dead) (ih h)

/-- An assignment passes through the world that it leaves. -/
theorem World.assign_passes (covers : inside.Covers update) {path : Path} {value : Json}
    {w w' : World σ} {result : Except Fault Unit}
    (h : assign update path value w = some (result, w')) :
    AssignPasses update inside path value w w' := by
  simp only [assign] at h
  split at h
  · cases h
    exact .now
  · cases h
    exact .now
  · next store hassign =>
    cases h
    exact .assigned hassign
  · next property store hassign => exact .notifying hassign (notify_passes covers h)

/-- A program passes through the world that it leaves. -/
theorem Program.exec_passes {program : Program σ} {w w' : World σ} {result : Except Fault Unit}
    (h : program.exec update w = some (result, w')) : program.Passes update inside w w' := by
  induction program generalizing w with
  | finish ended =>
    cases h
    exact .now
  | look next ih => exact .look (ih _ _ h)
  | edit change next ih => exact .edit (ih h)
  | write path value next ih =>
    simp only [exec] at h
    split at h
    · cases h
    · next hassign => exact .written hassign (ih _ h)
  | watch path reaction next ihReaction ih => exact .watched (ih _ h)
  | drop id next ih => exact .dropped (ih h)
  | update id next ih =>
    simp only [exec] at h
    cases halive : w.isAlive id with
    | true =>
      simp only [halive, if_true] at h
      split at h
      · cases h
      · next hupdate => exact .updated halive hupdate (ih _ h)
    | false =>
      simp only [halive, Bool.false_eq_true, if_false] at h
      exact .ignored halive (ih _ h)

end left

/-- An update passes through the world that it leaves. -/
theorem World.updateAt_covers (depth : Nat) : Passing.Covers (σ := σ) (UpdatePasses depth)
    (updateAt depth) := by
  intro id w result left h
  unfold UpdatePasses
  obtain hsettled | ⟨reaction, recorded, inner, last, rfl, hreacts, hexec, rfl⟩ := updateAt_cases h
  · rw [hsettled]
    exact .inr rfl
  · rw [hreacts]
    exact .inr (.inr ⟨result, last, hexec, rfl⟩)

/-- A world that an update passes through is the one before it, the one after it if nothing has to
run, or one that the reaction passes through or leaves. -/
theorem World.updatePasses_cases {depth : Nat} {id : WatcherId} {w m : World σ}
    (h : UpdatePasses depth id w m) :
    m = w ∨ (∃ result, w.refresh id = .settled result m) ∨
      ∃ reaction recorded inner last, depth = inner + 1 ∧ w.refresh id = .reacts reaction recorded ∧
        reaction.Passes (updateAt inner) (UpdatePasses inner) (recorded.enter id) last ∧
          (m = last ∨ m = last.leave) := by
  unfold UpdatePasses at h
  refine h.imp_right fun h => ?_
  cases hrefresh : w.refresh id with
  | settled result settled =>
    rw [hrefresh] at h
    subst h
    exact .inl ⟨result, rfl⟩
  | reacts reaction recorded =>
    rw [hrefresh] at h
    cases depth with
    | zero => exact h.elim
    | succ inner =>
      refine .inr ⟨reaction, recorded, inner, ?_⟩
      obtain hinside | ⟨result, last, hexec, rfl⟩ := h
      · exact ⟨m, rfl, rfl, hinside, .inl rfl⟩
      -- the mark is taken back in the last world that the reaction passed through
      · exact ⟨last, rfl, rfl, Program.exec_passes hexec, .inr rfl⟩

/-! ### What every step keeps -/

/-- The programs that a program may go on with after its first step. -/
inductive Program.Next : Program σ → Program σ → Prop
  | look {next store host} : Next (.look next) (next store host)
  | edit {change next} : Next (.edit change next) next
  | write {path value next result} : Next (.write path value next) (next result)
  | watch {path reaction next result} : Next (.watch path reaction next) (next result)
  | drop {id next} : Next (.drop id next) next
  | update {id next result} : Next (.update id next) (next result)

namespace World

/-- Every single step of an admitted program keeps a property of worlds, and in worlds with it the
reactions of live watchers are admitted. -/
structure Stable (Admits : Program σ → Prop) (I : World σ → Prop) : Prop where
  next : ∀ {program rest}, Program.Next program rest → Admits program → Admits rest
  reaction : ∀ {w id watcher}, I w → w.watcher? id = some watcher → w.isAlive id = true →
    ∀ seen, Admits (watcher.reaction seen)
  edit : ∀ {w change}, I w → I (w.editHost change)
  assign : ∀ {w path value effect store}, I w →
    w.store.assign path value = .ok (effect, store) → I { w with store }
  watch : ∀ {w path reaction next}, I w → Admits (.watch path reaction next) →
    I (w.watch path reaction).2
  drop : ∀ {w id}, I w → I (w.drop id)
  observe : ∀ {w id seen}, I w → I (w.observe id seen)
  enter : ∀ {w id}, I w → id.val < w.watchers.length → w.isAlive id = true →
    w.isRunning id = false → I (w.enter id)
  leave : ∀ {w}, I w → I w.leave

/-- The same, but changes of the host have to be those of admitted programs. -/
structure Maintained (Admits : Program σ → Prop) (I : World σ → Prop) : Prop where
  next : ∀ {program rest}, Program.Next program rest → Admits program → Admits rest
  reaction : ∀ {w id watcher}, I w → w.watcher? id = some watcher → w.isAlive id = true →
    ∀ seen, Admits (watcher.reaction seen)
  edit : ∀ {w change next}, I w → Admits (.edit change next) → I (w.editHost change)
  assign : ∀ {w path value effect store}, I w →
    w.store.assign path value = .ok (effect, store) → I { w with store }
  watch : ∀ {w path reaction next}, I w → Admits (.watch path reaction next) →
    I (w.watch path reaction).2
  drop : ∀ {w id}, I w → I (w.drop id)
  observe : ∀ {w id seen}, I w → I (w.observe id seen)
  enter : ∀ {w id}, I w → id.val < w.watchers.length → w.isAlive id = true →
    w.isRunning id = false → I (w.enter id)
  leave : ∀ {w}, I w → I w.leave

variable {Admits : Program σ → Prop} {I : World σ → Prop} {update : Updater σ}
  {inside : Passing σ}

/-- What any step keeps is kept if the host changes by admitted programs only. -/
theorem Stable.maintained (stable : Stable Admits I) : Maintained Admits I :=
  { stable with edit := fun h _ => stable.edit h }

/-- An update that calls no reaction keeps what is maintained. -/
theorem Maintained.settled (maintained : Maintained Admits I) {w settled : World σ}
    {id : WatcherId} (hw : I w) (h : settled = w ∨ ∃ seen, settled = w.observe id seen) :
    I settled := by
  obtain rfl | ⟨seen, rfl⟩ := h
  · exact hw
  · exact maintained.observe hw

/-- The property holds all through the updates of live watchers. -/
def KeepsInside (I : World σ → Prop) (inside : Passing σ) : Prop :=
  ∀ {id w m}, I w → w.isAlive id = true → inside id w m → I m

/-- What is kept inside updates is kept all through a notification. -/
theorem NotifyPasses.keeps (keeps : KeepsInside I inside) (covers : inside.Covers update)
    {ids : List WatcherId} {w m : World σ} (hw : I w)
    (h : NotifyPasses update inside ids w m) : I m := by
  induction h with
  | now => exact hw
  | inside alive hinside => exact keeps hw alive hinside
  | next alive hupdate _ ih => exact ih (keeps hw alive (covers hupdate))
  | skip _ _ ih => exact ih hw

/-- What is maintained holds all through an assignment. -/
theorem Maintained.assignPasses (maintained : Maintained Admits I) (keeps : KeepsInside I inside)
    (covers : inside.Covers update) {path : Path} {value : Json} {w m : World σ} (hw : I w)
    (h : AssignPasses update inside path value w m) : I m := by
  cases h with
  | now => exact hw
  | assigned hassign => exact maintained.assign hw hassign
  | notifying hassign hnotify => exact hnotify.keeps keeps covers (maintained.assign hw hassign)

/-- **Steps make runs.** The property holds all through an admitted program. -/
theorem Maintained.passes (maintained : Maintained Admits I) (keeps : KeepsInside I inside)
    (covers : inside.Covers update) {program : Program σ} {w m : World σ}
    (admits : Admits program) (hw : I w)
    (h : program.Passes update inside w m) : I m := by
  -- one case for each step that may come next, with the rest of the program admitted after it
  induction h with
  | now => exact hw
  | look _ ih => exact ih (maintained.next .look admits) hw
  | edit _ ih => exact ih (maintained.next .edit admits) (maintained.edit hw admits)
  | writing hassign => exact maintained.assignPasses keeps covers hw hassign
  | written hassign _ ih =>
    exact ih (maintained.next .write admits)
      (maintained.assignPasses keeps covers hw (assign_passes covers hassign))
  | watched _ ih => exact ih (maintained.next .watch admits) (maintained.watch hw admits)
  | dropped _ ih => exact ih (maintained.next .drop admits) (maintained.drop hw)
  | updating alive hinside => exact keeps hw alive hinside
  | updated alive hupdate _ ih =>
    exact ih (maintained.next .update admits) (keeps hw alive (covers hupdate))
  | ignored _ _ ih => exact ih (maintained.next .update admits) hw

/-- The property holds all through an update of a live watcher. -/
theorem Maintained.updatePasses (maintained : Maintained Admits I) (depth : Nat) :
    KeepsInside I (UpdatePasses (σ := σ) depth) := by
  intro id w m hw alive h
  obtain rfl | ⟨result, hrefresh⟩ | ⟨reaction, recorded, inner, last, rfl, hrefresh, hpasses, hm⟩ :=
    updatePasses_cases h
  · exact hw
  · exact maintained.settled hw (settled_cases hrefresh)
  · obtain ⟨watcher, seen, hwatcher, -, idle, rfl, rfl⟩ := reacts_cases hrefresh
    have admits : Admits (watcher.reaction seen) := maintained.reaction hw hwatcher alive seen
    -- the reaction begins in a world with the property, so by induction it keeps it
    have entered : I ((w.observe id seen).enter id) :=
      maintained.enter (maintained.observe hw)
        (by simpa using watcher?_eq_some_iff_lt.1 ⟨_, hwatcher⟩) (by simpa using alive) idle
    have hlast : I last :=
      maintained.passes (maintained.updatePasses inner) (updateAt_covers inner) admits entered
        hpasses
    obtain rfl | rfl := hm
    · exact hlast
    · exact maintained.leave hlast
termination_by depth

/-- What is stable holds all through an assignment. -/
theorem Stable.assignPasses (stable : Stable Admits I) (keeps : KeepsInside I inside)
    (covers : inside.Covers update) {path : Path} {value : Json} {w m : World σ} (hw : I w)
    (h : AssignPasses update inside path value w m) : I m :=
  stable.maintained.assignPasses keeps covers hw h

/-- It holds all through an admitted program. -/
theorem Stable.passes (stable : Stable Admits I) (keeps : KeepsInside I inside)
    (covers : inside.Covers update) {program : Program σ} {w m : World σ}
    (admits : Admits program) (hw : I w) (h : program.Passes update inside w m) : I m :=
  stable.maintained.passes keeps covers admits hw h

/-- It holds all through every update. -/
theorem Stable.updatePasses (stable : Stable Admits I) (depth : Nat) :
    KeepsInside I (UpdatePasses (σ := σ) depth) :=
  stable.maintained.updatePasses depth

end World

end Bindery
