import Bindery.Proofs.Reactive.Moments

namespace Bindery

/-!
# Catching up

In the middle of a notification many watchers are behind, whatever being behind may mean.  If single
steps leave nobody behind but the subscribers of what an assignment replaced, and whoever looks
again is not behind any more, then a program that succeeds leaves nobody behind who was not before.

* `Program.Fails`, `Program.Propagates` — programs that end with the fault of any step that fails.
* `World.Carries` — steps that do nothing to the store.
* `World.Follows` — a world in which nobody is behind who was not in another.
* `World.Settling` — what single steps do to those who are behind.
* `World.Settling.notify`, `World.Settling.assigns`, `World.Settling.exec` — what notifications,
  assignments and programs do, if they succeed.
* `World.Settling.updates` — updates catch up, whatever happens in their reactions.
-/

variable {σ : Type}

/-! ### Programs that hand on faults -/

namespace Program

/-- Programs that end with a given fault, whatever they do before. -/
inductive Fails (fault : Fault) : Program σ → Prop
  | finish : Fails fault (.finish (.error fault))
  | look {next} : (∀ store host, Fails fault (next store host)) → Fails fault (.look next)
  | edit {change next} : Fails fault next → Fails fault (.edit change next)
  | write {path value next} : (∀ result, Fails fault (next result)) →
      Fails fault (.write path value next)
  | watch {path reaction next} : (∀ result, Fails fault (next result)) →
      Fails fault (.watch path reaction next)
  | drop {id next} : Fails fault next → Fails fault (.drop id next)
  | update {id next} : (∀ result, Fails fault (next result)) → Fails fault (.update id next)

/-- Programs that end with the fault of any step that fails, as do the reactions that they give to
watchers. -/
inductive Propagates : Program σ → Prop
  | finish {result} : Propagates (.finish result)
  | look {next} : (∀ store host, Propagates (next store host)) → Propagates (.look next)
  | edit {change next} : Propagates next → Propagates (.edit change next)
  | write {path value next} : (∀ result, Propagates (next result)) →
      (∀ fault, Fails fault (next (.error fault))) → Propagates (.write path value next)
  | watch {path reaction next} : (∀ seen, Propagates (reaction seen)) →
      (∀ result, Propagates (next result)) → (∀ fault, Fails fault (next (.error fault))) →
      Propagates (.watch path reaction next)
  | drop {id next} : Propagates next → Propagates (.drop id next)
  | update {id next} : (∀ result, Propagates (next result)) →
      (∀ fault, Fails fault (next (.error fault))) → Propagates (.update id next)

/-- A program that goes on with a result or fails with its fault propagates faults. -/
theorem Propagates.orFail {α : Type} {next : α → Program σ} (h : ∀ a, (next a).Propagates)
    (result : Except Fault α) : (Program.orFail next result).Propagates := by
  cases result with
  | error fault => exact .finish
  | ok a => exact h a

/-- A program that is bound to fail does not succeed. -/
theorem Fails.ne_ok {fault : Fault} {program : Program σ} (h : program.Fails fault)
    {update : Updater σ} {w left : World σ} : program.exec update w ≠ some (.ok (), left) := by
  -- a step without an outcome leaves the program without one, any other hands on to the rest
  induction h generalizing w with
  | finish => simp [exec]
  | look _ ih => exact ih _ _
  | edit _ ih => exact ih
  | write _ ih =>
    simp only [exec]
    split
    · simp
    · exact ih _
  | watch _ ih => exact ih _
  | drop _ ih => exact ih
  | update _ ih =>
    simp only [exec]
    split
    · simp
    · exact ih _

end Program

namespace World

variable {w w' left : World σ} {id : WatcherId}

/-! ### Steps beside the store -/

/-- The second world has the store and the registrations of the first, and a watcher in it remembers
what it remembered before, or what a read of its path shows. -/
structure Carries (w w' : World σ) : Prop where
  store : w'.store = w.store
  ledger : w'.ledger = w.ledger
  alive : ∀ {id}, w'.isAlive id = true → w.isAlive id = true
  watcher : ∀ {id after}, w'.watcher? id = some after → ∃ before, w.watcher? id = some before ∧
    after.path = before.path ∧ after.reaction = before.reaction ∧
      (after.baseline = before.baseline ∨ (w.store.read after.path).result = .ok after.baseline)

/-- A change of the host leaves the watchers as they are. -/
theorem carries_editHost (change : σ → σ) : w.Carries (w.editHost change) where
  store := rfl
  ledger := rfl
  alive alive := alive
  watcher found := ⟨_, found, rfl, rfl, .inl rfl⟩

/-- Dropping one watcher leaves the others as they are. -/
theorem carries_drop (id : WatcherId) : w.Carries (w.drop id) where
  store := rfl
  ledger := rfl
  alive := isAlive_of_drop
  watcher found := by
    rw [watcher?_drop, Option.map_eq_some_iff] at found
    obtain ⟨before, hbefore, rfl⟩ := found
    refine ⟨before, hbefore, ?_⟩
    split <;> exact ⟨rfl, rfl, .inl rfl⟩

theorem carries_enter (alive : w.isAlive id = true) : w.Carries (w.enter id) where
  store := rfl
  ledger := rfl
  alive entered :=
    (isAlive_enter_iff.1 entered).elim (fun same => same ▸ alive) fun before => before
  watcher found := ⟨_, found, rfl, rfl, .inl rfl⟩

theorem carries_leave : w.Carries w.leave where
  store := rfl
  ledger := rfl
  alive := isAlive_of_leave
  watcher found := ⟨_, found, rfl, rfl, .inl rfl⟩

/-- A watcher that records what it sees leaves the others as they are. -/
theorem carries_observe {watcher : Watcher σ} {seen : Snapshot}
    (found : w.watcher? id = some watcher)
    (hread : (w.store.read watcher.path).result = .ok seen) : w.Carries (w.observe id seen) where
  store := rfl
  ledger := rfl
  alive alive := (isAlive_observe seen).symm.trans alive
  watcher after := by
    rw [watcher?_observe, Option.map_eq_some_iff] at after
    obtain ⟨before, hbefore, rfl⟩ := after
    refine ⟨before, hbefore, ?_⟩
    split
    · next same =>
      subst same
      cases found.symm.trans hbefore
      exact ⟨rfl, rfl, .inr hread⟩
    · exact ⟨rfl, rfl, .inl rfl⟩

/-! ### Single steps -/

/-- An invariant holds of the second world, and nobody is behind in it who was not before. -/
structure Follows (I : World σ → Prop) (Behind : World σ → WatcherId → Prop) (w w' : World σ) :
    Prop where
  holds : I w'
  behind : ∀ {id}, Behind w' id → Behind w id

/-- What single steps do to an invariant and to those who are behind, as long as assignments lead to
admitted worlds. -/
structure Settling (Admitted I : World σ → Prop) (Behind : World σ → WatcherId → Prop) : Prop where
  /-- Reactions hand on faults. -/
  reaction : ∀ {w id watcher}, I w → w.watcher? id = some watcher →
    ∀ seen, (watcher.reaction seen).Propagates
  /-- Only watchers that live are behind. -/
  alive : ∀ {w id}, Behind w id → w.isAlive id = true
  known : ∀ {w id}, Behind w id → w.watcher? id ≠ none
  carry : ∀ {w w'}, I w → w.Carries w' → Follows I Behind w w'
  watch : ∀ {w path reaction seen}, I w → (∀ seen, (reaction seen).Propagates) →
    (w.store.read path).result = .ok seen → Follows I Behind w (w.watch path reaction).2
  /-- An assignment leaves nobody behind but those that it is made known to. -/
  assign : ∀ {w path value effect store}, I w → Admitted { w with store } →
    w.store.assign path value = .ok (effect, store) →
      I { w with store } ∧ ∀ {id}, Behind { w with store } id →
        Behind w id ∨ ∃ property, effect = .replaced property ∧ id ∈ w.subscribers property
  /-- Whoever remembers what it sees is not behind. -/
  current : ∀ {w id watcher seen}, I w → w.watcher? id = some watcher →
    (w.store.read watcher.path).result = .ok seen →
      watcher.baseline = seen ∨ seen.strictEq watcher.baseline = true → ¬ Behind w id

variable {Admitted I : World σ → Prop} {Behind : World σ → WatcherId → Prop}
  {update : Updater σ} {inside : Passing σ}

theorem Follows.refl (h : I w) : Follows I Behind w w := ⟨h, fun behind => behind⟩

/-- Worlds follow one another. -/
theorem Follows.trans (h : Follows I Behind w w') (h' : Follows I Behind w' left) :
    Follows I Behind w left :=
  ⟨h'.holds, fun behind => h.behind (h'.behind behind)⟩

namespace Settling

variable (settling : Settling Admitted I Behind)

include settling

/-- Whoever records what it sees is not behind. -/
theorem observe (h : I w) {watcher : Watcher σ} {seen : Snapshot}
    (found : w.watcher? id = some watcher)
    (hread : (w.store.read watcher.path).result = .ok seen) :
    Follows I Behind w (w.observe id seen) ∧ ¬ Behind (w.observe id seen) id := by
  have follows := settling.carry h (carries_observe found hread)
  have recorded : (w.observe id seen).watcher? id = some { watcher with baseline := seen } := by
    simp [watcher?_observe, found]
  exact ⟨follows, settling.current follows.holds recorded hread (.inl rfl)⟩

/-- Looking again without a fault leaves the watcher behind nothing. -/
theorem refresh_settled (h : I w) (hrefresh : w.refresh id = .settled (.ok ()) w') :
    Follows I Behind w w' ∧ ¬ Behind w' id := by
  simp only [refresh] at hrefresh
  split at hrefresh
  · next none =>
    cases hrefresh
    exact ⟨.refl h, fun behind => settling.known behind none⟩
  · next watcher found =>
    split at hrefresh
    · cases hrefresh
    · next seen hread =>
      split at hrefresh
      · next same =>
        cases hrefresh
        exact ⟨.refl h, settling.current h found hread (.inr same)⟩
      · split at hrefresh <;> cases hrefresh
        exact settling.observe h found hread

/-- What calls for a reaction is recorded before it. -/
theorem refresh_reacts (h : I w) {reaction : Program σ}
    (hrefresh : w.refresh id = .reacts reaction w') :
    Follows I Behind w w' ∧ ¬ Behind w' id ∧ reaction.Propagates ∧
      ∀ other, w'.isAlive other = w.isAlive other := by
  obtain ⟨watcher, seen, found, hread, -, rfl, rfl⟩ := reacts_cases hrefresh
  obtain ⟨follows, current⟩ := settling.observe h found hread
  exact ⟨follows, current, settling.reaction h found seen, fun other => isAlive_observe seen⟩

end Settling

/-! ### Operations that succeed -/

/-- An update that succeeds, and passes through admitted worlds only, leaves its watcher not behind,
and nobody else who was not before. -/
def Catches (Admitted I : World σ → Prop) (Behind : World σ → WatcherId → Prop)
    (update : Updater σ) (inside : Passing σ) : Prop :=
  ∀ {id w left}, I w → w.isAlive id = true → (∀ m, inside id w m → Admitted m) →
    update id w = some (.ok (), left) → Follows I Behind w left ∧ ¬ Behind left id

namespace Settling

variable (settling : Settling Admitted I Behind) (catches : Catches Admitted I Behind update inside)

include settling catches

/-- **The fan-out.** After a notification nobody on the list is behind: each catches up when its
turn comes, and nothing that comes later leaves it behind again. -/
theorem notify {ids : List WatcherId} (h : I w)
    (admitted : ∀ m, NotifyPasses update inside ids w m → Admitted m)
    (hnotify : World.notify update ids w = some (.ok (), left)) :
    Follows I Behind w left ∧ ∀ id ∈ ids, ¬ Behind left id := by
  induction ids generalizing w with
  | nil =>
    cases hnotify
    exact ⟨.refl h, by simp⟩
  | cons id rest ih =>
    simp only [World.notify] at hnotify
    rw [List.forall_mem_cons]
    split at hnotify
    · next alive =>
      split at hnotify
      · cases hnotify
      · cases hnotify
      · next middle hupdate =>
        obtain ⟨first, current⟩ :=
          catches h alive (fun m hm => admitted m (.inside alive hm)) hupdate
        obtain ⟨after, others⟩ :=
          ih first.holds (fun m hm => admitted m (.next alive hupdate hm)) hnotify
        exact ⟨first.trans after, fun behind => current (after.behind behind), others⟩
    · -- one who does not live is not behind, and nobody comes back to life
      next dead =>
      have dead' : w.isAlive id = false := by simpa using dead
      obtain ⟨after, others⟩ := ih h (fun m hm => admitted m (.skip dead' hm)) hnotify
      exact ⟨after, fun behind => dead (settling.alive (after.behind behind)), others⟩

/-- A write that succeeds leaves nobody behind who was not before. -/
theorem assigns {path : Path} {value : Json} (h : I w)
    (admitted : ∀ m, AssignPasses update inside path value w m → Admitted m)
    (hassign : World.assign update path value w = some (.ok (), left)) :
    Follows I Behind w left := by
  simp only [World.assign] at hassign
  split at hassign
  · cases hassign
  · cases hassign
    exact .refl h
  · next store hstore =>
    cases hassign
    obtain ⟨holds, behind⟩ := settling.assign h (admitted _ (.assigned hstore)) hstore
    refine ⟨holds, fun later => (behind later).resolve_right ?_⟩
    rintro ⟨property, heffect, -⟩
    cases heffect
  · next property store hstore =>
    -- the subscribers fall behind with the assignment, and catch up in the notification
    obtain ⟨holds, behind⟩ := settling.assign h (admitted _ (.assigned hstore)) hstore
    obtain ⟨after, notified⟩ := settling.notify catches holds
      (fun m hm => admitted m (.notifying hstore hm)) hassign
    refine ⟨after.holds, fun {id} later => (behind (after.behind later)).resolve_right ?_⟩
    rintro ⟨other, heffect, subscribed⟩
    cases heffect
    exact notified id subscribed later

/-- A program that hands on faults and succeeds leaves nobody behind who was not before. -/
theorem exec {program : Program σ} (propagates : program.Propagates) (h : I w)
    (admitted : ∀ m, program.Passes update inside w m → Admitted m)
    (hexec : program.exec update w = some (.ok (), left)) : Follows I Behind w left := by
  induction propagates generalizing w with
  | finish =>
    cases hexec
    exact .refl h
  | look _ ih => exact ih _ _ h (fun m hm => admitted m (.look hm)) hexec
  | @edit change next _ ih =>
    have first := settling.carry h (carries_editHost change)
    exact first.trans (ih first.holds (fun m hm => admitted m (.edit hm)) hexec)
  | @write path value next _ fails ih =>
    simp only [Program.exec] at hexec
    split at hexec
    · cases hexec
    · next result middle hassign =>
      cases result with
      | error fault => exact absurd hexec (fails fault).ne_ok
      | ok done =>
        have first := settling.assigns catches h (fun m hm => admitted m (.writing hm)) hassign
        have rest := ih _ first.holds (fun m hm => admitted m (.written hassign hm)) hexec
        exact first.trans rest
  | @watch path reaction next propagates _ fails _ ih =>
    cases hread : (w.store.read path).result with
    | error fault =>
      -- a watcher whose path does not resolve makes the program fail
      have failed : (w.watch path reaction).1 = .error fault := by simp [World.watch, hread]
      simp only [Program.exec, failed] at hexec
      exact absurd hexec (fails fault).ne_ok
    | ok seen =>
      have first := settling.watch h propagates hread
      exact first.trans (ih _ first.holds (fun m hm => admitted m (.watched hm)) hexec)
  | @drop id next _ ih =>
    have first := settling.carry h (carries_drop id)
    exact first.trans (ih first.holds (fun m hm => admitted m (.dropped hm)) hexec)
  | @update id next _ fails ih =>
    simp only [Program.exec] at hexec
    cases alive : w.isAlive id with
    | false =>
      simp only [alive, Bool.false_eq_true, if_false] at hexec
      exact ih _ h (fun m hm => admitted m (.ignored alive hm)) hexec
    | true =>
      simp only [alive, if_true] at hexec
      split at hexec
      · cases hexec
      · next result middle hupdate =>
        cases result with
        | error fault => exact absurd hexec (fails fault).ne_ok
        | ok done =>
          obtain ⟨first, -⟩ := catches h alive (fun m hm => admitted m (.updating alive hm)) hupdate
          have rest := ih _ first.holds (fun m hm => admitted m (.updated alive hupdate hm)) hexec
          exact first.trans rest

omit catches in
/-- **Re-entrancy.** Updates catch up, at any depth: a watcher whose reaction runs only records what
it sees, and that is all it takes not to be behind. -/
theorem updates (depth : Nat) :
    Catches Admitted I Behind (World.updateAt depth) (UpdatePasses depth) := by
  intro id w left h alive admitted hupdate
  obtain hsettled | ⟨reaction, recorded, inner, last, rfl, hrefresh, hexec, rfl⟩ :=
    updateAt_cases hupdate
  · exact settling.refresh_settled h hsettled
  · obtain ⟨first, current, propagates, sameAlive⟩ := settling.refresh_reacts h hrefresh
    have entered := settling.carry first.holds (carries_enter ((sameAlive id).trans alive))
    have passes : ∀ m, reaction.Passes (World.updateAt inner) (UpdatePasses inner)
        (recorded.enter id) m → Admitted m := by
      intro m hm
      refine admitted m ?_
      unfold UpdatePasses
      rw [hrefresh]
      exact .inr (.inl hm)
    have ran := settling.exec (updates inner) propagates entered.holds passes hexec
    have after := (entered.trans ran).trans (settling.carry ran.holds carries_leave)
    -- it was not behind when its reaction began, and what came later told it of every change
    exact ⟨first.trans after, fun behind => current (after.behind behind)⟩
termination_by depth

end Settling

end World

end Bindery
