import Bindery.Reactive.Propagation
import Mathlib.Data.List.Nodup

namespace Bindery

/-!
# The watchers of a world

* `World.watcher?_modifyWatcher` — a change of one watcher, as seen by any.
* `World.isAlive_observe`, `World.isAlive_drop`, … — who lives after each of the single steps.
* `World.Known` — the registrations are those of watchers that were made.
* `World.settled_cases`, `World.reacts_cases` — what looking again leads to.
* `World.live` — the watchers that live.
-/

namespace World

variable {σ : Type} {w : World σ} {id other : WatcherId}

/-- A change of one watcher leaves the others. -/
theorem watcher?_modifyWatcher (f : Watcher σ → Watcher σ) :
    (w.modifyWatcher id f).watcher? other =
      (w.watcher? other).map fun watcher => if id = other then f watcher else watcher := by
  obtain ⟨i⟩ := id
  obtain ⟨j⟩ := other
  simp only [watcher?, modifyWatcher, List.getElem?_modify, WatcherId.mk.injEq]
  rfl

@[simp] theorem length_watchers_modifyWatcher (f : Watcher σ → Watcher σ) :
    (w.modifyWatcher id f).watchers.length = w.watchers.length := by
  simp [modifyWatcher]

@[simp] theorem length_watchers_observe (seen : Snapshot) :
    (w.observe id seen).watchers.length = w.watchers.length :=
  length_watchers_modifyWatcher _

@[simp] theorem length_watchers_drop : (w.drop id).watchers.length = w.watchers.length :=
  length_watchers_modifyWatcher _

@[simp] theorem watcher?_enter : (w.enter id).watcher? other = w.watcher? other := rfl

@[simp] theorem watcher?_leave : w.leave.watcher? other = w.watcher? other := rfl

@[simp] theorem watcher?_editHost (f : σ → σ) : (w.editHost f).watcher? other = w.watcher? other :=
  rfl

theorem watcher?_observe (seen : Snapshot) :
    (w.observe id seen).watcher? other = (w.watcher? other).map fun watcher =>
      if id = other then { watcher with baseline := seen } else watcher :=
  watcher?_modifyWatcher _

theorem watcher?_drop : (w.drop id).watcher? other = (w.watcher? other).map fun watcher =>
      if id = other then { watcher with isKept := false } else watcher :=
  watcher?_modifyWatcher _

/-- What a watcher observed has no part in whether it lives. -/
@[simp] theorem isAlive_observe (seen : Snapshot) :
    (w.observe id seen).isAlive other = w.isAlive other := by
  simp only [isAlive, watcher?_observe, isRunning, running_observe]
  cases w.watcher? other with
  | none => rfl
  | some watcher => simp only [Option.map_some, Option.any_some]; split <;> rfl

/-- Dropping wakes nobody. -/
theorem isAlive_of_drop (h : (w.drop id).isAlive other = true) : w.isAlive other = true := by
  simp only [isAlive, watcher?_drop, Bool.or_eq_true] at h ⊢
  refine h.imp_left fun kept => ?_
  cases hwatcher : w.watcher? other with
  | none => simp [hwatcher] at kept
  | some watcher =>
    simp only [hwatcher, Option.map_some, Option.any_some] at kept ⊢
    split at kept
    · -- the dropped watcher itself can live on by its reaction only
      cases kept
    · exact kept

theorem isRunning_enter : (w.enter id).isRunning other = (other == id || w.isRunning other) := rfl

/-- While its reaction runs a watcher is alive; nobody else comes to life. -/
theorem isAlive_enter_iff :
    (w.enter id).isAlive other = true ↔ other = id ∨ w.isAlive other = true := by
  simp only [isAlive, watcher?_enter, isRunning_enter, Bool.or_eq_true, beq_iff_eq]
  exact or_left_comm

/-- When a reaction ends nobody begins to live. -/
theorem isAlive_of_leave (h : w.leave.isAlive other = true) : w.isAlive other = true := by
  simp only [isAlive, watcher?_leave, Bool.or_eq_true] at h ⊢
  refine h.imp_right fun running => ?_
  simp only [isRunning, leave, List.contains_iff_mem] at running ⊢
  exact List.mem_of_mem_tail running

@[simp] theorem isAlive_editHost (f : σ → σ) : (w.editHost f).isAlive other = w.isAlive other := rfl

/-- Registrations count as long as the watcher lives. -/
theorem mem_subscribers {property : PropertyId} :
    id ∈ w.subscribers property ↔ (property, id) ∈ w.ledger ∧ w.isAlive id = true := by
  simp [subscribers]

/-- A new watcher comes after all others. -/
theorem watch_of_read {path : Path} {seen : Snapshot} (reaction : Snapshot → Program σ)
    (h : (w.store.read path).result = .ok seen) :
    w.watch path reaction = (.ok ⟨w.watchers.length⟩, { w with
      watchers := w.watchers ++ [⟨path, seen, reaction, true⟩]
      ledger := w.ledger ++ (w.store.read path).trace.map (·, ⟨w.watchers.length⟩) }) := by
  simp only [watch, h]

/-- Of a watcher whose path does not resolve nothing stays. -/
theorem watch_of_fault {path : Path} {fault : Fault} (reaction : Snapshot → Program σ)
    (h : (w.store.read path).result = .error fault) :
    w.watch path reaction = (.error fault, w) := by
  simp only [watch, h]

/-- Every registration is that of a watcher that was made. -/
def Known (w : World σ) : Prop := ∀ entry ∈ w.ledger, entry.2.val < w.watchers.length

/-- A new watcher registers itself. -/
theorem Known.watch (h : w.Known) (path : Path) (reaction : Snapshot → Program σ) :
    (w.watch path reaction).2.Known := by
  cases hread : (w.store.read path).result with
  | error fault => rwa [watch_of_fault reaction hread]
  | ok seen =>
    rw [watch_of_read reaction hread]
    intro entry hentry
    rw [List.length_append, List.length_singleton]
    obtain hold | hnew := List.mem_append.1 hentry
    · exact Nat.lt_succ_of_lt (h entry hold)
    · obtain ⟨_, -, rfl⟩ := List.mem_map.1 hnew
      exact Nat.lt_succ_self _

/-- One more watcher is found under one more identifier. -/
theorem watcher?_append {new found : Watcher σ} {ledger : List (PropertyId × WatcherId)}
    (h : ({ w with watchers := w.watchers ++ [new], ledger } : World σ).watcher? id = some found) :
    w.watcher? id = some found ∨ id = ⟨w.watchers.length⟩ ∧ found = new := by
  simp only [watcher?, List.getElem?_append] at h ⊢
  split at h
  · exact .inl h
  · next lt =>
    obtain ⟨hlt, rfl⟩ := List.getElem?_eq_some_iff.1 h
    simp only [List.length_singleton] at hlt
    have same : id.val = w.watchers.length := by omega
    exact .inr ⟨congrArg WatcherId.mk same, by simp⟩

/-! ### Looking again -/

section refresh

variable {watcher : Watcher σ} {seen : Snapshot}

/-- A watcher whose path leads nowhere fails. -/
theorem refresh_error {fault : Fault} (found : w.watcher? id = some watcher)
    (hread : (w.store.read watcher.path).result = .error fault) :
    w.refresh id = .settled (.error fault) w := by
  simp only [refresh, found, hread]

/-- A watcher that sees what it saw does nothing. -/
theorem refresh_same (found : w.watcher? id = some watcher)
    (hread : (w.store.read watcher.path).result = .ok seen)
    (same : seen.strictEq watcher.baseline = true) : w.refresh id = .settled (.ok ()) w := by
  simp only [refresh, found, hread, same, if_true]

/-- A watcher that sees something new records it and reacts, unless its reaction runs already. -/
theorem refresh_anew (found : w.watcher? id = some watcher)
    (hread : (w.store.read watcher.path).result = .ok seen)
    (differ : seen.strictEq watcher.baseline = false) (quiet : w.isRunning id = false) :
    w.refresh id = .reacts (watcher.reaction seen) (w.observe id seen) := by
  simp only [refresh, found, hread, differ, quiet, Bool.false_eq_true, if_false]

end refresh

/-- If nothing has to run, looking again leads to nothing more than a new observation. -/
theorem settled_cases {settled : World σ} {result : Except Fault Unit}
    (h : w.refresh id = .settled result settled) :
    settled = w ∨ ∃ seen, settled = w.observe id seen := by
  unfold refresh at h
  split at h
  · cases h
    exact .inl rfl
  · split at h
    · cases h
      exact .inl rfl
    · next seen _ =>
      split at h
      · cases h
        exact .inl rfl
      · split at h <;> cases h
        exact .inr ⟨seen, rfl⟩

/-- Only a watcher that does not run reacts, and it records first what it reacts to. -/
theorem reacts_cases {recorded : World σ} {reaction : Program σ}
    (h : w.refresh id = .reacts reaction recorded) :
    ∃ watcher seen, w.watcher? id = some watcher ∧
      (w.store.read watcher.path).result = .ok seen ∧ w.isRunning id = false ∧
        reaction = watcher.reaction seen ∧ recorded = w.observe id seen := by
  unfold refresh at h
  split at h
  · cases h
  · next watcher hwatcher =>
    split at h
    · cases h
    · next seen hread =>
      -- neither an equal value nor one that is seen during the reaction calls for it
      split at h
      · cases h
      · split at h
        · cases h
        · next idle =>
          cases h
          exact ⟨watcher, seen, hwatcher, hread, by simpa using idle, rfl, rfl⟩

/-! ### The watchers that live -/

/-- The watchers that live. -/
def live (w : World σ) : List WatcherId :=
  ((List.range w.watchers.length).map WatcherId.mk).filter w.isAlive

/-- The living are the watchers that were made and are alive. -/
theorem mem_live : id ∈ w.live ↔ id.val < w.watchers.length ∧ w.isAlive id = true := by
  obtain ⟨i⟩ := id
  simp [live]

/-- Nobody lives twice. -/
theorem nodup_live (w : World σ) : w.live.Nodup :=
  (List.nodup_range.map fun _ _ same => congrArg WatcherId.val same).filter _

/-- The watchers that were made are numbered without a gap. -/
theorem watcher?_eq_some_iff_lt : (∃ watcher, w.watcher? id = some watcher) ↔
    id.val < w.watchers.length := by
  rw [← Option.isSome_iff_exists, watcher?, isSome_getElem?]

end World

end Bindery
