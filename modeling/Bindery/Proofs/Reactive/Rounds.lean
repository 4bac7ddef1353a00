import Bindery.Proofs.Reactive.FanOut

namespace Bindery

/-!
# Rounds of observing reactions

Reactions that only observe leave the store alone, so what such a reaction does to the host can be
told from the world in which it begins.  What every single one keeps is kept by a whole round of
them.

* `World.Upheld` — a property of worlds that observations and observing reactions keep.
* `World.Upheld.update`, `World.Upheld.notify`, `World.Upheld.assign` — so do updates, notifications
  and assignments.
-/

namespace World

variable {σ : Type} {I : World σ → Prop} {w w' : World σ} {result : Except Fault Unit} {depth : Nat}

/-- A property of worlds in which reactions only observe.  Recording an observation keeps it, and so
does every reaction to what the path of its watcher leads to. -/
structure Upheld (I : World σ → Prop) : Prop where
  observes : ∀ {w id watcher}, I w → w.watcher? id = some watcher →
    ∀ seen, (watcher.reaction seen).Observes
  observe : ∀ {w id seen}, I w → I (w.observe id seen)
  react : ∀ {w id watcher seen result last}, I w → w.watcher? id = some watcher →
    (w.store.read watcher.path).result = .ok seen →
    (watcher.reaction seen).Logs w.store w.host result last → I { w with host := last }

/-- **One turn.** -/
theorem Upheld.update (upheld : Upheld I) {id : WatcherId} (hw : I w)
    (h : updateAt depth id w = some (result, w')) : I w' := by
  obtain hsettled | ⟨reaction, recorded, inner, left, rfl, hreacts, hexec, rfl⟩ := updateAt_cases h
  · obtain rfl | ⟨seen, rfl⟩ := settled_cases hsettled
    · exact hw
    · exact upheld.observe hw
  · obtain ⟨watcher, seen, found, hread, -, rfl, rfl⟩ := reacts_cases hreacts
    obtain ⟨ended, last, logs⟩ := (upheld.observes hw found seen).logs w.store w.host
    have hrun := logs.exec (updateAt inner) (w := (w.observe id seen).enter id) rfl rfl
    cases hexec.symm.trans hrun
    -- the watcher might as well have recorded what it sees after its reaction
    have reacted : I { w with host := last } := upheld.react hw found hread logs
    exact upheld.observe reacted

/-- **Turns make rounds.** -/
theorem Upheld.notify (upheld : Upheld I) {ids : List WatcherId} (hw : I w)
    (h : World.notify (updateAt depth) ids w = some (result, w')) : I w' := by
  -- each turn begins in the world that the one before it leaves
  induction ids generalizing w with
  | nil =>
    cases h
    exact hw
  | cons id rest ih =>
    simp only [World.notify] at h
    split at h
    · split at h
      · cases h
      · next hupdate =>
        cases h
        exact upheld.update hw hupdate
      · next hupdate => exact ih (upheld.update hw hupdate) h
    · exact ih hw h

/-- An assignment that is not refused changes the store first. -/
theorem Upheld.assign (upheld : Upheld I) {path : Path} {value : Json}
    (refused : ∀ {fault}, w.store.assign path value = .error fault → I w)
    (stored : ∀ {effect store}, w.store.assign path value = .ok (effect, store) →
      I { w with store })
    (h : World.assign (updateAt depth) path value w = some (result, w')) : I w' := by
  simp only [World.assign] at h
  split at h
  · next hassign =>
    cases h
    exact refused hassign
  · next store hassign =>
    cases h
    obtain rfl := Store.eq_of_unchanged hassign
    exact stored hassign
  · next store hassign =>
    cases h
    exact stored hassign
  · next property store hassign => exact upheld.notify (stored hassign) h

end World

end Bindery
