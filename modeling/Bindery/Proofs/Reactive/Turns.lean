import Bindery.Proofs.Reactive.FanOut
import Bindery.Proofs.Reactive.Silence
import Bindery.Proofs.Store.Traversal

namespace Bindery

/-!
# Repeated registrations

A watcher that reads a property twice is registered on it twice, and a write then gives it two
turns.  In the second it finds what it has just recorded, so its reaction does not run again, unless
what it sees is an array or an object that a derivation made: such a value equals nothing, not even
itself.

* `Snapshot.isDetached` — arrays and objects from outside the store.
* `World.reactions`, `World.reactionsTo` — the reactions that a notification and a write run.
* `World.Observing` — worlds whose reactions only observe; `World.Notes` — and keep a log of
  themselves.
* `World.notify_reactions` — such a log has exactly the reactions that a notification runs.
* `World.count_reactionsTo` — how often a write makes a watcher react, and that a log says the same.
-/

variable {σ : Type}

namespace Snapshot

/-- Whether a snapshot is an array or object from outside the store. -/
def isDetached : Snapshot → Bool
  | .value (.array _) | .value (.object _) => true
  | .value (.scalar _) | .composite _ => false

/-- What is not detached equals itself. -/
theorem strictEq_self_of_not_isDetached {seen : Snapshot} (h : seen.isDetached = false) :
    seen.strictEq seen = true := by
  cases seen with
  | composite id => exact beq_self_eq_true id
  | value value =>
    cases value with
    | scalar s => exact Scalar.strictEq_self s
    | array items => cases h
    | object members => cases h

/-- What is detached equals nothing. -/
theorem strictEq_of_isDetached {seen : Snapshot} (h : seen.isDetached = true) (other : Snapshot) :
    seen.strictEq other = false := by
  cases seen with
  | composite id => cases h
  | value value =>
    cases value with
    | scalar s => cases h
    | array items => cases other <;> rfl
    | object members => cases other <;> rfl

end Snapshot

/-! ### What the data show -/

/-- A scalar has nothing in it but itself. -/
theorem Json.descendAll_scalar {segments : List String} {s : Scalar} {value : Json}
    (h : Json.descendAll segments (.scalar s) = .ok value) : value = .scalar s := by
  cases segments with
  | nil =>
    cases h
    rfl
  | cons segment rest => cases h

/-- The composites and scalars of an arena are not detached. -/
theorem Arena.resolve_not_isDetached (a : Arena) (id : CompositeId) (segments : List String)
    {seen : Snapshot} (h : (a.resolve id segments).1 = .ok seen) : seen.isDetached = false := by
  have scalar {rest : List String} {s : Scalar} {seen : Snapshot}
      (h : (Json.descendAll rest (.scalar s)).map Snapshot.value = .ok seen) :
      seen.isDetached = false := by
    cases hrest : Json.descendAll rest (.scalar s) with
    | error refusal => simp [hrest, Except.map] at h
    | ok value =>
      rw [hrest, Json.descendAll_scalar hrest] at h
      cases h
      rfl
  induction segments generalizing id with
  | nil =>
    cases h
    rfl
  | cons segment rest ih =>
    simp only [Arena.resolve] at h
    split at h
    · split at h
      · exact ih _ h
      · exact scalar h
      · cases h
    · exact scalar h
    · cases h
    · cases h

/-- A path into the data shows nothing detached. -/
theorem Store.read_not_isDetached {s : Store} {path : Path} {seen : Snapshot}
    (plain : ∀ name ∈ path.segments.head?, s.isComputed name = false)
    (h : (s.read path).result = .ok seen) : seen.isDetached = false := by
  have inData : s.computed.lookup path.head = none := by
    simpa [Store.isComputed] using plain path.head (List.head?_eq_some_head path.nonempty)
  rw [Store.read, Store.resolve_inData inData List.prefix_rfl] at h
  cases hresolve : (s.arena.resolve s.root path.segments).1 with
  | error refusal => simp [hresolve, Except.mapError] at h
  | ok resolved =>
    rw [hresolve] at h
    cases h
    exact s.arena.resolve_not_isDetached s.root path.segments hresolve

/-- Whether looking again calls for the reaction. -/
def Refreshed.callsReaction : Refreshed σ → Bool
  | .settled _ _ => false
  | .reacts _ _ => true

namespace World

/-! ### The reactions that run -/

/-- The watchers whose reactions a notification runs, in order, each as often as it runs. -/
def reactions (update : Updater σ) : List WatcherId → World σ → List WatcherId
  | [], _ => []
  | id :: rest, w =>
    if w.isAlive id then
      (if (w.refresh id).callsReaction then [id] else []) ++
        match update id w with
        | some (.ok (), w) => reactions update rest w
        | _ => []
    else reactions update rest w

/-- The watchers whose reactions a write runs. -/
def reactionsTo (path : Path) (value : Json) (w : World σ) : List WatcherId :=
  match w.store.assign path value with
  | .ok (.replaced property, store) =>
    reactions (updateAt w.depth) (w.subscribers property) { w with store }
  | _ => []

/-- The reactions of live watchers only observe. -/
def Observing (w : World σ) : Prop :=
  ∀ id watcher, w.watcher? id = some watcher → w.isAlive id = true →
    ∀ seen, (watcher.reaction seen).Observes

/-- The reactions of live watchers keep a log: a part of the host to which each adds its watcher
whenever it runs. -/
def Notes (w : World σ) (tally : σ → List WatcherId) : Prop :=
  ∀ id watcher, w.watcher? id = some watcher → w.isAlive id = true →
    ∀ seen store host result last, (watcher.reaction seen).Logs store host result last →
      tally last = tally host ++ [id]

/-- What a watcher sees in a store is detached. -/
def SeesDetached (w : World σ) (store : Store) (id : WatcherId) : Prop :=
  ∃ watcher seen, w.watcher? id = some watcher ∧ (store.read watcher.path).result = .ok seen ∧
    seen.isDetached = true

/-- A watcher remembers what it would see. -/
def UpToDate (w : World σ) (id : WatcherId) : Prop :=
  ∃ watcher seen, w.watcher? id = some watcher ∧
    (w.store.read watcher.path).result = .ok seen ∧ seen.strictEq watcher.baseline = true

variable {w left : World σ} {id : WatcherId} {ids : List WatcherId} {store : Store}

/-- A watcher on a path into the data sees nothing detached. -/
theorem not_seesDetached {watcher : Watcher σ} (found : w.watcher? id = some watcher)
    (plain : ∀ name ∈ watcher.path.segments.head?, store.isComputed name = false) :
    ¬ w.SeesDetached store id := by
  rintro ⟨other, seen, hother, hread, detached⟩
  cases found.symm.trans hother
  rw [Store.read_not_isDetached plain hread] at detached
  cases detached

/-- A watcher whose turn is over keeps its path and its reaction. -/
theorem watcher?_leaving_some {watcher : Watcher σ} (found : w.watcher? id = some watcher)
    (store : Store) (host : σ) (runs : List (WatcherId × Snapshot)) :
    ∃ baseline, (w.leaving store host runs).watcher? id = some { watcher with baseline } := by
  induction runs generalizing w watcher with
  | nil => exact ⟨watcher.baseline, found⟩
  | cons run runs ih =>
    have recorded : ∃ between,
        (w.observe run.1 run.2).watcher? id = some { watcher with baseline := between } := by
      rw [watcher?_observe, found, Option.map_some]
      split
      · exact ⟨run.2, rfl⟩
      · exact ⟨watcher.baseline, rfl⟩
    obtain ⟨between, hbetween⟩ := recorded
    obtain ⟨baseline, hafter⟩ := ih hbetween
    exact ⟨baseline, hafter⟩

/-- A turn does not change what the reactions are, so they go on observing. -/
theorem Observing.leaving (h : w.Observing) (host : σ) (runs : List (WatcherId × Snapshot)) :
    (w.leaving store host runs).Observing := by
  intro id watcher found alive seen
  obtain ⟨before, hbefore, same⟩ := (wanes_leaving host runs).reaction found
  rw [same]
  exact h id before hbefore (by rwa [isAlive_leaving] at alive) seen

/-- And they go on keeping their log. -/
theorem Notes.leaving {tally : σ → List WatcherId} (h : w.Notes tally) (host : σ)
    (runs : List (WatcherId × Snapshot)) : (w.leaving store host runs).Notes tally := by
  intro id watcher found alive seen
  obtain ⟨before, hbefore, same⟩ := (wanes_leaving host runs).reaction found
  rw [same]
  exact h id before hbefore (by rwa [isAlive_leaving] at alive) seen

/-- A new world has no reactions that could do more than observe. -/
theorem observing_new (store : Store) (host : σ) : (new store host).Observing :=
  fun _ _ found => nomatch found

/-- A watcher that only observes joins the others. -/
theorem Observing.watch (h : w.Observing) (path : Path) {reaction : Snapshot → Program σ}
    (observes : ∀ seen, (reaction seen).Observes) : (w.watch path reaction).2.Observing := by
  cases hread : (w.store.read path).result with
  | error fault => rwa [watch_of_fault reaction hread]
  | ok seen =>
    rw [watch_of_read reaction hread]
    intro id watcher found alive
    obtain before | ⟨-, rfl⟩ := watcher?_append found
    · have lt := watcher?_eq_some_iff_lt.1 ⟨watcher, before⟩
      exact h id watcher before (by rwa [isAlive_append lt] at alive)
    · exact observes

theorem notes_new (store : Store) (host : σ) (tally : σ → List WatcherId) :
    (new store host).Notes tally :=
  fun _ _ found => nomatch found

/-- A watcher that notes itself joins the others. -/
theorem Notes.watch {tally : σ → List WatcherId} (h : w.Notes tally) (path : Path)
    {reaction : Snapshot → Program σ}
    (notes : ∀ seen store host result last, (reaction seen).Logs store host result last →
      tally last = tally host ++ [⟨w.watchers.length⟩]) :
    (w.watch path reaction).2.Notes tally := by
  cases hread : (w.store.read path).result with
  | error fault => rwa [watch_of_fault reaction hread]
  | ok seen =>
    rw [watch_of_read reaction hread]
    intro id watcher found alive
    obtain before | ⟨rfl, rfl⟩ := watcher?_append found
    · have lt := watcher?_eq_some_iff_lt.1 ⟨watcher, before⟩
      exact h id watcher before (by rwa [isAlive_append lt] at alive)
    · exact notes

/-- What a watcher sees that is detached is so after the turns of any. -/
theorem seesDetached_leaving {seenIn : Store} (host : σ) (runs : List (WatcherId × Snapshot)) :
    (w.leaving store host runs).SeesDetached seenIn id ↔ w.SeesDetached seenIn id := by
  constructor
  · rintro ⟨after, seen, found, hread, detached⟩
    have lt : id.val < w.watchers.length := by
      have wanes : w.Wanes (w.leaving store host runs) := wanes_leaving host runs
      rw [← wanes.length]
      exact watcher?_eq_some_iff_lt.1 ⟨after, found⟩
    obtain ⟨watcher, hwatcher⟩ := watcher?_eq_some_iff_lt.2 lt
    obtain ⟨baseline, hafter⟩ := watcher?_leaving_some hwatcher store host runs
    cases found.symm.trans hafter
    exact ⟨watcher, seen, hwatcher, hread, detached⟩
  · rintro ⟨watcher, seen, found, hread, detached⟩
    obtain ⟨baseline, hafter⟩ := watcher?_leaving_some found store host runs
    exact ⟨_, seen, hafter, hread, detached⟩

/-- **A turn.** It leaves the world as it is but for the host and for what the watcher itself has
observed.  The host changes only if the reaction runs: then it is what the reaction logs, and what
the watcher has observed is what its path now leads to. -/
theorem Observing.turn (h : w.Observing) (alive : w.isAlive id = true) (depth : Nat) :
    ∃ result host runs,
      updateAt (depth + 1) id w = some (result, w.leaving w.store host runs) ∧
        (∀ run ∈ runs, run.1 = id) ∧ ((w.refresh id).callsReaction = false → host = w.host) ∧
          ((w.refresh id).callsReaction = true → ∃ watcher seen, w.watcher? id = some watcher ∧
            (w.store.read watcher.path).result = .ok seen ∧ runs = [(id, seen)] ∧
              (watcher.reaction seen).Logs w.store w.host result host) := by
  cases hrefresh : w.refresh id with
  | settled result settled =>
    rw [updateAt_settled _ hrefresh]
    obtain rfl | ⟨seen, rfl⟩ := settled_cases hrefresh
    · exact ⟨result, settled.host, [], rfl, by simp, fun _ => rfl, nofun⟩
    · exact ⟨result, w.host, [(id, seen)], rfl, by simp, fun _ => rfl, nofun⟩
  | reacts reaction recorded =>
    obtain ⟨watcher, seen, found, hread, -, rfl, rfl⟩ := reacts_cases hrefresh
    obtain ⟨result, last, hlogs⟩ := (h id watcher found alive seen).logs w.store w.host
    refine ⟨result, last, [(id, seen)], ?_, by simp, nofun,
      fun _ => ⟨watcher, seen, found, hread, rfl, hlogs⟩⟩
    have hexec := hlogs.exec (updateAt depth)
      (show ((w.observe id seen).enter id).store = w.store from rfl) rfl
    rw [updateAt_reacts _ hrefresh, hexec]
    rfl

/-- A notification of observing watchers ends, and leaves the store as it is. -/
theorem Observing.notify_ends (h : w.Observing) (ids : List WatcherId) (depth : Nat) :
    ∃ result host runs,
      notify (updateAt (depth + 1)) ids w = some (result, w.leaving w.store host runs) := by
  induction ids generalizing w with
  | nil => exact ⟨.ok (), w.host, [], rfl⟩
  | cons id rest ih =>
    simp only [World.notify]
    split
    · next alive =>
      obtain ⟨result, host, runs, hupdate, -⟩ := h.turn alive depth
      rw [hupdate]
      cases result with
      | error fault => exact ⟨.error fault, host, runs, rfl⟩
      | ok done =>
        obtain ⟨result, last, others, hrest⟩ := ih (h.leaving host runs)
        refine ⟨result, last, runs ++ others, hrest.trans ?_⟩
        simp only [World.leaving, recorded, List.foldl_append]
    · exact ih h

/-! ### How often they run -/

/-- A reaction runs in a turn of its watcher only. -/
theorem count_reactions_le (update : Updater σ) (ids : List WatcherId) (w : World σ)
    (id : WatcherId) : (reactions update ids w).count id ≤ ids.count id := by
  induction ids generalizing w with
  | nil => exact Nat.le_refl _
  | cons first rest ih =>
    have here : (if (w.refresh first).callsReaction then [first] else []).count id ≤
        [first].count id := by
      split
      · exact Nat.le_refl _
      · exact Nat.zero_le _
    rw [← List.singleton_append, List.count_append]
    simp only [reactions, List.singleton_append]
    split
    · rw [List.count_append]
      refine Nat.add_le_add here ?_
      split
      · exact ih _
      · exact Nat.zero_le _
    · exact Nat.le_trans (ih w) (Nat.le_add_left _ _)

/-- The turns of others do not change what a watcher remembers. -/
theorem UpToDate.leaving (h : w.UpToDate id) {runs : List (WatcherId × Snapshot)} (host : σ)
    (others : ∀ run ∈ runs, run.1 ≠ id) : (w.leaving w.store host runs).UpToDate id := by
  obtain ⟨watcher, seen, found, hread, same⟩ := h
  exact ⟨watcher, seen, (watcher?_leaving host others).trans found, hread, same⟩

/-- A watcher that has recorded what it sees remembers it, if that is not detached. -/
theorem upToDate_recorded {watcher : Watcher σ} {seen : Snapshot}
    (found : w.watcher? id = some watcher) (hread : (w.store.read watcher.path).result = .ok seen)
    (attached : ¬ w.SeesDetached w.store id) (host : σ) :
    (w.leaving w.store host [(id, seen)]).UpToDate id := by
  have recorded : (w.leaving w.store host [(id, seen)]).watcher? id =
      some { watcher with baseline := seen } := by
    simp [leaving_cons, watcher?_leaving, watcher?_observe, found]
  refine ⟨_, seen, recorded, hread, Snapshot.strictEq_self_of_not_isDetached ?_⟩
  cases hdetached : seen.isDetached with
  | false => rfl
  | true => exact absurd ⟨watcher, seen, found, hread, hdetached⟩ attached

/-- While a watcher remembers what it sees, its reaction does not run. -/
theorem Observing.count_of_upToDate (h : w.Observing) (current : w.UpToDate id)
    (ids : List WatcherId) (depth : Nat) :
    (reactions (updateAt (depth + 1)) ids w).count id = 0 := by
  induction ids generalizing w with
  | nil => rfl
  | cons first rest ih =>
    simp only [reactions]
    split
    · next alive =>
      by_cases same : first = id
      · subst same
        obtain ⟨watcher, seen, found, hread, hsame⟩ := current
        have settled := refresh_same found hread hsame
        rw [settled, updateAt_settled _ settled]
        exact ih h ⟨watcher, seen, found, hread, hsame⟩
      · obtain ⟨result, host, runs, hupdate, others, -⟩ := h.turn alive depth
        have elsewhere :
            (if (w.refresh first).callsReaction then [first] else []).count id = 0 := by
          split <;> simp [same]
        rw [hupdate, List.count_append, elsewhere, Nat.zero_add]
        cases result with
        | error fault => rfl
        | ok done =>
          exact ih (h.leaving host runs)
            (current.leaving host fun run hrun hid => same ((others run hrun).symm.trans hid))
    · exact ih h current

/-- A watcher that sees nothing detached reacts at most once. -/
theorem Observing.count_le_one (h : w.Observing) (attached : ¬ w.SeesDetached w.store id)
    (ids : List WatcherId) (depth : Nat) :
    (reactions (updateAt (depth + 1)) ids w).count id ≤ 1 := by
  induction ids generalizing w with
  | nil => exact Nat.zero_le _
  | cons first rest ih =>
    simp only [reactions]
    split
    · next alive =>
      obtain ⟨result, host, runs, hupdate, -, -, reacts⟩ := h.turn alive depth
      have after : (w.leaving w.store host runs).Observing := h.leaving host runs
      have later := ih after fun detached => attached ((seesDetached_leaving host runs).1 detached)
      rw [hupdate, List.count_append]
      by_cases hreacts : first = id ∧ (w.refresh first).callsReaction = true
      · -- the turn in which it reacts: from now on it remembers what it sees
        obtain ⟨rfl, calls⟩ := hreacts
        obtain ⟨watcher, seen, found, hread, rfl, -⟩ := reacts calls
        have current := upToDate_recorded found hread attached host
        have silent := after.count_of_upToDate current rest depth
        rw [if_pos calls, List.count_singleton_self]
        cases result with
        | error fault => exact Nat.le_refl _
        | ok done => exact Nat.le_of_eq (congrArg (1 + ·) silent)
      · have nothing : (if (w.refresh first).callsReaction then [first] else []).count id = 0 := by
          split
          · next calls => exact List.count_cons_of_ne fun same => hreacts ⟨same, calls⟩
          · rfl
        rw [nothing, Nat.zero_add]
        cases result with
        | error fault => exact Nat.zero_le _
        | ok done => exact later
    · exact ih h attached

/-- A watcher that sees something detached, and whose reaction does not run already, reacts in each
of its turns. -/
theorem Observing.count_of_seesDetached (h : w.Observing) (detached : w.SeesDetached w.store id)
    (alive : w.isAlive id = true) (quiet : w.isRunning id = false) (depth : Nat)
    (success : notify (updateAt (depth + 1)) ids w = some (.ok (), left)) :
    (reactions (updateAt (depth + 1)) ids w).count id = ids.count id := by
  induction ids generalizing w with
  | nil => rfl
  | cons first rest ih =>
    simp only [World.notify] at success
    simp only [reactions]
    split
    · next living =>
      obtain ⟨result, host, runs, hupdate, -⟩ := h.turn living depth
      rw [if_pos living, hupdate] at success
      rw [hupdate, List.count_append]
      cases result with
      | error fault => cases success
      | ok done =>
        have after : (w.leaving w.store host runs).Observing := h.leaving host runs
        have later := ih after ((seesDetached_leaving host runs).2 detached)
          (by rwa [isAlive_leaving]) quiet success
        have here : (if (w.refresh first).callsReaction then [first] else []).count id =
            [first].count id := by
          by_cases same : first = id
          · subst same
            obtain ⟨watcher, seen, found, hread, hseen⟩ := detached
            have differ := Snapshot.strictEq_of_isDetached hseen watcher.baseline
            rw [refresh_anew found hread differ quiet]
            rfl
          · split <;> simp [same]
        rw [here, later, ← List.count_append, List.singleton_append]
    · next dead =>
      have other : first ≠ id := fun same => dead (same ▸ alive)
      rw [if_neg dead] at success
      rw [ih h detached alive quiet success, List.count_cons_of_ne other]

/-! ### What a log shows -/

/-- **The reactions are those of the log.** If each reaction notes its watcher in a log, a
notification adds exactly the reactions that it runs. -/
theorem Observing.notify_reactions (h : w.Observing) {tally : σ → List WatcherId}
    (notes : w.Notes tally) {result : Except Fault Unit} {depth : Nat}
    (ended : notify (updateAt (depth + 1)) ids w = some (result, left)) :
    tally left.host = tally w.host ++ reactions (updateAt (depth + 1)) ids w := by
  induction ids generalizing w with
  | nil =>
    cases ended
    exact (List.append_nil _).symm
  | cons id rest ih =>
    simp only [World.notify] at ended
    simp only [reactions]
    split
    · next alive =>
      obtain ⟨outcome, host, runs, hupdate, -, silent, reacts⟩ := h.turn alive depth
      rw [if_pos alive, hupdate] at ended
      rw [hupdate]
      -- the entry that this turn adds to the log
      have here : tally host =
          tally w.host ++ if (w.refresh id).callsReaction then [id] else [] := by
        cases calls : (w.refresh id).callsReaction with
        | false => rw [silent calls, if_neg Bool.false_ne_true, List.append_nil]
        | true =>
          obtain ⟨watcher, seen, found, -, -, hlogs⟩ := reacts calls
          rw [if_pos rfl]
          exact notes id watcher found alive seen _ _ _ _ hlogs
      rw [← List.append_assoc, ← here]
      cases outcome with
      | error fault =>
        cases ended
        exact (List.append_nil _).symm
      | ok done => exact ih (h.leaving host runs) (notes.leaving host runs) ended
    · next dead =>
      rw [if_neg dead] at ended
      exact ih h notes ended

/-! ### Writes -/

/-- A write that replaces nothing ends, leaves the host as it is, and runs no reaction. -/
theorem write_of_not_replaced {path : Path} {value : Json}
    (other : ∀ property store, w.store.assign path value ≠ .ok (.replaced property, store)) :
    ∃ result left, World.write path value w = some (result, left) ∧ left.host = w.host ∧
      w.reactionsTo path value = [] := by
  cases hassign : w.store.assign path value with
  | error fault =>
    exact ⟨.error fault, w, by simp [World.write, World.assign, hassign], rfl,
      by simp [reactionsTo, hassign]⟩
  | ok done =>
    obtain ⟨effect, store⟩ := done
    cases effect with
    | unchanged =>
      exact ⟨.ok (), w, by simp [World.write, World.assign, hassign], rfl,
        by simp [reactionsTo, hassign]⟩
    | added =>
      exact ⟨.ok (), { w with store }, by simp [World.write, World.assign, hassign], rfl,
        by simp [reactionsTo, hassign]⟩
    | replaced property => exact absurd hassign (other property store)

/-- **Double registration.** As long as reactions only observe, a write ends.  It makes no watcher
react more often than it is registered on the property that the write replaces, and none more than
once that does not see something detached afterwards, which a watcher on a path into the data never
does.  A watcher that does see something detached reacts as often as it is registered, if its
reaction does not run already and no turn fails.  The reactions that are counted are those of any
log that the reactions themselves keep. -/
theorem count_reactionsTo (observing : w.Observing) (path : Path) (value : Json) (id : WatcherId) :
    ∃ result left, World.write path value w = some (result, left) ∧
      (∀ tally, w.Notes tally → tally left.host = tally w.host ++ w.reactionsTo path value) ∧
      (¬ w.SeesDetached left.store id → (w.reactionsTo path value).count id ≤ 1) ∧
      (∀ watcher, w.watcher? id = some watcher →
        (∀ name ∈ watcher.path.segments.head?, left.store.isComputed name = false) →
          (w.reactionsTo path value).count id ≤ 1) ∧
      ∀ property store, w.store.assign path value = .ok (.replaced property, store) →
        (w.reactionsTo path value).count id ≤ (w.subscribers property).count id ∧
          (w.SeesDetached left.store id → w.isAlive id = true → w.isRunning id = false →
            result = .ok () →
              (w.reactionsTo path value).count id = (w.subscribers property).count id) := by
  by_cases replaced : ∃ property store,
      w.store.assign path value = .ok (.replaced property, store)
  · obtain ⟨property, store, hassign⟩ := replaced
    have written : ({ w with store } : World σ).Observing := observing
    obtain ⟨result, host, runs, hnotify⟩ :=
      written.notify_ends (w.subscribers property) w.watchers.length
    have hwrite : World.write path value w =
        some (result, ({ w with store } : World σ).leaving store host runs) := by
      simp only [World.write, World.assign, hassign]
      exact hnotify
    have hreactions : w.reactionsTo path value =
        reactions (updateAt w.depth) (w.subscribers property) { w with store } := by
      simp only [reactionsTo, hassign]
    have atMost (attached : ¬ w.SeesDetached store id) :
        (w.reactionsTo path value).count id ≤ 1 := by
      rw [hreactions]
      exact written.count_le_one attached _ _
    refine ⟨result, _, hwrite, fun tally notes => ?_, atMost,
      fun _ found plain => atMost (not_seesDetached found plain), ?_⟩
    · rw [hreactions]
      exact written.notify_reactions notes hnotify
    · rintro _ _ same
      cases hassign.symm.trans same
      rw [hreactions]
      refine ⟨count_reactions_le _ _ _ _, fun detached alive quiet success => ?_⟩
      subst success
      exact written.count_of_seesDetached detached alive quiet _ hnotify
  · have other (property : PropertyId) (store : Store) :
        w.store.assign path value ≠ .ok (.replaced property, store) :=
      fun h => replaced ⟨property, store, h⟩
    obtain ⟨result, left, hwrite, hhost, none⟩ := write_of_not_replaced other
    refine ⟨result, left, hwrite, fun tally _ => ?_, by simp [none], by simp [none],
      fun property store h => absurd h (other property store)⟩
    rw [hhost, none, List.append_nil]

/-- A watcher of a computed member that reads the property `n` twice; its reaction keeps a log. -/
def registeredTwice (combine : Json → Json → Json) : World (List WatcherId) :=
  let both : Derivation := (Derivation.get "n").bind fun first =>
    (Derivation.get "n").bind fun second => .pure (combine first second)
  let store := (Store.ofJson (.object [("n", .integer 1)])).define "both" both
  ((new store []).watch ⟨["both"], by decide, by decide⟩ fun _ => .modify (· ++ [⟨0⟩])).2

/-- The only reaction does nothing but keep the log. -/
theorem observing_registeredTwice (combine : Json → Json → Json) :
    (registeredTwice combine).Observing :=
  (observing_new _ []).watch _ fun _ => .edit .finish

/-- It keeps the log. -/
theorem notes_registeredTwice (combine : Json → Json → Json) :
    (registeredTwice combine).Notes fun log => log := by
  refine (notes_new _ [] _).watch _ fun seen store host result last logs => ?_
  cases logs with
  | edit rest =>
    cases rest
    rfl

/-- If it combines what it reads to a scalar, the watcher is registered twice and reacts once. -/
theorem count_registeredTwice : ∃ left,
    World.write ⟨["n"], by decide, by decide⟩ (.integer 2) (registeredTwice fun first _ => first) =
        some (.ok (), left) ∧
      ((registeredTwice fun first _ => first).subscribers ⟨0⟩).count ⟨0⟩ = 2 ∧
      ((registeredTwice fun first _ => first).reactionsTo ⟨["n"], by decide, by decide⟩
        (.integer 2)).count ⟨0⟩ ≤ 1 ∧ left.host = [⟨0⟩] := by
  have checked : (World.write ⟨["n"], by decide, by decide⟩ (.integer 2)
      (registeredTwice fun first _ => first)).any (fun (result, left) => result.isOk &&
        ((registeredTwice fun first _ => first).watcher? ⟨0⟩).all fun watcher =>
          (left.store.read watcher.path).result.toOption.all (!·.isDetached)) = true := by
    decide +kernel
  have once : (registeredTwice fun first _ => first).reactionsTo ⟨["n"], by decide, by decide⟩
      (.integer 2) = [⟨0⟩] := by
    decide +kernel
  obtain ⟨result, left, hwrite, logged, atMost, -⟩ :=
    count_reactionsTo (observing_registeredTwice fun first _ => first)
      ⟨["n"], by decide, by decide⟩ (.integer 2) ⟨0⟩
  rw [hwrite, Option.any_some, Bool.and_eq_true] at checked
  obtain ⟨succeeds, attached⟩ := checked
  refine ⟨left, ?_, by decide +kernel, atMost ?_,
    (logged _ (notes_registeredTwice fun first _ => first)).trans once⟩
  · cases result with
    | error fault => cases succeeds
    | ok done => exact hwrite
  · rintro ⟨watcher, seen, found, hread, detached⟩
    simp [found, hread, Except.toOption, detached] at attached

/-- If it combines what it reads to an array, the watcher reacts twice to one write, and the log
says so. -/
theorem reactionsTo_registeredTwice :
    (registeredTwice fun first second => .array [first, second]).Observing ∧
      (registeredTwice fun first second => .array [first, second]).reactionsTo
        ⟨["n"], by decide, by decide⟩ (.integer 2) = [⟨0⟩, ⟨0⟩] ∧
      (World.write ⟨["n"], by decide, by decide⟩ (.integer 2)
        (registeredTwice fun first second => .array [first, second])).map (·.2.host) =
          some [⟨0⟩, ⟨0⟩] :=
  ⟨observing_registeredTwice _, by decide +kernel, by decide +kernel⟩

end World

end Bindery
