import Bindery.Proofs.Reactive.Moments

namespace Bindery

/-!
# Notification ends

Reactions may write what they or each other watch, in any circle, with ever new values.  They come
to an end all the same, because a watcher whose reaction runs does not react again: the watchers
that live and do not run are fewer in each reaction than around it.

* `Program.WatchFree` — programs that create no watchers; `World.Quiet` — all reactions are such.
* `World.Wanes` — a world that goes on from another without new watchers or new reactions.
* `World.updateAt_terminates` — an update ends if the depth allows for the watchers that do not run.
* `Updater.Extends` — a greater depth changes nothing where a smaller one suffices.
* `World.write_terminates` — so a write has one outcome, and nothing runs after it.
-/

variable {σ : Type}

/-- Programs that create no watchers, whatever they see. -/
inductive Program.WatchFree : Program σ → Prop
  | finish {result} : WatchFree (.finish result)
  | look {next} : (∀ store host, WatchFree (next store host)) → WatchFree (.look next)
  | edit {change next} : WatchFree next → WatchFree (.edit change next)
  | write {path value next} : (∀ result, WatchFree (next result)) →
      WatchFree (.write path value next)
  | drop {id next} : WatchFree next → WatchFree (.drop id next)
  | update {id next} : (∀ result, WatchFree (next result)) → WatchFree (.update id next)

/-- What is left of a program that creates no watchers creates none. -/
theorem Program.Next.watchFree {program rest : Program σ} (h : Next program rest)
    (free : program.WatchFree) : rest.WatchFree := by
  cases h <;> cases free
  case look next => exact next _ _
  case edit next => exact next
  case write next => exact next _
  case drop next => exact next
  case update next => exact next _

namespace World

variable {w m : World σ} {id : WatcherId}

/-- No reaction of a live watcher creates watchers. -/
def Quiet (w : World σ) : Prop :=
  ∀ id watcher, w.watcher? id = some watcher → w.isAlive id = true →
    ∀ seen, (watcher.reaction seen).WatchFree

/-! ### Fewer and fewer watchers -/

/-- The second world has the watchers of the first, with their reactions, and nobody lives in it who
did not live before. -/
structure Wanes (w m : World σ) : Prop where
  length : m.watchers.length = w.watchers.length
  reaction : ∀ {id watcher}, m.watcher? id = some watcher →
    ∃ before, w.watcher? id = some before ∧ watcher.reaction = before.reaction
  alive : ∀ {id}, m.isAlive id = true → w.isAlive id = true

theorem Wanes.refl (w : World σ) : w.Wanes w where
  length := rfl
  reaction h := ⟨_, h, rfl⟩
  alive h := h

/-- Worlds wane one from another. -/
theorem Wanes.trans {last : World σ} (h : w.Wanes m) (h' : m.Wanes last) : w.Wanes last where
  length := h'.length.trans h.length
  reaction found := by
    obtain ⟨middle, hmiddle, hreaction⟩ := h'.reaction found
    obtain ⟨before, hbefore, hsame⟩ := h.reaction hmiddle
    exact ⟨before, hbefore, hreaction.trans hsame⟩
  alive alive := h.alive (h'.alive alive)

/-- A change of a watcher that keeps its reaction and revives nobody makes a world wane. -/
theorem wanes_modifyWatcher {f : Watcher σ → Watcher σ}
    (same : ∀ watcher, (f watcher).reaction = watcher.reaction)
    (alive : ∀ {other}, (w.modifyWatcher id f).isAlive other = true → w.isAlive other = true) :
    w.Wanes (w.modifyWatcher id f) where
  length := length_watchers_modifyWatcher f
  reaction found := by
    rw [watcher?_modifyWatcher, Option.map_eq_some_iff] at found
    obtain ⟨before, hbefore, rfl⟩ := found
    refine ⟨before, hbefore, ?_⟩
    split
    · exact same before
    · rfl
  alive := alive

theorem wanes_observe (seen : Snapshot) : w.Wanes (w.observe id seen) :=
  wanes_modifyWatcher (fun _ => rfl) fun alive => (isAlive_observe seen).symm.trans alive

theorem wanes_drop : w.Wanes (w.drop id) :=
  wanes_modifyWatcher (fun _ => rfl) isAlive_of_drop

theorem wanes_editHost (change : σ → σ) : w.Wanes (w.editHost change) where
  length := rfl
  reaction h := ⟨_, h, rfl⟩
  alive h := h

theorem wanes_store (store : Store) : w.Wanes { w with store } where
  length := rfl
  reaction h := ⟨_, h, rfl⟩
  alive h := h

/-- The watcher whose reaction begins lived before. -/
theorem wanes_enter (alive : w.isAlive id = true) : w.Wanes (w.enter id) where
  length := rfl
  reaction h := ⟨_, h, rfl⟩
  alive h := (isAlive_enter_iff.1 h).elim (fun same => same ▸ alive) fun before => before

/-- A reaction that ends may leave its watcher dead. -/
theorem wanes_leave : w.Wanes w.leave where
  length := rfl
  reaction h := ⟨_, h, rfl⟩
  alive := isAlive_of_leave

/-- As watchers wane, their reactions go on creating none. -/
theorem Quiet.wanes (quiet : w.Quiet) (h : w.Wanes m) : m.Quiet := by
  intro id watcher found alive seen
  obtain ⟨before, hbefore, hreaction⟩ := h.reaction found
  rw [hreaction]
  exact quiet id before hbefore (h.alive alive) seen

/-- As a world wanes nobody is new among the living. -/
theorem Wanes.live_subset (h : w.Wanes m) : m.live ⊆ w.live := by
  intro id hid
  rw [mem_live] at hid ⊢
  exact ⟨h.length ▸ hid.1, h.alive hid.2⟩

/-- The watchers that live and whose reactions do not run. -/
def idle (w : World σ) : List WatcherId := w.live.filter fun id => !w.isRunning id

/-- A watcher is idle if it is alive and its reaction does not run. -/
theorem mem_idle : id ∈ w.idle ↔ id ∈ w.live ∧ w.isRunning id = false := by
  simp [idle]

/-- No watcher is idle twice. -/
theorem nodup_idle (w : World σ) : w.idle.Nodup := w.nodup_live.filter _

/-- One watcher less is idle in a reaction than around it. -/
theorem length_idle_enter_lt (lt : id.val < w.watchers.length) (alive : w.isAlive id = true)
    (idle : w.isRunning id = false) : (w.enter id).idle.length < w.idle.length := by
  have mem : id ∈ w.idle := mem_idle.2 ⟨mem_live.2 ⟨lt, alive⟩, idle⟩
  -- whoever is idle inside was idle before, and is not the one that runs now
  have fewer : (w.enter id).idle.length ≤ (w.idle.erase id).length := by
    refine (w.enter id).nodup_idle.length_le_of_subset fun other hother => ?_
    obtain ⟨hlive, hidle⟩ := mem_idle.1 hother
    simp only [isRunning_enter, Bool.or_eq_false_iff, beq_eq_false_iff_ne] at hidle
    exact (w.nodup_idle.mem_erase_iff).2
      ⟨hidle.1, mem_idle.2 ⟨(wanes_enter alive).live_subset hlive, hidle.2⟩⟩
  have erased := List.length_erase_of_mem mem
  have positive := List.length_pos_of_mem mem
  omega

/-! ### Every operation ends -/

/-- The second world wanes from the first, and the same reactions run in it. -/
structure Resumes (w m : World σ) : Prop extends Wanes w m where
  running : m.running = w.running

theorem Resumes.refl (w : World σ) : w.Resumes w := ⟨.refl w, rfl⟩

/-- Worlds resume one another. -/
theorem Resumes.trans {last : World σ} (h : w.Resumes m) (h' : m.Resumes last) : w.Resumes last :=
  ⟨h.toWanes.trans h'.toWanes, h'.running.trans h.running⟩

/-- An update that calls no reaction leaves the same reactions running. -/
theorem resumes_settled {id : WatcherId} (h : m = w ∨ ∃ seen, m = w.observe id seen) :
    w.Resumes m := by
  obtain rfl | ⟨seen, rfl⟩ := h
  · exact .refl m
  · exact ⟨wanes_observe seen, rfl⟩

/-- No reaction creates watchers, and at most so many watchers are idle. -/
structure Fits (depth : Nat) (w : World σ) : Prop where
  quiet : w.Quiet
  idle_le : w.idle.length ≤ depth

/-- There are no more idle watchers where the same reactions run. -/
theorem Fits.resumes {depth : Nat} (h : w.Fits depth) (hm : w.Resumes m) : m.Fits depth where
  quiet := h.quiet.wanes hm.toWanes
  idle_le := by
    refine Nat.le_trans (m.nodup_idle.length_le_of_subset fun id hid => ?_) h.idle_le
    rw [mem_idle] at hid ⊢
    exact ⟨hm.live_subset hid.1, by simpa [isRunning, hm.running] using hid.2⟩

/-- The operation ends, and what was running before can go on. -/
def Ends (step : Step σ Fault Unit) (w : World σ) : Prop :=
  ∃ result left, step w = some (result, left) ∧ w.Resumes left

/-- Updates of live watchers end wherever at most so many watchers are idle. -/
def Suffices (depth : Nat) (update : Updater σ) : Prop :=
  ∀ {id w}, w.Fits depth → w.isAlive id = true → Ends (update id) w

variable {depth : Nat} {update : Updater σ}

/-- An operation that does nothing but to end with a result. -/
theorem ends_of_eq {step : Step σ Fault Unit} (hm : w.Resumes m) (result : Except Fault Unit)
    (h : step w = some (result, m)) : Ends step w := ⟨result, m, h, hm⟩

/-- An operation ends if the rest of it ends where its beginning ended. -/
theorem Ends.after {step rest : Step σ Fault Unit} (hm : w.Resumes m) (h : step w = rest m)
    (ends : Ends rest m) : Ends step w := by
  obtain ⟨result, left, hrest, hleft⟩ := ends
  exact ⟨result, left, h.trans hrest, hm.trans hleft⟩

/-- A notification ends if its updates do. -/
theorem notify_ends (enough : Suffices depth update) (ids : List WatcherId)
    (fits : w.Fits depth) : Ends (notify update ids) w := by
  -- what one update leaves fits again, so the next one ends as well
  induction ids generalizing w with
  | nil => exact ends_of_eq (.refl w) (.ok ()) rfl
  | cons id rest ih =>
    cases alive : w.isAlive id with
    | false => exact (ih fits).after (.refl w) (by simp [notify, alive])
    | true =>
      obtain ⟨result, left, hupdate, hleft⟩ := enough fits alive
      cases result with
      | error fault => exact ends_of_eq hleft (.error fault) (by simp [notify, alive, hupdate])
      | ok value => exact (ih (fits.resumes hleft)).after hleft (by simp [notify, alive, hupdate])

/-- An assignment ends if the updates of its notification do. -/
theorem assign_ends (enough : Suffices depth update) (path : Path) (value : Json)
    (fits : w.Fits depth) : Ends (assign update path value) w := by
  cases hassign : w.store.assign path value with
  | error fault => exact ends_of_eq (.refl w) (.error fault) (by simp [assign, hassign])
  | ok done =>
    obtain ⟨effect, store⟩ := done
    have hstore : w.Resumes { w with store } := ⟨wanes_store store, rfl⟩
    cases effect with
    | unchanged => exact ends_of_eq (.refl w) (.ok ()) (by simp [assign, hassign])
    | added => exact ends_of_eq hstore (.ok ()) (by simp [assign, hassign])
    | replaced property =>
      exact (notify_ends enough (w.subscribers property) (fits.resumes hstore)).after hstore
        (by simp [assign, hassign])

end World

/-- A program that creates no watchers ends. -/
theorem Program.exec_ends {depth : Nat} {update : Updater σ}
    (enough : World.Suffices depth update) {program : Program σ} (free : program.WatchFree)
    {w : World σ} (fits : w.Fits depth) : World.Ends (program.exec update) w := by
  induction free generalizing w with
  | @finish result => exact World.ends_of_eq (.refl w) result rfl
  | look _ ih => exact (ih _ _ fits).after (.refl w) rfl
  | @edit change next _ ih =>
    have hedit : w.Resumes (w.editHost change) := ⟨World.wanes_editHost change, rfl⟩
    exact (ih (fits.resumes hedit)).after hedit rfl
  | @write path value next _ ih =>
    obtain ⟨result, left, hassign, hleft⟩ := World.assign_ends enough path value fits
    exact (ih result (fits.resumes hleft)).after hleft (by simp [exec, hassign])
  | @drop id next _ ih =>
    have hdrop : w.Resumes (w.drop id) := ⟨World.wanes_drop, rfl⟩
    exact (ih (fits.resumes hdrop)).after hdrop rfl
  | @update id next _ ih =>
    cases alive : w.isAlive id with
    | false => exact (ih (.ok ()) fits).after (.refl w) (by simp [exec, alive])
    | true =>
      obtain ⟨result, left, hupdate, hleft⟩ := enough fits alive
      exact (ih result (fits.resumes hleft)).after hleft (by simp [exec, alive, hupdate])

namespace World

/-- **Termination.** An update ends with a depth for each idle watcher: in a reaction one less is
idle. -/
theorem updateAt_ends (depth : Nat) : Suffices (σ := σ) depth (updateAt depth) := by
  intro id w fits alive
  cases hrefresh : w.refresh id with
  | settled result settled =>
    exact ends_of_eq (resumes_settled (settled_cases hrefresh)) result (updateAt_settled _ hrefresh)
  | reacts reaction recorded =>
    obtain ⟨watcher, seen, hwatcher, -, idle, rfl, rfl⟩ := reacts_cases hrefresh
    have hrecorded : w.Resumes (w.observe id seen) := ⟨wanes_observe seen, rfl⟩
    have alive' : (w.observe id seen).isAlive id = true := by simpa using alive
    have lt : id.val < (w.observe id seen).watchers.length := by
      simpa using watcher?_eq_some_iff_lt.1 ⟨_, hwatcher⟩
    -- the watcher itself is idle now and runs then, so there is a level left to go down
    have fewer := length_idle_enter_lt lt alive' idle
    have most := (fits.resumes hrecorded).idle_le
    obtain ⟨inner, rfl⟩ : ∃ inner, depth = inner + 1 := ⟨depth - 1, by omega⟩
    have fits' : ((w.observe id seen).enter id).Fits inner :=
      ⟨(fits.resumes hrecorded).quiet.wanes (wanes_enter alive'), by omega⟩
    have free : (watcher.reaction seen).WatchFree := fits.quiet id watcher hwatcher alive seen
    obtain ⟨result, left, hexec, hleft⟩ := Program.exec_ends (updateAt_ends inner) free fits'
    -- the reaction left its own mark on top, with a result or a fault
    have returned : (w.observe id seen).Resumes left.leave := by
      refine ⟨((wanes_enter alive').trans hleft.toWanes).trans wanes_leave, ?_⟩
      rw [leave, hleft.running]
      rfl
    exact ends_of_eq (hrecorded.trans returned) result
      (by rw [updateAt_reacts inner hrefresh, hexec]; rfl)
termination_by depth

end World

/-! ### One outcome for every depth -/

/-- The second way to update does the same as the first, wherever the first comes to an end. -/
def Updater.Extends (update update' : Updater σ) : Prop :=
  ∀ {id w out}, update id w = some out → update' id w = some out

variable {update update' : Updater σ}

/-- Where a notification ends, it ends the same way with updates that agree with the first. -/
theorem World.notify_extends (extends' : update.Extends update') {ids : List WatcherId}
    {w : World σ} {out : Except Fault Unit × World σ} (h : notify update ids w = some out) :
    notify update' ids w = some out := by
  induction ids generalizing w with
  | nil => exact h
  | cons id rest ih =>
    simp only [notify] at h ⊢
    split at h
    · next alive =>
      rw [if_pos alive]
      split at h
      · cases h
      · next hupdate => rw [extends' hupdate]; exact h
      · next hupdate => rw [extends' hupdate]; exact ih h
    · next dead =>
      rw [if_neg dead]
      exact ih h

theorem World.assign_extends (extends' : update.Extends update') {path : Path} {value : Json}
    {w : World σ} {out : Except Fault Unit × World σ} (h : assign update path value w = some out) :
    assign update' path value w = some out := by
  simp only [assign] at h ⊢
  split at h
  · exact h
  · exact h
  · exact h
  · exact notify_extends extends' h

theorem Program.exec_extends (extends' : update.Extends update') {program : Program σ}
    {w : World σ} {out : Except Fault Unit × World σ} (h : program.exec update w = some out) :
    program.exec update' w = some out := by
  induction program generalizing w with
  | finish result => exact h
  | look next ih => exact ih _ _ h
  | edit change next ih => exact ih h
  | write path value next ih =>
    simp only [exec] at h ⊢
    split at h
    · cases h
    · next hassign =>
      rw [World.assign_extends extends' hassign]
      exact ih _ h
  | watch path reaction next ihReaction ih => exact ih _ h
  | drop id next ih => exact ih h
  | update id next ih =>
    simp only [exec] at h ⊢
    split at h
    · cases h
    · next result left hupdate =>
      have hupdate' : (if w.isAlive id = true then update' id w else some (.ok (), w)) =
          some (result, left) := by
        split at hupdate
        · next alive =>
          rw [if_pos alive]
          exact extends' hupdate
        · next dead => rwa [if_neg dead]
      rw [hupdate']
      exact ih _ h

namespace World

/-- A greater depth changes nothing where a smaller one suffices. -/
theorem updateAt_extends {depth depth' : Nat} (h : depth ≤ depth') :
    Updater.Extends (σ := σ) (updateAt depth) (updateAt depth') := by
  intro id w out hout
  obtain ⟨result, left⟩ := out
  obtain hsettled | ⟨reaction, recorded, inner, last, rfl, hrefresh, hexec, rfl⟩ :=
    updateAt_cases hout
  · exact updateAt_settled _ hsettled
  · obtain ⟨inner', rfl⟩ : ∃ inner', depth' = inner' + 1 := ⟨depth' - 1, by omega⟩
    have hinner : inner ≤ inner' := by omega
    rw [updateAt_reacts inner' hrefresh, Program.exec_extends (updateAt_extends hinner) hexec]
    rfl
termination_by depth

/-! ### The reactions on the stack -/

/-- The second world wanes from the first, and its reactions run for different watchers. -/
structure Stacks (w m : World σ) : Prop extends Wanes w m where
  nodup : m.running.Nodup
  known : ∀ id ∈ m.running, id.val < m.watchers.length

/-- No step of a program puts a watcher on the stack twice. -/
theorem stable_stacks {w : World σ} (quiet : w.Quiet) : Stable Program.WatchFree w.Stacks where
  next h free := h.watchFree free
  reaction h found alive seen := quiet.wanes h.toWanes _ _ found alive seen
  edit h := ⟨h.toWanes.trans (wanes_editHost _), h.nodup, h.known⟩
  assign h _ := ⟨h.toWanes.trans (wanes_store _), h.nodup, h.known⟩
  watch _ free := nomatch free
  drop h := ⟨h.toWanes.trans wanes_drop, h.nodup, by simpa using h.known⟩
  observe h := ⟨h.toWanes.trans (wanes_observe _), h.nodup, by simpa using h.known⟩
  enter {m id} h lt alive idle := by
    -- only a watcher that does not run begins to
    refine ⟨h.toWanes.trans (wanes_enter alive), List.nodup_cons.2 ⟨?_, h.nodup⟩, ?_⟩
    · simpa [isRunning] using idle
    · exact List.forall_mem_cons.2 ⟨lt, h.known⟩
  leave h := ⟨h.toWanes.trans wanes_leave, h.nodup.sublist (List.tail_sublist _),
    fun id hid => h.known id (List.mem_of_mem_tail hid)⟩

/-- Whoever has a reaction that runs is alive. -/
theorem Stacks.running_subset {w m : World σ} (h : w.Stacks m) : m.running ⊆ m.live := by
  intro id hid
  have running : m.isRunning id = true := by simpa [isRunning] using hid
  exact mem_live.2 ⟨h.known id hid, by simp [isAlive, running]⟩

/-! ### Writes from outside -/

/-- A write ends, with one outcome for every depth that allows for the live watchers, and leaves
nothing running.  All along, the reactions that run belong to different watchers that live. -/
theorem write_terminates (w : World σ) (path : Path) (value : Json) (outermost : w.running = [])
    (quiet : w.Quiet) :
    (∃ result left, write path value w = some (result, left) ∧ left.running = [] ∧
      ∀ depth, w.live.length ≤ depth →
        assign (updateAt depth) path value w = some (result, left)) ∧
    ∀ depth m, AssignPasses (updateAt depth) (UpdatePasses depth) path value w m →
      m.running.Nodup ∧ m.running ⊆ m.live ∧ m.running.length ≤ m.live.length ∧
        m.live.length ≤ w.live.length := by
  have fits : w.Fits w.live.length := ⟨quiet, List.length_filter_le _ _⟩
  obtain ⟨result, left, hassign, hleft⟩ := assign_ends (updateAt_ends _) path value fits
  have same (depth : Nat) (enough : w.live.length ≤ depth) :
      assign (updateAt depth) path value w = some (result, left) :=
    assign_extends (updateAt_extends enough) hassign
  -- the depth that is used from outside counts all watchers there ever were
  have live_le : w.live.length ≤ w.depth := by
    have := List.length_filter_le w.isAlive ((List.range w.watchers.length).map WatcherId.mk)
    simp only [List.length_map, List.length_range] at this
    exact Nat.le_succ_of_le this
  refine ⟨⟨result, left, same _ live_le, hleft.running.trans outermost, same⟩,
    fun depth m hpasses => ?_⟩
  have start : w.Stacks w := ⟨.refl w, by simp [outermost], by simp [outermost]⟩
  have stable := stable_stacks quiet
  have stacked : w.Stacks m :=
    stable.assignPasses (stable.updatePasses depth) (updateAt_covers depth) start hpasses
  exact ⟨stacked.nodup, stacked.running_subset,
    stacked.nodup.length_le_of_subset stacked.running_subset,
    m.nodup_live.length_le_of_subset stacked.live_subset⟩

/-- A reaction that writes one more than it saw. -/
def counting (path : Path) : Snapshot → Program Unit
  | .value (.scalar (.number (.integer n))) => .write path (.integer (n + 1)) .finish
  | _ => .finish (.ok ())

/-- The reaction creates no watchers. -/
theorem counting_watchFree (path : Path) (seen : Snapshot) : (counting path seen).WatchFree := by
  unfold counting
  split
  · exact .write fun _ => .finish
  · exact .finish

/-- Two watchers each of which writes what the other one watches. -/
def pingPong : World Unit :=
  let left : Path := ⟨["left"], by decide, by decide⟩
  let right : Path := ⟨["right"], by decide, by decide⟩
  let data : Json := .object [("left", .integer 0), ("right", .integer 0)]
  (((new (.ofJson data) ()).watch left (counting right)).2.watch right (counting left)).2

/-- Ever new values go to and fro until both watchers run. -/
theorem write_pingPong : pingPong.running = [] ∧ pingPong.Quiet ∧
    ∃ result left, write ⟨["left"], by decide, by decide⟩ (.integer 1) pingPong =
      some (result, left) ∧ left.running = [] := by
  have outermost : pingPong.running = [] := rfl
  have quiet : pingPong.Quiet := by
    intro id watcher found _ seen
    have reactions : pingPong.watchers.map (·.reaction) =
        [counting ⟨["right"], by decide, by decide⟩,
          counting ⟨["left"], by decide, by decide⟩] := rfl
    have among := List.mem_map_of_mem (f := (·.reaction)) (List.mem_of_getElem? found)
    rw [reactions, List.mem_cons, List.mem_singleton] at among
    obtain same | same := among <;> rw [same] <;> exact counting_watchFree _ seen
  obtain ⟨result, left, hwrite, hleft, -⟩ :=
    (write_terminates pingPong ⟨["left"], by decide, by decide⟩ (.integer 1) outermost quiet).1
  exact ⟨outermost, quiet, result, left, hwrite, hleft⟩

end World

end Bindery
