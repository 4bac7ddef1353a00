import Bindery.Proofs.Reactive.Computed
import Bindery.Proofs.Reactive.Session
import Bindery.Proofs.Store.Elsewhere

namespace Bindery

/-!
# A write right after a watch

A new watcher is registered on all properties that its path goes through.  So the next write,
wherever it goes, makes it react if it changes what the path leads to, and not otherwise.  The
length of an array is no property, and an item that is added to the array goes unnoticed.

* `World.Lone` — a world with one live watcher, which has just looked; `World.lone_watch` makes one.
* `World.Noticed` — how a write leaves such a world if nothing escapes the watcher.
* `World.write_noticed` — a write that succeeds leaves it so.
-/

variable {σ : Type}

/-- What a read of the data sees equals itself. -/
theorem Store.strictEq_self_of_read {s : Store} {path : Path} {seen : Snapshot}
    (plain : s.computed = []) (hread : (s.read path).result = .ok seen) :
    seen.strictEq seen = true :=
  Snapshot.strictEq_self_of_not_isDetached
    (Store.read_not_isDetached (fun name _ => by simp [isComputed, plain]) hread)

namespace World

variable {w left watching : World σ} {id : WatcherId} {watcher : Watcher σ} {path target : Path}
  {before now : Snapshot} {reaction : Snapshot → Program σ} {value : Json} {store : Store}
  {effect : Effect}

/-! ### Registrations of a new watcher -/

/-- Whatever runs registers no watcher that is not there. -/
theorem stable_known : Stable (σ := σ) (fun _ => True) Known where
  next _ _ := trivial
  reaction _ _ _ _ := trivial
  edit h := h
  assign h _ := h
  watch {_ path reaction _} h _ := h.watch path reaction
  drop h := by simpa [Known] using h
  observe h := by simpa [Known] using h
  enter h _ _ _ := h
  leave h := h

/-- At the end of a session every registration is that of a watcher that was made. -/
theorem Session.known {start : World σ} (h : Session start w) (hstart : start.Known) : w.Known := by
  induction h with
  | start => exact hstart
  | define name derivation _ ih => exact ih
  | run _ hexec ih => exact stable_known.maintained.exec trivial ih hexec

/-- One watcher lives.  It has just looked, and on each property that its path goes through it is
registered once. -/
structure Lone (w : World σ) (id : WatcherId) (path : Path) (reaction : Snapshot → Program σ)
    (before : Snapshot) : Prop where
  plain : w.store.computed = []
  reachable : w.store.Reachable
  found : w.watcher? id = some ⟨path, before, reaction, true⟩
  quiet : w.isRunning id = false
  read : (w.store.read path).result = .ok before
  subscribers : ∀ property, w.subscribers property =
    if property ∈ (w.store.read path).trace then [id] else []

/-- The only watcher is alive. -/
theorem Lone.alive (h : w.Lone id path reaction before) : w.isAlive id = true := by
  simp [isAlive, h.found]

/-- Where nobody lives, a new watcher is alone. -/
theorem lone_watch (reachable : w.store.Reachable) (plain : w.store.computed = [])
    (known : w.Known) (alone : ∀ other, w.isAlive other = false)
    (watched : w.watch path reaction = (.ok id, watching)) :
    ∃ before, watching.Lone id path reaction before := by
  cases hread : (w.store.read path).result with
  | error fault =>
    rw [watch_of_fault reaction hread] at watched
    cases watched
  | ok before =>
    rw [watch_of_read reaction hread] at watched
    cases watched
    have silent : w.isRunning ⟨w.watchers.length⟩ = false := by
      have dead := alone ⟨w.watchers.length⟩
      rw [isAlive, Bool.or_eq_false_iff] at dead
      exact dead.2
    refine ⟨before, plain, reachable, by simp [watcher?], silent, hread, fun property => ?_⟩
    -- of the registrations only those of the new watcher count
    simp only [World.subscribers, List.filter_append, List.map_append, registrations]
    rw [List.filter_eq_nil_iff.2, List.nil_append, List.filter_replicate_of_pos]
    · rw [(reachable.nodup_trace plain path).count]
      split <;> rfl
    · simp [isAlive, watcher?]
    · intro other hother
      obtain ⟨entry, hentry, rfl⟩ := List.mem_map.1 hother
      rw [isAlive_append (known entry (List.mem_of_mem_filter hentry)), alone]
      exact Bool.false_ne_true

/-! ### One watcher and one write -/

/-- How a write leaves a world whose watcher remembered `before`, if the path of the watcher leads
to `now` afterwards: the watcher remembers that, and it is the one that reacted, once, exactly if
the two differ, strictly. -/
structure Noticed (left : World σ) (reacted : List WatcherId) (host : σ) (id : WatcherId)
    (reaction : Snapshot → Program σ) (before now : Snapshot) : Prop where
  remembers : ∃ watcher, left.watcher? id = some watcher ∧ watcher.baseline.strictEq now = true
  silent : now.strictEq before = true → reacted = [] ∧ left.host = host
  reacts : now.strictEq before = false →
    reacted = [id] ∧ (reaction now).Logs left.store host (.ok ()) left.host

/-- A turn that succeeds leaves the world so. -/
theorem noticed_of_notify (alive : w.isAlive id = true) (quiet : w.isRunning id = false)
    (found : w.watcher? id = some watcher) (observes : ∀ seen, (watcher.reaction seen).Observes)
    (plain : w.store.computed = []) (depth : Nat)
    (success : notify (updateAt (depth + 1)) [id] w = some (.ok (), left)) :
    ∃ now, (w.store.read watcher.path).result = .ok now ∧ left.store = w.store ∧
      left.Noticed (reactions (updateAt (depth + 1)) [id] w) w.host id watcher.reaction
        watcher.baseline now := by
  simp only [World.notify, alive, if_true] at success
  simp only [reactions, alive, if_true]
  cases hread : (w.store.read watcher.path).result with
  | error fault =>
    rw [updateAt_settled _ (refresh_error found hread)] at success
    cases success
  | ok now =>
    cases same : now.strictEq watcher.baseline with
    | true =>
      have settled := refresh_same found hread same
      rw [updateAt_settled _ settled] at success ⊢
      cases success
      refine ⟨now, rfl, rfl, ⟨watcher, found, ?_⟩, fun _ => ⟨?_, rfl⟩, fun differ => ?_⟩
      · exact (Snapshot.strictEq_comm watcher.baseline now).trans same
      · rw [settled]
        rfl
      · rw [same] at differ
        cases differ
    | false =>
      have recorded := refresh_anew found hread same quiet
      obtain ⟨result, last, hlogs⟩ := (observes now).logs w.store w.host
      have hexec := hlogs.exec (updateAt depth)
        (show ((w.observe id now).enter id).store = w.store from rfl) rfl
      rw [updateAt_reacts _ recorded, hexec] at success ⊢
      cases result with
      | error fault => cases success
      | ok done =>
        cases success
        have found' : (w.observe id now).watcher? id = some { watcher with baseline := now } := by
          rw [watcher?_observe, found, Option.map_some, if_pos rfl]
        refine ⟨now, rfl, rfl, ⟨_, found', Store.strictEq_self_of_read plain hread⟩,
          fun equal => ?_, fun _ => ⟨?_, hlogs⟩⟩
        · rw [same] at equal
          cases equal
        · rw [recorded]
          rfl

/-- A write that tells nobody does nothing but assign. -/
theorem write_untold (hassign : w.store.assign target value = .ok (effect, store))
    (untold : ∀ property, effect = .replaced property → w.subscribers property = []) :
    World.write target value w = some (.ok (), { w with store }) ∧
      w.reactionsTo target value = [] := by
  simp only [World.write, World.assign, reactionsTo, hassign]
  cases effect with
  | unchanged =>
    cases Store.eq_of_unchanged hassign
    exact ⟨rfl, rfl⟩
  | added => exact ⟨rfl, rfl⟩
  | replaced property =>
    simp only [untold property rfl]
    exact ⟨rfl, rfl⟩

/-- A write that succeeds replaces what the path of the watcher goes through, and the watcher is
told; or nothing that it sees changes; or the length of an array does. -/
theorem Lone.write (h : w.Lone id path reaction before)
    (observes : ∀ seen, (reaction seen).Observes)
    (written : World.write target value w = some (.ok (), left)) :
    ∃ now, (left.store.read path).result = .ok now ∧
      (¬ w.store.Lengthens target path →
        left.Noticed (w.reactionsTo target value) w.host id reaction before now) ∧
      (w.store.Lengthens target path → w.reactionsTo target value = [] ∧ left.host = w.host ∧
        (left.watcher? id).map (·.baseline) = some before ∧
          ∃ n : Nat, before = .value (.integer n) ∧ now = .value (.integer (n + 1))) := by
  cases hassign : w.store.assign target value with
  | error fault =>
    simp only [World.write, World.assign, hassign] at written
    cases written
  | ok done =>
    obtain ⟨effect, store⟩ := done
    obtain ⟨grows, stays⟩ := h.reachable.read_assign h.plain hassign h.read
    by_cases told : ∃ property ∈ (w.store.read path).trace, effect = .replaced property
    · obtain ⟨property, through, rfl⟩ := told
      have plain' : store.computed = [] := (Store.computed_assign hassign).trans h.plain
      simp only [World.write, World.assign, hassign, h.subscribers, if_pos through] at written
      simp only [reactionsTo, hassign, h.subscribers, if_pos through]
      obtain ⟨now, hnow, hstore, noticed⟩ := noticed_of_notify (w := { w with store }) h.alive
        h.quiet h.found observes plain' w.watchers.length written
      refine ⟨now, hstore ▸ hnow, fun _ => noticed, fun lengthens => ?_⟩
      cases (grows lengthens).1
    · obtain ⟨hwrite, silent⟩ := write_untold hassign fun property replaced => by
        rw [h.subscribers, if_neg fun through => told ⟨property, through, replaced⟩]
      cases hwrite.symm.trans written
      rw [silent]
      by_cases lengthens : w.store.Lengthens target path
      · obtain ⟨-, n, rfl, hnow⟩ := grows lengthens
        exact ⟨_, hnow, fun other => absurd lengthens other,
          fun _ => ⟨rfl, rfl, congrArg (Option.map (·.baseline)) h.found, n, rfl, rfl⟩⟩
      · have hnow := stays lengthens fun property through replaced =>
          told ⟨property, through, replaced⟩
        have equal := Store.strictEq_self_of_read h.plain h.read
        refine ⟨before, hnow, fun _ => ⟨⟨_, h.found, equal⟩, fun _ => ⟨rfl, rfl⟩, fun differ => ?_⟩,
          fun other => absurd other lengthens⟩
        rw [equal] at differ
        cases differ

/-- **A write right after a watch** is not missed.  If it succeeds, the one watcher remembers what
its path leads to afterwards, and it has reacted to this, once, exactly if it is not what the path
led to before.  Only an item that is added to the array whose length is watched goes unnoticed. -/
theorem write_noticed {data : Json} {host : σ} (session : Session (new (.ofJson data) host) w)
    (plain : w.store.computed = []) (alone : ∀ other, w.isAlive other = false)
    (watched : w.watch path reaction = (.ok id, watching))
    (observes : ∀ seen, (reaction seen).Observes)
    (written : write target value watching = some (.ok (), left)) :
    ∃ before now, (watching.store.read path).result = .ok before ∧
      (left.store.read path).result = .ok now ∧
      (¬ watching.store.Lengthens target path →
        left.Noticed (watching.reactionsTo target value) watching.host id reaction before now) ∧
      (watching.store.Lengthens target path →
        watching.reactionsTo target value = [] ∧ left.host = watching.host ∧
          (left.watcher? id).map (·.baseline) = some before ∧
            ∃ n : Nat, before = .value (.integer n) ∧ now = .value (.integer (n + 1))) := by
  have known : w.Known := session.known fun _ h => nomatch h
  obtain ⟨before, lone⟩ := lone_watch (session.reachable (.ofJson data)) plain known alone watched
  obtain ⟨now, hnow, outcome⟩ := lone.write observes written
  exact ⟨before, now, lone.read, hnow, outcome⟩

/-- A list of one number, with a watcher that notes its reactions. -/
def listed (path : Path) : World (List Nat) :=
  ((new (.ofJson (.object [("list", .array [.integer 1])])) []).watch path (noting 1)).2

/-- A watcher of the number notices another one, though its path is spelt differently. -/
theorem write_noticed_respelt : ∃ left watcher now,
    write ⟨["list", "0"], by decide, by decide⟩ (.integer 5)
        (listed ⟨["list", "+00"], by decide, by decide⟩) = some (.ok (), left) ∧
      (left.store.read ⟨["list", "+00"], by decide, by decide⟩).result = .ok now ∧
      left.watcher? ⟨0⟩ = some watcher ∧ watcher.baseline.strictEq now = true ∧
      (listed ⟨["list", "+00"], by decide, by decide⟩).reactionsTo
        ⟨["list", "0"], by decide, by decide⟩ (.integer 5) = [⟨0⟩] ∧ left.host = [1] := by
  let slot : Path := ⟨["list", "+00"], by decide, by decide⟩
  let start : World (List Nat) := new (.ofJson (.object [("list", .array [.integer 1])])) []
  have made : (start.watch slot (noting 1)).1 = .ok ⟨0⟩ := by decide +kernel
  have watched : start.watch slot (noting 1) = (.ok ⟨0⟩, listed slot) := Prod.ext made rfl
  have checked : (write ⟨["list", "0"], by decide, by decide⟩ (.integer 5) (listed slot)).any
      (fun (result, left) => result.isOk &&
        ((listed slot).store.read slot).result.toOption.any fun before =>
          (left.store.read slot).result.toOption.any (!·.strictEq before)) = true := by
    decide +kernel
  obtain ⟨⟨result, left⟩, written, hchecked⟩ := (Option.any_eq_true _ _).1 checked
  rw [Bool.and_eq_true] at hchecked
  obtain ⟨hok, changed⟩ := hchecked
  cases result with
  | error fault => cases hok
  | ok done =>
    obtain ⟨before, now, hbefore, hnow, noticed, -⟩ :=
      write_noticed .start (Store.computed_ofJson _) (fun _ => rfl) watched
        (fun _ => .edit .finish) written
    have differ : now.strictEq before = false := by
      simpa [hbefore, hnow, Except.toOption] using changed
    obtain ⟨⟨watcher, found, remembers⟩, -, reacts⟩ := noticed <| by
      rintro ⟨_, _, -, -, hlast, -⟩
      exact absurd hlast (by decide)
    obtain ⟨once, logs⟩ := reacts differ
    refine ⟨left, watcher, now, written, hnow, found, remembers, once, ?_⟩
    generalize left.host = noted at logs
    obtain _ | _ | logs := logs
    cases logs
    decide +kernel

/-- **A write that is not noticed.** A watcher of the length sees nothing of a second number. -/
theorem write_unnoticed : ∃ left,
    write ⟨["list", "1"], by decide, by decide⟩ (.integer 2)
        (listed ⟨["list", "length"], by decide, by decide⟩) = some (.ok (), left) ∧
      (listed ⟨["list", "length"], by decide, by decide⟩).Shows ⟨0⟩ "1" "1" ∧
      left.Shows ⟨0⟩ "1" "2" ∧
      (listed ⟨["list", "length"], by decide, by decide⟩).reactionsTo
        ⟨["list", "1"], by decide, by decide⟩ (.integer 2) = [] ∧ left.host = [] := by
  have checked : (write ⟨["list", "1"], by decide, by decide⟩ (.integer 2)
      (listed ⟨["list", "length"], by decide, by decide⟩)).any (fun (result, left) =>
        result.isOk && (decide (left.Shows ⟨0⟩ "1" "2") && left.host.isEmpty)) = true := by
    decide +kernel
  obtain ⟨⟨result, left⟩, written, hchecked⟩ := (Option.any_eq_true _ _).1 checked
  simp only [Bool.and_eq_true, decide_eq_true_eq, List.isEmpty_iff] at hchecked
  obtain ⟨hok, missed, silent⟩ := hchecked
  cases result with
  | error fault => cases hok
  | ok done => exact ⟨left, written, by decide +kernel, missed, by decide +kernel, silent⟩

end World

end Bindery
