import Bindery.Proofs.Reactive.Settling
import Bindery.Proofs.Store.LeadsTo

namespace Bindery

/-!
# No update is lost

In the middle of a notification many watchers are behind, and reactions write on.  As long as every
step succeeds, each of the steps leaves no watcher behind that was not behind already: what it
changes it also makes known, in between to watchers whose reactions are running.

* `World.Run` — the worlds that programs which hand on faults lead to if all of them succeed.
* `World.Coherent` — what holds at every moment; `World.Stale` — a watcher that is behind.
* `World.Settles` — a world in which nobody is behind who was not in another.
* `World.current_of_run` — after a run nobody is behind.
-/

variable {σ : Type}

namespace World

variable {w w' left : World σ} {id : WatcherId}

/-! ### Watchers that are behind -/

/-- What holds of a world without computed members at every moment. -/
structure Coherent (w : World σ) : Prop where
  plain : w.store.computed = []
  represented : ∃ g, w.store.arena.Represents w.store.root g
  /-- Registrations are on properties that were given out. -/
  issued : ∀ entry ∈ w.ledger, w.store.arena.Issued (.inl entry.1)
  /-- Reactions hand on faults. -/
  reactions : ∀ {id watcher}, w.watcher? id = some watcher →
    ∀ seen, (watcher.reaction seen).Propagates

/-- A live watcher that is registered on the property of its path and remembers something else than
what the property holds. -/
def Stale (w : World σ) (id : WatcherId) : Prop :=
  ∃ watcher property content, w.watcher? id = some watcher ∧ w.isAlive id = true ∧
    (property, id) ∈ w.ledger ∧ w.store.arena.LeadsTo w.store.root watcher.path property ∧
      w.store.arena.contents[property]? = some content ∧
        content.snapshot.strictEq watcher.baseline = false

/-- The second world is as coherent as the first, and nobody is behind in it who was not before. -/
structure Settles (w w' : World σ) : Prop where
  coherent : w'.Coherent
  stale : ∀ {id}, w'.Stale id → w.Stale id

theorem Settles.follows (h : w.Settles w') : Follows Coherent Stale w w' := ⟨h.coherent, h.stale⟩

/-- What settles and then follows settles. -/
theorem Settles.after (h : w.Settles w') (h' : Follows Coherent Stale w' left) :
    w.Settles left where
  coherent := h'.holds
  stale stale := h.stale (h'.behind stale)

/-- A watcher that remembers what a read of its path sees is not behind. -/
theorem Coherent.not_stale (h : w.Coherent) {watcher : Watcher σ} {seen : Snapshot}
    (found : w.watcher? id = some watcher) (hread : (w.store.read watcher.path).result = .ok seen)
    (same : seen.strictEq watcher.baseline = true) : ¬ w.Stale id := by
  rintro ⟨other, property, content, hother, -, -, hleads, hcontent, differ⟩
  cases found.symm.trans hother
  -- the read goes where the path leads, so it sees what the property holds
  rw [Store.read_plain h.plain, hleads.read hcontent] at hread
  cases hread
  rw [same] at differ
  cases differ

/-- What a path shows without computed members is equal to itself. -/
theorem Coherent.strictEq_self (h : w.Coherent) {path : Path} {seen : Snapshot}
    (hread : (w.store.read path).result = .ok seen) : seen.strictEq seen = true := by
  obtain ⟨g, hg⟩ := h.represented
  obtain ⟨content, rfl⟩ := hg.resolve_snapshot ((Store.read_plain h.plain).1 hread)
  exact content.strictEq_snapshot_self

/-- Steps that do nothing to the store leave nobody behind. -/
theorem Coherent.settles (h : w.Coherent) (carries : w.Carries w') : w.Settles w' where
  coherent := {
    plain := carries.store ▸ h.plain
    represented := carries.store ▸ h.represented
    issued := by
      rw [carries.store, carries.ledger]
      exact h.issued
    reactions := fun found seen => by
      obtain ⟨before, hbefore, -, hreaction, -⟩ := carries.watcher found
      rw [hreaction]
      exact h.reactions hbefore seen }
  stale {id} := by
    rintro ⟨after, property, content, hafter, halive, hledger, hleads, hcontent, differ⟩
    obtain ⟨before, hbefore, hpath, -, hbaseline⟩ := carries.watcher hafter
    rw [carries.store] at hleads hcontent
    rw [carries.ledger] at hledger
    obtain hsame | hread := hbaseline
    · exact ⟨before, property, content, hbefore, carries.alive halive, hledger, hpath ▸ hleads,
        hcontent, hsame ▸ differ⟩
    -- a watcher that remembers what it has just read is not behind at all
    · rw [Store.read_plain h.plain, hleads.read hcontent, Except.ok.injEq] at hread
      rw [← hread, Content.strictEq_snapshot_self] at differ
      cases differ

/-! ### Single steps -/

theorem Coherent.refl (h : w.Coherent) : w.Settles w := ⟨h, fun stale => stale⟩

/-- A new watcher remembers what it sees. -/
theorem Coherent.watch (h : w.Coherent) (path : Path) {reaction : Snapshot → Program σ}
    (propagates : ∀ seen, (reaction seen).Propagates) :
    (∃ fault, (w.watch path reaction).1 = .error fault) ∨ w.Settles (w.watch path reaction).2 := by
  cases hread : (w.store.read path).result with
  | error fault => exact .inl ⟨fault, by simp [World.watch, hread]⟩
  | ok seen =>
    rw [watch_of_read reaction hread]
    refine .inr ⟨⟨h.plain, h.represented, ?_, ?_⟩, ?_⟩
    · intro entry hentry
      obtain hold | hnew := List.mem_append.1 hentry
      · exact h.issued entry hold
      · obtain ⟨property, htrace, rfl⟩ := List.mem_map.1 hnew
        obtain ⟨g, hg⟩ := h.represented
        rw [Store.read, Store.resolve_plain h.plain] at htrace
        exact hg.issued_trace htrace
    · intro id watcher found
      obtain hold | ⟨-, rfl⟩ := watcher?_append found
      · exact h.reactions hold
      · exact propagates
    · -- a watcher that was there before has the registrations that it had
      rintro id ⟨watcher, property, content, hwatcher, halive, hledger, hleads, hcontent, differ⟩
      obtain hold | ⟨-, rfl⟩ := watcher?_append hwatcher
      · refine ⟨watcher, property, content, hold, ?_, ?_, hleads, hcontent, differ⟩
        · simpa [isAlive, hold, hwatcher, isRunning] using halive
        · obtain hbefore | hnew := List.mem_append.1 hledger
          · exact hbefore
          · obtain ⟨_, -, hsame⟩ := List.mem_map.1 hnew
            cases hsame
            simp [watcher?] at hold
      · -- the new watcher itself: it has just read what the property holds
        rw [Store.read_plain h.plain, hleads.read hcontent, Except.ok.injEq] at hread
        rw [← hread, Content.strictEq_snapshot_self] at differ
        cases differ

/-- After an assignment only the subscribers of the property that it replaced may be behind. -/
theorem Coherent.assign (h : w.Coherent) {path : Path} {value : Json} {effect : Effect}
    {store : Store} (hassign : w.store.assign path value = .ok (effect, store)) :
    Coherent { w with store } ∧ ∀ {id}, Stale { w with store } id →
      w.Stale id ∨ ∃ property, effect = .replaced property ∧ id ∈ w.subscribers property := by
  obtain ⟨g, hg⟩ := h.represented
  obtain ⟨hrepresented, hcontinues⟩ := Store.represents_assign hg hassign
  obtain ⟨_, arena, -, -, rfl⟩ := Store.assign_cases hassign
  refine ⟨⟨h.plain, hrepresented, fun entry hentry => hcontinues.keeps _ (h.issued entry hentry),
    h.reactions⟩, ?_⟩
  rintro id ⟨watcher, property, content, hwatcher, halive, hledger, hleads, hcontent, differ⟩
  have issued := h.issued _ hledger
  -- either the property is the replaced one, or it holds what it held, where its path led before
  by_cases hreplaced : effect.replaced? = some property
  · refine .inr ⟨property, ?_, ?_⟩
    · cases effect <;> simp_all [Effect.replaced?]
    · exact mem_subscribers.2 ⟨hledger, halive⟩
  · exact .inl ⟨watcher, property, content, hwatcher, halive, hledger,
      hcontinues.leadsTo hleads issued, hcontinues.content hcontent issued hreplaced, differ⟩

/-- **Single steps leave nobody behind** but the subscribers of what they replace. -/
theorem settling_stale : Settling (σ := σ) (fun _ => True) Coherent Stale where
  reaction h found := h.reactions found
  alive := by
    rintro w id ⟨_, _, _, -, alive, -⟩
    exact alive
  known := by
    rintro w id ⟨watcher, _, _, found, -⟩ missing
    rw [found] at missing
    cases missing
  carry h carries := (h.settles carries).follows
  watch {w path reaction seen} h propagates hread := by
    obtain ⟨fault, failed⟩ | settles := h.watch path propagates
    · simp [World.watch, hread] at failed
    · exact settles.follows
  assign h _ hassign := h.assign hassign
  current {w id watcher seen} h found hread remembers := by
    refine h.not_stale found hread ?_
    obtain rfl | same := remembers
    · exact h.strictEq_self hread
    · exact same

/-! ### Runs -/

/-- The worlds that programs lead to one after another, as long as they hand on faults and there
are none. -/
inductive Run (start : World σ) : World σ → Prop
  | start : Run start start
  | next {w w' program depth} : Run start w → Program.Propagates program →
      program.exec (updateAt depth) w = some (.ok (), w') → Run start w'

/-- A new world is coherent. -/
theorem coherent_new (data : Json) (host : σ) : (new (.ofJson data) host).Coherent where
  plain := by
    simp only [new, Store.ofJson]
    split <;> rfl
  represented := (Store.Reachable.ofJson data).represents
  issued := by simp [new]
  reactions found := by simp [new, watcher?] at found

/-- Nobody is behind after a run. -/
theorem Run.settles {data : Json} {host : σ} (h : Run (new (.ofJson data) host) w) :
    (new (.ofJson data) host).Settles w := by
  induction h with
  | start => exact (coherent_new data host).refl
  | next _ propagates hexec ih =>
    exact ih.after (settling_stale.exec (settling_stale.updates _) propagates ih.coherent
      (fun _ _ => trivial) hexec)

/-- **No lost update.** After a run every live watcher that is registered on the property of its
path remembers what a read of the path sees. -/
theorem current_of_run {data : Json} {host : σ} (h : Run (new (.ofJson data) host) w)
    {watcher : Watcher σ} (found : w.watcher? id = some watcher) (alive : w.isAlive id = true)
    (registered : w.isRegistered watcher.path.text id = .ok true) :
    ∃ seen, (w.store.read watcher.path).result = .ok seen ∧
      watcher.baseline.strictEq seen = true := by
  have settles := h.settles
  have coherent := settles.coherent
  cases hproperty : w.store.propertyAt watcher.path.text with
  | error fault => simp [isRegistered, hproperty, Except.map] at registered
  | ok property =>
    have subscribed : id ∈ w.subscribers property := by
      simpa [isRegistered, hproperty, Except.map] using registered
    obtain ⟨hleads, live⟩ := Store.leadsTo_of_propertyAt coherent.plain hproperty
    rw [Std.TreeMap.mem_iff_isSome_getElem?, Option.isSome_iff_exists] at live
    obtain ⟨content, hcontent⟩ := live
    refine ⟨content.snapshot, (Store.read_plain coherent.plain).2 (hleads.read hcontent), ?_⟩
    rw [Snapshot.strictEq_comm]
    -- otherwise it would be behind, and so somebody would have been who is not there at the start
    by_contra differ
    have stale : w.Stale id := ⟨watcher, property, content, found, alive,
      (mem_subscribers.1 subscribed).1, hleads, hcontent, by simpa using differ⟩
    obtain ⟨_, _, _, nobody, -⟩ := settles.stale stale
    simp [new, watcher?] at nobody

/-- Two watchers of one property, the first of which writes ten over whatever it sees. -/
def overwritten : Program Unit :=
  let path : Path := ⟨["n"], by decide, by decide⟩
  .watch path (fun _ => .write path (.integer 10) .finish) <| .orFail fun _ =>
    .watch path (fun _ => .succeed) <| .orFail fun _ => .write path (.integer 3) .finish

/-- The second watcher has missed nothing, though the write was overtaken before its turn. -/
theorem current_of_overwritten : ∃ (w : World Unit) (watcher : Watcher Unit) (seen : Snapshot),
    Run (new (.ofJson (.object [("n", .integer 0)])) ()) w ∧ w.watcher? ⟨1⟩ = some watcher ∧
      (w.store.read watcher.path).result = .ok seen ∧ watcher.baseline.strictEq seen = true := by
  have outcome : (overwritten.exec (updateAt 2)
      (new (.ofJson (.object [("n", .integer 0)])) ())).any (fun (result, w) =>
        result.isOk && (w.watcher? ⟨1⟩).any fun watcher => w.isAlive ⟨1⟩ &&
          (w.isRegistered watcher.path.text ⟨1⟩).toOption == some true) = true := by
    decide +kernel
  obtain ⟨⟨result, w⟩, hexec, hchecked⟩ := (Option.any_eq_true _ _).1 outcome
  simp only [Bool.and_eq_true, Option.any_eq_true] at hchecked
  obtain ⟨hok, watcher, found, alive, hregistered⟩ := hchecked
  have registered : w.isRegistered watcher.path.text ⟨1⟩ = .ok true := by
    cases h : w.isRegistered watcher.path.text ⟨1⟩ <;> simp_all [Except.toOption]
  have propagates : overwritten.Propagates :=
    .watch (fun _ => .write (fun _ => .finish) fun _ => .finish)
      (Program.Propagates.orFail fun _ => .watch (fun _ => .finish)
        (Program.Propagates.orFail fun _ => .write (fun _ => .finish) fun _ => .finish)
          fun _ => .finish)
      fun _ => .finish
  have run : Run (new (.ofJson (.object [("n", .integer 0)])) ()) w := by
    cases result with
    | error fault => cases hok
    | ok done => exact .next .start propagates hexec
  obtain ⟨seen, hread, same⟩ := current_of_run run found alive registered
  exact ⟨w, watcher, seen, run, found, hread, same⟩

end World

end Bindery
