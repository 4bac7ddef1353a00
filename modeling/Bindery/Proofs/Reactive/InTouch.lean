import Bindery.Proofs.Reactive.FanOut
import Bindery.Proofs.Store.Scalars

namespace Bindery

/-!
# Worlds in touch

Where all watchers are kept and have seen what there is to see, a scalar that takes the place of
another reaches everybody whose path goes through it.

* `World.InTouch` — such worlds.
* `World.watcher?_leaving_due` — what a notification makes of a watcher.
* `World.InTouch.seesAnew_put` — who looks through a property sees another scalar in it.
* `World.InTouch.set_scalar` — setting a scalar, and that the world stays in touch.
-/

variable {σ : Type}

namespace Watcher

/-- The watcher once it has recorded what it sees, if that is new. -/
def record (anew : Option Snapshot) (watcher : Watcher σ) : Watcher σ :=
  { watcher with baseline := anew.getD watcher.baseline }

@[simp] theorem path_record (anew : Option Snapshot) (watcher : Watcher σ) :
    (watcher.record anew).path = watcher.path := rfl

@[simp] theorem isKept_record (anew : Option Snapshot) (watcher : Watcher σ) :
    (watcher.record anew).isKept = watcher.isKept := rfl

end Watcher

namespace World

variable {w : World σ} {store : Store} {id : WatcherId} {watcher : Watcher σ}

/-! ### What a notification records -/

/-- Due are the watchers of the list that see something new, with what they see. -/
theorem mem_due {ids : List WatcherId} {run : WatcherId × Snapshot} :
    run ∈ w.due store ids ↔ run.1 ∈ ids ∧ w.seesAnew store run.1 = some run.2 := by
  obtain ⟨id, seen⟩ := run
  simp only [due, List.mem_filterMap, Option.map_eq_some_iff, Prod.mk.injEq]
  constructor
  · rintro ⟨_, hid, _, hseen, rfl, rfl⟩
    exact ⟨hid, hseen⟩
  · rintro ⟨hid, hseen⟩
    exact ⟨id, hid, seen, hseen, rfl, rfl⟩

/-- A watcher sees something new if its path shows what it did not observe last. -/
theorem seesAnew_eq_some {seen : Snapshot} : w.seesAnew store id = some seen ↔
    ∃ watcher, w.watcher? id = some watcher ∧ (store.read watcher.path).result = .ok seen ∧
      seen.strictEq watcher.baseline = false := by
  unfold seesAnew
  cases w.watcher? id with
  | none => simp
  | some watcher =>
    cases hread : (store.read watcher.path).result with
    | error fault => simp [hread]
    | ok now =>
      simp only [Option.some.injEq, exists_eq_left', hread, Except.ok.injEq]
      cases same : now.strictEq watcher.baseline with
      | true =>
        simp only [if_true]
        constructor
        · intro h
          cases h
        · rintro ⟨rfl, differ⟩
          rw [same] at differ
          cases differ
      | false =>
        simp only [Bool.false_eq_true, if_false, Option.some.injEq]
        constructor
        · rintro rfl
          exact ⟨rfl, same⟩
        · rintro ⟨rfl, -⟩
          rfl

/-- A watcher that records something, and always the same. -/
theorem watcher?_leaving_of_mem {runs : List (WatcherId × Snapshot)} {seen : Snapshot} (host : σ)
    (agree : ∀ run ∈ runs, run.1 = id → run.2 = seen) (hmem : (id, seen) ∈ runs) :
    (w.leaving store host runs).watcher? id =
      (w.watcher? id).map (Watcher.record (some seen)) := by
  induction runs generalizing w with
  | nil => cases hmem
  | cons run runs ih =>
    rw [List.forall_mem_cons] at agree
    rw [leaving_cons]
    by_cases later : (id, seen) ∈ runs
    · rw [ih agree.2 later, watcher?_observe, Option.map_map]
      refine congrArg (Option.map · _) (funext fun watcher => ?_)
      simp only [Function.comp_apply]
      split <;> rfl
    · obtain rfl | hmem := List.mem_cons.1 hmem
      · have last : ∀ run ∈ runs, run.1 ≠ id := by
          intro run hrun same
          apply later
          rw [← same, ← agree.2 run hrun same]
          exact hrun
        rw [watcher?_leaving host last, watcher?_observe]
        simp only [if_true]
        rfl
      · exact absurd hmem later

/-- **What a notification makes of a watcher.** It has recorded what it sees if that is new to it,
and otherwise it is as it was. -/
theorem watcher?_leaving_due {ids : List WatcherId} (host : σ) :
    (w.leaving store host (w.due store ids)).watcher? id =
      (w.watcher? id).map (Watcher.record (if id ∈ ids then w.seesAnew store id else none)) := by
  cases told : (if id ∈ ids then w.seesAnew store id else none) with
  | none =>
    have fresh : ∀ run ∈ w.due store ids, run.1 ≠ id := by
      rintro run hrun rfl
      obtain ⟨hid, anew⟩ := mem_due.1 hrun
      rw [if_pos hid, anew] at told
      cases told
    rw [watcher?_leaving host fresh]
    exact Option.map_id'.symm
  | some seen =>
    split at told
    · next hid =>
      refine watcher?_leaving_of_mem host (fun run hrun same => ?_) (mem_due.2 ⟨hid, told⟩)
      have anew := (mem_due.1 hrun).2
      rw [same, told] at anew
      exact (Option.some.inj anew).symm
    · cases told

/-- What is not recorded stays the same for all watchers. -/
theorem map_watchers_leaving_due {α : Type} {f : Watcher σ → α} {ids : List WatcherId} (host : σ)
    (hf : ∀ anew watcher, f (Watcher.record anew watcher) = f watcher) :
    (w.leaving store host (w.due store ids)).watchers.map f = w.watchers.map f := by
  apply List.ext_getElem?
  intro i
  have now : (w.leaving store host (w.due store ids)).watcher? ⟨i⟩ = _ := watcher?_leaving_due host
  rw [watcher?, watcher?] at now
  rw [List.getElem?_map, List.getElem?_map, now, Option.map_map]
  exact congrArg (Option.map · _) (funext (hf _))

/-! ### In touch -/

/-- Every watcher is kept, observed last what there is now, and is registered on every property that
its path goes through. -/
structure InTouch (w : World σ) : Prop where
  kept : ∀ {id watcher}, w.watcher? id = some watcher → watcher.isKept = true
  seen : ∀ {id watcher}, w.watcher? id = some watcher →
    (w.store.read watcher.path).result = .ok watcher.baseline
  registered : ∀ {id watcher}, w.watcher? id = some watcher →
    ∀ property ∈ (w.store.read watcher.path).trace, (property, id) ∈ w.ledger

/-- A new world has no watchers, so all of them are in touch. -/
theorem inTouch_new (store : Store) (host : σ) : (new store host).InTouch where
  kept found := nomatch found
  seen found := nomatch found
  registered found := nomatch found

/-- A new watcher is in touch from the beginning. -/
theorem InTouch.watch (h : w.InTouch) (path : Path) (reaction : Snapshot → Program σ) :
    (w.watch path reaction).2.InTouch := by
  cases hread : (w.store.read path).result with
  | error fault => simpa [World.watch, hread] using h
  | ok seen =>
    rw [watch_of_read reaction hread]
    constructor
    · intro id watcher found
      obtain old | ⟨-, rfl⟩ := watcher?_append found
      · exact h.kept old
      · rfl
    · intro id watcher found
      obtain old | ⟨-, rfl⟩ := watcher?_append found
      · exact h.seen old
      · exact hread
    · intro id watcher found property hproperty
      obtain old | ⟨rfl, rfl⟩ := watcher?_append found
      · exact List.mem_append_left _ (h.registered old property hproperty)
      · exact List.mem_append_right _ (List.mem_map_of_mem hproperty)

/-- Who looks through a property is on the list of its subscribers. -/
theorem InTouch.subscribed (h : w.InTouch) (found : w.watcher? id = some watcher)
    {property : PropertyId} (through : property ∈ (w.store.read watcher.path).trace) :
    id ∈ w.subscribers property := by
  refine mem_subscribers.2 ⟨h.registered found property through, ?_⟩
  simp [isAlive, found, h.kept found]

section put

variable {property : PropertyId} {old value : Scalar} {expr : String}

/-- **Who is reached.** A watcher whose path goes through a property sees another scalar in it. -/
theorem InTouch.seesAnew_put (h : w.InTouch) (plain : w.store.computed = [])
    (was : w.store.arena.contents[property]? = some (.scalar old))
    (differ : old.strictEq value = false) (found : w.watcher? id = some watcher)
    (through : property ∈ (w.store.read watcher.path).trace) :
    w.seesAnew (w.store.put property value) id = some (.value (.scalar value)) := by
  obtain ⟨baseline, hread⟩ :=
    Store.read_put_of_mem value plain was through (h.seen found)
  refine seesAnew_eq_some.2 ⟨watcher, found, by rw [hread], ?_⟩
  rw [baseline]
  exact (Scalar.strictEq_comm value old).trans differ

/-- When all who see another scalar have recorded it, the world is in touch again. -/
theorem InTouch.put (h : w.InTouch) (plain : w.store.computed = [])
    (was : w.store.arena.contents[property]? = some (.scalar old))
    (differ : old.strictEq value = false) (host : σ) :
    (w.leaving (w.store.put property value) host
      (w.due (w.store.put property value) (w.subscribers property))).InTouch := by
  constructor
  · intro id watcher found
    rw [watcher?_leaving_due, Option.map_eq_some_iff] at found
    obtain ⟨before, hbefore, rfl⟩ := found
    rw [Watcher.isKept_record]
    exact h.kept hbefore
  · intro id watcher found
    rw [watcher?_leaving_due, Option.map_eq_some_iff] at found
    obtain ⟨before, hbefore, rfl⟩ := found
    obtain ⟨-, hread⟩ := Store.read_put value plain was (h.seen hbefore)
    rw [store_leaving, Watcher.path_record]
    refine hread.trans (congrArg Except.ok ?_)
    by_cases through : property ∈ (w.store.read before.path).trace
    · rw [if_pos through, if_pos (h.subscribed hbefore through),
        h.seesAnew_put plain was differ hbefore through]
      rfl
    · -- who is told though it looks elsewhere sees what it saw
      rw [if_neg through] at hread ⊢
      split
      · cases anew : w.seesAnew (w.store.put property value) id with
        | none => rfl
        | some seen =>
          obtain ⟨_, hfound, hseen, -⟩ := seesAnew_eq_some.1 anew
          cases hbefore.symm.trans hfound
          exact Except.ok.inj (hread.symm.trans hseen)
      · rfl
  · intro id watcher found other hother
    rw [watcher?_leaving_due, Option.map_eq_some_iff] at found
    obtain ⟨before, hbefore, rfl⟩ := found
    have same := (Store.read_put value plain was (h.seen hbefore)).1
    rw [store_leaving, Watcher.path_record, same] at hother
    exact h.registered hbefore other hother

/-- **Setting a scalar.** If no reaction fails with another scalar in a property, then all who see
it react in order, and the world stays in touch. -/
theorem InTouch.set_scalar (h : w.InTouch) (attentive : w.Attentive)
    (held : w.store.HoldsScalar expr property old) (differ : old.strictEq value = false)
    (succeeds : ∀ {id watcher seen host result last}, w.watcher? id = some watcher →
      ((w.store.put property value).read watcher.path).result = .ok seen →
      (watcher.reaction seen).Logs (w.store.put property value) host result last →
      result = .ok ()) :
    ∃ last w', set expr (.scalar value) w = some (.ok (), w') ∧
      w' = w.leaving (w.store.put property value) last
        (w.due (w.store.put property value) (w.subscribers property)) ∧
      w.Reacts (w.store.put property value)
        (w.due (w.store.put property value) (w.subscribers property)) w.host last ∧
      w'.Attentive ∧ w'.InTouch := by
  obtain ⟨path, hparse, -⟩ := held.leadsTo attentive.plain
  have hassign := (held.assign attentive.plain hparse value).2 differ
  obtain ⟨told, rest, result, last, hwrite, hsplit, hfans⟩ := attentive.replace hassign
  have hset : set expr (.scalar value) w = some (result,
      w.leaving (w.store.put property value) last (w.due (w.store.put property value) told)) := by
    simp only [set, hparse, hwrite]
  cases hfans with
  | all resolved reacts =>
    rw [List.append_nil] at hsplit
    rw [← hsplit] at hset reacts
    exact ⟨last, _, hset, rfl, reacts, attentive.leaving hassign last _,
      h.put attentive.plain held.holds differ last⟩
  | unresolved resolved reacts found failed =>
    -- what led somewhere still does
    have hread := (Store.read_put value attentive.plain held.holds (h.seen found)).2
    rw [failed] at hread
    cases hread
  | failed resolved reacts found anew logs =>
    obtain ⟨_, hfound, hread, -⟩ := seesAnew_eq_some.1 anew
    cases found.symm.trans hfound
    cases succeeds found hread logs

end put

end World

end Bindery
