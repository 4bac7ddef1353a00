import Bindery.Proofs.Reactive.Settling
import Bindery.Proofs.Reactive.Silence
import Bindery.Proofs.Reactive.Turns
import Bindery.Proofs.Store.Alike

namespace Bindery

/-!
# Watchers of computed members

A watcher is registered on the properties that its first evaluation goes through, and on no others
later.  While writes only put scalars in the place of scalars, it is up to date whenever the
properties that it is registered on determine what its path shows; where they do not, it may miss a
change.

* `World.SteadyRun` — the worlds that such writes lead to, with whatever reactions to them.
* `World.Outdated` — a watcher that could know better.
* `World.settling_outdated` — single steps make no watcher outdated but those that they notify.
* `World.recalls_of_steadyRun` — after a run no watcher is outdated.
* `World.SteadyRun.watch`, `World.SteadyRun.set` — making watchers and setting scalars are such
  runs.
-/

variable {σ : Type}

/-- What is strictly equal is equal, numbers aside. -/
theorem Snapshot.eq_or_numbers {first second : Snapshot} (h : first.strictEq second = true) :
    first = second ∨ ∃ m n, first = .value (.scalar (.number m)) ∧
      second = .value (.scalar (.number n)) ∧ m.strictEq n = true := by
  cases first with
  | composite id =>
    cases second with
    | composite other => exact .inl (congrArg composite (eq_of_beq h))
    | value other => cases h
  | value value =>
    cases second with
    | composite other => cases h
    | value other =>
      cases value with
      | array items => cases h
      | object members => cases h
      | scalar s =>
        cases other with
        | array items => cases h
        | object members => cases h
        | scalar t =>
          cases s <;> cases t
          case number.number m n => exact .inr ⟨m, n, rfl, rfl, h⟩
          case null.null => exact .inl rfl
          case bool.bool x y => exact .inl (congrArg (fun b => value (.bool b)) (eq_of_beq h))
          case string.string x y => exact .inl (congrArg (fun x => value (.string x)) (eq_of_beq h))
          all_goals cases h

/-- More properties determine as much. -/
theorem Store.FixedBy.mono {s : Store} {path : Path} {P Q : PropertyId → Prop}
    (h : s.FixedBy path P) (more : ∀ property, P property → Q property) : s.FixedBy path Q :=
  fun s' alike agree =>
    h s' alike fun property hproperty => agree property (more property hproperty)

namespace World

/-- The worlds that programs lead to one after another, as long as they hand on faults and there are
none, and at every moment the store has its scalars only from later on. -/
inductive SteadyRun (start : World σ) : World σ → Prop
  | start : SteadyRun start start
  | next {w w' program depth} : SteadyRun start w → Program.Propagates program →
      (∀ m, program.Passes (updateAt depth) (UpdatePasses depth) w m →
        start.store.Alike m.store) →
      program.exec (updateAt depth) w = some (.ok (), w') → SteadyRun start w'

/-- A watcher remembers what its path shows, or a number that is strictly equal to it. -/
def Recalls (w : World σ) (id : WatcherId) : Prop :=
  ∃ watcher seen, w.watcher? id = some watcher ∧
    (w.store.read watcher.path).result = .ok seen ∧
      (watcher.baseline = seen ∨ seen.strictEq watcher.baseline = true)

/-- The properties that a watcher is registered on determine what its path shows. -/
def Determined (w : World σ) (id : WatcherId) : Prop :=
  ∃ watcher, w.watcher? id = some watcher ∧
    w.store.FixedBy watcher.path fun property => (property, id) ∈ w.ledger

/-- A live watcher that does not remember what it shows, though its properties determine it. -/
def Outdated (w : World σ) (id : WatcherId) : Prop :=
  w.isAlive id = true ∧ w.Determined id ∧ ¬ w.Recalls id

/-- What holds at every moment of such a run. -/
structure Steady (base : Store) (w : World σ) : Prop where
  reachable : w.store.Reachable
  alike : base.Alike w.store
  /-- Reactions hand on faults. -/
  reactions : ∀ {id watcher}, w.watcher? id = some watcher →
    ∀ seen, (watcher.reaction seen).Propagates

variable {base : Store} {w w' : World σ} {id : WatcherId}

/-! ### Sequences of writes -/

/-- An observing program passes through worlds with the store that it starts with. -/
theorem store_of_observes {update : Updater σ} {inside : Passing σ} {program : Program σ}
    (observes : program.Observes) (h : program.Passes update inside w w') : w'.store = w.store := by
  induction h with
  | now => rfl
  | look _ ih =>
    cases observes with
    | look next => exact ih (next _ _)
  | edit _ ih =>
    cases observes with
    | edit next => exact ih next
  | writing => cases observes
  | written => cases observes
  | watched => cases observes
  | dropped => cases observes
  | updating => cases observes
  | updated => cases observes
  | ignored => cases observes

/-- So does an update of an observing watcher. -/
theorem Observing.store_of_updatePasses (h : w.Observing) (alive : w.isAlive id = true)
    {depth : Nat} (passes : UpdatePasses depth id w w') : w'.store = w.store := by
  obtain rfl | ⟨result, hsettled⟩ | ⟨reaction, recorded, inner, last, -, hreacts, hpasses, hlast⟩ :=
    updatePasses_cases passes
  · rfl
  · obtain rfl | ⟨seen, rfl⟩ := settled_cases hsettled <;> rfl
  · obtain ⟨watcher, seen, found, -, -, rfl, rfl⟩ := reacts_cases hreacts
    have same : last.store = ((w.observe id seen).enter id).store :=
      store_of_observes (h id watcher found alive seen) hpasses
    obtain rfl | rfl := hlast <;> exact same

/-- And so does a notification. -/
theorem Observing.store_of_notifyPasses (h : w.Observing) {ids : List WatcherId} {depth : Nat}
    (passes : NotifyPasses (updateAt (depth + 1)) (UpdatePasses (depth + 1)) ids w w') :
    w'.store = w.store := by
  induction passes with
  | now => rfl
  | inside alive hinside => exact h.store_of_updatePasses alive hinside
  | next alive hupdate _ ih =>
    obtain ⟨result, host, runs, hturn, -⟩ := h.turn alive depth
    rw [hturn] at hupdate
    cases hupdate
    exact ih (h.leaving host runs)
  | skip _ _ ih => exact ih h

/-- While watchers only observe, an assignment of a scalar to an expression that names one passes
through stores that are alike. -/
theorem Observing.alike_of_assignPasses (h : w.Observing) {expr : String} {path : Path}
    {property : PropertyId} {old value : Scalar} (held : w.store.HoldsScalar expr property old)
    (hparse : Path.parse? expr = some path) {depth : Nat}
    (passes : AssignPasses (updateAt (depth + 1)) (UpdatePasses (depth + 1)) path (.scalar value)
      w w') : w.store.Alike w'.store := by
  cases passes with
  | now => exact .refl _
  | assigned hassign => exact held.alike hparse hassign
  | @notifying _ store _ hassign hnotify =>
    have written : ({ w with store } : World σ).Observing := h
    rw [written.store_of_notifyPasses hnotify]
    exact held.alike hparse hassign

/-- Making a watcher goes on with a run. -/
theorem SteadyRun.watch {start : World σ} (run : SteadyRun start w)
    (alike : start.store.Alike w.store) {path : Path} {reaction : Snapshot → Program σ}
    {seen : Snapshot} (propagates : ∀ seen, (reaction seen).Propagates)
    (hread : (w.store.read path).result = .ok seen) :
    SteadyRun start (w.watch path reaction).2 := by
  have watched := watch_of_read reaction hread
  have moments : ∀ m, (Program.watch path reaction fun result =>
      .finish (result.map fun _ => ())).Passes (updateAt 0) (UpdatePasses 0) w m →
      start.store.Alike m.store := by
    intro m passes
    cases passes with
    | now => exact alike
    | watched rest =>
      cases rest with
      | now =>
        rw [watched]
        exact alike
  refine .next run (.watch propagates (fun _ => .finish) fun _ => .finish) moments ?_
  simp only [Program.exec, watched]
  rfl

/-- **Writes of scalars.** While watchers only observe, setting expressions that name scalars to
scalars, one after another, goes on with a run. -/
theorem SteadyRun.set {start : World σ} (run : SteadyRun start w)
    (alike : start.store.Alike w.store) (observing : w.Observing) {expr : String}
    {property : PropertyId} {old value : Scalar} (held : w.store.HoldsScalar expr property old)
    (hset : World.set expr (.scalar value) w = some (.ok (), w')) : SteadyRun start w' := by
  simp only [World.set] at hset
  cases hparse : Path.parse? expr with
  | none =>
    rw [hparse] at hset
    cases hset
  | some path =>
    simp only [hparse, World.write] at hset
    have moments : ∀ m, (Program.write path (.scalar value) .finish).Passes (updateAt w.depth)
        (UpdatePasses w.depth) w m → start.store.Alike m.store := by
      intro m passes
      cases passes with
      | now => exact alike
      | writing hassign => exact alike.trans (observing.alike_of_assignPasses held hparse hassign)
      | written hassign rest =>
        cases rest with
        | now =>
          have assigns := assign_passes (updateAt_covers _) hassign
          exact alike.trans (observing.alike_of_assignPasses held hparse assigns)
    refine .next run (.write (fun _ => .finish) fun _ => .finish) moments ?_
    simp only [Program.exec, hset]

/-! ### Single steps -/

/-- Steps that do nothing to the store make nobody outdated. -/
theorem Steady.carry (h : w.Steady base) (carries : w.Carries w') :
    Follows (Steady base) Outdated w w' where
  holds := {
    reachable := carries.store ▸ h.reachable
    alike := carries.store ▸ h.alike
    reactions := fun found seen => by
      obtain ⟨before, hbefore, -, hreaction, -⟩ := carries.watcher found
      rw [hreaction]
      exact h.reactions hbefore seen }
  behind {id} := by
    rintro ⟨alive, ⟨after, hafter, fixed⟩, forgets⟩
    obtain ⟨before, hbefore, hpath, -, hbaseline⟩ := carries.watcher hafter
    rw [carries.store, carries.ledger, hpath] at fixed
    refine ⟨carries.alive alive, ⟨before, hbefore, fixed⟩, ?_⟩
    rintro ⟨watcher, seen, found, hread, remembers⟩
    cases hbefore.symm.trans found
    refine forgets ?_
    obtain hsame | hnow := hbaseline
    · refine ⟨after, seen, hafter, ?_, ?_⟩
      · rw [carries.store, hpath]
        exact hread
      · rw [hsame]
        exact remembers
    -- it remembers what it has just read
    · refine ⟨after, after.baseline, hafter, ?_, .inl rfl⟩
      rw [carries.store]
      exact hnow

/-- A new watcher remembers what it sees, and the others have the registrations that they had. -/
theorem Steady.watch (h : w.Steady base) {path : Path} {reaction : Snapshot → Program σ}
    {seen : Snapshot} (propagates : ∀ seen, (reaction seen).Propagates)
    (hread : (w.store.read path).result = .ok seen) :
    Follows (Steady base) Outdated w (w.watch path reaction).2 := by
  rw [watch_of_read reaction hread]
  refine ⟨⟨h.reachable, h.alike, fun {id watcher} found => ?_⟩, fun {id} => ?_⟩
  · obtain hold | ⟨-, rfl⟩ := watcher?_append found
    · exact h.reactions hold
    · exact propagates
  · rintro ⟨alive, ⟨watcher, found, fixed⟩, forgets⟩
    obtain hold | ⟨-, rfl⟩ := watcher?_append found
    · have lt := watcher?_eq_some_iff_lt.1 ⟨watcher, hold⟩
      refine ⟨by rwa [isAlive_append lt] at alive, ⟨watcher, hold, fixed.mono ?_⟩, ?_⟩
      · intro property registered
        obtain hbefore | hnew := List.mem_append.1 registered
        · exact hbefore
        · obtain ⟨_, -, hsame⟩ := List.mem_map.1 hnew
          cases hsame
          exact absurd lt (Nat.lt_irrefl _)
      · rintro ⟨other, shown, hother, hshown, remembers⟩
        cases hold.symm.trans hother
        exact forgets ⟨watcher, shown, found, hshown, remembers⟩
    · exact absurd ⟨_, seen, found, hread, .inl rfl⟩ forgets

/-- After an assignment only the subscribers of the property that it replaced may be outdated. -/
theorem Steady.assign (h : w.Steady base) {path : Path} {value : Json} {effect : Effect}
    {store : Store} (alike : base.Alike store)
    (hassign : w.store.assign path value = .ok (effect, store)) :
    Steady base { w with store } ∧ ∀ {id}, Outdated { w with store } id →
      w.Outdated id ∨ ∃ property, effect = .replaced property ∧ id ∈ w.subscribers property := by
  refine ⟨⟨h.reachable.assign hassign, alike, h.reactions⟩, ?_⟩
  rintro id ⟨alive, ⟨watcher, found, fixed⟩, forgets⟩
  by_cases told : ∃ property, effect.replaced? = some property ∧ (property, id) ∈ w.ledger
  · obtain ⟨property, hreplaced, registered⟩ := told
    refine .inr ⟨property, ?_, mem_subscribers.2 ⟨registered, alive⟩⟩
    cases effect with
    | replaced other => exact congrArg Effect.replaced (Option.some.inj hreplaced)
    | unchanged => cases hreplaced
    | added => cases hreplaced
  · -- nothing changed that it is registered on, so what it is to see was the same before
    have alike' : w.store.Alike store := h.alike.symm.trans alike
    have agree : w.store.AgreeOn (fun property => (property, id) ∈ w.ledger) store := by
      intro property registered
      exact h.reachable.agreeOn_assign hassign alike' property fun hreplaced =>
        told ⟨property, hreplaced, registered⟩
    obtain ⟨fixed', same⟩ := fixed.of_agreeOn alike' agree
    refine .inl ⟨alive, ⟨watcher, found, fixed'⟩, ?_⟩
    rintro ⟨other, seen, hother, hread, remembers⟩
    cases found.symm.trans hother
    exact forgets ⟨watcher, seen, found, same.symm.trans hread, remembers⟩

/-- **Single steps make nobody outdated** but those that they notify. -/
theorem settling_outdated (base : Store) :
    Settling (σ := σ) (fun m => base.Alike m.store) (Steady base) Outdated where
  reaction h found := h.reactions found
  alive outdated := outdated.1
  known := by
    rintro w id ⟨-, ⟨watcher, found, -⟩, -⟩ missing
    rw [found] at missing
    cases missing
  carry h carries := h.carry carries
  watch h propagates hread := h.watch propagates hread
  assign h alike hassign := h.assign alike hassign
  current _ found hread remembers := fun outdated =>
    outdated.2.2 ⟨_, _, found, hread, remembers⟩

/-! ### Runs -/

/-- A new world is steady. -/
theorem steady_new {store : Store} (reachable : store.Reachable) (host : σ) :
    (new store host).Steady store where
  reachable := reachable
  alike := .refl store
  reactions found := nomatch found

/-- Nobody is outdated after a run. -/
theorem SteadyRun.follows {store : Store} (reachable : store.Reachable) {host : σ}
    (run : SteadyRun (new store host) w) :
    Follows (Steady store) Outdated (new store host) w := by
  induction run with
  | start => exact .refl (steady_new reachable host)
  | next _ propagates alike hexec ih =>
    exact ih.trans ((settling_outdated store).exec ((settling_outdated store).updates _) propagates
      ih.holds alike hexec)

/-- **Computed members.** From any store with computed members, let programs and reactions succeed
in all that they do, and put nothing but scalars in the place of scalars.  Then every live watcher
for which the properties that it is registered on determine what its path shows, be it a computed
member or not, remembers just that, or a number that is strictly equal to it. -/
theorem recalls_of_steadyRun {store : Store} (reachable : store.Reachable) {host : σ}
    (run : SteadyRun (new store host) w) {watcher : Watcher σ}
    (found : w.watcher? id = some watcher) (alive : w.isAlive id = true)
    (fixed : w.store.FixedBy watcher.path fun property => (property, id) ∈ w.ledger) :
    ∃ seen, (w.store.read watcher.path).result = .ok seen ∧
      (watcher.baseline = seen ∨ ∃ m n, watcher.baseline = .value (.scalar (.number m)) ∧
        seen = .value (.scalar (.number n)) ∧ n.strictEq m = true) := by
  have follows := run.follows reachable
  -- otherwise somebody would have been outdated who is not there at the start
  have recalls : w.Recalls id := by
    by_contra forgets
    obtain ⟨-, ⟨_, nobody, -⟩, -⟩ := follows.behind ⟨alive, ⟨watcher, found, fixed⟩, forgets⟩
    cases nobody
  obtain ⟨other, seen, hother, hread, remembers⟩ := recalls
  cases found.symm.trans hother
  refine ⟨seen, hread, ?_⟩
  obtain same | equal := remembers
  · exact .inl same
  · obtain same | ⟨n, m, hseen, hbaseline, hnumbers⟩ := Snapshot.eq_or_numbers equal
    · exact .inl same.symm
    · exact .inr ⟨m, n, hbaseline, hseen, hnumbers⟩

/-- A computed member that shows one of two numbers. -/
def pick : Derivation := (Derivation.get "flag").bind fun flag =>
  if flag.bool? = some true then .get "a" else .get "b"

/-- The same, which reads both of them first. -/
def readAndPick : Derivation :=
  (Derivation.get "a").bind fun _ => (Derivation.get "b").bind fun _ => pick

/-- Two numbers, and a computed member. -/
def numbers (a b : Number) (derivation : Derivation) : Store :=
  let data : Json :=
    .object [("flag", .bool false), ("a", .scalar (.number a)), ("b", .scalar (.number b))]
  (Store.ofJson data).define "pick" derivation

/-- They have a watcher of the computed member. -/
def picking (a b : Number) (derivation : Derivation) : World Unit :=
  ((new (numbers a b derivation) ()).watch ⟨["pick"], by decide, by decide⟩ fun _ => .succeed).2

/-- The reactions of this world do nothing at all. -/
theorem observing_picking (a b : Number) (derivation : Derivation) :
    (picking a b derivation).Observing :=
  (observing_new _ ()).watch _ fun _ => .finish

/-- The computed member takes scalars only. -/
theorem evaluates_pick {s : Store}
    (scalars : ["flag", "a", "b"].all (s.showsScalar ·) = true) : s.Evaluates 1 pick := by
  simp only [List.all_cons, List.all_nil, Bool.and_true, Bool.and_eq_true] at scalars
  obtain ⟨flag, a, b⟩ := scalars
  refine .read ⟨rfl, fun _ => Store.admits_of_showsScalar flag 0⟩ ?_
  cases (s.getWith (s.derive 0) "flag").result with
  | error fault => exact .done
  | ok seen =>
    show Derivation.Meets _ _ (if seen.bool? = some true then .get "a" else .get "b")
    split
    · exact .read ⟨rfl, fun _ => Store.admits_of_showsScalar a 0⟩ .done
    · exact .read ⟨rfl, fun _ => Store.admits_of_showsScalar b 0⟩ .done

/-- While the flag is not set, the watcher is registered on all that matters. -/
theorem recalls_picking : ∃ w watcher seen,
    set "b" (.integer 7) (picking (.integer 1) (.integer 2) pick) = some (.ok (), w) ∧
      w.watcher? ⟨0⟩ = some watcher ∧ w.isAlive ⟨0⟩ = true ∧
      (w.store.FixedBy watcher.path fun property => (property, ⟨0⟩) ∈ w.ledger) ∧
      (w.store.read watcher.path).result = .ok seen ∧
      (watcher.baseline = seen ∨ ∃ m n, watcher.baseline = .value (.scalar (.number m)) ∧
        seen = .value (.scalar (.number n)) ∧ n.strictEq m = true) := by
  let before : World Unit := picking (.integer 1) (.integer 2) pick
  let path : Path := ⟨["pick"], by decide, by decide⟩
  have checked : (set "b" (.integer 7) before).any (fun (result, w) => result.isOk &&
      (["flag", "a", "b"].all (w.store.showsScalar ·) && (w.watcher? ⟨0⟩).any fun watcher =>
        w.isAlive ⟨0⟩ && watcher.path == path && (w.store.read path).trace.all fun property =>
          w.ledger.contains (property, ⟨0⟩))) = true := by
    decide +kernel
  obtain ⟨⟨result, w⟩, hset, hchecked⟩ := (Option.any_eq_true _ _).1 checked
  simp only [Bool.and_eq_true, Option.any_eq_true] at hchecked
  obtain ⟨hok, scalars, watcher, found, ⟨alive, hpath⟩, hregistered⟩ := hchecked
  have readable : ((numbers (.integer 1) (.integer 2) pick).read path).result.isOk = true := by
    decide +kernel
  have named : before.store.namesScalar "b" = true := by decide +kernel
  obtain ⟨property, old, held⟩ := Store.namesScalar_iff.1 named
  have reachable : (numbers (.integer 1) (.integer 2) pick).Reachable :=
    .define "pick" pick (.ofJson _)
  cases hread : ((numbers (.integer 1) (.integer 2) pick).read path).result with
  | error fault => simp [hread, Except.isOk, Except.toBool] at readable
  | ok shown =>
    cases result with
    | error fault => cases hok
    | ok done =>
      have watched : SteadyRun (new (numbers (.integer 1) (.integer 2) pick) ()) before :=
        SteadyRun.start.watch (.refl _) (fun _ => .finish) hread
      have run : SteadyRun (new (numbers (.integer 1) (.integer 2) pick) ()) w :=
        watched.set (watched.follows reachable).holds.alike (observing_picking _ _ _) held hset
      have computed : w.store.computed = [("pick", pick)] :=
        (run.follows reachable).holds.alike.computed
      have fixed : w.store.FixedBy watcher.path fun property => (property, ⟨0⟩) ∈ w.ledger := by
        rw [eq_of_beq hpath]
        refine Store.fixedBy_of_evaluates (fun derivation hlookup => ?_) fun property seen => ?_
        · rw [computed] at hlookup ⊢
          cases hlookup
          exact evaluates_pick scalars
        · exact List.contains_iff_mem.1 (List.all_eq_true.1 hregistered property seen)
      obtain ⟨seen, hseen, same⟩ := recalls_of_steadyRun reachable run found alive fixed
      exact ⟨w, watcher, seen, hset, found, alive, fixed, hseen, same⟩

/-- A watcher remembers one text, and its path shows another. -/
def Shows (w : World σ) (id : WatcherId) (remembered shown : String) : Prop :=
  ∃ watcher, w.watcher? id = some watcher ∧ w.isAlive id = true ∧
    w.store.render watcher.baseline = remembered ∧
    (w.store.read watcher.path).result.map w.store.render = .ok shown

instance (w : World σ) (id : WatcherId) (remembered shown : String) :
    Decidable (w.Shows id remembered shown) :=
  match h : w.watcher? id with
  | none => isFalse (by rintro ⟨_, found, -⟩; rw [h] at found; cases found)
  | some watcher =>
    decidable_of_iff (w.isAlive id = true ∧ w.store.render watcher.baseline = remembered ∧
        (w.store.read watcher.path).result.map w.store.render = .ok shown) <| by
      constructor
      · exact fun shows' => ⟨watcher, h, shows'⟩
      · rintro ⟨_, found, shows'⟩
        cases h.symm.trans found
        exact shows'

/-- **A watcher that misses a change.** The flag sends it to a property that it is not registered
on; and of two numbers that are strictly equal it keeps the first. -/
theorem outdated_picking :
    (∃ w w', set "flag" (.bool true) (picking (.integer 1) (.integer 2) pick) = some (.ok (), w) ∧
      (picking (.integer 1) (.integer 2) pick).store.namesScalar "flag" = true ∧
      set "a" (.integer 5) w = some (.ok (), w') ∧ w.store.namesScalar "a" = true ∧
      w'.Shows ⟨0⟩ "1" "5") ∧
    ∃ w, set "flag" (.bool true) (picking (.integer 0) (.float (.zero true)) readAndPick) =
        some (.ok (), w) ∧
      (picking (.integer 0) (.float (.zero true)) readAndPick).store.namesScalar "flag" = true ∧
      w.Shows ⟨0⟩ "-0" "0" := by
  constructor
  · have checked : (set "flag" (.bool true) (picking (.integer 1) (.integer 2) pick)).any
        (fun (result, w) => result.isOk && (w.store.namesScalar "a" &&
          (set "a" (.integer 5) w).any fun (result', w') => result'.isOk &&
            decide (w'.Shows ⟨0⟩ "1" "5"))) = true := by
      decide +kernel
    obtain ⟨⟨result, w⟩, hset, hchecked⟩ := (Option.any_eq_true _ _).1 checked
    simp only [Bool.and_eq_true, Option.any_eq_true, decide_eq_true_eq] at hchecked
    obtain ⟨hok, named, ⟨result', w'⟩, hset', hok', missed⟩ := hchecked
    cases result with
    | error fault => cases hok
    | ok done =>
      cases result' with
      | error fault => cases hok'
      | ok done' => exact ⟨w, w', hset, by decide +kernel, hset', named, missed⟩
  · have checked : (set "flag" (.bool true)
        (picking (.integer 0) (.float (.zero true)) readAndPick)).any
        (fun (result, w) => result.isOk && decide (w.Shows ⟨0⟩ "-0" "0")) = true := by
      decide +kernel
    obtain ⟨⟨result, w⟩, hset, hchecked⟩ := (Option.any_eq_true _ _).1 checked
    simp only [Bool.and_eq_true, decide_eq_true_eq] at hchecked
    cases result with
    | error fault => cases hchecked.1
    | ok done => exact ⟨w, hset, by decide +kernel, hchecked.2⟩

end World

end Bindery
