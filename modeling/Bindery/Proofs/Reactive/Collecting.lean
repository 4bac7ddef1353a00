import Bindery.Proofs.Reactive.Noticing
import Bindery.Proofs.Store.Dependencies

namespace Bindery

/-!
# Collecting dependencies

A new watcher is registered on each property once for every time that its first evaluation reads it,
after everybody who was there before.  One whose evaluation fails leaves no registration.

* `World.enrol` — making a watcher step by step: it registers while its path is evaluated, throws
  out the registrations of watchers that are gone as it goes, and goes itself if the evaluation
  fails.
* `World.Tidy` — registrations and running reactions are those of watchers that were made.
* `World.subscribers_registerAll` — what registering on one property after another comes to.
* `World.watch_collects` — what is collected for a watcher, in whichever of the two ways.
-/

namespace World

variable {σ : Type} {w : World σ} {id : WatcherId} {property other : PropertyId} {path : Path}
  {reaction : Snapshot → Program σ}

/-! ### Registering step by step -/

/-- Registers a watcher on a property, and throws out the registrations there of watchers that are
gone. -/
def register (id : WatcherId) (property : PropertyId) (w : World σ) : World σ :=
  { w with
    ledger := w.ledger.filter (fun entry => entry.1 != property || w.isAlive entry.2)
      ++ [(property, id)] }

/-- Registers a watcher on properties, one after another. -/
def registerAll (id : WatcherId) (properties : List PropertyId) (w : World σ) : World σ :=
  properties.foldl (fun w property => w.register id property) w

/-- Makes a watcher step by step.  It is there before its path is evaluated, and it is registered on
every property that the evaluation comes to, also if it fails afterwards. -/
def enrol (path : Path) (reaction : Snapshot → Program σ) (w : World σ) :
    Except Fault WatcherId × World σ :=
  let id : WatcherId := ⟨w.watchers.length⟩
  let made : World σ := { w with watchers := w.watchers ++ [⟨path, .value .null, reaction, true⟩] }
  let reading := w.store.read path
  let registered := made.registerAll id reading.trace
  match reading.result with
  | .error fault => (.error fault, registered.drop id)
  | .ok seen => (.ok id, registered.observe id seen)

/-- The subscribers of a property are the live watchers of its entries in the ledger. -/
theorem subscribers_eq (w : World σ) (other : PropertyId) :
    w.subscribers other =
      (w.ledger.filter fun entry => w.isAlive entry.2 && decide (entry.1 = other)).map (·.2) := by
  rw [subscribers, List.filter_map, List.filter_filter]
  rfl

/-- One more registration on the property, and the same as before on all others. -/
theorem subscribers_register (alive : w.isAlive id = true) :
    (w.register id property).subscribers other =
      w.subscribers other ++ List.replicate ([property].count other) id := by
  have same : (w.register id property).isAlive = w.isAlive := rfl
  have ledger : (w.register id property).ledger =
      w.ledger.filter (fun entry => entry.1 != property || w.isAlive entry.2) ++ [(property, id)] :=
    rfl
  simp only [subscribers_eq, same, ledger, List.filter_append, List.map_append, List.filter_filter]
  congr 1
  · -- who was thrown out did not count any more
    refine congrArg _ (List.filter_congr fun entry _ => ?_)
    cases w.isAlive entry.2 <;> simp
  · by_cases hproperty : property = other <;> simp [hproperty, alive]

/-- **One registration after another.** -/
theorem subscribers_registerAll (alive : w.isAlive id = true) (properties : List PropertyId)
    (other : PropertyId) :
    (w.registerAll id properties).subscribers other =
      w.subscribers other ++ List.replicate (properties.count other) id := by
  induction properties generalizing w with
  | nil => simp [registerAll]
  | cons property rest ih =>
    have alive' : (w.register id property).isAlive id = true := alive
    have step :
        w.registerAll id (property :: rest) = (w.register id property).registerAll id rest :=
      rfl
    rw [step, ih alive', subscribers_register alive, List.append_assoc,
      List.replicate_append_replicate, ← List.count_append, List.singleton_append]

@[simp] theorem store_registerAll (properties : List PropertyId) :
    (w.registerAll id properties).store = w.store := by
  induction properties generalizing w with
  | nil => rfl
  | cons property rest ih => exact ih (w := w.register id property)

@[simp] theorem running_registerAll (properties : List PropertyId) :
    (w.registerAll id properties).running = w.running := by
  induction properties generalizing w with
  | nil => rfl
  | cons property rest ih => exact ih (w := w.register id property)

/-! ### Nobody is registered before being made -/

/-- Registrations and running reactions are those of watchers that were made. -/
structure Tidy (w : World σ) : Prop where
  known : w.Known
  running : ∀ id ∈ w.running, id.val < w.watchers.length

/-- Every step of every program keeps the ledger tidy. -/
theorem stable_tidy : Stable (σ := σ) (fun _ => True) Tidy where
  next _ _ := trivial
  reaction _ _ _ _ := trivial
  edit h := ⟨h.known, h.running⟩
  assign h _ := ⟨h.known, h.running⟩
  watch {w path reaction next} h _ := by
    refine ⟨h.known.watch path reaction, ?_⟩
    simp only [watch]
    split
    · exact h.running
    · intro id hid
      rw [List.length_append]
      exact Nat.lt_add_right _ (h.running id hid)
  drop h := ⟨stable_known.drop h.known, by simpa using h.running⟩
  observe h := ⟨stable_known.observe h.known, by simpa using h.running⟩
  enter h lt _ _ := ⟨h.known, List.forall_mem_cons.2 ⟨lt, h.running⟩⟩
  leave h := ⟨h.known, fun id hid => h.running id (List.mem_of_mem_tail hid)⟩

/-- So it is tidy after every session. -/
theorem Session.tidy {start : World σ} (h : Session start w) (hstart : start.Tidy) : w.Tidy := by
  induction h with
  | start => exact hstart
  | define name derivation _ ih => exact ⟨ih.known, ih.running⟩
  | run _ hexec ih => exact stable_tidy.maintained.exec trivial ih hexec

/-- And it is tidy at every moment of one. -/
theorem Occurs.tidy {start m : World σ} (h : Occurs start m) (hstart : start.Tidy) : m.Tidy := by
  obtain ⟨w, program, depth, hsession, hpasses⟩ := h
  exact stable_tidy.passes (stable_tidy.updatePasses _) (updateAt_covers _) trivial
    (hsession.tidy hstart) hpasses

/-- The registrations of everybody who was there before are not touched by one more watcher. -/
theorem Known.subscribers_append (h : w.Known) (new : Watcher σ) (other : PropertyId) :
    ({ w with watchers := w.watchers ++ [new] } : World σ).subscribers other =
      w.subscribers other := by
  rw [subscribers_eq, subscribers_eq]
  refine congrArg _ (List.filter_congr fun entry hentry => ?_)
  rw [isAlive_append (h entry hentry)]

/-- A watcher that was just made lives. -/
theorem isAlive_made (w : World σ) (new : Watcher σ) (kept : new.isKept = true)
    (ledger : List (PropertyId × WatcherId)) :
    ({ w with watchers := w.watchers ++ [new], ledger } : World σ).isAlive ⟨w.watchers.length⟩ =
      true := by
  simp [isAlive, watcher?, kept]

/-- What a watcher observes does not matter for who is registered. -/
theorem subscribers_observe (seen : Snapshot) :
    (w.observe id seen).subscribers other = w.subscribers other := by
  have same : (w.observe id seen).isAlive = w.isAlive := funext fun _ => isAlive_observe seen
  rw [subscribers_eq, subscribers_eq, same, ledger_observe]

/-- A watcher whose reaction does not run is gone when it is dropped, and nobody else is. -/
theorem isAlive_drop_of_idle (idle : w.isRunning id = false) (other : WatcherId) :
    (w.drop id).isAlive other = (w.isAlive other && other != id) := by
  simp only [isAlive, watcher?_drop, isRunning, running_drop] at idle ⊢
  by_cases same : other = id
  · subst same
    rw [idle]
    cases w.watcher? other <;> simp
  · cases w.watcher? other <;> simp [same, Ne.symm same]

/-- A watcher that is dropped, and does not run, is registered nowhere any more. -/
theorem subscribers_drop (idle : w.isRunning id = false) :
    (w.drop id).subscribers other = (w.subscribers other).filter (· != id) := by
  rw [subscribers, subscribers, ledger_drop, List.filter_filter]
  refine List.filter_congr fun other _ => ?_
  rw [isAlive_drop_of_idle idle, Bool.and_comm]

/-! ### What is collected -/

/-- A watcher registers as often as its evaluation reads. -/
theorem Known.subscribers_watch (h : w.Known) (reaction : Snapshot → Program σ) {seen : Snapshot}
    (hread : (w.store.read path).result = .ok seen) (other : PropertyId) :
    (w.watch path reaction).2.subscribers other = w.subscribers other ++
      List.replicate ((w.store.read path).trace.count other) ⟨w.watchers.length⟩ := by
  rw [watch_of_read reaction hread]
  have before := h.subscribers_append ⟨path, seen, reaction, true⟩ other
  rw [← before, subscribers, List.filter_append, List.map_append, registrations,
    List.filter_append, List.filter_replicate_of_pos]
  · rfl
  · exact w.isAlive_made _ rfl _

/-- Registering step by step leaves the same registrations, and none if the evaluation fails. -/
theorem Tidy.enrol (h : w.Tidy) (path : Path) (reaction : Snapshot → Program σ) :
    (w.enrol path reaction).1 = (w.watch path reaction).1 ∧
      (w.enrol path reaction).2.store = (w.watch path reaction).2.store ∧
      ∀ property, (w.enrol path reaction).2.subscribers property =
        (w.watch path reaction).2.subscribers property := by
  let new : Watcher σ := ⟨path, .value .null, reaction, true⟩
  have before := h.known.subscribers_append new
  have registered := subscribers_registerAll (w.isAlive_made new rfl w.ledger)
    (w.store.read path).trace
  cases hread : (w.store.read path).result with
  | ok seen =>
    refine ⟨?_, ?_, fun property => ?_⟩
    · simp only [World.enrol, hread, watch_of_read reaction hread]
    · simp only [World.enrol, hread, watch_of_read reaction hread, store_observe, store_registerAll]
    · rw [h.known.subscribers_watch reaction hread, ← before]
      simp only [World.enrol, hread, subscribers_observe]
      exact registered property
  | error fault =>
    have idle : w.isRunning ⟨w.watchers.length⟩ = false := by
      rw [← Bool.not_eq_true, isRunning, List.contains_iff_mem]
      exact fun running => Nat.lt_irrefl _ (h.running _ running)
    refine ⟨?_, ?_, fun property => ?_⟩
    · simp only [World.enrol, hread, watch_of_fault reaction hread]
    · simp only [World.enrol, hread, watch_of_fault reaction hread, store_drop, store_registerAll]
    · have others : ∀ id ∈ w.subscribers property, id != ⟨w.watchers.length⟩ := by
        intro id hid
        have := h.known _ (mem_subscribers.1 hid).1
        rw [bne_iff_ne]
        rintro rfl
        exact Nat.lt_irrefl _ this
      rw [watch_of_fault reaction hread]
      simp only [World.enrol, hread]
      rw [subscribers_drop, registered, before, List.filter_append, List.filter_eq_self.2 others,
        List.filter_replicate_of_neg, List.append_nil]
      · simp
      · rwa [isRunning, running_registerAll]

/-- Makes a watcher of an expression, in one way or another, and nothing of one that is no path. -/
def watchAt (make : Path → World σ → Except Fault WatcherId × World σ) (expr : String)
    (w : World σ) : Except Fault WatcherId × World σ :=
  match Path.parse? expr with
  | none => (.error (.invalidExpression expr), w)
  | some path => make path w

/-- What making a watcher of an expression comes to.  A fault leaves everybody registered where they
were.  Otherwise the new watcher comes after them, on each property as often as its path reads it,
if the derivation that its path starts with ever comes to an end. -/
def Collected (w : World σ) (expr : String) (made : Except Fault WatcherId × World σ) : Prop :=
  made.2.store = w.store ∧
    match made.1 with
    | .error _ => ∀ property, made.2.subscribers property = w.subscribers property
    | .ok id => id = ⟨w.watchers.length⟩ ∧ ∃ path, Path.parse? expr = some path ∧
        (w.store.Comes path → ∀ property, ∃ n, (∀ m, w.store.Reads property path m ↔ m = n) ∧
          made.2.subscribers property = w.subscribers property ++ List.replicate n id)

/-- What is collected depends only on the result and on the registrations that are left. -/
theorem Collected.congr {expr : String} {made made' : Except Fault WatcherId × World σ}
    (h : w.Collected expr made) (result : made'.1 = made.1) (store : made'.2.store = made.2.store)
    (subscribers : ∀ property, made'.2.subscribers property = made.2.subscribers property) :
    w.Collected expr made' := by
  simpa only [Collected, result, store, subscribers] using h

/-- Making a watcher in a tidy world is what is said of collecting. -/
theorem Tidy.collected_watch (h : w.Tidy) (reachable : w.store.Reachable) {expr : String}
    (parsed : Path.parse? expr = some path) (reaction : Snapshot → Program σ) :
    w.Collected expr (w.watch path reaction) := by
  cases hread : (w.store.read path).result with
  | error fault =>
    rw [watch_of_fault reaction hread]
    exact ⟨rfl, fun property => rfl⟩
  | ok seen =>
    have collects := h.known.subscribers_watch reaction hread
    rw [watch_of_read reaction hread] at collects ⊢
    refine ⟨rfl, rfl, path, parsed, fun comes property => ?_⟩
    obtain ⟨n, reads, count⟩ := reachable.reads comes property
    refine ⟨n, fun m => ⟨fun reads' => reads'.unique reads, fun same => same ▸ reads⟩, ?_⟩
    rw [collects, count]

/-- **Exact collection.**  At every moment of a session, and for every expression, making a watcher
comes to what it should, at once or step by step: each property has its old registrations and after
them those of the new watcher, as many as the evaluation read it; or the same as before, if the
evaluation failed anywhere. -/
theorem watch_collects (data : Json) (host : σ) (occurs : Occurs (new (.ofJson data) host) w)
    (expr : String) (reaction : Snapshot → Program σ) :
    w.Collected expr (watchAt (fun path w => w.watch path reaction) expr w) ∧
      w.Collected expr (watchAt (fun path w => w.enrol path reaction) expr w) ∧
      (watchAt (fun path w => w.enrol path reaction) expr w).1 =
        (watchAt (fun path w => w.watch path reaction) expr w).1 := by
  have reachable := occurs.reachable (.ofJson data)
  have tidy : w.Tidy := occurs.tidy ⟨List.forall_mem_nil _, List.forall_mem_nil _⟩
  simp only [watchAt]
  cases parsed : Path.parse? expr with
  | none => exact ⟨⟨rfl, fun _ => rfl⟩, ⟨rfl, fun _ => rfl⟩, rfl⟩
  | some path =>
    have collected := tidy.collected_watch reachable parsed reaction
    obtain ⟨result, store, subscribers⟩ := tidy.enrol path reaction
    exact ⟨collected, collected.congr result store subscribers, result⟩

/-- Two items, and a number beside them. -/
def basket : Json :=
  .object [("cart", .object [("items", .array [.integer 3, .integer 4])]), ("rate", .integer 2)]

/-- Reads one item after the other, and the number in passing. -/
def basketSubtotal : Derivation :=
  .read true "cart.items.0" fun _ => .read true "cart.items.+01" fun _ => .peek "rate"

/-- Reads the other computed member, then again in passing, and counts the items. -/
def basketTotal : Derivation :=
  .read true "subtotal" fun _ => .read false "subtotal" fun _ => .get "cart.items.length"

/-- A watcher of the computed member that needs the other, next to an older watcher of the data. -/
theorem watch_collects_total : ∃ (w : World Unit) (total : Path) (cart item rate : PropertyId),
    Occurs (new (.ofJson basket) ()) w ∧ Path.parse? "total" = some total ∧ w.store.Comes total ∧
      w.store.propertyAt "cart" = .ok cart ∧ w.store.propertyAt "cart.items.1" = .ok item ∧
      w.store.propertyAt "rate" = .ok rate ∧
      (w.watch total fun _ => .succeed).2.subscribers cart = [⟨0⟩, ⟨1⟩, ⟨1⟩, ⟨1⟩] ∧
      (∀ m, w.store.Reads cart total m ↔ m = 3) ∧ (∀ m, w.store.Reads item total m ↔ m = 1) ∧
      ∀ m, w.store.Reads rate total m ↔ m = 0 := by
  let cart : Path := ⟨["cart"], by decide, by decide⟩
  let total : Path := ⟨["total"], by decide, by decide⟩
  let reaction : Snapshot → Program Unit := fun _ => .succeed
  let bare : World Unit := new (.ofJson basket) ()
  let first : World Unit := { bare with store := bare.store.define "subtotal" basketSubtotal }
  let second : World Unit := { first with store := first.store.define "total" basketTotal }
  let w : World Unit := (second.watch cart reaction).2
  have occurs : Occurs bare w :=
    ⟨second, .watch cart reaction fun _ => .succeed, 0, .define _ _ (.define _ _ .start),
      .watched .now⟩
  have parsed : Path.parse? "total" = some total := by decide +kernel
  have comes : w.store.Comes total := by
    intro derivation lookup
    cases lookup
    have value : (w.store.document.derive? 2 basketTotal).isSome = true := by decide +kernel
    obtain ⟨result, hresult⟩ := Option.isSome_iff_exists.1 value
    exact ⟨2, result, hresult⟩
  have collected := (watch_collects basket () occurs "total" reaction).1
  have made : (w.watch total reaction).1 = .ok ⟨1⟩ := by decide +kernel
  simp only [Collected, watchAt, parsed, made] at collected
  obtain ⟨-, -, path, same, collected⟩ := collected
  cases same
  have numbered {property : PropertyId} {n : Nat}
      (count : (w.watch total reaction).2.subscribers property =
        w.subscribers property ++ List.replicate n ⟨1⟩) :
      ∀ m, w.store.Reads property total m ↔ m = n := by
    obtain ⟨k, reads, hk⟩ := collected comes property
    have same := congrArg List.length (List.append_cancel_left (hk.symm.trans count))
    rw [List.length_replicate, List.length_replicate] at same
    rwa [← same]
  refine ⟨w, total, ⟨3⟩, ⟨1⟩, ⟨4⟩, occurs, parsed, comes, ?_, ?_, ?_, ?_, numbered ?_, numbered ?_,
    numbered ?_⟩
  all_goals decide +kernel

end World

end Bindery
