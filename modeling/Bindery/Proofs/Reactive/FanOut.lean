import Bindery.Proofs.Reactive.Termination
import Bindery.Proofs.Store.Overwrite

namespace Bindery

/-!
# Exact fan-out

As long as reactions only observe, a write tells the watchers of the property that it replaces one
after another, and each of them what it has not seen yet.

* `Program.Observes` — programs that change nothing but the host; `Program.Logs` — what they come
  to.
* `World.due` — the watchers of a list that see something new, each with what it sees.
* `World.FansOut` — how a notification goes: who is told, who is not, and what comes of it.
* `World.notify_fansOut` — notifications go so.
* `World.Audience` — the worlds that such watchers and writes lead to.
* `World.set_fansOut` — so a write reaches exactly the watchers that it should, in order.
-/

variable {σ : Type}

namespace Program

/-- Programs that look at the store and the host, and change nothing but the host. -/
inductive Observes : Program σ → Prop
  | finish {result} : Observes (.finish result)
  | look {next} : (∀ store host, Observes (next store host)) → Observes (.look next)
  | edit {change next} : Observes next → Observes (.edit change next)

/-- What such a program comes to with a store and a host, and the host that it leaves. -/
inductive Logs (store : Store) : Program σ → σ → Except Fault Unit → σ → Prop
  | finish {result host} : Logs store (.finish result) host result host
  | look {next host result last} : Logs store (next store host) host result last →
      Logs store (.look next) host result last
  | edit {change next host result last} : Logs store next (change host) result last →
      Logs store (.edit change next) host result last

/-- An observing program comes to something with any store and host. -/
theorem Observes.logs {program : Program σ} (h : program.Observes) (store : Store) (host : σ) :
    ∃ result last, program.Logs store host result last := by
  induction h generalizing host with
  | @finish result => exact ⟨result, host, .finish⟩
  | look _ ih =>
    obtain ⟨result, last, hlogs⟩ := ih store host host
    exact ⟨result, last, .look hlogs⟩
  | @edit change next _ ih =>
    obtain ⟨result, last, hlogs⟩ := ih (change host)
    exact ⟨result, last, .edit hlogs⟩

/-- Run on a world, it does just that. -/
theorem Logs.exec {program : Program σ} {store : Store} {host last : σ} {result : Except Fault Unit}
    (h : program.Logs store host result last) (update : Updater σ) {w : World σ}
    (hstore : w.store = store) (hhost : w.host = host) :
    program.exec update w = some (result, { w with host := last }) := by
  induction h generalizing w with
  | finish =>
    subst hhost
    rfl
  | look _ ih =>
    have now := ih hstore hhost
    rw [← hstore, ← hhost] at now
    exact now
  | edit _ ih => exact ih (w := w.editHost _) hstore (congrArg _ hhost)

end Program

namespace World

variable {w : World σ} {store : Store} {id : WatcherId}

/-! ### Who sees something new -/

/-- What a watcher sees in a store, if it is not what it observed last. -/
def seesAnew (w : World σ) (store : Store) (id : WatcherId) : Option Snapshot :=
  match w.watcher? id with
  | none => none
  | some watcher =>
    match (store.read watcher.path).result with
    | .error _ => none
    | .ok seen => if seen.strictEq watcher.baseline then none else some seen

/-- The watchers of a list that see something new in a store, each with what it sees. -/
def due (w : World σ) (store : Store) (ids : List WatcherId) : List (WatcherId × Snapshot) :=
  ids.filterMap fun id => (w.seesAnew store id).map (id, ·)

/-- The path of a watcher leads somewhere in a store. -/
def Resolves (w : World σ) (store : Store) (id : WatcherId) : Prop :=
  ∃ watcher seen, w.watcher? id = some watcher ∧ (store.read watcher.path).result = .ok seen

theorem due_append (first second : List WatcherId) :
    w.due store (first ++ second) = w.due store first ++ w.due store second := by
  simp [due]

/-- A watcher that sees something new is due with it. -/
theorem due_of_some {seen : Snapshot} (h : w.seesAnew store id = some seen) :
    w.due store [id] = [(id, seen)] := by
  simp [due, h]

theorem due_of_none (h : w.seesAnew store id = none) : w.due store [id] = [] := by
  simp [due, h]

/-- Only watchers of the list are due. -/
theorem mem_of_mem_due {ids : List WatcherId} {run : WatcherId × Snapshot}
    (h : run ∈ w.due store ids) : run.1 ∈ ids := by
  obtain ⟨id, hid, hrun⟩ := List.mem_filterMap.1 h
  obtain ⟨seen, -, rfl⟩ := Option.map_eq_some_iff.1 hrun
  exact hid

/-! ### What they leave -/

/-- The watchers with what some of them see recorded. -/
def recorded (runs : List (WatcherId × Snapshot)) (watchers : List (Watcher σ)) :
    List (Watcher σ) :=
  runs.foldl (fun watchers run =>
    watchers.modify run.1.val fun watcher => { watcher with baseline := run.2 }) watchers

/-- The world with another store and another host, in which some watchers have recorded what they
see. -/
def leaving (w : World σ) (store : Store) (host : σ) (runs : List (WatcherId × Snapshot)) :
    World σ :=
  { w with store, host, watchers := recorded runs w.watchers }

@[simp] theorem store_leaving (host : σ) (runs : List (WatcherId × Snapshot)) :
    (w.leaving store host runs).store = store := rfl

@[simp] theorem running_leaving (host : σ) (runs : List (WatcherId × Snapshot)) :
    (w.leaving store host runs).running = w.running := rfl

/-- The records are made one after another, the first one first. -/
theorem leaving_cons (host : σ) (run : WatcherId × Snapshot) (runs : List (WatcherId × Snapshot)) :
    w.leaving store host (run :: runs) = (w.observe run.1 run.2).leaving store host runs := rfl

/-- Recording one more. -/
theorem observe_leaving (host : σ) (runs : List (WatcherId × Snapshot)) (seen : Snapshot) :
    (w.leaving store host runs).observe id seen = w.leaving store host (runs ++ [(id, seen)]) := by
  simp only [leaving, recorded, List.foldl_append]
  rfl

/-- A world that watchers leave goes on from the one before. -/
theorem wanes_leaving (host : σ) (runs : List (WatcherId × Snapshot)) :
    w.Wanes (w.leaving store host runs) := by
  induction runs generalizing w with
  | nil => exact (wanes_store store).trans (wanes_editHost fun _ => host)
  | cons run runs ih =>
    rw [leaving_cons]
    exact (wanes_observe run.2).trans ih

/-- Who lives is not changed by what is recorded. -/
@[simp] theorem isAlive_leaving (host : σ) (runs : List (WatcherId × Snapshot)) :
    (w.leaving store host runs).isAlive id = w.isAlive id := by
  induction runs generalizing w with
  | nil => rfl
  | cons run runs ih => rw [leaving_cons, ih, isAlive_observe]

/-- A watcher that records nothing stays as it is. -/
theorem watcher?_leaving {runs : List (WatcherId × Snapshot)} (host : σ)
    (h : ∀ run ∈ runs, run.1 ≠ id) : (w.leaving store host runs).watcher? id = w.watcher? id := by
  induction runs generalizing w with
  | nil => rfl
  | cons run runs ih =>
    rw [List.forall_mem_cons] at h
    rw [leaving_cons, ih h.2, watcher?_observe]
    cases w.watcher? id with
    | none => rfl
    | some watcher => rw [Option.map_some, if_neg h.1]

/-! ### How a notification goes -/

/-- Reactions that run one after another, each with what its watcher sees, and all succeed. -/
inductive Reacts (w : World σ) (store : Store) : List (WatcherId × Snapshot) → σ → σ → Prop
  | nil {host} : Reacts w store [] host host
  | cons {id seen runs watcher host next last} : w.watcher? id = some watcher →
      (watcher.reaction seen).Logs store host (.ok ()) next → Reacts w store runs next last →
      Reacts w store ((id, seen) :: runs) host last

/-- One reaction more. -/
theorem Reacts.concat {runs : List (WatcherId × Snapshot)} {host next last : σ}
    {watcher : Watcher σ} {seen : Snapshot} (h : w.Reacts store runs host next)
    (found : w.watcher? id = some watcher)
    (logs : (watcher.reaction seen).Logs store next (.ok ()) last) :
    w.Reacts store (runs ++ [(id, seen)]) host last := by
  induction h with
  | nil => exact .cons found logs .nil
  | cons found' logs' _ ih => exact .cons found' logs' (ih logs)

/-- A notification of the watchers that are told and the rest, who are not: how it ends, and the
host that it leaves.  It goes on up to the first watcher whose path leads nowhere or whose reaction
fails. -/
inductive FansOut (w : World σ) (store : Store) :
    List WatcherId → List WatcherId → Except Fault Unit → σ → Prop
  | all {told last} : (∀ id ∈ told, w.Resolves store id) →
      w.Reacts store (w.due store told) w.host last → FansOut w store told [] (.ok ()) last
  | unresolved {told id rest watcher fault last} : (∀ id ∈ told, w.Resolves store id) →
      w.Reacts store (w.due store told) w.host last → w.watcher? id = some watcher →
      (store.read watcher.path).result = .error fault →
      FansOut w store told (id :: rest) (.error fault) last
  | failed {told id rest watcher seen fault host last} : (∀ id ∈ told, w.Resolves store id) →
      w.Reacts store (w.due store told) w.host host → w.watcher? id = some watcher →
      w.seesAnew store id = some seen →
      (watcher.reaction seen).Logs store host (.error fault) last →
      FansOut w store (told ++ [id]) rest (.error fault) last

/-- **One turn after another.** In a world without running reactions a notification goes on from
those who were told already. -/
theorem notify_fansOut {done pending : List WatcherId} {host : σ} (idle : w.running = [])
    (nodup : (done ++ pending).Nodup)
    (attends : ∀ id ∈ pending, w.isAlive id = true ∧ ∃ watcher, w.watcher? id = some watcher ∧
      ∀ seen, (watcher.reaction seen).Observes)
    (resolved : ∀ id ∈ done, w.Resolves store id)
    (reacted : w.Reacts store (w.due store done) w.host host) (depth : Nat) :
    ∃ told rest result last, done ++ pending = told ++ rest ∧
      w.FansOut store told rest result last ∧
      notify (updateAt (depth + 1)) pending (w.leaving store host (w.due store done)) =
        some (result, w.leaving store last (w.due store told)) := by
  -- by induction on those who are left; `done` are those who were told, all successfully
  induction pending generalizing done host with
  | nil => exact ⟨done, [], .ok (), host, rfl, .all resolved reacted, rfl⟩
  | cons id rest ih =>
    obtain ⟨⟨alive, watcher, found, observes⟩, others⟩ := List.forall_mem_cons.1 attends
    have pass : done ++ id :: rest = (done ++ [id]) ++ rest := by simp
    -- nobody has recorded anything for this watcher yet, so it looks again as it did before
    have fresh : ∀ run ∈ w.due store done, run.1 ≠ id := by
      intro run hrun same
      have disjoint := (List.nodup_append.1 nodup).2.2
      exact disjoint run.1 (mem_of_mem_due hrun) id List.mem_cons_self same
    have found' : (w.leaving store host (w.due store done)).watcher? id = some watcher :=
      (watcher?_leaving host fresh).trans found
    have quiet : (w.leaving store host (w.due store done)).isRunning id = false := by
      simp [isRunning, idle]
    have resolved' {seen : Snapshot} (hread : (store.read watcher.path).result = .ok seen) :
        ∀ other ∈ done ++ [id], w.Resolves store other := by
      intro other hother
      obtain hdone | rfl := (List.mem_append.1 hother).imp_right List.mem_singleton.1
      · exact resolved other hdone
      · exact ⟨watcher, seen, found, hread⟩
    simp only [notify, isAlive_leaving, alive, if_true]
    cases hread : (store.read watcher.path).result with
    | error fault =>
      rw [updateAt_settled _ (refresh_error found' hread)]
      exact ⟨done, id :: rest, .error fault, host, rfl, .unresolved resolved reacted found hread,
        rfl⟩
    | ok seen =>
      cases same : seen.strictEq watcher.baseline with
      | true =>
        have hdue : w.due store (done ++ [id]) = w.due store done := by
          have nothing : w.seesAnew store id = none := by simp [seesAnew, found, hread, same]
          rw [due_append, due_of_none nothing, List.append_nil]
        rw [updateAt_settled _ (refresh_same found' hread same), pass, ← hdue]
        exact ih (pass ▸ nodup) others (resolved' hread) (hdue ▸ reacted)
      | false =>
        have anew : w.seesAnew store id = some seen := by simp [seesAnew, found, hread, same]
        have hdue : w.due store (done ++ [id]) = w.due store done ++ [(id, seen)] := by
          rw [due_append, due_of_some anew]
        obtain ⟨result, last, hlogs⟩ := (observes seen).logs store host
        have hupdate : updateAt (depth + 1) id (w.leaving store host (w.due store done)) =
            some (result, w.leaving store last (w.due store (done ++ [id]))) := by
          rw [updateAt_reacts _ (refresh_anew found' hread same quiet), hlogs.exec _ rfl rfl,
            observe_leaving, ← hdue]
          rfl
        rw [hupdate]
        cases result with
        | error fault =>
          exact ⟨done ++ [id], rest, .error fault, last, pass,
            .failed resolved reacted found anew hlogs, rfl⟩
        | ok value =>
          rw [pass]
          exact ih (pass ▸ nodup) others (resolved' hread) (hdue ▸ reacted.concat found hlogs)

/-! ### Watchers that only observe -/

/-- The worlds that making and dropping observing watchers and setting expressions lead to, whether
these steps succeed or not. -/
inductive Audience (start : World σ) : World σ → Prop
  | start : Audience start start
  | watch {w : World σ} (path : Path) (reaction : Snapshot → Program σ) : Audience start w →
      (∀ seen, (reaction seen).Observes) → Audience start (w.watch path reaction).2
  | drop {w : World σ} (id : WatcherId) : Audience start w → Audience start (w.drop id)
  | set {w left : World σ} {expr : String} {value : Json} {result : Except Fault Unit} :
      Audience start w → World.set expr value w = some (result, left) → Audience start left

/-- What holds of them: no reaction does anything but observe, and on each property the watchers are
registered in the order in which they were made. -/
structure Attentive (w : World σ) : Prop where
  plain : w.store.computed = []
  reachable : w.store.Reachable
  idle : w.running = []
  observes : ∀ {id watcher}, w.watcher? id = some watcher → ∀ seen, (watcher.reaction seen).Observes
  known : ∀ entry ∈ w.ledger, entry.2.val < w.watchers.length
  ordered : ∀ property,
    ((w.ledger.filter (·.1 = property)).map (·.2)).Pairwise
      fun first second => first.val < second.val

/-- A watcher is made only once, so it stands on a list of subscribers only once, and after those
that were made before it. -/
theorem Attentive.subscribers (h : w.Attentive) (property : PropertyId) :
    (w.subscribers property).Pairwise (fun first second => first.val < second.val) ∧
      ∀ id ∈ w.subscribers property, w.isAlive id = true ∧ ∃ watcher, w.watcher? id = some watcher ∧
        ∀ seen, (watcher.reaction seen).Observes := by
  refine ⟨(h.ordered property).filter _, fun id hid => ?_⟩
  obtain ⟨hledger, alive⟩ := mem_subscribers.1 hid
  obtain ⟨watcher, found⟩ := watcher?_eq_some_iff_lt.2 (h.known _ hledger)
  exact ⟨alive, watcher, found, h.observes found⟩

/-- The turns of watchers leave the others attentive. -/
theorem Attentive.leaving (h : w.Attentive) {path : Path} {value : Json} {effect : Effect}
    (hassign : w.store.assign path value = .ok (effect, store)) (host : σ)
    (runs : List (WatcherId × Snapshot)) : (w.leaving store host runs).Attentive where
  plain := (Store.computed_assign hassign).trans h.plain
  reachable := h.reachable.assign hassign
  idle := h.idle
  observes found seen := by
    obtain ⟨before, hbefore, hreaction⟩ := (wanes_leaving host runs).reaction found
    rw [hreaction]
    exact h.observes hbefore seen
  known entry hentry := by
    rw [(wanes_leaving host runs).length]
    exact h.known entry hentry
  ordered := h.ordered

theorem Attentive.drop (h : w.Attentive) (id : WatcherId) : (w.drop id).Attentive where
  plain := h.plain
  reachable := h.reachable
  idle := h.idle
  observes found seen := by
    obtain ⟨before, hbefore, hreaction⟩ := wanes_drop.reaction found
    rw [hreaction]
    exact h.observes hbefore seen
  known := by simpa using h.known
  ordered := h.ordered

/-- Of the registrations that one watcher makes, those on one property are the watcher again and
again. -/
theorem registrations (trace : List PropertyId) (property : PropertyId) (id : WatcherId) :
    ((trace.map (·, id)).filter (·.1 = property)).map (·.2) =
      List.replicate (trace.count property) id := by
  rw [List.eq_replicate_iff]
  constructor
  · rw [List.length_map, ← List.countP_eq_length_filter, List.countP_map, List.count]
    rfl
  · intro other hother
    obtain ⟨entry, hentry, rfl⟩ := List.mem_map.1 hother
    obtain ⟨_, -, rfl⟩ := List.mem_map.1 (List.mem_of_mem_filter hentry)
    rfl

/-- A new watcher registers after all others, and on no property twice. -/
theorem Attentive.watch (h : w.Attentive) (path : Path) {reaction : Snapshot → Program σ}
    (observes : ∀ seen, (reaction seen).Observes) : (w.watch path reaction).2.Attentive := by
  have known : (w.watch path reaction).2.Known := Known.watch h.known path reaction
  cases hread : (w.store.read path).result with
  | error fault => rwa [watch_of_fault reaction hread]
  | ok seen =>
    rw [watch_of_read reaction hread] at known ⊢
    refine ⟨h.plain, h.reachable, h.idle, fun {id watcher} found => ?_, known, fun property => ?_⟩
    · obtain hold | ⟨-, rfl⟩ := watcher?_append found
      · exact h.observes hold
      · exact observes
    · -- a read goes through no property twice, so a watcher registers once on each
      have once : (w.store.read path).trace.count property ≤ 1 :=
        List.nodup_iff_count_le_one.1 (h.reachable.nodup_trace h.plain path) property
      rw [List.filter_append, List.map_append, registrations, List.pairwise_append]
      refine ⟨h.ordered property, List.pairwise_replicate.2 (.inl once),
        fun old hold other hother => ?_⟩
      rw [List.eq_of_mem_replicate hother]
      obtain ⟨entry, hentry, rfl⟩ := List.mem_map.1 hold
      exact h.known entry (List.mem_of_mem_filter hentry)

/-- An assignment that replaces the content of a property notifies its subscribers, one turn after
another. -/
theorem Attentive.replace (h : w.Attentive) {path : Path} {value : Json} {property : PropertyId}
    (hassign : w.store.assign path value = .ok (.replaced property, store)) :
    ∃ told rest result last,
      World.write path value w = some (result, w.leaving store last (w.due store told)) ∧
      w.subscribers property = told ++ rest ∧ w.FansOut store told rest result last := by
  obtain ⟨ordered, attends⟩ := h.subscribers property
  have nodup : (w.subscribers property).Nodup := ordered.imp fun lt same => by
    rw [same] at lt
    exact Nat.lt_irrefl _ lt
  obtain ⟨told, rest, result, last, hsplit, hfans, hnotify⟩ :=
    @notify_fansOut _ w store [] _ w.host h.idle nodup attends (fun _ hid => nomatch hid) .nil
      w.watchers.length
  refine ⟨told, rest, result, last, ?_, hsplit, hfans⟩
  simp only [World.write, World.assign, hassign]
  exact hnotify

theorem Attentive.set (h : w.Attentive) {expr : String} {value : Json} {left : World σ}
    {result : Except Fault Unit} (hset : World.set expr value w = some (result, left)) :
    left.Attentive := by
  simp only [World.set] at hset
  cases hparse : Path.parse? expr with
  | none =>
    rw [hparse] at hset
    cases hset
    exact h
  | some path =>
    simp only [hparse] at hset
    cases hassign : w.store.assign path value with
    | error fault =>
      simp only [World.write, World.assign, hassign] at hset
      cases hset
      exact h
    | ok done =>
      obtain ⟨effect, store⟩ := done
      cases effect with
      | unchanged =>
        simp only [World.write, World.assign, hassign] at hset
        cases hset
        exact h
      | added =>
        simp only [World.write, World.assign, hassign] at hset
        cases hset
        exact h.leaving hassign w.host []
      | replaced property =>
        obtain ⟨told, _, _, last, hwrite, -⟩ := h.replace hassign
        rw [hwrite] at hset
        cases hset
        exact h.leaving hassign last _

/-- **Steps make runs.** -/
theorem Audience.attentive {start : World σ} (hstart : start.Attentive) (run : Audience start w) :
    w.Attentive := by
  induction run with
  | start => exact hstart
  | watch path reaction _ observes ih => exact ih.watch path observes
  | drop id _ ih => exact ih.drop id
  | set _ hset ih => exact ih.set hset

/-- A new world is attentive. -/
theorem attentive_new (data : Json) (host : σ) : (new (.ofJson data) host).Attentive where
  plain := Store.computed_ofJson data
  reachable := .ofJson data
  idle := rfl
  observes found := nomatch found
  known _ hentry := nomatch hentry
  ordered _ := .nil

/-- **Exact fan-out.** In a world that observing watchers and assignments led to, setting a property
to a value that equals the old one, strictly, changes nothing.  Any other value is stored, and then
the watchers registered on the property are told in the order in which they were made, up to the
first that fails: of these, those that see something new record it and react to it, once each, and
no other watcher changes. -/
theorem set_fansOut {data : Json} {host : σ} (run : Audience (new (.ofJson data) host) w)
    {expr : String} {property : PropertyId} (named : w.store.propertyAt expr = .ok property) :
    ∃ old, w.store.get expr = .ok old ∧ ∀ value,
      (old.strictEq value = true → set expr value w = some (.ok (), w)) ∧
      (old.strictEq value = false → ∃ store told rest result last,
        set expr value w = some (result, w.leaving store last (w.due store told)) ∧
          w.store.document.set expr value = .ok store.document ∧ store.get expr = .ok value ∧
          (w.subscribers property).Pairwise (fun first second => first.val < second.val) ∧
          w.subscribers property = told ++ rest ∧ w.FansOut store told rest result last ∧
          ∀ id ∉ told,
            (w.leaving store last (w.due store told)).watcher? id = w.watcher? id) := by
  have attentive := run.attentive (attentive_new data host)
  obtain ⟨path, old, hparse, hold, overwrite⟩ :=
    attentive.reachable.overwrite attentive.plain named
  refine ⟨old, hold, fun value => ?_⟩
  obtain ⟨hsame, hdiffer⟩ := overwrite value
  simp only [set, Document.set, hparse, ← attentive.reachable.assign_document path value]
  constructor
  · intro same
    simp only [World.write, World.assign, hsame same]
  · intro differ
    obtain ⟨store, hassign, hget⟩ := hdiffer differ
    obtain ⟨told, rest, result, last, hwrite, hsplit, hfans⟩ := attentive.replace hassign
    refine ⟨store, told, rest, result, last, hwrite, ?_, hget,
      (attentive.subscribers property).1, hsplit, hfans, fun id hid => ?_⟩
    · rw [hassign]
      rfl
    · exact watcher?_leaving last fun run hrun same => hid (same ▸ mem_of_mem_due hrun)

/-- A reaction that notes a number in a log, and one that fails. -/
def noting (n : Nat) (_ : Snapshot) : Program (List Nat) := .modify (· ++ [n])

/-- Three watchers of one property, of which the second fails. -/
def interrupted : World (List Nat) :=
  let path : Path := ⟨["count"], by decide, by decide⟩
  let data : Json := .object [("count", .integer 0)]
  let first := ((new (.ofJson data) []).watch path (noting 1)).2
  let second := (first.watch path fun _ => .fail (.reaction "boom")).2
  (second.watch path (noting 3)).2

/-- The first watcher runs, the second fails, and the third is not told, though the value is
stored. -/
theorem set_interrupted : ∃ store told rest result last,
    set "count" (.integer 1) interrupted =
        some (result, interrupted.leaving store last (interrupted.due store told)) ∧
      store.get "count" = .ok (.integer 1) ∧ told ++ rest = [⟨0⟩, ⟨1⟩, ⟨2⟩] ∧
      result = .error (.reaction "boom") ∧ last = [1] := by
  have run : Audience (new (.ofJson (.object [("count", .integer 0)])) []) interrupted :=
    ((Audience.start.watch _ (noting 1) fun _ => .edit .finish).watch _
      (fun _ => .fail (.reaction "boom")) fun _ => .finish).watch _ (noting 3)
        fun _ => .edit .finish
  have named : interrupted.store.propertyAt "count" = .ok ⟨0⟩ := by decide +kernel
  have subscribed : interrupted.subscribers ⟨0⟩ = [⟨0⟩, ⟨1⟩, ⟨2⟩] := by decide +kernel
  have zero : (interrupted.store.get "count").toOption.any (!·.strictEq (.integer 1)) = true := by
    decide +kernel
  have outcome : (set "count" (.integer 1) interrupted).map (fun (result, w) => (result, w.host)) =
      some (.error (.reaction "boom"), [1]) := by decide +kernel
  obtain ⟨old, hold, fansOut⟩ := set_fansOut run named
  have differ : old.strictEq (.integer 1) = false := by simpa [hold, Except.toOption] using zero
  obtain ⟨store, told, rest, result, last, hset, -, hget, -, hsplit, -⟩ :=
    (fansOut (.integer 1)).2 differ
  rw [hset] at outcome
  cases outcome
  exact ⟨store, told, rest, _, _, hset, hget, hsplit.symm.trans subscribed, rfl, rfl⟩

end World

end Bindery
