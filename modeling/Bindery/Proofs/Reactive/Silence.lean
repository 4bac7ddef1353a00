import Bindery.Proofs.Reactive.Moments

namespace Bindery

/-!
# What stays silent, and what stays as it is

* `World.Retired` — watchers that were dropped; `World.stable_retired` says that they are so for
  good, whatever runs.
* `Program.Keeps` — programs that leave a part of the host as it is; `World.Heeds` says that all
  reactions that may run are such, and `World.maintained_heeds` that then the part stays as it is.
* `World.retired_dropAll`, `World.heeds_dropAll` — watchers that are dropped are retired, and only
  the others count any more.
-/

variable {σ β : Type}

namespace Program

/-- Programs that leave a part of the host as it is, also in the reactions of the watchers that they
create. -/
inductive Keeps (part : σ → β) : Program σ → Prop
  | finish {result} : Keeps part (.finish result)
  | look {next} : (∀ store host, Keeps part (next store host)) → Keeps part (.look next)
  | edit {change next} : (∀ host, part (change host) = part host) → Keeps part next →
      Keeps part (.edit change next)
  | write {path value next} : (∀ result, Keeps part (next result)) →
      Keeps part (.write path value next)
  | watch {path reaction next} : (∀ seen, Keeps part (reaction seen)) →
      (∀ result, Keeps part (next result)) → Keeps part (.watch path reaction next)
  | drop {id next} : Keeps part next → Keeps part (.drop id next)
  | update {id next} : (∀ result, Keeps part (next result)) → Keeps part (.update id next)

/-- What is left of a program that leaves something alone leaves it alone. -/
theorem Next.keeps {part : σ → β} {program rest : Program σ} (h : Next program rest)
    (keeps : program.Keeps part) : rest.Keeps part := by
  cases h <;> cases keeps
  case look next => exact next _ _
  case edit _ next => exact next
  case write next => exact next _
  case watch _ next => exact next _
  case drop next => exact next
  case update next => exact next _

end Program

namespace World

variable {w w' m : World σ} {id : WatcherId} {ids : List WatcherId} {part : σ → β} {value : β}

/-- A watcher that is there already lives on beside a new one, or does not. -/
theorem isAlive_append {new : Watcher σ} {ledger : List (PropertyId × WatcherId)}
    (lt : id.val < w.watchers.length) :
    ({ w with watchers := w.watchers ++ [new], ledger } : World σ).isAlive id = w.isAlive id := by
  simp only [isAlive, isRunning, watcher?, List.getElem?_append_left lt]

/-! ### Dropped watchers -/

/-- Watchers that were there and do not live any more. -/
def Retired (ids : List WatcherId) (w : World σ) : Prop :=
  ∀ id ∈ ids, id.val < w.watchers.length ∧ w.isAlive id = false

/-- The reactions of retired watchers do not run. -/
theorem Retired.notMem_running (h : w.Retired ids) (hid : id ∈ ids) : id ∉ w.running := by
  intro running
  have alive : w.isAlive id = true := by
    simp [isAlive, isRunning, running]
  rw [(h id hid).2] at alive
  contradiction

/-- Whoever lives in a later world lived before, so nobody returns. -/
theorem Retired.of_alive (h : w.Retired ids) (length : w.watchers.length ≤ m.watchers.length)
    (alive : ∀ id ∈ ids, m.isAlive id = true → w.isAlive id = true) : m.Retired ids := by
  intro id hid
  obtain ⟨lt, dead⟩ := h id hid
  refine ⟨Nat.lt_of_lt_of_le lt length, ?_⟩
  rw [← Bool.not_eq_true] at dead ⊢
  exact fun h => dead (alive id hid h)

/-- **A watcher that was dropped is dropped for good**, whatever programs run. -/
theorem stable_retired (ids : List WatcherId) :
    Stable (fun _ : Program σ => True) (Retired ids) where
  next _ _ := trivial
  reaction _ _ _ _ := trivial
  edit h := h
  assign h _ := h
  watch {w path reaction next} h _ := by
    cases hread : (w.store.read path).result with
    | error fault => rwa [watch_of_fault reaction hread]
    | ok seen =>
      rw [watch_of_read reaction hread]
      refine h.of_alive (by simp) fun id hid alive => ?_
      rwa [isAlive_append (h id hid).1] at alive
  drop h := h.of_alive (by simp) fun _ _ => isAlive_of_drop
  observe h := h.of_alive (by simp) fun _ _ alive => by rwa [isAlive_observe] at alive
  enter {w running} h _ alive _ := by
    refine h.of_alive (Nat.le_refl _) fun id _ entered => ?_
    rcases isAlive_enter_iff.1 entered with rfl | before
    · exact alive
    · exact before
  leave h := h.of_alive (Nat.le_refl _) fun _ _ => isAlive_of_leave

/-! ### Reactions that leave a part of the host alone -/

/-- All reactions that may run leave a part of the host as it is. -/
def Heeds (part : σ → β) (w : World σ) : Prop :=
  ∀ id watcher, w.watcher? id = some watcher → w.isAlive id = true →
    ∀ seen, (watcher.reaction seen).Keeps part

/-- In a later world without new watchers reactions are those of before. -/
theorem Heeds.of_reaction (h : w.Heeds part)
    (reaction : ∀ {id watcher}, m.watcher? id = some watcher →
      ∃ before, w.watcher? id = some before ∧ watcher.reaction = before.reaction)
    (alive : ∀ {id}, m.isAlive id = true → w.isAlive id = true) : m.Heeds part := by
  intro id watcher found living seen
  obtain ⟨before, hbefore, same⟩ := reaction found
  rw [same]
  exact h id before hbefore (alive living) seen

/-- Dropping a watcher changes no reactions. -/
theorem reaction_of_drop {other : WatcherId} {watcher : Watcher σ}
    (h : (w.drop id).watcher? other = some watcher) :
    ∃ before, w.watcher? other = some before ∧ watcher.reaction = before.reaction := by
  rw [watcher?_drop] at h
  obtain ⟨before, hbefore, rfl⟩ := Option.map_eq_some_iff.1 h
  refine ⟨before, hbefore, ?_⟩
  split <;> rfl

/-- **What all reactions leave alone stays as it is** while programs run that leave it alone. -/
theorem maintained_heeds (part : σ → β) (value : β) :
    Maintained (Program.Keeps part) fun w => part w.host = value ∧ w.Heeds part where
  next h keeps := h.keeps keeps
  reaction h found alive := h.2 _ _ found alive
  edit {w change next} h keeps := by
    cases keeps with
    | edit leaves _ => exact ⟨(leaves w.host).trans h.1, h.2⟩
  assign h _ := h
  watch {w path reaction next} h keeps := by
    cases hread : (w.store.read path).result with
    | error fault => rwa [watch_of_fault reaction hread]
    | ok seen =>
      rw [watch_of_read reaction hread]
      refine ⟨h.1, fun id watcher found alive => ?_⟩
      rcases watcher?_append found with before | ⟨rfl, rfl⟩
      · have lt := watcher?_eq_some_iff_lt.1 ⟨watcher, before⟩
        exact h.2 id watcher before (by rwa [isAlive_append lt] at alive)
      · cases keeps with
        | watch leaves _ => exact leaves
  drop h := ⟨h.1, h.2.of_reaction reaction_of_drop isAlive_of_drop⟩
  observe {w id seen} h := by
    refine ⟨h.1, h.2.of_reaction (fun found => ?_) fun alive => by rwa [isAlive_observe] at alive⟩
    rw [watcher?_observe] at found
    obtain ⟨before, hbefore, rfl⟩ := Option.map_eq_some_iff.1 found
    refine ⟨before, hbefore, ?_⟩
    split <;> rfl
  enter {w id} h _ living _ := by
    refine ⟨h.1, h.2.of_reaction (fun found => ⟨_, found, rfl⟩) fun alive => ?_⟩
    rcases isAlive_enter_iff.1 alive with rfl | before
    · exact living
    · exact before
  leave h := ⟨h.1, h.2.of_reaction (fun found => ⟨_, found, rfl⟩) isAlive_of_leave⟩

/-! ### Runs -/

/-- Two properties are kept together. -/
theorem Maintained.and {Admits : Program σ → Prop} {I J : World σ → Prop}
    (h : Maintained Admits I) (h' : Stable (fun _ => True) J) :
    Maintained Admits fun w => I w ∧ J w where
  next := h.next
  reaction hw := h.reaction hw.1
  edit hw admits := ⟨h.edit hw.1 admits, h'.edit hw.2⟩
  assign hw hassign := ⟨h.assign hw.1 hassign, h'.assign hw.2 hassign⟩
  watch {w path reaction next} hw admits :=
    ⟨h.watch hw.1 admits, @h'.watch w path reaction next hw.2 trivial⟩
  drop hw := ⟨h.drop hw.1, h'.drop hw.2⟩
  observe hw := ⟨h.observe hw.1, h'.observe hw.2⟩
  enter hw lt alive idle := ⟨h.enter hw.1 lt alive idle, h'.enter hw.2 lt alive idle⟩
  leave hw := ⟨h.leave hw.1, h'.leave hw.2⟩

/-- What every step keeps a run keeps. -/
theorem Maintained.exec {Admits : Program σ → Prop} {I : World σ → Prop}
    (maintained : Maintained Admits I) {depth : Nat} {program : Program σ}
    {result : Except Fault Unit} (admits : Admits program) (hw : I w)
    (h : program.exec (updateAt depth) w = some (result, w')) : I w' :=
  maintained.passes (maintained.updatePasses depth) (updateAt_covers depth) admits hw
    (Program.exec_passes h)

/-- What every step keeps a setting keeps. -/
theorem Maintained.set {Admits : Program σ → Prop} {I : World σ → Prop}
    (maintained : Maintained Admits I) {expr : String} {value : Json} {result : Except Fault Unit}
    (hw : I w) (h : World.set expr value w = some (result, w')) : I w' := by
  unfold World.set at h
  split at h
  · cases h
    exact hw
  · exact maintained.assignPasses (maintained.updatePasses _) (updateAt_covers _) hw
      (assign_passes (updateAt_covers _) h)

/-! ### Dropping -/

/-- Retired watchers stay so when others are dropped. -/
theorem Retired.dropAll (h : w.Retired ids) (others : List WatcherId) :
    (w.dropAll others).Retired ids := by
  induction others generalizing w with
  | nil => exact h
  | cons other others ih => exact ih ((stable_retired ids).drop h)

/-- A watcher that is dropped lives by its running reaction only. -/
theorem isAlive_drop_self : (w.drop id).isAlive id = w.isRunning id := by
  have notKept : ((w.drop id).watcher? id).any (·.isKept) = false := by
    rw [watcher?_drop]
    cases w.watcher? id with
    | none => rfl
    | some watcher => simp
  rw [isAlive, notKept, Bool.false_or]
  rfl

/-- Watchers whose reactions do not run are retired by dropping them. -/
theorem retired_dropAll (given : ∀ id ∈ ids, id.val < w.watchers.length)
    (idle : ∀ id ∈ ids, id ∉ w.running) : (w.dropAll ids).Retired ids := by
  induction ids generalizing w with
  | nil => exact fun _ h => absurd h List.not_mem_nil
  | cons first rest ih =>
    rw [List.forall_mem_cons] at given idle
    have retired : (w.drop first).Retired [first] := by
      intro id hid
      rw [List.mem_singleton.1 hid, isAlive_drop_self]
      exact ⟨by simpa using given.1, by simpa [isRunning] using idle.1⟩
    have rest' : ((w.drop first).dropAll rest).Retired rest :=
      ih (by simpa using given.2) idle.2
    show ((w.drop first).dropAll rest).Retired (first :: rest)
    intro id hid
    rcases List.mem_cons.1 hid with rfl | hid
    · exact retired.dropAll rest id (List.mem_singleton.2 rfl)
    · exact rest' id hid

theorem reaction_of_dropAll {watcher : Watcher σ} (h : (w.dropAll ids).watcher? id = some watcher) :
    ∃ before, w.watcher? id = some before ∧ watcher.reaction = before.reaction := by
  induction ids generalizing w with
  | nil => exact ⟨watcher, h, rfl⟩
  | cons first rest ih =>
    obtain ⟨between, hbetween, same⟩ := ih h
    obtain ⟨before, hbefore, same'⟩ := reaction_of_drop hbetween
    exact ⟨before, hbefore, same.trans same'⟩

theorem isAlive_of_dropAll (h : (w.dropAll ids).isAlive id = true) : w.isAlive id = true := by
  induction ids generalizing w with
  | nil => exact h
  | cons first rest ih => exact isAlive_of_drop (ih h)

/-- After watchers were dropped only the reactions of others may run. -/
theorem heeds_dropAll (retired : (w.dropAll ids).Retired ids)
    (others : ∀ id ∉ ids, ∀ watcher, w.watcher? id = some watcher → w.isAlive id = true →
      ∀ seen, (watcher.reaction seen).Keeps part) : (w.dropAll ids).Heeds part := by
  intro id watcher found alive seen
  obtain ⟨before, hbefore, same⟩ := reaction_of_dropAll found
  rw [same]
  refine others id (fun hid => ?_) before hbefore (isAlive_of_dropAll alive) seen
  rw [(retired id hid).2] at alive
  contradiction

end World

end Bindery
