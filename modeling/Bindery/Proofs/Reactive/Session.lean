import Bindery.Proofs.Reactive.Moments
import Bindery.Proofs.Store.Document
import Bindery.Proofs.Store.Tree

namespace Bindery

/-!
# Sessions

Everything that may happen to a world: programs are run on it one after another, with reactions
inside reactions, and computed members are defined in between.

* `World.Session` — the worlds between the operations.
* `World.Occurs` — these, and the worlds that an operation passes through.
* `World.Occurs.reachable` — the store of each is one that arises by assignments alone.
* `World.isSound_of_occurs` — so its tables are those of one tree, at every moment.
* `World.set_refines_document` — setting an expression sets it in the document, and then notifies.
-/

namespace World

variable {σ : Type}

/-- The worlds that operations lead to, whether they succeed or not. -/
inductive Session (start : World σ) : World σ → Prop
  | start : Session start start
  | define {w} (name : String) (derivation : Derivation) : Session start w →
      Session start { w with store := w.store.define name derivation }
  | run {w w' program depth result} : Session start w →
      Program.exec (updateAt depth) program w = some (result, w') → Session start w'

/-- The worlds in a session at any moment, also during an operation. -/
def Occurs (start m : World σ) : Prop :=
  ∃ w program depth, Session start w ∧
    Program.Passes (updateAt depth) (UpdatePasses depth) program w m

/-- An operation reaches the store by assignments only. -/
theorem stable_reachable : Stable (fun _ : Program σ => True) fun w => w.store.Reachable where
  next _ _ := trivial
  reaction _ _ _ _ := trivial
  edit h := h
  assign h hassign := h.assign hassign
  watch {w path reaction next} h _ := by
    simp only [watch]
    split <;> exact h
  drop h := h
  observe h := h
  enter h _ _ _ := h
  leave h := h

/-- The store after a session is one that assignments lead to. -/
theorem Session.reachable {start w : World σ} (h : Session start w)
    (hstart : start.store.Reachable) : w.store.Reachable := by
  induction h with
  | start => exact hstart
  | define name derivation _ ih => exact ih.define name derivation
  | run _ hexec ih =>
    exact stable_reachable.passes (stable_reachable.updatePasses _) (updateAt_covers _) trivial ih
      (Program.exec_passes hexec)

/-- At every moment of a session the store is one that there can be. -/
theorem Occurs.reachable {start m : World σ} (h : Occurs start m)
    (hstart : start.store.Reachable) : m.store.Reachable := by
  obtain ⟨w, program, depth, hsession, hpasses⟩ := h
  exact stable_reachable.passes (stable_reachable.updatePasses _) (updateAt_covers _) trivial
    (hsession.reachable hstart) hpasses

/-- **Soundness.** At every moment the tables of the store are those of one tree, with as many
properties as the data has parts, and no identifier is followed that leads nowhere. -/
theorem isSound_of_occurs (data : Json) (host : σ) {m : World σ}
    (h : Occurs (new (.ofJson data) host) m) : m.store.IsSound := by
  obtain ⟨g, hg⟩ := (h.reachable (.ofJson data)).represents
  exact Store.isSound_of_represents hg

/-- An object in place of a number brings its member with it. -/
theorem isSound_after_replacement : ∃ m : World Unit,
    Occurs (new (.ofJson (.object [("list", .array [.integer 1, .object [("x", .null)]])])) ()) m ∧
      m.store.propertyCount = 5 ∧ m.store.IsSound := by
  let start : World Unit :=
    new (.ofJson (.object [("list", .array [.integer 1, .object [("x", .null)]])])) ()
  let program : Program Unit :=
    .write ⟨["list", "0"], by decide, by decide⟩ (.object [("y", .null)]) .finish
  have count : (program.exec (updateAt 0) start).map (·.2.store.propertyCount) = some 5 := by
    decide +kernel
  obtain ⟨⟨result, m⟩, hexec, hcount⟩ := Option.map_eq_some_iff.1 count
  have occurs : Occurs start m := ⟨start, program, 0, .start, Program.exec_passes hexec⟩
  exact ⟨m, occurs, hcount, isSound_of_occurs _ () occurs⟩

/-! ### Setting -/

/-- **Refinement.** A new store holds its data, and setting an expression sets it in the document,
or fails as it does there.  When the watchers of the property are notified the document has changed
already; what they do comes after. -/
theorem set_refines_document :
    (∀ data, (Store.ofJson data).toJson = match data with
      | .scalar _ => .object []
      | data => data) ∧
    ∀ (w : World σ) (expr : String) (value : Json), w.store.Reachable →
      (∀ fault, w.store.document.set expr value = .error fault →
        set expr value w = some (.error fault, w)) ∧
      ∀ document, w.store.document.set expr value = .ok document →
        ∃ store ids, store.Reachable ∧ store.document = document ∧
          (ids = [] ∨ ∃ property, w.store.propertyAt expr = .ok property ∧
            ids = w.subscribers property) ∧
          set expr value w = notify (updateAt w.depth) ids { w with store } := by
  refine ⟨Store.toJson_ofJson, fun w expr value hreachable => ?_⟩
  simp only [set, Document.set]
  cases hparse : Path.parse? expr with
  | none =>
    refine ⟨fun fault h => ?_, fun document h => ?_⟩
    · cases h
      rfl
    · cases h
  | some path =>
    simp only [← hreachable.assign_document path value, write, assign]
    cases hassign : w.store.assign path value with
    | error fault =>
      refine ⟨fun fault h => ?_, fun document h => ?_⟩
      · cases h
        rfl
      · cases h
    | ok done =>
      obtain ⟨effect, store⟩ := done
      -- what the assignment did decides who is told of it
      refine ⟨nofun, fun document h => ?_⟩
      cases h
      have hstore := hreachable.assign hassign
      cases effect with
      | unchanged =>
        cases Store.eq_of_unchanged hassign
        exact ⟨w.store, [], hreachable, rfl, .inl rfl, rfl⟩
      | added => exact ⟨store, [], hstore, rfl, .inl rfl, rfl⟩
      | replaced property =>
        exact ⟨store, w.subscribers property, hstore, rfl,
          .inr ⟨property, Store.propertyAt_of_replaced hparse hassign, rfl⟩, rfl⟩

/-- An item right after the last one of an array. -/
theorem set_item_after_last : ∃ store ids,
    store.toJson = .object [("tags", .array [.integer 1, .integer 2]), ("age", .integer 3)] ∧
      set "tags.1" (.integer 2)
          (new (.ofJson (.object [("tags", .array [.integer 1]), ("age", .integer 3)])) ()) =
        notify (updateAt 1) ids (new store ()) := by
  have hdata :
      (Store.ofJson (.object [("tags", .array [.integer 1]), ("age", .integer 3)])).document =
      ⟨.object [("tags", .array [.integer 1]), ("age", .integer 3)], []⟩ := by
    rw [Store.document, Store.toJson_ofJson]
    rfl
  have hreachable := Store.Reachable.ofJson
    (.object [("tags", .array [.integer 1]), ("age", .integer 3)])
  -- from here on only the document matters, so that the tables are not unfolded
  generalize Store.ofJson (.object [("tags", .array [.integer 1]), ("age", .integer 3)]) = s at *
  have hset : s.document.set "tags.1" (.integer 2) =
      .ok ⟨.object [("tags", .array [.integer 1, .integer 2]), ("age", .integer 3)], []⟩ := by
    have hparse : Path.parse? "tags.1" = some ⟨["tags", "1"], by decide, by decide⟩ := by decide
    simp only [hdata, Document.set, hparse]
    rfl
  obtain ⟨store, ids, -, hdocument, -, hnotify⟩ :=
    (set_refines_document.2 (new s ()) "tags.1" (.integer 2) hreachable).2 _ hset
  exact ⟨store, ids, congrArg Document.data hdocument, hnotify⟩

end World

end Bindery
