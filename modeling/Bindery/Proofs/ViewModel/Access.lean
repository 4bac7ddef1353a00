import Bindery.Proofs.Reactive.Session
import Bindery.Proofs.Reactive.Turns
import Bindery.Proofs.Store.Members
import Bindery.ViewModel.Basic

namespace Bindery

/-!
# Access by name

A mounted view model hands out its members by name.  Whether there is a member is decided by the
name as it is given, and then the store reads it as an expression; for a single segment the two
agree.

* `Mount.get_unknown`, `Mount.set_unknown` — names of nothing are refused.
* `Mount.get_entry`, `Mount.set_entry_same`, `Mount.set_entry` — members of the data.
* `Mount.get_computed`, `Mount.set_computed` — computed members.
* `Mount.access` — what each name leads to.
-/

variable {υ : Type}

namespace Mount

variable {w : World (Page υ)} {root : NodeId} {key : String} {value old : Json}

/-! ### Who is asked -/

/-- A member of the name is there. -/
theorem storeWith_known (known : w.store.isComputed key = true ∨ key ∈ w.store.keys) :
    (element root).storeWith key w = some (.ok w.store, w) := by
  have passes : (w.store.isComputed key || w.store.keys.contains key) = true := by
    simpa using known
  show (if w.store.isComputed key || w.store.keys.contains key then
    (Step.pure w.store : Act υ Store) else Step.fail (.unknownProperty key)) w = _
  rw [if_pos passes]
  rfl

/-- No member of the name is there. -/
theorem storeWith_unknown (plain : w.store.isComputed key = false) (missing : key ∉ w.store.keys) :
    (element root).storeWith key w = some (.error (.unknownProperty key), w) := by
  have fails : ¬ (w.store.isComputed key || w.store.keys.contains key) = true := by
    simpa [plain] using missing
  show (if w.store.isComputed key || w.store.keys.contains key then
    (Step.pure w.store : Act υ Store) else Step.fail (.unknownProperty key)) w = _
  rw [if_neg fails]
  rfl

/-- A member that is there is read from the store. -/
theorem get_known (known : w.store.isComputed key = true ∨ key ∈ w.store.keys) :
    (element root).get key w = some ((w.store.get key).mapError .fault, w) := by
  show Step.bind ((element root).storeWith key) _ w = _
  rw [Step.bind, storeWith_known known]
  rfl

/-- A member that is there is assigned in the store. -/
theorem set_known (known : w.store.isComputed key = true ∨ key ∈ w.store.keys) (value : Json) :
    (element root).set key value w = Act.assign key value w := by
  show Step.bind ((element root).storeWith key) _ w = _
  rw [Step.bind, storeWith_known known]

/-! ### Names of nothing -/

/-- The name of nothing is refused. -/
theorem get_unknown (plain : w.store.isComputed key = false) (missing : key ∉ w.store.keys) :
    (element root).get key w = some (.error (.unknownProperty key), w) := by
  show Step.bind ((element root).storeWith key) _ w = _
  rw [Step.bind, storeWith_unknown plain missing]

/-- Nothing is assigned to the name of nothing. -/
theorem set_unknown (plain : w.store.isComputed key = false) (missing : key ∉ w.store.keys)
    (value : Json) : (element root).set key value w = some (.error (.unknownProperty key), w) := by
  show Step.bind ((element root).storeWith key) _ w = _
  rw [Step.bind, storeWith_unknown plain missing]

/-! ### Single segments -/

/-- Setting a single segment assigns the path of this segment. -/
theorem assign_single (segment : isSegment key = true) (value : Json) :
    Act.assign key value w = Act.ofFault (World.write (.single key segment) value) w := by
  simp only [Act.assign, Act.ofFault, Step.mapError, World.set, Path.parse?_of_isSegment segment]

/-- A computed member has the value of its derivation. -/
theorem get_computed (reachable : w.store.Reachable) (segment : isSegment key = true)
    {derivation : Derivation} (computed : w.store.computed.lookup key = some derivation)
    {depth : Nat} {result : Except Fault Json}
    (terminates : w.store.document.derive? depth derivation = some result) :
    (element root).get key w = some (result.mapError .fault, w) ∧
      derivation.value w.store.get = result := by
  have known : w.store.isComputed key = true := by rw [Store.isComputed, computed]; rfl
  obtain ⟨hget, hvalue⟩ := reachable.get_computed segment computed terminates
  rw [get_known (.inl known), hget]
  exact ⟨rfl, hvalue⟩

/-- A computed member cannot be assigned. -/
theorem set_computed (segment : isSegment key = true) (computed : w.store.isComputed key = true)
    (value : Json) :
    (element root).set key value w = some (.error (.fault (.readOnly key)), w) := by
  rw [set_known (.inl computed), assign_single segment]
  simp only [Act.ofFault, Step.mapError, World.write, World.assign,
    Store.assign_computed segment computed]
  rfl

section entry

variable (reachable : w.store.Reachable) (segment : isSegment key = true)
  (plain : w.store.computed.lookup key = none)
  (found : w.store.toJson.entries.lookup key = some old)
  (addressable : w.store.toJson.IsAddressable)

include reachable found in
/-- The store knows the keys of its data. -/
theorem mem_keys : key ∈ w.store.keys := by
  rw [reachable.keys_toJson]
  obtain ⟨before, after, hentries, -⟩ := List.lookup_eq_some_iff.1 found
  simp [Json.keys, hentries]

include reachable segment plain found addressable

/-- A key of the data has the value that stands under it. -/
theorem get_entry : (element root).get key w = some (.ok old, w) := by
  rw [get_known (.inr (mem_keys reachable found)),
    reachable.get_entry segment plain found addressable]
  rfl

/-- A value that is there already is not assigned again. -/
theorem set_entry_same (same : old.strictEq value = true) :
    (element root).set key value w = some (.ok (), w) := by
  have hassign := (reachable.assign_entry segment plain found addressable value).1 same
  rw [set_known (.inr (mem_keys reachable found)), assign_single segment]
  simp only [Act.ofFault, Step.mapError, World.write, World.assign, hassign]
  rfl

/-- Any other value takes the place of the old one, and then the watchers of the property are
notified. -/
theorem set_entry (root : NodeId) (differ : old.strictEq value = false) :
    ∃ property store, w.store.propertyAt key = .ok property ∧
      store.computed = w.store.computed ∧ Json.Replaces key value w.store.toJson store.toJson ∧
        (element root).set key value w = Act.ofFault
          (World.notify (World.updateAt w.depth) (w.subscribers property)) { w with store } := by
  obtain ⟨property, store, hassign, hcomputed, hdata⟩ :=
    (reachable.assign_entry segment plain found addressable value).2 differ
  refine ⟨property, store,
    Store.propertyAt_of_replaced (Path.parse?_of_isSegment segment) hassign, hcomputed, ?_, ?_⟩
  · rw [hdata]
    exact Json.replaces_mapMember value found addressable
  · rw [set_known (.inr (mem_keys reachable found)), assign_single segment]
    simp only [Act.ofFault, Step.mapError, World.write, World.assign, hassign]

end entry

/-! ### Every name -/

/-- **Access by name.** A mounted view model refuses every name of nothing, and then nothing
changes.  If a name is a single segment, that is not empty and without dots and white space, it
stands for the computed member of this name, which has the value that its derivation comes to and
cannot be assigned.  Without such a member it stands for the value under this key of the data: a
value that is strictly equal leaves everything as it is, and any other takes its place, and no other
place in the data, before the watchers of the property are notified.  If they only observe, this is
also what is left. -/
theorem access (reachable : w.store.Reachable) (root : NodeId) (key : String) :
    (w.store.isComputed key = false → key ∉ ((element root).data w).keys →
      (element root).get key w = some (.error (.unknownProperty key), w) ∧
        ∀ value, (element root).set key value w = some (.error (.unknownProperty key), w)) ∧
    (isSegment key = true →
      (∀ derivation, w.store.computed.lookup key = some derivation →
        (∀ depth result, w.store.document.derive? depth derivation = some result →
          (element root).get key w = some (result.mapError .fault, w) ∧
            derivation.value w.store.get = result) ∧
        ∀ value, (element root).set key value w = some (.error (.fault (.readOnly key)), w)) ∧
      (w.store.computed.lookup key = none → ((element root).data w).IsAddressable →
        key ∈ ((element root).data w).keys →
          ∃ old, ((element root).data w).entries.lookup key = some old ∧
            (element root).get key w = some (.ok old, w) ∧ ∀ value,
              (old.strictEq value = true → (element root).set key value w = some (.ok (), w)) ∧
              (old.strictEq value = false → ∃ property store,
                w.store.propertyAt key = .ok property ∧ store.computed = w.store.computed ∧
                Json.Replaces key value ((element root).data w)
                  ((element root).data { w with store }) ∧
                (element root).set key value w = Act.ofFault
                  (World.notify (World.updateAt w.depth) (w.subscribers property))
                    { w with store } ∧
                (w.Observing → ∃ result left,
                  (element root).set key value w = some (result, left) ∧
                    left.store = store)))) := by
  have hkeys : w.store.keys = ((element root).data w).keys := reachable.keys_toJson
  refine ⟨fun plain missing => ?_, fun segment =>
    ⟨fun derivation computed => ⟨fun depth result terminates => ?_, fun value => ?_⟩,
      fun plain addressable hkey => ?_⟩⟩
  · rw [← hkeys] at missing
    exact ⟨get_unknown plain missing, set_unknown plain missing⟩
  · exact get_computed reachable segment computed terminates
  · exact set_computed segment (by rw [Store.isComputed, computed]; rfl) value
  · obtain ⟨old, found⟩ := Json.exists_of_mem_keys hkey
    refine ⟨old, found, get_entry reachable segment plain found addressable, fun value =>
      ⟨set_entry_same reachable segment plain found addressable, fun differ => ?_⟩⟩
    obtain ⟨property, store, named, hcomputed, replaces, hset⟩ :=
      set_entry reachable segment plain found addressable root differ
    refine ⟨property, store, named, hcomputed, replaces, hset, fun observing => ?_⟩
    -- observing watchers leave the store as they find it
    have written : ({ w with store } : World (Page υ)).Observing := observing
    obtain ⟨result, host, runs, hnotify⟩ :=
      written.notify_ends (w.subscribers property) w.watchers.length
    refine ⟨result.mapError .fault, ({ w with store } : World (Page υ)).leaving store host runs, ?_,
      rfl⟩
    rw [hset, Act.ofFault, Step.mapError, World.depth, hnotify]
    rfl

/-- A page with a computed member, and keys that differ in white space only. -/
def spaced : World (Page Unit) :=
  .new ((Store.ofJson (.object [("a b", .integer 1), ("ab", .integer 2)])).define "twice"
    ((Derivation.get "ab").bind fun value => .pure (.array [value, value]))) ⟨⟨[], 0⟩, true, ()⟩

theorem reachable_spaced : spaced.store.Reachable := .define _ _ (.ofJson _)

/-- The data of the store, with a key that has a blank in it. -/
theorem toJson_spaced :
    spaced.store.toJson = .object [("a b", .integer 1), ("ab", .integer 2)] :=
  Store.toJson_ofJson (.object [("a b", .integer 1), ("ab", .integer 2)])

/-- The key without white space, the computed member and the name of nothing. -/
theorem access_spaced :
    (element ⟨0⟩).get "ab" spaced = some (.ok (.integer 2), spaced) ∧
      (∃ property store, spaced.store.propertyAt "ab" = .ok property ∧
        Json.Replaces "ab" (.integer 5) spaced.store.toJson store.toJson ∧
        (element ⟨0⟩).set "ab" (.integer 5) spaced = Act.ofFault
          (World.notify (World.updateAt 1) (spaced.subscribers property))
            { spaced with store }) ∧
      (element ⟨0⟩).get "twice" spaced =
        some (.ok (.array [.integer 2, .integer 2]), spaced) ∧
      (element ⟨0⟩).set "twice" .null spaced =
        some (.error (.fault (.readOnly "twice")), spaced) ∧
      (element ⟨0⟩).get "abc" spaced = some (.error (.unknownProperty "abc"), spaced) := by
  have data : (element ⟨0⟩).data spaced =
      .object [("a b", .integer 1), ("ab", .integer 2)] := toJson_spaced
  have path : Path.parse? "ab" = some (.single "ab" (by decide)) :=
    Path.parse?_of_isSegment (by decide)
  have derived : spaced.store.document.derive? 1
      ((Derivation.get "ab").bind fun value => .pure (.array [value, value])) =
        some (.ok (.array [.integer 2, .integer 2])) := by
    have computed : spaced.store.document.computed.lookup "ab" = none := rfl
    have value : spaced.store.document.data =
        .object [("a b", .integer 1), ("ab", .integer 2)] := toJson_spaced
    have reads : spaced.store.document.get? (spaced.store.document.derive? 0) "ab" =
        some (.ok (.integer 2)) := by
      simp only [Document.get?, Document.derivationAt?, path, Option.bind_some, Path.head_single,
        computed, Document.getWith_eq _ _ path, value]
      rfl
    rw [Document.derive?, Derivation.get, Derivation.bind, Derivation.value?, reads]
    rfl
  obtain ⟨-, single⟩ := access reachable_spaced ⟨0⟩ "ab"
  obtain ⟨old, found, hget, hset⟩ := (single (by decide)).2 rfl
    (by rw [data]; trivial) (by rw [data]; decide)
  rw [data] at found
  cases found
  obtain ⟨property, store, named, -, replaces, notified, -⟩ := (hset (.integer 5)).2 rfl
  obtain ⟨-, computed⟩ := access reachable_spaced ⟨0⟩ "twice"
  obtain ⟨hderived, hreadOnly⟩ := (computed (by decide)).1 _ rfl
  obtain ⟨unknown, -⟩ := access reachable_spaced ⟨0⟩ "abc"
  exact ⟨hget, ⟨property, store, named, replaces, notified⟩, (hderived 1 _ derived).1,
    hreadOnly .null, (unknown rfl (by rw [data]; decide)).1⟩

/-- **White space in a key.** The key is found, but read and assigned is the member whose key is
left when the white space is taken out. -/
theorem access_blank : "a b" ∈ ((element ⟨0⟩).data spaced).keys ∧
    ((element ⟨0⟩).data spaced).entries.lookup "a b" = some (.integer 1) ∧
    (element ⟨0⟩).get "a b" spaced = some (.ok (.integer 2), spaced) ∧
    ∃ left, (element ⟨0⟩).set "a b" (.integer 5) spaced = some (.ok (), left) ∧
      (element ⟨0⟩).data left = .object [("a b", .integer 1), ("ab", .integer 5)] := by
  have data : spaced.store.toJson = .object [("a b", .integer 1), ("ab", .integer 2)] :=
    toJson_spaced
  have segment : isSegment "ab" = true := by decide
  have path : Path.parse? "a b" = some (.single "ab" (by decide)) := by decide
  have plain : spaced.store.computed.lookup "ab" = none := rfl
  have found : spaced.store.toJson.entries.lookup "ab" = some (.integer 2) := by rw [data]; rfl
  have addressable : spaced.store.toJson.IsAddressable := by rw [data]; trivial
  have known : "a b" ∈ spaced.store.keys := by
    rw [reachable_spaced.keys_toJson, data]
    decide
  have hget : spaced.store.get "a b" = .ok (.integer 2) := by
    rw [← reachable_spaced.get_entry segment plain found addressable, Store.get, Store.get,
      Store.getWith, Store.getWith, path, Path.parse?_of_isSegment segment]
  obtain ⟨property, store, hassign, hcomputed, hdata⟩ :=
    (reachable_spaced.assign_entry segment plain found addressable (.integer 5)).2 rfl
  refine ⟨?_, ?_, ?_, { spaced with store }, ?_, ?_⟩
  · show "a b" ∈ spaced.store.toJson.keys
    rw [data]
    decide
  · show spaced.store.toJson.entries.lookup "a b" = _
    rw [data]
    rfl
  · rw [get_known (.inr known), hget]
    rfl
  · rw [set_known (.inr known)]
    simp only [Act.assign, Act.ofFault, Step.mapError, World.set, path, World.write, World.assign,
      hassign]
    rfl
  · show store.toJson = _
    rw [hdata, data]
    rfl

end Mount

end Bindery
