import Bindery.Proofs.Path
import Bindery.Proofs.Store.Lookup
import Bindery.Proofs.Store.Overwrite

namespace Bindery

/-!
# The members at the top of the data

The keys of a store are those of an object or the indices of an array.  As an expression, a key that
is a single segment names the member of this key and nothing else.

* `Json.entries`, `Json.keys` — what stands at the top of a value, with its names.
* `Json.Replaces` — another value under one key, and nothing else changed.
* `Store.Reachable.keys_toJson` — the keys of a store are those of its data.
* `Store.Reachable.get_entry`, `Store.Reachable.assign_entry` — reading and assigning a member of
  the data by its key.
* `Store.Reachable.get_computed`, `Store.assign_computed` — the same for a computed member.
-/

namespace Json

/-! ### Entries -/

/-- The name of an item of an array. -/
def indexKey (i : Nat) : String := String.ofList (Nat.toDigits 10 i)

/-- What stands at the top of a value, with its names. -/
def entries : Json → List (String × Json)
  | .scalar _ => []
  | .object members => members
  | .array items => items.zipIdx.map fun (item, i) => (indexKey i, item)

/-- The names of what stands at the top. -/
def keys (data : Json) : List String := data.entries.map (·.1)

/-- Whether a value is an array. -/
def isArray : Json → Bool
  | .array _ => true
  | _ => false

/-- An array has no more items than there are indices. -/
def IsAddressable : Json → Prop
  | .array items => items.length ≤ wordCount 64
  | _ => True

/-- A value of the same kind with the same keys, which has another value under one of them. -/
structure Replaces (key : String) (value before after : Json) : Prop where
  kind : after.isArray = before.isArray
  keys : after.keys = before.keys
  here : after.entries.lookup key = some value
  elsewhere : ∀ other ≠ key, after.entries.lookup other = before.entries.lookup other

/-- Digits spell the index that they are made from. -/
theorem index?_indexKey {i : Nat} (h : i < wordCount 64) : index? (indexKey i) = some i := by
  have digits : ∀ c ∈ Nat.toDigits 10 i, c.isDigit = true := fun c hc =>
    Nat.isDigit_of_mem_toDigits (by decide) (by decide) hc
  have value : (Nat.toDigits 10 i).foldl (fun n c => 10 * n + (c.toNat - '0'.toNat)) 0 = i :=
    Nat.ofDigitChars_ten_toDigits
  have spelt : ¬ ((Nat.toDigits 10 i).isEmpty || !(Nat.toDigits 10 i).all Char.isDigit) = true := by
    simpa [Nat.toDigits_ne_nil] using digits
  rw [index?, indexKey, String.toList_ofList]
  split
  · -- no digit is a plus sign
    next hdigits =>
    have plus := digits '+' (by simp [hdigits])
    contradiction
  · dsimp only
    rw [if_neg spelt, value, if_pos h]

/-- Different places have different keys. -/
theorem indexKey_injective {i j : Nat} (h : indexKey i = indexKey j) : i = j := by
  have digits : Nat.toDigits 10 i = Nat.toDigits 10 j := String.ofList_injective h
  calc
    i = Nat.ofDigitChars 10 (Nat.toDigits 10 i) 0 := Nat.ofDigitChars_ten_toDigits.symm
    _ = Nat.ofDigitChars 10 (Nat.toDigits 10 j) 0 := by rw [digits]
    _ = j := Nat.ofDigitChars_ten_toDigits

/-- No place has the key of the length. -/
theorem indexKey_ne_length (i : Nat) : indexKey i ≠ "length" := by
  intro same
  have digits : Nat.toDigits 10 i = "length".toList := by
    rw [← same, indexKey, String.toList_ofList]
  have letter : 'l' ∈ Nat.toDigits 10 i := by
    rw [digits]
    decide
  have isDigit := Nat.isDigit_of_mem_toDigits (by decide) (by decide) letter
  contradiction

/-- Items that are numbered on are found under their numbers. -/
theorem lookup_zipIdx {key : String} {value : Json} (items : List Json) (start : Nat) :
    ((items.zipIdx start).map fun (item, i) => (indexKey i, item)).lookup key = some value ↔
      ∃ i, key = indexKey (start + i) ∧ items[i]? = some value := by
  induction items generalizing start with
  | nil => simp
  | cons first rest ih =>
    rw [List.zipIdx_cons, List.map_cons, List.lookup_cons]
    by_cases hkey : key = indexKey start
    · -- no later item has this number
      simp only [hkey, beq_self_eq_true, Option.some.injEq]
      constructor
      · rintro rfl
        exact ⟨0, rfl, rfl⟩
      · rintro ⟨i, hi, hvalue⟩
        have zero : i = 0 := by
          have := indexKey_injective hi
          omega
        subst zero
        exact Option.some.inj hvalue
    · rw [beq_false_of_ne hkey, ih (start + 1)]
      constructor
      · rintro ⟨i, hi, hvalue⟩
        refine ⟨i + 1, ?_, hvalue⟩
        rw [hi, Nat.add_right_comm, Nat.add_assoc]
      · rintro ⟨i, hi, hvalue⟩
        cases i with
        | zero => exact absurd hi hkey
        | succ i =>
          refine ⟨i, ?_, hvalue⟩
          rw [hi, Nat.add_right_comm, Nat.add_assoc]

/-- An item of an array is found under its index. -/
theorem lookup_entries_array {key : String} {value : Json} {items : List Json} :
    (Json.array items).entries.lookup key = some value ↔
      ∃ i, key = indexKey i ∧ items[i]? = some value := by
  simpa [entries] using @lookup_zipIdx key value items 0

/-- The keys of an array are those of its places. -/
theorem keys_array (items : List Json) :
    (Json.array items).keys = (List.range items.length).map indexKey := by
  have numbers : items.zipIdx.map (·.2) = List.range items.length := by
    rw [List.zipIdx_map_snd, List.range_eq_range']
  rw [keys, entries, ← numbers, List.map_map, List.map_map]
  rfl

/-- A key names something. -/
theorem exists_of_mem_keys {key : String} {data : Json} (h : key ∈ data.keys) :
    ∃ value, data.entries.lookup key = some value := by
  rw [← Option.isSome_iff_exists, ← Bool.not_eq_false, Option.isSome_eq_false_iff,
    Option.isNone_iff_eq_none, List.lookup_eq_none_iff]
  intro missing
  obtain ⟨entry, hentry, rfl⟩ := List.mem_map.1 h
  simpa using missing entry hentry

/-! ### A change of one entry -/

/-- What is put in the place of an entry stands there, and the others are as they were. -/
theorem replaces_mapMember {key : String} {data old : Json} (value : Json)
    (found : data.entries.lookup key = some old) (addressable : data.IsAddressable) :
    Replaces key value data (data.mapMember key fun _ => value) := by
  cases data with
  | scalar s => cases found
  | object members =>
    refine ⟨rfl, ?_, ?_, fun other differ => lookup_modifyFirst_of_ne differ _ _⟩
    · exact map_modifyFirst key (fun _ => value) (·.1) (fun _ _ => rfl) members
    · have here : (modifyFirst key (fun _ => value) members).lookup key = some value := by
        rw [lookup_modifyFirst, show members.lookup key = some old from found, Option.map_some]
      exact here
  | array items =>
    obtain ⟨i, rfl, hi⟩ := lookup_entries_array.1 found
    have lt : i < items.length := (List.getElem?_eq_some_iff.1 hi).1
    have hmember : (Json.array items).mapMember (indexKey i) (fun _ => value) =
        .array (items.modify i fun _ => value) := by
      rw [mapMember, index?_indexKey (Nat.lt_of_lt_of_le lt addressable)]
    rw [hmember]
    refine ⟨rfl, by simp [keys_array], ?_, fun other differ => Option.ext fun found => ?_⟩
    · exact lookup_entries_array.2 ⟨i, rfl, by simp [hi]⟩
    · rw [lookup_entries_array, lookup_entries_array]
      refine exists_congr fun j => and_congr_right fun hj => ?_
      have elsewhere : i ≠ j := fun same => differ (by rw [hj, same])
      simp [elsewhere]

end Json

namespace Graph

/-- What stands under a key in the data is a part, under the same name. -/
theorem part?_of_entries {g : Graph} {key : String} {old : Json}
    (found : g.toJson.entries.lookup key = some old) (addressable : g.toJson.IsAddressable) :
    g.length? key = none ∧ ∃ part, g.part? key = some part ∧ part.2.toJson = old := by
  cases g with
  | scalar s =>
    rw [toJson_scalar] at found
    cases found
  | object id members =>
    rw [toJson_object, Json.entries,
      lookup_map_snd fun part : PropertyId × Graph => part.2.toJson,
      Option.map_eq_some_iff] at found
    exact ⟨rfl, found⟩
  | array id items =>
    rw [toJson_array] at found addressable
    obtain ⟨i, rfl, hi⟩ := Json.lookup_entries_array.1 found
    rw [List.getElem?_map, Option.map_eq_some_iff] at hi
    obtain ⟨part, hpart, hold⟩ := hi
    have lt : i < wordCount 64 := by
      have inside : i < items.length := (List.getElem?_eq_some_iff.1 hpart).1
      have bound : items.length ≤ wordCount 64 := by simpa [Json.IsAddressable] using addressable
      exact Nat.lt_of_lt_of_le inside bound
    refine ⟨by simp [length?, Json.indexKey_ne_length], part, ?_, hold⟩
    simp [part?, Json.indexKey_ne_length, Json.index?_indexKey lt, hpart]

/-- The names of the parts of a composite are the keys of the data. -/
theorem names_ownRows {g : Graph} {id : CompositeId} {shape : Composite}
    (h : g.ownRows = [.composite id shape]) : shape.names = g.toJson.keys := by
  cases g with
  | scalar s => cases h
  | object own members =>
    cases h
    simp [Composite.names, Json.keys, Json.entries]
  | array own items =>
    cases h
    rw [toJson_array, Json.keys_array, Composite.names, List.length_map, List.length_map]
    rfl

end Graph

namespace Path

/-- The path of a single segment. -/
def single (key : String) (h : isSegment key = true) : Path :=
  ⟨[key], List.cons_ne_nil _ _, by simpa using h⟩

variable {key : String} (h : isSegment key = true)

@[simp] theorem head_single : (single key h).head = key := rfl

@[simp] theorem last_single : (single key h).last = key := rfl

@[simp] theorem parents_single : (single key h).parents = [] := rfl

/-- A single segment, as an expression, names the path of this segment. -/
theorem parse?_of_isSegment : parse? key = some (single key h) := by
  have htext : (single key h).text = key := by simp [single, text, String.intercalate_singleton]
  simpa [htext] using parse?_text (single key h)

end Path

namespace Store

variable {s : Store} {key : String} {old : Json}

/-- **The keys of a store are those of its data.** -/
theorem Reachable.keys_toJson (h : s.Reachable) : s.keys = s.toJson.keys := by
  obtain ⟨g, hg⟩ := h.represents
  obtain ⟨shape, hshape, hown, -⟩ := hg.holds.composite hg.content
  rw [keys, hshape, Option.elim_some, Graph.names_ownRows hown, toJson, hg.toJson]

/-! ### Members of the data -/

/-- A key of the data that no computed member hides has the value that stands under it. -/
theorem Reachable.get_entry (h : s.Reachable) (segment : isSegment key = true)
    (plain : s.computed.lookup key = none) (found : s.toJson.entries.lookup key = some old)
    (addressable : s.toJson.IsAddressable) : s.get key = .ok old := by
  obtain ⟨g, hg⟩ := h.represents
  have hdata : s.toJson = g.toJson := hg.toJson
  rw [hdata] at found addressable
  obtain ⟨length, part, hpart, rfl⟩ := Graph.part?_of_entries found addressable
  have descends : s.toJson.descendAll [key] = .ok part.2.toJson := by
    rw [hdata, Graph.descendAll_toJson, Graph.find, Graph.step?, length, hpart]
    rfl
  rw [h.get_document, Document.get, Document.getWith_eq _ _ (Path.parse?_of_isSegment segment)]
  simp only [document, Path.head_single, plain]
  rw [show (Path.single key segment).segments = [key] from rfl, descends]
  rfl

/-- An assignment to such a key leaves the store as it is if it finds the value there already.
Otherwise it replaces the content of a property, and nothing else in the data. -/
theorem Reachable.assign_entry (h : s.Reachable) (segment : isSegment key = true)
    (plain : s.computed.lookup key = none) (found : s.toJson.entries.lookup key = some old)
    (addressable : s.toJson.IsAddressable) (value : Json) :
    (old.strictEq value = true → s.assign (.single key segment) value = .ok (.unchanged, s)) ∧
      (old.strictEq value = false → ∃ property s',
        s.assign (.single key segment) value = .ok (.replaced property, s') ∧
          s'.computed = s.computed ∧ s'.toJson = s.toJson.mapMember key fun _ => value) := by
  obtain ⟨g, hg⟩ := h.represents
  have hdata : s.toJson = g.toJson := hg.toJson
  rw [hdata] at found addressable
  obtain ⟨length, part, hpart, rfl⟩ := Graph.part?_of_entries found addressable
  have unwritable : s.isComputed key = false := by rw [isComputed, plain]; rfl
  have hassigns := hg.assign (Graph.find_nil g) hg.content key value
  have hassign {effect : Effect} {arena : Arena}
      (houtcome : s.arena.assign s.root key value = .ok (effect, arena)) :
      s.assign (.single key segment) value = .ok (effect, { s with arena }) := by
    have resolved : (s.resolve (.single key segment) []).result = .ok (.composite s.root) := rfl
    simp only [Store.assign, Path.parents_single, Path.last_single, unwritable, Bool.and_false,
      Bool.false_eq_true, if_false, resolved, houtcome]
  generalize houtcome : s.arena.assign s.root key value = outcome at hassigns
  cases hassigns with
  | unchanged _ hpart' hholds =>
    cases hpart.symm.trans hpart'
    rw [Graph.holds_content] at hholds
    rw [hassign houtcome]
    simp [hholds]
  | @replaced _ new arena _ hpart' hholds hvalue hrepresents _ =>
    cases hpart.symm.trans hpart'
    rw [Graph.holds_content] at hholds
    refine ⟨by simp [hholds], fun _ => ⟨_, _, hassign houtcome, rfl, ?_⟩⟩
    rw [hdata, ← Graph.toJson_mapPart (f := fun _ => new) (fun _ => value) fun _ => hvalue]
    exact hrepresents.toJson
  | added _ missing => simp [hpart] at missing
  | isLength isLength => simp [length] at isLength
  | missing _ missing => simp [hpart] at missing

/-! ### Computed members -/

/-- The name of a computed member has the value that the derivation comes to when it reads the
store, provided that it does not need its own value. -/
theorem Reachable.get_computed (h : s.Reachable) (segment : isSegment key = true)
    {derivation : Derivation} (computed : s.computed.lookup key = some derivation) {depth : Nat}
    {result : Except Fault Json} (terminates : s.document.derive? depth derivation = some result) :
    s.get key = result ∧ derivation.value s.get = result := by
  have found : s.document.computed.lookup key = some derivation := computed
  have derived := Document.derive_of_derive? found terminates
  constructor
  · rw [h.get_document, Document.get,
      Document.getWith_eq _ _ (Path.parse?_of_isSegment segment), Path.head_single, found]
    simp only [derived]
    cases result <;> rfl
  · -- what the derivation reads does not need its own value either
    cases depth with
    | zero => cases terminates
    | succ depth =>
      refine Derivation.value_of_value? (fun expr seen hseen => ?_) terminates
      rw [h.get_document]
      exact Document.getWith_of_get? (fun _ _ _ => Document.derive_of_derive?) hseen

/-- Nothing can be assigned to a computed member. -/
theorem assign_computed (segment : isSegment key = true) (computed : s.isComputed key = true)
    (value : Json) : s.assign (.single key segment) value = .error (.readOnly key) := by
  simp [Store.assign, computed]

end Store

end Bindery
