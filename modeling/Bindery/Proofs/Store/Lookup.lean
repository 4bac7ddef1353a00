import Bindery.Proofs.Store.Document
import Mathlib.Data.List.Perm.Subperm

namespace Bindery

/-!
# Reads are look-ups in plain data

* `Path.Leads` — what segments of a path lead to from a plain value: one segment after the other, or
  a fault about the first one that names nothing.
* `Document.derive?` — the value of a derivation, without a bound but the depth that it needs.
* `Document.derive_of_derive?` — the bound on derivations inside each other takes nothing away.
* `Store.Reachable.get_leads` — a read of a store is such a look-up, in its data or in the value of
  a computed member.
-/

/-- What segments of a path lead to from a value. -/
inductive Path.Leads (path : Path) (segments : List String) (value : Json) :
    Except Fault Json → Prop where
  /-- All segments name something, one inside the other. -/
  | found {inner : Json}
      (follows : segments.foldlM (fun (v : Json) segment => v.descend segment) value = some inner) :
      Leads path segments value (.ok inner)
  /-- All segments before one do, but this one does not. -/
  | missing (before : List String) (inner : Json) {after : List String} {segment : String}
      (parts : segments = before ++ segment :: after)
      (follows : before.foldlM (fun (v : Json) segment => v.descend segment) value = some inner)
      (nothing : inner.descend segment = none) :
      Leads path segments value (.error (.unresolvable path.text segment))

namespace Path

variable {path : Path} {segments : List String} {value : Json} {result : Except Fault Json}

/-- A first segment that names something is followed. -/
theorem Leads.cons {segment : String} {inner : Json} (names : value.descend segment = some inner)
    (h : path.Leads segments inner result) : path.Leads (segment :: segments) value result := by
  cases h with
  | found follows => exact .found (by rw [List.foldlM_cons, names]; exact follows)
  | missing before stuck parts follows nothing =>
    refine .missing (segment :: before) stuck (by rw [parts, List.cons_append]) ?_ nothing
    rw [List.foldlM_cons, names]
    exact follows

/-- Segments lead somewhere or get stuck at one of them. -/
theorem leads_descendAll (path : Path) (segments : List String) (value : Json) :
    path.Leads segments value ((value.descendAll segments).mapError path.refusalFault) := by
  induction segments generalizing value with
  | nil => exact .found rfl
  | cons segment rest ih =>
    rw [Json.descendAll]
    cases hnames : value.descend segment with
    | none => exact .missing [] value rfl rfl hnames
    | some inner => exact (ih inner).cons hnames

/-- Segments do not lead to two places. -/
theorem Leads.unique (h : path.Leads segments value result) :
    (value.descendAll segments).mapError path.refusalFault = result := by
  induction segments generalizing value with
  | nil =>
    cases h with
    | found follows => cases follows; rfl
    | missing before stuck parts => simp at parts
  | cons segment rest ih =>
    rw [Json.descendAll]
    cases h with
    | found follows =>
      rw [List.foldlM_cons] at follows
      cases hnames : value.descend segment with
      | none => rw [hnames] at follows; cases follows
      | some inner =>
        rw [hnames] at follows
        exact ih (.found follows)
    | missing before stuck parts follows nothing =>
      cases before with
      | nil =>
        cases parts
        cases follows
        rw [nothing]
        rfl
      | cons first before =>
        cases parts
        rw [List.foldlM_cons] at follows
        cases hnames : value.descend segment with
        | none => rw [hnames] at follows; cases follows
        | some next =>
          rw [hnames] at follows
          exact ih (.missing before stuck rfl follows nothing)

/-- **What segments lead to** is where they are followed to. -/
theorem leads_iff : path.Leads segments value result ↔
    result = (value.descendAll segments).mapError path.refusalFault := by
  constructor
  · exact fun h => h.unique.symm
  · rintro rfl
    exact leads_descendAll path segments value

end Path

/-! ### Derivations, as deep as they go -/

/-- The value of a derivation, `none` if one of its reads has none. -/
def Derivation.value? (get? : String → Option (Except Fault Json)) :
    Derivation → Option (Except Fault Json)
  | .done result => some result
  | .read _ expr next => (get? expr).bind fun seen => value? get? (next seen)

namespace Derivation

variable {get? get?' : String → Option (Except Fault Json)} {get : String → Except Fault Json}

/-- Reads that come to the same make derivations that come to the same. -/
theorem value?_mono (more : ∀ expr seen, get? expr = some seen → get?' expr = some seen)
    {derivation : Derivation} {result : Except Fault Json}
    (h : derivation.value? get? = some result) : derivation.value? get?' = some result := by
  induction derivation with
  | done => exact h
  | read tracked expr next ih =>
    rw [value?] at h ⊢
    obtain ⟨seen, hseen, hnext⟩ := Option.bind_eq_some_iff.1 h
    rw [more expr seen hseen]
    exact ih seen hnext

/-- A derivation that comes to a value within a bound comes to it without one. -/
theorem value_of_value? (same : ∀ expr seen, get? expr = some seen → get expr = seen)
    {derivation : Derivation} {result : Except Fault Json}
    (h : derivation.value? get? = some result) : derivation.value get = result := by
  induction derivation with
  | done => exact Option.some.inj h
  | read tracked expr next ih =>
    rw [value?] at h
    obtain ⟨seen, hseen, hnext⟩ := Option.bind_eq_some_iff.1 h
    rw [value, same expr seen hseen]
    exact ih seen hnext

end Derivation

namespace Document

/-- The derivation of the computed member that an expression starts with. -/
def derivationAt? (d : Document) (expr : String) : Option Derivation :=
  (Path.parse? expr).bind fun path => d.computed.lookup path.head

/-- The value at an expression, `none` if it needs a derivation that has none. -/
def get? (derive? : Derivation → Option (Except Fault Json)) (d : Document) (expr : String) :
    Option (Except Fault Json) :=
  match d.derivationAt? expr with
  | none => some (d.getWith (fun name _ => .error (.circular name)) expr)
  | some derivation => (derive? derivation).map fun result => d.getWith (fun _ _ => result) expr

/-- The value of a derivation, `none` if derivations run deeper than that one inside the other.  A
derivation that has a value has it from some depth on. -/
def derive? (d : Document) : Nat → Derivation → Option (Except Fault Json)
  | 0, _ => none
  | depth + 1, derivation => derivation.value? (d.get? (d.derive? depth))

variable {d : Document} {derive derive' : String → Derivation → Except Fault Json}

/-- A read looks in the value of a computed member, if the path starts with one, and otherwise in
the data. -/
theorem getWith_eq (derive : String → Derivation → Except Fault Json) (d : Document)
    {expr : String} {path : Path} (parsed : Path.parse? expr = some path) :
    d.getWith derive expr =
      match d.computed.lookup path.head with
      | none => (d.data.descendAll path.segments).mapError path.refusalFault
      | some derivation =>
        match derive path.head derivation with
        | .error fault => .error fault
        | .ok value => (value.descendAll path.segments.tail).mapError path.refusalFault := by
  rw [getWith, parsed]
  obtain ⟨segments, nonempty, valid⟩ := path
  cases segments with
  | nil => exact absurd rfl nonempty
  | cons name rest => rfl

/-- A read depends on the derivation of the computed member that it starts with only. -/
theorem getWith_congr {expr : String}
    (same : ∀ path derivation, Path.parse? expr = some path →
      d.computed.lookup path.head = some derivation →
      derive path.head derivation = derive' path.head derivation) :
    d.getWith derive expr = d.getWith derive' expr := by
  cases parsed : Path.parse? expr with
  | none => rw [getWith, getWith, parsed]
  | some path =>
    rw [getWith_eq derive d parsed, getWith_eq derive' d parsed]
    cases lookup : d.computed.lookup path.head with
    | none => rfl
    | some derivation => simp only [same path derivation parsed lookup]

/-- A read that has a value has it because the derivation it needs has one. -/
theorem getWith_of_get? {derive? : Derivation → Option (Except Fault Json)}
    (same : ∀ name derivation result, d.computed.lookup name = some derivation →
      derive? derivation = some result → derive name derivation = result)
    {expr : String} {seen : Except Fault Json} (h : d.get? derive? expr = some seen) :
    d.getWith derive expr = seen := by
  unfold get? at h
  split at h
  · next none =>
    rw [← Option.some.inj h]
    refine getWith_congr fun path derivation parsed lookup => ?_
    rw [derivationAt?, parsed, Option.bind_some, lookup] at none
    contradiction
  · next derivation some =>
    obtain ⟨result, hresult, rfl⟩ := Option.map_eq_some_iff.1 h
    refine getWith_congr fun path derivation' parsed lookup => ?_
    rw [derivationAt?, parsed, Option.bind_some, lookup] at some
    cases some
    exact same path.head derivation result lookup hresult

/-- What is found within a bound is found within a higher one. -/
theorem get?_mono {derive? derive?' : Derivation → Option (Except Fault Json)}
    (more : ∀ derivation result, derive? derivation = some result →
      derive?' derivation = some result)
    (expr : String) (seen : Except Fault Json) (h : d.get? derive? expr = some seen) :
    d.get? derive?' expr = some seen := by
  unfold get? at h ⊢
  split at h
  · exact h
  · next derivation _ =>
    obtain ⟨result, hresult, rfl⟩ := Option.map_eq_some_iff.1 h
    rw [more derivation result hresult]
    rfl

/-- A value at some depth is the value at every greater depth. -/
theorem derive?_succ {depth : Nat} {derivation : Derivation} {result : Except Fault Json}
    (h : d.derive? depth derivation = some result) :
    d.derive? (depth + 1) derivation = some result := by
  induction depth generalizing derivation result with
  | zero => contradiction
  | succ depth ih => exact Derivation.value?_mono (get?_mono fun _ _ => ih) h

/-- A derivation that comes to something within a bound comes to it within a higher one. -/
theorem derive?_mono {depth more : Nat} (le : depth ≤ more) {derivation : Derivation}
    {result : Except Fault Json} (h : d.derive? depth derivation = some result) :
    d.derive? more derivation = some result := by
  induction le with
  | refl => exact h
  | step _ ih => exact derive?_succ ih

/-- There is a least depth at which a derivation has its value. -/
theorem exists_least_depth {depth : Nat} {derivation : Derivation} {result : Except Fault Json}
    (h : d.derive? depth derivation = some result) :
    ∃ least < depth, d.derive? (least + 1) derivation = some result ∧
      d.derive? least derivation = none := by
  induction depth with
  | zero => contradiction
  | succ depth ih =>
    cases hbefore : d.derive? depth derivation with
    | none => exact ⟨depth, Nat.lt_succ_self depth, h, hbefore⟩
    | some before =>
      have hsame : before = result := by
        rw [derive?_succ hbefore] at h
        exact Option.some.inj h
      obtain ⟨least, hlt, hvalue, hnone⟩ := ih (hsame ▸ hbefore)
      exact ⟨least, Nat.lt_succ_of_lt hlt, hvalue, hnone⟩

/-- Names without repetitions that are computed are at most as many as there are definitions. -/
theorem length_le_of_computed {names : List String} (distinct : names.Nodup)
    (computed : ∀ name ∈ names, ∃ derivation, d.computed.lookup name = some derivation) :
    names.length ≤ d.computed.length := by
  have hsubset : names ⊆ d.computed.map Prod.fst := by
    intro name hname
    obtain ⟨derivation, hlookup⟩ := computed name hname
    obtain ⟨before, after, hcomputed, -⟩ := List.lookup_eq_some_iff.1 hlookup
    simp [hcomputed]
  have := (distinct.subperm hsubset).length_le
  rwa [List.length_map] at this

/-- A derivation that has its value at a depth is none of those that need more. -/
theorem notMem_of_deeper {depth : Nat} {name : String} {derivation : Derivation}
    {result : Except Fault Json} {others : List String}
    (lookup : d.computed.lookup name = some derivation)
    (h : d.derive? depth derivation = some result)
    (deeper : ∀ other ∈ others, ∃ derivation, d.computed.lookup other = some derivation ∧
      d.derive? depth derivation = none) : name ∉ others := by
  intro hname
  obtain ⟨same, hsame, none⟩ := deeper name hname
  rw [lookup] at hsame
  cases hsame
  rw [h] at none
  contradiction

/-- A derivation has one value. -/
theorem derive?_unique {depth other : Nat} {derivation : Derivation}
    {result result' : Except Fault Json} (h : d.derive? depth derivation = some result)
    (h' : d.derive? other derivation = some result') : result = result' := by
  have below := derive?_mono (Nat.le_max_left depth other) h
  rw [derive?_mono (Nat.le_max_right depth other) h'] at below
  exact (Option.some.inj below).symm

section bound

variable {P : Nat → String → Derivation → Prop}

/-- A derivation inside others, all of them `busy`: what is left of the bound is enough for it.  The
others need a depth that it does not. -/
theorem of_busy
    (step : ∀ {left depth name derivation result}, d.computed.lookup name = some derivation →
      d.derive? (depth + 1) derivation = some result →
      (∀ {name derivation result}, d.computed.lookup name = some derivation →
        d.derive? depth derivation = some result → P left name derivation) →
      P (left + 1) name derivation)
    (left : Nat) {depth : Nat} {name : String} {derivation : Derivation}
    {result : Except Fault Json} {busy : List String}
    (lookup : d.computed.lookup name = some derivation)
    (h : d.derive? depth derivation = some result) (distinct : busy.Nodup)
    (deeper : ∀ other ∈ busy, ∃ derivation, d.computed.lookup other = some derivation ∧
      d.derive? depth derivation = none)
    (enough : d.computed.length ≤ left + busy.length) : P left name derivation := by
  induction left generalizing depth name derivation result busy with
  | zero =>
    -- these would be more names than there are
    have distinct' : (name :: busy).Nodup :=
      List.nodup_cons.2 ⟨notMem_of_deeper lookup h deeper, distinct⟩
    have hlength := length_le_of_computed (d := d) distinct' fun other hother => by
      rcases List.mem_cons.1 hother with rfl | hother
      · exact ⟨derivation, lookup⟩
      · obtain ⟨derivation, hlookup, -⟩ := deeper other hother
        exact ⟨derivation, hlookup⟩
    rw [List.length_cons] at hlength
    omega
  | succ left ih =>
    have distinct' : (name :: busy).Nodup :=
      List.nodup_cons.2 ⟨notMem_of_deeper lookup h deeper, distinct⟩
    obtain ⟨least, hlt, hvalue, hnone⟩ := exists_least_depth h
    -- at the depth of what it reads, the derivation itself has no value
    have deeper' : ∀ other ∈ name :: busy, ∃ derivation,
        d.computed.lookup other = some derivation ∧ d.derive? least derivation = none := by
      intro other hother
      rcases List.mem_cons.1 hother with rfl | hother
      · exact ⟨derivation, lookup, hnone⟩
      · obtain ⟨derivation, hlookup, hdeeper⟩ := deeper other hother
        refine ⟨derivation, hlookup, Option.eq_none_iff_forall_ne_some.2 fun value hv => ?_⟩
        rw [derive?_mono (Nat.le_of_lt hlt) hv] at hdeeper
        contradiction
    have enough' : d.computed.length ≤ left + (name :: busy).length := by
      rw [List.length_cons]
      omega
    exact step lookup hvalue fun lookup' h' => ih lookup' h' distinct' deeper' enough'

/-- What holds of a derivation because it holds, with one less of the bound left, of all that it may
need, holds with the whole bound of every derivation that comes to a value. -/
theorem bound_induction
    (step : ∀ {left depth name derivation result}, d.computed.lookup name = some derivation →
      d.derive? (depth + 1) derivation = some result →
      (∀ {name derivation result}, d.computed.lookup name = some derivation →
        d.derive? depth derivation = some result → P left name derivation) →
      P (left + 1) name derivation)
    {depth : Nat} {name : String} {derivation : Derivation} {result : Except Fault Json}
    (lookup : d.computed.lookup name = some derivation)
    (h : d.derive? depth derivation = some result) : P d.computed.length name derivation :=
  of_busy (P := P) step d.computed.length lookup h List.nodup_nil (by simp) (Nat.le_add_right _ _)

end bound

/-- What is left of the bound gives a derivation its value, if it gives all that it reads theirs. -/
theorem derive_step {left depth : Nat} {name : String} {derivation : Derivation}
    {result : Except Fault Json} (h : d.derive? (depth + 1) derivation = some result)
    (inner : ∀ {name derivation result}, d.computed.lookup name = some derivation →
      d.derive? depth derivation = some result → d.derive left name derivation = result) :
    d.derive (left + 1) name derivation = result := by
  rw [derive]
  refine Derivation.value_of_value? (fun expr seen hseen => ?_) h
  exact getWith_of_get? (fun _ _ _ => inner) hseen

/-- **The bound is no restriction**: derivations that come to a value run at most as many one inside
the other as there are computed members. -/
theorem derive_of_derive? {depth : Nat} {name : String} {derivation : Derivation}
    {result : Except Fault Json} (lookup : d.computed.lookup name = some derivation)
    (h : d.derive? depth derivation = some result) :
    d.derive d.computed.length name derivation = result := by
  refine bound_induction (P := fun left name derivation => ∀ {depth result},
    d.derive? depth derivation = some result → d.derive left name derivation = result) ?_ lookup h h
  intro left depth name derivation result _ hvalue inner depth' result' h'
  rw [derive?_unique h' hvalue]
  exact derive_step hvalue fun lookup h => inner lookup h h

end Document

namespace Store

variable {s : Store}

/-- **Reads of a store are look-ups in plain data.** An expression that is no path is refused.  If
the path starts with no computed member, all its segments are followed from the data of the store.
Otherwise the others are followed from the value of that member, whose own reads are such look-ups
as well, as deep as they go; a member of the data with its name is never looked at, and a fault of
the derivation is that of the read. -/
theorem Reachable.get_leads (h : s.Reachable) (expr : String) :
    (Path.parse? expr = none → s.get expr = .error (.invalidExpression expr)) ∧
    ∀ path, Path.parse? expr = some path →
      (s.computed.lookup path.head = none → ∀ result,
        s.get expr = result ↔ path.Leads path.segments s.toJson result) ∧
      ∀ derivation, s.computed.lookup path.head = some derivation →
        (∀ fault, s.document.derive s.computed.length path.head derivation = .error fault →
          s.get expr = .error fault) ∧
        (∀ value, s.document.derive s.computed.length path.head derivation = .ok value →
          ∀ result, s.get expr = result ↔ path.Leads path.segments.tail value result) ∧
        ∀ depth value, s.document.derive? depth derivation = some value →
          s.document.derive s.computed.length path.head derivation = value := by
  rw [h.get_document]
  refine ⟨fun parsed => ?_, fun path parsed =>
    ⟨fun plain result => ?_, fun derivation lookup => ?_⟩⟩
  · rw [Document.get, Document.getWith, parsed]
  · have hget : s.document.get expr =
        (s.toJson.descendAll path.segments).mapError path.refusalFault := by
      rw [Document.get, Document.getWith_eq _ _ parsed]
      simp only [document, plain]
    rw [hget, Path.leads_iff, eq_comm]
  · refine ⟨fun fault hfault => ?_, fun value hvalue result => ?_, fun depth value hvalue => ?_⟩
    · rw [Document.get, Document.getWith_eq _ _ parsed]
      simp only [document, lookup] at hfault ⊢
      rw [hfault]
    · have hget : s.document.get expr =
          (value.descendAll path.segments.tail).mapError path.refusalFault := by
        rw [Document.get, Document.getWith_eq _ _ parsed]
        simp only [document, lookup] at hvalue ⊢
        rw [hvalue]
      rw [hget, Path.leads_iff, eq_comm]
    · exact Document.derive_of_derive? lookup hvalue

/-- Data with a member that a computed one hides. -/
def cartData : Json :=
  .object [("items", .array [.integer 3, .integer 4]), ("total", .integer 0)]

/-- The computed member; it reads another one. -/
def cartTotal : Derivation :=
  .read true "second" fun seen => .done (seen.map fun second => .object [("sum", second)])

/-- The store; the other computed member reads the data. -/
def cart : Store := ((ofJson cartData).define "total" cartTotal).define "second" (.get "items.+01")

/-- A look-up in the data and in the value of a computed member, with a length and two segments that
lead nowhere. -/
theorem get_cart : cart.Reachable ∧
    cart.get " items . length" = .ok (.integer 2) ∧
    cart.get "items.2.name" = .error (.unresolvable "items.2.name" "2") ∧
    cart.get "total.sum" = .ok (.integer 4) ∧
    cart.get "total.0" = .error (.unresolvable "total.0" "0") := by
  have reachable : cart.Reachable := .define _ _ (.define _ _ (.ofJson _))
  have data : cart.toJson = cartData := toJson_ofJson cartData
  have second : Path.parse? "second" = some ⟨["second"], by decide, by decide⟩ := by
    decide +kernel
  have items : Path.parse? "items.+01" = some ⟨["items", "+01"], by decide, by decide⟩ := by
    decide +kernel
  have index : index? "+01" = some 1 := by decide +kernel
  -- the computed member needs two derivations, one inside the other
  have deep : cart.document.derive? 2 cartTotal = some (.ok (.object [("sum", .integer 4)])) := by
    have computed : cart.computed = [("total", cartTotal), ("second", .get "items.+01")] := rfl
    rw [document, data, computed]
    simp [Document.derive?, Document.get?, Document.derivationAt?, Document.getWith,
      Document.resolveWith, Derivation.value?, Derivation.get, cartTotal, cartData, second, items,
      index, Path.head, Json.descendAll, Json.descend, List.lookup_cons, Except.map,
      Except.mapError]
  have derived (expr : String) (path : Path) (parsed : Path.parse? expr = some path)
      (head : path.head = "total") := by
    have lookup : cart.computed.lookup path.head = some cartTotal := by rw [head]; rfl
    obtain ⟨-, hvalue, hdeep⟩ := ((reachable.get_leads expr).2 path parsed).2 cartTotal lookup
    exact hvalue _ (hdeep 2 _ deep)
  refine ⟨reachable, ?_, ?_, ?_, ?_⟩
  · refine (((reachable.get_leads " items . length").2 ⟨["items", "length"], by decide, by decide⟩
      (by decide +kernel)).1 rfl _).2 (.found ?_)
    rw [data]
    rfl
  · have parsed : Path.parse? "items.2.name" =
        some ⟨["items", "2", "name"], by decide, by decide⟩ := by decide +kernel
    refine (((reachable.get_leads "items.2.name").2 _ parsed).1 rfl _).2
      (.missing ["items"] (.array [.integer 3, .integer 4]) rfl ?_ ?_)
    · rw [data]
      rfl
    · decide +kernel
  · exact (derived "total.sum" ⟨["total", "sum"], by decide, by decide⟩ (by decide +kernel) rfl _).2
      (.found rfl)
  · exact (derived "total.0" ⟨["total", "0"], by decide, by decide⟩ (by decide +kernel) rfl _).2
      (.missing [] (.object [("sum", .integer 4)]) rfl rfl rfl)

end Store

end Bindery
