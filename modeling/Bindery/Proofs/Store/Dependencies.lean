import Bindery.Proofs.Store.Alike
import Bindery.Proofs.Store.Lookup
import Bindery.Proofs.Store.Traversal

namespace Bindery

/-!
# What an evaluation depends on

How often the evaluation of a path reads a property, told by the path and by the derivations that it
needs, without a bound on how many of these run one inside the other.

* `Store.Reads`, `Store.Derives` — how often a read of a path, or a run of a derivation, reads a
  property on behalf of whoever asked.
* `Store.Reads.unique` — there is one such number.
* `Store.Comes` — the derivation that a path starts with comes to a value.
* `Store.Reachable.reads` — the properties that an evaluation goes through are exactly those.
-/

/-- A read that has a value has it because the derivation that it starts with has one. -/
theorem Document.exists_of_get? {d : Document} {derive? : Derivation → Option (Except Fault Json)}
    {expr : String} {path : Path} {derivation : Derivation} {seen : Except Fault Json}
    (parsed : Path.parse? expr = some path)
    (lookup : d.computed.lookup path.head = some derivation)
    (h : d.get? derive? expr = some seen) : ∃ result, derive? derivation = some result := by
  have found : d.derivationAt? expr = some derivation := by
    rw [derivationAt?, parsed, Option.bind_some, lookup]
  simp only [get?, found] at h
  obtain ⟨result, hresult, -⟩ := Option.map_eq_some_iff.1 h
  exact ⟨result, hresult⟩

namespace Store

variable {s : Store} {property : PropertyId} {path : Path} {derivation : Derivation} {m n : Nat}

mutual

/-- How often a read of a path reads a property: once if it is one of those that the path names in
the data, and for a computed member as often as its derivation does. -/
inductive Reads (s : Store) (property : PropertyId) : Path → Nat → Prop
  | through {path : Path} : s.computed.lookup path.head = none → s.Traverses path property →
      Reads s property path 1
  | past {path : Path} : s.computed.lookup path.head = none → ¬ s.Traverses path property →
      Reads s property path 0
  | computed {path : Path} {derivation : Derivation} {n : Nat} :
      s.computed.lookup path.head = some derivation → Derives s property derivation n →
      Reads s property path n

/-- How often a derivation reads a property: as often as its tracked reads do together.  Reads that
are not tracked count for nothing. -/
inductive Derives (s : Store) (property : PropertyId) : Derivation → Nat → Prop
  | done {result : Except Fault Json} : Derives s property (.done result) 0
  | malformed {isTracked : Bool} {expr : String} {next : Except Fault Json → Derivation} {n : Nat} :
      Path.parse? expr = none → Derives s property (next (s.get expr)) n →
      Derives s property (.read isTracked expr next) n
  | tracked {expr : String} {next : Except Fault Json → Derivation} {path : Path} {m n : Nat} :
      Path.parse? expr = some path → Reads s property path m →
      Derives s property (next (s.get expr)) n → Derives s property (.read true expr next) (m + n)
  | untracked {expr : String} {next : Except Fault Json → Derivation} {path : Path} {m n : Nat} :
      Path.parse? expr = some path → Reads s property path m →
      Derives s property (next (s.get expr)) n → Derives s property (.read false expr next) n

end

/-- **One number.** -/
theorem Reads.unique (h : s.Reads property path m) (h' : s.Reads property path n) : m = n := by
  revert n
  refine @Reads.rec s property (fun path m _ => ∀ {n}, s.Reads property path n → m = n)
    (fun derivation m _ => ∀ {n}, s.Derives property derivation n → m = n)
    ?through ?past ?computed ?done ?malformed ?tracked ?untracked path m h
  case through =>
    intro path plain traverses n h'
    cases h' with
    | through => rfl
    | past _ past => exact absurd traverses past
    | computed lookup => cases plain.symm.trans lookup
  case past =>
    intro path plain past n h'
    cases h' with
    | through _ traverses => exact absurd traverses past
    | past => rfl
    | computed lookup => cases plain.symm.trans lookup
  case computed =>
    intro path derivation m lookup _ ih n h'
    cases h' with
    | through plain => cases plain.symm.trans lookup
    | past plain => cases plain.symm.trans lookup
    | computed lookup' derives' =>
      cases lookup.symm.trans lookup'
      exact ih derives'
  case done =>
    intro result n h'
    cases h'
    rfl
  case malformed =>
    intro isTracked expr next m none _ ih n h'
    cases h' with
    | malformed _ rest => exact ih rest
    | tracked parsed => cases none.symm.trans parsed
    | untracked parsed => cases none.symm.trans parsed
  case tracked =>
    intro expr next path m m' parsed _ _ ihFirst ihRest n h'
    cases h' with
    | malformed none => cases none.symm.trans parsed
    | tracked parsed' first rest =>
      cases parsed.symm.trans parsed'
      rw [ihFirst first, ihRest rest]
  case untracked =>
    intro expr next path m m' parsed _ _ _ ihRest n h'
    cases h' with
    | malformed none => cases none.symm.trans parsed
    | untracked _ _ rest => exact ihRest rest

/-! ### What evaluations go through -/

variable {g : Graph} {name expr : String} {derive : String → Derivation → Reading Json}
  {left depth : Nat} {result : Except Fault Json}

/-- A read goes through what its path names in the data, or what its derivation goes through. -/
theorem reads_resolveWith (h : s.arena.Represents s.root g)
    (inner : ∀ derivation, s.computed.lookup path.head = some derivation →
      ∃ n, s.Derives property derivation n ∧
        (derive path.head derivation).trace.count property = n) :
    ∃ n, s.Reads property path n ∧
      (s.resolveWith derive path path.segments).trace.count property = n := by
  cases lookup : s.computed.lookup path.head with
  | none =>
    rw [resolveWith_plain lookup]
    obtain ⟨once, never⟩ := count_trace h lookup property
    by_cases traverses : s.Traverses path property
    · exact ⟨1, .through lookup traverses, once traverses⟩
    · exact ⟨0, .past lookup traverses, never traverses⟩
  | some derivation =>
    rw [resolveWith_computed lookup]
    obtain ⟨n, derives, count⟩ := inner derivation lookup
    exact ⟨n, .computed lookup derives, count⟩

/-- A read of an expression goes through what a read of its path goes through. -/
theorem trace_getWith (parsed : Path.parse? expr = some path) :
    (s.getWith derive expr).trace = (s.resolveWith derive path path.segments).trace := by
  rw [getWith, parsed]
  rfl

/-- A derivation goes through what its tracked reads go through, if its reads see the values that
they have. -/
theorem derives_run {get : String → Reading Json} {get? : String → Option (Except Fault Json)}
    (sees : ∀ expr seen, get? expr = some seen → (get expr).result = seen ∧ s.get expr = seen)
    (malformed : ∀ expr, Path.parse? expr = none → (get expr).trace = [])
    (reads : ∀ expr seen path, get? expr = some seen → Path.parse? expr = some path →
      ∃ n, s.Reads property path n ∧ (get expr).trace.count property = n)
    (value : derivation.value? get? = some result) :
    ∃ n, s.Derives property derivation n ∧ (derivation.run get).trace.count property = n := by
  induction derivation with
  | done ended => exact ⟨0, .done, rfl⟩
  | read isTracked expr next ih =>
    rw [Derivation.value?] at value
    obtain ⟨seen, hseen, hnext⟩ := Option.bind_eq_some_iff.1 value
    obtain ⟨sees', same⟩ := sees expr seen hseen
    obtain ⟨n, derives, count⟩ := ih seen hnext
    rw [← same] at derives
    rw [← sees'] at count
    simp only [Derivation.run, List.count_append, count]
    cases parsed : Path.parse? expr with
    | none =>
      refine ⟨n, .malformed parsed derives, ?_⟩
      rw [malformed expr parsed]
      cases isTracked <;> simp
    | some path =>
      obtain ⟨m, hreads, hcount⟩ := reads expr seen path hseen parsed
      cases isTracked with
      | true => exact ⟨m + n, .tracked parsed hreads derives, by simp [hcount]⟩
      | false => exact ⟨n, .untracked parsed hreads derives, by simp⟩

/-- What there is to show of a derivation at some bound: it comes to its value, and goes through
what it reads. -/
def Collects (s : Store) (property : PropertyId) (left : Nat) (name : String)
    (derivation : Derivation) : Prop :=
  (∀ {depth result}, s.document.derive? depth derivation = some result →
    s.document.derive left name derivation = result) ∧
  ∃ n, s.Derives property derivation n ∧ (s.derive left name derivation).trace.count property = n

/-- What evaluating a computed member of the store registers, to the depth of its members. -/
theorem Reachable.collects (h : s.Reachable) (lookup : s.computed.lookup name = some derivation)
    (value : s.document.derive? depth derivation = some result) :
    s.Collects property s.computed.length name derivation := by
  obtain ⟨g, hg⟩ := h.represents
  refine Document.bound_induction (d := s.document) (P := s.Collects property) ?_ lookup value
  intro left depth name derivation result _ hvalue inner
  refine ⟨fun h' => ?_, ?_⟩
  · rw [Document.derive?_unique h' hvalue]
    exact Document.derive_step hvalue fun lookup h => (inner lookup h).1 h
  · rw [derive]
    refine derives_run ?_ ?_ ?_ hvalue
    · intro expr seen hseen
      rw [getWith_document hg (derive_document hg left)]
      rw [h.get_document, Document.get]
      exact ⟨Document.getWith_of_get? (fun _ _ _ lookup h => (inner lookup h).1 h) hseen,
        Document.getWith_of_get? (fun _ _ _ => Document.derive_of_derive?) hseen⟩
    · intro expr none
      rw [getWith, none]
    · intro expr seen path hseen parsed
      rw [trace_getWith parsed]
      refine reads_resolveWith hg fun derivation lookup => ?_
      obtain ⟨result, hresult⟩ := Document.exists_of_get? parsed lookup hseen
      exact (inner lookup hresult).2

/-- The derivation that a path starts with, if there is one, comes to a value. -/
def Comes (s : Store) (path : Path) : Prop :=
  ∀ derivation, s.computed.lookup path.head = some derivation →
    ∃ depth result, s.document.derive? depth derivation = some result

/-- **Exact dependencies.**  A read goes through each property as often as it reads it. -/
theorem Reachable.reads (h : s.Reachable) (comes : s.Comes path) (property : PropertyId) :
    ∃ n, s.Reads property path n ∧ (s.read path).trace.count property = n := by
  obtain ⟨g, hg⟩ := h.represents
  refine reads_resolveWith hg fun derivation lookup => ?_
  obtain ⟨depth, result, value⟩ := comes derivation lookup
  exact (h.collects lookup value).2

end Store

end Bindery
