import Bindery.Word
import Bindery.Proofs.Decimal.Nearest
import Bindery.Proofs.Json.StrictEq
import Bindery.Proofs.Store.Overwrite
import Bindery.Proofs.Store.Scalars

namespace Bindery

/-!
# How exact strict equality is

Integers are compared exactly with integers, and floating-point numbers with each other.  Between
the two kinds an integer is rounded first, so one that the floating-point format cannot hold is also
equal to the number next to it.

* `Number.value`, `Number.RoundsTo` — the number denoted, and an integer that is lost in rounding.
* `Number.strictEq_iff` — strictly equal numbers denote the same, or one is rounded to the other.
* `Scalar.strictEq_exactness` — the laws of strict equality, and which writes it makes nothing of.
-/

namespace Number

variable {a b c : Number} {n : Int} {x y : Binary64}

/-- Whether a number has one of the forms of data: an integer of 64 bits, signed or not, or any
number of the floating-point format. -/
def InRange : Number → Prop
  | .integer n => isSigned 64 n = true ∨ isUnsigned 64 n = true
  | .float _ => True

/-- The number that is denoted. -/
def value : Number → ℚ
  | .integer n => n
  | .float x => x.value

/-- Whether the first is an integer that the floating-point format cannot hold, and the second the
number nearest to it. -/
def RoundsTo : Number → Number → Prop
  | .integer n, .float x => (∀ y : Binary64, y.value ≠ n) ∧ x.IsNearest n
  | _, _ => False

/-- The integers of JSON are at most two to the power of 64. -/
theorem InRange.natAbs_le (h : (integer n).InRange) : n.natAbs ≤ 2 ^ 64 := by
  have signed : (wordCount (64 - 1) : Int) = 9223372036854775808 := rfl
  have unsigned : (wordCount 64 : Int) = 18446744073709551616 := rfl
  simp only [InRange, isSigned, isUnsigned, signed, unsigned, Bool.and_eq_true,
    decide_eq_true_eq] at h
  omega

/-- A rounded integer has the value of a number if it is that value, or is rounded to it. -/
theorem ofInt?_sameValue_iff (h : (integer n).InRange) :
    (Binary64.ofInt? n).any (·.sameValue y) = true ↔
      y.value = n ∨ (integer n).RoundsTo (.float y) := by
  obtain ⟨x, hx⟩ := Binary64.exists_ofInt? h.natAbs_le
  rw [hx, Option.any_some, Binary64.sameValue_iff]
  constructor
  · intro same
    by_cases held : ∃ z : Binary64, z.value = n
    · obtain ⟨z, hz⟩ := held
      exact .inl (same ▸ Binary64.ofInt?_eq_value hx hz)
    · exact .inr ⟨not_exists.mp held, (Binary64.ofInt?_isNearest hx).congr same⟩
  · rintro (same | ⟨-, nearest⟩)
    · exact (Binary64.ofInt?_eq_value hx same).trans same.symm
    · exact (Binary64.ofInt?_isNearest hx).value_eq nearest

/-- **Same value, or rounding.**  Numbers are strictly equal if they denote the same, and besides
only if one of them is an integer that is rounded to the other. -/
theorem strictEq_iff (ha : a.InRange) (hb : b.InRange) :
    a.strictEq b = true ↔ a.value = b.value ∨ a.RoundsTo b ∨ b.RoundsTo a := by
  match a, b, ha, hb with
  | .integer m, .integer n, _, _ => simp [strictEq, value, RoundsTo]
  | .float x, .float y, _, _ => simp [strictEq, value, RoundsTo, Binary64.sameValue_iff]
  | .integer n, .float y, ha, _ =>
    rw [strictEq, ofInt?_sameValue_iff ha, value, value, eq_comm]
    simp [RoundsTo]
  | .float x, .integer n, _, hb =>
    rw [strictEq_comm, strictEq, ofInt?_sameValue_iff hb, value, value]
    simp [RoundsTo]

/-- What is rounded is no number of the format. -/
theorem RoundsTo.eq_of_value_eq (h : a.RoundsTo b) (same : c.value = a.value) : c = a := by
  match a, b, c, h with
  | .integer n, .float x, .integer m, _ => exact congrArg integer (Int.cast_injective same)
  | .integer n, .float x, .float y, h => exact absurd same (h.1 y)

/-- An integer is rounded to one value only. -/
theorem RoundsTo.value_eq (hb : a.RoundsTo b) (hc : a.RoundsTo c) : b.value = c.value := by
  match a, b, c, hb, hc with
  | .integer n, .float x, .float y, hb, hc => exact hb.2.value_eq hc.2

/-- Strict equality is passed on, unless an outer number is rounded to the one in the middle. -/
theorem strictEq_trans (ha : a.InRange) (hb : b.InRange) (hc : c.InRange)
    (hab : a.strictEq b = true) (hbc : b.strictEq c = true) :
    a.strictEq c = true ∨ a.RoundsTo b ∨ c.RoundsTo b := by
  rw [strictEq_iff ha hc]
  rcases (strictEq_iff ha hb).mp hab with same | rounds | rounds
  · rcases (strictEq_iff hb hc).mp hbc with same' | rounds' | rounds'
    · exact .inl (.inl (same.trans same'))
    · cases rounds'.eq_of_value_eq same
      exact .inl (.inr (.inl rounds'))
    · exact .inr (.inr rounds')
  · exact .inr (.inl rounds)
  · rcases (strictEq_iff hb hc).mp hbc with same' | rounds' | rounds'
    · cases rounds.eq_of_value_eq same'.symm
      exact .inl (.inr (.inr rounds))
    · exact .inl (.inl (rounds.value_eq rounds'))
    · exact .inr (.inr rounds')

end Number

namespace Scalar

variable {a b c : Scalar}

/-- Whether a number has one of the forms of data; other scalars have one form only. -/
def InRange : Scalar → Prop
  | .number a => a.InRange
  | _ => True

/-- The same value of the same type, numbers by what they denote. -/
def SameValue : Scalar → Scalar → Prop
  | .number a, .number b => a.value = b.value
  | a, b => a = b

/-- Whether the first is a number that is rounded to the second. -/
def RoundsTo : Scalar → Scalar → Prop
  | .number a, .number b => a.RoundsTo b
  | _, _ => False

/-- Scalars that are strictly equal are the same, or both are numbers. -/
theorem strictEq_cases (h : a.strictEq b = true) :
    a = b ∨ ∃ m n, a = .number m ∧ b = .number n ∧ m.strictEq n = true := by
  match a, b, h with
  | .null, .null, _ => exact .inl rfl
  | .bool x, .bool y, h => exact .inl (congrArg bool (eq_of_beq h))
  | .string x, .string y, h => exact .inl (congrArg string (eq_of_beq h))
  | .number m, .number n, h => exact .inr ⟨m, n, rfl, rfl, h⟩

/-- Scalars are strictly equal if they have the same value, and besides only by rounding. -/
theorem strictEq_iff (ha : a.InRange) (hb : b.InRange) :
    a.strictEq b = true ↔ a.SameValue b ∨ a.RoundsTo b ∨ b.RoundsTo a := by
  match a, b, ha, hb with
  | .number m, .number n, hm, hn => exact Number.strictEq_iff hm hn
  | .null, b, _, _ => cases b <;> simp [strictEq, SameValue, RoundsTo]
  | .bool x, b, _, _ => cases b <;> simp [strictEq, SameValue, RoundsTo]
  | .string x, b, _, _ => cases b <;> simp [strictEq, SameValue, RoundsTo]
  | .number m, .null, _, _ => simp [strictEq, SameValue, RoundsTo]
  | .number m, .bool x, _, _ => simp [strictEq, SameValue, RoundsTo]
  | .number m, .string x, _, _ => simp [strictEq, SameValue, RoundsTo]

/-- Strict equality is passed on, unless an outer number is rounded to the one in the middle. -/
theorem strictEq_trans (ha : a.InRange) (hb : b.InRange) (hc : c.InRange)
    (hab : a.strictEq b = true) (hbc : b.strictEq c = true) :
    a.strictEq c = true ∨ a.RoundsTo b ∨ c.RoundsTo b := by
  rcases strictEq_cases hab with rfl | ⟨m, n, rfl, rfl, hmn⟩
  · exact .inl hbc
  · rcases strictEq_cases hbc with rfl | ⟨n', k, same, rfl, hnk⟩
    · exact .inl hab
    · cases same
      exact Number.strictEq_trans ha hb hc hmn hnk

/-- **How exact strict equality is.**  On scalars in the forms of data it is reflexive and
symmetric, it holds of equal values of one type, and composites are equal to nothing.  Where it says
more than that, or is not passed on, an integer that the floating-point format cannot hold is
rounded to the number beside it; and a write is made nothing of in the same cases only. -/
theorem strictEq_exactness (ha : a.InRange) (hb : b.InRange) (hc : c.InRange) :
    a.strictEq a = true ∧ a.strictEq b = b.strictEq a ∧
      (a.strictEq b = true ↔ a.SameValue b ∨ a.RoundsTo b ∨ b.RoundsTo a) ∧
      (a.strictEq b = true → b.strictEq c = true →
        a.strictEq c = true ∨ a.RoundsTo b ∨ c.RoundsTo b) ∧
      (∀ u v : Json, u.strictEq v = true ↔
        ∃ s t, u = .scalar s ∧ v = .scalar t ∧ s.strictEq t = true) ∧
      ∀ (s s' : Store) (expr : String) (path : Path) (property : PropertyId) (effect : Effect),
        Path.parse? expr = some path → s.HoldsScalar expr property a →
        s.assign path (.scalar b) = .ok (effect, s') →
        effect = .unchanged ∧ s' = s ∧ (a.SameValue b ∨ a.RoundsTo b ∨ b.RoundsTo a) ∨
          effect = .replaced property ∧ s' = s.put property b := by
  have equal := strictEq_iff ha hb
  refine ⟨strictEq_self a, strictEq_comm a b, equal, strictEq_trans ha hb hc, fun u v => ?_,
    fun s s' expr path property effect hparse held hassign => ?_⟩
  · cases u <;> cases v <;> simp [Json.strictEq]
  · rcases held.of_assign hparse hassign with ⟨same, rfl, rfl⟩ | ⟨-, rfl, rfl⟩
    · exact .inl ⟨rfl, rfl, equal.mp same⟩
    · exact .inr ⟨rfl, rfl⟩

/-- Two to the power of 53, after which the format has every second integer only. -/
def twoToThe53 : Binary64 := ⟨false, Nat.pow 2 1127, by decide +kernel, by decide +kernel⟩

/-- The integer after two to the power of 53 is not the number before it. -/
theorem not_sameValue_twoToThe53 :
    ¬ SameValue (.number (.integer 9007199254740993)) (.number (.float twoToThe53)) := by
  intro same
  have : twoToThe53.signedUnits = 9007199254740993 * Binary64.unitsPerOne :=
    Binary64.value_eq_int_iff.mp same.symm
  revert this
  decide +kernel

/-- It is lost: it is rounded to that number. -/
theorem roundsTo_twoToThe53 :
    RoundsTo (.number (.integer 9007199254740993)) (.number (.float twoToThe53)) := by
  have equal := (strictEq_iff (a := .number (.integer 9007199254740993))
    (b := .number (.float twoToThe53)) (.inl (by decide)) trivial).1 (by decide +kernel)
  exact (equal.resolve_left not_sameValue_twoToThe53).resolve_right id

/-- A store with one number. -/
def counter (value : Number) : Store := .ofJson (.object [("n", .scalar (.number value))])

/-- The store holds its number under the name `n`. -/
theorem holdsScalar_counter (value : Number) :
    (counter value).HoldsScalar "n" ⟨0⟩ (.number value) :=
  ⟨rfl, rfl⟩

/-- At two to the power of 53 an integer and the next one are equal to one floating-point number,
since one of them is rounded to it; the other one can be written over it without a change. -/
theorem strictEq_exactness_atGap :
    let next : Scalar := .number (.integer 9007199254740993)
    let float : Scalar := .number (.float twoToThe53)
    let whole : Scalar := .number (.integer 9007199254740992)
    (next.InRange ∧ float.InRange ∧ whole.InRange) ∧
      (next.strictEq float = true ∧ float.strictEq whole = true ∧ next.strictEq whole = false) ∧
      (next.RoundsTo float ∨ whole.RoundsTo float) ∧
      (counter (.float twoToThe53)).assign ⟨["n"], by decide, by decide⟩ (.scalar whole) =
        .ok (.unchanged, counter (.float twoToThe53)) ∧
      (float.SameValue whole ∨ float.RoundsTo whole ∨ whole.RoundsTo float) := by
  intro next float whole
  have hnext : next.InRange := .inl (by decide)
  have hfloat : float.InRange := trivial
  have hwhole : whole.InRange := .inl (by decide)
  have hab : next.strictEq float = true := by decide +kernel
  have hbc : float.strictEq whole = true := by decide +kernel
  have hac : next.strictEq whole = false := by decide
  have kept : (counter (.float twoToThe53)).assign ⟨["n"], by decide, by decide⟩ (.scalar whole) =
      .ok (.unchanged, counter (.float twoToThe53)) :=
    ((holdsScalar_counter _).assign (Store.computed_ofJson _) rfl whole).1 hbc
  obtain ⟨-, -, -, passed, -, -⟩ := strictEq_exactness hnext hfloat hwhole
  obtain ⟨-, -, -, -, -, written⟩ := strictEq_exactness hfloat hwhole hnext
  refine ⟨⟨hnext, hfloat, hwhole⟩, ⟨hab, hbc, hac⟩, ?_, kept, ?_⟩
  · exact (passed hab hbc).resolve_left (by simp [hac])
  · rcases written _ _ "n" _ _ _ rfl (holdsScalar_counter _) kept with ⟨-, -, same⟩ | ⟨replaced, -⟩
    · exact same
    · cases replaced

/-- **A number that is lost.**  The integer after two to the power of 53 is equal to the
floating-point number before it, which is equal to another integer; written over it, it is lost. -/
theorem strictEq_inexact :
    let next : Scalar := .number (.integer 9007199254740993)
    let float : Scalar := .number (.float twoToThe53)
    let whole : Scalar := .number (.integer 9007199254740992)
    next.strictEq float = true ∧ ¬ next.SameValue float ∧
      float.strictEq whole = true ∧ next.strictEq whole = false ∧
      (counter (.float twoToThe53)).assign ⟨["n"], by decide, by decide⟩ (.scalar next) =
        .ok (.unchanged, counter (.float twoToThe53)) := by
  intro next float whole
  have hab : next.strictEq float = true := by decide +kernel
  refine ⟨hab, not_sameValue_twoToThe53, by decide +kernel, by decide, ?_⟩
  refine ((holdsScalar_counter _).assign (Store.computed_ofJson _) rfl next).1 ?_
  rw [strictEq_comm]
  exact hab

end Scalar

end Bindery
