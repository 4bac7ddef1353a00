import Mathlib.Data.Nat.Dist
import Mathlib.Data.Rat.Cast.Order
import Mathlib.Tactic.FieldSimp
import Mathlib.Tactic.Linarith
import Mathlib.Tactic.Positivity
import Mathlib.Tactic.Ring
import Bindery.Decimal.Binary64

namespace Bindery

/-!
# The nearest number of the format

What rounding gives is the number nearest to a fraction, among all numbers of the format.

* `dist_roundDiv_le`, `roundDiv_tie` — no multiple is nearer than the one that division rounds to,
  and of two equally near ones it is the even one.
* `Binary64.rounded` — the magnitude that a fraction is rounded to; `Binary64.dist_rounded_le` and
  `Binary64.rounded_tie` say the same of it and all magnitudes of the format.
* `Binary64.value` — the number that is denoted.
* `Binary64.IsNearest` — the number nearest to a value, ties to the even significand.
* `Binary64.ofRatio?_isNearest`, `Binary64.ofInt?_isNearest` — rounding gives that number.
-/

section RoundDiv

variable {num den k q : Nat}

/-- Between two multiples lies the whole divisor. -/
theorem mul_add_le (below : k < q) (den : Nat) : k * den + den ≤ q * den := by
  rw [← Nat.succ_mul]
  exact Nat.mul_le_mul_right den below

/-- A quotient is rounded down if the remainder is at most a half, and up if at least a half; at a
half the result is even. -/
theorem roundDiv_cases (num den : Nat) :
    (roundDiv num den = num / den ∧ 2 * (num % den) ≤ den ∨
      roundDiv num den = num / den + 1 ∧ den ≤ 2 * (num % den)) ∧
    (2 * (num % den) = den → roundDiv num den % 2 = 0) := by
  simp only [roundDiv]
  split
  · exact ⟨.inl ⟨rfl, by omega⟩, by omega⟩
  · split
    · exact ⟨.inr ⟨rfl, by omega⟩, by omega⟩
    · exact ⟨by omega, by omega⟩

/-- **The nearest multiple.**  No multiple of the divisor is nearer than the rounded one. -/
theorem dist_roundDiv_le (pos : 0 < den) (k : Nat) :
    Nat.dist (roundDiv num den * den) num ≤ Nat.dist (k * den) num := by
  have whole : num / den * den + num % den = num := Nat.div_add_mod' num den
  have small := Nat.mod_lt num pos
  have beside : k * den ≤ num / den * den ∨ num / den * den + den ≤ k * den :=
    (Nat.lt_or_ge (num / den) k).symm.imp (Nat.mul_le_mul_right den) (mul_add_le · den)
  unfold Nat.dist
  rcases (roundDiv_cases num den).1 with ⟨down, half⟩ | ⟨up, half⟩
  · rw [down]
    omega
  · rw [up, Nat.succ_mul]
    omega

/-- **Ties to even.**  Another multiple equally near is odd, and the rounded one is even. -/
theorem roundDiv_tie (pos : 0 < den) (differ : k ≠ roundDiv num den)
    (tie : Nat.dist (k * den) num = Nat.dist (roundDiv num den * den) num) :
    roundDiv num den % 2 = 0 ∧ k % 2 = 1 := by
  have whole : num / den * den + num % den = num := Nat.div_add_mod' num den
  have small := Nat.mod_lt num pos
  have succ : (num / den + 1) * den = num / den * den + den := Nat.succ_mul _ _
  -- Only the two neighbours of the quotient are near enough.
  have beside : k = num / den ∨ k = num / den + 1 := by
    by_contra outside
    have far : k * den + den ≤ num / den * den ∨ (num / den + 1) * den + den ≤ k * den := by
      rcases Nat.lt_or_ge k (num / den) with below | above
      · exact .inl (mul_add_le below den)
      · exact .inr (mul_add_le (by omega) den)
    unfold Nat.dist at tie
    rcases (roundDiv_cases num den).1 with ⟨round, half⟩ | ⟨round, half⟩ <;> rw [round] at tie <;>
      omega
  obtain ⟨rounded, even⟩ := roundDiv_cases num den
  have half : 2 * (num % den) = den := by
    unfold Nat.dist at tie
    rcases beside with rfl | rfl <;> rcases rounded with ⟨round, -⟩ | ⟨round, -⟩ <;>
      rw [round] at tie differ <;> omega
  exact ⟨even half, by have := even half; omega⟩

/-- A multiple that is not below stays not below after rounding. -/
theorem roundDiv_le (pos : 0 < den) (h : num ≤ k * den) : roundDiv num den ≤ k := by
  have whole : num / den * den + num % den = num := Nat.div_add_mod' num den
  have down : num / den ≤ k := Nat.div_le_of_le_mul (by rwa [Nat.mul_comm])
  rcases (roundDiv_cases num den).1 with ⟨round, -⟩ | ⟨round, half⟩
  · omega
  · have : num / den ≠ k := by
      rintro rfl
      omega
    omega

/-- A multiple that is not above stays not above after rounding. -/
theorem le_roundDiv (pos : 0 < den) (h : k * den ≤ num) : k ≤ roundDiv num den := by
  have : k ≤ num / den := (Nat.le_div_iff_mul_le pos).mpr h
  rcases (roundDiv_cases num den).1 with ⟨round, -⟩ | ⟨round, -⟩ <;> omega

end RoundDiv

section Fractions

variable {unit den : Nat}

/-- The distance of two natural numbers is that of the rational numbers they are. -/
theorem cast_dist (m n : Nat) : (Nat.dist m n : ℚ) = |(m : ℚ) - n| := by
  rcases Nat.le_total m n with h | h
  · rw [Nat.dist_eq_sub_of_le h, Nat.cast_sub h, abs_sub_comm, abs_of_nonneg]
    exact sub_nonneg.mpr (Nat.cast_le.mpr h)
  · rw [Nat.dist_eq_sub_of_le_right h, Nat.cast_sub h, abs_of_nonneg]
    exact sub_nonneg.mpr (Nat.cast_le.mpr h)

/-- The distance of two fractions is one of whole numbers on their common denominator. -/
theorem abs_div_sub_div (unit_pos : 0 < unit) (den_pos : 0 < den) (m n : Nat) :
    |(m / unit : ℚ) - n / den| = (Nat.dist (m * den) (n * unit) : ℚ) / (den * unit) := by
  have hu : (0 : ℚ) < unit := Nat.cast_pos.mpr unit_pos
  have hd : (0 : ℚ) < den := Nat.cast_pos.mpr den_pos
  rw [cast_dist, div_sub_div _ _ hu.ne' hd.ne', abs_div, abs_of_pos (mul_pos hu hd)]
  push_cast
  rw [mul_comm (unit : ℚ) n, mul_comm (unit : ℚ) den]

/-- The distance of fractions of opposite sign is their sum. -/
theorem abs_div_add_div (unit_pos : 0 < unit) (den_pos : 0 < den) (m n : Nat) :
    |(m / unit : ℚ) + n / den| = ((m * den + n * unit : Nat) : ℚ) / (den * unit) := by
  have hu : (0 : ℚ) < unit := Nat.cast_pos.mpr unit_pos
  have hd : (0 : ℚ) < den := Nat.cast_pos.mpr den_pos
  rw [abs_of_nonneg (by positivity), div_add_div _ _ hu.ne' hd.ne']
  push_cast
  rw [mul_comm (unit : ℚ) n, mul_comm (unit : ℚ) den]

end Fractions

namespace Binary64

section Grid

variable {u v num den : Nat}

/-- The distance from a magnitude to the next larger one of the format, in units. -/
def gap (units : Nat) : Nat := 2 ^ (units.log2 - 52)

/-- Whether the significand of a magnitude is even. -/
def IsEvenMagnitude (units : Nat) : Prop := units / gap units % 2 = 0

/-- The magnitude that a fraction of units is rounded to. -/
def rounded (num den : Nat) : Nat := roundDiv num (den * gap (num / den)) * gap (num / den)

/-- The binary length of a product is bounded by those of its factors. -/
theorem log2_mul_lt {i j : Nat} (pos : 0 < i + j) (hu : u < 2 ^ i) (hv : v ≤ 2 ^ j) :
    (u * v).log2 < i + j := by
  by_cases zero : u * v = 0
  · rw [zero, Nat.log2_zero]
    exact pos
  · refine (Nat.log2_lt zero).mpr ?_
    rw [Nat.pow_add]
    exact Nat.mul_lt_mul_of_lt_of_le hu hv (Nat.two_pow_pos j)

theorem gap_pos (u : Nat) : 0 < gap u := Nat.two_pow_pos _

/-- The gap depends on the binary length only, and up to 53 bits not even on that. -/
theorem gap_congr (h : u.log2 - 52 = v.log2 - 52) : gap u = gap v := congrArg (2 ^ ·) h

/-- The gaps of larger numbers are multiples of those of smaller ones. -/
theorem gap_dvd_gap (h : u.log2 ≤ v.log2) : gap u ∣ gap v := Nat.pow_dvd_pow 2 (by omega)

/-- A power of two above a number is a multiple of its gap. -/
theorem gap_dvd_two_pow {k : Nat} (h : u.log2 ≤ k) : gap u ∣ 2 ^ k := Nat.pow_dvd_pow 2 (by omega)

/-- A rounded quotient, scaled back, is a rounded number of gaps. -/
theorem rounded_mul (num den : Nat) :
    rounded num den * den =
      roundDiv num (den * gap (num / den)) * (den * gap (num / den)) := by
  rw [rounded, Nat.mul_assoc, Nat.mul_comm (gap _) den]

/-- A quotient is at least the power of two that its binary length gives. -/
theorem two_pow_log2_mul_le (h : num / den ≠ 0) : 2 ^ (num / den).log2 * den ≤ num :=
  (Nat.mul_le_mul_right den (Nat.log2_self_le h)).trans (Nat.div_mul_le_self num den)

/-- It is at most the next power of two. -/
theorem le_two_pow_log2_mul (pos : 0 < den) : num ≤ 2 ^ ((num / den).log2 + 1) * den :=
  ((Nat.div_lt_iff_lt_mul pos).mp Nat.lt_log2_self).le

/-- No multiple of the gap is nearer than the rounded magnitude. -/
theorem dist_rounded_le_of_dvd (pos : 0 < den) (onGrid : gap (num / den) ∣ u) :
    Nat.dist (rounded num den * den) num ≤ Nat.dist (u * den) num := by
  obtain ⟨k, rfl⟩ := onGrid
  rw [rounded_mul, Nat.mul_comm (gap _) k, Nat.mul_assoc, Nat.mul_comm (gap _) den]
  exact dist_roundDiv_le (Nat.mul_pos pos (gap_pos _)) k

/-- A magnitude below the binade is farther away than the start of the binade, which is on the
grid. -/
theorem dist_rounded_lt (pos : 0 < den) (below : u.log2 < (num / den).log2) :
    Nat.dist (rounded num den * den) num < Nat.dist (u * den) num := by
  have positive : num / den ≠ 0 := by
    intro zero
    rw [zero, Nat.log2_zero] at below
    exact Nat.not_lt_zero _ below
  have start := dist_rounded_le_of_dvd pos (gap_dvd_two_pow (Nat.le_refl (num / den).log2))
  have under : u < 2 ^ (num / den).log2 :=
    Nat.lt_log2_self.trans_le (Nat.pow_le_pow_right (by decide) below)
  have := two_pow_log2_mul_le positive
  have := Nat.mul_lt_mul_of_pos_right under pos
  unfold Nat.dist at start ⊢
  omega

/-- **The nearest magnitude.**  No magnitude of the format is nearer than the rounded one. -/
theorem dist_rounded_le (num : Nat) (pos : 0 < den) (short : gap u ∣ u) :
    Nat.dist (rounded num den * den) num ≤ Nat.dist (u * den) num := by
  rcases Nat.lt_or_ge u.log2 (num / den).log2 with below | above
  · exact (dist_rounded_lt pos below).le
  · exact dist_rounded_le_of_dvd pos ((gap_dvd_gap above).trans short)

/-- What fits below a power of two is rounded to nothing above it. -/
theorem rounded_le_two_pow (num : Nat) (pos : 0 < den) :
    rounded num den ≤ 2 ^ ((num / den).log2 + 1) := by
  obtain ⟨k, whole⟩ := gap_dvd_two_pow (u := num / den) (Nat.le_succ _)
  rw [rounded, whole, Nat.mul_comm (gap _) k]
  refine Nat.mul_le_mul_right _ (roundDiv_le (Nat.mul_pos pos (gap_pos _)) ?_)
  rw [Nat.mul_comm den, ← Nat.mul_assoc, Nat.mul_comm k, ← whole]
  exact le_two_pow_log2_mul pos

/-- What reaches a power of two is rounded to nothing below it. -/
theorem two_pow_le_rounded (pos : 0 < den) (h : num / den ≠ 0) :
    2 ^ (num / den).log2 ≤ rounded num den := by
  obtain ⟨k, whole⟩ := gap_dvd_two_pow (u := num / den) (Nat.le_refl _)
  rw [rounded, whole, Nat.mul_comm (gap _) k]
  refine Nat.mul_le_mul_right _ (le_roundDiv (Nat.mul_pos pos (gap_pos _)) ?_)
  rw [Nat.mul_comm den, ← Nat.mul_assoc, Nat.mul_comm k, ← whole]
  exact two_pow_log2_mul_le h

/-- Rounding leaves the binade for the next one at most. -/
theorem log2_rounded_le (num : Nat) (pos : 0 < den) :
    (rounded num den).log2 ≤ (num / den).log2 + 1 := by
  by_cases zero : rounded num den = 0
  · rw [zero, Nat.log2_zero]
    exact Nat.zero_le _
  · refine Nat.le_of_lt_succ ((Nat.log2_lt zero).mpr ?_)
    exact (rounded_le_two_pow num pos).trans_lt
      (Nat.pow_lt_pow_right (by decide) (Nat.lt_succ_self _))

/-- Rounding keeps to the grid, unless it goes up to the next power of two. -/
theorem gap_rounded (num : Nat) (pos : 0 < den) :
    gap (rounded num den) = gap (num / den) ∨
      52 ≤ (num / den).log2 ∧ rounded num den = 2 ^ ((num / den).log2 + 1) := by
  rcases Nat.lt_or_ge (num / den).log2 52 with small | large
  · left
    have := log2_rounded_le num pos
    exact gap_congr (by omega)
  · rcases Nat.lt_or_eq_of_le (rounded_le_two_pow num pos) with inside | next
    · left
      have positive : num / den ≠ 0 := by
        intro zero
        rw [zero, Nat.log2_zero] at large
        omega
      have lower := two_pow_le_rounded pos positive
      have : rounded num den ≠ 0 := ((Nat.two_pow_pos _).trans_le lower).ne'
      rw [gap, (Nat.log2_eq_iff this).mpr ⟨lower, inside⟩, gap]
    · exact .inr ⟨large, next⟩

/-- A rounded magnitude has at most 53 significant bits. -/
theorem gap_rounded_dvd (pos : 0 < den) : gap (rounded num den) ∣ rounded num den := by
  rcases gap_rounded num pos with grid | ⟨-, next⟩
  · rw [grid]
    exact Nat.dvd_mul_left _ _
  · rw [next]
    exact gap_dvd_two_pow Nat.log2_two_pow.le

/-- An even quotient gives an even significand, also where it fills up the binade. -/
theorem isEvenMagnitude_rounded (pos : 0 < den)
    (even : roundDiv num (den * gap (num / den)) % 2 = 0) : IsEvenMagnitude (rounded num den) := by
  rcases gap_rounded num pos with grid | ⟨large, next⟩
  · rw [IsEvenMagnitude, grid, rounded, Nat.mul_div_cancel _ (gap_pos _)]
    exact even
  · rw [IsEvenMagnitude, next, gap, Nat.log2_two_pow, Nat.pow_div (by omega) (by decide)]
    rw [show (num / den).log2 + 1 - ((num / den).log2 + 1 - 52) = 52 by omega]

/-- An odd multiple of the gap has an odd significand: on a coarser grid it would be even. -/
theorem not_isEvenMagnitude {k : Nat} (odd : k % 2 = 1) (above : v.log2 ≤ (gap v * k).log2)
    (short : gap (gap v * k) ∣ gap v * k) : ¬ IsEvenMagnitude (gap v * k) := by
  have same : gap (gap v * k) = gap v := by
    by_contra coarser
    have : v.log2 - 52 + 1 ≤ (gap v * k).log2 - 52 := by
      by_contra h
      exact coarser (gap_congr (by omega))
    have : gap v * 2 ∣ gap v * k := by
      refine Dvd.dvd.trans ?_ short
      rw [gap, ← Nat.pow_succ, gap]
      exact Nat.pow_dvd_pow 2 this
    have := Nat.dvd_of_mul_dvd_mul_left (gap_pos v) this
    omega
  rw [IsEvenMagnitude, same, Nat.mul_div_cancel_left _ (gap_pos v)]
  omega

/-- **Ties to even.**  Of two magnitudes equally near, the rounded one has the even significand. -/
theorem rounded_tie (pos : 0 < den) (short : gap u ∣ u) (differ : u ≠ rounded num den)
    (tie : Nat.dist (u * den) num = Nat.dist (rounded num den * den) num) :
    IsEvenMagnitude (rounded num den) ∧ ¬ IsEvenMagnitude u := by
  have above : (num / den).log2 ≤ u.log2 := by
    by_contra below
    have := dist_rounded_lt pos (Nat.lt_of_not_le below)
    omega
  obtain ⟨k, rfl⟩ := (gap_dvd_gap above).trans short
  have apart : k ≠ roundDiv num (den * gap (num / den)) := by
    rintro rfl
    exact differ (Nat.mul_comm _ _)
  rw [rounded_mul, Nat.mul_comm (gap _) k, Nat.mul_assoc, Nat.mul_comm (gap _) den] at tie
  obtain ⟨even, odd⟩ := roundDiv_tie (Nat.mul_pos pos (gap_pos _)) apart tie
  exact ⟨isEvenMagnitude_rounded pos even, not_isEvenMagnitude odd above short⟩

end Grid

variable {negative : Bool} {num den : Nat} {q : ℚ} {x y : Binary64}

/-- A number of the format is a multiple of its own gap. -/
theorem gap_units_dvd (x : Binary64) : gap x.units ∣ x.units := x.short

/-- A number of the format is even if its magnitude is, counted in gaps. -/
theorem isEven_iff (x : Binary64) : x.isEven = true ↔ IsEvenMagnitude x.units := beq_iff_eq

/-- The number of units with its sign. -/
def signedUnits (x : Binary64) : Int := if x.negative then -x.units else x.units

/-- The number that is denoted. -/
def value (x : Binary64) : ℚ := x.signedUnits / unitsPerOne

theorem unitsPerOne_pos : 0 < unitsPerOne := by decide +kernel

theorem unitsPerOne_ne_zero : (unitsPerOne : ℚ) ≠ 0 := Nat.cast_ne_zero.mpr unitsPerOne_pos.ne'

/-- Two numbers of the format denote the same if they are as many units, sign included. -/
theorem value_eq_iff : x.value = y.value ↔ x.signedUnits = y.signedUnits := by
  rw [value, value, div_left_inj' unitsPerOne_ne_zero, Int.cast_inj]

/-- A number of the format denotes an integer if it is that many times the units of one. -/
theorem value_eq_int_iff {n : Int} : x.value = n ↔ x.signedUnits = n * unitsPerOne := by
  rw [value, div_eq_iff unitsPerOne_ne_zero]
  exact_mod_cast Iff.rfl

/-- Numeric equality is equality of the numbers denoted. -/
theorem sameValue_iff : x.sameValue y = true ↔ x.value = y.value := by
  rw [value_eq_iff, signedUnits, signedUnits, sameValue]
  cases x.negative <;> cases y.negative <;> simp <;> omega

/-- No number of the format is nearer to the value; of two that are equally near, it is the one
with the even significand. -/
structure IsNearest (q : ℚ) (x : Binary64) : Prop where
  nearest : ∀ y : Binary64, |x.value - q| ≤ |y.value - q|
  even : ∀ y : Binary64, |y.value - q| = |x.value - q| →
    y.value = x.value ∨ x.isEven = true ∧ y.isEven = false

/-- Only one number is the nearest. -/
theorem IsNearest.value_eq (hx : x.IsNearest q) (hy : y.IsNearest q) : x.value = y.value := by
  have tie := le_antisymm (hx.nearest y) (hy.nearest x)
  rcases hx.even y tie.symm with same | ⟨even, -⟩
  · exact same.symm
  · rcases hy.even x tie with same | ⟨-, odd⟩
    · exact same
    · rw [even] at odd
      cases odd

/-- The fraction with its sign. -/
def signedRatio (negative : Bool) (num den : Nat) : ℚ :=
  if negative then -(num / den) else num / den

/-- How far a number is from a fraction, on a scale on which both are whole. -/
def apart (negative : Bool) (num den : Nat) (y : Binary64) : Nat :=
  if y.negative = negative then Nat.dist (y.units * den) (num * unitsPerOne)
  else y.units * den + num * unitsPerOne

/-- How far a number of the format is from a ratio, in whole numbers over one denominator. -/
theorem abs_value_sub (pos : 0 < den) (y : Binary64) :
    |y.value - signedRatio negative num den| =
      (apart negative num den y : ℚ) / (den * unitsPerOne) := by
  have same := abs_div_sub_div unitsPerOne_pos pos y.units num
  have opposite := abs_div_add_div unitsPerOne_pos pos y.units num
  rw [value, signedUnits, signedRatio, apart]
  generalize unitsPerOne = unit at same opposite
  cases y.negative <;> cases negative <;>
    simp only [Bool.false_eq_true, if_false, if_true, reduceCtorEq, Int.cast_neg, Int.cast_natCast]
  · exact same
  · rw [sub_neg_eq_add]
    exact opposite
  · rw [neg_div, ← neg_add', abs_neg]
    exact opposite
  · rw [neg_div, neg_sub_neg, abs_sub_comm]
    exact same

/-- Rounding keeps the sign and rounds the magnitude. -/
theorem ofRatio?_eq_some (h : ofRatio? negative num den = some x) :
    x.negative = negative ∧ x.units = rounded (num * unitsPerOne) den := by
  simp only [ofRatio?, ofUnits?] at h
  split at h
  · cases h
    exact ⟨rfl, rfl⟩
  · cases h

/-- A number of the other sign is at least as far away as zero. -/
theorem le_apart (pos : 0 < den) (y : Binary64) :
    Nat.dist (rounded (num * unitsPerOne) den * den) (num * unitsPerOne) ≤
      apart negative num den y := by
  rw [apart]
  split
  · exact dist_rounded_le _ pos y.gap_units_dvd
  · refine (dist_rounded_le _ pos (Nat.dvd_zero (gap 0))).trans ?_
    rw [Nat.zero_mul, Nat.dist_eq_sub_of_le (Nat.zero_le _)]
    omega

/-- Of two numbers equally near, one has the rounded magnitude, and the other an odd one. -/
theorem eq_or_even_of_apart_eq (pos : 0 < den) (sign : x.negative = negative)
    (units : x.units = rounded (num * unitsPerOne) den)
    (tie : apart negative num den y =
      Nat.dist (rounded (num * unitsPerOne) den * den) (num * unitsPerOne)) :
    y.signedUnits = x.signedUnits ∨ IsEvenMagnitude x.units ∧ ¬ IsEvenMagnitude y.units := by
  rw [apart] at tie
  split at tie
  · rename_i same
    by_cases equal : y.units = x.units
    · left
      rw [signedUnits, signedUnits, equal, same, sign]
    · rw [units] at equal ⊢
      exact .inr (rounded_tie pos y.gap_units_dvd equal tie)
  · have zero_far := dist_rounded_le (num * unitsPerOne) pos (Nat.dvd_zero (gap 0))
    have zero_dist : Nat.dist (0 * den) (num * unitsPerOne) = num * unitsPerOne := by
      rw [Nat.zero_mul, Nat.dist_eq_sub_of_le (Nat.zero_le _), Nat.sub_zero]
    -- The other side is as near only at zero, which has both signs.
    have zero : y.units = 0 := by
      have : y.units * den = 0 := by omega
      exact (Nat.mul_eq_zero.mp this).resolve_right pos.ne'
    by_cases equal : x.units = 0
    · left
      simp [signedUnits, zero, equal]
    · have tie_zero : Nat.dist (0 * den) (num * unitsPerOne) =
          Nat.dist (rounded (num * unitsPerOne) den * den) (num * unitsPerOne) := by omega
      rw [zero, units] at *
      exact .inr (rounded_tie pos (Nat.dvd_zero _) (Ne.symm equal) tie_zero)

/-- **Correct rounding.**  The number that a fraction is rounded to is the nearest one. -/
theorem ofRatio?_isNearest (pos : 0 < den) (h : ofRatio? negative num den = some x) :
    x.IsNearest (signedRatio negative num den) := by
  obtain ⟨sign, units⟩ := ofRatio?_eq_some h
  have scale : (0 : ℚ) < den * unitsPerOne :=
    mul_pos (Nat.cast_pos.mpr pos) (Nat.cast_pos.mpr unitsPerOne_pos)
  have own : apart negative num den x =
      Nat.dist (rounded (num * unitsPerOne) den * den) (num * unitsPerOne) := by
    rw [apart, if_pos sign, units]
  constructor
  · intro y
    rw [abs_value_sub pos, abs_value_sub pos, div_le_div_iff_of_pos_right scale, Nat.cast_le, own]
    exact le_apart pos y
  · intro y tie
    rw [abs_value_sub pos, abs_value_sub pos, div_left_inj' scale.ne', Nat.cast_inj, own] at tie
    rw [value_eq_iff, isEven_iff, ← Bool.not_eq_true, isEven_iff]
    exact eq_or_even_of_apart_eq pos sign units tie

/-- A fraction well inside the range is rounded to some number. -/
theorem exists_ofRatio? (pos : 0 < den) (inside : (num * unitsPerOne / den).log2 < 2097) :
    ∃ x, ofRatio? negative num den = some x := by
  have bound := log2_rounded_le (num * unitsPerOne) pos
  simp only [ofRatio?, ofUnits?]
  exact ⟨_, dif_pos ⟨gap_rounded_dvd pos, bound.trans_lt (by omega)⟩⟩

/-- An integer is the ratio of its magnitude and one, with its sign. -/
theorem signedRatio_natAbs (n : Int) : signedRatio (n < 0) n.natAbs 1 = n := by
  rw [signedRatio]
  rcases Int.lt_or_le n 0 with minus | plus
  · simp [minus, abs_of_neg]
  · simp [Int.not_lt.mpr plus, abs_of_nonneg, plus]

/-- An integer is rounded to the nearest number. -/
theorem ofInt?_isNearest {n : Int} (h : ofInt? n = some x) : x.IsNearest n := by
  rw [← signedRatio_natAbs n]
  exact ofRatio?_isNearest Nat.one_pos h

/-- An integer that the format can hold is not changed by rounding. -/
theorem ofInt?_eq_value {n : Int} (h : ofInt? n = some x) (exact : y.value = n) : x.value = n := by
  have near := (ofInt?_isNearest h).nearest y
  rw [exact, sub_self, abs_zero] at near
  exact sub_eq_zero.mp (abs_eq_zero.mp (le_antisymm near (abs_nonneg _)))

theorem unitsPerOne_le : unitsPerOne ≤ 2 ^ 1074 := by decide +kernel

/-- Numbers that denote the same are equally near. -/
theorem IsNearest.congr (h : x.IsNearest q) (same : x.value = y.value) : y.IsNearest q := by
  have units : y.units = x.units := by
    have := congrArg Int.natAbs (value_eq_iff.mp same)
    simp only [signedUnits] at this
    split at this <;> split at this <;> omega
  have even : y.isEven = x.isEven := by simp only [isEven, spacing, units]
  constructor
  · rw [← same]
    exact h.nearest
  · rw [← same, even]
    exact h.even

/-- An integer of at most 64 bits is far inside the range. -/
theorem exists_ofInt? {n : Int} (word : n.natAbs ≤ 2 ^ 64) : ∃ x, ofInt? n = some x := by
  refine exists_ofRatio? Nat.one_pos ?_
  rw [Nat.div_one]
  have : (n.natAbs * unitsPerOne).log2 < 65 + 1074 :=
    log2_mul_lt (by omega) (word.trans_lt (by decide)) unitsPerOne_le
  omega

end Binary64

end Bindery
