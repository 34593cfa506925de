import Mathlib.Data.Int.GCD
import TinyScript.Library.Call

/-! Divisors and multiples of 32-bit integers. Taking the absolute value leaves the least
integer negative, so Euclid's algorithm can meet numbers of both signs and change the sign at
every step. Up to the sign its remainders are those of the magnitudes, and so is the result
(`natAbs_euclid`). The one remainder that overflows, of the least integer by minus one, never
comes up: before each step the least integer stands beside a magnitude only (`Balanced`). The
least common multiple comes out of wrapping operations alone, which lose all but its last 32
bits and its sign; the absolute value takes the sign away. -/

namespace TinyScript.Library

/-! ### Operations that fail

The same computations, given up at the first operation that has no result. -/

/-- Euclid's algorithm with a remainder that overflows where the quotient is out of range. -/
def euclid? (a b : Int32) : Option Int32 :=
  if b = 0 then some a
  else if a = Int32.minValue ∧ b = -1 then none
  else euclid? b (a % b)
termination_by b.toInt.natAbs
decreasing_by exact natAbs_toInt_mod_lt (by assumption)

def gcd? (a b : Int32) : Option Int32 :=
  euclid? (absWrapping a) (absWrapping b)

/-- The quotient that wraps around where it is out of range. There is none by zero. -/
def quotient? (a b : Int32) : Option Int32 :=
  if b = 0 then none else some (a / b)

def lcm? (a b : Int32) : Option Int32 := do
  let g ← gcd? a b
  if g = 0 then return 0
  return absWrapping ((← quotient? a g) * b)

/-! ### Absolute values -/

theorem toInt_bounds (a : Int32) : -2147483648 ≤ a.toInt ∧ a.toInt ≤ 2147483647 := by
  have hlo := a.le_toInt
  have hhi := a.toInt_lt
  omega

theorem eq_minValue_iff {a : Int32} : a = Int32.minValue ↔ a.toInt = -2147483648 :=
  Int32.toInt_inj.symm

/-- What taking the absolute value leaves: no number is negative but the least. -/
def Magnitude (a : Int32) : Prop := 0 ≤ a.toInt ∨ a = Int32.minValue

theorem toInt_neg (a : Int32) : (-a).toInt = if a = Int32.minValue then a.toInt else -a.toInt := by
  have hbounds := toInt_bounds a
  simp only [Int32.toInt_neg, Int.bmod_eq_emod, eq_minValue_iff]
  split <;> split <;> omega

theorem toInt_absWrapping (a : Int32) :
    (absWrapping a).toInt = if a = Int32.minValue then a.toInt else a.toInt.natAbs := by
  have hbounds := toInt_bounds a
  simp only [absWrapping, apply_ite Int32.toInt, toInt_neg, Int32.lt_iff_toInt_lt, Int32.toInt_zero,
    eq_minValue_iff]
  split <;> split <;> omega

theorem absWrapping_magnitude (a : Int32) : Magnitude (absWrapping a) := by
  rw [Magnitude, eq_minValue_iff, toInt_absWrapping]
  split
  case isTrue h => exact .inr (eq_minValue_iff.1 h)
  case isFalse => omega

theorem natAbs_absWrapping (a : Int32) : (absWrapping a).toInt.natAbs = a.toInt.natAbs := by
  rw [toInt_absWrapping]
  split <;> omega

theorem absWrapping_of_nonneg {a : Int32} (h : 0 ≤ a.toInt) : absWrapping a = a := by
  rw [absWrapping, if_neg]
  rw [Int32.lt_iff_toInt_lt, Int32.toInt_zero]
  omega

/-- Words that differ in the sign have one absolute value. -/
theorem absWrapping_neg (a : Int32) : absWrapping (-a) = absWrapping a := by
  by_cases h : a = Int32.minValue
  · rw [h]
    decide
  · have hneg := toInt_neg a
    rw [if_neg h] at hneg
    have hbounds := toInt_bounds a
    have h' : -a ≠ Int32.minValue := by
      rw [Ne, eq_minValue_iff, hneg]
      omega
    rw [← Int32.toInt_inj, toInt_absWrapping, toInt_absWrapping, if_neg h, if_neg h', hneg,
      Int.natAbs_neg]

/-- The absolute value of a number's last bits has lost the sign of the number. -/
theorem absWrapping_ofInt (n : Int) :
    absWrapping (Int32.ofInt n) = absWrapping (Int32.ofNat n.natAbs) := by
  rw [← Int32.ofInt_eq_ofNat]
  rcases Int.natAbs_eq n with h | h
  · rw [← h]
  · rw [h, Int32.ofInt_neg, absWrapping_neg, Int.natAbs_neg, Int.natAbs_natCast]

/-! ### Euclid's algorithm -/

/-- The magnitude of what Euclid's algorithm gives, whatever the signs it meets. -/
theorem natAbs_euclid (a b : Int32) :
    (euclid a b).toInt.natAbs = Int.gcd a.toInt b.toInt := by
  fun_induction euclid a b with
  | case1 a => simp
  | case2 a b _ ih =>
    rw [ih, Int32.toInt_mod, Int.gcd_def, Int.natAbs_tmod, Nat.gcd_comm, ← Nat.gcd_rec,
      Nat.gcd_comm, Int.gcd_def]

theorem euclid_nonneg {a b : Int32} (ha : 0 ≤ a.toInt) (hb : 0 ≤ b.toInt) :
    0 ≤ (euclid a b).toInt := by
  fun_induction euclid a b with
  | case1 a => exact ha
  | case2 a b _ ih =>
    refine ih hb ?_
    rw [Int32.toInt_mod]
    exact Int.tmod_nonneg _ ha

/-- A dividend and a divisor of which the least integer comes with a magnitude only. -/
structure Balanced (a b : Int32) : Prop where
  divisor : a = Int32.minValue → Magnitude b
  dividend : b = Int32.minValue → Magnitude a

namespace Balanced

variable {a b : Int32}

theorem not_overflow (h : Balanced a b) : ¬ (a = Int32.minValue ∧ b = -1) := by
  rintro ⟨ha, rfl⟩
  rcases h.divisor ha with hone | hone <;> revert hone <;> decide

/-- A step of the algorithm. The remainder is less than the divisor in magnitude, so it is not
the least integer; and by the least integer it is the dividend itself, or zero. -/
theorem step (h : Balanced a b) (hb : b ≠ 0) : Balanced b (a % b) := by
  have hless := natAbs_toInt_mod_lt (a := a) hb
  have hbounds := toInt_bounds b
  constructor
  · intro hmin
    refine .inl ?_
    have hmin' := eq_minValue_iff.1 hmin
    rcases h.dividend hmin with ha | rfl
    · rw [Int32.toInt_mod]
      exact Int.tmod_nonneg _ ha
    · rw [hmin]
      decide
  · intro hmin
    rw [eq_minValue_iff] at hmin
    omega

/-- No remainder on the way fails. -/
theorem euclid?_eq (h : Balanced a b) : euclid? a b = some (euclid a b) := by
  fun_induction euclid a b with
  | case1 a => rw [euclid?, if_pos rfl]
  | case2 a b hb ih => rw [euclid?, if_neg hb, if_neg h.not_overflow, ih (h.step hb)]

end Balanced

theorem gcd?_eq (a b : Int32) : gcd? a b = some (gcd a b) :=
  Balanced.euclid?_eq ⟨fun _ => absWrapping_magnitude b, fun _ => absWrapping_magnitude a⟩

theorem natAbs_gcd (a b : Int32) : (gcd a b).toInt.natAbs = Int.gcd a.toInt b.toInt := by
  rw [gcd, natAbs_euclid, Int.gcd_def, natAbs_absWrapping, natAbs_absWrapping, Int.gcd_def]

theorem gcd_nonneg {a b : Int32} (ha : a ≠ Int32.minValue) (hb : b ≠ Int32.minValue) :
    0 ≤ gcd a b := by
  rw [Int32.le_iff_toInt_le]
  refine euclid_nonneg ?_ ?_
  · rw [toInt_absWrapping, if_neg ha]
    exact Int.natCast_nonneg _
  · rw [toInt_absWrapping, if_neg hb]
    exact Int.natCast_nonneg _

/-- **Euclid's algorithm finds the greatest common divisor** of any two words, up to the sign,
and no remainder on the way overflows. The sign is right where the least integer is not
involved. -/
theorem gcd_up_to_sign (w : World) (a b : Int32) :
    ∃ g, Function.call? w .mathGcd [.i32 a, .i32 b] = plain w (.i32 g) ∧ gcd? a b = some g ∧
      g.toInt.natAbs = Int.gcd a.toInt b.toInt ∧
      (a ≠ Int32.minValue → b ≠ Int32.minValue → 0 ≤ g) :=
  ⟨gcd a b, rfl, gcd?_eq a b, natAbs_gcd a b, gcd_nonneg⟩

theorem gcd_of_opposite_signs :
    Function.call? .initial .mathGcd [.i32 12, .i32 (-18)] = plain .initial (.i32 6) ∧
      (12 : Int32) ≠ Int32.minValue ∧ (-18 : Int32) ≠ Int32.minValue := by
  obtain ⟨g, hcall, -, habs, hnonneg⟩ := gcd_up_to_sign .initial 12 (-18)
  have hne : (12 : Int32) ≠ Int32.minValue ∧ (-18 : Int32) ≠ Int32.minValue := by decide
  have hpos : 0 ≤ g.toInt := Int32.le_iff_toInt_le.1 (hnonneg hne.1 hne.2)
  have hsix : g.toInt.natAbs = 6 := habs
  have hg : g = 6 := Int32.toInt_inj.1 (show g.toInt = 6 by omega)
  rw [← hg]
  exact ⟨hcall, hne⟩

/-- With the least integer the sign can be wrong. -/
example : gcd Int32.minValue 5 = -1 := by decide +kernel

/-! ### The least common multiple -/

/-- What the greatest common divisor leaves of one number, times the other. -/
theorem natAbs_mul_eq_lcm {a b g q : Int} (hg : g.natAbs = Int.gcd a b) (hne : g ≠ 0)
    (ha : a = g * q) : (q * b).natAbs = Int.lcm a b := by
  have hprod : g.natAbs * Int.lcm a b = g.natAbs * (q * b).natAbs := by
    calc g.natAbs * Int.lcm a b = a.natAbs * b.natAbs := by rw [hg, Int.gcd_mul_lcm]
      _ = g.natAbs * q.natAbs * b.natAbs := by rw [ha, Int.natAbs_mul]
      _ = g.natAbs * (q * b).natAbs := by rw [Nat.mul_assoc, ← Int.natAbs_mul q]
  exact (Nat.eq_of_mul_eq_mul_left (Int.natAbs_pos.2 hne) hprod).symm

/-- A quotient without remainder, times a number: the last bits of the product. -/
theorem div_mul_eq {a g : Int32} {q : Int} (hg : g.toInt ≠ 0) (ha : a.toInt = g.toInt * q)
    (b : Int32) : a / g * b = Int32.ofInt (q * b.toInt) := by
  have hquotient : a.toInt.tdiv g.toInt = q := by
    rw [ha, Int.mul_tdiv_cancel_left _ hg]
  have hdiv : a / g = Int32.ofInt q := by
    rw [← hquotient, Int32.ofInt_tdiv a.minValue_le_toInt a.toInt_le g.minValue_le_toInt g.toInt_le,
      Int32.ofInt_toInt, Int32.ofInt_toInt]
  rw [hdiv, Int32.ofInt_mul, Int32.ofInt_toInt]

theorem lcm_eq (a b : Int32) : lcm a b = absWrapping (Int32.ofNat (Int.lcm a.toInt b.toInt)) := by
  have habs := natAbs_gcd a b
  unfold lcm
  split
  case isTrue hzero =>
    rw [hzero, Int32.toInt_zero, Int.natAbs_zero, eq_comm, Int.gcd_eq_zero_iff] at habs
    rw [habs.1, habs.2]
    rfl
  case isFalse hne =>
    have hg : (gcd a b).toInt ≠ 0 := fun h => hne (Int32.toInt_inj.1 h)
    have hdvd : (gcd a b).toInt ∣ a.toInt := by
      rw [← Int.natAbs_dvd, habs]
      exact Int.gcd_dvd_left ..
    obtain ⟨q, hq⟩ := hdvd
    rw [div_mul_eq hg hq, absWrapping_ofInt, natAbs_mul_eq_lcm habs hg hq]

theorem lcm?_eq (a b : Int32) : lcm? a b = some (lcm a b) := by
  simp only [lcm?, gcd?_eq, Option.bind_eq_bind, Option.bind_some, lcm]
  split
  · rfl
  case isFalse hne =>
    rw [quotient?, if_neg hne]
    rfl

/-- **The least common multiple wraps.** For any two words it is the absolute value of the
last 32 bits of the least common multiple, and no division is by zero. -/
theorem lcm_wraps (w : World) (a b : Int32) :
    ∃ m, Function.call? w .mathLcm [.i32 a, .i32 b] = plain w (.i32 m) ∧
      Function.call? w .mathLcm [.i32 b, .i32 a] = plain w (.i32 m) ∧
      lcm? a b = some m ∧
      m = absWrapping (Int32.ofNat (Int.lcm a.toInt b.toInt)) ∧
      (Int.lcm a.toInt b.toInt ≤ Int32.maxValue.toInt →
        m.toInt = Int.lcm a.toInt b.toInt) := by
  refine ⟨lcm a b, rfl, ?_, lcm?_eq a b, lcm_eq a b, fun hle => ?_⟩
  · have hcomm : lcm b a = lcm a b := by
      rw [lcm_eq, lcm_eq, Int.lcm_comm]
    rw [← hcomm]
    rfl
  · have hmax : (Int.lcm a.toInt b.toInt : Int) ≤ 2147483647 := hle
    have hword := Int32.toInt_ofNat_of_lt (n := Int.lcm a.toInt b.toInt) (by omega)
    rw [lcm_eq, absWrapping_of_nonneg (by omega), hword]

theorem lcm_in_range :
    Function.call? .initial .mathLcm [.i32 4, .i32 (-6)] = plain .initial (.i32 12) ∧
      (Int.lcm 4 (-6) : Int) ≤ Int32.maxValue.toInt := by
  obtain ⟨m, hcall, -, -, -, hexact⟩ := lcm_wraps .initial 4 (-6)
  have hle : (Int.lcm 4 (-6) : Int) ≤ Int32.maxValue.toInt := by decide
  have hm : m = 12 := Int32.toInt_inj.1 (hexact hle)
  rw [← hm]
  exact ⟨hcall, hle⟩

end TinyScript.Library
