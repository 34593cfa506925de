import Mathlib.Data.Nat.Prime.Defs
import TinyScript.Proofs.Library.Arithmetic

/-! Primes by trial division. The search goes up from a candidate and ends at the first one
whose square is greater than the number, so it finds a divisor exactly if there is one up to the
square root; a number that is not prime has one there. The squares are computed with 64 bits. A
candidate is at most one more than the number, which has 31, so no square leaves its word. -/

namespace TinyScript.Library

/-! ### The search -/

/-- The search finds a divisor if and only if there is one between where it starts and the
square root. -/
theorem hasDivisorFrom_iff (n d : ℕ) :
    hasDivisorFrom n d = true ↔ ∃ k, d ≤ k ∧ k * k ≤ n ∧ k ∣ n := by
  fun_induction hasDivisorFrom n d with
  | case1 d hle ih =>
    rw [Bool.or_eq_true, beq_iff_eq, ← Nat.dvd_iff_mod_eq_zero, ih]
    constructor
    · rintro (hdvd | ⟨k, hk, hsquare, hdvd⟩)
      · exact ⟨d, Nat.le_refl d, hle, hdvd⟩
      · exact ⟨k, Nat.le_of_succ_le hk, hsquare, hdvd⟩
    · rintro ⟨k, hk, hsquare, hdvd⟩
      rcases Nat.eq_or_lt_of_le hk with rfl | hlt
      · exact .inl hdvd
      · exact .inr ⟨k, hlt, hsquare, hdvd⟩
  | case2 d hle =>
    refine iff_of_false Bool.false_ne_true ?_
    rintro ⟨k, hk, hsquare, -⟩
    exact hle (Nat.le_trans (Nat.mul_le_mul hk hk) hsquare)

/-- The least divisor of a number that is not prime is at most the square root. -/
theorem prime_iff_search (n : ℕ) : n.Prime ↔ 2 ≤ n ∧ hasDivisorFrom n 2 = false := by
  rw [Nat.prime_def_le_sqrt, ← Bool.not_eq_true, hasDivisorFrom_iff]
  refine and_congr_right fun _ => ⟨?_, ?_⟩
  · rintro hnone ⟨k, hk, hsquare, hdvd⟩
    exact hnone k hk (Nat.le_sqrt.2 hsquare) hdvd
  · intro hnone k hk hroot hdvd
    exact hnone ⟨k, hk, Nat.le_sqrt.1 hroot, hdvd⟩

theorem isPrime_iff (n : Int32) : isPrime n = true ↔ ∃ p : ℕ, p.Prime ∧ n.toInt = p := by
  rw [isPrime, Bool.and_eq_true, decide_eq_true_iff, Bool.not_eq_true']
  constructor
  · rintro ⟨htwo, hnone⟩
    have hcast : n.toInt = n.toInt.toNat := by omega
    exact ⟨n.toInt.toNat, (prime_iff_search _).2 ⟨by omega, hnone⟩, hcast⟩
  · rintro ⟨p, hprime, hp⟩
    obtain ⟨htwo, hnone⟩ := (prime_iff_search p).1 hprime
    rw [hp, Int.toNat_natCast]
    exact ⟨by omega, hnone⟩

/-! ### With words of 64 bits -/

/-- An integer that a signed word of 64 bits holds. -/
def Long (n : ℤ) : Prop := Int64.minValue.toInt ≤ n ∧ n ≤ Int64.maxValue.toInt

instance (n : ℤ) : Decidable (Long n) := inferInstanceAs (Decidable (_ ∧ _))

theorem le_mul_self (d : ℤ) : d ≤ d * d := by
  calc d ≤ d.natAbs := Int.le_natAbs
    _ ≤ (d.natAbs * d.natAbs : ℕ) := Int.ofNat_le.2 (Nat.le_mul_self _)
    _ = d * d := Int.natAbs_mul_self

/-- The search given up where the candidate after this one or the square leaves its word, and
where there is no remainder: by zero, or because the quotient leaves its word. -/
def hasDivisorFrom? (n d : ℤ) : Option Bool :=
  if Long (d + 1) ∧ Long (d * d) then
    if d * d ≤ n then
      if d = 0 ∨ ¬Long (n.tdiv d) then none
      else if n.tmod d = 0 then some true
      else hasDivisorFrom? n (d + 1)
    else some false
  else none
termination_by (n + 1 - d).toNat
decreasing_by
  have hle := le_mul_self d
  omega

/-- Trial division, given up where the search is. -/
def isPrime? (n : Int32) : Option Bool :=
  if 2 ≤ n.toInt then (hasDivisorFrom? n.toInt 2).map (!·) else some false

theorem long_of_le {n : ℤ} (hnonneg : 0 ≤ n) (h : n ≤ 4611686018427387904) : Long n := by
  have hmin : Int64.minValue.toInt ≤ 0 := by decide
  have hmax : 4611686018427387904 ≤ Int64.maxValue.toInt := by decide
  exact ⟨Int.le_trans hmin hnonneg, Int.le_trans h hmax⟩

/-- A candidate is at most one more than the number, so it has 32 bits at most. -/
theorem long_candidate {n d : ℕ} (hn : n < 2147483648) (hd : d ≤ n + 1) :
    Long (d + 1) ∧ Long (d * d) := by
  have hsquare : d * d ≤ 4611686018427387904 :=
    Nat.le_trans (Nat.mul_le_mul (by omega) (by omega) : d * d ≤ 2147483648 * 2147483648) (by decide)
  have hcast : (d : ℤ) * d ≤ 4611686018427387904 := by
    rw [← Int.natCast_mul]
    omega
  exact ⟨long_of_le (by omega) (by omega), long_of_le (Int.natCast_nonneg (d * d)) hcast⟩

/-- No step of the search leaves its word. The next candidate is at most one more than the
number again, since the square of this one is at most the number. -/
theorem hasDivisorFrom?_eq {n d : ℕ} (hn : n < 2147483648) (hpos : 0 < d) (hd : d ≤ n + 1) :
    hasDivisorFrom? n d = some (hasDivisorFrom n d) := by
  fun_induction hasDivisorFrom n d with
  | case1 d hle ih =>
    have hroot := Nat.le_mul_self d
    have hquotient : Long ((n : ℤ).tdiv d) := by
      have := Nat.div_le_self n d
      rw [← Int.ofNat_tdiv]
      exact long_of_le (Int.natCast_nonneg _) (by omega)
    have hdefined : ¬((d : ℤ) = 0 ∨ ¬Long ((n : ℤ).tdiv d)) := by
      rintro (hzero | hlong)
      · omega
      · exact hlong hquotient
    rw [hasDivisorFrom?, if_pos (long_candidate hn hd), if_pos (by exact_mod_cast hle),
      if_neg hdefined, ← Int.ofNat_tmod, ← Int.natCast_succ, ih (by omega) (by omega)]
    by_cases hdvd : n % d = 0
    · rw [if_pos (Int.natCast_eq_zero.2 hdvd), hdvd]
      rfl
    · rw [if_neg (mt Int.natCast_eq_zero.1 hdvd), beq_eq_false_iff_ne.2 hdvd]
      rfl
  | case2 d hle =>
    rw [hasDivisorFrom?, if_pos (long_candidate hn hd), if_neg (by exact_mod_cast hle)]

theorem isPrime?_eq (n : Int32) : isPrime? n = some (isPrime n) := by
  have hbounds := toInt_bounds n
  rw [isPrime?, isPrime]
  split
  case isTrue htwo =>
    obtain ⟨p, hp⟩ := Int.eq_ofNat_of_zero_le (show 0 ≤ n.toInt by omega)
    rw [hp] at htwo hbounds ⊢
    have hsearch : hasDivisorFrom? p 2 = some (hasDivisorFrom p 2) :=
      hasDivisorFrom?_eq (n := p) (d := 2) (by omega) (by omega) (by omega)
    rw [hsearch, Int.toNat_natCast, decide_eq_true htwo]
    rfl
  case isFalse htwo =>
    rw [decide_eq_false htwo]
    rfl

/-- **Trial division finds the primes** among the 32-bit integers, and no square or candidate
on the way leaves a word of 64 bits. -/
theorem isPrime_finds_primes (w : World) (n : Int32) :
    ∃ b, Function.call? w .mathIsPrime [.i32 n] = plain w (ofBool b) ∧ isPrime? n = some b ∧
      (b = true ↔ ∃ p : ℕ, p.Prime ∧ n.toInt = p) :=
  ⟨isPrime n, rfl, isPrime?_eq n, isPrime_iff n⟩

/-- The last candidate is the square root. -/
example : isPrime 169 = false := by decide +kernel

end TinyScript.Library
