/-! Integer functions of the library, on 32-bit integers that wrap around. -/

namespace TinyScript.Library

/-- The absolute value, except that the least integer stays as it is. -/
def absWrapping (a : Int32) : Int32 :=
  if a < 0 then -a else a

theorem natAbs_toInt_mod_lt {a b : Int32} (h : b ≠ 0) :
    (a % b).toInt.natAbs < b.toInt.natAbs := by
  have hb : b.toInt ≠ 0 := fun h0 => h (Int32.toInt_inj.1 (by simpa using h0))
  rw [Int32.toInt_mod, Int.natAbs_tmod]
  exact Nat.mod_lt _ (by omega)

/-- Euclid's algorithm with the remainder that has the dividend's sign. -/
def euclid (a b : Int32) : Int32 :=
  if b = 0 then a else euclid b (a % b)
termination_by b.toInt.natAbs
decreasing_by exact natAbs_toInt_mod_lt (by assumption)

def gcd (a b : Int32) : Int32 :=
  euclid (absWrapping a) (absWrapping b)

def lcm (a b : Int32) : Int32 :=
  if gcd a b = 0 then 0 else absWrapping (a / gcd a b * b)

/-- Whether some number from `d` up, with a square of at most `n`, divides
`n`. -/
def hasDivisorFrom (n d : Nat) : Bool :=
  if d * d ≤ n then n % d == 0 || hasDivisorFrom n (d + 1) else false
termination_by n + 1 - d
decreasing_by
  have : d ≤ d * d ∨ d = 0 := by
    rcases Nat.eq_zero_or_pos d with h | h
    · exact .inr h
    · exact .inl (Nat.le_mul_of_pos_left d h)
  omega

/-- Trial division up to the square root. -/
def isPrime (n : Int32) : Bool :=
  2 ≤ n.toInt && !hasDivisorFrom n.toInt.toNat 2

/-- The pair of Fibonacci numbers `n` places after the given one. -/
def fibonacciFrom : Nat → Int32 → Int32 → Int32
  | 0, a, _ => a
  | n + 1, a, b => fibonacciFrom n b (a + b)

/-- The Fibonacci number with an index; those before the first are zero. -/
def fibonacci (n : Int32) : Int32 :=
  fibonacciFrom n.toInt.toNat 0 1

/-- `acc` times the next `n` integers from `k` on. -/
def productFrom : Nat → Int32 → Int32 → Int32
  | 0, _, acc => acc
  | n + 1, k, acc => productFrom n (k + 1) (acc * k)

/-- The product of the integers from one to `n`. -/
def factorial (n : Int32) : Int32 :=
  productFrom n.toInt.toNat 1 1

end TinyScript.Library
