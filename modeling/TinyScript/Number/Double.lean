import TinyScript.Number.Power

/-! Double-precision numbers as their bit patterns. What can be said exactly is
computed on the fields: the nearest double to a ratio of naturals, truncation to
an integer, the test against zero. Only the arithmetic that a program asks for
goes through `Float`. -/

namespace TinyScript.Number

structure Double where
  bits : UInt64
  deriving DecidableEq, Repr

namespace Double

/-- The bit that holds the sign. -/
def signBit : Nat := 0x8000000000000000

def isNegative (d : Double) : Bool := signBit ≤ d.bits.toNat

/-- The pattern without its sign. -/
def magnitude (d : Double) : Nat := d.bits.toNat % signBit

/-- The magnitude of infinity; greater ones are not numbers. -/
def infiniteMagnitude : Nat := 0x7FF0000000000000

def isNaN (d : Double) : Bool := infiniteMagnitude < d.magnitude

def isInfinite (d : Double) : Bool := d.magnitude == infiniteMagnitude

def isFinite (d : Double) : Bool := d.magnitude < infiniteMagnitude

/-- Puts a sign on a magnitude. -/
def ofMagnitude (negative : Bool) (m : Nat) : Double :=
  ⟨UInt64.ofNat (if negative then signBit + m else m)⟩

def zero : Double := ⟨0⟩

def infinity (negative : Bool) : Double := ofMagnitude negative infiniteMagnitude

def nan (negative : Bool) : Double := ofMagnitude negative 0x7FF8000000000000

/-- How many magnitudes share an exponent. -/
def binade : Nat := 0x10000000000000

/-- A finite double is `significand * 2 ^ exponent`, up to sign. -/
def significand (d : Double) : Nat :=
  if d.magnitude < binade then d.magnitude else binade + d.magnitude % binade

def exponent (d : Double) : Int :=
  max (d.magnitude / binade : Nat) 1 - 1075

/-- `2 ^ e`, for an exponent whose power is neither subnormal nor infinite. -/
def powerOfTwo (e : Int) : Double := ofMagnitude false ((e + 1023).toNat * binade)

/-- `n * 2 ^ e` as a ratio of naturals. -/
def scale (n : Nat) (e : Int) : Nat × Nat :=
  if 0 ≤ e then (n * twoTo e.toNat, 1) else (n, twoTo (-e).toNat)

/-- The nearest integer to a quotient, a half going to the even neighbour. -/
def divNearest (a b : Nat) : Nat :=
  let q := a / b
  let r := a % b
  if 2 * r > b ∨ (2 * r = b ∧ q % 2 = 1) then q + 1 else q

/-- The exponent that gives a positive ratio a significand of 53 bits, or the
least exponent there is. -/
def exponentOf (num den : Nat) : Int :=
  let guess : Int := (num.log2 : Int) - den.log2 - 53
  let (a, b) := scale num (-guess)
  max (if a / (b * den) < 2 * binade then guess else guess + 1) (-1074)

/-- The magnitude nearest to `num / den`. Counting magnitudes from zero, as
many to each exponent, a significand that rounds up to the next power of two
lands on the next exponent by itself. -/
def nearestMagnitude (num den : Nat) : Nat :=
  if num = 0 then 0
  else
    let e := exponentOf num den
    let (a, b) := scale num (-e)
    min ((e + 1074).toNat * binade + divNearest a (b * den)) infiniteMagnitude

/-- The nearest double to `num / den`. -/
def ofRatio (negative : Bool) (num den : Nat) : Double :=
  ofMagnitude negative (nearestMagnitude num den)

def ofInt (n : Int) : Double :=
  ofRatio (n < 0) n.natAbs 1

/-- A finite double without its fraction. -/
def truncate (d : Double) : Int :=
  let (a, b) := scale d.significand d.exponent
  let n : Int := (a / b : Nat)
  if d.isNegative then -n else n

/-- The 32-bit integer nearest to the truncated value; a NaN gives zero. -/
def toInt32 (d : Double) : Int32 :=
  if d.isNaN then 0
  else if d.isFinite ∧ Int32.minValue.toInt ≤ d.truncate ∧ d.truncate ≤ Int32.maxValue.toInt then
    Int32.ofInt d.truncate
  else if d.isNegative then Int32.minValue else Int32.maxValue

/-- A number other than zero. -/
def isNonzero (d : Double) : Bool :=
  !d.isNaN && d.magnitude != 0

def abs (d : Double) : Double := ofMagnitude false d.magnitude

def toFloat (d : Double) : Float := Float.ofBits d.bits

def ofFloat (x : Float) : Double := ⟨x.toBits⟩

end Double

end TinyScript.Number
