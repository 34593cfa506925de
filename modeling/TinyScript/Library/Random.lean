import TinyScript.Number.Double

/-! Pseudo-random numbers: three shifts mix a 64-bit state, and a multiplication
makes a number of it. -/

namespace TinyScript.Library.Random

open Number (Double)

/-- The factor that makes numbers of states, and the state to begin with. -/
def multiplier : UInt64 := 0x2545F4914F6CDD1D

def initial : UInt64 := multiplier

def shiftRight12 (x : UInt64) : UInt64 := x ^^^ (x >>> 12)

def shiftLeft25 (x : UInt64) : UInt64 := x ^^^ (x <<< 25)

def shiftRight27 (x : UInt64) : UInt64 := x ^^^ (x >>> 27)

/-- The next state. -/
def advance (state : UInt64) : UInt64 :=
  shiftRight27 (shiftLeft25 (shiftRight12 state))

/-- The number that a state gives. -/
def output (state : UInt64) : UInt64 := state * multiplier

/-- The state a seed sets; it is odd. -/
def seed (n : Int32) : UInt64 := n.toUInt32.toUInt64 ||| 1

/-- A number between two bounds, in whichever order they are given. -/
def between (state : UInt64) (a b : Int32) : Int32 :=
  let lo := min a.toInt b.toInt
  let hi := max a.toInt b.toInt
  let span := (hi - lo + 1).toNat
  Int32.ofInt (lo + ((output state).toNat % span : Nat))

/-- A number from zero up to, not including, one: the upper 53 bits. -/
def unit (state : UInt64) : Double :=
  Double.ofRatio false (output state >>> 11).toNat (Number.twoTo 53)

end TinyScript.Library.Random
