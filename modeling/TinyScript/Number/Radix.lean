/-! Integers of 64 bits written in a radix up to sixteen. A text is read from
the left, and the first character that is no digit or that carries the value
out of range decides the error. -/

namespace TinyScript.Number.Radix

inductive ReadError where
  | empty
  | invalidDigit
  | tooLarge
  | tooSmall
  deriving DecidableEq, Repr

def ReadError.message : ReadError → String
  | .empty => "cannot parse integer from empty string"
  | .invalidDigit => "invalid digit found in string"
  | .tooLarge => "number too large to fit in target type"
  | .tooSmall => "number too small to fit in target type"

/-- The value of a digit in a radix. -/
def digit? (radix : Nat) (c : Char) : Option Nat :=
  let v :=
    if '0' ≤ c ∧ c ≤ '9' then c.toNat - '0'.toNat
    else if 'a' ≤ c ∧ c ≤ 'z' then c.toNat - 'a'.toNat + 10
    else if 'A' ≤ c ∧ c ≤ 'Z' then c.toNat - 'A'.toNat + 10
    else radix
  if v < radix then some v else none

def least : Int := Int64.minValue.toInt

def greatest : Int := Int64.maxValue.toInt

/-- Appends digits to a value, downwards when `negative`. -/
def extend (radix : Nat) (negative : Bool) (value : Int) : List Char → Except ReadError Int
  | [] => .ok value
  | c :: cs =>
    match digit? radix c with
    | none => .error .invalidDigit
    | some d =>
      let next := if negative then value * radix - d else value * radix + d
      if next < least then .error .tooSmall
      else if greatest < next then .error .tooLarge
      else extend radix negative next cs

/-- A number with an optional sign. -/
def read (radix : Nat) : List Char → Except ReadError Int
  | [] => .error .empty
  | ['+'] => .error .invalidDigit
  | ['-'] => .error .invalidDigit
  | '+' :: cs => extend radix false 0 cs
  | '-' :: cs => extend radix true 0 cs
  | cs => extend radix false 0 cs

end TinyScript.Number.Radix
