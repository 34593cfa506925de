import TinyScript.Library.Strings
import TinyScript.Number.Double

/-! Functions of the library on arrays of 32-bit integers. -/

namespace TinyScript.Library.Arrays

open Number (Double)

def sum (xs : List Int32) : Int32 := xs.foldl (· + ·) 0

/-- The greatest element, or zero if there is none. -/
def max : List Int32 → Int32
  | [] => 0
  | x :: xs => xs.foldl (fun a b => if a < b then b else a) x

/-- The least element, or zero if there is none. -/
def min : List Int32 → Int32
  | [] => 0
  | x :: xs => xs.foldl (fun a b => if b < a then b else a) x

def sort (xs : List Int32) : List Int32 := xs.mergeSort (· ≤ ·)

def multiply (xs : List Int32) (factor : Int32) : List Int32 := xs.map (· * factor)

def add (xs : List Int32) (addend : Int32) : List Int32 := xs.map (· + addend)

def countEqual (xs : List Int32) (x : Int32) : Int32 := clampInt32 (xs.count x)

/-! ### Statistics -/

def real (x : Int32) : Float := (Double.ofInt x.toInt).toFloat

def meanOf (xs : List Float) : Float :=
  xs.foldl (· + ·) 0 / Float.ofNat xs.length

/-- The mean, or zero if there are no elements. -/
def mean (xs : List Int32) : Double :=
  if xs = [] then .zero else .ofFloat (meanOf (xs.map real))

/-- The root of the mean squared distance from the mean. -/
def deviation (xs : List Int32) : Double :=
  if xs = [] then .zero
  else
    let m := meanOf (xs.map real)
    .ofFloat (meanOf (xs.map fun x => (real x - m) * (real x - m))).sqrt

/-- The middle element in order, or the mean of the two in the middle. -/
def median (xs : List Int32) : Double :=
  let sorted := sort xs
  let n := sorted.length
  let nth (k : Nat) : Float := real (sorted.getD k 0)
  if n = 0 then .zero
  else if n % 2 = 1 then .ofFloat (nth (n / 2))
  else .ofFloat ((nth (n / 2 - 1) + nth (n / 2)) / 2)

end TinyScript.Library.Arrays
