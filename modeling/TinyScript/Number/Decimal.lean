import TinyScript.Number.Double

/-! Decimal notation of doubles. Reading takes an optional sign, digits with an
optional point, and an optional power of ten, or a name for infinity or for no
number, and gives the nearest double. Writing is positional, with the fewest
digits that read back. -/

namespace TinyScript.Number

/-- `digits * 10 ^ exponent` -/
structure Decimal where
  digits : Nat
  exponent : Int
  deriving DecidableEq, Repr

namespace Decimal

/-- The value of a list of digit characters. -/
def value (cs : List Char) : Nat :=
  cs.foldl (fun n c => n * 10 + (c.toNat - '0'.toNat)) 0

/-- The nearest double. A number with `n` digits is below `10 ^ (n + exponent)`,
so far beyond either end of the range there is nothing to compute. -/
def toDouble (negative : Bool) (d : Decimal) : Double :=
  if d.digits = 0 then Double.ofMagnitude negative 0
  else
    let top : Int := (Nat.toDigits 10 d.digits).length + d.exponent
    if 310 < top then Double.infinity negative
    else if top < -330 then Double.ofMagnitude negative 0
    else if 0 ≤ d.exponent then
      Double.ofRatio negative (d.digits * tenTo d.exponent.toNat) 1
    else
      Double.ofRatio negative d.digits (tenTo (-d.exponent).toNat)

/-- Digits off the front. -/
def splitDigits (cs : List Char) : List Char × List Char :=
  (cs.takeWhile Char.isDigit, cs.dropWhile Char.isDigit)

/-- A sign off the front: whether it is a minus, and what follows. -/
def splitSign : List Char → Bool × List Char
  | '-' :: cs => (true, cs)
  | '+' :: cs => (false, cs)
  | cs => (false, cs)

/-- What follows the digits: nothing, or `e` and a signed number. -/
def readExponent : List Char → Option Int
  | [] => some 0
  | c :: cs =>
    if c = 'e' ∨ c = 'E' then
      let (negative, cs) := splitSign cs
      let (ds, rest) := splitDigits cs
      if ds = [] ∨ rest ≠ [] then none
      else some (if negative then -(value ds : Int) else value ds)
    else none

/-- A decimal without its sign. -/
def read (cs : List Char) : Option Decimal :=
  let (whole, rest) := splitDigits cs
  let (fraction, rest) :=
    match rest with
    | '.' :: rest => splitDigits rest
    | rest => ([], rest)
  if whole = [] ∧ fraction = [] then none
  else (readExponent rest).map fun e => ⟨value (whole ++ fraction), e - fraction.length⟩

/-- A special value by name, in any case. -/
def readName (negative : Bool) (cs : List Char) : Option Double :=
  let name := cs.map Char.toLower
  if name = "inf".toList ∨ name = "infinity".toList then some (Double.infinity negative)
  else if name = "nan".toList then some (Double.nan negative)
  else none

end Decimal

namespace Double

inductive ReadError where
  | empty
  | malformed
  deriving DecidableEq, Repr

def ReadError.message : ReadError → String
  | .empty => "cannot parse float from empty string"
  | .malformed => "invalid float literal"

/-- The double a decimal text denotes. -/
def read (cs : List Char) : Except ReadError Double :=
  if cs = [] then .error .empty
  else
    let (negative, rest) := Decimal.splitSign cs
    match Decimal.read rest with
    | some d => .ok (d.toDouble negative)
    | none =>
      match Decimal.readName negative rest with
      | some d => .ok d
      | none => .error .malformed

/-- The numbers that read as a given positive double, as multiples of one unit:
everything between `lo` and `hi`, the ends included when `closed`, around
`mid`. -/
structure Neighbourhood where
  lo : Nat
  mid : Nat
  hi : Nat
  /-- The unit is `num / den`. -/
  num : Nat
  den : Nat
  closed : Bool
  deriving DecidableEq, Repr

/-- Half way to the next double on either side. Below a power of two doubles
are twice as dense. -/
def neighbourhood (d : Double) : Neighbourhood :=
  let m := d.significand
  let lower := if m = binade ∧ -1074 < d.exponent then 1 else 2
  let (num, den) := scale 1 (d.exponent - 2)
  { lo := 4 * m - lower, mid := 4 * m, hi := 4 * m + 2, num, den, closed := m % 2 = 0 }

/-- Whether `n * 10 ^ p` is in a neighbourhood. -/
def Neighbourhood.holds (w : Neighbourhood) (n : Nat) (p : Int) : Bool :=
  let a := n * (if 0 ≤ p then tenTo p.toNat else 1) * w.den
  let unit := (if 0 ≤ p then 1 else tenTo (-p).toNat) * w.num
  if w.closed then w.lo * unit ≤ a && a ≤ w.hi * unit
  else w.lo * unit < a && a < w.hi * unit

/-- The multiple of `10 ^ p` in a neighbourhood that is nearest to its middle,
the greater of two equally near. -/
def Neighbourhood.onGrid (w : Neighbourhood) (p : Int) : Option Decimal :=
  let a := w.mid * w.num * (if 0 ≤ p then 1 else tenTo (-p).toNat)
  let b := w.den * (if 0 ≤ p then tenTo p.toNat else 1)
  let n := a / b
  let down := w.holds n p
  let up := w.holds (n + 1) p
  if up && (!down || b ≤ 2 * (a % b)) then some ⟨n + 1, p⟩
  else if down then some ⟨n, p⟩
  else none

/-- The coarsest decimal grid with a point that reads as `d`. Seventeen digits
always suffice; the search starts with a grid too coarse to have one. -/
def shortest (d : Double) : Decimal :=
  let w := d.neighbourhood
  let bits : Int := (w.mid * w.num).log2 - (w.den.log2 : Int) + 1
  let top : Int := bits * 30103 / 100000 + 2
  ((List.range 24).findSome? fun (i : Nat) => w.onGrid (top - i)).getD ⟨0, 0⟩

end Double

/-- Digits and, where the exponent is negative, a point among them. -/
def Decimal.positional (d : Decimal) : List Char :=
  let ds := Nat.toDigits 10 d.digits
  if 0 ≤ d.exponent then ds ++ List.replicate d.exponent.toNat '0'
  else
    let places := (-d.exponent).toNat
    let ds := List.replicate (places + 1 - ds.length) '0' ++ ds
    ds.take (ds.length - places) ++ '.' :: ds.drop (ds.length - places)

/-- A double as text: never with an exponent, and with a point only before a
fraction. -/
def Double.render (d : Double) : String :=
  if d.isNaN then "NaN"
  else
    let sign := if d.isNegative then "-" else ""
    if d.isInfinite then sign ++ "inf"
    else if d.magnitude = 0 then sign ++ "0"
    else sign ++ String.ofList d.shortest.positional

end TinyScript.Number
