import TinyScript.Number.Double

/-! The length of a vector. The root of the sum of the squares is taken in
doubles, and the error that the two squares and the root have left is estimated
from differences that lose nothing and divided out in one step. Parts whose
squares would overflow or vanish are scaled first, and a part too short to show
in the sum is not squared at all. -/

namespace TinyScript.Number.Hypot

/-- Parts longer than this are scaled down before they are squared. -/
def long : Float := (Double.powerOfTwo 511).toFloat

/-- Parts shorter than this are scaled up before they are squared. -/
def short : Float := (Double.powerOfTwo (-459)).toFloat

/-- What long parts are multiplied by, and short ones divided by. -/
def unit : Float := (Double.powerOfTwo (-600)).toFloat

/-- Of two parts, one that is at most this fraction of the other is only added
to it. -/
def negligible : Float := (Double.powerOfTwo (-54)).toFloat

/-- The excess of `h * h` over `x * x + y * y`, for `0 ≤ y ≤ x ≤ h`. With `y` at
least half of `h` it is written in `h - y`, otherwise in `h - x`; either
difference is exact. -/
def excess (h x y : Float) : Float :=
  if h ≤ 2.0 * y then
    let d := h - y
    x * (2.0 * d - x) + (d - 2.0 * (x - y)) * d
  else
    let d := h - x
    2.0 * d * (x - 2.0 * y) + ((4.0 * d - y) * y + d * d)

/-- The root of the sum of two squares, corrected once. -/
def corrected (x y : Float) : Float :=
  let h := (x * x + y * y).sqrt
  h - excess h x y / (2.0 * h)

/-- The length of a vector with finite parts `0 ≤ y ≤ x`. -/
def ofOrdered (x y : Float) : Float :=
  if long < x then
    if y ≤ x * negligible then x + y else corrected (x * unit) (y * unit) / unit
  else if y < short then
    if y / negligible ≤ x then x + y else corrected (x / unit) (y / unit) * unit
  else if y ≤ x * negligible then x + y
  else corrected x y

end Hypot

/-- The length of a vector; an infinite part makes it infinite whatever the
other is. -/
def Double.hypot (x y : Double) : Double :=
  if x.isInfinite || y.isInfinite then infinity false
  else if x.isNaN || y.isNaN then nan false
  else if x.magnitude ≤ y.magnitude then .ofFloat (Hypot.ofOrdered y.abs.toFloat x.abs.toFloat)
  else .ofFloat (Hypot.ofOrdered x.abs.toFloat y.abs.toFloat)

end TinyScript.Number
