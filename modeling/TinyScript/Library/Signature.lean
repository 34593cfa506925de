import TinyScript.Ty

/-! The functions a program may call: two that print, and those of the library,
with the types of their parameters and results. -/

namespace TinyScript

namespace Library

inductive Function where
  | mathSqrt | mathPow | mathAbsF64 | mathAbsI32 | mathSin | mathCos | mathTan | mathLog | mathExp
  | mathGcd | mathLcm | mathIsPrime | mathFibonacci | mathFactorial
  | stringReverse | stringUpper | stringLower | stringLength | stringSubstring | stringFind
  | stringConcat | freeString
  | arraySum | arrayMax | arrayMin | arraySort | arrayReverse
  | simdArraySum | simdArrayMax | simdArrayMin | simdArrayMultiply | simdArrayAdd
  | simdArrayCountEqual
  | statsMean | statsMedian | statsStddev
  | geomDistance | geomCircleArea | geomRectangleArea | geomTriangleArea
  | fileRead | fileWrite | fileExists
  | randomInt | randomDouble | randomSeed | sleepMs
  deriving DecidableEq, Repr

structure Signature where
  params : List Ty
  result : Ty
  deriving DecidableEq, Repr

namespace Function

def name : Function → String
  | mathSqrt => "math_sqrt" | mathPow => "math_pow" | mathAbsF64 => "math_abs_f64"
  | mathAbsI32 => "math_abs_i32" | mathSin => "math_sin" | mathCos => "math_cos"
  | mathTan => "math_tan" | mathLog => "math_log" | mathExp => "math_exp"
  | mathGcd => "math_gcd" | mathLcm => "math_lcm" | mathIsPrime => "math_is_prime"
  | mathFibonacci => "math_fibonacci" | mathFactorial => "math_factorial"
  | stringReverse => "string_reverse" | stringUpper => "string_upper"
  | stringLower => "string_lower" | stringLength => "string_length"
  | stringSubstring => "string_substring" | stringFind => "string_find"
  | stringConcat => "string_concat" | freeString => "free_string"
  | arraySum => "array_sum_i32" | arrayMax => "array_max_i32" | arrayMin => "array_min_i32"
  | arraySort => "array_sort_i32" | arrayReverse => "array_reverse_i32"
  | simdArraySum => "simd_array_sum_i32" | simdArrayMax => "simd_array_max_i32"
  | simdArrayMin => "simd_array_min_i32" | simdArrayMultiply => "simd_array_multiply_i32"
  | simdArrayAdd => "simd_array_add_i32" | simdArrayCountEqual => "simd_array_count_equal_i32"
  | statsMean => "stats_mean" | statsMedian => "stats_median" | statsStddev => "stats_stddev"
  | geomDistance => "geom_distance" | geomCircleArea => "geom_circle_area"
  | geomRectangleArea => "geom_rectangle_area" | geomTriangleArea => "geom_triangle_area"
  | fileRead => "file_read" | fileWrite => "file_write" | fileExists => "file_exists"
  | randomInt => "random_int" | randomDouble => "random_double" | randomSeed => "random_seed"
  | sleepMs => "sleep_ms"

def signature : Function → Signature
  | mathSqrt | mathAbsF64 | mathSin | mathCos | mathTan | mathLog | mathExp | geomCircleArea =>
    ⟨[.f64], .f64⟩
  | mathPow | geomRectangleArea | geomTriangleArea => ⟨[.f64, .f64], .f64⟩
  | mathAbsI32 | mathIsPrime | mathFibonacci | mathFactorial => ⟨[.i32], .i32⟩
  | mathGcd | mathLcm | randomInt => ⟨[.i32, .i32], .i32⟩
  | stringReverse | stringUpper | stringLower | fileRead => ⟨[.str], .str⟩
  | stringLength | fileExists => ⟨[.str], .i32⟩
  | stringSubstring => ⟨[.str, .i32, .i32], .str⟩
  | stringFind | fileWrite => ⟨[.str, .str], .i32⟩
  | stringConcat => ⟨[.str, .str], .str⟩
  | freeString => ⟨[.str], .void⟩
  | arraySum | arrayMax | arrayMin | simdArraySum | simdArrayMax | simdArrayMin =>
    ⟨[.array .i32], .i32⟩
  | arraySort | arrayReverse => ⟨[.array .i32], .void⟩
  | simdArrayMultiply | simdArrayAdd => ⟨[.array .i32, .i32], .void⟩
  | simdArrayCountEqual => ⟨[.array .i32, .i32], .i32⟩
  | statsMean | statsMedian | statsStddev => ⟨[.array .i32], .f64⟩
  | geomDistance => ⟨[.f64, .f64, .f64, .f64], .f64⟩
  | randomDouble => ⟨[], .f64⟩
  | randomSeed | sleepMs => ⟨[.i32], .void⟩

def all : List Function :=
  [mathSqrt, mathPow, mathAbsF64, mathAbsI32, mathSin, mathCos, mathTan, mathLog, mathExp,
    mathGcd, mathLcm, mathIsPrime, mathFibonacci, mathFactorial,
    stringReverse, stringUpper, stringLower, stringLength, stringSubstring, stringFind,
    stringConcat, freeString,
    arraySum, arrayMax, arrayMin, arraySort, arrayReverse,
    simdArraySum, simdArrayMax, simdArrayMin, simdArrayMultiply, simdArrayAdd,
    simdArrayCountEqual,
    statsMean, statsMedian, statsStddev,
    geomDistance, geomCircleArea, geomRectangleArea, geomTriangleArea,
    fileRead, fileWrite, fileExists,
    randomInt, randomDouble, randomSeed, sleepMs]

def ofName? (name : String) : Option Function :=
  all.find? (·.name == name)

/-- No two functions share a name. -/
theorem ofName?_name (f : Function) : ofName? f.name = some f := by
  cases f <;> decide

end Function

end Library

/-- What a name in a call can mean. -/
inductive Builtin where
  | print (newline : Bool)
  | library (function : Library.Function)
  deriving DecidableEq, Repr

namespace Builtin

def ofName? (name : String) : Option Builtin :=
  if name = "print" then some (.print false)
  else if name = "println" then some (.print true)
  else (Library.Function.ofName? name).map .library

def isKnown (name : String) : Bool := (ofName? name).isSome

end Builtin

end TinyScript
