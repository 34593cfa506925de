import TinyScript.Ir

/-! Finding what a module only declares. A function without a body is found by its name,
among the routines of the runtime or else in the C library; the first one that is found
in neither is an error. Then the function to start with is looked for among those with a
body. -/

namespace TinyScript.Ir

/-- What is at an address of the runtime. -/
inductive Routine where
  | boundsFail
  | library (function : Library.Function)
  deriving DecidableEq, Repr

/-- The routines by the names that lead to them. Some have two names. -/
def addresses : List (String × Routine) :=
  [("__cype_bounds_fail", .boundsFail),
    ("math_sqrt", .library .mathSqrt),
    ("math_pow", .library .mathPow),
    ("math_abs_f64", .library .mathAbsF64),
    ("math_abs_i32", .library .mathAbsI32),
    ("math_sin", .library .mathSin),
    ("math_cos", .library .mathCos),
    ("math_tan", .library .mathTan),
    ("math_log", .library .mathLog),
    ("math_exp", .library .mathExp),
    ("math_gcd", .library .mathGcd),
    ("math_lcm", .library .mathLcm),
    ("math_is_prime", .library .mathIsPrime),
    ("math_fibonacci", .library .mathFibonacci),
    ("math_factorial", .library .mathFactorial),
    ("string_reverse", .library .stringReverse),
    ("string_upper", .library .stringUpper),
    ("string_lower", .library .stringLower),
    ("string_length", .library .stringLength),
    ("string_substring", .library .stringSubstring),
    ("string_find", .library .stringFind),
    ("string_concat", .library .stringConcat),
    ("free_string", .library .freeString),
    ("array_sum_i32", .library .arraySum),
    ("simd_array_sum_i32", .library .arraySum),
    ("array_max_i32", .library .arrayMax),
    ("simd_array_max_i32", .library .arrayMax),
    ("array_min_i32", .library .arrayMin),
    ("simd_array_min_i32", .library .arrayMin),
    ("array_sort_i32", .library .arraySort),
    ("array_reverse_i32", .library .arrayReverse),
    ("simd_array_multiply_i32", .library .simdArrayMultiply),
    ("simd_array_add_i32", .library .simdArrayAdd),
    ("simd_array_count_equal_i32", .library .simdArrayCountEqual),
    ("stats_mean", .library .statsMean),
    ("stats_median", .library .statsMedian),
    ("stats_stddev", .library .statsStddev),
    ("geom_distance", .library .geomDistance),
    ("geom_circle_area", .library .geomCircleArea),
    ("geom_rectangle_area", .library .geomRectangleArea),
    ("geom_triangle_area", .library .geomTriangleArea),
    ("file_read", .library .fileRead),
    ("file_write", .library .fileWrite),
    ("file_exists", .library .fileExists),
    ("random_int", .library .randomInt),
    ("random_double", .library .randomDouble),
    ("random_seed", .library .randomSeed),
    ("sleep_ms", .library .sleepMs)]

/-- The routine of the runtime under a name, if there is one. -/
def address? (name : String) : Option Routine := addresses.lookup name

/-- The functions of the C library, which every process has. -/
def cLibrary : List String := ["printf", "puts", "strcmp"]

/-- Why a module cannot be run. -/
inductive LinkError where
  | missingSymbol (name : String)
  | noMain
  /-- A module runs once. -/
  | alreadyOwned
  deriving DecidableEq, Repr

def LinkError.message : LinkError → String
  | missingSymbol name => "no runtime definition for `" ++ name ++ "`"
  | noMain =>
    "cannot find `main`: FunctionLookupError(Function not found in ExecutionEngine)"
  | alreadyOwned =>
    "failed to create the execution engine: " ++
      "This module is already owned by an ExecutionEngine."

/-- A function of a module, as linking sees it. -/
structure Linkable where
  name : String
  /-- How many blocks its body has; none if it is only declared. -/
  blocks : Nat
  deriving DecidableEq, Repr

/-- The functions of a module, in the order of their creation. -/
def Module.functions (m : Module) : List Linkable :=
  ⟨m.main.name, m.main.sections.length⟩ :: m.declarations.map fun d => ⟨d.name, 0⟩

/-- The routines that the functions without a body are mapped to. -/
def resolve : List Linkable → Except LinkError (List (String × Routine))
  | [] => .ok []
  | f :: fs =>
    if f.blocks > 0 then resolve fs
    else
      match address? f.name with
      | some r => (resolve fs).map ((f.name, r) :: ·)
      | none => if f.name ∈ cLibrary then resolve fs else .error (.missingSymbol f.name)

/-- Maps the declared functions, and then finds the function to start with. -/
def link (fs : List Linkable) : Except LinkError (List (String × Routine)) :=
  match resolve fs with
  | .error e => .error e
  | .ok mapping =>
    if fs.any fun f => f.name = "main" && f.blocks > 0 then .ok mapping else .error .noMain

end TinyScript.Ir
