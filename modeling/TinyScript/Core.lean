import TinyScript.Library.Signature
import TinyScript.Number.Double

/-! Checked programs. Every name is resolved, every conversion is written down,
and every declaration and every array literal owns a slot. Slots are numbered in
the order in which those parts of the program are complete: elements before their
literal, an initial value before its declaration. -/

namespace TinyScript.Core

open Number (Double)

structure Var where
  slot : Nat
  name : String
  type : Ty
  deriving DecidableEq, Repr

inductive ArithOp where
  | add | sub | mul | div | rem
  deriving DecidableEq, Repr

inductive CompareOp where
  | eq | ne | lt | le | gt | ge
  deriving DecidableEq, Repr

/-- What a store may do to a value of another type. -/
inductive Conversion where
  | i32ToF64 | boolToF64 | f64ToI32 | boolToI32 | i32ToBool | f64ToBool
  deriving DecidableEq, Repr

def Conversion.between? : Ty → Ty → Option Conversion
  | .i32, .f64 => some .i32ToF64
  | .bool, .f64 => some .boolToF64
  | .f64, .i32 => some .f64ToI32
  | .bool, .i32 => some .boolToI32
  | .i32, .bool => some .i32ToBool
  | .f64, .bool => some .f64ToBool
  | _, _ => none

inductive Expr where
  | str (value : String)
  | int (value : Int32)
  | float (value : Double)
  | bool (value : Bool)
  | load (var : Var)
  | arith (op : ArithOp) (lhs rhs : Expr)
  /-- Operands are two integers or two booleans. -/
  | compare (op : CompareOp) (lhs rhs : Expr)
  /-- Whether two strings are equal, or with `negated` whether they differ. -/
  | sameText (negated : Bool) (lhs rhs : Expr)
  /-- Whether an integer is not zero. -/
  | nonzero (value : Expr)
  | array (slot : Nat) (elem : Ty) (elements : List Expr)
  | element (elem : Ty) (array index : Expr)
  | length (array : Expr)
  | call (function : Library.Function) (args : List Expr)

def Expr.type : Expr → Ty
  | str _ => .str
  | int _ => .i32
  | float _ => .f64
  | bool _ => .bool
  | load v => v.type
  | arith .. => .i32
  | compare .. => .bool
  | sameText .. => .bool
  | nonzero _ => .bool
  | array _ elem _ => .array elem
  | element elem _ _ => elem
  | length _ => .i32
  | call f _ => f.signature.result

/-- A value on its way into a variable. -/
structure Stored where
  value : Expr
  convert : Option Conversion

inductive Stmt where
  | declare (var : Var) (init : Option Stored)
  | assign (var : Var) (value : Stored)
  | setElement (elem : Ty) (array index value : Expr)
  | eval (value : Expr)
  | printText (newline : Bool) (value : Expr)
  | printInt (newline : Bool) (value : Expr)
  | branch (cond : Expr) (yes no : List Stmt)
  | loopWhile (cond : Expr) (body : List Stmt)
  | doWhile (body : List Stmt) (cond : Expr)
  | loopFor (init : Option Stmt) (cond : Option Expr) (step : Option Stmt) (body : List Stmt)

abbrev Program := List Stmt

end TinyScript.Core
