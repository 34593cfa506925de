import TinyScript.Number.Double

/-! Programs as they are written: statements over expressions, names and types
still text. -/

namespace TinyScript.Ast

open Number (Double)

inductive BinaryOp where
  | add | sub | mul | div | rem
  | eq | ne | lt | le | gt | ge
  deriving DecidableEq, Repr

namespace BinaryOp

def symbol : BinaryOp → String
  | add => "+" | sub => "-" | mul => "*" | div => "/" | rem => "%"
  | eq => "==" | ne => "!=" | lt => "<" | le => "<=" | gt => ">" | ge => ">="

def name : BinaryOp → String
  | add => "Add" | sub => "Sub" | mul => "Mul" | div => "Div" | rem => "Rem"
  | eq => "Eq" | ne => "Ne" | lt => "Lt" | le => "Le" | gt => "Gt" | ge => "Ge"

def all : List BinaryOp := [add, sub, mul, div, rem, eq, ne, lt, le, gt, ge]

def ofSymbol? (symbol : String) : Option BinaryOp :=
  all.find? (·.symbol == symbol)

def isComparison : BinaryOp → Bool
  | eq | ne | lt | le | gt | ge => true
  | add | sub | mul | div | rem => false

/-- How tightly an operator binds. All operators associate to the left. -/
def level : BinaryOp → Nat
  | eq | ne | lt | le | gt | ge => 1
  | add | sub => 2
  | mul | div | rem => 3

end BinaryOp

inductive Expr where
  | str (value : String)
  | int (value : Int)
  | float (value : Double)
  | bool (value : Bool)
  | var (name : String)
  | binary (op : BinaryOp) (lhs rhs : Expr)
  /-- An array literal and the type name its first element suggests. -/
  | array (hint : String) (elements : List Expr)
  | index (array index : Expr)
  | object (fields : List (String × Expr))
  | member (base : Expr) (name : String)
  | call (name : String) (args : List Expr)

/-- The declared type of a variable without an annotation. -/
def auto : String := "auto"

inductive Stmt where
  | declare (name type : String) (init : Option Expr)
  | assign (name : String) (value : Expr)
  | setElement (array index value : Expr)
  | expr (value : Expr)
  /-- Without an `else` the second branch is empty. -/
  | branch (cond : Expr) (yes no : List Stmt)
  | loopWhile (cond : Expr) (body : List Stmt)
  | doWhile (body : List Stmt) (cond : Expr)
  | loopFor (init : Option Stmt) (cond : Option Expr) (step : Option Stmt) (body : List Stmt)

abbrev Program := List Stmt

end TinyScript.Ast
