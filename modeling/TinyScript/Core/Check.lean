import TinyScript.Ast
import TinyScript.Core

/-! Checking: from a program as written to one with names, types and slots
resolved, or the first error, with the warnings raised on the way. Parts are
checked left to right, a loop's last clause after its body. Scope is flat: a
name means its latest declaration so far, in whatever block that stands. -/

namespace TinyScript.Core

inductive CheckError where
  | unknownType (name : String)
  | unknownVariable (name : String)
  | unknownFunction (name : String)
  | argumentCount (name : String) (expected actual : Nat)
  | argumentType (name : String) (position : Nat) (expected actual : Ty)
  | printArgument (type : Ty)
  | invalidOperands (op : Ast.BinaryOp) (lhs rhs : Ty)
  | lengthOfNonArray (type : Ty)
  | notAnArray (type : Ty)
  | indexType (type : Ty)
  | arrayElementType (expected actual : Ty)
  | voidValue (name : String)
  | conditionType (type : Ty)
  | incompatibleValue (name : String) (expected actual : Ty)
  | unsupported (feature : String)
  deriving DecidableEq, Repr

private def ticked (name : String) : String := "`" ++ name ++ "`"

def CheckError.message : CheckError → String
  | unknownType name => "unknown type " ++ ticked name
  | unknownVariable name => "unknown variable " ++ ticked name
  | unknownFunction name => "unknown function " ++ ticked name
  | argumentCount name expected actual =>
    ticked name ++ " takes " ++ toString expected ++ " argument(s), but " ++ toString actual ++
      " were given"
  | argumentType name position expected actual =>
    "argument " ++ toString position ++ " of " ++ ticked name ++ " must be " ++ expected.name ++
      ", found " ++ actual.name
  | printArgument type => "cannot print a value of type " ++ type.name
  | invalidOperands op lhs rhs =>
    "invalid operands for " ++ ticked op.symbol ++ ": " ++ lhs.name ++ " and " ++ rhs.name
  | lengthOfNonArray type => "`.length` on non-array type " ++ type.name
  | notAnArray type => "cannot index into a value of type " ++ type.name
  | indexType type => "array index must be i32, found " ++ type.name
  | arrayElementType expected actual =>
    "array element must be " ++ expected.name ++ ", found " ++ actual.name
  | voidValue name => ticked name ++ " does not produce a value"
  | conditionType type => "condition must be boolean or i32, found " ++ type.name
  | incompatibleValue name expected actual =>
    "cannot store a value of type " ++ actual.name ++ " into " ++ ticked name ++ " of type " ++
      expected.name
  | unsupported feature => feature ++ " is not supported"

inductive Warning where
  | inferredDefault (name : String)
  | typeMismatch (name : String) (declared actual : Ty)
  deriving DecidableEq, Repr

def Warning.message : Warning → String
  | inferredDefault name => "cannot infer the type of " ++ ticked name ++ ", defaulting to i32"
  | typeMismatch name declared actual =>
    ticked name ++ " has type " ++ declared.name ++ " but is given a value of type " ++ actual.name

namespace Check

/-- What is known at a point of the program. -/
structure Scope where
  /-- Declared variables, the latest first. -/
  vars : List Var
  /-- Slots handed out so far. -/
  slots : Nat
  /-- In the order raised. -/
  warnings : List Warning
  deriving DecidableEq, Repr

def Scope.empty : Scope := ⟨[], 0, []⟩

def Scope.lookup? (s : Scope) (name : String) : Option Var :=
  s.vars.find? (·.name == name)

abbrev Checked := StateT Scope (Except CheckError)

def warn (w : Warning) : Checked Unit :=
  modify fun s => { s with warnings := s.warnings ++ [w] }

def freshSlot : Checked Nat :=
  modifyGet fun s => (s.slots, { s with slots := s.slots + 1 })

def lookup (name : String) : Checked Var := do
  match (← get).lookup? name with
  | some v => return v
  | none => throw (.unknownVariable name)

def arithOp? : Ast.BinaryOp → Option ArithOp
  | .add => some .add
  | .sub => some .sub
  | .mul => some .mul
  | .div => some .div
  | .rem => some .rem
  | _ => none

def compareOp? : Ast.BinaryOp → Option CompareOp
  | .eq => some .eq
  | .ne => some .ne
  | .lt => some .lt
  | .le => some .le
  | .gt => some .gt
  | .ge => some .ge
  | _ => none

/-- What a variable or an element holds is a value. -/
def held (type : Ty) : Checked Unit :=
  if type.hasValues then return else throw (.unsupported "a void value")

def compared (op : Ast.BinaryOp) (lhs rhs : Expr) : Checked Expr :=
  match compareOp? op with
  | some o => return .compare o lhs rhs
  | none => throw (.unsupported "arithmetic as a comparison")

/-- Integers have every operator, booleans the comparisons, strings only
equality and its negation. -/
def binary (op : Ast.BinaryOp) (lhs rhs : Expr) : Checked Expr :=
  match lhs.type, rhs.type with
  | .i32, .i32 =>
    match arithOp? op with
    | some o => return .arith o lhs rhs
    | none => compared op lhs rhs
  | .bool, .bool =>
    if op.isComparison then compared op lhs rhs else throw (.invalidOperands op .bool .bool)
  | .str, .str =>
    match op with
    | .eq => return .sameText false lhs rhs
    | .ne => return .sameText true lhs rhs
    | _ => throw (.invalidOperands op .str .str)
  | l, r => throw (.invalidOperands op l r)

/-- A checked call, which may be of a function without a result. -/
inductive Call where
  | printText (newline : Bool) (value : Expr)
  | printInt (newline : Bool) (value : Expr)
  | library (function : Library.Function) (args : List Expr)

/-- The value a call gives. -/
def Call.value? : Call → Option Expr
  | library f args => if f.signature.result = .void then none else some (.call f args)
  | _ => none

def Call.toStmt : Call → Stmt
  | printText newline e => .printText newline e
  | printInt newline e => .printInt newline e
  | library f args => .eval (.call f args)

def printed (newline : Bool) (e : Expr) : Checked Call :=
  match e.type with
  | .str => return .printText newline e
  | .i32 => return .printInt newline e
  | other => throw (.printArgument other)

/-- What the parameters of a function ask for; printing takes any type and looks
at it later. -/
def parameters : Builtin → List (Option Ty)
  | .print _ => [none]
  | .library f => f.signature.params.map some

/-- The function of a name, if it takes this many arguments. -/
def callee (name : String) (count : Nat) : Checked Builtin :=
  match Builtin.ofName? name with
  | none => throw (.unknownFunction name)
  | some f =>
    if count = (parameters f).length then return f
    else throw (.argumentCount name (parameters f).length count)

/-- A call with its arguments checked. After `callee` and `arguments` there are
as many as there are parameters, so the last case does not arise. -/
def applied : Builtin → List Expr → Checked Call
  | .library f, args => return .library f args
  | .print newline, [arg] => printed newline arg
  | .print _, _ => throw (.printArgument .void)

/-- An argument has its parameter's type, if that asks for one. -/
def accept (name : String) (position : Nat) (param : Option Ty) (actual : Ty) : Checked Unit :=
  match param with
  | none => return
  | some t => if actual = t then return else throw (.argumentType name position t actual)

def int (n : Int) : Checked Expr :=
  if Int32.minValue.toInt ≤ n ∧ n ≤ Int32.maxValue.toInt then return .int (Int32.ofInt n)
  else throw (.unsupported "an integer literal outside the i32 range")

mutual

def expr : Ast.Expr → Checked Expr
  | .str s => return .str s
  | .int n => int n
  | .float d => return .float d
  | .bool b => return .bool b
  | .var name => do
    let var ← lookup name
    held var.type
    return .load var
  | .binary op l r => do
    let lhs ← expr l
    let rhs ← expr r
    binary op lhs rhs
  | .array hint es =>
    match Ty.ofName? hint with
    | none => throw (.unknownType hint)
    | some elem => do
      let elements ← elements elem es
      held elem
      let slot ← freshSlot
      held (.array elem)
      return .array slot elem elements
  | .index a i => do
    let array ← expr a
    match array.type.element? with
    | none => throw (.notAnArray array.type)
    | some elem => do
      let index ← expr i
      if index.type = .i32 then do
        held elem
        return .element elem array index
      else throw (.indexType index.type)
  | .object _ => throw (.unsupported "object literal")
  | .member base name =>
    if name = "length" then do
      let array ← expr base
      if array.type.isArray then return .length array else throw (.lengthOfNonArray array.type)
    else throw (.unsupported "object property access")
  | .call name args => do
    let f ← callee name args.length
    let args ← arguments name 1 args (parameters f)
    match (← applied f args).value? with
    | some e => return e
    | none => throw (.voidValue name)

/-- Elements that must all have one type. -/
def elements (elem : Ty) : List Ast.Expr → Checked (List Expr)
  | [] => return []
  | e :: es => do
    let e ← expr e
    if e.type = elem then return e :: (← elements elem es)
    else throw (.arrayElementType elem e.type)

/-- Arguments from a position on, each against its parameter. -/
def arguments (name : String) (position : Nat) :
    List Ast.Expr → List (Option Ty) → Checked (List Expr)
  | e :: es, param :: params => do
    let e ← expr e
    accept name position param e.type
    return e :: (← arguments name (position + 1) es params)
  | _, _ => return []

end

def call (name : String) (args : List Ast.Expr) : Checked Call := do
  let f ← callee name args.length
  applied f (← arguments name 1 args (parameters f))

/-- A boolean, or whether an integer is not zero. -/
def condition (e : Ast.Expr) : Checked Expr := do
  let cond ← expr e
  match cond.type with
  | .bool => return cond
  | .i32 => return .nonzero cond
  | other => throw (.conditionType other)

/-- A value for a variable. Another type is reported and, between numbers and
booleans, converted. -/
def stored (name : String) (declared : Ty) (value : Expr) : Checked Stored :=
  if value.type = declared then return ⟨value, none⟩
  else do
    warn (.typeMismatch name declared value.type)
    match Conversion.between? value.type declared with
    | some c => return ⟨value, some c⟩
    | none => throw (.incompatibleValue name declared value.type)

/-- The type of a declaration without an annotation, from the form of its
initial value. -/
def inferred (name : String) : Option Ast.Expr → Checked Ty
  | some (.str _) => return .str
  | some (.int _) => return .i32
  | some (.float _) => return .f64
  | some (.bool _) => return .bool
  | some (.array hint _) => return .array ((Ty.ofName? hint).getD .i32)
  | _ => do
    warn (.inferredDefault name)
    return .i32

def declaredType (name type : String) (init : Option Ast.Expr) : Checked Ty :=
  if type = Ast.auto then inferred name init
  else
    match Ty.ofName? type with
    | some t => return t
    | none => throw (.unknownType type)

/-- A declaration; its name comes into scope after its initial value. -/
def declare (name type : String) (init : Option Ast.Expr) : Checked Stmt := do
  let type ← declaredType name type init
  let value ← init.mapM expr
  held type
  let var : Var := ⟨← freshSlot, name, type⟩
  let value ← value.mapM (stored name type)
  modify fun s => { s with vars := var :: s.vars }
  return .declare var value

mutual

def stmt : Ast.Stmt → Checked Stmt
  | .declare name type init => declare name type init
  | .assign name value => do
    let var ← lookup name
    return .assign var (← stored name var.type (← expr value))
  | .setElement a i v => do
    let array ← expr a
    match array.type.element? with
    | none => throw (.notAnArray array.type)
    | some elem => do
      let index ← expr i
      if index.type = .i32 then do
        held elem
        let value ← expr v
        if value.type = elem then return .setElement elem array index value
        else throw (.arrayElementType elem value.type)
      else throw (.indexType index.type)
  | .expr (.call name args) => return (← call name args).toStmt
  | .expr e => return .eval (← expr e)
  | .branch cond yes no => do
    let cond ← condition cond
    let yes ← stmts yes
    let no ← stmts no
    return .branch cond yes no
  | .loopWhile cond body => do
    let cond ← condition cond
    let body ← stmts body
    return .loopWhile cond body
  | .doWhile body cond => do
    let body ← stmts body
    let cond ← condition cond
    return .doWhile body cond
  | .loopFor init cond step body => do
    let init ← clause init
    let cond ← cond.mapM condition
    let body ← stmts body
    let step ← clause step
    return .loopFor init cond step body

def clause : Option Ast.Stmt → Checked (Option Stmt)
  | none => return none
  | some s => return some (← stmt s)

def stmts : List Ast.Stmt → Checked (List Stmt)
  | [] => return []
  | s :: ss => do
    let s ← stmt s
    return s :: (← stmts ss)

end

end Check

/-- The checked form of a program and the warnings about it. -/
def Program.check (p : Ast.Program) : Except CheckError (Program × List Warning) := do
  let (checked, scope) ← (Check.stmts p).run Check.Scope.empty
  return (checked, scope.warnings)

end TinyScript.Core
