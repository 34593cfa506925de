import TinyScript.Ast
import TinyScript.Proofs.Meaning

/-! Evaluation of programs as they are written. Names mean what stands before
them in the text: a context lists the declarations so far, in whatever block they
are, and how many declarations and array literals are complete, and it moves
along the text and not along the run. Types are looked at when values meet: a
store converts to the type of the declaration, a condition may be an integer, an
operator does what its operands ask for. What no operation covers is stuck; the
evaluation does not know which programs are accepted. -/

namespace TinyScript.Meaning

/-- What a declaration or an array literal owns. -/
inductive Place where
  | cell (type : Ty)
  | storage (elem : Ty) (size : Nat)
  deriving DecidableEq, Repr

namespace Source

open Ast (Expr Stmt Program BinaryOp)
open TinyScript.Core (Var)

/-! ### Places -/

def elementType (hint : String) : Ty := (Ty.ofName? hint).getD .i32

mutual

/-- What the array literals of an expression own, elements before their literal. -/
@[simp] def places : Expr → List Place
  | .str _ | .int _ | .float _ | .bool _ | .var _ | .object _ => []
  | .binary _ l r => places l ++ places r
  | .array hint es => placesIn es ++ [.storage (elementType hint) es.length]
  | .index a i => places a ++ places i
  | .member base _ => places base
  | .call _ args => placesIn args

@[simp] def placesIn : List Expr → List Place
  | [] => []
  | e :: es => places e ++ placesIn es

end

/-- The type of a declaration: as annotated, or else by the form of the initial
value. -/
def declaredType (type : String) (init : Option Expr) : Ty :=
  if type = Ast.auto then
    match init with
    | some (.str _) => .str
    | some (.float _) => .f64
    | some (.bool _) => .bool
    | some (.array hint _) => .array (elementType hint)
    | _ => .i32
  else (Ty.ofName? type).getD .i32

mutual

/-- What the declarations and array literals of a statement own. -/
@[simp] def stmtPlaces : Stmt → List Place
  | .declare _ type init => (init.map places).getD [] ++ [.cell (declaredType type init)]
  | .assign _ e => places e
  | .setElement a i v => places a ++ places i ++ places v
  | .expr e => places e
  | .branch cond yes no => places cond ++ stmtsPlaces yes ++ stmtsPlaces no
  | .loopWhile cond body => places cond ++ stmtsPlaces body
  | .doWhile body cond => stmtsPlaces body ++ places cond
  | .loopFor init cond step body =>
    clausePlaces init ++ (cond.map places).getD [] ++ stmtsPlaces body ++ clausePlaces step

@[simp] def clausePlaces : Option Stmt → List Place
  | none => []
  | some s => stmtPlaces s

@[simp] def stmtsPlaces : List Stmt → List Place
  | [] => []
  | s :: ss => stmtPlaces s ++ stmtsPlaces ss

end

/-! ### Contexts -/

/-- A point of the text. -/
structure Context where
  /-- The declarations before it, the latest first. -/
  vars : List Var
  /-- How many declarations and array literals are complete. -/
  next : Nat
  deriving DecidableEq, Repr

namespace Context

def empty : Context := ⟨[], 0⟩

def lookup? (c : Context) (name : String) : Option Var := c.vars.find? (·.name == name)

/-- The point after an expression. -/
def past (c : Context) (e : Expr) : Context := { c with next := c.next + (places e).length }

def pastOption (c : Context) : Option Expr → Context
  | none => c
  | some e => c.past e

/-- The point after a declaration whose initial value stands at `c`. -/
def declare (c : Context) (name type : String) (init : Option Expr) : Context :=
  let c := c.pastOption init
  ⟨⟨c.next, name, Source.declaredType type init⟩ :: c.vars, c.next + 1⟩

end Context

mutual

/-- The point after a statement. -/
@[simp] def after (c : Context) : Stmt → Context
  | .declare name type init => c.declare name type init
  | .assign _ e => c.past e
  | .setElement a i v => ((c.past a).past i).past v
  | .expr e => c.past e
  | .branch cond yes no => afterAll (afterAll (c.past cond) yes) no
  | .loopWhile cond body => afterAll (c.past cond) body
  | .doWhile body cond => (afterAll c body).past cond
  | .loopFor init cond step body =>
    afterClause (afterAll ((afterClause c init).pastOption cond) body) step

@[simp] def afterClause (c : Context) : Option Stmt → Context
  | none => c
  | some s => after c s

@[simp] def afterAll (c : Context) : List Stmt → Context
  | [] => c
  | s :: ss => afterAll (after c s) ss

end

/-! ### Expressions -/

/-- Compares two numbers. -/
def compared (a b : Int) : BinaryOp → Eval Value
  | .eq => return .bool (a = b)
  | .ne => return .bool (a ≠ b)
  | .lt => return .bool (a < b)
  | .le => return .bool (a ≤ b)
  | .gt => return .bool (a > b)
  | .ge => return .bool (a ≥ b)
  | _ => stuck

/-- Integers have every operator, truth values the comparisons, texts only
equality and its negation. -/
def operate (op : BinaryOp) : Value → Value → Eval Value
  | .int a, .int b =>
    match op with
    | .add => return .int (a + b)
    | .sub => return .int (a - b)
    | .mul => return .int (a * b)
    | .div => divided a b (a / b)
    | .rem => divided a b (a % b)
    | op => compared a.toInt b.toInt op
  | .bool a, .bool b => compared (signed a) (signed b) op
  | .str a, .str b =>
    match op with
    | .eq => return .bool (a = b)
    | .ne => return .bool (a ≠ b)
    | _ => stuck
  | _, _ => stuck

mutual

def expr (c : Context) : Expr → Eval Value
  | .str s => return text s
  | .int n => return .int (Int32.ofInt n)
  | .float d => return .double d
  | .bool b => return .bool b
  | .var name => do
    let v ← orStuck (c.lookup? name)
    readCell v.slot
  | .binary op l r => do
    let a ← expr c l
    let b ← expr (c.past l) r
    operate op a b
  | .array _ es => do
    let vs ← exprs c es
    fill (c.next + (placesIn es).length) vs
  | .index a i => do
    let array ← expr c a
    let index ← expr (c.past a) i
    let (k, i) ← locate array index
    readElement k i
  | .object _ => stuck
  | .member base _ => do
    let array ← expr c base
    length array
  | .call name args => do
    let vs ← exprs c args
    match Builtin.ofName? name with
    | some (.library f) => orStuck (← call f vs)
    | _ => stuck

def exprs (c : Context) : List Expr → Eval (List Value)
  | [] => return []
  | e :: es => do
    let v ← expr c e
    let vs ← exprs (c.past e) es
    return v :: vs

end

/-! ### Statements -/

/-- A value on its way into a cell of a type. -/
def converted : Ty → Value → Value
  | .i32, .double d => .int d.toInt32
  | .i32, .bool b => .int (Int32.ofInt (unsigned b))
  | .f64, .int n => .double (.ofInt n.toInt)
  | .f64, .bool b => .double (.ofInt (unsigned b))
  | .bool, .int n => .bool (n != 0)
  | .bool, .double d => .bool d.isNonzero
  | _, v => v

def store (var : Var) (v : Value) : Eval Unit := writeCell var.slot (converted var.type v)

def condition (c : Context) (e : Expr) : Eval Bool := do
  let v ← expr c e
  truth v

/-- A condition that may be left out, and then holds. -/
def guard (c : Context) : Option Expr → Eval Bool
  | none => return true
  | some e => condition c e

def declare (c : Context) (name type : String) : Option Expr → Eval Unit
  | none => return
  | some e => do
    let v ← expr c e
    store ⟨(c.past e).next, name, declaredType type (some e)⟩ v

/-- A call as a statement, whose value is dropped. -/
def callStmt (c : Context) (name : String) (args : List Expr) : Eval Unit := do
  let vs ← exprs c args
  match Builtin.ofName? name, vs with
  | some (.library f), vs => do
    let _ ← call f vs
  | some (.print newline), [v] => print newline v
  | _, _ => stuck

mutual

/-- Runs a statement, every loop in it for at most `fuel` turns at a time. -/
def stmt (fuel : Nat) (c : Context) : Stmt → Eval Unit
  | .declare name type init => declare c name type init
  | .assign name e => do
    let var ← orStuck (c.lookup? name)
    let v ← expr c e
    store var v
  | .setElement a i e => do
    let array ← expr c a
    let index ← expr (c.past a) i
    let (k, i') ← locate array index
    let v ← expr ((c.past a).past i) e
    writeElement k i' v
  | .expr (.call name args) => callStmt c name args
  | .expr e => do
    let _ ← expr c e
  | .branch cond yes no => do
    if ← condition c cond then stmts fuel (c.past cond) yes
    else stmts fuel (afterAll (c.past cond) yes) no
  | .loopWhile cond body =>
    let turn : Eval Bool := do
      if ← condition c cond then do
        stmts fuel (c.past cond) body
        return true
      else return false
    repeatWhile turn fuel
  | .doWhile body cond =>
    let turn : Eval Bool := do
      stmts fuel c body
      condition (afterAll c body) cond
    repeatWhile turn fuel
  | .loopFor init cond step body => do
    clause fuel c init
    let c₁ := afterClause c init
    let turn : Eval Bool := do
      if ← guard c₁ cond then do
        stmts fuel (c₁.pastOption cond) body
        clause fuel (afterAll (c₁.pastOption cond) body) step
        return true
      else return false
    repeatWhile turn fuel

def clause (fuel : Nat) (c : Context) : Option Stmt → Eval Unit
  | none => return
  | some s => stmt fuel c s

def stmts (fuel : Nat) (c : Context) : List Stmt → Eval Unit
  | [] => return
  | s :: ss => do
    stmt fuel c s
    stmts fuel (after c s) ss

end

end Source

/-- What a program does in a world, if every loop ends within `fuel` turns. -/
def evaluate (p : Ast.Program) (w : Library.World) (fuel : Nat) : Option Report :=
  (Source.stmts fuel .empty p (.initial w)).report?

end TinyScript.Meaning
