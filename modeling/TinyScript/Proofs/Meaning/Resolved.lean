import TinyScript.Proofs.Meaning.Source

/-! Evaluation of checked programs. Names, slots and conversions are written in
the program, so nothing is looked up and no type is asked for at run time; an
operand of another kind than its operator takes is stuck. -/

namespace TinyScript.Meaning.Resolved

open TinyScript.Core

/-! ### Places -/

mutual

@[simp] def places : Expr → List Place
  | .str _ | .int _ | .float _ | .bool _ | .load _ => []
  | .arith _ l r | .compare _ l r | .sameText _ l r => places l ++ places r
  | .nonzero e => places e
  | .array _ elem es => placesIn es ++ [.storage elem es.length]
  | .element _ a i => places a ++ places i
  | .length a => places a
  | .call _ es => placesIn es

@[simp] def placesIn : List Expr → List Place
  | [] => []
  | e :: es => places e ++ placesIn es

end

mutual

@[simp] def stmtPlaces : Stmt → List Place
  | .declare v init => (init.map fun s => places s.value).getD [] ++ [.cell v.type]
  | .assign _ s => places s.value
  | .setElement _ a i v => places a ++ places i ++ places v
  | .eval e | .printText _ e | .printInt _ e => places e
  | .branch cond yes no => places cond ++ stmtsPlaces yes ++ stmtsPlaces no
  | .loopWhile cond body => places cond ++ stmtsPlaces body
  | .doWhile body cond => stmtsPlaces body ++ places cond
  | .loopFor init cond step body =>
    clausePlaces init ++ (cond.map places).getD [] ++ stmtsPlaces body ++ clausePlaces step

@[simp] def clausePlaces : Option Stmt → List Place
  | none => []
  | some s => stmtPlaces s

@[simp] def stmtsPlaces : List Stmt → List Place
  | [] => []
  | s :: ss => stmtPlaces s ++ stmtsPlaces ss

end

/-! ### Expressions -/

def arith (op : ArithOp) : Value → Value → Eval Value
  | .int a, .int b =>
    match op with
    | .add => return .int (a + b)
    | .sub => return .int (a - b)
    | .mul => return .int (a * b)
    | .div => divided a b (a / b)
    | .rem => divided a b (a % b)
  | _, _ => stuck

def holds (a b : Int) : CompareOp → Bool
  | .eq => a = b
  | .ne => a ≠ b
  | .lt => a < b
  | .le => a ≤ b
  | .gt => a > b
  | .ge => a ≥ b

def compare (op : CompareOp) : Value → Value → Eval Value
  | .int a, .int b => return .bool (holds a.toInt b.toInt op)
  | .bool a, .bool b => return .bool (holds (signed a) (signed b) op)
  | _, _ => stuck

def sameText (negated : Bool) : Value → Value → Eval Value
  | .str a, .str b => return .bool (decide (a = b) ^^ negated)
  | _, _ => stuck

def nonzero : Value → Eval Value
  | .int n => return .bool (n != 0)
  | _ => stuck

mutual

def expr : Expr → Eval Value
  | .str s => return text s
  | .int n => return .int n
  | .float d => return .double d
  | .bool b => return .bool b
  | .load v => readCell v.slot
  | .arith op l r => do
    let a ← expr l
    let b ← expr r
    arith op a b
  | .compare op l r => do
    let a ← expr l
    let b ← expr r
    compare op a b
  | .sameText negated l r => do
    let a ← expr l
    let b ← expr r
    sameText negated a b
  | .nonzero e => do
    let v ← expr e
    nonzero v
  | .array slot _ es => do
    let vs ← exprs es
    fill slot vs
  | .element _ a i => do
    let array ← expr a
    let index ← expr i
    let (k, i) ← locate array index
    readElement k i
  | .length a => do
    let array ← expr a
    length array
  | .call f es => do
    let vs ← exprs es
    orStuck (← call f vs)

def exprs : List Expr → Eval (List Value)
  | [] => return []
  | e :: es => do
    let v ← expr e
    let vs ← exprs es
    return v :: vs

end

/-! ### Statements -/

def convert : Conversion → Value → Eval Value
  | .i32ToF64, .int n => return .double (.ofInt n.toInt)
  | .boolToF64, .bool b => return .double (.ofInt (unsigned b))
  | .f64ToI32, .double d => return .int d.toInt32
  | .boolToI32, .bool b => return .int (Int32.ofInt (unsigned b))
  | .i32ToBool, .int n => return .bool (n != 0)
  | .f64ToBool, .double d => return .bool d.isNonzero
  | _, _ => stuck

def stored (s : Stored) : Eval Value := do
  let v ← expr s.value
  match s.convert with
  | none => return v
  | some c => convert c v

def assign (v : Var) (s : Stored) : Eval Unit := do
  let value ← stored s
  writeCell v.slot value

def condition (e : Expr) : Eval Bool := do
  let v ← expr e
  truth v

def guard : Option Expr → Eval Bool
  | none => return true
  | some e => condition e

mutual

def stmt (fuel : Nat) : Stmt → Eval Unit
  | .declare _ none => return
  | .declare v (some s) => assign v s
  | .assign v s => assign v s
  | .setElement _ a i e => do
    let array ← expr a
    let index ← expr i
    let (k, i) ← locate array index
    let v ← expr e
    writeElement k i v
  | .eval (.call f es) => do
    let vs ← exprs es
    let _ ← call f vs
  | .eval e => do
    let _ ← expr e
  | .printText newline e => do
    let v ← expr e
    print newline v
  | .printInt newline e => do
    let v ← expr e
    print newline v
  | .branch cond yes no => do
    if ← condition cond then stmts fuel yes else stmts fuel no
  | .loopWhile cond body =>
    let turn : Eval Bool := do
      if ← condition cond then do
        stmts fuel body
        return true
      else return false
    repeatWhile turn fuel
  | .doWhile body cond =>
    let turn : Eval Bool := do
      stmts fuel body
      condition cond
    repeatWhile turn fuel
  | .loopFor init cond step body => do
    clause fuel init
    let turn : Eval Bool := do
      if ← guard cond then do
        stmts fuel body
        clause fuel step
        return true
      else return false
    repeatWhile turn fuel

def clause (fuel : Nat) : Option Stmt → Eval Unit
  | none => return
  | some s => stmt fuel s

def stmts (fuel : Nat) : List Stmt → Eval Unit
  | [] => return
  | s :: ss => do
    stmt fuel s
    stmts fuel ss

end

end TinyScript.Meaning.Resolved
