import TinyScript.Core
import TinyScript.Ir.Assembler

/-! Checked programs as modules. Lowering cannot fail: what could go wrong was
settled by checking. Code is emitted in the order in which it runs, and control
flow opens and ends blocks as it goes; a bounds check in the middle of an
expression ends the open block like a statement does. -/

namespace TinyScript.Core.Lower

open Ir (Operand Op Field External Terminator)
open Ir (Assemble Assembler MonadAssemble)
open Ir.MonadAssemble

variable {m : Type → Type} [Monad m] [MonadAssemble m]

def arithOp : ArithOp → Ir.ArithOp × String
  | .add => (.add, "add")
  | .sub => (.sub, "sub")
  | .mul => (.mul, "mul")
  | .div => (.sdiv, "div")
  | .rem => (.srem, "rem")

def compareOp : CompareOp → Ir.IntCond
  | .eq => .eq
  | .ne => .ne
  | .lt => .slt
  | .le => .sle
  | .gt => .sgt
  | .ge => .sge

def zero : Operand := .int 0

def compare (cond : Ir.IntCond) (a b : Operand) : m Operand :=
  emit "cmp" .i1 (.icmp cond a b)

def convert (v : Operand) : Conversion → m Operand
  | .i32ToF64 => emit "conv" .double (.cast .sitofp v .double)
  | .boolToF64 => emit "conv" .double (.cast .uitofp v .double)
  | .f64ToI32 => emit "conv" .i32 (.cast .fptosi v .i32)
  | .boolToI32 => emit "conv" .i32 (.cast .zext v .i32)
  | .i32ToBool => emit "conv" .i1 (.icmp .ne v zero)
  | .f64ToBool => emit "conv" .i1 (.fcmpOne v (.double .zero))

/-- Goes on only if an index is below the length of a slice. -/
def checkBounds (slice index : Operand) : m Unit := do
  let len ← emit "arr.len" .i32 (.extract slice .length)
  let within ← emit "in.bounds" .i1 (.icmp .ult index len)
  let ok ← create "bounds.ok"
  let fail ← create "bounds.fail"
  endBlock (.branch within ok fail) fail
  declare .boundsFail
  emitVoid (.call .boundsFail [index, len])
  endBlock .unreachable ok

/-- The address of an element. -/
def elementAddress (checked : Bool) (elem : Ir.Ty) (slice index : Operand) : m Operand := do
  if checked then checkBounds slice index
  let data ← emit "arr.ptr" (.ptr elem) (.extract slice .data)
  emit "elem.ptr" (.ptr elem) (.elementAddress elem data index)

/-- Stores elements one after the other from an address. -/
def fill (elem : Ir.Ty) (data : Operand) : Nat → List Operand → m Unit
  | _, [] => return
  | k, v :: vs => do
    let address ← emit "arr.elem" (.ptr elem) (.elementAddress elem data (.int (Int32.ofNat k)))
    emitVoid (.store v address)
    fill elem data (k + 1) vs

/-- A slice over a new slot that holds the elements. -/
def slice (slot : Nat) (elem : Ir.Ty) (values : List Operand) : m Operand := do
  let storage : Ir.Ty := .array values.length elem
  addSlot "arr" storage
  let data ← emit "arr.data" (.ptr elem) (.firstAddress values.length elem (.slot slot storage))
  fill elem data 0 values
  let half ← emit "arr.slice" (.slice elem) (.insert (.undef (.slice elem)) data .data)
  emit "arr.slice" (.slice elem) (.insert half (.int (Int32.ofNat values.length)) .length)

/-- The operands an argument is passed as. -/
def pass (type : Ty) (v : Operand) : m (List Operand) := do
  match type with
  | .array elem =>
    let data ← emit "arr.ptr" (.ptr (.ofSource elem)) (.extract v .data)
    let len ← emit "arr.len" .i32 (.extract v .length)
    return [data, len]
  | _ => return [v]

/-- A call of a library function. One without a result has none to name. -/
def call (f : Library.Function) (args : List Operand) : m Operand := do
  declare (.library f)
  if f.signature.result = .void then do
    emitVoid (.call (.library f) args)
    return .undef .void
  else emit f.name (.ofSource f.signature.result) (.call (.library f) args)

mutual

def expr (checked : Bool) : Expr → m Operand
  | .str s => text s
  | .int n => return .int n
  | .float d => return .double d
  | .bool b => return .bool b
  | .load v =>
    let type := Ir.Ty.ofSource v.type
    emit v.name type (.load type (.slot v.slot type))
  | .arith op l r => do
    let a ← expr checked l
    let b ← expr checked r
    emit (arithOp op).2 .i32 (.arith (arithOp op).1 a b)
  | .compare op l r => do
    let a ← expr checked l
    let b ← expr checked r
    compare (compareOp op) a b
  | .sameText negated l r => do
    let a ← expr checked l
    let b ← expr checked r
    declare .strcmp
    let order ← emit "strcmp" .i32 (.call .strcmp [a, b])
    compare (if negated then .ne else .eq) order zero
  | .nonzero e => do
    let v ← expr checked e
    emit "tobool" .i1 (.icmp .ne v zero)
  | .array slot elem es => do
    let values ← exprs checked es
    slice slot (.ofSource elem) values
  | .element elem a i => do
    let array ← expr checked a
    let index ← expr checked i
    let address ← elementAddress checked (.ofSource elem) array index
    emit "elem" (.ofSource elem) (.load (.ofSource elem) address)
  | .length a => do
    let array ← expr checked a
    emit "len" .i32 (.extract array .length)
  | .call f es => do
    let args ← arguments checked es
    call f args

def exprs (checked : Bool) : List Expr → m (List Operand)
  | [] => return []
  | e :: es => do
    let v ← expr checked e
    return v :: (← exprs checked es)

def arguments (checked : Bool) : List Expr → m (List Operand)
  | [] => return []
  | e :: es => do
    let v ← expr checked e
    let passed ← pass e.type v
    return passed ++ (← arguments checked es)

end

/-- Puts a value into a variable's slot. -/
def store (v : Var) (convert? : Option Conversion) (value : Operand) : m Unit := do
  let value ← match convert? with
    | some c => convert value c
    | none => pure value
  emitVoid (.store value (.slot v.slot (.ofSource v.type)))

/-- A declaration's slot is set up after its initial value is computed. -/
def declareVar (checked : Bool) (v : Var) : Option Stored → m Unit
  | none => addSlot v.name (.ofSource v.type)
  | some s => do
    let value ← expr checked s.value
    addSlot v.name (.ofSource v.type)
    store v s.convert value

def printf (format : String) (v : Operand) : m Unit := do
  declare .printf
  let format ← text format
  let _ ← emit "printf" .i32 (.call .printf [format, v])

def printText (newline : Bool) (v : Operand) : m Unit :=
  if newline then do
    declare .puts
    let _ ← emit "puts" .i32 (.call .puts [v])
  else printf "%s" v

/-- Goes on with a loop's body if its condition holds. Without one it always does. -/
def guard (checked : Bool) (cond : Option Expr) (bodyBlock exit : Nat) : m Unit :=
  match cond with
  | none => endBlock (.jump bodyBlock) bodyBlock
  | some cond => do
    let c ← expr checked cond
    endBlock (.branch c bodyBlock exit) bodyBlock

mutual

def stmt (checked : Bool) : Stmt → m Unit
  | .declare v init => declareVar checked v init
  | .assign v s => do
    let value ← expr checked s.value
    store v s.convert value
  | .setElement elem a i v => do
    let array ← expr checked a
    let index ← expr checked i
    let address ← elementAddress checked (.ofSource elem) array index
    let value ← expr checked v
    emitVoid (.store value address)
  | .eval e => do
    let _ ← expr checked e
  | .printText newline e => do
    let v ← expr checked e
    printText newline v
  | .printInt newline e => do
    let v ← expr checked e
    printf (if newline then "%d\n" else "%d") v
  | .branch cond yes no => do
    let c ← expr checked cond
    let thenBlock ← create "then"
    if no.isEmpty then do
      let merge ← create "merge"
      endBlock (.branch c thenBlock merge) thenBlock
      stmts checked yes
      endBlock (.jump merge) merge
    else do
      let elseBlock ← create "else"
      let merge ← create "merge"
      endBlock (.branch c thenBlock elseBlock) thenBlock
      stmts checked yes
      endBlock (.jump merge) elseBlock
      stmts checked no
      endBlock (.jump merge) merge
  | .loopWhile cond body => do
    let condBlock ← create "while.cond"
    let bodyBlock ← create "while.body"
    let exit ← create "while.exit"
    endBlock (.jump condBlock) condBlock
    let c ← expr checked cond
    endBlock (.branch c bodyBlock exit) bodyBlock
    stmts checked body
    endBlock (.jump condBlock) exit
  | .doWhile body cond => do
    let bodyBlock ← create "do.body"
    let condBlock ← create "do.cond"
    let exit ← create "do.exit"
    endBlock (.jump bodyBlock) bodyBlock
    stmts checked body
    endBlock (.jump condBlock) condBlock
    let c ← expr checked cond
    endBlock (.branch c bodyBlock exit) exit
  | .loopFor init cond step body => do
    clause checked init
    let condBlock ← create "for.cond"
    let bodyBlock ← create "for.body"
    let stepBlock ← create "for.step"
    let exit ← create "for.exit"
    endBlock (.jump condBlock) condBlock
    guard checked cond bodyBlock exit
    stmts checked body
    endBlock (.jump stepBlock) stepBlock
    clause checked step
    endBlock (.jump condBlock) exit

def clause (checked : Bool) : Option Stmt → m Unit
  | none => return
  | some s => stmt checked s

def stmts (checked : Bool) : List Stmt → m Unit
  | [] => return
  | s :: ss => do
    stmt checked s
    stmts checked ss

end

end Lower

/-- How a module is made. -/
structure Options where
  moduleName : String := "cype"
  /-- Whether every element access checks its index first. -/
  boundsChecks : Bool := true
  deriving DecidableEq, Repr

/-- The module of a program. It ends by returning zero. -/
def Program.lower (p : Program) (options : Options) : Ir.Module :=
  let building : Ir.Assemble Unit := Lower.stmts options.boundsChecks p
  (building.run .start).2.finish options.moduleName

end TinyScript.Core
