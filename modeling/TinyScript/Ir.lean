import TinyScript.Library.Signature
import TinyScript.Number.Double

/-! The target language. A module is one function with a body, with string constants
and declarations of other functions beside it. The body is sections of lines, one
section for each block; a line sets up a slot, is an instruction, or ends the block.
Results of instructions, slots and blocks are numbered together in the order of their
creation; what they are called in text is a matter of printing. A slot stays for the
whole run, so its address is an operand by itself. -/

namespace TinyScript.Ir

open Number (Double)

inductive Ty where
  | i1 | i8 | i32 | double | void
  | ptr (target : Ty)
  | array (length : Nat) (elem : Ty)
  /-- The address of the first element and the number of elements. -/
  | slice (elem : Ty)
  deriving DecidableEq, Repr

/-- What holds a value of a source type. -/
def Ty.ofSource : TinyScript.Ty → Ty
  | .str => .ptr .i8
  | .i32 => .i32
  | .f64 => .double
  | .bool => .i1
  | .void => .void
  | .array elem => .slice (ofSource elem)

structure FunctionType where
  result : Ty
  params : List Ty
  variadic : Bool
  deriving DecidableEq, Repr

/-- How a parameter of a source type is passed: an array as two values. -/
def Ty.passed : TinyScript.Ty → List Ty
  | .array elem => [.ptr (ofSource elem), .i32]
  | .void => []
  | t => [ofSource t]

def FunctionType.ofSignature (s : Library.Signature) : FunctionType :=
  ⟨.ofSource s.result, s.params.flatMap Ty.passed, false⟩

/-- A function that a module calls and does not define. -/
inductive External where
  | printf
  | puts
  | strcmp
  /-- Ends the program after an index was out of range. -/
  | boundsFail
  | library (function : Library.Function)
  deriving DecidableEq, Repr

namespace External

def name : External → String
  | printf => "printf"
  | puts => "puts"
  | strcmp => "strcmp"
  | boundsFail => "__cype_bounds_fail"
  | library f => f.name

def type : External → FunctionType
  | printf => ⟨.i32, [.ptr .i8], true⟩
  | puts => ⟨.i32, [.ptr .i8], false⟩
  | strcmp => ⟨.i32, [.ptr .i8, .ptr .i8], false⟩
  | boundsFail => ⟨.void, [.i32, .i32], false⟩
  | library f => .ofSignature f.signature

end External

/-- A function as it is found by name. -/
structure Declaration where
  name : String
  type : FunctionType
  deriving DecidableEq, Repr

def External.declaration (f : External) : Declaration := ⟨f.name, f.type⟩

/-- Something a module names: a string constant or a function without a body. -/
inductive Symbol where
  | text (value : String)
  | function (declaration : Declaration)
  deriving DecidableEq, Repr

namespace Symbol

def text? : Symbol → Option String
  | text s => some s
  | function _ => none

def declaration? : Symbol → Option Declaration
  | text _ => none
  | function d => some d

end Symbol

inductive Operand where
  /-- The result of the instruction with this number. -/
  | result (id : Nat) (type : Ty)
  /-- The address of a slot that holds `type`. -/
  | slot (index : Nat) (type : Ty)
  /-- The string constant that is a module's symbol with this index. -/
  | text (index : Nat)
  | int (value : Int32)
  | bool (value : Bool)
  | double (value : Double)
  | undef (type : Ty)
  deriving DecidableEq, Repr

def Operand.type : Operand → Ty
  | result _ t => t
  | slot _ t => .ptr t
  | text _ => .ptr .i8
  | int _ => .i32
  | bool _ => .i1
  | double _ => .double
  | undef t => t

inductive ArithOp where
  | add | sub | mul | sdiv | srem
  deriving DecidableEq, Repr

/-- Signed comparisons, and the unsigned one that checks an index. -/
inductive IntCond where
  | eq | ne | slt | sle | sgt | sge | ult
  deriving DecidableEq, Repr

inductive Cast where
  | sitofp | uitofp | fptosi | zext
  deriving DecidableEq, Repr

/-- The two parts of a slice. -/
inductive Field where
  | data
  | length
  deriving DecidableEq, Repr

inductive Op where
  | load (type : Ty) (address : Operand)
  | store (value address : Operand)
  | arith (op : ArithOp) (lhs rhs : Operand)
  | icmp (cond : IntCond) (lhs rhs : Operand)
  /-- Whether two doubles are numbers and differ. -/
  | fcmpOne (lhs rhs : Operand)
  | cast (kind : Cast) (value : Operand) (target : Ty)
  /-- The address `index` elements after `base`. -/
  | elementAddress (elem : Ty) (base index : Operand)
  /-- The address of the first element of the array at `base`. -/
  | firstAddress (length : Nat) (elem : Ty) (base : Operand)
  | extract (slice : Operand) (field : Field)
  | insert (slice value : Operand) (field : Field)
  | call (function : External) (args : List Operand)
  deriving DecidableEq, Repr

/-- An operation and the number of its result, if it has one. -/
structure Instr where
  id : Option Nat
  op : Op
  deriving DecidableEq, Repr

inductive Terminator where
  | jump (target : Nat)
  | branch (cond : Operand) (yes no : Nat)
  | ret (value : Operand)
  | unreachable
  deriving DecidableEq, Repr

/-- A place for one value, and the number under which its address is named. -/
structure Slot where
  id : Nat
  type : Ty
  deriving DecidableEq, Repr

/-! ### Code -/

/-- A line of code. -/
inductive Line where
  /-- Sets up a slot. -/
  | alloca (slot : Slot)
  | instr (instr : Instr)
  | terminator (terminator : Terminator)
  deriving DecidableEq, Repr

namespace Line

/-- The slot that a line sets up. -/
def slot? : Line → Option Slot
  | alloca s => some s
  | instr _ | terminator _ => none

def instr? : Line → Option Instr
  | instr i => some i
  | alloca _ | terminator _ => none

def terminator? : Line → Option Terminator
  | terminator t => some t
  | alloca _ | instr _ => none

end Line

/-- A block with the lines under its label. -/
structure Section where
  label : Nat
  lines : List Line
  deriving DecidableEq, Repr

/-- A block as it is run, without the slots that it sets up. -/
structure Block where
  id : Nat
  body : List Instr
  terminator : Terminator
  deriving DecidableEq, Repr

namespace Section

/-- The slots that a section sets up. -/
def slots (s : Section) : List Slot := s.lines.filterMap Line.slot?

/-- The instructions before the first terminator. -/
def body (s : Section) : List Instr :=
  (s.lines.takeWhile (·.terminator?.isNone)).filterMap Line.instr?

/-- A section is run up to its first terminator, if it has one. -/
def block? (s : Section) : Option Block :=
  (s.lines.findSome? Line.terminator?).map fun t => ⟨s.label, s.body, t⟩

theorem block?_id {s : Section} {b : Block} (h : s.block? = some b) : b.id = s.label := by
  obtain ⟨t, -, rfl⟩ := Option.map_eq_some_iff.1 h
  rfl

end Section

/-- A function with a body. -/
structure Function where
  name : String
  type : FunctionType
  /-- What the results, slots and blocks would like to be called, by number. -/
  hints : List String
  /-- In the order of creation; the first is the entry. -/
  sections : List Section
  deriving DecidableEq, Repr

namespace Function

/-- The slots in the order of the lines that set them up. -/
def slots (f : Function) : List Slot := f.sections.flatMap Section.slots

def blocks (f : Function) : List Block := f.sections.filterMap Section.block?

/-- The block with a number. -/
def block? (f : Function) (id : Nat) : Option Block :=
  f.sections.findSome? fun s => if s.label = id then s.block? else none

end Function

structure Module where
  name : String
  /-- In the order of first use. -/
  symbols : List Symbol
  main : Function
  deriving DecidableEq, Repr

/-- The functions a module declares. -/
def Module.declarations (m : Module) : List Declaration :=
  m.symbols.filterMap Symbol.declaration?

end TinyScript.Ir
