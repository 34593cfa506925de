import TinyScript.Ir
import TinyScript.Ir.Naming
import TinyScript.Text.Utf8

/-! Modules as text. -/

namespace TinyScript.Ir

open Text (Bytes)

def Ty.render : Ty → String
  | i1 => "i1"
  | i8 => "i8"
  | i32 => "i32"
  | double => "double"
  | void => "void"
  | ptr t => t.render ++ "*"
  | array n t => "[" ++ toString n ++ " x " ++ t.render ++ "]"
  | slice t => "\x7b " ++ t.render ++ "*, i32 \x7d"

def commaSeparated (parts : List String) : String :=
  ", ".intercalate parts

def FunctionType.renderParams (t : FunctionType) : String :=
  commaSeparated (t.params.map Ty.render ++ if t.variadic then ["..."] else [])

/-- `R (P, Q)` -/
def FunctionType.render (t : FunctionType) : String :=
  t.result.render ++ " (" ++ t.renderParams ++ ")"

namespace Printer

/-- The names of a module's results, slots and blocks, and of its symbols. -/
structure Names where
  locals : Array String
  symbols : Array String
  /-- The slots by their index, with the numbers of their names. -/
  slots : Array Slot

/-- The function with a body is named before all symbols. -/
def Names.ofModule (m : Module) : Names where
  locals := (Naming.unique "" m.main.hints).toArray
  symbols :=
    ((Naming.unique "." (m.main.name :: m.symbols.map fun
      | .text _ => ".str"
      | .function d => d.name)).drop 1).toArray
  slots := m.main.slots.toArray

def Names.localName (n : Names) (id : Nat) : String := "%" ++ n.locals.getD id ""

/-- The name of a block in a branch. -/
def Names.target (n : Names) (id : Nat) : String := "label " ++ n.localName id

def Names.symbolName (n : Names) (index : Nat) : String := "@" ++ n.symbols.getD index ""

/-- Upper-case hexadecimal digits, padded with zeros. -/
def hex (width n : Nat) : String :=
  let ds := (Nat.toDigits 16 n).map Char.toUpper
  String.ofList (List.replicate (width - ds.length) '0' ++ ds)

/-- Printable bytes other than quotes and backslashes stand for themselves. -/
def escapeByte (b : UInt8) : String :=
  if 0x20 ≤ b && b ≤ 0x7E && b != 0x22 && b != 0x5C then (Char.ofNat b.toNat).toString
  else "\\" ++ hex 2 b.toNat

def escape (bytes : Bytes) : String :=
  String.join (bytes.map escapeByte)

def operand (n : Names) : Operand → String
  | .result id _ => n.localName id
  | .slot k _ =>
    match n.slots[k]? with
    | some s => n.localName s.id
    | none => "%"
  | .text k => n.symbolName k
  | .int v => toString v.toInt
  | .bool b => if b then "true" else "false"
  | .double d => "0x" ++ hex 16 d.bits.toNat
  | .undef _ => "undef"

/-- An operand with its type in front. -/
def typed (n : Names) (o : Operand) : String :=
  o.type.render ++ " " ++ operand n o

def arith : ArithOp → String
  | .add => "add"
  | .sub => "sub"
  | .mul => "mul"
  | .sdiv => "sdiv"
  | .srem => "srem"

def intCond : IntCond → String
  | .eq => "eq"
  | .ne => "ne"
  | .slt => "slt"
  | .sle => "sle"
  | .sgt => "sgt"
  | .sge => "sge"
  | .ult => "ult"

def cast : Cast → String
  | .sitofp => "sitofp"
  | .uitofp => "uitofp"
  | .fptosi => "fptosi"
  | .zext => "zext"

def field : Field → String
  | .data => "0"
  | .length => "1"

/-- The text between a function's `call` and its arguments. -/
def callee (f : External) : String :=
  (if f.type.variadic then f.type.render else f.type.result.render) ++ " @" ++ f.name

def op (n : Names) : Op → String
  | .load t p => "load " ++ t.render ++ ", " ++ typed n p
  | .store v p => "store " ++ typed n v ++ ", " ++ typed n p
  | .arith o a b => arith o ++ " " ++ typed n a ++ ", " ++ operand n b
  | .icmp c a b => "icmp " ++ intCond c ++ " " ++ typed n a ++ ", " ++ operand n b
  | .fcmpOne a b => "fcmp one " ++ typed n a ++ ", " ++ operand n b
  | .cast k v t => cast k ++ " " ++ typed n v ++ " to " ++ t.render
  | .elementAddress t p i =>
    "getelementptr inbounds " ++ t.render ++ ", " ++ typed n p ++ ", " ++ typed n i
  | .firstAddress len t p =>
    "getelementptr inbounds " ++ (Ty.array len t).render ++ ", " ++ typed n p ++ ", i32 0, i32 0"
  | .extract s f => "extractvalue " ++ typed n s ++ ", " ++ field f
  | .insert s v f => "insertvalue " ++ typed n s ++ ", " ++ typed n v ++ ", " ++ field f
  | .call f args => "call " ++ callee f ++ "(" ++ commaSeparated (args.map (typed n)) ++ ")"

def instr (n : Names) (i : Instr) : String :=
  match i.id with
  | some id => "  " ++ n.localName id ++ " = " ++ op n i.op
  | none => "  " ++ op n i.op

def terminator (n : Names) : Terminator → String
  | .jump b => "  br " ++ n.target b
  | .branch c yes no => "  br " ++ typed n c ++ ", " ++ n.target yes ++ ", " ++ n.target no
  | .ret v => "  ret " ++ typed n v
  | .unreachable => "  unreachable"

def line (n : Names) : Line → String
  | .alloca s => "  " ++ n.localName s.id ++ " = alloca " ++ s.type.render
  | .instr i => instr n i
  | .terminator t => terminator n t

/-- A label, and the lines under it. -/
def labelled (n : Names) (s : Section) : List String :=
  (n.locals.getD s.label "" ++ ":") :: s.lines.map (line n)

/-- Sections with a blank line between them. -/
def sections (n : Names) : List Section → List String
  | [] => []
  | entry :: rest => labelled n entry ++ rest.flatMap fun s => "" :: labelled n s

/-- A string constant ends at its first NUL, and one more is stored after it. -/
def constant (n : Names) (index : Nat) (text : String) : String :=
  let bytes := Bytes.cut (Text.Utf8.encode text.toList) ++ [0]
  n.symbolName index ++ " = private unnamed_addr constant " ++ (Ty.array bytes.length .i8).render ++
    " c\"" ++ escape bytes ++ "\", align 1"

def constants (n : Names) (index : Nat) : List Symbol → List String
  | [] => []
  | .text s :: rest => constant n index s :: constants n (index + 1) rest
  | .function _ :: rest => constants n (index + 1) rest

/-- `R @f(P, Q)` -/
def header (d : Declaration) : String :=
  d.type.result.render ++ " @" ++ d.name ++ "(" ++ d.type.renderParams ++ ")"

def definition (f : Function) : String := "define " ++ header ⟨f.name, f.type⟩ ++ " \x7b"

def declaration (d : Declaration) : String := "declare " ++ header d

/-- The characters before the first NUL. -/
def cutName (name : String) : List Char :=
  name.toList.takeWhile (· ≠ '\x00')

end Printer

open Printer

/-- A module, line by line. -/
def Module.lines (m : Module) : List String :=
  let n := Names.ofModule m
  let name := cutName m.name
  let consts := constants n 0 m.symbols
  ["; ModuleID = '" ++ String.ofList name ++ "'",
    "source_filename = \"" ++ escape (Text.Utf8.encode name) ++ "\""] ++
    (if consts = [] then [] else "" :: consts) ++
    ["", definition m.main] ++ sections n m.main.sections ++ ["\x7d"] ++
    m.declarations.flatMap fun d => ["", declaration d]

def Module.render (m : Module) : String :=
  String.join (m.lines.map (· ++ "\n"))

end TinyScript.Ir
