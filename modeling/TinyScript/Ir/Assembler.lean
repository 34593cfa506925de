import TinyScript.Ir

/-! A module under construction. Instructions go to the end of the open block; ending
it opens another that was created before. Slots are set up in the entry, wherever the
open block is: each by a line right after the one that set up the slot before it, and
the first by a line before all others. String constants and declarations are collected
beside the blocks, each text and each name once. -/

namespace TinyScript.Ir

/-- What lowering asks of a module under construction. -/
class MonadAssemble (m : Type → Type) where
  /-- A new block, called after a hint if that is free. -/
  create (hint : String) : m Nat
  /-- Adds an instruction with a result of a type. -/
  emit (hint : String) (type : Ty) (op : Op) : m Operand
  /-- Adds an instruction without a result. -/
  emitVoid (op : Op) : m Unit
  /-- Ends the open block and opens another. -/
  endBlock (terminator : Terminator) (next : Nat) : m Unit
  /-- Sets up a new slot. -/
  addSlot (hint : String) (type : Ty) : m Unit
  text (value : String) : m Operand
  /-- Declares a function, unless it is declared already. -/
  declare (f : External) : m Unit

/-- The characters of a hint before its first NUL. -/
def cutHint (hint : String) : String :=
  String.ofList (hint.toList.takeWhile (· ≠ '\x00'))

structure Assembler where
  /-- The function that code is added to. -/
  main : Declaration
  hints : List String
  symbols : List Symbol
  /-- In the order of creation; the first is the entry. -/
  sections : List Section
  /-- The open block. -/
  current : Nat
  /-- The slot that was set up last. -/
  lastSlot : Option Nat
  deriving DecidableEq, Repr

namespace Assembler

/-- A module with nothing in it but a function and its open entry block, which has
number zero. -/
def start : Assembler where
  main := ⟨"main", .i32, [], false⟩
  hints := ["entry"]
  symbols := []
  sections := [⟨0, []⟩]
  current := 0
  lastSlot := none

/-- Takes the next number, called after a hint if that is free. -/
def number (a : Assembler) (hint : String) : Assembler :=
  { a with hints := a.hints ++ [cutHint hint] }

def create (a : Assembler) (hint : String) : Assembler :=
  { a.number hint with sections := a.sections ++ [⟨a.hints.length, []⟩] }

/-! ### Code -/

/-- Adds a line to the open block. -/
def push (a : Assembler) (line : Line) : Assembler :=
  { a with
    sections := a.sections.map fun s =>
      if s.label = a.current then { s with lines := s.lines ++ [line] } else s }

/-- Whether the open block has ended. -/
def ended (a : Assembler) : Bool :=
  (a.sections.find? (·.label = a.current)).any fun s =>
    (s.lines.getLast? >>= Line.terminator?).isSome

/-- Ends the open block. A jump is left out if it has ended already. -/
def terminate (a : Assembler) : Terminator → Assembler
  | .jump target => if a.ended then a else a.push (.terminator (.jump target))
  | t => a.push (.terminator t)

/-! ### Slots -/

/-- The position behind the last slot of the entry, or its beginning. -/
def nextPosition (entry : List Line) : Option Nat → Nat
  | some last => entry.findIdx (fun line => line.slot?.any (·.id = last)) + 1
  | none => 0

/-- Puts a line before the one at a position, or at the end if there is none. -/
def insertBefore (line : Line) (position : Nat) (lines : List Line) : List Line :=
  if position < lines.length then lines.insertIdx position line else lines ++ [line]

/-- Puts the line that sets up a slot behind the slot set up last. -/
def addSlot (last : Option Nat) (slot : Slot) (entry : Section) : Section :=
  { entry with
    lines := insertBefore (.alloca slot) (nextPosition entry.lines last) entry.lines }

/-- Sets up a slot in the entry, behind the slots set up so far. -/
def setUp (a : Assembler) (hint : String) (type : Ty) : Assembler :=
  let slot : Slot := ⟨a.hints.length, type⟩
  { a.number hint with
    sections := a.sections.modifyHead (addSlot a.lastSlot slot)
    lastSlot := some slot.id }

/-! ### Symbols -/

/-- The index of a string constant, after adding it if it is new. -/
def text (a : Assembler) (value : String) : Nat × Assembler :=
  match a.symbols.idxOf? (.text value) with
  | some k => (k, a)
  | none => (a.symbols.length, { a with symbols := a.symbols ++ [.text value] })

/-- The functions of the module, with a body or without. -/
def functions (a : Assembler) : List Declaration :=
  a.main :: a.symbols.filterMap Symbol.declaration?

/-- Declares a function, unless there is one of its name. -/
def declare (a : Assembler) (f : External) : Assembler :=
  if a.functions.any (·.name = f.name) then a
  else { a with symbols := a.symbols ++ [.function f.declaration] }

/-! ### Modules -/

/-- The finished module. It returns zero, unless its last block has ended. -/
def finish (a : Assembler) (name : String) : Module :=
  let b := if a.ended then a else a.push (.terminator (.ret (.int 0)))
  { name
    symbols := b.symbols
    main := { name := b.main.name, type := b.main.type, hints := b.hints, sections := b.sections } }

end Assembler

abbrev Assemble := StateM Assembler

instance : MonadAssemble Assemble where
  create hint := modifyGet fun a => (a.hints.length, a.create hint)
  emit hint type op := modifyGet fun a =>
    (.result a.hints.length type, (a.number hint).push (.instr ⟨some a.hints.length, op⟩))
  emitVoid op := modify (·.push (.instr ⟨none, op⟩))
  endBlock terminator next := modify fun a => { a.terminate terminator with current := next }
  addSlot hint type := modify (·.setUp hint type)
  text value := modifyGet fun a => ((a.text value).1 |> .text, (a.text value).2)
  declare f := modify (·.declare f)

end TinyScript.Ir
