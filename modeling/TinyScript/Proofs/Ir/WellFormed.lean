import Mathlib.Data.List.Nodup
import TinyScript.Ir

/-! Well-formed modules. Every section ends with its only terminator, and all slots are
set up first. Blocks are told apart by their numbers, and so are results; branches go to
blocks of the module, never to its entry; there is one return. Each operation takes
operands of the types it asks for, and each operand stands for something: a result for an
instruction that dominates the use, which is to say that every way from the entry to the
use passes the instruction. Ways are walks through the blocks, whatever the branches
depend on. -/

namespace TinyScript.Ir

/-! ### Types of operations -/

/-- The element type of a slice. -/
def Ty.element? : Ty → Option Ty
  | .slice elem => some elem
  | _ => none

/-- What an operation gives, `void` if it gives nothing. -/
def Op.result : Op → Ty
  | .load type _ => type
  | .store _ _ => .void
  | .arith _ a _ => a.type
  | .icmp _ _ _ => .i1
  | .fcmpOne _ _ => .i1
  | .cast _ _ target => target
  | .elementAddress elem _ _ => .ptr elem
  | .firstAddress _ elem _ => .ptr elem
  | .extract s .data => (s.type.element?.map .ptr).getD .void
  | .extract _ .length => .i32
  | .insert s _ _ => s.type
  | .call f _ => f.type.result

/-- The types a cast leads from and to. -/
def Cast.types : Cast → Ty × Ty
  | .sitofp => (.i32, .double)
  | .uitofp => (.i1, .double)
  | .fptosi => (.double, .i32)
  | .zext => (.i1, .i32)

/-- The type of a part of a slice. -/
def Field.type (elem : Ty) : Field → Ty
  | .data => .ptr elem
  | .length => .i32

/-- Whether arguments are those a function takes. -/
def FunctionType.Takes (f : FunctionType) (args : List Ty) : Prop :=
  if f.variadic then f.params <+: args else args = f.params

/-- The operands of an operation have the types it asks for. -/
def Op.Typed (m : Module) : Op → Prop
  | .load type p => p.type = .ptr type
  | .store v p => p.type = .ptr v.type
  | .arith _ a b => a.type = .i32 ∧ b.type = .i32
  | .icmp _ a b => a.type = b.type ∧ (a.type = .i32 ∨ a.type = .i1)
  | .fcmpOne a b => a.type = .double ∧ b.type = .double
  | .cast kind v target => (v.type, target) = kind.types
  | .elementAddress elem p i => p.type = .ptr elem ∧ i.type = .i32
  | .firstAddress n elem p => p.type = .ptr (.array n elem)
  | .extract s _ => s.type.element?.isSome
  | .insert s v field => ∃ elem, s.type = .slice elem ∧ v.type = field.type elem
  | .call f args =>
    .function f.declaration ∈ m.symbols ∧ f.type.Takes (args.map Operand.type)

/-- An instruction has a number exactly if its operation gives something. -/
def Instr.Typed (m : Module) (i : Instr) : Prop :=
  i.op.Typed m ∧ (i.id = none ↔ i.op.result = .void)

/-! ### Operands -/

def Op.operands : Op → List Operand
  | .load _ p => [p]
  | .store v p => [v, p]
  | .arith _ a b => [a, b]
  | .icmp _ a b => [a, b]
  | .fcmpOne a b => [a, b]
  | .cast _ v _ => [v]
  | .elementAddress _ p i => [p, i]
  | .firstAddress _ _ p => [p]
  | .extract s _ => [s]
  | .insert s v _ => [s, v]
  | .call _ args => args

namespace Terminator

def targets : Terminator → List Nat
  | jump target => [target]
  | branch _ yes no => [yes, no]
  | ret _ => []
  | unreachable => []

def operands : Terminator → List Operand
  | jump _ => []
  | branch c _ _ => [c]
  | ret v => [v]
  | unreachable => []

def returned? : Terminator → Option Operand
  | ret v => some v
  | _ => none

/-- A condition is a truth value, and what is returned an integer. -/
def Typed : Terminator → Prop
  | jump _ => True
  | branch c _ _ => c.type = .i1
  | ret v => v.type = .i32
  | unreachable => True

end Terminator

/-- A block uses an operand after `i` of its instructions. -/
def Block.Uses (b : Block) (i : Nat) (o : Operand) : Prop :=
  (∃ instr, b.body[i]? = some instr ∧ o ∈ instr.op.operands) ∨
    (i = b.body.length ∧ o ∈ b.terminator.operands)

/-! ### Dominance -/

/-- A walk from the entry to a block, and the blocks it passed before. -/
inductive Walk (m : Module) : List Block → Block → Prop
  | entry {e : Block} (h : m.main.blocks.head? = some e) : Walk m [] e
  | step {passed : List Block} {b b' : Block} (before : Walk m passed b)
      (edge : b'.id ∈ b.terminator.targets) (block : b' ∈ m.main.blocks) :
      Walk m (passed ++ [b]) b'

/-- The instruction that gives a result of a type dominates a use of it: it comes
before the use in one block, or in a block that every walk to the use passes. -/
def Dominated (m : Module) (b : Block) (i id : Nat) (type : Ty) : Prop :=
  ∃ d ∈ m.main.blocks, ∃ j op, d.body[j]? = some ⟨some id, op⟩ ∧ op.result = type ∧
    ((d = b ∧ j < i) ∨ ∀ passed, Walk m passed b → d ∈ passed)

/-- What an operand stands for is there where it is used. -/
def Operand.Valid (m : Module) (b : Block) (i : Nat) : Operand → Prop
  | .result id type => Dominated m b i id type
  | .slot k type => ∃ s, m.main.slots[k]? = some s ∧ s.type = type
  | .text k => ∃ s, m.symbols[k]? = some (.text s)
  | .undef type => ∃ elem, type = .slice elem
  | .int _ | .bool _ | .double _ => True

/-! ### Modules -/

/-- The numbers of the results of instructions. -/
def Block.results (b : Block) : List Nat := b.body.filterMap Instr.id

/-- A block is found by its number, if no other block has it. -/
theorem Function.block?_of_mem {f : Function} (h : (f.blocks.map Block.id).Nodup) {x : Block}
    (hx : x ∈ f.blocks) : f.block? x.id = some x := by
  obtain ⟨s, hs, hblock⟩ := List.mem_filterMap.1 hx
  unfold Function.block?
  cases hfind : f.sections.findSome? _ with
  | none =>
    have hnone := List.findSome?_eq_none_iff.1 hfind s hs
    rw [if_pos (Section.block?_id hblock).symm, hblock] at hnone
    cases hnone
  | some y =>
    obtain ⟨s', hs', hy⟩ := List.exists_of_findSome?_eq_some hfind
    split at hy
    · rename_i hlabel
      have hmem : y ∈ f.blocks := List.mem_filterMap.2 ⟨s', hs', hy⟩
      rw [List.inj_on_of_nodup_map h hmem hx ((Section.block?_id hy).trans hlabel)]
    · cases hy

/-- Every section has one terminator, its last line. -/
def Function.Ended (f : Function) : Prop :=
  ∀ s ∈ f.sections, ∃ lines t,
    s.lines = lines ++ [.terminator t] ∧ ∀ line ∈ lines, line.terminator? = none

/-- The first section begins by setting up slots, one after the other, and no other line of
a function sets up a slot. -/
def Function.Hoists (f : Function) (slots : List Slot) : Prop :=
  ∃ entry rest code, f.sections = entry :: rest ∧ entry.lines = slots.map .alloca ++ code ∧
    (∀ line ∈ code, line.slot? = none) ∧ ∀ s ∈ rest, ∀ line ∈ s.lines, line.slot? = none

structure Module.WellFormed (m : Module) : Prop where
  ended : m.main.Ended
  hoisted : m.main.Hoists m.main.slots
  ids : (m.main.blocks.map Block.id).Nodup
  results : (m.main.blocks.flatMap Block.results).Nodup
  /-- There is an entry, and no branch goes there. -/
  entry : ∃ e rest, m.main.blocks = e :: rest ∧ ∀ b ∈ m.main.blocks, e.id ∉ b.terminator.targets
  targets : ∀ b ∈ m.main.blocks, ∀ t ∈ b.terminator.targets, ∃ b' ∈ m.main.blocks, b'.id = t
  /-- There is one return, and it returns zero. -/
  returns : m.main.blocks.filterMap (·.terminator.returned?) = [.int 0]
  instrs : ∀ b ∈ m.main.blocks, ∀ i ∈ b.body, i.Typed m
  terminators : ∀ b ∈ m.main.blocks, b.terminator.Typed
  operands : ∀ b ∈ m.main.blocks, ∀ i o, b.Uses i o → o.Valid m b i

end TinyScript.Ir
