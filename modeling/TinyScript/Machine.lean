import TinyScript.Ir
import TinyScript.Library.Call

/-! Running a module, one instruction at a time. A run keeps the results of
instructions, the contents of the slots, what was printed, the library calls
made and what the library keeps. It ends by returning, by leaving after a failed
bounds check or by an arithmetic fault. Reading a slot before it is written, an
address without a cell and operands of the wrong kind have no meaning, and a run
that comes to one of them is stuck. -/

namespace TinyScript.Machine

open Ir
open Number (Double)
open Text (Bytes)

/-- The element `offset` of a slot. -/
structure Address where
  slot : Nat
  offset : Int
  deriving DecidableEq, Repr

inductive Value where
  | int (value : Int32)
  | bool (value : Bool)
  | double (value : Double)
  | str (bytes : Bytes)
  | address (value : Address)
  /-- Either part may not be there yet. -/
  | slice (data : Option Address) (length : Option Int32)
  deriving DecidableEq, Repr

/-- Slots, each with a cell for every element. -/
abbrev Memory := Array (Array (Option Value))

namespace Memory

/-- How many cells a slot has. -/
def cells : Ir.Ty → Nat
  | .array n _ => n
  | _ => 1

def ofSlots (slots : List Slot) : Memory :=
  (slots.map fun s => Array.replicate (cells s.type) none).toArray

/-- What a cell holds, if there is such a cell and it was written. -/
def read? (m : Memory) (a : Address) : Option Value :=
  if a.offset < 0 then none else (m[a.slot]?.bind (·[a.offset.toNat]?)).join

/-- Whether there is a cell at an address. -/
def contains (m : Memory) (a : Address) : Bool :=
  match m[a.slot]? with
  | some block => decide (0 ≤ a.offset) && decide (a.offset < block.size)
  | none => false

/-- Writes a cell, if there is such a cell. -/
def write (m : Memory) (a : Address) (v : Value) : Memory :=
  if a.offset < 0 then m else m.modify a.slot (·.setIfInBounds a.offset.toNat (some v))

/-- The integers in `n` cells from an address on. -/
def readInts? (m : Memory) (a : Address) : Nat → Option (List Int32)
  | 0 => some []
  | n + 1 =>
    match m.read? a with
    | some (.int v) => (readInts? m { a with offset := a.offset + 1 } n).map (v :: ·)
    | _ => none

/-- Writes integers to the cells from an address on. -/
def writeInts (m : Memory) (a : Address) : List Int32 → Memory
  | [] => m
  | v :: vs => writeInts (m.write a (.int v)) { a with offset := a.offset + 1 } vs

end Memory

/-- A library call that was made. -/
structure Call where
  name : String
  args : List Library.Value
  result : Library.Value
  array : Option (List Int32)
  deriving DecidableEq, Repr

structure State where
  /-- What is left of the current block. -/
  body : List Instr
  terminator : Terminator
  /-- The latest result of each instruction. -/
  results : Array (Option Value)
  memory : Memory
  output : Array UInt8
  calls : Array Call
  world : Library.World
  deriving DecidableEq, Repr

/-- How a run ends. -/
inductive Ending where
  | returned (status : Int32)
  | outOfBounds (index length : Int32)
  | fault
  | stuck
  deriving DecidableEq, Repr

/-- What one step leads to. -/
inductive Step where
  | next (state : State)
  | halt (ending : Ending) (state : State)
  deriving DecidableEq, Repr

/-! ### Operands -/

def operand? (m : Module) (s : State) : Operand → Option Value
  | .result id _ => (s.results[id]?).join
  | .slot k _ => some (.address ⟨k, 0⟩)
  | .text k =>
    match m.symbols[k]? with
    | some (.text t) => some (.str (Text.Bytes.cut (Text.Utf8.encode t.toList)))
    | _ => none
  | .int n => some (.int n)
  | .bool b => some (.bool b)
  | .double d => some (.double d)
  | .undef (.slice _) => some (.slice none none)
  | .undef _ => none

/-! ### Operations on values -/

/-- Division by zero and the one quotient out of range are faults. -/
def arith (op : ArithOp) (a b : Int32) : Except Ending Int32 :=
  match op with
  | .add => .ok (a + b)
  | .sub => .ok (a - b)
  | .mul => .ok (a * b)
  | .sdiv => if b = 0 ∨ (a = Int32.minValue ∧ b = -1) then .error .fault else .ok (a / b)
  | .srem => if b = 0 ∨ (a = Int32.minValue ∧ b = -1) then .error .fault else .ok (a % b)

def compareInts (cond : IntCond) (a b : Int) : Bool :=
  match cond with
  | .eq => a = b
  | .ne => a ≠ b
  | .slt => a < b
  | .sle => a ≤ b
  | .sgt => a > b
  | .sge => a ≥ b
  | .ult => false

/-- A boolean as a one-bit signed integer. -/
def signedBit (b : Bool) : Int := if b then -1 else 0

def icmp? (cond : IntCond) : Value → Value → Option Bool
  | .int a, .int b =>
    if cond = .ult then some (a.toUInt32 < b.toUInt32)
    else some (compareInts cond a.toInt b.toInt)
  | .bool a, .bool b => some (compareInts cond (signedBit a) (signedBit b))
  | _, _ => none

/-- Whether two doubles are numbers and differ. -/
def orderedAndDiffer (a b : Double) : Bool :=
  !a.isNaN && !b.isNaN && a != b && (a.magnitude != 0 || b.magnitude != 0)

def cast? : Cast → Value → Option Value
  | .sitofp, .int n => some (.double (.ofInt n.toInt))
  | .uitofp, .bool b => some (.double (.ofInt (if b then 1 else 0)))
  | .fptosi, .double d => some (.int d.toInt32)
  | .zext, .bool b => some (.int (if b then 1 else 0))
  | _, _ => none

def extract? : Field → Value → Option Value
  | .data, .slice (some a) _ => some (.address a)
  | .length, .slice _ (some n) => some (.int n)
  | _, _ => none

def insert? : Field → Value → Value → Option Value
  | .data, .slice _ n, .address a => some (.slice (some a) n)
  | .length, .slice d _, .int n => some (.slice d (some n))
  | _, _, _ => none

/-! ### Calls -/

def decimal (n : Int32) : Bytes := Text.Utf8.encode (toString n.toInt).toList

/-- A format with its directives filled in: `%d` by an integer, `%s` by a
string. -/
def format? : Bytes → List Value → Option Bytes
  | [], _ => some []
  | 37 :: 100 :: rest, .int n :: vs => (format? rest vs).map (decimal n ++ ·)
  | 37 :: 115 :: rest, .str s :: vs => (format? rest vs).map (s ++ ·)
  | 37 :: _, _ => none
  | b :: rest, vs => (format? rest vs).map (b :: ·)

/-- The sign of the first difference, bytes taken as unsigned. -/
def compareText : Bytes → Bytes → Int32
  | [], [] => 0
  | [], _ :: _ => -1
  | _ :: _, [] => 1
  | a :: as, b :: bs => if a < b then -1 else if b < a then 1 else compareText as bs

/-- Passed values as library arguments, an address and a length making one
array. -/
def arguments? (mem : Memory) :
    List TinyScript.Ty → List Value → Option (List Library.Value × Option Address)
  | [], [] => some ([], none)
  | .array .i32 :: params, .address a :: .int n :: vs => do
    let xs ← mem.readInts? a n.toInt.toNat
    let (args, _) ← arguments? mem params vs
    return (.array xs :: args, some a)
  | .i32 :: params, .int n :: vs =>
    (arguments? mem params vs).map fun (args, place) => (.i32 n :: args, place)
  | .f64 :: params, .double d :: vs =>
    (arguments? mem params vs).map fun (args, place) => (.f64 d :: args, place)
  | .str :: params, .str b :: vs =>
    (arguments? mem params vs).map fun (args, place) => (.str (some b) :: args, place)
  | _, _ => none

/-- A library result as a value. -/
def ofLibrary? : Library.Value → Option Value
  | .i32 n => some (.int n)
  | .f64 d => some (.double d)
  | .str (some b) => some (.str b)
  | _ => none

/-- What an operation does to the state beside giving a result. -/
inductive Effect where
  | none
  | write (address : Address) (value : Value)
  | print (bytes : Bytes)
  /-- A library call that was made, the array it was given, and what the library
  keeps afterwards. -/
  | call (call : Call) (array : Option Address) (world : Library.World)
  deriving DecidableEq, Repr

/-- What a call of a library function does and gives. -/
def callLibrary? (s : State) (f : Library.Function) (vs : List Value) :
    Option (Effect × Option Value) := do
  let (args, place) ← arguments? s.memory f.signature.params vs
  let out ← f.call? s.world args
  return (.call ⟨f.name, args, out.result, out.array⟩ place out.world, ofLibrary? out.result)

/-- What a call does and gives. -/
def call? (s : State) : External → List Value → Option (Effect × Option Value)
  | .puts, [.str b] => some (.print (b ++ [10]), some (.int 0))
  | .printf, .str format :: vs =>
    (format? format vs).map fun b => (.print b, some (.int (Int32.ofNat b.length)))
  | .strcmp, [.str a, .str b] => some (.none, some (.int (compareText a b)))
  | .library f, vs => callLibrary? s f vs
  | _, _ => none

/-- The state after an effect. -/
def State.apply (s : State) : Effect → State
  | .none => s
  | .write a v => { s with memory := s.memory.write a v }
  | .print bytes => { s with output := s.output ++ bytes }
  | .call call place world =>
    match place, call.array with
    | some a, some xs =>
      { s with memory := s.memory.writeInts a xs, calls := s.calls.push call, world }
    | _, _ => { s with calls := s.calls.push call, world }

/-! ### Steps -/

/-- Turns a missing meaning into being stuck. -/
def orStuck {α : Type} : Option α → Except Ending α
  | some x => .ok x
  | none => .error .stuck

/-- An operation without an effect. -/
def gives (v : Value) : Effect × Option Value := (.none, some v)

/-- What an operation does and gives. -/
def perform (m : Module) (s : State) (op : Op) : Except Ending (Effect × Option Value) :=
  let value (o : Operand) : Except Ending Value := orStuck (operand? m s o)
  match op with
  | .load _ p => do
    match ← value p with
    | .address a => return gives (← orStuck (s.memory.read? a))
    | _ => throw .stuck
  | .store v p => do
    let v ← value v
    match ← value p with
    | .address a => if s.memory.contains a then return (.write a v, none) else throw .stuck
    | _ => throw .stuck
  | .arith op a b => do
    match ← value a, ← value b with
    | .int a, .int b => return gives (.int (← arith op a b))
    | _, _ => throw .stuck
  | .icmp cond a b => do return gives (.bool (← orStuck (icmp? cond (← value a) (← value b))))
  | .fcmpOne a b => do
    match ← value a, ← value b with
    | .double a, .double b => return gives (.bool (orderedAndDiffer a b))
    | _, _ => throw .stuck
  | .cast kind v _ => do return gives (← orStuck (cast? kind (← value v)))
  | .elementAddress _ p i => do
    match ← value p, ← value i with
    | .address a, .int n => return gives (.address { a with offset := a.offset + n.toInt })
    | _, _ => throw .stuck
  | .firstAddress _ _ p => do
    match ← value p with
    | .address a => return gives (.address a)
    | _ => throw .stuck
  | .extract o f => do return gives (← orStuck (extract? f (← value o)))
  | .insert o v f => do return gives (← orStuck (insert? f (← value o) (← value v)))
  | .call f args => do
    let vs ← args.mapM value
    match f, vs with
    | .boundsFail, [.int i, .int n] => throw (.outOfBounds i n)
    | _, _ => orStuck (call? s f vs)

/-- Records the result of an instruction. -/
def record (s : State) (id : Option Nat) (v : Option Value) : State :=
  match id, v with
  | some id, some v => { s with results := s.results.setIfInBounds id (some v) }
  | _, _ => s

/-- The call that ends a run. -/
def boundsCall (i n : Int32) : Call :=
  ⟨External.boundsFail.name, [.i32 i, .i32 n], .void, none⟩

/-- Ends a run; a failed bounds check is a call like any other. -/
def halt (s : State) : Ending → Step
  | .outOfBounds i n =>
    .halt (.outOfBounds i n) { s with calls := s.calls.push (boundsCall i n) }
  | e => .halt e s

/-- Goes to a block. -/
def enter (m : Module) (s : State) (id : Nat) : Step :=
  match m.main.block? id with
  | some b => .next { s with body := b.body, terminator := b.terminator }
  | none => .halt .stuck s

def step (m : Module) (s : State) : Step :=
  match s.body with
  | i :: rest =>
    match perform m s i.op with
    | .ok (effect, v) => .next (record ({ s with body := rest }.apply effect) i.id v)
    | .error e => halt s e
  | [] =>
    match s.terminator with
    | .jump target => enter m s target
    | .branch c yes no =>
      match operand? m s c with
      | some (.bool b) => enter m s (if b then yes else no)
      | _ => .halt .stuck s
    | .ret v =>
      match operand? m s v with
      | some (.int n) => .halt (.returned n) s
      | _ => .halt .stuck s
    | .unreachable => .halt .stuck s

/-- Runs for at most `fuel` steps. -/
def run (m : Module) : Nat → State → Option (Ending × State)
  | 0, _ => none
  | fuel + 1, s =>
    match step m s with
    | .next s => run m fuel s
    | .halt e s => some (e, s)

/-- More fuel keeps a finished answer. -/
theorem run_mono {m : Module} {n k : Nat} {s : State} {r : Ending × State}
    (h : run m n s = some r) : run m (n + k) s = some r := by
  induction n generalizing s with
  | zero => simp [run] at h
  | succ n ih =>
    rw [Nat.succ_add]
    simp only [run] at h ⊢
    split at h
    · exact ih h
    · exact h

/-- The state before the first step: slots unwritten, nothing printed. -/
def start (m : Module) (w : Library.World) : State :=
  let entry := m.main.blocks.head?
  { body := (entry.map (·.body)).getD []
    terminator := (entry.map (·.terminator)).getD .unreachable
    results := Array.replicate m.main.hints.length none
    memory := Memory.ofSlots m.main.slots
    output := #[]
    calls := #[]
    world := w }

end TinyScript.Machine
