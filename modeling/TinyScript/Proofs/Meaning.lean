import TinyScript.Core
import TinyScript.Execution

/-! What running a program means, apart from any machine. A value is a number, a
truth value, a text or a reference to an array. Every declaration owns one cell
and every array literal one storage, for the whole run; both are numbered
together, in the order in which those parts of the program are complete. A
computation changes the store and gives a value, or ends the run, or is cut off
because a loop used up the turns it was allowed. Reading a cell before it is
written has no meaning, and neither has an array too long for 32-bit indices: a
computation that comes to either is stuck. -/

namespace TinyScript.Meaning

open Number (Double)
open Text (Bytes)
open Machine (Ending Call)

inductive Value where
  | int (value : Int32)
  | bool (value : Bool)
  | double (value : Double)
  | str (bytes : Bytes)
  /-- The array in the storage with this number. -/
  | array (place : Nat)
  deriving DecidableEq, Repr

structure Store where
  cells : Nat → Option Value
  storages : Nat → Option (List Value)
  output : Bytes
  calls : List Call
  world : Library.World

/-- Nothing written, printed or called. -/
def Store.initial (w : Library.World) : Store := ⟨fun _ => none, fun _ => none, [], [], w⟩

inductive Result (α : Type) where
  | gives (value : α) (store : Store)
  | ends (ending : Ending) (store : Store)
  /-- A loop took more turns than it was allowed. -/
  | unfinished

def Eval (α : Type) : Type := Store → Result α

def Eval.pure {α : Type} (a : α) : Eval α := fun s => .gives a s

def Eval.bind {α β : Type} (x : Eval α) (f : α → Eval β) : Eval β := fun s =>
  match x s with
  | .gives a s => f a s
  | .ends e s => .ends e s
  | .unfinished => .unfinished

instance : Monad Eval where
  pure := Eval.pure
  bind := Eval.bind

variable {α β γ : Type}

theorem pure_apply (a : α) (s : Store) : (pure a : Eval α) s = .gives a s := rfl

theorem bind_apply (x : Eval α) (f : α → Eval β) (s : Store) :
    (x >>= f) s = match x s with
      | .gives a s => f a s
      | .ends e s => .ends e s
      | .unfinished => .unfinished := rfl

theorem bind_bind (x : Eval α) (f : α → Eval β) (g : β → Eval γ) :
    (x >>= f) >>= g = x >>= fun a => f a >>= g := by
  funext s
  rw [bind_apply, bind_apply, bind_apply]
  cases x s with
  | gives a s' => rfl
  | ends e s' => rfl
  | unfinished => rfl

def leave (e : Ending) : Eval α := fun s => .ends e s

def stuck : Eval α := leave .stuck

def orStuck : Option α → Eval α
  | some a => pure a
  | none => stuck

/-- Takes turns for as long as a turn asks for another, at most `fuel` of them. -/
def repeatWhile (turn : Eval Bool) : Nat → Eval Unit
  | 0 => fun _ => .unfinished
  | fuel + 1 => do
    if ← turn then repeatWhile turn fuel

/-! ### Cells and storages -/

/-- Changes what a number stands for. -/
def assign (f : Nat → Option α) (k : Nat) (a : α) : Nat → Option α :=
  fun j => if j = k then some a else f j

def readCell (k : Nat) : Eval Value := fun s => orStuck (s.cells k) s

def writeCell (k : Nat) (v : Value) : Eval Unit := fun s =>
  .gives () { s with cells := assign s.cells k v }

/-- The most elements an array has. -/
def maxLength : Nat := 2147483648

/-- How many elements there are, as an integer of the program. -/
def count (es : List α) : Int32 := Int32.ofNat es.length

/-- Puts elements into a storage. -/
def fill (k : Nat) (es : List Value) : Eval Value := fun s =>
  if maxLength < es.length then .ends .stuck s
  else .gives (.array k) { s with storages := assign s.storages k es }

/-- The storage an array is in, and its elements. -/
def contents : Value → Eval (Nat × List Value)
  | .array k => fun s => orStuck ((s.storages k).map fun es => (k, es)) s
  | _ => stuck

def length (array : Value) : Eval Value := do
  let (_, es) ← contents array
  return .int (count es)

/-- Ends the run after an index was out of range. -/
def outOfBounds (i n : Int32) : Eval α := fun s =>
  .ends (.outOfBounds i n) { s with calls := s.calls ++ [Machine.boundsCall i n] }

/-- The storage and the position of an element, if there is one at an index. -/
def locate (array index : Value) : Eval (Nat × Nat) := do
  let (k, es) ← contents array
  match index with
  | .int i =>
    if 0 ≤ i.toInt ∧ i.toInt < es.length then return (k, i.toInt.toNat)
    else outOfBounds i (count es)
  | _ => stuck

def readElement (k i : Nat) : Eval Value := fun s => orStuck (s.storages k >>= (·[i]?)) s

def writeElement (k i : Nat) (v : Value) : Eval Unit := fun s =>
  match s.storages k with
  | some es => .gives () { s with storages := assign s.storages k (es.set i v) }
  | none => .ends .stuck s

/-! ### Operations on values -/

/-- The text of a literal. It ends at its first NUL. -/
def text (s : String) : Value := .str (Text.Bytes.cut (Text.Utf8.encode s.toList))

/-- Division by zero and the one quotient out of range are faults. -/
def divided (a b : Int32) (result : Int32) : Eval Value :=
  if b = 0 ∨ (a = Int32.minValue ∧ b = -1) then leave .fault else return .int result

/-- A truth value as an integer of one bit with a sign. -/
def signed (b : Bool) : Int := if b then -1 else 0

/-- A truth value as a number. -/
def unsigned (b : Bool) : Int := if b then 1 else 0

/-- A condition holds if it is true or not zero. -/
def truth : Value → Eval Bool
  | .bool b => return b
  | .int n => return n != 0
  | _ => stuck

/-! ### Printing and calls -/

def put (bytes : Bytes) : Eval Unit := fun s => .gives () { s with output := s.output ++ bytes }

/-- What an integer looks like. -/
def digits (n : Int32) : Bytes := Text.Utf8.encode (toString n.toInt).toList

def print (newline : Bool) (v : Value) : Eval Unit :=
  let tail : Bytes := if newline then [10] else []
  match v with
  | .str b => put (b ++ tail)
  | .int n => put (digits n ++ tail)
  | _ => stuck

def int? : Value → Option Int32
  | .int n => some n
  | _ => none

/-- What a library function gets for a value: for an array its elements, as many
as it has by its length as an integer. -/
def passed? (s : Store) : Value → Option Library.Value
  | .int n => some (.i32 n)
  | .double d => some (.f64 d)
  | .str b => some (.str (some b))
  | .array k => do
    let es ← s.storages k
    let xs ← (es.take (count es).toInt.toNat).mapM int?
    return .array xs
  | .bool _ => none

def given? : Library.Value → Option Value
  | .i32 n => some (.int n)
  | .f64 d => some (.double d)
  | .str (some b) => some (.str b)
  | _ => none

/-- The first storage among values. -/
def place? : List Value → Option Nat
  | [] => none
  | .array k :: _ => some k
  | _ :: vs => place? vs

/-- Puts integers in the place of the first elements of a storage. -/
def Store.overwrite (s : Store) (k : Nat) (xs : List Int32) : Store :=
  match s.storages k with
  | some es => { s with storages := assign s.storages k (xs.map .int ++ es.drop xs.length) }
  | none => s

/-- The store after a call that took place. -/
def Store.called (s : Store) (f : Library.Function) (vs : List Value) (args : List Library.Value)
    (out : Library.Outcome) : Store :=
  let s := { s with
    calls := s.calls ++ [⟨f.name, args, out.result, out.array⟩]
    world := out.world }
  match place? vs, out.array with
  | some k, some xs => s.overwrite k xs
  | _, _ => s

/-- Calls a library function, which may give a value. -/
def call (f : Library.Function) (vs : List Value) : Eval (Option Value) := fun s =>
  match vs.mapM (passed? s) with
  | none => .ends .stuck s
  | some args =>
    match f.call? s.world args with
    | none => .ends .stuck s
    | some out => .gives (given? out.result) (s.called f vs args out)

/-- What can be seen of a computation that was not cut off. -/
def Result.report? : Result Unit → Option Report
  | .gives _ s => some ⟨.returned 0, s.output, s.calls, s.world⟩
  | .ends e s => some ⟨e, s.output, s.calls, s.world⟩
  | .unfinished => none

end TinyScript.Meaning
