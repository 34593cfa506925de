import TinyScript.Ir.Link
import TinyScript.Machine

/-! Running modules and calling the library by name, and what can be seen of
it. -/

namespace TinyScript

open Text (Bytes)

namespace Machine.Ending

/-- What a run that ends this way leaves on the error channel. -/
def diagnostic : Ending → String
  | outOfBounds i n =>
    "index " ++ toString i.toInt ++ " out of bounds for length " ++ toString n.toInt ++ "\n"
  | _ => ""

end Machine.Ending

/-- The exit status after an index was out of range. -/
def boundsFailStatus : Nat := 101

/-- What can be seen of a run. -/
structure Report where
  ending : Machine.Ending
  output : Bytes
  calls : List Machine.Call
  world : Library.World
  deriving DecidableEq, Repr

/-- Runs a module for at most `fuel` steps. -/
def Ir.Module.execute (m : Module) (w : Library.World) (fuel : Nat) :
    Except LinkError (Option Report) := do
  let _ ← link m.functions
  return (Machine.run m fuel (Machine.start m w)).map fun (ending, s) =>
    ⟨ending, s.output.toList, s.calls.toList, s.world⟩

/-- Runs a module several times. Only the first run takes place. -/
def Ir.Module.executeTimes (m : Module) (w : Library.World) (fuel : Nat) :
    Nat → List (Except LinkError (Option Report))
  | 0 => []
  | n + 1 => m.execute w fuel :: List.replicate n (.error .alreadyOwned)

namespace Library

/-- A call by name, from a module that has a function to start with or has
none. -/
structure Request where
  name : String
  args : List Value
  hasMain : Bool
  deriving DecidableEq, Repr

/-- The functions of the module that a call is made from. -/
def Request.functions (r : Request) : List Ir.Linkable :=
  ⟨r.name, 0⟩ :: if r.hasMain then [⟨"main", 1⟩] else []

/-- Makes a call by name. Arguments that do not fit give no call. -/
def Request.perform (r : Request) (w : World) :
    Except Ir.LinkError (Option Machine.Call × World) := do
  let mapping ← Ir.link r.functions
  match mapping.lookup r.name with
  | some (.library f) =>
    match f.call? w r.args with
    | some out => return (some ⟨r.name, r.args, out.result, out.array⟩, out.world)
    | none => return (none, w)
  | _ => return (none, w)

/-- Makes calls in order, each in the world the one before left behind. -/
def performAll (w : World) : List Request → List (Except Ir.LinkError (Option Machine.Call))
  | [] => []
  | r :: rs =>
    match r.perform w with
    | .ok (call, w) => .ok call :: performAll w rs
    | .error e => .error e :: performAll w rs

end Library

end TinyScript
