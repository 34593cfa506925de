/-! Types of values. An array type carries its element type; its length goes with
the value. -/

namespace TinyScript

inductive Ty where
  | str
  | i32
  | f64
  | bool
  | void
  | array (elem : Ty)
  deriving DecidableEq, Repr

namespace Ty

def name : Ty → String
  | str => "string"
  | i32 => "i32"
  | f64 => "f64"
  | bool => "boolean"
  | void => "void"
  | array elem => elem.name ++ "[]"

def element? : Ty → Option Ty
  | array elem => some elem
  | _ => none

def isArray (t : Ty) : Bool := t.element?.isSome

/-- Whether there are values of a type: of all but void and arrays of it. -/
def hasValues : Ty → Bool
  | void => false
  | array elem => elem.hasValues
  | _ => true

def scalarOfName? : String → Option Ty
  | "string" => some str
  | "i32" => some i32
  | "f64" => some f64
  | "number" => some f64
  | "boolean" => some bool
  | _ => none

/-- A name without the brackets it ends with. -/
def stripBrackets? (name : String) : Option String :=
  let cs := name.toList
  let n := cs.length - 2
  if cs.drop n = ['[', ']'] then some (String.ofList (cs.take n)) else none

/-- The type a name stands for: a scalar, or an array of a scalar. -/
def ofName? (name : String) : Option Ty :=
  match stripBrackets? name with
  | some elem => (scalarOfName? elem).map array
  | none => scalarOfName? name

end Ty

end TinyScript
