import TinyScript.Ast.Parser
import TinyScript.Core.Check
import TinyScript.Core.Lower

/-! From source text to a module. -/

namespace TinyScript

inductive CompileError where
  | parse (error : Ast.ParseError)
  | check (error : Core.CheckError)
  deriving DecidableEq, Repr

/-- What is wrong, with the place where that is known. -/
def CompileError.message : CompileError → String
  | parse e => e.render (·.message)
  | check e => e.message

/-- A module and the warnings about the program it came from. -/
structure Compiled where
  code : Ir.Module
  warnings : List Core.Warning
  deriving DecidableEq, Repr

def generate (p : Ast.Program) (options : Core.Options) : Except Core.CheckError Compiled := do
  let (checked, warnings) ← Core.Program.check p
  return ⟨checked.lower options, warnings⟩

def compile (source : String) (options : Core.Options) : Except CompileError Compiled :=
  match Ast.Program.parse source with
  | .error e => .error (.parse e)
  | .ok p => (generate p options).mapError .check

end TinyScript
