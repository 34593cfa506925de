import TinyScript.Ast.Tree
import TinyScript.CommandLine.Arguments
import TinyScript.Compile
import TinyScript.Execution
import TinyScript.Ir.Printer
import TinyScript.Token.Lexer

/-! The command line as a function: from arguments, standard input and the files
of a directory to what it prints, how it ends and what the files are then. -/

namespace TinyScript.CommandLine

open Library (Files FileError World)
open Text (Bytes)

inductive Status where
  | exit (code : Nat)
  /-- An arithmetic fault. -/
  | killed
  deriving DecidableEq, Repr

structure Result where
  status : Status
  stdout : Bytes
  stderr : String
  files : Files
  deriving DecidableEq, Repr

/-- Why a source cannot be had. -/
inductive ReadError where
  | file (error : FileError)
  | notText
  deriving DecidableEq, Repr

def ReadError.message : ReadError → String
  | file e => e.message
  | notText => "stream did not contain valid UTF-8"

inductive Error where
  | runWithoutIr
  | inputFile (path : String) (error : ReadError)
  | standardInput (error : ReadError)
  | compile (error : CompileError)
  | link (error : Ir.LinkError)
  | outputFile (path : String) (error : FileError)
  deriving DecidableEq, Repr

def Error.message : Error → String
  | runWithoutIr => "--run requires --emit ir"
  | inputFile path e => "failed to read input file " ++ path ++ ": " ++ e.message
  | standardInput e => "failed to read standard input: " ++ e.message
  | compile e => e.message
  | link e => "failed to run the program: " ++ e.message
  | outputFile path e => "failed to write output file " ++ path ++ ": " ++ e.message

/-! ### Reading -/

/-- The text that bytes are, if they are one. -/
def text? (bytes : Bytes) : Except ReadError String :=
  let cs := Text.Utf8.decode bytes
  if Text.Utf8.encode cs = bytes then .ok (String.ofList cs) else .error .notText

/-- The file to read; a dash stands for standard input. -/
def Arguments.inputFile? (a : Arguments) : Option String :=
  a.input.filter (· ≠ "-")

/-- Whether standard input is needed. -/
def Request.readsInput : Request → Bool
  | .process a => a.inputFile?.isNone
  | _ => false

def readSource (a : Arguments) (stdin : Bytes) (files : Files) : Except Error String :=
  match a.inputFile? with
  | some path =>
    match files.read path.toList with
    | .ok bytes => (text? bytes).mapError (.inputFile path)
    | .error e => .error (.inputFile path (.file e))
  | none => (text? stdin).mapError .standardInput

/-! ### Processing -/

def Arguments.options (a : Arguments) : Core.Options :=
  ⟨a.moduleName.getD ({} : Core.Options).moduleName, !a.noBoundsChecks⟩

def Arguments.emitted (a : Arguments) : Emit := a.emit.getD .ir

/-- What a source becomes. -/
def emit (a : Arguments) (source : String) : Except Error String :=
  match a.emitted with
  | .tokens => .ok (String.join ((Token.tokens source).map fun t => t.render ++ "\n"))
  | .ast =>
    match Ast.Program.parse source with
    | .ok p => .ok p.tree
    | .error e => .error (.compile (.parse e))
  | .ir =>
    match compile source a.options with
    | .ok c => .ok c.code.render
    | .error e => .error (.compile e)

/-- Puts the result where it belongs. -/
def deliver (a : Arguments) (files : Files) (text : String) : Except Error Result :=
  let bytes := Text.Utf8.encode text.toList
  match a.output with
  | none => .ok ⟨.exit 0, bytes, "", files⟩
  | some path =>
    match files.write path.toList bytes with
    | .ok files => .ok ⟨.exit 0, [], "", files⟩
    | .error e => .error (.outputFile path e)

/-- What a finished run comes to. What was printed before a fault is lost. -/
def ofReport (r : Report) : Result :=
  match r.ending with
  | .returned n => ⟨.exit (n.toUInt32.toNat % 256), r.output, "", r.world.files⟩
  | .outOfBounds .. => ⟨.exit boundsFailStatus, r.output, r.ending.diagnostic, r.world.files⟩
  | .fault | .stuck => ⟨.killed, [], "", r.world.files⟩

/-- Compiles and runs a source. -/
def execute (a : Arguments) (source : String) (files : Files) (fuel : Nat) :
    Except Error (Option Result) :=
  match compile source a.options with
  | .error e => .error (.compile e)
  | .ok c =>
    match c.code.execute { World.initial with files } fuel with
    | .error e => .error (.link e)
    | .ok report => .ok (report.map ofReport)

def process (a : Arguments) (stdin : Bytes) (files : Files) (fuel : Nat) :
    Except Error (Option Result) := do
  if a.run ∧ a.emitted ≠ .ir then
    throw .runWithoutIr
  let source ← readSource a stdin files
  if a.run then
    execute a source files fuel
  else
    return some (← deliver a files (← emit a source))

/-! ### The whole -/

def versionText : String := "cype 0.0.1\n"

def helpText : String :=
  "Compiles a Cype program to LLVM IR\n\n" ++
  "Usage: cypec [OPTIONS] [INPUT]\n\n" ++
  "Arguments:\n" ++
  "  [INPUT]  Source file; reads standard input when omitted or `-`\n\n" ++
  "Options:\n" ++
  "  -o, --output <OUTPUT>     Write the output here instead of standard output\n" ++
  "      --emit <EMIT>         [default: ir] [possible values: tokens, ast, ir]\n" ++
  "      --run                 " ++
  "Run the compiled program instead of printing it. Requires `--emit ir`\n" ++
  "      --module-name <NAME>  [default: cype]\n" ++
  "      --no-bounds-checks    Skip the runtime range checks on array accesses\n" ++
  "  -h, --help                Print help\n" ++
  "  -V, --version             Print version\n"

def usageText : String :=
  "Usage: cypec [OPTIONS] [INPUT]\n\nFor more information, try '--help'.\n"

/-- Prints a text and does nothing else. -/
def printing (text : String) (files : Files) : Result :=
  ⟨.exit 0, Text.Utf8.encode text.toList, "", files⟩

/-- Does what a request says. There is no result if a run takes more than `fuel`
steps. -/
def Request.perform (r : Request) (stdin : Bytes) (files : Files) (fuel : Nat) : Option Result :=
  match r with
  | .help => some (printing helpText files)
  | .version => some (printing versionText files)
  | .process a =>
    match CommandLine.process a stdin files fuel with
    | .ok result => result
    | .error e => some ⟨.exit 1, [], "error: " ++ e.message ++ "\n", files⟩

/-- The result of a command line that is not well formed. -/
def misused (files : Files) : Result := ⟨.exit 2, [], usageText, files⟩

/-- Does what a command line says. -/
def run (args : List String) (stdin : Bytes) (files : Files) (fuel : Nat) : Option Result :=
  match Request.read? args with
  | some r => r.perform stdin files fuel
  | none => some (misused files)

end TinyScript.CommandLine
